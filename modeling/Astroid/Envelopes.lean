import Astroid.Custodians
import Astroid.Treasury.Envelopes
import Astroid.Wallet.Envelopes

/-!
# One envelope, many payers

Wallets and treasuries that share an envelope of one budget contract all consume it before
they pay.  Whoever of them is called in what order, everything they pay under the envelope
within one of its windows stays within the limit (`Fleet.envelope_bounds_fleet`).
-/

namespace Astroid

open Machine Tally

namespace Custodian

variable {World : Type} {budget : Address} {id : String} {view : World → BudgetContract.State}

/-- At `budget` there is a budget contract, which stores what `view` shows, and the contract
reaches it through `consume` alone. -/
def Budgeted (budget : Address) (view : World → BudgetContract.State) : Custodian World → Prop
  | .treasury H => H.Budgeted budget view
  | .wallet H => H.Budgeted budget view
  | c => ∀ w asset src dst amount w', c.host.transfer w asset src dst amount = .ok w' →
      view w' = view w

/-- The sub-calls of the call, which only a wallet batch makes, neither reconfigure the
envelope nor release into it. -/
def LeavesEnvelope (budget : Address) (id : String) (view : World → BudgetContract.State) :
    (c : Custodian World) → Env c.host.self → c.Call → Prop
  | .wallet H, env, call => WalletContract.LeavesEnvelope H budget id view env call
  | _, _, _ => True

/-- What a call that led from `s` to `s'` paid under the envelope. -/
def drawn (budget : Address) (id : String) :
    (c : Custodian World) → c.State → c.Call → c.State → ℤ
  | .treasury _, s, _, s' => TreasuryContract.drawn budget id s s'
  | .wallet H, s, call, _ => WalletContract.drawn H budget id s call
  | _, _, _, _ => 0

/-- A contract that only transfers leaves the budget contract alone. -/
theorem closed_view {H : TokenHost World} {payers : Address → Prop}
    (hx : ∀ w asset src dst amount w', H.transfer w asset src dst amount = .ok w' →
      view w' = view w) : H.TransferClosed payers (fun w w' => view w' = view w) where
  refl _ := rfl
  trans h h' := h'.trans h
  transfer h _ := hx _ _ _ _ _ _ h

/-- **What a custodian pays under an envelope it draws on it.** -/
theorem exec_draws (c : Custodian World) (hx : c.Budgeted budget view) {env : Env c.host.self}
    {call : c.Call} {s s' : c.State} (hleaves : c.LeavesEnvelope budget id view env call)
    (h : c.deployment.exec env s call = .ok s') :
    BudgetContract.Draws budget id env.timestamp.toNat (c.drawn budget id s call s')
      (view (c.world s)) (view (c.world s')) := by
  have hidle : view (c.world s') = view (c.world s) →
      BudgetContract.Draws budget id env.timestamp.toNat 0 (view (c.world s)) (view (c.world s')) := by
    intro hview
    rw [hview]
    exact .refl
  cases c with
  | escrow H => exact hidle (EscrowContract.exec_moves (closed_view hx) h)
  | treasury H => exact TreasuryContract.exec_draws hx h
  | wallet H => exact WalletContract.exec_draws hx hleaves h
  | proposal H => exact hidle (ProposalContract.exec_moves (closed_view hx) h)

end Custodian

namespace Fleet

variable {ι World : Type} [DecidableEq ι] {F : Fleet ι World} {budget : Address} {id : String}
  {view : World → BudgetContract.State}

/-- What an entry of a run paid under the envelope. -/
def drawn (budget : Address) (id : String) (e : Entry F.State F.Input) : ℤ :=
  match e.input with
  | .invoke i _ call => (F.member i).drawn budget id (e.pre.view i) call (e.post.view i)
  | .outside _ _ => 0

/-- In this entry, the sub-calls of wallet batches and the world outside neither reconfigure
the envelope nor release into it. -/
def LeavesEnvelope (budget : Address) (id : String) (view : World → BudgetContract.State)
    (e : Entry F.State F.Input) : Prop :=
  match e.input with
  | .invoke i env call => (F.member i).LeavesEnvelope budget id view env call
  | .outside time w => BudgetContract.Draws budget id time 0 (view e.pre.world) (view w)

/-- Each entry draws on the envelope what it pays under it. -/
theorem entry_draws (hx : ∀ i, (F.member i).Budgeted budget view) {e : Entry F.State F.Input}
    (hleaves : LeavesEnvelope budget id view e) (h : F.machine.step e.input e.pre e.post) :
    BudgetContract.Draws budget id e.input.time (drawn budget id e) (view e.pre.world)
      (view e.post.world) := by
  obtain ⟨pre, input, post⟩ := e
  cases input with
  | outside time w =>
      obtain ⟨_, hpost⟩ := h
      dsimp only at hpost
      rw [hpost]
      exact hleaves
  | invoke i env call =>
      have hdraws := (F.member i).exec_draws (hx i) hleaves (invoke_self h)
      simp only [State.view, Custodian.world_place] at hdraws
      exact hdraws

/-- **One envelope bounds all its payers.**  From an entry of a run on, where the envelope
`id` has the record `b`, allows no deficit and runs on windows of `w` seconds, let nobody
reconfigure it or release into it.  Then all custodians together, called by anybody in any
order, have paid under it by the end of each window at most one limit for each window, less
what was spent and besides the credit there was. -/
theorem envelope_bounds_fleet (hx : ∀ i, (F.member i).Budgeted budget view)
    {allow : F.Input → F.State → Prop} {tr₁ tr₂ : List (Entry F.State F.Input)}
    {q : Entry F.State F.Input} {s : F.State} {t w : ℕ} {b : BudgetContract.Budget}
    (hpath : F.machine.Path allow (tr₁ ++ q :: tr₂) s t)
    (hreach : (BudgetContract.machine budget).ReachableBy q.input.time (view q.post.world))
    (hb : (view q.post.world).budget id = some b) (hw : b.window = some w)
    (hnone : b.allowDeficit = false) (hspent : b.spent ≤ b.limit + b.rolloverCredit)
    (hleaves : ∀ e ∈ tr₂, LeavesEnvelope budget id view e) (k : ℕ) :
    tally (drawn budget id) (fun e => e.input.time < b.windowStart + (k + 1) * w) tr₂ + b.spent
      ≤ (k + 1) * b.limit + b.rolloverCredit :=
  BudgetContract.draws_bounded (fun s : F.State => view s.world) hpath hreach hb hw hnone
    hspent (fun e he _ hstep => entry_draws hx (hleaves e he) hstep) k

/-! ### A run -/

/-- An invocation of another contract, on behalf of whoever authorized this one. -/
def onward {current : Address} (env : Env current) (other : Address) : Env other where
  timestamp := env.timestamp
  sequence := env.sequence
  auths := env.auths.filter (· ≠ other)
  argAuths := env.argAuths
  current_notMem := by simp

/-- `consume` of the budget contract at `contract 9`. -/
def consumeAt {current : Address} (env : Env current) (w : Ledger × BudgetContract.State)
    (budget caller : Address) (id : String) (amount : ℤ) :
    Option (Ledger × BudgetContract.State) :=
  if h : budget = .contract 9 ∧ IsI128 amount then
    match BudgetContract.exec (onward env (.contract 9)) w.2 (.consume caller id ⟨amount, h.2⟩) with
    | .ok s => some (w.1, s)
    | .error _ => none
  else
    none

/-- A wallet at `contract 0` and a treasury at `contract 1`, next to that budget contract. -/
def two : Fin 2 → Custodian (Ledger × BudgetContract.State)
  | 0 => .wallet {
      toTokenHost := (ledgerHost (.contract 0)).beside BudgetContract.State
      getModulesBatch _ _ _ _ := .error none
      checkTransfer _ w _ _ _ _ _ := some w
      consume env w budget caller id amount :=
        match consumeAt env w budget caller id amount with
        | some w' => .ok (w', 0)
        | none => .error none
      invoke _ _ _ := .error none }
  | 1 => .treasury {
      toTokenHost := (ledgerHost (.contract 1)).beside BudgetContract.State
      lookup _ _ _ _ := none
      checkTransfer _ w _ _ _ _ _ := some w
      consume := consumeAt }

theorem consumeAt_consumes {current : Address} {env : Env current}
    {w w' : Ledger × BudgetContract.State} {gate caller : Address} {id : String} {amount : ℤ}
    (h : consumeAt env w gate caller id amount = some w') :
    gate = .contract 9 ∧
      BudgetContract.Consumes (.contract 9) id env.timestamp.toNat amount w.2 w'.2 := by
  unfold consumeAt at h
  split at h
  · rename_i hgate
    split at h
    · rename_i s hexec
      cases h
      exact ⟨hgate.1, onward env (.contract 9), caller, ⟨amount, hgate.2⟩, rfl, rfl, hexec⟩
    · cases h
  · cases h

theorem beside_view {self asset src dst : Address} {amount : ℤ}
    {w w' : Ledger × BudgetContract.State}
    (h : ((ledgerHost self).beside BudgetContract.State).transfer w asset src dst amount = .ok w') :
    w'.2 = w.2 := by
  simp only [TokenHost.beside] at h
  obtain ⟨_, _, rfl⟩ := Outcome.map_ok h
  rfl

theorem two_budgeted (i : Fin 2) : (two i).Budgeted (.contract 9) Prod.snd := by
  fin_cases i
  · refine ⟨?_, ?_, ?_, beside_view⟩
    · intro env w caller id amount w' remaining h
      dsimp only at h
      split at h
      · rename_i hconsume
        cases h
        exact (consumeAt_consumes hconsume).2
      · cases h
    · intro env w other caller id amount w' remaining hother h
      dsimp only at h
      split at h
      · rename_i hconsume
        exact absurd (consumeAt_consumes hconsume).1 hother
      · cases h
    · rintro _ _ _ _ _ _ _ _ ⟨⟩
      rfl
  · refine ⟨?_, ?_, ?_, beside_view⟩
    · intro env w caller id amount w' h
      exact (consumeAt_consumes h).2
    · intro env w other caller id amount w' hother h
      exact absurd (consumeAt_consumes h).1 hother
    · rintro _ _ _ _ _ _ _ _ ⟨⟩
      rfl

def duo : Fleet (Fin 2) (Ledger × BudgetContract.State) where
  member := two
  balance i j := by
    fin_cases i <;> fin_cases j <;> rfl
  apart i j hij := by
    fin_cases i <;> fin_cases j <;> first | exact absurd rfl hij | exact nofun

/-- Account 1 has allocated 100 a day to `eng`. -/
def allocating : List (Env (.contract 9) × BudgetContract.Call) :=
  [(signedAt 9 0 [1], .allocate (.account 1) "eng" ⟨100, isI128_hundred⟩ .daily false 0)]

def granted : BudgetContract.State :=
  (BudgetContract.deployment (.contract 9)).play BudgetContract.deployed allocating

def duoDeployed : duo.State where
  world := (savings, granted)
  storage
    | 0 => { WalletContract.deployed savings with world := (savings, granted) }
    | 1 => { TreasuryContract.deployed savings with world := (savings, granted) }

/-- Both are given 100, and both put what they pay to `eng`. -/
def duoOpening : List duo.Input :=
  [.invoke 0 (signedAt 0 0 [3]) (WalletContract.Call.initializeContract (.account 3)),
    .invoke 0 (signedAt 0 0 [1]) (WalletContract.Call.createWallet (.account 1)),
    .invoke 0 (signedAt 0 0 [3]) (WalletContract.Call.setBudget (.account 3) (.contract 9)),
    .invoke 0 (signedAt 0 0 [3]) (WalletContract.Call.setDefaultBudgetId (.account 3) "eng"),
    .invoke 0 (signedAt 0 0 [1]) (WalletContract.Call.deposit 1 (.account 1) (.contract 7) 100),
    .invoke 1 (signedAt 1 0 [1]) (TreasuryContract.Call.initializeContract "org" (.account 1)),
    .invoke 1 (signedAt 1 0 [1]) (TreasuryContract.Call.addApprovedAsset (.account 1) (.contract 7)),
    .invoke 1 (signedAt 1 0 [1]) (TreasuryContract.Call.deposit (.account 1) (.contract 7) 100),
    .invoke 1 (signedAt 1 0 [1]) (TreasuryContract.Call.setBudget (.account 1) (.contract 9))]

def duoLast : duo.Input :=
  .invoke 1 (signedAt 1 0 [1]) (TreasuryContract.Call.allocateBudget (.account 1) (.contract 7) "eng")

/-- The wallet pays 60 and the treasury 40. -/
def duoSpending : List duo.Input :=
  [.invoke 0 (signedAt 0 1 [1]) (WalletContract.Call.transfer (.account 1) 1 (.account 2) (.contract 7) 60),
    .invoke 1 (signedAt 1 2 [1]) (TreasuryContract.Call.withdraw (.account 1) (.contract 7) (.account 2) 40)]

def duoOpened : duo.State := duo.player.play duoDeployed duoOpening

def duoWired : duo.State := duo.player.after duoOpened duoLast

theorem duo_start : duo.machine.Path anyInput [] duoDeployed 0 := by
  have hnone : ∀ n asset, 0 ≤ savings asset (.contract n) := by
    intro n asset
    simp [savings]
  refine .start ?_
  intro i
  fin_cases i
  · exact ⟨rfl, rfl, rfl, rfl, rfl, fun _ => rfl, fun _ _ => rfl, rfl, fun _ => rfl,
      fun _ _ => rfl, fun _ _ => rfl, fun _ => rfl, fun _ => rfl, rfl, rfl, rfl, rfl,
      fun _ => rfl, fun _ _ => rfl, hnone 0⟩
  · exact ⟨rfl, fun _ => rfl, fun _ => rfl, rfl, rfl, fun _ => rfl, rfl, rfl, fun _ => rfl, rfl,
      fun _ => rfl, rfl, fun _ => rfl, rfl, fun _ => rfl, rfl, hnone 1⟩

theorem granted_reachable :
    (BudgetContract.machine (.contract 9)).ReachableBy 0 granted := by
  have hplays : (BudgetContract.deployment (.contract 9)).plays BudgetContract.deployed 0 allocating
      = true := by decide
  obtain ⟨tr, hpath⟩ := Deployment.anyPath_play BudgetContract.deployed_fresh hplays
  exact ⟨tr, _, le_rfl, hpath⟩

/-- The last entry before they pay. -/
def duoEntry : Entry duo.State duo.Input :=
  ⟨duoOpened, duoLast, duoWired⟩

theorem duo_path : ∃ t, duo.machine.Path anyInput
    (duo.player.trace duoDeployed duoOpening ++ duoEntry :: duo.player.trace duoWired duoSpending)
    (duo.player.play duoWired duoSpending) t := by
  have hplays : duo.player.plays duoDeployed 0 (duoOpening ++ duoLast :: duoSpending) = true := by
    decide
  obtain ⟨t, hpath⟩ := Player.path_plays duo_start hplays fun _ _ _ => trivial
  rw [List.nil_append, Player.trace_middle, Player.play_middle] at hpath
  exact ⟨t, hpath⟩

/-- No sub-calls are made, and the world outside does nothing. -/
theorem duo_leaves : ∀ e ∈ duo.player.trace duoWired duoSpending,
    LeavesEnvelope (.contract 9) "eng" Prod.snd e := by
  intro e he
  simp only [duoSpending, Player.trace, List.mem_cons, List.not_mem_nil, or_false] at he
  rcases he with rfl | rfl <;> trivial

/-- The wallet and the treasury have then used up the limit they share. -/
theorem envelope_bounds_fleet_duo :
    tally (drawn (.contract 9) "eng") (fun e => e.input.time < 0 + (0 + 1) * 86400)
      (duo.player.trace duoWired duoSpending) = 100 ∧
    ∀ k : ℕ, tally (drawn (.contract 9) "eng") (fun e => e.input.time < 0 + (k + 1) * 86400)
      (duo.player.trace duoWired duoSpending) + 0 ≤ (k + 1) * 100 + 0 := by
  refine ⟨by decide, ?_⟩
  obtain ⟨t, hpath⟩ := duo_path
  have hreach : (BudgetContract.machine (.contract 9)).ReachableBy 0 duoWired.world.2 :=
    granted_reachable
  exact envelope_bounds_fleet two_budgeted hpath hreach rfl rfl rfl (by decide) duo_leaves

end Fleet
end Astroid
