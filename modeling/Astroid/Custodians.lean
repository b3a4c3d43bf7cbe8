import Astroid.Escrow.Debits
import Astroid.Lib.Playing
import Astroid.Lib.Projection
import Astroid.Proposal.Debits
import Astroid.Treasury.Debits
import Astroid.Wallet.Debits

/-!
# The contracts that hold tokens, side by side

Escrows, treasuries, wallets and proposal contracts hold the tokens of others, on one ledger.
An invocation of any of them takes tokens from the contract itself and from whoever
authorized it (`Custodian.debits_authorized`).  So the calls of one custodian are, to every
other, changes of the world that leave its custody alone, and a run of them all is a run of
each (`Fleet.path_member`): all of them are solvent at once, in whatever order they are
called (`Fleet.solvent`).
-/

namespace Astroid

/-- A contract that holds tokens, with the host it runs on. -/
inductive Custodian (World : Type) where
  | escrow (H : EscrowContract.EscrowHost World)
  | treasury (H : TreasuryContract.TreasuryHost World)
  | wallet (H : WalletContract.WalletHost World)
  | proposal (H : ProposalContract.ProposalHost World)

namespace Custodian

variable {World : Type}

def host : Custodian World → TokenHost World
  | .escrow H => H.toTokenHost
  | .treasury H => H.toTokenHost
  | .wallet H => H.toTokenHost
  | .proposal H => H.toTokenHost

def State : Custodian World → Type
  | .escrow _ => EscrowContract.State World
  | .treasury _ => TreasuryContract.State World
  | .wallet _ => WalletContract.State World
  | .proposal _ => ProposalContract.State World

def Call : Custodian World → Type
  | .escrow _ => EscrowContract.Call
  | .treasury _ => TreasuryContract.Call
  | .wallet _ => WalletContract.Call
  | .proposal _ => ProposalContract.Call

def deployment : (c : Custodian World) → Deployment c.host.self World c.State c.Call
  | .escrow H => EscrowContract.deployment H
  | .treasury H => TreasuryContract.deployment H
  | .wallet H => WalletContract.deployment H
  | .proposal H => ProposalContract.deployment H

/-- The world a state of the contract is in. -/
def world : (c : Custodian World) → c.State → World
  | .escrow _, s => EscrowContract.State.world s
  | .treasury _, s => TreasuryContract.State.world s
  | .wallet _, s => WalletContract.State.world s
  | .proposal _, s => ProposalContract.State.world s

/-- The storage of a state, in another world. -/
def place : (c : Custodian World) → World → c.State → c.State
  | .escrow _, w, s => { (s : EscrowContract.State World) with world := w }
  | .treasury _, w, s => { (s : TreasuryContract.State World) with world := w }
  | .wallet _, w, s => { (s : WalletContract.State World) with world := w }
  | .proposal _, w, s => { (s : ProposalContract.State World) with world := w }

@[simp] theorem world_place (c : Custodian World) (w : World) (s : c.State) :
    c.world (c.place w s) = w := by
  cases c <;> rfl

@[simp] theorem place_world (c : Custodian World) (s : c.State) :
    c.place (c.world s) s = s := by
  cases c <;> rfl

@[simp] theorem place_place (c : Custodian World) (w w' : World) (s : c.State) :
    c.place w (c.place w' s) = c.place w s := by
  cases c <;> rfl

/-- Nobody else takes tokens out of custody: that is all the world may not do. -/
theorem outside_place {c : Custodian World} {w : World} {s : c.State}
    (h : ∀ asset, c.host.custody (c.world s) asset ≤ c.host.custody w asset) :
    c.deployment.outside w s (c.place w s) := by
  cases c <;> exact ⟨h, rfl⟩

/-! ## Whose tokens move -/

/-- Tokens are standard, and the policies and budgets consulted take none. -/
def Harmless : Custodian World → Prop
  | .escrow H => H.Standard
  | .treasury H => H.Harmless
  | .wallet H => H.Harmless
  | .proposal H => H.Standard

/-- The sub-calls of the call, which only a wallet batch makes, take tokens from the contract
and from whoever authorized the call. -/
def Contained : (c : Custodian World) → Env c.host.self → c.Call → Prop
  | .wallet H, env, call => WalletContract.Contained H env call
  | _, _, _ => True

/-- **Only the contract and its signers pay.**  Of everybody else, no balance of any token
falls. -/
theorem exec_spares (c : Custodian World) (hx : c.Harmless) {env : Env c.host.self}
    {call : c.Call} {s s' : c.State} (hcontained : c.Contained env call)
    (h : c.deployment.exec env s call = .ok s') :
    c.host.Spares env.Pays (c.world s) (c.world s') := by
  cases c with
  | escrow H => exact EscrowContract.exec_spares hx h
  | treasury H => exact TreasuryContract.exec_spares hx h
  | wallet H => exact WalletContract.exec_spares hx hcontained h
  | proposal H => exact ProposalContract.exec_spares hx h

/-! ## Solvency, one by one -/

/-- What a run of the contract has to keep clear of: a treasury of the queued batches its books
do not cover, a wallet of the sub-calls that drain it. -/
def careful : (c : Custodian World) → Input c.host.self World c.Call → c.State → Prop
  | .treasury _ => TreasuryContract.coveredBatches
  | .wallet _ => WalletContract.drainsNothing
  | _ => Machine.anyInput

theorem careful_outside (c : Custodian World) (time : ℕ) (w : World) (s : c.State) :
    c.careful (.outside time w) s := by
  cases c <;> trivial

/-- What account `k` of the contract is owed of an asset: an escrow, the treasury's books, a
wallet, a live proposal. -/
def owedTo : (c : Custodian World) → c.State → ℕ → Address → ℤ
  | .escrow _, s => EscrowContract.State.owedTo s
  | .treasury _, s => TreasuryContract.State.owedTo s
  | .wallet _, s => WalletContract.State.balanceOf s
  | .proposal _, s => ProposalContract.State.owedTo s

/-- No account is owed a negative amount, and custody covers any of them together. -/
def Solvent (c : Custodian World) (s : c.State) : Prop :=
  Pool.Solvent (c.owedTo s) (c.host.custody (c.world s))

/-- Each of them is solvent in its own runs. -/
theorem solvent_of_path {c : Custodian World} (hx : c.Harmless) {s : c.State} {t : ℕ}
    {tr : List (Entry c.State (Input c.host.self World c.Call))}
    (hpath : c.deployment.machine.Path c.careful tr s t) : c.Solvent s := by
  cases c with
  | escrow H =>
      have hx' : H.Standard := hx
      exact EscrowContract.Reachable.pool hx'.exact hpath.reachable
  | treasury H =>
      have hx' : H.Harmless := hx
      exact TreasuryContract.pool_of_path hx'.honest hpath
  | wallet H =>
      have hx' : H.Harmless := hx
      exact WalletContract.pool_of_path hx'.honest hpath
  | proposal H => exact ProposalContract.Reachable.pool hx hpath.reachable

end Custodian

/-! ## Side by side -/

/-- Custodians on one ledger, each at its own address. -/
structure Fleet (ι World : Type) where
  member : ι → Custodian World
  balance : ∀ i j, (member i).host.balance = (member j).host.balance
  apart : ∀ i j, i ≠ j → (member i).host.self ≠ (member j).host.self

namespace Fleet

variable {ι World : Type} [DecidableEq ι] (F : Fleet ι World)

/-- The world they share, and the storage of each. -/
structure State where
  world : World
  storage : ∀ i, (F.member i).State

/-- An invocation of one of them, or a change of the world outside them all. -/
inductive Input where
  | invoke (i : ι) (env : Env (F.member i).host.self) (call : (F.member i).Call)
  | outside (time : ℕ) (w : World)

variable {F}

/-- The time of an input. -/
def Input.time : F.Input → ℕ
  | .invoke _ env _ => env.timestamp.toNat
  | .outside t _ => t

namespace State

/-- The state member `i` is in. -/
def view (s : F.State) (i : ι) : (F.member i).State := (F.member i).place s.world (s.storage i)

/-- Invoke member `i`. -/
def invoke (s : F.State) (i : ι) (env : Env (F.member i).host.self) (call : (F.member i).Call) :
    Result F.State := do
  let t ← (F.member i).deployment.exec env (s.view i) call
  pure ⟨(F.member i).world t, Function.update s.storage i t⟩

end State

variable (F)

/-- The fleet as a machine.  The world outside takes tokens out of nobody's custody. -/
def machine : Machine F.State F.Input where
  init s := ∀ i, (F.member i).deployment.fresh (s.view i)
  step
    | .invoke i env call, s, s' => s.invoke i env call = .ok s'
    | .outside _ w, s, s' =>
        (∀ i asset, (F.member i).host.custody s.world asset ≤ (F.member i).host.custody w asset) ∧
          s' = { s with world := w }
  time := Input.time

/-- The sub-calls of every invocation are contained. -/
def contained : F.Input → F.State → Prop
  | .invoke i env call, _ => (F.member i).Contained env call
  | .outside _ _, _ => True

/-- What a run of the fleet has to keep clear of, besides sub-calls that are not contained:
invocations that a member authorizes, and what each member's own runs keep clear of. -/
def careful : F.Input → F.State → Prop
  | .invoke i env call, s =>
      (F.member i).Contained env call ∧ (∀ j, (F.member j).host.self ∉ env.auths) ∧
        (F.member i).careful (.invoke env call) (s.view i)
  | .outside _ _, _ => True

variable {F} {s s' : F.State} {i j : ι} {env : Env (F.member i).host.self}
  {call : (F.member i).Call} {t : ℕ} {tr : List (Entry F.State F.Input)}

/-! ### One step -/

theorem invoke_ok (h : s.invoke i env call = .ok s') :
    ∃ t, (F.member i).deployment.exec env (s.view i) call = .ok t ∧
      s' = ⟨(F.member i).world t, Function.update s.storage i t⟩ := by
  simp only [State.invoke, Outcome.bind_eq_ok, Outcome.pure_eq_ok] at h
  obtain ⟨t, hexec, rfl⟩ := h
  exact ⟨t, hexec, rfl⟩

/-- The member that was invoked took a step of its own. -/
theorem invoke_self (h : s.invoke i env call = .ok s') :
    (F.member i).deployment.exec env (s.view i) call = .ok (s'.view i) := by
  obtain ⟨t, hexec, rfl⟩ := invoke_ok h
  rw [hexec]
  simp [State.view]

/-- Every other member saw the world change around its storage. -/
theorem invoke_other (h : s.invoke i env call = .ok s') (hj : j ≠ i) :
    s'.view j = (F.member j).place s'.world (s.view j) := by
  obtain ⟨t, _, rfl⟩ := invoke_ok h
  simp [State.view, Function.update_of_ne hj]

omit [DecidableEq ι] in
/-- Everybody reads the same balances. -/
theorem held_eq (i j : ι) (w : World) (asset holder : Address) :
    (F.member i).host.held w asset holder = (F.member j).host.held w asset holder := by
  unfold TokenHost.held
  rw [F.balance i j]

/-- An invocation of one member takes tokens from it and from whoever authorized it. -/
theorem invoke_spares (hx : ∀ i, (F.member i).Harmless)
    (hcontained : (F.member i).Contained env call) (h : s.invoke i env call = .ok s') :
    (F.member i).host.Spares env.Pays s.world s'.world := by
  have hspares := (F.member i).exec_spares (hx i) hcontained (invoke_self h)
  simpa [State.view] using hspares

/-- So it leaves the custody of the others alone. -/
theorem invoke_custody (hx : ∀ i, (F.member i).Harmless)
    (hcareful : F.careful (.invoke i env call) s) (h : s.invoke i env call = .ok s')
    (hj : j ≠ i) (asset : Address) :
    (F.member j).host.custody s.world asset ≤ (F.member j).host.custody s'.world asset := by
  have hunpaid : ¬ env.Pays (F.member j).host.self := by
    rintro (hself | hauth)
    · exact F.apart j i hj hself
    · exact hcareful.2.1 j hauth
  have hspared := invoke_spares hx hcareful.1 h asset _ hunpaid
  unfold TokenHost.custody
  rw [held_eq j i, held_eq j i]
  exact hspared

/-! ### Runs -/

/-- What member `j` sees of an entry: its own call, or a change of the world. -/
def seen (j : ι) (e : Entry F.State F.Input) :
    Astroid.Input (F.member j).host.self World (F.member j).Call :=
  match e.input with
  | .invoke i env call =>
      if h : i = j then h ▸ .invoke env call
      else .outside env.timestamp.toNat e.post.world
  | .outside time w => .outside time w

/-- The fleet as member `j` sees it. -/
def viewOf (j : ι) : Machine.View F.State F.Input (F.member j).State
    (Astroid.Input (F.member j).host.self World (F.member j).Call) where
  state s := s.view j
  input := seen j

/-- Every careful step of the fleet is, to each member, a careful step of its own. -/
theorem step_sound (hx : ∀ i, (F.member i).Harmless) {input : F.Input}
    (hcareful : F.careful input s) (h : F.machine.step input s s') (j : ι) :
    (viewOf j).Sound F.machine (F.member j).deployment.machine (F.member j).careful
      ⟨s, input, s'⟩ := by
  -- it is enough to know what the member sees
  have hsound : ∀ i', seen j ⟨s, input, s'⟩ = i' → i'.time = input.time →
      (F.member j).careful i' (s.view j) → (F.member j).deployment.Step i' (s.view j) (s'.view j) →
      (viewOf j).Sound F.machine (F.member j).deployment.machine (F.member j).careful
        ⟨s, input, s'⟩ := by
    rintro _ rfl htime hallowed hstep
    exact ⟨htime, hallowed, hstep⟩
  cases input with
  | outside time w =>
      obtain ⟨hcustody, rfl⟩ := h
      refine hsound _ rfl rfl ((F.member j).careful_outside time w _) ?_
      have hstep := Custodian.outside_place (c := F.member j) (w := w) (s := s.view j)
        (by simpa [State.view] using hcustody j)
      rw [State.view, Custodian.place_place] at hstep
      exact hstep
  | invoke i env call =>
      by_cases hij : i = j
      · subst hij
        exact hsound (.invoke env call) (dif_pos rfl) rfl hcareful.2.2 (invoke_self h)
      · refine hsound (.outside env.timestamp.toNat s'.world) (dif_neg hij) rfl
          ((F.member j).careful_outside _ _ _) ?_
        rw [invoke_other h (Ne.symm hij)]
        refine Custodian.outside_place ?_
        intro asset
        rw [State.view, Custodian.world_place]
        exact invoke_custody hx hcareful h (Ne.symm hij) asset

/-- **A run of the fleet is a run of each member.** -/
theorem path_member (hx : ∀ i, (F.member i).Harmless)
    (h : F.machine.Path F.careful tr s t) (j : ι) :
    (F.member j).deployment.machine.Path (F.member j).careful ((viewOf j).trace tr) (s.view j)
      t := by
  refine Machine.Path.project (viewOf (F := F) j) ?_ ?_ h
  · intro s hinit
    exact hinit j
  · intro _ _ _ _ _ _ hcareful hstep _
    exact step_sound hx hcareful hstep j

/-- The holder `a` authorizes nothing in this entry, and the world outside takes nothing from
it. -/
def Aside (F : Fleet ι World) (a asset : Address) (e : Entry F.State F.Input) : Prop :=
  match e.input with
  | .invoke _ env _ => a ∉ env.auths
  | .outside _ w => ∀ i, (F.member i).host.held e.pre.world asset a
      ≤ (F.member i).host.held w asset a

/-- **Nobody pays without signing.**  From any point of a run on, the balance of a holder who
is no member of the fleet and authorizes no invocation never falls, whoever calls which
members in what order. -/
theorem bystander_keeps (hx : ∀ i, (F.member i).Harmless)
    {tr₁ tr₂ : List (Entry F.State F.Input)} (h : F.machine.Path F.contained (tr₁ ++ tr₂) s t)
    {a asset : Address} (hmember : ∀ i, (F.member i).host.self ≠ a)
    (haside : ∀ e ∈ tr₂, F.Aside a asset e) (i : ι) :
    ∀ e ∈ tr₂, (F.member i).host.held e.pre.world asset a
      ≤ (F.member i).host.held s.world asset a := by
  refine h.since (R := fun s s' : F.State => (F.member i).host.held s.world asset a
    ≤ (F.member i).host.held s'.world asset a) (fun _ _ _ => le_trans) ?_
  intro e he
  obtain ⟨_, _, _, _, _, hcontained, hstep, _⟩ := h.entry (List.mem_append_right tr₁ he)
  have hentry := haside e he
  obtain ⟨pre, input, post⟩ := e
  cases input with
  | outside time w =>
      obtain ⟨_, hpost⟩ := hstep
      dsimp only at hpost
      rw [hpost]
      exact hentry i
  | invoke j env call =>
      have hunpaid : ¬ env.Pays a := by
        rintro (rfl | hauth)
        · exact hmember j rfl
        · exact hentry hauth
      have hspared := invoke_spares hx hcontained hstep asset a hunpaid
      dsimp only
      rw [held_eq i j, held_eq i j]
      exact hspared

/-! ### A run -/

/-- Invocations are computed; what the world outside does is not. -/
def player (F : Fleet ι World) : F.machine.Player where
  run s
    | .invoke i env call => (s.invoke i env call).toOption
    | .outside _ _ => none
  step_run s input s' h := by
    cases input with
    | outside time w => cases h
    | invoke i env call =>
        have hinvoke : (s.invoke i env call).toOption = some s' := h
        show s.invoke i env call = .ok s'
        cases hresult : s.invoke i env call with
        | error f =>
            rw [hresult] at hinvoke
            cases hinvoke
        | ok t =>
            rw [hresult] at hinvoke
            cases hinvoke
            rfl

/-- An escrow, a treasury, a wallet and a proposal contract, at `contract 0` to `contract 3`.
Policies and budgets refuse nothing, and no sub-call is answered. -/
def four : Fin 4 → Custodian Ledger
  | 0 => .escrow EscrowContract.referenceHost
  | 1 => .treasury {
      toTokenHost := ledgerHost (.contract 1)
      lookup _ _ _ _ := none
      checkTransfer _ w _ _ _ _ _ := some w
      consume _ w _ _ _ _ := some w }
  | 2 => .wallet {
      toTokenHost := ledgerHost (.contract 2)
      getModulesBatch _ _ _ _ := .error none
      checkTransfer _ w _ _ _ _ _ := some w
      consume _ w _ _ _ _ := .ok (w, 0)
      invoke _ _ _ := .error none }
  | 3 => .proposal {
      toTokenHost := ledgerHost (.contract 3)
      getThreshold _ _ := some 2
      isSigner _ _ _ := some true
      getSignerWeight _ _ _ := some 1 }

theorem four_host (i : Fin 4) : (four i).host = ledgerHost (.contract i) := by
  fin_cases i <;> rfl

theorem four_harmless (i : Fin 4) : (four i).Harmless := by
  fin_cases i
  · exact ledgerHost_standard _
  · refine ⟨ledgerHost_standard _, ?_, ?_⟩
    · rintro _ _ _ _ _ _ _ _ ⟨⟩
      exact .refl
    · rintro _ _ _ _ _ _ _ ⟨⟩
      exact .refl
  · refine ⟨ledgerHost_standard _, ?_, ?_⟩
    · rintro _ _ _ _ _ _ _ _ ⟨⟩
      exact .refl
    · rintro _ _ _ _ _ _ _ _ ⟨⟩
      exact .refl
  · exact ledgerHost_standard _

def quartet : Fleet (Fin 4) Ledger where
  member := four
  balance i j := by
    rw [four_host, four_host]
    rfl
  apart i j hij := by
    rw [four_host, four_host]
    intro hself
    injection hself with hnumber
    exact hij (Fin.ext hnumber)

/-- Account 1 holds 400 of `contract 7`, and account 9 holds 5. -/
def savings : Ledger := fun asset holder =>
  if asset = .contract 7 ∧ holder = .account 1 then 400
  else if asset = .contract 7 ∧ holder = .account 9 then 5
  else 0

/-- All four are just deployed. -/
def quartetDeployed : quartet.State where
  world := savings
  storage
    | 0 => EscrowContract.deployed savings
    | 1 => TreasuryContract.deployed savings
    | 2 => WalletContract.deployed savings
    | 3 => { ProposalContract.deployed with world := savings }

/-- Account 1 puts 100 of the token into each of them, turn about, and the treasury pays 30. -/
def quartetRun : List quartet.Input :=
  [.invoke 0 (signedAt 0 0 [0]) (EscrowContract.Call.initializeContract (.account 0)),
    .invoke 1 (signedAt 1 0 [0]) (TreasuryContract.Call.initializeContract "org" (.account 0)),
    .invoke 2 (signedAt 2 0 [3]) (WalletContract.Call.initializeContract (.account 3)),
    .invoke 3 (signedAt 3 0 []) (ProposalContract.Call.initializeContract 0 (.contract 5)),
    .invoke 0 (signedAt 0 1 [0]) (EscrowContract.Call.approveToken (.account 0) (.contract 7)),
    .invoke 1 (signedAt 1 1 [0]) (TreasuryContract.Call.addApprovedAsset (.account 0) (.contract 7)),
    .invoke 2 (signedAt 2 1 [1]) (WalletContract.Call.createWallet (.account 1)),
    .invoke 3 (signedAt 3 2 [1]) (ProposalContract.Call.create (.account 1) "org" "wallet" "policy"
      [.account 1, .account 2, .account 3] [] 2 [⟨.contract 7, 100⟩] 1000 0),
    .invoke 1 (signedAt 1 2 [1]) (TreasuryContract.Call.deposit (.account 1) (.contract 7) 100),
    .invoke 0 (signedAt 0 3 [1]) (EscrowContract.Call.create (.account 1) (.account 2) (.account 3)
      [⟨.contract 7, 100⟩] 90 0 [] 0),
    .invoke 2 (signedAt 2 3 [1]) (WalletContract.Call.deposit 1 (.account 1) (.contract 7) 100),
    .invoke 1 (signedAt 1 4 [0]) (TreasuryContract.Call.withdraw (.account 0) (.contract 7) (.account 2)
      30)]

def quartetAfter : quartet.State := quartet.player.play quartetDeployed quartetRun

theorem quartet_start {allow : quartet.Input → quartet.State → Prop} :
    quartet.machine.Path allow [] quartetDeployed 0 := by
  have hnone : ∀ n asset, 0 ≤ savings asset (.contract n) := by
    intro n asset
    simp [savings]
  refine .start ?_
  intro i
  fin_cases i
  · exact EscrowContract.deployed_fresh (hnone 0)
  · exact ⟨rfl, fun _ => rfl, fun _ => rfl, rfl, rfl, fun _ => rfl, rfl, rfl, fun _ => rfl, rfl,
      fun _ => rfl, rfl, fun _ => rfl, rfl, fun _ => rfl, rfl, hnone 1⟩
  · exact ⟨rfl, rfl, rfl, rfl, rfl, fun _ => rfl, fun _ _ => rfl, rfl, fun _ => rfl,
      fun _ _ => rfl, fun _ _ => rfl, fun _ => rfl, fun _ => rfl, rfl, rfl, rfl, rfl,
      fun _ => rfl, fun _ _ => rfl, hnone 2⟩
  · exact ⟨rfl, rfl, rfl, fun _ => rfl, fun _ _ => rfl, hnone 3⟩

theorem self_notMem (n : ℕ) (timestamp : UInt64) (signers : List ℕ) (i : Fin 4) :
    (quartet.member i).host.self ∉ (signedAt n timestamp signers).auths := by
  intro hmem
  have hself : (quartet.member i).host.self = .contract i := congrArg TokenHost.self (four_host i)
  rw [hself] at hmem
  obtain ⟨_, _, hcontract⟩ := List.mem_map.1 hmem
  cases hcontract

theorem notMem_signed {n k : ℕ} {timestamp : UInt64} {signers : List ℕ} (h : k ∉ signers) :
    .account k ∉ (signedAt n timestamp signers).auths := by
  intro hmem
  obtain ⟨_, hsigner, hk⟩ := List.mem_map.1 hmem
  injection hk with hk
  exact h (hk ▸ hsigner)

/-- No call of the run makes sub-calls or executes a queued batch, and no member signs. -/
theorem quartetRun_careful : ∀ s, ∀ input ∈ quartetRun, quartet.careful input s := by
  intro s input hinput
  simp only [quartetRun, List.mem_cons, List.not_mem_nil, or_false] at hinput
  rcases hinput with rfl | rfl | rfl | rfl | rfl | rfl | rfl | rfl | rfl | rfl | rfl | rfl <;>
    exact ⟨trivial, self_notMem _ _ _, trivial⟩

/-- Account 9 signs no call of the run. -/
theorem quartetRun_aside : ∀ e : Entry quartet.State quartet.Input, e.input ∈ quartetRun →
    quartet.Aside (.account 9) (.contract 7) e := by
  rintro ⟨pre, input, post⟩ hinput
  simp only [quartetRun, List.mem_cons, List.not_mem_nil, or_false] at hinput
  rcases hinput with rfl | rfl | rfl | rfl | rfl | rfl | rfl | rfl | rfl | rfl | rfl | rfl <;>
    exact notMem_signed (by decide)

/-- Account 9 signs none of it, and keeps its 5. -/
theorem bystander_keeps_quartet :
    (quartet.player.trace quartetDeployed quartetRun).Forall fun e =>
      (quartet.member 0).host.held e.pre.world (.contract 7) (.account 9)
        ≤ (quartet.member 0).host.held quartetAfter.world (.contract 7) (.account 9) := by
  have hplays : quartet.player.plays quartetDeployed 0 quartetRun = true := by decide
  have hstart : quartet.machine.Path quartet.careful [] quartetDeployed 0 := quartet_start
  obtain ⟨t, hpath⟩ := Machine.Player.path_plays hstart hplays quartetRun_careful
  have hcontained : quartet.machine.Path quartet.contained
      ([] ++ quartet.player.trace quartetDeployed quartetRun) quartetAfter t := by
    refine hpath.mono ?_
    rintro (⟨i, env, call⟩ | ⟨time, w⟩) s hcareful
    · exact hcareful.1
    · trivial
  refine List.forall_iff_forall_mem.2 (bystander_keeps four_harmless hcontained ?_ ?_ 0)
  · intro i
    rw [show (quartet.member i).host.self = .contract i from congrArg TokenHost.self (four_host i)]
    exact Address.noConfusion
  · exact fun e he => quartetRun_aside e (Machine.Player.input_mem he)

end Fleet
end Astroid
