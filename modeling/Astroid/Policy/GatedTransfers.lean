import Astroid.Policy.Gate
import Astroid.Treasury.PolicyGate
import Astroid.Wallet.PolicyGate

/-!
# Wallets and treasuries behind a policy

Both contracts put every payment of a gated transfer to the policy contract before they
make it.  The policy contract only looks at its allowance, so two transfers of 60 both
pass an allowance of 100 (`not_allowance_bounds_gated`); the allowance bounds what they
move in the runs that record each payment before the next one (`allowance_bounds_gated`).
-/

namespace Astroid

/-! ## The wallet -/

namespace WalletContract

open Outcome

variable {World : Type} {H : WalletHost World} {env : Env H.self} {s s' : State World}
  {policy asset payee caller : Address} {id : ℕ} {amount : ℤ} {call : Call}
  {view : World → PolicyContract.State}

/-- The policy the gate of a spend has to ask. -/
def gate (H : WalletHost World) (s : State World) : Option Address :=
  match resolveGates H s with
  | .ok gates => gates.1
  | .error _ => none

/-- The wallet a transfer or a withdrawal of an asset draws on, and the amount. -/
def Call.draws (asset : Address) : Call → Option (ℕ × ℤ)
  | .transfer _ walletId _ asset' amount => if asset' = asset then some (walletId, amount) else none
  | .withdraw _ walletId asset' amount => if asset' = asset then some (walletId, amount) else none
  | _ => none

/-- What an entry of a run moved behind the gate. -/
def moves (H : WalletHost World) (policy asset : Address)
    (e : Entry (State World) (Inputs H)) : List (ℕ × ℤ) :=
  match e.input with
  | .invoke env call =>
      match call.draws asset with
      | some (walletId, amount) =>
          if e.pre.policyBypass walletId = false ∧ gate H e.pre = some policy then
            [(env.timestamp.toNat, amount)]
          else
            []
      | none => []
  | .outside _ _ => []

theorem spend_of_draws (hdraws : call.draws asset = some (id, amount))
    (h : exec H env s call = .ok s') :
    ∃ caller payee u, spend H env caller id payee asset amount s = (.ok u, s') := by
  cases call with
  | transfer _ walletId payee asset' amount' =>
      simp only [Call.draws, Option.ite_none_right_eq_some, Option.some.injEq, Prod.mk.injEq]
        at hdraws
      obtain ⟨rfl, rfl, rfl⟩ := hdraws
      obtain ⟨caller, u, hspend⟩ := spend_of_spends .transfer h
      exact ⟨caller, payee, u, hspend⟩
  | withdraw caller walletId asset' amount' =>
      simp only [Call.draws, Option.ite_none_right_eq_some, Option.some.injEq, Prod.mk.injEq]
        at hdraws
      obtain ⟨rfl, rfl, rfl⟩ := hdraws
      obtain ⟨u, h⟩ := snd_map_ok h
      simp only [Act.commit_eq_ok, withdraw, Act.bind_ok, Act.read_ok] at h
      obtain ⟨_, _, ⟨_, rfl⟩, _, _, ⟨_, rfl⟩, wallet, _, ⟨_, rfl⟩, _, _, ⟨_, rfl⟩, hspend⟩ := h
      exact ⟨caller, wallet.owner, u, hspend⟩
  | _ => cases hdraws

/-- The gate is asked first. -/
theorem spend_checks {u : Unit} (hbypass : s.policyBypass id = false)
    (hgate : gate H s = some policy)
    (h : spend H env caller id payee asset amount s = (.ok u, s')) :
    ∃ w, H.checkTransfer env s.world policy "active" asset payee amount = some w := by
  simp only [spend, unlockOnError, Act.bind_ok, Act.onError_ok, Act.step_ok, Act.read_ok] at h
  obtain ⟨_, _, hlock, _, _, hchecks, _⟩ := h
  obtain ⟨_, rfl⟩ := lock_ok hlock
  simp only [preExecuteChecks, Act.bind_ok, Act.read_ok, Act.step_ok] at hchecks
  obtain ⟨⟨resolved, budget⟩, _, ⟨hgates, rfl⟩, _, _, hpolicy, _⟩ := hchecks
  -- the lock is none of what the gates are resolved from
  have hunlocked : resolveGates H s = .ok (resolved, budget) := hgates
  unfold gate at hgate
  rw [hunlocked] at hgate
  cases hgate
  have hbypass' : ({ s with reentrancyLock := true } : State World).policyBypass id = false :=
    hbypass
  simp only [policyGate, if_pos hbypass', requirePolicyCheck, bind_eq_ok, okOr_eq_ok] at hpolicy
  obtain ⟨w, hcheck, _⟩ := hpolicy
  exact ⟨w, hcheck⟩

/-- **Every gated move passed the policy contract.** -/
theorem moves_pass (hanswers : PolicyContract.Answers H.checkTransfer policy view)
    {e : Entry (State World) (Inputs H)} (h : (machine H).step e.input e.pre e.post)
    {move : ℕ × ℤ} (hmove : move ∈ moves H policy asset e) :
    move.1 = e.input.time ∧
      PolicyContract.Passes policy "active" asset (view e.pre.world) move := by
  obtain ⟨pre, input, post⟩ := e
  cases input with
  | outside time w => cases hmove
  | invoke env call =>
      unfold moves at hmove
      dsimp only at hmove
      cases hdraws : call.draws asset with
      | none =>
          rw [hdraws] at hmove
          cases hmove
      | some drawn =>
          obtain ⟨id, amount⟩ := drawn
          simp only [hdraws, List.mem_ite_nil_right, List.mem_singleton] at hmove
          obtain ⟨⟨hbypass, hgate⟩, rfl⟩ := hmove
          obtain ⟨caller, payee, u, hspend⟩ := spend_of_draws hdraws h
          obtain ⟨w, hcheck⟩ := spend_checks hbypass hgate hspend
          exact ⟨rfl, (hanswers.passes hcheck).2⟩

end WalletContract

/-! ## The treasury -/

namespace TreasuryContract

open Outcome

variable {World : Type} {H : TreasuryHost World} {env : Env H.self} {s s' : State World}
  {policy asset : Address} {t : Treasury} {call : Call} {view : World → PolicyContract.State}

/-- The policy the treasury has to ask. -/
def gate (s : State World) : Option Address := s.treasury.bind (·.policy)

/-- The call is one of those that ask the policy. -/
def Call.asks : Call → Bool
  | .withdraw .. | .batchTransfer .. | .executeWithdrawal .. => true
  | _ => false

/-- The payments an entry of a run made. -/
def paid (e : Entry (State World) (Inputs H)) : List Outflow :=
  e.post.outflows.drop e.pre.outflows.length

/-- What an entry of a run moved behind the gate. -/
def moves (H : TreasuryHost World) (policy asset : Address)
    (e : Entry (State World) (Inputs H)) : List (ℕ × ℤ) :=
  match e.input with
  | .invoke env call =>
      if call.asks ∧ gate e.pre = some policy then
        ((paid e).filter (·.asset = asset)).map fun o => (env.timestamp.toNat, o.amount)
      else
        []
  | .outside _ _ => []

/-- Everything a settlement paid passed the policy contract. -/
def Vetted (policy : Address) (view : World → PolicyContract.State) (env : Env H.self)
    (s s' : State World) : Prop :=
  ∃ new, s'.outflows = s.outflows ++ new ∧ ∀ o ∈ new,
    PolicyContract.Passes policy "active" o.asset (view s.world)
      (env.timestamp.toNat, o.amount)

theorem checkPolicy_passes {a payee : Address} {amount : ℤ} {w w' : World}
    (hanswers : PolicyContract.Answers H.checkTransfer policy view)
    (hpolicy : t.policy = some policy) (h : checkPolicy H env w t a payee amount = .ok w') :
    view w' = view w ∧
      PolicyContract.Passes policy "active" a (view w) (env.timestamp.toNat, amount) := by
  unfold checkPolicy at h
  rw [hpolicy] at h
  exact hanswers.passes (orFail_eq_ok.1 h)

/-- A check leaves the policy contract as it was, so the legs of a batch are all checked
against the same state. -/
theorem checkPolicies_passes {a : Address} {payments : List Payment} {w w' : World}
    (hanswers : PolicyContract.Answers H.checkTransfer policy view)
    (hpolicy : t.policy = some policy) (h : checkPolicies H env w t a payments = .ok w') :
    ∀ p ∈ payments,
      PolicyContract.Passes policy "active" a (view w) (env.timestamp.toNat, p.amount) := by
  induction payments generalizing w with
  | nil =>
      intro p hp
      cases hp
  | cons payment rest ih =>
      simp only [checkPolicies, bind_eq_ok] at h
      obtain ⟨w₁, hfirst, hrest⟩ := h
      obtain ⟨hsame, hpassed⟩ := checkPolicy_passes hanswers hpolicy hfirst
      intro p hp
      rcases List.mem_cons.1 hp with rfl | hp
      · exact hpassed
      · rw [← hsame]
        exact ih hrest p hp

theorem settleWithdrawal_vetted {caller a payee : Address} {amount : ℤ}
    (hanswers : PolicyContract.Answers H.checkTransfer policy view)
    (hpolicy : t.policy = some policy)
    (h : settleWithdrawal H env s t caller a payee amount = .ok s') :
    Vetted policy view env s s' := by
  simp only [settleWithdrawal, bind_eq_ok, pure_eq_ok] at h
  obtain ⟨_, hlock, w₁, hcheck, w₂, _, _, hallowance, _, _, s₁, hdebit, s₂, hpay, rfl⟩ := h
  obtain rfl := lock_ok hlock
  obtain ⟨allowance, rfl⟩ := consumeAllowance_ok hallowance
  obtain rfl := debit_ok hdebit
  obtain ⟨w, _, _, rfl⟩ := payOut_ok hpay
  refine ⟨[⟨a, payee, amount⟩], ?_, ?_⟩
  · rfl
  · intro o ho
    obtain rfl := List.mem_singleton.1 ho
    exact (checkPolicy_passes hanswers hpolicy hcheck).2

theorem settleBatch_vetted {caller a : Address} {payments : List Payment}
    (hanswers : PolicyContract.Answers H.checkTransfer policy view)
    (hpolicy : t.policy = some policy)
    (h : settleBatch H env s t caller a payments = .ok s') : Vetted policy view env s s' := by
  simp only [settleBatch, bind_eq_ok, pure_eq_ok] at h
  obtain ⟨total, _, _, hlock, w₁, hcheck, w₂, _, s₁, hdebit, s₂, hpay, rfl⟩ := h
  obtain rfl := lock_ok hlock
  obtain rfl := debit_ok hdebit
  obtain ⟨w, _, _, rfl⟩ := payOut_ok hpay
  refine ⟨payments.map fun p => ⟨a, p.recipient, p.amount⟩, ?_, ?_⟩
  · rfl
  · intro o ho
    obtain ⟨p, hp, rfl⟩ := List.mem_map.1 ho
    exact checkPolicies_passes hanswers hpolicy hcheck p hp

theorem Route.vetted (h : Route H env s call s')
    (hanswers : PolicyContract.Answers H.checkTransfer policy view)
    (hgate : gate s = some policy) (hasks : call.asks = true) : Vetted policy view env s s' := by
  obtain ⟨t, ht, hpolicy⟩ := Option.bind_eq_some_iff.1 hgate
  -- the record a route settles under is the stored one
  have hsame : ∀ {t'}, s.treasury = some t' → t' = t := by
    intro t' ht'
    rw [ht, Option.some.injEq] at ht'
    exact ht'.symm
  cases h with
  | quiet hquiet =>
      refine ⟨[], ?_, ?_⟩
      · rw [List.append_nil, hquiet.outflows]
      · intro o ho
        cases ho
  | withdraw ht' _ hsettle =>
      obtain rfl := hsame ht'
      exact settleWithdrawal_vetted hanswers hpolicy hsettle
  | batch ht' hsettle =>
      obtain rfl := hsame ht'
      exact settleBatch_vetted hanswers hpolicy hsettle
  | executed ht' _ _ _ hsettle =>
      obtain rfl := hsame ht'
      obtain ⟨new, hnew, hpassed⟩ := settleWithdrawal_vetted hanswers hpolicy hsettle
      exact ⟨new, hnew, hpassed⟩
  | executedBatch ht' _ _ _ hsettle =>
      obtain rfl := hsame ht'
      obtain ⟨new, hnew, hpassed⟩ := settleBatch_vetted hanswers hpolicy hsettle
      exact ⟨new, hnew, hpassed⟩
  | released => cases hasks

/-- **Every gated move passed the policy contract.** -/
theorem moves_pass (hanswers : PolicyContract.Answers H.checkTransfer policy view)
    {e : Entry (State World) (Inputs H)} (h : (machine H).step e.input e.pre e.post)
    {move : ℕ × ℤ} (hmove : move ∈ moves H policy asset e) :
    move.1 = e.input.time ∧
      PolicyContract.Passes policy "active" asset (view e.pre.world) move := by
  obtain ⟨pre, input, post⟩ := e
  cases input with
  | outside time w => cases hmove
  | invoke env call =>
      simp only [moves, List.mem_ite_nil_right, List.mem_map, List.mem_filter,
        decide_eq_true_eq] at hmove
      obtain ⟨⟨hasks, hgate⟩, o, ⟨ho, rfl⟩, rfl⟩ := hmove
      obtain ⟨new, hnew, hpassed⟩ := (exec_route h).vetted hanswers hgate hasks
      have hpaid : paid (H := H) ⟨pre, .invoke env call, post⟩ = new := by
        unfold paid
        dsimp only
        rw [hnew, List.drop_left]
      rw [hpaid] at ho
      exact ⟨rfl, hpassed o ho⟩

end TreasuryContract

namespace PolicyContract

open Machine

/-! ## The bound -/

/-- **What the gate moves stays within the allowance.**  From an entry of a run on, let the
policy contract carry the allowance `a`, and let nobody reconfigure it.  If everything
moved behind the gate was recorded there before the next move, then no window of the
allowance moves more than its limit. -/
theorem allowance_bounds_gated {World : Type} (policy asset : Address) (a : AssetAllowance)
    (view : World → State) :
    (∀ (H : WalletContract.WalletHost World)
      (tr₁ tr₂ : List (Entry (WalletContract.State World) (WalletContract.Inputs H))) q s t,
      Answers H.checkTransfer policy view →
      (WalletContract.machine H).Path anyInput (tr₁ ++ q :: tr₂) s t →
      Governs (WalletContract.machine H) policy asset a (fun s => view s.world) q tr₂ →
      Recorded policy asset a (fun s => view s.world) (WalletContract.moves H policy asset) tr₂ →
      Bounds a (tr₂.flatMap (WalletContract.moves H policy asset))) ∧
    ∀ (H : TreasuryContract.TreasuryHost World)
      (tr₁ tr₂ : List (Entry (TreasuryContract.State World) (TreasuryContract.Inputs H))) q s t,
      Answers H.checkTransfer policy view →
      (TreasuryContract.machine H).Path anyInput (tr₁ ++ q :: tr₂) s t →
      Governs (TreasuryContract.machine H) policy asset a (fun s => view s.world) q tr₂ →
      Recorded policy asset a (fun s => view s.world) (TreasuryContract.moves H policy asset) tr₂ →
      Bounds a (tr₂.flatMap (TreasuryContract.moves H policy asset)) := by
  refine ⟨?_, ?_⟩
  · intro H tr₁ tr₂ q s t hanswers hpath hgoverns hrecorded
    exact gated_bounds hpath hgoverns
      (fun e _ hstep move => WalletContract.moves_pass hanswers hstep) hrecorded
  · intro H tr₁ tr₂ q s t hanswers hpath hgoverns hrecorded
    exact gated_bounds hpath hgoverns
      (fun e _ hstep move => TreasuryContract.moves_pass hanswers hstep) hrecorded

/-! ## Two runs -/

/-- An invocation of `contract 9`. -/
def asking (timestamp : UInt64) (signers : List ℕ) : Env (.contract 9) where
  timestamp := timestamp
  sequence := 0
  auths := signers.map .account
  argAuths _ _ := false
  current_notMem := by
    intro h
    obtain ⟨n, _, hn⟩ := List.mem_map.1 h
    cases hn

/-- Account 1 allows 100 of `contract 7` under `active`. -/
def granting : List (Env (.contract 9) × Call) :=
  [(asking 0 [1], registering 1 "active"),
    (asking 0 [1], .setAllowance (.account 1) "active" (.contract 7) ⟨100, isI128_hundred⟩ 0)]

/-- What `contract 9` then stores. -/
def granted : State := (deployment (.contract 9)).play deployed granting

/-- A wallet at `contract 0` over a ledger, with the policy contract at `contract 9`. -/
def gatedWallet : WalletContract.WalletHost (Ledger × State) where
  self := .contract 0
  balance w := (ledgerHost (.contract 0)).balance w.1
  transfer w asset src dst amount :=
    (fun l => (l, w.2)) <$> (ledgerHost (.contract 0)).transfer w.1 asset src dst amount
  getModulesBatch _ _ _ _ := .error none
  checkTransfer env w policy id asset recipient amount :=
    if policy = .contract 9 then
      match checkTransfer (asking env.timestamp []) w.2 id asset recipient amount with
      | .ok () => some w
      | .error _ => none
    else
      none
  consume _ _ _ _ _ _ := .error none
  invoke _ _ _ := .error none

theorem gatedWallet_answers : Answers gatedWallet.checkTransfer (.contract 9) Prod.snd := by
  intro env w asset recipient amount w' h
  simp only [gatedWallet, if_pos] at h
  split at h
  · rename_i hpassed
    cases h
    exact ⟨rfl, asking env.timestamp [], rfl, hpassed⟩
  · cases h

/-- The wallet is deployed next to it, and account 1 holds 200 of the token. -/
def gatedDeployed : WalletContract.State (Ledger × State) :=
  { WalletContract.deployed (fun _ _ => 0) with
    world := ((fun asset holder => if asset = .contract 7 ∧ holder = .account 1 then 200 else 0),
      granted) }

theorem gatedDeployed_fresh : WalletContract.Fresh gatedWallet gatedDeployed := by
  refine ⟨rfl, rfl, rfl, rfl, rfl, fun _ => rfl, fun _ _ => rfl, rfl, fun _ => rfl,
    fun _ _ => rfl, fun _ _ => rfl, fun _ => rfl, fun _ => rfl, rfl, rfl, rfl, rfl, fun _ => rfl,
    fun _ _ => rfl, ?_⟩
  intro asset
  have hnone : gatedWallet.custody gatedDeployed.world asset = 0 := by
    show (if asset = .contract 7 ∧ (Address.contract 0) = .account 1 then (200 : ℤ) else 0) = 0
    simp
  rw [hnone]

/-- Account 1 opens a wallet, deposits what it holds, and account 3 is the admin. -/
def gatedOpening : Script WalletContract.Call :=
  [(signedBy 0 [3], .initializeContract (.account 3)),
    (signedBy 0 [1], .createWallet (.account 1)),
    (signedBy 0 [1], .deposit 1 (.account 1) (.contract 7) 200)]

/-- Account 3 wires `contract 9`. -/
def wiring : Script WalletContract.Call :=
  [(signedBy 1 [3], .setPolicy (.account 3) (.contract 9))]

/-- Account 1 sends 60 to account 2. -/
def sending (time : UInt64) (amount : ℤ) : Script WalletContract.Call :=
  [(signedBy time [1], .transfer (.account 1) 1 (.account 2) (.contract 7) amount)]

abbrev playGated : WalletContract.State (Ledger × State) → Script WalletContract.Call →
    WalletContract.State (Ledger × State) := (WalletContract.deployment gatedWallet).play

abbrev gatedTrace : WalletContract.State (Ledger × State) → Script WalletContract.Call →
    List (Entry (WalletContract.State (Ledger × State)) (WalletContract.Inputs gatedWallet)) :=
  (WalletContract.deployment gatedWallet).trace

/-- The state the wallet is in once the policy is wired. -/
def gatedWired : WalletContract.State (Ledger × State) :=
  playGated (playGated gatedDeployed gatedOpening) wiring

/-- The run to there, and its last entry. -/
def beforeWiring :
    List (Entry (WalletContract.State (Ledger × State)) (WalletContract.Inputs gatedWallet)) :=
  [] ++ gatedTrace gatedDeployed gatedOpening

def wired : Entry (WalletContract.State (Ledger × State)) (WalletContract.Inputs gatedWallet) :=
  ⟨playGated gatedDeployed gatedOpening,
    .invoke (signedBy 1 [3]) (.setPolicy (.account 3) (.contract 9)), gatedWired⟩

theorem gatedWired_path :
    (WalletContract.machine gatedWallet).Path anyInput (beforeWiring ++ [wired]) gatedWired 1 := by
  have hopening : (WalletContract.deployment gatedWallet).plays gatedDeployed 0 gatedOpening
      = true := by decide
  have hwiring : (WalletContract.deployment gatedWallet).plays
      (playGated gatedDeployed gatedOpening) 0 wiring = true := by decide
  have hstart : (WalletContract.machine gatedWallet).Path anyInput [] gatedDeployed 0 :=
    .start gatedDeployed_fresh
  have hopened := Deployment.path_playing hstart hopening
  exact Deployment.path_playing hopened hwiring

/-- The allowance `contract 9` carries. -/
def hundred : AssetAllowance := ⟨"active", .contract 7, 100, 0, 0, 0, 0⟩

theorem granted_canBe : CanBe (.contract 9) 1 granted := by
  have hplays : (deployment (.contract 9)).plays deployed 0 granting = true := by decide
  obtain ⟨_, hpath⟩ := Deployment.anyPath_play deployed_fresh hplays
  exact ⟨_, 0, by decide, hpath⟩

theorem granted_carries : (granted.records "active").allowance (.contract 7) = some hundred := by
  decide

theorem gatedWired_governs {tr : List
    (Entry (WalletContract.State (Ledger × State)) (WalletContract.Inputs gatedWallet))}
    (hoperates : ∀ e ∈ tr, Operates (.contract 9) "active" (.contract 7) hundred e.input.time
      e.pre.world.2 e.post.world.2) :
    Governs (WalletContract.machine gatedWallet) (.contract 9) (.contract 7) hundred
      (fun s => s.world.2) wired tr :=
  ⟨granted_canBe, granted_carries, by decide, hoperates⟩

/-- Account 1 records the 60 it sent. -/
def recording : Env (.contract 9) × Call :=
  (asking 3 [1], .updateAllowance (.account 1) "active" (.contract 7) ⟨60, by decide⟩)

/-- The wallet after it sent 60, and after they were recorded. -/
def sentSixty : WalletContract.State (Ledger × State) := playGated gatedWired (sending 2 60)

def recordedSixty : WalletContract.State (Ledger × State) :=
  { sentSixty with world := (sentSixty.world.1, (deployment (.contract 9)).after granted recording) }

/-- Then it sends 40. -/
def recordedRun :
    List (Entry (WalletContract.State (Ledger × State)) (WalletContract.Inputs gatedWallet)) :=
  ([⟨gatedWired, .invoke (signedBy 2 [1])
      (.transfer (.account 1) 1 (.account 2) (.contract 7) 60), sentSixty⟩] ++
    [⟨sentSixty, .outside 3 recordedSixty.world, recordedSixty⟩]) ++
    [⟨recordedSixty, .invoke (signedBy 4 [1])
      (.transfer (.account 1) 1 (.account 2) (.contract 7) 40),
      playGated recordedSixty (sending 4 40)⟩]

theorem recordedRun_path : (WalletContract.machine gatedWallet).Path anyInput
    (beforeWiring ++ wired :: recordedRun) (playGated recordedSixty (sending 4 40)) 4 := by
  have hfirst : (WalletContract.deployment gatedWallet).plays gatedWired 1 (sending 2 60)
      = true := by decide
  have hsecond : (WalletContract.deployment gatedWallet).plays recordedSixty 3 (sending 4 40)
      = true := by decide
  have hsent := Deployment.path_playing gatedWired_path hfirst
  have hrecorded := Path.step (i := Input.outside 3 recordedSixty.world) hsent (by decide) trivial
    ⟨fun _ => le_rfl, rfl⟩
  have hpath := Deployment.path_playing hrecorded hsecond
  rw [List.append_cons]
  unfold recordedRun
  rw [← List.append_assoc, ← List.append_assoc]
  exact hpath

theorem recordedRun_operates : ∀ e ∈ recordedRun, Operates (.contract 9) "active" (.contract 7)
    hundred e.input.time e.pre.world.2 e.post.world.2 := by
  have hrecording : ((deployment (.contract 9)).exec recording.1 granted recording.2).isOk
      = true := by decide
  intro e he
  simp only [recordedRun, List.mem_append, List.mem_singleton] at he
  rcases he with (rfl | rfl) | rfl
  · exact .refl
  · refine .single ⟨asking 3 [1], recording.2, rfl, ⟨?_, ?_⟩, Deployment.step_after hrecording⟩
    · intro caller hcall
      cases hcall
    · intro l hl
      cases hl
  · exact .refl

theorem recordedRun_recorded : Recorded (.contract 9) (.contract 7) hundred (fun s => s.world.2)
    (WalletContract.moves gatedWallet (.contract 9) (.contract 7)) recordedRun := by
  refine ((recorded_nil.concat (some (2, 60)) (by decide) ?_).concat none rfl ?_).concat
    (some (4, 40)) (by decide) ?_
  · rintro move ⟨⟩ env htime
    rw [getAllowance_eq, htime]
    decide
  · rintro move ⟨⟩
  · rintro move ⟨⟩ env htime
    rw [getAllowance_eq, htime]
    decide

/-- **Two transfers get past one allowance.**  Each of two transfers of 60 passes the policy
contract, which allows 100. -/
theorem not_allowance_bounds_gated :
    ¬ ∀ (World : Type) (H : WalletContract.WalletHost World) policy asset a (view : World → State)
      (tr₁ tr₂ : List (Entry (WalletContract.State World) (WalletContract.Inputs H))) q s t,
      Answers H.checkTransfer policy view →
      (WalletContract.machine H).Path anyInput (tr₁ ++ q :: tr₂) s t →
      Governs (WalletContract.machine H) policy asset a (fun s => view s.world) q tr₂ →
      Bounds a (tr₂.flatMap (WalletContract.moves H policy asset)) := by
  intro h
  have hplays : (WalletContract.deployment gatedWallet).plays gatedWired 1
      (sending 2 60 ++ sending 3 60) = true := by decide
  have hpath := Deployment.path_playing gatedWired_path hplays
  rw [← List.append_cons] at hpath
  have hoperates : ∀ e ∈ gatedTrace gatedWired (sending 2 60 ++ sending 3 60),
      Operates (.contract 9) "active" (.contract 7) hundred e.input.time e.pre.world.2
        e.post.world.2 := by
    intro e he
    rcases List.mem_cons.1 he with rfl | he
    · exact .refl
    · rw [List.mem_singleton.1 he]
      exact .refl
  have hgoverns := gatedWired_governs hoperates
  have hbound := (h _ gatedWallet (.contract 9) (.contract 7) hundred Prod.snd _ _ _ _ _
    gatedWallet_answers hpath hgoverns).2 rfl
  revert hbound
  decide

/-- A treasury at `contract 0`, with the policy contract at `contract 9`. -/
def gatedTreasury : TreasuryContract.TreasuryHost (Ledger × State) where
  toTokenHost := gatedWallet.toTokenHost
  lookup _ _ _ _ := none
  checkTransfer := gatedWallet.checkTransfer
  consume _ _ _ _ _ _ := none

/-- The treasury is deployed next to it, and account 1 holds 100 of the token. -/
def treasuryDeployed : TreasuryContract.State (Ledger × State) :=
  { TreasuryContract.deployed (fun _ _ => 0) with
    world := (TreasuryContract.funded 0, granted) }

theorem treasuryDeployed_fresh : TreasuryContract.Fresh gatedTreasury treasuryDeployed := by
  have hreference := TreasuryContract.funded_fresh (le_refl (0 : ℤ))
  exact ⟨rfl, fun _ => rfl, fun _ => rfl, rfl, rfl, fun _ => rfl, rfl, rfl, fun _ => rfl, rfl,
    fun _ => rfl, rfl, fun _ => rfl, rfl, fun _ => rfl, rfl, hreference.custody⟩

/-- The treasury is opened, and its admin wires `contract 9`. -/
def treasuryOpening : Script TreasuryContract.Call := TreasuryContract.opening

def treasuryWiring : Script TreasuryContract.Call :=
  [(signedBy 1 [0], .setPolicy (.account 0) (.contract 9))]

/-- It pays 60 to account 2. -/
def treasuryPayment : Script TreasuryContract.Call :=
  [(signedBy 2 [0], .withdraw (.account 0) (.contract 7) (.account 2) 60)]

abbrev playTreasury : TreasuryContract.State (Ledger × State) → Script TreasuryContract.Call →
    TreasuryContract.State (Ledger × State) := (TreasuryContract.deployment gatedTreasury).play

/-- The run to there, its last entry, and the payment. -/
def beforeTreasuryWiring : List
    (Entry (TreasuryContract.State (Ledger × State)) (TreasuryContract.Inputs gatedTreasury)) :=
  [] ++ (TreasuryContract.deployment gatedTreasury).trace treasuryDeployed treasuryOpening

def treasuryWired : TreasuryContract.State (Ledger × State) :=
  playTreasury (playTreasury treasuryDeployed treasuryOpening) treasuryWiring

def wiredTreasury :
    Entry (TreasuryContract.State (Ledger × State)) (TreasuryContract.Inputs gatedTreasury) :=
  ⟨playTreasury treasuryDeployed treasuryOpening,
    .invoke (signedBy 1 [0]) (.setPolicy (.account 0) (.contract 9)), treasuryWired⟩

def paidRun : List
    (Entry (TreasuryContract.State (Ledger × State)) (TreasuryContract.Inputs gatedTreasury)) :=
  [⟨treasuryWired, .invoke (signedBy 2 [0])
      (.withdraw (.account 0) (.contract 7) (.account 2) 60),
    playTreasury treasuryWired treasuryPayment⟩]

theorem paidRun_path : (TreasuryContract.machine gatedTreasury).Path anyInput
    (beforeTreasuryWiring ++ wiredTreasury :: paidRun) (playTreasury treasuryWired treasuryPayment)
    2 := by
  have hopening : (TreasuryContract.deployment gatedTreasury).plays treasuryDeployed 0
      treasuryOpening = true := by decide
  have hwiring : (TreasuryContract.deployment gatedTreasury).plays
      (playTreasury treasuryDeployed treasuryOpening) 0 treasuryWiring = true := by decide
  have hpayment : (TreasuryContract.deployment gatedTreasury).plays treasuryWired 1
      treasuryPayment = true := by decide
  have hstart : (TreasuryContract.machine gatedTreasury).Path anyInput [] treasuryDeployed 0 :=
    .start treasuryDeployed_fresh
  have hopened := Deployment.path_playing hstart hopening
  have hwired := Deployment.path_playing hopened hwiring
  rw [List.append_cons]
  exact Deployment.path_playing hwired hpayment

/-- A wallet that records its transfers sends 100 in two of them, and a treasury 60 in one. -/
theorem allowance_bounds_gated_recorded :
    (recordedRun.flatMap (WalletContract.moves gatedWallet (.contract 9) (.contract 7))
        = [(2, 60), (4, 40)] ∧
      Bounds hundred
        (recordedRun.flatMap (WalletContract.moves gatedWallet (.contract 9) (.contract 7)))) ∧
    paidRun.flatMap (TreasuryContract.moves gatedTreasury (.contract 9) (.contract 7))
        = [(2, 60)] ∧
      Bounds hundred
        (paidRun.flatMap (TreasuryContract.moves gatedTreasury (.contract 9) (.contract 7))) := by
  refine ⟨⟨by decide, ?_⟩, by decide, ?_⟩
  · exact (allowance_bounds_gated (.contract 9) (.contract 7) hundred Prod.snd).1 gatedWallet _ _ _
      _ _ gatedWallet_answers recordedRun_path (gatedWired_governs recordedRun_operates)
      recordedRun_recorded
  · refine (allowance_bounds_gated (.contract 9) (.contract 7) hundred Prod.snd).2 gatedTreasury
      _ _ _ _ _ gatedWallet_answers paidRun_path ⟨granted_canBe, granted_carries, by decide, ?_⟩
      (recorded_nil.concat (some (2, 60)) (by decide) ?_)
    · intro e he
      rw [paidRun, List.mem_singleton] at he
      subst he
      exact .refl
    · rintro move ⟨⟩ env htime
      rw [getAllowance_eq, htime]
      decide

end PolicyContract
end Astroid
