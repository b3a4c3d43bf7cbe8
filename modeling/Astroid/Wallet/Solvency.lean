import Astroid.Wallet.Effects
import Astroid.Lib.Pool

/-!
# The solvency of the wallet contract

All wallets share one custody.  Deposits credit what they bring in and spends
debit what they send, so the tracked balances stay within custody.  A batch
debits nothing: a sub-call that takes tokens out of the contract's own custody
leaves every tracked balance where it was.  The law holds in every run whose
batches make no such sub-call (`wallet_solvency`), and one batch breaks it
(`not_wallet_solvency`).
-/

namespace Astroid
namespace WalletContract

variable {World : Type} {H : WalletHost World} {env : Env H.self} {s s' : State World}

/-- Honest tokens move what they are told to, and a policy or a budget, which the
contract only consults, takes nothing out of its custody. -/
structure WalletHost.Honest (H : WalletHost World) : Prop where
  exact : H.Exact
  checkTransfer : ∀ env w policy id asset payee amount w',
    H.checkTransfer env w policy id asset payee amount = some w' →
    ∀ a, H.custody w a ≤ H.custody w' a
  consume : ∀ env w budget caller id amount w' remaining,
    H.consume env w budget caller id amount = .ok (w', remaining) →
    ∀ a, H.custody w a ≤ H.custody w' a

theorem WalletHost.Honest.consults (hx : H.Honest) {w w' : World} (h : Consults H env w w')
    (a : Address) : H.custody w a ≤ H.custody w' a := by
  induction h with
  | refl => exact le_rfl
  | tail _ hcall ih =>
      rcases hcall with ⟨_, _, _, _, _, hcall⟩ | ⟨_, _, _, _, _, hcall⟩
      · exact ih.trans (hx.checkTransfer _ _ _ _ _ _ _ _ hcall a)
      · exact ih.trans (hx.consume _ _ _ _ _ _ _ _ hcall a)

/-- A call that, made by the contract, can take tokens out of its custody. -/
def DrainsCustody (H : WalletHost World) (env : Env H.self) (call : ContractCall) : Prop :=
  ∃ w w' asset, H.invoke env w call = .ok w' ∧ H.custody w' asset < H.custody w asset

/-- A batch that drains nothing takes nothing out of custody. -/
theorem Invokes.custody_le {w w' : World} {actions : List BatchAction}
    (h : Invokes H env actions w w') (hnone : ∀ action ∈ actions, ¬ DrainsCustody H env action.call)
    (asset : Address) : H.custody w asset ≤ H.custody w' asset := by
  induction h with
  | nil => exact le_rfl
  | cons hinvoke _ ih =>
      rw [List.forall_mem_cons] at hnone
      refine le_trans ?_ (ih hnone.2)
      rw [← not_lt]
      exact fun hlt => hnone.1 ⟨_, _, asset, hinvoke, hlt⟩

/-! ## One call -/

/-- A write to one tracked balance shifts it. -/
theorem balanceOf_storeBalance {walletId : ℕ} {asset : Address} {x : ℤ} :
    (s.storeBalance walletId asset (s.balanceOf walletId asset + x)).balanceOf
      = Pool.shift s.balanceOf walletId asset x := by
  funext id a
  simp only [State.storeBalance, State.balanceOf, State.update₂, Pool.shift]
  by_cases hid : id = walletId
  · subst hid
    by_cases ha : a = asset <;> simp [ha]
  · simp [hid]

/-- The tracked balances are solvent. -/
def Solvent (H : WalletHost World) (s : State World) : Prop :=
  Pool.Solvent s.balanceOf (H.custody s.world)

theorem Fresh.solvent (h : Fresh H s) : Solvent H s := by
  have hempty : s.balanceOf = fun _ _ => 0 := by
    funext id asset
    unfold State.balanceOf
    rw [h.balance id asset]
    rfl
  unfold Solvent
  rw [hempty]
  exact .empty h.custody

/-- The batches of a call drain nothing. -/
def DrainsNothing (H : WalletHost World) (env : Env H.self) : Call → Prop
  | .batchExecuteValidated _ _ actions => ∀ action ∈ actions, ¬ DrainsCustody H env action.call
  | _ => True

/-- Every call that drains nothing keeps the balances solvent. -/
theorem Effect.solvent (hx : H.Honest) {call : Call} (h : Effect H env s call s')
    (hnone : DrainsNothing H env call) (hs : Solvent H s) : Solvent H s' := by
  unfold Solvent at hs ⊢
  cases h with
  | unmoved hsame =>
      have hbalance : s'.balanceOf = s.balanceOf := by
        funext id asset
        unfold State.balanceOf
        rw [hsame.balance]
      rw [hbalance, hsame.world]
      exact hs
  | deposited walletId src asset amount _ hpos hauth htransfer hs' =>
      have hbalance : s'.balanceOf = Pool.shift s.balanceOf walletId asset amount := by
        rw [hs', ← balanceOf_storeBalance]
        rfl
      rw [hbalance]
      exact hs.deposit hpos.le fun a =>
        (hx.exact.custody_in htransfer (env.ne_current hauth) a).ge
  | spent walletId payee asset amount hspent =>
      obtain ⟨w, hconsults, htransfer⟩ := hspent.world
      obtain ⟨_, _, hs'⟩ := hspent.state
      have hbalance : s'.balanceOf = Pool.shift s.balanceOf walletId asset (-amount) := by
        rw [hs', ← balanceOf_storeBalance, ← sub_eq_add_neg]
        rfl
      rw [hbalance]
      refine hs.withdraw hspent.covered ?_
      intro a
      have hbefore := hx.consults hconsults a
      have hout := hx.exact.custody_out htransfer hspent.positive.le a
      omega
  | batched caller walletId actions hcall hbatched =>
      subst hcall
      obtain ⟨w, hconsults, hinvokes⟩ := hbatched.world
      obtain ⟨_, _, hs'⟩ := hbatched.state
      have hbalance : s'.balanceOf = s.balanceOf := by
        rw [hs']
        rfl
      rw [hbalance]
      exact hs.mono fun a => (hx.consults hconsults a).trans (hinvokes.custody_le hnone a)

/-! ## Over whole runs -/

/-- No batch makes a sub-call that can take tokens out of the contract's custody. -/
def drainsNothing : Inputs H → State World → Prop
  | .invoke env call, _ => DrainsNothing H env call
  | .outside _ _, _ => True

/-- **Wallet solvency.**  In every run whose batches drain nothing, the tracked balances
of any wallets add up to at most custody, asset by asset. -/
theorem wallet_solvency (hx : H.Honest) {t : ℕ} {tr : List (Entry (State World) (Inputs H))}
    (hpath : (machine H).Path drainsNothing tr s t) (wallets : Finset ℕ) (asset : Address) :
    ∑ id ∈ wallets, s.balanceOf id asset ≤ H.custody s.world asset := by
  have hsolvent : Solvent H s := by
    refine hpath.invariant (fun _ => Fresh.solvent) ?_
    intro i s s' hs hallow hstep
    cases i with
    | invoke env call => exact (exec_effect hstep).solvent hx hallow hs
    | outside time w =>
        obtain ⟨hcustody, rfl⟩ := hstep
        exact hs.mono hcustody
  exact hsolvent.sum_le wallets asset

/-! ## Two runs -/

theorem referenceHost_honest : referenceHost.Honest where
  exact := ledgerHost_exact _
  checkTransfer := by
    rintro _ _ _ _ _ _ _ _ ⟨⟩ _
    exact le_rfl
  consume := by
    rintro _ _ _ _ _ _ _ _ ⟨⟩ _
    exact le_rfl

/-- A batch of one action that sends 60 of the token to account 2. -/
def payment : BatchAction where
  call := ⟨.contract 7, "transfer", [.address (.contract 0), .address (.account 2), .i128 60]⟩
  policyId := ""
  budgetId := ""
  asset := .contract 7
  recipient := .account 2
  amount := 60

/-- Account 1 deposits all it holds and transfers 60 of it. -/
theorem wallet_solvency_transfer :
    let s := play (deployed funded)
      (opening ++ [(signedBy 1 [1], .transfer (.account 1) 1 (.account 2) (.contract 7) 60)])
    ∑ id ∈ {1, 2}, s.balanceOf id (.contract 7)
      ≤ referenceHost.custody s.world (.contract 7) := by
  have hstart : (machine referenceHost).Path drainsNothing [] (deployed funded) 0 :=
    .start funded_fresh
  have hallow : (deployment referenceHost).AllAllowed drainsNothing (deployed funded)
      (opening ++
        [(signedBy 1 [1], .transfer (.account 1) 1 (.account 2) (.contract 7) 60)]) :=
    ⟨trivial, trivial, trivial, trivial, trivial⟩
  exact wallet_solvency referenceHost_honest (Deployment.path_play hstart rfl hallow) {1, 2} _

/-- **A batch breaks it.**  The sub-call takes 60 of the 100 out of custody, and wallet 1
still claims 100. -/
theorem not_wallet_solvency :
    ¬ ∀ s, (machine referenceHost).Reachable s → ∀ (wallets : Finset ℕ) asset,
      ∑ id ∈ wallets, s.balanceOf id asset ≤ referenceHost.custody s.world asset := by
  intro h
  have hplays : (deployment referenceHost).plays (deployed funded) 0
      (opening ++ [(signedBy 1 [1], .batchExecuteValidated (.account 1) 1 [payment])]) = true :=
    rfl
  have hlaw := h _ (Deployment.reachable_play funded_fresh hplays) {1} (.contract 7)
  revert hlaw
  decide

end WalletContract
end Astroid
