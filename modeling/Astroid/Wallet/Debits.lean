import Astroid.Wallet.Solvency
import Astroid.Shared.Debits

/-!
# Whose tokens a wallet call moves

A deposit is pulled from a party who authorized the call, and every spend leaves custody.
A batch takes what its sub-calls take (`exec_spares`).  The tracked balances stay within
custody in every run whose batches drain nothing (`pool_of_path`).
-/

namespace Astroid
namespace WalletContract

variable {World : Type} {H : WalletHost World} {env : Env H.self} {s s' : State World}
  {w w' : World}

/-- Tokens are standard, and policies and budgets take none from anybody. -/
structure WalletHost.Harmless (H : WalletHost World) : Prop where
  standard : H.Standard
  checkTransfer : ∀ env w policy id asset payee amount w',
    H.checkTransfer env w policy id asset payee amount = some w' →
    H.Spares (fun _ => False) w w'
  consume : ∀ env w budget caller id amount w' remaining,
    H.consume env w budget caller id amount = .ok (w', remaining) →
    H.Spares (fun _ => False) w w'

namespace WalletHost.Harmless

/-- Then nobody else takes tokens out of the wallet's custody. -/
theorem honest (hx : H.Harmless) : H.Honest where
  exact := hx.standard.exact
  checkTransfer := fun env w policy id asset payee amount w' h a =>
    hx.checkTransfer env w policy id asset payee amount w' h a H.self not_false
  consume := fun env w budget caller id amount w' remaining h a =>
    hx.consume env w budget caller id amount w' remaining h a H.self not_false

theorem consults (hx : H.Harmless) (h : Consults H env w w') : H.Spares env.Pays w w' := by
  refine TokenHost.Spares.chain ?_ h
  rintro w w' (⟨_, _, _, _, _, hcall⟩ | ⟨_, _, _, _, _, hcall⟩)
  · exact (hx.checkTransfer _ _ _ _ _ _ _ _ hcall).mono fun _ hfalse => hfalse.elim
  · exact (hx.consume _ _ _ _ _ _ _ _ hcall).mono fun _ hfalse => hfalse.elim

end WalletHost.Harmless

/-- The sub-calls of a batch take tokens from custody and from whoever authorized the batch:
a token debits only an address that authorized the call, and the contract authorizes for
itself alone. -/
def Contained (H : WalletHost World) (env : Env H.self) : Call → Prop
  | .batchExecuteValidated _ _ actions => ∀ action ∈ actions, ∀ w w',
      H.invoke env w action.call = .ok w' → H.Spares env.Pays w w'
  | _ => True

theorem Invokes.spares {actions : List BatchAction} (h : Invokes H env actions w w')
    (hcontained : ∀ action ∈ actions, ∀ w w', H.invoke env w action.call = .ok w' →
      H.Spares env.Pays w w') : H.Spares env.Pays w w' := by
  induction h with
  | nil => exact .refl
  | cons hinvoke _ ih =>
      rw [List.forall_mem_cons] at hcontained
      exact (hcontained.1 _ _ hinvoke).trans (ih hcontained.2)

/-- **A call whose sub-calls are contained takes tokens from custody and from whoever
authorized it, and from nobody else.** -/
theorem exec_spares (hx : H.Harmless) {call : Call} (hcontained : Contained H env call)
    (h : exec H env s call = .ok s') : H.Spares env.Pays s.world s'.world := by
  cases exec_effect h with
  | unmoved hsame =>
      rw [hsame.world]
      exact .refl
  | deposited walletId src asset amount _ _ hauth htransfer _ =>
      exact hx.standard.spares htransfer (.inr hauth)
  | spent walletId payee asset amount hspent =>
      obtain ⟨w, hconsults, htransfer⟩ := hspent.world
      exact (hx.consults hconsults).trans (hx.standard.spares htransfer (.inl rfl))
  | batched caller walletId actions hcall hbatched =>
      subst hcall
      obtain ⟨w, hconsults, hinvokes⟩ := hbatched.world
      exact (hx.consults hconsults).trans (hinvokes.spares hcontained)

/-- **Custody covers the wallets**, in every run whose batches drain nothing. -/
theorem pool_of_path (hx : H.Honest) {t : ℕ} {tr : List (Entry (State World) (Inputs H))}
    (hpath : (machine H).Path drainsNothing tr s t) :
    Pool.Solvent s.balanceOf (H.custody s.world) := by
  refine hpath.invariant (P := Solvent H) (fun _ => Fresh.solvent) ?_
  intro i s s' hs hallow hstep
  cases i with
  | invoke env call => exact (exec_effect hstep).solvent hx hallow hs
  | outside time w =>
      obtain ⟨hcustody, rfl⟩ := hstep
      exact hs.mono hcustody

end WalletContract
end Astroid
