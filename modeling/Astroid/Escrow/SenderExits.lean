import Astroid.Escrow.Finality
import Astroid.Escrow.Settlement

/-!
# The sender's exits agree

After the grace period the sender has three ways out, each with gates and a payout loop of its
own.  `refund` and `reclaim` are one function on every state the contract can be in
(`refund_eq_reclaim`): what is left of an open escrow is never negative, so it does not matter
that one loop skips a remainder of zero and the other every remainder that is not positive.
`refund_timelock` admits records that were never funded as well, and otherwise does the same
(`refundTimelock_of_refund`).  An exit leaves the record final, so nothing moves after it.
-/

namespace Astroid
namespace EscrowContract

open Machine Outcome

variable {World : Type} {H : EscrowHost World} {env : Env H.self} {s s' : State World}
  {caller : Address} {id : ℕ} {e : Escrow}

/-- The two ways to send a remainder back that is not negative. -/
theorem returnRemaining_eq_transferAll {remaining : ℤ} (h : 0 ≤ remaining) :
    returnRemaining H s id e remaining = transferAll H s id e e.sender remaining := by
  unfold returnRemaining transferAll
  rcases h.eq_or_lt with rfl | hpos
  · simp
  · rw [if_pos hpos, if_neg hpos.ne']

/-- **`refund` and `reclaim` give the same verdict, error, record and transfers.** -/
theorem refund_eq_reclaim (h : Reachable H s) (env : Env H.self) (caller : Address) (id : ℕ) :
    refund H env s caller id = reclaim H env s caller id := by
  unfold refund reclaim
  refine bind_congr_ok fun _ _ => ?_
  refine bind_congr_ok fun e he => ?_
  refine bind_congr_ok fun _ hms => ?_
  refine bind_congr_ok fun _ _ => ?_
  refine bind_congr_ok fun _ hstate => ?_
  rw [loadEscrow_eq_ok] at he
  rw [rejectMilestoneSettlement_eq_ok] at hms
  rw [require_eq_ok] at hstate
  -- the five gates that follow are the same ones
  refine bind_congr_ok fun _ _ => ?_
  refine bind_congr_ok fun _ _ => ?_
  refine bind_congr_ok fun _ _ => ?_
  refine bind_congr_ok fun _ _ => ?_
  refine bind_congr_ok fun remaining hremaining => ?_
  obtain ⟨_, rfl⟩ := checkedSub_eq_ok.1 hremaining
  rw [returnRemaining_eq_transferAll (left_range h he hms hstate).2.1]

/-- Where `refund` goes through, `refund_timelock` does the same. -/
theorem refundTimelock_of_refund (h : refund H env s caller id = .ok s') :
    refundTimelock H env s caller id = .ok s' := by
  simp only [refund, refundTimelock, bind_eq_ok, loadEscrow_eq_ok, require_eq_ok] at h ⊢
  obtain ⟨_, hauth, e, he, _, hms, _, hsender, _, hstate, _, _, graceEnd, hgraceEnd, _, hgrace,
    hrest⟩ := h
  exact ⟨(), hauth, e, he, (), hms, (), hsender, (), .inr hstate, graceEnd, hgraceEnd, (), hgrace,
    hrest⟩

/-- The calls through which the sender takes an escrow back after its grace period. -/
def Call.TakesBack (id : ℕ) : Call → Prop
  | .refund _ id' | .refundTimelock _ id' | .reclaim _ id' => id' = id
  | _ => False

/-- An exit leaves the record final. -/
theorem SenderExit.final {w : World} {legs : List Leg}
    (h : SenderExit env s s' caller id e w legs) :
    ∃ e', s'.escrow id = some e' ∧ e'.state.IsFinal := by
  refine ⟨{ e with state := .refunded }, ?_, .inr (.inl rfl)⟩
  rw [h.post]
  simp [State.recordPayout, State.storeEscrow]

theorem takesBack_final {call : Call} (hcall : call.TakesBack id)
    (h : exec H env s call = .ok s') : ∃ e', s'.escrow id = some e' ∧ e'.state.IsFinal := by
  cases call with
  | refund =>
      obtain rfl := hcall
      obtain ⟨_, _, _, hexit, _⟩ := refund_ok h
      exact hexit.final
  | refundTimelock =>
      obtain rfl := hcall
      obtain ⟨_, _, _, hexit, _⟩ := refundTimelock_ok h
      exact hexit.final
  | reclaim =>
      obtain rfl := hcall
      obtain ⟨_, _, _, hexit, _⟩ := reclaim_ok h
      exact hexit.final
  | _ => exact hcall.elim

/-- An escrow is refunded once its grace period is over, and then closed. -/
def takingBack : Script Call :=
  [(signedBy 15 [1], .refund (.account 1) 1), (signedBy 16 [1], .close (.account 1) 1)]

end EscrowContract
end Astroid
