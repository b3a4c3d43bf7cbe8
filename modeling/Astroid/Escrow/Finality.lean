import Astroid.Escrow.Dust

/-!
# A final escrow stays final

A released, refunded or closed record can only be closed: no call pays out of it, funds it
or changes its terms (`Account.Step.final`).  So what one entry of a run settled stays as it
was settled to the end of the run (`final_after`).
-/

namespace Astroid
namespace EscrowContract

section Steps

variable {current : Address} {now : UInt64} {call : Call} {id : ℕ} {a a' : Account} {e : Escrow}
  {payee : Address} {units : ℤ}

/-- A final record is in none of the states a payout starts from. -/
theorem EscrowState.IsFinal.not_live {state : EscrowState} (h : state.IsFinal) :
    ¬ (state = .funded ∨ state = .expired ∨ state = .created) := by
  rcases h with rfl | rfl | rfl <;> decide

theorem Reason.live (h : Reason now call id e payee units) :
    e.state = .funded ∨ e.state = .expired ∨ e.state = .created := by
  cases h with
  | instalment hstate => exact .inl hstate
  | claimRest hstate => exact hstate.imp (·.1) .inr
  | settle hstate => exact .inl hstate
  | giveBack hstate => exact hstate

/-- **All that can happen to a final account is that its record is closed.** -/
theorem Account.Step.final (hstep : Account.Step current now call id a a')
    (he : a.record = some e) (hfinal : e.state.IsFinal) :
    a' = { a with record := some { e with state := .closed } } := by
  have hlive := hfinal.not_live
  have hsame : ∀ {e₁}, a.record = some e₁ → e₁ = e := by
    intro e₁ he₁
    exact Option.some.inj (he₁.symm.trans he)
  cases hstep with
  | opened => cases he
  | phased => cases he
  | recorded => cases he
  | funded he₁ hcreated => exact absurd (hsame he₁ ▸ .inr (.inr hcreated)) hlive
  | paid he₁ _ hreason => exact absurd (hsame he₁ ▸ hreason.live) hlive
  | expired he₁ hfunded => exact absurd (hsame he₁ ▸ .inl hfunded) hlive
  | closed he₁ =>
      obtain rfl := hsame he₁
      rfl
  | approved he₁ _ _ hfunded => exact absurd (hsame he₁ ▸ .inl hfunded) hlive
  | marked he₁ hfunded => exact absurd (hsame he₁ ▸ .inl hfunded) hlive
  | cancelled he₁ _ _ hopen => exact absurd (hsame he₁ ▸ hopen.imp_right .inl) hlive

end Steps

variable {World : Type} {H : EscrowHost World} {s s' : State World} {id : ℕ} {e : Escrow}

/-- The account `a` with its record, which is final, in a state that is final too. -/
def Account.StaysFinal (a : Account) (e : Escrow) (a' : Account) : Prop :=
  ∃ state : EscrowState, state.IsFinal ∧ a' = { a with record := some { e with state } }

/-- A step of a run keeps a final escrow final. -/
theorem Consistent.final_step (hc : Consistent H s) {a : Account}
    (h : a.StaysFinal e (s.account id)) {i : Inputs H} (hstep : Step H i s s') :
    a.StaysFinal e (s'.account id) := by
  obtain ⟨state, hfinal, haccount⟩ := h
  have he : (s.account id).record = some { e with state } := by rw [haccount]
  rcases hc.account_step hstep id with hkept | ⟨_, _, _, hmoved⟩
  · rw [hkept]
    exact ⟨state, hfinal, haccount⟩
  · refine ⟨.closed, .inr (.inr rfl), ?_⟩
    rw [hmoved.final he hfinal, haccount]

/-- **What an entry settled stays settled to the end of the run.** -/
theorem final_after {tr₁ tr₂ : List (Entry (State World) (Inputs H))}
    {q : Entry (State World) (Inputs H)} {t : ℕ}
    (hpath : (machine H).Path Machine.anyInput (tr₁ ++ q :: tr₂) s t)
    (he : q.post.escrow id = some e) (hfinal : e.state.IsFinal) :
    (q.post.account id).StaysFinal e (s.account id) := by
  have hself : q.post.account id = { q.post.account id with record := some e } := by
    rw [← he]
    rfl
  refine hpath.after (Q := fun _ s => (q.post.account id).StaysFinal e (s.account id)) ?_ ?_
  · exact ⟨e.state, hfinal, hself⟩
  · intro _ entry _ hreach _ hstep hstays
    exact (Reachable.consistent hreach).final_step hstays hstep

end EscrowContract
end Astroid
