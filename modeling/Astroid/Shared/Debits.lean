import Astroid.Shared.Transfers

/-!
# Whose tokens an invocation moves

Of everybody but a few payers, an invocation lowers no balance (`TokenHost.Spares`).  The
payers of an invocation are the contract itself and whoever authorized it (`Env.Pays`).
-/

namespace Astroid

/-- The contract itself, and whoever authorized the invocation. -/
def Env.Pays {current : Address} (env : Env current) (a : Address) : Prop :=
  a = current ∨ a ∈ env.auths

namespace TokenHost

variable {World : Type} {H : TokenHost World} {payers payers' : Address → Prop}
  {w w' w'' : World}

/-- Tokens move exactly the stated amount, and refuse to move a negative one. -/
structure Standard (H : TokenHost World) : Prop where
  exact : H.Exact
  nonneg : ∀ w asset src dst amount w',
    H.transfer w asset src dst amount = .ok w' → 0 ≤ amount

/-- No balance of anybody but the payers falls. -/
def Spares (H : TokenHost World) (payers : Address → Prop) (w w' : World) : Prop :=
  ∀ asset holder, ¬ payers holder → H.held w asset holder ≤ H.held w' asset holder

namespace Spares

theorem refl : H.Spares payers w w := fun _ _ _ => le_rfl

theorem trans (h : H.Spares payers w w') (h' : H.Spares payers w' w'') :
    H.Spares payers w w'' :=
  fun asset holder hholder => (h asset holder hholder).trans (h' asset holder hholder)

theorem mono (hle : ∀ a, payers a → payers' a) (h : H.Spares payers w w') :
    H.Spares payers' w w' :=
  fun asset holder hholder => h asset holder fun hpays => hholder (hle holder hpays)

/-- A chain of steps that all spare the others spares them. -/
theorem chain {r : World → World → Prop} (hr : ∀ w w', r w w' → H.Spares payers w w')
    (h : Relation.ReflTransGen r w w') : H.Spares payers w w' := by
  induction h with
  | refl => exact refl
  | tail _ hstep ih => exact ih.trans (hr _ _ hstep)

end Spares

/-- A transfer takes from its source alone. -/
theorem Standard.spares (hx : H.Standard) {asset src dst : Address} {amount : ℤ}
    (h : H.transfer w asset src dst amount = .ok w') (hsrc : payers src) :
    H.Spares payers w w' := by
  intro a holder hholder
  have hamount := hx.nonneg _ _ _ _ _ _ h
  have hne : ¬ (a = asset ∧ holder = src) := by
    rintro ⟨_, rfl⟩
    exact hholder hsrc
  have hgain : 0 ≤ if a = asset ∧ holder = dst then amount else 0 := by
    split <;> omega
  rw [hx.exact _ _ _ _ _ _ h a holder, if_neg hne, sub_zero]
  exact le_add_of_nonneg_right hgain

/-- A relation between worlds that transfers out of the payers' balances keep to. -/
structure TransferClosed (H : TokenHost World) (payers : Address → Prop)
    (R : World → World → Prop) : Prop where
  refl : ∀ w, R w w
  trans : ∀ {w w' w''}, R w w' → R w' w'' → R w w''
  transfer : ∀ {w asset src dst amount w'}, H.transfer w asset src dst amount = .ok w' →
    payers src → R w w'

theorem Standard.closed (hx : H.Standard) : H.TransferClosed payers (H.Spares payers) :=
  ⟨fun _ => .refl, .trans, hx.spares⟩

/-- A list of transfers keeps to it, too. -/
theorem TransferClosed.carry {R : World → World → Prop} (hR : H.TransferClosed payers R)
    {l : List Transfer} (h : H.carry w l = .ok w') (hsources : ∀ x ∈ l, payers x.source) :
    R w w' := by
  induction l generalizing w with
  | nil =>
      cases h
      exact hR.refl _
  | cons x rest ih =>
      rw [List.forall_mem_cons] at hsources
      simp only [TokenHost.carry, Outcome.bind_eq_ok] at h
      obtain ⟨w₁, htransfer, hrest⟩ := h
      exact hR.trans (hR.transfer htransfer hsources.1) (ih hrest hsources.2)

end TokenHost

theorem ledgerHost_standard (self : Address) : (ledgerHost self).Standard where
  exact := ledgerHost_exact self
  nonneg := by
    intro w asset src dst amount w' h
    simp only [ledgerHost] at h
    split at h
    · cases h
    · rename_i hneg
      exact not_lt.1 hneg

end Astroid
