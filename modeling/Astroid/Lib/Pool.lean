import Mathlib

/-!
# Accounts over one custody

Accounts `κ` record what they hold of each asset `ι`; one custody holds the
assets of all of them.  The records are solvent when none of them is negative
and together they claim no more of an asset than custody has.  Finitely many
accounts are summed at a time, so nothing is assumed about how many there are.

A movement through one account keeps the records solvent when custody moves with
it; a withdrawal needs, besides, that the account covers it.
-/

namespace Pool

variable {κ ι : Type}

/-- Nothing recorded is negative, and no set of accounts claims more than custody has. -/
structure Solvent (tracked : κ → ι → ℤ) (custody : ι → ℤ) : Prop where
  nonneg : ∀ k a, 0 ≤ tracked k a
  sum_le : ∀ (T : Finset κ) a, ∑ k ∈ T, tracked k a ≤ custody a

variable [DecidableEq κ] [DecidableEq ι] {tracked : κ → ι → ℤ} {custody custody' : ι → ℤ}
  {k : κ} {a : ι} {x : ℤ}

/-- Record `x` more of `a` for account `k`. -/
def shift (tracked : κ → ι → ℤ) (k : κ) (a : ι) (x : ℤ) : κ → ι → ℤ := fun k' a' =>
  tracked k' a' + if k' = k ∧ a' = a then x else 0

theorem sum_shift (T : Finset κ) (a' : ι) :
    ∑ k' ∈ T, shift tracked k a x k' a'
      = ∑ k' ∈ T, tracked k' a' + if k ∈ T ∧ a' = a then x else 0 := by
  simp only [shift, Finset.sum_add_distrib]
  by_cases ha : a' = a
  · simp [ha]
  · simp [ha]

namespace Solvent

omit [DecidableEq κ] [DecidableEq ι] in
theorem empty (h : ∀ a, 0 ≤ custody a) : Solvent (fun (_ : κ) _ => 0) custody :=
  ⟨fun _ _ => le_rfl, fun T a => by simpa using h a⟩

omit [DecidableEq ι] in
/-- It is enough to add up the accounts outside which nothing is recorded. -/
theorem of_carrier {C : Finset κ} (hnonneg : ∀ k a, 0 ≤ tracked k a)
    (hout : ∀ k, k ∉ C → ∀ a, tracked k a = 0) (hsum : ∀ a, ∑ k ∈ C, tracked k a ≤ custody a) :
    Solvent tracked custody := by
  refine ⟨hnonneg, ?_⟩
  intro T a
  calc ∑ k ∈ T, tracked k a ≤ ∑ k ∈ C ∪ T, tracked k a :=
        Finset.sum_le_sum_of_subset_of_nonneg Finset.subset_union_right
          fun k _ _ => hnonneg k a
    _ = ∑ k ∈ C, tracked k a :=
        (Finset.sum_subset Finset.subset_union_left fun k _ hk => hout k hk a).symm
    _ ≤ custody a := hsum a

omit [DecidableEq κ] [DecidableEq ι] in
/-- More custody only helps. -/
theorem mono (h : Solvent tracked custody) (hle : ∀ a, custody a ≤ custody' a) :
    Solvent tracked custody' :=
  ⟨h.nonneg, fun T a => (h.sum_le T a).trans (hle a)⟩

/-- A deposit that reached custody. -/
theorem deposit (h : Solvent tracked custody) (hx : 0 ≤ x)
    (hin : ∀ a', custody a' + (if a' = a then x else 0) ≤ custody' a') :
    Solvent (shift tracked k a x) custody' := by
  constructor
  · intro k' a'
    have hheld := h.nonneg k' a'
    unfold shift
    split <;> omega
  · intro T a'
    rw [sum_shift]
    have hsum := h.sum_le T a'
    have hcustody := hin a'
    have hadded : (if k ∈ T ∧ a' = a then x else 0) ≤ if a' = a then x else 0 := by
      by_cases ha : a' = a
      · simp only [ha, and_true, if_true]
        split <;> omega
      · simp [ha]
    omega

/-- A withdrawal that the account covers and that took no more out of custody. -/
theorem withdraw (h : Solvent tracked custody) (hcovered : x ≤ tracked k a)
    (hout : ∀ a', custody a' - (if a' = a then x else 0) ≤ custody' a') :
    Solvent (shift tracked k a (-x)) custody' := by
  have hnonneg : ∀ k' a', 0 ≤ shift tracked k a (-x) k' a' := by
    intro k' a'
    have hheld := h.nonneg k' a'
    unfold shift
    split
    · rename_i heq
      rw [heq.1, heq.2]
      omega
    · omega
  refine ⟨hnonneg, ?_⟩
  intro T a'
  -- with the paying account in the sum, the sum falls by what left custody
  calc ∑ k' ∈ T, shift tracked k a (-x) k' a'
      ≤ ∑ k' ∈ insert k T, shift tracked k a (-x) k' a' :=
        Finset.sum_le_sum_of_subset_of_nonneg (Finset.subset_insert k T)
          fun k' _ _ => hnonneg k' a'
    _ = ∑ k' ∈ insert k T, tracked k' a' - (if a' = a then x else 0) := by
        rw [sum_shift]
        by_cases ha : a' = a
        · simp [ha, sub_eq_add_neg]
        · simp [ha]
    _ ≤ custody a' - (if a' = a then x else 0) := sub_le_sub_right (h.sum_le _ a') _
    _ ≤ custody' a' := hout a'

end Solvent

end Pool
