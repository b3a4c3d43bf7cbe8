import Astroid.Wallet.Record
import Astroid.Lib.Window

/-!
# The buckets of the rolling windows

A record of buckets stands for a log of charges (`Tracks`).  Rolling the record ages
it, writing its first bucket charges it, and its checked sum is what was charged
in the buckets it covers.
-/

namespace Astroid
namespace WalletContract

open Outcome Window

/-- What the loop of `rollBuckets` leaves: every value moved `shift` places. -/
theorem rollBuckets_eq {α : Type} (buckets shift : ℕ) (zero : α) (old : List α) :
    rollBuckets buckets shift zero old = (List.range buckets).map fun i =>
      if shift ≤ i then old.getD (i - shift) zero else zero := by
  -- the first `k` rounds fill the places of the first `k` values
  have hrounds : ∀ k, (List.range k).foldl
      (fun rolled i => if i + shift < buckets then rolled.set (i + shift) (old.getD i zero)
        else rolled)
      (List.replicate buckets zero)
      = (List.range buckets).map fun i =>
        if shift ≤ i ∧ i - shift < k then old.getD (i - shift) zero else zero := by
    intro k
    induction k with
    | zero => simp [List.map_const']
    | succ k ih =>
        rw [List.range_succ, List.foldl_append, ih, List.foldl_cons, List.foldl_nil]
        by_cases hroom : k + shift < buckets
        · rw [if_pos hroom]
          refine List.ext_getElem (by simp) ?_
          intro i _ _
          by_cases hplace : k + shift = i
          · subst hplace
            simp
          · have hother : (shift ≤ i ∧ i - shift < k) ↔ (shift ≤ i ∧ i - shift < k + 1) := by
              omega
            simp [hplace, hother]
        · rw [if_neg hroom]
          refine List.map_congr_left ?_
          intro i hi
          rw [List.mem_range] at hi
          have hother : (shift ≤ i ∧ i - shift < k) ↔ (shift ≤ i ∧ i - shift < k + 1) := by
            omega
          simp only [hother]
  rw [rollBuckets, hrounds]
  refine List.map_congr_left ?_
  intro i hi
  rw [List.mem_range] at hi
  have hlast : (shift ≤ i ∧ i - shift < buckets) ↔ shift ≤ i := by omega
  simp only [hlast]

theorem checkedSum_ok {total r : ℤ} {values : List ℤ} (h : checkedSum total values = .ok r) :
    r = total + values.sum := by
  induction values generalizing total with
  | nil =>
      cases h
      simp
  | cons x rest ih =>
      simp only [checkedSum, bind_eq_ok, checkedAdd_eq_ok] at h
      obtain ⟨_, ⟨_, rfl⟩, hrest⟩ := h
      rw [ih hrest, List.sum_cons, add_assoc]

theorem checkedCountSum_ok {total r : ℕ} {values : List ℕ}
    (h : checkedCountSum total values = .ok r) : r = total + values.sum := by
  induction values generalizing total with
  | nil =>
      cases h
      simp
  | cons x rest ih =>
      simp only [checkedCountSum, bind_eq_ok, checkedCount_eq_ok] at h
      obtain ⟨_, ⟨_, rfl⟩, hrest⟩ := h
      rw [ih hrest, List.sum_cons, add_assoc]

section Tracks

variable {M : Type} [AddCommMonoid M] {width n bucket now : ℕ} {log : List (ℕ × M)}
  {values : List M}

/-- The values of `n` buckets up to number `bucket` are those of a log, which charged
nothing after it. -/
structure Tracks (width n : ℕ) (log : List (ℕ × M)) (bucket : ℕ) (values : List M) : Prop where
  slots : values = slots width n log bucket
  past : ∀ c ∈ log, c.1 / width ≤ bucket

theorem Tracks.empty : Tracks width n ([] : List (ℕ × M)) bucket (List.replicate n 0) :=
  ⟨slots_nil.symm, by simp⟩

theorem Tracks.roll (h : Tracks width n log bucket values) (shift : ℕ) :
    Tracks width n log (bucket + shift) (rollBuckets n shift 0 values) := by
  constructor
  · rw [rollBuckets_eq, slots_age h.past, h.slots]
  · intro c hc
    exact (h.past c hc).trans (Nat.le_add_right _ _)

theorem Tracks.charge (h : Tracks width (n + 1) log (now / width) values) (x : M) :
    Tracks width (n + 1) (log ++ [(now, x)]) (now / width)
      (values.set 0 (values.getD 0 0 + x)) := by
  constructor
  · rw [slots_charge, h.slots]
  · intro c hc
    rcases List.mem_append.1 hc with hc | hc
    · exact h.past c hc
    · rw [List.mem_singleton] at hc
      rw [hc]

theorem Tracks.sum (h : Tracks width n log bucket values) :
    values.sum = recent width n log bucket := by
  rw [h.slots, sum_slots]

/-- A charge is recent when it is made. -/
theorem recent_charge {x : M} :
    recent width (n + 1) (log ++ [(now, x)]) (now / width)
      = recent width (n + 1) log (now / width) + x := by
  unfold recent
  rw [charged_append, charged_cons, charged_nil, add_zero, if_pos (by simp)]

end Tracks

end WalletContract
end Astroid
