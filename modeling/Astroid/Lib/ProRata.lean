import Mathlib

/-!
# Pro-rata instalments

A pot holds an amount of each of several assets and is denominated in abstract
units.  It is paid out in instalments of units, and an instalment of `u` units
pays the *floor* of its share of each asset.  Three questions about such a pot
have general answers:

* **Never too much.**  However the instalments are cut, what they pay of an
  asset never exceeds the share their sum is worth (`sum_share_le`), so a pot
  never pays more of an asset than it holds (`Pot.paid_le_holding`) and can
  always afford its next instalment (`Pot.share_le_left`).
* **Exactly enough.**  A pot whose units are all spent has paid the whole of an
  asset exactly when no instalment was rounded (`Pot.paid_eq_holding_iff`).
* **The last instalment rounds nothing** if no earlier one did
  (`Pot.dvd_left`).
-/

namespace ProRata

/-- The share of `part` that `units` out of `total` units are worth, rounded down. -/
def share (part total units : ℤ) : ℤ := part * units / total

section Share

variable {part total : ℤ}

@[simp] theorem share_zero : share part total 0 = 0 := by simp [share]

theorem share_nonneg {units : ℤ} (hp : 0 ≤ part) (ht : 0 < total) (hu : 0 ≤ units) :
    0 ≤ share part total units :=
  Int.ediv_nonneg (mul_nonneg hp hu) ht.le

@[simp] theorem share_total (ht : 0 < total) : share part total total = part :=
  Int.mul_ediv_cancel _ ht.ne'

/-- One asset that makes up the whole pot is never rounded. -/
@[simp] theorem share_whole {units : ℤ} (ht : 0 < total) : share total total units = units :=
  Int.mul_ediv_cancel_left _ ht.ne'

theorem share_mono {u v : ℤ} (hp : 0 ≤ part) (ht : 0 < total) (huv : u ≤ v) :
    share part total u ≤ share part total v :=
  Int.ediv_le_ediv ht (mul_le_mul_of_nonneg_left huv hp)

theorem share_mul_le {units : ℤ} (ht : 0 < total) : share part total units * total ≤ part * units :=
  Int.ediv_mul_le _ ht.ne'

/-- A share is not rounded exactly when the total divides it. -/
theorem share_mul_eq_iff {units : ℤ} :
    share part total units * total = part * units ↔ total ∣ part * units := by
  constructor
  · intro h
    exact ⟨share part total units, by rw [← h, mul_comm]⟩
  · exact Int.ediv_mul_cancel

/-- Rounding two instalments separately never pays more than rounding once. -/
theorem share_add_le {u v : ℤ} (ht : 0 < total) :
    share part total u + share part total v ≤ share part total (u + v) := by
  refine (Int.le_ediv_iff_mul_le ht).2 ?_
  have hu : share part total u * total ≤ part * u := share_mul_le ht
  have hv : share part total v * total ≤ part * v := share_mul_le ht
  linarith

theorem sum_share_le (ht : 0 < total) (us : List ℤ) :
    (us.map (share part total)).sum ≤ share part total us.sum := by
  induction us with
  | nil => simp
  | cons u us ih =>
      have h : share part total u + share part total us.sum ≤ share part total (u + us.sum) :=
        share_add_le ht
      simp only [List.map_cons, List.sum_cons]
      linarith

/-- Summed over the instalments, the unrounded shares are what the sum of the
instalments is worth; each instalment falls short by its own rounding. -/
theorem sum_share_mul_le (ht : 0 < total) (us : List ℤ) :
    (us.map (share part total)).sum * total ≤ part * us.sum := by
  have h : (us.map (share part total)).sum ≤ share part total us.sum := sum_share_le ht us
  calc (us.map (share part total)).sum * total
      ≤ share part total us.sum * total := mul_le_mul_of_nonneg_right h ht.le
    _ ≤ part * us.sum := share_mul_le ht

/-- **No rounding in the sum means no rounding anywhere.** -/
theorem sum_share_mul_eq_iff (ht : 0 < total) (us : List ℤ) :
    (us.map (share part total)).sum * total = part * us.sum ↔ ∀ u ∈ us, total ∣ part * u := by
  induction us with
  | nil => simp
  | cons u us ih =>
      have hu : share part total u * total ≤ part * u := share_mul_le ht
      have hus : (us.map (share part total)).sum * total ≤ part * us.sum :=
        sum_share_mul_le ht us
      have hexact : share part total u * total = part * u ↔ total ∣ part * u := share_mul_eq_iff
      simp only [List.map_cons, List.sum_cons, List.forall_mem_cons, add_mul, mul_add]
      rw [← ih, ← hexact]
      constructor
      · intro h
        constructor <;> linarith
      · rintro ⟨h₁, h₂⟩
        rw [h₁, h₂]

end Share

/-- A pot of assets paid out in instalments: what it was filled with, how many
units it is worth, and the instalments paid so far.  The fields say that no
more units were paid than the pot has. -/
structure Pot (α : Type) where
  holding : α → ℤ
  total : ℤ
  instalments : List ℤ
  holding_nonneg : ∀ a, 0 ≤ holding a
  total_pos : 0 < total
  within : instalments.sum ≤ total

namespace Pot

variable {α : Type} (p : Pot α)

/-- What the instalments have paid of an asset. -/
def paid (a : α) : ℤ := (p.instalments.map (share (p.holding a) p.total)).sum

/-- The units not paid yet. -/
def left : ℤ := p.total - p.instalments.sum

/-- A pot is settled once every unit has been paid. -/
def Settled : Prop := p.instalments.sum = p.total

/-- The next instalment is covered by what is still held of every asset. -/
theorem share_le_left (a : α) {units : ℤ} (h : units ≤ p.left) :
    share (p.holding a) p.total units ≤ p.holding a - p.paid a := by
  have hsum : ((p.instalments ++ [units]).map (share (p.holding a) p.total)).sum ≤
      share (p.holding a) p.total (p.instalments ++ [units]).sum := sum_share_le p.total_pos _
  have hle : (p.instalments ++ [units]).sum ≤ p.total := by
    simp only [List.sum_append, List.sum_singleton]
    unfold left at h
    linarith
  have hmono := share_mono (p.holding_nonneg a) p.total_pos hle
  rw [share_total p.total_pos] at hmono
  simp only [List.map_append, List.map_cons, List.map_nil, List.sum_append,
    List.sum_singleton] at hsum
  have hpaid : p.paid a = (p.instalments.map (share (p.holding a) p.total)).sum := rfl
  simp only [List.sum_append, List.sum_singleton] at hmono
  linarith

/-- **A pot never pays more of an asset than it holds.** -/
theorem paid_le_holding (a : α) : p.paid a ≤ p.holding a := by
  have hleft : (0 : ℤ) ≤ p.left := by
    unfold left
    linarith [p.within]
  have h := p.share_le_left a hleft
  simp only [share_zero] at h
  linarith

/-- **A settled pot is empty exactly when no instalment was rounded.** -/
theorem paid_eq_holding_iff (hs : p.Settled) (a : α) :
    p.paid a = p.holding a ↔ ∀ u ∈ p.instalments, p.total ∣ p.holding a * u := by
  rw [← sum_share_mul_eq_iff p.total_pos, hs]
  exact ⟨fun h => congrArg (· * p.total) h, fun h => mul_right_cancel₀ p.total_pos.ne' h⟩

/-- The remainder is not rounded if no instalment before it was. -/
theorem dvd_left {a : α} (h : ∀ u ∈ p.instalments, p.total ∣ p.holding a * u) :
    p.total ∣ p.holding a * p.left := by
  have hsum := (sum_share_mul_eq_iff p.total_pos p.instalments).2 h
  refine ⟨p.holding a - p.paid a, ?_⟩
  have hpaid : p.paid a * p.total = p.holding a * p.instalments.sum := hsum
  unfold left
  rw [mul_sub, mul_sub, ← hpaid]
  ring

end Pot

end ProRata
