import Astroid.Shared.Rollover

/-!
# Amounts of a batch

The trait `BatchAmount` of `shared/src/math.rs` and its three implementations.  An
implementation is lawful when its operations are those of the integers its values stand for:
a checked operation returns exactly when the exact result can be represented.
-/

namespace Astroid

/-- The trait `BatchAmount`, with what it takes from `SafeAdd`, `SafeMul` and `PartialOrd`. -/
class BatchAmount (T : Type) where
  zero : T
  isNegative : T → Bool
  /-- `>` of `PartialOrd`. -/
  gt : T → T → Bool
  safeAdd : T → T → Result T
  safeMul : T → T → Result T

/-- The operations are those of the integers the values stand for. -/
class LawfulBatchAmount (T : Type) extends BatchAmount T where
  toInt : T → ℤ
  toInt_injective : Function.Injective toInt
  toInt_zero : toInt zero = 0
  isNegative_iff : ∀ a, isNegative a = true ↔ toInt a < 0
  gt_iff : ∀ a b, gt a b = true ↔ toInt b < toInt a
  safeAdd_eq_ok : ∀ a b c, safeAdd a b = .ok c ↔ toInt c = toInt a + toInt b
  safeMul_eq_ok : ∀ a b c, safeMul a b = .ok c ↔ toInt c = toInt a * toInt b
  /-- What lies between zero and a value is a value. -/
  exists_toInt : ∀ a x, 0 ≤ x → x ≤ toInt a → ∃ b, toInt b = x

/-! ## The implementations -/

/-- A result in a subtype of the integers, or an overflow. -/
def orOverflowIn (p : ℤ → Prop) [DecidablePred p] (x : ℤ) : Result {x : ℤ // p x} :=
  if h : p x then .ok ⟨x, h⟩ else .error (.error .overflow)

theorem orOverflowIn_eq_ok {p : ℤ → Prop} [DecidablePred p] {x : ℤ} {c : {x : ℤ // p x}} :
    orOverflowIn p x = .ok c ↔ c.1 = x := by
  unfold orOverflowIn
  split
  · rw [Except.ok.injEq, Subtype.ext_iff, eq_comm]
  · rename_i hout
    constructor
    · intro h
      cases h
    · rintro rfl
      exact absurd c.2 hout

instance : LawfulBatchAmount I128 where
  zero := ⟨0, isI128_zero⟩
  isNegative a := decide (a.1 < 0)
  gt a b := decide (b.1 < a.1)
  safeAdd a b := orOverflowIn IsI128 (a.1 + b.1)
  safeMul a b := orOverflowIn IsI128 (a.1 * b.1)
  toInt := Subtype.val
  toInt_injective := Subtype.val_injective
  toInt_zero := rfl
  isNegative_iff _ := decide_eq_true_iff
  gt_iff _ _ := decide_eq_true_iff
  safeAdd_eq_ok _ _ _ := orOverflowIn_eq_ok
  safeMul_eq_ok _ _ _ := orOverflowIn_eq_ok
  exists_toInt a x h0 hx := ⟨⟨x, isI128_of_le h0 hx a.2⟩, rfl⟩

/-- The values a `u128` can represent. -/
def IsU128 (x : ℤ) : Prop := 0 ≤ x ∧ x < 2 ^ 128

instance (x : ℤ) : Decidable (IsU128 x) := inferInstanceAs (Decidable (_ ∧ _))

/-- An argument of type `u128`. -/
abbrev U128 := {x : ℤ // IsU128 x}

instance : LawfulBatchAmount U128 where
  zero := ⟨0, by decide⟩
  isNegative _ := false
  gt a b := decide (b.1 < a.1)
  safeAdd a b := orOverflowIn IsU128 (a.1 + b.1)
  safeMul a b := orOverflowIn IsU128 (a.1 * b.1)
  toInt := Subtype.val
  toInt_injective := Subtype.val_injective
  toInt_zero := rfl
  isNegative_iff a := iff_of_false Bool.false_ne_true a.2.1.not_gt
  gt_iff _ _ := decide_eq_true_iff
  safeAdd_eq_ok _ _ _ := orOverflowIn_eq_ok
  safeMul_eq_ok _ _ _ := orOverflowIn_eq_ok
  exists_toInt a x h0 hx := ⟨⟨x, h0, hx.trans_lt a.2.2⟩, rfl⟩

/-- `checked_mul_u64`. -/
def checkedMulU64 (a b : UInt64) : Result UInt64 :=
  if a.toNat * b.toNat < 2 ^ 64 then .ok (a * b) else .error (.error .overflow)

/-- An operation that returns where the exact result fits. -/
theorem checkedU64_eq_ok {n : ℕ} {r c : UInt64} (hr : r.toNat = n % 2 ^ 64) :
    (if n < 2 ^ 64 then .ok r else .error (.error .overflow) : Result UInt64) = .ok c
      ↔ c.toNat = n := by
  have hc := c.toNat_lt
  split
  · rename_i hfits
    rw [Nat.mod_eq_of_lt hfits] at hr
    rw [Except.ok.injEq, ← UInt64.toNat_inj, hr, eq_comm]
  · rename_i hover
    constructor
    · intro h
      cases h
    · intro h
      omega

instance : LawfulBatchAmount UInt64 where
  zero := 0
  isNegative _ := false
  gt a b := decide (b < a)
  safeAdd := checkedAddU64
  safeMul := checkedMulU64
  toInt a := a.toNat
  toInt_injective a b h := UInt64.toNat_inj.1 (Int.ofNat_inj.1 h)
  toInt_zero := rfl
  isNegative_iff a := iff_of_false Bool.false_ne_true (Int.natCast_nonneg _).not_gt
  gt_iff a b := by
    rw [decide_eq_true_iff, UInt64.lt_iff_toNat_lt, Int.ofNat_lt]
  safeAdd_eq_ok a b c := by
    unfold checkedAddU64
    rw [checkedU64_eq_ok (UInt64.toNat_add a b)]
    exact_mod_cast Iff.rfl
  safeMul_eq_ok a b c := by
    unfold checkedMulU64
    rw [checkedU64_eq_ok (UInt64.toNat_mul a b)]
    exact_mod_cast Iff.rfl
  exists_toInt a x h0 hx := by
    have ha := a.toNat_lt
    refine ⟨UInt64.ofNat x.toNat, ?_⟩
    rw [UInt64.toNat_ofNat', Nat.mod_eq_of_lt (by omega), Int.toNat_of_nonneg h0]

end Astroid
