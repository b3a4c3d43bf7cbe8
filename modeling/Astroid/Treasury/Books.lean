import Astroid.Treasury.Machine

/-!
# The ledger a treasury keeps

What the accounting is for, apart from who may do what: of each asset, how much
the treasury holds, how much it paid out, how much was ever credited and what
balance it announces.  `Books.credit` and `Books.pay` are the only two things
that ever happen to it, and both keep it `Balanced`.
-/

namespace Astroid
namespace TreasuryContract

/-- The accounting, of every asset. -/
@[ext] structure Books where
  totalIn : Address → ℤ
  totalOut : Address → ℤ
  credited : Address → ℤ
  balance : Address → ℤ

namespace Books

variable (b : Books) (asset : Address) (amount : ℤ)

/-- `amount` of `asset` came in. -/
def credit : Books where
  totalIn := Function.update b.totalIn asset (b.totalIn asset + amount)
  totalOut := b.totalOut
  credited := Function.update b.credited asset (b.credited asset + amount)
  balance := Function.update b.balance asset (b.totalIn asset + amount)

/-- `amount` of `asset` went out. -/
def pay : Books where
  totalIn := Function.update b.totalIn asset (b.totalIn asset - amount)
  totalOut := Function.update b.totalOut asset (b.totalOut asset + amount)
  credited := b.credited
  balance := Function.update b.balance asset (b.totalIn asset - amount)

/-- The announced balance is what is held, and what is held and what was paid out
add up to what was credited. -/
structure Balanced : Prop where
  balance : ∀ a, b.balance a = b.totalIn a
  credited : ∀ a, b.totalIn a + b.totalOut a = b.credited a

/-- What is held is never negative and never more than is there. -/
def Backed (custody : Address → ℤ) : Prop :=
  ∀ a, 0 ≤ b.totalIn a ∧ b.totalIn a ≤ custody a

variable {b asset amount} {custody custody' : Address → ℤ}

theorem Balanced.credit (h : b.Balanced) : (b.credit asset amount).Balanced := by
  constructor <;> intro a <;> by_cases ha : a = asset
  · subst ha
    simp [Books.credit]
  · simp [Books.credit, ha, h.balance a]
  · subst ha
    simp only [Books.credit, Function.update_self]
    have hcredited := h.credited a
    omega
  · simp [Books.credit, ha, h.credited a]

theorem Balanced.pay (h : b.Balanced) : (b.pay asset amount).Balanced := by
  constructor <;> intro a <;> by_cases ha : a = asset
  · subst ha
    simp [Books.pay]
  · simp [Books.pay, ha, h.balance a]
  · subst ha
    simp only [Books.pay, Function.update_self]
    have hcredited := h.credited a
    omega
  · simp [Books.pay, ha, h.credited a]

/-- More custody backs the same books. -/
theorem Backed.mono (h : b.Backed custody) (hle : ∀ a, custody a ≤ custody' a) :
    b.Backed custody' :=
  fun a => ⟨(h a).1, (h a).2.trans (hle a)⟩

/-- A credit that custody received is backed. -/
theorem Backed.credit (h : b.Backed custody) (hamount : 0 ≤ amount)
    (hreceived : custody asset + amount ≤ custody' asset)
    (hle : ∀ a, a ≠ asset → custody a ≤ custody' a) : (b.credit asset amount).Backed custody' := by
  intro a
  have hbacked := h a
  by_cases ha : a = asset
  · subst ha
    simp only [Books.credit, Function.update_self]
    omega
  · simp only [Books.credit, Function.update_of_ne ha]
    exact ⟨hbacked.1, hbacked.2.trans (hle a ha)⟩

/-- A payout of no more than is held, which custody made exactly, is backed. -/
theorem Backed.pay (h : b.Backed custody) (hcovered : amount ≤ b.totalIn asset)
    (hpaid : custody asset - amount ≤ custody' asset)
    (hle : ∀ a, a ≠ asset → custody a ≤ custody' a) : (b.pay asset amount).Backed custody' := by
  intro a
  have hbacked := h a
  by_cases ha : a = asset
  · subst ha
    simp only [Books.pay, Function.update_self]
    omega
  · simp only [Books.pay, Function.update_of_ne ha]
    exact ⟨hbacked.1, hbacked.2.trans (hle a ha)⟩

end Books

/-- The books a state keeps. -/
def State.books {World : Type} (s : State World) : Books where
  totalIn a := (s.loadHolding a).totalIn
  totalOut a := (s.loadHolding a).totalOut
  credited := s.credited
  balance a := (s.assetBalance a).getD 0

theorem Fresh.books {World : Type} {H : TreasuryHost World} {s : State World} (h : Fresh H s) :
    s.books = ⟨fun _ => 0, fun _ => 0, fun _ => 0, fun _ => 0⟩ := by
  have hcredited : s.credited = fun _ => 0 := funext h.credited
  simp [State.books, State.loadHolding, h.holding, h.assetBalance, hcredited]

end TreasuryContract
end Astroid
