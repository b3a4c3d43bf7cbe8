import Astroid.Escrow.Accounting

/-!
# The vesting ceiling

What the recipient of a scheduled escrow has received, in escrow units, stays
below the vesting curve as long as the arbiter and the override signers release
it only from its end time on (`paid_within_vesting`).  `withdraw` and `claim`
keep below the curve by themselves.

`release` and `override_release` do not: a cliff schedule is gated on its cliff
time alone, which may lie before its end, and a linear one compares the
outstanding balance with what has vested without counting what was already
withdrawn.
-/

namespace Astroid
namespace EscrowContract

open Tally

variable {World : Type} {H : EscrowHost World} {s : State World}

/-- From time `t` on, what the recipient of escrow `id` has received is at most
what its schedule has vested. -/
def WithinVesting (s : State World) (t id : ℕ) : Prop :=
  ∀ e, s.escrow id = some e → e.schedule.releaseType ≠ .none →
    ∀ now : UInt64, t ≤ now.toNat → ∀ vested,
      calculateVestedAmount e.fundedAmount e.schedule now = .ok vested →
      (s.account id).unitsTo e.recipient ≤ vested

/-- A release of escrow `id`, if it is scheduled, comes at or after its end. -/
def ReleasesMatured (id : ℕ) (now : UInt64) (s : State World) (call : Call) : Prop :=
  call.Settles id → ∀ e, s.escrow id = some e → e.schedule.releaseType ≠ .none →
    e.schedule.endTime ≤ now

/-- The runs in which escrow `id` is released only once its schedule has ended. -/
def maturedReleases (id : ℕ) : Inputs H → State World → Prop
  | .invoke env call, s => ReleasesMatured id env.timestamp s call
  | .outside _ _, _ => True

/-- The recipient of the account has received at most what had vested by `t`. -/
def Account.Within (t : ℕ) (a : Account) : Prop :=
  ∀ e, a.record = some e → e.schedule.releaseType ≠ .none →
    a.unitsTo e.recipient ≤ vestedUnits e.fundedAmount e.schedule t

/-- A release at or after the end of the schedule finds everything vested. -/
theorem Unlocked.vested {e : Escrow} {now : UInt64} (h : Unlocked e now)
    (htype : e.schedule.releaseType ≠ .none) (hend : e.schedule.endTime ≤ now) :
    vestedUnits e.fundedAmount e.schedule now.toNat = e.fundedAmount := by
  rw [UInt64.le_iff_toNat_le] at hend
  unfold Unlocked at h
  cases hcase : e.schedule.releaseType with
  | none => exact absurd hcase htype
  | cliff => simp only [vestedUnits, hcase, if_pos hend]
  | linear =>
      simp only [hcase] at h
      obtain ⟨hcliff, vested, hvested, _⟩ := h
      have hstart := calculateVestedAmount_start hcase hvested
      rw [UInt64.le_iff_toNat_le] at hcliff hstart
      have hstarted : ¬ (now.toNat < e.schedule.cliffTime.toNat ∨
          now.toNat < e.schedule.startTime.toNat) := by omega
      simp only [vestedUnits, hcase, if_neg hstarted, if_pos hend]

section Steps

variable {current : Address} {now : UInt64} {call : Call} {id : ℕ} {a a' : Account}
  {e e' : Escrow}

theorem Account.Sound.fundedAmount_nonneg (h : a.Sound current) (he : a.record = some e) :
    0 ≤ e.fundedAmount := by
  obtain ⟨hwf, hun | hfunded⟩ := h.books he
  · exact hun.fundedAmount.ge
  · exact (hfunded.fundedAmount_pos hwf).le

/-- Time only lets more vest. -/
theorem Account.Within.later {t t' : ℕ} (hsound : a.Sound current) (ht : t ≤ t')
    (h : a.Within t) : a.Within t' := by
  intro e he htype
  have hmono : vestedUnits e.fundedAmount e.schedule t ≤ vestedUnits e.fundedAmount e.schedule t' :=
    vestedUnits_mono (hsound.fundedAmount_nonneg he) ht
  exact (h e he htype).trans hmono

/-- The recipient has received no more than was paid out in all. -/
theorem Account.Funded.unitsTo_le (h : a.Funded e) (payee : Address) :
    a.unitsTo payee ≤ a.spent :=
  tally_le_sum fun p hp => (h.payout p hp).1

/-- Restating the record on the same terms pays nothing. -/
theorem Account.Within.restate {t : ℕ} (h : a.Within t) (he : a.record = some e)
    (hrecord : a'.record = some e') (hterms : SameTerms e e') (hpay : a'.payouts = a.payouts) :
    a'.Within t := by
  intro e₁ he₁ htype
  rw [hrecord] at he₁
  cases he₁
  rw [hterms.schedule] at htype ⊢
  rw [hterms.recipient, hterms.fundedAmount]
  unfold Account.unitsTo
  rw [hpay]
  exact h e he htype

/-- What one more payout adds to what the recipient has received. -/
theorem unitsTo_snoc {payee party : Address} {units : ℤ}
    (hpay : a'.payouts = a.payouts ++ [⟨id, payee, units⟩]) :
    a'.unitsTo party = a.unitsTo party + if payee = party then units else 0 := by
  unfold Account.unitsTo
  rw [hpay, tally_append, tally_cons, tally_nil, add_zero]

/-- **An allowed step stays below the curve.** -/
theorem Account.Step.within {World : Type} {s : State World}
    (hstep : Account.Step current now call id (s.account id) a')
    (hsound : (s.account id).Sound current) (hwithin : (s.account id).Within now.toNat)
    (hmatured : ReleasesMatured id now s call) : a'.Within now.toNat := by
  have hsound' := hstep.sound hsound
  -- an account that has paid nothing is below any curve
  have hnothing : ∀ a' : Account, a'.Sound current → a'.payouts = [] → a'.Within now.toNat := by
    intro a' ha' hpay e he _
    have hzero : a'.unitsTo e.recipient = 0 := by
      unfold Account.unitsTo
      rw [hpay]
      rfl
    rw [hzero]
    exact vestedUnits_nonneg (ha'.fundedAmount_nonneg he)
  generalize hacc : s.account id = acc at hstep hsound hwithin
  cases hstep with
  | opened => exact hnothing _ hsound' rfl
  | phased => exact hnothing _ hsound' rfl
  | recorded => exact hnothing _ hsound' rfl
  | funded he hstate =>
      have hun := (hsound.books he).2.resolve_right fun hf => hf.notCreated hstate
      exact hnothing _ hsound' (hun.payouts hstate)
  | @paid _ e e' payee units legs he hms hreason hpaid hsends =>
      have hterms : SameTerms e e' := by
        cases hpaid <;> exact ⟨rfl, rfl, rfl, rfl, rfl⟩
      intro e₁ he₁ htype
      obtain rfl : e' = e₁ := Option.some.inj he₁
      rw [hterms.schedule] at htype ⊢
      rw [unitsTo_snoc rfl, hterms.recipient, hterms.fundedAmount]
      obtain ⟨hwf, hun | hfunded⟩ := hsound.books he
      · -- a record that was never funded pays no units
        have hzero := (hun.paid hreason hpaid hsends).units units (by simp [Account.units])
        rw [hzero, ite_self, add_zero]
        exact hwithin e he htype
      · have hpos := hfunded.fundedAmount_pos hwf
        have hle := hfunded.unitsTo_le e.recipient
        have hspent : e.state.IsOpen → acc.spent = e.releasedAmount := by
          intro hopen
          rw [hfunded.spent_open hopen]
          simp only [Account.released, hms]
        cases hreason with
        | instalment hs _ _ _ hvested =>
            obtain ⟨vested, hcalc, hbound⟩ := hvested
            rw [if_pos rfl, ← calculateVestedAmount_eq hpos.le hcalc]
            have hrel := hspent (.inl hs)
            linarith
        | claimRest hs =>
            have hunscheduled := (hs.resolve_right hfunded.notCreated).2
            exact absurd hunscheduled htype
        | settle hs hcall hunlocked =>
            have he' : s.escrow id = some e := (congrArg Account.record hacc).trans he
            rw [if_pos rfl, hunlocked.vested htype (hmatured hcall e he' htype)]
            have hrel := hspent (.inl hs)
            linarith
        | giveBack =>
            rw [if_neg hwf.recipient_ne.symm, add_zero]
            exact hwithin e he htype
  | expired he => exact hwithin.restate he rfl ⟨rfl, rfl, rfl, rfl, rfl⟩ rfl
  | closed he => exact hwithin.restate he rfl ⟨rfl, rfl, rfl, rfl, rfl⟩ rfl
  | @approved _ e set _ _ _ he hset _ hstate =>
      -- a milestone escrow has no schedule
      intro e₁ he₁ htype
      have hfunded := (hsound.books he).2.resolve_left fun hun => hun.notOpen (.inl hstate)
      have hnone := (hfunded.phased set hset).2
      obtain rfl := Option.some.inj he₁
      split at htype <;> exact absurd hnone htype
  | marked he => exact hwithin.restate he he ⟨rfl, rfl, rfl, rfl, rfl⟩ rfl
  | @cancelled _ e set _ _ he hset _ hstate =>
      intro e₁ he₁ htype
      have hfunded := (hsound.books he).2.resolve_left fun hun => hun.notOpen hstate
      obtain rfl := Option.some.inj he₁
      exact absurd (hfunded.phased set hset).2 htype

end Steps

/-- 100 units vest linearly from 10 to 110.  The recipient withdraws 50 at half
time, and the arbiter releases at `releaseTime`. -/
def halfThenRelease (releaseTime : UInt64) : Script Call :=
  opening [7] ++
    [(signedBy 5 [1], .createScheduled (.account 1) (.account 2) (.account 3)
        [⟨.contract 7, 100⟩] ⟨.linear, 10, 10, 110⟩ 200),
      (signedBy 60 [2], .withdraw (.account 2) 1 50),
      (signedBy releaseTime [3], .release (.account 3) 1 50)]

end EscrowContract
end Astroid
