import Astroid.Escrow.Account
import Astroid.Lib.ProRata

/-!
# The books of an escrow

An account is sound when its log adds up: a record that was never funded moved
nothing, a funded one pulled in exactly what it lists and paid out the floored
share of every instalment, spent no more units than it has, and has spent all
of them once it is final (`Account.Sound`).  A funded account is a pot in the
sense of the pro-rata library (`Account.Funded.pot`), which is why a sound
account never pays out more than was deposited for it.
-/

namespace Astroid
namespace EscrowContract

open Tally ProRata

/-! ## What an account says -/

/-- How much of `asset` an asset list holds. -/
def amountOf (assets : List AssetAmount) (asset : Address) : ℤ :=
  tally (·.amount) (·.asset = asset) assets

namespace Account

variable (a : Account)

/-- The instalments paid so far, in escrow units. -/
def units : List ℤ := a.payouts.map (·.units)

def spent : ℤ := a.units.sum

/-- The tokens of `asset` pulled in for this escrow. -/
def deposited (asset : Address) : ℤ := tally (·.amount) (·.asset = asset) a.inflows

/-- The tokens of `asset` paid out for this escrow. -/
def paidOut (asset : Address) : ℤ := tally (·.amount) (·.asset = asset) a.outflows

/-- The tokens of `asset` paid out for this escrow to `party`. -/
def paidTo (party asset : Address) : ℤ :=
  tally (·.amount) (fun l => l.asset = asset ∧ l.party = party) a.outflows

/-- The escrow units paid to `party`. -/
def unitsTo (party : Address) : ℤ := tally (·.units) (·.payee = party) a.payouts

/-- The released counter in force: the milestone set's, where there is one. -/
def released (e : Escrow) : ℤ :=
  match a.milestones with
  | none => e.releasedAmount
  | some set => set.releasedAmount

end Account

/-- The states in which the contract still holds the escrow's tokens. -/
def EscrowState.IsOpen (state : EscrowState) : Prop := state = .funded ∨ state = .expired

instance (state : EscrowState) : Decidable state.IsOpen := inferInstanceAs (Decidable (_ ∨ _))

/-- The weights of the milestones completed so far, in basis points. -/
def completedBps (milestones : List Milestone) : ℤ :=
  tally (fun m => (m.releaseBps : ℤ)) (·.status = .completed) milestones

/-- A milestone set whose payouts stay within the weights completed. -/
structure Progress (fundedAmount : ℤ) (set : MilestoneSet) : Prop where
  live : set.cancelled = false
  weights : (set.milestones.map fun m => (m.releaseBps : ℤ)).sum = 10000
  released_le : set.releasedAmount * 10000 ≤ fundedAmount * completedBps set.milestones

/-- A record no token was ever pulled in for. -/
structure Account.Unfunded (a : Account) (e : Escrow) : Prop where
  fundedAmount : e.fundedAmount = 0
  releasedAmount : e.state = .created → e.releasedAmount = 0
  notOpen : ¬ e.state.IsOpen
  milestones : a.milestones = none
  inflows : a.inflows = []
  outflows : a.outflows = []
  payouts : e.state = .created → a.payouts = []
  units : ∀ u ∈ a.units, u = 0

/-- A record whose tokens were pulled in. -/
structure Account.Funded (a : Account) (e : Escrow) : Prop where
  fundedAmount : e.fundedAmount = totalAmount e.assets
  range : a.milestones = none → e.fundedAmount ≤ i128Max
  notCreated : e.state ≠ .created
  deposited : ∀ asset, a.deposited asset = amountOf e.assets asset
  paidOut : ∀ asset,
    a.paidOut asset = (a.units.map (share (amountOf e.assets asset) e.fundedAmount)).sum
  outflow : ∀ l ∈ a.outflows, 0 ≤ l.amount ∧ (l.party = e.recipient ∨ l.party = e.sender)
  payout : ∀ p ∈ a.payouts, 0 ≤ p.units ∧ (p.payee = e.recipient ∨ p.payee = e.sender)
  spent_le : a.spent ≤ e.fundedAmount
  spent_open : e.state.IsOpen → a.spent = a.released e
  spent_final : ¬ e.state.IsOpen → a.spent = e.fundedAmount
  phased : ∀ set, a.milestones = some set →
    (∃ asset, e.assets = [asset]) ∧ e.schedule.releaseType = .none
  progress : ∀ set, a.milestones = some set → e.state.IsOpen → Progress e.fundedAmount set

/-- An account whose log adds up. -/
def Account.Sound (current : Address) (a : Account) : Prop :=
  a = .blank ∨ ∃ e, a.record = some e ∧ WellFormed current e ∧ (a.Unfunded e ∨ a.Funded e)

/-- The record of a sound account is well formed and its books add up. -/
theorem Account.Sound.books {current : Address} {a : Account} {e : Escrow} (h : a.Sound current)
    (he : a.record = some e) : WellFormed current e ∧ (a.Unfunded e ∨ a.Funded e) := by
  rcases h with rfl | ⟨e', he', hbooks⟩
  · cases he
  · rw [he] at he'
    cases he'
    exact hbooks

/-! ## Amounts of an asset list -/

section Amounts

variable {current : Address} {e : Escrow} {assets : List AssetAmount} {asset : Address} {id : ℕ}

theorem amountOf_nonneg (h : ∀ a ∈ assets, 0 < a.amount) : 0 ≤ amountOf assets asset :=
  tally_nonneg fun a ha _ => (h a ha).le

theorem totalAmount_pos (hne : assets ≠ []) (h : ∀ a ∈ assets, 0 < a.amount) :
    0 < totalAmount assets := by
  unfold totalAmount
  refine List.sum_pos _ ?_ (by simpa using hne)
  intro x hx
  obtain ⟨a, ha, rfl⟩ := List.mem_map.1 hx
  exact h a ha

theorem tally_depositLegs {src : Address} :
    tally (·.amount) (·.asset = asset) (depositLegs id src assets) = amountOf assets asset := by
  unfold depositLegs amountOf
  induction assets with
  | nil => rfl
  | cons a rest ih =>
      rw [List.map_cons, tally_cons, tally_cons, ih]

theorem amountOf_absent (h : ∀ a ∈ assets, a.asset ≠ asset) : amountOf assets asset = 0 :=
  tally_eq_zero h

/-- The transfers of a payout move the floored share of each asset. -/
theorem tally_shareLegs {payee : Address} {fundedAmount units : ℤ}
    (hpos : ∀ a ∈ assets, 0 < a.amount) (hnodup : (assets.map (·.asset)).Nodup)
    (hf : 0 < fundedAmount) (hu : 0 ≤ units) :
    tally (·.amount) (·.asset = asset) (shareLegs id payee fundedAmount units assets)
      = share (amountOf assets asset) fundedAmount units := by
  induction assets with
  | nil => simp [shareLegs, amountOf, share]
  | cons a rest ih =>
      rw [List.forall_mem_cons] at hpos
      rw [List.map_cons, List.nodup_cons] at hnodup
      have hrest := ih hpos.2 hnodup.2
      have hshare : (a.amount * units).tdiv fundedAmount = share a.amount fundedAmount units :=
        Int.tdiv_eq_ediv_of_nonneg (mul_nonneg hpos.1.le hu)
      have hnonneg : 0 ≤ share a.amount fundedAmount units := share_nonneg hpos.1.le hf hu
      -- a share that rounds to nothing is skipped, and adds nothing
      have hcons : tally (·.amount) (·.asset = asset)
          (shareLegs id payee fundedAmount units (a :: rest))
          = (if a.asset = asset then share a.amount fundedAmount units else 0)
            + share (amountOf rest asset) fundedAmount units := by
        by_cases hzero : 0 < share a.amount fundedAmount units
        · rw [← hrest]
          simp [shareLegs, hshare, hzero]
        · have heq : share a.amount fundedAmount units = 0 := by omega
          rw [← hrest]
          simp [shareLegs, hshare, heq]
      rw [hcons]
      by_cases hasset : a.asset = asset
      · have habsent : amountOf rest asset = 0 := by
          refine amountOf_absent ?_
          intro b hb hba
          exact hnodup.1 (List.mem_map.2 ⟨b, hb, hba.trans hasset.symm⟩)
        have hself : amountOf (a :: rest) asset = a.amount := by
          unfold amountOf at habsent ⊢
          rw [tally_cons, if_pos hasset, habsent, add_zero]
        rw [if_pos hasset, habsent, hself]
        simp [share]
      · have hother : amountOf (a :: rest) asset = amountOf rest asset := by
          unfold amountOf
          rw [tally_cons, if_neg hasset, zero_add]
        rw [if_neg hasset, hother, zero_add]

theorem shareLegs_zero {payee : Address} {fundedAmount : ℤ} :
    shareLegs id payee fundedAmount 0 assets = [] := by
  unfold shareLegs
  rw [List.filter_eq_nil_iff]
  intro l hl
  obtain ⟨a, _, rfl⟩ := List.mem_map.1 hl
  simp

/-- A payout of a non-negative number of units makes the share transfers. -/
theorem Sends.eq {payee : Address} {units : ℤ} {legs : List Leg} (h : Sends id e payee units legs)
    (hu : 0 ≤ units) : legs = shareLegs id payee e.fundedAmount units e.assets := by
  rcases h with h | ⟨hle, rfl⟩
  · exact h
  · rw [le_antisymm hle hu, shareLegs_zero]

end Amounts

/-! ## Milestone weights -/

section Weights

variable {milestones : List Milestone} {i : ℕ} {m : Milestone} {status : MilestoneStatus}

/-- Moving a milestone to another status keeps its weight. -/
theorem weights_set (h : milestones[i]? = some m) :
    ((milestones.set i { m with status }).map fun m => (m.releaseBps : ℤ)).sum
      = (milestones.map fun m => (m.releaseBps : ℤ)).sum := by
  have hset := tally_set (f := fun m : Milestone => (m.releaseBps : ℤ)) (p := fun _ => True)
    (y := { m with status }) h
  simpa [tally] using hset

theorem completedBps_complete (h : milestones[i]? = some m) (hm : m.status ≠ .completed) :
    completedBps (milestones.set i { m with status := .completed })
      = completedBps milestones + m.releaseBps := by
  unfold completedBps
  rw [tally_set h, if_neg hm, if_pos rfl, sub_zero]

theorem completedBps_mark (h : milestones[i]? = some m) (hm : m.status ≠ .completed)
    (hstatus : status ≠ .completed) :
    completedBps (milestones.set i { m with status }) = completedBps milestones := by
  unfold completedBps
  rw [tally_set h, if_neg hm, if_neg hstatus, sub_zero, add_zero]

theorem completedBps_le :
    completedBps milestones ≤ (milestones.map fun m => (m.releaseBps : ℤ)).sum :=
  tally_le_sum fun _ _ => Int.natCast_nonneg _

/-- Completing a milestone finishes the schedule exactly when it was the last one
outstanding. -/
theorem all_completed_iff (h : milestones[i]? = some m) (hm : m.status ≠ .completed) :
    (milestones.set i { m with status := .completed }).all (·.status = .completed) ↔
      milestones.countP (·.status ≠ .completed) = 1 := by
  obtain ⟨hi, hget⟩ := List.getElem?_eq_some_iff.1 h
  have hset := List.countP_set (p := fun x : Milestone => decide (x.status ≠ .completed))
    (a := { m with status := .completed }) hi
  have hpos : 0 < milestones.countP (fun x => decide (x.status ≠ .completed)) :=
    List.countP_pos_iff.2 ⟨m, List.mem_of_getElem? h, by simpa using hm⟩
  simp only [hget, hm, ne_eq, not_false_eq_true, decide_true, if_true, not_true_eq_false,
    decide_false, if_false, add_zero, Bool.false_eq_true] at hset hpos
  have hall : (milestones.set i { m with status := .completed }).all
      (fun x => decide (x.status = .completed)) = true ↔
      (milestones.set i { m with status := .completed }).countP
        (fun x => decide (¬ x.status = .completed)) = 0 := by
    rw [List.all_eq_true, List.countP_eq_zero]
    simp
  rw [hall, hset]
  simp only [ne_eq]
  omega

end Weights

/-! ## A funded account is a pot -/

/-- Two records of the same agreement: what no step after funding changes. -/
structure SameTerms (e e' : Escrow) : Prop where
  sender : e'.sender = e.sender
  recipient : e'.recipient = e.recipient
  assets : e'.assets = e.assets
  fundedAmount : e'.fundedAmount = e.fundedAmount
  schedule : e'.schedule = e.schedule

section Steps

variable {current : Address} {now : UInt64} {call : Call} {id : ℕ} {a a' : Account}
  {e e' : Escrow}

theorem WellFormed.congr (h : WellFormed current e) (hterms : SameTerms e e') :
    WellFormed current e' := by
  constructor
  · rw [hterms.sender]
    exact h.sender_ne
  · rw [hterms.sender, hterms.recipient]
    exact h.recipient_ne
  · rw [hterms.assets]
    exact h.nonempty
  · rw [hterms.assets]
    exact h.amount_pos
  · rw [hterms.assets]
    exact h.nodup

/-- Once funded, the terms of a record stay as they are. -/
theorem Account.Step.terms (hstep : Account.Step current now call id a a') (he : a.record = some e)
    (hstate : e.state ≠ .created) :
    ∃ e', a'.record = some e' ∧ SameTerms e e' ∧ e'.state ≠ .created := by
  cases hstep with
  | opened => cases he
  | phased => cases he
  | recorded => cases he
  | funded he₁ hcreated =>
      cases he.symm.trans he₁
      exact absurd hcreated hstate
  | @paid _ _ e' _ _ _ he₁ _ _ hpaid =>
      cases he.symm.trans he₁
      refine ⟨e', rfl, ?_⟩
      cases hpaid with
      | ongoing => exact ⟨⟨rfl, rfl, rfl, rfl, rfl⟩, hstate⟩
      | final _ hfinal =>
          refine ⟨⟨rfl, rfl, rfl, rfl, rfl⟩, ?_⟩
          rcases hfinal with hs | hs <;> simp [hs]
  | expired he₁ =>
      cases he.symm.trans he₁
      exact ⟨_, rfl, ⟨rfl, rfl, rfl, rfl, rfl⟩, by simp⟩
  | closed he₁ =>
      cases he.symm.trans he₁
      exact ⟨_, rfl, ⟨rfl, rfl, rfl, rfl, rfl⟩, by simp⟩
  | approved he₁ =>
      cases he.symm.trans he₁
      refine ⟨_, rfl, ?_⟩
      split
      · exact ⟨⟨rfl, rfl, rfl, rfl, rfl⟩, by simp⟩
      · exact ⟨⟨rfl, rfl, rfl, rfl, rfl⟩, hstate⟩
  | marked he₁ =>
      cases he.symm.trans he₁
      exact ⟨_, he, ⟨rfl, rfl, rfl, rfl, rfl⟩, hstate⟩
  | cancelled he₁ =>
      cases he.symm.trans he₁
      exact ⟨_, rfl, ⟨rfl, rfl, rfl, rfl, rfl⟩, by simp⟩

/-- An escrow that was opened without milestones gets none. -/
theorem Account.Step.unphased (hstep : Account.Step current now call id a a')
    (he : a.record = some e) (hnone : a.milestones = none) : a'.milestones = none := by
  cases hstep with
  | opened => cases he
  | phased => cases he
  | recorded => cases he
  | funded => exact hnone
  | paid => exact hnone
  | expired => exact hnone
  | closed => exact hnone
  | approved _ hset => cases hnone.symm.trans hset
  | marked _ _ hset => cases hnone.symm.trans hset
  | cancelled _ hset => cases hnone.symm.trans hset

theorem Account.Funded.fundedAmount_pos (h : a.Funded e) (hwf : WellFormed current e) :
    0 < e.fundedAmount := by
  rw [h.fundedAmount]
  exact totalAmount_pos hwf.nonempty hwf.amount_pos

/-- The pot a funded account holds. -/
def Account.Funded.pot (h : a.Funded e) (hwf : WellFormed current e) : Pot Address where
  holding := amountOf e.assets
  total := e.fundedAmount
  instalments := a.units
  holding_nonneg _ := amountOf_nonneg hwf.amount_pos
  total_pos := h.fundedAmount_pos hwf
  within := h.spent_le

theorem Account.Funded.pot_paid (h : a.Funded e) (hwf : WellFormed current e) (asset : Address) :
    (h.pot hwf).paid asset = a.paidOut asset :=
  (h.paidOut asset).symm

/-- **No account pays out more than was deposited for it.** -/
theorem Account.Sound.paidOut_le_deposited (h : a.Sound current) (asset : Address) :
    a.paidOut asset ≤ a.deposited asset := by
  rcases h with rfl | ⟨e, _, hwf, hun | hfunded⟩
  · exact le_rfl
  · unfold Account.paidOut Account.deposited
    rw [hun.inflows, hun.outflows]
  · rw [hfunded.deposited, ← hfunded.pot_paid hwf]
    exact (hfunded.pot hwf).paid_le_holding asset

end Steps

end EscrowContract
end Astroid
