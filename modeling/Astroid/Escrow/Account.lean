import Astroid.Escrow.Effects
import Astroid.Lib.Tally

/-!
# One escrow as an account

Everything the contract stores and logs about one escrow is its `Account`, and
`Account.Step` is what can happen to an account: it is opened, funded, paid out
of, marked.  This is the abstract machine of a single escrow; no token contract
and no other escrow appears in it.
-/

namespace Astroid
namespace EscrowContract

/-- What storage and log say of one escrow. -/
structure Account where
  record : Option Escrow
  milestones : Option MilestoneSet
  inflows : List Leg
  outflows : List Leg
  payouts : List Payout

/-- The account of an id nothing was ever stored or logged under. -/
def Account.blank : Account := ⟨none, none, [], [], []⟩

/-- The transfers `sendShares` makes: one for each asset whose share is positive. -/
def shareLegs (id : ℕ) (payee : Address) (fundedAmount units : ℤ) (assets : List AssetAmount) :
    List Leg :=
  (assets.map fun a => (⟨id, a.asset, payee, (a.amount * units).tdiv fundedAmount⟩ : Leg)).filter
    (0 < ·.amount)

theorem shareLegs_mem {id : ℕ} {payee : Address} {fundedAmount units : ℤ}
    {assets : List AssetAmount} {l : Leg} (h : l ∈ shareLegs id payee fundedAmount units assets) :
    l.escrow = id ∧ l.party = payee ∧ 0 < l.amount := by
  unfold shareLegs at h
  rw [List.mem_filter] at h
  obtain ⟨a, _, rfl⟩ := List.mem_map.1 h.1
  exact ⟨rfl, rfl, of_decide_eq_true h.2⟩

/-! ## The steps of an account -/

/-- The records the creation paths admit. -/
structure WellFormed (current : Address) (e : Escrow) : Prop where
  sender_ne : e.sender ≠ current
  recipient_ne : e.recipient ≠ e.sender
  nonempty : e.assets ≠ []
  amount_pos : ∀ a ∈ e.assets, 0 < a.amount
  nodup : (e.assets.map (·.asset)).Nodup

/-- The two entrypoints that pay the whole rest to the recipient. -/
def Call.Settles (id : ℕ) : Call → Prop
  | .release _ id' _ => id' = id
  | .overrideRelease id' _ _ => id' = id
  | _ => False

/-- Why an escrow pays, to whom and how much.  `now` and `call` are the time and
the entrypoint. -/
inductive Reason (now : UInt64) (call : Call) (id : ℕ) (e : Escrow) : Address → ℤ → Prop
  /-- The recipient takes part of what has vested. -/
  | instalment {units : ℤ} : e.state = .funded → 0 < units → e.schedule.releaseType ≠ .none →
      (call = .withdraw e.recipient id units ∨
        call = .claim e.recipient id ∧ calculateClaimableAmount e now = .ok units) →
      (∃ vested, calculateVestedAmount e.fundedAmount e.schedule now = .ok vested ∧
        e.releasedAmount + units ≤ vested) →
      Reason now call id e e.recipient units
  /-- The recipient claims an unscheduled escrow, or a record never funded. -/
  | claimRest : e.state = .funded ∧ e.schedule.releaseType = .none ∨ e.state = .created →
      Reason now call id e e.recipient (e.fundedAmount - e.releasedAmount)
  /-- The arbiter or the override signers release the rest. -/
  | settle : e.state = .funded → call.Settles id → Unlocked e now →
      Reason now call id e e.recipient (e.fundedAmount - e.releasedAmount)
  /-- The rest goes back to the sender. -/
  | giveBack : e.state = .funded ∨ e.state = .expired ∨ e.state = .created →
      Reason now call id e e.sender (e.fundedAmount - e.releasedAmount)

/-- The record after a payout of `units`: an instalment that leaves something
keeps it open, everything else is final. -/
inductive Paid (e : Escrow) (units : ℤ) : Escrow → Prop
  | ongoing : e.releasedAmount + units ≠ e.fundedAmount →
      Paid e units { e with releasedAmount := e.releasedAmount + units }
  | final {state : EscrowState} {releasedAmount : ℤ} {overrideNonce : UInt64} :
      e.releasedAmount + units = e.fundedAmount → state = .released ∨ state = .refunded →
      Paid e units { e with state, releasedAmount, overrideNonce }

/-- The transfers of a payout; nothing is sent for a remainder of nothing. -/
def Sends (id : ℕ) (e : Escrow) (payee : Address) (units : ℤ) (legs : List Leg) : Prop :=
  legs = shareLegs id payee e.fundedAmount units e.assets ∨ units ≤ 0 ∧ legs = []

/-- What can happen to the account of escrow `id` in one call. -/
inductive Account.Step (current : Address) (now : UInt64) (call : Call) (id : ℕ) :
    Account → Account → Prop
  /-- Created and funded in one call. -/
  | opened {e : Escrow} : WellFormed current e → e.state = .funded →
      e.fundedAmount = totalAmount e.assets → e.fundedAmount ≤ i128Max → e.releasedAmount = 0 →
      Step current now call id .blank
        ⟨some e, none, depositLegs id e.sender e.assets, [], []⟩
  /-- Created and funded with a milestone schedule. -/
  | phased {e : Escrow} {asset : AssetAmount} {set : MilestoneSet} : WellFormed current e →
      e.state = .funded → e.assets = [asset] → e.fundedAmount = asset.amount →
      e.releasedAmount = 0 → e.schedule.releaseType = .none →
      (∀ m ∈ set.milestones, m.status = .pending) → set.releasedAmount = 0 →
      (set.milestones.map fun m => (m.releaseBps : ℤ)).sum = 10000 → set.cancelled = false →
      Step current now call id .blank
        ⟨some e, some set, depositLegs id e.sender e.assets, [], []⟩
  /-- Created without funds. -/
  | recorded {e : Escrow} : WellFormed current e → e.state = .created → e.fundedAmount = 0 →
      e.releasedAmount = 0 →
      Step current now call id .blank ⟨some e, none, [], [], []⟩
  | funded {a : Account} {e : Escrow} : a.record = some e → e.state = .created →
      totalAmount e.assets ≤ i128Max →
      Step current now call id a { a with
        record := some { e with fundedAmount := totalAmount e.assets, state := .funded }
        inflows := a.inflows ++ depositLegs id e.sender e.assets }
  | paid {a : Account} {e e' : Escrow} {payee : Address} {units : ℤ} {legs : List Leg} :
      a.record = some e → a.milestones = none → Reason now call id e payee units →
      Paid e units e' → Sends id e payee units legs →
      Step current now call id a { a with
        record := some e'
        outflows := a.outflows ++ legs
        payouts := a.payouts ++ [⟨id, payee, units⟩] }
  | expired {a : Account} {e : Escrow} : a.record = some e → e.state = .funded →
      Step current now call id a { a with record := some { e with state := .expired } }
  | closed {a : Account} {e : Escrow} : a.record = some e →
      e.state = .released ∨ e.state = .refunded →
      Step current now call id a { a with record := some { e with state := .closed } }
  /-- A milestone was approved and paid. -/
  | approved {a : Account} {e : Escrow} {set : MilestoneSet} {i : ℕ} {m : Milestone}
      {primary : AssetAmount} : a.record = some e → a.milestones = some set →
      set.cancelled = false → e.state = .funded → set.milestones[i]? = some m →
      m.status = .pending → e.assets.head? = some primary →
      Step current now call id a
        ⟨some (if (set.milestones.set i { m with status := .completed }).all
            (·.status = .completed) then
          { e with
            releasedAmount := set.releasedAmount + milestonePayout e set m
            state := .released } else e),
        some { set with
          milestones := set.milestones.set i { m with status := .completed }
          releasedAmount := set.releasedAmount + milestonePayout e set m },
        a.inflows, a.outflows ++ [⟨id, primary.asset, e.recipient, milestonePayout e set m⟩],
        a.payouts ++ [⟨id, e.recipient, milestonePayout e set m⟩]⟩
  /-- A milestone was disputed or resolved. -/
  | marked {a : Account} {e : Escrow} {set : MilestoneSet} {i : ℕ} {m : Milestone}
      {status : MilestoneStatus} : a.record = some e → e.state = .funded →
      a.milestones = some set → set.cancelled = false → set.milestones[i]? = some m →
      m.status ≠ .completed → status ≠ .completed →
      Step current now call id a { a with
        milestones := some { set with milestones := set.milestones.set i { m with status } } }
  /-- The outstanding milestones were cancelled and the rest returned. -/
  | cancelled {a : Account} {e : Escrow} {set : MilestoneSet} {milestones : List Milestone}
      {legs : List Leg} : a.record = some e → a.milestones = some set → set.cancelled = false →
      e.state = .funded ∨ e.state = .expired →
      Sends id e e.sender (e.fundedAmount - set.releasedAmount) legs →
      Step current now call id a
        ⟨some { e with state := .refunded }, some { set with milestones, cancelled := true },
          a.inflows, a.outflows ++ legs,
          a.payouts ++ [⟨id, e.sender, e.fundedAmount - set.releasedAmount⟩]⟩

end EscrowContract
end Astroid
