import Astroid.Escrow.Accounting

/-!
# What a call does to a milestone escrow

A milestone escrow pays for one milestone after the other, in whatever order the arbiter
approves them, and returns the rest when it is cancelled.  Every other call leaves what it
paid alone (`exec_phase`).
-/

namespace Astroid
namespace EscrowContract

open Outcome

variable {World : Type} {H : EscrowHost World} {env : Env H.self} {s s' : State World} {call : Call}
  {id : ℕ} {e : Escrow} {set : MilestoneSet}

/-! ## What a call does to a milestone escrow -/

/-- The milestones of a cancelled schedule. -/
def MilestoneSet.cancel (set : MilestoneSet) : MilestoneSet :=
  { set with
    milestones := set.milestones.map fun m =>
      if m.status = .pending then { m with status := .disputed } else m
    cancelled := true }

/-- The milestones with one of them in another status. -/
def MilestoneSet.mark (set : MilestoneSet) (i : ℕ) (m : Milestone) (status : MilestoneStatus) :
    MilestoneSet :=
  { set with milestones := set.milestones.set i { m with status } }

/-- The milestones after one of them was paid. -/
def MilestoneSet.pay (set : MilestoneSet) (i : ℕ) (m : Milestone) (payout : ℤ) : MilestoneSet :=
  { set.mark i m .completed with releasedAmount := set.releasedAmount + payout }

/-- The calls that pay out of the milestone escrow `id`. -/
def Call.PaysPhase (id : ℕ) : Call → Prop
  | .releaseMilestone _ id' _ | .cancel _ id' | .cancelRemainingMilestones _ id' => id' = id
  | _ => False

/-- What a call that returned did to the milestone escrow `id`. -/
inductive Phase (s : State World) (call : Call) (id : ℕ) (e : Escrow) (set : MilestoneSet)
    (s' : State World) : Prop
  | kept : ¬ call.PaysPhase id → (s'.account id).outflows = (s.account id).outflows →
      s'.milestones id = some set → Phase s call id e set s'
  | marked {i : ℕ} {m : Milestone} {status : MilestoneStatus} : ¬ call.PaysPhase id →
      set.cancelled = false → set.milestones[i]? = some m → m.status ≠ .completed →
      status ≠ .completed → (s'.account id).outflows = (s.account id).outflows →
      s'.milestones id = some (set.mark i m status) → Phase s call id e set s'
  | released {caller : Address} {index i : ℕ} {m : Milestone} {primary : AssetAmount} :
      call = .releaseMilestone caller id index → set.cancelled = false → e.state = .funded →
      findMilestone index set.milestones = some (i, m) → m.status = .pending →
      e.assets.head? = some primary →
      (s'.account id).outflows
        = (s.account id).outflows ++ [⟨id, primary.asset, e.recipient, milestonePayout e set m⟩] →
      s'.milestones id = some (set.pay i m (milestonePayout e set m)) → Phase s call id e set s'
  | cancelled {caller : Address} {legs : List Leg} :
      call = .cancel caller id ∨ call = .cancelRemainingMilestones caller id →
      set.cancelled = false → e.state = .funded ∨ e.state = .expired →
      Sends id e e.sender (e.fundedAmount - set.releasedAmount) legs →
      (s'.account id).outflows = (s.account id).outflows ++ legs →
      s'.milestones id = some set.cancel → Phase s call id e set s'

/-- A call that leaves the account alone. -/
theorem Phase.of_account (hset : s.milestones id = some set) (hcall : ¬ call.PaysPhase id)
    (h : s'.account id = s.account id) : Phase s call id e set s' := by
  have hmilestones : s'.milestones id = s.milestones id := congrArg Account.milestones h
  exact .kept hcall (congrArg Account.outflows h) (hmilestones.trans hset)

theorem Call.PaysPhase.names (h : call.PaysPhase id) : call.Names id := by
  cases call with
  | releaseMilestone | cancel | cancelRemainingMilestones => exact h
  | _ => exact h.elim

theorem releaseMilestone_phase {caller : Address} {index : ℕ} (he : s.escrow id = some e)
    (hset : s.milestones id = some set) (h : releaseMilestone H env s caller id index = .ok s') :
    Phase s (.releaseMilestone caller id index) id e set s' := by
  simp only [releaseMilestone, bind_eq_ok, Prod.exists, requireMilestone_eq_ok,
    intoMilestone_eq_ok, checkedMul_eq_ok, checkedDiv_eq_ok, checkedSub_eq_ok, checkedAdd_eq_ok,
    orFail_eq_ok] at h
  obtain ⟨e₁, set₁, i, m, hload, _, hnotDone, _, hnotDisputed, _, hstate, _, ⟨_, rfl⟩, _,
    ⟨_, _, rfl⟩, _, ⟨_, rfl⟩, primary, hprimary, w, _, _, ⟨_, rfl⟩, h⟩ := h
  obtain ⟨_, he₁, _, hset₁, hlive, hfind⟩ := loadMilestone_ok hload
  obtain rfl : e = e₁ := Option.some.inj (he.symm.trans he₁)
  obtain rfl : set = set₁ := Option.some.inj (hset.symm.trans hset₁)
  have hpending : m.status = .pending := by
    cases hm : m.status with
    | pending => rfl
    | completed => exact absurd hm hnotDone
    | disputed => exact absurd hm hnotDisputed
  refine .released rfl hlive hstate hfind hpending hprimary ?_ ?_
  · split at h <;> cases h <;>
      simp [State.account, State.storeEscrow, State.storeMilestones, State.recordPayout,
        milestonePayout]
  · split at h <;> cases h <;>
      simp [State.storeEscrow, State.storeMilestones, MilestoneSet.pay, MilestoneSet.mark,
        milestonePayout]

theorem MilestoneMarked.phase (hset : s.milestones id = some set) (hcall : ¬ call.PaysPhase id)
    (h : MilestoneMarked s s' id) : Phase s call id e set s' := by
  obtain ⟨_, set₁, i, m, status, _, _, hset₁, hlive, hm, hnotDone, hstatus, rfl⟩ := h
  obtain rfl : set = set₁ := Option.some.inj (hset.symm.trans hset₁)
  exact .marked hcall hlive hm hnotDone hstatus rfl (Function.update_self _ _ _)

theorem cancelMilestonesInner_phase {caller : Address} {r : ℤ} (he : s.escrow id = some e)
    (hset : s.milestones id = some set)
    (hcall : call = .cancel caller id ∨ call = .cancelRemainingMilestones caller id)
    (h : cancelMilestonesInner H s caller id = .ok (r, s')) : Phase s call id e set s' := by
  simp only [cancelMilestonesInner, bind_eq_ok, loadEscrow_eq_ok, require_eq_ok, okOr_eq_ok,
    checkedSub_eq_ok, Prod.exists, pure_eq_ok, Prod.mk.injEq] at h
  obtain ⟨e₁, he₁, _, _, set₁, hset₁, _, hlive, _, hstate, _, ⟨_, rfl⟩, w, legs, hsend, _, rfl⟩ := h
  obtain rfl : e = e₁ := Option.some.inj (he.symm.trans he₁)
  obtain rfl : set = set₁ := Option.some.inj (hset.symm.trans hset₁)
  obtain ⟨hsends, _⟩ := returnRemaining_ok hsend
  refine .cancelled hcall hlive hstate hsends ?_ (Function.update_self _ _ _)
  rw [account_recordPayout_self hsends.escrow, account_storeEscrow_self,
    account_storeMilestones_self]

/-- A milestone escrow is funded from the start. -/
theorem Consistent.funded (hc : Consistent H s) (he : s.escrow id = some e)
    (hset : s.milestones id = some set) :
    WellFormed H.self e ∧ (s.account id).Funded e := by
  obtain ⟨hwf, hun | hfunded⟩ := hc.books he
  · have hnone : s.milestones id = none := hun.milestones
    rw [hset] at hnone
    cases hnone
  · exact ⟨hwf, hfunded⟩

/-- **No call but a milestone's release and a cancellation pays out of a milestone escrow.** -/
theorem exec_phase (hc : Consistent H s) (he : s.escrow id = some e)
    (hset : s.milestones id = some set) (h : exec H env s call = .ok s') :
    Phase s call id e set s' := by
  by_cases hnames : call.Names id
  swap
  · have haccount := exec_elsewhere hc.unused (fun _ _ he => hc.nonempty he) he hnames h
    exact .of_account hset (fun hpays => hnames hpays.names) haccount
  have hphased : s.milestones id ≠ none := by simp [hset]
  cases call with
  | approveRelease =>
      obtain ⟨_, h⟩ := snd_map_ok h
      exact .of_account hset not_false ((approveRelease_quiet h).account id)
  | fund =>
      obtain rfl := hnames
      obtain ⟨e₁, _, _, _, he₁, _, hcreated, _⟩ := fund_ok h
      obtain rfl : e = e₁ := Option.some.inj (he.symm.trans he₁)
      exact absurd hcreated (hc.funded he hset).2.notCreated
  | withdraw =>
      obtain rfl := hnames
      obtain ⟨_, h⟩ := snd_map_ok h
      obtain ⟨_, _, _, _, _, hnone, _⟩ := withdraw_ok h
      exact absurd hnone hphased
  | claim =>
      obtain rfl := hnames
      obtain ⟨_, h⟩ := snd_map_ok h
      obtain ⟨_, _, _, hnone, _⟩ := claim_ok h
      exact absurd hnone hphased
  | release =>
      obtain rfl := hnames
      obtain ⟨_, _, _, _, _, _, _, hnone, _⟩ := release_ok h
      exact absurd hnone hphased
  | overrideRelease =>
      obtain rfl := hnames
      obtain ⟨_, _, _, _, hnone, _⟩ := overrideRelease_ok h
      exact absurd hnone hphased
  | expire =>
      obtain ⟨_, _, _, _, rfl⟩ := expire_ok h
      exact .kept not_false rfl hset
  | close =>
      obtain ⟨_, _, _, rfl⟩ := close_ok h
      exact .kept not_false rfl hset
  | refund =>
      obtain rfl := hnames
      obtain ⟨_, _, _, hexit, _⟩ := refund_ok h
      exact absurd hexit.milestones hphased
  | refundTimelock =>
      obtain rfl := hnames
      obtain ⟨_, _, _, hexit, _⟩ := refundTimelock_ok h
      exact absurd hexit.milestones hphased
  | reclaim =>
      obtain rfl := hnames
      obtain ⟨_, _, _, hexit, _⟩ := reclaim_ok h
      exact absurd hexit.milestones hphased
  | releaseMilestone =>
      obtain rfl := hnames
      exact releaseMilestone_phase he hset h
  | disputeMilestone =>
      obtain rfl := hnames
      exact (disputeMilestone_ok h).phase hset not_false
  | resolveMilestone =>
      obtain rfl := hnames
      exact (resolveMilestone_ok h).phase hset not_false
  | cancel =>
      obtain rfl := hnames
      rcases cancel_ok h with ⟨_, hcancel⟩ | ⟨_, _, _, _, hnone, _⟩
      · exact cancelMilestonesInner_phase he hset (.inl rfl) hcancel
      · exact absurd hnone hphased
  | cancelRemainingMilestones =>
      obtain rfl := hnames
      obtain ⟨_, h⟩ := snd_map_ok h
      simp only [cancelRemainingMilestones, bind_eq_ok] at h
      obtain ⟨_, _, hcancel⟩ := h
      exact cancelMilestonesInner_phase he hset (.inr rfl) hcancel
  | _ => exact hnames.elim

end EscrowContract
end Astroid
