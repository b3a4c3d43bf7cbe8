import Astroid.Escrow.Accounting

/-!
# What a call does to the release conditions

A condition is attached when its escrow is created, and only an approval of a participant
changes it afterwards (`exec_conditions`).  Whichever entrypoint pays the recipient of an escrow
with a condition checks that it is met (`exec_gated`).
-/

namespace Astroid
namespace EscrowContract

open Outcome

variable {World : Type} {H : EscrowHost World} {env : Env H.self} {s s' : State World} {call : Call}
  {id : ℕ} {e : Escrow} {c : ReleaseCondition}

/-! ## What a call does to the conditions -/

/-- The party whose approval of escrow `id` a call records. -/
def Call.approver (id : ℕ) : Call → Option Address
  | .approveRelease caller id' => if id' = id then some caller else none
  | _ => none

/-- What a call that returned did to the release conditions. -/
inductive Conditions (s : State World) (call : Call) (s' : State World) : Prop
  | kept : (∀ id, call.approver id = none) → s'.releaseCondition = s.releaseCondition →
      s'.releaseApproval = s.releaseApproval → Conditions s call s'
  | attached {c : ReleaseCondition} : (∀ id, call.approver id = none) →
      s'.releaseCondition = Function.update s.releaseCondition (s.getCount + 1) (some c) →
      s'.releaseApproval = s.releaseApproval → Conditions s call s'
  | approved {caller : Address} {id : ℕ} {e : Escrow} {c : ReleaseCondition} :
      call = .approveRelease caller id → s.escrow id = some e → e.state = .funded →
      s.releaseCondition id = some c → caller ∈ c.participants →
      s.releaseApproval id caller = false →
      s' = (s.markReleaseApproval id caller).storeReleaseCondition id
        { c with approvals := c.approvals + 1 } →
      Conditions s call s'

theorem validateParties_ok {α : Type} [DecidableEq α] {parties : List α} {threshold : ℕ} {u : Unit}
    (h : validateParties parties threshold = .ok u) (hne : parties ≠ []) :
    1 ≤ threshold ∧ threshold ≤ parties.length ∧ parties.Nodup := by
  simp only [validateParties, if_neg hne, bind_eq_ok, require_eq_ok] at h
  obtain ⟨_, _, _, ⟨hpos, hle⟩, hnodup⟩ := h
  exact ⟨Nat.one_le_iff_ne_zero.2 hpos, hle, hnodup⟩

/-- **Who may approve.**  A participant that has not approved yet, while the escrow is funded. -/
theorem approveRelease_eq_ok {caller : Address} {n : ℕ} :
    approveRelease H env s caller id = .ok (n, s') ↔
      ∃ e c, caller ∈ env.auths ∧ s.escrow id = some e ∧ e.state = .funded ∧
        s.releaseCondition id = some c ∧ caller ∈ c.participants ∧
        s.releaseApproval id caller = false ∧ n = c.approvals + 1 ∧
        s' = (s.markReleaseApproval id caller).storeReleaseCondition id
          { c with approvals := c.approvals + 1 } := by
  simp only [approveRelease, bind_eq_ok, requireAuth_eq_ok, loadEscrow_eq_ok, require_eq_ok,
    okOr_eq_ok, pure_eq_ok, Prod.mk.injEq]
  constructor
  · rintro ⟨_, hauth, e, he, _, hstate, c, hc, _, hmem, _, hnew, rfl, rfl⟩
    exact ⟨e, c, hauth, he, hstate, hc, hmem, hnew, rfl, rfl⟩
  · rintro ⟨e, c, hauth, he, hstate, hc, hmem, hnew, rfl, rfl⟩
    exact ⟨(), hauth, e, he, (), hstate, c, hc, (), hmem, (), hnew, rfl, rfl⟩

/-- **Only an approval changes a condition that is attached.** -/
theorem exec_conditions (h : exec H env s call = .ok s') : Conditions s call s' := by
  have hother {call' : Call} (hcall : ∀ id, call'.approver id = none)
      (hedits : ¬ call.EditsRegister) : Conditions s call' s' := by
    have hkeeps := exec_registers hedits h
    exact .kept hcall hkeeps.releaseCondition hkeeps.releaseApproval
  cases call with
  | approveToken =>
      obtain ⟨_, _, rfl⟩ := approveToken_ok h
      exact .kept (fun _ => rfl) rfl rfl
  | revokeToken =>
      obtain ⟨_, rfl⟩ := revokeToken_ok h
      exact .kept (fun _ => rfl) rfl rfl
  | createWithReleaseCondition =>
      obtain ⟨_, h⟩ := snd_map_ok h
      obtain ⟨s₁, hcreate, hs'⟩ := createWithReleaseCondition_ok h
      obtain ⟨_, _, rfl, _, rfl⟩ := openFunded_ok (createWithRefundWindow_ok hcreate).2.2.2.2
      rcases hs' with rfl | rfl
      · exact .kept (fun _ => rfl) rfl rfl
      · exact .attached (fun _ => rfl) rfl rfl
  | approveRelease =>
      obtain ⟨_, h⟩ := snd_map_ok h
      obtain ⟨e, c, _, he, hstate, hc, hmem, hnew, _, hs'⟩ := approveRelease_eq_ok.1 h
      exact .approved rfl he hstate hc hmem hnew hs'
  | _ => exact hother (fun _ => rfl) not_false

/-! ## What a call pays the recipient -/

/-- A call that returned sent the recipient nothing of escrow `id` unless `allowed`. -/
def Gated (id : ℕ) (recipient : Address) (allowed : Prop) (s s' : State World) : Prop :=
  ∃ legs, (s'.account id).outflows = (s.account id).outflows ++ legs ∧
    ((∃ leg ∈ legs, leg.party = recipient) → allowed)

section Gated

variable {recipient : Address} {allowed : Prop}

theorem Gated.of_outflows (h : (s'.account id).outflows = (s.account id).outflows) :
    Gated id recipient allowed s s' :=
  ⟨[], by rw [h, List.append_nil], by simp⟩

/-- A payout that was allowed. -/
theorem Gated.of_touches {now : UInt64} (h : Touches H now call s s' id) (hallowed : allowed) :
    Gated id recipient allowed s s' := by
  obtain ⟨_, outs, _, _, houtflows, _, houts⟩ := h.traffic
  refine ⟨outs, ?_, fun _ => hallowed⟩
  show s'.outflows.filter _ = s.outflows.filter _ ++ outs
  rw [houtflows, List.filter_append, filter_legs houts]

/-- A payout to somebody else. -/
theorem Gated.of_sends {payee : Address} {units : ℤ} {legs : List Leg}
    (hsends : Sends id e payee units legs) (hother : payee ≠ recipient)
    (hout : (s'.account id).outflows = (s.account id).outflows ++ legs) :
    Gated id recipient allowed s s' := by
  refine ⟨legs, hout, ?_⟩
  rintro ⟨leg, hleg, hparty⟩
  rcases hsends with rfl | ⟨_, rfl⟩
  · exact absurd ((shareLegs_mem hleg).2.1.symm.trans hparty) hother
  · cases hleg

theorem SenderExit.gated {caller : Address} {w : World} {legs : List Leg}
    (h : SenderExit env s s' caller id e w legs)
    (hsends : Sends id e e.sender (e.fundedAmount - e.releasedAmount) legs)
    (hother : e.sender ≠ recipient) : Gated id recipient allowed s s' := by
  refine .of_sends hsends hother ?_
  rw [h.post, account_recordPayout_self hsends.escrow, account_storeEscrow_self]

end Gated

/-- The check all payouts to the recipient share. -/
theorem requireReleaseApprovals_ok {u : Unit} (hcondition : s.releaseCondition id = some c)
    (h : s.requireReleaseApprovals id = .ok u) : c.threshold ≤ c.approvals := by
  rw [State.requireReleaseApprovals, hcondition] at h
  exact require_eq_ok.1 h

theorem withdraw_approved {caller : Address} {amount r : ℤ}
    (h : withdraw H env s caller id amount = .ok (r, s')) :
    s.requireReleaseApprovals id = .ok () := by
  simp only [withdraw, bind_eq_ok] at h
  obtain ⟨_, _, _, _, _, _, _, _, _, _, _, _, _, _, _, _, _, _, _, happroved, _⟩ := h
  exact happroved

theorem claim_approved {caller : Address} {r : ℤ} (h : claim H env s caller id = .ok (r, s')) :
    s.requireReleaseApprovals id = .ok () := by
  simp only [claim, bind_eq_ok] at h
  obtain ⟨_, _, _, _, _, _, _, _, _, _, h⟩ := h
  split at h
  · simp only [bind_eq_ok] at h
    obtain ⟨_, _, _, _, _, happroved, _⟩ := h
    exact happroved
  · simp only [bind_eq_ok] at h
    obtain ⟨_, _, _, _, _, happroved, _⟩ := h
    exact happroved

theorem release_approved {arbiter : Address} {releaseAmount : ℤ}
    (h : release H env s arbiter id releaseAmount = .ok s') :
    s.requireReleaseApprovals id = .ok () := by
  simp only [release, bind_eq_ok] at h
  obtain ⟨_, _, _, _, _, _, _, _, _, _, _, _, _, _, _, _, _, _, _, _, _, happroved, _⟩ := h
  exact happroved

theorem overrideRelease_approved {nonce : UInt64} {signatures : List OverrideSignature}
    (h : overrideRelease H env s id nonce signatures = .ok s') :
    s.requireReleaseApprovals id = .ok () := by
  simp only [overrideRelease, bind_eq_ok] at h
  obtain ⟨_, _, _, _, _, _, _, _, _, _, _, _, _, _, _, _, _, _, _, _, _, happroved, _⟩ := h
  exact happroved

/-- **Whatever reaches the recipient was approved.** -/
theorem exec_gated (hc : Consistent H s) (he : s.escrow id = some e)
    (hphased : s.milestones id = none) (hcondition : s.releaseCondition id = some c)
    (h : exec H env s call = .ok s') :
    Gated id e.recipient (c.threshold ≤ c.approvals) s s' := by
  have hu := hc.unused
  by_cases hnames : call.Names id
  swap
  · have haccount := exec_elsewhere hu (fun _ _ he => hc.nonempty he) he hnames h
    exact .of_outflows (congrArg Account.outflows haccount)
  have hsender : e.sender ≠ e.recipient := ((hc.books he).1.recipient_ne).symm
  have hsame {e₁ : Escrow} (he₁ : s.escrow id = some e₁) : e₁ = e :=
    Option.some.inj (he₁.symm.trans he)
  have hunphased {set : MilestoneSet} (hset : s.milestones id = some set) : False := by
    rw [hphased] at hset
    cases hset
  cases call with
  | approveRelease =>
      obtain ⟨_, h⟩ := snd_map_ok h
      exact .of_outflows (congrArg Account.outflows ((approveRelease_quiet h).account id))
  | fund =>
      obtain ⟨_, _, _, _, _, _, _, _, rfl⟩ := fund_ok h
      exact .of_outflows rfl
  | withdraw =>
      obtain rfl := hnames
      obtain ⟨_, h⟩ := snd_map_ok h
      exact .of_touches (withdraw_touches hu h)
        (requireReleaseApprovals_ok hcondition (withdraw_approved h))
  | claim =>
      obtain rfl := hnames
      obtain ⟨_, h⟩ := snd_map_ok h
      exact .of_touches (claim_touches hu h)
        (requireReleaseApprovals_ok hcondition (claim_approved h))
  | release =>
      obtain rfl := hnames
      exact .of_touches (release_touches hu h)
        (requireReleaseApprovals_ok hcondition (release_approved h))
  | overrideRelease =>
      obtain rfl := hnames
      exact .of_touches (overrideRelease_touches hu h)
        (requireReleaseApprovals_ok hcondition (overrideRelease_approved h))
  | expire =>
      obtain ⟨_, _, _, _, rfl⟩ := expire_ok h
      exact .of_outflows rfl
  | close =>
      obtain ⟨_, _, _, rfl⟩ := close_ok h
      exact .of_outflows rfl
  | refund =>
      obtain rfl := hnames
      obtain ⟨_, _, _, hexit, _, _, hsend⟩ := refund_ok h
      obtain rfl := hsame hexit.record
      exact hexit.gated (returnRemaining_ok hsend).1 hsender
  | refundTimelock =>
      obtain rfl := hnames
      obtain ⟨_, _, _, hexit, _, hsend⟩ := refundTimelock_ok h
      obtain rfl := hsame hexit.record
      exact hexit.gated (returnRemaining_ok hsend).1 hsender
  | reclaim =>
      obtain rfl := hnames
      obtain ⟨_, _, _, hexit, _, _, hsend⟩ := reclaim_ok h
      obtain rfl := hsame hexit.record
      exact hexit.gated (transferAll_ok hsend).1 hsender
  | cancel =>
      obtain rfl := hnames
      rcases cancel_ok h with ⟨_, hcancel⟩ | ⟨_, _, _, he₁, _, _, _, hsend, rfl⟩
      · obtain ⟨_, _, _, _, _, _, hset, _⟩ := cancelMilestonesInner_ok hcancel
        exact (hunphased hset).elim
      · obtain rfl := hsame he₁
        obtain ⟨hsends, _⟩ := returnRemaining_ok hsend
        refine .of_sends hsends hsender ?_
        rw [account_recordPayout_self hsends.escrow, account_storeEscrow_self]
  | releaseMilestone =>
      obtain rfl := hnames
      obtain ⟨_, _, _, _, _, _, _, hset, _⟩ := releaseMilestone_ok h
      exact (hunphased hset).elim
  | disputeMilestone =>
      obtain ⟨_, _, _, _, _, _, _, _, _, _, _, _, rfl⟩ := disputeMilestone_ok h
      exact .of_outflows rfl
  | resolveMilestone =>
      obtain ⟨_, _, _, _, _, _, _, _, _, _, _, _, rfl⟩ := resolveMilestone_ok h
      exact .of_outflows rfl
  | cancelRemainingMilestones =>
      obtain rfl := hnames
      obtain ⟨_, h⟩ := snd_map_ok h
      simp only [cancelRemainingMilestones, bind_eq_ok] at h
      obtain ⟨_, _, hcancel⟩ := h
      obtain ⟨_, _, _, _, _, _, hset, _⟩ := cancelMilestonesInner_ok hcancel
      exact (hunphased hset).elim
  | _ => exact hnames.elim

end EscrowContract
end Astroid
