import Astroid.Escrow.Conditions

/-!
# Release conditions

The counter of an escrow with a release condition is the number of participants that approved,
and nothing reaches its recipient before they are enough (`release_conditions_hold`).  What the
sender can take back depends on neither (`exits_ignore_conditions`).
-/

namespace Astroid
namespace EscrowContract

open Outcome Machine

variable {World : Type} {H : EscrowHost World} {env : Env H.self} {s s' : State World} {id : ℕ}
  {e : Escrow}

/-! ## What the sender takes back -/

/-- The state with other conditions and approvals on record. -/
def State.withConditions (s : State World) (conditions : ℕ → Option ReleaseCondition)
    (approvals : ℕ → Address → Bool) : State World :=
  { s with
    releaseCondition := conditions
    releaseApproval := approvals }

section Exits

variable {caller : Address} {conditions : ℕ → Option ReleaseCondition}
  {approvals : ℕ → Address → Bool}

theorem refund_withConditions : refund H env (s.withConditions conditions approvals) caller id
    = (·.withConditions conditions approvals) <$> refund H env s caller id := by
  simp only [refund, map_bind, map_pure]
  rfl

theorem refundTimelock_withConditions :
    refundTimelock H env (s.withConditions conditions approvals) caller id
      = (·.withConditions conditions approvals) <$> refundTimelock H env s caller id := by
  simp only [refundTimelock, map_bind, map_pure]
  rfl

theorem reclaim_withConditions : reclaim H env (s.withConditions conditions approvals) caller id
    = (·.withConditions conditions approvals) <$> reclaim H env s caller id := by
  simp only [reclaim, map_bind, map_pure]
  rfl

theorem cancelMilestonesInner_withConditions :
    cancelMilestonesInner H (s.withConditions conditions approvals) caller id
      = (fun r => (r.1, r.2.withConditions conditions approvals)) <$>
          cancelMilestonesInner H s caller id := by
  simp only [cancelMilestonesInner, map_bind, map_pure]
  rfl

theorem cancel_withConditions : cancel H env (s.withConditions conditions approvals) caller id
    = (·.withConditions conditions approvals) <$> cancel H env s caller id := by
  have hsame : (s.withConditions conditions approvals).milestones = s.milestones := rfl
  simp only [cancel, map_bind, hsame]
  congr 1
  funext _
  split
  · rw [cancelMilestonesInner_withConditions]
    simp
  · simp only [map_bind, map_pure]
    rfl

end Exits

/-- Whatever conditions and approvals are on record, the sender's exits from `id` succeed or
fail alike, and leave the same state but for them. -/
def ExitsIgnoreConditions (H : EscrowHost World) (id : ℕ) : Prop :=
  ∀ (env : Env H.self) (s : State World) (caller : Address)
    (conditions : ℕ → Option ReleaseCondition) (approvals : ℕ → Address → Bool),
    ∀ exit ∈ [cancel H, refund H, refundTimelock H, reclaim H],
      exit env (s.withConditions conditions approvals) caller id
        = (·.withConditions conditions approvals) <$> exit env s caller id

theorem exits_ignore_conditions : ExitsIgnoreConditions H id := by
  intro env s caller conditions approvals
  simp [cancel_withConditions, refund_withConditions, refundTimelock_withConditions,
    reclaim_withConditions]

/-! ## Runs -/

/-- The participant whose approval of escrow `id` an entry recorded. -/
def approves (id : ℕ) (x : Entry (State World) (Inputs H)) : Option Address :=
  match x.input with
  | .invoke _ call => call.approver id
  | .outside _ _ => none

/-- An escrow with a release condition, after the entries `tr` since it was opened. -/
structure Conditioned (config : ReleaseConditionConfig) (id : ℕ)
    (tr : List (Entry (State World) (Inputs H))) (s : State World) : Prop where
  record : ∃ e, s.escrow id = some e ∧ e.recipient = config.recipient ∧ e.state ≠ .created
  unphased : s.milestones id = none
  condition : s.releaseCondition id = some ⟨config.participants, config.approvalThreshold,
    (log (approves id) tr).length⟩
  flags : ∀ who, s.releaseApproval id who = true ↔ who ∈ log (approves id) tr
  distinct : (log (approves id) tr).Nodup
  participants : ∀ who ∈ log (approves id) tr, who ∈ config.participants
  funded : ∀ x ∈ tr, approves id x ≠ none → ∃ e, x.pre.escrow id = some e ∧ e.state = .funded
  gated : ∀ tr' x, tr' ++ [x] <+: tr → Gated id config.recipient
    (config.approvalThreshold ≤ (log (approves id) tr').length) x.pre x.post

namespace Conditioned

variable {config : ReleaseConditionConfig} {tr : List (Entry (State World) (Inputs H))}
  {i : Inputs H} {who : Address}

/-- What a step keeps of the record, and that it pays the recipient only when allowed. -/
theorem paid (h : Conditioned config id tr s) (hc : Consistent H s) (hstep : Step H i s s') :
    (∃ e, s'.escrow id = some e ∧ e.recipient = config.recipient ∧ e.state ≠ .created) ∧
      s'.milestones id = none ∧
      ∀ tr' x, tr' ++ [x] <+: tr ++ [⟨s, i, s'⟩] → Gated id config.recipient
        (config.approvalThreshold ≤ (log (approves id) tr').length) x.pre x.post := by
  obtain ⟨e, he, hrecipient, hstate⟩ := h.record
  refine ⟨?_, hc.unphased he h.unphased hstep, ?_⟩
  · obtain ⟨e', he', hterms, hstate'⟩ := hc.terms he hstate hstep
    exact ⟨e', he', hterms.recipient.trans hrecipient, hstate'⟩
  · intro tr' x hpart
    rcases concat_prefix_concat hpart with ⟨rfl, rfl⟩ | hearlier
    · cases i with
      | outside time w =>
          obtain ⟨_, rfl⟩ := hstep
          exact .of_outflows rfl
      | invoke env call =>
          have hexec : exec H env s call = .ok s' := hstep
          rw [← hrecipient]
          exact exec_gated hc he h.unphased h.condition hexec
    · exact h.gated tr' x hearlier

/-- A step that records no approval of the escrow. -/
theorem keep (h : Conditioned config id tr s) (hc : Consistent H s) (hstep : Step H i s s')
    (hnone : approves id ⟨s, i, s'⟩ = none) (hcondition : s'.releaseCondition id = s.releaseCondition id)
    (hflags : ∀ who, s'.releaseApproval id who = s.releaseApproval id who) :
    Conditioned config id (tr ++ [⟨s, i, s'⟩]) s' := by
  obtain ⟨hrecord, hunphased, hgated⟩ := h.paid hc hstep
  constructor
  · exact hrecord
  · exact hunphased
  · rw [log_none hnone, hcondition]
    exact h.condition
  · intro who
    rw [log_none hnone, hflags]
    exact h.flags who
  · rw [log_none hnone]
    exact h.distinct
  · rw [log_none hnone]
    exact h.participants
  · intro x hx
    rcases List.mem_append.1 hx with hx | hx
    · exact h.funded x hx
    · rw [List.mem_singleton] at hx
      subst hx
      exact fun hsome => absurd hnone hsome
  · exact hgated

/-- A step that records the approval of one more participant. -/
theorem approve (h : Conditioned config id tr s) (hc : Consistent H s) (hstep : Step H i s s')
    (hsome : approves id ⟨s, i, s'⟩ = some who) {e : Escrow} (he : s.escrow id = some e)
    (hstate : e.state = .funded) (hmem : who ∈ config.participants)
    (hnew : s.releaseApproval id who = false)
    (hcondition : s'.releaseCondition id = some ⟨config.participants, config.approvalThreshold,
      (log (approves id) tr).length + 1⟩)
    (hflags : ∀ a, s'.releaseApproval id a = true ↔ a = who ∨ s.releaseApproval id a = true) :
    Conditioned config id (tr ++ [⟨s, i, s'⟩]) s' := by
  obtain ⟨hrecord, hunphased, hgated⟩ := h.paid hc hstep
  have hfirst : who ∉ log (approves id) tr := by
    intro hlogged
    rw [(h.flags who).2 hlogged] at hnew
    cases hnew
  constructor
  · exact hrecord
  · exact hunphased
  · rw [log_some hsome, List.length_append]
    exact hcondition
  · intro a
    rw [log_some hsome, List.mem_append, List.mem_singleton, hflags, h.flags, or_comm]
  · exact log_nodup h.distinct hsome hfirst
  · intro a ha
    rw [log_some hsome, List.mem_append, List.mem_singleton] at ha
    rcases ha with ha | rfl
    · exact h.participants a ha
    · exact hmem
  · intro x hx
    rcases List.mem_append.1 hx with hx | hx
    · exact h.funded x hx
    · rw [List.mem_singleton] at hx
      subst hx
      exact fun _ => ⟨e, he, hstate⟩
  · exact hgated

/-- **Every step keeps the count.** -/
theorem step (h : Conditioned config id tr s) (hc : Consistent H s) (hstep : Step H i s s') :
    Conditioned config id (tr ++ [⟨s, i, s'⟩]) s' := by
  obtain ⟨e, he, _, _⟩ := h.record
  cases i with
  | outside time w =>
      refine h.keep hc hstep rfl ?_ ?_
      · obtain ⟨_, rfl⟩ := hstep
        rfl
      · obtain ⟨_, rfl⟩ := hstep
        exact fun _ => rfl
  | invoke env call =>
      have hexec : exec H env s call = .ok s' := hstep
      cases exec_conditions hexec with
      | kept hnone hconditions happrovals =>
          refine h.keep hc hstep (hnone id) (congrFun hconditions id) ?_
          exact fun who => by rw [happrovals]
      | attached hnone hconditions happrovals =>
          have hle := hc.unused.id_le he
          have hne : id ≠ s.getCount + 1 := by omega
          refine h.keep hc hstep (hnone id) ?_ ?_
          · rw [hconditions, Function.update_of_ne hne]
          · exact fun who => by rw [happrovals]
      | @approved caller id' e' c hcall he' hstate hcondition hmem hnew hs' =>
          subst hcall
          by_cases hid : id' = id
          · subst hid
            have happroves : approves id' ⟨s, .invoke env (.approveRelease caller id'), s'⟩
                = some caller := if_pos rfl
            obtain rfl := Option.some.inj (h.condition.symm.trans hcondition)
            refine h.approve hc hstep happroves he' hstate hmem hnew ?_ ?_
            · rw [hs']
              exact Function.update_self _ _ _
            · intro a
              subst hs'
              show (if id' = id' ∧ a = caller then true else s.releaseApproval id' a) = true ↔ _
              by_cases ha : a = caller <;> simp [ha]
          · have happroves : approves id ⟨s, .invoke env (.approveRelease caller id'), s'⟩ = none :=
              if_neg hid
            refine h.keep hc hstep happroves ?_ ?_
            · rw [hs']
              exact Function.update_of_ne (Ne.symm hid) _ _
            · intro who
              rw [hs']
              exact if_neg fun hboth => hid hboth.1.symm

end Conditioned

/-- Nobody has approved an escrow the counter has not reached. -/
def Unapproved (s : State World) : Prop :=
  ∀ id who, s.getCount < id → s.releaseApproval id who = false

/-- The counter of escrows is never set back. -/
theorem exec_count (hc : Consistent H s) (h : exec H env s call = .ok s') :
    s.getCount ≤ s'.getCount := by
  rcases exec_touches hc.unused (fun _ _ he => hc.nonempty he) h with hquiet | ⟨_, htouches⟩
  · exact hquiet.count.ge
  · exact htouches.count

theorem Unapproved.step (h : Unapproved s) (hc : Consistent H s) {i : Inputs H}
    (hstep : Step H i s s') : Unapproved s' := by
  intro id who hid
  cases i with
  | outside time w =>
      obtain ⟨_, rfl⟩ := hstep
      exact h id who hid
  | invoke env call =>
      have hexec : exec H env s call = .ok s' := hstep
      have hbefore := h id who ((exec_count hc hexec).trans_lt hid)
      cases exec_conditions hexec with
      | kept _ _ happrovals => rwa [happrovals]
      | attached _ _ happrovals => rwa [happrovals]
      | @approved caller id' e c _ he _ _ _ _ hs' =>
          have hle := hc.unused.id_le he
          subst hs'
          have hcount : s.getCount < id := hid
          have hne : id ≠ id' := by omega
          show (if id = id' ∧ who = caller then true else s.releaseApproval id who) = false
          rw [if_neg fun hboth => hne hboth.1]
          exact hbefore

theorem Reachable.unapproved (h : Reachable H s) : Unapproved s := by
  have hboth : Consistent H s ∧ Unapproved s := by
    refine Machine.Reachable.invariant (P := fun s => Consistent H s ∧ Unapproved s) ?_ ?_ h
    · intro s hfresh
      exact ⟨hfresh.consistent, fun id who _ => hfresh.releaseApproval id who⟩
    · rintro i s s' ⟨hc, hnone⟩ hstep
      exact ⟨hc.preserved hstep, hnone.step hc hstep⟩
  exact hboth.2

/-- An escrow that was opened with participants. -/
theorem createWithReleaseCondition_conditioned {config : ReleaseConditionConfig}
    (hc : Consistent H s) (hnone : Unapproved s) (hparties : config.participants ≠ [])
    (h : createWithReleaseCondition H env s config = .ok (id, s')) :
    (1 ≤ config.approvalThreshold ∧ config.approvalThreshold ≤ config.participants.length) ∧
      Conditioned (H := H) config id [] s' := by
  simp only [createWithReleaseCondition, bind_eq_ok, Prod.exists, if_pos hparties, pure_eq_ok,
    Prod.mk.injEq] at h
  obtain ⟨_, hvalid, id', s₁, hcreate, rfl, rfl⟩ := h
  obtain ⟨hpos, hle, _⟩ := validateParties_ok hvalid hparties
  obtain ⟨_, _, rfl, _, rfl⟩ := openFunded_ok (createWithRefundWindow_ok hcreate).2.2.2.2
  have hnew : s.getCount < s.getCount + 1 := Nat.lt_succ_self _
  have hblank := congrArg Account.milestones (hc.unused _ hnew)
  refine ⟨⟨hpos, hle⟩, ?_⟩
  constructor
  · exact ⟨_, Function.update_self _ _ _, rfl, by simp⟩
  · exact hblank
  · exact Function.update_self _ _ _
  · intro who
    have hunapproved := hnone _ who hnew
    show s.releaseApproval _ who = true ↔ _
    simp [hunapproved, log]
  · exact List.nodup_nil
  · simp [log]
  · simp
  · simp

namespace Conditioned

variable {config : ReleaseConditionConfig} {tr : List (Entry (State World) (Inputs H))}

/-- The counter stays within the list. -/
theorem length_le (h : Conditioned config id tr s) :
    (log (approves id) tr).length ≤ config.participants.length :=
  (h.distinct.subperm h.participants).length_le

/-- A participant that calls while the escrow is funded is counted, now or before. -/
theorem counted (h : Conditioned config id tr s) {caller : Address} (he : s.escrow id = some e)
    (hstate : e.state = .funded) (hmem : caller ∈ config.participants)
    (hauth : caller ∈ env.auths) :
    caller ∈ log (approves id) tr ∨
      ∃ s', approveRelease H env s caller id = .ok ((log (approves id) tr).length + 1, s') := by
  by_cases hlogged : caller ∈ log (approves id) tr
  · exact .inl hlogged
  · refine .inr ⟨_, approveRelease_eq_ok.2 ⟨e, _, hauth, he, hstate, h.condition, hmem, ?_, rfl, rfl⟩⟩
    rw [← Bool.not_eq_true, h.flags]
    exact hlogged

end Conditioned

/-- Two of three have to approve. -/
def twoOfThree : ReleaseConditionConfig where
  sender := .account 1
  recipient := .account 2
  arbiter := .account 3
  assets := [⟨.contract 7, 100⟩]
  deadline := 50
  gracePeriod := 0
  refundWindow := 0
  overrideSigners := []
  overrideThreshold := 0
  participants := [.account 4, .account 5, .account 6]
  approvalThreshold := 2

/-- The second and the third participant approve, and the arbiter releases. -/
def approvedRun : Script Call :=
  [(signedBy 1 [1], .createWithReleaseCondition twoOfThree),
    (signedBy 2 [6], .approveRelease (.account 6) 1),
    (signedBy 3 [5], .approveRelease (.account 5) 1),
    (signedBy 4 [3], .release (.account 3) 1 100)]

end EscrowContract
end Astroid
