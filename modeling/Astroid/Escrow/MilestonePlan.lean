import Astroid.Escrow.Phases

/-!
# Milestone escrows pay out exactly

Along a run a milestone escrow keeps to its plan (`Phased`): who is paid follows the weights,
the last milestone takes what the rounding left, nothing is paid twice, and what a cancellation
returns is what is left (`milestones_pay_exactly`).
-/

namespace Astroid
namespace EscrowContract

open Machine

variable {World : Type} {H : EscrowHost World} {env : Env H.self} {s s' : State World} {call : Call}
  {id : ℕ} {e : Escrow} {set : MilestoneSet}

/-! ## The plan -/

/-- What a milestone escrow was opened for. -/
structure Plan where
  sender : Address
  recipient : Address
  asset : Address
  amount : ℤ
  weights : List ℕ

/-- The record says what the plan says. -/
structure Plan.Agrees (plan : Plan) (e : Escrow) : Prop where
  sender : e.sender = plan.sender
  recipient : e.recipient = plan.recipient
  assets : e.assets = [⟨plan.asset, plan.amount⟩]
  fundedAmount : e.fundedAmount = plan.amount

/-- The tokens paid out for an escrow. -/
def Account.sent (a : Account) : ℤ := (a.outflows.map (·.amount)).sum

/-- The milestone of escrow `id` an entry paid, and the payout. -/
def pays (id : ℕ) (x : Entry (State World) (Inputs H)) : Option (ℕ × ℤ) :=
  match x.input with
  | .invoke _ (.releaseMilestone _ id' index) =>
      if id' = id then some (index, (x.post.account id).sent - (x.pre.account id).sent) else none
  | _ => none

/-- What an entry returned of escrow `id`. -/
def returns (id : ℕ) (x : Entry (State World) (Inputs H)) : Option ℤ :=
  match x.input with
  | .invoke _ (.cancel _ id') | .invoke _ (.cancelRemainingMilestones _ id') =>
      if id' = id then some ((x.post.account id).sent - (x.pre.account id).sent) else none
  | _ => none

/-- The milestones that are not completed. -/
def MilestoneSet.Outstanding (set : MilestoneSet) : Prop :=
  ∃ m ∈ set.milestones, m.status ≠ .completed

/-- Milestone `i` is completed. -/
def MilestoneSet.Done (set : MilestoneSet) (i : ℕ) : Prop :=
  ∃ m, set.milestones[i]? = some m ∧ m.status = .completed

/-- What an entry may pay out of an escrow with a plan: nothing, a pending milestone to the
recipient, or the rest to the sender. -/
inductive Plan.Admits (plan : Plan) (id : ℕ) (x : Entry (State World) (Inputs H)) : Prop
  | nothing : pays id x = none → returns id x = none →
      (x.post.account id).outflows = (x.pre.account id).outflows → Plan.Admits plan id x
  | payout {index : ℕ} {set set' : MilestoneSet} {m : Milestone} {payout : ℤ} :
      pays id x = some (index, payout) → x.pre.milestones id = some set →
      x.post.milestones id = some set' → set.milestones[index]? = some m → m.status = .pending →
      plan.weights[index]? = some m.releaseBps →
      (x.post.account id).outflows
        = (x.pre.account id).outflows ++ [⟨id, plan.asset, plan.recipient, payout⟩] →
      (set'.Outstanding → payout = plan.amount * m.releaseBps / 10000) → Plan.Admits plan id x
  | rest {rest : ℤ} {legs : List Leg} : returns id x = some rest →
      (x.post.account id).outflows = (x.pre.account id).outflows ++ legs →
      (∀ leg ∈ legs, leg.asset = plan.asset ∧ leg.party = plan.sender) →
      (legs.map (·.amount)).sum = rest → Plan.Admits plan id x

/-- A milestone escrow and what the entries `tr` since it was opened paid out of it. -/
structure Phased (plan : Plan) (id : ℕ) (tr : List (Entry (State World) (Inputs H)))
    (s : State World) (set : MilestoneSet) : Prop where
  record : ∃ e, s.escrow id = some e ∧ plan.Agrees e
  stored : s.milestones id = some set
  schedule : set.milestones.map (fun m => (m.releaseBps, m.index)) = plan.weights.zipIdx
  once : ((log (pays id) tr).map Prod.fst).Nodup
  done : ∀ i, i ∈ (log (pays id) tr).map Prod.fst ↔ set.Done i
  released : ((log (pays id) tr).map Prod.snd).sum = set.releasedAmount
  within : set.releasedAmount ≤ plan.amount
  completed : ¬ set.Outstanding → set.releasedAmount = plan.amount
  live : set.cancelled = false → log (returns id) tr = []
  cancelled : set.cancelled = true →
    set.releasedAmount + (log (returns id) tr).sum = plan.amount
  admitted : ∀ x ∈ tr, plan.Admits id x

/-! ## Marking a milestone -/

section Marking

variable {i j : ℕ} {m : Milestone} {status : MilestoneStatus}

theorem mark_schedule (hm : set.milestones[i]? = some m) :
    (set.mark i m status).milestones.map (fun m => (m.releaseBps, m.index))
      = set.milestones.map fun m => (m.releaseBps, m.index) := by
  obtain ⟨hi, hget⟩ := List.getElem?_eq_some_iff.1 hm
  simp only [MilestoneSet.mark, List.map_set]
  refine List.ext_getElem? ?_
  intro j
  rw [List.getElem?_set]
  split
  · rename_i hij
    subst hij
    simp [hi, hget]
  · rfl

theorem mark_done (hm : set.milestones[i]? = some m) :
    (set.mark i m status).Done j ↔ if j = i then status = .completed else set.Done j := by
  obtain ⟨hi, _⟩ := List.getElem?_eq_some_iff.1 hm
  simp only [MilestoneSet.Done, MilestoneSet.mark, List.getElem?_set]
  by_cases hij : i = j
  · subst hij
    simp [hi]
  · simp [hij, Ne.symm hij]

theorem mark_outstanding (hm : set.milestones[i]? = some m) (hstatus : status ≠ .completed) :
    (set.mark i m status).Outstanding := by
  obtain ⟨hi, _⟩ := List.getElem?_eq_some_iff.1 hm
  refine ⟨{ m with status }, ?_, hstatus⟩
  exact List.mem_of_getElem? (i := i) (by simp [MilestoneSet.mark, hi])

/-- A milestone of a schedule that was drawn up in order stands under its own index. -/
theorem index_of_schedule {weights : List ℕ}
    (hschedule : set.milestones.map (fun m => (m.releaseBps, m.index)) = weights.zipIdx)
    (hm : set.milestones[i]? = some m) : m.index = i ∧ weights[i]? = some m.releaseBps := by
  have hentry : weights.zipIdx[i]? = some (m.releaseBps, m.index) := by
    rw [← hschedule, List.getElem?_map, hm, Option.map_some]
  rw [List.getElem?_zipIdx] at hentry
  simp only [zero_add, Option.map_eq_some_iff, Prod.mk.injEq] at hentry
  obtain ⟨_, hweight, rfl, rfl⟩ := hentry
  exact ⟨rfl, hweight⟩

theorem cancel_done : set.cancel.Done i ↔ set.Done i := by
  simp only [MilestoneSet.Done, MilestoneSet.cancel, List.getElem?_map, Option.map_eq_some_iff]
  constructor
  · rintro ⟨_, ⟨m, hm, rfl⟩, hstatus⟩
    refine ⟨m, hm, ?_⟩
    split at hstatus
    · cases hstatus
    · exact hstatus
  · rintro ⟨m, hm, hstatus⟩
    refine ⟨m, ⟨m, hm, if_neg ?_⟩, hstatus⟩
    simp [hstatus]

theorem cancel_schedule :
    set.cancel.milestones.map (fun m => (m.releaseBps, m.index))
      = set.milestones.map fun m => (m.releaseBps, m.index) := by
  simp only [MilestoneSet.cancel, List.map_map]
  refine List.map_congr_left ?_
  intro m _
  simp only [Function.comp_apply]
  split <;> rfl

theorem cancel_outstanding (h : set.Outstanding) : set.cancel.Outstanding := by
  obtain ⟨m, hm, hstatus⟩ := h
  refine ⟨_, List.mem_map_of_mem hm, ?_⟩
  split
  · simp
  · exact hstatus

/-- Completing a milestone leaves some outstanding unless it was the last. -/
theorem pay_outstanding_iff {payout : ℤ} (hm : set.milestones[i]? = some m)
    (hnotDone : m.status ≠ .completed) :
    (set.pay i m payout).Outstanding ↔ set.milestones.countP (·.status ≠ .completed) ≠ 1 := by
  rw [Ne, ← all_completed_iff hm hnotDone]
  simp [MilestoneSet.Outstanding, MilestoneSet.pay, MilestoneSet.mark]

end Marking

/-! ## What every step keeps -/

/-- The record of a milestone escrow keeps to its plan. -/
theorem Plan.Agrees.kept {plan : Plan} (hagrees : plan.Agrees e) (hc : Consistent H s)
    (he : s.escrow id = some e) (hset : s.milestones id = some set) {i : Inputs H}
    (hstep : Step H i s s') : ∃ e', s'.escrow id = some e' ∧ plan.Agrees e' := by
  obtain ⟨e', he', hterms, _⟩ := hc.terms he (hc.funded he hset).2.notCreated hstep
  exact ⟨e', he', hterms.sender.trans hagrees.sender, hterms.recipient.trans hagrees.recipient,
    hterms.assets.trans hagrees.assets, hterms.fundedAmount.trans hagrees.fundedAmount⟩

namespace Phased

variable {plan : Plan} {tr : List (Entry (State World) (Inputs H))}
  {x : Entry (State World) (Inputs H)} {set' : MilestoneSet}

/-- An entry that pays nothing and changes nothing of what was paid. -/
theorem keep (h : Phased plan id tr s set) (hpays : pays id x = none)
    (hreturns : returns id x = none)
    (hout : (x.post.account id).outflows = (x.pre.account id).outflows)
    (hrecord : ∃ e, s'.escrow id = some e ∧ plan.Agrees e)
    (hstored : s'.milestones id = some set')
    (hschedule : set'.milestones.map (fun m => (m.releaseBps, m.index))
      = set.milestones.map fun m => (m.releaseBps, m.index))
    (hdone : ∀ i, set'.Done i ↔ set.Done i) (houtstanding : set.Outstanding → set'.Outstanding)
    (hreleased : set'.releasedAmount = set.releasedAmount)
    (hcancelled : set'.cancelled = set.cancelled) : Phased plan id (tr ++ [x]) s' set' where
  record := hrecord
  stored := hstored
  schedule := hschedule.trans h.schedule
  once := by
    rw [log_none hpays]
    exact h.once
  done := by
    intro i
    rw [log_none hpays, hdone]
    exact h.done i
  released := by
    rw [log_none hpays, hreleased]
    exact h.released
  within := by
    rw [hreleased]
    exact h.within
  completed := by
    intro hnone
    rw [hreleased]
    exact h.completed fun hsome => hnone (houtstanding hsome)
  live := by
    rw [log_none hreturns, hcancelled]
    exact h.live
  cancelled := by
    rw [log_none hreturns, hcancelled, hreleased]
    exact h.cancelled
  admitted := by
    intro y hy
    rcases List.mem_append.1 hy with hy | hy
    · exact h.admitted y hy
    · rw [List.mem_singleton] at hy
      subst hy
      exact .nothing hpays hreturns hout

/-- An entry that pays a pending milestone. -/
theorem pay (h : Phased plan id tr s set) {i : ℕ} {m : Milestone} {payout : ℤ}
    (hpays : pays id x = some (i, payout)) (hreturns : returns id x = none)
    (hpre : x.pre = s) (hpost : x.post = s') (hlive : set.cancelled = false)
    (hm : set.milestones[i]? = some m) (hpending : m.status = .pending)
    (hout : (x.post.account id).outflows
      = (x.pre.account id).outflows ++ [⟨id, plan.asset, plan.recipient, payout⟩])
    (hrecord : ∃ e, s'.escrow id = some e ∧ plan.Agrees e)
    (hstored : s'.milestones id = some (set.pay i m payout))
    (hwithin : set.releasedAmount + payout ≤ plan.amount)
    (hlast : ¬ (set.pay i m payout).Outstanding → set.releasedAmount + payout = plan.amount)
    (hfloor : (set.pay i m payout).Outstanding →
      payout = plan.amount * m.releaseBps / 10000) :
    Phased plan id (tr ++ [x]) s' (set.pay i m payout) where
  record := hrecord
  stored := hstored
  schedule := (mark_schedule hm).trans h.schedule
  once := by
    rw [log_some hpays, List.map_append, List.nodup_append_comm]
    refine List.nodup_cons.2 ⟨?_, h.once⟩
    intro hpaid
    obtain ⟨m', hm', hstatus⟩ := (h.done i).1 hpaid
    obtain rfl : m = m' := Option.some.inj (hm.symm.trans hm')
    rw [hpending] at hstatus
    cases hstatus
  done := by
    intro j
    have hmarked : (set.pay i m payout).Done j ↔ (set.mark i m .completed).Done j := Iff.rfl
    rw [hmarked, mark_done hm, log_some hpays, List.map_append, List.mem_append, h.done]
    by_cases hj : j = i
    · simp [hj]
    · simp [hj]
  released := by
    rw [log_some hpays, List.map_append, List.sum_append, h.released]
    simp [MilestoneSet.pay]
  within := hwithin
  completed := hlast
  live := by
    intro _
    rw [log_none hreturns]
    exact h.live hlive
  cancelled := by
    intro hcancelled
    have hsame : set.cancelled = true := hcancelled
    rw [hlive] at hsame
    cases hsame
  admitted := by
    intro y hy
    rcases List.mem_append.1 hy with hy | hy
    · exact h.admitted y hy
    · rw [List.mem_singleton] at hy
      subst hy hpre hpost
      exact .payout hpays h.stored hstored hm hpending (index_of_schedule h.schedule hm).2 hout
        hfloor

/-- An entry that returns the rest. -/
theorem cancel (h : Phased plan id tr s set) {legs : List Leg} (hpays : pays id x = none)
    (hreturns : returns id x = some (plan.amount - set.releasedAmount))
    (hlive : set.cancelled = false)
    (hout : (x.post.account id).outflows = (x.pre.account id).outflows ++ legs)
    (hlegs : ∀ leg ∈ legs, leg.asset = plan.asset ∧ leg.party = plan.sender)
    (htotal : (legs.map (·.amount)).sum = plan.amount - set.releasedAmount)
    (hrecord : ∃ e, s'.escrow id = some e ∧ plan.Agrees e)
    (hstored : s'.milestones id = some set.cancel) : Phased plan id (tr ++ [x]) s' set.cancel where
  record := hrecord
  stored := hstored
  schedule := cancel_schedule.trans h.schedule
  once := by
    rw [log_none hpays]
    exact h.once
  done := by
    intro i
    rw [log_none hpays, cancel_done]
    exact h.done i
  released := by
    rw [log_none hpays]
    exact h.released
  within := h.within
  completed := fun hnone => h.completed fun hsome => hnone (cancel_outstanding hsome)
  live := fun hcancelled => by cases hcancelled
  cancelled := by
    intro _
    rw [log_some hreturns, h.live hlive, List.nil_append, List.sum_singleton]
    show set.releasedAmount + _ = _
    ring
  admitted := by
    intro y hy
    rcases List.mem_append.1 hy with hy | hy
    · exact h.admitted y hy
    · rw [List.mem_singleton] at hy
      subst hy
      exact .rest hreturns hout hlegs htotal

end Phased

/-- The transfers that return the rest of a one-asset escrow move exactly it. -/
theorem Sends.total {payee asset : Address} {units : ℤ} {legs : List Leg}
    (h : Sends id e payee units legs) (hassets : e.assets = [⟨asset, e.fundedAmount⟩])
    (hpos : 0 < e.fundedAmount) (hunits : 0 ≤ units) :
    (∀ leg ∈ legs, leg.asset = asset ∧ leg.party = payee) ∧ (legs.map (·.amount)).sum = units := by
  have hwhole : (e.fundedAmount * units).tdiv e.fundedAmount = units :=
    Int.mul_tdiv_cancel_left _ hpos.ne'
  rw [h.eq hunits, shareLegs, hassets]
  rcases hunits.eq_or_lt with hzero | hunits
  · subst hzero
    simp
  · simp [hwhole, hunits]

theorem pays_of_not {x : Entry (State World) (Inputs H)} {env : Env H.self}
    (hinput : x.input = .invoke env call) (hcall : ¬ call.PaysPhase id) : pays id x = none := by
  unfold pays
  rw [hinput]
  cases call with
  | releaseMilestone => exact if_neg hcall
  | _ => rfl

theorem returns_of_not {x : Entry (State World) (Inputs H)} {env : Env H.self}
    (hinput : x.input = .invoke env call) (hcall : ¬ call.PaysPhase id) : returns id x = none := by
  unfold returns
  rw [hinput]
  cases call with
  | cancel => exact if_neg hcall
  | cancelRemainingMilestones => exact if_neg hcall
  | _ => rfl

/-- What an entry that sent `legs` paid. -/
theorem sent_of_legs {a a' : Account} {legs : List Leg} (h : a'.outflows = a.outflows ++ legs) :
    a'.sent - a.sent = (legs.map (·.amount)).sum := by
  unfold Account.sent
  rw [h, List.map_append, List.sum_append]
  ring

/-- The payout of a milestone: within what is left, the rest for the last one, and otherwise the
floor of its share. -/
theorem Phased.payout_bounds {plan : Plan} {tr : List (Entry (State World) (Inputs H))}
    {i : ℕ} {m : Milestone} (h : Phased plan id tr s set) (hagrees : plan.Agrees e)
    (hwf : WellFormed H.self e) (hfunded : (s.account id).Funded e) (hstate : e.state = .funded)
    (hm : set.milestones[i]? = some m) (hpending : m.status = .pending) :
    set.releasedAmount + milestonePayout e set m ≤ plan.amount ∧
      (¬ (set.pay i m (milestonePayout e set m)).Outstanding →
        set.releasedAmount + milestonePayout e set m = plan.amount) ∧
      ((set.pay i m (milestonePayout e set m)).Outstanding →
        milestonePayout e set m = plan.amount * m.releaseBps / 10000) := by
  have hpos := hfunded.fundedAmount_pos hwf
  have hreleased := h.within
  rw [← hagrees.fundedAmount] at hreleased
  have hnotDone : m.status ≠ .completed := by simp [hpending]
  obtain ⟨_, hwithin, hlast, _⟩ := milestonePayout_bounds hagrees.assets hagrees.fundedAmount hpos
    (hfunded.progress set h.stored (.inl hstate)) hreleased hm hpending
  rw [hagrees.fundedAmount] at hwithin hlast
  rw [pay_outstanding_iff hm hnotDone]
  refine ⟨hwithin, fun hall => hlast (not_not.1 hall), ?_⟩
  intro hnotLast
  have hbps : (0 : ℤ) ≤ m.releaseBps := Int.natCast_nonneg _
  have htotal : totalAmount e.assets = plan.amount := by simp [hagrees.assets, totalAmount]
  have hamount : 0 ≤ plan.amount := hagrees.fundedAmount ▸ hpos.le
  rw [milestonePayout, if_neg hnotLast, htotal]
  exact Int.tdiv_eq_ediv_of_nonneg (mul_nonneg hamount hbps)

/-- **Every step keeps the escrow to its plan.** -/
theorem Phased.step {plan : Plan} {tr : List (Entry (State World) (Inputs H))}
    (h : Phased plan id tr s set) (hc : Consistent H s) {i : Inputs H}
    (hstep : Step H i s s') : ∃ set', Phased plan id (tr ++ [⟨s, i, s'⟩]) s' set' := by
  obtain ⟨e, he, hagrees⟩ := h.record
  have hrecord := hagrees.kept hc he h.stored hstep
  obtain ⟨hwf, hfunded⟩ := hc.funded he h.stored
  cases i with
  | outside time w =>
      obtain ⟨_, rfl⟩ := hstep
      exact ⟨set, h.keep rfl rfl rfl hrecord h.stored rfl (fun _ => Iff.rfl) (fun hs => hs) rfl rfl⟩
  | invoke env call =>
      have hexec : exec H env s call = .ok s' := hstep
      have hphase : Phase s call id e set s' := exec_phase hc he h.stored hexec
      cases hphase with
      | kept hcall hout hstored =>
          exact ⟨set, h.keep (pays_of_not rfl hcall) (returns_of_not rfl hcall) hout hrecord hstored
            rfl (fun _ => Iff.rfl) (fun hs => hs) rfl rfl⟩
      | @marked i m status hcall hlive hm hnotDone hstatus hout hstored =>
          refine ⟨_, h.keep (pays_of_not rfl hcall) (returns_of_not rfl hcall) hout hrecord hstored
            (mark_schedule hm) ?_ (fun _ => mark_outstanding hm hstatus) rfl rfl⟩
          intro j
          rw [mark_done hm]
          by_cases hj : j = i
          · subst hj
            simp [MilestoneSet.Done, hm, hnotDone, hstatus]
          · rw [if_neg hj]
      | @released caller index i m primary hcall hlive hstate hfind hpending hprimary hout hstored =>
          obtain ⟨hm, hindex⟩ := findMilestone_spec hfind
          have hi : index = i := hindex.symm.trans (index_of_schedule h.schedule hm).1
          obtain ⟨hwithin, hlast, hfloor⟩ := h.payout_bounds hagrees hwf hfunded hstate hm hpending
          rw [hagrees.assets, List.head?_cons, Option.some.injEq] at hprimary
          subst hcall hi hprimary
          rw [hagrees.recipient] at hout
          refine ⟨_, h.pay ?_ rfl rfl rfl hlive hm hpending hout hrecord hstored hwithin hlast hfloor⟩
          show (if id = id then _ else _) = _
          rw [if_pos rfl, sent_of_legs hout, List.map_singleton, List.sum_singleton]
      | @cancelled caller legs hcall hlive hstate hsends hout hstored =>
          have hassets : e.assets = [⟨plan.asset, e.fundedAmount⟩] := by
            rw [hagrees.assets, hagrees.fundedAmount]
          have hrest : 0 ≤ e.fundedAmount - set.releasedAmount := by
            rw [hagrees.fundedAmount, sub_nonneg]
            exact h.within
          obtain ⟨hlegs, htotal⟩ := hsends.total hassets (hfunded.fundedAmount_pos hwf) hrest
          rw [hagrees.sender] at hlegs
          rw [hagrees.fundedAmount] at htotal
          have hsent := (sent_of_legs hout).trans htotal
          refine ⟨_, h.cancel ?_ ?_ hlive hout hlegs htotal hrecord hstored⟩
          · rcases hcall with rfl | rfl <;> rfl
          · rcases hcall with rfl | rfl <;> simp [returns, hsent]

/-! ## Runs -/

/-- The plan of a call that opens a milestone escrow. -/
theorem phased_of_deposit {sender recipient arbiter asset : Address} {amount : ℤ}
    {deadline : UInt64} {weights : List ℕ}
    (h : depositWithMilestones H env s sender recipient arbiter asset amount deadline weights
      = .ok (id, s')) :
    ∃ set, Phased (H := H) ⟨sender, recipient, asset, amount, weights⟩ id [] s' set := by
  obtain ⟨w, _, hpos, _, hbps, rfl, _, rfl⟩ := depositWithMilestones_ok h
  have hweights : weights ≠ [] := by
    rintro rfl
    cases hbps
  refine ⟨_, ?_, Function.update_self _ _ _, ?_, List.nodup_nil, ?_, rfl, hpos.le, ?_,
    fun _ => rfl, ?_, by simp⟩
  · exact ⟨_, Function.update_self _ _ _, rfl, rfl, rfl, rfl⟩
  · rw [List.map_map]
    exact List.map_id _
  · intro i
    simp [log, MilestoneSet.Done]
  · intro hnone
    refine absurd ?_ hnone
    obtain ⟨bps, rest, rfl⟩ := List.exists_cons_of_ne_nil hweights
    exact ⟨⟨0, bps, .pending⟩, by simp, by simp⟩
  · intro hcancelled
    cases hcancelled

/-- A deposit of 100 in a third and two thirds. -/
def phasedDeposit : Call :=
  .depositWithMilestones (.account 1) (.account 2) (.account 3) (.contract 7) 100 50 [3333, 6667]

/-- The first milestone is released, and the rest is cancelled while the second is disputed. -/
def phasedRun : Script Call :=
  [(signedBy 1 [1], phasedDeposit),
    (signedBy 2 [3], .releaseMilestone (.account 3) 1 0),
    (signedBy 3 [3], .disputeMilestone (.account 3) 1 1),
    (signedBy 4 [1], .cancelRemainingMilestones (.account 1) 1)]

end EscrowContract
end Astroid
