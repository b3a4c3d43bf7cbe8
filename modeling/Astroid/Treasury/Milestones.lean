import Astroid.Lib.Instalments
import Astroid.Treasury.Effects

/-!
# Milestone disbursements

A schedule is a total in equal instalments.  `init_milestone_disbursement` opens it under a
fresh id, `release_next_milestone` pays the next instalment and counts it, and no other call
touches a schedule (`exec_schedules`).  So what the releases of a schedule paid over a run are
the first instalments of its total, as many as its counter says (`Scheduled.step`), whatever
else happens in between.
-/

namespace Astroid
namespace TreasuryContract

open Machine Outcome

variable {World : Type} {H : TreasuryHost World} {env : Env H.self} {s s' : State World}
  {call : Call} {id : ℕ} {d : MilestoneDisbursement}

/-! ## What a call does to the schedules -/

/-- The schedules and their counter are as they were. -/
structure KeepsSchedules (s s' : State World) : Prop where
  milestone : s'.milestone = s.milestone
  count : s'.milestoneCount = s.milestoneCount

/-- A schedule with something in every instalment. -/
structure MilestoneDisbursement.Sound (d : MilestoneDisbursement) : Prop where
  milestones_pos : 0 < d.milestones
  part : d.amountPerMilestone = d.totalAmount / d.milestones
  part_pos : 0 < d.amountPerMilestone
  disbursed_le : d.disbursed ≤ d.milestones

/-- The call releases the next milestone of schedule `id`. -/
def Call.Releases (id : ℕ) : Call → Prop
  | .releaseNextMilestone _ id' => id' = id
  | _ => False

/-- What a call that returned did to the schedules. -/
inductive Schedules (s : State World) (call : Call) (s' : State World) : Prop
  | kept : (∀ id, ¬ call.Releases id) → KeepsSchedules s s' → Schedules s call s'
  | opened {d : MilestoneDisbursement} : (∀ id, ¬ call.Releases id) → d.Sound → d.disbursed = 0 →
      s'.milestone = Function.update s.milestone (s.milestoneCount + 1) (some d) →
      s'.milestoneCount = s.milestoneCount + 1 → Schedules s call s'
  | released {caller : Address} {id : ℕ} {d : MilestoneDisbursement} {amount : ℤ} :
      call = .releaseNextMilestone caller id → s.milestone id = some d →
      d.disbursed < d.milestones → d.due = .ok amount →
      s'.milestone = Function.update s.milestone id (some { d with disbursed := d.disbursed + 1 }) →
      s'.milestoneCount = s.milestoneCount →
      s'.outflows = s.outflows ++ [⟨d.asset, d.payee, amount⟩] → Schedules s call s'

/-- What `init_milestone_disbursement` opens. -/
theorem initMilestoneDisbursement_opens {caller asset payee : Address} {totalAmount : ℤ}
    {milestones : ℕ}
    (h : initMilestoneDisbursement H env s caller asset payee totalAmount milestones
      = .ok (id, s')) :
    ∃ d : MilestoneDisbursement, d.Sound ∧
      d = ⟨totalAmount, milestones, 0, totalAmount / milestones, asset, payee⟩ ∧
      id = s.milestoneCount + 1 ∧ s'.milestone = Function.update s.milestone id (some d) ∧
      s'.milestoneCount = id := by
  obtain ⟨hpos, hmilestones, hpart, rfl, rfl⟩ := initMilestoneDisbursement_ok h
  have hfloor : totalAmount.tdiv milestones = totalAmount / milestones :=
    Int.tdiv_eq_ediv_of_nonneg hpos.le
  rw [hfloor] at hpart ⊢
  have hnonneg : 0 ≤ totalAmount / milestones := Int.ediv_nonneg hpos.le (by omega)
  exact ⟨_, ⟨Nat.pos_of_ne_zero hmilestones, rfl, lt_of_le_of_ne hnonneg hpart.symm,
    Nat.zero_le _⟩, rfl, rfl, rfl, rfl⟩

theorem releaseNextMilestone_schedules {caller : Address}
    (h : releaseNextMilestone H env s caller id = .ok s') :
    Schedules s (.releaseNextMilestone caller id) s' := by
  obtain ⟨_, d, amount, _, _, _, _, _, hd, hleft, _, hdue, _, _, hdebit, hpay, rfl⟩ :=
    releaseNextMilestone_steps h
  obtain rfl := debit_ok hdebit
  obtain ⟨_, _, _, rfl⟩ := payOut_ok hpay
  exact .released rfl hd hleft hdue rfl rfl rfl

/-- **No call but the two of a schedule touches one.** -/
theorem exec_schedules (h : exec H env s call = .ok s') : Schedules s call s' := by
  have hother : ¬ call.EditsRegister → KeepsSchedules s s' := by
    intro hcall
    have hkeeps := exec_registers hcall h
    exact ⟨hkeeps.milestone, hkeeps.milestoneCount⟩
  cases call with
  | addApprovedAsset =>
      obtain ⟨_, _, rfl⟩ := addApprovedAsset_ok h
      exact .kept (fun _ => not_false) ⟨rfl, rfl⟩
  | removeApprovedAsset =>
      obtain ⟨_, rfl⟩ := removeApprovedAsset_ok h
      exact .kept (fun _ => not_false) ⟨rfl, rfl⟩
  | initMilestoneDisbursement =>
      obtain ⟨id, h⟩ := snd_map_ok h
      obtain ⟨d, hsound, rfl, rfl, hmilestone, hcount⟩ := initMilestoneDisbursement_opens h
      exact .opened (fun _ => not_false) hsound rfl hmilestone hcount
  | releaseNextMilestone => exact releaseNextMilestone_schedules h
  | _ => exact .kept (fun _ => not_false) (hother not_false)

/-! ## What a release pays -/

/-- What a release pays is the instalment the counter is at. -/
theorem MilestoneDisbursement.Sound.due_eq (h : d.Sound) {amount : ℤ} (hdue : d.due = .ok amount) :
    amount = Instalments.instalment d.totalAmount d.milestones d.disbursed := by
  simp only [due] at hdue
  unfold Instalments.instalment
  split at hdue
  · rename_i hlast
    simp only [bind_eq_ok, checkedMul_eq_ok, checkedSub_eq_ok] at hdue
    obtain ⟨_, ⟨_, rfl⟩, _, rfl⟩ := hdue
    rw [if_pos hlast, h.part]
  · rename_i hearlier
    cases hdue
    rw [if_neg hearlier, h.part]

/-- **The instalment is always computed**: neither the product nor the difference of the last
one leaves the range of the total. -/
theorem MilestoneDisbursement.Sound.due_returns (h : d.Sound) (hrange : IsI128 d.totalAmount) :
    ∃ amount, d.due = .ok amount := by
  have hpart := h.part
  have hpos := h.part_pos
  have hlast : d.totalAmount / d.milestones
      ≤ Instalments.instalment d.totalAmount d.milestones (d.milestones - 1) :=
    Instalments.le_instalment_last h.milestones_pos
  rw [Instalments.instalment_last, ← hpart] at hlast
  have hproduct : 0 ≤ d.amountPerMilestone * ↑(d.milestones - 1) :=
    mul_nonneg hpos.le (Int.natCast_nonneg _)
  have hmax := hrange.2
  have hmin : i128Min ≤ 0 := by decide
  have hmul : IsI128 (d.amountPerMilestone * ↑(d.milestones - 1)) := ⟨by linarith, by linarith⟩
  have hsub : IsI128 (d.totalAmount - d.amountPerMilestone * ↑(d.milestones - 1)) :=
    ⟨by linarith, by linarith⟩
  simp only [due]
  split
  · simp only [bind_eq_ok, checkedMul_eq_ok, checkedSub_eq_ok]
    exact ⟨_, _, ⟨hmul, rfl⟩, hsub, rfl⟩
  · exact ⟨_, rfl⟩

/-! ## The releases of a run -/

/-- The transfer that an entry of a run made as a release of schedule `id`. -/
def releases (id : ℕ) (q : Entry (State World) (Inputs H)) : Option Outflow :=
  match q.input with
  | .invoke _ (.releaseNextMilestone _ id') => if id' = id then q.post.outflows.getLast? else none
  | _ => none

theorem releases_none (h : ∀ id, ¬ call.Releases id) :
    releases (H := H) id ⟨s, .invoke env call, s'⟩ = none := by
  cases call with
  | releaseNextMilestone _ id' => exact absurd rfl (h id')
  | _ => rfl

/-- The transfers `outs` are the first instalments of the schedule, of its asset and to its
payee, as many as it counts. -/
structure MilestoneDisbursement.PaidBy (d : MilestoneDisbursement) (outs : List Outflow) :
    Prop where
  sound : d.Sound
  amounts : outs.map (·.amount) = Instalments.paid d.totalAmount d.milestones d.disbursed
  payee : ∀ out ∈ outs, out.asset = d.asset ∧ out.recipient = d.payee

/-- The next release pays the next instalment. -/
theorem MilestoneDisbursement.PaidBy.next {outs : List Outflow} (h : d.PaidBy outs)
    (hleft : d.disbursed < d.milestones) {amount : ℤ} (hdue : d.due = .ok amount) :
    MilestoneDisbursement.PaidBy { d with disbursed := d.disbursed + 1 }
      (outs ++ [⟨d.asset, d.payee, amount⟩]) := by
  refine ⟨⟨h.sound.milestones_pos, h.sound.part, h.sound.part_pos, hleft⟩, ?_, ?_⟩
  · rw [List.map_append, h.amounts, Instalments.paid_succ, h.sound.due_eq hdue]
    rfl
  · intro out hout
    rcases List.mem_append.1 hout with hout | hout
    · exact h.payee out hout
    · rw [List.mem_singleton] at hout
      subst hout
      exact ⟨rfl, rfl⟩

/-- The releases of a run and the schedules it leaves. -/
structure Scheduled (tr : List (Entry (State World) (Inputs H))) (s : State World) : Prop where
  unused : ∀ id, s.milestoneCount < id → s.milestone id = none
  idle : ∀ id, s.milestone id = none → log (releases id) tr = []
  paid : ∀ id d, s.milestone id = some d → d.PaidBy (log (releases id) tr)

theorem Fresh.scheduled (h : Fresh H s) :
    Scheduled ([] : List (Entry (State World) (Inputs H))) s := by
  refine ⟨fun id _ => h.milestone id, fun _ _ => rfl, ?_⟩
  intro id d hd
  rw [h.milestone id] at hd
  cases hd

namespace Scheduled

variable {tr : List (Entry (State World) (Inputs H))} {q : Entry (State World) (Inputs H)}

/-- An entry that releases nothing and leaves the schedules alone. -/
theorem keep (h : Scheduled tr q.pre) (hnone : ∀ id, releases id q = none)
    (hkeeps : KeepsSchedules q.pre q.post) : Scheduled (tr ++ [q]) q.post := by
  obtain ⟨hmilestone, hcount⟩ := hkeeps
  refine ⟨?_, ?_, ?_⟩
  · rw [hmilestone, hcount]
    exact h.unused
  · intro id
    rw [hmilestone, log_none (hnone id)]
    exact h.idle id
  · intro id
    rw [hmilestone, log_none (hnone id)]
    exact h.paid id

/-- An entry that opens a schedule under the next id. -/
theorem openNext (h : Scheduled tr q.pre) (hnone : ∀ id, releases id q = none) (hsound : d.Sound)
    (hzero : d.disbursed = 0)
    (hmilestone : q.post.milestone
      = Function.update q.pre.milestone (q.pre.milestoneCount + 1) (some d))
    (hcount : q.post.milestoneCount = q.pre.milestoneCount + 1) : Scheduled (tr ++ [q]) q.post := by
  have hidle := h.idle _ (h.unused (q.pre.milestoneCount + 1) (by omega))
  refine ⟨?_, ?_, ?_⟩
  · intro id hid
    rw [hmilestone, Function.update_of_ne (by omega)]
    exact h.unused id (by omega)
  all_goals
    intro id
    rw [hmilestone, log_none (hnone id)]
    by_cases hid : id = q.pre.milestoneCount + 1
  · subst hid
    exact fun _ => hidle
  · rw [Function.update_of_ne hid]
    exact h.idle id
  · subst hid
    rw [Function.update_self, hidle]
    rintro d' ⟨rfl⟩
    refine ⟨hsound, ?_, by simp⟩
    rw [hzero]
    rfl
  · rw [Function.update_of_ne hid]
    exact h.paid id

/-- An entry that releases an instalment of schedule `id`. -/
theorem release (h : Scheduled tr q.pre) {amount : ℤ} (hd : q.pre.milestone id = some d)
    (hleft : d.disbursed < d.milestones) (hdue : d.due = .ok amount)
    (hreleases : releases id q = some ⟨d.asset, d.payee, amount⟩)
    (hothers : ∀ id', id' ≠ id → releases id' q = none)
    (hmilestone : q.post.milestone
      = Function.update q.pre.milestone id (some { d with disbursed := d.disbursed + 1 }))
    (hcount : q.post.milestoneCount = q.pre.milestoneCount) : Scheduled (tr ++ [q]) q.post := by
  have hnext := (h.paid id d hd).next hleft hdue
  refine ⟨?_, ?_, ?_⟩
  · intro id' hid'
    have hunused := h.unused id' (hcount ▸ hid')
    rw [hmilestone, Function.update_of_ne ?_]
    · exact hunused
    · rintro rfl
      rw [hd] at hunused
      cases hunused
  all_goals
    intro id'
    rw [hmilestone]
    by_cases hid : id' = id
  · subst hid
    rw [Function.update_self]
    exact nofun
  · rw [Function.update_of_ne hid, log_none (hothers id' hid)]
    exact h.idle id'
  · subst hid
    rw [Function.update_self, log_some hreleases]
    rintro d' ⟨rfl⟩
    exact hnext
  · rw [Function.update_of_ne hid, log_none (hothers id' hid)]
    exact h.paid id'

/-- **Every step of a run pays by the schedules.** -/
theorem step (h : Scheduled tr s) {i : Inputs H} (hstep : Step H i s s') :
    Scheduled (tr ++ [⟨s, i, s'⟩]) s' := by
  cases i with
  | outside time w =>
      obtain ⟨_, rfl⟩ := hstep
      exact h.keep (q := ⟨s, .outside time w, _⟩) (fun _ => rfl) ⟨rfl, rfl⟩
  | invoke env call =>
      have hschedules : Schedules s call s' := exec_schedules hstep
      cases hschedules with
      | kept hcall hkeeps =>
          exact h.keep (q := ⟨s, .invoke env call, s'⟩) (fun _ => releases_none hcall) hkeeps
      | opened hcall hsound hzero hmilestone hcount =>
          exact h.openNext (q := ⟨s, .invoke env call, s'⟩) (fun _ => releases_none hcall) hsound
            hzero hmilestone hcount
      | @released caller id d amount hcall hd hleft hdue hmilestone hcount houtflows =>
          subst hcall
          refine h.release (q := ⟨s, .invoke env (.releaseNextMilestone caller id), s'⟩) hd hleft
            hdue ?_ ?_ hmilestone hcount
          · show (if id = id then s'.outflows.getLast? else none) = _
            rw [if_pos rfl, houtflows, List.getLast?_concat]
          · intro id' hne
            exact if_neg hne.symm

/-- A step changes the counter of a schedule at most. -/
theorem terms (h : Scheduled tr s) {i : Inputs H} (hstep : Step H i s s')
    (hd : s.milestone id = some d) : ∃ k, s'.milestone id = some { d with disbursed := k } := by
  cases i with
  | outside time w =>
      obtain ⟨_, rfl⟩ := hstep
      exact ⟨d.disbursed, hd⟩
  | invoke env call =>
      have hschedules : Schedules s call s' := exec_schedules hstep
      cases hschedules with
      | kept _ hkeeps => exact ⟨d.disbursed, (congrFun hkeeps.milestone id).trans hd⟩
      | opened _ _ _ hmilestone =>
          have hne : id ≠ s.milestoneCount + 1 := by
            rintro rfl
            rw [h.unused _ (by omega)] at hd
            cases hd
          rw [hmilestone, Function.update_of_ne hne]
          exact ⟨d.disbursed, hd⟩
      | @released _ id' d' _ _ hd' _ _ hmilestone =>
          rw [hmilestone]
          by_cases hid : id = id'
          · subst hid
            obtain rfl := Option.some.inj (hd'.symm.trans hd)
            exact ⟨d'.disbursed + 1, Function.update_self _ _ _⟩
          · exact ⟨d.disbursed, (Function.update_of_ne hid _ _).trans hd⟩

end Scheduled

/-- **The releases of any run are the first instalments of their schedules.** -/
theorem run_scheduled {tr : List (Entry (State World) (Inputs H))} {t : ℕ}
    (hpath : (machine H).Path anyInput tr s t) : Scheduled tr s :=
  hpath.history (P := fun tr s _ => Scheduled tr s) (fun _ _ => Fresh.scheduled)
    fun _ _ _ _ _ _ h _ _ hstep => h.step hstep

/-- What was opened keeps its terms to the end of the run. -/
theorem terms_after {tr₁ tr₂ : List (Entry (State World) (Inputs H))}
    {q : Entry (State World) (Inputs H)} {t : ℕ}
    (hpath : (machine H).Path anyInput (tr₁ ++ q :: tr₂) s t) (hd : q.post.milestone id = some d) :
    ∃ k, s.milestone id = some { d with disbursed := k } := by
  refine hpath.after (Q := fun _ s => ∃ k, s.milestone id = some { d with disbursed := k })
    ⟨d.disbursed, hd⟩ ?_
  rintro _ e _ ⟨tr, t, hbefore⟩ _ hstep ⟨k, hk⟩
  obtain ⟨k', hk'⟩ := (run_scheduled hbefore).terms hstep hk
  exact ⟨k', hk'⟩

/-- **Milestone disbursements sum exactly.**  Of a schedule that was opened for `totalAmount` in
`milestones` parts, whatever else the run did: the releases paid at most `milestones` times, each
time something and in the schedule's asset to its payee; all but the last paid the floored part;
before the last they add up to that many parts, and with the last to the total; the next payout
is always computed; and a refused release leaves the schedule as it is. -/
theorem milestone_disbursement_exact {tr₁ tr₂ : List (Entry (State World) (Inputs H))}
    {q : Entry (State World) (Inputs H)} {t : ℕ}
    (hpath : (machine H).Path anyInput (tr₁ ++ q :: tr₂) s t) {caller asset payee : Address}
    {totalAmount : ℤ} {milestones : ℕ} (hrange : IsI128 totalAmount)
    (hinit : initMilestoneDisbursement H env q.pre caller asset payee totalAmount milestones
      = .ok (id, q.post)) :
    let outs := log (releases id) (tr₁ ++ q :: tr₂)
    let paid := outs.map (·.amount)
    ∃ d, s.milestone id = some d ∧ d.disbursed = paid.length ∧ d.milestones = milestones ∧
      (∀ out ∈ outs, out.asset = asset ∧ out.recipient = payee ∧ 0 < out.amount) ∧
      paid.length ≤ milestones ∧
      (∀ k < paid.length, k < milestones - 1 → paid[k]? = some (totalAmount / milestones)) ∧
      (paid.length < milestones → paid.sum = paid.length * (totalAmount / milestones)) ∧
      (paid.length = milestones → paid.sum = totalAmount) ∧
      (d.disbursed < d.milestones → ∃ amount, d.due = .ok amount) ∧
      ∀ (env' : Env H.self) (caller' : Address) (f : Fault),
        releaseNextMilestone H env' s caller' id = .error f →
        ((deployment H).after s (env', .releaseNextMilestone caller' id)).milestone id = some d := by
  obtain ⟨d₀, _, rfl, _, hmilestone, _⟩ := initMilestoneDisbursement_opens hinit
  have hopened := congrFun hmilestone id
  rw [Function.update_self] at hopened
  obtain ⟨k, hd⟩ := terms_after hpath hopened
  obtain ⟨hsound, hamounts, hpayee⟩ := (run_scheduled hpath).paid id _ hd
  dsimp only at hsound hamounts hpayee ⊢
  have hpart : 0 < totalAmount / milestones := hsound.part_pos
  rw [hamounts, Instalments.length_paid]
  refine ⟨_, hd, rfl, rfl, ?_, hsound.disbursed_le, ?_, ?_, ?_, ?_, ?_⟩
  · intro out hout
    obtain ⟨hasset, hrecipient⟩ := hpayee out hout
    refine ⟨hasset, hrecipient, ?_⟩
    have hmem : out.amount ∈ Instalments.paid totalAmount milestones k := by
      rw [← hamounts]
      exact List.mem_map.2 ⟨out, hout, rfl⟩
    exact Instalments.pos_of_mem_paid hsound.milestones_pos hpart hmem
  · intro j hk hj
    simp [Instalments.paid, List.getElem?_range hk, Instalments.instalment_of_lt hj]
  · exact Instalments.sum_paid_of_lt
  · rintro rfl
    exact Instalments.sum_paid hsound.milestones_pos
  · exact fun _ => hsound.due_returns hrange
  · intro env' caller' f hrefused
    rw [Deployment.after_of_error hrefused]
    exact hd

/-- A schedule of 100 in three parts. -/
def thirds : Env (.contract 0) × Call :=
  (signedBy 2 [0], .initMilestoneDisbursement (.account 0) (.contract 7) (.account 2) 100 3)

/-- All three parts are released, with an allowance set in between. -/
def released : Script Call :=
  [(signedBy 3 [0], .releaseNextMilestone (.account 0) 1),
    (signedBy 4 [0], .setAllowance (.account 0) (.account 5) (.account 2) (.contract 7) 5 0),
    (signedBy 5 [0], .releaseNextMilestone (.account 0) 1),
    (signedBy 6 [0], .releaseNextMilestone (.account 0) 1)]

/-- The three releases pay 33, 33 and 34, which are the 100, and a fourth one is refused. -/
theorem milestone_disbursement_exact_thirds :
    let s := play (deployed (funded 0)) opening
    let paid := (log (releases 1) ((deployment referenceHost).trace (deployed (funded 0)) opening ++
      (deployment referenceHost).trace s (thirds :: released))).map (·.amount)
    paid = [33, 33, 34] ∧ paid.sum = 100 ∧
      ((deployment referenceHost).after (play s (thirds :: released))
        (signedBy 7 [0], .releaseNextMilestone (.account 0) 1)).milestone 1
          = (play s (thirds :: released)).milestone 1 := by
  have hopening : (deployment referenceHost).plays (deployed (funded 0)) 0 opening = true := by
    decide
  have hmore : (deployment referenceHost).plays (play (deployed (funded 0)) opening) 0
      (thirds :: released) = true := by decide
  have hpath := Deployment.path_playing
    (Deployment.path_trace (funded_fresh le_rfl) hopening) hmore
  have hinit : initMilestoneDisbursement referenceHost (signedBy 2 [0])
      (play (deployed (funded 0)) opening) (.account 0) (.contract 7) (.account 2) 100 3
      = .ok (1, (deployment referenceHost).after (play (deployed (funded 0)) opening) thirds) := rfl
  have hrange : IsI128 100 := ⟨by decide, by decide⟩
  obtain ⟨d, hd, _, _, _, _, _, _, hsum, _, hrefused⟩ :=
    milestone_disbursement_exact hpath hrange hinit
  refine ⟨rfl, hsum rfl, ?_⟩
  exact (hrefused (signedBy 7 [0]) (.account 0) (.error .invalidState) rfl).trans hd.symm

end TreasuryContract
end Astroid
