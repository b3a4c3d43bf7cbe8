import Astroid.Proposal.Electorate
import Astroid.Proposal.Order

/-!
# The mandatory delay

An approved proposal carries the time of its approval.  It is written when the configured
threshold is reached and written again when the weight of the multisig is reached later, so
with a fixed electorate it is never before the time at which both were first reached
(`Stamped`), in whatever order votes of different weights come in.  Executing waits for the
delay from there (`execution_delayed`).
-/

namespace Astroid
namespace ProposalContract

open Outcome Machine

variable {World : Type} {H : ProposalHost World} {E : Electorate} {env : Env H.self}
  {s s' : State World} {tr tr₁ : List (Entry (State World) (Inputs H))}
  {e : Entry (State World) (Inputs H)} {t id : ℕ} {p : Proposal} {call : Call}

/-- The multisig answers as a fixed electorate, and the clock is positive. -/
def steady (E : Electorate) (i : Inputs H) (s : State World) : Prop :=
  s.Reports H E ∧ 0 < i.time

/-- The votes of a proposal have reached its own threshold and the weight of the multisig. -/
def State.Sufficient (E : Electorate) (s : State World) (id : ℕ) : Prop :=
  ∃ p, s.proposal id = some p ∧ p.threshold ≤ E.count s id p ∧ E.threshold ≤ E.weightFor s id p

/-- The entry of a run after which the votes first sufficed. -/
abbrev FirstSufficient (E : Electorate) (id : ℕ) :=
  First (σ := State World) (ι := Inputs H) fun q => q.post.Sufficient E id

/-! ## The time lock -/

/-- The release of an armed time lock is the sum of the two times, in exact arithmetic. -/
theorem releaseAt_of_armed {approvedAt delay release : UInt64}
    (harmed : isArmed approvedAt delay = true) : releaseAt approvedAt delay = .ok release ↔
      release.toNat = approvedAt.toNat + delay.toNat := by
  have hrelease := release.toNat_lt
  have happroved := approvedAt.toNat_lt
  have hdelay := delay.toNat_lt
  simp only [releaseAt, harmed, if_true, tryFromU64, asI128, bind_eq_ok, checkedAdd_eq_ok,
    require_eq_ok, pure_eq_ok]
  constructor
  · rintro ⟨_, ⟨_, rfl⟩, _, hfits, rfl⟩
    rw [toNat_asU64]
    omega
  · intro hsum
    refine ⟨_, ⟨?_, rfl⟩, (), ?_, ?_⟩
    · unfold IsI128 i128Min i128Max
      omega
    · omega
    · rw [← UInt64.toNat_inj, toNat_asU64]
      omega

/-- **When a time lock is released**: it is not armed, or the delay has passed.  A release
that no `u64` can hold is never reached. -/
theorem requireReleased_eq_ok {approvedAt delay : UInt64} {u : Unit} :
    requireReleased env approvedAt delay = .ok u ↔ delay = 0 ∨ approvedAt = 0 ∨
      approvedAt.toNat + delay.toNat ≤ env.timestamp.toNat := by
  simp only [requireReleased, timeLockStatus, bind_eq_ok, require_eq_ok, pure_eq_ok]
  by_cases harmed : isArmed approvedAt delay = true
  · have hboth : delay ≠ 0 ∧ approvedAt ≠ 0 := of_decide_eq_true harmed
    have hclock := env.timestamp.toNat_lt
    constructor
    · rintro ⟨_, ⟨release, hrelease, rfl⟩, hreleased⟩
      rw [releaseAt_of_armed harmed] at hrelease
      simp only [TimeLockStatus.blocking, harmed, Bool.not_true, Bool.false_or, Bool.true_and,
        Bool.not_eq_false', decide_eq_true_eq, UInt64.le_iff_toNat_le] at hreleased
      exact .inr (.inr (by omega))
    · intro hreleased
      have hpassed : approvedAt.toNat + delay.toNat ≤ env.timestamp.toNat :=
        (hreleased.resolve_left hboth.1).resolve_left hboth.2
      have hsum : (UInt64.ofNat (approvedAt.toNat + delay.toNat)).toNat
          = approvedAt.toNat + delay.toNat := by
        rw [UInt64.toNat_ofNat']
        omega
      refine ⟨_, ⟨_, (releaseAt_of_armed harmed).2 hsum, rfl⟩, ?_⟩
      simp only [TimeLockStatus.blocking, harmed, Bool.not_true, Bool.false_or, Bool.true_and,
        Bool.not_eq_false', decide_eq_true_eq, UInt64.le_iff_toNat_le]
      omega
  · have hunarmed : delay = 0 ∨ approvedAt = 0 := by
      unfold isArmed at harmed
      simp only [decide_eq_true_eq] at harmed
      tauto
    rw [Bool.not_eq_true] at harmed
    simp only [releaseAt, TimeLockStatus.blocking, harmed, Bool.false_eq_true, if_false]
    constructor
    · intro _
      rcases hunarmed with hdelay | happroved
      · exact .inl hdelay
      · exact .inr (.inl happroved)
    · intro _
      exact ⟨_, ⟨0, rfl, rfl⟩, rfl⟩

/-! ## The stamp -/

/-- What the stamp of an approved record says of the run. -/
structure Stamped (E : Electorate) (tr : List (Entry (State World) (Inputs H))) (s : State World)
    (id : ℕ) (p : Proposal) : Prop where
  stamped : p.approvedAt ≠ 0
  counted : p.threshold ≤ E.count s id p
  timed : E.threshold ≤ E.weightFor s id p →
    ∃ q ∈ tr, q.post.Sufficient E id ∧ q.input.time = p.approvedAt.toNat

/-- Every approved record is stamped. -/
def AllStamped (E : Electorate) (tr : List (Entry (State World) (Inputs H))) (s : State World) :
    Prop :=
  ∀ id p, s.proposal id = some p → p.state = .approved → Stamped E tr s id p

/-- A record and votes that stay as they are. -/
theorem Stamped.kept (h : Stamped E tr s id p) (hvotes : s'.approval id = s.approval id) :
    Stamped E (tr ++ [e]) s' id p := by
  have hsame : E.count s' id p = E.count s id p ∧ E.weightFor s' id p = E.weightFor s id p :=
    Electorate.count_congr hvotes rfl
  obtain ⟨hcount, hweight⟩ := hsame
  refine ⟨h.stamped, hcount ▸ h.counted, ?_⟩
  intro hheavy
  obtain ⟨q, hq, hsufficient⟩ := h.timed (hweight ▸ hheavy)
  exact ⟨q, List.mem_append_left _ hq, hsufficient⟩

/-- A record that an entry stamped with its time, once it has reached its own threshold. -/
theorem Stamped.now (hpost : e.post.proposal id = some p) (hp : p.approvedAt ≠ 0)
    (htime : e.input.time = p.approvedAt.toNat) (hcounted : p.threshold ≤ E.count e.post id p) :
    Stamped E (tr ++ [e]) e.post id p := by
  refine ⟨hp, hcounted, ?_⟩
  intro hheavy
  exact ⟨e, by simp, ⟨p, hpost, hcounted, hheavy⟩, htime⟩

/-- **A vote that counts keeps the stamp true.** -/
theorem Stamped.vote {caller multisig : Address} {threshold previous approvals weight : ℕ}
    {p' : Proposal} (hE : s.Reports H E) (hclock : env.timestamp ≠ 0) (hp : p.WellFormed)
    (hstamped : p.state = .approved → Stamped E tr s id p)
    (hvote : Vote H env s caller id p p' multisig threshold previous approvals weight)
    (hpost : s'.proposal id = some p') (hvotes : s'.approval id
      = Function.update (s.approval id) caller true) (happroved : p'.state = .approved) :
    Stamped E (tr ++ [⟨s, .invoke env call, s'⟩]) s' id p' := by
  have hanswers := hE multisig hvote.multisig_eq
  have hsigner : E.signer caller = true := by
    have hreported := hanswers.signer caller
    rw [hvote.signer, Option.some.injEq] at hreported
    exact hreported.symm
  have hthreshold : threshold = E.threshold := by
    have hreported := hanswers.threshold
    rwa [hvote.threshold_eq, Option.some.injEq] at hreported
  -- the tally of the call is what counts in the state it left
  have hreports : (s.storeApproval id caller).Reports H E := hE
  obtain ⟨rfl, rfl⟩ := liveApprovalTally_ok hreports hp.few hvote.tally
  have hlist : p'.approvers = p.approvers := hvote.terms.1.approvers
  have hstored : s'.approval id = (s.storeApproval id caller).approval id := by
    rw [hvotes]
    simp [State.storeApproval]
  obtain ⟨hcount, hweight⟩ := Electorate.count_congr (E := E) hstored hlist
  obtain ⟨hmore, _⟩ := count_storeApproval hp.distinct hvote.eligible hsigner hvote.new
  rcases afterVote_cases hvote.recorded with
    ⟨_, hreached, rfl⟩ | ⟨hstate, _, rfl⟩ | ⟨_, huncrossed, rfl⟩
  · exact .now hpost hclock rfl (hcount ▸ hreached)
  · refine .now hpost hclock rfl ?_
    have hcounted := (hstamped hstate).counted
    dsimp only at hcount ⊢
    omega
  · -- had the weight been reached by this vote, it would have been stamped again
    have hold := hstamped happroved
    have hcounted := hold.counted
    refine ⟨hold.stamped, by dsimp only at hcount ⊢; omega, ?_⟩
    intro hheavy
    rw [hweight] at hheavy
    have hprevious := hvote.previous_eq
    have hstate : p.state = .approved := happroved
    rw [previousWeight, if_pos hstate] at hprevious
    obtain ⟨_, htally⟩ := snd_map_ok hprevious
    have hlow : previous < threshold := by
      by_contra hhigh
      exact hvote.unsettled ⟨hstate, not_lt.1 hhigh⟩
    exact absurd ⟨hstate, decide_eq_true ⟨hlow, hthreshold ▸ hheavy⟩⟩ huncrossed

theorem AllStamped.invoke (hstamped : AllStamped E tr s) (hE : s.Reports H E)
    (hclock : 0 < env.timestamp.toNat) (hs : s.WellFormed) (hstep : exec H env s call = .ok s') :
    AllStamped E (tr ++ [⟨s, .invoke env call, s'⟩]) s' := by
  intro id p' hp' happroved
  have hclock : env.timestamp ≠ 0 := by
    rintro hzero
    rw [hzero] at hclock
    cases hclock
  have hchange := exec_change hstep id
  generalize hrecord : s'.proposal id = record at hchange
  generalize hvotes : s'.approval id = votes at hchange
  rw [hrecord] at hp'
  cases hchange with
  | kept => exact (hstamped id p' hp' happroved).kept hvotes
  | created p _ hcreation =>
      cases hp'
      rw [hcreation.pending] at happroved
      cases happroved
  | voted caller p p' multisig threshold previous approvals weight hcall hp hvote =>
      cases hp'
      exact .vote hE hclock (hs id p hp).2 (hstamped id p hp) hvote hrecord hvotes happroved
  | expired | executed | closed =>
      cases hp'
      cases happroved
  | ended p next _ _ hnext =>
      cases hp'
      rw [show next = .approved from happroved] at hnext
      cases hnext
  | purged => cases hp'

theorem allStamped_of_path (hpath : (machine H).Path (steady E) tr s t) : AllStamped E tr s := by
  refine hpath.history (P := fun tr s _ => AllStamped E tr s) ?_ ?_
  · intro s t hfresh id p hp
    rw [hfresh.proposal id] at hp
    cases hp
  · intro tr s t i s' hpath hstamped _ hsteady hstep
    cases i with
    | invoke env call =>
        exact hstamped.invoke hsteady.1 hsteady.2 (wellFormed_of_reachable hpath.reachable) hstep
    | outside time w =>
        obtain ⟨_, rfl⟩ := hstep
        intro id p hp happroved
        exact (hstamped id p hp happroved).kept rfl

/-! ## The law -/

/-- **The mandatory delay.**  A proposal that executes had votes enough before, by its own
threshold and by the weight of the multisig, and the delay has passed since they first
sufficed. -/
theorem execution_delayed {deps : List ℕ} (hpath : (machine H).Path (steady E) tr s t)
    (hpart : tr₁ ++ [e] <+: tr) (hexecutes : executes e = some (id, deps)) :
    ∃ q, FirstSufficient E id tr₁ q ∧
      q.input.time + e.pre.timelockDelay.toNat ≤ e.input.time := by
  obtain ⟨t', hbefore, ht', hsteady, hstep⟩ := hpath.before hpart
  obtain ⟨env, caller, p, multisig, threshold, approvals, weight, _, hinput, hp, _, hexecution, _⟩ :=
    executes_ok hstep hexecutes
  have hwf := (wellFormed_of_reachable hbefore.reachable id p hp).2
  obtain ⟨rfl, rfl⟩ := liveApprovalTally_ok hsteady.1 hwf.few hexecution.tally
  have hthreshold := (hsteady.1 multisig hexecution.multisig_eq).threshold
  rw [hexecution.threshold_eq, Option.some.injEq] at hthreshold
  have hstamped := allStamped_of_path hbefore id p hp hexecution.approved
  obtain ⟨q, hq, hsufficient, htime⟩ := hstamped.timed (hthreshold ▸ hexecution.enough)
  obtain ⟨first, hfirst⟩ : ∃ first, FirstSufficient E id tr₁ first :=
    exists_first ⟨q, hq, hsufficient⟩
  have hle := hbefore.first_le hfirst hq hsufficient
  refine ⟨first, hfirst, ?_⟩
  have hnow : e.input.time = env.timestamp.toNat := by rw [hinput]; rfl
  rcases requireReleased_eq_ok.1 hexecution.released with hdelay | hunstamped | hpassed
  · obtain ⟨_, _, _, _, _, _, _, hlast⟩ := hbefore.entry hq
    have hzero : e.pre.timelockDelay.toNat = 0 := by rw [hdelay]; rfl
    have hlast : q.input.time ≤ t' := hlast
    have ht' : t' ≤ e.input.time := ht'
    have hle : first.input.time ≤ q.input.time := hle
    omega
  · exact absurd hunstamped hstamped.stamped
  · have hle : first.input.time ≤ q.input.time := hle
    omega

/-- The first vote approves the proposal, and the second brings the weight. -/
def voting : Script Call :=
  weightedOpening ++ [(signedBy 3 [1], .approve (.account 1) 1),
    (signedBy 8 [2], .approve (.account 2) 1)]

/-- It executes 10 seconds after the second vote. -/
theorem execution_delayed_weighted : ∃ q,
    FirstSufficient (H := electedHost weighted) weighted 1
      ((deployment (electedHost weighted)).trace deployed voting) q ∧ q.input.time + 10 ≤ 18 := by
  have hvoting : (deployment (electedHost weighted)).plays deployed 0 voting = true := by
    decide
  have hexecuting : (deployment (electedHost weighted)).plays
      ((deployment (electedHost weighted)).play deployed voting) 8
      [(signedBy 18 [1], .execute (.account 1) 1)] = true := by decide
  have hstart : (machine (electedHost weighted)).Path (steady weighted) [] deployed 0 :=
    .start deployed_elected
  have hpath := Deployment.path_play (Deployment.path_play hstart hvoting
    (by simp [voting, weightedOpening, Deployment.AllAllowed, steady, electedHost_reports,
      Input.time, signedBy])) hexecuting
    (by simp [Deployment.AllAllowed, steady, electedHost_reports, Input.time, signedBy])
  rw [List.nil_append] at hpath
  have hexecutes : executes (H := electedHost weighted)
      ⟨(deployment (electedHost weighted)).play deployed voting,
        .invoke (signedBy 18 [1]) (.execute (.account 1) 1),
        (deployment (electedHost weighted)).play
          ((deployment (electedHost weighted)).play deployed voting)
          [(signedBy 18 [1], .execute (.account 1) 1)]⟩ = some (1, []) := by
    decide
  exact execution_delayed hpath List.prefix_rfl hexecutes

end ProposalContract
end Astroid
