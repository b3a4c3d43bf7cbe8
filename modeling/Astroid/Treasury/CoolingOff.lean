import Astroid.Treasury.Effects
import Astroid.Lib.Tally

/-!
# The cooling-off period

A payout the time-lock captures is one of a request that an earlier invocation
queued, that was not cancelled, and whose delay has passed (`cooling_off`).  A
pending record is tied to the entry of the run that queued it by an invariant of
the run so far (`Queue`).  The law is about runs in which no milestone is
released whose payout the lock captures: `release_next_milestone` does not
consult it.
-/

namespace Astroid
namespace TreasuryContract

open Tally

variable {World : Type} {H : TreasuryHost World} {env : Env H.self} {s s' : State World}
  {tr : List (Entry (State World) (Inputs H))}

/-- What an invocation sent out of custody of an asset. -/
def movedOut (s s' : State World) (asset : Address) : ℤ :=
  tally (·.amount) (·.asset = asset) (s'.outflows.drop s.outflows.length)

theorem movedOut_same (h : s'.outflows = s.outflows) (asset : Address) :
    movedOut s s' asset = 0 := by
  unfold movedOut
  rw [h, List.drop_length, tally_nil]

theorem tally_legs {asset a : Address} (payments : List Payment) :
    tally (·.amount) (·.asset = a) (payments.map fun p => (⟨asset, p.recipient, p.amount⟩ : Outflow))
      = if asset = a then paymentsTotal payments else 0 := by
  induction payments with
  | nil => simp [paymentsTotal]
  | cons payment rest ih =>
      rw [List.map_cons, tally_cons, ih]
      by_cases ha : asset = a <;> simp [ha, paymentsTotal]

theorem Paid.movedOut {asset : Address} {payments : List Payment}
    (h : Paid H env s s' asset payments) (a : Address) :
    TreasuryContract.movedOut s s' a = if asset = a then paymentsTotal payments else 0 := by
  unfold TreasuryContract.movedOut
  rw [h.outflows, List.drop_left, tally_legs]

/-! ## The time-lock -/

/-- Every call keeps the threshold of an enabled lock positive. -/
theorem Effect.sensible {call : Call} (h : Effect H env s call s')
    (hsensible : s.loadTimeLock.Sensible) : s'.loadTimeLock.Sensible := by
  cases h with
  | configured hsame => exact hsame.timeLock hsensible
  | queued p _ _ _ _ _ hs' =>
      subst hs'
      exact hsensible
  | cancelled caller id p _ _ _ hs' =>
      subst hs'
      exact hsensible
  | deposited src asset amount received _ _ _ _ _ _ htimeLock _ _ =>
      unfold State.loadTimeLock at hsensible ⊢
      rw [htimeLock]
      exact hsensible
  | paid asset payments _ _ hpaid =>
      unfold State.loadTimeLock at hsensible ⊢
      rw [hpaid.timeLock]
      exact hsensible
  | executed caller id p _ _ _ _ _ _ _ hpaid =>
      unfold State.loadTimeLock at hsensible ⊢
      rw [hpaid.timeLock]
      exact hsensible

theorem Reachable.sensible (h : Reachable H s) : s.loadTimeLock.Sensible := by
  refine Machine.Reachable.invariant (M := machine H) (P := fun s => s.loadTimeLock.Sensible)
    ?_ ?_ h
  · intro s hfresh hdelay
    have hdisabled : s.loadTimeLock = .disabled := by
      unfold State.loadTimeLock
      rw [hfresh.withdrawalTimeLock]
      rfl
    rw [hdisabled] at hdelay
    exact absurd hdelay (by decide)
  · intro i s s' hsensible hstep
    cases i with
    | invoke env call => exact (exec_effect hstep).sensible hsensible
    | outside time w =>
        obtain ⟨_, rfl⟩ := hstep
        exact hsensible

/-! ## Where a request comes from -/

/-- Entry `q` queued the request `p` under `id`. -/
def QueuedBy (q : Entry (State World) (Inputs H)) (id : ℕ) (p : PendingWithdrawal) : Prop :=
  ∃ env call, q.input = .invoke env call ∧ call.request = some (p.asset, p.legs) ∧
    id = q.pre.pendingWithdrawalCount + 1 ∧
    p.executeAfter.toNat = env.timestamp.toNat + q.pre.loadTimeLock.delay.toNat

/-- Entry `c` cancelled request `id`. -/
def CancelledBy (c : Entry (State World) (Inputs H)) (id : ℕ) : Prop :=
  ∃ env caller, c.input = .invoke env (.cancelWithdrawal caller id)

/-- The queue and the run that filled it: ids are issued in order, every request was
queued by an entry, and what an entry cancelled is marked so. -/
structure Queue (tr : List (Entry (State World) (Inputs H))) (s : State World) : Prop where
  id_le : ∀ id p, s.pendingWithdrawal id = some p → id ≤ s.pendingWithdrawalCount
  origin : ∀ id p, s.pendingWithdrawal id = some p → ∃ q ∈ tr, QueuedBy q id p
  cancelled : ∀ c ∈ tr, ∀ id, CancelledBy c id →
    ∃ p, s.pendingWithdrawal id = some p ∧ p.cancelled = true

namespace Queue

variable {e : Entry (State World) (Inputs H)}

/-- A step that leaves the requests alone. -/
theorem same (h : Queue tr s) (hpending : s'.pendingWithdrawal = s.pendingWithdrawal)
    (hcount : s'.pendingWithdrawalCount = s.pendingWithdrawalCount)
    (hcancel : ∀ id, ¬ CancelledBy e id) : Queue (tr ++ [e]) s' := by
  constructor
  · rw [hpending, hcount]
    exact h.id_le
  · intro id p hp
    rw [hpending] at hp
    obtain ⟨q, hq, hqueued⟩ := h.origin id p hp
    exact ⟨q, List.mem_append_left _ hq, hqueued⟩
  · intro c hc id hcancelled
    rw [hpending]
    rcases List.mem_append.1 hc with hc | hc
    · exact h.cancelled c hc id hcancelled
    · obtain rfl := List.mem_singleton.1 hc
      exact absurd hcancelled (hcancel id)

/-- A step that changes the flags of one request and nothing else about it. -/
theorem flagged (h : Queue tr s) {id : ℕ} {p p' : PendingWithdrawal}
    (hp : s.pendingWithdrawal id = some p)
    (hpending : s'.pendingWithdrawal = Function.update s.pendingWithdrawal id (some p'))
    (hcount : s'.pendingWithdrawalCount = s.pendingWithdrawalCount)
    (hasset : p'.asset = p.asset) (hlegs : p'.legs = p.legs)
    (hafter : p'.executeAfter = p.executeAfter)
    (hkept : p.cancelled = true → p'.cancelled = true)
    (hcancel : ∀ id', CancelledBy e id' → id' = id ∧ p'.cancelled = true) :
    Queue (tr ++ [e]) s' := by
  constructor
  · intro id' p₁ hp₁
    rw [hcount]
    rw [hpending] at hp₁
    by_cases hid : id' = id
    · subst hid
      exact h.id_le id' p hp
    · rw [Function.update_of_ne hid] at hp₁
      exact h.id_le id' p₁ hp₁
  · intro id' p₁ hp₁
    rw [hpending] at hp₁
    by_cases hid : id' = id
    · subst hid
      rw [Function.update_self, Option.some.injEq] at hp₁
      subst hp₁
      obtain ⟨q, hq, env, call, hinput, hrequest, hissued, hdelay⟩ := h.origin id' p hp
      refine ⟨q, List.mem_append_left _ hq, env, call, hinput, ?_, hissued, ?_⟩
      · rw [hasset, hlegs]
        exact hrequest
      · rw [hafter]
        exact hdelay
    · rw [Function.update_of_ne hid] at hp₁
      obtain ⟨q, hq, hqueued⟩ := h.origin id' p₁ hp₁
      exact ⟨q, List.mem_append_left _ hq, hqueued⟩
  · intro c hc id' hcancelled
    rw [hpending]
    by_cases hid : id' = id
    · subst hid
      refine ⟨p', Function.update_self _ _ _, ?_⟩
      rcases List.mem_append.1 hc with hc | hc
      · obtain ⟨p₁, hp₁, hflag⟩ := h.cancelled c hc id' hcancelled
        rw [hp, Option.some.injEq] at hp₁
        subst hp₁
        exact hkept hflag
      · obtain rfl := List.mem_singleton.1 hc
        exact (hcancel id' hcancelled).2
    · rw [Function.update_of_ne hid]
      rcases List.mem_append.1 hc with hc | hc
      · exact h.cancelled c hc id' hcancelled
      · obtain rfl := List.mem_singleton.1 hc
        exact absurd (hcancel id' hcancelled).1 hid

/-- A step that queues a request under the next id. -/
theorem issued (h : Queue tr s) {p : PendingWithdrawal}
    (hpending : s'.pendingWithdrawal
      = Function.update s.pendingWithdrawal (s.pendingWithdrawalCount + 1) (some p))
    (hcount : s'.pendingWithdrawalCount = s.pendingWithdrawalCount + 1)
    (hqueued : QueuedBy e (s.pendingWithdrawalCount + 1) p)
    (hcancel : ∀ id, ¬ CancelledBy e id) : Queue (tr ++ [e]) s' := by
  constructor
  · intro id p₁ hp₁
    rw [hcount]
    rw [hpending] at hp₁
    by_cases hid : id = s.pendingWithdrawalCount + 1
    · exact hid.le
    · rw [Function.update_of_ne hid] at hp₁
      exact (h.id_le id p₁ hp₁).trans (Nat.le_succ _)
  · intro id p₁ hp₁
    rw [hpending] at hp₁
    by_cases hid : id = s.pendingWithdrawalCount + 1
    · subst hid
      rw [Function.update_self, Option.some.injEq] at hp₁
      subst hp₁
      exact ⟨e, List.mem_append_right _ (List.mem_singleton_self _), hqueued⟩
    · rw [Function.update_of_ne hid] at hp₁
      obtain ⟨q, hq, hq'⟩ := h.origin id p₁ hp₁
      exact ⟨q, List.mem_append_left _ hq, hq'⟩
  · intro c hc id hcancelled
    rw [hpending]
    rcases List.mem_append.1 hc with hc | hc
    · obtain ⟨p₁, hp₁, hflag⟩ := h.cancelled c hc id hcancelled
      -- a fresh id was never cancelled
      have hid : id ≠ s.pendingWithdrawalCount + 1 := by
        have hle := h.id_le id p₁ hp₁
        omega
      rw [Function.update_of_ne hid]
      exact ⟨p₁, hp₁, hflag⟩
    · obtain rfl := List.mem_singleton.1 hc
      exact absurd hcancelled (hcancel id)

end Queue

/-- An entry whose call is not a cancellation cancels nothing. -/
theorem not_cancelledBy {call : Call} (hcall : ∀ caller id, call ≠ .cancelWithdrawal caller id)
    (id : ℕ) : ¬ CancelledBy (H := H) ⟨s, .invoke env call, s'⟩ id := by
  rintro ⟨env', caller, hinput⟩
  cases hinput
  exact hcall caller id rfl

/-- Every call keeps the queue tied to the run. -/
theorem Queue.call (h : Queue tr s) {call : Call} (hexec : exec H env s call = .ok s') :
    Queue (tr ++ [⟨s, .invoke env call, s'⟩]) s' := by
  by_cases hcall : ∃ caller id, call = .cancelWithdrawal caller id
  · obtain ⟨caller, id, rfl⟩ := hcall
    obtain ⟨p, hp, _, hs'⟩ := cancelWithdrawal_ok (show _ = _ from hexec)
    subst hs'
    refine h.flagged hp rfl rfl rfl rfl rfl (fun _ => rfl) ?_
    rintro id' ⟨env', caller', hinput⟩
    cases hinput
    exact ⟨rfl, rfl⟩
  · have hcancel : ∀ id, ¬ CancelledBy (H := H) ⟨s, .invoke env call, s'⟩ id :=
      not_cancelledBy fun caller id heq => hcall ⟨caller, id, heq⟩
    have heffect : Effect H env s call s' := exec_effect hexec
    cases heffect with
    | configured hsame => exact h.same hsame.pending hsame.pendingCount hcancel
    | queued p hrequest _ _ hafter _ hs' =>
        subst hs'
        exact h.issued rfl rfl ⟨env, call, rfl, hrequest, rfl, hafter⟩ hcancel
    | cancelled caller id p heq _ _ _ => exact absurd ⟨caller, id, heq⟩ hcall
    | deposited src asset amount received _ _ _ _ _ _ _ hpending hcount =>
        exact h.same hpending hcount hcancel
    | paid asset payments _ _ hpaid => exact h.same hpaid.pending hpaid.pendingCount hcancel
    | executed caller id p _ _ _ hp _ _ _ hpaid =>
        exact h.flagged hp hpaid.pending hpaid.pendingCount rfl rfl rfl (fun hflag => hflag)
          fun id' hcancelled => absurd hcancelled (hcancel id')

/-- Every run is tied to its queue. -/
theorem queue_of_path {allow : Inputs H → State World → Prop} {t : ℕ}
    (hpath : (machine H).Path allow tr s t) : Queue tr s := by
  refine hpath.history (P := fun tr s _ => Queue tr s) ?_ ?_
  · intro s t hfresh
    constructor
    · intro id p hp
      rw [hfresh.pendingWithdrawal id] at hp
      cases hp
    · intro id p hp
      rw [hfresh.pendingWithdrawal id] at hp
      cases hp
    · simp
  · intro tr s t i s' _ hqueue _ _ hstep
    cases i with
    | invoke env call => exact hqueue.call hstep
    | outside time w =>
        obtain ⟨_, rfl⟩ := hstep
        refine hqueue.same rfl rfl ?_
        rintro id ⟨env, caller, hinput⟩
        cases hinput

/-! ## The law -/

/-- The payout of the milestone a call releases, if it releases one, is not captured by
the lock. -/
def ReleasesBelow (s : State World) : Call → Prop
  | .releaseNextMilestone _ id => ∀ d amount, s.milestone id = some d → d.due = .ok amount →
      ¬ s.loadTimeLock.Applies amount
  | _ => True

/-- Every milestone released is below the threshold of the lock. -/
def releasesBelow : Inputs H → State World → Prop
  | .invoke _ call, s => ReleasesBelow s call
  | .outside _ _, _ => True

/-- The invocation `e`, made at `now` by `call` after the entries `tr`, executes a
request for `asset` that cooled off: an entry of `tr` queued it for these legs,
none cancelled it, and its delay has passed. -/
def CooledOff (tr : List (Entry (State World) (Inputs H)))
    (e : Entry (State World) (Inputs H)) (now : UInt64) (call : Call) (asset : Address) : Prop :=
  ∃ caller id p, call = .executeWithdrawal caller id ∧ e.pre.pendingWithdrawal id = some p ∧
    p.asset = asset ∧
    e.post.outflows
      = e.pre.outflows ++ p.legs.map (fun leg => ⟨asset, leg.recipient, leg.amount⟩) ∧
    (∀ c ∈ tr, ¬ CancelledBy c id) ∧
    ∃ q ∈ tr, QueuedBy q id p ∧ p.executeAfter ≤ now

/-- A direct payout is not captured, as long as milestones are not. -/
theorem Gated.not_applies {call : Call} {asset : Address} {payments : List Payment}
    (h : Gated s call asset payments) (hbelow : ReleasesBelow s call) :
    ¬ s.loadTimeLock.Applies (paymentsTotal payments) := by
  cases h with
  | withdraw _ _ hunlocked _ => simpa [paymentsTotal] using hunlocked
  | batch _ _ hunlocked _ => exact hunlocked
  | milestone hd _ hdue _ => simpa [paymentsTotal] using hbelow _ _ hd hdue

/-- **The cooling-off period.**  In every run that releases no captured milestone, an
invocation that moves a captured total of an asset out of custody executes a
request that an earlier invocation queued for exactly these payouts, that was
not cancelled and whose delay has passed. -/
theorem cooling_off {t : ℕ} (hpath : (machine H).Path releasesBelow tr s t) :
    ∀ e ∈ tr, ∀ (env : Env H.self) call asset, e.input = .invoke env call →
      e.pre.loadTimeLock.Applies (movedOut e.pre e.post asset) →
      ∃ tr₁, tr₁ ++ [e] <+: tr ∧ CooledOff tr₁ e env.timestamp call asset := by
  intro e he env call asset hinput happlies
  obtain ⟨tr₁, t₁, hinit, hpath₁, _, hbelow, hstep, _⟩ := hpath.entry he
  refine ⟨tr₁, hinit, ?_⟩
  have hqueue := queue_of_path hpath₁
  have hpositive : 0 < movedOut e.pre e.post asset :=
    (Reachable.sensible hpath₁.reachable happlies.1).trans_le happlies.2
  rw [hinput] at hbelow hstep
  have heffect : Effect H env e.pre call e.post := exec_effect hstep
  cases heffect with
  | configured hsame =>
      rw [movedOut_same hsame.outflows] at hpositive
      exact absurd hpositive (lt_irrefl 0)
  | queued p _ _ _ _ _ hs' =>
      rw [movedOut_same (by rw [hs']; rfl)] at hpositive
      exact absurd hpositive (lt_irrefl 0)
  | cancelled caller id p _ _ _ hs' =>
      rw [movedOut_same (by rw [hs']; rfl)] at hpositive
      exact absurd hpositive (lt_irrefl 0)
  | deposited src a amount received _ _ _ _ _ houtflows _ _ _ =>
      rw [movedOut_same houtflows] at hpositive
      exact absurd hpositive (lt_irrefl 0)
  | paid a payments _ hgated hpaid =>
      rw [hpaid.movedOut asset] at happlies hpositive
      by_cases ha : a = asset
      · rw [if_pos ha] at happlies
        exact absurd happlies (hgated.not_applies hbelow)
      · rw [if_neg ha] at hpositive
        exact absurd hpositive (lt_irrefl 0)
  | executed caller id p hcall _ _ hp hpending hreached _ hpaid =>
      have hmoved : movedOut e.pre e.post asset
          = if p.asset = asset then paymentsTotal p.legs else 0 := hpaid.movedOut asset
      by_cases ha : p.asset = asset
      · refine ⟨caller, id, p, hcall, hp, ha, ?_, ?_, ?_⟩
        · rw [← ha]
          exact hpaid.outflows
        · intro c hc hcancelled
          obtain ⟨p₁, hp₁, hflag⟩ := hqueue.cancelled c hc id hcancelled
          rw [hp, Option.some.injEq] at hp₁
          subst hp₁
          rw [hpending.1] at hflag
          cases hflag
        · obtain ⟨q, hq, hqueued⟩ := hqueue.origin id p hp
          exact ⟨q, hq, hqueued, hreached⟩
      · rw [hmoved, if_neg ha] at hpositive
        exact absurd hpositive (lt_irrefl 0)

/-! ## Two runs -/

/-- After the opening, payouts of 50 or more wait a day, and 60 are queued for account
2. -/
def queuedPayment : Script Call :=
  opening ++
    [(signedBy 1 [0], .setWithdrawalTimeLock (.account 0) 86400 50),
      (signedBy 2 [0], .queueWithdrawal (.account 0) (.contract 7) (.account 2) 60)]

def execution : Script Call :=
  [(signedBy 90000 [0], .executeWithdrawal (.account 0) 1)]

/-- The payout of the 60 cooled off. -/
theorem cooling_off_queued :
    let s := play (deployed (funded 0)) queuedPayment
    let call : Call := .executeWithdrawal (.account 0) 1
    ∃ tr, CooledOff (H := referenceHost) tr
      ⟨s, .invoke (signedBy 90000 [0]) call, play s execution⟩ 90000 call (.contract 7) := by
  intro s call
  have hstart : (machine referenceHost).Path releasesBelow [] (deployed (funded 0)) 0 :=
    .start (funded_fresh le_rfl)
  have hallow : (deployment referenceHost).AllAllowed releasesBelow (deployed (funded 0))
      queuedPayment := ⟨trivial, trivial, trivial, trivial, trivial, trivial⟩
  have hpath := Deployment.path_play hstart rfl hallow
  have hplays : (deployment referenceHost).plays s 2 execution = true := rfl
  have hpath' := Deployment.path_play hpath hplays ⟨trivial, trivial⟩
  have happlies : s.loadTimeLock.Applies (movedOut s (play s execution) (.contract 7)) := by
    decide
  obtain ⟨tr₁, _, hcooled⟩ := cooling_off hpath' _
    (List.mem_append_right _ (List.mem_singleton_self _)) (signedBy 90000 [0]) call (.contract 7)
    rfl happlies
  exact ⟨tr₁, hcooled⟩

/-- After the opening, payouts of 50 or more wait a day, and account 2 is due a
milestone of 60. -/
def dueMilestone : Script Call :=
  opening ++
    [(signedBy 1 [0], .setWithdrawalTimeLock (.account 0) 86400 50),
      (signedBy 2 [0],
        .initMilestoneDisbursement (.account 0) (.contract 7) (.account 2) 60 1)]

def milestoneRelease : Script Call :=
  [(signedBy 3 [0], .releaseNextMilestone (.account 0) 1)]

/-- **A milestone gets past the time-lock.**  The 60 are paid at once. -/
theorem not_cooling_off :
    ¬ ∀ tr s t, (machine referenceHost).Path Machine.anyInput tr s t →
      ∀ e ∈ tr, ∀ (env : Env referenceHost.self) call asset, e.input = .invoke env call →
        e.pre.loadTimeLock.Applies (movedOut e.pre e.post asset) →
        ∃ tr₁, tr₁ ++ [e] <+: tr ∧ CooledOff tr₁ e env.timestamp call asset := by
  intro h
  have hfresh : Fresh referenceHost (deployed (funded 0)) := funded_fresh le_rfl
  have hfirst : (deployment referenceHost).plays (deployed (funded 0)) 0 dueMilestone = true := rfl
  obtain ⟨tr, hpath⟩ := Deployment.anyPath_play hfresh hfirst
  have hplays : (deployment referenceHost).plays (play (deployed (funded 0)) dueMilestone) 2
      milestoneRelease = true := rfl
  have hpath' := Deployment.path_playing hpath hplays
  obtain ⟨tr₁, _, caller, id, p, hcall, _⟩ := h _ _ _ hpath' _
    (List.mem_append_right _ (List.mem_singleton_self _)) (signedBy 3 [0])
    (.releaseNextMilestone (.account 0) 1) (.contract 7) rfl (by decide)
  cases hcall

end TreasuryContract
end Astroid
