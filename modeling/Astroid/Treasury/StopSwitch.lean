import Astroid.Treasury.Ledger

/-!
# The stop switch

While the treasury is frozen, or paused inside the window of the pause, a call
that returns leaves the value it holds alone, with one exception:
`release_next_milestone` checks the pause and not the freeze.  So value stays
between a freeze and its unfreeze exactly as long as no milestone is released
(`stop_switch`).
-/

namespace Astroid
namespace TreasuryContract

variable {World : Type} {H : TreasuryHost World} {env : Env H.self} {s s' : State World}

/-- The switch is on: the flag is set, or a pause is inside its window. -/
def State.Stopped (s : State World) (now : UInt64) : Prop := s.frozen = true ∨ s.Paused now

/-- The call is a deposit. -/
def Call.Deposits : Call → Prop
  | .deposit .. => True
  | _ => False

/-- The call releases a milestone. -/
def Call.ReleasesMilestone : Call → Prop
  | .releaseNextMilestone .. => True
  | _ => False

/-- The value a treasury holds was left alone: no token was sent out of custody,
custody did not fall, and no recorded total moved, except by a deposit. -/
structure HoldsStill (H : TreasuryHost World) (call : Call) (s s' : State World) : Prop where
  outflows : s'.outflows = s.outflows
  custody : ∀ asset, H.custody s.world asset ≤ H.custody s'.world asset
  totals : ¬ call.Deposits → ∀ asset,
    (s'.loadHolding asset).totalIn = (s.loadHolding asset).totalIn ∧
      (s'.loadHolding asset).totalOut = (s.loadHolding asset).totalOut

/-- Equal books and an equal world leave everything alone. -/
theorem HoldsStill.of_books {call : Call} (hworld : s'.world = s.world)
    (hbooks : s'.books = s.books) (houtflows : s'.outflows = s.outflows) :
    HoldsStill H call s s' := by
  refine ⟨houtflows, ?_, ?_⟩
  · intro asset
    rw [hworld]
  · intro _ asset
    exact ⟨congrArg (fun b => b.totalIn asset) hbooks, congrArg (fun b => b.totalOut asset) hbooks⟩

/-- A stopped treasury pays nobody but the payee of a milestone. -/
theorem Gated.releases {call : Call} {asset : Address} {payments : List Payment}
    (h : Gated s call asset payments) (hfrozen : s.frozen = true) : call.ReleasesMilestone := by
  cases h with
  | withdraw hthawed => rw [hfrozen] at hthawed; cases hthawed
  | batch hthawed => rw [hfrozen] at hthawed; cases hthawed
  | milestone => trivial

/-- What a stopped treasury's calls do, releases aside. -/
theorem Effect.holdsStill (hx : H.Honest) {call : Call} (h : Effect H env s call s')
    (hstopped : s.Stopped env.timestamp) (hkeeps : ¬ call.ReleasesMilestone) :
    HoldsStill H call s s' := by
  cases h with
  | configured hsame => exact .of_books hsame.world hsame.books hsame.outflows
  | queued p _ _ _ _ _ hs' =>
      subst hs'
      exact .of_books rfl rfl rfl
  | cancelled caller id p _ _ _ hs' =>
      subst hs'
      exact .of_books rfl rfl rfl
  | deposited src asset amount received hcall hpos htransfer hcustody _ houtflows _ _ _ =>
      refine ⟨houtflows, ?_, ?_⟩
      · intro a
        by_cases ha : a = asset
        · subst ha
          omega
        · exact hx.transfer _ _ _ _ _ _ htransfer a ha
      · intro hdeposit
        subst hcall
        exact absurd trivial hdeposit
  | paid asset payments hrunning hgated _ =>
      have hfrozen := hstopped.resolve_right hrunning
      exact absurd (hgated.releases hfrozen) hkeeps
  | executed caller id p _ hrunning hthawed _ _ _ _ _ =>
      have hfrozen := hstopped.resolve_right hrunning
      rw [hfrozen] at hthawed
      cases hthawed

/-- A milestone that was released sent its payee something. -/
theorem releaseNextMilestone_outflows {caller : Address} {id : ℕ}
    (h : releaseNextMilestone H env s caller id = .ok s') : s'.outflows ≠ s.outflows := by
  obtain ⟨d, amount, _, _, _, _, _, hpaid⟩ := releaseNextMilestone_ok h
  rw [hpaid.outflows]
  intro heq
  have hlength := congrArg List.length heq
  simp at hlength

/-- A call that a stopped treasury answers holds still exactly when it releases no
milestone. -/
theorem holdsStill_iff (hx : H.Honest) {call : Call} (hstopped : s.Stopped env.timestamp)
    (h : exec H env s call = .ok s') : HoldsStill H call s s' ↔ ¬ call.ReleasesMilestone := by
  constructor
  · intro hstill hreleases
    cases call with
    | releaseNextMilestone caller id => exact releaseNextMilestone_outflows h hstill.outflows
    | _ => exact hreleases
  · exact (exec_effect h).holdsStill hx hstopped

/-- No milestone is released while the treasury is frozen and not paused. -/
def keepsMilestones : Inputs H → State World → Prop
  | .invoke env call, s => s.frozen = true → ¬ s.Paused env.timestamp → ¬ call.ReleasesMilestone
  | .outside _ _, _ => True

/-- Nothing has left since. -/
structure Kept (H : TreasuryHost World) (s s' : State World) : Prop where
  outflows : s'.outflows = s.outflows
  custody : ∀ asset, H.custody s.world asset ≤ H.custody s'.world asset

theorem Kept.trans {s₁ s₂ s₃ : State World} (h : Kept H s₁ s₂) (h' : Kept H s₂ s₃) :
    Kept H s₁ s₃ :=
  ⟨h'.outflows.trans h.outflows, fun asset => (h.custody asset).trans (h'.custody asset)⟩

/-- A step of a frozen treasury keeps everything in. -/
theorem kept_of_frozen (hx : H.Honest) {i : Inputs H} (hfrozen : s.frozen = true)
    (hallow : keepsMilestones i s) (hstep : Step H i s s') : Kept H s s' := by
  cases i with
  | invoke env call =>
      have heffect : Effect H env s call s' := exec_effect hstep
      by_cases hpaused : s.Paused env.timestamp
      · by_cases hreleases : call.ReleasesMilestone
        · -- a release is refused during a pause
          cases call with
          | releaseNextMilestone caller id =>
              obtain ⟨_, _, hrunning, _⟩ := releaseNextMilestone_ok (show _ = _ from hstep)
              exact absurd hpaused hrunning
          | _ => exact hreleases.elim
        · have hstill := heffect.holdsStill hx (.inl hfrozen) hreleases
          exact ⟨hstill.outflows, hstill.custody⟩
      · have hstill := heffect.holdsStill hx (.inl hfrozen) (hallow hfrozen hpaused)
        exact ⟨hstill.outflows, hstill.custody⟩
  | outside time w =>
      obtain ⟨hcustody, rfl⟩ := hstep
      exact ⟨rfl, hcustody⟩

/-- **The stop switch.**  A call that a stopped treasury answers leaves the value it
holds alone exactly when it releases no milestone; and over any stretch of a run
in which the treasury is frozen and releases none, nothing leaves. -/
theorem stop_switch (hx : H.Honest) :
    (∀ s s' (env : Env H.self) call, Reachable H s → s.Stopped env.timestamp →
      exec H env s call = .ok s' → (HoldsStill H call s s' ↔ ¬ call.ReleasesMilestone)) ∧
    (∀ tr₁ tr₂ s t, (machine H).Path keepsMilestones (tr₁ ++ tr₂) s t →
      (∀ e ∈ tr₂, e.pre.frozen = true) → ∀ e ∈ tr₂, Kept H e.pre s) := by
  constructor
  · intro s s' env call _ hstopped h
    exact holdsStill_iff hx hstopped h
  · intro tr₁ tr₂ s t hpath hfrozen
    refine hpath.since (fun _ _ _ => Kept.trans) ?_
    intro e he
    obtain ⟨_, _, _, _, _, hallow, hstep, _⟩ := hpath.entry (List.mem_append_right _ he)
    exact kept_of_frozen hx (hfrozen e he) hallow hstep

/-! ## Two runs -/

/-- A treasury that holds 60, owes account 2 a milestone of 60, and is frozen by
account 5. -/
def frozenTreasury : Script Call :=
  [(signedBy 0 [0], .initializeContract "org" (.account 0)),
    (signedBy 0 [0], .addApprovedAsset (.account 0) (.contract 7)),
    (signedBy 0 [0], .setMultisig (.account 0) (.account 5)),
    (signedBy 1 [1], .deposit (.account 1) (.contract 7) 60),
    (signedBy 2 [0], .initMilestoneDisbursement (.account 0) (.contract 7) (.account 2) 60 1),
    (signedBy 3 [5], .freeze (.account 5))]

def lateDeposit : Script Call :=
  [(signedBy 9 [1], .deposit (.account 1) (.contract 7) 40)]

/-- A deposit of 40 goes through while the treasury is frozen, and nothing leaves. -/
theorem stop_switch_deposit :
    let s := play (deployed (funded 0)) frozenTreasury
    let s' := play s lateDeposit
    HoldsStill referenceHost (.deposit (.account 1) (.contract 7) 40) s s' ∧
      Kept referenceHost s s' ∧ (s'.loadHolding (.contract 7)).totalIn = 100 := by
  have hswitch := stop_switch referenceHost_honest
  have hfresh : Fresh referenceHost (deployed (funded 0)) := funded_fresh le_rfl
  have hstart : (machine referenceHost).Path keepsMilestones [] (deployed (funded 0)) 0 :=
    .start hfresh
  have hallow : (deployment referenceHost).AllAllowed keepsMilestones (deployed (funded 0))
      frozenTreasury :=
    ⟨fun _ _ => id, fun _ _ => id, fun _ _ => id, fun _ _ => id, fun _ _ => id, fun _ _ => id,
      trivial⟩
  have hpath := Deployment.path_play hstart rfl hallow
  have hplays : (deployment referenceHost).plays
      (play (deployed (funded 0)) frozenTreasury) 3 lateDeposit = true := rfl
  have hpath' := Deployment.path_play hpath hplays ⟨fun _ _ => id, trivial⟩
  refine ⟨(hswitch.1 _ _ (signedBy 9 [1]) _ hpath.reachable (.inl rfl) rfl).2 id, ?_, rfl⟩
  refine hswitch.2 _ _ _ _ hpath' ?_ _ (List.mem_singleton_self _)
  intro e he
  obtain rfl := List.mem_singleton.1 he
  rfl

/-- **A milestone gets past the freeze.**  The frozen treasury pays its 60. -/
theorem not_stop_switch :
    ¬ ∀ s s' (env : Env referenceHost.self) call, Reachable referenceHost s →
      s.Stopped env.timestamp → exec referenceHost env s call = .ok s' →
      HoldsStill referenceHost call s s' := by
  intro h
  have hreach : Reachable referenceHost (play (deployed (funded 0)) frozenTreasury) :=
    Deployment.reachable_play (funded_fresh le_rfl) rfl
  have hstill := h _ _ (signedBy 9 [0]) (.releaseNextMilestone (.account 0) 1) hreach (.inl rfl) rfl
  have htotals := (hstill.totals id (.contract 7)).1
  revert htotals
  decide

end TreasuryContract
end Astroid
