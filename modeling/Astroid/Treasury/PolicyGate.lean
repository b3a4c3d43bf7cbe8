import Astroid.Treasury.Routes
import Astroid.Treasury.StopSwitch

/-!
# The policy gate

What a policy approved is told from the worlds a call went through: between the
world it was invoked in and the world it left, the policy answered a question
about exactly this payment, before any token moved (`Approved`).  `settle_withdrawal`
and `settle_batch` ask for every payment they make, also when they settle a request
that was queued before the policy was wired; `release_next_milestone` asks nobody.
Every payout is approved in every run that releases no milestone under a policy
(`policy_gate`).
-/

namespace Astroid
namespace TreasuryContract

open Outcome

variable {World : Type} {H : TreasuryHost World} {env : Env H.self} {s s' : State World}
  {policy : Address} {t : Treasury}

/-! ## Approval -/

/-- On the way from `w` to `w'`, the policy was asked about the payment and did not refuse. -/
def Asked (H : TreasuryHost World) (env : Env H.self) (policy : Address) (o : Outflow)
    (w w' : World) : Prop :=
  ∃ w₁ w₂, Consults H env w w₁ ∧
    H.checkTransfer env w₁ policy "active" o.asset o.recipient o.amount = some w₂ ∧
    Consults H env w₂ w'

/-- Asked on a part of the way. -/
theorem Asked.widen {o : Outflow} {w w₁ w₂ w' : World} (h : Asked H env policy o w₁ w₂)
    (hbefore : Consults H env w w₁) (hafter : Consults H env w₂ w') :
    Asked H env policy o w w' := by
  obtain ⟨a, b, ha, hasked, hb⟩ := h
  exact ⟨a, b, hbefore.trans ha, hasked, hb.trans hafter⟩

/-- The invocation asked the policy about the payment before it moved the token. -/
def Approved (H : TreasuryHost World) (env : Env H.self) (policy : Address) (s s' : State World)
    (o : Outflow) : Prop :=
  ∃ w, Asked H env policy o s.world w ∧ Moves H o.asset w s'.world

/-- Every payment the invocation made was approved. -/
def Governed (H : TreasuryHost World) (env : Env H.self) (policy : Address)
    (s s' : State World) : Prop :=
  ∃ new, s'.outflows = s.outflows ++ new ∧ ∀ o ∈ new, Approved H env policy s s' o

/-! ## What the settlement routines ask -/

theorem checkPolicy_asked {a payee : Address} {amount : ℤ} {w w' : World}
    (hpolicy : t.policy = some policy)
    (h : checkPolicy H env w t a payee amount = .ok w') :
    Asked H env policy ⟨a, payee, amount⟩ w w' := by
  unfold checkPolicy at h
  rw [hpolicy] at h
  exact ⟨w, w', .refl, orFail_eq_ok.1 h, .refl⟩

/-- The loop of a batch asks about each of its legs. -/
theorem checkPolicies_asked {a : Address} {payments : List Payment} {w w' : World}
    (hpolicy : t.policy = some policy)
    (h : checkPolicies H env w t a payments = .ok w') :
    ∀ p ∈ payments, Asked H env policy ⟨a, p.recipient, p.amount⟩ w w' := by
  induction payments generalizing w with
  | nil =>
      intro p hp
      cases hp
  | cons payment rest ih =>
      simp only [checkPolicies, bind_eq_ok] at h
      obtain ⟨w₁, hfirst, hrest⟩ := h
      intro p hp
      rcases List.mem_cons.1 hp with rfl | hp
      · exact (checkPolicy_asked hpolicy hfirst).widen .refl (checkPolicies_ok hrest)
      · exact (ih hrest p hp).widen (checkPolicy_ok hfirst) .refl

theorem settleWithdrawal_governed {caller a payee : Address} {amount : ℤ}
    (hpolicy : t.policy = some policy)
    (h : settleWithdrawal H env s t caller a payee amount = .ok s') :
    Governed H env policy s s' := by
  obtain ⟨w₁, w₂, allowance, s₁, s₂, hcheck, hbudget, _, _, hdebit, hpay, rfl⟩ :=
    settleWithdrawal_steps h
  obtain rfl := debit_ok hdebit
  obtain ⟨w, hmoves, _, rfl⟩ := payOut_ok hpay
  refine ⟨[⟨a, payee, amount⟩], ?_, ?_⟩
  · rfl
  · intro o ho
    obtain rfl := List.mem_singleton.1 ho
    exact ⟨w₂, (checkPolicy_asked hpolicy hcheck).widen .refl (consumeBudget_ok hbudget), hmoves⟩

theorem settleBatch_governed {caller a : Address} {payments : List Payment}
    (hpolicy : t.policy = some policy)
    (h : settleBatch H env s t caller a payments = .ok s') : Governed H env policy s s' := by
  obtain ⟨w₁, w₂, s₁, s₂, hcheck, hbudget, hdebit, hpay, rfl⟩ := settleBatch_steps h
  obtain rfl := debit_ok hdebit
  obtain ⟨w, hmoves, _, rfl⟩ := payOut_ok hpay
  refine ⟨payments.map fun p => ⟨a, p.recipient, p.amount⟩, ?_, ?_⟩
  · rfl
  · intro o ho
    obtain ⟨p, hp, rfl⟩ := List.mem_map.1 ho
    exact ⟨w₂, (checkPolicies_asked hpolicy hcheck p hp).widen .refl (consumeBudget_ok hbudget),
      hmoves⟩

/-- **Every route but the milestones asks the policy.** -/
theorem Route.governed {call : Call} (h : Route H env s call s') (ht : s.treasury = some t)
    (hpolicy : t.policy = some policy) (hkeeps : ¬ call.ReleasesMilestone) :
    Governed H env policy s s' := by
  -- the record a route settles under is the stored one
  have hsame : ∀ {t'}, s.treasury = some t' → t' = t := by
    intro t' ht'
    rw [ht, Option.some.injEq] at ht'
    exact ht'.symm
  cases h with
  | quiet hquiet =>
      refine ⟨[], ?_, ?_⟩
      · rw [List.append_nil, hquiet.outflows]
      · intro o ho
        cases ho
  | withdraw ht' _ hsettle =>
      obtain rfl := hsame ht'
      exact settleWithdrawal_governed hpolicy hsettle
  | batch ht' hsettle =>
      obtain rfl := hsame ht'
      exact settleBatch_governed hpolicy hsettle
  | executed ht' _ _ _ hsettle =>
      obtain rfl := hsame ht'
      obtain ⟨new, hnew, happroved⟩ := settleWithdrawal_governed hpolicy hsettle
      exact ⟨new, hnew, happroved⟩
  | executedBatch ht' _ _ _ hsettle =>
      obtain rfl := hsame ht'
      obtain ⟨new, hnew, happroved⟩ := settleBatch_governed hpolicy hsettle
      exact ⟨new, hnew, happroved⟩
  | released => exact absurd trivial hkeeps

/-! ## Over whole runs -/

/-- No milestone is released while a policy is wired. -/
def keepsPolicy : Inputs H → State World → Prop
  | .invoke _ call, s => ∀ t policy, s.treasury = some t → t.policy = some policy →
      ¬ call.ReleasesMilestone
  | .outside _ _, _ => True

/-- **The policy gate.**  In every run that releases no milestone under a policy, every
payment of an invocation was approved in it by the policy that is wired. -/
theorem policy_gate (H : TreasuryHost World) :
    ∀ tr s now, (machine H).Path keepsPolicy tr s now →
      ∀ e ∈ tr, ∀ (env : Env H.self) call t policy, e.input = .invoke env call →
      e.pre.treasury = some t → t.policy = some policy → Governed H env policy e.pre e.post := by
  intro tr s now hpath e he env call t policy hinput ht hpolicy
  obtain ⟨_, _, _, _, _, hallow, hstep, _⟩ := hpath.entry he
  rw [hinput] at hallow hstep
  exact (exec_route hstep).governed ht hpolicy (hallow t policy ht hpolicy)

/-! ## Two runs -/

/-- A withdrawal of 60 is queued while no policy is wired; then `contract 9` is wired. -/
def queuedBefore : Script Call :=
  opening ++
    [(signedBy 1 [0], .setWithdrawalTimeLock (.account 0) 86400 1),
      (signedBy 2 [0], .queueWithdrawal (.account 0) (.contract 7) (.account 2) 60),
      (signedBy 3 [0], .setPolicy (.account 0) (.contract 9))]

def executing : Script Call := [(signedBy 90000 [0], .executeWithdrawal (.account 0) 1)]

/-- The policy is asked when the withdrawal is executed. -/
theorem policy_gate_execution :
    let s := play (deployed (funded 0)) queuedBefore
    Governed referenceHost (signedBy 90000 [0]) (.contract 9) s (play s executing) := by
  have hstart : (machine referenceHost).Path keepsPolicy [] (deployed (funded 0)) 0 :=
    .start (funded_fresh le_rfl)
  have hallow : (deployment referenceHost).AllAllowed keepsPolicy (deployed (funded 0))
      (queuedBefore ++ executing) :=
    ⟨fun _ _ _ _ => id, fun _ _ _ _ => id, fun _ _ _ _ => id, fun _ _ _ _ => id,
      fun _ _ _ _ => id, fun _ _ _ _ => id, fun _ _ _ _ => id, trivial⟩
  have hpath := Deployment.path_play hstart rfl hallow
  have hlast : (⟨play (deployed (funded 0)) queuedBefore,
      .invoke (signedBy 90000 [0]) (.executeWithdrawal (.account 0) 1),
      play (play (deployed (funded 0)) queuedBefore) executing⟩ :
        Entry (State Ledger) (Inputs referenceHost))
      ∈ (deployment referenceHost).trace (deployed (funded 0)) (queuedBefore ++ executing) :=
    List.mem_of_getLast? rfl
  exact policy_gate referenceHost _ _ _ hpath _ hlast _ _ _ _ rfl rfl rfl

/-- The reference deployment under policies that refuse everything. -/
def refusingHost : TreasuryHost Ledger :=
  { referenceHost with checkTransfer := fun _ _ _ _ _ _ _ => none }

/-- After the opening, a milestone of 60 is due to account 2 and `contract 9` is wired as
the policy. -/
def milestoneDue : Script Call :=
  opening ++
    [(signedBy 2 [0], .initMilestoneDisbursement (.account 0) (.contract 7) (.account 2) 60 1),
      (signedBy 3 [0], .setPolicy (.account 0) (.contract 9))]

def release : Script Call := [(signedBy 4 [0], .releaseNextMilestone (.account 0) 1)]

/-- **A milestone gets past the policy.**  It pays 60 under a policy that refuses
everything. -/
theorem not_policy_gate :
    ¬ ∀ tr s now, (machine refusingHost).Path Machine.anyInput tr s now →
      ∀ e ∈ tr, ∀ (env : Env refusingHost.self) call t policy, e.input = .invoke env call →
      e.pre.treasury = some t → t.policy = some policy →
      Governed refusingHost env policy e.pre e.post := by
  intro h
  have hreference : Fresh referenceHost (deployed (funded 0)) := funded_fresh le_rfl
  have hfresh : Fresh refusingHost (deployed (funded 0)) := { hreference with }
  let s := (deployment refusingHost).play (deployed (funded 0)) milestoneDue
  have hplays : (deployment refusingHost).plays (deployed (funded 0)) 0 milestoneDue = true := rfl
  have hreleases : (deployment refusingHost).plays s 3 release = true := by
    decide
  obtain ⟨tr, hpath⟩ := Deployment.anyPath_play hfresh hplays
  have hpath' := Deployment.path_playing hpath hreleases
  obtain ⟨new, hnew, happroved⟩ := h _ _ _ hpath'
    ⟨s, .invoke (signedBy 4 [0]) (.releaseNextMilestone (.account 0) 1), _⟩
    (List.mem_append_right _ (List.mem_singleton_self _)) _ _ _ _ rfl rfl rfl
  -- the policy never answers, so nothing can have been paid
  have hnone : new = [] := by
    rw [List.eq_nil_iff_forall_not_mem]
    intro o ho
    obtain ⟨_, ⟨_, _, _, hasked, _⟩, _⟩ := happroved o ho
    cases hasked
  rw [hnone] at hnew
  revert hnew
  decide

end TreasuryContract
end Astroid
