import Astroid.Policy.Effects

/-!
# Requests of several assets

A request counts by what it asks for of each asset, however it is split and ordered; it is
recorded exactly when its check passes; and a request of one entry is a transfer
(`requests_by_total`).
-/

namespace Astroid
namespace PolicyContract

open Outcome

variable {self : Address} {env : Env self} {s : State} {id : String}
  {recipient caller asset : Address} {amounts amounts' : List SpendEntry}

/-- Only the totals are evaluated. -/
theorem evaluateSpend_congr (h : Request amounts) (h' : Request amounts')
    (htotals : ∀ asset, asked asset amounts = asked asset amounts') :
    evaluateSpend env s id recipient amounts = evaluateSpend env s id recipient amounts' := by
  unfold evaluateSpend
  rw [aggregateAmounts_congr h h' htotals]

theorem checkMultiAssetTransfer_eq_ok :
    checkMultiAssetTransfer env s id recipient amounts = .ok () ↔
      ∃ spend, evaluateSpend env s id recipient amounts = .ok spend := by
  simp only [checkMultiAssetTransfer, bind_eq_ok, pure_eq_ok, and_true]

/-- A spend is recorded exactly when its check passes. -/
theorem recordMultiAssetSpend_iff (hkeyed : Keyed s) (hauth : caller ∈ env.auths)
    (howns : s.Owns caller id) :
    (∃ s', recordMultiAssetSpend env s caller id recipient amounts = .ok s') ↔
      checkMultiAssetTransfer env s id recipient amounts = .ok () := by
  rw [checkMultiAssetTransfer_eq_ok]
  constructor
  · rintro ⟨s', h⟩
    simp only [recordMultiAssetSpend, bind_eq_ok] at h
    obtain ⟨_, _, spend, hspend, _⟩ := h
    exact ⟨spend, hspend⟩
  · rintro ⟨spend, hspend⟩
    exact recordMultiAssetSpend_returns hkeyed hauth howns hspend

/-- One entry is not too many. -/
theorem aggregateAmounts_one {entry : SpendEntry} :
    aggregateAmounts [entry] = addEntries ∅ [entry] := by
  have hlength : [entry].length ≤ maxSpendEntries := by
    unfold maxSpendEntries
    simp
  unfold aggregateAmounts
  rw [require_pos ⟨by simp, hlength⟩, ok_bind]

/-- The totals of one entry. -/
theorem aggregateAmounts_single {amount : I128} (hpos : 0 < amount.1) :
    aggregateAmounts [⟨asset, amount⟩] = .ok ((∅ : AddressMap ℤ).insert asset amount.1) := by
  have hadd : checkedAdd ((∅ : AddressMap ℤ)[asset]?.getD 0) amount.1 = .ok amount.1 := by
    rw [Std.ExtTreeMap.getElem?_empty, Option.getD_none]
    refine checkedAdd_eq_ok.2 ⟨?_, zero_add _⟩
    rw [zero_add]
    exact amount.2
  have hpositive : requirePositiveAmount amount.1 = .ok () := requirePositiveAmount_eq_ok.2 hpos
  rw [aggregateAmounts_one]
  simp only [addEntries, hpositive, ok_bind, hadd]
  rfl

/-- The check of one entry is the check of a transfer. -/
theorem checkMultiAssetTransfer_single {amount : I128} :
    checkMultiAssetTransfer env s id recipient [⟨asset, amount⟩]
      = checkTransfer env s id asset recipient amount := by
  unfold checkMultiAssetTransfer checkTransfer evaluateSpend
  by_cases hpos : 0 < amount.1
  · have hpositive : requirePositiveAmount amount.1 = .ok () := requirePositiveAmount_eq_ok.2 hpos
    rw [aggregateAmounts_single hpos, hpositive]
    simp only [ok_bind, AddressMap.toList_insert_empty, Records.evaluatePolicyDecision]
    cases (s.records id).policy with
    | none => rfl
    | some policy =>
        simp only [okOr, orFail, ok_bind]
        cases (s.records id).screenRecipientRules (s.listings recipient) env.timestamp.toNat policy
          recipient .default with
        | error fault => rfl
        | ok screened =>
            simp only [ok_bind]
            cases screened.1 with
            | some reason => rfl
            | none =>
                simp only [Records.screenLegs]
                cases (s.records id).screenAssetRules (s.listings recipient) env.timestamp.toNat
                  policy asset recipient amount.1 screened.2 with
                | error fault => rfl
                | ok leg =>
                    simp only [ok_bind]
                    cases leg.1 with
                    | denied reason => rfl
                    | passed allowance => rfl
  · -- an amount that is not positive is refused by both before anything else
    have hrefused : requirePositiveAmount amount.1 = .error (.error .invalidAmount) :=
      require_neg hpos
    rw [aggregateAmounts_one]
    simp only [addEntries, hrefused]
    rfl

/-- **A request counts by its totals.**  In every state of a run, two requests with the same
totals get the same verdict and leave the same state; the owner's request is recorded
exactly when its check passes, and otherwise nothing changes; and a single entry is
checked as a transfer is. -/
theorem requests_by_total (hs : Reachable self s) (env : Env self) (id : String)
    (recipient : Address) :
    (∀ amounts amounts', Request amounts → Request amounts' →
      (∀ asset, asked asset amounts = asked asset amounts') →
      checkMultiAssetTransfer env s id recipient amounts
          = checkMultiAssetTransfer env s id recipient amounts' ∧
        ∀ caller, recordMultiAssetSpend env s caller id recipient amounts
          = recordMultiAssetSpend env s caller id recipient amounts') ∧
    (∀ caller amounts, caller ∈ env.auths → s.Owns caller id →
      ((∃ s', recordMultiAssetSpend env s caller id recipient amounts = .ok s') ↔
        checkMultiAssetTransfer env s id recipient amounts = .ok ())) ∧
    (∀ caller amounts, (∀ s', recordMultiAssetSpend env s caller id recipient amounts ≠ .ok s') →
      (deployment self).after s (env, .recordMultiAssetSpend caller id recipient amounts) = s) ∧
    ∀ asset (amount : I128), checkMultiAssetTransfer env s id recipient [⟨asset, amount⟩]
      = checkTransfer env s id asset recipient amount := by
  refine ⟨?_, ?_, ?_, fun _ _ => checkMultiAssetTransfer_single⟩
  · intro amounts amounts' h h' htotals
    have hsame : evaluateSpend env s id recipient amounts
        = evaluateSpend env s id recipient amounts' := evaluateSpend_congr h h' htotals
    refine ⟨?_, ?_⟩
    · unfold checkMultiAssetTransfer
      rw [hsame]
    · intro caller
      unfold recordMultiAssetSpend
      rw [hsame]
  · intro caller amounts hauth howns
    exact recordMultiAssetSpend_iff (keyed_reachable hs) hauth howns
  · intro caller amounts hrefused
    unfold Deployment.after
    dsimp only [deployment, exec]
    cases h : recordMultiAssetSpend env s caller id recipient amounts with
    | ok s' => exact absurd h (hrefused s')
    | error fault => rfl

/-! ## A split request -/

/-- Account 1 allows 100 of `contract 5` under its policy. -/
def allowing : Script Call :=
  [(signedBy 0 [1], registering 1 "ops"),
    (signedBy 0 [1], .setAllowance (.account 1) "ops" (.contract 5) ⟨100, isI128_hundred⟩ 0)]

/-- Asking for 60 twice is asking for 120. -/
theorem requests_by_total_split :
    let s := play deployed allowing
    checkMultiAssetTransfer (signedBy 1 [1]) s "ops" (.account 9)
        [⟨.contract 5, ⟨60, by decide⟩⟩, ⟨.contract 5, ⟨60, by decide⟩⟩]
      = checkMultiAssetTransfer (signedBy 1 [1]) s "ops" (.account 9)
        [⟨.contract 5, ⟨120, by decide⟩⟩] := by
  intro s
  have hplays : (deployment (.contract 0)).plays deployed 0 allowing = true := by
    decide
  have hreachable : Reachable (.contract 0) s := Deployment.reachable_play deployed_fresh hplays
  have hsplit : Request [⟨.contract 5, ⟨60, by decide⟩⟩, ⟨.contract 5, ⟨60, by decide⟩⟩] :=
    ⟨by simp, by decide, by decide⟩
  have hwhole : Request [⟨.contract 5, ⟨120, by decide⟩⟩] := ⟨by simp, by decide, by decide⟩
  refine ((requests_by_total hreachable (signedBy 1 [1]) "ops" (.account 9)).1 _ _ hsplit hwhole
    ?_).1
  intro asset
  simp only [asked_cons]
  split <;> rfl

end PolicyContract
end Astroid
