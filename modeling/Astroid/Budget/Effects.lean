import Astroid.Budget.Settlement
import Astroid.Budget.Machine

/-!
# What a successful budget call did to one record

A stored record is never removed, and every call that returns did one thing to it
(`exec_effect`): most calls leave it alone, and the others settle it first, unless they
only change its state, restart it or move its limit.  A record that appears was
allocated (`exec_allocated`).
-/

namespace Astroid
namespace BudgetContract

open Outcome Budget

variable {self : Address} {env : Env self} {s s' : State} {id : String} {caller : Address}
  {b b' : Budget}

/-! ## Reading and writing -/

theorem load_eq_ok : s.load id = .ok b ↔ s.budget id = some b := okOr_eq_ok

@[simp] theorem store_budget : (s.store id b).budget id = some b := Function.update_self ..

theorem store_budget_ne {id' : String} (h : id ≠ id') :
    (s.store id' b).budget id = s.budget id :=
  Function.update_of_ne h ..

theorem requireOwner_eq_ok :
    requireOwner env s id caller = .ok b ↔
      caller ∈ env.auths ∧ s.budget id = some b ∧ b.owner = caller := by
  simp only [requireOwner, bind_eq_ok, requireAuth_eq_ok, load_eq_ok, require_eq_ok, pure_eq_ok]
  constructor
  · rintro ⟨_, hauth, _, hb, _, howner, rfl⟩
    exact ⟨hauth, hb, howner⟩
  · rintro ⟨hauth, hb, howner⟩
    exact ⟨(), hauth, _, hb, (), howner, rfl⟩

theorem requireActive_eq_ok {u : Unit} : requireActive b = .ok u ↔ b.state = .active := by
  unfold requireActive
  cases b.state <;> simp

/-! ## The configuration -/

/-- The record under a new recurrence. -/
def Budget.recurring (b : Budget) (period : Period) (periodSeconds : ℕ) (rolloverEnabled : Bool)
    (rolloverCap rolloverMaxBps : ℤ) : Budget :=
  { b with
    period := period
    periodSeconds := if period = .custom then periodSeconds else 0
    rolloverEnabled := rolloverEnabled
    rolloverCap := rolloverCap
    rolloverMaxBps := rolloverMaxBps
    rolloverBps :=
      if rolloverEnabled = true ∧ b.rolloverBps = 0 then bpsDenominator
      else if rolloverEnabled = false then 0
      else b.rolloverBps }

/-- A new policy changes the credit alone, and keeps none where nothing rolls over. -/
theorem clampCredit_ok (h : clampCredit b = .ok b') :
    ∃ credit, b' = { b with rolloverCredit := credit } ∧
      (b.rolloverEnabled = false → credit = 0) ∧
      (b.WellFormed → 0 ≤ credit ∧ credit ≤ i128Max) := by
  unfold clampCredit at h
  split at h
  · cases h
    exact ⟨0, rfl, fun _ => rfl, fun _ => ⟨le_rfl, by decide⟩⟩
  · rename_i henabled
    split at h
    · rw [bind_eq_ok] at h
      obtain ⟨cap, hcap, hb'⟩ := h
      cases hb'
      refine ⟨_, rfl, fun hdisabled => absurd hdisabled henabled, ?_⟩
      intro hwell
      rw [effectiveRolloverCap_eq hwell, Except.ok.injEq] at hcap
      subst hcap
      have hcredit := hwell.credit
      exact ⟨Lazy.clamp_nonneg (rolloverCeiling_nonneg hwell) hcredit.1,
        Lazy.clamp_le.trans hcredit.2⟩
    · cases h
      exact ⟨b.rolloverCredit, rfl, fun hdisabled => absurd hdisabled henabled, WellFormed.credit⟩

/-! ## Effects -/

/-- The call is about the record of `id`. -/
def Call.Writes (id : String) : Call → Prop
  | .setRecurrence _ id' _ _ _ _ _ | .setRolloverConfig _ id' _ _ _ | .reset _ id'
  | .rollover _ id' | .setLimit _ id' _ | .freeze _ id' | .unfreeze _ id' | .archive _ id'
  | .consume _ id' _ | .release _ id' _ | .remaining id' => id' = id
  | .transferAllocation _ srcId dstId _ => srcId = id ∨ dstId = id
  | _ => False

/-- What may be spent in the window in all, without a first overspend. -/
def Budget.ceiling (b : Budget) : ℤ :=
  b.capacity - if b.allowDeficit = true ∧ 0 < b.deficitAmount then b.deficitAmount else 0

/-- A deficit is repaid out of the capacity. -/
theorem Budget.effectiveRemaining_eq_ok {b : Budget} {x : ℤ} (h : b.WellFormed) :
    b.effectiveRemaining = .ok x ↔ b.capacity ≤ i128Max ∧ IsI128 x ∧ x = b.ceiling - b.spent := by
  have hdeficit := h.deficit
  have hcapacity0 : 0 ≤ b.capacity := add_nonneg h.limit.1 h.credit.1
  unfold effectiveRemaining ceiling
  by_cases howed : b.allowDeficit = true ∧ 0 < b.deficitAmount
  · simp only [if_pos howed, bind_eq_ok, capacity_eq_ok h, checkedSub_eq_ok]
    constructor
    · rintro ⟨_, ⟨hcapacity, rfl⟩, _, ⟨_, rfl⟩, hrange, rfl⟩
      exact ⟨hcapacity, hrange, rfl⟩
    · rintro ⟨hcapacity, hrange, rfl⟩
      refine ⟨_, ⟨hcapacity, rfl⟩, _, ⟨?_, rfl⟩, hrange, rfl⟩
      unfold IsI128 i128Min
      unfold i128Max at *
      omega
  · simp only [if_neg howed, sub_zero, bind_eq_ok, capacity_eq_ok h, checkedSub_eq_ok]
    constructor
    · rintro ⟨_, ⟨hcapacity, rfl⟩, hrange, rfl⟩
      exact ⟨hcapacity, hrange, rfl⟩
    · rintro ⟨hcapacity, hrange, rfl⟩
      exact ⟨_, ⟨hcapacity, rfl⟩, hrange, rfl⟩

/-- What a call that returned did to the record `b` of `id`. -/
inductive Effect (now : UInt64) (id : String) (b : Budget) : Call → Budget → Prop
  | kept {call : Call} : ¬ call.Writes id → Effect now id b call b
  | freeze {caller : Address} : Effect now id b (.freeze caller id) { b with state := .frozen }
  | unfreeze {caller : Address} : Effect now id b (.unfreeze caller id) { b with state := .active }
  | archive {caller : Address} : Effect now id b (.archive caller id) { b with state := .archived }
  | reset {caller : Address} : Effect now id b (.reset caller id)
      { b with spent := 0, rolloverCredit := 0, windowStart := now.toNat }
  | transferOut {caller : Address} {dstId : String} {amount : I128} : 0 < amount.1 →
      amount.1 ≤ b.limit - b.spent → Effect now id b (.transferAllocation caller id dstId amount)
        { b with limit := b.limit - amount.1 }
  | transferIn {caller : Address} {srcId : String} {amount : I128} : 0 < amount.1 →
      b.limit + amount.1 ≤ i128Max → Effect now id b (.transferAllocation caller srcId id amount)
        { b with limit := b.limit + amount.1 }
  | setRecurrence {caller : Address} {period : Period} {periodSeconds : UInt64} {enabled : Bool}
      {cap maxBps : I128} {r c : Budget} {start : ℕ} : r = b ∨ b.settle now = .ok r →
      0 ≤ cap.1 → 0 ≤ maxBps.1 → maxBps.1 < bpsDenominator →
      ¬ (period = .custom ∧ periodSeconds.toNat = 0) →
      clampCredit (r.recurring period periodSeconds.toNat enabled cap maxBps) = .ok c →
      Effect now id b (.setRecurrence caller id period periodSeconds enabled cap maxBps)
        { c with windowStart := start }
  | setRolloverConfig {caller : Address} {enabled : Bool} {bps cap : I128} {r c : Budget} :
      b.settle now = .ok r → 0 ≤ cap.1 → 0 ≤ bps.1 → bps.1 ≤ bpsDenominator →
      clampCredit { r with rolloverEnabled := enabled, rolloverBps := bps.1, rolloverCap := cap.1 }
        = .ok c → Effect now id b (.setRolloverConfig caller id enabled bps cap) c
  | setLimit {caller : Address} {newLimit : I128} {r : Budget} : b.settle now = .ok r →
      0 ≤ newLimit.1 → Effect now id b (.setLimit caller id newLimit) { r with limit := newLimit.1 }
  | rollover {caller : Address} {r : Budget} : b.settle now = .ok r →
      Effect now id b (.rollover caller id) r
  | consume {caller : Address} {amount : I128} {r : Budget} : b.settle now = .ok r →
      0 < amount.1 → r.spent + amount.1 ≤ i128Max →
      r.spent + amount.1 ≤ r.ceiling ∨ (r.allowDeficit = true ∧ r.deficitAmount = 0) →
      Effect now id b (.consume caller id amount) { r with spent := r.spent + amount.1 }
  | release {caller : Address} {amount : I128} {r : Budget} : b.settle now = .ok r →
      0 < amount.1 → amount.1 ≤ r.spent →
      Effect now id b (.release caller id amount) { r with spent := r.spent - amount.1 }
  | remaining {r : Budget} : b.settle now = .ok r → Effect now id b (.remaining id) r
  | unsettled : (now.toNat < b.windowStart ∨ ∀ r, b.settle now ≠ .ok r) →
      Effect now id b (.remaining id) b

/-- A call that wrote one stored record. -/
def Rewrites (now : UInt64) (id : String) (call : Call) (s s' : State) : Prop :=
  ∃ b b', s.budget id = some b ∧ Effect now id b call b' ∧
    s'.budget = Function.update s.budget id (some b')

/-- It left the limits of the tokens as they are. -/
structure Stores (now : UInt64) (id : String) (call : Call) (s s' : State) : Prop where
  rewrites : Rewrites now id call s s'
  assets : s'.assetBudget = s.assetBudget

section Calls

variable {amount : I128}

theorem freeze_ok (h : freeze env s caller id = .ok s') :
    Stores env.timestamp id (.freeze caller id) s s' := by
  simp only [freeze, bind_eq_ok, requireOwner_eq_ok, pure_eq_ok] at h
  obtain ⟨b, ⟨_, hb, _⟩, _, _, rfl⟩ := h
  exact ⟨⟨b, _, hb, .freeze, rfl⟩, rfl⟩

theorem unfreeze_ok (h : unfreeze env s caller id = .ok s') :
    Stores env.timestamp id (.unfreeze caller id) s s' := by
  simp only [unfreeze, bind_eq_ok, requireOwner_eq_ok, pure_eq_ok] at h
  obtain ⟨b, ⟨_, hb, _⟩, _, _, rfl⟩ := h
  exact ⟨⟨b, _, hb, .unfreeze, rfl⟩, rfl⟩

theorem archive_ok (h : archive env s caller id = .ok s') :
    Stores env.timestamp id (.archive caller id) s s' := by
  simp only [archive, bind_eq_ok, requireOwner_eq_ok, pure_eq_ok] at h
  obtain ⟨b, ⟨_, hb, _⟩, rfl⟩ := h
  exact ⟨⟨b, _, hb, .archive, rfl⟩, rfl⟩

theorem reset_ok (h : reset env s caller id = .ok s') :
    Stores env.timestamp id (.reset caller id) s s' := by
  simp only [reset, bind_eq_ok, requireOwner_eq_ok, pure_eq_ok] at h
  obtain ⟨b, ⟨_, hb, _⟩, _, _, _, _, _, _, rfl⟩ := h
  exact ⟨⟨b, _, hb, .reset, rfl⟩, rfl⟩

theorem rollover_ok (h : rollover env s caller id = .ok s') :
    Stores env.timestamp id (.rollover caller id) s s' := by
  simp only [rollover, bind_eq_ok, requireOwner_eq_ok, pure_eq_ok] at h
  obtain ⟨b, ⟨_, hb, _⟩, _, _, r, hsettle, rfl⟩ := h
  exact ⟨⟨b, _, hb, .rollover hsettle, rfl⟩, rfl⟩

theorem setLimit_ok {newLimit : I128} (h : setLimit env s caller id newLimit = .ok s') :
    Stores env.timestamp id (.setLimit caller id newLimit) s s' := by
  simp only [setLimit, requireValidLimit, bind_eq_ok, requireOwner_eq_ok, require_eq_ok,
    pure_eq_ok] at h
  obtain ⟨_, hvalid, b, ⟨_, hb, _⟩, _, _, r, hsettle, _, _, rfl⟩ := h
  exact ⟨⟨b, _, hb, .setLimit hsettle hvalid, rfl⟩, rfl⟩

theorem setRolloverConfig_ok {enabled : Bool} {bps cap : I128}
    (h : setRolloverConfig env s caller id enabled bps cap = .ok s') :
    Stores env.timestamp id (.setRolloverConfig caller id enabled bps cap) s s' := by
  simp only [setRolloverConfig, requireValidLimit, requireRolloverBps, bind_eq_ok,
    requireOwner_eq_ok, require_eq_ok, pure_eq_ok] at h
  obtain ⟨_, hcap, _, ⟨_, hbps, hmax⟩, b, ⟨_, hb, _⟩, _, _, _, _, r, hsettle, c, hclamp, rfl⟩ := h
  exact ⟨⟨b, _, hb, .setRolloverConfig hsettle hcap hbps hmax hclamp, rfl⟩, rfl⟩

theorem setRecurrence_ok {period : Period} {periodSeconds : UInt64} {enabled : Bool}
    {cap maxBps : I128}
    (h : setRecurrence env s caller id period periodSeconds.toNat enabled cap maxBps = .ok s') :
    Stores env.timestamp id (.setRecurrence caller id period periodSeconds enabled cap maxBps)
      s s' := by
  simp only [setRecurrence, requireValidLimit, bind_eq_ok, requireOwner_eq_ok, require_eq_ok] at h
  obtain ⟨_, hcap, _, hmax0, _, hmax, _, hperiod, b, ⟨_, hb, _⟩, _, _, h⟩ := h
  by_cases hscheduled : decide (env.timestamp.toNat < b.windowStart) = true
  · simp only [if_pos hscheduled, bind_eq_ok, pure_eq_ok] at h
    obtain ⟨_, _, _, rfl, c, hclamp, rfl⟩ := h
    exact ⟨⟨b, c, hb, .setRecurrence (.inl rfl) hcap hmax0 hmax hperiod hclamp, rfl⟩, rfl⟩
  · simp only [if_neg hscheduled, bind_eq_ok, pure_eq_ok] at h
    obtain ⟨r, hsettle, c, hclamp, rfl⟩ := h
    exact ⟨⟨b, _, hb, .setRecurrence (.inr hsettle) hcap hmax0 hmax hperiod hclamp, rfl⟩, rfl⟩

theorem release_ok {x : ℤ} (h : release env s caller id amount = .ok (x, s')) :
    Stores env.timestamp id (.release caller id amount) s s' := by
  simp only [release, bind_eq_ok, requirePositiveAmount_eq_ok, requireOwner_eq_ok, require_eq_ok,
    checkedSub_eq_ok, pure_eq_ok, Prod.mk.injEq] at h
  obtain ⟨_, hpos, b, ⟨_, hb, _⟩, _, _, r, hsettle, _, hcovered, _, ⟨_, rfl⟩, _, _, _, rfl⟩ := h
  exact ⟨⟨b, _, hb, .release hsettle hpos hcovered, rfl⟩, rfl⟩

/-- A query writes nothing when the budget has not started or cannot be settled. -/
theorem remaining_ok {x : ℤ} (h : remaining env s id = .ok (x, s')) :
    Stores env.timestamp id (.remaining id) s s' := by
  simp only [remaining, bind_eq_ok, load_eq_ok] at h
  obtain ⟨b, hb, h⟩ := h
  have hself : s.budget = Function.update s.budget id (some b) :=
    (Function.update_eq_self_iff.2 hb.symm).symm
  split at h
  · rename_i hscheduled
    cases h
    exact ⟨⟨b, b, hb, .unsettled (.inl hscheduled), hself⟩, rfl⟩
  · split at h
    · rename_i r hsettle
      rw [bind_eq_ok] at h
      obtain ⟨_, _, hstored⟩ := h
      cases hstored
      exact ⟨⟨b, r, hb, .remaining hsettle, rfl⟩, rfl⟩
    · rename_i hfails
      cases h
      refine ⟨⟨b, b, hb, .unsettled (.inr ?_), hself⟩, rfl⟩
      intro r hr
      have hsettle : b.windowTransition env.timestamp.toNat = .ok r := hr
      rw [hsettle] at hfails
      cases hfails

/-- What `consume` does once the ceiling of the window is known. -/
theorem consume_tail {r : Budget} {capacity ceiling newSpent x : ℤ}
    (h : ((if ceiling < newSpent then
        if r.allowDeficit = true ∧ r.deficitAmount = 0 then do
          let remaining ← intoSpend (checkedSub capacity newSpent)
          pure (remaining, s.store id { r with spent := newSpent })
        else do
          let _ ← intoSpend (checkedSub ceiling r.spent)
          .error (.budget .budgetExceeded)
      else do
        let remaining ← intoSpend (checkedSub ceiling newSpent)
        pure (remaining, s.store id { r with spent := newSpent })) : SpendResult (ℤ × State))
      = .ok (x, s')) :
    (newSpent ≤ ceiling ∨ (r.allowDeficit = true ∧ r.deficitAmount = 0)) ∧
      s' = s.store id { r with spent := newSpent } := by
  split at h
  · split at h
    · rename_i hfirst
      simp only [bind_eq_ok, pure_eq_ok, Prod.mk.injEq] at h
      obtain ⟨_, _, _, rfl⟩ := h
      exact ⟨.inr hfirst, rfl⟩
    · rw [bind_eq_ok] at h
      obtain ⟨_, _, hfail⟩ := h
      cases hfail
  · rename_i hinside
    simp only [bind_eq_ok, pure_eq_ok, Prod.mk.injEq] at h
    obtain ⟨_, _, _, rfl⟩ := h
    exact ⟨.inl (not_lt.1 hinside), rfl⟩

theorem consume_ok {x : ℤ} (h : consume env s caller id amount = .ok (x, s')) :
    Stores env.timestamp id (.consume caller id amount) s s' := by
  simp only [consume, bind_eq_ok, intoSpend_eq_ok, requirePositiveAmount_eq_ok,
    requireOwner_eq_ok, requireActive_eq_ok] at h
  obtain ⟨_, hpos, b, ⟨_, hb, _⟩, _, _, _, _, r, hsettle, capacity, hcapacity, h⟩ := h
  rw [checkedAdd_eq_ok] at hcapacity
  obtain ⟨_, rfl⟩ := hcapacity
  by_cases howed : r.allowDeficit = true ∧ 0 < r.deficitAmount
  · have hceiling : r.ceiling = r.limit + r.rolloverCredit - r.deficitAmount := by
      rw [Budget.ceiling, if_pos howed]
      rfl
    simp only [if_pos howed, bind_eq_ok, intoSpend_eq_ok, checkedSub_eq_ok, checkedAdd_eq_ok] at h
    obtain ⟨_, ⟨_, rfl⟩, _, ⟨⟨_, hroom⟩, rfl⟩, h⟩ := h
    obtain ⟨hgranted, rfl⟩ := consume_tail h
    rw [← hceiling] at hgranted
    exact ⟨⟨b, _, hb, .consume hsettle hpos hroom hgranted, rfl⟩, rfl⟩
  · have hceiling : r.ceiling = r.limit + r.rolloverCredit := by
      rw [Budget.ceiling, if_neg howed, sub_zero]
      rfl
    simp only [if_neg howed, pure_bind, bind_eq_ok, intoSpend_eq_ok, checkedAdd_eq_ok] at h
    obtain ⟨_, ⟨⟨_, hroom⟩, rfl⟩, h⟩ := h
    obtain ⟨hgranted, rfl⟩ := consume_tail h
    rw [← hceiling] at hgranted
    exact ⟨⟨b, _, hb, .consume hsettle hpos hroom hgranted, rfl⟩, rfl⟩

/-- A transfer moves a part of one limit to another. -/
theorem transferAllocation_ok {srcId dstId : String}
    (h : transferAllocation env s caller srcId dstId amount = .ok s') :
    srcId ≠ dstId ∧ ∃ src dst, s.budget srcId = some src ∧ s.budget dstId = some dst ∧
      0 < amount.1 ∧ amount.1 ≤ src.limit - src.spent ∧ dst.limit + amount.1 ≤ i128Max ∧
      s' = (s.store srcId { src with limit := src.limit - amount.1 }).store dstId
        { dst with limit := dst.limit + amount.1 } := by
  simp only [transferAllocation, bind_eq_ok, requirePositiveAmount_eq_ok, requireOwner_eq_ok,
    require_eq_ok, load_eq_ok, checkedSub_eq_ok, checkedAdd_eq_ok, pure_eq_ok] at h
  obtain ⟨_, hpos, _, hne, src, ⟨_, hsrc, _⟩, dst, hdst, _, _, _, _, _, _, _, _, _, _, _, ⟨_, rfl⟩,
    _, hcovered, _, ⟨_, rfl⟩, _, ⟨⟨_, hroom⟩, rfl⟩, rfl⟩ := h
  exact ⟨hne, src, dst, hsrc, hdst, hpos, hcovered, hroom, rfl⟩

/-- A record as it was allocated: nothing was spent and nothing is owed, and a deficit has a
window. -/
structure Allocated (b : Budget) : Prop where
  wellFormed : b.WellFormed
  spent : b.spent = 0
  credit : b.rolloverCredit = 0
  deficit : b.deficitAmount = 0
  recurs : b.allowDeficit = true → b.window ≠ none

theorem allocateInternal_ok {owner : Address} {limit : I128} {period : Period}
    {rolloverEnabled allowDeficit : Bool} {rolloverBps rolloverCap : ℤ} {startAt expiresAt : ℕ}
    (hcap : rolloverCap ≤ i128Max)
    (h : allocateInternal env s owner id limit period rolloverEnabled rolloverBps rolloverCap
      allowDeficit startAt expiresAt = .ok s') :
    s.budget id = none ∧ ∃ b, Allocated b ∧ s' = s.store id b := by
  simp only [allocateInternal, requireValidLimit, requireRolloverBps, bind_eq_ok, require_eq_ok,
    pure_eq_ok] at h
  obtain ⟨_, _, _, _, _, hlimit, _, hcap0, _, ⟨_, hbps0, hbps⟩, _, _, _, hrecurs, _, hnew, rfl⟩ := h
  refine ⟨hnew, _, ⟨?_, rfl, rfl, rfl, ?_⟩, rfl⟩
  · have hzero : (0 : ℤ) ≤ 0 ∧ (0 : ℤ) ≤ i128Max := by decide
    have hmax : (0 : ℤ) ≤ 0 ∧ (0 : ℤ) < bpsDenominator := by decide
    exact ⟨⟨hlimit, limit.2.2⟩, hzero, hzero, ⟨hcap0, hcap⟩, hmax, ⟨hbps0, hbps⟩, hzero⟩
  · intro hdeficit hnone
    exact hrecurs ⟨hdeficit, hnone⟩

end Calls

theorem getAssetBudget_budget {token : Address} {asset : AssetBudget}
    (h : getAssetBudget env s id token = .ok (asset, s')) : s'.budget = s.budget := by
  simp only [getAssetBudget, bind_eq_ok, pure_eq_ok, Prod.mk.injEq] at h
  obtain ⟨_, _, _, rfl⟩ := h
  rfl

theorem assetRemaining_budget {token : Address} {x : ℤ}
    (h : assetRemaining env s id token = .ok (x, s')) : s'.budget = s.budget := by
  simp only [assetRemaining, bind_eq_ok] at h
  obtain ⟨⟨asset, s₁⟩, hget, b, _, h⟩ := h
  rw [← getAssetBudget_budget hget]
  split at h
  · cases h
    rfl
  · simp only [bind_eq_ok, pure_eq_ok, Prod.mk.injEq] at h
    obtain ⟨_, _, _, _, _, rfl⟩ := h
    rfl

/-- The legs of a batch are written to the asset limits alone. -/
theorem storeLegs_budget (legs : List (Address × AssetBudget)) (s : State) :
    (legs.foldl (fun s leg => s.storeAsset id leg.1 leg.2) s).budget = s.budget := by
  induction legs generalizing s with
  | nil => rfl
  | cons leg rest ih => exact ih _

/-- What a call that returned did to the records. -/
inductive Wrote (now : UInt64) (call : Call) (s s' : State) : Prop
  | nothing : (∀ id, ¬ call.Writes id) → s'.budget = s.budget → Wrote now call s s'
  | allocated (id : String) (b : Budget) : (∀ id, ¬ call.Writes id) → s.budget id = none →
      Allocated b → s'.budget = Function.update s.budget id (some b) → Wrote now call s s'
  | one (id : String) : (∀ id', call.Writes id' → id' = id) → Rewrites now id call s s' →
      Wrote now call s s'
  | transferred (caller : Address) (srcId dstId : String) (amount : I128) (src dst : Budget) :
      call = .transferAllocation caller srcId dstId amount → srcId ≠ dstId →
      s.budget srcId = some src → s.budget dstId = some dst → 0 < amount.1 →
      amount.1 ≤ src.limit - src.spent → dst.limit + amount.1 ≤ i128Max →
      s' = (s.store srcId { src with limit := src.limit - amount.1 }).store dstId
        { dst with limit := dst.limit + amount.1 } → Wrote now call s s'

theorem exec_wrote {call : Call} (h : exec env s call = .ok s') :
    Wrote env.timestamp call s s' := by
  cases call with
  | initializeContract admin =>
      simp only [exec, initializeContract, bind_eq_ok, pure_eq_ok] at h
      obtain ⟨_, _, rfl⟩ := h
      exact .nothing (fun _ hw => hw) rfl
  | allocate owner id limit period rolloverEnabled expiresAt =>
      obtain ⟨hnew, b, hb, rfl⟩ := allocateInternal_ok (by decide) h
      exact .allocated id b (fun _ hw => hw) hnew hb rfl
  | allocateWithDeficit owner id limit period rolloverEnabled allowDeficit expiresAt =>
      obtain ⟨hnew, b, hb, rfl⟩ := allocateInternal_ok (by decide) h
      exact .allocated id b (fun _ hw => hw) hnew hb rfl
  | allocateScheduled owner id limit period rolloverEnabled startAt expiresAt =>
      obtain ⟨hnew, b, hb, rfl⟩ := allocateInternal_ok (by decide) h
      exact .allocated id b (fun _ hw => hw) hnew hb rfl
  | allocateWithRollover owner id limit period rolloverEnabled rolloverBps maxRolloverCap
      expiresAt =>
      simp only [exec, allocateWithRollover, bind_eq_ok] at h
      obtain ⟨_, _, _, _, h⟩ := h
      obtain ⟨hnew, b, hb, rfl⟩ := allocateInternal_ok maxRolloverCap.2.2 h
      exact .allocated id b (fun _ hw => hw) hnew hb rfl
  | setRecurrence caller id period periodSeconds rolloverEnabled rolloverCap rolloverMaxBps =>
      exact .one id (fun _ hw => hw.symm) (setRecurrence_ok h).rewrites
  | setRolloverConfig caller id rolloverEnabled rolloverBps maxRolloverCap =>
      exact .one id (fun _ hw => hw.symm) (setRolloverConfig_ok h).rewrites
  | reset caller id => exact .one id (fun _ hw => hw.symm) (reset_ok h).rewrites
  | rollover caller id => exact .one id (fun _ hw => hw.symm) (rollover_ok h).rewrites
  | setLimit caller id newLimit => exact .one id (fun _ hw => hw.symm) (setLimit_ok h).rewrites
  | freeze caller id => exact .one id (fun _ hw => hw.symm) (freeze_ok h).rewrites
  | unfreeze caller id => exact .one id (fun _ hw => hw.symm) (unfreeze_ok h).rewrites
  | archive caller id => exact .one id (fun _ hw => hw.symm) (archive_ok h).rewrites
  | transferAllocation caller srcId dstId amount =>
      obtain ⟨hne, src, dst, hsrc, hdst, hpos, hcovered, hroom, rfl⟩ := transferAllocation_ok h
      exact .transferred caller srcId dstId amount src dst rfl hne hsrc hdst hpos hcovered hroom rfl
  | setBudgetLimit caller id token limit windowSeconds =>
      simp only [exec, setBudgetLimit, registerAsset, bind_eq_ok, pure_eq_ok] at h
      obtain ⟨_, _, _, _, _, _, _, _, rfl⟩ := h
      exact .nothing (fun _ hw => hw) rfl
  | setBudgetLimitWithRollover caller id token limit windowSeconds rolloverEnabled rolloverBps
      maxRolloverCap =>
      simp only [exec, setBudgetLimitWithRollover, registerAsset, bind_eq_ok, pure_eq_ok] at h
      obtain ⟨_, _, _, _, _, _, _, _, _, _, _, _, rfl⟩ := h
      exact .nothing (fun _ hw => hw) rfl
  | setAssetRolloverConfig caller id token rolloverEnabled rolloverBps maxRolloverCap =>
      simp only [exec, setAssetRolloverConfig, bind_eq_ok, pure_eq_ok] at h
      obtain ⟨_, _, _, _, _, _, _, _, _, _, _, _, rfl⟩ := h
      exact .nothing (fun _ hw => hw) rfl
  | checkAndRecordSpend caller id token amount =>
      simp only [exec, checkAndRecordSpend, ofSpend_eq_ok, bind_eq_ok, pure_eq_ok] at h
      obtain ⟨_, _, _, _, _, _, _, _, _, _, _, _, rfl⟩ := h
      exact .nothing (fun _ hw => hw) rfl
  | checkAndRecordBatchSpend caller id spends =>
      simp only [exec, checkAndRecordBatchSpend, ofSpend_eq_ok, bind_eq_ok, pure_eq_ok] at h
      obtain ⟨_, _, _, _, settled, _, rfl⟩ := h
      exact .nothing (fun _ hw => hw) (storeLegs_budget settled s)
  | getAssetBudget id token =>
      obtain ⟨_, h⟩ := snd_map_ok h
      exact .nothing (fun _ hw => hw) (getAssetBudget_budget h)
  | assetRemaining id token =>
      obtain ⟨_, h⟩ := snd_map_ok h
      exact .nothing (fun _ hw => hw) (assetRemaining_budget h)
  | consume caller id amount =>
      obtain ⟨_, h⟩ := snd_map_ok h
      exact .one id (fun _ hw => hw.symm) (consume_ok (ofSpend_eq_ok.1 h)).rewrites
  | release caller id amount =>
      obtain ⟨_, h⟩ := snd_map_ok h
      exact .one id (fun _ hw => hw.symm) (release_ok h).rewrites
  | remaining id =>
      obtain ⟨_, h⟩ := snd_map_ok h
      exact .one id (fun _ hw => hw.symm) (remaining_ok h).rewrites

/-- **Every call that returned did one thing to a stored record.** -/
theorem exec_effect {call : Call} (hb : s.budget id = some b) (h : exec env s call = .ok s') :
    ∃ b', s'.budget id = some b' ∧ Effect env.timestamp id b call b' := by
  cases exec_wrote h with
  | nothing hnone hsame =>
      rw [hsame]
      exact ⟨b, hb, .kept (hnone id)⟩
  | allocated id' b₁ hnone hnew _ hs' =>
      have hne : id ≠ id' := by
        rintro rfl
        rw [hb] at hnew
        cases hnew
      rw [hs', Function.update_of_ne hne]
      exact ⟨b, hb, .kept (hnone id)⟩
  | one id' honly hrewrites =>
      obtain ⟨b₁, b₁', hb₁, heffect, hs'⟩ := hrewrites
      rw [hs']
      by_cases hid : id = id'
      · subst hid
        rw [hb, Option.some.injEq] at hb₁
        subst hb₁
        exact ⟨b₁', Function.update_self .., heffect⟩
      · rw [Function.update_of_ne hid]
        exact ⟨b, hb, .kept fun hwrites => hid (honly id hwrites)⟩
  | transferred caller srcId dstId amount src dst hcall hne hsrc hdst hpos hcovered hroom hs' =>
      subst hcall hs'
      by_cases hin : id = dstId
      · subst hin
        rw [hb, Option.some.injEq] at hdst
        subst hdst
        exact ⟨_, store_budget, .transferIn hpos hroom⟩
      · rw [store_budget_ne hin]
        by_cases hout : id = srcId
        · subst hout
          rw [hb, Option.some.injEq] at hsrc
          subst hsrc
          exact ⟨_, store_budget, .transferOut hpos hcovered⟩
        · rw [store_budget_ne hout]
          exact ⟨b, hb, .kept fun hwrites => hwrites.elim (fun h => hout h.symm) fun h => hin h.symm⟩

/-- A record that appears was allocated. -/
theorem exec_allocated {call : Call} (hnone : s.budget id = none) (hb' : s'.budget id = some b')
    (h : exec env s call = .ok s') : Allocated b' := by
  cases exec_wrote h with
  | nothing _ hsame =>
      rw [hsame, hnone] at hb'
      cases hb'
  | allocated id' b _ _ hallocated hs' =>
      rw [hs'] at hb'
      by_cases hid : id = id'
      · subst hid
        rw [Function.update_self, Option.some.injEq] at hb'
        subst hb'
        exact hallocated
      · rw [Function.update_of_ne hid, hnone] at hb'
        cases hb'
  | one id' _ hrewrites =>
      obtain ⟨b, b', hb, _, hs'⟩ := hrewrites
      have hid : id ≠ id' := by
        rintro rfl
        rw [hnone] at hb
        cases hb
      rw [hs', Function.update_of_ne hid, hnone] at hb'
      cases hb'
  | transferred caller srcId dstId amount src dst _ _ hsrc hdst _ _ _ hs' =>
      have hin : id ≠ dstId := by
        rintro rfl
        rw [hnone] at hdst
        cases hdst
      have hout : id ≠ srcId := by
        rintro rfl
        rw [hnone] at hsrc
        cases hsrc
      rw [hs', store_budget_ne hin, store_budget_ne hout, hnone] at hb'
      cases hb'

/-! ## Records stay well formed -/

/-- What is kept of every record: it is well formed, and there is no credit where nothing
rolls over. -/
structure Budget.Sound (b : Budget) : Prop where
  wellFormed : b.WellFormed
  credit : b.rolloverEnabled = false → b.rolloverCredit = 0

/-- The hook writes the balance of a record and nothing else. -/
theorem Budget.settle_terms {now : UInt64} {r : Budget} (h : b.settle now = .ok r) :
    ∃ credit deficit spent start, r = { b with
      rolloverCredit := credit, deficitAmount := deficit, spent := spent, windowStart := start } := by
  simp only [settle, windowTransition, bind_eq_ok] at h
  obtain ⟨_, _, outcome, _, h⟩ := h
  split at h
  · cases h
    exact ⟨_, _, _, _, rfl⟩
  · simp only [bind_eq_ok] at h
    obtain ⟨w, _, capacity, _, h⟩ := h
    split at h
    · simp only [bind_eq_ok, pure_eq_ok] at h
      obtain ⟨_, _, _, _, rfl⟩ := h
      exact ⟨_, _, _, _, rfl⟩
    · cases h
      exact ⟨_, _, _, _, rfl⟩

theorem Budget.Sound.settle {now : UInt64} {r : Budget} (h : b.Sound)
    (hsettle : b.settle now = .ok r) : r.Sound := by
  have hsettles := (settle_eq_ok h.wellFormed).1 hsettle
  refine ⟨hsettles.wellFormed, ?_⟩
  intro hdisabled
  cases hsettles with
  | same _ hsame =>
      subst hsame
      exact h.credit hdisabled
  | closed w periods credit deficit _ hbalance hclosed =>
      subst hclosed
      cases hbalance with
      | overspent => rfl
      | dropped => rfl
      | carried _ henabled _ =>
          have hnot : b.rolloverEnabled = false := hdisabled
          rw [henabled] at hnot
          cases hnot

theorem Allocated.sound (h : Allocated b) : b.Sound := ⟨h.wellFormed, fun _ => h.credit⟩

theorem Budget.Sound.staged (h : b.Sound) (state : ResourceState) :
    Budget.Sound { b with state := state } := by
  obtain ⟨⟨hlimit, hspent, hcredit, hcap, hmax, hbps, hdeficit⟩, hnone⟩ := h
  exact ⟨⟨hlimit, hspent, hcredit, hcap, hmax, hbps, hdeficit⟩, hnone⟩

theorem Budget.Sound.limited {limit : ℤ} (h : b.Sound) (hlimit : 0 ≤ limit ∧ limit ≤ i128Max) :
    Budget.Sound { b with limit := limit } := by
  obtain ⟨⟨_, hspent, hcredit, hcap, hmax, hbps, hdeficit⟩, hnone⟩ := h
  exact ⟨⟨hlimit, hspent, hcredit, hcap, hmax, hbps, hdeficit⟩, hnone⟩

theorem Budget.Sound.used {spent : ℤ} (h : b.Sound) (hspent : 0 ≤ spent ∧ spent ≤ i128Max) :
    Budget.Sound { b with spent := spent } := by
  obtain ⟨⟨hlimit, _, hcredit, hcap, hmax, hbps, hdeficit⟩, hnone⟩ := h
  exact ⟨⟨hlimit, hspent, hcredit, hcap, hmax, hbps, hdeficit⟩, hnone⟩

/-- A record whose credit was clamped under a valid policy is sound. -/
theorem Budget.WellFormed.clamped {c : Budget} {start : ℕ} (h : b.WellFormed)
    (hclamp : clampCredit b = .ok c) : Budget.Sound { c with windowStart := start } := by
  obtain ⟨credit, rfl, hnone, hcredit⟩ := clampCredit_ok hclamp
  exact ⟨⟨h.limit, h.spent, hcredit h, h.cap, h.maxBps, h.bps, h.deficit⟩, hnone⟩

/-- A valid policy is well formed. -/
theorem Budget.WellFormed.recurring {period : Period} {periodSeconds : ℕ} {enabled : Bool}
    {cap maxBps : I128} (h : b.WellFormed) (hcap : 0 ≤ cap.1)
    (hmax : 0 ≤ maxBps.1 ∧ maxBps.1 < bpsDenominator) :
    (b.recurring period periodSeconds enabled cap maxBps).WellFormed := by
  refine ⟨h.limit, h.spent, h.credit, ⟨hcap, cap.2.2⟩, hmax, ?_, h.deficit⟩
  have hbps := h.bps
  have hwhole : (0 : ℤ) ≤ bpsDenominator := by decide
  unfold Budget.recurring
  dsimp only
  split
  · exact ⟨hwhole, le_rfl⟩
  · split
    · exact ⟨le_rfl, hwhole⟩
    · exact hbps

/-- **A sound record stays sound.** -/
theorem Effect.sound {now : UInt64} {call : Call} (h : b.Sound)
    (heffect : Effect now id b call b') : b'.Sound := by
  have hlimit := h.wellFormed.limit
  have hspent := h.wellFormed.spent
  cases heffect with
  | kept => exact h
  | freeze => exact h.staged .frozen
  | unfreeze => exact h.staged .active
  | archive => exact h.staged .archived
  | reset =>
      have hzero : (0 : ℤ) ≤ 0 ∧ (0 : ℤ) ≤ i128Max := by decide
      obtain ⟨⟨_, _, _, hcap, hmax, hbps, hdeficit⟩, _⟩ := h
      exact ⟨⟨hlimit, hzero, hzero, hcap, hmax, hbps, hdeficit⟩, fun _ => rfl⟩
  | transferOut hpos hcovered => exact h.limited (by omega)
  | transferIn hpos hroom => exact h.limited (by omega)
  | setRecurrence hr hcap hmax0 hmax _ hclamp =>
      rcases hr with rfl | hsettle
      · exact (h.wellFormed.recurring hcap ⟨hmax0, hmax⟩).clamped hclamp
      · exact ((h.settle hsettle).wellFormed.recurring hcap ⟨hmax0, hmax⟩).clamped hclamp
  | @setRolloverConfig caller enabled bps cap r c hsettle hcap hbps0 hbps hclamp =>
      obtain ⟨⟨hlimit, hspent, hcredit, _, hmax, _, hdeficit⟩, _⟩ := h.settle hsettle
      have hwell : Budget.WellFormed
          { r with rolloverEnabled := enabled, rolloverBps := bps.1, rolloverCap := cap.1 } :=
        ⟨hlimit, hspent, hcredit, ⟨hcap, cap.2.2⟩, hmax, ⟨hbps0, hbps⟩, hdeficit⟩
      exact hwell.clamped hclamp
  | @setLimit caller newLimit r hsettle hvalid =>
      exact (h.settle hsettle).limited ⟨hvalid, newLimit.2.2⟩
  | rollover hsettle => exact h.settle hsettle
  | consume hsettle hpos hroom _ =>
      have hbefore := (h.settle hsettle).wellFormed.spent
      exact (h.settle hsettle).used ⟨by omega, hroom⟩
  | release hsettle hpos hcovered =>
      have hbefore := (h.settle hsettle).wellFormed.spent
      exact (h.settle hsettle).used (by omega)
  | remaining hsettle => exact h.settle hsettle
  | unsettled => exact h

/-- **Every stored record is sound**, in every state a run reaches. -/
theorem sound_reachable {b : Budget} (h : (machine self).Reachable s) (hb : s.budget id = some b) :
    b.Sound := by
  have hall : ∀ id b, s.budget id = some b → b.Sound := by
    refine h.invariant (P := fun s => ∀ id b, s.budget id = some b → b.Sound) ?_ ?_
    · intro s hfresh id b hb
      rw [hfresh.budget id] at hb
      cases hb
    · intro i s s' hs hstep id b' hb'
      cases i with
      | outside t w =>
          have hsame : s' = s := hstep
          subst hsame
          exact hs id b' hb'
      | invoke env call =>
          cases hb : s.budget id with
          | none => exact (exec_allocated hb hb' hstep).sound
          | some b =>
              obtain ⟨b₁, hb₁, heffect⟩ := exec_effect hb hstep
              rw [hb', Option.some.injEq] at hb₁
              subst hb₁
              exact heffect.sound (hs id b hb)
  exact hall id b hb

end BudgetContract
end Astroid
