import Astroid.Budget.Alignment

/-!
# What a query says can be spent

`remaining` and `asset_remaining` answer what a spend at the same time would be let
through up to, whether or not a settlement is pending (`allowance_predicts_spend`).  The
answer after the spend is lower by what was spent, unless the window that the spend found
has no end a clock could show: then the budget can be settled no more, and nothing remains.
-/

namespace Astroid
namespace BudgetContract

open Outcome Periods Budget

variable {here : Address} {env : Env here} {s s' s₁ : State} {id : String} {token : Address}
  {b r : Budget} {now : UInt64} {x amount : ℤ}

/-! ## The budget -/

namespace Budget

/-- The budget may not be overspent: it has no deficit, or has one to repay. -/
def Strict (b : Budget) : Prop := b.allowDeficit = false ∨ 0 < b.deficitAmount

/-- The window that `now` is in has an end. -/
def EndsInTime (b : Budget) (now : ℕ) : Prop :=
  ∀ w, b.window = some w → b.windowStart + ((now - b.windowStart) / w + 1) * w < 2 ^ 64

theorem Strict.settle (h : b.WellFormed) (hstrict : b.Strict) (hsettle : b.settle now = .ok r) :
    r.Strict := by
  cases (settle_eq_ok h).1 hsettle with
  | same _ hsame =>
      subst hsame
      exact hstrict
  | closed w periods credit deficit _ hbalance hclosed =>
      subst hclosed
      refine hstrict.imp_right ?_
      intro hpos
      show 0 < deficit
      cases hbalance with
      | overspent hover _ =>
          have hlt := hover.2
          omega
      | carried => exact hpos
      | dropped => exact hpos

end Budget

/-- What remains of a budget that can be settled. -/
theorem remaining_settled (hb : s.budget id = some b)
    (hstarted : b.windowStart ≤ env.timestamp.toNat) (hsettle : b.settle env.timestamp = .ok r)
    (hr : r.WellFormed) :
    remaining env s id = .ok (x, s') ↔
      r.capacity ≤ i128Max ∧ IsI128 x ∧ x = r.ceiling - r.spent ∧ s' = s.store id r := by
  have hload : s.load id = .ok b := load_eq_ok.2 hb
  have htransition : b.windowTransition env.timestamp.toNat = .ok r := hsettle
  simp only [remaining, hload, ok_bind, if_neg (not_lt.2 hstarted), htransition, bind_eq_ok,
    effectiveRemaining_eq_ok hr, pure_eq_ok, Prod.mk.injEq]
  constructor
  · rintro ⟨_, ⟨hcapacity, hrange, rfl⟩, rfl, rfl⟩
    exact ⟨hcapacity, hrange, rfl, rfl⟩
  · rintro ⟨hcapacity, hrange, rfl, rfl⟩
    exact ⟨_, ⟨hcapacity, hrange, rfl⟩, rfl, rfl⟩

/-- Nothing remains of a budget that cannot be settled. -/
theorem remaining_unsettled (hb : s.budget id = some b)
    (hfails : ∀ r, b.settle env.timestamp ≠ .ok r) : remaining env s id = .ok (0, s) := by
  have hload : s.load id = .ok b := load_eq_ok.2 hb
  simp only [remaining, hload, ok_bind]
  split
  · rfl
  · split
    · rename_i r hr
      exact absurd hr (hfails r)
    · rfl

/-- The last part of `consume`, once the ceiling is known. -/
theorem consume_rest {capacity ceiling : ℤ} (hspent : 0 ≤ r.spent) (hpos : 0 < amount)
    (hceiling : ceiling ≤ i128Max) (hnot : ¬ (r.allowDeficit = true ∧ r.deficitAmount = 0)) :
    (do
      let newSpent ← intoSpend (checkedAdd r.spent amount)
      if ceiling < newSpent then
        if r.allowDeficit = true ∧ r.deficitAmount = 0 then do
          let remaining ← intoSpend (checkedSub capacity newSpent)
          pure (remaining, s.store id { r with spent := newSpent })
        else do
          let _ ← intoSpend (checkedSub ceiling r.spent)
          .error (.budget .budgetExceeded)
      else do
        let remaining ← intoSpend (checkedSub ceiling newSpent)
        pure (remaining, s.store id { r with spent := newSpent }) : SpendResult (ℤ × State))
      = .ok (x, s') ↔
    r.spent + amount ≤ ceiling ∧ x = ceiling - (r.spent + amount) ∧
      s' = s.store id { r with spent := r.spent + amount } := by
  have hmin : i128Min ≤ 0 := by decide
  rw [bind_eq_ok]
  constructor
  · rintro ⟨_, hadd, h⟩
    rw [intoSpend_eq_ok, checkedAdd_eq_ok] at hadd
    obtain ⟨_, rfl⟩ := hadd
    rw [if_neg hnot] at h
    split at h
    · obtain ⟨_, _, hfail⟩ := bind_eq_ok.1 h
      cases hfail
    · rename_i hinside
      simp only [bind_eq_ok, intoSpend_eq_ok, checkedSub_eq_ok, pure_eq_ok, Prod.mk.injEq] at h
      obtain ⟨_, ⟨_, rfl⟩, rfl, rfl⟩ := h
      exact ⟨not_lt.1 hinside, rfl, rfl⟩
  · rintro ⟨hle, rfl, rfl⟩
    have hadd : checkedAdd r.spent amount = .ok (r.spent + amount) := by
      refine checkedAdd_eq_ok.2 ⟨?_, rfl⟩
      unfold IsI128
      omega
    have hsub : checkedSub ceiling (r.spent + amount) = .ok (ceiling - (r.spent + amount)) := by
      refine checkedSub_eq_ok.2 ⟨?_, rfl⟩
      unfold IsI128
      omega
    refine ⟨_, intoSpend_eq_ok.2 hadd, ?_⟩
    rw [if_neg (not_lt.2 hle), bind_eq_ok]
    exact ⟨_, intoSpend_eq_ok.2 hsub, rfl⟩

/-- **What a spend does** to a budget that may not be overspent. -/
theorem consume_eq_ok (hb : s.budget id = some b) (hwell : b.WellFormed) (hstrict : b.Strict)
    (hsigned : b.owner ∈ env.auths) (hactive : b.state = .active)
    (hstarted : b.windowStart ≤ env.timestamp.toNat) (hpos : 0 < amount) :
    consume env s b.owner id amount = .ok (x, s') ↔
      ∃ r, b.settle env.timestamp = .ok r ∧ r.capacity ≤ i128Max ∧
        r.spent + amount ≤ r.ceiling ∧ x = r.ceiling - (r.spent + amount) ∧
        s' = s.store id { r with spent := r.spent + amount } := by
  have howner : requireOwner env s id b.owner = .ok b := requireOwner_eq_ok.2 ⟨hsigned, hb, rfl⟩
  have hpositive : intoSpend (requirePositiveAmount amount) = .ok () :=
    intoSpend_eq_ok.2 (requirePositiveAmount_eq_ok.2 hpos)
  have hopen : intoSpend (requireActive b) = .ok () :=
    intoSpend_eq_ok.2 (requireActive_eq_ok.2 hactive)
  have hbegun : requireStarted env b = .ok () := ensure_pos hstarted
  simp only [consume, hpositive, intoSpend_eq_ok.2 howner, hopen, hbegun, ok_bind, bind_eq_ok,
    intoSpend_eq_ok]
  refine exists_congr fun r => and_congr_right fun hsettle => ?_
  have hr : r.WellFormed := ((settle_eq_ok hwell).1 hsettle).wellFormed
  have hnot : ¬ (r.allowDeficit = true ∧ r.deficitAmount = 0) := by
    rintro ⟨hallowed, hnone⟩
    rcases hstrict.settle hwell hsettle with hdenied | howed
    · rw [hallowed] at hdenied
      cases hdenied
    · omega
  simp only [capacity_eq_ok hr]
  have hdeficit := hr.deficit
  have hcapacity0 : 0 ≤ r.capacity := add_nonneg hr.limit.1 hr.credit.1
  by_cases howed : r.allowDeficit = true ∧ 0 < r.deficitAmount
  · have hceiling : r.ceiling = r.capacity - r.deficitAmount := by
      rw [Budget.ceiling, if_pos howed]
    have hnet : r.capacity ≤ i128Max → checkedSub r.capacity r.deficitAmount = .ok r.ceiling := by
      intro hmax
      refine checkedSub_eq_ok.2 ⟨?_, hceiling.symm⟩
      unfold IsI128 i128Min
      unfold i128Max at *
      omega
    constructor
    · rintro ⟨_, ⟨hmax, rfl⟩, h⟩
      rw [if_pos howed, hnet hmax] at h
      exact ⟨hmax, (consume_rest hr.spent.1 hpos (by omega) hnot).1 h⟩
    · rintro ⟨hmax, hgranted⟩
      refine ⟨_, ⟨hmax, rfl⟩, ?_⟩
      rw [if_pos howed, hnet hmax]
      exact (consume_rest hr.spent.1 hpos (by omega) hnot).2 hgranted
  · have hceiling : r.ceiling = r.capacity := by
      rw [Budget.ceiling, if_neg howed, sub_zero]
    constructor
    · rintro ⟨_, ⟨hmax, rfl⟩, h⟩
      rw [if_neg howed, pure_bind, ← hceiling] at h
      exact ⟨hmax, (consume_rest hr.spent.1 hpos (by omega) hnot).1 h⟩
    · rintro ⟨hmax, hgranted⟩
      refine ⟨_, ⟨hmax, rfl⟩, ?_⟩
      rw [if_neg howed, pure_bind, ← hceiling]
      exact (consume_rest hr.spent.1 hpos (by omega) hnot).2 hgranted

/-! ## After the spend -/

/-- The windows of a settled budget do not depend on what is spent afterwards. -/
theorem Budget.settle_spent (hwell : b.WellFormed) (hstarted : b.windowStart ≤ now.toNat)
    (hsettle : b.settle now = .ok r) :
    (b.EndsInTime now.toNat → Budget.settle { r with spent := x } now = .ok { r with spent := x }) ∧
    (¬ b.EndsInTime now.toNat → ∀ r', Budget.settle { r with spent := x } now ≠ .ok r') := by
  obtain ⟨hunexpired, hwindow, hschedule⟩ := settle_onSchedule hwell hstarted hsettle
  have hend : ∀ w, b.window = some w →
      b.windowStart + ((now.toNat - b.windowStart) / w + 1) * w = r.windowStart + w := by
    intro w hw
    rw [(hschedule w hw).whole, Nat.add_mul, one_mul, ← Nat.add_assoc]
  constructor
  · intro hends
    have hopen : Budget.Open { r with spent := x } now.toNat := by
      refine ⟨hunexpired, ?_⟩
      intro w hw
      have hbw : b.window = some w := hwindow.symm.trans hw
      have hfits := hends w hbw
      rw [hend w hbw] at hfits
      exact ⟨hfits, (hschedule w hbw).running⟩
    exact hopen.windowTransition
  · intro hends r' hr'
    simp only [EndsInTime, not_forall, not_lt] at hends
    obtain ⟨w, hw, hover⟩ := hends
    rw [hend w hw] at hover
    have hendless : Budget.settle { r with spent := x } now = .error (.error .overflow) :=
      settle_endless hunexpired (hwindow.trans hw) hover
    rw [hendless] at hr'
    cases hr'

/-- The query after a spend. -/
theorem remaining_after (hwell : b.WellFormed)
    (hstarted : b.windowStart ≤ env.timestamp.toNat) (hsettle : b.settle env.timestamp = .ok r)
    (hcapacity : r.capacity ≤ i128Max) (hpos : 0 < amount) (hle : r.spent + amount ≤ r.ceiling) :
    (b.EndsInTime env.timestamp.toNat →
      ∃ s₂, remaining env (s.store id { r with spent := r.spent + amount }) id
        = .ok (r.ceiling - (r.spent + amount), s₂)) ∧
    (¬ b.EndsInTime env.timestamp.toNat →
      remaining env (s.store id { r with spent := r.spent + amount }) id
        = .ok (0, s.store id { r with spent := r.spent + amount })) := by
  obtain ⟨hends, hendless⟩ := settle_spent (x := r.spent + amount) hwell hstarted hsettle
  have hr : r.WellFormed := ((settle_eq_ok hwell).1 hsettle).wellFormed
  have hdeficit := hr.deficit
  have hspent := hr.spent
  have hceiling : r.ceiling ≤ r.capacity := by
    unfold Budget.ceiling
    split <;> omega
  have hspent' : 0 ≤ r.spent + amount ∧ r.spent + amount ≤ i128Max := by omega
  have hwell' : Budget.WellFormed { r with spent := r.spent + amount } :=
    ⟨hr.limit, hspent', hr.credit, hr.cap, hr.maxBps, hr.bps, hr.deficit⟩
  have hbegun : Budget.windowStart { r with spent := r.spent + amount }
      ≤ env.timestamp.toNat := by
    cases (settle_eq_ok hwell).1 hsettle with
    | same _ hsame =>
        subst hsame
        exact hstarted
    | closed w periods _ _ hdue _ hclosed =>
        subst hclosed
        exact hdue.bounds.2.2.1
  refine ⟨?_, fun hnot => remaining_unsettled store_budget (hendless hnot)⟩
  intro hin
  have hrange : IsI128 (r.ceiling - (r.spent + amount)) := by
    have hmin : i128Min ≤ 0 := by decide
    unfold IsI128
    omega
  exact ⟨_, (remaining_settled store_budget hbegun (hends hin) hwell').2
    ⟨hcapacity, hrange, rfl, rfl⟩⟩

/-! ## Tokens -/

/-- What remains of a token. -/
theorem assetRemaining_eq_ok {a : AssetBudget} (ha : s.assetBudget id token = some a)
    (hb : s.budget id = some b) (hsound : a.Sound)
    (hstarted : b.windowStart ≤ env.timestamp.toNat) :
    assetRemaining env s id token = .ok (x, s') ↔
      (a.windowTransition env.timestamp.toNat).room ≤ i128Max ∧
      x = (a.windowTransition env.timestamp.toNat).room
        - (a.windowTransition env.timestamp.toNat).spent ∧
      s' = s.storeAsset id token (a.windowTransition env.timestamp.toNat) := by
  have hsettled : (a.windowTransition env.timestamp.toNat).Sound := hsound.windowTransition
  have hget : getAssetBudget env s id token = .ok (a.windowTransition env.timestamp.toNat,
      s.storeAsset id token (a.windowTransition env.timestamp.toNat)) := by
    simp only [getAssetBudget, loadAsset_eq_ok.2 ha, ok_bind]
    rfl
  have hload : (s.storeAsset id token (a.windowTransition env.timestamp.toNat)).load id = .ok b :=
    load_eq_ok.2 hb
  have hspent := hsettled.spent
  have hroom0 : 0 ≤ (a.windowTransition env.timestamp.toNat).room :=
    add_nonneg hsettled.limit.1 hsettled.credit.1
  simp only [assetRemaining, hget, hload, ok_bind, if_neg (not_lt.2 hstarted), bind_eq_ok,
    AssetBudget.capacity_eq_ok hsettled, checkedSub_eq_ok, pure_eq_ok, Prod.mk.injEq]
  constructor
  · rintro ⟨_, ⟨hroom, rfl⟩, _, ⟨_, rfl⟩, rfl, rfl⟩
    exact ⟨hroom, rfl, rfl⟩
  · rintro ⟨hroom, rfl, rfl⟩
    refine ⟨_, ⟨hroom, rfl⟩, _, ⟨?_, rfl⟩, rfl, rfl⟩
    unfold IsI128 i128Min
    unfold i128Max at *
    omega

/-- Nothing remains of a token before its budget starts. -/
theorem assetRemaining_scheduled (hb : s.budget id = some b)
    (hscheduled : env.timestamp.toNat < b.windowStart)
    (h : assetRemaining env s id token = .ok (x, s')) : x = 0 := by
  simp only [assetRemaining, bind_eq_ok] at h
  obtain ⟨⟨a, s₂⟩, hget, b₁, hb₁, h⟩ := h
  rw [load_eq_ok, getAssetBudget_budget hget, hb, Option.some.injEq] at hb₁
  subst hb₁
  rw [if_pos hscheduled, pure_eq_ok, Prod.mk.injEq] at h
  exact h.1.symm

/-! ## Queries and spends -/

/-- **What remains of a budget** is what can be spent of it. -/
theorem remaining_predicts_consume {x₀ : ℤ} (hb : s.budget id = some b) (hwell : b.WellFormed)
    (hsigned : b.owner ∈ env.auths) (hactive : b.state = .active)
    (hstarted : b.windowStart ≤ env.timestamp.toNat) (hstrict : b.Strict) (hpos : 0 < amount)
    (hquery : remaining env s id = .ok (x₀, s₁)) :
    ((∃ out, consume env s b.owner id amount = .ok out) ↔ amount ≤ x₀) ∧
      ∀ (x : ℤ) (s' : State), consume env s b.owner id amount = .ok (x, s') → x = x₀ - amount ∧
        (b.EndsInTime env.timestamp.toNat → ∃ s₂, remaining env s' id = .ok (x, s₂)) ∧
        (¬ b.EndsInTime env.timestamp.toNat → remaining env s' id = .ok (0, s')) := by
  have hconsume := fun x s' =>
    @consume_eq_ok _ env s s' _ _ x amount hb hwell hstrict hsigned hactive hstarted hpos
  by_cases hsettles : ∃ r, b.settle env.timestamp = .ok r
  · obtain ⟨r, hsettle⟩ := hsettles
    have hr : r.WellFormed := ((settle_eq_ok hwell).1 hsettle).wellFormed
    obtain ⟨hcapacity, _, rfl, _⟩ := (remaining_settled hb hstarted hsettle hr).1 hquery
    refine ⟨?_, ?_⟩
    · constructor
      · rintro ⟨⟨x, s'⟩, hok⟩
        obtain ⟨r', hsettle', _, hle, _⟩ := (hconsume x s').1 hok
        rw [hsettle, Except.ok.injEq] at hsettle'
        subst hsettle'
        omega
      · intro hle
        exact ⟨_, (hconsume _ _).2 ⟨r, hsettle, hcapacity, by omega, rfl, rfl⟩⟩
    · intro x s' hok
      obtain ⟨r', hsettle', _, hle, rfl, rfl⟩ := (hconsume x s').1 hok
      rw [hsettle, Except.ok.injEq] at hsettle'
      subst hsettle'
      exact ⟨by omega, remaining_after hwell hstarted hsettle hcapacity hpos hle⟩
  · -- neither the query nor the spend gets past the settlement
    have hfails : ∀ r, b.settle env.timestamp ≠ .ok r := fun r hr => hsettles ⟨r, hr⟩
    have hzero : x₀ = 0 := by
      rw [remaining_unsettled hb hfails, Except.ok.injEq, Prod.mk.injEq] at hquery
      exact hquery.1.symm
    have hnever : ∀ x s', consume env s b.owner id amount ≠ .ok (x, s') := by
      intro x s' hok
      obtain ⟨r, hsettle, _⟩ := (hconsume x s').1 hok
      exact hfails r hsettle
    refine ⟨⟨?_, fun hle => absurd hle (by omega)⟩, fun x s' hok => absurd hok (hnever x s')⟩
    rintro ⟨⟨x, s'⟩, hok⟩
    exact absurd hok (hnever x s')

/-- **What remains of a token** is what can be spent of it. -/
theorem assetRemaining_predicts_spend {x₀ : ℤ} (h : (machine here).Reachable s)
    (hb : s.budget id = some b) (hsigned : b.owner ∈ env.auths) (hactive : b.state = .active)
    (hunexpired : b.Unexpired env.timestamp.toNat) (hpos : 0 < amount)
    (hquery : assetRemaining env s id token = .ok (x₀, s₁)) :
    ((∃ s', checkAndRecordSpend env s b.owner id token amount = .ok s') ↔ amount ≤ x₀) ∧
      ∀ s', checkAndRecordSpend env s b.owner id token amount = .ok s' →
        ∃ s₂, assetRemaining env s' id token = .ok (x₀ - amount, s₂) := by
  obtain ⟨a, ha, _⟩ := assetRemaining_ok hquery
  have hsound := asset_sound_reachable h ha
  have hsettled : (a.windowTransition env.timestamp.toNat).Sound := hsound.windowTransition
  have hspend := fun s' => @checkAndRecordSpend_eq_ok _ env s s' id token b.owner amount
  by_cases hstarted : b.windowStart ≤ env.timestamp.toNat
  · have hspendable : Spendable env s b.owner id b :=
      ⟨hsigned, hb, rfl, hactive, hstarted, hunexpired⟩
    obtain ⟨hroom, rfl, _⟩ := (assetRemaining_eq_ok ha hb hsound hstarted).1 hquery
    refine ⟨?_, ?_⟩
    · constructor
      · rintro ⟨s', hok⟩
        obtain ⟨_, _, a', ha', hcovers, _⟩ := (hspend s').1 hok
        rw [ha, Option.some.injEq] at ha'
        subst ha'
        have hle := ((hsettled.covers_iff hpos).1 hcovers).2
        omega
      · intro hle
        have hcovers := (hsettled.covers_iff hpos).2 ⟨hroom, by omega⟩
        exact ⟨_, (hspend _).2 ⟨hpos, ⟨b, hspendable⟩, a, ha, hcovers, rfl⟩⟩
    · intro s' hok
      obtain ⟨_, _, a', ha', hcovers, rfl⟩ := (hspend s').1 hok
      rw [ha, Option.some.injEq] at ha'
      subst ha'
      have hle := ((hsettled.covers_iff hpos).1 hcovers).2
      have htwice := @AssetBudget.windowTransition_take a env.timestamp amount
      refine ⟨_, (assetRemaining_eq_ok storeAsset_assetBudget hb
        (hsettled.take hpos.le (hle.trans hroom)) hstarted).2 ⟨?_, ?_, rfl⟩⟩
      · rw [htwice]
        exact hroom
      · rw [htwice]
        show _ = (a.windowTransition env.timestamp.toNat).room
          - ((a.windowTransition env.timestamp.toNat).spent + amount)
        omega
  · have hscheduled := not_le.1 hstarted
    have hzero := assetRemaining_scheduled hb hscheduled hquery
    have hnever : ∀ s', checkAndRecordSpend env s b.owner id token amount ≠ .ok s' := by
      intro s' hok
      obtain ⟨_, ⟨b', hspendable⟩, _⟩ := (hspend s').1 hok
      have hsame := hspendable.stored
      rw [hb, Option.some.injEq] at hsame
      subst hsame
      exact hstarted hspendable.started
    refine ⟨⟨?_, fun hle => absurd hle (by omega)⟩, fun s' hok => absurd hok (hnever s')⟩
    rintro ⟨s', hok⟩
    exact absurd hok (hnever s')

/-- Account 1 allocates 100 for half of all time at once. -/
def epochal : Script Call :=
  [(signedBy 0 [1], .allocate (.account 1) "eng" ⟨100, isI128_hundred⟩ .daily false 0),
    (signedBy 0 [1], .setRecurrence (.account 1) "eng" .custom 9223372036854775808 false
      ⟨0, isI128_zero⟩ ⟨0, isI128_zero⟩)]

/-- The record after `epochal`. -/
def epoch : Budget where
  owner := .account 1
  limit := 100
  spent := 0
  period := .custom
  periodSeconds := 9223372036854775808
  windowStart := 0
  rolloverEnabled := false
  rolloverCredit := 0
  rolloverCap := 0
  rolloverMaxBps := 0
  rolloverBps := 0
  allowDeficit := false
  deficitAmount := 0
  expiresAt := 0
  state := .active

/-- Its second window. -/
def epoch.next : Budget := epoch.reopened (0 + 1 * 9223372036854775808) 0 0

end BudgetContract
end Astroid
