import Astroid.Lib.Periods
import Astroid.Policy.Machine

/-!
# What a spend reads and writes

A request of several assets comes to what it asks for of each asset
(`aggregateAmounts_ok`), each leg consumes from the allowance of its own asset
(`screenLegs_ok`), and what was consumed is written back where it was read
(`recordMultiAssetSpend_ok`), as long as every allowance is stored under its own key
(`Keyed`).
-/

namespace Astroid
namespace PolicyContract

open Outcome

variable {self : Address} {env : Env self} {s s' : State} {id : String} {caller asset : Address}

/-! ## Reading and writing -/

@[simp] theorem amend_records {f : Records → Records} :
    (s.amend id f).records id = f (s.records id) :=
  Function.update_self ..

theorem amend_records_ne {f : Records → Records} {id' : String} (h : id' ≠ id) :
    (s.amend id f).records id' = s.records id' :=
  Function.update_of_ne h ..

/-- A rewrite that leaves the allowances of its policy leaves all of them. -/
theorem amend_allowance {f : Records → Records} {id' : String}
    (h : (f (s.records id')).allowance = (s.records id').allowance) :
    ((s.amend id' f).records id).allowance = (s.records id).allowance := by
  by_cases hid : id = id'
  · subst hid
    rw [amend_records, h]
  · rw [amend_records_ne hid]

/-- What is stored for an asset once the allowance of one asset is overwritten. -/
theorem amend_update_allowance {id' : String} {asset' : Address} {a : Option AssetAllowance} :
    ((s.amend id' fun r => { r with allowance := Function.update r.allowance asset' a }).records
      id).allowance asset
      = if id = id' ∧ asset = asset' then a else (s.records id).allowance asset := by
  by_cases hid : id = id'
  · subst hid
    rw [amend_records]
    simp [Function.update_apply]
  · rw [amend_records_ne hid, if_neg fun hkey => hid hkey.1]

theorem storeAllowance_allowance {a : AssetAllowance} :
    ((s.storeAllowance a).records id).allowance asset
      = if id = a.policyId ∧ asset = a.asset then some a
        else (s.records id).allowance asset :=
  amend_update_allowance

/-- `caller` is the owner of a registered policy. -/
def State.Owns (s : State) (caller : Address) (id : String) : Prop :=
  ∃ policy, (s.records id).policy = some policy ∧ policy.owner = caller

theorem requirePolicyOwner_eq_ok {policy : Policy} :
    requirePolicyOwner env s caller id = .ok policy ↔
      caller ∈ env.auths ∧ (s.records id).policy = some policy ∧ policy.owner = caller := by
  simp only [requirePolicyOwner, State.load, bind_eq_ok, requireAuth_eq_ok, okOr_eq_ok,
    require_eq_ok, pure_eq_ok]
  constructor
  · rintro ⟨_, hauth, _, hpolicy, _, howner, rfl⟩
    exact ⟨hauth, hpolicy, howner⟩
  · rintro ⟨hauth, hpolicy, howner⟩
    exact ⟨(), hauth, _, hpolicy, (), howner, rfl⟩

/-! ## Allowances -/

namespace AssetAllowance

variable {a a' : AssetAllowance} {now : ℕ} {amount : ℤ}

/-- The counter of a window. -/
def counter (a : AssetAllowance) : Periods.Counter := ⟨a.windowStart, a.spent⟩

/-- The record as of `now`. -/
def settled (a : AssetAllowance) (now : ℕ) : AssetAllowance :=
  let c := a.counter.settle a.windowSeconds now
  { a with windowStart := c.start, spent := c.spent }

/-- Settling a window does not fail at any time there can be. -/
theorem settleWindow_eq (hnow : now < 2 ^ 64) : a.settleWindow now = .ok (a.settled now) := by
  have hunpassed : (now - a.windowStart) / a.windowSeconds = 0 → a.settled now = a := by
    intro hzero
    unfold settled Periods.Counter.settle counter
    simp [hzero]
  unfold settleWindow
  split
  · rename_i hstill
    have hzero : (now - a.windowStart) / a.windowSeconds = 0 := by
      rcases hstill with hcumulative | hearly
      · rw [hcumulative, Nat.div_zero]
      · rw [Nat.sub_eq_zero_of_le hearly.le, Nat.zero_div]
    rw [hunpassed hzero]
    rfl
  · rename_i hrecurring
    dsimp only
    split
    · rename_i hzero
      rw [hunpassed hzero]
      rfl
    · rename_i hpassed
      have hle : (now - a.windowStart) / a.windowSeconds * a.windowSeconds
          ≤ now - a.windowStart := Nat.div_mul_le_self _ _
      have hstarted : a.windowStart ≤ now := not_lt.1 fun h => hrecurring (.inr h)
      rw [bind_eq_ok]
      refine ⟨_, mulSeconds_eq_ok.2 ⟨by omega, rfl⟩, ?_⟩
      rw [bind_eq_ok]
      refine ⟨_, addSeconds_eq_ok.2 ⟨by omega, rfl⟩, ?_⟩
      unfold settled Periods.Counter.settle counter
      simp only [if_neg hpassed]
      rfl

theorem consume_ok (hnow : now < 2 ^ 64) (h : a.consume now amount = .ok a') :
    (a.settled now).spent + amount ≤ a.limit ∧
      a' = { a.settled now with spent := (a.settled now).spent + amount } := by
  simp only [consume, settleWindow_eq hnow, bind_eq_ok, require_eq_ok, checkedSub_eq_ok,
    checkedAdd_eq_ok, pure_eq_ok, Except.ok.injEq] at h
  obtain ⟨_, _, _, rfl, _, ⟨_, rfl⟩, _, hroom, _, ⟨_, rfl⟩, rfl⟩ := h
  have hlimit : (a.settled now).limit = a.limit := rfl
  refine ⟨?_, rfl⟩
  rw [hlimit] at hroom
  linarith

/-- What is consumed keeps its key. -/
theorem consume_key (hnow : now < 2 ^ 64) (h : a.consume now amount = .ok a') :
    a'.policyId = a.policyId ∧ a'.asset = a.asset := by
  obtain ⟨_, rfl⟩ := consume_ok hnow h
  exact ⟨rfl, rfl⟩

end AssetAllowance

theorem getAllowance_eq :
    getAllowance env s id asset
      = ((s.records id).allowanceOrUnset id asset).settled env.timestamp.toNat := by
  unfold getAllowance
  dsimp only
  rw [AssetAllowance.settleWindow_eq env.timestamp.toNat_lt]

/-! ## Requests -/

/-- What a request asks for of an asset. -/
def asked (asset : Address) (amounts : List SpendEntry) : ℤ :=
  Tally.tally (fun entry => entry.amount.1) (fun entry => entry.asset = asset) amounts

section Requests

variable {entry : SpendEntry} {rest amounts amounts' : List SpendEntry} {totals totals' : AddressMap ℤ}

theorem asked_cons :
    asked asset (entry :: rest) = (if entry.asset = asset then entry.amount.1 else 0)
      + asked asset rest :=
  Tally.tally_cons ..

theorem asked_nonneg (hpos : ∀ entry ∈ amounts, 0 < entry.amount.1) : 0 ≤ asked asset amounts :=
  Tally.tally_nonneg fun entry hentry _ => (hpos entry hentry).le

/-- **A request that can be summed up comes to what it asks for of each asset.** -/
theorem addEntries_ok (h : addEntries totals amounts = .ok totals') :
    (∀ entry ∈ amounts, 0 < entry.amount.1) ∧ ∀ asset : Address, totals'[asset]? =
      if 0 < asked asset amounts then some (totals[asset]?.getD 0 + asked asset amounts)
      else totals[asset]? := by
  induction amounts generalizing totals with
  | nil =>
      cases h
      refine ⟨by simp, ?_⟩
      intro asset
      exact (if_neg (lt_irrefl 0)).symm
  | cons entry rest ih =>
      simp only [addEntries, bind_eq_ok, requirePositiveAmount_eq_ok, checkedAdd_eq_ok] at h
      obtain ⟨_, hpos, _, ⟨_, rfl⟩, h⟩ := h
      obtain ⟨hrest, htotals⟩ := ih h
      refine ⟨List.forall_mem_cons.2 ⟨hpos, hrest⟩, ?_⟩
      intro asset
      have hnonneg : 0 ≤ asked asset rest := asked_nonneg hrest
      rw [htotals asset, asked_cons]
      by_cases hasset : entry.asset = asset
      · subst hasset
        rw [if_pos rfl, Std.ExtTreeMap.getElem?_insert_self, if_pos (by omega : 0 < entry.amount.1 +
          asked entry.asset rest), Option.getD_some]
        split
        · rw [add_assoc]
        · rename_i hnone
          have hzero : asked entry.asset rest = 0 := by omega
          rw [hzero, add_zero]
      · rw [if_neg hasset, zero_add, AddressMap.getElem?_insert_ne hasset]

/-- The sums of a request of positive amounts only fail to fit. -/
theorem addEntries_eq (hpos : ∀ entry ∈ amounts, 0 < entry.amount.1)
    (hrange : ∀ asset : Address, 0 ≤ totals[asset]?.getD 0 ∧ totals[asset]?.getD 0 ≤ i128Max) :
    ((∀ asset : Address, totals[asset]?.getD 0 + asked asset amounts ≤ i128Max) →
      ∃ totals', addEntries totals amounts = .ok totals') ∧
    (¬ (∀ asset : Address, totals[asset]?.getD 0 + asked asset amounts ≤ i128Max) →
      addEntries totals amounts = .error (.error .overflow)) := by
  induction amounts generalizing totals with
  | nil =>
      refine ⟨fun _ => ⟨totals, rfl⟩, fun hover => absurd ?_ hover⟩
      intro asset
      exact (add_zero _).trans_le (hrange asset).2
  | cons entry rest ih =>
      rw [List.forall_mem_cons] at hpos
      obtain ⟨hentry, hrest⟩ := hpos
      have hnonneg : ∀ asset, 0 ≤ asked asset rest := fun _ => asked_nonneg hrest
      have hpositive : requirePositiveAmount entry.amount.1 = .ok () :=
        requirePositiveAmount_eq_ok.2 hentry
      simp only [addEntries, hpositive, ok_bind]
      by_cases hfits : totals[entry.asset]?.getD 0 + entry.amount.1 ≤ i128Max
      · -- the entry is summed up, and the rest starts from the sum
        have hlow : 0 ≤ totals[entry.asset]?.getD 0 := (hrange entry.asset).1
        have hadd : checkedAdd (totals[entry.asset]?.getD 0) entry.amount.1
            = .ok (totals[entry.asset]?.getD 0 + entry.amount.1) := by
          refine checkedAdd_eq_ok.2 ⟨⟨?_, hfits⟩, rfl⟩
          unfold i128Min
          omega
        have hinsert : ∀ asset : Address, (totals.insert entry.asset
            (totals[entry.asset]?.getD 0 + entry.amount.1))[asset]?.getD 0
              = totals[asset]?.getD 0 + if entry.asset = asset then entry.amount.1 else 0 := by
          intro asset
          by_cases hasset : entry.asset = asset
          · subst hasset
            rw [Std.ExtTreeMap.getElem?_insert_self, if_pos rfl, Option.getD_some]
          · rw [AddressMap.getElem?_insert_ne hasset, if_neg hasset, add_zero]
        rw [hadd, ok_bind]
        simp only [asked_cons]
        simp only [← add_assoc, ← hinsert]
        refine ih hrest ?_
        intro asset
        rw [hinsert]
        split
        · rename_i hasset
          subst hasset
          exact ⟨by omega, hfits⟩
        · rw [add_zero]
          exact hrange asset
      · -- the first sum that does not fit ends the loop
        have hadd : checkedAdd (totals[entry.asset]?.getD 0) entry.amount.1
            = .error (.error .overflow) := if_neg fun hrep => hfits hrep.2
        rw [hadd]
        refine ⟨fun hall => absurd ?_ hfits, fun _ => rfl⟩
        have hsum := hall entry.asset
        rw [asked_cons, if_pos rfl] at hsum
        have hthis := hnonneg entry.asset
        omega

theorem aggregateAmounts_ok (h : aggregateAmounts amounts = .ok totals) :
    (∀ entry ∈ amounts, 0 < entry.amount.1) ∧ ∀ asset : Address, totals[asset]? =
      if 0 < asked asset amounts then some (asked asset amounts) else none := by
  simp only [aggregateAmounts, bind_eq_ok] at h
  obtain ⟨_, _, h⟩ := h
  obtain ⟨hpos, htotals⟩ := addEntries_ok h
  refine ⟨hpos, ?_⟩
  intro asset
  rw [htotals asset]
  simp

/-- Positive amounts, and not too many. -/
structure Request (amounts : List SpendEntry) : Prop where
  nonempty : amounts ≠ []
  length : amounts.length ≤ maxSpendEntries
  positive : ∀ entry ∈ amounts, 0 < entry.amount.1

/-- **Only the totals matter.** -/
theorem aggregateAmounts_congr (h : Request amounts) (h' : Request amounts')
    (htotals : ∀ asset, asked asset amounts = asked asset amounts') :
    aggregateAmounts amounts = aggregateAmounts amounts' := by
  have hstart : ∀ {l : List SpendEntry}, Request l → aggregateAmounts l = addEntries ∅ l := by
    intro l hl
    unfold aggregateAmounts
    rw [require_pos ⟨hl.nonempty, hl.length⟩, ok_bind]
  have hrange : ∀ asset : Address, 0 ≤ (∅ : AddressMap ℤ)[asset]?.getD 0 ∧
      (∅ : AddressMap ℤ)[asset]?.getD 0 ≤ i128Max := by
    intro asset
    rw [Std.ExtTreeMap.getElem?_empty]
    exact ⟨le_rfl, by decide⟩
  obtain ⟨hfits, hover⟩ := addEntries_eq h.positive hrange
  obtain ⟨hfits', hover'⟩ := addEntries_eq h'.positive hrange
  by_cases hall : ∀ asset : Address, (∅ : AddressMap ℤ)[asset]?.getD 0 + asked asset amounts ≤ i128Max
  · obtain ⟨totals, hok⟩ := hfits hall
    obtain ⟨totals', hok'⟩ := hfits' fun asset => htotals asset ▸ hall asset
    rw [hstart h, hstart h', hok, hok', Except.ok.injEq]
    refine Std.ExtTreeMap.ext_getElem? ?_
    intro asset
    rw [(addEntries_ok hok).2 asset, (addEntries_ok hok').2 asset, htotals asset]
  · rw [hstart h, hstart h', hover hall, hover' ?_]
    intro hall'
    exact hall fun asset => (htotals asset).symm ▸ hall' asset

end Requests

/-! ## Legs -/

/-- What the legs of a request consume. -/
inductive Consumed (r : Records) (now : ℕ) : List (Address × ℤ) → List AssetAllowance → Prop
  | nil : Consumed r now [] []
  | cons {leg : Address × ℤ} {rest : List (Address × ℤ)} {allowance : Option AssetAllowance}
      {updated : List AssetAllowance} : r.consumeAllowance now leg.1 leg.2 = .ok allowance →
      Consumed r now rest updated → Consumed r now (leg :: rest) (allowance.toList ++ updated)

section Legs

variable {r : Records} {listed : Listings} {now : ℕ} {policy : Policy} {recipient : Address}
  {amount : ℤ} {legs : List (Address × ℤ)} {updated : List AssetAllowance}

/-- A leg that passes passed on what it consumes. -/
theorem screenAssetRules_passed {context context' : RuleEvaluationContext}
    {allowance : Option AssetAllowance}
    (h : r.screenAssetRules listed now policy asset recipient amount context
      = .ok (.passed allowance, context')) :
    r.consumeAllowance now asset amount = .ok allowance := by
  unfold Records.screenAssetRules at h
  split at h
  · cases h
  · split at h
    · rename_i consumed hconsumed
      simp only [Records.screenRules, bind_eq_ok] at h
      obtain ⟨composite, _, h⟩ := h
      split at h
      · cases h
      · rw [bind_eq_ok] at h
        obtain ⟨stack, _, h⟩ := h
        split at h
        · cases h
        · cases h
          exact hconsumed
    · cases h
    · cases h
    · cases h

theorem screenLegs_ok {context : RuleEvaluationContext}
    (h : r.screenLegs listed now policy recipient legs context = .ok updated) :
    Consumed r now legs updated := by
  induction legs generalizing context updated with
  | nil =>
      cases h
      exact .nil
  | cons leg rest ih =>
      simp only [Records.screenLegs, bind_eq_ok] at h
      obtain ⟨screened, hleg, h⟩ := h
      split at h
      · cases h
      · rename_i allowance hpassed
        simp only [bind_eq_ok, pure_eq_ok] at h
        obtain ⟨later, hlater, rfl⟩ := h
        have hscreened : screened = (.passed allowance, screened.2) := Prod.ext hpassed rfl
        rw [hscreened] at hleg
        exact .cons (screenAssetRules_passed hleg) (ih hlater)

/-- A stored limit has room for what is consumed. -/
theorem consumeAllowance_limited (hnow : now < 2 ^ 64) {a : AssetAllowance}
    {allowance : Option AssetAllowance} (ha : r.allowance asset = some a) (hlimit : 0 < a.limit)
    (h : r.consumeAllowance now asset amount = .ok allowance) :
    (a.settled now).spent + amount ≤ a.limit ∧
      allowance = some { a.settled now with spent := (a.settled now).spent + amount } := by
  unfold Records.consumeAllowance at h
  simp only [ha, if_neg hlimit.ne', bind_eq_ok, pure_eq_ok] at h
  obtain ⟨_, hconsume, rfl⟩ := h
  obtain ⟨hroom, rfl⟩ := AssetAllowance.consume_ok hnow hconsume
  exact ⟨hroom, rfl⟩

/-- What is consumed was stored, under the same key. -/
theorem consumeAllowance_key (hnow : now < 2 ^ 64) {a : AssetAllowance}
    (h : r.consumeAllowance now asset amount = .ok (some a)) :
    ∃ stored, r.allowance asset = some stored ∧ a.policyId = stored.policyId ∧
      a.asset = stored.asset := by
  unfold Records.consumeAllowance at h
  split at h
  · cases h
  · rename_i stored hstored
    split at h
    · cases h
    · simp only [bind_eq_ok, pure_eq_ok, Option.some.injEq] at h
      obtain ⟨_, hconsume, rfl⟩ := h
      obtain ⟨hid, hasset⟩ := AssetAllowance.consume_key hnow hconsume
      exact ⟨stored, hstored, hid, hasset⟩

/-- The allowances under one identifier name it and their assets. -/
def KeyedUnder (id : String) (r : Records) : Prop :=
  ∀ asset a, r.allowance asset = some a → a.policyId = id ∧ a.asset = asset

theorem Consumed.keys (h : Consumed r now legs updated) (hkeyed : KeyedUnder id r)
    (hnow : now < 2 ^ 64) : (∀ a ∈ updated, a.policyId = id) ∧
      (updated.map (·.asset)).Sublist (legs.map Prod.fst) := by
  induction h with
  | nil => exact ⟨by simp, .slnil⟩
  | @cons leg rest allowance updated hleg _ ih =>
      obtain ⟨hid, hsub⟩ := ih
      cases allowance with
      | none => exact ⟨hid, hsub.cons _⟩
      | some a =>
          obtain ⟨stored, hstored, haid, haasset⟩ := consumeAllowance_key hnow hleg
          obtain ⟨hsid, hsasset⟩ := hkeyed _ _ hstored
          refine ⟨List.forall_mem_cons.2 ⟨haid.trans hsid, hid⟩, ?_⟩
          have hhead : a.asset = leg.1 := haasset.trans hsasset
          simp only [Option.toList, List.cons_append, List.nil_append, List.map_cons, hhead]
          exact hsub.cons_cons _

/-- What one leg consumed is among what all consumed, and what it did not is not. -/
theorem Consumed.leg (h : Consumed r now legs updated) (hkeyed : KeyedUnder id r)
    (hnow : now < 2 ^ 64) (hnodup : (legs.map Prod.fst).Nodup) (hleg : (asset, amount) ∈ legs) :
    ∃ allowance, r.consumeAllowance now asset amount = .ok allowance ∧
      (∀ a, allowance = some a → a.asset = asset ∧ a ∈ updated) ∧
      (allowance = none → ∀ a ∈ updated, a.asset ≠ asset) := by
  induction h with
  | nil => cases hleg
  | @cons leg rest allowance updated hconsumed hrest ih =>
      rw [List.map_cons, List.nodup_cons] at hnodup
      obtain ⟨hnew, hnodup⟩ := hnodup
      have hothers : ∀ a ∈ updated, a.asset ∈ rest.map Prod.fst := fun a ha =>
        (hrest.keys hkeyed hnow).2.subset (List.mem_map_of_mem ha)
      have hkey : ∀ a, allowance = some a → a.asset = leg.1 := by
        rintro a rfl
        obtain ⟨stored, hstored, _, haasset⟩ := consumeAllowance_key hnow hconsumed
        exact haasset.trans (hkeyed _ _ hstored).2
      rcases List.mem_cons.1 hleg with rfl | hleg
      · refine ⟨allowance, hconsumed, ?_, ?_⟩
        · rintro a rfl
          exact ⟨hkey a rfl, List.mem_append_left _ (List.mem_singleton_self a)⟩
        · rintro rfl a ha rfl
          exact hnew (hothers a ha)
      · obtain ⟨allowance', hconsumed', hsome, hnone⟩ := ih hnodup hleg
        refine ⟨allowance', hconsumed', ?_, ?_⟩
        · intro a ha
          obtain ⟨hasset, hmem⟩ := hsome a ha
          exact ⟨hasset, List.mem_append_right _ hmem⟩
        · intro hnone' a ha
          rcases List.mem_append.1 ha with ha | ha
          · rw [hkey a (Option.mem_toList.1 ha)]
            rintro rfl
            exact hnew (List.mem_map.2 ⟨_, hleg, rfl⟩)
          · exact hnone hnone' a ha

end Legs

/-! ## What is written back -/

/-- The allowances of one policy after some were written back. -/
def writeBack (allowance : Address → Option AssetAllowance) (l : List AssetAllowance) :
    Address → Option AssetAllowance :=
  l.foldl (fun allowance a => Function.update allowance a.asset (some a)) allowance

theorem writeBack_cons {allowance : Address → Option AssetAllowance} {a : AssetAllowance}
    {l : List AssetAllowance} :
    writeBack allowance (a :: l) = writeBack (Function.update allowance a.asset (some a)) l :=
  rfl

theorem writeBack_of_notMem {allowance : Address → Option AssetAllowance}
    {l : List AssetAllowance} (h : ∀ a ∈ l, a.asset ≠ asset) :
    writeBack allowance l asset = allowance asset := by
  induction l generalizing allowance with
  | nil => rfl
  | cons a l ih =>
      rw [List.forall_mem_cons] at h
      rw [writeBack_cons, ih h.2, Function.update_of_ne h.1.symm]

theorem writeBack_of_mem {allowance : Address → Option AssetAllowance} {a : AssetAllowance}
    {l : List AssetAllowance} (hnodup : (l.map (·.asset)).Nodup) (ha : a ∈ l) :
    writeBack allowance l a.asset = some a := by
  induction l generalizing allowance with
  | nil => cases ha
  | cons b l ih =>
      rw [List.map_cons, List.nodup_cons] at hnodup
      rw [writeBack_cons]
      rcases List.mem_cons.1 ha with rfl | ha
      · rw [writeBack_of_notMem, Function.update_self]
        intro b hb heq
        exact hnodup.1 (heq ▸ List.mem_map_of_mem hb)
      · exact ih hnodup.2 ha

/-- Writing back allowances of one policy. -/
theorem persistSpends_ok {totals : AddressMap ℤ} {l : List AssetAllowance}
    (hid : ∀ a ∈ l, a.policyId = id) (h : persistSpends totals s l = .ok s') :
    s' = s.amend id fun r => { r with allowance := writeBack r.allowance l } := by
  induction l generalizing s with
  | nil =>
      cases h
      unfold State.amend writeBack
      simp
  | cons a l ih =>
      rw [List.forall_mem_cons] at hid
      obtain ⟨rfl, hid⟩ := hid
      simp only [persistSpends, bind_eq_ok] at h
      obtain ⟨_, _, h⟩ := h
      rw [ih hid h]
      unfold persistSpend State.storeAllowance State.amend
      simp [writeBack_cons]

/-- Writing back allowances of assets that have totals does not fail. -/
theorem persistSpends_returns {totals : AddressMap ℤ} {l : List AssetAllowance}
    (h : ∀ a ∈ l, ∃ total, totals[a.asset]? = some total) :
    ∃ s', persistSpends totals s l = .ok s' := by
  induction l generalizing s with
  | nil => exact ⟨s, rfl⟩
  | cons a l ih =>
      rw [List.forall_mem_cons] at h
      obtain ⟨⟨total, htotal⟩, hrest⟩ := h
      obtain ⟨s', hs'⟩ := ih hrest (s := persistSpend s a)
      refine ⟨s', ?_⟩
      simp only [persistSpends, htotal]
      exact hs'

/-! ## Spends -/

/-- Every stored allowance is kept under its own policy and asset. -/
def Keyed (s : State) : Prop := ∀ id, KeyedUnder id (s.records id)

/-- What a charge leaves of the allowance of an asset. -/
def Charged (r : Records) (now : ℕ) (asset : Address) (charge : Option ℤ)
    (after : Option AssetAllowance) : Prop :=
  match charge with
  | none => after = r.allowance asset
  | some amount => 0 < amount ∧ ∃ allowance, r.consumeAllowance now asset amount = .ok allowance ∧
      after = allowance.or (r.allowance asset)

/-- Every asset of a policy was charged, and nothing else was written. -/
def Spent (now : ℕ) (id : String) (charge : Address → Option ℤ) (s s' : State) : Prop :=
  ∃ allowance, s' = s.amend id (fun r => { r with allowance := allowance }) ∧
    ∀ asset, Charged (s.records id) now asset (charge asset) (allowance asset)

/-- What a request charges to an asset. -/
def requested (amounts : List SpendEntry) (asset : Address) : Option ℤ :=
  if 0 < asked asset amounts then some (asked asset amounts) else none

/-- What a spend of one asset charges. -/
def single (asset : Address) (amount : ℤ) (asset' : Address) : Option ℤ :=
  if asset' = asset then some amount else none

theorem updateAllowance_ok {amount : ℤ} (hkeyed : Keyed s)
    (h : updateAllowance env s caller id asset amount = .ok s') :
    caller ∈ env.auths ∧ s.Owns caller id ∧
      Spent env.timestamp.toNat id (single asset amount) s s' := by
  simp only [updateAllowance, bind_eq_ok, requirePolicyOwner_eq_ok,
    requirePositiveAmount_eq_ok] at h
  obtain ⟨policy, ⟨hauth, hpolicy, howner⟩, _, hpos, allowance, hconsumed, h⟩ := h
  refine ⟨hauth, ⟨policy, hpolicy, howner⟩, ?_⟩
  have hothers : ∀ {f : Address → Option AssetAllowance},
      (∀ asset', asset' ≠ asset → f asset' = (s.records id).allowance asset') →
      f asset = allowance.or ((s.records id).allowance asset) → ∀ asset',
        Charged (s.records id) env.timestamp.toNat asset' (single asset amount asset')
          (f asset') := by
    intro f hne hself asset'
    unfold single
    split
    · rename_i heq
      subst heq
      exact ⟨hpos, allowance, hconsumed, hself⟩
    · rename_i hasset
      exact hne asset' hasset
  cases allowance with
  | none =>
      cases h
      refine ⟨(s.records id).allowance, ?_, hothers (fun _ _ => rfl) rfl⟩
      unfold State.amend
      simp
  | some a =>
      cases h
      obtain ⟨stored, hstored, haid, haasset⟩ :=
        consumeAllowance_key env.timestamp.toNat_lt hconsumed
      obtain ⟨hsid, hsasset⟩ := hkeyed id asset stored hstored
      have hid : a.policyId = id := haid.trans hsid
      have hasset : a.asset = asset := haasset.trans hsasset
      refine ⟨Function.update (s.records id).allowance asset (some a), ?_, hothers ?_ ?_⟩
      · unfold persistSpend State.storeAllowance State.amend
        rw [hid, hasset]
      · intro asset' hne
        exact Function.update_of_ne hne ..
      · exact Function.update_self ..

theorem evaluateSpend_ok {recipient : Address} {amounts : List SpendEntry}
    {spend : AddressMap ℤ × List AssetAllowance}
    (h : evaluateSpend env s id recipient amounts = .ok spend) :
    aggregateAmounts amounts = .ok spend.1 ∧
      Consumed (s.records id) env.timestamp.toNat spend.1.toList spend.2 := by
  simp only [evaluateSpend, bind_eq_ok] at h
  obtain ⟨totals, htotals, policy, _, screened, _, h⟩ := h
  split at h
  · cases h
  · simp only [bind_eq_ok, pure_eq_ok] at h
    obtain ⟨updated, hlegs, rfl⟩ := h
    exact ⟨htotals, screenLegs_ok hlegs⟩

/-- The allowances a request leaves charge each asset its total. -/
theorem charged_writeBack {amounts : List SpendEntry} {totals : AddressMap ℤ}
    {updated : List AssetAllowance} (hkeyed : Keyed s)
    (htotals : aggregateAmounts amounts = .ok totals)
    (hconsumed : Consumed (s.records id) env.timestamp.toNat totals.toList updated) :
    ∀ asset, Charged (s.records id) env.timestamp.toNat asset (requested amounts asset)
      (writeBack (s.records id).allowance updated asset) := by
  intro asset
  obtain ⟨_, hsub⟩ := hconsumed.keys (hkeyed id) env.timestamp.toNat_lt
  obtain ⟨hpos, hentries⟩ := aggregateAmounts_ok htotals
  have hentry := hentries asset
  unfold requested
  split
  · rename_i hasked
    rw [if_pos hasked] at hentry
    have hmem := Std.ExtTreeMap.mem_toList_iff_getElem?_eq_some.2 hentry
    obtain ⟨allowance, hleg, hsome, hnone⟩ :=
      hconsumed.leg (hkeyed id) env.timestamp.toNat_lt AddressMap.keys_nodup hmem
    refine ⟨hasked, allowance, hleg, ?_⟩
    cases allowance with
    | none => exact writeBack_of_notMem (hnone rfl)
    | some a =>
        obtain ⟨hasset, hmem⟩ := hsome a rfl
        have hback : writeBack (s.records id).allowance updated a.asset = some a :=
          writeBack_of_mem (hsub.nodup AddressMap.keys_nodup) hmem
        rw [hasset] at hback
        exact hback
  · rename_i hasked
    rw [if_neg hasked] at hentry
    refine writeBack_of_notMem ?_
    intro a ha heq
    have hkey := hsub.subset (List.mem_map_of_mem ha)
    obtain ⟨leg, hleg, hfst⟩ := List.mem_map.1 hkey
    have hstored := Std.ExtTreeMap.mem_toList_iff_getElem?_eq_some.1 hleg
    rw [hfst, heq, hentry] at hstored
    cases hstored

theorem recordMultiAssetSpend_ok {recipient : Address} {amounts : List SpendEntry}
    (hkeyed : Keyed s) (h : recordMultiAssetSpend env s caller id recipient amounts = .ok s') :
    caller ∈ env.auths ∧ s.Owns caller id ∧
      Spent env.timestamp.toNat id (requested amounts) s s' := by
  simp only [recordMultiAssetSpend, bind_eq_ok, requirePolicyOwner_eq_ok] at h
  obtain ⟨policy, ⟨hauth, hpolicy, howner⟩, spend, hspend, h⟩ := h
  obtain ⟨htotals, hconsumed⟩ := evaluateSpend_ok hspend
  obtain ⟨hid, _⟩ := hconsumed.keys (hkeyed id) env.timestamp.toNat_lt
  refine ⟨hauth, ⟨policy, hpolicy, howner⟩, _, ?_, charged_writeBack hkeyed htotals hconsumed⟩
  rw [persistSpends_ok hid h]
  unfold State.amend
  rfl

/-- What was evaluated can be recorded. -/
theorem recordMultiAssetSpend_returns {recipient : Address} {amounts : List SpendEntry}
    (hkeyed : Keyed s) (hauth : caller ∈ env.auths) (howns : s.Owns caller id)
    {spend : AddressMap ℤ × List AssetAllowance}
    (hspend : evaluateSpend env s id recipient amounts = .ok spend) :
    ∃ s', recordMultiAssetSpend env s caller id recipient amounts = .ok s' := by
  obtain ⟨policy, hpolicy, howner⟩ := howns
  obtain ⟨_, hconsumed⟩ := evaluateSpend_ok hspend
  obtain ⟨_, hsub⟩ := hconsumed.keys (hkeyed id) env.timestamp.toNat_lt
  have htotal : ∀ a ∈ spend.2, ∃ total, spend.1[a.asset]? = some total := fun a ha => by
    obtain ⟨leg, hleg, hfst⟩ := List.mem_map.1 (hsub.subset (List.mem_map_of_mem ha))
    exact ⟨leg.2, hfst ▸ Std.ExtTreeMap.mem_toList_iff_getElem?_eq_some.1 hleg⟩
  have hwritten : ∃ s', persistSpends spend.1 s spend.2 = .ok s' := persistSpends_returns htotal
  obtain ⟨s', hs'⟩ := hwritten
  refine ⟨s', ?_⟩
  simp only [recordMultiAssetSpend, bind_eq_ok, requirePolicyOwner_eq_ok]
  exact ⟨policy, ⟨hauth, hpolicy, howner⟩, spend, hspend, hs'⟩

end PolicyContract
end Astroid
