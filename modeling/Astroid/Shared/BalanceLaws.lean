import Astroid.Shared.BalanceAlgebra

/-!
# The laws of balance maps

Whatever the operations build is canonical (`Built.canonical`), and on canonical maps they
obey the laws of the balances behind them: entries and maps convert back and forth, what was
merged can be subtracted again, what suffices can be subtracted, and maps reconcile when
they are equal.
-/

namespace Astroid
namespace BalanceMap

open Outcome

variable {m m' dst src a b : BalanceMap} {asset : Address} {amount r : ℤ}

/-! ## Entries -/

/-- An entry as a loop over a map reads it. -/
def entryPair (e : BalanceEntry) : Address × ℤ := (e.asset, e.amount)

def amountPair (e : AssetAmount) : Address × ℤ := (e.asset, e.amount)

theorem aggregateAmountsFrom_eq_ok {es : List AssetAmount} :
    aggregateAmountsFrom m es = .ok m' ↔
      (∀ e ∈ es, 0 < e.amount) ∧ mergeEntries m (es.map amountPair) = .ok m' := by
  induction es generalizing m with
  | nil => simp [aggregateAmountsFrom, mergeEntries]
  | cons e es ih =>
      simp only [aggregateAmountsFrom, bind_eq_ok, requirePositiveAmount_eq_ok, ih,
        List.forall_mem_cons, List.map_cons, amountPair, mergeEntries]
      constructor
      · rintro ⟨_, hpos, next, hnext, hall, hrest⟩
        exact ⟨⟨hpos, hall⟩, next, hnext, hrest⟩
      · rintro ⟨⟨hpos, hall⟩, next, hnext, hrest⟩
        exact ⟨(), hpos, next, hnext, hall, hrest⟩

/-- The entries that are not zero. -/
def nonzero (es : List BalanceEntry) : List (Address × ℤ) :=
  (es.map entryPair).filter fun e => decide (e.2 ≠ 0)

theorem aggregateEntriesFrom_eq_ok {es : List BalanceEntry} :
    aggregateEntriesFrom m es = .ok m' ↔
      (∀ e ∈ es, 0 ≤ e.amount) ∧ mergeEntries m (nonzero es) = .ok m' := by
  induction es generalizing m with
  | nil => simp [aggregateEntriesFrom, nonzero, mergeEntries]
  | cons e es ih =>
      simp only [aggregateEntriesFrom, bind_eq_ok, requireNonNegativeAmount_eq_ok,
        List.forall_mem_cons]
      by_cases hzero : e.amount = 0
      · have hskip : nonzero (e :: es) = nonzero es := by
          simp [nonzero, entryPair, hzero]
        simp only [if_pos hzero, ih, hskip]
        constructor
        · rintro ⟨_, h0, hall, hrest⟩
          exact ⟨⟨h0, hall⟩, hrest⟩
        · rintro ⟨⟨h0, hall⟩, hrest⟩
          exact ⟨(), h0, hall, hrest⟩
      · have hkeep : nonzero (e :: es) = (e.asset, e.amount) :: nonzero es := by
          simp [nonzero, entryPair, hzero]
        simp only [if_neg hzero, hkeep, mergeEntries, bind_eq_ok, ih]
        constructor
        · rintro ⟨_, h0, next, hnext, hall, hrest⟩
          exact ⟨⟨h0, hall⟩, next, hnext, hrest⟩
        · rintro ⟨⟨h0, hall⟩, next, hnext, hrest⟩
          exact ⟨(), h0, next, hnext, hall, hrest⟩

theorem total_nonzero (es : List BalanceEntry) (k : Address) :
    total (nonzero es) k = total (es.map entryPair) k := by
  unfold nonzero
  induction es.map entryPair with
  | nil => rfl
  | cons e es ih =>
      by_cases hzero : e.2 = 0
      · rw [List.filter_cons_of_neg (by simpa using hzero), total_cons, hzero, ih, ite_self, zero_add]
      · rw [List.filter_cons_of_pos (by simpa using hzero), total_cons, total_cons, ih]

/-- **Aggregation adds up**: it returns the canonical map of the totals, and fails exactly
when there is none. -/
theorem aggregateAssetAmounts_eq_ok {es : List AssetAmount} :
    aggregateAssetAmounts es = .ok m ↔ es ≠ [] ∧ (∀ e ∈ es, 0 < e.amount) ∧ Canonical m ∧
      ∀ k, m.getBalance k = total (es.map amountPair) k := by
  simp only [aggregateAssetAmounts, bind_eq_ok, require_eq_ok, aggregateAmountsFrom_eq_ok]
  have hmerge (hpos : ∀ e ∈ es, 0 < e.amount) : mergeEntries newMap (es.map amountPair) = .ok m ↔
      Canonical m ∧ ∀ k, m.getBalance k = total (es.map amountPair) k := by
    rw [mergeEntries_eq_ok canonical_newMap (by simpa [amountPair] using hpos)]
    simp only [getBalance_newMap, zero_add]
  constructor
  · rintro ⟨_, hsome, hpos, h⟩
    exact ⟨hsome, hpos, (hmerge hpos).1 h⟩
  · rintro ⟨hsome, hpos, h⟩
    exact ⟨(), hsome, hpos, (hmerge hpos).2 h⟩

theorem aggregateEntries_eq_ok {es : List BalanceEntry} :
    aggregateEntries es = .ok m ↔ (∀ e ∈ es, 0 ≤ e.amount) ∧ Canonical m ∧
      ∀ k, m.getBalance k = total (es.map entryPair) k := by
  have hmerge (h0 : ∀ e ∈ es, 0 ≤ e.amount) : mergeEntries newMap (nonzero es) = .ok m ↔
      Canonical m ∧ ∀ k, m.getBalance k = total (es.map entryPair) k := by
    have hpos : ∀ e ∈ nonzero es, 0 < e.2 := by
      intro e he
      obtain ⟨hmem, hne⟩ := List.mem_filter.1 he
      obtain ⟨e', he', rfl⟩ := List.mem_map.1 hmem
      exact lt_of_le_of_ne (h0 e' he') (Ne.symm (by simpa using hne))
    rw [mergeEntries_eq_ok canonical_newMap hpos]
    simp only [getBalance_newMap, zero_add, total_nonzero]
  rw [aggregateEntries, aggregateEntriesFrom_eq_ok]
  exact and_congr_right hmerge

/-! ## Round trips -/

theorem toEntries_map (m : BalanceMap) : m.toEntries.map entryPair = m.toList := by
  simp [toEntries, entryPair, Function.comp_def]

theorem toAssetAmounts_map (m : BalanceMap) : m.toAssetAmounts.map amountPair = m.toList := by
  simp [toAssetAmounts, amountPair, Function.comp_def]

/-- An empty list of amounts is refused, so an empty map does not come back. -/
theorem aggregateAssetAmounts_toAssetAmounts (hm : Canonical m) :
    aggregateAssetAmounts m.toAssetAmounts = .ok m ↔ m ≠ ∅ := by
  rw [aggregateAssetAmounts_eq_ok, ne_eq, ne_eq, toAssetAmounts, List.map_eq_nil_iff,
    Std.ExtTreeMap.toList_eq_nil_iff]
  constructor
  · rintro ⟨hne, _⟩
    exact hne
  · intro hne
    refine ⟨hne, ?_, hm, ?_⟩
    · intro e he
      obtain ⟨p, hp, rfl⟩ := List.mem_map.1 he
      exact hm.toList_pos p hp
    · intro k
      rw [← toAssetAmounts, toAssetAmounts_map, total_toList]

theorem aggregateEntries_toEntries (hm : Canonical m) : aggregateEntries m.toEntries = .ok m := by
  rw [aggregateEntries_eq_ok]
  refine ⟨?_, hm, ?_⟩
  · intro e he
    obtain ⟨p, hp, rfl⟩ := List.mem_map.1 he
    exact (hm.toList_pos p hp).le
  · intro k
    rw [toEntries_map, total_toList]

/-- Where no asset is named twice, the strict loop does what the accumulating one does. -/
theorem insertStrict_eq {es : List BalanceEntry} (hpos : ∀ e ∈ es, 0 < e.amount)
    (hmax : ∀ e ∈ es, e.amount ≤ i128Max) (hnodup : (es.map (·.asset)).Nodup)
    (hnew : ∀ e ∈ es, e.asset ∉ m) : insertStrict m es = mergeEntries m (es.map entryPair) := by
  induction es generalizing m with
  | nil => rfl
  | cons e es ih =>
      rw [List.forall_mem_cons] at hpos hmax hnew
      rw [List.map_cons, List.nodup_cons] at hnodup
      have hrest : ∀ e' ∈ es, e'.asset ∉ m.insert e.asset e.amount := by
        intro e' he' hmem
        rcases AddressMap.mem_insert_iff.1 hmem with heq | hmem
        · exact hnodup.1 (List.mem_map.2 ⟨e', he', heq.symm⟩)
        · exact hnew.2 e' he' hmem
      have hadd : checkedBalanceAdd (m.getBalance e.asset) e.amount = .ok e.amount := by
        have hmin : i128Min ≤ 0 := by decide
        have h0 := hpos.1
        have hle := hmax.1
        rw [getBalance_of_not_mem hnew.1]
        simp only [checkedBalanceAdd, bind_eq_ok, require_eq_ok, checkedAdd_eq_ok, zero_add]
        exact ⟨(), ⟨le_rfl, h0.le⟩, ⟨by omega, hle⟩, trivial⟩
      have hroom : ¬ m.Refuses e.asset ↔ m.size < maxBalanceEntries := by
        rw [Refuses, not_and, not_not, ← not_le]
        exact ⟨fun h hfull => hnew.1 (h hfull), fun h hfull => absurd hfull h⟩
      simp only [insertStrict, requireNonNegativeAmount, require_pos hpos.1.le,
        require_pos hnew.1, if_neg hpos.1.ne', List.map_cons, entryPair, mergeEntries, accumulate,
        hadd, ok_bind, hroom, ih hpos.2 hmax.2 hnodup.2 hrest]
      by_cases hsize : m.size < maxBalanceEntries
      · rw [require_pos hsize]
        rfl
      · rw [require_neg hsize]
        rfl

theorem fromEntriesStrict_toEntries (hm : Canonical m) :
    fromEntriesStrict m.toEntries = .ok m := by
  have hentry : ∀ e ∈ m.toEntries, m[e.asset]? = some e.amount := by
    intro e he
    obtain ⟨p, hp, rfl⟩ := List.mem_map.1 he
    exact mem_toList.1 hp
  have hassets : m.toEntries.map (·.asset) = m.toList.map Prod.fst := by
    simp [toEntries, Function.comp_def]
  have hnew : ∀ e ∈ m.toEntries, e.asset ∉ newMap := fun _ _ => Std.ExtTreeMap.not_mem_empty
  rw [fromEntriesStrict, insertStrict_eq (fun e he => hm.pos _ _ (hentry e he))
    (fun e he => hm.le_max _ _ (hentry e he)) (hassets ▸ AddressMap.keys_nodup) hnew, toEntries_map,
    mergeEntries_eq_ok canonical_newMap hm.toList_pos]
  refine ⟨hm, ?_⟩
  intro k
  rw [getBalance_newMap, zero_add, total_toList]

/-! ## Two maps -/

/-- Merging two maps adds their balances. -/
theorem mergeMaps_eq_ok (hdst : Canonical dst) (hsrc : Canonical src) :
    mergeMaps dst src = .ok m ↔
      Canonical m ∧ ∀ k, m.getBalance k = dst.getBalance k + src.getBalance k := by
  rw [mergeMaps, mergeEntries_eq_ok hdst hsrc.toList_pos]
  simp only [total_toList]

/-- Subtracting a map subtracts its balances. -/
theorem subtractMaps_eq_ok (hdst : Canonical dst) (hsrc : Canonical src) :
    subtractMaps dst src = .ok m ↔
      Canonical m ∧ ∀ k, m.getBalance k = dst.getBalance k - src.getBalance k := by
  rw [subtractMaps, subtractEntries_eq_ok hdst hsrc.toList_pos]
  simp only [total_toList]

/-- What was merged can be subtracted again. -/
theorem subtractMaps_mergeMaps (hdst : Canonical dst) (hsrc : Canonical src)
    (h : mergeMaps dst src = .ok m) : subtractMaps m src = .ok dst := by
  obtain ⟨hm, hbalance⟩ := (mergeMaps_eq_ok hdst hsrc).1 h
  rw [subtractMaps_eq_ok hm hsrc]
  refine ⟨hdst, ?_⟩
  intro k
  rw [hbalance k, add_sub_cancel_right]

/-- A loop that requires the same of every entry. -/
theorem requireAll_eq_ok {p : Address × ℤ → Prop} [DecidablePred p] {e : Error}
    {loop : List (Address × ℤ) → Result Unit} (hnil : loop [] = pure ())
    (hcons : ∀ x es, loop (x :: es) = (do require (p x) e; loop es))
    {es : List (Address × ℤ)} {u : Unit} : loop es = .ok u ↔ ∀ x ∈ es, p x := by
  induction es with
  | nil => simp [hnil]
  | cons x es ih =>
      simp only [hcons, bind_eq_ok, require_eq_ok, ih, List.forall_mem_cons]
      constructor
      · rintro ⟨_, hx, hall⟩
        exact ⟨hx, hall⟩
      · rintro ⟨hx, hall⟩
        exact ⟨(), hx, hall⟩

theorem ensureEntries_eq_ok {es : List (Address × ℤ)} {u : Unit} :
    ensureEntries m es = .ok u ↔ ∀ e ∈ es, e.2 ≤ m.getBalance e.1 :=
  requireAll_eq_ok rfl fun _ _ => rfl

/-- What suffices can be subtracted. -/
theorem ensureSufficient_eq_ok (hdst : Canonical dst) (hsrc : Canonical src) :
    ensureSufficient dst src = .ok () ↔ ∃ m, subtractMaps dst src = .ok m := by
  unfold ensureSufficient subtractMaps
  rw [exists_subtractEntries hdst hsrc.toList_pos, ensureEntries_eq_ok]
  simp only [total_toList]
  constructor
  · intro h k
    rcases getBalance_cases src k with ⟨_, hzero⟩ | ⟨v, hv, hbalance⟩
    · rw [hzero]
      exact hdst.nonneg k
    · rw [hbalance]
      exact h (k, v) (mem_toList.2 hv)
  · intro h e he
    rw [← getBalance_eq (mem_toList.1 he)]
    exact h e.1

/-- Equal maps are told by their entries: those of the first agree with the second, and the
second has no others. -/
theorem eq_iff_entries (ha : Canonical a) (hb : Canonical b) :
    (∀ e ∈ a.toList, e.2 = b.getBalance e.1) ∧ (∀ e ∈ b.toList, ¬ (e.1 ∉ a ∧ e.2 ≠ 0))
      ↔ a = b := by
  constructor
  · rintro ⟨hfirst, hsecond⟩
    refine ha.ext hb ?_
    intro k
    rcases getBalance_cases a k with ⟨hk, hzero⟩ | ⟨v, hv, hbalance⟩
    · rcases getBalance_cases b k with ⟨_, hzero'⟩ | ⟨v, hv, _⟩
      · rw [hzero, hzero']
      · exact absurd ⟨hk, (hb.pos k v hv).ne'⟩ (hsecond (k, v) (mem_toList.2 hv))
    · rw [hbalance]
      exact hfirst (k, v) (mem_toList.2 hv)
  · rintro rfl
    refine ⟨fun e he => (getBalance_eq (mem_toList.1 he)).symm, ?_⟩
    rintro e he ⟨habsent, _⟩
    exact habsent (AddressMap.mem_iff_exists.2 ⟨_, mem_toList.1 he⟩)

theorem reconcileFirst_eq_ok {es : List (Address × ℤ)} {u : Unit} :
    reconcileFirst b es = .ok u ↔ ∀ e ∈ es, e.2 = b.getBalance e.1 :=
  requireAll_eq_ok rfl fun _ _ => rfl

theorem reconcileSecond_eq_ok {es : List (Address × ℤ)} {u : Unit} :
    reconcileSecond a es = .ok u ↔ ∀ e ∈ es, ¬ (e.1 ∉ a ∧ e.2 ≠ 0) :=
  requireAll_eq_ok rfl fun _ _ => rfl

/-- Maps reconcile when they are equal. -/
theorem reconcileMaps_eq_ok (ha : Canonical a) (hb : Canonical b) :
    reconcileMaps a b = .ok () ↔ a = b := by
  rw [← eq_iff_entries ha hb]
  simp only [reconcileMaps, bind_eq_ok, reconcileFirst_eq_ok, reconcileSecond_eq_ok]
  constructor
  · rintro ⟨_, hfirst, hsecond⟩
    exact ⟨hfirst, hsecond⟩
  · rintro ⟨hfirst, hsecond⟩
    exact ⟨(), hfirst, hsecond⟩

/-! ## Deltas -/

/-- The delta of two balances is always computed. -/
theorem ledgerDelta_eq_ok {internal external d : ℤ} (hi : 0 ≤ internal) (he : 0 ≤ external)
    (himax : internal ≤ i128Max) (hemax : external ≤ i128Max) :
    ledgerDelta internal external = .ok d ↔ d = external - internal := by
  have hrange : IsI128 (external - internal) := by
    unfold IsI128 i128Min
    unfold i128Max at *
    omega
  simp only [ledgerDelta, bind_eq_ok, require_eq_ok, checkedSub_eq_ok]
  constructor
  · rintro ⟨_, _, _, rfl⟩
    rfl
  · rintro rfl
    exact ⟨(), ⟨hi, he⟩, hrange, rfl⟩

theorem note_eq_empty {d : ℤ} : m.note asset d = ∅ ↔ m = ∅ ∧ d = 0 := by
  unfold note
  by_cases hd : d = 0
  · simp [hd]
  · simp [hd, Std.ExtTreeMap.insert_ne_empty]

theorem deltasExternal_eq_empty (ha : Canonical a) {es : List (Address × ℤ)}
    (hes : ∀ e ∈ es, 0 ≤ e.2 ∧ e.2 ≤ i128Max) :
    deltasExternal a m es = .ok ∅ ↔ m = ∅ ∧ ∀ e ∈ es, e.2 = a.getBalance e.1 := by
  induction es generalizing m with
  | nil => simp [deltasExternal]
  | cons e es ih =>
      obtain ⟨asset, ext⟩ := e
      rw [List.forall_mem_cons] at hes
      obtain ⟨⟨h0, hmax⟩, hes⟩ := hes
      simp only [deltasExternal, bind_eq_ok, List.forall_mem_cons,
        ledgerDelta_eq_ok (ha.nonneg asset) h0 (ha.balance_le asset) hmax, ih hes, note_eq_empty]
      constructor
      · rintro ⟨_, rfl, ⟨hm, hzero⟩, hall⟩
        exact ⟨hm, sub_eq_zero.1 hzero, hall⟩
      · rintro ⟨hm, heq, hall⟩
        exact ⟨_, rfl, ⟨hm, sub_eq_zero.2 heq⟩, hall⟩

theorem deltasInternal_eq_empty {es : List (Address × ℤ)}
    (hes : ∀ e ∈ es, 0 ≤ e.2 ∧ e.2 ≤ i128Max) :
    deltasInternal b m es = .ok ∅ ↔ m = ∅ ∧ ∀ e ∈ es, ¬ (e.1 ∉ b ∧ e.2 ≠ 0) := by
  induction es generalizing m with
  | nil => simp [deltasInternal]
  | cons e es ih =>
      obtain ⟨asset, int⟩ := e
      rw [List.forall_mem_cons] at hes
      obtain ⟨⟨h0, hmax⟩, hes⟩ := hes
      rw [deltasInternal, List.forall_mem_cons]
      by_cases hmem : asset ∈ b
      · rw [if_pos hmem, ih hes]
        simp [hmem]
      · rw [if_neg hmem]
        simp only [bind_eq_ok, ledgerDelta_eq_ok h0 le_rfl hmax (by decide), ih hes, note_eq_empty]
        constructor
        · rintro ⟨_, rfl, ⟨hm, hzero⟩, hall⟩
          refine ⟨hm, ?_, hall⟩
          rintro ⟨_, hne⟩
          omega
        · rintro ⟨hm, heq, hall⟩
          rw [not_and, not_not] at heq
          have hzero : int = 0 := heq hmem
          exact ⟨_, rfl, ⟨hm, by omega⟩, hall⟩

theorem Canonical.toList_range (h : Canonical m) :
    ∀ e ∈ m.toList, 0 ≤ e.2 ∧ e.2 ≤ i128Max :=
  fun e he => ⟨(h.toList_pos e he).le, h.le_max e.1 e.2 (mem_toList.1 he)⟩

/-- There is no delta between equal maps, and only there. -/
theorem deltas_eq_empty (ha : Canonical a) (hb : Canonical b) :
    deltas a b = .ok ∅ ↔ a = b := by
  rw [show a = b ↔ b = a from eq_comm, ← eq_iff_entries hb ha]
  simp only [deltas, bind_eq_ok]
  constructor
  · rintro ⟨out, hexternal, h⟩
    obtain ⟨rfl, hinternal⟩ := (deltasInternal_eq_empty ha.toList_range).1 h
    exact ⟨((deltasExternal_eq_empty ha hb.toList_range).1 hexternal).2, hinternal⟩
  · rintro ⟨hexternal, hinternal⟩
    exact ⟨∅, (deltasExternal_eq_empty ha hb.toList_range).2 ⟨rfl, hexternal⟩,
      (deltasInternal_eq_empty ha.toList_range).2 ⟨rfl, hinternal⟩⟩

/-! ## What the operations build -/

/-- The maps that the operations build from the empty one. -/
inductive Built : BalanceMap → Prop
  | newMap : Built newMap
  | checkedAddBalance {m m' : BalanceMap} {asset : Address} {amount r : ℤ} : Built m →
      m.checkedAddBalance asset amount = .ok (r, m') → Built m'
  | checkedSubBalance {m m' : BalanceMap} {asset : Address} {amount r : ℤ} : Built m →
      m.checkedSubBalance asset amount = .ok (r, m') → Built m'
  | setBalance {m m' : BalanceMap} {asset : Address} {amount r : ℤ} : Built m → IsI128 amount →
      m.setBalance asset amount = .ok (r, m') → Built m'
  | mergeMaps {dst src m : BalanceMap} : Built dst → Canonical src →
      mergeMaps dst src = .ok m → Built m
  | subtractMaps {dst src m : BalanceMap} : Built dst → Canonical src →
      subtractMaps dst src = .ok m → Built m
  | aggregateAssetAmounts {es : List AssetAmount} {m : BalanceMap} :
      aggregateAssetAmounts es = .ok m → Built m
  | aggregateEntries {es : List BalanceEntry} {m : BalanceMap} :
      aggregateEntries es = .ok m → Built m
  | fromEntriesStrict {es : List BalanceEntry} {m : BalanceMap} : (∀ e ∈ es, IsI128 e.amount) →
      fromEntriesStrict es = .ok m → Built m

theorem Canonical.checkedAddBalance (hm : Canonical m)
    (h : m.checkedAddBalance asset amount = .ok (r, m')) : Canonical m' := by
  simp only [BalanceMap.checkedAddBalance, bind_eq_ok, requireNonNegativeAmount_eq_ok] at h
  obtain ⟨_, h0, h⟩ := h
  split at h
  · cases h
    exact hm
  · rename_i hne
    have hbalance := hm.nonneg asset
    simp only [bind_eq_ok, require_eq_ok, checkedBalanceAdd_eq_ok hm h0, pure_eq_ok,
      Prod.mk.injEq] at h
    obtain ⟨_, hroom, _, ⟨hmax, rfl⟩, _, rfl⟩ := h
    exact hm.insert (by omega) hmax hroom

theorem Canonical.checkedSubBalance (hm : Canonical m)
    (h : m.checkedSubBalance asset amount = .ok (r, m')) : Canonical m' := by
  simp only [BalanceMap.checkedSubBalance, bind_eq_ok, requireNonNegativeAmount_eq_ok] at h
  obtain ⟨_, h0, h⟩ := h
  split at h
  · cases h
    exact hm
  · simp only [bind_eq_ok, checkedBalanceSub_eq_ok hm h0, pure_eq_ok, Prod.mk.injEq] at h
    obtain ⟨_, ⟨hle, rfl⟩, _, rfl⟩ := h
    exact hm.debited (sub_nonneg.2 hle) (sub_le_self _ h0)

theorem Canonical.setBalance (hm : Canonical m) (hrange : IsI128 amount)
    (h : m.setBalance asset amount = .ok (r, m')) : Canonical m' := by
  simp only [BalanceMap.setBalance, bind_eq_ok, requireNonNegativeAmount_eq_ok] at h
  obtain ⟨_, h0, h⟩ := h
  split at h
  · cases h
    exact hm.erase
  · rename_i hne
    simp only [bind_eq_ok, require_eq_ok, pure_eq_ok, Prod.mk.injEq] at h
    obtain ⟨_, hroom, _, rfl⟩ := h
    exact hm.insert (lt_of_le_of_ne h0 (Ne.symm hne)) hrange.2 hroom

theorem Canonical.insertStrict {es : List BalanceEntry} (hm : Canonical m)
    (hrange : ∀ e ∈ es, IsI128 e.amount) (h : insertStrict m es = .ok m') : Canonical m' := by
  induction es generalizing m with
  | nil =>
      cases h
      exact hm
  | cons e es ih =>
      rw [List.forall_mem_cons] at hrange
      simp only [BalanceMap.insertStrict, bind_eq_ok, requireNonNegativeAmount_eq_ok,
        require_eq_ok] at h
      obtain ⟨_, h0, _, hnew, h⟩ := h
      split at h
      · exact ih hm hrange.2 h
      · rename_i hne
        simp only [bind_eq_ok, require_eq_ok] at h
        obtain ⟨_, hsize, h⟩ := h
        refine ih (hm.insert (lt_of_le_of_ne h0 (Ne.symm hne)) hrange.1.2 ?_) hrange.2 h
        rintro ⟨hfull, _⟩
        omega

/-- **What the operations build is canonical.** -/
theorem Built.canonical (h : Built m) : Canonical m := by
  induction h with
  | newMap => exact canonical_newMap
  | checkedAddBalance _ h ih => exact ih.checkedAddBalance h
  | checkedSubBalance _ h ih => exact ih.checkedSubBalance h
  | setBalance _ hrange h ih => exact ih.setBalance hrange h
  | mergeMaps _ hsrc h ih => exact ((mergeMaps_eq_ok ih hsrc).1 h).1
  | subtractMaps _ hsrc h ih => exact ((subtractMaps_eq_ok ih hsrc).1 h).1
  | aggregateAssetAmounts h => exact (aggregateAssetAmounts_eq_ok.1 h).2.2.1
  | aggregateEntries h => exact (aggregateEntries_eq_ok.1 h).2.1
  | fromEntriesStrict hrange h => exact canonical_newMap.insertStrict hrange h

/-! ## Reordering and splitting -/

/-- Entries with the same totals aggregate to the same map, if to any. -/
theorem aggregateEntries_congr {es es' : List BalanceEntry} (hpos : ∀ e ∈ es, 0 < e.amount)
    (hpos' : ∀ e ∈ es', 0 < e.amount)
    (hsame : ∀ k, total (es.map entryPair) k = total (es'.map entryPair) k) :
    aggregateEntries es = .ok m ↔ aggregateEntries es' = .ok m := by
  have h0 : ∀ e ∈ es, 0 ≤ e.amount := fun e he => (hpos e he).le
  have h0' : ∀ e ∈ es', 0 ≤ e.amount := fun e he => (hpos' e he).le
  rw [aggregateEntries_eq_ok, aggregateEntries_eq_ok, iff_true_intro h0, iff_true_intro h0']
  simp only [hsame]

/-- Positive entries with no total are none. -/
theorem eq_nil_iff_total {es : List AssetAmount} (hpos : ∀ e ∈ es, 0 < e.amount) :
    es = [] ↔ ∀ k, total (es.map amountPair) k = 0 := by
  constructor
  · rintro rfl k
    rfl
  · intro hzero
    cases es with
    | nil => rfl
    | cons e es =>
        rw [List.forall_mem_cons] at hpos
        have hrest : ∀ p ∈ es.map amountPair, 0 < p.2 := by simpa [amountPair] using hpos.2
        have htotal : e.amount ≤ total ((e :: es).map amountPair) e.asset := le_total_cons hrest
        rw [hzero] at htotal
        exact absurd htotal (not_le.2 hpos.1)

theorem aggregateAssetAmounts_congr {es es' : List AssetAmount} (hpos : ∀ e ∈ es, 0 < e.amount)
    (hpos' : ∀ e ∈ es', 0 < e.amount)
    (hsame : ∀ k, total (es.map amountPair) k = total (es'.map amountPair) k) :
    aggregateAssetAmounts es = .ok m ↔ aggregateAssetAmounts es' = .ok m := by
  have hsome : es ≠ [] ↔ es' ≠ [] := by
    rw [ne_eq, ne_eq, eq_nil_iff_total hpos, eq_nil_iff_total hpos']
    simp only [hsame]
  rw [aggregateAssetAmounts_eq_ok, aggregateAssetAmounts_eq_ok, hsome, iff_true_intro hpos,
    iff_true_intro hpos']
  simp only [hsame]

/-- **The algebra of balance maps.** -/
theorem balance_map_algebra :
    (∀ m, Built m → Canonical m) ∧
    (∀ m, Canonical m →
      aggregateEntries m.toEntries = .ok m ∧ fromEntriesStrict m.toEntries = .ok m) ∧
    (∀ dst src m, Canonical dst → Canonical src → mergeMaps dst src = .ok m →
      subtractMaps m src = .ok dst) ∧
    (∀ dst src, Canonical dst → Canonical src →
      (ensureSufficient dst src = .ok () ↔ ∃ m, subtractMaps dst src = .ok m)) ∧
    (∀ a b, Canonical a → Canonical b →
      (reconcileMaps a b = .ok () ↔ deltas a b = .ok ∅) ∧ (deltas a b = .ok ∅ ↔ a = b)) ∧
    (∀ es es' : List BalanceEntry, (∀ e ∈ es, 0 < e.amount) → (∀ e ∈ es', 0 < e.amount) →
      Rearranged (es.map entryPair) (es'.map entryPair) →
      ∀ m, aggregateEntries es = .ok m ↔ aggregateEntries es' = .ok m) ∧
    ∀ es es' : List AssetAmount, (∀ e ∈ es, 0 < e.amount) → (∀ e ∈ es', 0 < e.amount) →
      Rearranged (es.map amountPair) (es'.map amountPair) →
      ∀ m, aggregateAssetAmounts es = .ok m ↔ aggregateAssetAmounts es' = .ok m := by
  refine ⟨fun _ => Built.canonical, ?_, ?_, ?_, ?_, ?_, ?_⟩
  · intro m hm
    exact ⟨aggregateEntries_toEntries hm, fromEntriesStrict_toEntries hm⟩
  · intro dst src m hdst hsrc h
    exact subtractMaps_mergeMaps hdst hsrc h
  · intro dst src hdst hsrc
    exact ensureSufficient_eq_ok hdst hsrc
  · intro a b ha hb
    rw [reconcileMaps_eq_ok ha hb, deltas_eq_empty ha hb]
    exact ⟨Iff.rfl, Iff.rfl⟩
  · intro es es' hpos hpos' h m
    exact aggregateEntries_congr hpos hpos' h.total_eq
  · intro es es' hpos hpos' h m
    exact aggregateAssetAmounts_congr hpos hpos' h.total_eq

/-- Two assets, of which one is paid in parts. -/
theorem balance_map_algebra_two :
    let usd : BalanceMap := newMap.insert (.contract 1) 30
    let eur : BalanceMap := newMap.insert (.contract 2) 5
    let both : BalanceMap := usd.insert (.contract 2) 5
    Canonical both ∧
    aggregateEntries [⟨.contract 1, 30⟩, ⟨.contract 2, 5⟩] = .ok both ∧
    fromEntriesStrict [⟨.contract 1, 30⟩, ⟨.contract 2, 5⟩] = .ok both ∧
    subtractMaps both eur = .ok usd ∧
    ensureSufficient both eur = .ok () ∧
    deltas both both = .ok ∅ ∧
    aggregateEntries [⟨.contract 2, 5⟩, ⟨.contract 1, 10⟩, ⟨.contract 1, 20⟩] = .ok both ∧
    aggregateAssetAmounts [⟨.contract 2, 5⟩, ⟨.contract 1, 10⟩, ⟨.contract 1, 20⟩] = .ok both := by
  intro usd eur both
  obtain ⟨hbuilt, hround, hmerged, hsuffices, hreconciled, hentries, hamounts⟩ :=
    balance_map_algebra
  have eur_built : newMap.checkedAddBalance (.contract 2) 5 = .ok (5, eur) := rfl
  have usd_built : newMap.checkedAddBalance (.contract 1) 30 = .ok (30, usd) := rfl
  have both_built : usd.checkedAddBalance (.contract 2) 5 = .ok (5, both) := rfl
  have heur := hbuilt _ (.checkedAddBalance .newMap eur_built)
  have husd := hbuilt _ (.checkedAddBalance .newMap usd_built)
  have hboth := hbuilt _ (.checkedAddBalance (.checkedAddBalance .newMap usd_built) both_built)
  have hmerge : mergeMaps usd eur = .ok both := rfl
  have hsubtract := hmerged _ _ _ husd heur hmerge
  have hrearranged : Rearranged [(.contract 1, 30), (.contract 2, 5)]
      [(.contract 2, 5), (.contract 1, 10), (.contract 1, 20)] :=
    .trans (.perm (.swap _ _ _)) (.split [(.contract 2, 5)] [] (.contract 1) 10 20)
  refine ⟨hboth, (hround _ hboth).1, (hround _ hboth).2, hsubtract,
    (hsuffices _ _ hboth heur).2 ⟨_, hsubtract⟩, ((hreconciled _ _ hboth hboth).2).2 rfl, ?_, ?_⟩
  · exact (hentries [⟨.contract 1, 30⟩, ⟨.contract 2, 5⟩]
      [⟨.contract 2, 5⟩, ⟨.contract 1, 10⟩, ⟨.contract 1, 20⟩] (by decide) (by decide)
      hrearranged both).1 rfl
  · exact (hamounts [⟨.contract 1, 30⟩, ⟨.contract 2, 5⟩]
      [⟨.contract 2, 5⟩, ⟨.contract 1, 10⟩, ⟨.contract 1, 20⟩] (by decide) (by decide)
      hrearranged both).1 rfl

end BalanceMap
end Astroid
