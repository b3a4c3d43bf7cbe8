import Astroid.Shared.Balance

/-!
# The algebra of balance maps

A map is canonical when it stores positive amounts only, and no more of them than its bound.
A canonical map is its balances (`Canonical.ext`), and the loops compute with these: merging
adds them, subtracting subtracts them, and aggregation adds up what the entries say of each
asset.  A loop returns exactly when there is a canonical map with the balances it is after
(`mergeEntries_eq_ok`, `subtractEntries_eq_ok`), so neither the order nor the splitting of
the entries matters.
-/

namespace Astroid
namespace BalanceMap

open Outcome

variable {m m' dst src a b : BalanceMap} {asset : Address} {v x : ℤ} {es es' : List (Address × ℤ)}

/-! ## Canonical maps -/

/-- Positive amounts only, and not too many. -/
structure Canonical (m : BalanceMap) : Prop where
  pos : ∀ (asset : Address) (v : ℤ), m[asset]? = some v → 0 < v
  le_max : ∀ (asset : Address) (v : ℤ), m[asset]? = some v → v ≤ i128Max
  size_le : m.size ≤ maxBalanceEntries

theorem getBalance_eq (h : m[asset]? = some v) : m.getBalance asset = v := by
  rw [getBalance, h]
  rfl

theorem getBalance_of_not_mem (h : asset ∉ m) : m.getBalance asset = 0 := by
  rw [getBalance, Std.ExtTreeMap.getElem?_eq_none h]
  rfl

/-- A balance is an entry, or zero without one. -/
theorem getBalance_cases (m : BalanceMap) (asset : Address) :
    (asset ∉ m ∧ m.getBalance asset = 0) ∨ ∃ v, m[asset]? = some v ∧ m.getBalance asset = v := by
  by_cases hmem : asset ∈ m
  · obtain ⟨v, hv⟩ := AddressMap.mem_iff_exists.1 hmem
    exact .inr ⟨v, hv, getBalance_eq hv⟩
  · exact .inl ⟨hmem, getBalance_of_not_mem hmem⟩

theorem getBalance_insert (k : Address) : getBalance (m.insert asset v) k
    = if asset = k then v else m.getBalance k := by
  unfold getBalance
  split
  · rename_i h
    subst h
    rw [Std.ExtTreeMap.getElem?_insert_self]
    rfl
  · rename_i h
    rw [AddressMap.getElem?_insert_ne h]

theorem getBalance_erase (k : Address) : getBalance (m.erase asset) k
    = if asset = k then 0 else m.getBalance k := by
  unfold getBalance
  split
  · rename_i h
    subst h
    rw [Std.ExtTreeMap.getElem?_erase_self]
    rfl
  · rename_i h
    rw [AddressMap.getElem?_erase_ne h]

theorem canonical_newMap : Canonical newMap := by
  refine ⟨?_, ?_, Nat.zero_le _⟩
  · intro asset v h
    simp [newMap] at h
  · intro asset v h
    simp [newMap] at h

theorem getBalance_newMap : newMap.getBalance asset = 0 := by
  simp [getBalance, newMap]

namespace Canonical

theorem nonneg (h : Canonical m) (asset : Address) : 0 ≤ m.getBalance asset := by
  rcases getBalance_cases m asset with ⟨_, hzero⟩ | ⟨v, hv, hbalance⟩
  · exact hzero.ge
  · rw [hbalance]
    exact (h.pos asset v hv).le

theorem balance_le (h : Canonical m) (asset : Address) : m.getBalance asset ≤ i128Max := by
  rcases getBalance_cases m asset with ⟨_, hzero⟩ | ⟨v, hv, hbalance⟩
  · rw [hzero]
    decide
  · rw [hbalance]
    exact h.le_max asset v hv

theorem mem_iff (h : Canonical m) : asset ∈ m ↔ 0 < m.getBalance asset := by
  constructor
  · intro hmem
    obtain ⟨v, hv⟩ := AddressMap.mem_iff_exists.1 hmem
    rw [getBalance_eq hv]
    exact h.pos asset v hv
  · intro hpos
    by_contra hmem
    rw [getBalance_of_not_mem hmem] at hpos
    exact lt_irrefl 0 hpos

/-- **A canonical map is its balances.** -/
theorem ext (h : Canonical m) (h' : Canonical m')
    (hsame : ∀ asset, m.getBalance asset = m'.getBalance asset) : m = m' := by
  apply Std.ExtTreeMap.ext_getElem?
  intro asset
  have hmem : asset ∈ m ↔ asset ∈ m' := by
    rw [h.mem_iff, h'.mem_iff, hsame]
  by_cases hasset : asset ∈ m
  · obtain ⟨v, hv⟩ := AddressMap.mem_iff_exists.1 hasset
    obtain ⟨v', hv'⟩ := AddressMap.mem_iff_exists.1 (hmem.1 hasset)
    have heq := hsame asset
    rw [getBalance_eq hv, getBalance_eq hv'] at heq
    rw [hv, hv', heq]
  · rw [Std.ExtTreeMap.getElem?_eq_none hasset, Std.ExtTreeMap.getElem?_eq_none (mt hmem.2 hasset)]

theorem eq_iff (h : Canonical m) :
    m = m' ↔ Canonical m' ∧ ∀ asset, m'.getBalance asset = m.getBalance asset := by
  constructor
  · rintro rfl
    exact ⟨h, fun _ => rfl⟩
  · rintro ⟨h', hsame⟩
    exact h.ext h' fun asset => (hsame asset).symm

theorem insert (h : Canonical m) (hpos : 0 < v) (hmax : v ≤ i128Max) (hroom : ¬ m.Refuses asset) :
    Canonical (m.insert asset v) := by
  have hvalue : ∀ (k : Address) (w : ℤ), (m.insert asset v)[k]? = some w → w = v ∨ m[k]? = some w := by
    intro k w hw
    by_cases hk : asset = k
    · subst hk
      rw [Std.ExtTreeMap.getElem?_insert_self, Option.some.injEq] at hw
      exact .inl hw.symm
    · rw [AddressMap.getElem?_insert_ne hk] at hw
      exact .inr hw
  refine ⟨?_, ?_, ?_⟩
  · intro k w hw
    rcases hvalue k w hw with rfl | hw
    · exact hpos
    · exact h.pos k w hw
  · intro k w hw
    rcases hvalue k w hw with rfl | hw
    · exact hmax
    · exact h.le_max k w hw
  · rw [Std.ExtTreeMap.size_insert]
    have hsize := h.size_le
    split
    · exact hsize
    · rename_i hnew
      rw [Refuses, not_and, not_not] at hroom
      by_contra hfull
      exact hnew (hroom (by omega))

theorem erase (h : Canonical m) : Canonical (m.erase asset) := by
  have hvalue : ∀ (k : Address) (w : ℤ), (m.erase asset)[k]? = some w → m[k]? = some w := by
    intro k w hw
    by_cases hk : asset = k
    · subst hk
      rw [Std.ExtTreeMap.getElem?_erase_self] at hw
      cases hw
    · rwa [AddressMap.getElem?_erase_ne hk] at hw
  exact ⟨fun k w hw => h.pos k w (hvalue k w hw), fun k w hw => h.le_max k w (hvalue k w hw),
    Std.ExtTreeMap.size_erase_le.trans h.size_le⟩

/-- What a debit leaves of an entry. -/
theorem debited (h : Canonical m) (h0 : 0 ≤ v) (hle : v ≤ m.getBalance asset) :
    Canonical (if v = 0 then m.erase asset else m.insert asset v) := by
  split
  · exact h.erase
  · rename_i hne
    have hpos : 0 < v := lt_of_le_of_ne h0 (Ne.symm hne)
    refine h.insert hpos (hle.trans (h.balance_le asset)) ?_
    rintro ⟨_, habsent⟩
    exact habsent (h.mem_iff.2 (hpos.trans_le hle))

end Canonical

theorem getBalance_debited (k : Address) :
    getBalance (if v = 0 then m.erase asset else m.insert asset v) k
      = if asset = k then v else m.getBalance k := by
  split
  · rename_i hzero
    rw [getBalance_erase, hzero]
  · exact getBalance_insert k

/-! ## Totals of entries -/

/-- What some entries say of an asset. -/
def total (es : List (Address × ℤ)) (asset : Address) : ℤ :=
  (es.map fun e => if e.1 = asset then e.2 else 0).sum

@[simp] theorem total_nil : total [] asset = 0 := rfl

@[simp] theorem total_cons {e : Address × ℤ} :
    total (e :: es) asset = (if e.1 = asset then e.2 else 0) + total es asset := by
  simp [total]

@[simp] theorem total_append :
    total (es ++ es') asset = total es asset + total es' asset := by
  simp [total]

/-- The order of the entries does not matter. -/
theorem total_perm (h : es.Perm es') (asset : Address) : total es asset = total es' asset :=
  (h.map _).sum_eq

/-- Nor does the splitting of one. -/
theorem total_split {y : ℤ} (k : Address) :
    total (es ++ (asset, x + y) :: es') k
      = total (es ++ (asset, x) :: (asset, y) :: es') k := by
  simp only [total_append, total_cons]
  split <;> omega

/-- The same entries in another order, or split and joined otherwise. -/
inductive Rearranged : List (Address × ℤ) → List (Address × ℤ) → Prop
  | perm {es es' : List (Address × ℤ)} : es.Perm es' → Rearranged es es'
  | split (es es' : List (Address × ℤ)) (asset : Address) (x y : ℤ) :
      Rearranged (es ++ (asset, x + y) :: es') (es ++ (asset, x) :: (asset, y) :: es')
  | symm {es es' : List (Address × ℤ)} : Rearranged es es' → Rearranged es' es
  | trans {es mid es' : List (Address × ℤ)} :
      Rearranged es mid → Rearranged mid es' → Rearranged es es'

theorem Rearranged.total_eq (h : Rearranged es es') (asset : Address) :
    total es asset = total es' asset := by
  induction h with
  | perm h => exact total_perm h asset
  | split => exact total_split asset
  | symm _ ih => exact ih.symm
  | trans _ _ ih ih' => exact ih.trans ih'

theorem total_nonneg (h : ∀ e ∈ es, 0 ≤ e.2) (asset : Address) : 0 ≤ total es asset := by
  induction es with
  | nil => exact le_rfl
  | cons e es ih =>
      rw [List.forall_mem_cons] at h
      have hrest := ih h.2
      have hhead := h.1
      rw [total_cons]
      split <;> omega

/-- An entry is no more than the total of its asset. -/
theorem le_total_cons (h : ∀ e ∈ es, 0 < e.2) : x ≤ total ((asset, x) :: es) asset := by
  rw [total_cons, if_pos rfl]
  exact le_add_of_nonneg_right (total_nonneg (fun e he => (h e he).le) asset)

theorem total_of_not_mem (h : asset ∉ es.map Prod.fst) : total es asset = 0 := by
  induction es with
  | nil => rfl
  | cons e es ih =>
      rw [List.map_cons, List.mem_cons, not_or] at h
      rw [total_cons, if_neg (Ne.symm h.1), ih h.2, add_zero]

theorem total_of_mem (hnodup : (es.map Prod.fst).Nodup) (h : (asset, v) ∈ es) :
    total es asset = v := by
  induction es with
  | nil => cases h
  | cons e es ih =>
      rw [List.map_cons, List.nodup_cons] at hnodup
      rw [total_cons]
      rcases List.mem_cons.1 h with rfl | h
      · rw [if_pos rfl, total_of_not_mem hnodup.1, add_zero]
      · have hne : e.1 ≠ asset := by
          rintro rfl
          exact hnodup.1 (List.mem_map.2 ⟨_, h, rfl⟩)
        rw [if_neg hne, ih hnodup.2 h, zero_add]

theorem mem_toList {e : Address × ℤ} : e ∈ m.toList ↔ m[e.1]? = some e.2 :=
  Std.ExtTreeMap.mem_toList_iff_getElem?_eq_some

/-- The entries of a map say what its balances are. -/
theorem total_toList (m : BalanceMap) (asset : Address) :
    total m.toList asset = m.getBalance asset := by
  rcases getBalance_cases m asset with ⟨hmem, hzero⟩ | ⟨v, hv, hbalance⟩
  · rw [hzero, total_of_not_mem]
    rw [List.mem_map]
    rintro ⟨e, he, rfl⟩
    exact hmem (AddressMap.mem_iff_exists.2 ⟨_, mem_toList.1 he⟩)
  · rw [hbalance]
    exact total_of_mem AddressMap.keys_nodup (mem_toList.2 hv)

theorem Canonical.toList_pos (h : Canonical m) : ∀ e ∈ m.toList, 0 < e.2 :=
  fun e he => h.pos e.1 e.2 (mem_toList.1 he)

/-! ## The checked operations -/

theorem checkedBalanceAdd_eq_ok (h : Canonical m) (hx : 0 ≤ x) :
    checkedBalanceAdd (m.getBalance asset) x = .ok v ↔
      m.getBalance asset + x ≤ i128Max ∧ v = m.getBalance asset + x := by
  have h0 := h.nonneg asset
  have hmin : i128Min ≤ 0 := by decide
  simp only [checkedBalanceAdd, bind_eq_ok, require_eq_ok, checkedAdd_eq_ok]
  constructor
  · rintro ⟨_, _, hrange, rfl⟩
    exact ⟨hrange.2, rfl⟩
  · rintro ⟨hmax, rfl⟩
    exact ⟨(), ⟨h0, hx⟩, ⟨by omega, hmax⟩, rfl⟩

theorem checkedBalanceSub_eq_ok (h : Canonical m) (hx : 0 ≤ x) :
    checkedBalanceSub (m.getBalance asset) x = .ok v ↔
      x ≤ m.getBalance asset ∧ v = m.getBalance asset - x := by
  have h0 := h.nonneg asset
  have hmax := h.balance_le asset
  have hmin : i128Min ≤ 0 := by decide
  simp only [checkedBalanceSub, validateSufficientBalance, bind_eq_ok, require_eq_ok,
    checkedSub_eq_ok]
  constructor
  · rintro ⟨_, ⟨_, _, hle⟩, _, rfl⟩
    exact ⟨hle, rfl⟩
  · rintro ⟨hle, rfl⟩
    exact ⟨(), ⟨(), ⟨h0, hx⟩, hle⟩, ⟨by omega, by omega⟩, rfl⟩

theorem accumulate_eq_ok (h : Canonical m) (hx : 0 ≤ x) :
    m.accumulate asset x = .ok m' ↔ m.getBalance asset + x ≤ i128Max ∧ ¬ m.Refuses asset ∧
      m' = m.insert asset (m.getBalance asset + x) := by
  simp only [accumulate, bind_eq_ok, checkedBalanceAdd_eq_ok h hx, require_eq_ok, pure_eq_ok]
  constructor
  · rintro ⟨_, ⟨hmax, rfl⟩, _, hroom, rfl⟩
    exact ⟨hmax, hroom, rfl⟩
  · rintro ⟨hmax, hroom, rfl⟩
    exact ⟨_, ⟨hmax, rfl⟩, (), hroom, rfl⟩

/-! ## Merging and subtracting -/

/-- What an entry adds is what it says. -/
theorem getBalance_accumulated (k : Address) :
    getBalance (m.insert asset (m.getBalance asset + x)) k + total es k
      = m.getBalance k + total ((asset, x) :: es) k := by
  rw [getBalance_insert, total_cons]
  split
  · rename_i hk
    rw [← hk, add_assoc]
  · rw [zero_add]

/-- There is room for an asset where a canonical map has balances at least as high with it. -/
theorem Canonical.room (hm : Canonical m) (hm' : Canonical m') (hpos : 0 < v)
    (hle : ∀ k, getBalance (m.insert asset v) k ≤ m'.getBalance k) : ¬ m.Refuses asset := by
  rintro ⟨hfull, hnew⟩
  have hsub : ∀ k, k ∈ m.insert asset v → k ∈ m' := by
    intro k hk
    rw [hm'.mem_iff]
    refine lt_of_lt_of_le ?_ (hle k)
    rw [getBalance_insert]
    split
    · exact hpos
    · rename_i hne
      exact hm.mem_iff.1 ((AddressMap.mem_insert_iff.1 hk).resolve_left hne)
  have hsize := AddressMap.size_le_of_subset hsub
  rw [Std.ExtTreeMap.size_insert, if_neg (mt Std.ExtTreeMap.mem_iff_contains.2 hnew)] at hsize
  have hbound := hm'.size_le
  omega

/-- **Merging adds**: the loop returns the canonical map with the added balances, and fails
exactly when there is none. -/
theorem mergeEntries_eq_ok (hm : Canonical m) (hpos : ∀ e ∈ es, 0 < e.2) :
    mergeEntries m es = .ok m' ↔
      Canonical m' ∧ ∀ k, m'.getBalance k = m.getBalance k + total es k := by
  induction es generalizing m with
  | nil =>
      simp only [mergeEntries, pure_eq_ok, total_nil, add_zero]
      exact hm.eq_iff
  | cons e es ih =>
      obtain ⟨asset, x⟩ := e
      rw [List.forall_mem_cons] at hpos
      obtain ⟨hx, hpos⟩ := hpos
      have h0 := hm.nonneg asset
      have hnext : 0 < m.getBalance asset + x := add_pos_of_nonneg_of_pos h0 hx
      simp only [mergeEntries, bind_eq_ok, accumulate_eq_ok hm hx.le]
      constructor
      · rintro ⟨_, ⟨hmax, hroom, rfl⟩, hrest⟩
        obtain ⟨hm', hbalance⟩ := (ih (hm.insert hnext hmax hroom) hpos).1 hrest
        exact ⟨hm', fun k => (hbalance k).trans (getBalance_accumulated k)⟩
      · rintro ⟨hm', hbalance⟩
        have hafter : ∀ k, m'.getBalance k
            = getBalance (m.insert asset (m.getBalance asset + x)) k + total es k :=
          fun k => (hbalance k).trans (getBalance_accumulated k).symm
        have hle : ∀ k, getBalance (m.insert asset (m.getBalance asset + x)) k
            ≤ m'.getBalance k := by
          intro k
          have hmore := total_nonneg (fun e he => (hpos e he).le) k
          have hk := hafter k
          omega
        have hmax : m.getBalance asset + x ≤ i128Max := by
          have hasset := hle asset
          rw [getBalance_insert, if_pos rfl] at hasset
          exact hasset.trans (hm'.balance_le asset)
        have hroom := hm.room hm' hnext hle
        exact ⟨_, ⟨hmax, hroom, rfl⟩, (ih (hm.insert hnext hmax hroom) hpos).2 ⟨hm', hafter⟩⟩

/-- What a debit takes is what the entry says. -/
theorem getBalance_subtracted (k : Address) :
    getBalance (if m.getBalance asset - x = 0 then m.erase asset
        else m.insert asset (m.getBalance asset - x)) k - total es k
      = m.getBalance k - total ((asset, x) :: es) k := by
  rw [getBalance_debited, total_cons]
  split
  · rename_i hk
    rw [← hk, sub_sub]
  · rw [zero_add]

/-- **Subtracting subtracts**: the loop returns the canonical map with what is left. -/
theorem subtractEntries_eq_ok (hm : Canonical m) (hpos : ∀ e ∈ es, 0 < e.2) :
    subtractEntries m es = .ok m' ↔
      Canonical m' ∧ ∀ k, m'.getBalance k = m.getBalance k - total es k := by
  induction es generalizing m with
  | nil =>
      simp only [subtractEntries, pure_eq_ok, total_nil, sub_zero]
      exact hm.eq_iff
  | cons e es ih =>
      obtain ⟨asset, x⟩ := e
      rw [List.forall_mem_cons] at hpos
      obtain ⟨hx, hpos⟩ := hpos
      have hdebited (hle : x ≤ m.getBalance asset) :=
        hm.debited (sub_nonneg.2 hle) (sub_le_self _ hx.le)
      simp only [subtractEntries, bind_eq_ok, checkedBalanceSub_eq_ok hm hx.le]
      constructor
      · rintro ⟨_, ⟨hle, rfl⟩, hrest⟩
        obtain ⟨hm', hbalance⟩ := (ih (hdebited hle) hpos).1 hrest
        exact ⟨hm', fun k => (hbalance k).trans (getBalance_subtracted k)⟩
      · rintro ⟨hm', hbalance⟩
        have hle : x ≤ m.getBalance asset := by
          have hleft := hm'.nonneg asset
          rw [hbalance asset, sub_nonneg] at hleft
          exact (le_total_cons hpos).trans hleft
        refine ⟨_, ⟨hle, rfl⟩, (ih (hdebited hle) hpos).2 ⟨hm', ?_⟩⟩
        intro k
        exact (hbalance k).trans (getBalance_subtracted k).symm

/-- What can be subtracted is what is there. -/
theorem exists_subtractEntries (hm : Canonical m) (hpos : ∀ e ∈ es, 0 < e.2) :
    (∃ m', subtractEntries m es = .ok m') ↔ ∀ k, total es k ≤ m.getBalance k := by
  constructor
  · rintro ⟨m', h⟩ k
    obtain ⟨hm', hbalance⟩ := (subtractEntries_eq_ok hm hpos).1 h
    have hleft := hm'.nonneg k
    rw [hbalance k] at hleft
    omega
  · intro hcovered
    induction es generalizing m with
    | nil => exact ⟨m, rfl⟩
    | cons e es ih =>
        obtain ⟨asset, x⟩ := e
        rw [List.forall_mem_cons] at hpos
        obtain ⟨hx, hpos⟩ := hpos
        have hle : x ≤ m.getBalance asset := (le_total_cons hpos).trans (hcovered asset)
        have hdebited := hm.debited (sub_nonneg.2 hle) (sub_le_self _ hx.le)
        obtain ⟨m', hm'⟩ := ih hdebited hpos (by
          intro k
          have hk := hcovered k
          have hstep : _ - total es k = m.getBalance k - total ((asset, x) :: es) k :=
            getBalance_subtracted k
          omega)
        refine ⟨m', ?_⟩
        simp only [subtractEntries, bind_eq_ok, checkedBalanceSub_eq_ok hm hx.le]
        exact ⟨_, ⟨hle, rfl⟩, hm'⟩

end BalanceMap
end Astroid
