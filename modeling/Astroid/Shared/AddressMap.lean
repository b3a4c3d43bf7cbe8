import Astroid.Shared.Types

/-!
# Maps keyed by addresses

The host keeps the entries of a map in the order of their keys: accounts come before
contracts, and within a kind the identifier decides.
-/

namespace Astroid

namespace Address

instance : LE Address where
  le
  | account m, account n => m ≤ n
  | account _, contract _ => True
  | contract _, account _ => False
  | contract m, contract n => m ≤ n

instance : DecidableLE Address
  | account m, account n => inferInstanceAs (Decidable (m ≤ n))
  | account _, contract _ => .isTrue trivial
  | contract _, account _ => .isFalse id
  | contract m, contract n => inferInstanceAs (Decidable (m ≤ n))

instance : LinearOrder Address where
  le_refl a := by cases a <;> exact Nat.le_refl _
  le_trans a b c := by
    cases a <;> cases b <;> cases c
    case account.account.account => exact Nat.le_trans
    case contract.contract.contract => exact Nat.le_trans
    all_goals
      intro h h'
      trivial
  le_antisymm a b := by
    cases a <;> cases b
    · exact fun h h' => congrArg account (Nat.le_antisymm h h')
    · exact fun _ h => h.elim
    · exact fun h => h.elim
    · exact fun h h' => congrArg contract (Nat.le_antisymm h h')
  le_total a b := by
    cases a <;> cases b
    · exact Nat.le_total _ _
    · exact .inl trivial
    · exact .inr trivial
    · exact Nat.le_total _ _
  toDecidableLE := inferInstance

instance : Std.TransCmp (compare : Address → Address → Ordering) := inferInstance

instance : Std.LawfulEqCmp (compare : Address → Address → Ordering) where
  eq_of_compare := compare_eq_iff_eq.1

end Address

/-- A map of the host keyed by addresses. -/
abbrev AddressMap (ν : Type) := Std.ExtTreeMap Address ν

namespace AddressMap

variable {ν : Type} {m : AddressMap ν} {a k : Address} {v : ν}

theorem getElem?_insert_ne (h : k ≠ a) : (m.insert k v)[a]? = m[a]? := by
  rw [Std.ExtTreeMap.getElem?_insert, if_neg]
  rw [compare_eq_iff_eq]
  exact h

theorem keys_nodup : (m.toList.map Prod.fst).Nodup := by
  rw [List.Nodup, List.pairwise_map]
  refine m.distinct_keys_toList.imp ?_
  intro x y hne heq
  exact hne (compare_eq_iff_eq.2 heq)

theorem getElem?_erase_ne (h : k ≠ a) : (m.erase k)[a]? = m[a]? := by
  rw [Std.ExtTreeMap.getElem?_erase, if_neg]
  rw [compare_eq_iff_eq]
  exact h

theorem mem_iff_exists : a ∈ m ↔ ∃ v, m[a]? = some v := by
  rw [Std.ExtTreeMap.mem_iff_isSome_getElem?, Option.isSome_iff_exists]

theorem mem_insert_iff : a ∈ m.insert k v ↔ k = a ∨ a ∈ m := by
  rw [Std.ExtTreeMap.mem_insert, compare_eq_iff_eq]

/-- A map with more keys has more entries. -/
theorem size_le_of_subset {m' : AddressMap ν} (h : ∀ a, a ∈ m → a ∈ m') : m.size ≤ m'.size := by
  have hsub : m.keys ⊆ m'.keys := by
    intro a ha
    rw [Std.ExtTreeMap.mem_keys] at ha ⊢
    exact h a ha
  have hle := (List.subperm_of_subset Std.ExtTreeMap.nodup_keys hsub).length_le
  rwa [Std.ExtTreeMap.length_keys, Std.ExtTreeMap.length_keys] at hle

/-- The entries of a map with one key. -/
theorem toList_insert_empty : ((∅ : AddressMap ν).insert k v).toList = [(k, v)] := by
  have hsize : ((∅ : AddressMap ν).insert k v).toList.length = 1 := by
    rw [Std.ExtTreeMap.length_toList, Std.ExtTreeMap.size_insert]
    simp
  obtain ⟨x, hx⟩ := List.length_eq_one_iff.1 hsize
  have hmem : (k, v) ∈ ((∅ : AddressMap ν).insert k v).toList :=
    Std.ExtTreeMap.mem_toList_iff_getElem?_eq_some.2 Std.ExtTreeMap.getElem?_insert_self
  rw [hx, List.mem_singleton] at hmem
  rw [hx, hmem]

end AddressMap

end Astroid
