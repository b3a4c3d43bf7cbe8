import Mathlib

/-!
# Weighted voters

Voters are listed, each under a key and with a weight.  The support of a question is the
weight of the voters that voted for it; it is the total at most (`support_le_total`), and
all of it when everybody voted (`support_of_all`).  Where no two voters share a key, one
more key that votes adds the weight of its voter (`support_insert`).  Keys can also be
weighed by the voter found first under each (`weightAt`); a set of them has the total
weight at most (`sum_weightAt_le_total`).
-/

namespace Quorum

variable {α κ : Type}

/-- The weight of all voters. -/
def total (weight : α → ℕ) (l : List α) : ℕ := (l.map weight).sum

/-- The weight of those that voted. -/
def support (key : α → κ) (weight : α → ℕ) (voted : κ → Bool) (l : List α) : ℕ :=
  total weight (l.filter fun x => voted (key x))

/-- How many voted. -/
def turnout (key : α → κ) (voted : κ → Bool) (l : List α) : ℕ :=
  (l.filter fun x => voted (key x)).length

section Totals

variable {weight : α → ℕ} {l l' : List α} {x : α}

@[simp] theorem total_nil : total weight [] = 0 := rfl

@[simp] theorem total_cons : total weight (x :: l) = weight x + total weight l := by
  simp [total]

@[simp] theorem total_append : total weight (l ++ l') = total weight l + total weight l' := by
  simp [total]

end Totals

section Support

variable {key : α → κ} {weight : α → ℕ} {voted voted' : κ → Bool} {l l' : List α} {x : α}

@[simp] theorem support_nil : support key weight voted [] = 0 := rfl

@[simp] theorem support_cons : support key weight voted (x :: l)
    = (if voted (key x) = true then weight x else 0) + support key weight voted l := by
  unfold support
  by_cases h : voted (key x) = true <;> simp [h]

@[simp] theorem support_append : support key weight voted (l ++ l')
    = support key weight voted l + support key weight voted l' := by
  simp [support]

@[simp] theorem turnout_cons : turnout key voted (x :: l)
    = (if voted (key x) = true then 1 else 0) + turnout key voted l := by
  unfold turnout
  by_cases h : voted (key x) = true <;> simp [h, Nat.add_comm]

theorem turnout_le_length : turnout key voted l ≤ l.length := List.length_filter_le ..

theorem support_le_total : support key weight voted l ≤ total weight l := by
  induction l with
  | nil => exact le_rfl
  | cons x l ih =>
      rw [support_cons, total_cons]
      split <;> omega

/-- Everybody together has all the weight. -/
theorem support_of_all (h : ∀ x ∈ l, voted (key x) = true) :
    support key weight voted l = total weight l := by
  unfold support
  rw [List.filter_eq_self.2 h]

theorem support_congr (h : ∀ x ∈ l, voted (key x) = voted' (key x)) :
    support key weight voted l = support key weight voted' l := by
  unfold support
  rw [List.filter_congr h]

/-- A vote of nobody on the list adds nothing. -/
theorem support_of_absent [DecidableEq κ] {k : κ} (h : k ∉ l.map key) :
    support key weight (fun k' => voted k' || decide (k' = k)) l
      = support key weight voted l := by
  refine support_congr ?_
  intro x hx
  have hne : key x ≠ k := by
    rintro rfl
    exact h (List.mem_map_of_mem hx)
  simp [hne]

/-- **One more vote adds the weight of its voter.** -/
theorem support_insert [DecidableEq κ] (hnodup : (l.map key).Nodup) (hx : x ∈ l)
    (hnew : voted (key x) = false) :
    support key weight (fun k => voted k || decide (k = key x)) l
      = support key weight voted l + weight x := by
  obtain ⟨before, after, rfl⟩ := List.append_of_mem hx
  rw [List.map_append, List.map_cons, List.nodup_middle, List.nodup_cons, List.mem_append] at hnodup
  have hbefore : key x ∉ before.map key := fun h => hnodup.1 (.inl h)
  have hafter : key x ∉ after.map key := fun h => hnodup.1 (.inr h)
  rw [support_append, support_append, support_cons, support_cons, support_of_absent hbefore,
    support_of_absent hafter]
  simp [hnew]
  omega

/-- To count the voters is to weigh each of them with one. -/
theorem turnout_eq_support : turnout key voted l = support key (fun _ => 1) voted l := by
  simp [turnout, support, total]

/-- One more vote is one voter more. -/
theorem turnout_insert [DecidableEq κ] (hnodup : (l.map key).Nodup) (hx : x ∈ l)
    (hnew : voted (key x) = false) :
    turnout key (fun k => voted k || decide (k = key x)) l = turnout key voted l + 1 := by
  rw [turnout_eq_support, turnout_eq_support, support_insert hnodup hx hnew]

end Support

/-! ## Weights by key -/

section Keys

variable [DecidableEq κ] {key : α → κ} {weight : α → ℕ} {l : List α}

/-- The weight of the first voter with a key, and nothing where there is none. -/
def weightAt (key : α → κ) (weight : α → ℕ) (l : List α) (k : κ) : ℕ :=
  ((l.find? fun x => decide (key x = k)).map weight).getD 0

theorem weightAt_cons (x : α) (k : κ) : weightAt key weight (x :: l) k
    = if key x = k then weight x else weightAt key weight l k := by
  unfold weightAt
  by_cases h : key x = k <;> simp [h]

/-- **A set of keys has the total weight at most.** -/
theorem sum_weightAt_le_total (S : Finset κ) :
    ∑ k ∈ S, weightAt key weight l k ≤ total weight l := by
  induction l with
  | nil => simp [weightAt]
  | cons x l ih =>
      have hsplit : ∑ k ∈ S, weightAt key weight (x :: l) k
          ≤ ∑ k ∈ S, ((if key x = k then weight x else 0) + weightAt key weight l k) := by
        apply Finset.sum_le_sum
        intro k _
        rw [weightAt_cons]
        split <;> omega
      have hfirst : ∑ k ∈ S, (if key x = k then weight x else 0) ≤ weight x := by
        rw [Finset.sum_ite_eq]
        split <;> omega
      rw [Finset.sum_add_distrib] at hsplit
      rw [total_cons]
      omega

/-- Under a key there is one voter to find. -/
theorem find?_key_eq_some {k : κ} {x : α} (hnodup : (l.map key).Nodup) :
    (l.find? fun y => decide (key y = k)) = some x ↔ x ∈ l ∧ key x = k := by
  induction l with
  | nil => simp
  | cons y l ih =>
      rw [List.map_cons, List.nodup_cons] at hnodup
      by_cases hy : key y = k
      · have hother : ∀ x ∈ l, key x ≠ k := by
          rintro x hx rfl
          exact hnodup.1 (hy ▸ List.mem_map_of_mem hx)
        rw [List.find?_cons_of_pos (by simpa using hy), Option.some.injEq, List.mem_cons]
        constructor
        · rintro rfl
          exact ⟨.inl rfl, hy⟩
        · rintro ⟨rfl | hx, hk⟩
          · rfl
          · exact absurd hk (hother x hx)
      · rw [List.find?_cons_of_neg (by simpa using hy), ih hnodup.2, List.mem_cons]
        constructor
        · rintro ⟨hx, hk⟩
          exact ⟨.inr hx, hk⟩
        · rintro ⟨rfl | hx, hk⟩
          · exact absurd hk hy
          · exact ⟨hx, hk⟩

/-- Where the voters stand does not matter. -/
theorem find?_key_perm {l' : List α} (hnodup : (l.map key).Nodup) (hperm : l.Perm l') (k : κ) :
    (l.find? fun y => decide (key y = k)) = l'.find? fun y => decide (key y = k) := by
  apply Option.ext
  intro x
  rw [find?_key_eq_some hnodup, find?_key_eq_some ((hperm.map key).nodup hnodup), hperm.mem_iff]

theorem weightAt_key {x : α} (hnodup : (l.map key).Nodup) (hx : x ∈ l) :
    weightAt key weight l (key x) = weight x := by
  unfold weightAt
  rw [(find?_key_eq_some hnodup).2 ⟨hx, rfl⟩]
  rfl

/-- **The support of some keys is what they weigh together.** -/
theorem support_eq_sum_weightAt {votes : List κ} (hnodup : (l.map key).Nodup)
    (hvotes : votes.Nodup) (hlisted : ∀ k ∈ votes, k ∈ l.map key) :
    support key weight (fun k => decide (k ∈ votes)) l
      = (votes.map (weightAt key weight l)).sum := by
  induction votes with
  | nil =>
      have hnobody : (l.filter fun x => decide (key x ∈ ([] : List κ))) = [] := by simp
      rw [support, hnobody]
      rfl
  | cons k votes ih =>
      rw [List.nodup_cons] at hvotes
      rw [List.forall_mem_cons] at hlisted
      obtain ⟨hk, hrest⟩ := hlisted
      obtain ⟨x, hx, rfl⟩ := List.mem_map.1 hk
      have hinsert : support key weight (fun k => decide (k ∈ key x :: votes)) l
          = support key weight (fun k => decide (k ∈ votes) || decide (k = key x)) l := by
        refine support_congr ?_
        intro y _
        simp [Bool.or_comm]
      rw [hinsert, support_insert hnodup hx (by simpa using hvotes.1), ih hvotes.2 hrest,
        List.map_cons, List.sum_cons, weightAt_key hnodup hx, add_comm]

end Keys

end Quorum
