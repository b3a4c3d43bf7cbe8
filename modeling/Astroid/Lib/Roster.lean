import Mathlib

/-!
# Rosters

A list of distinct members, one of which is its head.  A roster is never empty, and the
operations keep it so: its head can be replaced (`rotate`), members can be enlisted and,
as long as somebody else remains, dismissed, where the next in the list takes the place of
a head.  Whoever was replaced or dismissed is no member afterwards (`mem_rotate`,
`mem_dismiss`).
-/

/-- Distinct members, and a head among them. -/
structure Roster (α : Type) where
  head : α
  members : List α
  nodup : members.Nodup
  head_mem : head ∈ members

namespace Roster

variable {α : Type} (r : Roster α) {x a : α}

theorem members_ne_nil : r.members ≠ [] := List.ne_nil_of_mem r.head_mem

/-- A roster of one. -/
def single (x : α) : Roster α where
  head := x
  members := [x]
  nodup := List.nodup_singleton x
  head_mem := List.mem_singleton_self x

/-- Put `x` at the end. -/
def enlist (x : α) (hnew : x ∉ r.members) : Roster α where
  head := r.head
  members := r.members ++ [x]
  nodup := by
    rw [List.nodup_append_comm, List.singleton_append, List.nodup_cons]
    exact ⟨hnew, r.nodup⟩
  head_mem := List.mem_append_left _ r.head_mem

theorem length_enlist {hnew : x ∉ r.members} :
    (r.enlist x hnew).members.length = r.members.length + 1 := by
  simp [enlist]

variable [DecidableEq α]

/-- Put `x` in the place of the head. -/
def rotate (x : α) : Roster α where
  head := x
  members := (r.members.filter fun a => decide (r.head ≠ a ∧ a ≠ x)) ++ [x]
  nodup := by
    rw [List.nodup_append_comm, List.singleton_append, List.nodup_cons]
    refine ⟨?_, r.nodup.filter _⟩
    simp
  head_mem := by simp

/-- The members but `x`. -/
def others (x : α) : List α := r.members.filter fun a => decide (a ≠ x)

theorem mem_others : a ∈ r.others x ↔ a ∈ r.members ∧ a ≠ x := by
  simp [others]

/-- Somebody remains of more than one. -/
theorem others_ne_nil (hmany : 1 < r.members.length) : r.others x ≠ [] := by
  intro hnone
  have hall : ∀ a ∈ r.members, a = x := by
    intro a ha
    by_contra hne
    have hmem : a ∈ r.others x := (r.mem_others).2 ⟨ha, hne⟩
    rw [hnone] at hmem
    cases hmem
  have hsame : r.members = List.replicate r.members.length x := List.eq_replicate_iff.2 ⟨rfl, hall⟩
  have hnodup := r.nodup
  rw [hsame, List.nodup_replicate] at hnodup
  omega

/-- Take `x` out; the first of the others takes the place of the head. -/
def dismiss (x : α) (hmany : 1 < r.members.length) : Roster α where
  head := if r.head = x then (r.others x).head (r.others_ne_nil hmany) else r.head
  members := r.others x
  nodup := r.nodup.filter _
  head_mem := by
    split
    · exact List.head_mem _
    · rename_i hne
      exact (r.mem_others).2 ⟨r.head_mem, hne⟩

/-! ## Who is a member -/

theorem mem_rotate : a ∈ (r.rotate x).members ↔ a = x ∨ (a ∈ r.members ∧ a ≠ r.head) := by
  simp only [rotate, List.mem_append, List.mem_filter, List.mem_singleton, decide_eq_true_eq]
  constructor
  · rintro (⟨ha, hhead, _⟩ | rfl)
    · exact .inr ⟨ha, Ne.symm hhead⟩
    · exact .inl rfl
  · rintro (rfl | ⟨ha, hhead⟩)
    · exact .inr rfl
    · by_cases hx : a = x
      · exact .inr hx
      · exact .inl ⟨ha, Ne.symm hhead, hx⟩

theorem mem_dismiss {hmany : 1 < r.members.length} :
    a ∈ (r.dismiss x hmany).members ↔ a ∈ r.members ∧ a ≠ x :=
  r.mem_others

/-! ## How many there are -/

/-- A head makes room for its successor. -/
theorem length_rotate_le : (r.rotate x).members.length ≤ r.members.length := by
  have hless : (r.members.filter fun a => decide (r.head ≠ a ∧ a ≠ x)).length
      < r.members.length := by
    refine List.length_filter_lt_length_iff_exists.2 ⟨r.head, r.head_mem, ?_⟩
    simp
  simp only [rotate, List.length_append, List.length_singleton]
  omega

theorem length_dismiss_le {hmany : 1 < r.members.length} :
    (r.dismiss x hmany).members.length ≤ r.members.length :=
  List.length_filter_le _ _

end Roster
