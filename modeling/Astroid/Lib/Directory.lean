import Mathlib

/-!
# Directories

A directory keeps one thing twice: a flag for every possible member, which answers whether
it is one, and a list, which can be read back.  An entry is added to both at once when it is
not flagged, and taken out of both when it is (`Edit`).  So the list has the flagged members
in it, each of them once, whatever was added and removed before (`Mirrors.edit`).
-/

namespace Directory

variable {α : Type}

/-- The list has the flagged members in it, each of them once. -/
structure Mirrors (list : List α) (flag : α → Bool) : Prop where
  nodup : list.Nodup
  mem_iff : ∀ a, a ∈ list ↔ flag a = true

/-- An empty directory. -/
theorem mirrors_nil {flag : α → Bool} (h : ∀ a, flag a = false) : Mirrors [] flag := by
  refine ⟨List.nodup_nil, ?_⟩
  intro a
  simp [h a]

variable [DecidableEq α]

/-- What an operation does to a directory that takes a new member while it accepts one. -/
inductive Edit (accepts : List α → Prop) (list : List α) (flag : α → Bool) (list' : List α)
    (flag' : α → Bool) : Prop
  | kept : list' = list → flag' = flag → Edit accepts list flag list' flag'
  | added (a : α) : flag a = false → accepts list → list' = list ++ [a] →
      flag' = Function.update flag a true → Edit accepts list flag list' flag'
  | removed (a : α) : flag a = true → list' = list.erase a →
      flag' = Function.update flag a false → Edit accepts list flag list' flag'

variable {accepts : List α → Prop} {list list' : List α} {flag flag' : α → Bool} {a : α}

namespace Mirrors

theorem add (h : Mirrors list flag) (hnew : flag a = false) :
    Mirrors (list ++ [a]) (Function.update flag a true) := by
  have habsent : a ∉ list := by
    rw [h.mem_iff, hnew]
    exact Bool.false_ne_true
  constructor
  · rw [List.nodup_append_comm, List.singleton_append, List.nodup_cons]
    exact ⟨habsent, h.nodup⟩
  · intro b
    by_cases hb : b = a
    · subst hb
      simp
    · simp [hb, h.mem_iff b]

theorem remove (h : Mirrors list flag) :
    Mirrors (list.erase a) (Function.update flag a false) := by
  refine ⟨h.nodup.erase a, ?_⟩
  intro b
  rw [h.nodup.mem_erase_iff, h.mem_iff]
  by_cases hb : b = a
  · subst hb
    simp
  · simp [hb]

/-- **Every edit keeps the list in step with the flags.** -/
theorem edit (h : Mirrors list flag) (hedit : Edit accepts list flag list' flag') :
    Mirrors list' flag' := by
  cases hedit with
  | kept hlist hflag =>
      subst hlist hflag
      exact h
  | added a hnew _ hlist hflag =>
      subst hlist hflag
      exact h.add hnew
  | removed a _ hlist hflag =>
      subst hlist hflag
      exact h.remove

/-- Taking a member out makes the list one shorter. -/
theorem length_erase (h : Mirrors list flag) (hlisted : flag a = true) :
    (list.erase a).length = list.length - 1 :=
  List.length_erase_of_mem ((h.mem_iff a).2 hlisted)

end Mirrors

/-- A directory that only takes members below its capacity stays within it. -/
theorem Edit.length_le {capacity : ℕ} (hedit : Edit (·.length < capacity) list flag list' flag')
    (h : list.length ≤ capacity) : list'.length ≤ capacity := by
  cases hedit with
  | kept hlist =>
      subst hlist
      exact h
  | added a _ hroom hlist =>
      subst hlist
      rw [List.length_append, List.length_singleton]
      exact hroom
  | removed a _ hlist =>
      subst hlist
      exact List.length_erase_le.trans h

end Directory
