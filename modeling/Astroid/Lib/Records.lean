import Astroid.Lib.History

/-!
# Records and what a run did to them

A store keeps a record under a key and is written one key at a time.  A flag of the records
is faithful to a run when it is set exactly where the run did what it stands for
(`Faithful`); a write keeps it faithful when the entry that made it did so where it set the
flag.  Keys that a 64-bit counter gives out are new until it wraps (`Numbered`).  A table
with a record under every pair of keys is written one pair at a time (`writeAt`).
-/

namespace Keyed

variable {α β γ : Type} [DecidableEq α] [DecidableEq β]

/-- Write one entry of a table. -/
def writeAt (table : α → β → γ) (a : α) (b : β) (c : γ) : α → β → γ :=
  fun a' b' => if a' = a ∧ b' = b then c else table a' b'

variable {table : α → β → γ} {a a' : α} {b b' : β} {c : γ}

@[simp] theorem writeAt_self : writeAt table a b c a b = c := if_pos ⟨rfl, rfl⟩

theorem writeAt_ne (h : ¬ (a' = a ∧ b' = b)) : writeAt table a b c a' b' = table a' b' := if_neg h

end Keyed

namespace Machine

variable {σ ι κ ρ : Type} [DecidableEq κ] {tr : List (Entry σ ι)} {e : Entry σ ι}
  {store store' : κ → Option ρ} {flag : ρ → Bool} {does : Entry σ ι → Option κ} {k k' : κ}
  {p p' : ρ}

/-- What is on record after a write is what was written or was there before. -/
theorem of_update (hstore : store' = Function.update store k (some p))
    (h : store' k' = some p') : k' = k ∧ p' = p ∨ store k' = some p' := by
  rw [hstore] at h
  by_cases hk : k' = k
  · subst hk
    rw [Function.update_self, Option.some.injEq] at h
    exact .inl ⟨rfl, h.symm⟩
  · rw [Function.update_of_ne hk] at h
    exact .inr h

/-- The flag is set on record exactly where the run did what it stands for. -/
def Faithful (store : κ → Option ρ) (flag : ρ → Bool) (does : Entry σ ι → Option κ)
    (tr : List (Entry σ ι)) : Prop :=
  ∀ k, (∃ p, store k = some p ∧ flag p = true) ↔ k ∈ log does tr

namespace Faithful

omit [DecidableEq κ] in
theorem nil (h : ∀ k, store k = none) : Faithful store flag does [] := by
  intro k
  simp [log, h k]

omit [DecidableEq κ] in
/-- An entry that did nothing of the kind. -/
theorem quiet (h : Faithful store flag does tr) (hdoes : does e = none) :
    Faithful store flag does (tr ++ [e]) := by
  intro k
  rw [log_none hdoes]
  exact h k

omit [DecidableEq κ] in
/-- Where the flag is not set, the run did nothing. -/
theorem not_mem (h : Faithful store flag does tr)
    (hunflagged : ∀ p, store k = some p → flag p = false) : k ∉ log does tr := by
  rw [← h k]
  rintro ⟨p, hp, hflag⟩
  rw [hunflagged p hp] at hflag
  cases hflag

omit [DecidableEq κ] in
/-- The same where one record is known. -/
theorem not_mem_of_eq (h : Faithful store flag does tr) (hp : store k = some p)
    (hflag : flag p = false) : k ∉ log does tr := by
  refine h.not_mem ?_
  intro q hq
  rw [hp, Option.some.injEq] at hq
  exact hq ▸ hflag

/-- **A write keeps a flag faithful** that its entry stands by. -/
theorem update (h : Faithful store flag does tr) (hnew : k ∉ log does tr)
    (hstore : store' = Function.update store k (some p))
    (hdoes : does e = if flag p = true then some k else none) :
    Faithful store' flag does (tr ++ [e]) := by
  intro k'
  rw [hstore]
  by_cases hflag : flag p = true
  · rw [if_pos hflag] at hdoes
    rw [log_some hdoes, List.mem_append, List.mem_singleton, ← h k']
    by_cases hk : k' = k
    · subst hk
      simp [hflag]
    · simp [hk]
  · rw [if_neg hflag] at hdoes
    rw [log_none hdoes]
    by_cases hk : k' = k
    · subst hk
      simp [hflag, hnew]
    · rw [← h k', Function.update_of_ne hk]

/-- A write that leaves the flag of a record as it was. -/
theorem rewrite (h : Faithful store flag does tr) (hp : store k = some p')
    (hstore : store' = Function.update store k (some p)) (hflag : flag p = flag p')
    (hdoes : does e = none) : Faithful store' flag does (tr ++ [e]) := by
  intro k'
  rw [hstore, log_none hdoes, ← h k']
  by_cases hk : k' = k
  · subst hk
    simp [hp, hflag]
  · rw [Function.update_of_ne hk]

end Faithful

/-! ## Numbers from a counter -/

/-- The keys in use were given out by a 64-bit counter that stands at `last`. -/
structure Numbered (last : ℕ) (store : ℕ → Option ρ) : Prop where
  counter : last < 2 ^ 64
  issued : ∀ k p, store k = some p → k ≤ last

namespace Numbered

variable {last k : ℕ} {store store' : ℕ → Option ρ} {p p' : ρ}

theorem empty (h : ∀ k, store k = none) : Numbered 0 store := by
  refine ⟨by decide, ?_⟩
  intro k p hp
  rw [h k] at hp
  cases hp

/-- **The next number is new** unless the counter wraps. -/
theorem fresh (h : Numbered last store) (hlast : last ≠ 2 ^ 64 - 1)
    (hk : k = (last + 1) % 2 ^ 64) : store k = none := by
  have hcounter := h.counter
  by_contra hne
  obtain ⟨p, hp⟩ := Option.ne_none_iff_exists'.1 hne
  have hle := h.issued k p hp
  omega

/-- The next number is given out. -/
theorem issue (h : Numbered last store) (hlast : last ≠ 2 ^ 64 - 1)
    (hk : k = (last + 1) % 2 ^ 64) (hstore : store' = Function.update store k (some p)) :
    Numbered k store' := by
  have hcounter := h.counter
  refine ⟨by omega, ?_⟩
  intro k' p' hp'
  rcases of_update hstore hp' with ⟨rfl, _⟩ | hp'
  · exact le_rfl
  · have hle := h.issued k' p' hp'
    omega

/-- A record is written over. -/
theorem write (h : Numbered last store) (hp : store k = some p')
    (hstore : store' = Function.update store k (some p)) : Numbered last store' := by
  refine ⟨h.counter, ?_⟩
  intro k' q hq
  rcases of_update hstore hq with ⟨rfl, _⟩ | hq
  · exact h.issued k' p' hp
  · exact h.issued k' q hq

end Numbered

end Machine
