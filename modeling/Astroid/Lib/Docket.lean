import Astroid.Lib.History

/-!
# Dockets

A docket is a table of numbered tickets.  A step of a machine files nothing, opens a ticket
under the next number, or closes one that is still open, in one of several ways.  Whatever
the order of the steps, no number is given twice, no ticket is closed twice, the terms of a
ticket stay as they were when it was opened, and a ticket says how the run closed it
(`Path.docketed`).
-/

/-- A ticket: its terms, and how it was closed, if it was. -/
structure Ticket (τ κ : Type) where
  terms : τ
  closing : Option κ

/-- What one step files in a docket: `count` numbers were given, and `table` holds the
tickets. -/
inductive Filing {τ κ : Type} (count : ℕ) (table : ℕ → Option (Ticket τ κ)) :
    ℕ → (ℕ → Option (Ticket τ κ)) → Option (ℕ × τ) → Option (ℕ × κ) → Prop
  | kept : Filing count table count table none none
  | opened (x : τ) :
      Filing count table (count + 1) (Function.update table (count + 1) (some ⟨x, none⟩))
        (some (count + 1, x)) none
  | closed (id : ℕ) (x : τ) (k : κ) : table id = some ⟨x, none⟩ →
      Filing count table count (Function.update table id (some ⟨x, some k⟩)) none (some (id, k))

namespace Machine

variable {σ ι τ κ : Type} {M : Machine σ ι} {allow : ι → σ → Prop} {tr : List (Entry σ ι)} {s : σ}
  {t : ℕ} {opens : Entry σ ι → Option (ℕ × τ)} {closes : Entry σ ι → Option (ℕ × κ)}

/-- A docket and the run that filled it. -/
structure Docketed (opens : Entry σ ι → Option (ℕ × τ)) (closes : Entry σ ι → Option (ℕ × κ))
    (tr : List (Entry σ ι)) (count : ℕ) (table : ℕ → Option (Ticket τ κ)) : Prop where
  numbered : ∀ id x, (id, x) ∈ log opens tr → id ≤ count
  once : ((log opens tr).map Prod.fst).Nodup
  opened : ∀ id x, (id, x) ∈ log opens tr → ∃ closing, table id = some ⟨x, closing⟩
  closed : ∀ id k, (id, k) ∈ log closes tr ↔ ∃ x, table id = some ⟨x, some k⟩
  closed_once : ((log closes tr).map Prod.fst).Nodup
  listed : ∀ id ticket, table id = some ticket → (id, ticket.terms) ∈ log opens tr

namespace Docketed

variable {count count' : ℕ} {table table' : ℕ → Option (Ticket τ κ)} {e : Entry σ ι}

/-- A number that was not given yet has no ticket. -/
theorem unlisted (h : Docketed opens closes tr count table) : table (count + 1) = none := by
  cases hticket : table (count + 1) with
  | none => rfl
  | some ticket =>
      have hle := h.numbered _ _ (h.listed _ _ hticket)
      omega

theorem kept (h : Docketed opens closes tr count table) (hopens : opens e = none)
    (hcloses : closes e = none) : Docketed opens closes (tr ++ [e]) count table := by
  constructor
  all_goals simp only [log_none hopens, log_none hcloses]
  · exact h.numbered
  · exact h.once
  · exact h.opened
  · exact h.closed
  · exact h.closed_once
  · exact h.listed

theorem opens_next (h : Docketed opens closes tr count table) {x : τ}
    (hopens : opens e = some (count + 1, x)) (hcloses : closes e = none) :
    Docketed opens closes (tr ++ [e]) (count + 1)
      (Function.update table (count + 1) (some ⟨x, none⟩)) := by
  have hother : ∀ id y, (id, y) ∈ log opens tr → id ≠ count + 1 := by
    intro id y hmem
    have hle := h.numbered id y hmem
    omega
  constructor
  all_goals simp only [log_some hopens, log_none hcloses, List.mem_append, List.mem_singleton]
  · rintro id y (hmem | hnew)
    · exact (h.numbered id y hmem).trans (Nat.le_succ _)
    · cases hnew
      exact le_rfl
  · rw [List.map_append, List.nodup_append_comm]
    refine List.nodup_cons.2 ⟨?_, h.once⟩
    intro hmem
    obtain ⟨⟨id, y⟩, hlogged, hid⟩ := List.mem_map.1 hmem
    exact hother id y hlogged hid
  · rintro id y (hmem | hnew)
    · rw [Function.update_of_ne (hother id y hmem)]
      exact h.opened id y hmem
    · cases hnew
      exact ⟨none, Function.update_self _ _ _⟩
  · intro id k
    rw [h.closed]
    by_cases hid : id = count + 1
    · subst hid
      rw [h.unlisted, Function.update_self]
      simp
    · rw [Function.update_of_ne hid]
  · exact h.closed_once
  · intro id ticket hticket
    by_cases hid : id = count + 1
    · subst hid
      rw [Function.update_self, Option.some.injEq] at hticket
      subst hticket
      exact .inr rfl
    · rw [Function.update_of_ne hid] at hticket
      exact .inl (h.listed id ticket hticket)

theorem closes_open (h : Docketed opens closes tr count table) {id : ℕ} {x : τ} {k : κ}
    (hopen : table id = some ⟨x, none⟩) (hopens : opens e = none)
    (hcloses : closes e = some (id, k)) :
    Docketed opens closes (tr ++ [e]) count (Function.update table id (some ⟨x, some k⟩)) := by
  have hnew : ∀ j l, (j, l) ∈ log closes tr → j ≠ id := by
    rintro j l hmem rfl
    obtain ⟨y, hclosed⟩ := (h.closed j l).1 hmem
    rw [hopen] at hclosed
    cases hclosed
  constructor
  all_goals simp only [log_none hopens, log_some hcloses, List.mem_append, List.mem_singleton]
  · exact h.numbered
  · exact h.once
  · intro j y hmem
    by_cases hj : j = id
    · subst hj
      obtain ⟨closing, hticket⟩ := h.opened j y hmem
      rw [hopen, Option.some.injEq, Ticket.mk.injEq] at hticket
      obtain ⟨rfl, _⟩ := hticket
      exact ⟨some k, Function.update_self _ _ _⟩
    · rw [Function.update_of_ne hj]
      exact h.opened j y hmem
  · intro j l
    by_cases hj : j = id
    · subst hj
      rw [Function.update_self]
      constructor
      · rintro (hmem | hlast)
        · exact absurd rfl (hnew j l hmem)
        · cases hlast
          exact ⟨x, rfl⟩
      · rintro ⟨y, hticket⟩
        cases hticket
        exact .inr rfl
    · rw [Function.update_of_ne hj, ← h.closed]
      constructor
      · rintro (hmem | hlast)
        · exact hmem
        · cases hlast
          exact absurd rfl hj
      · exact .inl
  · rw [List.map_append, List.nodup_append_comm]
    refine List.nodup_cons.2 ⟨?_, h.closed_once⟩
    intro hmem
    obtain ⟨⟨j, l⟩, hlogged, hj⟩ := List.mem_map.1 hmem
    exact hnew j l hlogged hj
  · intro j ticket hticket
    by_cases hj : j = id
    · subst hj
      rw [Function.update_self, Option.some.injEq] at hticket
      subst hticket
      have hlisted : (j, x) ∈ log opens tr := h.listed j _ hopen
      exact hlisted
    · rw [Function.update_of_ne hj] at hticket
      exact h.listed j ticket hticket

/-- A step that files what it says keeps the docket tied to the run. -/
theorem filed (h : Docketed opens closes tr count table)
    (hfiling : Filing count table count' table' (opens e) (closes e)) :
    Docketed opens closes (tr ++ [e]) count' table' := by
  generalize hopens : opens e = o at hfiling
  generalize hcloses : closes e = c at hfiling
  cases hfiling with
  | kept => exact h.kept hopens hcloses
  | opened x => exact h.opens_next hopens hcloses
  | closed id x k hopen => exact h.closes_open hopen hopens hcloses

end Docketed

/-- **Dockets are tied to their runs.** -/
theorem Path.docketed {count : σ → ℕ} {table : σ → ℕ → Option (Ticket τ κ)}
    (hpath : M.Path allow tr s t) (hinit : ∀ s, M.init s → ∀ id, table s id = none)
    (hfiles : ∀ i s s', M.step i s s' → Filing (count s) (table s) (count s') (table s')
      (opens ⟨s, i, s'⟩) (closes ⟨s, i, s'⟩)) :
    Docketed opens closes tr (count s) (table s) := by
  refine hpath.history (P := fun tr s _ => Docketed opens closes tr (count s) (table s)) ?_ ?_
  · intro s t hs
    constructor
    all_goals simp [log, hinit s hs]
  · intro tr s t i s' _ hdocketed _ _ hstep
    exact hdocketed.filed (hfiles i s s' hstep)

/-- **A ticket that an entry closes is one that an earlier entry opened**, and open until then. -/
theorem Path.opened_before {count : σ → ℕ} {table : σ → ℕ → Option (Ticket τ κ)}
    {e : Entry σ ι} {id : ℕ} {k : κ} (hpath : M.Path allow tr s t) (he : e ∈ tr)
    (hinit : ∀ s, M.init s → ∀ id, table s id = none)
    (hfiles : ∀ i s s', M.step i s s' → Filing (count s) (table s) (count s') (table s')
      (opens ⟨s, i, s'⟩) (closes ⟨s, i, s'⟩)) (hcloses : closes e = some (id, k)) :
    ∃ tr₁ x, tr₁ ++ [e] <+: tr ∧ (id, x) ∈ log opens tr₁ ∧ table e.pre id = some ⟨x, none⟩ := by
  obtain ⟨tr₁, t₁, hpart, hbefore, _, _, hstep, _⟩ := hpath.entry he
  have hdocketed := hbefore.docketed hinit hfiles
  have hfiling := hfiles e.input e.pre e.post hstep
  rw [hcloses] at hfiling
  generalize opens ⟨e.pre, e.input, e.post⟩ = o at hfiling
  generalize count e.post = count' at hfiling
  generalize table e.post = table' at hfiling
  cases hfiling with
  | closed _ x _ hopen => exact ⟨tr₁, x, hpart, hdocketed.listed id _ hopen, hopen⟩

end Machine
