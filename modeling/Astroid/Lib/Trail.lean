import Astroid.Lib.History

/-!
# Slots and their trails

A slot holds one item at a time.  A step of a machine fills the slot when it is empty, clears it
when it is not, or leaves it alone, and keeps a record of the first two.  In the records of a run
fillings and clearings then alternate, and each clearing is about the item that was filled in just
before it (`Path.trail`).  A log that is cut to the newest records holds the newest records of the
run (`Path.log_cut`).
-/

/-- The records of a slot, oldest first, and what the slot holds after them. -/
inductive Trail {ρ α : Type} (fills clears : ρ → α → Prop) : List ρ → Option α → Prop
  | empty : Trail fills clears [] none
  | filled (l : List ρ) (r : ρ) (a : α) : Trail fills clears l none → fills r a →
      Trail fills clears (l ++ [r]) (some a)
  | cleared (l : List ρ) (r : ρ) (a : α) : Trail fills clears l (some a) → clears r a →
      Trail fills clears (l ++ [r]) none

namespace Trail

variable {ρ α : Type} {fills clears : ρ → α → Prop} {l : List ρ} {r : ρ} {a : α}

/-- What a slot holds its last record filled in. -/
theorem last_filled (h : Trail fills clears (l ++ [r]) (some a)) :
    Trail fills clears l none ∧ fills r a := by
  generalize hl : l ++ [r] = l' at h
  generalize ho : some a = o at h
  cases h with
  | empty => cases ho
  | filled l₀ r₀ a₀ hbefore hfills =>
      obtain ⟨rfl, hr⟩ := List.append_inj' hl rfl
      cases hr
      cases ho
      exact ⟨hbefore, hfills⟩
  | cleared => cases ho

/-- A slot is empty after some records because the last one cleared what it held. -/
theorem last_cleared (h : Trail fills clears (l ++ [r]) none) :
    ∃ a, Trail fills clears l (some a) ∧ clears r a := by
  generalize hl : l ++ [r] = l' at h
  generalize ho : (none : Option α) = o at h
  cases h with
  | empty => simp at hl
  | filled => cases ho
  | cleared l₀ r₀ a hbefore hclears =>
      obtain ⟨rfl, hr⟩ := List.append_inj' hl rfl
      cases hr
      exact ⟨a, hbefore, hclears⟩

end Trail

/-- What one step does to a slot, and what it records of it. -/
inductive Slotted {ρ α : Type} (fills clears : ρ → α → Prop) :
    Option α → Option ρ → Option α → Prop
  | kept (o : Option α) : Slotted fills clears o none o
  | filled (r : ρ) (a : α) : fills r a → Slotted fills clears none (some r) (some a)
  | cleared (r : ρ) (a : α) : clears r a → Slotted fills clears (some a) (some r) none

/-- The newest `cap` of some records, newest first. -/
def newest {ρ : Type} (cap : ℕ) (l : List ρ) : List ρ := l.reverse.take cap

/-- Some newest records, after another one was made or not. -/
def cutTo {ρ : Type} (cap : ℕ) (kept : List ρ) : Option ρ → List ρ
  | some r => (r :: kept).take cap
  | none => kept

theorem newest_concat {ρ : Type} (cap : ℕ) (l : List ρ) (r : ρ) :
    newest cap (l ++ [r]) = (r :: newest cap l).take cap := by
  unfold newest
  rw [List.reverse_concat]
  cases cap with
  | zero => rfl
  | succ cap => simp [List.take_take]

namespace Machine

variable {σ ι ρ α : Type} {M : Machine σ ι} {allow : ι → σ → Prop} {tr : List (Entry σ ι)} {s : σ}
  {t : ℕ} {records : Entry σ ι → Option ρ}

/-- **The records of a run alternate.** -/
theorem Path.trail {fills clears : ρ → α → Prop} {slot : σ → Option α}
    (hpath : M.Path allow tr s t) (hinit : ∀ s, M.init s → slot s = none)
    (hsteps : ∀ i s s', M.step i s s' →
      Slotted fills clears (slot s) (records ⟨s, i, s'⟩) (slot s')) :
    Trail fills clears (log records tr) (slot s) := by
  refine hpath.history (P := fun tr s _ => Trail fills clears (log records tr) (slot s)) ?_ ?_
  · intro s t hs
    rw [hinit s hs]
    exact .empty
  · intro tr s t i s' _ htrail _ _ hstep
    have hslotted := hsteps i s s' hstep
    generalize hrecord : records ⟨s, i, s'⟩ = o at hslotted
    generalize slot s = before at htrail hslotted
    generalize slot s' = after at hslotted
    cases hslotted with
    | kept =>
        rw [log_none hrecord]
        exact htrail
    | filled r a hfills =>
        rw [log_some hrecord]
        exact .filled _ r a htrail hfills
    | cleared r a hclears =>
        rw [log_some hrecord]
        exact .cleared _ r a htrail hclears

/-- **A log that is cut holds the newest records.** -/
theorem Path.log_cut {cap : ℕ} {kept : σ → List ρ} (hpath : M.Path allow tr s t)
    (hinit : ∀ s, M.init s → kept s = [])
    (hsteps : ∀ i s s', M.step i s s' → kept s' = cutTo cap (kept s) (records ⟨s, i, s'⟩)) :
    kept s = newest cap (log records tr) := by
  refine hpath.history (P := fun tr s _ => kept s = newest cap (log records tr)) ?_ ?_
  · intro s t hs
    rw [hinit s hs]
    simp [log, newest]
  · intro tr s t i s' _ hkept _ _ hstep
    have hwritten := hsteps i s s' hstep
    cases hrecord : records ⟨s, i, s'⟩ with
    | none =>
        rw [hrecord] at hwritten
        rw [log_none hrecord, ← hkept]
        exact hwritten
    | some r =>
        rw [hrecord] at hwritten
        rw [log_some hrecord, newest_concat, ← hkept]
        exact hwritten

/-- What one log of a run picks out of another is in the same order. -/
theorem log_sublist {f g : Entry σ ι → Option ρ} (h : ∀ e ∈ tr, ∀ r, f e = some r → g e = some r) :
    (log f tr).Sublist (log g tr) := by
  induction tr with
  | nil => exact List.Sublist.refl _
  | cons e rest ih =>
      have hrest := ih fun q hq => h q (List.mem_cons_of_mem e hq)
      unfold log at hrest ⊢
      cases hf : f e with
      | none =>
          rw [List.filterMap_cons_none hf]
          refine hrest.trans ?_
          rw [List.filterMap_cons]
          split
          · exact List.Sublist.refl _
          · exact List.sublist_cons_self _ _
      | some r =>
          rw [List.filterMap_cons_some hf,
            List.filterMap_cons_some (h e List.mem_cons_self r hf)]
          exact hrest.cons_cons r

end Machine
