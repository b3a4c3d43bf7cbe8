import Astroid.Lib.History

/-!
# Registers

A register is a part of the state that every step either writes or leaves alone.  It holds
what the run wrote last (`Path.register`), and the entry that wrote it is the last one that
wrote anything (`lastWrite_eq_some`).
-/

namespace Machine

variable {σ ι α : Type} {M : Machine σ ι} {allow : ι → σ → Prop} {reg : σ → α}
  {writes : Entry σ ι → Option α} {tr : List (Entry σ ι)} {s : σ} {t : ℕ} {a : α}

/-- The entry writes the register, or leaves it alone. -/
def Writes (reg : σ → α) (writes : Entry σ ι → Option α) (e : Entry σ ι) : Prop :=
  reg e.post = (writes e).getD (reg e.pre)

/-- What a run wrote last. -/
def lastWrite (writes : Entry σ ι → Option α) (tr : List (Entry σ ι)) : Option α :=
  (log writes tr).getLast?

theorem lastWrite_concat (e : Entry σ ι) :
    lastWrite writes (tr ++ [e]) = (writes e).or (lastWrite writes tr) := by
  unfold lastWrite
  cases h : writes e with
  | none => rw [log_none h, Option.none_or]
  | some a => rw [log_some h, List.getLast?_concat, Option.some_or]

/-- **A register holds what was written last.** -/
theorem Path.register (h : M.Path allow tr s t) (hinit : ∀ s, M.init s → reg s = a)
    (hwrites : ∀ tr s t i s', M.Path allow tr s t → allow i s → M.step i s s' →
      Writes reg writes ⟨s, i, s'⟩) : reg s = (lastWrite writes tr).getD a := by
  induction h with
  | start h => exact hinit _ h
  | @step tr s s' t i hp _ ha hs ih =>
      have hentry : reg s' = (writes ⟨s, i, s'⟩).getD (reg s) := hwrites tr s t i s' hp ha hs
      rw [hentry, ih, lastWrite_concat]
      cases writes ⟨s, i, s'⟩ <;> rfl

/-- What a register holds that it did not start with was written last. -/
theorem Path.written (h : M.Path allow tr s t) (hinit : ∀ s, M.init s → reg s = a)
    (hwrites : ∀ tr s t i s', M.Path allow tr s t → allow i s → M.step i s s' →
      Writes reg writes ⟨s, i, s'⟩) (hne : reg s ≠ a) : lastWrite writes tr = some (reg s) := by
  have hlast := h.register hinit hwrites
  cases hw : lastWrite writes tr with
  | none =>
      rw [hw] at hlast
      exact absurd hlast hne
  | some b =>
      rw [hw] at hlast
      rw [hlast, Option.getD_some]

/-- **Where it was written.** -/
theorem lastWrite_eq_some : lastWrite writes tr = some a ↔
    ∃ tr₁ e tr₂, tr = tr₁ ++ e :: tr₂ ∧ writes e = some a ∧ ∀ q ∈ tr₂, writes q = none := by
  constructor
  · intro h
    induction tr using List.reverseRecOn with
    | nil => cases h
    | append_singleton tr e ih =>
        rw [lastWrite_concat] at h
        cases he : writes e with
        | some b =>
            rw [he, Option.some_or] at h
            exact ⟨tr, e, [], rfl, he.trans h, by simp⟩
        | none =>
            rw [he, Option.none_or] at h
            obtain ⟨tr₁, q, tr₂, rfl, hq, hafter⟩ := ih h
            refine ⟨tr₁, q, tr₂ ++ [e], by simp, hq, ?_⟩
            intro x hx
            rcases List.mem_append.1 hx with hx | hx
            · exact hafter x hx
            · rw [List.mem_singleton] at hx
              exact hx ▸ he
  · rintro ⟨tr₁, e, tr₂, rfl, he, hafter⟩
    have hnone : log writes tr₂ = [] := List.filterMap_eq_nil_iff.2 hafter
    have hlog : log writes (tr₁ ++ e :: tr₂) = log writes tr₁ ++ [a] := by
      rw [log, List.filterMap_append, List.filterMap_cons, he]
      exact congrArg (fun l => log writes tr₁ ++ a :: l) hnone
    rw [lastWrite, hlog, List.getLast?_concat]

end Machine
