import Astroid.Lib.History

/-!
# Playing a list of inputs

Where the steps of a machine can be computed, a list of inputs that are all steps is a run
(`Player.path_plays`): this is how a run on fixed inputs is computed.
-/

namespace Machine

variable {σ ι : Type}

/-- How to compute a step of a machine; there is none where the input is refused. -/
structure Player (M : Machine σ ι) where
  run : σ → ι → Option σ
  step_run : ∀ s i s', run s i = some s' → M.step i s s'

namespace Player

variable {M : Machine σ ι} (p : M.Player)

/-- The state an input leaves, which is the old one when it is refused. -/
def after (s : σ) (i : ι) : σ := (p.run s i).getD s

/-- The state a list of inputs leaves. -/
def play (s : σ) (inputs : List ι) : σ := inputs.foldl p.after s

/-- The inputs of a list are all steps, at times that do not go back. -/
def plays (s : σ) (t : ℕ) : List ι → Bool
  | [] => true
  | i :: rest => decide (t ≤ M.time i) && (p.run s i).isSome && plays (p.after s i) (M.time i) rest

/-- The entries a list of inputs adds to a run. -/
def trace (s : σ) : List ι → List (Entry σ ι)
  | [] => []
  | i :: rest => ⟨s, i, p.after s i⟩ :: trace (p.after s i) rest

variable {p} {allow : ι → σ → Prop} {tr : List (Entry σ ι)} {s : σ} {t : ℕ} {inputs : List ι}

/-- A list with an input in its middle. -/
theorem trace_middle (s : σ) (inputs rest : List ι) (i : ι) :
    p.trace s (inputs ++ i :: rest) = p.trace s inputs ++
      ⟨p.play s inputs, i, p.after (p.play s inputs) i⟩ ::
        p.trace (p.after (p.play s inputs) i) rest := by
  induction inputs generalizing s with
  | nil => rfl
  | cons j inputs ih =>
      rw [List.cons_append, trace, trace, ih]
      rfl

theorem play_middle (s : σ) (inputs rest : List ι) (i : ι) :
    p.play s (inputs ++ i :: rest) = p.play (p.after (p.play s inputs) i) rest := by
  rw [play, List.foldl_append, List.foldl_cons]
  rfl

theorem input_mem {e : Entry σ ι} (h : e ∈ p.trace s inputs) : e.input ∈ inputs := by
  induction inputs generalizing s with
  | nil => cases h
  | cons i rest ih =>
      rw [trace, List.mem_cons] at h
      rcases h with rfl | h
      · exact List.mem_cons_self ..
      · exact List.mem_cons_of_mem _ (ih h)

/-- **A list of inputs that plays and is allowed throughout is a run.** -/
theorem path_plays (h : M.Path allow tr s t) (hplays : p.plays s t inputs = true)
    (hallow : ∀ s, ∀ i ∈ inputs, allow i s) :
    ∃ t', M.Path allow (tr ++ p.trace s inputs) (p.play s inputs) t' := by
  induction inputs generalizing tr s t with
  | nil =>
      rw [trace, List.append_nil]
      exact ⟨t, h⟩
  | cons i rest ih =>
      simp only [plays, Bool.and_eq_true, decide_eq_true_eq] at hplays
      obtain ⟨⟨htime, hsome⟩, hrest⟩ := hplays
      have hrun : p.run s i = some (p.after s i) := by
        obtain ⟨s', hs'⟩ := Option.isSome_iff_exists.1 hsome
        rw [after, hs', Option.getD_some]
      have hpath := h.step htime (hallow s i (List.mem_cons_self ..)) (p.step_run _ _ _ hrun)
      have hlater := ih hpath hrest fun s j hj => hallow s j (List.mem_cons_of_mem _ hj)
      rw [List.append_assoc] at hlater
      exact hlater

end Player
end Machine
