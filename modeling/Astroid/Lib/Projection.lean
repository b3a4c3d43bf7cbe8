import Astroid.Lib.History

/-!
# Runs of a part of a system

Where a step of a system is, seen from one of its parts, a step of that part, a run of the
system is a run of the part (`Path.project`), and what holds in every run of the part
holds of it in every run of the system.
-/

namespace Machine

variable {σ ι σ' ι' : Type} {M : Machine σ ι} {N : Machine σ' ι'} {allow : ι → σ → Prop}
  {allow' : ι' → σ' → Prop} {tr : List (Entry σ ι)} {s : σ} {t : ℕ}

/-- How a part sees a system: its own state in a state of the system, and its own input in
an entry of a run. -/
structure View (σ ι σ' ι' : Type) where
  state : σ → σ'
  input : Entry σ ι → ι'

namespace View

variable (v : View σ ι σ' ι')

/-- The entry a part sees. -/
def entry (e : Entry σ ι) : Entry σ' ι' := ⟨v.state e.pre, v.input e, v.state e.post⟩

/-- What the part sees of a run. -/
def trace (tr : List (Entry σ ι)) : List (Entry σ' ι') := tr.map v.entry

/-- An entry of the system is an allowed step of the part, at the same time. -/
structure Sound (M : Machine σ ι) (N : Machine σ' ι') (allow' : ι' → σ' → Prop)
    (e : Entry σ ι) : Prop where
  time : N.time (v.input e) = M.time e.input
  allowed : allow' (v.input e) (v.state e.pre)
  step : N.step (v.input e) (v.state e.pre) (v.state e.post)

end View

/-- **The rule of projection.**  Where every step of the system is sound for a part, a run
of the system is a run of the part. -/
theorem Path.project (v : View σ ι σ' ι') (hinit : ∀ s, M.init s → N.init (v.state s))
    (hsound : ∀ tr s t i s', M.Path allow tr s t → allow i s → M.step i s s' →
      N.Path allow' (v.trace tr) (v.state s) t → v.Sound M N allow' ⟨s, i, s'⟩)
    (h : M.Path allow tr s t) : N.Path allow' (v.trace tr) (v.state s) t := by
  induction h with
  | start h => exact .start (hinit _ h)
  | @step tr s s' t i hp ht ha hs ih =>
      have hstep := hsound tr s t i s' hp ha hs ih
      have hlater := ih.step (hstep.time.symm ▸ ht) hstep.allowed hstep.step
      rw [hstep.time] at hlater
      have htrace : v.trace (tr ++ [⟨s, i, s'⟩])
          = v.trace tr ++ [⟨v.state s, v.input ⟨s, i, s'⟩, v.state s'⟩] := by
        simp [View.trace, View.entry]
      rw [htrace]
      exact hlater

end Machine
