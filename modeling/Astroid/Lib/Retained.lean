import Astroid.Lib.Outcome

/-!
# Computations whose writes survive a failure

An `Act σ ε α` runs on a state, returns a value or fails, and leaves a state
either way: what it wrote before it failed is still there.  A caller that rolls
back takes `commit`.  The rules say when a computation returned and what state
it then left; a failure only matters to `onError`.  Where the state a failure
leaves matters as well, a computation is specified by a triple with one
postcondition for each of its two ends.
-/

/-- A computation on a state `σ` that returns an `α` or fails with an `ε`, and leaves a
state in both cases. -/
def Act (σ ε α : Type) := σ → Except ε α × σ

namespace Act

variable {σ ε α β : Type}

instance : Monad (Act σ ε) where
  pure a := fun s => (.ok a, s)
  bind x f := fun s =>
    match x s with
    | (.ok a, s') => f a s'
    | (.error e, s') => (.error e, s')

/-- Compute from the state and leave it alone. -/
def read (f : σ → Except ε α) : Act σ ε α := fun s => (f s, s)

/-- Step to another state and return a value, or fail having written nothing. -/
def returning (f : σ → Except ε (α × σ)) : Act σ ε α := fun s =>
  match f s with
  | .ok (a, s') => (.ok a, s')
  | .error e => (.error e, s)

/-- Step to another state, or fail having written nothing. -/
def step (f : σ → Except ε σ) : Act σ ε Unit := fun s =>
  match f s with
  | .ok s' => (.ok (), s')
  | .error e => (.error e, s)

/-- Fail as `x` does, but amend what it left first. -/
def onError (x : Act σ ε α) (amend : ε → σ → σ) : Act σ ε α := fun s =>
  match x s with
  | (.ok a, s') => (.ok a, s')
  | (.error e, s') => (.error e, amend e s')

/-- Run and roll back on failure. -/
def commit (x : Act σ ε α) (s : σ) : Except ε (α × σ) :=
  match x s with
  | (.ok a, s') => .ok (a, s')
  | (.error e, _) => .error e

variable {s s' : σ} {a a' : α} {b : β}

theorem bind_ok {x : Act σ ε α} {f : α → Act σ ε β} :
    (x >>= f) s = (.ok b, s') ↔ ∃ a s₁, x s = (.ok a, s₁) ∧ f a s₁ = (.ok b, s') := by
  show (match x s with
    | (.ok a, s₁) => f a s₁
    | (.error e, s₁) => (.error e, s₁)) = _ ↔ _
  rcases x s with ⟨e | a, s₁⟩ <;> simp

@[simp] theorem pure_ok : (pure a : Act σ ε α) s = (.ok a', s') ↔ a = a' ∧ s = s' := by
  show ((.ok a, s) : Except ε α × σ) = _ ↔ _
  simp

@[simp] theorem read_ok {f : σ → Except ε α} : read f s = (.ok a, s') ↔ f s = .ok a ∧ s = s' := by
  simp [read]

@[simp] theorem returning_ok {f : σ → Except ε (α × σ)} :
    returning f s = (.ok a, s') ↔ f s = .ok (a, s') := by
  unfold returning
  cases f s <;> simp [Prod.ext_iff]

@[simp] theorem step_ok {f : σ → Except ε σ} {u : Unit} :
    step f s = (.ok u, s') ↔ f s = .ok s' := by
  unfold step
  cases f s <;> simp

@[simp] theorem onError_ok {x : Act σ ε α} {amend : ε → σ → σ} :
    x.onError amend s = (.ok a, s') ↔ x s = (.ok a, s') := by
  unfold onError
  rcases x s with ⟨e | b, s₁⟩ <;> simp

@[simp] theorem commit_eq_ok {x : Act σ ε α} {r : α × σ} :
    x.commit s = .ok r ↔ x s = (.ok r.1, r.2) := by
  unfold commit
  rcases x s with ⟨e | b, s₁⟩
  · simp
  · simp [Prod.ext_iff]

/-! ## Triples -/

/-- From a state where `P` holds, `x` returns a value and a state as `Q` says, or fails with an
error and leaves a state as `E` says. -/
structure Triple (P : σ → Prop) (x : Act σ ε α) (Q : α → σ → Prop) (E : ε → σ → Prop) : Prop where
  returned : ∀ {s}, P s → ∀ {a s'}, x s = (.ok a, s') → Q a s'
  failed : ∀ {s}, P s → ∀ {e s'}, x s = (.error e, s') → E e s'

namespace Triple

variable {P : σ → Prop} {Q : α → σ → Prop} {E : ε → σ → Prop} {R : β → σ → Prop}

theorem bind {x : Act σ ε α} {f : α → Act σ ε β} (hx : Triple P x Q E)
    (hf : ∀ a, Triple (Q a) (f a) R E) : Triple P (x >>= f) R E := by
  constructor
  · intro s hs b s' h
    obtain ⟨a, s₁, hfirst, hrest⟩ := bind_ok.1 h
    exact (hf a).returned (hx.returned hs hfirst) hrest
  · intro s hs e s' h
    have hrun : (match x s with
      | (.ok a, s₁) => f a s₁
      | (.error e, s₁) => (.error e, s₁)) = (.error e, s') := h
    cases hfirst : x s with
    | mk result s₁ =>
        rw [hfirst] at hrun
        cases result with
        | ok a => exact (hf a).failed (hx.returned hs hfirst) hrun
        | error e₁ =>
            cases hrun
            exact hx.failed hs hfirst

theorem pure {a : α} (h : ∀ s, P s → Q a s) : Triple P (Pure.pure a : Act σ ε α) Q E := by
  constructor
  · intro s hs a' s' hrun
    obtain ⟨rfl, rfl⟩ := pure_ok.1 hrun
    exact h s hs
  · intro s _ e s' hrun
    cases hrun

/-- Reading leaves the state, whether it fails or not. -/
theorem read {f : σ → Except ε α} (hQ : ∀ s a, P s → f s = .ok a → Q a s)
    (hE : ∀ s e, P s → f s = .error e → E e s) : Triple P (Act.read f) Q E := by
  constructor
  · intro s hs a s' hrun
    obtain ⟨hf, rfl⟩ := read_ok.1 hrun
    exact hQ s a hs hf
  · intro s hs e s' hrun
    rw [Act.read, Prod.mk.injEq] at hrun
    obtain ⟨hf, rfl⟩ := hrun
    exact hE s e hs hf

/-- A step that fails has written nothing. -/
theorem step {f : σ → Except ε σ} {Q : Unit → σ → Prop} (hQ : ∀ s s', P s → f s = .ok s' → Q () s')
    (hE : ∀ s e, P s → f s = .error e → E e s) : Triple P (Act.step f) Q E := by
  constructor
  · intro s hs u s' hrun
    exact hQ s s' hs (step_ok.1 hrun)
  · intro s hs e s' hrun
    unfold Act.step at hrun
    cases hf : f s with
    | ok s₁ =>
        rw [hf] at hrun
        cases hrun
    | error e₁ =>
        rw [hf] at hrun
        cases hrun
        exact hE s e hs hf

/-- What is amended on failure. -/
theorem onError {x : Act σ ε α} {amend : ε → σ → σ} {E₀ : ε → σ → Prop} (h : Triple P x Q E₀)
    (hE : ∀ e s, E₀ e s → E e (amend e s)) : Triple P (x.onError amend) Q E := by
  constructor
  · intro s hs a s' hrun
    exact h.returned hs (onError_ok.1 hrun)
  · intro s hs e s' hrun
    unfold Act.onError at hrun
    cases hx : x s with
    | mk result s₁ =>
        rw [hx] at hrun
        cases result with
        | ok a => cases hrun
        | error e₁ =>
            cases hrun
            exact hE e s₁ (h.failed hs hx)

end Triple

end Act
