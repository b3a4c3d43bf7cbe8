import Mathlib

/-!
# Computations that may fail

Inversion rules for `Except`: from a computation that returned, what each of
its steps returned.  A function written as a chain of guards and reads is taken
apart by rewriting with these rules, one conjunct for each guard, and never by
unfolding the monad.
-/

namespace Outcome

variable {ε α β : Type}

/-- A guard: carry on when `p` holds, fail with `e` otherwise. -/
def ensure (p : Prop) [Decidable p] (e : ε) : Except ε Unit :=
  if p then .ok () else .error e

/-- Read an optional value, failing with `e` when it is absent. -/
def orFail (o : Option α) (e : ε) : Except ε α :=
  match o with
  | some a => .ok a
  | none => .error e

/-- A sequence returned exactly when both halves did. -/
theorem bind_eq_ok {x : Except ε α} {f : α → Except ε β} {b : β} :
    (x >>= f) = .ok b ↔ ∃ a, x = .ok a ∧ f a = .ok b := by
  cases x with
  | error e => simp [bind, Except.bind]
  | ok a => simp [bind, Except.bind]

/-- What follows from the second half of a sequence that returned. -/
theorem of_bind_ok {x : Except ε α} {f : α → Except ε β} {b : β} {P : Prop}
    (h : (x >>= f) = .ok b) (hrest : ∀ a, f a = .ok b → P) : P := by
  obtain ⟨a, _, hf⟩ := bind_eq_ok.1 h
  exact hrest a hf

/-- Two sequences agree when they agree wherever their first half returned. -/
theorem bind_congr_ok {x : Except ε α} {f g : α → Except ε β} (h : ∀ a, x = .ok a → f a = g a) :
    (x >>= f) = (x >>= g) := by
  cases x with
  | error e => rfl
  | ok a => exact h a rfl

@[simp] theorem ok_bind (a : α) (f : α → Except ε β) : (Except.ok a >>= f) = f a := rfl

@[simp] theorem pure_eq_ok {a b : α} : (pure a : Except ε α) = .ok b ↔ a = b := by
  simp [pure, Except.pure]

theorem of_pure_ok {a b : α} {P : α → Prop} (h : (pure a : Except ε α) = .ok b) (hp : P a) :
    P b := by
  rw [pure_eq_ok] at h
  exact h ▸ hp

@[simp] theorem ensure_eq_ok {p : Prop} [Decidable p] {e : ε} {u : Unit} :
    ensure p e = .ok u ↔ p := by
  unfold ensure
  split <;> simp_all

theorem ensure_pos {p : Prop} [Decidable p] {e : ε} (h : p) : ensure p e = .ok () :=
  if_pos h

theorem ensure_neg {p : Prop} [Decidable p] {e : ε} (h : ¬ p) : ensure p e = .error e :=
  if_neg h

@[simp] theorem orFail_eq_ok {o : Option α} {e : ε} {a : α} :
    orFail o e = .ok a ↔ o = some a := by
  cases o <;> simp [orFail]

/-- What a view that only asks whether a computation returned answers. -/
theorem isOk_iff {x : Except ε α} : x.isOk = true ↔ ∃ a, x = .ok a := by
  cases x with
  | error e => simp [Except.isOk, Except.toBool]
  | ok a => simp [Except.isOk, Except.toBool]

/-- A computation that returned after its result was mapped returned before. -/
theorem map_ok {f : α → β} {x : Except ε α} {b : β} (h : f <$> x = .ok b) :
    ∃ a, x = .ok a ∧ f a = b := by
  cases x with
  | error e => cases h
  | ok a =>
      cases h
      exact ⟨a, rfl, rfl⟩

/-- A computation whose result was cut down to its second part. -/
theorem snd_map_ok {x : Except ε (α × β)} {b : β} (h : Prod.snd <$> x = .ok b) :
    ∃ a, x = .ok (a, b) := by
  obtain ⟨r, hx, rfl⟩ := map_ok h
  exact ⟨r.1, hx⟩

end Outcome
