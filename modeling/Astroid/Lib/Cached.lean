import Mathlib.Logic.Basic

/-!
# Computations that pass a cache on

A cache is valid while it holds what it was filled from.  A computation that only reads through
a valid cache answers as if there were none (`Gives`), whatever was cached before; such
computations compose (`Gives.bind`).
-/

namespace Cached

variable {χ ε α β : Type} {valid : χ → Prop}

/-- A computation that reads and passes on a cache. -/
abbrev Reader (χ ε α : Type) := χ → Except ε (α × χ)

/-- Whatever valid cache it is given, the computation answers `r`, and leaves a valid cache. -/
def Gives (valid : χ → Prop) (f : Reader χ ε α) : Except ε α → Prop
  | .ok a => ∀ c, valid c → ∃ c', f c = .ok (a, c') ∧ valid c'
  | .error e => ∀ c, valid c → f c = .error e

/-- An answer that needs no cache. -/
theorem Gives.pure (a : α) : Gives valid (fun c => (.ok (a, c) : Except ε (α × χ))) (.ok a) :=
  fun c hc => ⟨c, rfl, hc⟩

/-- A failure that needs no cache. -/
theorem Gives.fail (e : ε) : Gives valid (fun _ => (.error e : Except ε (α × χ))) (.error e) :=
  fun _ _ => rfl

/-- **One after the other**, the second on the cache of the first. -/
theorem Gives.bind {f : Reader χ ε α} {g : α × χ → Except ε (β × χ)} {r : Except ε α}
    {k : α → Except ε β} (hf : Gives valid f r)
    (hg : ∀ a, Gives valid (fun c => g (a, c)) (k a)) :
    Gives valid (fun c => f c >>= g) (r >>= k) := by
  cases r with
  | error e =>
      intro c hc
      have hfails : f c = .error e := hf c hc
      dsimp only
      rw [hfails]
      rfl
  | ok a =>
      have hnext := hg a
      have hstep (c : χ) (hc : valid c) : ∃ c', valid c' ∧ (f c >>= g) = g (a, c') := by
        obtain ⟨c', hok, hc'⟩ := hf c hc
        refine ⟨c', hc', ?_⟩
        rw [hok]
        rfl
      show Gives valid _ (k a)
      cases hk : k a with
      | error e =>
          rw [hk] at hnext
          intro c hc
          obtain ⟨c', hc', heq⟩ := hstep c hc
          exact heq.trans (hnext c' hc')
      | ok b =>
          rw [hk] at hnext
          intro c hc
          obtain ⟨c', hc', heq⟩ := hstep c hc
          obtain ⟨c'', hok, hc''⟩ := hnext c' hc'
          exact ⟨c'', heq.trans hok, hc''⟩

/-- The answer, without the cache. -/
theorem Gives.answer {f : Reader χ ε α} {r : Except ε α} (h : Gives valid f r) {c : χ}
    (hc : valid c) : Prod.fst <$> f c = r := by
  cases r with
  | error e =>
      rw [h c hc]
      rfl
  | ok a =>
      obtain ⟨c', hok, _⟩ := h c hc
      rw [hok]
      rfl

end Cached
