import Astroid.Shared.Host

/-!
# Transfers a contract makes

A list of token transfers carried out one after the other (`TokenHost.carry`), so that what
an invocation did to the world can be said by listing the transfers it made.
-/

namespace Astroid

/-- One call of a token's `transfer`. -/
structure Transfer where
  asset : Address
  source : Address
  destination : Address
  amount : ℤ
  deriving DecidableEq

namespace Transfer

/-- The same amount the other way. -/
def back (x : Transfer) : Transfer := { x with source := x.destination, destination := x.source }

/-- What `holder` gains of `asset`. -/
def gain (x : Transfer) (asset holder : Address) : ℤ :=
  (if asset = x.asset ∧ holder = x.destination then x.amount else 0)
    - (if asset = x.asset ∧ holder = x.source then x.amount else 0)

end Transfer

namespace TokenHost

variable {World : Type} (H : TokenHost World) {w w' w'' : World} {l l' : List Transfer}

/-- Make the transfers of a list, one after the other. -/
def carry (w : World) : List Transfer → Except TokenFailure World
  | [] => .ok w
  | x :: rest => do
      let w ← H.transfer w x.asset x.source x.destination x.amount
      carry w rest

variable {H}

theorem carry_append (h : H.carry w l = .ok w') (h' : H.carry w' l' = .ok w'') :
    H.carry w (l ++ l') = .ok w'' := by
  induction l generalizing w with
  | nil =>
      cases h
      exact h'
  | cons x rest ih =>
      simp only [carry, List.cons_append, Outcome.bind_eq_ok] at h ⊢
      obtain ⟨w₁, htransfer, hrest⟩ := h
      exact ⟨w₁, htransfer, ih hrest⟩

theorem carry_single {x : Transfer}
    (h : H.transfer w x.asset x.source x.destination x.amount = .ok w') :
    H.carry w [x] = .ok w' := by
  simp only [carry, Outcome.bind_eq_ok]
  exact ⟨w', h, rfl⟩

/-- **What a list of transfers moved.** -/
theorem Exact.held_carry (hx : H.Exact) (h : H.carry w l = .ok w') (asset holder : Address) :
    H.held w' asset holder = H.held w asset holder + (l.map (·.gain asset holder)).sum := by
  induction l generalizing w with
  | nil =>
      cases h
      simp
  | cons x rest ih =>
      simp only [carry, Outcome.bind_eq_ok] at h
      obtain ⟨w₁, htransfer, hrest⟩ := h
      rw [ih hrest, hx _ _ _ _ _ _ htransfer, List.map_cons, List.sum_cons, Transfer.gain]
      ring

end TokenHost

end Astroid
