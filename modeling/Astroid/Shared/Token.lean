import Astroid.Shared.Host

/-!
# Token transfers that do not trap

`shared/src/token.rs` and the balance helpers it uses: what can be checked is
checked up front, and whatever the token refuses becomes an `Error`.
-/

namespace Astroid

/-- `validate_sufficient_balance`. -/
def validateSufficientBalance (balance amount : ℤ) : Result Unit := do
  require (0 ≤ balance ∧ 0 ≤ amount) .invalidAmount
  require (amount ≤ balance) .insufficientFunds

/-- `checked_balance_add`. -/
def checkedBalanceAdd (balance amount : ℤ) : Result ℤ := do
  require (0 ≤ balance ∧ 0 ≤ amount) .invalidAmount
  checkedAdd balance amount

/-- `map_token_error`, with the codes of the Stellar Asset Contract. -/
def mapTokenError : TokenFailure → Error
  | .contract code =>
      if code = 10 then .insufficientFunds
      else if code = 8 then .invalidAmount
      else if code = 12 then .overflow
      else if code ∈ [4, 5, 6, 11, 13] then .unauthorized
      else .invalidState
  | .auth => .unauthorized
  | .other => .invalidState

namespace TokenHost

variable {World : Type} (H : TokenHost World)

/-- `token_balance`: a token that cannot be queried, or reports a negative balance,
fails closed. -/
def tokenBalance (w : World) (token who : Address) : Result ℤ :=
  match H.balance w token who with
  | .ok b => if 0 ≤ b then .ok b else .error (.error .invalidState)
  | .error f => .error (.error (mapTokenError f))

/-- `safe_transfer`. -/
def safeTransfer (w : World) (token src payee : Address) (amount : ℤ) : Result World := do
  requirePositiveAmount amount
  let available ← H.tokenBalance w token src
  validateSufficientBalance available amount
  if src ≠ payee then do
    let held ← H.tokenBalance w token payee
    let _ ← checkedBalanceAdd held amount
    trySend w
  else
    trySend w
where
  /-- `try_transfer`, with the refusal of the token mapped. -/
  trySend (w : World) : Result World :=
    match H.transfer w token src payee amount with
    | .ok w' => .ok w'
    | .error f => .error (.error (mapTokenError f))

/-- A safe transfer that returned is a transfer of a positive amount. -/
theorem safeTransfer_ok {w w' : World} {token src payee : Address} {amount : ℤ}
    (h : H.safeTransfer w token src payee amount = .ok w') :
    0 < amount ∧ H.transfer w token src payee amount = .ok w' := by
  have hsend : ∀ w, safeTransfer.trySend H token src payee amount w = .ok w' →
      H.transfer w token src payee amount = .ok w' := by
    intro w h
    unfold safeTransfer.trySend at h
    cases htransfer : H.transfer w token src payee amount with
    | ok w₁ =>
        rw [htransfer] at h
        cases h
        rfl
    | error f =>
        rw [htransfer] at h
        cases h
  simp only [safeTransfer, Outcome.bind_eq_ok, requirePositiveAmount_eq_ok] at h
  obtain ⟨_, hpos, _, _, _, _, h⟩ := h
  refine ⟨hpos, ?_⟩
  split at h
  · simp only [Outcome.bind_eq_ok] at h
    obtain ⟨_, _, _, _, h⟩ := h
    exact hsend w h
  · exact hsend w h

end TokenHost

end Astroid
