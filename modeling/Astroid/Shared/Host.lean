import Astroid.Shared.Math

/-!
# The host the contracts run on

What an invocation sees of the ledger (`Env`), and what it can do to token
contracts (`TokenHost`).  The token contracts themselves are not part of the
repository, so a host is a parameter of every contract: `World` is everything
outside the contract's own storage, and a call into a token returns the next
world or a refusal.

Two assumptions about tokens are named here and made by no definition:
`TokenHost.Exact`, a transfer that returns moved exactly the stated amount, and
`TokenHost.Covers`, a transfer out of covered custody returns.  `ledgerHost` is
a host that satisfies both.
-/

namespace Astroid

/-! ## The invocation -/

/-- A host value. -/
inductive Val where
  | void
  | bool (b : Bool)
  | u32 (n : ℕ)
  | u64 (n : UInt64)
  | i128 (x : ℤ)
  | address (a : Address)
  | symbol (s : String)
  | string (s : String)
  | bytes (b : List UInt8)
  | vec (values : List Val)
  | map (entries : List (String × Val))

/-- What an invocation of the contract at address `current` sees: the ledger
clock, who authorized it, and who authorized which other arguments.  The host
refuses re-entrant calls, so a contract never authorizes an invocation of itself. -/
structure Env (current : Address) where
  timestamp : UInt64
  sequence : UInt32
  auths : List Address
  argAuths : Address → List Val → Bool
  current_notMem : current ∉ auths

/-- `a.require_auth()`: traps unless `a` authorized the invocation. -/
def requireAuth {current : Address} (env : Env current) (a : Address) : Result Unit :=
  Outcome.ensure (a ∈ env.auths) .trap

@[simp] theorem requireAuth_eq_ok {current : Address} {env : Env current} {a : Address} {u : Unit} :
    requireAuth env a = .ok u ↔ a ∈ env.auths :=
  Outcome.ensure_eq_ok

/-- `a.require_auth_for_args(args)`. -/
def requireAuthForArgs {current : Address} (env : Env current) (a : Address) (args : List Val) :
    Result Unit :=
  Outcome.ensure (env.argAuths a args = true) .trap

theorem Env.ne_current {current a : Address} (env : Env current) (h : a ∈ env.auths) :
    a ≠ current := by
  rintro rfl
  exact env.current_notMem h

/-- `require_time_reached`. -/
def requireTimeReached {current : Address} (env : Env current) (unlockAt : UInt64) : Result Unit :=
  require (unlockAt ≤ env.timestamp) .timelockNotExpired

/-! ## Token contracts -/

/-- How a token refuses: with a contract error code, an authorization error, or
anything else the host hides from the caller. -/
inductive TokenFailure where
  | contract (code : ℕ)
  | auth
  | other
  deriving DecidableEq, Repr

/-- The tokens as the contract at `self` can use them: `balance w asset holder`
and `transfer w asset source destination amount`. -/
structure TokenHost (World : Type) where
  self : Address
  balance : World → Address → Address → Except TokenFailure ℤ
  transfer : World → Address → Address → Address → ℤ → Except TokenFailure World

namespace TokenHost

variable {World : Type} (H : TokenHost World)

/-- What `holder` holds of `asset`; nothing when the token cannot say. -/
def held (w : World) (asset holder : Address) : ℤ :=
  match H.balance w asset holder with
  | .ok b => b
  | .error _ => 0

/-- The custody balance: what the contract itself holds. -/
def custody (w : World) (asset : Address) : ℤ := H.held w asset H.self

/-- Token contracts move exactly the stated amount, of the stated asset, between
the stated parties. -/
def Exact : Prop :=
  ∀ w asset src dst amount w', H.transfer w asset src dst amount = .ok w' →
    ∀ a h, H.held w' a h = H.held w a h
      - (if a = asset ∧ h = src then amount else 0)
      + (if a = asset ∧ h = dst then amount else 0)

/-- Transfers out of custody succeed when custody covers them. -/
def Covers : Prop :=
  ∀ w asset dst amount, 0 < amount → amount ≤ H.custody w asset →
    ∃ w', H.transfer w asset H.self dst amount = .ok w'

/-- `TokenClient::transfer`: traps when the token refuses. -/
def transferOrTrap (w : World) (asset src dst : Address) (amount : ℤ) : Result World :=
  match H.transfer w asset src dst amount with
  | .ok w' => .ok w'
  | .error _ => .error .trap

@[simp] theorem transferOrTrap_eq_ok {w w' : World} {asset src dst : Address} {amount : ℤ} :
    H.transferOrTrap w asset src dst amount = .ok w' ↔
      H.transfer w asset src dst amount = .ok w' := by
  unfold transferOrTrap
  cases H.transfer w asset src dst amount <;> simp

/-- `TokenClient::balance` of custody: traps when the token cannot say. -/
def custodyOrTrap (w : World) (asset : Address) : Result ℤ :=
  match H.balance w asset H.self with
  | .ok b => .ok b
  | .error _ => .error .trap

theorem custodyOrTrap_ok {w : World} {asset : Address} {b : ℤ}
    (h : H.custodyOrTrap w asset = .ok b) : H.custody w asset = b := by
  unfold custodyOrTrap at h
  unfold custody held
  cases hb : H.balance w asset H.self with
  | ok b' =>
      rw [hb] at h
      simpa using h
  | error f =>
      rw [hb] at h
      cases h

variable {H}

/-- A transfer to the contract by somebody else adds to its custody. -/
theorem Exact.custody_in (hx : H.Exact) {w w' : World} {asset src : Address} {amount : ℤ}
    (h : H.transfer w asset src H.self amount = .ok w') (hsrc : src ≠ H.self) (a : Address) :
    H.custody w' a = H.custody w a + if a = asset then amount else 0 := by
  unfold custody
  rw [hx w asset src H.self amount w' h a H.self]
  have hne : ¬ (a = asset ∧ H.self = src) := fun hc => hsrc hc.2.symm
  rw [if_neg hne, sub_zero]
  simp only [and_true]

/-- A transfer by the contract takes at most the stated amount out of custody;
a transfer to itself takes nothing. -/
theorem Exact.custody_out (hx : H.Exact) {w w' : World} {asset dst : Address} {amount : ℤ}
    (h : H.transfer w asset H.self dst amount = .ok w') (ha : 0 ≤ amount) (a : Address) :
    H.custody w a - (if a = asset then amount else 0) ≤ H.custody w' a := by
  unfold custody
  rw [hx w asset H.self dst amount w' h a H.self]
  simp only [and_true]
  have hin : 0 ≤ if a = asset ∧ H.self = dst then amount else 0 := by
    split <;> omega
  linarith

end TokenHost

/-! ## A reference host -/

/-- A ledger of balances, by asset and holder. -/
abbrev Ledger := Address → Address → ℤ

/-- Move `amount` of `asset` from `src` to `dst`. -/
def Ledger.move (l : Ledger) (asset src dst : Address) (amount : ℤ) : Ledger := fun a h =>
  l a h - (if a = asset ∧ h = src then amount else 0) + (if a = asset ∧ h = dst then amount else 0)

/-- The token contracts as the Stellar Asset Contract behaves: a negative amount
is refused with code 8 and an uncovered one with code 10. -/
def ledgerHost (self : Address) : TokenHost Ledger where
  self := self
  balance l asset holder := .ok (l asset holder)
  transfer l asset src dst amount :=
    if amount < 0 then .error (.contract 8)
    else if l asset src < amount then .error (.contract 10)
    else .ok (l.move asset src dst amount)

/-- The token contracts, in a world that also holds what some other contract stores. -/
def TokenHost.beside {World : Type} (H : TokenHost World) (Store : Type) :
    TokenHost (World × Store) where
  self := H.self
  balance w := H.balance w.1
  transfer w asset src dst amount :=
    (fun tokens => (tokens, w.2)) <$> H.transfer w.1 asset src dst amount

theorem ledgerHost_exact (self : Address) : (ledgerHost self).Exact := by
  intro w asset src dst amount w' h a b
  simp only [ledgerHost] at h
  split at h
  · cases h
  · split at h
    · cases h
    · cases h
      rfl

theorem ledgerHost_covers (self : Address) : (ledgerHost self).Covers := by
  intro w asset dst amount hpos hle
  refine ⟨w.move asset self dst amount, ?_⟩
  have hneg : ¬ amount < 0 := by omega
  have hcov : ¬ w asset self < amount := not_lt.2 hle
  simp only [ledgerHost, if_neg hneg, if_neg hcov]

end Astroid
