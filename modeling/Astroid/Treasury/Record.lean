import Astroid.Shared.Host

/-!
# The treasury's records

The stored types of `treasury/src/lib.rs` and the predicates they carry.  A field
`to` of the source is called `payee` here.
-/

namespace Astroid
namespace TreasuryContract

/-- `MAX_TREASURY_ASSETS`. -/
def maxTreasuryAssets : ℕ := 32

structure Treasury where
  org : String
  admin : Address
  multisig : Option Address
  policy : Option Address
  budget : Option Address
  state : ResourceState
  registry : Option Address
  guardian : Address
  paused : Bool
  pausedAt : UInt64
  deriving DecidableEq

/-- `pause_is_active`: an engaged breaker lapses on its own. -/
def Treasury.PauseIsActive (t : Treasury) (now : UInt64) : Prop :=
  t.paused = true ∧ now < saturatingAdd t.pausedAt (UInt64.ofNat maxPauseDuration)

instance (t : Treasury) (now : UInt64) : Decidable (t.PauseIsActive now) :=
  inferInstanceAs (Decidable (_ ∧ _))

structure MilestoneDisbursement where
  totalAmount : ℤ
  milestones : ℕ
  disbursed : ℕ
  amountPerMilestone : ℤ
  asset : Address
  payee : Address
  deriving DecidableEq

/-- Per-asset accounting: `totalIn` is what the treasury still holds of what was
deposited, `totalOut` what it paid out. -/
structure Holding where
  asset : Address
  totalIn : ℤ
  totalOut : ℤ
  budgetId : Option String
  deriving DecidableEq

structure AllowanceId where
  agent : Address
  recipient : Address
  asset : Address
  deriving DecidableEq

structure Allowance where
  agent : Address
  recipient : Address
  asset : Address
  limit : ℤ
  spent : ℤ
  expiresAt : UInt64
  deriving DecidableEq

structure WithdrawalTimeLock where
  delay : UInt64
  threshold : ℤ
  deriving DecidableEq

/-- `WithdrawalTimeLock::disabled`. -/
def WithdrawalTimeLock.disabled : WithdrawalTimeLock := ⟨0, 0⟩

/-- `WithdrawalTimeLock::applies`. -/
def WithdrawalTimeLock.Applies (lock : WithdrawalTimeLock) (amount : ℤ) : Prop :=
  0 < lock.delay ∧ lock.threshold ≤ amount

instance (lock : WithdrawalTimeLock) (amount : ℤ) : Decidable (lock.Applies amount) :=
  inferInstanceAs (Decidable (_ ∧ _))

structure PendingWithdrawal where
  id : ℕ
  requester : Address
  asset : Address
  payee : Address
  amount : ℤ
  payments : List Payment
  requestedAt : UInt64
  executeAfter : UInt64
  expiresAt : UInt64
  cancelled : Bool
  executed : Bool
  deriving DecidableEq

/-- `PendingWithdrawal::is_pending`. -/
def PendingWithdrawal.IsPending (p : PendingWithdrawal) : Prop :=
  p.cancelled = false ∧ p.executed = false

instance (p : PendingWithdrawal) : Decidable p.IsPending :=
  inferInstanceAs (Decidable (_ ∧ _))

end TreasuryContract
end Astroid
