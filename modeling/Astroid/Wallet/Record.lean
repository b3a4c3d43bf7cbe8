import Astroid.Shared.Token

/-!
# The wallet's records

The stored types of `wallet/src/lib.rs` and `wallet/src/access.rs`, and the
rolling windows two of them keep.  Counters and times that are only divided and
compared are natural numbers.
-/

namespace Astroid
namespace WalletContract

/-! ## Roles -/

inductive Role where
  | auditor
  | agent
  | admin
  deriving DecidableEq, Repr

/-- `Role::rank`. -/
def Role.rank : Role → ℕ
  | .auditor => 0
  | .agent => 1
  | .admin => 2

/-- `Role::satisfies`. -/
def Role.Satisfies (role required : Role) : Prop := required.rank ≤ role.rank

instance (role required : Role) : Decidable (role.Satisfies required) :=
  inferInstanceAs (Decidable (_ ≤ _))

/-- `WalletData`. -/
structure WalletData where
  owner : Address
  state : ResourceState
  deriving DecidableEq

/-! ## Rolling windows -/

/-- `VELOCITY_BUCKETS`. -/
def velocityBuckets : ℕ := 4

/-- `RATE_LIMIT_BUCKETS`. -/
def rateLimitBuckets : ℕ := 4

structure VelocityLimit where
  maxAmount : ℤ
  windowSeconds : ℕ
  deriving DecidableEq

/-- `spent` holds the volume of bucket number `bucket - i` at position `i`. -/
structure VelocityUsage where
  bucket : ℕ
  spent : List ℤ
  deriving DecidableEq

structure RateLimitConfig where
  maxVolume : ℤ
  maxCount : ℕ
  windowSeconds : ℕ
  deriving DecidableEq

structure RateUsage where
  bucket : ℕ
  volume : List ℤ
  count : List ℕ
  deriving DecidableEq

/-- The loop both windows share: move every bucket `shift` places, dropping those that
slide out of the window. -/
def rollBuckets {α : Type} (buckets shift : ℕ) (zero : α) (old : List α) : List α :=
  (List.range buckets).foldl
    (fun rolled i => if i + shift < buckets then rolled.set (i + shift) (old.getD i zero)
      else rolled)
    (List.replicate buckets zero)

/-- The index arithmetic of that loop is done in `u64` and panics on overflow. -/
def requireShift (buckets shift : ℕ) : Result Unit :=
  Outcome.ensure (buckets - 1 + shift < 2 ^ 64) .trap

/-- `rolled_velocity_usage`: the stored record aged to `now`. -/
def rolledVelocityUsage (stored : Option VelocityUsage) (limit : VelocityLimit) (now : UInt64) :
    Result VelocityUsage :=
  let nowBucket := now.toNat / (limit.windowSeconds / velocityBuckets)
  match stored with
  | none => .ok ⟨nowBucket, List.replicate velocityBuckets 0⟩
  | some usage => do
      let bucket := max nowBucket usage.bucket
      let shift := bucket - usage.bucket
      requireShift velocityBuckets shift
      pure ⟨bucket, rollBuckets velocityBuckets shift 0 usage.spent⟩

/-- `rolled_rate_usage`. -/
def rolledRateUsage (stored : Option RateUsage) (config : RateLimitConfig) (now : UInt64) :
    Result RateUsage :=
  let nowBucket := now.toNat / (config.windowSeconds / rateLimitBuckets)
  match stored with
  | none => .ok ⟨nowBucket, List.replicate rateLimitBuckets 0, List.replicate rateLimitBuckets 0⟩
  | some usage => do
      let bucket := max nowBucket usage.bucket
      let shift := bucket - usage.bucket
      requireShift rateLimitBuckets shift
      pure ⟨bucket, rollBuckets rateLimitBuckets shift 0 usage.volume,
        rollBuckets rateLimitBuckets shift 0 usage.count⟩

/-- A sum with checked additions. -/
def checkedSum (total : ℤ) : List ℤ → Result ℤ
  | [] => .ok total
  | x :: rest => do
      let total ← checkedAdd total x
      checkedSum total rest

def checkedCountSum (total : ℕ) : List ℕ → Result ℕ
  | [] => .ok total
  | x :: rest => do
      let total ← checkedCount total x
      checkedCountSum total rest

/-- `velocity_total`. -/
def velocityTotal (usage : VelocityUsage) : Result ℤ := checkedSum 0 usage.spent

/-- `rate_totals`. -/
def rateTotals (usage : RateUsage) : Result (ℤ × ℕ) := do
  let volume ← checkedSum 0 usage.volume
  let count ← checkedCountSum 0 usage.count
  pure (volume, count)

/-! ## Batches -/

structure ContractCall where
  contractAddr : Address
  fnName : String
  args : List Val

/-- One action of a validated batch: the sub-call, and what it declares to move. -/
structure BatchAction where
  call : ContractCall
  policyId : String
  budgetId : String
  asset : Address
  recipient : Address
  amount : ℤ

structure BatchReceipt where
  executed : ℕ
  totalAmount : ℤ
  budgetRemaining : ℤ
  deriving DecidableEq

/-- `BudgetError`. -/
inductive BudgetError where
  | notFound
  | unauthorized
  | invalidInput
  | overflow
  | invalidAmount
  | budgetExceeded
  | budgetFrozen
  | budgetArchived
  | assetNotAuthorized
  | budgetExpired
  | budgetNotActive
  deriving DecidableEq, Repr

/-- `From<BudgetError> for Error`. -/
def BudgetError.toError : BudgetError → Error
  | .notFound => .notFound
  | .unauthorized => .unauthorized
  | .invalidInput => .invalidInput
  | .overflow => .overflow
  | .invalidAmount => .invalidAmount
  | .budgetExceeded => .budgetExceeded
  | .budgetFrozen => .budgetFrozen
  | .budgetArchived => .budgetArchived
  | .assetNotAuthorized => .assetNotAuthorized
  | .budgetExpired => .budgetExpired
  | .budgetNotActive => .budgetExpired

/-- `ModuleInfo`. -/
structure ModuleInfo where
  address : Address
  deprecated : Bool
  deriving DecidableEq

end WalletContract
end Astroid
