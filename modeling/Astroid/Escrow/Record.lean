import Astroid.Shared.Host

/-!
# The escrow record and its release schedule

`escrow/src/storage.rs`, and the two pure functions the payout paths share:
`calculate_vested_amount` and `calculate_claimable_amount`.
-/

namespace Astroid
namespace EscrowContract

/-- `BytesN<n>`. -/
abbrev BytesN (n : ℕ) := BitVec (8 * n)

inductive ReleaseType where
  | none
  | cliff
  | linear
  deriving DecidableEq, Repr

structure ReleaseSchedule where
  releaseType : ReleaseType
  startTime : UInt64
  cliffTime : UInt64
  endTime : UInt64
  deriving DecidableEq

/-- `ReleaseSchedule::none`. -/
def ReleaseSchedule.unscheduled : ReleaseSchedule := ⟨.none, 0, 0, 0⟩

inductive EscrowState where
  | created
  | funded
  | released
  | refunded
  | expired
  | closed
  deriving DecidableEq, Repr

inductive MilestoneStatus where
  | pending
  | completed
  | disputed
  deriving DecidableEq, Repr

/-- One milestone; `releaseBps` is its share of the escrow in basis points. -/
structure Milestone where
  index : ℕ
  releaseBps : ℕ
  status : MilestoneStatus
  deriving DecidableEq, Repr

structure MilestoneSet where
  milestones : List Milestone
  releasedAmount : ℤ
  cancelled : Bool
  deriving DecidableEq

structure Escrow where
  sender : Address
  recipient : Address
  arbiter : Address
  assets : List AssetAmount
  state : EscrowState
  deadline : UInt64
  gracePeriod : UInt64
  refundWindow : UInt64
  fundedAmount : ℤ
  schedule : ReleaseSchedule
  releasedAmount : ℤ
  overrideSigners : List (BytesN 32)
  overrideThreshold : ℕ
  overrideNonce : UInt64
  deriving DecidableEq

structure ReleaseCondition where
  participants : List Address
  threshold : ℕ
  approvals : ℕ
  deriving DecidableEq

/-! ## Vesting -/

/-- `calculate_vested_amount`. -/
def calculateVestedAmount (amount : ℤ) (schedule : ReleaseSchedule) (currentTime : UInt64) :
    Result ℤ :=
  match schedule.releaseType with
  | .none => .ok 0
  | .cliff =>
      if schedule.endTime < schedule.startTime ∨ schedule.cliffTime < schedule.startTime ∨
          schedule.endTime < schedule.cliffTime then
        .error (.error .invalidInput)
      else if currentTime < schedule.cliffTime ∨ currentTime < schedule.startTime then
        .ok 0
      else if schedule.endTime ≤ currentTime then
        .ok amount
      else
        .ok 0
  | .linear =>
      if schedule.endTime ≤ schedule.startTime ∨ schedule.cliffTime < schedule.startTime ∨
          schedule.endTime < schedule.cliffTime then
        .error (.error .invalidInput)
      else if currentTime < schedule.cliffTime ∨ currentTime < schedule.startTime then
        .ok 0
      else if schedule.endTime ≤ currentTime then
        .ok amount
      else
        let totalDuration := asI128 schedule.endTime - asI128 schedule.startTime
        if totalDuration = 0 then
          .ok amount
        else do
          let elapsed := asI128 currentTime - asI128 schedule.startTime
          let product ← checkedMul amount elapsed
          checkedDiv product totalDuration

/-- `calculate_claimable_amount`: vested minus already released, never negative. -/
def calculateClaimableAmount (escrow : Escrow) (currentTime : UInt64) : Result ℤ :=
  if escrow.schedule.releaseType ≠ .none then do
    let vested ← calculateVestedAmount escrow.fundedAmount escrow.schedule currentTime
    let claimable ← checkedSub vested escrow.releasedAmount
    if claimable < 0 then pure 0 else pure claimable
  else
    .ok 0

/-! ## The settlement windows -/

/-- `grace_end`: the sum is checked as an `i128` and then cast to `u64`. -/
def graceEnd (escrow : Escrow) : Result UInt64 := do
  let sum ← checkedAdd (asI128 escrow.deadline) (asI128 escrow.gracePeriod)
  pure (asU64 sum)

/-- `closes_at`: `0` when the refund window never closes. -/
def closesAt (escrow : Escrow) : UInt64 :=
  if escrow.refundWindow = 0 then 0
  else saturatingAdd (saturatingAdd escrow.deadline escrow.gracePeriod) escrow.refundWindow

end EscrowContract
end Astroid
