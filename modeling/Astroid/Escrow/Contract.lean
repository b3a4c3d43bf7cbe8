import Astroid.Escrow.Record

/-!
# The escrow contract

`escrow/src/lib.rs`, entrypoint by entrypoint.  An entrypoint takes the state
and returns the next one, or a fault, which leaves the state as it was.

Storage is one field for each key of `DataKey`.  Three more fields record what
the contract did and are read by no entrypoint: the token transfers into
custody, the token transfers out of custody, and the payouts in escrow units
that ordered the latter.  Escrow ids are natural numbers: the `u64` counter is
incremented once for each escrow created.
-/

namespace Astroid
namespace EscrowContract

/-- `MAX_ESCROW_TOKENS`. -/
def maxEscrowTokens : ℕ := 32

structure OverrideSignature where
  publicKey : BytesN 32
  signature : BytesN 64

/-- `ReleaseConditionConfig`. -/
structure ReleaseConditionConfig where
  sender : Address
  recipient : Address
  arbiter : Address
  assets : List AssetAmount
  deadline : UInt64
  gracePeriod : UInt64
  refundWindow : UInt64
  overrideSigners : List (BytesN 32)
  overrideThreshold : ℕ
  participants : List Address
  approvalThreshold : ℕ

/-- The tokens, the XDR encoding of an address, the network id and the two
cryptographic primitives the signature override uses. -/
structure EscrowHost (World : Type) extends TokenHost World where
  toXdr : Address → List UInt8
  networkId : BytesN 32
  sha256 : List UInt8 → BytesN 32
  ed25519Verify : BytesN 32 → BytesN 32 → BytesN 64 → Bool

/-- A token transfer made for one escrow: of what, from or to whom, how much. -/
structure Leg where
  escrow : ℕ
  asset : Address
  party : Address
  amount : ℤ
  deriving DecidableEq

/-- A payout made for one escrow, in escrow units. -/
structure Payout where
  escrow : ℕ
  payee : Address
  units : ℤ
  deriving DecidableEq

structure State (World : Type) where
  world : World
  count : Option ℕ
  admin : Option Address
  escrow : ℕ → Option Escrow
  milestones : ℕ → Option MilestoneSet
  approvedToken : Address → Bool
  approvedTokenList : List Address
  releaseCondition : ℕ → Option ReleaseCondition
  releaseApproval : ℕ → Address → Bool
  inflows : List Leg
  outflows : List Leg
  payouts : List Payout

/-! ## Storage -/

namespace State

variable {World : Type} (s : State World)

/-- `get_count`. -/
def getCount : ℕ := s.count.getD 0

/-- `store_escrow`. -/
def storeEscrow (id : ℕ) (e : Escrow) : State World :=
  { s with escrow := Function.update s.escrow id (some e) }

def storeMilestones (id : ℕ) (set : MilestoneSet) : State World :=
  { s with milestones := Function.update s.milestones id (some set) }

/-- `store_release_condition`. -/
def storeReleaseCondition (id : ℕ) (c : ReleaseCondition) : State World :=
  { s with releaseCondition := Function.update s.releaseCondition id (some c) }

/-- `mark_release_approval`. -/
def markReleaseApproval (id : ℕ) (who : Address) : State World :=
  { s with releaseApproval := fun i a => if i = id ∧ a = who then true else s.releaseApproval i a }

/-- Tokens came in for escrow `id`. -/
def recordInflow (w : World) (legs : List Leg) : State World :=
  { s with world := w, inflows := s.inflows ++ legs }

/-- Tokens went out for escrow `id`, as its payout of `units` to `payee`. -/
def recordPayout (w : World) (legs : List Leg) (id : ℕ) (payee : Address) (units : ℤ) :
    State World :=
  { s with
    world := w
    outflows := s.outflows ++ legs
    payouts := s.payouts ++ [⟨id, payee, units⟩] }

/-- `load_escrow`. -/
def loadEscrow (id : ℕ) : Result Escrow := okOr (s.escrow id) .notFound

/-- `load_admin`. -/
def loadAdmin : Result Address := okOr s.admin .notInitialized

/-- `reject_milestone_settlement`. -/
def rejectMilestoneSettlement (id : ℕ) : Result Unit :=
  require (s.milestones id = none) .invalidState

/-- `require_release_approvals`. -/
def requireReleaseApprovals (id : ℕ) : Result Unit :=
  match s.releaseCondition id with
  | some c => require (c.threshold ≤ c.approvals) .thresholdNotMet
  | none => .ok ()

end State

variable {World : Type} (H : EscrowHost World) (env : Env H.self) (s : State World)

/-! ## Validation -/

/-- `require_token_approved`. -/
def requireTokenApproved (token : Address) : Result Unit :=
  require (s.approvedToken token = true) .assetNotAuthorized

/-- `require_tokens_approved`. -/
def requireTokensApproved : List AssetAmount → Result Unit
  | [] => .ok ()
  | a :: rest => do
      requireTokenApproved s a.asset
      requireTokensApproved rest

/-- The two loops of `validate_assets`: each amount is positive, and no later
entry lists the same asset. -/
def validateEntries : List AssetAmount → Result Unit
  | [] => .ok ()
  | a :: rest => do
      requirePositiveAmount a.amount
      require (∀ b ∈ rest, b.asset ≠ a.asset) .invalidInput
      validateEntries rest

/-- `validate_assets`. -/
def validateAssets (assets : List AssetAmount) : Result Unit := do
  requireTokensApproved s assets
  require (assets ≠ [] ∧ assets.length ≤ maxEscrowAssets) .invalidInput
  validateEntries assets

/-- The shape `validate_release_condition` and `validate_override_config` share:
both empty and zero, or a bounded, duplicate-free list with a threshold between
one and its length. -/
def validateParties {α : Type} [DecidableEq α] (parties : List α) (threshold : ℕ) : Result Unit :=
  if parties = [] then
    require (threshold = 0) .invalidThreshold
  else do
    require (parties.length ≤ maxSigners) .tooManySigners
    require (threshold ≠ 0 ∧ threshold ≤ parties.length) .invalidThreshold
    require parties.Nodup .invalidInput

def validateReleaseCondition (participants : List Address) (threshold : ℕ) : Result Unit :=
  validateParties participants threshold

def validateOverrideConfig (signers : List (BytesN 32)) (threshold : ℕ) : Result Unit :=
  validateParties signers threshold

/-- `require_admin`: the identity check precedes the authorization. -/
def requireAdmin (caller : Address) : Result Unit := do
  let admin ← s.loadAdmin
  require (admin = caller) .unauthorized
  requireAuth env caller

/-- `require_refund_window_open`. -/
def requireRefundWindowOpen (e : Escrow) : Result Unit :=
  require (closesAt e = 0 ∨ env.timestamp < closesAt e) .escrowExpired

/-! ## Moving tokens -/

/-- Pull every listed amount from `src` into custody and add the amounts up. -/
def pullAssets (src : Address) (w : World) (total : ℤ) :
    List AssetAmount → Result (World × ℤ)
  | [] => .ok (w, total)
  | a :: rest => do
      let w ← H.transferOrTrap w a.asset src H.self a.amount
      let total ← checkedAdd total a.amount
      pullAssets src w total rest

/-- The legs `pullAssets` moves for escrow `id`. -/
def depositLegs (id : ℕ) (src : Address) (assets : List AssetAmount) : List Leg :=
  assets.map fun a => ⟨id, a.asset, src, a.amount⟩

/-- The payout loop: of each asset, `amount * units / funded_amount` to `payee`,
skipping the shares that round to nothing. -/
def sendShares (id : ℕ) (payee : Address) (fundedAmount units : ℤ) (w : World) :
    List AssetAmount → Result (World × List Leg)
  | [] => .ok (w, [])
  | a :: rest => do
      let product ← checkedMul a.amount units
      let sendAmount ← checkedDiv product fundedAmount
      if 0 < sendAmount then do
        let w ← H.transferOrTrap w a.asset H.self payee sendAmount
        let (w, legs) ← sendShares id payee fundedAmount units w rest
        pure (w, ⟨id, a.asset, payee, sendAmount⟩ :: legs)
      else
        sendShares id payee fundedAmount units w rest

/-- `transfer_all`. -/
def transferAll (id : ℕ) (e : Escrow) (payee : Address) (remaining : ℤ) :
    Result (World × List Leg) :=
  if remaining = 0 then .ok (s.world, [])
  else sendShares H id payee e.fundedAmount remaining s.world e.assets

/-- The refund loop of `refund`, `refund_timelock`, `cancel` and
`cancel_milestones_inner`, which runs only for a positive remainder. -/
def returnRemaining (id : ℕ) (e : Escrow) (remaining : ℤ) : Result (World × List Leg) :=
  if 0 < remaining then sendShares H id e.sender e.fundedAmount remaining s.world e.assets
  else .ok (s.world, [])

/-! ## Administration -/

def initializeContract (admin : Address) : Result (State World) := do
  require (s.count = none) .alreadyInitialized
  pure { s with count := some 0, admin := some admin }

def approveToken (caller token : Address) : Result (State World) := do
  requireAdmin H env s caller
  require (s.approvedToken token = false) .alreadyExists
  require (s.approvedTokenList.length < maxEscrowTokens) .invalidInput
  pure { s with
    approvedTokenList := s.approvedTokenList ++ [token]
    approvedToken := Function.update s.approvedToken token true }

def revokeToken (caller token : Address) : Result (State World) := do
  requireAdmin H env s caller
  require (s.approvedToken token = true) .notFound
  pure { s with
    approvedTokenList := s.approvedTokenList.erase token
    approvedToken := Function.update s.approvedToken token false }

/-! ## Creation -/

/-- The tail the funded creation paths share: take the next id, pull every
listed asset from the sender, store the record with what was pulled. -/
def openFunded (e : Escrow) : Result (ℕ × State World) := do
  let id := s.getCount + 1
  let (w, fundedAmount) ← pullAssets H e.sender s.world 0 e.assets
  let s := { s with count := some id }.recordInflow w (depositLegs id e.sender e.assets)
  pure (id, s.storeEscrow id { e with fundedAmount := fundedAmount })

def createWithRefundWindow (sender recipient arbiter : Address) (assets : List AssetAmount)
    (deadline gracePeriod refundWindow : UInt64) (releaseSigners : List (BytesN 32))
    (releaseThreshold : ℕ) : Result (ℕ × State World) := do
  requireAuth env sender
  require (recipient ≠ sender) .invalidInput
  require (env.timestamp < deadline) .invalidInput
  validateAssets s assets
  validateOverrideConfig releaseSigners releaseThreshold
  openFunded H s {
    sender, recipient, arbiter, assets
    state := .funded
    deadline, gracePeriod, refundWindow
    fundedAmount := 0
    schedule := .unscheduled
    releasedAmount := 0
    overrideSigners := releaseSigners
    overrideThreshold := releaseThreshold
    overrideNonce := 0 }

def create (sender recipient arbiter : Address) (assets : List AssetAmount)
    (deadline gracePeriod : UInt64) (releaseSigners : List (BytesN 32))
    (releaseThreshold : ℕ) : Result (ℕ × State World) :=
  createWithRefundWindow H env s sender recipient arbiter assets deadline gracePeriod 0
    releaseSigners releaseThreshold

def createWithReleaseCondition (config : ReleaseConditionConfig) : Result (ℕ × State World) := do
  validateReleaseCondition config.participants config.approvalThreshold
  let (id, s) ← createWithRefundWindow H env s config.sender config.recipient config.arbiter
    config.assets config.deadline config.gracePeriod config.refundWindow config.overrideSigners
    config.overrideThreshold
  if config.participants ≠ [] then
    pure (id, s.storeReleaseCondition id ⟨config.participants, config.approvalThreshold, 0⟩)
  else
    pure (id, s)

def approveRelease (caller : Address) (id : ℕ) : Result (ℕ × State World) := do
  requireAuth env caller
  let e ← s.loadEscrow id
  require (e.state = .funded) .invalidState
  let condition ← okOr (s.releaseCondition id) .notFound
  require (caller ∈ condition.participants) .notASigner
  require (s.releaseApproval id caller = false) .alreadySigned
  let condition := { condition with approvals := condition.approvals + 1 }
  pure (condition.approvals,
    (s.markReleaseApproval id caller).storeReleaseCondition id condition)

def createTimelock (sender recipient arbiter : Address) (assets : List AssetAmount)
    (unlockTime : UInt64) : Result (ℕ × State World) := do
  requireAuth env sender
  require (recipient ≠ sender) .invalidInput
  require (env.timestamp < unlockTime) .invalidInput
  validateAssets s assets
  openFunded H s {
    sender, recipient, arbiter, assets
    state := .funded
    deadline := unlockTime
    gracePeriod := 0
    refundWindow := 0
    fundedAmount := 0
    schedule := ⟨.cliff, env.timestamp, unlockTime, unlockTime⟩
    releasedAmount := 0
    overrideSigners := []
    overrideThreshold := 0
    overrideNonce := 0 }

def createScheduled (sender recipient arbiter : Address) (assets : List AssetAmount)
    (schedule : ReleaseSchedule) (deadline : UInt64) : Result (ℕ × State World) := do
  requireAuth env sender
  require (recipient ≠ sender) .invalidInput
  validateAssets s assets
  require (schedule.startTime ≤ schedule.cliffTime ∧ schedule.cliffTime ≤ schedule.endTime ∧
    schedule.startTime < schedule.endTime) .invalidInput
  require (env.timestamp < schedule.endTime) .invalidInput
  let effectiveDeadline := if deadline = 0 then schedule.endTime else deadline
  require (schedule.endTime ≤ effectiveDeadline) .invalidInput
  openFunded H s {
    sender, recipient, arbiter, assets
    state := .funded
    deadline := effectiveDeadline
    gracePeriod := 0
    refundWindow := 0
    fundedAmount := 0
    schedule
    releasedAmount := 0
    overrideSigners := []
    overrideThreshold := 0
    overrideNonce := 0 }

def initializeTimelock (sender recipient arbiter : Address) (assets : List AssetAmount)
    (unlockTime gracePeriod : UInt64) : Result (ℕ × State World) := do
  requireAuth env sender
  require (recipient ≠ sender) .invalidInput
  require (env.timestamp < unlockTime) .invalidInput
  validateAssets s assets
  let id := s.getCount + 1
  let s := { s with count := some id }
  pure (id, s.storeEscrow id {
    sender, recipient, arbiter, assets
    state := .created
    deadline := unlockTime
    gracePeriod
    refundWindow := 0
    fundedAmount := 0
    schedule := ⟨.cliff, env.timestamp, unlockTime, unlockTime⟩
    releasedAmount := 0
    overrideSigners := []
    overrideThreshold := 0
    overrideNonce := 0 })

def fund (sender : Address) (id : ℕ) : Result (State World) := do
  requireAuth env sender
  let e ← s.loadEscrow id
  require (e.sender = sender) .unauthorized
  require (e.state = .created) .invalidState
  requireTokensApproved s e.assets
  let (w, total) ← pullAssets H sender s.world 0 e.assets
  let s := s.recordInflow w (depositLegs id sender e.assets)
  pure (s.storeEscrow id { e with fundedAmount := total, state := .funded })

/-! ## Payouts to the recipient -/

/-- The tail `withdraw` and `claim` share: count `units` as released, settle the
record when that was everything, and send the shares. -/
def disburse (id : ℕ) (e : Escrow) (units : ℤ) : Result (ℤ × State World) := do
  let releasedAmount ← checkedAdd e.releasedAmount units
  let state := if releasedAmount = e.fundedAmount then .released else e.state
  let (w, legs) ← sendShares H id e.recipient e.fundedAmount units s.world e.assets
  pure (releasedAmount,
    (s.storeEscrow id { e with releasedAmount, state }).recordPayout w legs id e.recipient units)

def withdraw (caller : Address) (id : ℕ) (amount : ℤ) : Result (ℤ × State World) := do
  requireAuth env caller
  requirePositiveAmount amount
  let e ← s.loadEscrow id
  s.rejectMilestoneSettlement id
  require (e.recipient = caller) .unauthorized
  require (e.state = .funded) .invalidState
  let claimable ← calculateClaimableAmount e env.timestamp
  require (0 < claimable) .timeLockActive
  require (amount ≤ claimable) .insufficientFunds
  s.requireReleaseApprovals id
  disburse H s id e amount

/-- What `claim` pays on a funded escrow: the claimable part of a scheduled one,
the whole rest of an unscheduled one once its grace period is over. -/
def claimableUnits (e : Escrow) (now : UInt64) : Result ℤ :=
  if e.schedule.releaseType ≠ .none then
    calculateClaimableAmount e now
  else do
    let graceEnd ← graceEnd e
    require (graceEnd ≤ now) .timeLockActive
    checkedSub e.fundedAmount e.releasedAmount

def claim (caller : Address) (id : ℕ) : Result (ℤ × State World) := do
  requireAuth env caller
  let e ← s.loadEscrow id
  s.rejectMilestoneSettlement id
  require (e.recipient = caller) .unauthorized
  require (e.state = .funded ∨ e.state = .created) .invalidState
  if e.state = .funded then do
    let claimable ← claimableUnits e env.timestamp
    require (0 < claimable) .timeLockActive
    s.requireReleaseApprovals id
    let (_, s) ← disburse H s id e claimable
    pure (claimable, s)
  else do
    let graceEnd ← graceEnd e
    require (graceEnd ≤ env.timestamp) .timeLockActive
    s.requireReleaseApprovals id
    let remaining ← checkedSub e.fundedAmount e.releasedAmount
    let (w, legs) ← transferAll H s id e e.recipient remaining
    pure (e.fundedAmount, (s.storeEscrow id { e with state := .released }).recordPayout
      w legs id e.recipient remaining)

/-- The time lock of `release`: a cliff schedule opens at `cliff_time`, a linear
one when both the requested and the outstanding amount have vested. -/
def requireReleaseUnlocked (e : Escrow) (now : UInt64) (releaseAmount : ℤ) : Result Unit :=
  match e.schedule.releaseType with
  | .none => .ok ()
  | .cliff => require (e.schedule.cliffTime ≤ now) .escrowLocked
  | .linear => do
      require (e.schedule.cliffTime ≤ now) .escrowLocked
      let vested ← calculateVestedAmount e.fundedAmount e.schedule now
      require (releaseAmount ≤ vested) .escrowLocked
      let remaining ← checkedSub e.fundedAmount e.releasedAmount
      require (remaining ≤ vested) .escrowLocked

def release (arbiter : Address) (id : ℕ) (releaseAmount : ℤ) : Result (State World) := do
  requireAuth env arbiter
  let e ← s.loadEscrow id
  require (e.arbiter = arbiter) .unauthorized
  require (e.state = .funded) .invalidState
  s.rejectMilestoneSettlement id
  requireReleaseUnlocked e env.timestamp releaseAmount
  let graceEnd ← graceEnd e
  require (env.timestamp < graceEnd) .escrowExpired
  let remaining ← checkedSub e.fundedAmount e.releasedAmount
  require (releaseAmount ≤ remaining) .invalidAmount
  s.requireReleaseApprovals id
  let (w, legs) ← transferAll H s id e e.recipient remaining
  let e' := { e with releasedAmount := e.fundedAmount, state := .released }
  pure ((s.storeEscrow id e').recordPayout w legs id e.recipient remaining)

/-! ## The signature override -/

/-- `x.to_be_bytes()`, `width` bytes. -/
def toBeBytes : ℕ → ℕ → List UInt8
  | 0, _ => []
  | width + 1, x => UInt8.ofNat (x / 256 ^ width) :: toBeBytes width x

/-- `override_payload`: contract address, network id, escrow id, nonce. -/
def overridePayload (id : ℕ) (nonce : UInt64) : List UInt8 :=
  H.toXdr H.self ++ toBeBytes 32 H.networkId.toNat ++ toBeBytes 8 id ++ toBeBytes 8 nonce.toNat

/-- The signature loop: every key is a configured one not seen before, and every
signature verifies.  Returns the keys seen. -/
def verifySignatures (e : Escrow) (digest : BytesN 32) (seen : List (BytesN 32)) :
    List OverrideSignature → Result (List (BytesN 32))
  | [] => .ok seen
  | sig :: rest => do
      require (sig.publicKey ∈ e.overrideSigners) .notASigner
      require (sig.publicKey ∉ seen) .alreadySigned
      Outcome.ensure (H.ed25519Verify sig.publicKey digest sig.signature = true) .trap
      verifySignatures e digest (seen ++ [sig.publicKey]) rest

/-- The time lock of `override_release`, which requests the whole balance. -/
def requireOverrideUnlocked (e : Escrow) (now : UInt64) : Result Unit :=
  match e.schedule.releaseType with
  | .none => .ok ()
  | .cliff => require (e.schedule.cliffTime ≤ now) .escrowLocked
  | .linear => do
      require (e.schedule.cliffTime ≤ now) .escrowLocked
      let remaining ← checkedSub e.fundedAmount e.releasedAmount
      let vested ← calculateVestedAmount e.fundedAmount e.schedule now
      require (remaining ≤ vested) .escrowLocked

def overrideRelease (id : ℕ) (nonce : UInt64) (signatures : List OverrideSignature) :
    Result (State World) := do
  let e ← s.loadEscrow id
  s.rejectMilestoneSettlement id
  require (e.overrideSigners ≠ [] ∧ e.overrideThreshold ≠ 0) .unauthorized
  require (e.state = .funded) .invalidState
  require (env.timestamp < e.deadline) .escrowExpired
  requireOverrideUnlocked e env.timestamp
  require (e.overrideNonce < nonce) .invalidNonce
  require (e.overrideThreshold ≤ signatures.length) .thresholdNotMet
  let seen ← verifySignatures H e (H.sha256 (overridePayload H id nonce)) [] signatures
  require (e.overrideThreshold ≤ seen.length) .thresholdNotMet
  s.requireReleaseApprovals id
  let remaining ← checkedSub e.fundedAmount e.releasedAmount
  let (w, legs) ← transferAll H s id e e.recipient remaining
  pure ((s.storeEscrow id { e with overrideNonce := nonce, state := .released }).recordPayout
    w legs id e.recipient remaining)

/-! ## Expiry and the sender's exits -/

def expire (id : ℕ) : Result (State World) := do
  let e ← s.loadEscrow id
  require (e.state = .funded) .invalidState
  let graceEnd ← graceEnd e
  require (graceEnd ≤ env.timestamp) .invalidState
  pure (s.storeEscrow id { e with state := .expired })

def refund (caller : Address) (id : ℕ) : Result (State World) := do
  requireAuth env caller
  let e ← s.loadEscrow id
  s.rejectMilestoneSettlement id
  require (e.sender = caller) .unauthorized
  require (e.state = .funded ∨ e.state = .expired) .invalidState
  require (e.deadline ≤ env.timestamp) .timeLockActive
  let graceEnd ← graceEnd e
  require (graceEnd ≤ env.timestamp) .graceActive
  requireRefundWindowOpen H env e
  let remaining ← checkedSub e.fundedAmount e.releasedAmount
  let (w, legs) ← returnRemaining H s id e remaining
  pure ((s.storeEscrow id { e with state := .refunded }).recordPayout w legs id e.sender remaining)

def refundTimelock (caller : Address) (id : ℕ) : Result (State World) := do
  requireAuth env caller
  let e ← s.loadEscrow id
  s.rejectMilestoneSettlement id
  require (e.sender = caller) .unauthorized
  require (e.state = .created ∨ e.state = .funded ∨ e.state = .expired) .invalidState
  let graceEnd ← graceEnd e
  require (graceEnd ≤ env.timestamp) .timeLockActive
  requireRefundWindowOpen H env e
  let remaining ← checkedSub e.fundedAmount e.releasedAmount
  let (w, legs) ← returnRemaining H s id e remaining
  pure ((s.storeEscrow id { e with state := .refunded }).recordPayout w legs id e.sender remaining)

def reclaim (caller : Address) (id : ℕ) : Result (State World) := do
  requireAuth env caller
  let e ← s.loadEscrow id
  s.rejectMilestoneSettlement id
  require (e.sender = caller) .unauthorized
  require (e.state = .funded ∨ e.state = .expired) .invalidState
  require (e.deadline ≤ env.timestamp) .timeLockActive
  let graceEnd ← graceEnd e
  require (graceEnd ≤ env.timestamp) .graceActive
  requireRefundWindowOpen H env e
  let remaining ← checkedSub e.fundedAmount e.releasedAmount
  let (w, legs) ← transferAll H s id e e.sender remaining
  pure ((s.storeEscrow id { e with state := .refunded }).recordPayout w legs id e.sender remaining)

def close (caller : Address) (id : ℕ) : Result (State World) := do
  requireAuth env caller
  let e ← s.loadEscrow id
  require (e.state = .released ∨ e.state = .refunded) .invalidState
  require (caller = e.sender ∨ caller = e.recipient ∨ caller = e.arbiter) .unauthorized
  pure (s.storeEscrow id { e with state := .closed })

/-! ## Milestones -/

/-- The checked `u32` sum of the weights. -/
def totalBps (total : ℕ) : List ℕ → Result ℕ
  | [] => .ok total
  | bps :: rest => do
      require (total + bps < 2 ^ 32) .overflow
      totalBps (total + bps) rest

/-- `milestones` are the weights of the `MilestoneSpec` list. -/
def depositWithMilestones (sender recipient arbiter asset : Address) (amount : ℤ)
    (deadline : UInt64) (milestones : List ℕ) : Result (ℕ × State World) := do
  requireAuth env sender
  requirePositiveAmount amount
  requireTokenApproved s asset
  require (recipient ≠ sender) .invalidInput
  require (env.timestamp < deadline) .invalidInput
  require (milestones ≠ []) .invalidInput
  let bps ← totalBps 0 milestones
  require (bps = 10000) .invalidInput
  let id := s.getCount + 1
  let w ← H.transferOrTrap s.world asset sender H.self amount
  let items := milestones.zipIdx.map fun (bps, i) => ⟨i, bps, .pending⟩
  let s := { s with count := some id }.recordInflow w [⟨id, asset, sender, amount⟩]
  pure (id, (s.storeMilestones id ⟨items, 0, false⟩).storeEscrow id {
    sender, recipient, arbiter
    assets := [⟨asset, amount⟩]
    state := .funded
    deadline
    gracePeriod := 0
    refundWindow := 0
    fundedAmount := amount
    schedule := .unscheduled
    releasedAmount := 0
    overrideSigners := []
    overrideThreshold := 0
    overrideNonce := 0 })

/-- The search loop of the milestone entrypoints: the last position whose
milestone carries `index`. -/
def findMilestone (index : ℕ) (milestones : List Milestone) : Option (ℕ × Milestone) :=
  milestones.zipIdx.foldl (fun found (m, i) => if m.index = index then some (i, m) else found) none

/-- `total_amount`: unchecked, but a milestone escrow lists one asset. -/
def totalAmount (assets : List AssetAmount) : ℤ := (assets.map (·.amount)).sum

/-- What the three milestone transitions check first: the caller is the arbiter,
the schedule exists and is not cancelled, and `index` is on it. -/
def loadMilestone (caller : Address) (id index : ℕ) :
    Result (Escrow × MilestoneSet × ℕ × Milestone) := do
  requireAuth env caller
  let e ← intoMilestone (s.loadEscrow id)
  requireMilestone (e.arbiter = caller) .unauthorized
  let set ← okOrMilestone (s.milestones id) .notFound
  requireMilestone (set.cancelled = false) .invalidState
  let (i, m) ← okOrMilestone (findMilestone index set.milestones) .invalidMilestone
  pure (e, set, i, m)

def releaseMilestone (caller : Address) (id index : ℕ) : Result (State World) := do
  let (e, set, i, m) ← loadMilestone H env s caller id index
  requireMilestone (m.status ≠ .completed) .milestoneAlreadyCompleted
  requireMilestone (m.status ≠ .disputed) .invalidMilestone
  requireMilestone (e.state = .funded) .invalidState
  let totalAmount := totalAmount e.assets
  let unreleased := set.milestones.countP (·.status ≠ .completed)
  let product ← intoMilestone (checkedMul totalAmount m.releaseBps)
  let gross ← intoMilestone (checkedDiv product 10000)
  let remaining ← intoMilestone (checkedSub totalAmount set.releasedAmount)
  let payout := if unreleased = 1 then remaining else gross
  let primary ← Outcome.orFail e.assets.head? .trap
  let w ← H.transferOrTrap s.world primary.asset H.self e.recipient payout
  let releasedAmount ← intoMilestone (checkedAdd set.releasedAmount payout)
  let milestones := set.milestones.set i { m with status := .completed }
  let s := (s.recordPayout w [⟨id, primary.asset, e.recipient, payout⟩] id e.recipient
    payout).storeMilestones id { set with milestones, releasedAmount }
  if milestones.all (·.status = .completed) then
    pure (s.storeEscrow id { e with releasedAmount, state := .released })
  else
    pure s

def disputeMilestone (caller : Address) (id index : ℕ) : Result (State World) := do
  let (e, set, i, m) ← loadMilestone H env s caller id index
  requireMilestone (m.status ≠ .completed) .milestoneAlreadyCompleted
  requireMilestone (m.status ≠ .disputed) .invalidMilestone
  requireMilestone (e.state = .funded) .invalidState
  pure (s.storeMilestones id
    { set with milestones := set.milestones.set i { m with status := .disputed } })

def resolveMilestone (caller : Address) (id index : ℕ) : Result (State World) := do
  let (e, set, i, m) ← loadMilestone H env s caller id index
  requireMilestone (m.status ≠ .completed) .milestoneAlreadyCompleted
  requireMilestone (m.status ≠ .pending) .invalidMilestone
  requireMilestone (e.state = .funded) .invalidState
  pure (s.storeMilestones id
    { set with milestones := set.milestones.set i { m with status := .pending } })

/-- `cancel_milestones_inner`. -/
def cancelMilestonesInner (caller : Address) (id : ℕ) : Result (ℤ × State World) := do
  let e ← s.loadEscrow id
  require (e.sender = caller ∨ e.arbiter = caller) .unauthorized
  let set ← okOr (s.milestones id) .notFound
  require (set.cancelled = false) .alreadyExists
  require (e.state = .funded ∨ e.state = .expired) .invalidState
  let remaining ← checkedSub e.fundedAmount set.releasedAmount
  let milestones := set.milestones.map fun m =>
    if m.status = .pending then { m with status := .disputed } else m
  let (w, legs) ← returnRemaining H s id e remaining
  let s := s.storeMilestones id { set with milestones, cancelled := true }
  pure (remaining,
    (s.storeEscrow id { e with state := .refunded }).recordPayout w legs id e.sender remaining)

def cancelRemainingMilestones (caller : Address) (id : ℕ) : Result (ℤ × State World) := do
  requireAuth env caller
  cancelMilestonesInner H s caller id

/-- The vesting gate of `cancel`: a scheduled escrow that has vested anything is
not cancelled. -/
def requireNothingVested (e : Escrow) (now : UInt64) : Result Unit :=
  if e.schedule.releaseType ≠ .none then do
    let vested ← calculateVestedAmount e.fundedAmount e.schedule now
    require (vested ≤ 0) .timeLockActive
  else
    .ok ()

def cancel (caller : Address) (id : ℕ) : Result (State World) := do
  requireAuth env caller
  if s.milestones id ≠ none then do
    let (_, s) ← cancelMilestonesInner H s caller id
    pure s
  else do
    let e ← s.loadEscrow id
    require (e.sender = caller ∨ e.arbiter = caller) .unauthorized
    require (e.state = .funded ∨ e.state = .created) .invalidState
    require (env.timestamp < e.deadline) .invalidState
    requireNothingVested e env.timestamp
    let remaining ← checkedSub e.fundedAmount e.releasedAmount
    let (w, legs) ← returnRemaining H s id e remaining
    pure ((s.storeEscrow id { e with state := .refunded }).recordPayout
      w legs id e.sender remaining)

end EscrowContract
end Astroid
