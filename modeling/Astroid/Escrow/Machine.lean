import Astroid.Escrow.Contract
import Astroid.Shared.Deployment

/-!
# Runs of the escrow contract

Between two invocations the world may change in any way, except that nobody but
the contract takes tokens out of its custody.
-/

namespace Astroid
namespace EscrowContract

/-- The entrypoints that write, with their arguments. -/
inductive Call where
  | initializeContract (admin : Address)
  | approveToken (caller token : Address)
  | revokeToken (caller token : Address)
  | create (sender recipient arbiter : Address) (assets : List AssetAmount)
      (deadline gracePeriod : UInt64) (releaseSigners : List (BytesN 32)) (releaseThreshold : ℕ)
  | createWithRefundWindow (sender recipient arbiter : Address) (assets : List AssetAmount)
      (deadline gracePeriod refundWindow : UInt64) (releaseSigners : List (BytesN 32))
      (releaseThreshold : ℕ)
  | createWithReleaseCondition (config : ReleaseConditionConfig)
  | approveRelease (caller : Address) (id : ℕ)
  | createTimelock (sender recipient arbiter : Address) (assets : List AssetAmount)
      (unlockTime : UInt64)
  | createScheduled (sender recipient arbiter : Address) (assets : List AssetAmount)
      (schedule : ReleaseSchedule) (deadline : UInt64)
  | initializeTimelock (sender recipient arbiter : Address) (assets : List AssetAmount)
      (unlockTime gracePeriod : UInt64)
  | fund (sender : Address) (id : ℕ)
  | withdraw (caller : Address) (id : ℕ) (amount : ℤ)
  | claim (caller : Address) (id : ℕ)
  | release (arbiter : Address) (id : ℕ) (releaseAmount : ℤ)
  | overrideRelease (id : ℕ) (nonce : UInt64) (signatures : List OverrideSignature)
  | expire (id : ℕ)
  | refund (caller : Address) (id : ℕ)
  | refundTimelock (caller : Address) (id : ℕ)
  | cancel (caller : Address) (id : ℕ)
  | reclaim (caller : Address) (id : ℕ)
  | close (caller : Address) (id : ℕ)
  | depositWithMilestones (sender recipient arbiter asset : Address) (amount : ℤ)
      (deadline : UInt64) (milestones : List ℕ)
  | releaseMilestone (caller : Address) (id index : ℕ)
  | disputeMilestone (caller : Address) (id index : ℕ)
  | resolveMilestone (caller : Address) (id index : ℕ)
  | cancelRemainingMilestones (caller : Address) (id : ℕ)

variable {World : Type} (H : EscrowHost World)

/-- Run an entrypoint and keep the state it leaves. -/
def exec (env : Env H.self) (s : State World) : Call → Result (State World)
  | .initializeContract admin => initializeContract s admin
  | .approveToken caller token => approveToken H env s caller token
  | .revokeToken caller token => revokeToken H env s caller token
  | .create sender recipient arbiter assets deadline gracePeriod releaseSigners releaseThreshold =>
      Prod.snd <$> create H env s sender recipient arbiter assets deadline gracePeriod
        releaseSigners releaseThreshold
  | .createWithRefundWindow sender recipient arbiter assets deadline gracePeriod refundWindow
      releaseSigners releaseThreshold =>
      Prod.snd <$> createWithRefundWindow H env s sender recipient arbiter assets deadline
        gracePeriod refundWindow releaseSigners releaseThreshold
  | .createWithReleaseCondition config => Prod.snd <$> createWithReleaseCondition H env s config
  | .approveRelease caller id => Prod.snd <$> approveRelease H env s caller id
  | .createTimelock sender recipient arbiter assets unlockTime =>
      Prod.snd <$> createTimelock H env s sender recipient arbiter assets unlockTime
  | .createScheduled sender recipient arbiter assets schedule deadline =>
      Prod.snd <$> createScheduled H env s sender recipient arbiter assets schedule deadline
  | .initializeTimelock sender recipient arbiter assets unlockTime gracePeriod =>
      Prod.snd <$> initializeTimelock H env s sender recipient arbiter assets unlockTime gracePeriod
  | .fund sender id => fund H env s sender id
  | .withdraw caller id amount => Prod.snd <$> withdraw H env s caller id amount
  | .claim caller id => Prod.snd <$> claim H env s caller id
  | .release arbiter id releaseAmount => release H env s arbiter id releaseAmount
  | .overrideRelease id nonce signatures => overrideRelease H env s id nonce signatures
  | .expire id => expire H env s id
  | .refund caller id => refund H env s caller id
  | .refundTimelock caller id => refundTimelock H env s caller id
  | .cancel caller id => cancel H env s caller id
  | .reclaim caller id => reclaim H env s caller id
  | .close caller id => close H env s caller id
  | .depositWithMilestones sender recipient arbiter asset amount deadline milestones =>
      Prod.snd <$> depositWithMilestones H env s sender recipient arbiter asset amount deadline
        milestones
  | .releaseMilestone caller id index => releaseMilestone H env s caller id index
  | .disputeMilestone caller id index => disputeMilestone H env s caller id index
  | .resolveMilestone caller id index => resolveMilestone H env s caller id index
  | .cancelRemainingMilestones caller id =>
      Prod.snd <$> cancelRemainingMilestones H env s caller id

/-- A freshly deployed contract.  Its address may already hold tokens. -/
structure Fresh (s : State World) : Prop where
  count : s.count = none
  admin : s.admin = none
  escrow : ∀ id, s.escrow id = none
  milestones : ∀ id, s.milestones id = none
  approvedToken : ∀ a, s.approvedToken a = false
  approvedTokenList : s.approvedTokenList = []
  releaseCondition : ∀ id, s.releaseCondition id = none
  releaseApproval : ∀ id a, s.releaseApproval id a = false
  inflows : s.inflows = []
  outflows : s.outflows = []
  payouts : s.payouts = []
  custody : ∀ asset, 0 ≤ H.custody s.world asset

/-- The escrow contract as deployed. -/
def deployment : Deployment H.self World (State World) Call where
  fresh := Fresh H
  exec := exec H
  outside w s s' :=
    (∀ asset, H.custody s.world asset ≤ H.custody w asset) ∧ s' = { s with world := w }

abbrev Inputs := Input H.self World Call

/-- One step of a run. -/
abbrev Step : Inputs H → State World → State World → Prop := (deployment H).Step

/-- The escrow contract as a machine. -/
abbrev machine : Machine (State World) (Inputs H) := (deployment H).machine

/-- The states the contract can be in. -/
abbrev Reachable (s : State World) : Prop := (machine H).Reachable s

/-! ## A reference deployment -/

/-- The escrow contract at `contract 0` over the reference ledger.  No override
signature verifies. -/
def referenceHost : EscrowHost Ledger where
  toTokenHost := ledgerHost (.contract 0)
  toXdr
    | .account n => 0 :: toBeBytes 32 n
    | .contract n => 1 :: toBeBytes 32 n
  networkId := 0
  sha256 _ := 0
  ed25519Verify _ _ _ := false

/-- A fresh contract over a ledger. -/
def deployed (l : Ledger) : State Ledger :=
  ⟨l, none, none, fun _ => none, fun _ => none, fun _ => false, [], fun _ => none,
    fun _ _ => false, [], [], []⟩

theorem deployed_fresh {l : Ledger} (h : ∀ asset, 0 ≤ l asset (.contract 0)) :
    Fresh referenceHost (deployed l) :=
  ⟨rfl, rfl, fun _ => rfl, fun _ => rfl, fun _ => rfl, rfl, fun _ => rfl, fun _ _ => rfl, rfl, rfl,
    rfl, h⟩

/-- Account 1 holds `amount` of the token `contract 7`. -/
def holding (amount : ℤ) : Ledger := fun asset holder =>
  if asset = .contract 7 ∧ holder = .account 1 then amount else 0

theorem holding_fresh (amount : ℤ) : Fresh referenceHost (deployed (holding amount)) := by
  apply deployed_fresh
  intro asset
  simp [holding]

/-- The state a list of calls leaves. -/
abbrev play : State Ledger → Script Call → State Ledger :=
  (deployment referenceHost).play

/-- Account 0 is the admin and approves the tokens `contract n`. -/
def opening (tokens : List ℕ) : Script Call :=
  (signedBy 0 [0], .initializeContract (.account 0)) ::
    tokens.map fun n => (signedBy 0 [0], .approveToken (.account 0) (.contract n))

end EscrowContract
end Astroid
