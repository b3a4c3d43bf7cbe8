import Astroid.Proposal.Contract
import Astroid.Shared.Deployment

/-!
# Runs of the proposal contract

Between two invocations the world may change in any way, except that nobody but the contract
takes tokens out of its custody.  The multisig is part of that world: its signers may change
at any time.
-/

namespace Astroid
namespace ProposalContract

/-- An invocation of the contract. -/
inductive Call where
  | initializeContract (timelock : UInt64) (multisig : Address)
  | create (proposer : Address) (org wallet policy : String) (approvers : List Address)
      (dependencies : List ℕ) (threshold : ℕ) (deposit : List AssetAmount)
      (expiresAt gracePeriod : UInt64)
  | approve (caller : Address) (id : ℕ)
  | reject (caller : Address) (id : ℕ)
  | cancel (caller : Address) (id : ℕ)
  | expire (id : ℕ)
  | execute (caller : Address) (id : ℕ)
  | fail (caller : Address) (id : ℕ)
  | close (caller : Address) (id : ℕ)
  | pruneExpired (id : ℕ)
  | cleanupExpired (id : ℕ)
  | pruneExpiredBatch (ids : List ℕ)
  | pruneExpiredRange (startId : UInt64) (limit : ℕ)
  | get (id : ℕ)
  | voteBars (id : ℕ)
  | state (id : ℕ)
  | isExpired (id : ℕ)
  | isExecuted (id : ℕ)
  | dependencies (id : ℕ)
  | dependenciesMet (id : ℕ)
  | canExecute (id : ℕ)
  | timelock
  | releaseAt (id : ℕ)
  | timelockStatus (id : ℕ)

variable {World : Type} (H : ProposalHost World)

/-- Run an entrypoint and keep the state it leaves. -/
def exec (env : Env H.self) (s : State World) : Call → Result (State World)
  | .initializeContract timelock multisig => initializeContract H s timelock multisig
  | .create proposer org wallet policy approvers dependencies threshold deposit expiresAt
      gracePeriod =>
      Prod.snd <$> create H env s proposer org wallet policy approvers dependencies threshold
        deposit expiresAt gracePeriod
  | .approve caller id => Prod.snd <$> approve H env s caller id
  | .reject caller id => reject H env s caller id
  | .cancel caller id => cancel H env s caller id
  | .expire id => expire H env s id
  | .execute caller id => execute H env s caller id
  | .fail caller id => fail H env s caller id
  | .close caller id => close H env s caller id
  | .pruneExpired id => pruneExpired H env s id
  | .cleanupExpired id => cleanupExpired H env s id
  | .pruneExpiredBatch ids => Prod.snd <$> pruneExpiredBatch H env s ids
  | .pruneExpiredRange startId limit => Prod.snd <$> pruneExpiredRange H env s startId limit
  | .get id => Prod.snd <$> get H env s id
  | .voteBars id => Prod.snd <$> voteBars H env s id
  | .state id => Prod.snd <$> stateView H env s id
  | .isExpired id => Prod.snd <$> isExpiredView H env s id
  | .isExecuted id => Prod.snd <$> isExecutedView H env s id
  | .dependencies id => Prod.snd <$> dependenciesView H env s id
  | .dependenciesMet id => Prod.snd <$> dependenciesMet H env s id
  | .canExecute id => Prod.snd <$> canExecute H env s id
  | .timelock => .ok s
  | .releaseAt id => (fun _ => s) <$> releaseAtView s id
  | .timelockStatus id => (fun _ => s) <$> timelockStatus H env s id

/-- A contract that was just deployed.  Its address may already hold tokens. -/
structure Fresh (s : State World) : Prop where
  proposalCount : s.proposalCount = none
  multisig : s.multisig = none
  timelock : s.timelock = none
  proposal : ∀ id, s.proposal id = none
  approval : ∀ id who, s.approval id who = false
  custody : ∀ asset, 0 ≤ H.custody s.world asset

/-- The proposal contract as deployed. -/
def deployment : Deployment H.self World (State World) Call where
  fresh := Fresh H
  exec := exec H
  outside w s s' :=
    (∀ asset, H.custody s.world asset ≤ H.custody w asset) ∧ s' = { s with world := w }

abbrev Inputs := Input H.self World Call

/-- The proposal contract as a machine. -/
abbrev machine : Machine (State World) (Inputs H) := (deployment H).machine

/-- The states the contract can be in. -/
abbrev Reachable (s : State World) : Prop := (machine H).Reachable s

/-! ## A reference deployment -/

/-- The proposal contract at `contract 0` over the reference ledger, with a multisig in which
accounts 1 to 3 sign with weight 1 each and two of them suffice. -/
def referenceHost : ProposalHost Ledger where
  toTokenHost := ledgerHost (.contract 0)
  getThreshold _ _ := some 2
  isSigner _ _ who := some (decide (who ∈ [Address.account 1, .account 2, .account 3]))
  getSignerWeight _ _ who :=
    some (if who ∈ [Address.account 1, .account 2, .account 3] then 1 else 0)

theorem referenceHost_exact : referenceHost.Exact := ledgerHost_exact (.contract 0)

/-- Account 1 holds 100 of the token `contract 7`. -/
def funds : Ledger := fun asset holder =>
  if asset = .contract 7 ∧ holder = .account 1 then 100 else 0

/-- A fresh contract. -/
def deployed : State Ledger where
  world := funds
  proposalCount := none
  multisig := none
  timelock := none
  proposal _ := none
  approval _ _ := false

theorem deployed_fresh : Fresh referenceHost deployed := by
  refine ⟨rfl, rfl, rfl, fun _ => rfl, fun _ _ => rfl, ?_⟩
  intro asset
  simp [TokenHost.custody, TokenHost.held, referenceHost, ledgerHost, deployed, funds]

/-- The state a list of calls leaves. -/
abbrev play : State Ledger → Script Call → State Ledger := (deployment referenceHost).play

/-- Account 1 proposes with a deposit of 100 of `contract 7`; it needs two approvals of three,
before time 1000. -/
def opening : Script Call :=
  [(signedBy 1 [], .initializeContract 0 (.contract 5)),
    (signedBy 2 [1], .create (.account 1) "org" "wallet" "policy"
      [.account 1, .account 2, .account 3] [] 2 [⟨.contract 7, 100⟩] 1000 0)]

end ProposalContract
end Astroid
