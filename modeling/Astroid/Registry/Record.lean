import Astroid.Shared.Host

/-!
# The registry's records

The stored types of `registry/src/lib.rs`, the authority of `interfaces/src/upgrade.rs` and
the audit record of `shared/src/events.rs`.  Versions are `u32`.
-/

namespace Astroid
namespace RegistryContract

/-- `BytesN<32>`: the hash of a WASM blob. -/
abbrev WasmHash := Vector UInt8 32

/-- `require_valid_wasm_hash`: the all-zero hash is no hash. -/
def requireValidWasmHash (wasmHash : WasmHash) : Result Unit :=
  require (wasmHash ≠ Vector.replicate 32 0) .invalidInput

/-! ## Roles -/

/-- `RegistryRole`. -/
inductive RegistryRole where
  | owner
  | policyManager
  | treasuryOperator
  | moduleUpgrader
  deriving DecidableEq, Repr

/-- `may_manage`. -/
def RegistryRole.mayManage : RegistryRole → ModuleKind → Bool
  | .owner, _ | .moduleUpgrader, _ => true
  | .policyManager, kind => decide (kind = .policy)
  | .treasuryOperator, kind => decide (kind = .treasury ∨ kind = .budget ∨ kind = .escrow)

/-! ## Versions -/

/-- `BoundHash`. -/
inductive BoundHash where
  | bound (hash : WasmHash)
  | unbound
  deriving DecidableEq

/-- `VersionRecord`. -/
structure VersionRecord where
  address : Address
  hash : BoundHash
  deriving DecidableEq

/-- `VersionId`. -/
structure VersionId where
  kind : ModuleKind
  version : UInt32
  deriving DecidableEq

/-- `ModuleId`. -/
structure ModuleId where
  org : String
  kind : ModuleKind
  deriving DecidableEq

/-- `ModuleInfo`. -/
structure ModuleInfo where
  address : Address
  deprecated : Bool
  deriving DecidableEq

/-- `is_contract_address`. -/
def isContractAddress : Address → Bool
  | .contract _ => true
  | .account _ => false

/-- `MAX_UPGRADE_SCAN`. -/
def maxUpgradeScan : UInt32 := 64

/-- `MAX_REGISTRY_BATCH`. -/
def maxRegistryBatch : ℕ := 10

/-- `u32::saturating_sub`. -/
def saturatingSub (a b : UInt32) : UInt32 := if b ≤ a then a - b else 0

/-- `version -= 1`, which panics at 0. -/
def decrement (version : UInt32) : Result UInt32 := do
  Outcome.ensure (version ≠ 0) .trap
  pure (version - 1)

/-! ## Upgrade proposals -/

/-- `UpgradeProposal`. -/
structure UpgradeProposal where
  version : UInt32
  wasmHash : WasmHash
  address : Address
  org : String
  proposer : Address
  expiresAt : UInt64
  deriving DecidableEq

/-- `UPGRADE_PROPOSAL_EXPIRY`. -/
def upgradeProposalExpiry : UInt64 := 604800

/-- `a + b` of two `u64`, which panics when it overflows. -/
def addOrTrap (a b : UInt64) : Result UInt64 := do
  Outcome.ensure (a.toNat + b.toNat < 2 ^ 64) .trap
  pure (a + b)

/-- `UpgradeAction`. -/
inductive UpgradeAction where
  | proposed
  | committed
  | rejected
  deriving DecidableEq, Repr

/-- `UpgradeAudit`. -/
structure UpgradeAudit where
  kind : ModuleKind
  version : UInt32
  wasmHash : WasmHash
  org : String
  actor : Address
  recordedAt : UInt64
  deriving DecidableEq

/-- `UpgradeAuditRecord`. -/
structure UpgradeAuditRecord where
  action : UpgradeAction
  audit : UpgradeAudit
  deriving DecidableEq

/-- `MAX_UPGRADE_AUDIT_ENTRIES`. -/
def maxUpgradeAuditEntries : ℕ := 32

/-- `UpgradeAuthority`. -/
structure UpgradeAuthority where
  admin : Address
  registry : Address
  deriving DecidableEq

/-- `UpgradePlan`. -/
structure UpgradePlan where
  fromVersion : UInt32
  toVersion : UInt32
  address : Address
  hash : WasmHash
  deriving DecidableEq

/-- `RegistryUpgradePlan`. -/
structure RegistryUpgradePlan where
  fromVersion : UInt32
  toVersion : UInt32
  wasmHash : WasmHash
  deriving DecidableEq

end RegistryContract
end Astroid
