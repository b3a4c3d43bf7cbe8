import Astroid.Lib.Records
import Astroid.Registry.Record

/-!
# The registry contract

`registry/src/lib.rs`, entrypoint by entrypoint.  Storage is one field for each `DataKey`, the
upgrade authority, and what the ledger knows of code: which hashes were uploaded, and the
one the contract was last moved onto.
-/

namespace Astroid
namespace RegistryContract

open Keyed

structure State where
  admin : Option Address
  admins : Option (List Address)
  multisig : Option Address
  org : String → Option Address
  moduleAddress : String → ModuleKind → Option Address
  moduleDeprecated : String → ModuleKind → Option Bool
  moduleVersion : String → ModuleKind → Option UInt32
  orgRole : String → Address → Option RegistryRole
  version : ModuleKind → UInt32 → Option Address
  versionRecord : ModuleKind → UInt32 → Option VersionRecord
  latestVersion : ModuleKind → Option UInt32
  frozen : Option Bool
  approvedWasm : ModuleKind → WasmHash → Option Bool
  upgradeProposal : ModuleKind → Option UpgradeProposal
  upgradeAuditLog : Option (List UpgradeAuditRecord)
  registryVersion : Option UInt32
  upgradeAuthority : Option UpgradeAuthority
  uploaded : WasmHash → Bool
  wasm : Option WasmHash

/-! ## Storage -/

namespace State

variable (s : State)

/-- `read_version`: the consolidated record first, and then the legacy one. -/
def readVersion (kind : ModuleKind) (version : UInt32) : Option VersionRecord :=
  match s.versionRecord kind version with
  | some record => some record
  | none => (s.version kind version).map fun address => ⟨address, .unbound⟩

/-- `is_wasm_approved`. -/
def isWasmApproved (kind : ModuleKind) (wasmHash : WasmHash) : Bool :=
  (s.approvedWasm kind wasmHash).getD false

/-- The latest version of a kind, 0 when there is none. -/
def latest (kind : ModuleKind) : UInt32 := (s.latestVersion kind).getD 0

/-- The version a module is pinned to, 0 when it is not. -/
def pin (org : String) (kind : ModuleKind) : UInt32 := (s.moduleVersion org kind).getD 0

/-- `get_registry_version`. -/
def runningVersion : UInt32 := s.registryVersion.getD 0

/-- The registry is frozen. -/
def isFrozen : Bool := s.frozen.getD false

/-- `is_admin`. -/
def IsAdmin (who : Address) : Prop :=
  s.admin = some who ∨ who ∈ s.admins.getD [] ∨ s.multisig = some who

instance (who : Address) : Decidable (s.IsAdmin who) := inferInstanceAs (Decidable (_ ∨ _))

/-- `effective_role`: the recorded owner is an owner without a record. -/
def effectiveRole (org : String) (account : Address) : Option RegistryRole :=
  if s.org org = some account then some .owner else s.orgRole org account

/-- The admins as the entrypoints that edit them read them. -/
def loadAdmins : List Address := s.admins.getD s.admin.toList

/-- `append_audit`: newest first, the oldest entries dropped. -/
def appendAudit (action : UpgradeAction) (audit : UpgradeAudit) : State :=
  { s with
    upgradeAuditLog :=
      some ((⟨action, audit⟩ :: s.upgradeAuditLog.getD []).take maxUpgradeAuditEntries) }

end State

variable {self : Address} (env : Env self) (s : State)

/-! ## Guards -/

/-- `check_frozen`. -/
def checkFrozen : Result Unit := require (s.isFrozen = false) .registryFrozen

/-- `require_admin`. -/
def requireAdmin (caller : Address) : Result Unit := do
  requireAuth env caller
  require (s.admin ≠ none) .notInitialized
  require (s.IsAdmin caller) .unauthorized

/-- `require_root_owner`. -/
def requireRootOwner (caller : Address) (org : String) : Result Address := do
  let owner ← okOr (s.org org) .notFound
  require (owner = caller ∨ s.IsAdmin caller) .unauthorized
  pure owner

/-- `require_module_permission`. -/
def requireModulePermission (caller : Address) (org : String) (kind : ModuleKind) : Result Unit := do
  require (s.org org ≠ none) .notFound
  if s.IsAdmin caller then
    pure ()
  else
    match s.effectiveRole org caller with
    | some role => require (role.mayManage kind = true) .unauthorized
    | none => .error (.error .unauthorized)

/-! ## Administration -/

def initializeContract (admin : Address) : Result State := do
  require (s.admin = none) .alreadyInitialized
  pure { s with admin := some admin, admins := some [admin] }

/-- `set_admin`. -/
def setAdmin (caller newAdmin : Address) : Result State := do
  requireAdmin env s caller
  let kept := (s.admins.getD []).filter fun a => decide (s.admin ≠ some a ∧ a ≠ newAdmin)
  pure { s with admin := some newAdmin, admins := some (kept ++ [newAdmin]) }

/-- `add_admin`. -/
def addAdmin (caller newAdmin : Address) : Result State := do
  requireAdmin env s caller
  require (s.loadAdmins.length < maxApprovers) .invalidInput
  require (newAdmin ∉ s.loadAdmins) .alreadyExists
  pure { s with admins := some (s.loadAdmins ++ [newAdmin]) }

/-- `remove_admin`: the first admin that remains takes the place of a primary one. -/
def removeAdmin (caller admin : Address) : Result State := do
  requireAdmin env s caller
  require (admin ∈ s.loadAdmins) .notFound
  require (1 < s.loadAdmins.length) .invalidInput
  let kept := s.loadAdmins.filter fun a => decide (a ≠ admin)
  let s' := { s with admins := some kept }
  if s.admin = some admin then do
    let next ← Outcome.orFail kept.head? .trap
    pure { s' with admin := some next }
  else
    pure s'

/-- `set_multisig`. -/
def setMultisig (caller multisig : Address) : Result State := do
  requireAdmin env s caller
  pure { s with multisig := some multisig }

/-- `remove_multisig`. -/
def removeMultisig (caller : Address) : Result State := do
  requireAdmin env s caller
  require (s.multisig ≠ none) .notFound
  pure { s with multisig := none }

/-- `freeze` and `unfreeze`, by the owner of any organization or an admin. -/
def setFrozen (caller : Address) (org : String) (frozen : Bool) : Result State := do
  requireAuth env caller
  let owner ← okOr (s.org org) .notFound
  require (owner = caller ∨ s.IsAdmin caller) .unauthorized
  pure { s with frozen := some frozen }

/-- `freeze`. -/
def freeze (caller : Address) (org : String) : Result State := setFrozen env s caller org true

/-- `unfreeze`. -/
def unfreeze (caller : Address) (org : String) : Result State := setFrozen env s caller org false

/-! ## Organizations and roles -/

/-- `register_org`. -/
def registerOrg (caller : Address) (org : String) (owner : Address) : Result State := do
  checkFrozen s
  requireNonEmpty org
  requireAdmin env s caller
  require (s.org org = none) .alreadyExists
  pure { s with org := Function.update s.org org (some owner) }

/-- `set_org_owner`. -/
def setOrgOwner (caller : Address) (org : String) (newOwner : Address) : Result State := do
  checkFrozen s
  requireAuth env caller
  let current ← okOr (s.org org) .notFound
  require (caller = current ∨ s.IsAdmin caller) .unauthorized
  pure { s with org := Function.update s.org org (some newOwner) }

/-- `grant_role`. -/
def grantRole (caller : Address) (org : String) (account : Address) (role : RegistryRole) :
    Result State := do
  checkFrozen s
  requireAuth env caller
  let owner ← requireRootOwner s caller org
  require (account ≠ owner) .invalidInput
  pure { s with orgRole := writeAt s.orgRole org account (some role) }

/-- `revoke_role`: it does not ask whether the registry is frozen. -/
def revokeRole (caller : Address) (org : String) (account : Address) : Result State := do
  requireAuth env caller
  let _ ← requireRootOwner s caller org
  require (s.orgRole org account ≠ none) .notFound
  pure { s with orgRole := writeAt s.orgRole org account none }

/-- `can_manage_module`. -/
def canManageModule (org : String) (account : Address) (kind : ModuleKind) : Bool :=
  decide (s.IsAdmin account) || ((s.effectiveRole org account).map (·.mayManage kind)).getD false

/-! ## Modules -/

/-- A module is pointed at `address`, or removed; its flag and its pin go. -/
def State.routeModule (org : String) (kind : ModuleKind) (address : Option Address) : State :=
  { s with
    moduleAddress := writeAt s.moduleAddress org kind address
    moduleDeprecated := writeAt s.moduleDeprecated org kind none
    moduleVersion := writeAt s.moduleVersion org kind none }

/-- `register_module`. -/
def registerModule (caller : Address) (org : String) (kind : ModuleKind) (address : Address) :
    Result State := do
  checkFrozen s
  requireAuth env caller
  requireModulePermission s caller org kind
  pure (s.routeModule org kind (some address))

/-- `remove_module`. -/
def removeModule (caller : Address) (org : String) (kind : ModuleKind) : Result State := do
  checkFrozen s
  requireAuth env caller
  requireModulePermission s caller org kind
  require (s.moduleAddress org kind ≠ none) .notFound
  pure (s.routeModule org kind none)

/-- `deprecate_module` and `reactivate_module`. -/
def flagModule (caller : Address) (org : String) (kind : ModuleKind) (deprecated : Bool) :
    Result State := do
  checkFrozen s
  requireAdmin env s caller
  require (s.moduleAddress org kind ≠ none) .notFound
  pure { s with moduleDeprecated := writeAt s.moduleDeprecated org kind (some deprecated) }

/-- `deprecate_module`. -/
def deprecateModule (caller : Address) (org : String) (kind : ModuleKind) : Result State :=
  flagModule env s caller org kind true

/-- `reactivate_module`. -/
def reactivateModule (caller : Address) (org : String) (kind : ModuleKind) : Result State :=
  flagModule env s caller org kind false

/-- `read_module`. -/
def readModule (org : String) (kind : ModuleKind) : Option ModuleInfo :=
  (s.moduleAddress org kind).map fun address =>
    ⟨address, (s.moduleDeprecated org kind).getD false⟩

/-- `lookup`. -/
def lookup (org : String) (kind : ModuleKind) : Result Address := do
  checkFrozen s
  let info ← okOr (readModule s org kind) .notFound
  require (info.deprecated = false) .moduleDeprecated
  pure info.address

/-- `verify_owner`. -/
def verifyOwner (org : String) (owner : Address) : Result Bool := do
  checkFrozen s
  let recorded ← okOr (s.org org) .notFound
  pure (decide (recorded = owner))

/-- `get_modules_batch`. -/
def getModulesBatch (ids : List ModuleId) : Result (List (Option ModuleInfo)) := do
  require (ids.length ≤ maxRegistryBatch) .invalidInput
  checkFrozen s
  pure (ids.map fun id => readModule s id.org id.kind)

/-- `get_module_version`. -/
def getModuleVersion (org : String) (kind : ModuleKind) : Result UInt32 := do
  require (s.moduleAddress org kind ≠ none) .notFound
  pure (s.pin org kind)

/-! ## Approved code -/

/-- `add_approved_wasm`: while a proposal is pending, only its hash. -/
def addApprovedWasm (caller : Address) (kind : ModuleKind) (wasmHash : WasmHash) : Result State := do
  requireAdmin env s caller
  requireValidWasmHash wasmHash
  require (∀ pending ∈ s.upgradeProposal kind, pending.wasmHash = wasmHash) .invalidState
  pure { s with approvedWasm := writeAt s.approvedWasm kind wasmHash (some true) }

/-- `remove_approved_wasm`. -/
def removeApprovedWasm (caller : Address) (kind : ModuleKind) (wasmHash : WasmHash) :
    Result State := do
  requireAdmin env s caller
  require (s.approvedWasm kind wasmHash ≠ none) .notFound
  pure { s with approvedWasm := writeAt s.approvedWasm kind wasmHash none }

/-! ## Versions -/

/-- `register_version`. -/
def registerVersion (caller : Address) (kind : ModuleKind) (version : UInt32) (address : Address)
    (wasmHash : WasmHash) : Result State := do
  checkFrozen s
  requireAdmin env s caller
  require (version ≠ 0) .invalidInput
  require (s.versionRecord kind version = none ∧ s.version kind version = none) .alreadyExists
  require (s.isWasmApproved kind wasmHash = true) .unauthorized
  let s' := { s with
    versionRecord := writeAt s.versionRecord kind version (some ⟨address, .bound wasmHash⟩) }
  if s.latest kind < version then
    pure { s' with latestVersion := Function.update s.latestVersion kind (some version) }
  else
    pure s'

/-- `get_version`. -/
def getVersion (kind : ModuleKind) (version : UInt32) : Result Address := do
  let record ← okOr (s.readVersion kind version) .notFound
  pure record.address

/-- `get_version_wasm`. -/
def getVersionWasm (kind : ModuleKind) (version : UInt32) : Result WasmHash :=
  match (s.readVersion kind version).map VersionRecord.hash with
  | some (.bound hash) => .ok hash
  | _ => .error (.error .notFound)

/-- `get_latest`. -/
def getLatest (kind : ModuleKind) : Result Address := do
  let latest ← okOr (s.latestVersion kind) .notFound
  getVersion s kind latest

/-- `verify_version`. -/
def verifyVersion (kind : ModuleKind) (version : UInt32) (wasmHash : WasmHash) :
    Result Address := do
  let record ← okOr (s.readVersion kind version) .notFound
  require (record.hash = .bound wasmHash) .invalidInput
  require (s.isWasmApproved kind wasmHash = true) .unauthorized
  pure record.address

/-- `VersionLookupCache::get`: what was read once is not read again. -/
def cachedVersion (cache : List (VersionId × Option VersionRecord)) (id : VersionId) :
    Option VersionRecord × List (VersionId × Option VersionRecord) :=
  match cache.find? fun entry => decide (entry.1 = id) with
  | some entry => (entry.2, cache)
  | none =>
      let record := s.readVersion id.kind id.version
      (record, cache ++ [(id, record)])

/-- The loop of `get_versions_batch`. -/
def resolveVersions (cache : List (VersionId × Option VersionRecord)) :
    List VersionId → List (Option Address)
  | [] => []
  | id :: rest =>
      let (record, cache) := cachedVersion s cache id
      record.map VersionRecord.address :: resolveVersions cache rest

/-- `get_versions_batch`. -/
def getVersionsBatch (ids : List VersionId) : Result (List (Option Address)) := do
  require (ids.length ≤ maxRegistryBatch) .invalidInput
  pure (resolveVersions s [] ids)

/-! ## Upgrade proposals -/

/-- Who may propose: admins, and the owners and upgraders of an organization. -/
def requireProposer (caller : Address) (org : String) : Result Unit :=
  if s.IsAdmin caller then
    .ok ()
  else
    match s.effectiveRole org caller with
    | some .moduleUpgrader | some .owner => .ok ()
    | _ => do
        require (s.org org ≠ none) .notFound
        .error (.error .unauthorized)

/-- `propose_upgrade`. -/
def proposeUpgrade (caller : Address) (org : String) (kind : ModuleKind) (version : UInt32)
    (wasmHash : WasmHash) (address : Address) : Result State := do
  checkFrozen s
  requireNonEmpty org
  requireAuth env caller
  requireProposer s caller org
  require (version ≠ 0) .invalidInput
  requireValidWasmHash wasmHash
  require (s.latest kind < version) .invalidState
  require (s.upgradeProposal kind = none) .invalidState
  require (s.isWasmApproved kind wasmHash = false) .invalidInput
  let expiresAt ← addOrTrap env.timestamp upgradeProposalExpiry
  let proposal : UpgradeProposal := {
    version := version
    wasmHash := wasmHash
    address := address
    org := org
    proposer := caller
    expiresAt := expiresAt }
  let s' := { s with upgradeProposal := Function.update s.upgradeProposal kind (some proposal) }
  pure (s'.appendAudit .proposed ⟨kind, version, wasmHash, org, caller, env.timestamp⟩)

/-- `commit_upgrade`: the version goes to the legacy table. -/
def commitUpgrade (caller : Address) (kind : ModuleKind) : Result ((UInt32 × Address) × State) := do
  checkFrozen s
  requireAdmin env s caller
  let proposal ← okOr (s.upgradeProposal kind) .notFound
  require (¬ proposal.expiresAt < env.timestamp) .notFound
  requireValidWasmHash proposal.wasmHash
  require (s.latest kind < proposal.version) .invalidState
  let s' := { s with
    version := writeAt s.version kind proposal.version (some proposal.address)
    latestVersion := Function.update s.latestVersion kind (some proposal.version)
    approvedWasm := writeAt s.approvedWasm kind proposal.wasmHash (some true)
    upgradeProposal := Function.update s.upgradeProposal kind none }
  let audit : UpgradeAudit :=
    ⟨kind, proposal.version, proposal.wasmHash, proposal.org, caller, env.timestamp⟩
  pure ((proposal.version, proposal.address), s'.appendAudit .committed audit)

/-- `reject_upgrade`. -/
def rejectUpgrade (caller : Address) (kind : ModuleKind) : Result State := do
  checkFrozen s
  requireAuth env caller
  let proposal ← okOr (s.upgradeProposal kind) .notFound
  require (s.IsAdmin caller ∨ proposal.proposer = caller ∨ s.org proposal.org = some caller)
    .unauthorized
  let s' := { s with upgradeProposal := Function.update s.upgradeProposal kind none }
  let audit : UpgradeAudit :=
    ⟨kind, proposal.version, proposal.wasmHash, proposal.org, caller, env.timestamp⟩
  pure (s'.appendAudit .rejected audit)

/-! ## The upgrade path of a module -/

/-- `resolve_upgrade_target`. -/
def resolveUpgradeTarget (org : String) (kind : ModuleKind) (targetVersion : UInt32)
    (current : Option Address) : Result UpgradePlan := do
  require (targetVersion ≠ 0) .invalidInput
  require (s.pin org kind < targetVersion) .circularUpgrade
  let record ← okOr (s.readVersion kind targetVersion) .notFound
  match record.hash with
  | .unbound => .error (.error .invalidInput)
  | .bound hash => do
      require (s.isWasmApproved kind hash = true) .unauthorized
      require (isContractAddress record.address = true) .invalidInput
      require (current ≠ some record.address) .circularUpgrade
      pure ⟨s.pin org kind, targetVersion, record.address, hash⟩

/-- `plan_upgrade`. -/
def planUpgrade (org : String) (kind : ModuleKind) (targetVersion : UInt32) :
    Result UpgradePlan := do
  let current ← okOr (s.moduleAddress org kind) .notFound
  resolveUpgradeTarget s org kind targetVersion (some current)

/-- The writes of a validated upgrade. -/
def State.moveModule (org : String) (kind : ModuleKind) (plan : UpgradePlan) : State :=
  { s with
    moduleAddress := writeAt s.moduleAddress org kind (some plan.address)
    moduleVersion := writeAt s.moduleVersion org kind (some plan.toVersion)
    moduleDeprecated := writeAt s.moduleDeprecated org kind none }

/-- `upgrade_module`. -/
def upgradeModule (caller : Address) (org : String) (kind : ModuleKind) (targetVersion : UInt32) :
    Result (UInt32 × State) := do
  checkFrozen s
  requireNonEmpty org
  requireAuth env caller
  requireModulePermission s caller org kind
  let plan ← planUpgrade s org kind targetVersion
  pure (plan.toVersion, s.moveModule org kind plan)

/-- `register_module_version`. -/
def registerModuleVersion (caller : Address) (org : String) (kind : ModuleKind)
    (version : UInt32) : Result (UInt32 × State) := do
  checkFrozen s
  requireNonEmpty org
  requireAuth env caller
  requireModulePermission s caller org kind
  let plan ← resolveUpgradeTarget s org kind version (s.moduleAddress org kind)
  pure (plan.toVersion, s.moveModule org kind plan)

/-- `validate_upgrade`. -/
def validateUpgrade (org : String) (kind : ModuleKind) (targetVersion : UInt32) :
    Result Address := do
  checkFrozen s
  requireNonEmpty org
  let plan ← planUpgrade s org kind targetVersion
  pure plan.address

/-! ## The upgrade path of the registry -/

/-- The loop of `plan_registry_upgrade`: the newest version at or above `floor` that is bound
to the hash.  It gives up when `fuel` runs out, which it does not
(`scanVersions_spec`). -/
def scanVersions (wasmHash : WasmHash) (floor : UInt32) :
    ℕ → UInt32 → Result (Option (UInt32 × VersionRecord))
  | 0, _ => .error .trap
  | fuel + 1, version =>
      if floor ≤ version ∧ 0 < version then
        match s.readVersion .organization version with
        | some record =>
            if record.hash = .bound wasmHash then
              .ok (some (version, record))
            else do
              let next ← decrement version
              scanVersions wasmHash floor fuel next
        | none => do
            let next ← decrement version
            scanVersions wasmHash floor fuel next
      else
        .ok none

/-- How many times the loop is entered at most. -/
def scanFuel : ℕ := maxUpgradeScan.toNat + 1

/-- `plan_registry_upgrade`. -/
def planRegistryUpgrade (wasmHash : WasmHash) : Result RegistryUpgradePlan := do
  let latest := s.latest .organization
  require (latest ≠ 0) .notFound
  let floor := saturatingSub latest (maxUpgradeScan - 1)
  let found ← scanVersions s wasmHash floor scanFuel latest
  let (toVersion, record) ← okOr found .notFound
  require (s.runningVersion < toVersion) .circularUpgrade
  require (isContractAddress record.address = true) .invalidInput
  pure ⟨s.runningVersion, toVersion, wasmHash⟩

/-- `validate_registry_upgrade`. -/
def validateRegistryUpgrade (wasmHash : WasmHash) : Result UInt32 := do
  let plan ← planRegistryUpgrade s wasmHash
  pure plan.toVersion

/-- `set_upgrade_authority`. -/
def setUpgradeAuthority (caller admin registry : Address) : Result State := do
  require (s.upgradeAuthority ≠ none ∨ s.IsAdmin caller) .unauthorized
  requireAuth env caller
  require (∀ current ∈ s.upgradeAuthority, current.admin = caller) .unauthorized
  pure { s with upgradeAuthority := some ⟨admin, registry⟩ }

/-- `apply`: the host refuses code that was not uploaded. -/
def applyUpgrade (wasmHash : WasmHash) : Result State := do
  Outcome.ensure (s.uploaded wasmHash = true) .trap
  pure { s with wasm := some wasmHash }

/-- `upgrade`. -/
def upgrade (caller : Address) (wasmHash : WasmHash) : Result State := do
  requireAuth env caller
  let authority ← okOr s.upgradeAuthority .notInitialized
  require (authority.admin = caller ∨ s.IsAdmin caller) .unauthorized
  require (s.isWasmApproved .organization wasmHash = true) .unauthorized
  let plan ← planRegistryUpgrade s wasmHash
  let s' ← applyUpgrade s wasmHash
  pure { s' with registryVersion := some plan.toVersion }

end RegistryContract
end Astroid
