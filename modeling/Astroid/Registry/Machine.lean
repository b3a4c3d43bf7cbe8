import Astroid.Registry.Contract
import Astroid.Shared.Deployment

/-!
# Runs of the registry

The registry calls nobody, so between two invocations only time passes and code is uploaded.
After an upgrade of its own code the registry goes on with the rules of this file: a run is a
run of registries that share them.
-/

namespace Astroid
namespace RegistryContract

/-- An invocation of the contract. -/
inductive Call where
  | initializeContract (admin : Address)
  | registerOrg (caller : Address) (org : String) (owner : Address)
  | setOrgOwner (caller : Address) (org : String) (newOwner : Address)
  | registerModule (caller : Address) (org : String) (kind : ModuleKind) (address : Address)
  | deprecateModule (caller : Address) (org : String) (kind : ModuleKind)
  | reactivateModule (caller : Address) (org : String) (kind : ModuleKind)
  | removeModule (caller : Address) (org : String) (kind : ModuleKind)
  | grantRole (caller : Address) (org : String) (account : Address) (role : RegistryRole)
  | revokeRole (caller : Address) (org : String) (account : Address)
  | registerVersion (caller : Address) (kind : ModuleKind) (version : UInt32) (address : Address)
      (wasmHash : WasmHash)
  | proposeUpgrade (caller : Address) (org : String) (kind : ModuleKind) (version : UInt32)
      (wasmHash : WasmHash) (address : Address)
  | commitUpgrade (caller : Address) (kind : ModuleKind)
  | rejectUpgrade (caller : Address) (kind : ModuleKind)
  | upgradeModule (caller : Address) (org : String) (kind : ModuleKind) (targetVersion : UInt32)
  | registerModuleVersion (caller : Address) (org : String) (kind : ModuleKind) (version : UInt32)
  | setAdmin (caller newAdmin : Address)
  | addAdmin (caller newAdmin : Address)
  | removeAdmin (caller admin : Address)
  | setMultisig (caller multisig : Address)
  | removeMultisig (caller : Address)
  | freeze (caller : Address) (org : String)
  | unfreeze (caller : Address) (org : String)
  | addApprovedWasm (caller : Address) (kind : ModuleKind) (wasmHash : WasmHash)
  | removeApprovedWasm (caller : Address) (kind : ModuleKind) (wasmHash : WasmHash)
  | setUpgradeAuthority (caller admin registry : Address)
  | upgrade (caller : Address) (wasmHash : WasmHash)
  | lookup (org : String) (kind : ModuleKind)
  | verifyOwner (org : String) (owner : Address)
  | getModulesBatch (ids : List ModuleId)
  | getModuleVersion (org : String) (kind : ModuleKind)
  | getVersion (kind : ModuleKind) (version : UInt32)
  | getVersionWasm (kind : ModuleKind) (version : UInt32)
  | getLatest (kind : ModuleKind)
  | getVersionsBatch (ids : List VersionId)
  | verifyVersion (kind : ModuleKind) (version : UInt32) (wasmHash : WasmHash)
  | validateUpgrade (org : String) (kind : ModuleKind) (targetVersion : UInt32)
  | validateRegistryUpgrade (wasmHash : WasmHash)

variable {self : Address}

/-- Run an entrypoint and keep the state it leaves. -/
def exec (env : Env self) (s : State) : Call → Result State
  | .initializeContract admin => initializeContract s admin
  | .registerOrg caller org owner => registerOrg env s caller org owner
  | .setOrgOwner caller org newOwner => setOrgOwner env s caller org newOwner
  | .registerModule caller org kind address => registerModule env s caller org kind address
  | .deprecateModule caller org kind => deprecateModule env s caller org kind
  | .reactivateModule caller org kind => reactivateModule env s caller org kind
  | .removeModule caller org kind => removeModule env s caller org kind
  | .grantRole caller org account role => grantRole env s caller org account role
  | .revokeRole caller org account => revokeRole env s caller org account
  | .registerVersion caller kind version address wasmHash =>
      registerVersion env s caller kind version address wasmHash
  | .proposeUpgrade caller org kind version wasmHash address =>
      proposeUpgrade env s caller org kind version wasmHash address
  | .commitUpgrade caller kind => Prod.snd <$> commitUpgrade env s caller kind
  | .rejectUpgrade caller kind => rejectUpgrade env s caller kind
  | .upgradeModule caller org kind targetVersion =>
      Prod.snd <$> upgradeModule env s caller org kind targetVersion
  | .registerModuleVersion caller org kind version =>
      Prod.snd <$> registerModuleVersion env s caller org kind version
  | .setAdmin caller newAdmin => setAdmin env s caller newAdmin
  | .addAdmin caller newAdmin => addAdmin env s caller newAdmin
  | .removeAdmin caller admin => removeAdmin env s caller admin
  | .setMultisig caller multisig => setMultisig env s caller multisig
  | .removeMultisig caller => removeMultisig env s caller
  | .freeze caller org => freeze env s caller org
  | .unfreeze caller org => unfreeze env s caller org
  | .addApprovedWasm caller kind wasmHash => addApprovedWasm env s caller kind wasmHash
  | .removeApprovedWasm caller kind wasmHash => removeApprovedWasm env s caller kind wasmHash
  | .setUpgradeAuthority caller admin registry => setUpgradeAuthority env s caller admin registry
  | .upgrade caller wasmHash => upgrade env s caller wasmHash
  | .lookup org kind => (fun _ => s) <$> lookup s org kind
  | .verifyOwner org owner => (fun _ => s) <$> verifyOwner s org owner
  | .getModulesBatch ids => (fun _ => s) <$> getModulesBatch s ids
  | .getModuleVersion org kind => (fun _ => s) <$> getModuleVersion s org kind
  | .getVersion kind version => (fun _ => s) <$> getVersion s kind version
  | .getVersionWasm kind version => (fun _ => s) <$> getVersionWasm s kind version
  | .getLatest kind => (fun _ => s) <$> getLatest s kind
  | .getVersionsBatch ids => (fun _ => s) <$> getVersionsBatch s ids
  | .verifyVersion kind version wasmHash => (fun _ => s) <$> verifyVersion s kind version wasmHash
  | .validateUpgrade org kind targetVersion =>
      (fun _ => s) <$> validateUpgrade s org kind targetVersion
  | .validateRegistryUpgrade wasmHash => (fun _ => s) <$> validateRegistryUpgrade s wasmHash

/-- A contract that was just deployed: nothing is stored. -/
structure Fresh (s : State) : Prop where
  admin : s.admin = none
  admins : s.admins = none
  multisig : s.multisig = none
  org : ∀ org, s.org org = none
  moduleAddress : ∀ org kind, s.moduleAddress org kind = none
  moduleDeprecated : ∀ org kind, s.moduleDeprecated org kind = none
  moduleVersion : ∀ org kind, s.moduleVersion org kind = none
  orgRole : ∀ org account, s.orgRole org account = none
  version : ∀ kind version, s.version kind version = none
  versionRecord : ∀ kind version, s.versionRecord kind version = none
  latestVersion : ∀ kind, s.latestVersion kind = none
  frozen : s.frozen = none
  approvedWasm : ∀ kind wasmHash, s.approvedWasm kind wasmHash = none
  upgradeProposal : ∀ kind, s.upgradeProposal kind = none
  upgradeAuditLog : s.upgradeAuditLog = none
  registryVersion : s.registryVersion = none
  upgradeAuthority : s.upgradeAuthority = none
  wasm : s.wasm = none

/-- The registry as deployed; the world is the code on the ledger. -/
def deployment (self : Address) : Deployment self (WasmHash → Bool) State Call where
  fresh := Fresh
  exec := exec
  outside uploaded s s' := s' = { s with uploaded := uploaded }

abbrev Inputs (self : Address) := Input self (WasmHash → Bool) Call

/-- The registry as a machine. -/
abbrev machine (self : Address) : Machine State (Inputs self) := (deployment self).machine

/-- The states the registry can be in. -/
abbrev Reachable (self : Address) (s : State) : Prop := (machine self).Reachable s

/-! ## A reference deployment -/

/-- A fresh registry; all code is uploaded. -/
def deployed : State where
  admin := none
  admins := none
  multisig := none
  org _ := none
  moduleAddress _ _ := none
  moduleDeprecated _ _ := none
  moduleVersion _ _ := none
  orgRole _ _ := none
  version _ _ := none
  versionRecord _ _ := none
  latestVersion _ := none
  frozen := none
  approvedWasm _ _ := none
  upgradeProposal _ := none
  upgradeAuditLog := none
  registryVersion := none
  upgradeAuthority := none
  uploaded _ := true
  wasm := none

theorem deployed_fresh : Fresh deployed :=
  ⟨rfl, rfl, rfl, fun _ => rfl, fun _ _ => rfl, fun _ _ => rfl, fun _ _ => rfl, fun _ _ => rfl,
    fun _ _ => rfl, fun _ _ => rfl, fun _ => rfl, rfl, fun _ _ => rfl, fun _ => rfl, rfl, rfl, rfl,
    rfl⟩

/-- The state a list of calls leaves. -/
abbrev play : State → Script Call → State := (deployment (.contract 0)).play

/-- A hash for each byte. -/
def hashOf (byte : UInt8) : WasmHash := Vector.replicate 32 byte

/-- Account 1 administers the registry; account 2 owns the organization "org", in which account 3
may upgrade modules. -/
def opening : Script Call :=
  [(signedBy 1 [], .initializeContract (.account 1)),
    (signedBy 1 [1], .registerOrg (.account 1) "org" (.account 2)),
    (signedBy 1 [2], .grantRole (.account 2) "org" (.account 3) .moduleUpgrader)]

end RegistryContract
end Astroid
