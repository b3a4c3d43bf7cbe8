import Astroid.Registry.Machine

/-!
# What a successful call did

Every call that returned did one of a few things to the storage (`Effect`), with the guards it
passed.  The laws of the registry are read off these: which of them touch a table, and under
which guard.
-/

namespace Astroid
namespace RegistryContract

open Outcome Keyed

variable {here : Address} {env : Env here} {s s' : State} {call : Call} {caller : Address}
  {org : String} {kind : ModuleKind} {version : UInt32} {u : Unit}

/-! ## Guards that were passed -/

/-- `caller` signed and is an admin. -/
structure Administers (env : Env here) (s : State) (caller : Address) : Prop where
  auth : caller ∈ env.auths
  initialized : s.admin ≠ none
  admin : s.IsAdmin caller

/-- `caller` is the recorded owner of the organization, or an admin. -/
def State.Rules (s : State) (caller : Address) (org : String) : Prop :=
  s.org org = some caller ∨ s.IsAdmin caller

/-- `caller` signed and may manage the module, and the registry is not frozen. -/
structure Manages (env : Env here) (s : State) (caller : Address) (org : String)
    (kind : ModuleKind) : Prop where
  unfrozen : s.isFrozen = false
  auth : caller ∈ env.auths
  registered : s.org org ≠ none
  permitted : canManageModule s org caller kind = true

/-- A version that a module may move to. -/
structure Target (s : State) (org : String) (kind : ModuleKind) (version : UInt32)
    (current : Option Address) (plan : UpgradePlan) : Prop where
  nonzero : version ≠ 0
  forward : s.pin org kind < version
  record : s.readVersion kind version = some ⟨plan.address, .bound plan.hash⟩
  approved : s.isWasmApproved kind plan.hash = true
  contract : isContractAddress plan.address = true
  moves : current ≠ some plan.address
  fromVersion : plan.fromVersion = s.pin org kind
  toVersion : plan.toVersion = version

theorem requireAdmin_eq_ok : requireAdmin env s caller = .ok u ↔ Administers env s caller := by
  simp only [requireAdmin, bind_eq_ok, requireAuth_eq_ok, require_eq_ok]
  constructor
  · rintro ⟨_, hauth, _, hinitialized, hadmin⟩
    exact ⟨hauth, hinitialized, hadmin⟩
  · rintro ⟨hauth, hinitialized, hadmin⟩
    exact ⟨(), hauth, (), hinitialized, hadmin⟩

theorem requireRootOwner_eq_ok {owner : Address} : requireRootOwner s caller org = .ok owner ↔
    s.org org = some owner ∧ s.Rules caller org := by
  simp only [requireRootOwner, bind_eq_ok, okOr_eq_ok, require_eq_ok, pure_eq_ok, State.Rules]
  constructor
  · rintro ⟨_, howner, _, hrules, rfl⟩
    rw [howner, Option.some.injEq, Option.some.injEq]
    exact ⟨rfl, hrules⟩
  · rintro ⟨howner, hrules⟩
    rw [howner, Option.some.injEq] at hrules
    exact ⟨owner, howner, (), hrules, rfl⟩

/-- **The guard of the module entrypoints asks what `can_manage_module` answers.** -/
theorem requireModulePermission_eq_ok : requireModulePermission s caller org kind = .ok u ↔
    s.org org ≠ none ∧ canManageModule s org caller kind = true := by
  simp only [requireModulePermission, bind_eq_ok, require_eq_ok, canManageModule]
  by_cases hadmin : s.IsAdmin caller
  · simp [hadmin]
  · cases hrole : s.effectiveRole org caller with
    | none => simp [hadmin]
    | some role => simp [hadmin]

theorem resolveUpgradeTarget_eq_ok {current : Option Address} {plan : UpgradePlan} :
    resolveUpgradeTarget s org kind version current = .ok plan ↔
      Target s org kind version current plan := by
  simp only [resolveUpgradeTarget, bind_eq_ok, require_eq_ok, okOr_eq_ok]
  constructor
  · rintro ⟨_, hnonzero, _, hforward, ⟨address, bound⟩, hrecord, h⟩
    cases bound with
    | unbound => cases h
    | bound hash =>
        simp only [bind_eq_ok, require_eq_ok, pure_eq_ok] at h
        obtain ⟨_, happroved, _, hcontract, _, hmoves, rfl⟩ := h
        exact ⟨hnonzero, hforward, hrecord, happroved, hcontract, hmoves, rfl, rfl⟩
  · rintro ⟨hnonzero, hforward, hrecord, happroved, hcontract, hmoves, hfrom, hto⟩
    refine ⟨(), hnonzero, (), hforward, _, hrecord, ?_⟩
    simp only [bind_eq_ok, require_eq_ok, pure_eq_ok]
    refine ⟨(), happroved, (), hcontract, (), hmoves, ?_⟩
    rw [← hfrom, ← hto]

/-! ## Effects -/

/-- The module a call repoints without a version, or removes. -/
def Call.resets : Call → Option (String × ModuleKind)
  | .registerModule _ org kind _ | .removeModule _ org kind => some (org, kind)
  | _ => none

/-- The module a call moves to a version, and the version. -/
def Call.moves : Call → Option ((String × ModuleKind) × UInt32)
  | .upgradeModule _ org kind version | .registerModuleVersion _ org kind version =>
      some ((org, kind), version)
  | _ => none

/-- What a call that returned did. -/
inductive Effect (env : Env here) (s : State) (call : Call) : State → Prop
  | quiet : Effect env s call s
  | initialized (admin : Address) : s.admin = none →
      Effect env s call { s with admin := some admin, admins := some [admin] }
  | governed (caller admin : Address) (admins : Option (List Address)) (multisig : Option Address)
      (approvedWasm : ModuleKind → WasmHash → Option Bool) : Administers env s caller →
      Effect env s call { s with
        admin := some admin
        admins := admins
        multisig := multisig
        approvedWasm := approvedWasm }
  | registered (caller : Address) (org : String) (owner : Address) : s.isFrozen = false →
      Administers env s caller → s.org org = none →
      Effect env s call { s with org := Function.update s.org org (some owner) }
  | transferred (caller : Address) (org : String) (owner : Address) : s.isFrozen = false →
      caller ∈ env.auths → s.org org ≠ none → s.Rules caller org →
      Effect env s call { s with org := Function.update s.org org (some owner) }
  | granted (caller : Address) (org : String) (account : Address) (role : RegistryRole) :
      s.isFrozen = false → caller ∈ env.auths → s.org org ≠ none → s.org org ≠ some account →
      s.Rules caller org →
      Effect env s call { s with orgRole := writeAt s.orgRole org account (some role) }
  | revoked (caller : Address) (org : String) (account : Address) :
      call = .revokeRole caller org account → caller ∈ env.auths → s.org org ≠ none →
      s.Rules caller org →
      Effect env s call { s with orgRole := writeAt s.orgRole org account none }
  | routed (caller : Address) (org : String) (kind : ModuleKind) (address : Option Address) :
      call.resets = some (org, kind) → Manages env s caller org kind →
      Effect env s call (s.routeModule org kind address)
  | flagged (caller : Address) (org : String) (kind : ModuleKind) (deprecated : Bool) :
      s.isFrozen = false → Administers env s caller →
      Effect env s call { s with
        moduleDeprecated := writeAt s.moduleDeprecated org kind (some deprecated) }
  | moved (caller : Address) (org : String) (kind : ModuleKind) (version : UInt32)
      (plan : UpgradePlan) : call.moves = some ((org, kind), version) →
      Manages env s caller org kind →
      Target s org kind version (s.moduleAddress org kind) plan →
      Effect env s call (s.moveModule org kind plan)
  | published (caller : Address) (kind : ModuleKind) (version : UInt32) (address : Address)
      (wasmHash : WasmHash) : call = .registerVersion caller kind version address wasmHash →
      s.isFrozen = false → Administers env s caller → version ≠ 0 →
      s.readVersion kind version = none → s.isWasmApproved kind wasmHash = true →
      Effect env s call { s with
        versionRecord := writeAt s.versionRecord kind version (some ⟨address, .bound wasmHash⟩)
        latestVersion :=
          if s.latest kind < version then Function.update s.latestVersion kind (some version)
          else s.latestVersion }
  | proposed (caller : Address) (kind : ModuleKind) (proposal : UpgradeProposal)
      (log : Option (List UpgradeAuditRecord)) : s.isFrozen = false → caller ∈ env.auths →
      s.latest kind < proposal.version → s.upgradeProposal kind = none →
      Effect env s call { s with
        upgradeProposal := Function.update s.upgradeProposal kind (some proposal)
        upgradeAuditLog := log }
  | committed (caller : Address) (kind : ModuleKind) (proposal : UpgradeProposal)
      (log : Option (List UpgradeAuditRecord)) : call = .commitUpgrade caller kind →
      s.isFrozen = false → Administers env s caller → s.upgradeProposal kind = some proposal →
      s.latest kind < proposal.version →
      Effect env s call { s with
        version := writeAt s.version kind proposal.version (some proposal.address)
        latestVersion := Function.update s.latestVersion kind (some proposal.version)
        approvedWasm := writeAt s.approvedWasm kind proposal.wasmHash (some true)
        upgradeProposal := Function.update s.upgradeProposal kind none
        upgradeAuditLog := log }
  | rejected (caller : Address) (kind : ModuleKind) (log : Option (List UpgradeAuditRecord)) :
      s.isFrozen = false → caller ∈ env.auths →
      Effect env s call { s with
        upgradeProposal := Function.update s.upgradeProposal kind none
        upgradeAuditLog := log }
  | froze (caller : Address) (org : String) (frozen : Bool) :
      (frozen = true ∨ call = .unfreeze caller org) → caller ∈ env.auths → s.org org ≠ none →
      s.Rules caller org → Effect env s call { s with frozen := some frozen }
  | entrusted (caller admin registry : Address) : caller ∈ env.auths →
      Effect env s call { s with upgradeAuthority := some ⟨admin, registry⟩ }
  | upgraded (caller : Address) (wasmHash : WasmHash) (plan : RegistryUpgradePlan) :
      call = .upgrade caller wasmHash → caller ∈ env.auths →
      s.isWasmApproved .organization wasmHash = true →
      planRegistryUpgrade s wasmHash = .ok plan →
      Effect env s call { s with wasm := some wasmHash, registryVersion := some plan.toVersion }

/-- The call edits who is in office. -/
def Call.Governs : Call → Prop
  | .initializeContract _ | .setAdmin _ _ | .addAdmin _ _ | .removeAdmin _ _ | .setMultisig _ _
  | .removeMultisig _ => True
  | _ => False

/-- Who is in office. -/
def State.offices (s : State) : Option Address × Option (List Address) × Option Address :=
  (s.admin, s.admins, s.multisig)

/-- A call that returned and left the offices as they are. -/
structure KeepsOffices (env : Env here) (s : State) (call : Call) (s' : State) : Prop where
  effect : Effect env s call s'
  offices : s'.offices = s.offices

/-! ## The entrypoints -/

section Entrypoints

theorem checkFrozen_eq_ok : checkFrozen s = .ok u ↔ s.isFrozen = false := require_eq_ok

theorem setAdmin_effect {newAdmin : Address} (h : setAdmin env s caller newAdmin = .ok s') :
    Effect env s call s' := by
  simp only [setAdmin, bind_eq_ok, requireAdmin_eq_ok, pure_eq_ok] at h
  obtain ⟨_, hadmin, rfl⟩ := h
  exact .governed caller _ _ _ _ hadmin

/-- An edit that keeps the primary admin. -/
theorem Effect.of_admin {admins : Option (List Address)} {multisig : Option Address}
    {approvedWasm : ModuleKind → WasmHash → Option Bool} (hadmin : Administers env s caller) :
    Effect env s call { s with
      admins := admins
      multisig := multisig
      approvedWasm := approvedWasm } := by
  obtain ⟨admin, hprimary⟩ := Option.ne_none_iff_exists'.1 hadmin.initialized
  have heffect : Effect env s call { s with
      admin := some admin
      admins := admins
      multisig := multisig
      approvedWasm := approvedWasm } := .governed caller admin _ _ _ hadmin
  rwa [← hprimary] at heffect

theorem addAdmin_effect {newAdmin : Address} (h : addAdmin env s caller newAdmin = .ok s') :
    Effect env s call s' := by
  simp only [addAdmin, bind_eq_ok, requireAdmin_eq_ok, pure_eq_ok] at h
  obtain ⟨_, hadmin, _, _, _, _, rfl⟩ := h
  exact .of_admin hadmin

theorem removeAdmin_effect {admin : Address} (h : removeAdmin env s caller admin = .ok s') :
    Effect env s call s' := by
  simp only [removeAdmin, bind_eq_ok, requireAdmin_eq_ok] at h
  obtain ⟨_, hadmin, _, _, _, _, h⟩ := h
  split at h
  · simp only [bind_eq_ok, pure_eq_ok] at h
    obtain ⟨next, _, rfl⟩ := h
    exact .governed caller next _ _ _ hadmin
  · cases h
    exact .of_admin hadmin

theorem setMultisig_effect {multisig : Address} (h : setMultisig env s caller multisig = .ok s') :
    Effect env s call s' := by
  simp only [setMultisig, bind_eq_ok, requireAdmin_eq_ok, pure_eq_ok] at h
  obtain ⟨_, hadmin, rfl⟩ := h
  exact .of_admin hadmin

theorem removeMultisig_effect (h : removeMultisig env s caller = .ok s') :
    Effect env s call s' := by
  simp only [removeMultisig, bind_eq_ok, requireAdmin_eq_ok, pure_eq_ok] at h
  obtain ⟨_, hadmin, _, _, rfl⟩ := h
  exact .of_admin hadmin

theorem addApprovedWasm_effect {wasmHash : WasmHash}
    (h : addApprovedWasm env s caller kind wasmHash = .ok s') : KeepsOffices env s call s' := by
  simp only [addApprovedWasm, bind_eq_ok, requireAdmin_eq_ok, pure_eq_ok] at h
  obtain ⟨_, hadmin, _, _, _, _, rfl⟩ := h
  exact ⟨.of_admin hadmin, rfl⟩

theorem removeApprovedWasm_effect {wasmHash : WasmHash}
    (h : removeApprovedWasm env s caller kind wasmHash = .ok s') : KeepsOffices env s call s' := by
  simp only [removeApprovedWasm, bind_eq_ok, requireAdmin_eq_ok, pure_eq_ok] at h
  obtain ⟨_, hadmin, _, _, rfl⟩ := h
  exact ⟨.of_admin hadmin, rfl⟩

theorem setFrozen_effect {frozen : Bool} (hcall : frozen = true ∨ call = .unfreeze caller org)
    (h : setFrozen env s caller org frozen = .ok s') : KeepsOffices env s call s' := by
  simp only [setFrozen, bind_eq_ok, requireAuth_eq_ok, okOr_eq_ok, require_eq_ok, pure_eq_ok] at h
  obtain ⟨_, hauth, owner, howner, _, hrules, rfl⟩ := h
  have hregistered : s.org org ≠ none := by simp [howner]
  have hruled : s.Rules caller org := by simpa [State.Rules, howner] using hrules
  exact ⟨.froze caller org frozen hcall hauth hregistered hruled, rfl⟩

theorem registerOrg_effect {owner : Address} (h : registerOrg env s caller org owner = .ok s') :
    KeepsOffices env s call s' := by
  simp only [registerOrg, bind_eq_ok, checkFrozen_eq_ok, requireAdmin_eq_ok, require_eq_ok,
    pure_eq_ok] at h
  obtain ⟨_, hunfrozen, _, _, _, hadmin, _, hnew, rfl⟩ := h
  exact ⟨.registered caller org owner hunfrozen hadmin hnew, rfl⟩

theorem setOrgOwner_effect {newOwner : Address}
    (h : setOrgOwner env s caller org newOwner = .ok s') : KeepsOffices env s call s' := by
  simp only [setOrgOwner, bind_eq_ok, checkFrozen_eq_ok, requireAuth_eq_ok, okOr_eq_ok,
    require_eq_ok, pure_eq_ok] at h
  obtain ⟨_, hunfrozen, _, hauth, current, hcurrent, _, hrules, rfl⟩ := h
  have hregistered : s.org org ≠ none := by simp [hcurrent]
  have hruled : s.Rules caller org := by
    rw [State.Rules, hcurrent, Option.some.injEq, eq_comm]
    exact hrules
  exact ⟨.transferred caller org newOwner hunfrozen hauth hregistered hruled, rfl⟩

theorem grantRole_effect {account : Address} {role : RegistryRole}
    (h : grantRole env s caller org account role = .ok s') : KeepsOffices env s call s' := by
  simp only [grantRole, bind_eq_ok, checkFrozen_eq_ok, requireAuth_eq_ok, requireRootOwner_eq_ok,
    require_eq_ok, pure_eq_ok] at h
  obtain ⟨_, hunfrozen, _, hauth, owner, ⟨howner, hrules⟩, _, hother, rfl⟩ := h
  have hregistered : s.org org ≠ none := by simp [howner]
  have hnot : s.org org ≠ some account := by
    rw [howner, Ne, Option.some.injEq]
    exact fun heq => hother heq.symm
  exact ⟨.granted caller org account role hunfrozen hauth hregistered hnot hrules, rfl⟩

theorem revokeRole_effect {account : Address} (hcall : call = .revokeRole caller org account)
    (h : revokeRole env s caller org account = .ok s') : KeepsOffices env s call s' := by
  simp only [revokeRole, bind_eq_ok, requireAuth_eq_ok, requireRootOwner_eq_ok, require_eq_ok,
    pure_eq_ok] at h
  obtain ⟨_, hauth, owner, ⟨howner, hrules⟩, _, _, rfl⟩ := h
  have hregistered : s.org org ≠ none := by simp [howner]
  exact ⟨.revoked caller org account hcall hauth hregistered hrules, rfl⟩

/-- A call that repoints a module without a version, or removes it. -/
theorem resets_ok (hcall : call.resets = some (org, kind)) (h : exec env s call = .ok s') :
    ∃ caller address, Manages env s caller org kind ∧ s' = s.routeModule org kind address := by
  cases call with
  | registerModule caller _ _ address =>
      cases hcall
      simp only [exec, registerModule, bind_eq_ok, checkFrozen_eq_ok, requireAuth_eq_ok,
        requireModulePermission_eq_ok, pure_eq_ok] at h
      obtain ⟨_, hunfrozen, _, hauth, _, ⟨hregistered, hpermitted⟩, rfl⟩ := h
      exact ⟨caller, some address, ⟨hunfrozen, hauth, hregistered, hpermitted⟩, rfl⟩
  | removeModule caller =>
      cases hcall
      simp only [exec, removeModule, bind_eq_ok, checkFrozen_eq_ok, requireAuth_eq_ok,
        requireModulePermission_eq_ok, pure_eq_ok] at h
      obtain ⟨_, hunfrozen, _, hauth, _, ⟨hregistered, hpermitted⟩, _, _, rfl⟩ := h
      exact ⟨caller, none, ⟨hunfrozen, hauth, hregistered, hpermitted⟩, rfl⟩
  | _ => cases hcall

theorem flagModule_effect {deprecated : Bool}
    (h : flagModule env s caller org kind deprecated = .ok s') : KeepsOffices env s call s' := by
  simp only [flagModule, bind_eq_ok, checkFrozen_eq_ok, requireAdmin_eq_ok, pure_eq_ok] at h
  obtain ⟨_, hunfrozen, _, hadmin, _, _, rfl⟩ := h
  exact ⟨.flagged caller org kind deprecated hunfrozen hadmin, rfl⟩

theorem readVersion_eq_none : s.readVersion kind version = none ↔
    s.versionRecord kind version = none ∧ s.version kind version = none := by
  unfold State.readVersion
  cases s.versionRecord kind version <;> simp

/-- `register_version` publishes a new record and raises the latest version to it. -/
theorem registerVersion_ok {address : Address} {wasmHash : WasmHash}
    (h : registerVersion env s caller kind version address wasmHash = .ok s') :
    s.isFrozen = false ∧ Administers env s caller ∧ version ≠ 0 ∧
      s.readVersion kind version = none ∧ s.isWasmApproved kind wasmHash = true ∧
      s' = { s with
        versionRecord := writeAt s.versionRecord kind version (some ⟨address, .bound wasmHash⟩)
        latestVersion :=
          if s.latest kind < version then Function.update s.latestVersion kind (some version)
          else s.latestVersion } := by
  simp only [registerVersion, bind_eq_ok, checkFrozen_eq_ok, requireAdmin_eq_ok,
    require_eq_ok] at h
  obtain ⟨_, hunfrozen, _, hadmin, _, hnonzero, _, hnew, _, happroved, h⟩ := h
  refine ⟨hunfrozen, hadmin, hnonzero, readVersion_eq_none.2 hnew, happroved, ?_⟩
  split at h
  · rename_i hnewer
    cases h
    rw [if_pos hnewer]
  · rename_i holder
    cases h
    rw [if_neg holder]

theorem proposeUpgrade_effect {address : Address} {wasmHash : WasmHash}
    (h : proposeUpgrade env s caller org kind version wasmHash address = .ok s') :
    KeepsOffices env s call s' := by
  simp only [proposeUpgrade, bind_eq_ok, checkFrozen_eq_ok, requireAuth_eq_ok, require_eq_ok,
    pure_eq_ok] at h
  obtain ⟨_, hunfrozen, _, _, _, hauth, _, _, _, _, _, _, _, hnewer, _, hnone, _, _, expiresAt, _,
    rfl⟩ := h
  exact ⟨.proposed caller kind _ _ hunfrozen hauth hnewer hnone, rfl⟩

/-- `commit_upgrade` publishes the pending proposal, without its hash. -/
theorem commitUpgrade_ok {answer : UInt32 × Address}
    (h : commitUpgrade env s caller kind = .ok (answer, s')) :
    ∃ proposal log, s.isFrozen = false ∧ Administers env s caller ∧
      s.upgradeProposal kind = some proposal ∧ s.latest kind < proposal.version ∧
      s' = { s with
        version := writeAt s.version kind proposal.version (some proposal.address)
        latestVersion := Function.update s.latestVersion kind (some proposal.version)
        approvedWasm := writeAt s.approvedWasm kind proposal.wasmHash (some true)
        upgradeProposal := Function.update s.upgradeProposal kind none
        upgradeAuditLog := log } := by
  simp only [commitUpgrade, bind_eq_ok, checkFrozen_eq_ok, requireAdmin_eq_ok, okOr_eq_ok,
    require_eq_ok, pure_eq_ok, Prod.mk.injEq] at h
  obtain ⟨_, hunfrozen, _, hadmin, proposal, hproposal, _, _, _, _, _, hnewer, _, rfl⟩ := h
  exact ⟨proposal, _, hunfrozen, hadmin, hproposal, hnewer, rfl⟩

theorem rejectUpgrade_effect (h : rejectUpgrade env s caller kind = .ok s') :
    KeepsOffices env s call s' := by
  simp only [rejectUpgrade, bind_eq_ok, checkFrozen_eq_ok, requireAuth_eq_ok, pure_eq_ok] at h
  obtain ⟨_, hunfrozen, _, hauth, proposal, _, _, _, rfl⟩ := h
  exact ⟨.rejected caller kind _ hunfrozen hauth, rfl⟩

theorem upgradeModule_ok {answer : UInt32}
    (h : upgradeModule env s caller org kind version = .ok (answer, s')) :
    ∃ plan, Manages env s caller org kind ∧
      Target s org kind version (s.moduleAddress org kind) plan ∧
      s' = s.moveModule org kind plan := by
  simp only [upgradeModule, planUpgrade, bind_eq_ok, checkFrozen_eq_ok, requireAuth_eq_ok,
    requireModulePermission_eq_ok, okOr_eq_ok, resolveUpgradeTarget_eq_ok, pure_eq_ok,
    Prod.mk.injEq] at h
  obtain ⟨_, hunfrozen, _, _, _, hauth, _, ⟨hregistered, hpermitted⟩, plan, ⟨current, hcurrent,
    htarget⟩, _, rfl⟩ := h
  exact ⟨plan, ⟨hunfrozen, hauth, hregistered, hpermitted⟩, hcurrent ▸ htarget, rfl⟩

theorem registerModuleVersion_ok {answer : UInt32}
    (h : registerModuleVersion env s caller org kind version = .ok (answer, s')) :
    ∃ plan, Manages env s caller org kind ∧
      Target s org kind version (s.moduleAddress org kind) plan ∧
      s' = s.moveModule org kind plan := by
  simp only [registerModuleVersion, bind_eq_ok, checkFrozen_eq_ok, requireAuth_eq_ok,
    requireModulePermission_eq_ok, resolveUpgradeTarget_eq_ok, pure_eq_ok, Prod.mk.injEq] at h
  obtain ⟨_, hunfrozen, _, _, _, hauth, _, ⟨hregistered, hpermitted⟩, plan, htarget, _, rfl⟩ := h
  exact ⟨plan, ⟨hunfrozen, hauth, hregistered, hpermitted⟩, htarget, rfl⟩

/-- A call that moves a module to a version took a plan for it. -/
theorem moves_ok (hcall : call.moves = some ((org, kind), version))
    (h : exec env s call = .ok s') : ∃ caller plan, Manages env s caller org kind ∧
      Target s org kind version (s.moduleAddress org kind) plan ∧
      s' = s.moveModule org kind plan := by
  cases call with
  | upgradeModule caller =>
      cases hcall
      obtain ⟨_, h⟩ := snd_map_ok h
      exact ⟨caller, upgradeModule_ok h⟩
  | registerModuleVersion caller =>
      cases hcall
      obtain ⟨_, h⟩ := snd_map_ok h
      exact ⟨caller, registerModuleVersion_ok h⟩
  | _ => cases hcall

theorem setUpgradeAuthority_effect {admin registry : Address}
    (h : setUpgradeAuthority env s caller admin registry = .ok s') : KeepsOffices env s call s' := by
  simp only [setUpgradeAuthority, bind_eq_ok, requireAuth_eq_ok, pure_eq_ok] at h
  obtain ⟨_, _, _, hauth, _, _, rfl⟩ := h
  exact ⟨.entrusted caller admin registry hauth, rfl⟩

/-- `upgrade` installs the code and records the version it resolved to. -/
theorem upgrade_ok {wasmHash : WasmHash} (h : upgrade env s caller wasmHash = .ok s') :
    ∃ plan, caller ∈ env.auths ∧ s.isWasmApproved .organization wasmHash = true ∧
      planRegistryUpgrade s wasmHash = .ok plan ∧
      s' = { s with wasm := some wasmHash, registryVersion := some plan.toVersion } := by
  simp only [upgrade, applyUpgrade, bind_eq_ok, requireAuth_eq_ok, require_eq_ok, pure_eq_ok] at h
  obtain ⟨_, hauth, _, _, _, _, _, happroved, plan, hplan, _, ⟨_, _, rfl⟩, rfl⟩ := h
  exact ⟨plan, hauth, happroved, hplan, rfl⟩

/-- A view leaves the state as it is. -/
theorem view_effect {α : Type} {r : Result α} (h : (fun _ => s) <$> r = .ok s') :
    KeepsOffices env s call s' := by
  obtain ⟨_, _, rfl⟩ := map_ok h
  exact ⟨.quiet, rfl⟩

end Entrypoints

/-- **No other call changes who is in office.** -/
theorem exec_offices (hother : ¬ call.Governs) (h : exec env s call = .ok s') :
    KeepsOffices env s call s' := by
  cases call with
  | initializeContract | setAdmin | addAdmin | removeAdmin | setMultisig | removeMultisig =>
      exact absurd trivial hother
  | registerOrg => exact registerOrg_effect h
  | setOrgOwner => exact setOrgOwner_effect h
  | registerModule _ org kind | removeModule _ org kind =>
      obtain ⟨caller, address, hmanages, rfl⟩ := resets_ok rfl h
      exact ⟨.routed caller org kind address rfl hmanages, rfl⟩
  | deprecateModule => exact flagModule_effect h
  | reactivateModule => exact flagModule_effect h
  | grantRole => exact grantRole_effect h
  | revokeRole => exact revokeRole_effect rfl h
  | registerVersion caller kind version address wasmHash =>
      obtain ⟨hunfrozen, hadmin, hnonzero, hnew, happroved, rfl⟩ := registerVersion_ok h
      exact ⟨.published caller kind version address wasmHash rfl hunfrozen hadmin hnonzero hnew
        happroved, rfl⟩
  | proposeUpgrade => exact proposeUpgrade_effect h
  | commitUpgrade caller kind =>
      obtain ⟨_, h⟩ := snd_map_ok h
      obtain ⟨proposal, log, hunfrozen, hadmin, hproposal, hnewer, rfl⟩ := commitUpgrade_ok h
      exact ⟨.committed caller kind proposal log rfl hunfrozen hadmin hproposal hnewer, rfl⟩
  | rejectUpgrade => exact rejectUpgrade_effect h
  | upgradeModule _ org kind version | registerModuleVersion _ org kind version =>
      obtain ⟨caller, plan, hmanages, htarget, rfl⟩ := moves_ok rfl h
      exact ⟨.moved caller org kind version plan rfl hmanages htarget, rfl⟩
  | freeze => exact setFrozen_effect (.inl rfl) h
  | unfreeze => exact setFrozen_effect (.inr rfl) h
  | addApprovedWasm => exact addApprovedWasm_effect h
  | removeApprovedWasm => exact removeApprovedWasm_effect h
  | setUpgradeAuthority => exact setUpgradeAuthority_effect h
  | upgrade caller wasmHash =>
      obtain ⟨plan, hauth, happroved, hplan, rfl⟩ := upgrade_ok h
      exact ⟨.upgraded caller wasmHash plan rfl hauth happroved hplan, rfl⟩
  | lookup | verifyOwner | getModulesBatch | getModuleVersion | getVersion | getVersionWasm
  | getLatest | getVersionsBatch | verifyVersion | validateUpgrade | validateRegistryUpgrade =>
      exact view_effect h

/-- **Every call that returned did one of these things.** -/
theorem exec_effect (h : exec env s call = .ok s') : Effect env s call s' := by
  by_cases hgoverns : call.Governs
  · cases call with
    | initializeContract admin =>
        simp only [exec, initializeContract, bind_eq_ok, require_eq_ok, pure_eq_ok] at h
        obtain ⟨_, hnew, rfl⟩ := h
        exact .initialized admin hnew
    | setAdmin => exact setAdmin_effect h
    | addAdmin => exact addAdmin_effect h
    | removeAdmin => exact removeAdmin_effect h
    | setMultisig => exact setMultisig_effect h
    | removeMultisig => exact removeMultisig_effect h
    | _ => exact hgoverns.elim
  · exact (exec_offices hgoverns h).effect

end RegistryContract
end Astroid
