import Astroid.Registry.Committed
import Astroid.Registry.Routing

/-!
# Previews and batches

A dry run of an upgrade asks exactly what the upgrade asks: it returns where the upgrade would
move the module, or fails with the same error, and the two entrypoints that upgrade a registered
module do the same (`upgrades_previewed`).  A batch answers, for each of its entries, what that
entry would have been answered alone (`batches_answer_singly`).
-/

namespace Astroid
namespace RegistryContract

open Outcome Keyed

variable {here : Address} {env : Env here} {s s' : State} {caller address : Address} {org : String}
  {kind : ModuleKind} {v w : UInt32} {wasmHash : WasmHash} {plan : UpgradePlan}

/-! ## Upgrades -/

/-- The caller signed and may manage the module. -/
structure MayUpgrade (env : Env here) (s : State) (caller : Address) (org : String)
    (kind : ModuleKind) : Prop where
  auth : caller ∈ env.auths
  registered : s.org org ≠ none
  permitted : canManageModule s org caller kind = true

/-- The module runs the version, at the address and for the code the version has on record, and
nothing else moved. -/
structure Runs (s s' : State) (org : String) (kind : ModuleKind) (v : UInt32) (address : Address)
    (wasmHash : WasmHash) : Prop where
  live : lookup s' org kind = .ok address
  pinned : getModuleVersion s' org kind = .ok v
  verified : verifyVersion s' kind v wasmHash = .ok address
  left : ∀ w, w ≠ 0 → w ≤ v → validateUpgrade s' org kind w = .error (.error .circularUpgrade)
  others : ∀ org' kind', (org', kind') ≠ (org, kind) →
    readModule s' org' kind' = readModule s org' kind' ∧ s'.pin org' kind' = s.pin org' kind'

/-- An entitled caller passes the guards of an upgrade. -/
theorem MayUpgrade.upgradeModule_eq (h : MayUpgrade env s caller org kind) :
    upgradeModule env s caller org kind v = (do
      checkFrozen s
      requireNonEmpty org
      let plan ← planUpgrade s org kind v
      pure (plan.toVersion, s.moveModule org kind plan)) := by
  have hauth : requireAuth env caller = .ok () := ensure_pos h.auth
  have hpermission : requireModulePermission s caller org kind = .ok () :=
    requireModulePermission_eq_ok.2 ⟨h.registered, h.permitted⟩
  unfold upgradeModule
  rw [hauth, hpermission]
  rfl

theorem MayUpgrade.registerModuleVersion_eq (h : MayUpgrade env s caller org kind) :
    registerModuleVersion env s caller org kind v = (do
      checkFrozen s
      requireNonEmpty org
      let plan ← resolveUpgradeTarget s org kind v (s.moduleAddress org kind)
      pure (plan.toVersion, s.moveModule org kind plan)) := by
  have hauth : requireAuth env caller = .ok () := ensure_pos h.auth
  have hpermission : requireModulePermission s caller org kind = .ok () :=
    requireModulePermission_eq_ok.2 ⟨h.registered, h.permitted⟩
  unfold registerModuleVersion
  rw [hauth, hpermission]
  rfl

theorem planUpgrade_eq_ok : planUpgrade s org kind v = .ok plan ↔
    ∃ current, s.moduleAddress org kind = some current ∧
      Target s org kind v (some current) plan := by
  simp only [planUpgrade, bind_eq_ok, okOr_eq_ok, resolveUpgradeTarget_eq_ok]

/-- **A dry run returns what the upgrade does**, or fails as it does. -/
theorem MayUpgrade.previewed (h : MayUpgrade env s caller org kind) :
    (fun r => (r.1, r.2.moduleAddress org kind)) <$> upgradeModule env s caller org kind v
      = (fun address => (v, some address)) <$> validateUpgrade s org kind v := by
  rw [h.upgradeModule_eq, validateUpgrade]
  cases checkFrozen s with
  | error f => rfl
  | ok _ =>
      cases requireNonEmpty org with
      | error f => rfl
      | ok _ =>
          cases hplan : planUpgrade s org kind v with
          | error f =>
              simp only [ok_bind]
              rfl
          | ok plan =>
              obtain ⟨_, _, htarget⟩ := planUpgrade_eq_ok.1 hplan
              have hmoved : (s.moveModule org kind plan).moduleAddress org kind = some plan.address :=
                writeAt_self
              simp only [ok_bind]
              show Except.ok (plan.toVersion, (s.moveModule org kind plan).moduleAddress org kind)
                = Except.ok (v, some plan.address)
              rw [hmoved, htarget.toVersion]

/-- The two entrypoints that upgrade a module do the same to a registered one. -/
theorem MayUpgrade.agree (h : MayUpgrade env s caller org kind)
    (hmodule : s.moduleAddress org kind ≠ none) :
    registerModuleVersion env s caller org kind v = upgradeModule env s caller org kind v := by
  obtain ⟨current, hcurrent⟩ := Option.ne_none_iff_exists'.1 hmodule
  rw [h.registerModuleVersion_eq, h.upgradeModule_eq]
  simp only [planUpgrade, hcurrent]
  rfl

/-- A version that a module has left, or that it runs, is refused. -/
theorem validateUpgrade_left {current : Address} (hunfrozen : s.isFrozen = false) (horg : org ≠ "")
    (hcurrent : s.moduleAddress org kind = some current) (hnonzero : w ≠ 0)
    (hleft : w ≤ s.pin org kind) :
    validateUpgrade s org kind w = .error (.error .circularUpgrade) := by
  have hopen : checkFrozen s = .ok () := checkFrozen_eq_ok.2 hunfrozen
  have hnamed : requireNonEmpty org = .ok () := require_pos horg
  have hversion : require (w ≠ 0) .invalidInput = .ok () := require_pos hnonzero
  have hpast : require (s.pin org kind < w) .circularUpgrade = .error (.error .circularUpgrade) :=
    require_neg (UInt32.not_lt.2 hleft)
  simp only [validateUpgrade, planUpgrade, resolveUpgradeTarget, hopen, hnamed, hcurrent, hversion,
    hpast, ok_bind, okOr, orFail]
  rfl

/-- **An upgraded module runs the version.** -/
theorem runs_of_target (hunfrozen : s.isFrozen = false) (horg : org ≠ "")
    (htarget : Target s org kind v (s.moduleAddress org kind) plan) :
    Runs s (s.moveModule org kind plan) org kind v plan.address plan.hash := by
  have haddress : (s.moveModule org kind plan).moduleAddress org kind = some plan.address :=
    writeAt_self
  have hpin : (s.moveModule org kind plan).pin org kind = v := by
    rw [State.pin, State.moveModule]
    simp [htarget.toVersion]
  refine ⟨?_, ?_, ?_, ?_, ?_⟩
  · refine lookup_eq_ok.2 ⟨hunfrozen, haddress, ?_⟩
    rw [State.moveModule]
    simp
  · have hmodule : (s.moveModule org kind plan).moduleAddress org kind ≠ none := by
      rw [haddress]
      exact Option.some_ne_none _
    simp only [getModuleVersion, bind_eq_ok, require_eq_ok, pure_eq_ok]
    exact ⟨(), hmodule, hpin⟩
  · exact verifyVersion_eq_ok.2 ⟨htarget.record, htarget.approved⟩
  · intro w hnonzero hleft
    refine validateUpgrade_left hunfrozen horg haddress hnonzero ?_
    rw [hpin]
    exact hleft
  · intro org' kind' hother
    have hne : ¬ (org' = org ∧ kind' = kind) := by
      rintro ⟨rfl, rfl⟩
      exact hother rfl
    simp only [readModule, State.pin, State.moveModule, writeAt_ne hne]
    exact ⟨trivial, trivial⟩

/-- **Upgrades are previewed exactly.**  For whoever signed and may manage a module, the dry run
returns the address the upgrade moves the module to, or fails with the error it fails with;
registering a version of a registered module does the same as upgrading it; and the upgraded
module is answered with that address, is verified for the code the version is bound to, and is
refused every version up to this one from then on, while no other module moved. -/
theorem upgrades_previewed (h : MayUpgrade env s caller org kind) :
    (fun r => (r.1, r.2.moduleAddress org kind)) <$> upgradeModule env s caller org kind v
        = (fun address => (v, some address)) <$> validateUpgrade s org kind v ∧
      (s.moduleAddress org kind ≠ none →
        registerModuleVersion env s caller org kind v = upgradeModule env s caller org kind v) ∧
      ∀ u s', upgradeModule env s caller org kind v = .ok (u, s') → ∃ address wasmHash,
        validateUpgrade s org kind v = .ok address ∧ Runs s s' org kind v address wasmHash := by
  refine ⟨h.previewed, h.agree, ?_⟩
  intro u s' hupgrade
  have hpreview := h.previewed (v := v)
  rw [hupgrade] at hpreview
  obtain ⟨address, hvalidated, haddress⟩ := map_ok hpreview.symm
  obtain ⟨plan, hmanages, htarget, rfl⟩ := upgradeModule_ok hupgrade
  have hmoved : (s.moveModule org kind plan).moduleAddress org kind = some plan.address :=
    writeAt_self
  have hsame : some address = (s.moveModule org kind plan).moduleAddress org kind :=
    congrArg Prod.snd haddress
  obtain rfl : address = plan.address := Option.some.inj (hsame.trans hmoved)
  have horg : org ≠ "" := by
    simp only [validateUpgrade, bind_eq_ok] at hvalidated
    obtain ⟨_, _, _, hnamed, _⟩ := hvalidated
    exact require_eq_ok.1 hnamed
  exact ⟨plan.address, plan.hash, hvalidated, runs_of_target hmanages.unfrozen horg htarget⟩

/-- Account 3 may move the wallet of "org" to version 1, which is `contract 11`, and does. -/
theorem upgrades_previewed_pinning :
    let s := play deployed (pinning.take 7)
    validateUpgrade s "org" .wallet 1 = .ok (.contract 11) ∧
      ∃ u s', upgradeModule (signedBy 4 [3]) s (.account 3) "org" .wallet 1 = .ok (u, s') ∧
        s'.moduleAddress "org" .wallet = some (.contract 11) := by
  intro s
  have hmay : MayUpgrade (signedBy 4 [3]) s (.account 3) "org" .wallet :=
    ⟨by decide, by decide, by decide⟩
  have hvalidated : validateUpgrade s "org" .wallet 1 = .ok (.contract 11) := rfl
  obtain ⟨hpreview, _, _⟩ := upgrades_previewed (v := 1) hmay
  rw [hvalidated] at hpreview
  obtain ⟨r, hupgraded, hr⟩ := map_ok hpreview
  exact ⟨hvalidated, r.1, r.2, hupgraded, congrArg Prod.snd hr⟩

/-! ## Batches -/

/-- What a lookup of a module answers, by what is on record for it. -/
def answer : Option ModuleInfo → Result Address
  | none => .error (.error .notFound)
  | some info => if info.deprecated then .error (.error .moduleDeprecated) else .ok info.address

/-- Every entry of the cache is what the registry has on record. -/
def Faithful (s : State) (cache : List (VersionId × Option VersionRecord)) : Prop :=
  ∀ entry ∈ cache, entry.2 = s.readVersion entry.1.kind entry.1.version

/-- A cache that holds what is on record answers with it, and goes on to hold it. -/
theorem cachedVersion_faithful {cache : List (VersionId × Option VersionRecord)}
    (hcache : Faithful s cache) (id : VersionId) :
    (cachedVersion s cache id).1 = s.readVersion id.kind id.version ∧
      Faithful s (cachedVersion s cache id).2 := by
  unfold cachedVersion
  split
  · rename_i entry hfound
    have hmem := List.mem_of_find?_eq_some hfound
    have hid : entry.1 = id := by simpa using List.find?_some hfound
    exact ⟨by rw [hcache entry hmem, hid], hcache⟩
  · refine ⟨rfl, ?_⟩
    intro entry hentry
    rcases List.mem_append.1 hentry with hentry | hentry
    · exact hcache entry hentry
    · rw [List.mem_singleton.1 hentry]

theorem getVersion_toOption (id : VersionId) : (getVersion s id.kind id.version).toOption
    = (s.readVersion id.kind id.version).map VersionRecord.address := by
  unfold getVersion
  cases s.readVersion id.kind id.version <;> rfl

/-- Whatever is cached, the loop answers each entry as it is on record. -/
theorem resolveVersions_eq {cache : List (VersionId × Option VersionRecord)}
    (hcache : Faithful s cache) (ids : List VersionId) :
    resolveVersions s cache ids = ids.map fun id => (getVersion s id.kind id.version).toOption := by
  induction ids generalizing cache with
  | nil => rfl
  | cons id rest ih =>
      obtain ⟨hanswer, hcache'⟩ := cachedVersion_faithful hcache id
      rw [resolveVersions, List.map_cons, getVersion_toOption, ← hanswer, ← ih hcache']

theorem lookup_eq_answer (hunfrozen : s.isFrozen = false) :
    lookup s org kind = answer (readModule s org kind) := by
  have hopen : checkFrozen s = .ok () := checkFrozen_eq_ok.2 hunfrozen
  unfold lookup
  rw [hopen]
  cases readModule s org kind with
  | none => rfl
  | some info =>
      obtain ⟨address, deprecated⟩ := info
      cases deprecated <;> rfl

/-- **A batch answers as its entries would be answered alone.**  Up to ten versions are resolved
each to what a single query resolves it to, however often one is repeated; up to ten modules are
answered, unless the registry is frozen, each with what decides its lookup; longer batches are
refused. -/
theorem batches_answer_singly (s : State) :
    (∀ ids : List VersionId,
      (ids.length ≤ maxRegistryBatch → getVersionsBatch s ids
        = .ok (ids.map fun id => (getVersion s id.kind id.version).toOption)) ∧
      (maxRegistryBatch < ids.length → getVersionsBatch s ids = .error (.error .invalidInput))) ∧
    ∀ ids : List ModuleId,
      (ids.length ≤ maxRegistryBatch → s.isFrozen = false → ∃ infos,
        getModulesBatch s ids = .ok infos ∧
        infos.map answer = ids.map fun id => lookup s id.org id.kind) ∧
      (ids.length ≤ maxRegistryBatch → s.isFrozen = true →
        getModulesBatch s ids = .error (.error .registryFrozen)) ∧
      (maxRegistryBatch < ids.length → getModulesBatch s ids = .error (.error .invalidInput)) := by
  refine ⟨?_, ?_⟩
  · intro ids
    refine ⟨?_, ?_⟩
    · intro hsize
      have hnothing : Faithful s [] := fun entry hentry => absurd hentry List.not_mem_nil
      unfold getVersionsBatch
      rw [require_pos hsize, resolveVersions_eq hnothing]
      rfl
    · intro hsize
      unfold getVersionsBatch
      rw [require_neg (Nat.not_le.2 hsize)]
      rfl
  · intro ids
    refine ⟨?_, ?_, ?_⟩
    · intro hsize hunfrozen
      have hopen : checkFrozen s = .ok () := checkFrozen_eq_ok.2 hunfrozen
      refine ⟨ids.map fun id => readModule s id.org id.kind, ?_, ?_⟩
      · unfold getModulesBatch
        rw [require_pos hsize, hopen]
        rfl
      · rw [List.map_map]
        refine List.map_congr_left ?_
        intro id _
        exact (lookup_eq_answer hunfrozen).symm
    · intro hsize hfrozen
      have hclosed : checkFrozen s = .error (.error .registryFrozen) :=
        require_neg (by rw [hfrozen]; decide)
      unfold getModulesBatch
      rw [require_pos hsize, hclosed]
      rfl
    · intro hsize
      unfold getModulesBatch
      rw [require_neg (Nat.not_le.2 hsize)]
      rfl

end RegistryContract
end Astroid
