import Astroid.Registry.Versions

/-!
# The registry's own upgrades

The registry takes the hash of its next code and resolves it back to a version: it walks down
from the latest published one and stops at the first that carries the hash.  The walk ends and
finds the highest such version in its window (`scanVersions_spec`), so each upgrade moves
the running version up to it (`upgrades_forward`).
-/

namespace Astroid
namespace RegistryContract

open Outcome Keyed Machine

variable {here : Address} {env : Env here} {s s' : State} {call : Call} {v w version floor : UInt32}
  {wasmHash : WasmHash} {tr : List (Entry State (Inputs here))} {e : Entry State (Inputs here)}
  {t fuel : ℕ} {caller : Address}

/-- The published `Organization` version is bound to the hash. -/
def State.Carries (s : State) (wasmHash : WasmHash) (v : UInt32) : Prop :=
  ∃ address, s.readVersion .organization v = some ⟨address, .bound wasmHash⟩

/-- The version is one of the last `MAX_UPGRADE_SCAN` numbers up to the latest version. -/
def State.InWindow (s : State) (v : UInt32) : Prop :=
  0 < v ∧ v ≤ s.latest .organization ∧
    (s.latest .organization).toNat < v.toNat + maxUpgradeScan.toNat

/-- The hash resolves to the version: no higher one in the window carries it. -/
structure Resolves (s : State) (wasmHash : WasmHash) (v : UInt32) : Prop where
  window : s.InWindow v
  carried : s.Carries wasmHash v
  highest : ∀ w, v < w → s.InWindow w → ¬ s.Carries wasmHash w

/-- What `plan_registry_upgrade` asks of a target: the hash resolves to it, it is ahead of the
running version, and its record names a contract. -/
structure Installable (s : State) (wasmHash : WasmHash) (v : UInt32) : Prop where
  resolves : Resolves s wasmHash v
  forward : s.runningVersion < v
  contract : ∃ n, s.readVersion .organization v = some ⟨.contract n, .bound wasmHash⟩

/-! ## The walk down the table -/

theorem carries_of_record {record : VersionRecord}
    (hrecord : s.readVersion .organization v = some record) :
    s.Carries wasmHash v ↔ record.hash = .bound wasmHash := by
  obtain ⟨address, hash⟩ := record
  unfold State.Carries
  rw [hrecord]
  simp

theorem decrement_of_pos (hpos : 0 < version) : decrement version = .ok (version - 1) := by
  have hnonzero : version ≠ 0 := by grind
  unfold decrement
  rw [ensure_pos hnonzero]
  rfl

theorem toNat_decrement (hpos : 0 < version) : (version - 1).toNat = version.toNat - 1 := by
  rw [UInt32.lt_iff_toNat_lt] at hpos
  have hone : (1 : UInt32) ≤ version := by
    rw [UInt32.le_iff_toNat_le]
    exact hpos
  rw [UInt32.toNat_sub_of_le _ _ hone]
  rfl

/-- A version that does not carry the hash is passed over. -/
theorem scanVersions_next (hfloor : floor ≤ version) (hpos : 0 < version)
    (hmisses : ¬ s.Carries wasmHash version) :
    scanVersions s wasmHash floor (fuel + 1) version
      = scanVersions s wasmHash floor fuel (version - 1) := by
  rw [scanVersions, if_pos ⟨hfloor, hpos⟩, decrement_of_pos hpos]
  cases hrecord : s.readVersion .organization version with
  | none => rfl
  | some record =>
      rw [carries_of_record hrecord] at hmisses
      dsimp only
      rw [if_neg hmisses]
      rfl

/-- **The walk ends**, at the highest version that carries the hash or below the floor. -/
theorem scanVersions_spec (wasmHash : WasmHash)
    (hfuel : version.toNat + 2 ≤ max floor.toNat 1 + fuel) (hpos : 0 < fuel) :
    (∃ v record, scanVersions s wasmHash floor fuel version = .ok (some (v, record)) ∧
      s.readVersion .organization v = some record ∧ s.Carries wasmHash v ∧
      floor ≤ v ∧ 0 < v ∧ v ≤ version ∧ ∀ w, v < w → w ≤ version → ¬ s.Carries wasmHash w) ∨
    (scanVersions s wasmHash floor fuel version = .ok none ∧
      ∀ w, floor ≤ w → 0 < w → w ≤ version → ¬ s.Carries wasmHash w) := by
  induction fuel generalizing version with
  | zero => cases hpos
  | succ fuel ih =>
      by_cases hin : floor ≤ version ∧ 0 < version
      · obtain ⟨hfloor, hversion⟩ := hin
        by_cases hcarries : s.Carries wasmHash version
        · obtain ⟨address, hrecord⟩ := hcarries
          refine .inl ⟨version, _, ?_, hrecord, ⟨address, hrecord⟩, hfloor, hversion,
            UInt32.le_refl _, by grind⟩
          rw [scanVersions, if_pos ⟨hfloor, hversion⟩, hrecord]
          exact if_pos rfl
        · have hnext := toNat_decrement hversion
          rw [UInt32.le_iff_toNat_le] at hfloor
          have hlow : 0 < version.toNat := UInt32.lt_iff_toNat_lt.1 hversion
          -- the version that was passed over is the only one between the two calls
          have hpassed : ∀ w, w ≤ version → s.Carries wasmHash w → w ≤ version - 1 := by
            intro w hle hw
            rw [UInt32.le_iff_toNat_le] at hle ⊢
            have hne : w ≠ version := by
              rintro rfl
              exact hcarries hw
            rw [Ne, ← UInt32.toNat_inj] at hne
            omega
          rw [scanVersions_next (UInt32.le_iff_toNat_le.2 hfloor) hversion hcarries]
          rcases @ih (version - 1) (by omega) (by omega) with
            ⟨v, record, hscan, hrecord, hv, hvfloor, hvpos, hle, hhighest⟩ | ⟨hscan, hnone⟩
          · refine .inl ⟨v, record, hscan, hrecord, hv, hvfloor, hvpos, ?_, ?_⟩
            · rw [UInt32.le_iff_toNat_le] at hle ⊢
              omega
            · intro w hvw hle hw
              exact hhighest w hvw (hpassed w hle hw) hw
          · refine .inr ⟨hscan, ?_⟩
            intro w hwfloor hwpos hle hw
            exact hnone w hwfloor hwpos (hpassed w hle hw) hw
      · refine .inr ⟨?_, ?_⟩
        · rw [scanVersions, if_neg hin]
        · intro w hwfloor hwpos hle _
          refine hin ⟨?_, ?_⟩
          · exact UInt32.le_trans hwfloor hle
          · grind

/-! ## The plan -/

theorem toNat_floor {latest : UInt32} :
    (saturatingSub latest (maxUpgradeScan - 1)).toNat = latest.toNat - 63 := by
  have hscan : (maxUpgradeScan - 1).toNat = 63 := rfl
  unfold saturatingSub
  split
  · rename_i hle
    rw [UInt32.toNat_sub_of_le _ _ hle, hscan]
  · rename_i hlow
    rw [UInt32.le_iff_toNat_le, hscan] at hlow
    simp only [UInt32.toNat_zero]
    omega

theorem scanFuel_enough {latest : UInt32} : latest.toNat + 2
    ≤ max (saturatingSub latest (maxUpgradeScan - 1)).toNat 1 + scanFuel := by
  have hfuel : scanFuel = 65 := rfl
  rw [toNat_floor, hfuel]
  omega

/-- **The resolution ends without an underflow**, whatever the latest version is. -/
theorem scanVersions_returns (s : State) (wasmHash : WasmHash) (latest : UInt32) :
    ∃ found, scanVersions s wasmHash (saturatingSub latest (maxUpgradeScan - 1)) scanFuel latest
      = .ok found := by
  rcases scanVersions_spec (s := s) wasmHash (@scanFuel_enough latest) (by decide) with
    ⟨_, _, hscan, _⟩ | ⟨hscan, _⟩
  · exact ⟨_, hscan⟩
  · exact ⟨_, hscan⟩

theorem inWindow_iff : s.InWindow v ↔
    saturatingSub (s.latest .organization) (maxUpgradeScan - 1) ≤ v ∧ 0 < v ∧
      v ≤ s.latest .organization := by
  have hscan : maxUpgradeScan.toNat = 64 := rfl
  unfold State.InWindow
  rw [UInt32.le_iff_toNat_le, UInt32.le_iff_toNat_le, UInt32.lt_iff_toNat_lt, toNat_floor, hscan,
    UInt32.toNat_zero]
  omega

/-- **What a planned upgrade is.** -/
theorem planRegistryUpgrade_eq_ok {plan : RegistryUpgradePlan} :
    planRegistryUpgrade s wasmHash = .ok plan ↔ Installable s wasmHash plan.toVersion ∧
      plan.fromVersion = s.runningVersion ∧ plan.wasmHash = wasmHash := by
  have hfuel := @scanFuel_enough (s.latest .organization)
  simp only [planRegistryUpgrade, bind_eq_ok, require_eq_ok, okOr_eq_ok, pure_eq_ok]
  rcases scanVersions_spec (s := s) wasmHash hfuel (by decide) with
    ⟨v, record, hscan, hrecord, hcarries, hfloor, hpos, hle, hhighest⟩ | ⟨hscan, hnone⟩
  · constructor
    · rintro ⟨_, _, found, hfound, ⟨v', record'⟩, rfl, _, hforward, _, hcontract, rfl⟩
      obtain ⟨rfl, rfl⟩ : v = v' ∧ record = record' := by simpa [hscan] using hfound
      have hresolves : Resolves s wasmHash v := ⟨inWindow_iff.2 ⟨hfloor, hpos, hle⟩, hcarries,
        fun w hvw hw => hhighest w hvw hw.2.1⟩
      refine ⟨⟨hresolves, hforward, ?_⟩, rfl, rfl⟩
      obtain ⟨address, hcarried⟩ := hcarries
      rw [hrecord, Option.some.injEq] at hcarried
      subst hcarried
      cases address with
      | account n => cases hcontract
      | contract n => exact ⟨n, hrecord⟩
    · rintro ⟨⟨hresolves, hforward, n, hnamed⟩, hfrom, hhash⟩
      -- both are the highest in the window
      have hsame : plan.toVersion = v := by
        by_contra hne
        have habove := hhighest plan.toVersion
        have hbelow := hresolves.highest v
        have hwindow := inWindow_iff.2 ⟨hfloor, hpos, hle⟩
        have hcarried := hresolves.carried
        have hlow := hresolves.window.2.1
        grind
      refine ⟨(), ?_, _, hscan, _, rfl, (), hsame ▸ hforward, (), ?_, ?_⟩
      · grind
      · rw [← hsame, hnamed, Option.some.injEq] at hrecord
        rw [← hrecord]
        rfl
      · rw [← hfrom, ← hsame, ← hhash]
  · constructor
    · rintro ⟨_, _, found, hfound, _, rfl, _⟩
      rw [hscan] at hfound
      cases hfound
    · rintro ⟨⟨hresolves, _⟩, _⟩
      obtain ⟨hfloor, hpos, hle⟩ := inWindow_iff.1 hresolves.window
      exact absurd hresolves.carried (hnone _ hfloor hpos hle)

theorem validateRegistryUpgrade_eq_ok :
    validateRegistryUpgrade s wasmHash = .ok v ↔ Installable s wasmHash v := by
  simp only [validateRegistryUpgrade, bind_eq_ok, planRegistryUpgrade_eq_ok, pure_eq_ok]
  constructor
  · rintro ⟨plan, ⟨hinstallable, _⟩, rfl⟩
    exact hinstallable
  · intro hinstallable
    exact ⟨⟨s.runningVersion, v, wasmHash⟩, ⟨hinstallable, rfl, rfl⟩, rfl⟩

/-- What `upgrade` asks besides the plan: an authorized caller, and code that is approved and
uploaded. -/
structure Entitled (env : Env here) (s : State) (caller : Address) (wasmHash : WasmHash) : Prop where
  auth : caller ∈ env.auths
  authority : ∃ authority, s.upgradeAuthority = some authority ∧
    (authority.admin = caller ∨ s.IsAdmin caller)
  approved : s.isWasmApproved .organization wasmHash = true
  uploaded : s.uploaded wasmHash = true

/-- **When an upgrade succeeds**, and what it leaves. -/
theorem upgrade_eq_ok : upgrade env s caller wasmHash = .ok s' ↔
    Entitled env s caller wasmHash ∧ ∃ v, Installable s wasmHash v ∧
      s' = { s with wasm := some wasmHash, registryVersion := some v } := by
  simp only [upgrade, applyUpgrade, bind_eq_ok, requireAuth_eq_ok, okOr_eq_ok, require_eq_ok,
    ensure_eq_ok, planRegistryUpgrade_eq_ok, pure_eq_ok]
  constructor
  · rintro ⟨_, hauth, authority, hauthority, _, hentitled, _, happroved, plan, ⟨hinstallable, _⟩, _,
      ⟨_, huploaded, rfl⟩, rfl⟩
    exact ⟨⟨hauth, ⟨authority, hauthority, hentitled⟩, happroved, huploaded⟩, _, hinstallable, rfl⟩
  · rintro ⟨⟨hauth, ⟨authority, hauthority, hentitled⟩, happroved, huploaded⟩, v, hinstallable, rfl⟩
    exact ⟨(), hauth, authority, hauthority, (), hentitled, (), happroved,
      ⟨s.runningVersion, v, wasmHash⟩, ⟨hinstallable, rfl, rfl⟩, _, ⟨(), huploaded, rfl⟩, rfl⟩

/-! ## Runs -/

/-- The code an entry of a run installed, and the version it recorded. -/
def installs (e : Entry State (Inputs here)) : Option (WasmHash × UInt32) :=
  match e.input with
  | .invoke _ (.upgrade _ wasmHash) => e.post.registryVersion.map fun v => (wasmHash, v)
  | _ => none

/-- An entry installs code under a version ahead of the running one, or leaves the running
version alone. -/
theorem step_installs (hstep : (machine here).step e.input e.pre e.post) :
    (installs e = none ∧ e.post.registryVersion = e.pre.registryVersion) ∨
      ∃ env caller wasmHash v, e.input = .invoke env (.upgrade caller wasmHash) ∧
        installs e = some (wasmHash, v) ∧ Entitled env e.pre caller wasmHash ∧
        Installable e.pre wasmHash v ∧ e.post.registryVersion = some v := by
  obtain ⟨pre, input, post⟩ := e
  cases input with
  | outside time uploaded =>
      obtain rfl : post = { pre with uploaded := uploaded } := hstep
      exact .inl ⟨rfl, rfl⟩
  | invoke env call =>
      by_cases hcall : ∃ caller wasmHash, call = .upgrade caller wasmHash
      · obtain ⟨caller, wasmHash, rfl⟩ := hcall
        have hstep : upgrade env pre caller wasmHash = .ok post := hstep
        obtain ⟨hentitled, v, hinstallable, rfl⟩ := upgrade_eq_ok.1 hstep
        exact .inr ⟨env, caller, wasmHash, v, rfl, rfl, hentitled, hinstallable, rfl⟩
      · have hother : @installs here ⟨pre, .invoke env call, post⟩ = none := by
          cases call with
          | upgrade caller wasmHash => exact absurd ⟨caller, wasmHash, rfl⟩ hcall
          | _ => rfl
        refine .inl ⟨hother, ?_⟩
        have hstep : exec env pre call = .ok post := hstep
        cases exec_effect hstep with
        | upgraded caller wasmHash _ heq => exact absurd ⟨caller, wasmHash, heq⟩ hcall
        | _ => rfl

/-- The version an entry of a run moved the registry to raises the running one. -/
theorem step_raises (hstep : (machine here).step e.input e.pre e.post) :
    Raises (· < ·) State.runningVersion (fun e => (installs e).map Prod.snd) e := by
  unfold Raises
  rcases step_installs hstep with ⟨hnone, hkept⟩ | ⟨_, _, _, v, _, hinstalls, _, hinstallable, hpost⟩
  · simp only [hnone, Option.map_none]
    rw [State.runningVersion, hkept, State.runningVersion]
  · simp only [hinstalls, Option.map_some]
    refine ⟨hinstallable.forward, ?_⟩
    rw [State.runningVersion, hpost]
    rfl

/-- What an upgrade resolved to is still published at the end of the run. -/
theorem installs_carried (hpath : (machine here).Path anyInput tr s t) {x : WasmHash × UInt32}
    (hx : x ∈ log installs tr) : s.Carries x.1 x.2 := by
  obtain ⟨e, he, hinstalls⟩ := List.mem_filterMap.1 hx
  have hstep := hpath.stepped he
  rcases step_installs hstep with ⟨hnone, _⟩ | ⟨_, _, _, _, _, hinstalls', _, hinstallable, _⟩
  · rw [hnone] at hinstalls
    cases hinstalls
  · rw [hinstalls', Option.some.injEq] at hinstalls
    subst hinstalls
    obtain ⟨address, hrecord⟩ := hinstallable.resolves.carried
    exact ⟨address, ((versions_kept hpath) e he).1 _ _ _ hrecord⟩

/-- **The registry only upgrades forward.**  Every upgrade raises the running version to the
highest version in the window that carries the approved hash; the versions installed along a
run rise strictly, and each is still published with the code it installed.  The resolution
always ends, and the dry run names the version exactly when the upgrade records it. -/
theorem upgrades_forward (hpath : (machine here).Path anyInput tr s t) :
    (∀ e ∈ tr, ∀ env caller wasmHash, e.input = .invoke env (.upgrade caller wasmHash) →
      e.pre.runningVersion < e.post.runningVersion ∧
      Resolves e.pre wasmHash e.post.runningVersion ∧
      e.pre.isWasmApproved .organization wasmHash = true ∧
      installs e = some (wasmHash, e.post.runningVersion)) ∧
    (log installs tr).Pairwise (fun x y => x.2 < y.2) ∧
    (∀ x ∈ log installs tr, s.Carries x.1 x.2 ∧
      (x.2 = s.runningVersion ∨ x.2 < s.runningVersion)) ∧
    (∀ (s : State) (wasmHash : WasmHash) (latest : UInt32), ∃ found,
      scanVersions s wasmHash (saturatingSub latest (maxUpgradeScan - 1)) scanFuel latest
        = .ok found) ∧
    ∀ (s : State) (env : Env here) (caller : Address) (wasmHash : WasmHash) (v : UInt32),
      (validateRegistryUpgrade s wasmHash = .ok v ↔ Installable s wasmHash v) ∧
      (Entitled env s caller wasmHash → (validateRegistryUpgrade s wasmHash = .ok v ↔
        ∃ s', upgrade env s caller wasmHash = .ok s' ∧ s'.registryVersion = some v)) := by
  have hraises : ∀ e ∈ tr,
      Raises (· < ·) State.runningVersion (fun e => (installs e).map Prod.snd) e := by
    intro e he
    have hstep := hpath.stepped he
    exact step_raises hstep
  have hrun : (machine here).Path anyInput ([] ++ tr) s t := hpath
  have htrans : ∀ a b c : UInt32, a < b → b < c → a < c := fun _ _ _ => UInt32.lt_trans
  obtain ⟨hpairwise, hbelow⟩ := hrun.rising htrans hraises
  have hversions : log (fun e => (installs e).map Prod.snd) tr = (log installs tr).map Prod.snd := by
    unfold log
    rw [List.map_filterMap]
  rw [hversions] at hpairwise hbelow
  refine ⟨?_, List.pairwise_map.1 hpairwise, ?_, scanVersions_returns, ?_⟩
  · intro e he env caller wasmHash hinput
    have hstep := hpath.stepped he
    rcases step_installs hstep with
      ⟨hnone, _⟩ | ⟨_, _, _, v, hinput', hinstalls, hentitled, hinstallable, hpost⟩
    · obtain ⟨pre, input, post⟩ := e
      subst hinput
      have hstep : upgrade env pre caller wasmHash = .ok post := hstep
      obtain ⟨_, v, _, rfl⟩ := upgrade_eq_ok.1 hstep
      cases hnone
    · rw [hinput] at hinput'
      cases hinput'
      have hrunning : e.post.runningVersion = v := by
        rw [State.runningVersion, hpost]
        rfl
      rw [hrunning]
      exact ⟨hinstallable.forward, hinstallable.resolves, hentitled.approved, hinstalls⟩
  · intro x hx
    exact ⟨installs_carried hpath hx, hbelow x.2 (List.mem_map_of_mem hx)⟩
  · intro s env caller wasmHash v
    refine ⟨validateRegistryUpgrade_eq_ok, ?_⟩
    intro hentitled
    rw [validateRegistryUpgrade_eq_ok]
    constructor
    · intro hinstallable
      exact ⟨_, upgrade_eq_ok.2 ⟨hentitled, v, hinstallable, rfl⟩, rfl⟩
    · rintro ⟨s', hupgrade, hversion⟩
      obtain ⟨_, v', hinstallable, rfl⟩ := upgrade_eq_ok.1 hupgrade
      cases hversion
      exact hinstallable

/-- Two versions of the registry are published with one code, and another in between. -/
def upgrading : Script Call :=
  opening ++ [(signedBy 2 [1], .setUpgradeAuthority (.account 1) (.account 1) (.contract 0)),
    (signedBy 2 [1], .addApprovedWasm (.account 1) .organization (hashOf 1)),
    (signedBy 2 [1], .addApprovedWasm (.account 1) .organization (hashOf 2)),
    (signedBy 2 [1], .registerVersion (.account 1) .organization 1 (.contract 21) (hashOf 1)),
    (signedBy 2 [1], .registerVersion (.account 1) .organization 2 (.contract 22) (hashOf 2)),
    (signedBy 3 [1], .upgrade (.account 1) (hashOf 1)),
    (signedBy 4 [1], .upgrade (.account 1) (hashOf 2)),
    (signedBy 5 [1], .registerVersion (.account 1) .organization 7 (.contract 27) (hashOf 1)),
    (signedBy 6 [1], .upgrade (.account 1) (hashOf 1))]

/-- The first code comes back only under the higher version. -/
theorem upgrades_forward_republished :
    (log installs ((deployment (.contract 0)).trace deployed upgrading)).Pairwise
      (fun x y => x.2 < y.2) ∧ (play deployed upgrading).runningVersion = 7 := by
  have hplays : (deployment (.contract 0)).plays deployed 0 upgrading = true := by decide
  have hpath := Deployment.path_trace deployed_fresh hplays
  exact ⟨(upgrades_forward hpath).2.1, by decide⟩

end RegistryContract
end Astroid
