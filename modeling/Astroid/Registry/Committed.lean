import Astroid.Registry.SelfUpgrade

/-!
# Committed upgrades

A version is published directly or by committing a proposal.  Every reader takes a version that
was published directly for the code it is bound to (`registered_honoured`).  A commit writes the
layout without a hash, which every one of them refuses: no committed version is ever bound to the
hash that was proposed, and no module can move to it (`committed_refused`).
-/

namespace Astroid
namespace RegistryContract

open Outcome Keyed Machine

variable {here : Address} {env : Env here} {s s' : State} {kind : ModuleKind} {v w : UInt32}
  {wasmHash : WasmHash} {address caller : Address} {org : String} {record : VersionRecord}
  {tr₁ tr₂ : List (Entry State (Inputs here))} {e : Entry State (Inputs here)} {t : ℕ}

/-- The readers take the version for the code with that hash at that address. -/
structure Honoured (here : Address) (s : State) (kind : ModuleKind) (v : UInt32)
    (wasmHash : WasmHash) (address : Address) : Prop where
  verified : verifyVersion s kind v wasmHash = .ok address
  bound : getVersionWasm s kind v = .ok wasmHash
  reached : ∀ (env : Env here) (caller : Address) (org : String) (current : Address),
    Manages env s caller org kind → org ≠ "" → s.moduleAddress org kind = some current →
    s.pin org kind < v → current ≠ address →
    (∃ s', upgradeModule env s caller org kind v = .ok (v, s')) ∧
      ∃ s', registerModuleVersion env s caller org kind v = .ok (v, s')
  installable : kind = .organization → s.runningVersion < v → s.InWindow v →
    ∃ w, validateRegistryUpgrade s wasmHash = .ok w

/-! ## What the readers ask of a record -/

theorem verifyVersion_eq_ok : verifyVersion s kind v wasmHash = .ok address ↔
    s.readVersion kind v = some ⟨address, .bound wasmHash⟩ ∧
      s.isWasmApproved kind wasmHash = true := by
  simp only [verifyVersion, bind_eq_ok, okOr_eq_ok, require_eq_ok, pure_eq_ok]
  constructor
  · rintro ⟨⟨_, _⟩, hrecord, _, rfl, _, happroved, rfl⟩
    exact ⟨hrecord, happroved⟩
  · rintro ⟨hrecord, happroved⟩
    exact ⟨_, hrecord, (), rfl, (), happroved, rfl⟩

theorem getVersionWasm_eq_ok : getVersionWasm s kind v = .ok wasmHash ↔
    ∃ address, s.readVersion kind v = some ⟨address, .bound wasmHash⟩ := by
  unfold getVersionWasm
  rcases s.readVersion kind v with _ | ⟨_, _ | _⟩ <;> simp

theorem upgradeModule_returns {current : Address} {plan : UpgradePlan}
    (hmanages : Manages env s caller org kind) (horg : org ≠ "")
    (hcurrent : s.moduleAddress org kind = some current)
    (htarget : Target s org kind v (some current) plan) :
    upgradeModule env s caller org kind v = .ok (v, s.moveModule org kind plan) := by
  simp only [upgradeModule, planUpgrade, requireNonEmpty, bind_eq_ok, checkFrozen_eq_ok,
    require_eq_ok, requireAuth_eq_ok, requireModulePermission_eq_ok, okOr_eq_ok,
    resolveUpgradeTarget_eq_ok, pure_eq_ok, Prod.mk.injEq]
  exact ⟨(), hmanages.unfrozen, (), horg, (), hmanages.auth, (),
    ⟨hmanages.registered, hmanages.permitted⟩, plan, ⟨current, hcurrent, htarget⟩,
    htarget.toVersion, rfl⟩

theorem registerModuleVersion_returns {plan : UpgradePlan}
    (hmanages : Manages env s caller org kind) (horg : org ≠ "")
    (htarget : Target s org kind v (s.moduleAddress org kind) plan) :
    registerModuleVersion env s caller org kind v = .ok (v, s.moveModule org kind plan) := by
  simp only [registerModuleVersion, requireNonEmpty, bind_eq_ok, checkFrozen_eq_ok,
    require_eq_ok, requireAuth_eq_ok, requireModulePermission_eq_ok, resolveUpgradeTarget_eq_ok,
    pure_eq_ok, Prod.mk.injEq]
  exact ⟨(), hmanages.unfrozen, (), horg, (), hmanages.auth, (),
    ⟨hmanages.registered, hmanages.permitted⟩, plan, htarget, htarget.toVersion, rfl⟩

/-- **A version that is bound to approved code of a contract is honoured.**  The registry's own
upgrade takes the highest version that carries the hash, so no other may shadow this one. -/
theorem honoured_of_bound {n : ℕ} (hv : v ≠ 0)
    (hrecord : s.readVersion kind v = some ⟨.contract n, .bound wasmHash⟩)
    (happroved : s.isWasmApproved kind wasmHash = true)
    (hhighest : kind = .organization → ∀ w, v < w → s.InWindow w → ¬ s.Carries wasmHash w) :
    Honoured here s kind v wasmHash (.contract n) := by
  refine ⟨verifyVersion_eq_ok.2 ⟨hrecord, happroved⟩, getVersionWasm_eq_ok.2 ⟨_, hrecord⟩, ?_, ?_⟩
  · intro env caller org current hmanages horg hcurrent hpin hmoves
    have htarget : Target s org kind v (some current)
        ⟨s.pin org kind, v, .contract n, wasmHash⟩ :=
      ⟨hv, hpin, hrecord, happroved, rfl, by simpa using hmoves, rfl, rfl⟩
    refine ⟨⟨_, upgradeModule_returns hmanages horg hcurrent htarget⟩, ?_⟩
    exact ⟨_, registerModuleVersion_returns hmanages horg (hcurrent ▸ htarget)⟩
  · rintro rfl hforward hwindow
    refine ⟨v, validateRegistryUpgrade_eq_ok.2 ⟨?_, hforward, n, hrecord⟩⟩
    exact ⟨hwindow, ⟨_, hrecord⟩, hhighest rfl⟩

/-! ## What a version without a hash is refused -/

/-- What the readers answer for a version that is not bound to a hash. -/
structure Refused (here : Address) (s : State) (kind : ModuleKind) (v : UInt32) : Prop where
  verified : ∀ wasmHash, verifyVersion s kind v wasmHash = .error (.error .invalidInput)
  bound : getVersionWasm s kind v = .error (.error .notFound)
  reached : ∀ (env : Env here) (caller : Address) (org : String) (r : UInt32 × State),
    upgradeModule env s caller org kind v ≠ .ok r ∧
      registerModuleVersion env s caller org kind v ≠ .ok r
  installed : kind = .organization → ∀ wasmHash, validateRegistryUpgrade s wasmHash ≠ .ok v

/-- A version that is not bound to a hash is no target of an upgrade. -/
theorem not_target_of_unbound {current : Option Address} {plan : UpgradePlan}
    (hrecord : s.readVersion kind v = some ⟨address, .unbound⟩) :
    ¬ Target s org kind v current plan := by
  intro htarget
  have hbound := htarget.record
  rw [hrecord] at hbound
  cases hbound

theorem refused_of_unbound (hrecord : s.readVersion kind v = some ⟨address, .unbound⟩) :
    Refused here s kind v := by
  refine ⟨?_, ?_, ?_, ?_⟩
  · intro wasmHash
    simp [verifyVersion, hrecord, okOr, orFail, require, ensure, bind, Except.bind]
  · unfold getVersionWasm
    rw [hrecord]
    rfl
  · intro env caller org r
    obtain ⟨answer, s'⟩ := r
    constructor
    · intro h
      obtain ⟨plan, _, htarget, _⟩ := upgradeModule_ok h
      exact not_target_of_unbound hrecord htarget
    · intro h
      obtain ⟨plan, _, htarget, _⟩ := registerModuleVersion_ok h
      exact not_target_of_unbound hrecord htarget
  · rintro rfl wasmHash h
    obtain ⟨_, hcarried⟩ := (validateRegistryUpgrade_eq_ok.1 h).resolves.carried
    rw [hrecord] at hcarried
    cases hcarried

/-! ## Runs -/

/-- What one entry of a run left on record is on record at the end. -/
theorem record_kept (hpath : (machine here).Path anyInput (tr₁ ++ e :: tr₂) s t)
    (hrecord : e.post.readVersion kind v = some record) :
    s.readVersion kind v = some record := by
  have hsplit : tr₁ ++ e :: tr₂ = (tr₁ ++ [e]) ++ tr₂ := by simp
  rw [hsplit] at hpath
  refine hpath.stretch (Q := fun _ s _ => s.readVersion kind v = some record) ?_ ?_
  · intro s t hfirst
    obtain ⟨_, _, _, _, _, rfl, _⟩ := hfirst.last
    exact hrecord
  · intro _ e _ _ hbefore _ _ hstep hpre
    exact (step_versions (versioned_reachable hbefore.reachable) hstep).1 _ _ _ hpre

/-- **Versions that were published directly are honoured** for the rest of the run, as long as
their code is approved. -/
theorem registered_honoured {n : ℕ} (hpath : (machine here).Path anyInput (tr₁ ++ e :: tr₂) s t)
    (hinput : e.input = .invoke env (.registerVersion caller kind v (.contract n) wasmHash))
    (happroved : s.isWasmApproved kind wasmHash = true)
    (hhighest : kind = .organization → ∀ w, v < w → s.InWindow w → ¬ s.Carries wasmHash w) :
    Honoured here s kind v wasmHash (.contract n) := by
  have hstep := hpath.stepped (e := e) (by simp)
  obtain ⟨pre, input, post⟩ := e
  subst hinput
  have hstep : registerVersion env pre caller kind v (.contract n) wasmHash = .ok post := hstep
  have hpublication := registerVersion_publication hstep
  have hrecord : post.readVersion kind v = some ⟨.contract n, .bound wasmHash⟩ := by
    rw [hpublication.table, writeAt_self]
  exact honoured_of_bound hpublication.nonzero (record_kept hpath hrecord) happroved hhighest

/-- The entry committed the proposal. -/
def Commits (e : Entry State (Inputs here)) (kind : ModuleKind) (proposal : UpgradeProposal) : Prop :=
  (∃ env caller, e.input = .invoke env (.commitUpgrade caller kind)) ∧
    e.pre.upgradeProposal kind = some proposal

/-- A commit approves the hash and leaves the version without one. -/
theorem commits_record {proposal : UpgradeProposal} (hversioned : Versioned e.pre)
    (hcommits : Commits e kind proposal) (hstep : (machine here).step e.input e.pre e.post) :
    e.post.readVersion kind proposal.version = some ⟨proposal.address, .unbound⟩ ∧
      e.post.isWasmApproved kind proposal.wasmHash = true := by
  obtain ⟨pre, input, post⟩ := e
  obtain ⟨⟨env, caller, rfl⟩, hproposal⟩ := hcommits
  obtain ⟨answer, hstep⟩ := snd_map_ok (show Prod.snd <$> commitUpgrade env pre caller kind
    = .ok post from hstep)
  have hpublication := commitUpgrade_publication hversioned hproposal hstep
  refine ⟨?_, ?_⟩
  · rw [hpublication.table, writeAt_self]
  · obtain ⟨proposal', _, _, _, hproposal', _, rfl⟩ := commitUpgrade_ok hstep
    rw [show pre.upgradeProposal kind = some proposal from hproposal,
      Option.some.injEq] at hproposal'
    subst hproposal'
    unfold State.isWasmApproved
    show (writeAt pre.approvedWasm kind proposal.wasmHash (some true) kind proposal.wasmHash).getD
      false = true
    rw [writeAt_self]
    rfl

/-- **Committed versions are never honoured.**  From the commit on, in which the proposed hash is
approved, every reader refuses the version, whatever hash it is asked about, and so the law
that holds of versions that were published directly fails for every one that was committed. -/
theorem committed_refused {proposal : UpgradeProposal}
    (hpath : (machine here).Path anyInput (tr₁ ++ e :: tr₂) s t)
    (hcommits : Commits e kind proposal) :
    e.post.isWasmApproved kind proposal.wasmHash = true ∧
      Refused here s kind proposal.version ∧
      ¬ Honoured here s kind proposal.version proposal.wasmHash proposal.address := by
  have he : e ∈ tr₁ ++ e :: tr₂ := by simp
  obtain ⟨hrecord, happroved⟩ :=
    commits_record (versioned_reachable (hpath.reachable_of_mem he)) hcommits (hpath.stepped he)
  have hrefused : Refused here s kind proposal.version :=
    refused_of_unbound (record_kept hpath hrecord)
  refine ⟨happroved, hrefused, ?_⟩
  intro hhonoured
  have hverified := hhonoured.verified
  rw [hrefused.verified] at hverified
  cases hverified

/-- The wallet of "org" runs contract 9 when version 1 is proposed and committed. -/
def committing : Script Call :=
  opening ++ [(signedBy 2 [2], .registerModule (.account 2) "org" .wallet (.contract 9)),
    (signedBy 3 [3], .proposeUpgrade (.account 3) "org" .wallet 1 (hashOf 3) (.contract 13))]

/-- The commit of that proposal. -/
def committingEntry : Entry State (Inputs (.contract 0)) :=
  let call := (signedBy 4 [1], Call.commitUpgrade (.account 1) .wallet)
  ⟨play deployed committing, .invoke call.1 call.2, (deployment (.contract 0)).after
    (play deployed committing) call⟩

/-- The proposal. -/
def committed : UpgradeProposal where
  version := 1
  wasmHash := hashOf 3
  address := .contract 13
  org := "org"
  proposer := .account 3
  expiresAt := 604803

theorem committing_path : (machine (.contract 0)).Path anyInput
    ((deployment (.contract 0)).trace deployed committing ++ [committingEntry])
    committingEntry.post 4 := by
  have hplays : (deployment (.contract 0)).plays deployed 0 committing = true := by decide
  have hpath := Deployment.path_trace deployed_fresh hplays
  refine hpath.step (by decide) trivial (Deployment.step_after ?_)
  decide

theorem committingEntry_commits : Commits committingEntry .wallet committed :=
  ⟨⟨_, _, rfl⟩, by decide⟩

/-- The code of that version is approved, and the version refused. -/
theorem committed_refused_committing :
    committingEntry.post.isWasmApproved .wallet (hashOf 3) = true ∧
      Refused (.contract 0) committingEntry.post .wallet 1 := by
  obtain ⟨happroved, hrefused, _⟩ := committed_refused committing_path committingEntry_commits
  exact ⟨happroved, hrefused⟩

/-- **Committed versions need not be honoured**, although the hash is approved and the address is a
contract. -/
theorem not_committed_honoured : ¬ ∀ (tr₁ tr₂ : List (Entry State (Inputs (.contract 0))))
    (e : Entry State (Inputs (.contract 0))) (s : State) (t : ℕ) (kind : ModuleKind)
    (proposal : UpgradeProposal), (machine (.contract 0)).Path anyInput (tr₁ ++ e :: tr₂) s t →
    Commits e kind proposal → isContractAddress proposal.address = true →
    (∀ q ∈ e :: tr₂, q.post.isWasmApproved kind proposal.wasmHash = true) →
    Honoured (.contract 0) s kind proposal.version proposal.wasmHash proposal.address := by
  intro h
  have hhonoured := h _ [] committingEntry _ _ .wallet committed committing_path
    committingEntry_commits rfl (by
      intro q hq
      rw [List.mem_singleton.1 hq]
      decide)
  have hverified := verifyVersion_eq_ok.1 hhonoured.verified
  have hunbound : committingEntry.post.readVersion .wallet 1
      = some ⟨.contract 13, .unbound⟩ := by decide
  rw [show committed.version = 1 from rfl, hunbound] at hverified
  cases hverified.1

end RegistryContract
end Astroid
