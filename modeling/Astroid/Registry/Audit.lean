import Astroid.Lib.Trail
import Astroid.Registry.Versions

/-!
# The upgrade history

Proposing, committing and rejecting an upgrade are each put on record.  The history holds the
newest of these records, whatever else is called in between; for each kind of module a proposal
and what became of it alternate; and the versions that are committed rise (`upgrade_history`).
-/

namespace Astroid
namespace RegistryContract

open Outcome Keyed Machine

variable {here : Address} {env : Env here} {s s' : State} {call : Call} {kind : ModuleKind}
  {tr : List (Entry State (Inputs here))} {t : ℕ}

/-! ## Views -/

/-- `get_upgrade_history`. -/
def getUpgradeHistory (s : State) : List UpgradeAuditRecord := s.upgradeAuditLog.getD []

/-- `get_upgrade_history_len`. -/
def getUpgradeHistoryLen (s : State) : ℕ := (getUpgradeHistory s).length

/-- `get_upgrade_proposal`. -/
def getUpgradeProposal (s : State) (kind : ModuleKind) : Option UpgradeProposal :=
  s.upgradeProposal kind

/-! ## What a call puts on record -/

/-- What a call that returns puts on record. -/
def Call.audits (env : Env here) (s : State) : Call → Option UpgradeAuditRecord
  | .proposeUpgrade caller org kind version wasmHash _ =>
      some ⟨.proposed, ⟨kind, version, wasmHash, org, caller, env.timestamp⟩⟩
  | .commitUpgrade caller kind => (getUpgradeProposal s kind).map fun p =>
      ⟨.committed, ⟨kind, p.version, p.wasmHash, p.org, caller, env.timestamp⟩⟩
  | .rejectUpgrade caller kind => (getUpgradeProposal s kind).map fun p =>
      ⟨.rejected, ⟨kind, p.version, p.wasmHash, p.org, caller, env.timestamp⟩⟩
  | _ => none

/-- What an entry of a run puts on record. -/
def audits (e : Entry State (Inputs here)) : Option UpgradeAuditRecord :=
  match e.input with
  | .invoke env call => call.audits env e.pre
  | .outside _ _ => none

/-- What an entry puts on record about one kind of module. -/
def auditsOf (kind : ModuleKind) (e : Entry State (Inputs here)) : Option UpgradeAuditRecord :=
  (audits e).filter fun r => decide (r.audit.kind = kind)

/-- The version of a kind that an entry commits. -/
def commits (kind : ModuleKind) (e : Entry State (Inputs here)) : Option UInt32 :=
  ((auditsOf kind e).filter fun r => decide (r.action = .committed)).map (·.audit.version)

/-- The record is about the proposal. -/
structure UpgradeAuditRecord.About (r : UpgradeAuditRecord) (p : UpgradeProposal) : Prop where
  version : r.audit.version = p.version
  wasmHash : r.audit.wasmHash = p.wasmHash
  org : r.audit.org = p.org

/-- The record says that the proposal was made. -/
structure UpgradeAuditRecord.Proposes (r : UpgradeAuditRecord) (p : UpgradeProposal) : Prop
    extends r.About p where
  action : r.action = .proposed
  actor : r.audit.actor = p.proposer
  expires : p.expiresAt.toNat = r.audit.recordedAt.toNat + upgradeProposalExpiry.toNat

/-- The record says what became of the proposal: it was committed in time, or rejected. -/
structure UpgradeAuditRecord.Settles (r : UpgradeAuditRecord) (p : UpgradeProposal) : Prop
    extends r.About p where
  action : r.action = .committed ∧ r.audit.recordedAt ≤ p.expiresAt ∨ r.action = .rejected

/-! ## Steps -/

/-- The calls that are put on record. -/
def Call.Audited : Call → Prop
  | .proposeUpgrade _ _ _ _ _ _ | .commitUpgrade _ _ | .rejectUpgrade _ _ => True
  | _ => False

/-- The pending proposals and the history are as they were. -/
def KeepsHistory (s s' : State) : Prop :=
  s'.upgradeProposal = s.upgradeProposal ∧ s'.upgradeAuditLog = s.upgradeAuditLog

/-- No other call touches a proposal or the history. -/
theorem exec_keepsHistory (hother : ¬ call.Audited) (h : exec env s call = .ok s') :
    KeepsHistory s s' := by
  cases call with
  | proposeUpgrade | commitUpgrade | rejectUpgrade => exact absurd trivial hother
  | initializeContract | setAdmin | setMultisig =>
      exact of_bind_ok h fun _ h => of_pure_ok h ⟨rfl, rfl⟩
  | removeMultisig => exact of_bind_ok h fun _ h => of_bind_ok h fun _ h => of_pure_ok h ⟨rfl, rfl⟩
  | addAdmin | freeze | unfreeze | setUpgradeAuthority | deprecateModule | reactivateModule
  | registerModule | revokeRole | addApprovedWasm =>
      exact of_bind_ok h fun _ h => of_bind_ok h fun _ h => of_bind_ok h fun _ h =>
        of_pure_ok h ⟨rfl, rfl⟩
  | removeApprovedWasm =>
      exact of_bind_ok h fun _ h => of_bind_ok h fun _ h => of_pure_ok h ⟨rfl, rfl⟩
  | removeAdmin caller admin =>
      refine of_bind_ok h fun _ h => of_bind_ok h fun _ h => of_bind_ok h fun _ h => ?_
      split at h
      · exact of_bind_ok h fun _ h => of_pure_ok h ⟨rfl, rfl⟩
      · exact of_pure_ok h ⟨rfl, rfl⟩
  | registerOrg | setOrgOwner | removeModule | grantRole =>
      exact of_bind_ok h fun _ h => of_bind_ok h fun _ h => of_bind_ok h fun _ h =>
        of_bind_ok h fun _ h => of_pure_ok h ⟨rfl, rfl⟩
  | registerVersion =>
      obtain ⟨_, _, _, _, _, rfl⟩ := registerVersion_ok h
      exact ⟨rfl, rfl⟩
  | upgradeModule _ org kind version | registerModuleVersion _ org kind version =>
      obtain ⟨_, _, _, _, rfl⟩ := moves_ok rfl h
      exact ⟨rfl, rfl⟩
  | upgrade =>
      obtain ⟨_, _, _, _, rfl⟩ := upgrade_ok h
      exact ⟨rfl, rfl⟩
  | lookup | verifyOwner | getModulesBatch | getModuleVersion | getVersion | getVersionWasm
  | getLatest | getVersionsBatch | verifyVersion | validateUpgrade | validateRegistryUpgrade =>
      obtain ⟨_, _, rfl⟩ := map_ok h
      exact ⟨rfl, rfl⟩

/-- What a call that is put on record does: the actor signed, the record goes in front of the
history, and the slot of the kind is filled or cleared. -/
structure Audit (env : Env here) (s s' : State) (r : UpgradeAuditRecord) : Prop where
  signed : r.audit.actor ∈ env.auths
  history : getUpgradeHistory s' = (r :: getUpgradeHistory s).take maxUpgradeAuditEntries
  slot : Slotted UpgradeAuditRecord.Proposes UpgradeAuditRecord.Settles
    (getUpgradeProposal s r.audit.kind) (some r) (getUpgradeProposal s' r.audit.kind)
  others : ∀ kind ≠ r.audit.kind, getUpgradeProposal s' kind = getUpgradeProposal s kind

theorem addOrTrap_toNat {a b c : UInt64} (h : addOrTrap a b = .ok c) :
    c.toNat = a.toNat + b.toNat := by
  simp only [addOrTrap, bind_eq_ok, ensure_eq_ok, pure_eq_ok] at h
  obtain ⟨_, hfits, rfl⟩ := h
  rw [UInt64.toNat_add, Nat.mod_eq_of_lt hfits]

/-- **What the upgrade flow puts on record.** -/
theorem exec_audit (haudited : call.Audited) (h : exec env s call = .ok s') :
    ∃ r, call.audits env s = some r ∧ Audit env s s' r := by
  cases call with
  | proposeUpgrade caller org kind version wasmHash address =>
      simp only [exec, proposeUpgrade, bind_eq_ok, requireAuth_eq_ok, require_eq_ok, pure_eq_ok] at h
      obtain ⟨_, _, _, _, _, hauth, _, _, _, _, _, _, _, _, _, hnone, _, _, expiresAt, hexpiry, rfl⟩ := h
      refine ⟨_, rfl, hauth, rfl, ?_, ?_⟩
      · simp only [getUpgradeProposal, State.appendAudit, Function.update_self, hnone]
        exact .filled _ _ ⟨⟨rfl, rfl, rfl⟩, rfl, rfl, addOrTrap_toNat hexpiry⟩
      · intro kind' hother
        exact Function.update_of_ne hother _ _
  | commitUpgrade caller kind =>
      obtain ⟨_, h⟩ := snd_map_ok h
      simp only [commitUpgrade, bind_eq_ok, requireAdmin_eq_ok, okOr_eq_ok, require_eq_ok, pure_eq_ok,
        Prod.mk.injEq] at h
      obtain ⟨_, _, _, hadmin, proposal, hproposal, _, hintime, _, _, _, _, _, rfl⟩ := h
      have hrecord : Call.audits env s (.commitUpgrade caller kind) = some
          ⟨.committed, ⟨kind, proposal.version, proposal.wasmHash, proposal.org, caller,
            env.timestamp⟩⟩ := by
        simp [Call.audits, getUpgradeProposal, hproposal]
      refine ⟨_, hrecord, hadmin.auth, rfl, ?_, ?_⟩
      · simp only [getUpgradeProposal, State.appendAudit, Function.update_self, hproposal]
        exact .cleared _ _ ⟨⟨rfl, rfl, rfl⟩, .inl ⟨rfl, UInt64.not_lt.1 hintime⟩⟩
      · intro kind' hother
        exact Function.update_of_ne hother _ _
  | rejectUpgrade caller kind =>
      simp only [exec, rejectUpgrade, bind_eq_ok, requireAuth_eq_ok, okOr_eq_ok, pure_eq_ok] at h
      obtain ⟨_, _, _, hauth, proposal, hproposal, _, _, rfl⟩ := h
      have hrecord : Call.audits env s (.rejectUpgrade caller kind) = some
          ⟨.rejected, ⟨kind, proposal.version, proposal.wasmHash, proposal.org, caller,
            env.timestamp⟩⟩ := by
        simp [Call.audits, getUpgradeProposal, hproposal]
      refine ⟨_, hrecord, hauth, rfl, ?_, ?_⟩
      · simp only [getUpgradeProposal, State.appendAudit, Function.update_self, hproposal]
        exact .cleared _ _ ⟨⟨rfl, rfl, rfl⟩, .inr rfl⟩
      · intro kind' hother
        exact Function.update_of_ne hother _ _
  | _ => exact haudited.elim

theorem audits_of_other (hother : ¬ call.Audited) : call.audits env s = none := by
  cases call with
  | proposeUpgrade | commitUpgrade | rejectUpgrade => exact absurd trivial hother
  | _ => rfl

/-- **What a step does to the slot of a kind.** -/
theorem step_slotted {i : Inputs here} (kind : ModuleKind) (hstep : (machine here).step i s s') :
    Slotted UpgradeAuditRecord.Proposes UpgradeAuditRecord.Settles (getUpgradeProposal s kind)
      (auditsOf kind ⟨s, i, s'⟩) (getUpgradeProposal s' kind) := by
  cases i with
  | outside time uploaded =>
      obtain rfl : s' = { s with uploaded := uploaded } := hstep
      exact .kept _
  | invoke env call =>
      by_cases haudited : call.Audited
      · obtain ⟨r, hrecord, haudit⟩ := exec_audit haudited hstep
        by_cases hkind : r.audit.kind = kind
        · subst hkind
          have hof : auditsOf r.audit.kind ⟨s, .invoke env call, s'⟩ = some r := by
            simp [auditsOf, audits, hrecord, Option.filter]
          rw [hof]
          exact haudit.slot
        · have hof : auditsOf kind ⟨s, .invoke env call, s'⟩ = none := by
            simp [auditsOf, audits, hrecord, Option.filter, hkind]
          rw [hof, haudit.others kind (Ne.symm hkind)]
          exact .kept _
      · have hof : auditsOf kind ⟨s, .invoke env call, s'⟩ = none := by
          simp [auditsOf, audits, audits_of_other haudited]
        have hkept : getUpgradeProposal s' kind = getUpgradeProposal s kind :=
          congrFun (exec_keepsHistory haudited hstep).1 kind
        rw [hof, hkept]
        exact .kept _

/-- What a step puts in front of the history. -/
theorem step_history {i : Inputs here} (hstep : (machine here).step i s s') :
    getUpgradeHistory s'
      = cutTo maxUpgradeAuditEntries (getUpgradeHistory s) (audits ⟨s, i, s'⟩) := by
  cases i with
  | outside time uploaded =>
      obtain rfl : s' = { s with uploaded := uploaded } := hstep
      rfl
  | invoke env call =>
      by_cases haudited : call.Audited
      · obtain ⟨r, hrecord, haudit⟩ := exec_audit haudited hstep
        have hrecord' : audits ⟨s, .invoke env call, s'⟩ = some r := hrecord
        rw [hrecord']
        exact haudit.history
      · have hrecord : audits ⟨s, .invoke env call, s'⟩ = none := audits_of_other haudited
        rw [hrecord]
        exact congrArg (fun log => log.getD []) (exec_keepsHistory haudited hstep).2

/-- What an entry raises the latest version of a kind to. -/
def raises (kind : ModuleKind) (e : Entry State (Inputs here)) : Option UInt32 :=
  if e.post.latest kind = e.pre.latest kind then none else some (e.post.latest kind)

/-- A version that an entry commits becomes the latest. -/
theorem raises_of_commits {e : Entry State (Inputs here)} {v : UInt32}
    (hstep : (machine here).step e.input e.pre e.post) (hcommits : commits kind e = some v) :
    raises kind e = some v := by
  simp only [commits, auditsOf, Option.map_eq_some_iff, Option.filter_eq_some_iff,
    decide_eq_true_eq] at hcommits
  obtain ⟨r, ⟨⟨hrecord, hkind⟩, haction⟩, hversion⟩ := hcommits
  obtain ⟨s, input, s'⟩ := e
  cases input with
  | outside time uploaded => cases hrecord
  | invoke env call =>
      cases call with
      | commitUpgrade caller kind' =>
          have hexec : exec env s (.commitUpgrade caller kind') = .ok s' := hstep
          obtain ⟨_, h⟩ := snd_map_ok hexec
          obtain ⟨proposal, log, _, _, hproposal, hnewer, hpost⟩ := commitUpgrade_ok h
          have hlogged : r.audit.kind = kind' ∧ r.audit.version = proposal.version := by
            simp only [audits, Call.audits, getUpgradeProposal, hproposal, Option.map_some,
              Option.some.injEq] at hrecord
            rw [← hrecord]
            exact ⟨rfl, rfl⟩
          obtain rfl : kind' = kind := hlogged.1.symm.trans hkind
          have hlatest : State.latest s' kind' = v := by
            rw [hpost, ← hversion, hlogged.2]
            simp [State.latest]
          have hmoved : State.latest s' kind' ≠ State.latest s kind' := by
            rw [hlatest, ← hversion, hlogged.2]
            exact (UInt32.ne_of_lt hnewer).symm
          rw [← hlatest]
          exact if_neg hmoved
      | proposeUpgrade =>
          cases hrecord
          cases haction
      | rejectUpgrade =>
          obtain ⟨p, _, hr⟩ := Option.map_eq_some_iff.1 hrecord
          rw [← hr] at haction
          cases haction
      | _ => cases hrecord

/-- The latest version of a kind only rises. -/
theorem latest_raised {e : Entry State (Inputs here)} (hs : Versioned e.pre)
    (hstep : (machine here).step e.input e.pre e.post) :
    Raises (· < ·) (fun s : State => s.latest kind) (raises kind) e := by
  unfold Raises raises
  split
  · rename_i hnone
    split at hnone
    · rename_i hsame
      exact hsame
    · cases hnone
  · rename_i v hsome
    split at hsome
    · cases hsome
    · rename_i hmoved
      cases hsome
      exact ⟨UInt32.lt_of_le_of_ne ((step_versions hs hstep).2 kind) (Ne.symm hmoved), rfl⟩

/-! ## Runs -/

/-- What the history says about a run. -/
structure Recounted (tr : List (Entry State (Inputs here))) (s : State) : Prop where
  history : getUpgradeHistory s = newest maxUpgradeAuditEntries (log audits tr)
  signed : ∀ e ∈ tr, ∀ r, audits e = some r →
    ∃ env call, e.input = .invoke env call ∧ r.audit.actor ∈ env.auths
  trail : ∀ kind, Trail UpgradeAuditRecord.Proposes UpgradeAuditRecord.Settles
    (log (auditsOf kind) tr) (getUpgradeProposal s kind)
  rising : ∀ kind, (log (commits kind) tr).Pairwise (· < ·)

/-- **The upgrade history recounts the run.**  In every run of the registry, whatever is called by
whom, the history holds the newest records of what was proposed, committed and rejected, newest
first, each under the name of somebody who signed it.  For each kind of module proposals and
settlements alternate: each settlement is about the proposal right before it, and is no commitment
after that expired; what is pending is the last proposal, unless it was settled.  The versions
that are committed rise. -/
theorem upgrade_history (hpath : (machine here).Path anyInput tr s t) : Recounted tr s := by
  refine ⟨?_, ?_, ?_, ?_⟩
  · refine hpath.log_cut ?_ fun _ _ _ hstep => step_history hstep
    intro s hfresh
    exact congrArg (fun log => log.getD []) (Fresh.upgradeAuditLog hfresh)
  · intro e he r hrecord
    have hstep := hpath.stepped he
    obtain ⟨pre, input, post⟩ := e
    cases input with
    | outside time uploaded => cases hrecord
    | invoke env call =>
        refine ⟨env, call, rfl, ?_⟩
        by_cases haudited : call.Audited
        · obtain ⟨r', hrecord', haudit⟩ := exec_audit haudited hstep
          have hsame : some r' = some r := hrecord'.symm.trans hrecord
          cases hsame
          exact haudit.signed
        · have hnone : (none : Option UpgradeAuditRecord) = some r :=
            (audits_of_other haudited).symm.trans hrecord
          cases hnone
  · intro kind
    exact hpath.trail (fun s hfresh => Fresh.upgradeProposal hfresh kind)
      fun _ _ _ hstep => step_slotted kind hstep
  · intro kind
    have hrun : (machine here).Path anyInput ([] ++ tr) s t := hpath
    have hraises : ∀ e ∈ tr, Raises (· < ·) (fun s : State => s.latest kind) (raises kind) e :=
      fun e he => latest_raised (versioned_reachable (hpath.reachable_of_mem he)) (hpath.stepped he)
    have htrans : ∀ a b c : UInt32, a < b → b < c → a < c := fun _ _ _ => UInt32.lt_trans
    obtain ⟨hrising, _⟩ := hrun.rising htrans hraises
    refine hrising.sublist (log_sublist ?_)
    exact fun e he v hcommits => raises_of_commits (hpath.stepped he) hcommits

/-! ### A run -/

/-- Version 1 is proposed and rejected, and then version 2 is proposed and committed. -/
def reconsidering : Script Call :=
  opening ++ [
    (signedBy 2 [3], .proposeUpgrade (.account 3) "org" .wallet 1 (hashOf 3) (.contract 13)),
    (signedBy 3 [2], .rejectUpgrade (.account 2) .wallet),
    (signedBy 4 [3], .proposeUpgrade (.account 3) "org" .wallet 2 (hashOf 4) (.contract 14)),
    (signedBy 5 [1], .commitUpgrade (.account 1) .wallet)]

/-- All four are on record. -/
theorem upgrade_history_reconsidering :
    getUpgradeHistoryLen (play deployed reconsidering) = 4 ∧
      Recounted ((deployment (.contract 0)).trace deployed reconsidering)
        (play deployed reconsidering) := by
  have hplays : (deployment (.contract 0)).plays deployed 0 reconsidering = true := by decide
  exact ⟨by decide, upgrade_history (Deployment.path_trace deployed_fresh hplays)⟩

end RegistryContract
end Astroid
