import Astroid.Multisig.Machine

/-!
# What a successful multisig call did to governance

What an entrypoint writes when it returns is said once, by the lemma named after it.
With these, every call that returns is one of seven things (`exec_effect`): it initialized
the contract, edited the signer set directly, finalized a pending threshold,
recorded a change, executed one, cancelled one, or left governance alone.
-/

namespace Astroid
namespace MultisigContract

open Outcome

variable {World : Type} {H : MultisigHost World} {env : Env H.self} {s s' : State World}

/-- `caller` is one of the signers. -/
def State.IsSigner (s : State World) (caller : Address) : Prop :=
  ∃ signers, s.signers = some signers ∧ IsSignerIn signers caller

theorem requireGovernor_ok {caller : Address} {u : Unit}
    (h : requireGovernor H env s caller = .ok u) : caller ∈ env.auths ∧ s.IsSigner caller := by
  simp only [requireGovernor, State.loadSigners, bind_eq_ok, requireAuth_eq_ok, okOr_eq_ok,
    require_eq_ok] at h
  obtain ⟨_, hauth, signers, hsigners, hmem⟩ := h
  exact ⟨hauth, signers, hsigners, hmem⟩

theorem requireGovernor_returns {caller : Address} (hauth : caller ∈ env.auths)
    (hsigner : s.IsSigner caller) : requireGovernor H env s caller = .ok () := by
  obtain ⟨signers, hsigners, hmem⟩ := hsigner
  simp only [requireGovernor, State.loadSigners, bind_eq_ok, requireAuth_eq_ok, okOr_eq_ok,
    require_eq_ok]
  exact ⟨(), hauth, signers, hsigners, hmem⟩

/-! ## The signer set, the threshold and the lock -/

theorem initializeContract_ok {signers : List SignerWeight} {threshold : ℕ}
    (h : initializeContract s signers threshold = .ok s') : s.threshold = none ∧ s' = { s with
      signers := some signers
      threshold := some threshold
      emergencyLock := false
      proposalCount := some 0
      lastBatchNonce := 0
      changeCount := 0
      timelockDelay := some (UInt64.ofNat minTimelockDelay) } := by
  simp only [initializeContract, bind_eq_ok, require_eq_ok, pure_eq_ok] at h
  obtain ⟨_, hnone, _, _, _, _, _, _, _, _, _, _, rfl⟩ := h
  exact ⟨hnone, rfl⟩

theorem addSigner_ok {caller signer : Address} {weight : ℕ}
    (h : addSigner H env s caller signer weight = .ok s') :
    ∃ signers, s' = { s with signers := signers } := by
  simp only [addSigner, bind_eq_ok, pure_eq_ok] at h
  obtain ⟨_, _, _, _, _, _, _, _, _, _, _, _, _, _, _, _, rfl⟩ := h
  exact ⟨_, rfl⟩

theorem removeSigner_ok {caller signer : Address}
    (h : removeSigner H env s caller signer = .ok s') :
    ∃ signers, s' = { s with signers := signers } := by
  simp only [removeSigner, bind_eq_ok, pure_eq_ok] at h
  obtain ⟨_, _, _, _, _, _, _, _, _, _, _, _, _, _, _, _, rfl⟩ := h
  exact ⟨_, rfl⟩

theorem setThreshold_ok {caller : Address} {threshold : ℕ}
    (h : setThreshold H env s caller threshold = .ok s') :
    ∃ pending, s' = { s with pendingThreshold := pending } := by
  simp only [setThreshold, bind_eq_ok, pure_eq_ok] at h
  obtain ⟨_, _, _, _, _, _, _, _, _, _, _, _, rfl⟩ := h
  exact ⟨_, rfl⟩

theorem finalizeThreshold_ok {caller : Address}
    (h : finalizeThreshold H env s caller = .ok s') :
    ∃ p, s.pendingThreshold = some p ∧
      s' = { s with threshold := some p.newThreshold, pendingThreshold := none } := by
  simp only [finalizeThreshold, bind_eq_ok, okOr_eq_ok, pure_eq_ok] at h
  obtain ⟨_, _, p, hp, _, _, _, _, _, _, _, _, _, _, rfl⟩ := h
  exact ⟨p, hp, rfl⟩

theorem setEmergencyLock_ok {caller : Address} {locked : Bool}
    (h : setEmergencyLock H env s caller locked = .ok s') :
    s' = { s with emergencyLock := locked } := by
  simp only [setEmergencyLock, bind_eq_ok, pure_eq_ok] at h
  obtain ⟨_, _, rfl⟩ := h
  rfl

/-! ## The queue of changes -/

/-- The change a proposing call asks for. -/
def Call.change : Call → Option GovernanceChange
  | .proposeThresholdChange _ newThreshold => some (.threshold newThreshold)
  | .proposeWeightChange _ signer newWeight => some (.signerWeight signer newWeight)
  | .proposeSignerAddition _ signer weight => some (.addSigner signer weight)
  | .proposeSignerRemoval _ signer => some (.removeSigner signer)
  | .proposeTimelockDelayChange _ newDelay => some (.timelockDelay newDelay)
  | _ => none

/-- What `propose_change` records. -/
theorem proposeChange_ok {caller : Address} {change : GovernanceChange} {id : ℕ}
    (h : proposeChange H env s caller change = .ok (id, s')) :
    ∃ p : PendingChange, s.IsSigner caller ∧ p.change = change ∧ p.proposedAt = env.timestamp ∧
      p.eta.toNat = env.timestamp.toNat + s.loadTimelockDelay.toNat ∧ p.IsOpen ∧
      s' = { s.storeChange id p with changeCount := id } := by
  simp only [proposeChange, bind_eq_ok, checkedAddU64_eq_ok, pure_eq_ok, Prod.mk.injEq] at h
  obtain ⟨_, _, _, hgovernor, _, _, _, ⟨hfits, rfl⟩, _, _, rfl, rfl⟩ := h
  have heta : (env.timestamp + s.loadTimelockDelay).toNat
      = env.timestamp.toNat + s.loadTimelockDelay.toNat := by
    rw [UInt64.toNat_add, Nat.mod_eq_of_lt hfits]
  exact ⟨_, (requireGovernor_ok hgovernor).2, rfl, rfl, heta, ⟨rfl, rfl⟩, rfl⟩

/-- Applying a change writes the signer set, the threshold or the delay. -/
theorem applyChange_ok {change : GovernanceChange} (h : applyChange s change = .ok s') :
    ∃ signers threshold delay, s' = { s with
      signers := signers
      threshold := threshold
      timelockDelay := delay } := by
  cases change with
  | threshold newThreshold =>
      cases h
      exact ⟨_, _, _, rfl⟩
  | signerWeight signer weight =>
      simp only [applyChange, bind_eq_ok, pure_eq_ok] at h
      obtain ⟨_, _, _, _, _, _, rfl⟩ := h
      exact ⟨_, _, _, rfl⟩
  | addSigner signer weight =>
      simp only [applyChange, bind_eq_ok, pure_eq_ok] at h
      obtain ⟨_, _, rfl⟩ := h
      exact ⟨_, _, _, rfl⟩
  | removeSigner signer =>
      simp only [applyChange, bind_eq_ok, pure_eq_ok] at h
      obtain ⟨_, _, _, _, rfl⟩ := h
      exact ⟨_, _, _, rfl⟩
  | timelockDelay delay =>
      cases h
      exact ⟨_, _, _, rfl⟩

/-- A delay that passed its check is kept within its bounds when it is applied, and no
other change touches it. -/
theorem applyChange_delay {change : GovernanceChange} {u : Unit}
    (hvalid : validateChange s change = .ok u) (h : applyChange s change = .ok s')
    (hs : minTimelockDelay ≤ s.loadTimelockDelay.toNat) :
    minTimelockDelay ≤ s'.loadTimelockDelay.toNat := by
  cases change with
  | threshold newThreshold =>
      cases h
      exact hs
  | signerWeight signer weight =>
      simp only [applyChange, bind_eq_ok, pure_eq_ok] at h
      obtain ⟨_, _, _, _, _, _, rfl⟩ := h
      exact hs
  | addSigner signer weight =>
      simp only [applyChange, bind_eq_ok, pure_eq_ok] at h
      obtain ⟨_, _, rfl⟩ := h
      exact hs
  | removeSigner signer =>
      simp only [applyChange, bind_eq_ok, pure_eq_ok] at h
      obtain ⟨_, _, _, _, rfl⟩ := h
      exact hs
  | timelockDelay delay =>
      simp only [validateChange, bind_eq_ok, require_eq_ok] at hvalid
      obtain ⟨_, _, _, _, _, _, hmin, _⟩ := hvalid
      cases h
      exact hmin

theorem executeThresholdChange_ok {caller : Address} {id : ℕ}
    (h : executeThresholdChange H env s caller id = .ok s') :
    ∃ p s₁, s.change id = some p ∧ p.IsOpen ∧ p.eta ≤ env.timestamp ∧
      env.timestamp < p.expiresAt ∧ validateChange s p.change = .ok () ∧
      applyChange s p.change = .ok s₁ ∧ s' = s₁.storeChange id { p with executed := true } := by
  simp only [executeThresholdChange, State.loadChange, requireChangeOpen, bind_eq_ok, okOr_eq_ok,
    require_eq_ok, pure_eq_ok, UInt64.not_lt, UInt64.not_le] at h
  obtain ⟨_, _, _, _, p, hp, _, hopen, _, heta, _, hexpires, _, hvalid, s₁, happly, rfl⟩ := h
  exact ⟨p, s₁, hp, hopen, heta, hexpires, hvalid, happly, rfl⟩

theorem cancelThresholdChange_ok {caller : Address} {id : ℕ}
    (h : cancelThresholdChange H env s caller id = .ok s') :
    ∃ p, s.change id = some p ∧ p.IsOpen ∧
      s' = s.storeChange id { p with cancelled := true } := by
  simp only [cancelThresholdChange, State.loadChange, requireChangeOpen, bind_eq_ok, okOr_eq_ok,
    require_eq_ok, pure_eq_ok] at h
  obtain ⟨_, _, p, hp, _, hopen, rfl⟩ := h
  exact ⟨p, hp, hopen, rfl⟩

/-- Any signer can cancel an open change, whatever else the contract is in. -/
theorem cancelThresholdChange_returns {caller : Address} {id : ℕ} {p : PendingChange}
    (hauth : caller ∈ env.auths) (hsigner : s.IsSigner caller) (hp : s.change id = some p)
    (hopen : p.IsOpen) : ∃ s', cancelThresholdChange H env s caller id = .ok s' := by
  refine ⟨s.storeChange id { p with cancelled := true }, ?_⟩
  simp only [cancelThresholdChange, State.loadChange, requireChangeOpen, bind_eq_ok, okOr_eq_ok,
    require_eq_ok, pure_eq_ok]
  exact ⟨(), requireGovernor_returns hauth hsigner, p, hp, (), hopen, rfl⟩

/-! ## Proposals and batches -/

section Proposals

variable {caller : Address} {id : ℕ}

theorem weightIn_ok {signers : List SignerWeight} {who : Address} {weight : ℕ} (h : weightIn signers who = .ok weight) :
    ∃ signer ∈ signers, signer.address = who ∧ signer.weight = weight := by
  simp only [weightIn, bind_eq_ok, okOr_eq_ok, pure_eq_ok] at h
  obtain ⟨signer, hfind, rfl⟩ := h
  exact ⟨signer, List.mem_of_find?_eq_some hfind, by simpa using List.find?_some hfind, rfl⟩

theorem requireSigner_ok {u : Unit} (h : requireSigner H env s caller = .ok u) :
    caller ∈ env.auths ∧ s.IsSigner caller := by
  simp only [requireSigner, State.loadSigners, bind_eq_ok, requireAuth_eq_ok, okOr_eq_ok,
    require_eq_ok] at h
  obtain ⟨_, hauth, signers, hsigners, hmem⟩ := h
  exact ⟨hauth, signers, hsigners, hmem⟩

theorem requireSignerWeight_ok {weight : ℕ}
    (h : requireSignerWeight H env s caller = .ok weight) : s.IsSigner caller := by
  simp only [requireSignerWeight, State.loadSigners, bind_eq_ok, okOr_eq_ok] at h
  obtain ⟨_, _, signers, hsigners, hweight⟩ := h
  obtain ⟨signer, hmem, rfl, _⟩ := weightIn_ok hweight
  exact ⟨signers, hsigners, List.mem_map_of_mem hmem⟩

theorem propose_ok {action : String} {payload : List UInt8} {unlockAt : UInt64}
    (h : propose H env s caller action payload unlockAt = .ok (id, s')) :
    ∃ count p, s.IsSigner caller ∧ s.proposalCount = some count ∧ id = (count + 1) % 2 ^ 64 ∧
      p.executed = false ∧ s' = { (s.storeProposal id p).storeApproval id caller with
        proposalCount := some id } := by
  simp only [propose, bind_eq_ok, okOr_eq_ok, pure_eq_ok, Prod.mk.injEq] at h
  obtain ⟨_, _, _, hsigner, count, hcount, _, _, rfl, rfl⟩ := h
  exact ⟨count, _, requireSignerWeight_ok hsigner, hcount, rfl, rfl, rfl⟩

theorem approve_ok {weight : ℕ} (h : approve H env s caller id = .ok (weight, s')) :
    ∃ p, s.IsSigner caller ∧ s.proposal id = some p ∧ p.executed = false ∧
      s.approval id caller = false ∧
      s' = (s.storeApproval id caller).storeProposal id { p with approvalWeight := weight } := by
  simp only [approve, State.loadProposal, bind_eq_ok, okOr_eq_ok, require_eq_ok, pure_eq_ok,
    Prod.mk.injEq] at h
  obtain ⟨_, _, _, hsigner, p, hp, _, hopen, _, hnew, _, _, _, _, rfl, rfl⟩ := h
  exact ⟨p, requireSignerWeight_ok hsigner, hp, hopen, hnew, rfl⟩

/-- A time lock of 0 is met at every time. -/
theorem requireUnlocked_eq_ok {p : MsProposal} {u : Unit} :
    requireUnlocked H env p = .ok u ↔ p.unlockAt ≤ env.timestamp := by
  unfold requireUnlocked
  split
  · exact require_eq_ok
  · rename_i hzero
    rw [not_not] at hzero
    rw [hzero]
    exact ⟨fun _ => UInt64.zero_le, fun _ => rfl⟩

theorem execute_ok (h : execute H env s caller id = .ok s') :
    ∃ p status, s.emergencyLock = false ∧ caller ∈ env.auths ∧ s.IsSigner caller ∧
      s.proposal id = some p ∧ p.executed = false ∧ quorumStatus s id = .ok status ∧
      status.met = true ∧ p.unlockAt ≤ env.timestamp ∧
      s' = s.storeProposal id { p with
        approvalWeight := status.approvalWeight
        executed := true } := by
  simp only [execute, State.requireNotLocked, State.loadProposal, QuorumStatus.ensureMet,
    bind_eq_ok, okOr_eq_ok, require_eq_ok, pure_eq_ok] at h
  obtain ⟨_, hlock, _, hsigner, p, hp, _, hopen, status, hstatus, _, hmet, _, hunlocked, rfl⟩ := h
  obtain ⟨hauth, hmem⟩ := requireSigner_ok hsigner
  exact ⟨p, status, hlock, hauth, hmem, hp, hopen, hstatus, hmet, requireUnlocked_eq_ok.1 hunlocked,
    rfl⟩

end Proposals

/-- The calls of a batch write nothing here. -/
theorem executeCalls_ok {calls : List BatchCall} (h : executeCalls H env s calls = .ok s') :
    ∃ w, s' = { s with world := w } := by
  induction calls generalizing s with
  | nil =>
      cases h
      exact ⟨_, rfl⟩
  | cons call rest ih =>
      simp only [executeCalls, executeCall, bind_eq_ok] at h
      obtain ⟨s₁, hcall, hrest⟩ := h
      split at hcall
      · cases hcall
        obtain ⟨w, rfl⟩ := ih hrest
        exact ⟨w, rfl⟩
      · cases hcall
      · cases hcall

/-- A batch is executed under a higher nonce, and the contract writes no more than that. -/
theorem executeBatch_ok {caller : Address} {nonce : UInt64} {calls : List BatchCall}
    {approvers : List Address}
    (h : executeBatch H env s caller nonce calls approvers = .ok s') :
    s.lastBatchNonce < nonce ∧ ∃ w, s' = { s with world := w, lastBatchNonce := nonce } := by
  simp only [executeBatch, bind_eq_ok, require_eq_ok] at h
  obtain ⟨_, _, _, _, _, _, _, _, _, _, _, _, _, hnonce, _, _, _, _, _, _, hcalls⟩ := h
  obtain ⟨w, rfl⟩ := executeCalls_ok hcalls
  exact ⟨hnonce, w, rfl⟩

/-! ## Every call -/

/-- The signer set, the threshold, the delay and the recorded changes are untouched. -/
structure Kept (s s' : State World) : Prop where
  signers : s'.signers = s.signers
  threshold : s'.threshold = s.threshold
  timelockDelay : s'.timelockDelay = s.timelockDelay
  change : s'.change = s.change

/-- What a call that returned did to governance. -/
inductive Effect (H : MultisigHost World) (env : Env H.self) (s : State World) (call : Call)
    (s' : State World) : Prop
  | kept : Kept s s' → Effect H env s call s'
  | initialized : s.threshold = none → s'.loadTimelockDelay = UInt64.ofNat minTimelockDelay →
      s'.change = s.change → Effect H env s call s'
  | added (caller signer : Address) (weight : ℕ) : call = .addSigner caller signer weight →
      s'.timelockDelay = s.timelockDelay → s'.change = s.change → Effect H env s call s'
  | removed (caller signer : Address) : call = .removeSigner caller signer →
      s'.timelockDelay = s.timelockDelay → s'.change = s.change → Effect H env s call s'
  | finalized (caller : Address) (p : PendingThresholdChange) :
      call = .finalizeThreshold caller → s.pendingThreshold = some p →
      s' = { s with threshold := some p.newThreshold, pendingThreshold := none } →
      Effect H env s call s'
  | recorded (caller : Address) (id : ℕ) (p : PendingChange) : call.change = some p.change →
      s.IsSigner caller → p.proposedAt = env.timestamp →
      p.eta.toNat = env.timestamp.toNat + s.loadTimelockDelay.toNat → p.IsOpen →
      s' = { s.storeChange id p with changeCount := id } → Effect H env s call s'
  | executed (caller : Address) (id : ℕ) (p : PendingChange) (s₁ : State World) :
      call = .executeThresholdChange caller id → s.change id = some p → p.IsOpen →
      p.eta ≤ env.timestamp → env.timestamp < p.expiresAt →
      validateChange s p.change = .ok () → applyChange s p.change = .ok s₁ →
      s' = s₁.storeChange id { p with executed := true } → Effect H env s call s'
  | cancelled (caller : Address) (id : ℕ) (p : PendingChange) :
      call = .cancelThresholdChange caller id → s.change id = some p → p.IsOpen →
      s' = s.storeChange id { p with cancelled := true } → Effect H env s call s'

/-- The five proposing entrypoints are `propose_change` on their change. -/
theorem proposeChange_effect {call : Call} {caller : Address} {change : GovernanceChange} {id : ℕ}
    (hcall : call.change = some change)
    (h : proposeChange H env s caller change = .ok (id, s')) : Effect H env s call s' := by
  obtain ⟨p, hsigner, rfl, hproposed, heta, hopen, hs'⟩ := proposeChange_ok h
  exact .recorded caller id p hcall hsigner hproposed heta hopen hs'

/-- **Every call that returned did one of these things.** -/
theorem exec_effect {call : Call} (h : exec H env s call = .ok s') : Effect H env s call s' := by
  cases call with
  | initializeContract signers threshold =>
      obtain ⟨hnone, rfl⟩ := initializeContract_ok h
      exact .initialized hnone rfl rfl
  | addSigner caller signer weight =>
      obtain ⟨_, rfl⟩ := addSigner_ok h
      exact .added caller signer weight rfl rfl rfl
  | removeSigner caller signer =>
      obtain ⟨_, rfl⟩ := removeSigner_ok h
      exact .removed caller signer rfl rfl rfl
  | setThreshold caller threshold =>
      obtain ⟨_, rfl⟩ := setThreshold_ok h
      exact .kept ⟨rfl, rfl, rfl, rfl⟩
  | finalizeThreshold caller =>
      obtain ⟨p, hp, hs'⟩ := finalizeThreshold_ok h
      exact .finalized caller p rfl hp hs'
  | proposeThresholdChange caller newThreshold =>
      obtain ⟨id, h⟩ := snd_map_ok h
      exact proposeChange_effect rfl h
  | proposeWeightChange caller signer newWeight =>
      obtain ⟨id, h⟩ := snd_map_ok h
      exact proposeChange_effect rfl h
  | proposeSignerAddition caller signer weight =>
      obtain ⟨id, h⟩ := snd_map_ok h
      exact proposeChange_effect rfl h
  | proposeSignerRemoval caller signer =>
      obtain ⟨id, h⟩ := snd_map_ok h
      exact proposeChange_effect rfl h
  | proposeTimelockDelayChange caller newDelay =>
      obtain ⟨id, h⟩ := snd_map_ok h
      exact proposeChange_effect rfl h
  | executeThresholdChange caller id =>
      obtain ⟨p, s₁, hp, hopen, heta, hexpires, hvalid, happly, hs'⟩ :=
        executeThresholdChange_ok h
      exact .executed caller id p s₁ rfl hp hopen heta hexpires hvalid happly hs'
  | cancelThresholdChange caller id =>
      obtain ⟨p, hp, hopen, hs'⟩ := cancelThresholdChange_ok h
      exact .cancelled caller id p rfl hp hopen hs'
  | setEmergencyLock caller locked =>
      obtain rfl := setEmergencyLock_ok h
      exact .kept ⟨rfl, rfl, rfl, rfl⟩
  | propose proposer action payload unlockAt =>
      obtain ⟨id, h⟩ := snd_map_ok h
      obtain ⟨_, _, _, _, _, _, rfl⟩ := propose_ok h
      exact .kept ⟨rfl, rfl, rfl, rfl⟩
  | approve caller id =>
      obtain ⟨weight, h⟩ := snd_map_ok h
      obtain ⟨_, _, _, _, _, rfl⟩ := approve_ok h
      exact .kept ⟨rfl, rfl, rfl, rfl⟩
  | execute caller id =>
      obtain ⟨_, _, _, _, _, _, _, _, _, _, rfl⟩ := execute_ok h
      exact .kept ⟨rfl, rfl, rfl, rfl⟩
  | executeBatch caller nonce calls approvers =>
      obtain ⟨_, _, rfl⟩ := executeBatch_ok h
      exact .kept ⟨rfl, rfl, rfl, rfl⟩
  | verifyThreshold caller signatories payload =>
      obtain ⟨_, _, rfl⟩ := map_ok h
      exact .kept ⟨rfl, rfl, rfl, rfl⟩

end MultisigContract
end Astroid
