import Astroid.Multisig.Signers

/-!
# The signer set stays well formed

Three routes write the signer set and the threshold, and a change that waited in the queue
is applied to a signer set that the other routes may have moved.  Each of them checks
what it writes against what is live at that moment, so every edit keeps the signer set
well formed (`Governed.call`), in every interleaving (`wellFormed_reachable`).
-/

namespace Astroid
namespace MultisigContract

open Outcome Quorum

variable {World : Type} {H : MultisigHost World} {env : Env H.self} {s s' s₁ : State World}
  {signers before after : List SignerWeight} {signer : SignerWeight} {threshold weight : ℕ}

/-! ## Edits of a signer set -/

section Positions

theorem eraseIdx_middle :
    (before ++ signer :: after).eraseIdx before.length = before ++ after := by
  simp [List.eraseIdx_append_of_length_le]

theorem set_middle {x : SignerWeight} :
    (before ++ signer :: after).set before.length x = before ++ x :: after := by
  simp

theorem weights_middle : weights (before ++ signer :: after)
    = weights before + signer.weight + weights after := by
  rw [weights, total_append, total_cons, Nat.add_assoc]

end Positions

namespace WellFormed

theorem add {who : Address} (h : WellFormed signers threshold) (hnew : ¬ IsSignerIn signers who)
    (hweight : weight ≠ 0) (hlength : signers.length < maxSigners)
    (hfits : weights signers + weight ≤ 2 ^ 32 - 1) :
    WellFormed (signers ++ [⟨who, weight⟩]) threshold := by
  have hsum : weights (signers ++ [⟨who, weight⟩]) = weights signers + weight := by
    simp [weights]
  refine ⟨?_, ?_, ?_, hsum ▸ hfits, h.low, ?_⟩
  · rw [List.map_append, List.nodup_append_comm]
    exact List.nodup_cons.2 ⟨hnew, h.distinct⟩
  · rw [List.length_append]
    exact hlength
  · intro x hx
    rcases List.mem_append.1 hx with hx | hx
    · exact h.positive x hx
    · rw [List.mem_singleton] at hx
      subst hx
      exact Nat.pos_of_ne_zero hweight
  · rw [hsum]
    exact h.high.trans (Nat.le_add_right _ _)

theorem remove (h : WellFormed (before ++ signer :: after) threshold)
    (hreach : threshold ≤ weights before + weights after) :
    WellFormed (before ++ after) threshold := by
  have hsub : List.Sublist (before ++ after) (before ++ signer :: after) :=
    (List.Sublist.refl _).append (List.sublist_cons_self _ _)
  have hsum : weights (before ++ after) = weights before + weights after := total_append
  have hfits := h.fits
  rw [weights_middle] at hfits
  exact ⟨h.distinct.sublist (hsub.map _), hsub.length_le.trans h.length,
    fun x hx => h.positive x (hsub.subset hx), by omega, h.low, hsum ▸ hreach⟩

theorem reweigh (h : WellFormed (before ++ signer :: after) threshold) (hweight : weight ≠ 0)
    (hfits : weights before + weight + weights after ≤ 2 ^ 32 - 1)
    (hreach : threshold ≤ weights before + weight + weights after) :
    WellFormed (before ++ { signer with weight := weight } :: after) threshold := by
  have hsum : weights (before ++ { signer with weight := weight } :: after)
      = weights before + weight + weights after := weights_middle
  have hdistinct := h.distinct
  have hlength := h.length
  refine ⟨?_, ?_, ?_, hsum ▸ hfits, h.low, hsum ▸ hreach⟩
  · simpa using hdistinct
  · simpa using hlength
  · intro x hx
    rcases List.mem_append.1 hx with hx | hx
    · exact h.positive x (List.mem_append_left _ hx)
    · rcases List.mem_cons.1 hx with rfl | hx
      · exact Nat.pos_of_ne_zero hweight
      · exact h.positive x (List.mem_append_right _ (List.mem_cons_of_mem _ hx))

theorem rethreshold {threshold' : ℕ} (h : WellFormed signers threshold)
    (hvalid : minThreshold ≤ threshold' ∧ threshold' ≤ weights signers) :
    WellFormed signers threshold' :=
  ⟨h.distinct, h.length, h.positive, h.fits, hvalid.1, hvalid.2⟩

end WellFormed

/-! ## What the entrypoints write -/

/-- The contract is initialized, with a well-formed signer set. -/
structure Governed (s : State World) (signers : List SignerWeight) (threshold : ℕ) : Prop where
  signers_eq : s.signers = some signers
  threshold_eq : s.threshold = some threshold
  wellFormed : WellFormed signers threshold

/-- Some well-formed signer set governs. -/
def State.IsGoverned (s : State World) : Prop := ∃ signers threshold, Governed s signers threshold

theorem initializeContract_governed (h : initializeContract s signers threshold = .ok s') :
    Governed s' signers threshold := by
  simp only [initializeContract, validateThreshold, assertUnique, bind_eq_ok, require_eq_ok,
    totalWeight_eq_ok, pure_eq_ok] at h
  obtain ⟨_, _, _, ⟨_, hlength⟩, _, hpositive, _, hdistinct, _, ⟨hfits, rfl⟩, _, ⟨hlow, hhigh⟩,
    rfl⟩ := h
  exact ⟨rfl, rfl, hdistinct, hlength, fun x hx => Nat.pos_of_ne_zero (hpositive x hx), hfits, hlow,
    hhigh⟩

namespace Governed

theorem addSigner {caller who : Address} (hg : Governed s signers threshold)
    (h : addSigner H env s caller who weight = .ok s') : s'.IsGoverned := by
  simp only [MultisigContract.addSigner, State.loadSigners, hg.signers_eq, bind_eq_ok, okOr_eq_ok,
    require_eq_ok, totalWeight_eq_ok, checkedAdd_eq_ok, narrow_eq_ok, pure_eq_ok,
    Option.some.injEq] at h
  obtain ⟨_, _, _, hweight, _, rfl, _, hnew, _, hlength, _, ⟨_, rfl⟩, _, ⟨_, rfl⟩, _, ⟨hfits, _⟩,
    rfl⟩ := h
  exact ⟨_, _, rfl, hg.threshold_eq, hg.wellFormed.add hnew hweight hlength (by omega)⟩

theorem removeSigner {caller who : Address} (hg : Governed s signers threshold)
    (h : removeSigner H env s caller who = .ok s') : s'.IsGoverned := by
  simp only [MultisigContract.removeSigner, State.loadSigners, State.loadThreshold, hg.signers_eq,
    hg.threshold_eq, bind_eq_ok, okOr_eq_ok, require_eq_ok, totalWeight_eq_ok, checkedSub_eq_ok,
    orFail_eq_ok, pure_eq_ok, Option.some.injEq] at h
  obtain ⟨_, _, _, rfl, _, rfl, idx, hidx, _, ⟨_, rfl⟩, removed, hremoved, _, ⟨_, rfl⟩, _, hreach,
    rfl⟩ := h
  obtain ⟨before, signer, after, hsplit, rfl, _⟩ := indexOf_ok hidx
  subst hsplit
  have hsame : removed = signer := by simpa using hremoved.symm
  subst hsame
  rw [weights_middle] at hreach
  rw [eraseIdx_middle]
  exact ⟨_, _, rfl, rfl, hg.wellFormed.remove (by omega)⟩

theorem finalizeThreshold {caller : Address} (hg : Governed s signers threshold)
    (h : finalizeThreshold H env s caller = .ok s') : s'.IsGoverned := by
  simp only [MultisigContract.finalizeThreshold, validateThreshold, State.loadSigners, hg.signers_eq,
    bind_eq_ok, okOr_eq_ok, require_eq_ok, totalWeight_eq_ok, pure_eq_ok, Option.some.injEq] at h
  obtain ⟨_, _, p, _, _, _, _, _, _, rfl, _, ⟨_, rfl⟩, _, hvalid, rfl⟩ := h
  exact ⟨_, _, rfl, rfl, hg.wellFormed.rethreshold hvalid⟩

/-- A change is applied to the signer set it was just checked against. -/
theorem applyChange {change : GovernanceChange} {u : Unit} (hg : Governed s signers threshold)
    (hvalid : validateChange s change = .ok u) (h : applyChange s change = .ok s₁) :
    s₁.IsGoverned := by
  simp only [validateChange, State.loadSigners, State.loadThreshold, hg.signers_eq, hg.threshold_eq,
    bind_eq_ok, okOr_eq_ok, Option.some.injEq] at hvalid
  obtain ⟨_, rfl, _, rfl, sum, hsum, hvalid⟩ := hvalid
  obtain ⟨_, rfl⟩ := totalWeight_eq_ok.1 hsum
  cases change with
  | threshold newThreshold =>
      simp only [validateThreshold, bind_eq_ok, narrow_eq_ok, require_eq_ok] at hvalid
      obtain ⟨_, ⟨_, rfl⟩, hbounds⟩ := hvalid
      cases h
      exact ⟨_, _, hg.signers_eq, rfl, hg.wellFormed.rethreshold (by simpa using hbounds)⟩
  | signerWeight who weight =>
      simp only [bind_eq_ok, require_eq_ok, checkedSub_eq_ok, checkedAdd_eq_ok,
        narrow_eq_ok] at hvalid
      obtain ⟨_, hweight, current, hcurrent, _, ⟨_, rfl⟩, _, ⟨_, rfl⟩, _, ⟨hfits, _⟩, hreach⟩ :=
        hvalid
      simp only [MultisigContract.applyChange, State.loadSigners, hg.signers_eq, bind_eq_ok,
        okOr_eq_ok, orFail_eq_ok, pure_eq_ok, Option.some.injEq] at h
      obtain ⟨_, rfl, idx, hidx, updated, hupdated, rfl⟩ := h
      obtain ⟨before, signer, after, hsplit, rfl, _, hlookup⟩ := indexOf_ok hidx
      rw [hlookup, Except.ok.injEq] at hcurrent
      subst hsplit hcurrent
      have hsame : updated = signer := by simpa using hupdated.symm
      subst hsame
      rw [weights_middle] at hfits hreach
      rw [set_middle]
      exact ⟨_, _, rfl, hg.threshold_eq, hg.wellFormed.reweigh hweight (by omega) (by omega)⟩
  | addSigner who weight =>
      simp only [bind_eq_ok, require_eq_ok, checkedAdd_eq_ok, narrow_eq_ok, pure_eq_ok] at hvalid
      obtain ⟨_, hweight, _, hnew, _, hlength, _, ⟨_, rfl⟩, _, ⟨hfits, _⟩, _⟩ := hvalid
      simp only [MultisigContract.applyChange, State.loadSigners, hg.signers_eq, bind_eq_ok,
        okOr_eq_ok, pure_eq_ok, Option.some.injEq] at h
      obtain ⟨_, rfl, rfl⟩ := h
      exact ⟨_, _, rfl, hg.threshold_eq, hg.wellFormed.add hnew hweight hlength (by omega)⟩
  | removeSigner who =>
      simp only [bind_eq_ok, require_eq_ok, checkedSub_eq_ok] at hvalid
      obtain ⟨removed, hremoved, _, ⟨_, rfl⟩, hreach⟩ := hvalid
      simp only [MultisigContract.applyChange, State.loadSigners, hg.signers_eq, bind_eq_ok,
        okOr_eq_ok, pure_eq_ok, Option.some.injEq] at h
      obtain ⟨_, rfl, idx, hidx, rfl⟩ := h
      obtain ⟨before, signer, after, hsplit, rfl, _, hlookup⟩ := indexOf_ok hidx
      rw [hlookup, Except.ok.injEq] at hremoved
      subst hsplit hremoved
      rw [weights_middle] at hreach
      rw [eraseIdx_middle]
      exact ⟨_, _, rfl, hg.threshold_eq, hg.wellFormed.remove (by omega)⟩
  | timelockDelay delay =>
      cases h
      exact ⟨_, _, hg.signers_eq, hg.threshold_eq, hg.wellFormed⟩

/-- **Every call keeps the signer set well formed.** -/
theorem call {call : Call} (hg : Governed s signers threshold) (h : exec H env s call = .ok s') :
    s'.IsGoverned := by
  cases exec_effect h with
  | kept hkept =>
      exact ⟨_, _, hkept.signers.trans hg.signers_eq, hkept.threshold.trans hg.threshold_eq,
        hg.wellFormed⟩
  | initialized hnone _ _ =>
      rw [hg.threshold_eq] at hnone
      cases hnone
  | added caller who weight hcall _ _ =>
      subst hcall
      exact hg.addSigner h
  | removed caller who hcall _ _ =>
      subst hcall
      exact hg.removeSigner h
  | finalized caller p hcall _ _ =>
      subst hcall
      exact hg.finalizeThreshold h
  | recorded _ _ _ _ _ _ _ _ hs' =>
      subst hs'
      exact ⟨_, _, hg.signers_eq, hg.threshold_eq, hg.wellFormed⟩
  | executed _ _ _ s₁ _ _ _ _ _ hvalid happly hs' =>
      subst hs'
      obtain ⟨_, _, hs₁, ht₁, hwf⟩ := hg.applyChange hvalid happly
      exact ⟨_, _, hs₁, ht₁, hwf⟩
  | cancelled _ _ _ _ _ _ hs' =>
      subst hs'
      exact ⟨_, _, hg.signers_eq, hg.threshold_eq, hg.wellFormed⟩

end Governed

/-! ## Before the contract is initialized -/

/-- Nothing was written yet. -/
structure Blank (s : State World) : Prop where
  signers : s.signers = none
  threshold : s.threshold = none
  proposalCount : s.proposalCount = none
  proposal : ∀ id, s.proposal id = none
  approval : ∀ id who, s.approval id who = false
  changeCount : s.changeCount = 0
  change : ∀ id, s.change id = none

section Unsigned

variable (hnone : s.signers = none)

include hnone

theorem not_loadSigners : s.loadSigners ≠ .ok signers := by
  rw [State.loadSigners, hnone]
  rintro ⟨⟩

theorem not_requireSigner {caller : Address} {u : Unit} :
    requireSigner H env s caller ≠ .ok u := by
  intro h
  simp only [requireSigner, bind_eq_ok] at h
  obtain ⟨_, _, _, hload, _⟩ := h
  exact not_loadSigners hnone hload

theorem not_requireSignerWeight {caller : Address} :
    requireSignerWeight H env s caller ≠ .ok weight := by
  intro h
  simp only [requireSignerWeight, bind_eq_ok] at h
  obtain ⟨_, _, _, hload, _⟩ := h
  exact not_loadSigners hnone hload

theorem not_requireGovernor {caller : Address} {u : Unit} :
    requireGovernor H env s caller ≠ .ok u := by
  intro h
  simp only [requireGovernor, bind_eq_ok] at h
  obtain ⟨_, _, _, hload, _⟩ := h
  exact not_loadSigners hnone hload

theorem not_proposeChange {caller : Address} {change : GovernanceChange} {result : ℕ × State World} :
    proposeChange H env s caller change ≠ .ok result := by
  intro h
  simp only [proposeChange, bind_eq_ok] at h
  obtain ⟨_, _, _, hgovernor, _⟩ := h
  exact not_requireGovernor hnone hgovernor

/-- **Without signers, only `initialize` returns.** -/
theorem initialize_of_unsigned {call : Call} (h : exec H env s call = .ok s') :
    ∃ signers threshold, call = .initializeContract signers threshold := by
  cases call with
  | initializeContract signers threshold => exact ⟨signers, threshold, rfl⟩
  | addSigner | removeSigner | setThreshold | finalizeThreshold | setEmergencyLock =>
      obtain ⟨_, hsigner, _⟩ := bind_eq_ok.1 h
      exact absurd hsigner (not_requireSigner hnone)
  | proposeThresholdChange | proposeWeightChange | proposeSignerAddition | proposeSignerRemoval
  | proposeTimelockDelayChange =>
      obtain ⟨_, h⟩ := snd_map_ok h
      exact absurd h (not_proposeChange hnone)
  | executeThresholdChange =>
      obtain ⟨_, _, h⟩ := bind_eq_ok.1 h
      obtain ⟨_, hgovernor, _⟩ := bind_eq_ok.1 h
      exact absurd hgovernor (not_requireGovernor hnone)
  | cancelThresholdChange =>
      obtain ⟨_, hgovernor, _⟩ := bind_eq_ok.1 h
      exact absurd hgovernor (not_requireGovernor hnone)
  | propose | approve =>
      obtain ⟨_, h⟩ := snd_map_ok h
      obtain ⟨_, _, h⟩ := bind_eq_ok.1 h
      obtain ⟨_, hsigner, _⟩ := bind_eq_ok.1 h
      exact absurd hsigner (not_requireSignerWeight hnone)
  | execute =>
      obtain ⟨_, _, h⟩ := bind_eq_ok.1 h
      obtain ⟨_, hsigner, _⟩ := bind_eq_ok.1 h
      exact absurd hsigner (not_requireSigner hnone)
  | executeBatch =>
      obtain ⟨_, _, h⟩ := bind_eq_ok.1 h
      obtain ⟨_, hload, _⟩ := bind_eq_ok.1 h
      exact absurd hload (not_loadSigners hnone)
  | verifyThreshold =>
      obtain ⟨_, h, _⟩ := map_ok h
      simp only [verifyThreshold, bind_eq_ok] at h
      obtain ⟨_, _, _, _, _, hload, _⟩ := h
      exact absurd hload (not_loadSigners hnone)

end Unsigned

/-! ## The law -/

/-- **Nothing is written, or a well-formed signer set governs.** -/
theorem governed_reachable (h : Reachable H s) : Blank s ∨ s.IsGoverned := by
  refine Machine.Reachable.invariant (M := machine H) (P := fun s => Blank s ∨ s.IsGoverned)
    ?_ ?_ h
  · intro s hfresh
    exact .inl ⟨hfresh.signers, hfresh.threshold, hfresh.proposalCount, hfresh.proposal,
      hfresh.approval, hfresh.changeCount, hfresh.change⟩
  · intro i s s' hs hstep
    cases i with
    | outside time w =>
        obtain rfl := hstep
        rcases hs with hblank | ⟨signers, threshold, hg⟩
        · exact .inl ⟨hblank.signers, hblank.threshold, hblank.proposalCount, hblank.proposal,
            hblank.approval, hblank.changeCount, hblank.change⟩
        · exact .inr ⟨signers, threshold, hg.signers_eq, hg.threshold_eq, hg.wellFormed⟩
    | invoke env call =>
        have hexec : exec H env s call = .ok s' := hstep
        rcases hs with hblank | ⟨signers, threshold, hg⟩
        · obtain ⟨signers, threshold, rfl⟩ := initialize_of_unsigned hblank.signers hexec
          exact .inr ⟨_, _, initializeContract_governed hexec⟩
        · exact .inr (hg.call hexec)

/-- The signer set there is governs. -/
theorem governed_of_signers {signers : List SignerWeight} (h : Reachable H s)
    (hs : s.signers = some signers) : ∃ threshold, Governed s signers threshold := by
  rcases governed_reachable h with hblank | ⟨signers', threshold, hg⟩
  · rw [hblank.signers] at hs
    cases hs
  · have hsame := hg.signers_eq.symm.trans hs
    cases hsame
    exact ⟨threshold, hg⟩

/-- **Multisig well-formedness.**  In every state after `initialize` the signers are distinct and
at most `MAX_SIGNERS`, there is at least one, their weights are positive and sum up in a
`u32`, and the threshold is between one and the sum.  So the signers together reach the
threshold of any proposal, and no weight computation fails. -/
theorem wellFormed_reachable (h : Reachable H s) (hinitialized : s.threshold ≠ none) :
    ∃ signers threshold, s.signers = some signers ∧ s.threshold = some threshold ∧
      signers ≠ [] ∧ (signers.map (·.address)).Nodup ∧ signers.length ≤ maxSigners ∧
      (∀ signer ∈ signers, 0 < signer.weight) ∧
      (signers.map (·.weight)).sum ≤ 2 ^ 32 - 1 ∧
      1 ≤ threshold ∧ threshold ≤ (signers.map (·.weight)).sum ∧
      totalWeight signers = .ok (signers.map (·.weight)).sum ∧
      (∀ id, ∃ status, quorumStatus s id = .ok status ∧
        ((∀ signer ∈ signers, s.approval id signer.address = true) → status.met = true)) ∧
      ∀ (env : Env H.self) caller signatories args,
        accumulateWeight H env signers caller signatories args ≠ .error (.error .overflow) := by
  rcases governed_reachable h with hblank | ⟨signers, threshold, hg⟩
  · exact absurd hblank.threshold hinitialized
  · have hwf := hg.wellFormed
    refine ⟨signers, threshold, hg.signers_eq, hg.threshold_eq, hwf.nonempty, hwf.distinct,
      hwf.length, hwf.positive, hwf.fits, hwf.low, hwf.high, hwf.totalWeight_eq, ?_,
      fun _ => hwf.accumulateWeight_fits⟩
    intro id
    refine ⟨_, hwf.quorumStatus_eq hg.signers_eq hg.threshold_eq id, ?_⟩
    intro hall
    have hsum : approvedWeight s id signers = weights signers := support_of_all hall
    rw [QuorumStatus.evaluate, isMet, decide_eq_true_eq, hsum]
    exact hwf.high

/-- Three signers, after one of them was removed while its weight was to be raised. -/
theorem wellFormed_reachable_removal :
    let s := play deployed (opening ++
      [(signedBy 10 [1], .addSigner (.account 1) (.account 3) 2),
        (signedBy 10 [1], .proposeWeightChange (.account 1) (.account 3) 5),
        (signedBy 20 [2], .removeSigner (.account 2) (.account 1))])
    ∃ signers threshold, s.signers = some signers ∧ s.threshold = some threshold ∧
      threshold ≤ (signers.map (·.weight)).sum := by
  intro s
  have hreach : Reachable referenceHost s := Deployment.reachable_play deployed_fresh (by decide)
  obtain ⟨signers, threshold, hs, ht, _, _, _, _, _, _, hle, _⟩ :=
    wellFormed_reachable hreach (by decide)
  exact ⟨signers, threshold, hs, ht, hle⟩

end MultisigContract
end Astroid
