import Astroid.Proposal.Effects

/-!
# What a successful call did to the records

A call touches the records it names and no other.  To a record it does one of eight things
(`Change`): nothing, it creates it, counts a vote, records that it expired, executes it,
closes it, ends it in another way, or purges it.  Every call that returned did one of these
to every record (`exec_changes`), with the guards it passed: what later modules know about a
step they know from here.
-/

namespace Astroid
namespace ProposalContract

open Outcome

variable {World : Type} {H : ProposalHost World} {env : Env H.self} {s s' : State World}
  {call : Call} {id : ℕ} {p p' : Proposal} {caller : Address}

/-- The numbers a call may purge. -/
def Call.prunes : Call → List ℕ
  | .pruneExpired id | .cleanupExpired id => [id]
  | .pruneExpiredBatch ids => ids
  | .pruneExpiredRange startId limit => List.range' startId.toNat limit
  | _ => []

/-! ## Terms -/

/-- What a proposal was created with: everything but its votes and its state. -/
def SameTerms (p p' : Proposal) : Prop :=
  p' = { p with
    approvals := p'.approvals
    approvalWeight := p'.approvalWeight
    state := p'.state
    approvedAt := p'.approvedAt }

namespace SameTerms

theorem dependencies (h : SameTerms p p') : p'.dependencies = p.dependencies := by
  rw [h]

theorem approvers (h : SameTerms p p') : p'.approvers = p.approvers := by
  rw [h]

theorem threshold (h : SameTerms p p') : p'.threshold = p.threshold := by
  rw [h]

end SameTerms

theorem Vote.terms {multisig : Address} {threshold previous approvals weight : ℕ}
    (h : Vote H env s caller id p p' multisig threshold previous approvals weight) :
    SameTerms p p' ∧ p'.state.isLive = true := by
  have hlive := h.live
  rcases afterVote_cases h.recorded with ⟨_, _, rfl⟩ | ⟨_, _, rfl⟩ | ⟨_, _, rfl⟩
  · exact ⟨rfl, rfl⟩
  · exact ⟨rfl, hlive⟩
  · exact ⟨rfl, hlive⟩

/-! ## Changes -/

/-- What a call did to the record under `id` and to the approvals on record of it. -/
inductive Change (H : ProposalHost World) (env : Env H.self) (s : State World) (call : Call)
    (id : ℕ) : Option Proposal → (Address → Bool) → Prop
  | kept : Change H env s call id (s.proposal id) (s.approval id)
  | created (p : Proposal) : call.opening ≠ none → Creation s id p →
      Change H env s call id (some p) (s.approval id)
  | voted (caller : Address) (p p' : Proposal) (multisig : Address)
      (threshold previous approvals weight : ℕ) : call = .approve caller id →
      s.proposal id = some p → Vote H env s caller id p p' multisig threshold previous approvals weight →
      Change H env s call id (some p') (Function.update (s.approval id) caller true)
  | expired (p : Proposal) : s.proposal id = some p → p.state.isLive = true → p.IsExpired env →
      Change H env s call id (some { p with state := .expired }) (s.approval id)
  | executed (caller : Address) (p : Proposal) (multisig : Address)
      (threshold approvals weight : ℕ) : call = .execute caller id → s.proposal id = some p →
      Execution H env s id p multisig threshold approvals weight →
      Change H env s call id
        (some { p with approvals := approvals, approvalWeight := weight, state := .executed })
        (s.approval id)
  | closed (p : Proposal) : s.proposal id = some p → p.state = .executed →
      Change H env s call id (some { p with state := .closed }) (s.approval id)
  | ended (p : Proposal) (next : ProposalState) : s.proposal id = some p →
      p.state.isLive = true → next.isLive = false → next.hasExecuted = false →
      Change H env s call id (some { p with state := next }) (s.approval id)
  | purged (p : Proposal) : id ∈ call.prunes → s.proposal id = some p → p.IsExpired env →
      Change H env s call id none fun who => if who ∈ p.approvers then false else s.approval id who

/-- A record on record after a call was created by it, or has the terms it had. -/
theorem Change.terms {voted : Address → Bool} (h : Change H env s call id (some p') voted) :
    (call.opening ≠ none ∧ Creation s id p') ∨ ∃ p, s.proposal id = some p ∧ SameTerms p p' := by
  generalize hrecord : some p' = record at h
  cases h with
  | kept => exact .inr ⟨p', hrecord.symm, rfl⟩
  | created p hcall hcreation =>
      cases hrecord
      exact .inl ⟨hcall, hcreation⟩
  | voted _ p _ _ _ _ _ _ _ hp hvote =>
      cases hrecord
      exact .inr ⟨p, hp, hvote.terms.1⟩
  | expired p hp | executed _ p _ _ _ _ _ hp | closed p hp | ended p _ hp =>
      cases hrecord
      exact .inr ⟨p, hp, rfl⟩
  | purged => cases hrecord

/-- A record that has executed after a call had before, or the call executed it. -/
theorem Change.hasExecuted {voted : Address → Bool} (h : Change H env s call id (some p') voted)
    (hdone : p'.state.hasExecuted = true) :
    (∃ p, s.proposal id = some p ∧ p.state.hasExecuted = true ∧ SameTerms p p') ∨
    ∃ caller p multisig threshold approvals weight, call = .execute caller id ∧
      s.proposal id = some p ∧ SameTerms p p' ∧ p'.state = .executed ∧
      Execution H env s id p multisig threshold approvals weight := by
  generalize hrecord : some p' = record at h
  cases h with
  | kept => exact .inl ⟨p', hrecord.symm, hdone, rfl⟩
  | created p _ hcreation =>
      cases hrecord
      rw [hcreation.pending] at hdone
      cases hdone
  | voted _ p _ _ _ _ _ _ _ hp hvote =>
      cases hrecord
      have hlive := hvote.terms.2
      rw [ProposalState.isLive_of_hasExecuted hdone] at hlive
      cases hlive
  | expired p hp =>
      cases hrecord
      cases hdone
  | executed caller p multisig threshold approvals weight hcall hp hexecution =>
      cases hrecord
      exact .inr ⟨caller, p, multisig, threshold, approvals, weight, hcall, hp, rfl, rfl,
        hexecution⟩
  | closed p hp hexecuted =>
      cases hrecord
      exact .inl ⟨p, hp, by rw [hexecuted]; rfl, rfl⟩
  | ended p next hp _ _ hnext =>
      cases hrecord
      exact absurd hdone (by simp [hnext])
  | purged => cases hrecord

/-- A record that has executed is closed at most, until it is purged or its number is given
out again. -/
theorem Change.stays {record : Option Proposal} {voted : Address → Bool}
    (h : Change H env s call id record voted) (hp : s.proposal id = some p)
    (hdone : p.state.hasExecuted = true) :
    (∃ p', record = some p' ∧ p'.state.hasExecuted = true) ∨
      (id ∈ call.prunes ∧ p.IsExpired env) ∨
      (call.opening ≠ none ∧ ∃ count, s.proposalCount = some count ∧ id = (count + 1) % 2 ^ 64) := by
  have hnotLive := ProposalState.isLive_of_hasExecuted hdone
  have hended : ∀ {q : Proposal}, s.proposal id = some q → q.state.isLive = true → False := by
    intro q hq hlive
    rw [hp, Option.some.injEq] at hq
    subst hq
    simp [hnotLive] at hlive
  cases h with
  | kept => exact .inl ⟨p, hp, hdone⟩
  | created q hcall hcreation => exact .inr (.inr ⟨hcall, hcreation.number⟩)
  | voted _ q _ _ _ _ _ _ _ hq hvote => exact (hended hq hvote.live).elim
  | expired q hq hlive => exact (hended hq hlive).elim
  | executed _ q _ _ _ _ _ hq hexecution =>
      exact (hended hq (by rw [hexecution.approved]; rfl)).elim
  | closed q => exact .inl ⟨_, rfl, rfl⟩
  | ended q _ hq hlive => exact (hended hq hlive).elim
  | purged q hmem hq hdue =>
      rw [hp, Option.some.injEq] at hq
      exact .inr (.inl ⟨hmem, hq ▸ hdue⟩)

/-- What a call did to the records. -/
structure Changes (H : ProposalHost World) (env : Env H.self) (s : State World) (call : Call)
    (s' : State World) : Prop where
  change : ∀ id, Change H env s call id (s'.proposal id) (s'.approval id)
  multisig : s'.multisig = s.multisig
  timelock : s'.timelock = s.timelock

namespace Changes

theorem quiet (hproposal : s'.proposal = s.proposal) (happroval : s'.approval = s.approval)
    (hmultisig : s'.multisig = s.multisig) (htimelock : s'.timelock = s.timelock) :
    Changes H env s call s' := by
  refine ⟨?_, hmultisig, htimelock⟩
  intro id
  rw [hproposal, happroval]
  exact .kept

theorem refl : Changes H env s call s := quiet rfl rfl rfl rfl

/-- Where one record is touched, the others are kept. -/
theorem one {record : Option Proposal} {voted : Address → Bool}
    (hproposal : s'.proposal = Function.update s.proposal id record)
    (happroval : s'.approval = Function.update s.approval id voted)
    (hmultisig : s'.multisig = s.multisig) (htimelock : s'.timelock = s.timelock)
    (h : Change H env s call id record voted) : Changes H env s call s' := by
  refine ⟨?_, hmultisig, htimelock⟩
  intro id'
  rw [hproposal, happroval]
  by_cases hid : id' = id
  · subst hid
    rw [Function.update_self, Function.update_self]
    exact h
  · rw [Function.update_of_ne hid, Function.update_of_ne hid]
    exact .kept

/-- A record is written, and the world may have changed. -/
theorem stored {w : World} (h : Change H env s call id (some p) (s.approval id)) :
    Changes H env s call ({ s with world := w }.store id p) :=
  one rfl (Function.update_eq_self ..).symm rfl rfl h

theorem of_ends (hends : Ends H s id p s') (h : Change H env s call id (some p) (s.approval id)) :
    Changes H env s call s' := by
  obtain ⟨w, _, rfl⟩ := hends
  exact stored h

end Changes

/-! ## Expiry -/

theorem expireIfDue_changes {expired : Bool} (hp : s.proposal id = some p)
    (h : expireIfDue H env s id p = .ok (expired, p', s')) : Changes H env s call s' := by
  rcases expireIfDue_cases h with ⟨_, _, rfl, _⟩ | ⟨_, _, _, rfl⟩ | ⟨_, hlive, hdue, _, hends⟩
  · exact .refl
  · exact .refl
  · exact .of_ends hends (.expired p hp hlive hdue)

theorem Expires.changes (h : Expires H env s id p s') (hp : s.proposal id = some p) :
    Changes H env s call s' := by
  obtain ⟨_, hexpire⟩ := h
  exact expireIfDue_changes hp hexpire

/-! ## The entrypoints -/

section Entrypoints

theorem create_changes {proposer : Address} {org wallet policy : String} {approvers : List Address}
    {dependencies : List ℕ} {threshold : ℕ} {deposit : List AssetAmount}
    {expiresAt gracePeriod : UInt64} (hcall : call.opening ≠ none)
    (h : create H env s proposer org wallet policy approvers dependencies threshold deposit
      expiresAt gracePeriod = .ok (id, s')) : Changes H env s call s' := by
  obtain ⟨p, w, _, hcreation, _, _, rfl⟩ := create_ok h
  exact .one rfl (Function.update_eq_self ..).symm rfl rfl (.created p hcall hcreation)

theorem approve_changes {approvals : ℕ} (hcall : call = .approve caller id)
    (h : approve H env s caller id = .ok (approvals, s')) : Changes H env s call s' := by
  obtain ⟨p, hp, hexpires |
    ⟨p', multisig, threshold, previous, n, weight, hvote, rfl⟩⟩ := approve_ok h
  · exact hexpires.changes hp
  · refine .one rfl rfl rfl rfl ?_
    exact .voted caller p p' multisig threshold previous n weight hcall hp hvote

theorem reject_changes (h : reject H env s caller id = .ok s') : Changes H env s call s' := by
  obtain ⟨p, hp, hexpires | ⟨hpending, hends⟩⟩ := reject_ok h
  · exact hexpires.changes hp
  · exact .of_ends hends (.ended p .rejected hp (by rw [hpending]; rfl) rfl rfl)

theorem cancel_changes (h : cancel H env s caller id = .ok s') : Changes H env s call s' := by
  obtain ⟨p, hp, hexpires | ⟨hlive, hends⟩⟩ := cancel_ok h
  · exact hexpires.changes hp
  · exact .of_ends hends (.ended p .cancelled hp hlive rfl rfl)

theorem execute_changes (hcall : call = .execute caller id)
    (h : execute H env s caller id = .ok s') : Changes H env s call s' := by
  obtain ⟨p, hp, ⟨_, rfl⟩ | ⟨multisig, threshold, n, weight, hexecution, hends⟩⟩ := execute_ok h
  · exact .refl
  · exact .of_ends hends (.executed caller p multisig threshold n weight hcall hp hexecution)

theorem fail_changes (h : fail H env s caller id = .ok s') : Changes H env s call s' := by
  obtain ⟨p, hp, hexpires | ⟨happroved, _, rfl⟩⟩ := fail_ok h
  · exact hexpires.changes hp
  · exact .stored (.ended p .failed hp (by rw [happroved]; rfl) rfl rfl)

theorem close_changes (h : close H env s caller id = .ok s') : Changes H env s call s' := by
  obtain ⟨p, hp, hexpires | ⟨hexecuted, rfl⟩⟩ := close_ok h
  · exact hexpires.changes hp
  · exact .stored (.closed p hp hexecuted)

theorem view_changes
    (h : ∃ p₀ p₁ expired, s.proposal id = some p₀ ∧
      expireIfDue H env s id p₀ = .ok (expired, p₁, s')) : Changes H env s call s' := by
  obtain ⟨_, _, _, hp, hexpire⟩ := h
  exact expireIfDue_changes hp hexpire

end Entrypoints

/-! ## Pruning -/

/-- Pruning leaves the record under `id`, or purges it past its deadline. -/
inductive Pruned (env : Env H.self) (s : State World) (ids : List ℕ) (id : ℕ) :
    Option Proposal → (Address → Bool) → Prop
  | kept : Pruned env s ids id (s.proposal id) (s.approval id)
  | purged (p : Proposal) : id ∈ ids → s.proposal id = some p → p.IsExpired env →
      Pruned env s ids id none fun who => if who ∈ p.approvers then false else s.approval id who

/-- What pruning did to the records. -/
structure Prunes (env : Env H.self) (s : State World) (ids : List ℕ) (s' : State World) :
    Prop where
  pruned : ∀ id, Pruned env s ids id (s'.proposal id) (s'.approval id)
  multisig : s'.multisig = s.multisig
  timelock : s'.timelock = s.timelock

section Pruning

variable {ids : List ℕ}

theorem Prunes.refl : Prunes env s ids s := ⟨fun _ => .kept, rfl, rfl⟩

theorem Prunes.changes (h : Prunes env s call.prunes s') : Changes H env s call s' := by
  refine ⟨?_, h.multisig, h.timelock⟩
  intro id
  generalize hrecord : s'.proposal id = record
  generalize hvoted : s'.approval id = voted
  cases hrecord ▸ hvoted ▸ h.pruned id with
  | kept => exact .kept
  | purged p hmem hp hdue => exact .purged p hmem hp hdue

/-- A record that is purged goes with the approvals of its allow-list. -/
theorem purge_prunes {expired : Bool} (hp : s.proposal id = some p)
    (h : expireIfDue H env s id p = .ok (expired, p', s')) (hdue : p'.IsExpired env)
    (hmem : id ∈ ids) : Prunes env s ids (s'.purgeProposal id p') := by
  have hsame : p'.approvers = p.approvers ∧ p.IsExpired env ∧
      (s'.purgeProposal id p').proposal = Function.update s.proposal id none ∧
      s'.approval = s.approval ∧ s'.multisig = s.multisig ∧ s'.timelock = s.timelock := by
    rcases expireIfDue_cases h with ⟨_, rfl, rfl, _⟩ | ⟨_, _, rfl, rfl⟩ | ⟨_, _, hdue', rfl, w, _, rfl⟩
    · exact ⟨rfl, hdue, rfl, rfl, rfl, rfl⟩
    · exact ⟨rfl, hdue, rfl, rfl, rfl, rfl⟩
    · refine ⟨rfl, hdue', ?_, rfl, rfl, rfl⟩
      unfold State.purgeProposal State.store
      simp
  obtain ⟨happrovers, hdue, hproposal, happroval, hmultisig, htimelock⟩ := hsame
  refine ⟨?_, hmultisig, htimelock⟩
  intro id'
  rw [hproposal]
  unfold State.purgeProposal
  dsimp only
  rw [happroval, happrovers]
  by_cases hid : id' = id
  · subst hid
    rw [Function.update_self, Function.update_self]
    exact .purged p hmem hp hdue
  · rw [Function.update_of_ne hid, Function.update_of_ne hid]
    exact .kept

theorem pruneExpired_prunes (h : pruneExpired H env s id = .ok s') (hmem : id ∈ ids) :
    Prunes env s ids s' := by
  obtain ⟨p, expired, p₁, s₁, hp, hexpire, hdue, _, rfl⟩ := pruneExpired_ok h
  exact purge_prunes hp hexpire hdue hmem

theorem pruneOne_prunes {pruned pruned' : ℕ}
    (h : pruneOne H env s pruned id = .ok (pruned', s')) (hmem : id ∈ ids) :
    Prunes env s ids s' := by
  unfold pruneOne at h
  split at h
  · cases h
    exact .refl
  · rename_i p hp
    obtain ⟨⟨expired, p₁, s₁⟩, hexpire, h⟩ := bind_eq_ok.1 h
    dsimp only at h
    rcases ignoreError_ok hexpire with hexpire | hsame
    · split at h
      · rename_i hpurgeable
        cases h
        exact purge_prunes hp hexpire hpurgeable.1 hmem
      · rename_i hkept
        cases h
        -- a record that expired just now would have been purged
        rcases expireIfDue_cases hexpire with ⟨_, _, rfl, _⟩ | ⟨_, _, _, rfl⟩ | ⟨_, _, hdue, rfl, _⟩
        · exact .refl
        · exact .refl
        · exact absurd ⟨hdue, rfl⟩ hkept
    · cases hsame
      split at h
      · rename_i hpurgeable
        cases h
        have hsettled := ProposalState.isLive_of_depositSettled hpurgeable.2
        have hsame : ∃ expired, expireIfDue H env s id p = .ok (expired, p, s) := by
          unfold expireIfDue
          split
          · exact ⟨true, rfl⟩
          · rw [if_pos (.inl hsettled)]
            exact ⟨false, rfl⟩
        obtain ⟨expired, hexpire⟩ := hsame
        exact purge_prunes hp hexpire hpurgeable.1 hmem
      · cases h
        exact .refl

/-- Pruning twice prunes: what was purged is not there to be purged again. -/
theorem Prunes.trans {s'' : State World} (h : Prunes env s ids s') (h' : Prunes env s' ids s'') :
    Prunes env s ids s'' := by
  refine ⟨?_, h'.multisig.trans h.multisig, h'.timelock.trans h.timelock⟩
  intro id
  have hfirst := h.pruned id
  have hsecond := h'.pruned id
  generalize s''.proposal id = record at hsecond ⊢
  generalize s''.approval id = voted at hsecond ⊢
  cases hsecond with
  | kept => exact hfirst
  | purged p hmem hp hdue =>
      rw [hp] at hfirst
      generalize s'.approval id = before at hfirst ⊢
      generalize hrecord : some p = after at hfirst
      cases hfirst with
      | kept => exact .purged p hmem hrecord.symm hdue
      | purged => cases hrecord

theorem pruneEach_prunes {pruned pruned' : ℕ} {l : List ℕ} (hl : ∀ id ∈ l, id ∈ ids)
    (h : pruneEach H env s pruned l = .ok (pruned', s')) : Prunes env s ids s' := by
  induction l generalizing s pruned with
  | nil =>
      cases h
      exact .refl
  | cons id rest ih =>
      rw [List.forall_mem_cons] at hl
      simp only [pruneEach, bind_eq_ok] at h
      obtain ⟨⟨pruned₁, s₁⟩, hone, hrest⟩ := h
      exact (pruneOne_prunes hone hl.1).trans (ih hl.2 hrest)

theorem pruneExpiredBatch_prunes {pruned : ℕ}
    (h : pruneExpiredBatch H env s ids = .ok (pruned, s')) : Prunes env s ids s' := by
  simp only [pruneExpiredBatch, bind_eq_ok] at h
  obtain ⟨_, _, h⟩ := h
  exact pruneEach_prunes (fun _ => id) h

theorem pruneExpiredRange_prunes {pruned limit : ℕ} {startId : UInt64}
    (h : pruneExpiredRange H env s startId limit = .ok (pruned, s')) :
    Prunes env s (List.range' startId.toNat limit) s' := by
  simp only [pruneExpiredRange, tryFromU64, asI128, bind_eq_ok, checkedAdd_eq_ok, require_eq_ok,
    pure_eq_ok] at h
  obtain ⟨_, _, sum, ⟨_, rfl⟩, endId, ⟨_, hfits, rfl⟩, h⟩ := h
  refine pruneEach_prunes ?_ h
  intro id hid
  rw [List.mem_range'_1] at hid ⊢
  have hend : (asU64 (startId.toNat + limit : ℤ)).toNat = startId.toNat + limit := by
    rw [toNat_asU64]
    omega
  omega

end Pruning

/-! ## Every call -/

/-- `initialize` names the multisig and sets the delay, once. -/
structure Initializes (timelock : UInt64) (multisig : Address) (s s' : State World) : Prop where
  first : s.proposalCount = none
  post : s' = { s with
    proposalCount := some 0
    timelock := some timelock
    multisig := some multisig }

/-- **What every call that returned did to the records.** -/
theorem exec_changes (h : exec H env s call = .ok s') :
    (∃ timelock multisig, call = .initializeContract timelock multisig ∧
      Initializes timelock multisig s s') ∨ Changes H env s call s' := by
  cases call with
  | initializeContract timelock multisig =>
      simp only [exec, initializeContract, bind_eq_ok, require_eq_ok, pure_eq_ok] at h
      obtain ⟨_, hfirst, _, _, rfl⟩ := h
      exact .inl ⟨timelock, multisig, rfl, hfirst, rfl⟩
  | create proposer org wallet policy approvers dependencies threshold deposit expiresAt
      gracePeriod =>
      obtain ⟨id, h⟩ := snd_map_ok h
      exact .inr (create_changes (by simp [Call.opening]) h)
  | approve caller id =>
      obtain ⟨_, h⟩ := snd_map_ok h
      exact .inr (approve_changes rfl h)
  | reject caller id => exact .inr (reject_changes h)
  | cancel caller id => exact .inr (cancel_changes h)
  | expire id => exact .inr (view_changes (expire_ok h))
  | execute caller id => exact .inr (execute_changes rfl h)
  | fail caller id => exact .inr (fail_changes h)
  | close caller id => exact .inr (close_changes h)
  | pruneExpired id | cleanupExpired id =>
      exact .inr (pruneExpired_prunes h (List.mem_singleton_self id)).changes
  | pruneExpiredBatch ids =>
      obtain ⟨_, h⟩ := snd_map_ok h
      exact .inr (pruneExpiredBatch_prunes h).changes
  | pruneExpiredRange startId limit =>
      obtain ⟨_, h⟩ := snd_map_ok h
      exact .inr (pruneExpiredRange_prunes h).changes
  | get id =>
      obtain ⟨_, h⟩ := snd_map_ok h
      exact .inr (view_changes (get_ok h))
  | voteBars id | state id | isExpired id | isExecuted id | dependencies id | dependenciesMet id =>
      obtain ⟨_, h⟩ := snd_map_ok h
      exact .inr (view_changes (settledView_ok h))
  | canExecute id =>
      obtain ⟨_, h⟩ := snd_map_ok h
      exact .inr (view_changes (canExecute_ok h))
  | timelock =>
      cases h
      exact .inr .refl
  | releaseAt id | timelockStatus id =>
      obtain ⟨_, _, rfl⟩ := map_ok h
      exact .inr .refl

/-- The record under a number after a call. -/
theorem exec_change (h : exec H env s call = .ok s') (id : ℕ) :
    Change H env s call id (s'.proposal id) (s'.approval id) := by
  rcases exec_changes h with ⟨_, _, _, hinit⟩ | hchanges
  · rw [hinit.post]
    exact .kept
  · exact hchanges.change id

end ProposalContract
end Astroid
