import Astroid.Lib.Pledges
import Astroid.Proposal.Entrypoints

/-!
# What a successful call did to the deposits

A live proposal holds what its proposer deposited.  Every call that returns is one of three
things (`exec_effect`): it opened a proposal and took its deposit, it ended some proposals
and returned the deposits of exactly these, or it failed an approved proposal and kept its
deposit.
-/

namespace Astroid
namespace ProposalContract

open Outcome Pledges

variable {World : Type} {H : ProposalHost World} {env : Env H.self} {s s' s'' : State World}
  {id : ℕ} {p p' : Proposal} {caller : Address}

/-! ## Deposits held -/

/-- The holdings of the live proposals. -/
def State.held (s : State World) (id : ℕ) : Option Holding :=
  (s.proposal id).bind fun p => if p.state.isLive = true then some p.holding else none

theorem held_of_live (hp : s.proposal id = some p) (hlive : p.state.isLive = true) :
    s.held id = some p.holding := by
  simp [State.held, hp, hlive]

theorem held_of_ended (hp : s.proposal id = some p) (hended : p.state.isLive = false) :
    s.held id = none := by
  simp [State.held, hp, hended]

theorem held_store : (s.store id p).held
    = Function.update s.held id (if p.state.isLive = true then some p.holding else none) := by
  funext x
  by_cases hx : x = id
  · subst hx
    simp [State.held, State.store]
  · simp [State.held, State.store, hx]

/-- A record that stays what it was to the deposits. -/
theorem held_store_of_same (hp : s.proposal id = some p) (hlive : p'.state.isLive = p.state.isLive)
    (hholding : p'.holding = p.holding) : (s.store id p').held = s.held := by
  have hsame : (if p'.state.isLive = true then some p'.holding else none) = s.held id := by
    rw [hlive, hholding]
    simp [State.held, hp]
  rw [held_store, hsame, Function.update_eq_self]

theorem held_purgeProposal (hended : p.state.isLive = false) (hp : s.proposal id = some p) :
    (s.purgeProposal id p).held = s.held := by
  funext x
  by_cases hx : x = id
  · subst hx
    rw [held_of_ended hp hended]
    simp [State.held, State.purgeProposal]
  · simp [State.held, State.purgeProposal, hx]

/-! ## Stretches that settle -/

/-- The proposals of `l` ended, in that order, and the transfers made are the returns of their
deposits. -/
structure Settles (H : ProposalHost World) (l : List ℕ) (s s' : State World) : Prop where
  book : Released l s.held s'.held
  carried : H.carry s.world ((l.filterMap s.held).flatMap (·.returned H.self)) = .ok s'.world

/-- Some proposals ended. -/
def Settled (H : ProposalHost World) (s s' : State World) : Prop := ∃ l, Settles H l s s'

namespace Settled

theorem quiet (hheld : s'.held = s.held) (hworld : s'.world = s.world) : Settled H s s' := by
  refine ⟨[], ?_, ?_⟩
  · rw [hheld]
    exact .refl
  · rw [hworld]
    rfl

theorem refl : Settled H s s := quiet rfl rfl

theorem trans (h : Settled H s s') (h' : Settled H s' s'') : Settled H s s'' := by
  obtain ⟨l, hbook, hcarried⟩ := h
  obtain ⟨l', hbook', hcarried'⟩ := h'
  refine ⟨l ++ l', hbook.trans hbook', ?_⟩
  rw [hbook.filterMap_append hbook', List.flatMap_append]
  exact TokenHost.carry_append hcarried hcarried'

end Settled

/-! ## The ways a proposal ends -/

/-- A live proposal ends and its deposit is returned. -/
theorem Ends.settled (h : Ends H s id p' s') (hp : s.proposal id = some p)
    (hlive : p.state.isLive = true) (hended : p'.state.isLive = false)
    (hholding : p'.holding = p.holding) : Settled H s s' := by
  obtain ⟨w, hcarry, rfl⟩ := h
  have hheld := held_of_live hp hlive
  refine ⟨[id], ?_, ?_⟩
  · refine .single (by simp [hheld]) ?_
    rw [held_store]
    simp only [hended, Bool.false_eq_true, if_false]
    rfl
  · have hvalues : [id].filterMap s.held = [p'.holding] := by simp [hheld, hholding]
    rw [hvalues, List.flatMap_singleton]
    exact hcarry

/-- The record after expiring is on record. -/
theorem expireIfDue_stored {expired : Bool} (hp : s.proposal id = some p)
    (h : expireIfDue H env s id p = .ok (expired, p', s')) :
    s'.proposal id = some p' ∧ Settled H s s' := by
  rcases expireIfDue_cases h with ⟨_, rfl, rfl, _⟩ | ⟨_, _, rfl, rfl⟩ | ⟨_, hlive, _, rfl, hends⟩
  · exact ⟨hp, .refl⟩
  · exact ⟨hp, .refl⟩
  · refine ⟨?_, hends.settled hp hlive rfl rfl⟩
    obtain ⟨w, _, rfl⟩ := hends
    exact Function.update_self ..

theorem Expires.settled (h : Expires H env s id p s') (hp : s.proposal id = some p) :
    Settled H s s' := by
  obtain ⟨_, hexpire⟩ := h
  exact (expireIfDue_stored hp hexpire).2

/-! ## The entrypoints -/

section Entrypoints

/-- A vote leaves the deposit where it is. -/
theorem Vote.holding {multisig : Address} {threshold previous approvals weight : ℕ}
    (h : Vote H env s caller id p p' multisig threshold previous approvals weight) :
    p'.state.isLive = true ∧ p'.holding = p.holding := by
  have hlive := h.live
  rcases afterVote_cases h.recorded with ⟨_, _, rfl⟩ | ⟨_, _, rfl⟩ | ⟨_, _, rfl⟩
  · exact ⟨rfl, rfl⟩
  · exact ⟨hlive, rfl⟩
  · exact ⟨hlive, rfl⟩

theorem approve_settled {approvals : ℕ} (h : approve H env s caller id = .ok (approvals, s')) :
    Settled H s s' := by
  obtain ⟨p, hp, hexpires | ⟨p', _, _, _, _, _, hvote, rfl⟩⟩ := approve_ok h
  · exact hexpires.settled hp
  · obtain ⟨hlive, hholding⟩ := hvote.holding
    refine .quiet ?_ rfl
    exact held_store_of_same hp (hlive.trans hvote.live.symm) hholding

theorem reject_settled (h : reject H env s caller id = .ok s') : Settled H s s' := by
  obtain ⟨p, hp, hexpires | ⟨hpending, hends⟩⟩ := reject_ok h
  · exact hexpires.settled hp
  · exact hends.settled hp (by rw [hpending]; rfl) rfl rfl

theorem cancel_settled (h : cancel H env s caller id = .ok s') : Settled H s s' := by
  obtain ⟨p, hp, hexpires | ⟨hlive, hends⟩⟩ := cancel_ok h
  · exact hexpires.settled hp
  · exact hends.settled hp hlive rfl rfl

theorem execute_settled (h : execute H env s caller id = .ok s') : Settled H s s' := by
  obtain ⟨p, hp, ⟨_, rfl⟩ | ⟨_, _, _, _, hexecution, hends⟩⟩ := execute_ok h
  · exact .refl
  · exact hends.settled hp (by rw [hexecution.approved]; rfl) rfl rfl

theorem close_settled (h : close H env s caller id = .ok s') : Settled H s s' := by
  obtain ⟨p, hp, hexpires | ⟨hexecuted, rfl⟩⟩ := close_ok h
  · exact hexpires.settled hp
  · refine .quiet ?_ rfl
    exact held_store_of_same hp (by rw [hexecuted]; rfl) rfl

/-- A record that may be purged holds nothing. -/
theorem Settled.purge (h : Settled H s s') (hp : s'.proposal id = some p)
    (hpurgeable : p.state.depositSettled = true) : Settled H s (s'.purgeProposal id p) :=
  h.trans (.quiet (held_purgeProposal (ProposalState.isLive_of_depositSettled hpurgeable) hp) rfl)

theorem pruneExpired_settled (h : pruneExpired H env s id = .ok s') : Settled H s s' := by
  obtain ⟨p, expired, p₁, s₁, hp, hexpire, _, hpurgeable, rfl⟩ := pruneExpired_ok h
  obtain ⟨hp₁, hsettled⟩ := expireIfDue_stored hp hexpire
  exact hsettled.purge hp₁ hpurgeable

theorem ignoreError_ok {α : Type} {r : Result α} {a b : α} (h : ignoreError r a = .ok b) :
    r = .ok b ∨ b = a := by
  unfold ignoreError at h
  split at h
  · exact .inl h
  · cases h
  · cases h
    exact .inr rfl

theorem pruneOne_settled {pruned pruned' : ℕ}
    (h : pruneOne H env s pruned id = .ok (pruned', s')) : Settled H s s' := by
  unfold pruneOne at h
  split at h
  · cases h
    exact .refl
  · rename_i p hp
    obtain ⟨⟨expired, p₁, s₁⟩, hexpire, h⟩ := bind_eq_ok.1 h
    have hsettled : s₁.proposal id = some p₁ ∧ Settled H s s₁ := by
      rcases ignoreError_ok hexpire with hexpire | hsame
      · exact expireIfDue_stored hp hexpire
      · cases hsame
        exact ⟨hp, .refl⟩
    dsimp only at h
    split at h
    · rename_i hpurgeable
      cases h
      exact hsettled.2.purge hsettled.1 hpurgeable.2
    · cases h
      exact hsettled.2

theorem pruneEach_settled {pruned pruned' : ℕ} {ids : List ℕ}
    (h : pruneEach H env s pruned ids = .ok (pruned', s')) : Settled H s s' := by
  induction ids generalizing s pruned with
  | nil =>
      cases h
      exact .refl
  | cons id rest ih =>
      simp only [pruneEach, bind_eq_ok] at h
      obtain ⟨⟨pruned₁, s₁⟩, hone, hrest⟩ := h
      exact (pruneOne_settled hone).trans (ih hrest)

theorem pruneExpiredBatch_settled {pruned : ℕ} {ids : List ℕ}
    (h : pruneExpiredBatch H env s ids = .ok (pruned, s')) : Settled H s s' := by
  simp only [pruneExpiredBatch, bind_eq_ok] at h
  obtain ⟨_, _, h⟩ := h
  exact pruneEach_settled h

theorem pruneExpiredRange_settled {pruned limit : ℕ} {startId : UInt64}
    (h : pruneExpiredRange H env s startId limit = .ok (pruned, s')) : Settled H s s' := by
  simp only [pruneExpiredRange, bind_eq_ok] at h
  obtain ⟨_, _, _, _, _, _, h⟩ := h
  exact pruneEach_settled h

theorem view_settled
    (h : ∃ p₀ p₁ expired, s.proposal id = some p₀ ∧
      expireIfDue H env s id p₀ = .ok (expired, p₁, s')) : Settled H s s' := by
  obtain ⟨_, _, _, hp, hexpire⟩ := h
  exact (expireIfDue_stored hp hexpire).2

end Entrypoints

/-! ## Creation -/

/-- A proposal is opened under the next number, with the deposit that was taken. -/
structure Opens (H : ProposalHost World) (id : ℕ) (holding : Holding) (s s' : State World) :
    Prop where
  party : holding.proposer ≠ H.self
  number : ∃ count, s.proposalCount = some count ∧ id = (count + 1) % 2 ^ 64
  counted : s'.proposalCount = some id
  book : s'.held = Function.update s.held id (some holding)
  carried : H.carry s.world (holding.taken H.self) = .ok s'.world

/-- What a call asks to open. -/
def Call.opening : Call → Option Holding
  | .create proposer _ _ _ _ _ _ deposit _ _ => some ⟨proposer, deposit.head?⟩
  | _ => none

theorem create_opens {proposer : Address} {org wallet policy : String} {approvers : List Address}
    {dependencies : List ℕ} {threshold : ℕ} {deposit : List AssetAmount}
    {expiresAt gracePeriod : UInt64}
    (h : create H env s proposer org wallet policy approvers dependencies threshold deposit
      expiresAt gracePeriod = .ok (id, s')) : Opens H id ⟨proposer, deposit.head?⟩ s s' := by
  obtain ⟨p, w, hauth, hcreation, hholding, hcarry, rfl⟩ := create_ok h
  have hlive : p.state.isLive = true := by
    rw [hcreation.pending]
    rfl
  have hheld : ({ s with world := w }.store id p).held
      = Function.update s.held id (some ⟨proposer, deposit.head?⟩) := by
    rw [held_store, if_pos hlive, hholding]
    rfl
  exact ⟨env.ne_current hauth, hcreation.number, rfl, hheld, hcarry⟩

/-! ## Every call -/

/-- What a call that returned did to the deposits. -/
inductive Effect (H : ProposalHost World) (env : Env H.self) (s : State World) (call : Call)
    (s' : State World) : Prop
  | settled : call.opening = none → Settled H s s' → Effect H env s call s'
  | opened (id : ℕ) (holding : Holding) : call.opening = some holding → Opens H id holding s s' →
      Effect H env s call s'
  | failed (caller : Address) (id : ℕ) (p : Proposal) : call = .fail caller id →
      s.proposal id = some p → p.state = .approved → ¬ p.IsExpired env →
      s' = s.store id { p with state := .failed } → Effect H env s call s'

/-- **Every call that returned did one of these things.** -/
theorem exec_effect {call : Call} (h : exec H env s call = .ok s') : Effect H env s call s' := by
  cases call with
  | initializeContract timelock multisig =>
      simp only [exec, initializeContract, bind_eq_ok, pure_eq_ok] at h
      obtain ⟨_, _, _, _, rfl⟩ := h
      exact .settled rfl (.quiet rfl rfl)
  | create proposer org wallet policy approvers dependencies threshold deposit expiresAt
      gracePeriod =>
      obtain ⟨id, h⟩ := snd_map_ok h
      exact .opened id _ rfl (create_opens h)
  | approve caller id =>
      obtain ⟨_, h⟩ := snd_map_ok h
      exact .settled rfl (approve_settled h)
  | reject caller id => exact .settled rfl (reject_settled h)
  | cancel caller id => exact .settled rfl (cancel_settled h)
  | expire id => exact .settled rfl (view_settled (expire_ok h))
  | execute caller id => exact .settled rfl (execute_settled h)
  | fail caller id =>
      obtain ⟨p, hp, hexpires | ⟨happroved, hunexpired, hs'⟩⟩ := fail_ok h
      · exact .settled rfl (hexpires.settled hp)
      · exact .failed caller id p rfl hp happroved hunexpired hs'
  | close caller id => exact .settled rfl (close_settled h)
  | pruneExpired id => exact .settled rfl (pruneExpired_settled h)
  | cleanupExpired id => exact .settled rfl (pruneExpired_settled h)
  | pruneExpiredBatch ids =>
      obtain ⟨_, h⟩ := snd_map_ok h
      exact .settled rfl (pruneExpiredBatch_settled h)
  | pruneExpiredRange startId limit =>
      obtain ⟨_, h⟩ := snd_map_ok h
      exact .settled rfl (pruneExpiredRange_settled h)
  | get id =>
      obtain ⟨_, h⟩ := snd_map_ok h
      exact .settled rfl (view_settled (get_ok h))
  | voteBars id | state id | isExpired id | isExecuted id | dependencies id | dependenciesMet id =>
      obtain ⟨_, h⟩ := snd_map_ok h
      exact .settled rfl (view_settled (settledView_ok h))
  | canExecute id =>
      obtain ⟨_, h⟩ := snd_map_ok h
      exact .settled rfl (view_settled (canExecute_ok h))
  | timelock =>
      cases h
      exact .settled rfl .refl
  | releaseAt id | timelockStatus id =>
      obtain ⟨_, _, rfl⟩ := map_ok h
      exact .settled rfl .refl

end ProposalContract
end Astroid
