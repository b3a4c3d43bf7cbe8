import Astroid.Lib.Records
import Astroid.Multisig.Frame
import Astroid.Multisig.Governance

/-!
# Timelocked changes

A governance change is recorded under a number of its own with the time from which it may
be applied and the time from which it may not.  As long as the counter of changes does not
wrap, what is on record is what the run did (`Queued`), so a change is applied once, in its
window, and not after somebody cancelled it (`timelocked_changes`).  The counter is a `u64`
whose overflow is checked as an `i128`: after 2^64 changes a number is given out again, and
the change on record under it is lost (`not_timelocked_changes`).
-/

namespace Astroid
namespace MultisigContract

open Outcome Machine

variable {World : Type} {H : MultisigHost World} {env : Env H.self} {s s' : State World}
  {tr : List (Entry (State World) (Inputs H))} {e : Entry (State World) (Inputs H)} {t id : ℕ}
  {caller : Address} {change : GovernanceChange}

/-! ## What the entrypoints write -/

/-- A change is recorded under the next number, with its window. -/
theorem proposeChange_records (h : proposeChange H env s caller change = .ok (id, s')) :
    ∃ p : PendingChange, id = (s.changeCount + 1) % 2 ^ 64 ∧ p.change = change ∧ p.IsOpen ∧
      p.eta.toNat = env.timestamp.toNat + s.loadTimelockDelay.toNat ∧
      p.expiresAt.toNat = p.eta.toNat + governanceGracePeriod ∧
      s' = { s.storeChange id p with changeCount := id } := by
  simp only [proposeChange, bind_eq_ok, checkedAddU64_eq_ok, pure_eq_ok, Prod.mk.injEq] at h
  obtain ⟨_, _, _, _, _, _, _, ⟨hfits, rfl⟩, _, ⟨hexpires, rfl⟩, rfl, rfl⟩ := h
  have heta : (env.timestamp + s.loadTimelockDelay).toNat
      = env.timestamp.toNat + s.loadTimelockDelay.toNat := by
    rw [UInt64.toNat_add, Nat.mod_eq_of_lt hfits]
  refine ⟨_, rfl, rfl, ⟨rfl, rfl⟩, heta, ?_, rfl⟩
  have hgrace : (UInt64.ofNat governanceGracePeriod).toNat = governanceGracePeriod := rfl
  dsimp only
  rw [UInt64.toNat_add, Nat.mod_eq_of_lt hexpires, hgrace]

/-- The five proposing entrypoints are `propose_change` on their change. -/
theorem exec_proposes {call : Call} (hcall : call.change = some change)
    (h : exec H env s call = .ok s') :
    ∃ caller id, proposeChange H env s caller change = .ok (id, s') := by
  cases call <;> cases hcall <;> exact ⟨_, snd_map_ok h⟩

/-- Who executes a change is a signer, in an unlocked contract. -/
theorem executeThresholdChange_guards
    (h : executeThresholdChange H env s caller id = .ok s') :
    s.emergencyLock = false ∧ caller ∈ env.auths ∧ s.IsSigner caller := by
  simp only [executeThresholdChange, State.requireNotLocked, bind_eq_ok, require_eq_ok] at h
  obtain ⟨_, hlock, _, hgovernor, _⟩ := h
  exact ⟨hlock, requireGovernor_ok hgovernor⟩

/-! ## What a run did to the queue -/

/-- The number under which an entry of a run recorded a change. -/
def records (e : Entry (State World) (Inputs H)) : Option ℕ :=
  match e.input with
  | .invoke _ call => call.change.map fun _ => e.post.changeCount
  | .outside _ _ => none

/-- The change an entry of a run applied. -/
def applies (e : Entry (State World) (Inputs H)) : Option ℕ :=
  match e.input with
  | .invoke _ (.executeThresholdChange _ id) => some id
  | _ => none

/-- The change an entry of a run cancelled. -/
def cancels (e : Entry (State World) (Inputs H)) : Option ℕ :=
  match e.input with
  | .invoke _ (.cancelThresholdChange _ id) => some id
  | _ => none

/-- The changes a run recorded. -/
def recordings (tr : List (Entry (State World) (Inputs H))) : List ℕ := log records tr

/-- The changes a run applied. -/
def applications (tr : List (Entry (State World) (Inputs H))) : List ℕ := log applies tr

/-- The changes a run cancelled. -/
def cancellations (tr : List (Entry (State World) (Inputs H))) : List ℕ := log cancels tr

/-- No change is proposed while their counter is at its largest value. -/
def unwrappedChanges : Inputs H → State World → Prop
  | .invoke _ call, s => call.change ≠ none → s.changeCount ≠ 2 ^ 64 - 1
  | .outside _ _, _ => True

/-- The entry `q` recorded `p` under `id`, for the delay then in force. -/
structure Records (q : Entry (State World) (Inputs H)) (id : ℕ) (p : PendingChange) : Prop where
  number : records q = some id
  call : ∃ env call, q.input = .invoke env call ∧ call.change = some p.change ∧
    p.eta.toNat = env.timestamp.toNat + q.pre.loadTimelockDelay.toNat
  grace : p.expiresAt.toNat = p.eta.toNat + governanceGracePeriod

/-- The queue is that of the run: a change is on record where the run recorded it, with the
window it got then, and is marked where the run applied or cancelled it. -/
structure Queued (tr : List (Entry (State World) (Inputs H))) (s : State World) : Prop where
  numbered : Numbered s.changeCount s.change
  terms : ∀ id p, s.change id = some p → ∃ q ∈ tr, Records q id p
  recorded : Faithful s.change (fun _ => true) records tr
  applied : Faithful s.change PendingChange.executed applies tr
  cancelled : Faithful s.change PendingChange.cancelled cancels tr
  recordedOnce : (recordings tr).Nodup
  appliedOnce : (applications tr).Nodup

namespace Queued

/-- A step that leaves the queue alone. -/
theorem quiet (h : Queued tr s) (hrecords : records e = none) (happlies : applies e = none)
    (hcancels : cancels e = none) (hsame : Unqueued s s') : Queued (tr ++ [e]) s' := by
  have hrecordings : recordings (tr ++ [e]) = recordings tr := log_none hrecords
  have happlications : applications (tr ++ [e]) = applications tr := log_none happlies
  refine ⟨?_, ?_, ?_, ?_, ?_, hrecordings ▸ h.recordedOnce, happlications ▸ h.appliedOnce⟩
  · rw [hsame.change, hsame.changeCount]
    exact h.numbered
  · intro id p hp
    rw [hsame.change] at hp
    obtain ⟨q, hq, hterms⟩ := h.terms id p hp
    exact ⟨q, List.mem_append_left _ hq, hterms⟩
  · rw [hsame.change]
    exact h.recorded.quiet hrecords
  · rw [hsame.change]
    exact h.applied.quiet happlies
  · rw [hsame.change]
    exact h.cancelled.quiet hcancels

/-- A new change has a new number. -/
theorem record (h : Queued tr s) {p : PendingChange} (hrecords : records e = some id)
    (happlies : applies e = none) (hcancels : cancels e = none)
    (hid : id = (s.changeCount + 1) % 2 ^ 64) (hunwrapped : s.changeCount ≠ 2 ^ 64 - 1)
    (hopen : p.IsOpen) (hterms : Records e id p)
    (hs' : s' = { s.storeChange id p with changeCount := id }) : Queued (tr ++ [e]) s' := by
  have hfresh := h.numbered.fresh hunwrapped hid
  have hunflagged : ∀ flag : PendingChange → Bool, ∀ q, s.change id = some q → flag q = false := by
    intro flag q hq
    rw [hfresh] at hq
    cases hq
  have hunrecorded : id ∉ recordings tr := h.recorded.not_mem (hunflagged _)
  have happlications : applications (tr ++ [e]) = applications tr := log_none happlies
  have hchange : s'.change = Function.update s.change id (some p) := by
    rw [hs']
    rfl
  refine ⟨?_, ?_, ?_, ?_, ?_, log_nodup h.recordedOnce hrecords hunrecorded,
    happlications ▸ h.appliedOnce⟩
  · rw [hs']
    exact h.numbered.issue hunwrapped hid rfl
  · intro id' p' hp'
    rcases of_update hchange hp' with ⟨rfl, rfl⟩ | hp'
    · exact ⟨e, List.mem_append_right _ (List.mem_singleton_self e), hterms⟩
    · obtain ⟨q, hq, hterms'⟩ := h.terms id' p' hp'
      exact ⟨q, List.mem_append_left _ hq, hterms'⟩
  · exact h.recorded.update hunrecorded hchange hrecords
  · refine h.applied.update (h.applied.not_mem (hunflagged _)) hchange ?_
    rw [hopen.1]
    exact happlies
  · refine h.cancelled.update (h.cancelled.not_mem (hunflagged _)) hchange ?_
    rw [hopen.2]
    exact hcancels

/-- A change that was open is marked as applied or cancelled, and keeps its window. -/
theorem mark (h : Queued tr s) {p : PendingChange} {executed cancelled : Bool}
    (hrecords : records e = none)
    (happlies : applies e = if executed = true then some id else none)
    (hcancels : cancels e = if cancelled = true then some id else none)
    (hp : s.change id = some p) (hopen : p.IsOpen)
    (hchange : s'.change = Function.update s.change id
      (some { p with executed := executed, cancelled := cancelled }))
    (hcount : s'.changeCount = s.changeCount) : Queued (tr ++ [e]) s' := by
  have hunapplied : id ∉ applications tr := h.applied.not_mem_of_eq hp hopen.1
  have huncancelled : id ∉ cancellations tr := h.cancelled.not_mem_of_eq hp hopen.2
  have hrecordings : recordings (tr ++ [e]) = recordings tr := log_none hrecords
  refine ⟨?_, ?_, h.recorded.rewrite hp hchange rfl hrecords,
    h.applied.update hunapplied hchange happlies, h.cancelled.update huncancelled hchange hcancels,
    hrecordings ▸ h.recordedOnce, ?_⟩
  · rw [hcount]
    exact h.numbered.write hp hchange
  · intro id' p' hp'
    rcases of_update hchange hp' with ⟨rfl, rfl⟩ | hp'
    · obtain ⟨q, hq, hnumber, hcall, hgrace⟩ := h.terms id' p hp
      exact ⟨q, List.mem_append_left _ hq, hnumber, hcall, hgrace⟩
    · obtain ⟨q, hq, hterms⟩ := h.terms id' p' hp'
      exact ⟨q, List.mem_append_left _ hq, hterms⟩
  · by_cases hexecuted : executed = true
    · rw [if_pos hexecuted] at happlies
      exact log_nodup h.appliedOnce happlies hunapplied
    · rw [if_neg hexecuted] at happlies
      have happlications : applications (tr ++ [e]) = applications tr := log_none happlies
      exact happlications ▸ h.appliedOnce

end Queued

/-- A call that does not queue is no entry of the record. -/
theorem not_queues {call : Call} (h : ¬ call.Queues) :
    records (H := H) ⟨s, .invoke env call, s'⟩ = none ∧
      applies (H := H) ⟨s, .invoke env call, s'⟩ = none ∧
      cancels (H := H) ⟨s, .invoke env call, s'⟩ = none := by
  cases call <;> first | exact absurd trivial h | exact ⟨rfl, rfl, rfl⟩

/-- A call that proposes a change neither applies nor cancels one. -/
theorem proposes {call : Call} (hcall : call.change = some change) :
    records (H := H) ⟨s, .invoke env call, s'⟩ = some s'.changeCount ∧
      applies (H := H) ⟨s, .invoke env call, s'⟩ = none ∧
      cancels (H := H) ⟨s, .invoke env call, s'⟩ = none := by
  cases call <;> cases hcall <;> exact ⟨rfl, rfl, rfl⟩

/-- **Every step keeps the queue that of the run.** -/
theorem Queued.step (h : Queued tr s) {i : Inputs H} (hreach : Reachable H s)
    (hunwrapped : unwrappedChanges i s) (hstep : (machine H).step i s s') :
    Queued (tr ++ [⟨s, i, s'⟩]) s' := by
  cases i with
  | outside time w =>
      obtain rfl := hstep
      exact h.quiet rfl rfl rfl ⟨rfl, rfl⟩
  | invoke env call =>
      have hexec : exec H env s call = .ok s' := hstep
      rcases governed_reachable hreach with hblank | ⟨signers, threshold, hg⟩
      · obtain ⟨signers, threshold, rfl⟩ := initialize_of_unsigned hblank.signers hexec
        obtain ⟨_, rfl⟩ := initializeContract_ok hexec
        exact h.quiet rfl rfl rfl ⟨rfl, hblank.changeCount.symm⟩
      · have hinitialized : s.threshold ≠ none := by
          rw [hg.threshold_eq]
          exact Option.some_ne_none _
        cases hchange : call.change with
        | some change =>
            obtain ⟨caller, id, hpropose⟩ := exec_proposes hchange hexec
            obtain ⟨p, hid, rfl, hopen, heta, hgrace, hs'⟩ := proposeChange_records hpropose
            have hproposes : records (H := H) ⟨s, .invoke env call, s'⟩ = some s'.changeCount ∧
                applies (H := H) ⟨s, .invoke env call, s'⟩ = none ∧
                cancels (H := H) ⟨s, .invoke env call, s'⟩ = none := proposes hchange
            obtain ⟨hrecords, happlies, hcancels⟩ := hproposes
            have hcount : s'.changeCount = id := by rw [hs']
            rw [hcount] at hrecords
            have hnever : call.change ≠ none := by
              rw [hchange]
              exact Option.some_ne_none _
            exact h.record hrecords happlies hcancels hid (hunwrapped hnever) hopen
              ⟨hrecords, ⟨env, call, rfl, hchange, heta⟩, hgrace⟩ hs'
        | none =>
            by_cases hqueues : call.Queues
            · cases call with
              | executeThresholdChange caller id =>
                  obtain ⟨p, s₁, hp, hopen, _, _, _, happly, hs'⟩ := executeThresholdChange_ok hexec
                  obtain ⟨signers, threshold, delay, rfl⟩ := applyChange_ok happly
                  have hupdate : s'.change = Function.update s.change id
                      (some { p with executed := true, cancelled := false }) := by
                    rw [hs', ← hopen.2]
                    rfl
                  exact h.mark rfl rfl rfl hp hopen hupdate (by rw [hs']; rfl)
              | cancelThresholdChange caller id =>
                  obtain ⟨p, hp, hopen, hs'⟩ := cancelThresholdChange_ok hexec
                  have hupdate : s'.change = Function.update s.change id
                      (some { p with executed := false, cancelled := true }) := by
                    rw [hs', ← hopen.1]
                    rfl
                  exact h.mark rfl rfl rfl hp hopen hupdate (by rw [hs']; rfl)
              | _ => first | exact hqueues.elim | cases hchange
            · have hnone : records (H := H) ⟨s, .invoke env call, s'⟩ = none ∧
                  applies (H := H) ⟨s, .invoke env call, s'⟩ = none ∧
                  cancels (H := H) ⟨s, .invoke env call, s'⟩ = none := not_queues hqueues
              obtain ⟨hrecords, happlies, hcancels⟩ := hnone
              exact h.quiet hrecords happlies hcancels ((exec_frame hinitialized hexec).2 hqueues)

theorem queued_of_path (hpath : (machine H).Path unwrappedChanges tr s t) : Queued tr s := by
  refine hpath.history (P := fun tr s _ => Queued tr s) ?_ ?_
  · intro s t hfresh
    refine ⟨?_, ?_, .nil hfresh.change, .nil hfresh.change, .nil hfresh.change, List.nodup_nil,
      List.nodup_nil⟩
    · rw [hfresh.changeCount]
      exact .empty hfresh.change
    · intro id p hp
      rw [hfresh.change id] at hp
      cases hp
  · intro tr s t i s' hpath hqueued _ hallow hstep
    exact hqueued.step hpath.reachable hallow hstep

/-! ## The law -/

/-- **Timelocked changes.**  In every run that does not wrap the counter of changes, each
number is given to one change and each change is applied once.  When one is applied, an
earlier entry of the run recorded it and none cancelled it; the delay in force when it was
recorded has passed since and the grace period has not; the caller is a signer, the
contract is not locked, and what the change writes is valid against the signers there are
at that moment.  An execution that is refused leaves everything as it was. -/
theorem timelocked_changes (hpath : (machine H).Path unwrappedChanges tr s t) :
    (recordings tr).Nodup ∧ (applications tr).Nodup ∧
    (∀ tr₁ e (env : Env H.self) caller id, tr₁ ++ [e] <+: tr →
      e.input = .invoke env (.executeThresholdChange caller id) →
      id ∉ applications tr₁ ∧ id ∉ cancellations tr₁ ∧
      ∃ q ∈ tr₁, ∃ p s₁, Records q id p ∧ e.pre.change id = some p ∧ p.eta ≤ env.timestamp ∧
        env.timestamp < p.expiresAt ∧ caller ∈ env.auths ∧ e.pre.IsSigner caller ∧
        e.pre.emergencyLock = false ∧ validateChange e.pre p.change = .ok () ∧
        applyChange e.pre p.change = .ok s₁ ∧
        e.post = s₁.storeChange id { p with executed := true }) ∧
    ∀ (env : Env H.self) caller id,
      (∀ s', executeThresholdChange H env s caller id ≠ .ok s') →
      (deployment H).after s (env, .executeThresholdChange caller id) = s := by
  have hqueued := queued_of_path hpath
  refine ⟨hqueued.recordedOnce, hqueued.appliedOnce, ?_, ?_⟩
  · intro tr₁ e env caller id hpart hinput
    obtain ⟨t', hpath₁, _, _, hstep⟩ := hpath.before hpart
    rw [hinput] at hstep
    have hexec : executeThresholdChange H env e.pre caller id = .ok e.post := hstep
    obtain ⟨p, s₁, hp, hopen, heta, hexpires, hvalid, happly, hpost⟩ :=
      executeThresholdChange_ok hexec
    obtain ⟨hlock, hauth, hsigner⟩ := executeThresholdChange_guards hexec
    have hbefore := queued_of_path hpath₁
    obtain ⟨q, hq, hrecords⟩ := hbefore.terms id p hp
    exact ⟨hbefore.applied.not_mem_of_eq hp hopen.1, hbefore.cancelled.not_mem_of_eq hp hopen.2, q,
      hq, p, s₁, hrecords, hp, heta, hexpires, hauth, hsigner, hlock, hvalid, happly, hpost⟩
  · intro env caller id hrefused
    unfold Deployment.after
    dsimp only
    split
    · rename_i s' hexec
      exact absurd hexec (hrefused s')
    · rfl

/-- The admission of account 3, proposed by account 1 and executed by account 2. -/
theorem timelocked_changes_admission :
    (applications ((deployment referenceHost).trace deployed (proposal ++ execution))).Nodup := by
  have hstart : (machine referenceHost).Path unwrappedChanges [] deployed 0 :=
    .start deployed_fresh
  have hplays : (deployment referenceHost).plays deployed 0 (proposal ++ execution) = true := by
    decide
  have hcount : (play deployed opening).changeCount ≠ 2 ^ 64 - 1 := by decide
  have hallow : (deployment referenceHost).AllAllowed unwrappedChanges deployed
      (proposal ++ execution) :=
    ⟨fun _ => by decide, fun _ => hcount, fun h => absurd rfl h, trivial⟩
  have hpath := Deployment.path_play hstart hplays hallow
  rw [List.nil_append] at hpath
  exact (timelocked_changes hpath).2.1

/-! ## A number given out again -/

/-- **A signer can propose a delay** within its bounds, in an unlocked contract. -/
theorem Governed.proposeTimelockDelayChange_returns {signers : List SignerWeight} {threshold : ℕ}
    {delay : UInt64} (hg : Governed s signers threshold) (hlock : s.emergencyLock = false)
    (hauth : caller ∈ env.auths) (hsigner : IsSignerIn signers caller)
    (hbounds : minTimelockDelay ≤ delay.toNat ∧ delay.toNat ≤ maxTimelockDelay)
    (hfits : env.timestamp.toNat + s.loadTimelockDelay.toNat + governanceGracePeriod < 2 ^ 64) :
    let id := (s.changeCount + 1) % 2 ^ 64
    let eta := env.timestamp + s.loadTimelockDelay
    proposeTimelockDelayChange H env s caller delay = .ok (id,
      { s.storeChange id ⟨caller, .timelockDelay delay, env.timestamp, eta,
          eta + UInt64.ofNat governanceGracePeriod, false, false⟩ with changeCount := id }) := by
  intro id eta
  have hgovernor : requireGovernor H env s caller = .ok () :=
    requireGovernor_returns hauth ⟨signers, hg.signers_eq, hsigner⟩
  have hvalid : validateChange s (.timelockDelay delay) = .ok () := by
    simp only [validateChange, State.loadSigners, State.loadThreshold, hg.signers_eq,
      hg.threshold_eq, bind_eq_ok, okOr_eq_ok, require_eq_ok]
    exact ⟨signers, rfl, threshold, rfl, _, hg.wellFormed.totalWeight_eq, hbounds⟩
  have heta : (env.timestamp + s.loadTimelockDelay).toNat
      = env.timestamp.toNat + s.loadTimelockDelay.toNat := by
    rw [UInt64.toNat_add, Nat.mod_eq_of_lt (by omega)]
  have hgrace : (UInt64.ofNat governanceGracePeriod).toNat = governanceGracePeriod := rfl
  simp only [proposeTimelockDelayChange, proposeChange, State.requireNotLocked, hgovernor, hvalid,
    ok_bind, bind_eq_ok, require_eq_ok, checkedAddU64_eq_ok, pure_eq_ok]
  exact ⟨(), hlock, _, ⟨by omega, rfl⟩, _, ⟨by omega, rfl⟩, rfl⟩

/-- The first change was recorded under 1, and the changes recorded since took the counter
to `n`. -/
structure Recycled (n : ℕ) (tr : List (Entry (State Unit) (Inputs referenceHost)))
    (s : State Unit) : Prop where
  governed : Governed s pair 2
  unlocked : s.emergencyLock = false
  delay : s.timelockDelay = some (UInt64.ofNat minTimelockDelay)
  counter : s.changeCount = n % 2 ^ 64
  first : 1 ∈ recordings tr

/-- Account 1 proposes the least delay. -/
def leastDelay : Env (.contract 0) × Call :=
  (signedBy 10 [1], .proposeTimelockDelayChange (.account 1) (UInt64.ofNat minTimelockDelay))

/-- Another change recorded by account 1. -/
theorem Recycled.next {n : ℕ} {tr : List (Entry (State Unit) (Inputs referenceHost))}
    {s : State Unit} (h : Recycled n tr s) :
    ∃ s', (machine referenceHost).step (.invoke leastDelay.1 leastDelay.2) s s' ∧
      s'.changeCount = (n + 1) % 2 ^ 64 ∧
      Recycled (n + 1) (tr ++ [⟨s, .invoke leastDelay.1 leastDelay.2, s'⟩]) s' := by
  have hauth : .account 1 ∈ (signedBy 10 [1]).auths := by decide
  have hdelay : s.loadTimelockDelay = UInt64.ofNat minTimelockDelay := by
    rw [State.loadTimelockDelay, h.delay, Option.getD_some]
  have hpropose : proposeTimelockDelayChange referenceHost (signedBy 10 [1]) s (.account 1)
      (UInt64.ofNat minTimelockDelay) = _ :=
    h.governed.proposeTimelockDelayChange_returns h.unlocked hauth (by decide) (by decide)
      (by rw [hdelay]; decide)
  have hid : (s.changeCount + 1) % 2 ^ 64 = (n + 1) % 2 ^ 64 := by
    rw [h.counter]
    omega
  rw [hid] at hpropose
  refine ⟨_, congrArg (Prod.snd <$> ·) hpropose, rfl,
    ⟨h.governed.signers_eq, h.governed.threshold_eq, h.governed.wellFormed⟩, h.unlocked, h.delay,
    rfl, mem_log_append h.first⟩

theorem opening_recycled : Recycled 1
    ((deployment referenceHost).trace deployed (opening ++ [leastDelay]))
    (play deployed (opening ++ [leastDelay])) := by
  have hsigners : (play deployed (opening ++ [leastDelay])).signers = some pair := by decide
  have hthreshold : (play deployed (opening ++ [leastDelay])).threshold = some 2 := by
    decide
  exact ⟨⟨hsigners, hthreshold, pair_wellFormed⟩, by decide, by decide,
    by decide, by decide⟩

/-- **A number is given out twice.**  Account 1 alone proposes 2^64 changes after its first
one; the last of them takes the place of the first on record. -/
theorem not_timelocked_changes :
    ¬ ∀ tr s t, (machine referenceHost).Path anyInput tr s t → (recordings tr).Nodup := by
  intro h
  have hplays : (deployment referenceHost).plays deployed 0 (opening ++ [leastDelay]) = true := by
    decide
  have hpath := Deployment.path_trace deployed_fresh hplays
  have hnext : ∀ n tr s, Recycled (n + 1) tr s → ∃ i s', (machine referenceHost).time i = 10 ∧
      anyInput i s ∧ (machine referenceHost).step i s s' ∧
      Recycled (n + 1 + 1) (tr ++ [⟨s, i, s'⟩]) s' := by
    intro n tr s hrecycled
    obtain ⟨s', hstep, _, hrecycled'⟩ := hrecycled.next
    exact ⟨_, s', rfl, trivial, hstep, hrecycled'⟩
  obtain ⟨tr, s, hpath', hrecycled⟩ := hpath.iterate (Q := fun n => Recycled (n + 1))
    opening_recycled hnext (2 ^ 64 - 1)
  obtain ⟨s', hstep, hcount, _⟩ := hrecycled.next
  have hwrapped : (2 ^ 64 - 1 + 1 + 1) % 2 ^ 64 = 1 := by decide
  rw [hwrapped] at hcount
  have htwice := h _ _ _ (hpath'.step le_rfl trivial hstep)
  have hlog : recordings (tr ++ [⟨s, .invoke leastDelay.1 leastDelay.2, s'⟩])
      = recordings tr ++ [s'.changeCount] := log_some rfl
  rw [hlog, hcount, List.nodup_append_comm] at htwice
  exact (List.nodup_cons.1 htwice).1 hrecycled.first

end MultisigContract
end Astroid
