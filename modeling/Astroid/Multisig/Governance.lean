import Astroid.Lib.Records
import Astroid.Multisig.Effects

/-!
# The governance delay

Who can sign, with what weight, and how much weight is needed should change only
through the queue: a change is recorded, waits for the delay in force, and can
be cancelled by any signer in the meantime.  Every change that is executed went
that way (`governance_delay`), but the direct edits of the signer set and the
finalizing of a threshold write the same keys without it
(`not_governance_delay`).
-/

namespace Astroid
namespace MultisigContract

variable {World : Type} {H : MultisigHost World} {env : Env H.self} {s s' : State World}
  {tr : List (Entry (State World) (Inputs H))}

/-! ## The delay in force -/

/-- The delay is never below its minimum. -/
theorem Effect.delay {call : Call} (h : Effect H env s call s')
    (hs : minTimelockDelay ≤ s.loadTimelockDelay.toNat) :
    minTimelockDelay ≤ s'.loadTimelockDelay.toNat := by
  have hsame : s'.timelockDelay = s.timelockDelay →
      minTimelockDelay ≤ s'.loadTimelockDelay.toNat := by
    intro heq
    unfold State.loadTimelockDelay
    rw [heq]
    exact hs
  cases h with
  | kept hkept => exact hsame hkept.timelockDelay
  | initialized _ hdelay _ =>
      rw [hdelay]
      exact le_rfl
  | added _ _ _ _ hdelay _ => exact hsame hdelay
  | removed _ _ _ hdelay _ => exact hsame hdelay
  | finalized _ _ _ _ hs' =>
      subst hs'
      exact hs
  | recorded _ _ _ _ _ _ _ _ hs' =>
      subst hs'
      exact hs
  | executed _ _ _ s₁ _ _ _ _ _ hvalid happly hs' =>
      subst hs'
      have happlied := applyChange_delay hvalid happly hs
      exact happlied
  | cancelled _ _ _ _ _ _ hs' =>
      subst hs'
      exact hs

theorem Reachable.delay (h : Reachable H s) : minTimelockDelay ≤ s.loadTimelockDelay.toNat := by
  refine Machine.Reachable.invariant (M := machine H)
    (P := fun s => minTimelockDelay ≤ s.loadTimelockDelay.toNat) ?_ ?_ h
  · intro s hfresh
    unfold State.loadTimelockDelay
    rw [hfresh.timelockDelay]
    exact le_rfl
  · intro i s s' hs hstep
    cases i with
    | invoke env call => exact (exec_effect hstep).delay hs
    | outside time w =>
        obtain rfl := hstep
        exact hs

/-! ## The queue along a run -/

/-- The entry `q` recorded the change `p` under `id`, with the delay then in force. -/
structure RecordedBy (q : Entry (State World) (Inputs H)) (id : ℕ) (p : PendingChange) : Prop where
  call : ∃ env call, q.input = .invoke env call ∧ call.change = some p.change ∧
    p.eta.toNat = env.timestamp.toNat + q.pre.loadTimelockDelay.toNat
  stored : q.post.change id = some p

/-- Every open change was recorded by an entry of the run, and is on record in every
state since. -/
def Parked (tr : List (Entry (State World) (Inputs H))) (s : State World) : Prop :=
  ∀ id p, s.change id = some p → p.IsOpen → ∃ tr₁ q tr₂, tr = tr₁ ++ q :: tr₂ ∧
    RecordedBy q id p ∧ ∀ c ∈ tr₂, c.pre.change id = some p

/-- A step that opens no change of its own but those it records. -/
theorem Parked.step (h : Parked tr s) {i : Inputs H}
    (hopen : ∀ id p, s'.change id = some p → p.IsOpen →
      s.change id = some p ∨ RecordedBy (H := H) ⟨s, i, s'⟩ id p) :
    Parked (tr ++ [⟨s, i, s'⟩]) s' := by
  intro id p hp hpopen
  rcases hopen id p hp hpopen with hbefore | hrecorded
  · obtain ⟨tr₁, q, tr₂, rfl, hq, hsince⟩ := h id p hbefore hpopen
    refine ⟨tr₁, q, tr₂ ++ [⟨s, i, s'⟩], by simp, hq, ?_⟩
    intro c hc
    rcases List.mem_append.1 hc with hc | hc
    · exact hsince c hc
    · obtain rfl := List.mem_singleton.1 hc
      exact hbefore
  · exact ⟨tr, _, [], rfl, hrecorded, by simp⟩

/-- Every call keeps the open changes tied to the run. -/
theorem Parked.call (h : Parked tr s) {call : Call} (heffect : Effect H env s call s') :
    Parked (tr ++ [⟨s, .invoke env call, s'⟩]) s' := by
  refine h.step ?_
  intro id' p' hp' hopen'
  have hsame : s'.change = s.change → s.change id' = some p' := fun heq => heq ▸ hp'
  cases heffect with
  | kept hkept => exact .inl (hsame hkept.change)
  | initialized _ _ hchange => exact .inl (hsame hchange)
  | added _ _ _ _ _ hchange => exact .inl (hsame hchange)
  | removed _ _ _ _ hchange => exact .inl (hsame hchange)
  | finalized _ _ _ _ hs' =>
      subst hs'
      exact .inl hp'
  | recorded _ id p hcall _ _ heta hopen hs' =>
      have hchange : s'.change = Function.update s.change id (some p) := by
        rw [hs']
        rfl
      rcases Machine.of_update hchange hp' with ⟨rfl, rfl⟩ | hbefore
      · exact .inr ⟨⟨env, call, rfl, hcall, heta⟩, hp'⟩
      · exact .inl hbefore
  | executed _ id p s₁ _ _ _ _ _ _ happly hs' =>
      obtain ⟨signers, threshold, delay, rfl⟩ := applyChange_ok happly
      have hchange : s'.change
          = Function.update s.change id (some { p with executed := true }) := by
        rw [hs']
        rfl
      rcases Machine.of_update hchange hp' with ⟨_, rfl⟩ | hbefore
      · cases hopen'.1
      · exact .inl hbefore
  | cancelled _ id p _ _ _ hs' =>
      have hchange : s'.change
          = Function.update s.change id (some { p with cancelled := true }) := by
        rw [hs']
        rfl
      rcases Machine.of_update hchange hp' with ⟨_, rfl⟩ | hbefore
      · cases hopen'.2
      · exact .inl hbefore

theorem parked_of_path {allow : Inputs H → State World → Prop} {t : ℕ}
    (hpath : (machine H).Path allow tr s t) : Parked tr s := by
  refine hpath.history (P := fun tr s _ => Parked tr s) ?_ ?_
  · intro s t hfresh id p hp
    rw [hfresh.change id] at hp
    cases hp
  · intro tr s t i s' _ hparked _ _ hstep
    cases i with
    | invoke env call => exact hparked.call (exec_effect hstep)
    | outside time w =>
        obtain rfl := hstep
        exact hparked.step fun id p hp _ => .inl hp

/-! ## The law -/

/-- The signer set with its weights, or the threshold, is another one. -/
def Changed (s s' : State World) : Prop := s'.signers ≠ s.signers ∨ s'.threshold ≠ s.threshold

/-- Any signer that authorizes an invocation can cancel change `id`. -/
def Cancellable (H : MultisigHost World) (s : State World) (id : ℕ) : Prop :=
  ∀ (env : Env H.self) caller, caller ∈ env.auths → s.IsSigner caller →
    ∃ s', cancelThresholdChange H env s caller id = .ok s'

/-- The entry `e`, made after the entries `tr`, is the effect of a change that waited:
an entry `q` of `tr` recorded it, the delay then in force passed, and in every
state until `e` any signer could cancel it. -/
def Waited (tr : List (Entry (State World) (Inputs H)))
    (e : Entry (State World) (Inputs H)) : Prop :=
  ∃ (env : Env H.self) (caller : Address) (id : ℕ) (p : PendingChange) (s₁ : State World)
    (tr₁ : List (Entry (State World) (Inputs H))) (q : Entry (State World) (Inputs H))
    (tr₂ : List (Entry (State World) (Inputs H))),
    e.input = .invoke env (.executeThresholdChange caller id) ∧
    applyChange e.pre p.change = .ok s₁ ∧ e.post.signers = s₁.signers ∧
    e.post.threshold = s₁.threshold ∧
    tr = tr₁ ++ q :: tr₂ ∧ RecordedBy q id p ∧
    minTimelockDelay ≤ q.pre.loadTimelockDelay.toNat ∧ p.eta ≤ env.timestamp ∧
    ∀ c ∈ tr₂ ++ [e], Cancellable H c.pre id

/-- The call does not write the signer set or the threshold by itself. -/
def WritesThroughQueue (s : State World) : Call → Prop
  | .addSigner _ _ _ => False
  | .removeSigner _ _ => False
  | .finalizeThreshold _ => ∀ p, s.pendingThreshold = some p → s.threshold = some p.newThreshold
  | _ => True

/-- No signer is added or removed directly, and no other threshold is finalized. -/
def writesThroughQueue : Inputs H → State World → Prop
  | .invoke _ call, s => WritesThroughQueue s call
  | .outside _ _, _ => True

/-- A change on record and open can be cancelled by any signer. -/
theorem cancellable_of_open {id : ℕ} {p : PendingChange} (hp : s.change id = some p)
    (hopen : p.IsOpen) : Cancellable H s id :=
  fun _ _ hauth hsigner => cancelThresholdChange_returns hauth hsigner hp hopen

/-- **The governance delay.**  In every run that writes through the queue, once the
contract is initialized, every change of the signers, of their weights or of the
threshold is the effect of a change that waited. -/
theorem governance_delay {t : ℕ} (hpath : (machine H).Path writesThroughQueue tr s t) :
    ∀ e ∈ tr, e.pre.threshold ≠ none → Changed e.pre e.post →
      ∃ tr₁, tr₁ ++ [e] <+: tr ∧ Waited tr₁ e := by
  intro e he hinitialized hchanged
  obtain ⟨tr₁, t₁, hinit, hpath₁, _, hallow, hstep, _⟩ := hpath.entry he
  refine ⟨tr₁, hinit, ?_⟩
  have hparked := parked_of_path hpath₁
  obtain ⟨pre, input, post⟩ := e
  dsimp only at hinitialized hpath₁ hallow hstep hparked
  have hunchanged : post.signers = pre.signers → post.threshold = pre.threshold → False :=
    fun hsigners hthreshold => hchanged.elim (absurd hsigners) (absurd hthreshold)
  cases input with
  | outside time w =>
      have hpost : post = { pre with world := w } := hstep
      subst hpost
      exact (hunchanged rfl rfl).elim
  | invoke env call =>
      have heffect : Effect H env pre call post := exec_effect hstep
      have hqueue : WritesThroughQueue pre call := hallow
      cases heffect with
      | kept hkept => exact (hunchanged hkept.signers hkept.threshold).elim
      | initialized hnone _ _ => exact absurd hnone hinitialized
      | added caller signer weight hcall _ _ =>
          subst hcall
          exact hqueue.elim
      | removed caller signer hcall _ _ =>
          subst hcall
          exact hqueue.elim
      | finalized caller p hcall hp hs' =>
          subst hcall hs'
          exact (hunchanged rfl (hqueue p hp).symm).elim
      | recorded _ _ _ _ _ _ _ _ hs' =>
          subst hs'
          exact (hunchanged rfl rfl).elim
      | cancelled _ _ _ _ _ _ hs' =>
          subst hs'
          exact (hunchanged rfl rfl).elim
      | executed caller id p s₁ hcall hp hopen heta _ _ happly hs' =>
          subst hcall hs'
          obtain ⟨tr₀, q, tr₂, rfl, hrecorded, hsince⟩ := hparked id p hp hopen
          have hdelay : minTimelockDelay ≤ q.pre.loadTimelockDelay.toNat := by
            obtain ⟨_, _, _, hq, _⟩ := hpath₁.entry (e := q) (by simp)
            exact Reachable.delay hq.reachable
          refine ⟨env, caller, id, p, s₁, tr₀, q, tr₂, rfl, happly, rfl, rfl, rfl, hrecorded,
            hdelay, heta, ?_⟩
          intro c hc
          rcases List.mem_append.1 hc with hc | hc
          · exact cancellable_of_open (hsince c hc) hopen
          · obtain rfl := List.mem_singleton.1 hc
            exact cancellable_of_open hp hopen

/-! ## Two runs -/

/-- After the opening, account 1 proposes to admit account 3 with weight 1. -/
def proposal : Script Call :=
  opening ++ [(signedBy 10 [1], .proposeSignerAddition (.account 1) (.account 3) 1)]

def execution : Script Call :=
  [(signedBy 86410 [2], .executeThresholdChange (.account 2) 1)]

/-- The admission of account 3 waited for a day. -/
theorem governance_delay_admission :
    let s := play deployed proposal
    ∃ tr, Waited (H := referenceHost) tr
      ⟨s, .invoke (signedBy 86410 [2]) (.executeThresholdChange (.account 2) 1),
        play s execution⟩ := by
  intro s
  have hstart : (machine referenceHost).Path writesThroughQueue [] deployed 0 :=
    .start deployed_fresh
  have hallow : (deployment referenceHost).AllAllowed writesThroughQueue deployed proposal :=
    ⟨trivial, trivial, trivial⟩
  have hpath := Deployment.path_play hstart rfl hallow
  have hplays : (deployment referenceHost).plays s 10 execution = true := rfl
  have hpath' := Deployment.path_play hpath hplays ⟨trivial, trivial⟩
  have hchanged : Changed s (play s execution) := by
    left
    decide
  obtain ⟨tr₁, _, hwaited⟩ := governance_delay hpath' _
    (List.mem_append_right _ (List.mem_singleton_self _)) (by decide) hchanged
  exact ⟨tr₁, hwaited⟩

def directEdit : Script Call :=
  [(signedBy 10 [1], .addSigner (.account 1) (.account 3) 2)]

/-- **A signer can be added at once.**  One of two signers, who cannot reach the
threshold alone, admits a third with weight 2. -/
theorem not_governance_delay :
    ¬ ∀ tr s t, (machine referenceHost).Path Machine.anyInput tr s t →
      ∀ e ∈ tr, e.pre.threshold ≠ none → Changed e.pre e.post →
        ∃ tr₁, tr₁ ++ [e] <+: tr ∧ Waited tr₁ e := by
  intro h
  have hfirst : (deployment referenceHost).plays deployed 0 opening = true := rfl
  obtain ⟨tr, hpath⟩ := Deployment.anyPath_play deployed_fresh hfirst
  have hplays : (deployment referenceHost).plays (play deployed opening) 0 directEdit = true := rfl
  have hpath' := Deployment.path_playing hpath hplays
  have hchanged : Changed (play deployed opening) (play (play deployed opening) directEdit) := by
    left
    decide
  obtain ⟨tr₁, _, env, caller, id, p, s₁, tr₀, q, tr₂, hinput, _⟩ := h _ _ _ hpath' _
    (List.mem_append_right _ (List.mem_singleton_self _)) (by decide) hchanged
  cases hinput

end MultisigContract
end Astroid
