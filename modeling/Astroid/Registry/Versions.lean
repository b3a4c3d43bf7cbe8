import Astroid.Registry.Effects

/-!
# The version table

Two entrypoints publish versions, each in a layout of its own, and one reader merges the two.
Both write under a number that no layout holds: one asks for it, and the other only takes
numbers past the latest, which bounds every published one (`Versioned`).  So what was published
stays what it was, and no number is published twice (`versions_immutable`).
-/

namespace Astroid
namespace RegistryContract

open Outcome Keyed Machine

variable {here : Address} {env : Env here} {s s' : State} {call : Call} {kind : ModuleKind}
  {v : UInt32} {record : VersionRecord} {tr : List (Entry State (Inputs here))} {t : ℕ}

/-- The version is published. -/
def State.Published (s : State) (kind : ModuleKind) (v : UInt32) : Prop :=
  s.readVersion kind v ≠ none

/-- The latest version of every kind is the largest published one, or 0. -/
structure Versioned (s : State) : Prop where
  nonzero : ∀ kind v, s.Published kind v → v ≠ 0
  bounded : ∀ kind v, s.Published kind v → v ≤ s.latest kind
  attained : ∀ kind, s.latest kind = 0 ∨ s.Published kind (s.latest kind)

/-- A record was published under a new number. -/
structure Publication (s s' : State) (kind : ModuleKind) (v : UInt32) (record : VersionRecord) :
    Prop where
  nonzero : v ≠ 0
  new : s.readVersion kind v = none
  table : s'.readVersion = writeAt s.readVersion kind v (some record)
  latest : s'.latest = Function.update s.latest kind (if s.latest kind < v then v else s.latest kind)

/-- The version a call publishes. -/
def Call.publishes (s : State) : Call → Option (ModuleKind × UInt32)
  | .registerVersion _ kind version _ _ => some (kind, version)
  | .commitUpgrade _ kind => (s.upgradeProposal kind).map fun proposal => (kind, proposal.version)
  | _ => none

/-! ## The merged table -/

/-- A consolidated record is read first. -/
theorem readVersion_consolidated (hnew : s.readVersion kind v = none)
    (htable : s'.versionRecord = writeAt s.versionRecord kind v (some record))
    (hlegacy : s'.version = s.version) :
    s'.readVersion = writeAt s.readVersion kind v (some record) := by
  funext kind' v'
  unfold State.readVersion
  rw [htable, hlegacy]
  by_cases hsame : kind' = kind ∧ v' = v
  · obtain ⟨rfl, rfl⟩ := hsame
    simp
  · rw [writeAt_ne hsame, writeAt_ne hsame]

/-- A legacy record is read where there is no other, without a hash. -/
theorem readVersion_legacy {address : Address} (hnew : s.readVersion kind v = none)
    (htable : s'.versionRecord = s.versionRecord)
    (hlegacy : s'.version = writeAt s.version kind v (some address)) :
    s'.readVersion = writeAt s.readVersion kind v (some ⟨address, .unbound⟩) := by
  obtain ⟨hunrecorded, _⟩ := readVersion_eq_none.1 hnew
  funext kind' v'
  unfold State.readVersion
  rw [htable, hlegacy]
  by_cases hsame : kind' = kind ∧ v' = v
  · obtain ⟨rfl, rfl⟩ := hsame
    simp [hunrecorded]
  · rw [writeAt_ne hsame, writeAt_ne hsame]

/-! ## One step -/

namespace Versioned

/-- A number past the latest is new. -/
theorem new (h : Versioned s) (hlate : s.latest kind < v) : s.readVersion kind v = none := by
  by_contra hpublished
  have hle := h.bounded kind v hpublished
  grind

/-- The latest version is the largest published one, or 0 when there is none. -/
theorem greatest (h : Versioned s) (kind : ModuleKind) :
    IsGreatest { v | s.readVersion kind v ≠ none } (s.latest kind) ∨
      s.latest kind = 0 ∧ ∀ v, s.readVersion kind v = none := by
  rcases h.attained kind with hzero | hpublished
  · refine .inr ⟨hzero, ?_⟩
    intro v
    by_contra hpublished
    have hle := h.bounded kind v hpublished
    have hnonzero := h.nonzero kind v hpublished
    grind
  · exact .inl ⟨hpublished, fun v hv => h.bounded kind v hv⟩

end Versioned

theorem registerVersion_publication {caller address : Address} {wasmHash : WasmHash}
    (h : registerVersion env s caller kind v address wasmHash = .ok s') :
    Publication s s' kind v ⟨address, .bound wasmHash⟩ := by
  obtain ⟨_, _, hnonzero, hnew, _, rfl⟩ := registerVersion_ok h
  refine ⟨hnonzero, hnew, readVersion_consolidated hnew rfl rfl, ?_⟩
  funext kind'
  unfold State.latest
  dsimp only
  by_cases hkind : kind' = kind
  · subst hkind
    rw [Function.update_self]
    split
    · rw [Function.update_self]
      rfl
    · rfl
  · rw [Function.update_of_ne hkind]
    split
    · rw [Function.update_of_ne hkind]
    · rfl

theorem commitUpgrade_publication {caller : Address} {answer : UInt32 × Address}
    {proposal : UpgradeProposal} (hs : Versioned s) (hproposal : s.upgradeProposal kind = some proposal)
    (h : commitUpgrade env s caller kind = .ok (answer, s')) :
    Publication s s' kind proposal.version ⟨proposal.address, .unbound⟩ := by
  obtain ⟨proposal', _, _, _, hproposal', hnewer, rfl⟩ := commitUpgrade_ok h
  rw [hproposal, Option.some.injEq] at hproposal'
  subst hproposal'
  have hnew := hs.new hnewer
  refine ⟨by grind, hnew, readVersion_legacy hnew rfl rfl, ?_⟩
  rw [if_pos hnewer]
  funext kind'
  unfold State.latest
  dsimp only
  by_cases hkind : kind' = kind
  · subst hkind
    rw [Function.update_self, Function.update_self]
    rfl
  · rw [Function.update_of_ne hkind, Function.update_of_ne hkind]

/-- **A call publishes one version, or leaves the table alone.** -/
theorem exec_versions (hs : Versioned s) (h : exec env s call = .ok s') :
    (call.publishes s = none ∧ s'.readVersion = s.readVersion ∧ s'.latest = s.latest) ∨
      ∃ kind v record, call.publishes s = some (kind, v) ∧ Publication s s' kind v record := by
  cases hcall : call.publishes s with
  | none =>
      refine .inl ⟨rfl, ?_⟩
      cases exec_effect h with
      | published _ _ _ _ _ heq => simp [heq, Call.publishes] at hcall
      | committed _ _ _ _ heq _ _ hproposal => simp [heq, Call.publishes, hproposal] at hcall
      | _ => exact ⟨rfl, rfl⟩
  | some x =>
      obtain ⟨kind, v⟩ := x
      refine .inr ⟨kind, v, ?_⟩
      cases call with
      | registerVersion =>
          cases hcall
          exact ⟨_, rfl, registerVersion_publication h⟩
      | commitUpgrade =>
          obtain ⟨proposal, hproposal, hpair⟩ := Option.map_eq_some_iff.1 hcall
          cases hpair
          obtain ⟨_, h⟩ := snd_map_ok h
          exact ⟨_, rfl, commitUpgrade_publication hs hproposal h⟩
      | _ => cases hcall

namespace Publication

/-- What is published after a publication. -/
theorem published (h : Publication s s' kind v record) {kind' : ModuleKind} {v' : UInt32} :
    s'.Published kind' v' ↔ s.Published kind' v' ∨ (kind', v') = (kind, v) := by
  unfold State.Published
  rw [h.table]
  by_cases hsame : kind' = kind ∧ v' = v
  · obtain ⟨rfl, rfl⟩ := hsame
    simp
  · rw [writeAt_ne hsame]
    simp [hsame]

/-- What was published is what it was. -/
theorem kept (h : Publication s s' kind v record) {kind' : ModuleKind} {v' : UInt32}
    {record' : VersionRecord} (hrecord : s.readVersion kind' v' = some record') :
    s'.readVersion kind' v' = some record' := by
  have hne : ¬ (kind' = kind ∧ v' = v) := by
    rintro ⟨rfl, rfl⟩
    rw [h.new] at hrecord
    cases hrecord
  rw [h.table, writeAt_ne hne, hrecord]

theorem latest_le (h : Publication s s' kind v record) (kind' : ModuleKind) :
    s.latest kind' ≤ s'.latest kind' := by
  rw [h.latest]
  by_cases hkind : kind' = kind
  · subst hkind
    rw [Function.update_self]
    grind
  · rw [Function.update_of_ne hkind]
    grind

theorem versioned (h : Publication s s' kind v record) (hs : Versioned s) : Versioned s' := by
  refine ⟨?_, ?_, ?_⟩
  · intro kind' v' hpublished
    rcases h.published.1 hpublished with hbefore | hsame
    · exact hs.nonzero kind' v' hbefore
    · cases hsame
      exact h.nonzero
  · intro kind' v' hpublished
    have hle := h.latest_le kind'
    rcases h.published.1 hpublished with hbefore | hsame
    · have hbounded := hs.bounded kind' v' hbefore
      grind
    · cases hsame
      rw [h.latest, Function.update_self]
      grind
  · intro kind'
    rw [h.latest]
    by_cases hkind : kind' = kind
    · subst hkind
      rw [Function.update_self]
      split
      · exact .inr (h.published.2 (.inr rfl))
      · exact (hs.attained kind').imp id fun hpublished => h.published.2 (.inl hpublished)
    · rw [Function.update_of_ne hkind]
      exact (hs.attained kind').imp id fun hpublished => h.published.2 (.inl hpublished)

end Publication

/-! ## Runs -/

/-- The version an entry of a run published. -/
def publishes (e : Entry State (Inputs here)) : Option (ModuleKind × UInt32) :=
  match e.input with
  | .invoke _ call => call.publishes e.pre
  | .outside _ _ => none

/-- The table holds what the run published, each number once. -/
structure Catalogued (tr : List (Entry State (Inputs here))) (s : State) : Prop where
  versioned : Versioned s
  logged : ∀ kind v, s.Published kind v ↔ (kind, v) ∈ log publishes tr
  once : (log publishes tr).Nodup

theorem Catalogued.invoke (h : Catalogued tr s) (hstep : exec env s call = .ok s') :
    Catalogued (tr ++ [⟨s, .invoke env call, s'⟩]) s' := by
  rcases exec_versions h.versioned hstep with
    ⟨hquiet, htable, hlatest⟩ | ⟨kind, v, record, hpublishes, hpublication⟩
  · have hlog : log publishes (tr ++ [⟨s, .invoke env call, s'⟩]) = log publishes tr :=
      log_none hquiet
    have hsame : ∀ kind v, s'.Published kind v ↔ s.Published kind v := by
      intro kind v
      rw [State.Published, htable, State.Published]
    refine ⟨⟨?_, ?_, ?_⟩, ?_, ?_⟩
    · intro kind v hpublished
      exact h.versioned.nonzero kind v ((hsame kind v).1 hpublished)
    · intro kind v hpublished
      rw [hlatest]
      exact h.versioned.bounded kind v ((hsame kind v).1 hpublished)
    · intro kind
      rw [hlatest, hsame]
      exact h.versioned.attained kind
    · intro kind v
      rw [hlog, hsame, h.logged]
    · rw [hlog]
      exact h.once
  · have hnew : (kind, v) ∉ log publishes tr := by
      rw [← h.logged, State.Published, hpublication.new]
      exact fun hne => hne rfl
    refine ⟨hpublication.versioned h.versioned, ?_, log_nodup h.once hpublishes hnew⟩
    intro kind' v'
    rw [log_some hpublishes, hpublication.published, h.logged]
    simp

theorem catalogued_of_path (hpath : (machine here).Path anyInput tr s t) : Catalogued tr s := by
  refine hpath.history (P := fun tr s _ => Catalogued tr s) ?_ ?_
  · intro s t hfresh
    have hnone : ∀ kind v, ¬ s.Published kind v := by
      intro kind v
      rw [State.Published, not_not, readVersion_eq_none]
      exact ⟨hfresh.versionRecord kind v, hfresh.version kind v⟩
    refine ⟨⟨?_, ?_, ?_⟩, ?_, List.nodup_nil⟩
    · exact fun kind v hpublished => absurd hpublished (hnone kind v)
    · exact fun kind v hpublished => absurd hpublished (hnone kind v)
    · intro kind
      rw [State.latest, hfresh.latestVersion]
      exact .inl rfl
    · intro kind v
      simp [log, hnone kind v]
  · intro tr s t i s' _ hcatalogued _ _ hstep
    cases i with
    | invoke env call => exact hcatalogued.invoke hstep
    | outside time uploaded =>
        obtain rfl : s' = { s with uploaded := uploaded } := hstep
        have hlog : log publishes (tr ++ [⟨s, .outside time uploaded, { s with uploaded := uploaded }⟩])
            = log publishes tr := log_none rfl
        obtain ⟨hnonzero, hbounded, hattained⟩ := hcatalogued.versioned
        refine ⟨⟨hnonzero, hbounded, hattained⟩, ?_, ?_⟩
        · rw [hlog]
          exact hcatalogued.logged
        · rw [hlog]
          exact hcatalogued.once

theorem versioned_reachable (h : Reachable here s) : Versioned s := by
  obtain ⟨tr, t, hpath⟩ := h
  exact (catalogued_of_path hpath).versioned

/-- A step keeps what is published, and the latest versions do not go back. -/
theorem step_versions {i : Inputs here} (hs : Versioned s) (hstep : (machine here).step i s s') :
    (∀ kind v record, s.readVersion kind v = some record → s'.readVersion kind v = some record) ∧
      ∀ kind, s.latest kind ≤ s'.latest kind := by
  cases i with
  | outside time uploaded =>
      obtain rfl : s' = { s with uploaded := uploaded } := hstep
      exact ⟨fun _ _ _ hrecord => hrecord, fun _ => UInt32.le_refl _⟩
  | invoke env call =>
      rcases exec_versions hs hstep with ⟨_, htable, hlatest⟩ | ⟨_, _, _, _, hpublication⟩
      · rw [htable, hlatest]
        exact ⟨fun _ _ _ hrecord => hrecord, fun _ => UInt32.le_refl _⟩
      · exact ⟨fun _ _ _ hrecord => hpublication.kept hrecord, hpublication.latest_le⟩

/-- What is published at any moment of a run is published at the end, and the latest versions
do not go back. -/
theorem versions_kept (hpath : (machine here).Path anyInput tr s t) :
    ∀ e ∈ tr, (∀ kind v record, e.pre.readVersion kind v = some record →
        s.readVersion kind v = some record) ∧ ∀ kind, e.pre.latest kind ≤ s.latest kind := by
  have hrun : (machine here).Path anyInput ([] ++ tr) s t := hpath
  refine hrun.since (R := fun s s' =>
    (∀ kind v record, s.readVersion kind v = some record → s'.readVersion kind v = some record) ∧
      ∀ kind, s.latest kind ≤ s'.latest kind) ?_ ?_
  · intro a b c hab hbc
    refine ⟨fun kind v record hrecord => hbc.1 kind v record (hab.1 kind v record hrecord), ?_⟩
    exact fun kind => UInt32.le_trans (hab.2 kind) (hbc.2 kind)
  · intro e he
    have hversioned := versioned_reachable (hpath.reachable_of_mem he)
    exact step_versions hversioned (hpath.stepped he)

/-- **Published versions are immutable.**  What a version resolved to at any moment of a run it
resolves to at the end; the latest version of a kind is the largest published one, or 0, and
never goes back; what is published is what the run published, and no number twice. -/
theorem versions_immutable (hpath : (machine here).Path anyInput tr s t) :
    (∀ e ∈ tr, (∀ kind v record, e.pre.readVersion kind v = some record →
        s.readVersion kind v = some record) ∧ ∀ kind, e.pre.latest kind ≤ s.latest kind) ∧
    (∀ kind, IsGreatest { v | s.readVersion kind v ≠ none } (s.latest kind) ∨
      s.latest kind = 0 ∧ ∀ v, s.readVersion kind v = none) ∧
    (∀ kind v, s.readVersion kind v ≠ none ↔ (kind, v) ∈ log publishes tr) ∧
    (log publishes tr).Nodup := by
  obtain ⟨hversioned, hlogged, honce⟩ := catalogued_of_path hpath
  exact ⟨versions_kept hpath, hversioned.greatest, hlogged, honce⟩

/-- A version is published directly, the next one is proposed and committed, and then the number
between them is published. -/
def publishing : Script Call :=
  opening ++ [(signedBy 2 [1], .addApprovedWasm (.account 1) .wallet (hashOf 1)),
    (signedBy 2 [1], .registerVersion (.account 1) .wallet 1 (.contract 11) (hashOf 1)),
    (signedBy 3 [3], .proposeUpgrade (.account 3) "org" .wallet 3 (hashOf 3) (.contract 13)),
    (signedBy 4 [1], .commitUpgrade (.account 1) .wallet),
    (signedBy 5 [1], .registerVersion (.account 1) .wallet 2 (.contract 12) (hashOf 3))]

/-- What was published is numbered 1, 3 and 2. -/
theorem versions_immutable_publishing : (log publishes
    ((deployment (.contract 0)).trace deployed publishing)).Nodup ∧
    (play deployed publishing).latest .wallet = 3 := by
  have hplays : (deployment (.contract 0)).plays deployed 0 publishing = true := by decide
  have hpath := Deployment.path_trace deployed_fresh hplays
  exact ⟨(versions_immutable hpath).2.2.2, by decide⟩

end RegistryContract
end Astroid
