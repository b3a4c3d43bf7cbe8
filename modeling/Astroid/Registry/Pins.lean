import Astroid.Registry.Versions

/-!
# Version pins

A module that was moved to a version is pinned to it.  The pointer, the pin and the flag of a
module are separate entries that five entrypoints write; what a call does to one module is one of
three things (`exec_module`).  So a pin names the version whose code the module runs, and between
two calls that drop it a pin only rises (`pins_rise`).
-/

namespace Astroid
namespace RegistryContract

open Outcome Keyed Machine

variable {here : Address} {env : Env here} {s s' : State} {call : Call} {org : String}
  {kind : ModuleKind} {v : UInt32} {tr tr₁ tr₂ : List (Entry State (Inputs here))}
  {e : Entry State (Inputs here)} {t : ℕ}

/-- The module runs the code of the version it is pinned to. -/
def State.PinTrue (s : State) (org : String) (kind : ModuleKind) : Prop :=
  0 < s.pin org kind → ∃ record, s.readVersion kind (s.pin org kind) = some record ∧
    s.moduleAddress org kind = some record.address

/-- The module an entry of a run repoints without a version, or removes. -/
def resets (e : Entry State (Inputs here)) : Option (String × ModuleKind) :=
  match e.input with
  | .invoke _ call => call.resets
  | .outside _ _ => none

/-- The pin an entry of a run writes for the module. -/
def pins (org : String) (kind : ModuleKind) (e : Entry State (Inputs here)) : Option UInt32 :=
  match e.input with
  | .invoke _ call => (call.moves.filter fun x => decide (x.1 = (org, kind))).map Prod.snd
  | .outside _ _ => none

theorem pins_eq_some : pins org kind e = some v ↔
    ∃ env call, e.input = .invoke env call ∧ call.moves = some ((org, kind), v) := by
  obtain ⟨pre, input, post⟩ := e
  cases input with
  | outside => simp [pins]
  | invoke env call =>
      simp only [pins, Option.map_eq_some_iff, Option.filter_eq_some_iff, decide_eq_true_eq]
      constructor
      · rintro ⟨⟨_, _⟩, ⟨hmoves, rfl⟩, rfl⟩
        exact ⟨env, call, rfl, hmoves⟩
      · rintro ⟨_, _, heq, hmoves⟩
        cases heq
        exact ⟨_, ⟨hmoves, rfl⟩, rfl⟩

/-! ## What a call does to one module -/

/-- The module was moved to the version. -/
structure Moved (s s' : State) (org : String) (kind : ModuleKind) (v : UInt32) : Prop where
  forward : s.pin org kind < v
  pin : s'.pin org kind = v
  runs : ∃ record, s.readVersion kind v = some record ∧
    s'.moduleAddress org kind = some record.address

/-- **A call drops the pin of a module, moves the module to a later version, or leaves it alone.** -/
theorem exec_module (org : String) (kind : ModuleKind) (h : exec env s call = .ok s') :
    (call.resets = some (org, kind) ∧ s'.pin org kind = 0) ∨
    (∃ v, call.moves = some ((org, kind), v) ∧ Moved s s' org kind v) ∨
    ((∀ v, call.moves ≠ some ((org, kind), v)) ∧ s'.pin org kind = s.pin org kind ∧
      s'.moduleAddress org kind = s.moduleAddress org kind) := by
  by_cases hresets : call.resets = some (org, kind)
  · obtain ⟨_, _, _, rfl⟩ := resets_ok hresets h
    refine .inl ⟨hresets, ?_⟩
    simp [State.pin, State.routeModule]
  by_cases hmoves : ∃ v, call.moves = some ((org, kind), v)
  · obtain ⟨v, hmoves⟩ := hmoves
    obtain ⟨_, plan, _, htarget, rfl⟩ := moves_ok hmoves h
    refine .inr (.inl ⟨v, hmoves, htarget.forward, ?_, _, htarget.record, ?_⟩)
    · simp [State.pin, State.moveModule, htarget.toVersion]
    · simp [State.moveModule]
  · refine .inr (.inr ⟨fun v heq => hmoves ⟨v, heq⟩, ?_⟩)
    cases exec_effect h with
    | routed _ org' kind' _ heq =>
        have hne : ¬ (org = org' ∧ kind = kind') := by
          rintro ⟨rfl, rfl⟩
          exact hresets heq
        simp [State.pin, State.routeModule, writeAt_ne hne]
    | moved _ org' kind' _ _ heq =>
        have hne : ¬ (org = org' ∧ kind = kind') := by
          rintro ⟨rfl, rfl⟩
          exact hmoves ⟨_, heq⟩
        simp [State.pin, State.moveModule, writeAt_ne hne]
    | _ => exact ⟨rfl, rfl⟩

/-- A step keeps true pins true. -/
theorem step_pinTrue {i : Inputs here} (hs : Versioned s) (hpin : s.PinTrue org kind)
    (hstep : (machine here).step i s s') : s'.PinTrue org kind := by
  have hkept := (step_versions hs hstep).1
  cases i with
  | outside time uploaded =>
      obtain rfl : s' = { s with uploaded := uploaded } := hstep
      exact hpin
  | invoke env call =>
      intro hpos
      rcases exec_module org kind hstep with
        ⟨_, hzero⟩ | ⟨v, _, hmoved⟩ | ⟨_, hsame, haddress⟩
      · rw [hzero] at hpos
        exact absurd hpos (by decide)
      · obtain ⟨record, hrecord, hruns⟩ := hmoved.runs
        rw [hmoved.pin]
        exact ⟨record, hkept _ _ _ hrecord, hruns⟩
      · rw [hsame] at hpos ⊢
        rw [haddress]
        obtain ⟨record, hrecord, hruns⟩ := hpin hpos
        exact ⟨record, hkept _ _ _ hrecord, hruns⟩

theorem pinTrue_of_path (hpath : (machine here).Path anyInput tr s t) : s.PinTrue org kind := by
  refine hpath.history (P := fun _ s _ => s.PinTrue org kind) ?_ ?_
  · intro s _ hfresh hpos
    rw [State.pin, hfresh.moduleVersion] at hpos
    exact absurd hpos (by decide)
  · intro _ s _ i s' hbefore hpin _ _ hstep
    exact step_pinTrue (versioned_reachable hbefore.reachable) hpin hstep

/-! ## Pins only rise -/

/-- A call that moves a module to a version drops no pin. -/
theorem resets_of_moves {x : (String × ModuleKind) × UInt32} (h : call.moves = some x) :
    call.resets = none := by
  cases call with
  | upgradeModule | registerModuleVersion => rfl
  | _ => cases h

/-- An entry that writes a pin raises it. -/
theorem pins_forward (hstep : (machine here).step e.input e.pre e.post)
    (hpins : pins org kind e = some v) :
    e.pre.pin org kind < v ∧ e.post.pin org kind = v := by
  obtain ⟨env, call, hinput, hmoves⟩ := pins_eq_some.1 hpins
  rw [hinput] at hstep
  rcases exec_module org kind hstep with ⟨hresets, _⟩ | ⟨v', hmoves', hmoved⟩ | ⟨hother, _⟩
  · rw [resets_of_moves hmoves] at hresets
    cases hresets
  · rw [hmoves, Option.some.injEq, Prod.mk.injEq] at hmoves'
    rw [hmoves'.2]
    exact ⟨hmoved.forward, hmoved.pin⟩
  · exact absurd hmoves (hother v)

/-- An entry that does not drop the pin of a module raises it or leaves it alone. -/
theorem pins_raise (hstep : (machine here).step e.input e.pre e.post)
    (hresets : resets e ≠ some (org, kind)) :
    Raises (· < ·) (fun s => s.pin org kind) (pins org kind) e := by
  unfold Raises
  cases hpins : pins org kind e with
  | some v => exact pins_forward hstep hpins
  | none =>
      obtain ⟨pre, input, post⟩ := e
      cases input with
      | outside time uploaded =>
          obtain rfl : post = { pre with uploaded := uploaded } := hstep
          rfl
      | invoke env call =>
          rcases exec_module org kind hstep with ⟨hdrops, _⟩ | ⟨v, hmoves, _⟩ | ⟨_, hsame, _⟩
          · exact absurd hdrops hresets
          · rw [pins_eq_some.2 ⟨env, call, rfl, hmoves⟩] at hpins
            cases hpins
          · exact hsame

/-- **Pins never lie and never go back.**  A module with a pin runs the code of the version it is
pinned to.  Every call that writes a pin raises it, and where no call of a stretch of the run drops
the pin of a module, the pins written there rise strictly up to the one in force.  A call
that is refused changes nothing. -/
theorem pins_rise (hpath : (machine here).Path anyInput (tr₁ ++ tr₂) s t) :
    (∀ org kind, 0 < s.pin org kind → ∃ record,
      s.readVersion kind (s.pin org kind) = some record ∧
        s.moduleAddress org kind = some record.address) ∧
    (∀ org kind, ∀ e ∈ tr₁ ++ tr₂, ∀ v, pins org kind e = some v →
      e.pre.pin org kind < v ∧ e.post.pin org kind = v) ∧
    (∀ org kind, (∀ e ∈ tr₂, resets e ≠ some (org, kind)) →
      (log (pins org kind) tr₂).Pairwise (· < ·) ∧
        ∀ v ∈ log (pins org kind) tr₂, v ≤ s.pin org kind) ∧
    ∀ (env : Env here) (s : State) (call : Call) (f : Fault), exec env s call = .error f →
      (deployment here).after s (env, call) = s := by
  refine ⟨fun org kind => pinTrue_of_path hpath, ?_, ?_, ?_⟩
  · intro org kind e he v hpins
    have hstep := hpath.stepped he
    exact pins_forward hstep hpins
  · intro org kind hresets
    have hraises : ∀ e ∈ tr₂, Raises (· < ·) (fun s => s.pin org kind) (pins org kind) e := by
      intro e he
      have hstep := hpath.stepped (List.mem_append_right tr₁ he)
      exact pins_raise hstep (hresets e he)
    have htrans : ∀ a b c : UInt32, a < b → b < c → a < c := fun _ _ _ => UInt32.lt_trans
    obtain ⟨hpairwise, hbelow⟩ := hpath.rising htrans hraises
    refine ⟨hpairwise, ?_⟩
    intro v hv
    have hlast := hbelow v hv
    grind
  · intro env s call f hrefused
    exact Deployment.after_of_error hrefused

/-- The wallet of "org" is moved to version 1 and then to version 3; between the two it stays. -/
def pinning : Script Call :=
  opening ++ [(signedBy 2 [1], .addApprovedWasm (.account 1) .wallet (hashOf 1)),
    (signedBy 2 [1], .registerVersion (.account 1) .wallet 1 (.contract 11) (hashOf 1)),
    (signedBy 2 [1], .registerVersion (.account 1) .wallet 3 (.contract 13) (hashOf 1)),
    (signedBy 3 [2], .registerModule (.account 2) "org" .wallet (.contract 9)),
    (signedBy 4 [3], .upgradeModule (.account 3) "org" .wallet 1),
    (signedBy 5 [1], .registerVersion (.account 1) .wallet 2 (.contract 12) (hashOf 1)),
    (signedBy 6 [3], .registerModuleVersion (.account 3) "org" .wallet 3)]

/-- The pin is 3, and the wallet is the contract published as version 3. -/
theorem pins_rise_pinning : (play deployed pinning).pin "org" .wallet = 3 ∧
    ∃ record, (play deployed pinning).readVersion .wallet 3 = some record ∧
      (play deployed pinning).moduleAddress "org" .wallet = some record.address := by
  have hplays : (deployment (.contract 0)).plays deployed 0 pinning = true := by decide
  have hpath : (machine (.contract 0)).Path anyInput ([] ++ _) _ _ :=
    Deployment.path_trace deployed_fresh hplays
  have hpin : (play deployed pinning).pin "org" .wallet = 3 := by decide
  refine ⟨hpin, ?_⟩
  have htrue := (pins_rise hpath).1 "org" .wallet
  rw [hpin] at htrue
  exact htrue (by decide)

end RegistryContract
end Astroid
