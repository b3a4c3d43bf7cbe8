import Astroid.Shared.Host
import Astroid.Lib.History

/-!
# Runs of a deployed contract

One input is one invocation, by anybody and with any arguments, or a change of
the world outside the contract.  An invocation that fails rolls every write
back, so it is no step.  What the world may do in between is part of a
`Deployment`.

A list of calls that all return is a run (`Deployment.path_play`), which is how
a run on fixed inputs is computed.
-/

namespace Astroid

/-- An input of a run of the contract at `current`: an invocation, or a change of
the outside world at a time. -/
inductive Input (current : Address) (World Call : Type) where
  | invoke (env : Env current) (call : Call)
  | outside (time : ℕ) (w : World)

namespace Input

variable {current : Address} {World Call : Type}

/-- The time of an input. -/
def time : Input current World Call → ℕ
  | .invoke env _ => env.timestamp.toNat
  | .outside t _ => t

end Input

/-- A contract that starts `fresh`, answers calls through `exec` and lives in a
world that changes as `outside` says. -/
structure Deployment (current : Address) (World State Call : Type) where
  fresh : State → Prop
  exec : Env current → State → Call → Result State
  outside : World → State → State → Prop

namespace Deployment

variable {current : Address} {World State Call : Type} (D : Deployment current World State Call)

/-- One step of a run. -/
def Step : Input current World Call → State → State → Prop
  | .invoke env call, s, s' => D.exec env s call = .ok s'
  | .outside _ w, s, s' => D.outside w s s'

def machine : Machine State (Input current World Call) where
  init := D.fresh
  step := D.Step
  time := Input.time

/-! ## Playing a list of calls -/

/-- The state a call leaves, which is the old one when it fails. -/
def after (s : State) (c : Env current × Call) : State :=
  match D.exec c.1 s c.2 with
  | .ok s' => s'
  | .error _ => s

/-- The calls of a list all return, at times that do not go back. -/
def plays (s : State) (t : ℕ) : List (Env current × Call) → Bool
  | [] => true
  | c :: rest => decide (t ≤ c.1.timestamp.toNat) && (D.exec c.1 s c.2).isOk &&
      plays (D.after s c) c.1.timestamp.toNat rest

/-- The state a list of calls leaves. -/
def play (s : State) (calls : List (Env current × Call)) : State :=
  calls.foldl D.after s

/-- The entries a list of calls adds to a run. -/
def trace (s : State) : List (Env current × Call) → List (Entry State (Input current World Call))
  | [] => []
  | c :: rest => ⟨s, .invoke c.1 c.2, D.after s c⟩ :: trace (D.after s c) rest

/-- The time of the last call of a list. -/
def lastTime (t : ℕ) (calls : List (Env current × Call)) : ℕ :=
  calls.foldl (fun _ c => c.1.timestamp.toNat) t

/-- Each call of a list is allowed in the state it is made in. -/
def AllAllowed (allow : Input current World Call → State → Prop) (s : State) :
    List (Env current × Call) → Prop
  | [] => True
  | c :: rest => allow (.invoke c.1 c.2) s ∧ AllAllowed allow (D.after s c) rest

variable {D}

theorem after_of_ok {s s' : State} {c : Env current × Call} (h : D.exec c.1 s c.2 = .ok s') :
    D.after s c = s' := by
  simp only [after, h]

/-- A call that fails leaves the state as it is. -/
theorem after_of_error {s : State} {c : Env current × Call} {f : Fault}
    (h : D.exec c.1 s c.2 = .error f) : D.after s c = s := by
  simp only [after, h]

theorem step_after {s : State} {c : Env current × Call} (h : (D.exec c.1 s c.2).isOk = true) :
    D.Step (.invoke c.1 c.2) s (D.after s c) := by
  cases hexec : D.exec c.1 s c.2 with
  | error f =>
      rw [hexec] at h
      cases h
  | ok s' =>
      rw [after_of_ok hexec]
      exact hexec

/-- The entries of a list of calls are the calls of the list. -/
theorem input_mem {s : State} {calls : List (Env current × Call)}
    {e : Entry State (Input current World Call)} (h : e ∈ D.trace s calls) :
    ∃ c ∈ calls, e.input = .invoke c.1 c.2 := by
  induction calls generalizing s with
  | nil => cases h
  | cons c rest ih =>
      rw [trace, List.mem_cons] at h
      rcases h with rfl | h
      · exact ⟨c, List.mem_cons_self, rfl⟩
      · obtain ⟨c', hc', hinput⟩ := ih h
        exact ⟨c', List.mem_cons_of_mem _ hc', hinput⟩

/-- A list of allowed calls that plays is a run. -/
theorem path_play {allow : Input current World Call → State → Prop}
    {tr : List (Entry State (Input current World Call))} {s : State} {t : ℕ}
    {calls : List (Env current × Call)} (hpath : D.machine.Path allow tr s t)
    (hplays : D.plays s t calls = true) (hallow : D.AllAllowed allow s calls) :
    D.machine.Path allow (tr ++ D.trace s calls) (D.play s calls) (lastTime t calls) := by
  induction calls generalizing tr s t with
  | nil =>
      rw [trace, List.append_nil]
      exact hpath
  | cons c rest ih =>
      simp only [plays, Bool.and_eq_true, decide_eq_true_eq] at hplays
      obtain ⟨⟨htime, hok⟩, hrest⟩ := hplays
      have hstep : D.machine.Path allow _ (D.after s c) c.1.timestamp.toNat :=
        Machine.Path.step (i := Input.invoke c.1 c.2) hpath htime hallow.1 (step_after hok)
      have hlater := ih hstep hrest hallow.2
      rw [List.append_assoc] at hlater
      exact hlater

theorem allAllowed_any (s : State) (calls : List (Env current × Call)) :
    D.AllAllowed Machine.anyInput s calls := by
  induction calls generalizing s with
  | nil => trivial
  | cons c rest ih => exact ⟨trivial, ih _⟩

/-- A run goes on with any list of calls that plays. -/
theorem path_playing {tr : List (Entry State (Input current World Call))} {s : State} {t : ℕ}
    {calls : List (Env current × Call)} (hpath : D.machine.Path Machine.anyInput tr s t)
    (hplays : D.plays s t calls = true) :
    D.machine.Path Machine.anyInput (tr ++ D.trace s calls) (D.play s calls) (lastTime t calls) :=
  path_play hpath hplays (allAllowed_any s calls)

/-- A list of calls that plays on a fresh contract is a run. -/
theorem path_trace {s : State} {calls : List (Env current × Call)} (hfresh : D.fresh s)
    (hplays : D.plays s 0 calls = true) :
    D.machine.Path Machine.anyInput (D.trace s calls) (D.play s calls) (lastTime 0 calls) := by
  have hstart : D.machine.Path Machine.anyInput [] s 0 := .start hfresh
  exact path_playing hstart hplays

theorem anyPath_play {s : State} {calls : List (Env current × Call)} (hfresh : D.fresh s)
    (hplays : D.plays s 0 calls = true) :
    ∃ tr, D.machine.Path Machine.anyInput tr (D.play s calls) (lastTime 0 calls) :=
  ⟨_, path_trace hfresh hplays⟩

theorem reachable_play {s : State} {calls : List (Env current × Call)} (hfresh : D.fresh s)
    (hplays : D.plays s 0 calls = true) : D.machine.Reachable (D.play s calls) := by
  obtain ⟨tr, hpath⟩ := anyPath_play hfresh hplays
  exact ⟨tr, _, hpath⟩

end Deployment

/-- Calls to `contract 0`, each with its invocation. -/
abbrev Script (Call : Type) := List (Env (.contract 0) × Call)

/-- An invocation of `contract 0` at `timestamp` that the accounts `signers`
authorized. -/
def signedBy (timestamp : UInt64) (signers : List ℕ) : Env (.contract 0) where
  timestamp := timestamp
  sequence := 0
  auths := signers.map .account
  argAuths _ _ := false
  current_notMem := by
    intro h
    obtain ⟨n, _, hn⟩ := List.mem_map.1 h
    cases hn

/-- An invocation of `contract n` that the accounts `signers` authorized. -/
def signedAt (n : ℕ) (timestamp : UInt64) (signers : List ℕ) : Env (.contract n) where
  timestamp := timestamp
  sequence := 0
  auths := signers.map .account
  argAuths _ _ := false
  current_notMem := by
    intro h
    obtain ⟨k, _, hk⟩ := List.mem_map.1 h
    cases hk

end Astroid
