import Astroid.Lib.Register
import Astroid.Registry.Pins

/-!
# Who points a module where

The pointer of a module is written by four entrypoints, each behind the same guard.  So the
pointer is what the last of them wrote, and whoever made that call might manage the module
then (`routed_by_manager`).
-/

namespace Astroid
namespace RegistryContract

open Outcome Keyed Machine

variable {here : Address} {env : Env here} {s s' : State} {call : Call} {org : String}
  {kind : ModuleKind} {address : Address} {tr : List (Entry State (Inputs here))}
  {e : Entry State (Inputs here)} {t : ℕ}

/-! ## Lookups -/

/-- The module the registry answers a lookup with. -/
structure State.Live (s : State) (org : String) (kind : ModuleKind) (address : Address) : Prop where
  unfrozen : s.isFrozen = false
  registered : s.moduleAddress org kind = some address
  current : (s.moduleDeprecated org kind).getD false = false

theorem lookup_eq_ok : lookup s org kind = .ok address ↔ s.Live org kind address := by
  simp only [lookup, readModule, bind_eq_ok, checkFrozen_eq_ok, okOr_eq_ok, require_eq_ok,
    pure_eq_ok, Option.map_eq_some_iff]
  constructor
  · rintro ⟨_, hunfrozen, _, ⟨a, hregistered, rfl⟩, _, hcurrent, rfl⟩
    exact ⟨hunfrozen, hregistered, hcurrent⟩
  · intro h
    exact ⟨(), h.unfrozen, _, ⟨address, h.registered, rfl⟩, (), h.current, rfl⟩

/-! ## Runs -/

/-- The call points the module somewhere, or removes it. -/
def Call.Routes (org : String) (kind : ModuleKind) (call : Call) : Prop :=
  call.resets = some (org, kind) ∨ call.moves.map Prod.fst = some (org, kind)

instance (call : Call) : Decidable (call.Routes org kind) := inferInstanceAs (Decidable (_ ∨ _))

/-- Where an entry of a run points the module, if it does. -/
def routes (org : String) (kind : ModuleKind) (e : Entry State (Inputs here)) :
    Option (Option Address) :=
  match e.input with
  | .invoke _ call => if call.Routes org kind then some (e.post.moduleAddress org kind) else none
  | .outside _ _ => none

/-- In this entry somebody who might manage the module pointed it somewhere. -/
def RoutedByManager (org : String) (kind : ModuleKind) (e : Entry State (Inputs here)) : Prop :=
  ∃ env call caller, e.input = .invoke env call ∧ call.Routes org kind ∧
    Manages env e.pre caller org kind

/-- Only a manager points a module somewhere. -/
theorem exec_routes (hroutes : call.Routes org kind) (h : exec env s call = .ok s') :
    ∃ caller, Manages env s caller org kind := by
  rcases hroutes with hresets | hmoves
  · obtain ⟨caller, _, hmanages, _⟩ := resets_ok hresets h
    exact ⟨caller, hmanages⟩
  · obtain ⟨⟨_, version⟩, hcall, rfl⟩ := Option.map_eq_some_iff.1 hmoves
    obtain ⟨caller, _, hmanages, _⟩ := moves_ok hcall h
    exact ⟨caller, hmanages⟩

/-- Every other call leaves the pointer alone. -/
theorem exec_not_routes (hother : ¬ call.Routes org kind) (h : exec env s call = .ok s') :
    s'.moduleAddress org kind = s.moduleAddress org kind := by
  rcases exec_module org kind h with ⟨hresets, _⟩ | ⟨v, hmoves, _⟩ | ⟨_, _, hsame⟩
  · exact absurd (.inl hresets) hother
  · exact absurd (.inr (by rw [hmoves]; rfl)) hother
  · exact hsame

/-- An entry writes the pointer of a module, or leaves it alone. -/
theorem step_writes {i : Inputs here} (hstep : (machine here).step i s s') :
    Writes (fun s : State => s.moduleAddress org kind) (routes org kind) ⟨s, i, s'⟩ := by
  cases i with
  | outside time uploaded =>
      obtain rfl : s' = { s with uploaded := uploaded } := hstep
      rfl
  | invoke env call =>
      unfold Writes routes
      dsimp only
      split
      · rfl
      · rename_i hother
        exact exec_not_routes hother hstep

/-- **A module points where a manager pointed it.**  In every run, where a module points the last
entry that routed it pointed it, and whoever made that entry signed it and might manage the
module then. -/
theorem routed_by_manager (hpath : (machine here).Path anyInput tr s t)
    (hmodule : s.moduleAddress org kind = some address) :
    ∃ tr₁ e tr₂, tr = tr₁ ++ e :: tr₂ ∧ RoutedByManager org kind e ∧
      e.post.moduleAddress org kind = some address ∧ ∀ q ∈ tr₂, routes org kind q = none := by
  have hwritten : lastWrite (routes org kind) tr = some (some address) := by
    rw [← hmodule]
    refine hpath.written (fun s (hfresh : Fresh s) => hfresh.moduleAddress org kind)
      (fun _ _ _ _ _ _ _ hstep => step_writes hstep) ?_
    rw [hmodule]
    exact Option.some_ne_none _
  obtain ⟨tr₁, e, tr₂, rfl, he, hafter⟩ := lastWrite_eq_some.1 hwritten
  have hstep := hpath.stepped (List.mem_append_right tr₁ List.mem_cons_self)
  obtain ⟨pre, input, post⟩ := e
  cases input with
  | outside time uploaded => cases he
  | invoke env call =>
      have hcall : call.Routes org kind := by
        by_contra hother
        have hnone : routes org kind ⟨pre, .invoke env call, post⟩ = none := if_neg hother
        rw [hnone] at he
        cases he
      have hposted : routes org kind ⟨pre, .invoke env call, post⟩
          = some (post.moduleAddress org kind) := if_pos hcall
      obtain ⟨caller, hmanages⟩ := exec_routes hcall hstep
      rw [hposted, Option.some.injEq] at he
      exact ⟨tr₁, _, tr₂, rfl, ⟨env, call, caller, rfl, hcall, hmanages⟩, he, hafter⟩

end RegistryContract
end Astroid
