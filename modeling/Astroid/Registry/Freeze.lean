import Astroid.Registry.Effects

/-!
# The freeze

The freeze is a check that the entrypoints repeat by hand.  What a successful call did tells
which of them make it: while the registry is frozen no organization, module, version or pending
proposal changes (`frozen_undisturbed`), and of the roles one can only be withdrawn, by the owner
of the organization or an admin, which is left open on purpose.
-/

namespace Astroid
namespace RegistryContract

open Outcome Keyed Machine

variable {here : Address} {env : Env here} {s s' s'' : State} {call : Call}
  {tr₁ tr₂ : List (Entry State (Inputs here))} {e : Entry State (Inputs here)} {t : ℕ}

/-- The records that a freeze protects are the same, roles apart. -/
structure Undisturbed (s s' : State) : Prop where
  org : s'.org = s.org
  moduleAddress : s'.moduleAddress = s.moduleAddress
  moduleDeprecated : s'.moduleDeprecated = s.moduleDeprecated
  moduleVersion : s'.moduleVersion = s.moduleVersion
  version : s'.version = s.version
  versionRecord : s'.versionRecord = s.versionRecord
  latestVersion : s'.latestVersion = s.latestVersion
  upgradeProposal : s'.upgradeProposal = s.upgradeProposal

/-- The call withdrew one role, on the word of the organization's owner or an admin. -/
def Withdraws (env : Env here) (s : State) (call : Call) (s' : State) : Prop :=
  ∃ caller org account, call = .revokeRole caller org account ∧ caller ∈ env.auths ∧
    s.Rules caller org ∧ s'.orgRole = writeAt s.orgRole org account none

namespace Undisturbed

theorem refl (s : State) : Undisturbed s s := ⟨rfl, rfl, rfl, rfl, rfl, rfl, rfl, rfl⟩

theorem trans (h : Undisturbed s s') (h' : Undisturbed s' s'') : Undisturbed s s'' where
  org := h'.org.trans h.org
  moduleAddress := h'.moduleAddress.trans h.moduleAddress
  moduleDeprecated := h'.moduleDeprecated.trans h.moduleDeprecated
  moduleVersion := h'.moduleVersion.trans h.moduleVersion
  version := h'.version.trans h.version
  versionRecord := h'.versionRecord.trans h.versionRecord
  latestVersion := h'.latestVersion.trans h.latestVersion
  upgradeProposal := h'.upgradeProposal.trans h.upgradeProposal

end Undisturbed

/-! ## One call -/

/-- What a call on a frozen registry did. -/
theorem exec_frozen (hfrozen : s.isFrozen = true) (h : exec env s call = .ok s') :
    Undisturbed s s' ∧ (s'.orgRole = s.orgRole ∨ Withdraws env s call s') ∧
      (s'.isFrozen = true ∨ ∃ caller org, call = .unfreeze caller org) := by
  have hnot : s.isFrozen ≠ false := by
    rw [hfrozen]
    decide
  cases exec_effect h with
  | registered _ _ _ hunfrozen => exact absurd hunfrozen hnot
  | transferred _ _ _ hunfrozen => exact absurd hunfrozen hnot
  | granted _ _ _ _ hunfrozen => exact absurd hunfrozen hnot
  | routed _ _ _ _ _ hmanages => exact absurd hmanages.unfrozen hnot
  | flagged _ _ _ _ hunfrozen => exact absurd hunfrozen hnot
  | moved _ _ _ _ _ _ hmanages => exact absurd hmanages.unfrozen hnot
  | published _ _ _ _ _ _ hunfrozen => exact absurd hunfrozen hnot
  | proposed _ _ _ _ hunfrozen => exact absurd hunfrozen hnot
  | committed _ _ _ _ _ hunfrozen => exact absurd hunfrozen hnot
  | rejected _ _ _ hunfrozen => exact absurd hunfrozen hnot
  | revoked caller org account hcall hauth _ hrules =>
      refine ⟨⟨rfl, rfl, rfl, rfl, rfl, rfl, rfl, rfl⟩, .inr ?_, .inl hfrozen⟩
      exact ⟨caller, org, account, hcall, hauth, hrules, rfl⟩
  | froze caller org frozen hcall =>
      refine ⟨⟨rfl, rfl, rfl, rfl, rfl, rfl, rfl, rfl⟩, .inl rfl, ?_⟩
      rcases hcall with rfl | hcall
      · exact .inl rfl
      · exact .inr ⟨caller, org, hcall⟩
  | quiet | initialized | governed | entrusted | upgraded =>
      exact ⟨⟨rfl, rfl, rfl, rfl, rfl, rfl, rfl, rfl⟩, .inl rfl, .inl hfrozen⟩

/-- **A freeze holds still what the registry routes by.**  No call on a frozen registry, whether it
returns or fails, changes an organization, a module, a version or a pending proposal; and none
changes a role, except that `revoke_role` takes the one it names away. -/
theorem frozen_undisturbed (hfrozen : s.isFrozen = true) (env : Env here) (call : Call) :
    Undisturbed s ((deployment here).after s (env, call)) ∧
      (((deployment here).after s (env, call)).orgRole = s.orgRole ∨
        Withdraws env s call ((deployment here).after s (env, call))) := by
  cases hexec : exec env s call with
  | error f =>
      have hsame : (deployment here).after s (env, call) = s := Deployment.after_of_error hexec
      rw [hsame]
      exact ⟨.refl s, .inl rfl⟩
  | ok s' =>
      have hafter : (deployment here).after s (env, call) = s' := Deployment.after_of_ok hexec
      rw [hafter]
      obtain ⟨hundisturbed, hroles, _⟩ := exec_frozen hfrozen hexec
      exact ⟨hundisturbed, hroles⟩

/-- The wallet of "org" is registered, and then account 2 freezes the registry. -/
def freezing : Script Call :=
  opening ++ [(signedBy 2 [2], .registerModule (.account 2) "org" .wallet (.contract 9)),
    (signedBy 3 [2], .freeze (.account 2) "org")]

/-- The wallet stays where it is when account 3 tries to move it. -/
theorem frozen_undisturbed_freezing : Undisturbed (play deployed freezing)
    ((deployment (.contract 0)).after (play deployed freezing)
      (signedBy 4 [3], .upgradeModule (.account 3) "org" .wallet 1)) := by
  have hfrozen : (play deployed freezing).isFrozen = true := by decide
  exact (frozen_undisturbed hfrozen _ _).1

/-- **A frozen registry still changes roles**: account 2 withdraws the one of account 3. -/
theorem not_frozen_undisturbed : ¬ ∀ (s : State) (env : Env (.contract 0)) (call : Call),
    Reachable (.contract 0) s → s.isFrozen = true → (∀ caller org, call ≠ .unfreeze caller org) →
    (∀ caller wasmHash, call ≠ .upgrade caller wasmHash) →
    ((deployment (.contract 0)).after s (env, call)).orgRole = s.orgRole := by
  intro h
  have hplays : (deployment (.contract 0)).plays deployed 0 freezing = true := by decide
  have hroles := h (play deployed freezing) (signedBy 4 [2])
    (.revokeRole (.account 2) "org" (.account 3)) (Deployment.reachable_play deployed_fresh hplays)
    (by decide) (by simp) (by simp)
  have hrole := congrFun (congrFun hroles "org") (.account 3)
  revert hrole
  decide

/-! ## A stretch of a run -/

/-- From a frozen registry on: still frozen, nothing disturbed, and roles only withdrawn. -/
def StaysFrozen (s s' : State) : Prop :=
  s.isFrozen = true → s'.isFrozen = true ∧ Undisturbed s s' ∧
    ∀ org account, s'.orgRole org account = s.orgRole org account ∨ s'.orgRole org account = none

/-- An entry that does not unfreeze. -/
theorem step_frozen (hstep : (machine here).step e.input e.pre e.post)
    (hcall : ∀ env caller org, e.input ≠ .invoke env (.unfreeze caller org)) :
    StaysFrozen e.pre e.post := by
  obtain ⟨pre, input, post⟩ := e
  intro hfrozen
  cases input with
  | outside time uploaded =>
      obtain rfl : post = { pre with uploaded := uploaded } := hstep
      exact ⟨hfrozen, ⟨rfl, rfl, rfl, rfl, rfl, rfl, rfl, rfl⟩, fun _ _ => .inl rfl⟩
  | invoke env call =>
      obtain ⟨hundisturbed, hroles, hstays⟩ := exec_frozen hfrozen hstep
      refine ⟨?_, hundisturbed, ?_⟩
      · rcases hstays with hstays | ⟨caller, org, rfl⟩
        · exact hstays
        · exact absurd rfl (hcall env caller org)
      · intro org account
        rcases hroles with hsame | ⟨_, org', account', _, _, _, hwithdrawn⟩
        · exact .inl (by rw [hsame])
        · have hwithdrawn : post.orgRole = writeAt pre.orgRole org' account' none := hwithdrawn
          by_cases hsame : org = org' ∧ account = account'
          · obtain ⟨rfl, rfl⟩ := hsame
            exact .inr (by rw [hwithdrawn, writeAt_self])
          · exact .inl (by rw [hwithdrawn, writeAt_ne hsame])

/-- **Until it is unfrozen** the registry keeps what it routes by, whatever is called and however
often. -/
theorem frozen_since (hpath : (machine here).Path anyInput (tr₁ ++ tr₂) s t)
    (hcalls : ∀ e ∈ tr₂, ∀ env caller org, e.input ≠ .invoke env (.unfreeze caller org)) :
    ∀ e ∈ tr₂, StaysFrozen e.pre s := by
  refine hpath.since ?_ ?_
  · intro a b c hab hbc hfrozen
    obtain ⟨hb, hundisturbed, hroles⟩ := hab hfrozen
    obtain ⟨hc, hundisturbed', hroles'⟩ := hbc hb
    refine ⟨hc, hundisturbed.trans hundisturbed', ?_⟩
    intro org account
    rcases hroles' org account with hsame | hnone
    · rw [hsame]
      exact hroles org account
    · exact .inr hnone
  · intro e he
    have hstep := hpath.stepped (List.mem_append_right tr₁ he)
    exact step_frozen hstep (hcalls e he)

end RegistryContract
end Astroid
