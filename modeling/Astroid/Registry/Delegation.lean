import Astroid.Registry.Effects

/-!
# Delegated roles

An organization's owner hands out roles, and a role may manage modules of certain kinds.  Accounts
that hold nothing but roles over one organization reach those modules and nothing else, however
many of them work together (`delegates_confined`): every other entry of the registry is written
under the signature of an owner or an admin.
-/

namespace Astroid
namespace RegistryContract

open Outcome Keyed Machine

variable {here : Address} {env : Env here} {s s' s'' : State} {call : Call} {org : String}
  {kind : ModuleKind} {accounts : Address → Prop} {caller : Address}
  {tr₁ tr₂ : List (Entry State (Inputs here))} {e : Entry State (Inputs here)} {t : ℕ}

/-- The accounts hold roles over the organization, and nothing else. -/
structure Delegates (s : State) (org : String) (accounts : Address → Prop) : Prop where
  role : ∀ account, accounts account → s.orgRole org account ≠ none
  elsewhere : ∀ account, accounts account → ∀ other, other ≠ org → s.orgRole other account = none
  not_owner : ∀ account, accounts account → ∀ other, s.org other ≠ some account
  not_admin : ∀ account, accounts account → ¬ s.IsAdmin account

/-- Some role of the accounts may manage modules of the kind. -/
def Manageable (s : State) (org : String) (accounts : Address → Prop) (kind : ModuleKind) : Prop :=
  ∃ account role, accounts account ∧ s.orgRole org account = some role ∧ role.mayManage kind = true

/-- Nothing changed that the accounts' roles do not reach. -/
structure Confined (org : String) (accounts : Address → Prop) (s s' : State) : Prop where
  admin : s'.admin = s.admin
  admins : s'.admins = s.admins
  multisig : s'.multisig = s.multisig
  owners : s'.org = s.org
  orgRole : s'.orgRole = s.orgRole
  frozen : s'.frozen = s.frozen
  approvedWasm : s'.approvedWasm = s.approvedWasm
  version : s'.version = s.version
  versionRecord : s'.versionRecord = s.versionRecord
  latestVersion : s'.latestVersion = s.latestVersion
  modules : ∀ org' kind, ¬ (org' = org ∧ Manageable s org accounts kind) →
    s'.moduleAddress org' kind = s.moduleAddress org' kind ∧
      s'.moduleVersion org' kind = s.moduleVersion org' kind ∧
      s'.moduleDeprecated org' kind = s.moduleDeprecated org' kind

/-! ## What the accounts may sign for -/

namespace Delegates

theorem not_administers (h : Delegates s org accounts)
    (hauths : ∀ account ∈ env.auths, accounts account) : ¬ Administers env s caller := by
  intro hadmin
  exact h.not_admin caller (hauths caller hadmin.auth) hadmin.admin

theorem not_rules (h : Delegates s org accounts)
    (hauths : ∀ account ∈ env.auths, accounts account) (hauth : caller ∈ env.auths)
    {other : String} : ¬ s.Rules caller other := by
  rintro (howner | hadmin)
  · exact h.not_owner caller (hauths caller hauth) other howner
  · exact h.not_admin caller (hauths caller hauth) hadmin

/-- **A module that one of the accounts manages** is one of the organization, of a kind that a role
of theirs may manage. -/
theorem manages (h : Delegates s org accounts)
    (hauths : ∀ account ∈ env.auths, accounts account) {other : String}
    (hmanages : Manages env s caller other kind) :
    other = org ∧ Manageable s org accounts kind := by
  have haccount := hauths caller hmanages.auth
  have hpermitted := hmanages.permitted
  have hrole : s.effectiveRole other caller = s.orgRole other caller :=
    if_neg (h.not_owner caller haccount other)
  simp only [canManageModule, hrole, Bool.or_eq_true, decide_eq_true_eq,
    h.not_admin caller haccount, false_or] at hpermitted
  by_cases hsame : other = org
  · subst hsame
    refine ⟨rfl, caller, ?_⟩
    obtain ⟨role, hheld⟩ := Option.ne_none_iff_exists'.1 (h.role caller haccount)
    rw [hheld] at hpermitted
    exact ⟨role, haccount, hheld, hpermitted⟩
  · rw [h.elsewhere caller haccount other hsame] at hpermitted
    cases hpermitted

/-- They still hold what they held. -/
theorem kept (h : Delegates s org accounts) (hconfined : Confined org accounts s s') :
    Delegates s' org accounts := by
  refine ⟨?_, ?_, ?_, ?_⟩
  · rw [hconfined.orgRole]
    exact h.role
  · rw [hconfined.orgRole]
    exact h.elsewhere
  · rw [hconfined.owners]
    exact h.not_owner
  · unfold State.IsAdmin
    rw [hconfined.admin, hconfined.admins, hconfined.multisig]
    exact h.not_admin

end Delegates

namespace Confined

theorem manageable (h : Confined org accounts s s') :
    Manageable s' org accounts kind ↔ Manageable s org accounts kind := by
  unfold Manageable
  rw [h.orgRole]

theorem trans (h : Confined org accounts s s') (h' : Confined org accounts s' s'') :
    Confined org accounts s s'' where
  admin := h'.admin.trans h.admin
  admins := h'.admins.trans h.admins
  multisig := h'.multisig.trans h.multisig
  owners := h'.owners.trans h.owners
  orgRole := h'.orgRole.trans h.orgRole
  frozen := h'.frozen.trans h.frozen
  approvedWasm := h'.approvedWasm.trans h.approvedWasm
  version := h'.version.trans h.version
  versionRecord := h'.versionRecord.trans h.versionRecord
  latestVersion := h'.latestVersion.trans h.latestVersion
  modules := by
    intro org' kind hout
    obtain ⟨haddress, hpin, hflag⟩ := h.modules org' kind hout
    rw [← h.manageable] at hout
    obtain ⟨haddress', hpin', hflag'⟩ := h'.modules org' kind hout
    exact ⟨haddress'.trans haddress, hpin'.trans hpin, hflag'.trans hflag⟩

/-- A write to a module that the accounts may manage. -/
theorem of_module {other : String} (hin : other = org ∧ Manageable s org accounts kind)
    {address : Option Address} {pin : Option UInt32} {flag : Option Bool} :
    Confined org accounts s { s with
      moduleAddress := writeAt s.moduleAddress other kind address
      moduleVersion := writeAt s.moduleVersion other kind pin
      moduleDeprecated := writeAt s.moduleDeprecated other kind flag } := by
  refine ⟨rfl, rfl, rfl, rfl, rfl, rfl, rfl, rfl, rfl, rfl, ?_⟩
  intro org' kind' hout
  have hne : ¬ (org' = other ∧ kind' = kind) := by
    rintro ⟨rfl, rfl⟩
    exact hout hin
  exact ⟨writeAt_ne hne, writeAt_ne hne, writeAt_ne hne⟩

end Confined

/-! ## One call -/

/-- **A call that only delegates signed** changes nothing their roles do not reach. -/
theorem exec_confined (h : Delegates s org accounts) (hinitialized : s.admin ≠ none)
    (hauths : ∀ account ∈ env.auths, accounts account) (hexec : exec env s call = .ok s') :
    Confined org accounts s s' := by
  cases exec_effect hexec with
  | initialized _ hnone => exact absurd hnone hinitialized
  | governed _ _ _ _ _ hadmin => exact absurd hadmin (h.not_administers hauths)
  | registered _ _ _ _ hadmin => exact absurd hadmin (h.not_administers hauths)
  | flagged _ _ _ _ _ hadmin => exact absurd hadmin (h.not_administers hauths)
  | published _ _ _ _ _ _ _ hadmin => exact absurd hadmin (h.not_administers hauths)
  | committed _ _ _ _ _ _ hadmin => exact absurd hadmin (h.not_administers hauths)
  | transferred _ _ _ _ hauth _ hrules => exact absurd hrules (h.not_rules hauths hauth)
  | granted _ _ _ _ _ hauth _ _ hrules => exact absurd hrules (h.not_rules hauths hauth)
  | revoked _ _ _ _ hauth _ hrules => exact absurd hrules (h.not_rules hauths hauth)
  | froze _ _ _ _ hauth _ hrules => exact absurd hrules (h.not_rules hauths hauth)
  | routed _ _ _ _ _ hmanages => exact .of_module (h.manages hauths hmanages)
  | moved _ _ _ _ _ _ hmanages => exact .of_module (h.manages hauths hmanages)
  | quiet | proposed | rejected | entrusted | upgraded =>
      exact ⟨rfl, rfl, rfl, rfl, rfl, rfl, rfl, rfl, rfl, rfl, fun _ _ _ => ⟨rfl, rfl, rfl⟩⟩

/-! ## Runs -/

/-- An organization is on record only once there is an admin. -/
theorem initialized_of_registered (h : Reachable here s) (hregistered : s.org org ≠ none) :
    s.admin ≠ none := by
  have hinvariant : s.admin = none → ∀ org, s.org org = none := by
    refine h.invariant (P := fun s => s.admin = none → ∀ org, s.org org = none) ?_ ?_
    · exact fun s hfresh _ => hfresh.org
    · intro i s s' hs hstep hnone
      cases i with
      | outside time uploaded =>
          obtain rfl : s' = { s with uploaded := uploaded } := hstep
          exact hs hnone
      | invoke env call =>
          cases exec_effect hstep with
          | initialized | governed => cases hnone
          | registered _ _ _ _ hadmin => exact absurd hnone hadmin.initialized
          | transferred _ org _ _ _ hregistered => exact absurd (hs hnone org) hregistered
          | _ => exact hs hnone
  intro hnone
  exact hregistered (hinvariant hnone org)

/-- An input that only the accounts authorized, or that is no call. -/
def SignedBy (accounts : Address → Prop) (i : Inputs here) : Prop :=
  match i with
  | .invoke env _ => ∀ account ∈ env.auths, accounts account
  | .outside _ _ => True

/-- **Delegation cannot escalate.**  From a moment of a run at which some accounts hold roles over an
organization and nothing else, calls that only they authorized leave the admins, owners, roles,
freeze, approved hashes and versions as they were, and every module that is of another
organization or of a kind that no role of theirs may manage. -/
theorem delegates_confined (hpath : (machine here).Path anyInput (tr₁ ++ e :: tr₂) s t)
    (hregistered : e.pre.org org ≠ none) (hdelegates : Delegates e.pre org accounts)
    (hsigned : ∀ q ∈ e :: tr₂, SignedBy accounts q.input) : Confined org accounts e.pre s := by
  have hsince := hpath.since (R := fun s s' => s.org org ≠ none → Delegates s org accounts →
    Confined org accounts s s') ?_ ?_
  · exact hsince e List.mem_cons_self hregistered hdelegates
  · intro a b c hab hbc horg ha
    have hconfined := hab horg ha
    refine hconfined.trans (hbc ?_ (ha.kept hconfined))
    rw [hconfined.owners]
    exact horg
  · intro q hq horg hq'
    have hmem := List.mem_append_right tr₁ hq
    have hstep := hpath.stepped hmem
    have hinitialized := initialized_of_registered (hpath.reachable_of_mem hmem) horg
    have hauths := hsigned q hq
    obtain ⟨pre, input, post⟩ := q
    cases input with
    | outside time uploaded =>
        obtain rfl : post = { pre with uploaded := uploaded } := hstep
        exact ⟨rfl, rfl, rfl, rfl, rfl, rfl, rfl, rfl, rfl, rfl, fun _ _ _ => ⟨rfl, rfl, rfl⟩⟩
    | invoke env call => exact exec_confined hq' hinitialized hauths hstep

/-- Account 4 manages the policies of "org", whose treasury is registered. -/
def delegating : Script Call :=
  opening ++ [(signedBy 2 [2], .grantRole (.account 2) "org" (.account 4) .policyManager),
    (signedBy 3 [2], .registerModule (.account 2) "org" .treasury (.contract 7))]

/-- Account 4 registers a policy module and removes it. -/
def managing : Script Call :=
  [(signedBy 4 [4], .registerModule (.account 4) "org" .policy (.contract 8)),
    (signedBy 5 [4], .removeModule (.account 4) "org" .policy)]

theorem delegating_delegates :
    Delegates (play deployed delegating) "org" (fun account => account = .account 4) := by
  have horg : (play deployed delegating).org
      = Function.update deployed.org "org" (some (.account 2)) := rfl
  have horgRole : (play deployed delegating).orgRole
      = writeAt (writeAt deployed.orgRole "org" (.account 3) (some .moduleUpgrader)) "org"
        (.account 4) (some .policyManager) := rfl
  refine ⟨?_, ?_, ?_, ?_⟩
  · rintro _ rfl
    simp [horgRole]
  · rintro _ rfl other hother
    rw [horgRole, writeAt_ne (by simp [hother]), writeAt_ne (by simp)]
    rfl
  · rintro _ rfl other
    rw [horg]
    by_cases hother : other = "org"
    · subst hother
      simp
    · simp [Function.update_of_ne hother, deployed]
  · rintro _ rfl
    decide

/-- The treasury stays where it is. -/
theorem delegates_confined_managing :
    (play (play deployed delegating) managing).moduleAddress "org" .treasury
      = some (.contract 7) := by
  have hplays : (deployment (.contract 0)).plays deployed 0 delegating = true := by decide
  have hplays' : (deployment (.contract 0)).plays (play deployed delegating) 3 managing = true := by
    decide
  have hlater := Deployment.path_playing (Deployment.path_trace deployed_fresh hplays) hplays'
  have hconfined := delegates_confined hlater (by decide) delegating_delegates (by
    simp [Deployment.trace, SignedBy, signedBy])
  have hout : ¬ ("org" = "org" ∧ Manageable (play deployed delegating) "org"
      (fun account => account = .account 4) .treasury) := by
    rintro ⟨_, _, role, rfl, hrole, hmanages⟩
    have hheld : (play deployed delegating).orgRole "org" (.account 4) = some .policyManager := by
      decide
    rw [hheld, Option.some.injEq] at hrole
    subst hrole
    cases hmanages
  have hbefore : (play deployed delegating).moduleAddress "org" .treasury = some (.contract 7) := by
    decide
  rw [← hbefore]
  exact (hconfined.modules "org" .treasury hout).1

end RegistryContract
end Astroid
