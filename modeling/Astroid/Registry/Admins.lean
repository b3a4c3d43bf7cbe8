import Astroid.Registry.Effects
import Astroid.Lib.Roster

/-!
# The admins

The primary admin is stored beside the list of all admins, and three entrypoints rewrite
both.  Together they are a `Roster`, which each of these calls edits as a whole
(`setAdmin_roster`, `addAdmin_roster`, `removeAdmin_roster`) and no other call touches
(`exec_offices`): whoever was rotated out or removed has no power left, unless they are the
multisig (`admins_consistent`).
-/

namespace Astroid
namespace RegistryContract

open Outcome Machine

variable {here : Address} {env : Env here} {s s' : State} {call : Call} {caller admin : Address}
  {r : Roster Address}

/-! ## The roster -/

/-- The admins on record, the primary one at their head. -/
structure State.Records (s : State) (r : Roster Address) : Prop where
  primary : s.admin = some r.head
  list : s.admins = some r.members
  few : r.members.length ≤ maxApprovers

theorem State.Records.isAdmin_iff (h : s.Records r) {who : Address} :
    s.IsAdmin who ↔ who ∈ r.members ∨ s.multisig = some who := by
  unfold IsAdmin
  rw [h.primary, h.list, Option.some.injEq, Option.getD_some]
  constructor
  · rintro (rfl | hmember | hmultisig)
    · exact .inl r.head_mem
    · exact .inl hmember
    · exact .inr hmultisig
  · rintro (hmember | hmultisig)
    · exact .inr (.inl hmember)
    · exact .inr (.inr hmultisig)

/-- The same offices are held by the same admins. -/
theorem State.Records.congr (h : s.Records r) (hsame : s'.offices = s.offices) : s'.Records r := by
  simp only [offices, Prod.mk.injEq] at hsame
  obtain ⟨hadmin, hadmins, _⟩ := hsame
  exact ⟨hadmin.trans h.primary, hadmins.trans h.list, h.few⟩

/-! ## The entrypoints -/

theorem setAdmin_roster (hr : s.Records r) (h : setAdmin env s caller admin = .ok s') :
    s'.Records (r.rotate admin) := by
  simp only [setAdmin, bind_eq_ok, pure_eq_ok] at h
  obtain ⟨_, _, rfl⟩ := h
  refine ⟨rfl, ?_, r.length_rotate_le.trans hr.few⟩
  simp [hr.primary, hr.list, Roster.rotate]

theorem loadAdmins_eq (hr : s.Records r) : s.loadAdmins = r.members := by
  simp [State.loadAdmins, hr.list]

theorem addAdmin_roster (hr : s.Records r) (h : addAdmin env s caller admin = .ok s') :
    ∃ hnew, s'.Records (r.enlist admin hnew) := by
  simp only [addAdmin, loadAdmins_eq hr, bind_eq_ok, require_eq_ok, pure_eq_ok] at h
  obtain ⟨_, _, _, hroom, _, hnew, rfl⟩ := h
  refine ⟨hnew, hr.primary, rfl, ?_⟩
  rw [Roster.length_enlist]
  exact hroom

theorem removeAdmin_roster (hr : s.Records r) (h : removeAdmin env s caller admin = .ok s') :
    ∃ hmany, s'.Records (r.dismiss admin hmany) := by
  simp only [removeAdmin, loadAdmins_eq hr, hr.primary, bind_eq_ok, require_eq_ok] at h
  obtain ⟨_, _, _, _, _, hmany, h⟩ := h
  refine ⟨hmany, ?_⟩
  have hfew : (r.dismiss admin hmany).members.length ≤ maxApprovers :=
    r.length_dismiss_le.trans hr.few
  by_cases hprimary : r.head = admin
  · rw [if_pos (congrArg some hprimary)] at h
    simp only [bind_eq_ok, pure_eq_ok, orFail_eq_ok] at h
    obtain ⟨next, hnext, rfl⟩ := h
    refine ⟨?_, rfl, hfew⟩
    have hhead : (r.others admin).head? = some ((r.others admin).head (r.others_ne_nil hmany)) :=
      List.head?_eq_some_head _
    have hkept : (r.others admin).head? = some next := hnext
    rw [hhead] at hkept
    simp only [Roster.dismiss, if_pos hprimary]
    exact hkept.symm
  · rw [if_neg fun heq => hprimary (Option.some.inj heq)] at h
    cases h
    refine ⟨?_, rfl, hfew⟩
    simp only [Roster.dismiss, if_neg hprimary]

/-! ## Runs -/

/-- The admins on record are consistent, from the moment there is one. -/
def Staffed (s : State) : Prop := s.admin ≠ none → ∃ r, s.Records r

theorem initializeContract_staffed (h : initializeContract s admin = .ok s') : Staffed s' := by
  simp only [initializeContract, bind_eq_ok, pure_eq_ok] at h
  obtain ⟨_, _, rfl⟩ := h
  intro _
  refine ⟨.single admin, rfl, rfl, ?_⟩
  show 1 ≤ maxApprovers
  decide

theorem setMultisig_records {multisig : Address} (hr : s.Records r)
    (h : setMultisig env s caller multisig = .ok s') : s'.Records r := by
  simp only [setMultisig, bind_eq_ok, pure_eq_ok] at h
  obtain ⟨_, _, rfl⟩ := h
  exact ⟨hr.primary, hr.list, hr.few⟩

theorem removeMultisig_records (hr : s.Records r) (h : removeMultisig env s caller = .ok s') :
    s'.Records r := by
  simp only [removeMultisig, bind_eq_ok, pure_eq_ok] at h
  obtain ⟨_, _, _, _, rfl⟩ := h
  exact ⟨hr.primary, hr.list, hr.few⟩

/-- Who edits the admins is one, so that there is a roster to edit. -/
theorem roster_of_requireAdmin {u : Unit} (hs : Staffed s) (h : requireAdmin env s caller = .ok u) :
    ∃ r, s.Records r := hs (requireAdmin_eq_ok.1 h).initialized

theorem exec_staffed (hs : Staffed s) (h : exec env s call = .ok s') : Staffed s' := by
  by_cases hgoverns : call.Governs
  · cases call with
    | initializeContract => exact initializeContract_staffed h
    | setAdmin =>
        obtain ⟨_, hadmin, _⟩ := bind_eq_ok.1 h
        obtain ⟨r, hr⟩ := roster_of_requireAdmin hs hadmin
        exact fun _ => ⟨_, setAdmin_roster hr h⟩
    | addAdmin =>
        obtain ⟨_, hadmin, _⟩ := bind_eq_ok.1 h
        obtain ⟨r, hr⟩ := roster_of_requireAdmin hs hadmin
        obtain ⟨_, hadded⟩ := addAdmin_roster hr h
        exact fun _ => ⟨_, hadded⟩
    | removeAdmin =>
        obtain ⟨_, hadmin, _⟩ := bind_eq_ok.1 h
        obtain ⟨r, hr⟩ := roster_of_requireAdmin hs hadmin
        obtain ⟨_, hremoved⟩ := removeAdmin_roster hr h
        exact fun _ => ⟨_, hremoved⟩
    | setMultisig =>
        obtain ⟨_, hadmin, _⟩ := bind_eq_ok.1 h
        obtain ⟨r, hr⟩ := roster_of_requireAdmin hs hadmin
        exact fun _ => ⟨r, setMultisig_records hr h⟩
    | removeMultisig =>
        obtain ⟨_, hadmin, _⟩ := bind_eq_ok.1 h
        obtain ⟨r, hr⟩ := roster_of_requireAdmin hs hadmin
        exact fun _ => ⟨r, removeMultisig_records hr h⟩
    | _ => exact hgoverns.elim
  · have hsame := (exec_offices hgoverns h).offices
    intro hinit
    have hprimary : s'.admin = s.admin := congrArg Prod.fst hsame
    have hbefore : s.admin ≠ none := hprimary ▸ hinit
    obtain ⟨r, hr⟩ := hs hbefore
    exact ⟨r, hr.congr hsame⟩

theorem staffed_reachable (h : Reachable here s) : Staffed s := by
  refine h.invariant ?_ ?_
  · intro s hfresh hinit
    exact absurd hfresh.admin hinit
  · intro i s s' hs hstep
    cases i with
    | outside time uploaded =>
        obtain rfl : s' = { s with uploaded := uploaded } := hstep
        intro hinit
        obtain ⟨r, hr⟩ := hs hinit
        exact ⟨r, hr.congr rfl⟩
    | invoke env call => exact exec_staffed hs hstep

/-- **The admins are consistent.**  From the initialization on, in whatever order the admins and
the multisig are edited: the list of the admins is not empty, names nobody twice, has its bound and
contains the primary admin; who is on it or is the multisig is an admin, and nobody else is.  Whoever
a removal or a rotation takes out of office is no admin after it, unless they are the multisig. -/
theorem admins_consistent (h : Reachable here s) (hinit : s.admin ≠ none) :
    (∃ primary admins, s.admin = some primary ∧ s.admins = some admins ∧ admins ≠ [] ∧
      admins.Nodup ∧ admins.length ≤ maxApprovers ∧ primary ∈ admins ∧
      ∀ who, s.IsAdmin who ↔ who ∈ admins ∨ s.multisig = some who) ∧
    (∀ (env : Env here) (caller admin : Address) (s' : State),
      removeAdmin env s caller admin = .ok s' →
        (s'.IsAdmin admin ↔ s'.multisig = some admin)) ∧
    ∀ (env : Env here) (caller admin old : Address) (s' : State), s.admin = some old → old ≠ admin →
      setAdmin env s caller admin = .ok s' → (s'.IsAdmin old ↔ s'.multisig = some old) := by
  obtain ⟨r, hr⟩ := staffed_reachable h hinit
  refine ⟨⟨r.head, r.members, hr.primary, hr.list, r.members_ne_nil, r.nodup, hr.few, r.head_mem,
    fun who => hr.isAdmin_iff⟩, ?_, ?_⟩
  · intro env caller admin s' hremove
    obtain ⟨_, hremoved⟩ := removeAdmin_roster hr hremove
    rw [hremoved.isAdmin_iff, Roster.mem_dismiss]
    simp
  · intro env caller admin old s' hold hother hrotate
    have hhead : r.head = old := Option.some.inj (hr.primary.symm.trans hold)
    rw [(setAdmin_roster hr hrotate).isAdmin_iff, Roster.mem_rotate, hhead]
    simp [hother]

/-- Account 4 joins the admins, account 5 takes the place of account 1, and account 4 is
removed. -/
def turnover : Script Call :=
  opening ++ [(signedBy 2 [1], .addAdmin (.account 1) (.account 4)),
    (signedBy 3 [4], .setAdmin (.account 4) (.account 5)),
    (signedBy 4 [5], .removeAdmin (.account 5) (.account 4))]

theorem admins_consistent_turnover :
    (play deployed turnover).admins = some [.account 5] ∧
      ((play deployed turnover).IsAdmin (.account 5) ∧
        ¬ (play deployed turnover).IsAdmin (.account 1)) := by
  have hreach : Reachable (.contract 0) (play deployed turnover) :=
    Deployment.reachable_play deployed_fresh (by decide)
  obtain ⟨⟨primary, admins, _, hadmins, _, _, _, _, hpower⟩, _, _⟩ :=
    admins_consistent hreach (by decide)
  have hlist : (play deployed turnover).admins = some [.account 5] := by decide
  have hsame : admins = [.account 5] := Option.some.inj (hadmins.symm.trans hlist)
  have hnone : (play deployed turnover).multisig = none := by decide
  refine ⟨hlist, (hpower _).2 (.inl ?_), ?_⟩
  · rw [hsame]
    exact List.mem_singleton_self _
  · rw [hpower, hsame, hnone]
    simp

end RegistryContract
end Astroid
