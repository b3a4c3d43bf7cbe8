import Astroid.Lib.Pool
import Astroid.Proposal.Deposits
import Astroid.Shared.Debits

/-!
# Whose tokens a proposal call moves

A deposit is pulled from a proposer who authorized the call, and returns leave custody
(`exec_moves`, `exec_spares`).  What live proposals hold is always in custody, whatever happens to the
deposits of failed ones (`Reachable.pool`).
-/

namespace Astroid
namespace ProposalContract

open Outcome Pledges

variable {World : Type} {H : ProposalHost World} {env : Env H.self} {s s' : State World}
  {id : ℕ} {R : World → World → Prop}

theorem Settled.moves (hR : H.TransferClosed env.Pays R) (h : Settled H s s') :
    R s.world s'.world := by
  obtain ⟨l, _, hcarried⟩ := h
  refine hR.carry hcarried ?_
  intro x hx
  simp only [List.mem_flatMap, Holding.returned, Holding.taken, List.mem_map] at hx
  obtain ⟨_, _, _, ⟨_, _, rfl⟩, rfl⟩ := hx
  exact .inl rfl

/-- **All a call does to the world is to transfer tokens out of custody and from whoever
authorized it.** -/
theorem exec_moves (hR : H.TransferClosed env.Pays R) {call : Call}
    (h : exec H env s call = .ok s') : R s.world s'.world := by
  cases exec_effect h with
  | settled _ hsettled => exact hsettled.moves hR
  | failed caller id p _ _ _ _ hs' =>
      subst hs'
      exact hR.refl _
  | opened id holding hcall _ =>
      cases call with
      | create =>
          obtain ⟨_, h⟩ := snd_map_ok h
          obtain ⟨p, w, hauth, _, _, hcarried, rfl⟩ := create_ok h
          refine hR.carry hcarried ?_
          intro x hx
          simp only [Holding.taken, List.mem_map] at hx
          obtain ⟨_, _, rfl⟩ := hx
          exact .inr hauth
      | _ => cases hcall

/-- So of everybody else, no balance falls. -/
theorem exec_spares (hx : H.Standard) {call : Call} (h : exec H env s call = .ok s') :
    H.Spares env.Pays s.world s'.world :=
  exec_moves hx.closed h

/-! ## Solvency -/

/-- The record of a live proposal names a proposer other than the contract and no negative
deposit, and its number fits the counter. -/
def Sane (H : ProposalHost World) (s : State World) : Prop :=
  ∀ id holding, s.held id = some holding →
    holding.proposer ≠ H.self ∧ id < 2 ^ 64 ∧ ∀ asset, 0 ≤ holding.worth asset

/-- What was taken is not negative. -/
theorem worth_nonneg_of_taken (hx : H.Standard) {holding : Holding} {w w' : World}
    (h : H.carry w (holding.taken H.self) = .ok w') (asset : Address) :
    0 ≤ holding.worth asset := by
  obtain ⟨proposer, deposit⟩ := holding
  cases deposit with
  | none => exact le_rfl
  | some dep =>
      simp only [Holding.taken, Option.toList_some, List.map_cons, List.map_nil, TokenHost.carry,
        bind_eq_ok] at h
      obtain ⟨_, htransfer, _⟩ := h
      have hamount := hx.nonneg _ _ _ _ _ _ htransfer
      unfold Holding.worth
      dsimp only
      split
      · exact hamount
      · exact le_rfl

theorem Sane.of_book (h : Sane H s)
    (hbook : ∀ id, s'.held id = s.held id ∨ s'.held id = none) : Sane H s' := by
  intro id holding hheld
  rcases hbook id with hsame | hnone
  · exact h id holding (hsame ▸ hheld)
  · rw [hnone] at hheld
    cases hheld

theorem held_fail {p : Proposal} : (s.store id { p with state := .failed }).held
    = Function.update s.held id none := by
  rw [held_store]
  rfl

theorem Effect.sane (hx : H.Standard) {call : Call} (h : Effect H env s call s')
    (hs : Sane H s) : Sane H s' := by
  cases h with
  | settled _ hsettled =>
      obtain ⟨l, hbook, _⟩ := hsettled
      refine hs.of_book ?_
      intro id
      by_cases hid : id ∈ l
      · exact .inr (hbook.gone id hid)
      · exact .inl (hbook.rest id hid)
  | failed caller id p _ _ _ _ hs' =>
      subst hs'
      refine hs.of_book ?_
      intro id'
      rw [held_fail]
      by_cases hid : id' = id
      · subst hid
        exact .inr (Function.update_self ..)
      · exact .inl (Function.update_of_ne hid _ _)
  | opened id holding _ hopens =>
      intro id' holding' hheld
      rw [hopens.book] at hheld
      by_cases hid : id' = id
      · subst hid
        rw [Function.update_self, Option.some.injEq] at hheld
        subst hheld
        obtain ⟨count, _, hnumber⟩ := hopens.number
        exact ⟨hopens.party, by omega, worth_nonneg_of_taken hx hopens.carried⟩
      · rw [Function.update_of_ne hid] at hheld
        exact hs id' holding' hheld

/-- Writing one key of the book shifts the deposits by at most the new holding. -/
theorem deposits_update_le (hs : Sane H s) (hid : id < 2 ^ 64) {o : Option Holding}
    (hbook : s'.held = Function.update s.held id o) (asset : Address) :
    s'.deposits asset ≤ s.deposits asset + (o.map (Holding.worth asset)).getD 0 := by
  have hold : 0 ≤ ((s.held id).map (Holding.worth asset)).getD 0 := by
    cases hheld : s.held id with
    | none => exact le_rfl
    | some holding => exact (hs id holding hheld).2.2 asset
  unfold State.deposits
  rw [hbook, worth_update (Finset.mem_range.2 hid)]
  linarith

/-- Every call keeps what live proposals hold in custody. -/
theorem Effect.backed (hx : H.Standard) {call : Call} (h : Effect H env s call s')
    (hs : Sane H s) (hbacked : ∀ asset, s.deposits asset ≤ H.custody s.world asset)
    (asset : Address) : s'.deposits asset ≤ H.custody s'.world asset := by
  have hbefore := hbacked asset
  cases h with
  | settled _ hsettled =>
      obtain ⟨l, hsettles⟩ := hsettled
      have hmoved := hsettles.deposits hx.exact
        (fun id holding hheld => ⟨(hs id holding hheld).1, (hs id holding hheld).2.1⟩) asset
      linarith
  | failed caller id p _ hp happroved _ hs' =>
      subst hs'
      have hheld : s.held id = some p.holding := held_of_live hp (by rw [happroved]; rfl)
      have hle := deposits_update_le hs (hs id _ hheld).2.1 (held_fail (p := p)) asset
      rw [Option.map_none, Option.getD_none, add_zero] at hle
      exact hle.trans hbefore
  | opened id holding _ hopens =>
      obtain ⟨count, _, hnumber⟩ := hopens.number
      have hle := deposits_update_le hs (by omega) hopens.book asset
      have hcustody := hx.exact.held_carry hopens.carried asset H.self
      rw [gain_taken hopens.party] at hcustody
      rw [Option.map_some, Option.getD_some] at hle
      unfold TokenHost.custody at hbefore ⊢
      linarith

/-- What proposal `id` is owed of an asset: its deposit, while it is live. -/
def State.owedTo (s : State World) (id : ℕ) (asset : Address) : ℤ :=
  ((s.held id).map (Holding.worth asset)).getD 0

theorem Fresh.deposits (h : Fresh H s) (asset : Address) : s.deposits asset = 0 := by
  unfold State.deposits Pledges.worth
  refine Finset.sum_eq_zero ?_
  intro id _
  rw [held_of_init h id]
  rfl

/-- **Custody covers the deposits of live proposals**, in every reachable state. -/
theorem Reachable.pool (hx : H.Standard) (h : Reachable H s) :
    Pool.Solvent s.owedTo (H.custody s.world) := by
  have hboth : Sane H s ∧ ∀ asset, s.deposits asset ≤ H.custody s.world asset := by
    refine Machine.Reachable.invariant (M := machine H)
      (P := fun s => Sane H s ∧ ∀ asset, s.deposits asset ≤ H.custody s.world asset) ?_ ?_ h
    · intro s hinit
      have hfresh : Fresh H s := hinit
      refine ⟨?_, ?_⟩
      · intro id holding hheld
        rw [held_of_init hinit id] at hheld
        cases hheld
      · intro asset
        rw [hfresh.deposits]
        exact hfresh.custody asset
    · rintro i s s' ⟨hs, hbacked⟩ hstep
      cases i with
      | invoke env call =>
          have heffect := exec_effect hstep
          exact ⟨heffect.sane hx hs, heffect.backed hx hs hbacked⟩
      | outside time w =>
          obtain ⟨hcustody, rfl⟩ := hstep
          exact ⟨hs, fun asset => (hbacked asset).trans (hcustody asset)⟩
  obtain ⟨hs, hbacked⟩ := hboth
  refine .of_carrier (C := Finset.range (2 ^ 64)) ?_ ?_ hbacked
  · intro id asset
    unfold State.owedTo
    cases hheld : s.held id with
    | none => exact le_rfl
    | some holding => exact (hs id holding hheld).2.2 asset
  · intro id hid asset
    unfold State.owedTo
    cases hheld : s.held id with
    | none => rfl
    | some holding => exact absurd (Finset.mem_range.2 (hs id holding hheld).2.1) hid

end ProposalContract
end Astroid
