import Astroid.Proposal.Effects

/-!
# Deposits are returned once

The holdings of the live proposals are a book of pledges: `create` makes one, every ending
releases some.  In a run that fails no funded proposal and reuses no number that is live,
the transfers of each call are the deposit it took or the returns of exactly the deposits
it released, and so the balance from deposits is what the live proposals hold
(`deposits_returned_once`).  `fail` ends a proposal and keeps its deposit, which nothing
returns afterwards (`not_deposits_returned_once`).
-/

namespace Astroid
namespace ProposalContract

open Outcome Machine Pledges

variable {World : Type} {H : ProposalHost World} {env : Env H.self} {s s' : State World}
  {tr : List (Entry (State World) (Inputs H))} {e : Entry (State World) (Inputs H)} {t id : ℕ}

/-! ## What a run did to the deposits -/

/-- The proposal an entry of a run opened, with the deposit it took. -/
def opens (e : Entry (State World) (Inputs H)) : Option (ℕ × Holding) :=
  match e.input with
  | .invoke _ call =>
      call.opening.bind fun holding => e.post.proposalCount.map fun id => (id, holding)
  | .outside _ _ => none

/-- The deposits an entry of a run took in, as transfers. -/
def taken (e : Entry (State World) (Inputs H)) : List Transfer :=
  match opens e with
  | some (_, holding) => holding.taken H.self
  | none => []

/-- The entry ended proposal `id`, which was live. -/
abbrev ends (id : ℕ) : Entry (State World) (Inputs H) → Bool := releasedUnder State.held id

/-- The entry opened proposal `id`. -/
abbrev opensUnder (id : ℕ) : Entry (State World) (Inputs H) → Bool := madeUnder opens id

/-- No funded proposal is failed, and no number is given out that is live. -/
def keepsDeposits : Inputs H → State World → Prop
  | .invoke env (.fail _ id), s => ∀ p, s.proposal id = some p → p.state = .approved →
      ¬ p.IsExpired env → p.deposit = []
  | .invoke _ (.create ..), s => ∀ count, s.proposalCount = some count →
      s.held ((count + 1) % 2 ^ 64) = none
  | _, _ => True

/-- What a step of such a run did: it opened one proposal under a free number, or ended some
and returned their deposits. -/
theorem turn_of_step {call : Call} (hkeeps : keepsDeposits (.invoke env call) s)
    (h : exec H env s call = .ok s') :
    (opens (H := H) ⟨s, .invoke env call, s'⟩ = none ∧ Settled H s s') ∨
    ∃ id holding, opens (H := H) ⟨s, .invoke env call, s'⟩ = some (id, holding) ∧
      Opens H id holding s s' ∧ s.held id = none := by
  cases exec_effect h with
  | settled hcall hsettled =>
      refine .inl ⟨?_, hsettled⟩
      simp [opens, hcall]
  | opened id holding hcall hopens =>
      refine .inr ⟨id, holding, ?_, hopens, ?_⟩
      · simp [opens, hcall, hopens.counted]
      · obtain ⟨count, hcount, rfl⟩ := hopens.number
        cases call with
        | create => exact hkeeps count hcount
        | _ => cases hcall
  | failed caller id p hcall hp happroved hunexpired hs' =>
      subst hcall hs'
      have hnone : p.deposit = [] := hkeeps p hp happroved hunexpired
      have hreturn : returnDeposit H s { p with state := .failed } = .ok s := by
        simp [returnDeposit, hnone]
      have hends : Ends H s id { p with state := .failed } _ := ends_of_returnDeposit rfl hreturn
      exact .inl ⟨rfl, hends.settled hp (by rw [happroved]; rfl) rfl rfl⟩

theorem turns_of_step {i : Inputs H} (hkeeps : keepsDeposits i s)
    (hstep : (machine H).step i s s') : Turns State.held opens ⟨s, i, s'⟩ := by
  cases i with
  | outside time w =>
      obtain ⟨_, rfl⟩ := hstep
      exact .released [] rfl .refl
  | invoke env call =>
      rcases turn_of_step hkeeps hstep with ⟨hnone, l, hsettles⟩ | ⟨id, holding, hsome, hopens, hfree⟩
      · exact .released l hnone hsettles.book
      · exact .pledged id holding hsome ⟨hfree, hopens.book⟩

theorem held_of_init (hinit : (machine H).init s) (id : ℕ) : s.held id = none := by
  have hfresh : Fresh H s := hinit
  simp [State.held, hfresh.proposal id]

/-! ## The balance -/

/-- What a holding holds of an asset. -/
def Holding.worth (asset : Address) (holding : Holding) : ℤ :=
  match holding.deposit with
  | some dep => if asset = dep.asset then dep.amount else 0
  | none => 0

/-- The sum of the deposits of the live proposals. -/
def State.deposits (s : State World) (asset : Address) : ℤ :=
  Pledges.worth (Holding.worth asset) (Finset.range (2 ^ 64)) s.held

/-- What an entry of a run moved into the contract: outside an invocation, nothing counts. -/
def movedIn (asset : Address) (e : Entry (State World) (Inputs H)) : ℤ :=
  match e.input with
  | .invoke _ _ => H.custody e.post.world asset - H.custody e.pre.world asset
  | .outside _ _ => 0

/-- The contract's balance from deposits: what its calls took in, less what they paid out. -/
def fromDeposits (tr : List (Entry (State World) (Inputs H))) (asset : Address) : ℤ :=
  (tr.map (movedIn asset)).sum

theorem gain_taken {holding : Holding} {asset : Address} (hparty : holding.proposer ≠ H.self) :
    ((holding.taken H.self).map (·.gain asset H.self)).sum = holding.worth asset := by
  obtain ⟨proposer, deposit⟩ := holding
  cases deposit with
  | none => rfl
  | some dep =>
      simp [Holding.taken, Holding.worth, Transfer.gain, Ne.symm hparty]

theorem gain_returned {holding : Holding} {asset : Address} (hparty : holding.proposer ≠ H.self) :
    ((holding.returned H.self).map (·.gain asset H.self)).sum = - holding.worth asset := by
  obtain ⟨proposer, deposit⟩ := holding
  cases deposit with
  | none => rfl
  | some dep =>
      simp [Holding.returned, Holding.taken, Holding.worth, Transfer.gain, Transfer.back,
        Ne.symm hparty]

/-- What returning some holdings moves. -/
theorem gain_returns {holdings : List Holding} {asset : Address}
    (hparty : ∀ holding ∈ holdings, holding.proposer ≠ H.self) :
    ((holdings.flatMap (·.returned H.self)).map (·.gain asset H.self)).sum
      = - (holdings.map (Holding.worth asset)).sum := by
  induction holdings with
  | nil => rfl
  | cons holding rest ih =>
      rw [List.forall_mem_cons] at hparty
      rw [List.flatMap_cons, List.map_append, List.sum_append, gain_returned hparty.1, ih hparty.2,
        List.map_cons, List.sum_cons]
      ring

/-- A deposit that was taken is in custody. -/
theorem Opens.deposits {holding : Holding} (hx : H.Exact) (h : Opens H id holding s s')
    (hfree : s.held id = none) (asset : Address) :
    s'.deposits asset = s.deposits asset
      + (H.custody s'.world asset - H.custody s.world asset) := by
  obtain ⟨count, _, hid⟩ := h.number
  have hrange : id ∈ Finset.range (2 ^ 64) := by
    rw [Finset.mem_range]
    omega
  have hpledged : Pledged id holding s.held s'.held := ⟨hfree, h.book⟩
  have hcustody := hx.held_carry h.carried asset H.self
  rw [gain_taken h.party] at hcustody
  unfold State.deposits TokenHost.custody
  rw [hpledged.worth_eq hrange, hcustody]
  ring

/-- Deposits that were returned have left custody. -/
theorem Settles.deposits {l : List ℕ} (hx : H.Exact) (h : Settles H l s s')
    (hheld : ∀ id holding, s.held id = some holding →
      holding.proposer ≠ H.self ∧ id < 2 ^ 64) (asset : Address) :
    s'.deposits asset = s.deposits asset
      + (H.custody s'.world asset - H.custody s.world asset) := by
  have hparty : ∀ holding ∈ l.filterMap s.held, holding.proposer ≠ H.self := by
    intro holding hmem
    obtain ⟨id, _, hid⟩ := List.mem_filterMap.1 hmem
    exact (hheld id holding hid).1
  have hrange : ∀ id ∈ l, id ∈ Finset.range (2 ^ 64) := by
    intro id hid
    obtain ⟨holding, hholding⟩ := Option.ne_none_iff_exists'.1 (h.book.held id hid)
    exact Finset.mem_range.2 (hheld id holding hholding).2
  have hcustody := hx.held_carry h.carried asset H.self
  rw [gain_returns hparty] at hcustody
  unfold State.deposits TokenHost.custody
  rw [h.book.worth_eq hrange, hcustody]
  ring

/-- What is held was opened in the run. -/
theorem opened_of_held (hpath : (machine H).Path keepsDeposits tr s t) {holding : Holding}
    (hheld : s.held id = some holding) : ∃ q ∈ tr, opens q = some (id, holding) :=
  made_of_held hpath (fun _ id hinit => held_of_init hinit id) (fun _ _ _ => turns_of_step) hheld

theorem party_of_held (hpath : (machine H).Path keepsDeposits tr s t) {holding : Holding}
    (hheld : s.held id = some holding) : holding.proposer ≠ H.self ∧ id < 2 ^ 64 := by
  obtain ⟨q, hq, hopens⟩ := opened_of_held hpath hheld
  obtain ⟨_, _, _, _, _, hkeeps, hstep, _⟩ := hpath.entry hq
  obtain ⟨pre, input, post⟩ := q
  cases input with
  | outside time w => cases hopens
  | invoke env call =>
      rcases turn_of_step hkeeps hstep with ⟨hnone, _⟩ | ⟨id', holding', hsome, hopened, _⟩
      · rw [hnone] at hopens
        cases hopens
      · rw [hsome] at hopens
        cases hopens
        obtain ⟨count, _, hid⟩ := hopened.number
        exact ⟨hopened.party, by omega⟩

/-- **The balance from deposits is what the live proposals hold.** -/
theorem fromDeposits_eq (hx : H.Exact) (hpath : (machine H).Path keepsDeposits tr s t)
    (asset : Address) : fromDeposits tr asset = s.deposits asset := by
  refine (hpath.account (f := fun s => s.deposits asset) (g := movedIn asset) ?_ ?_).symm
  · intro s hinit
    unfold State.deposits Pledges.worth
    refine Finset.sum_eq_zero ?_
    intro id _
    rw [held_of_init hinit id]
    rfl
  · intro tr s t i s' hpath hkeeps hstep
    cases i with
    | outside time w =>
        obtain ⟨_, rfl⟩ := hstep
        exact (add_zero _).symm
    | invoke env call =>
        rcases turn_of_step hkeeps hstep with ⟨_, l, hsettles⟩ | ⟨id, holding, _, hopens, hfree⟩
        · exact hsettles.deposits hx (fun _ _ => party_of_held hpath) asset
        · exact hopens.deposits hx hfree asset

/-! ## The law -/

/-- **Deposits are returned once.**  In every run that fails no funded proposal and gives
out no number that is live, each number was opened as often as a proposal under it ended,
and once more if one is live.  The transfers of every call are the deposit it took, or the
returns of what the proposals it ended hold, each of them once and as it was taken in when
the proposal was opened.  So the balance from deposits is, of every asset, the sum of the
deposits of the live proposals. -/
theorem deposits_returned_once (hx : H.Exact) (hpath : (machine H).Path keepsDeposits tr s t) :
    (∀ id, tr.countP (ends id) + (s.held id).isSome.toNat = tr.countP (opensUnder id)) ∧
    (∀ tr₁ e env call, tr₁ ++ [e] <+: tr → e.input = .invoke env call →
      ∃ l : List ℕ, l.Nodup ∧ (∀ id, id ∈ l ↔ ends id e = true) ∧
        H.carry e.pre.world (taken e ++ (l.filterMap e.pre.held).flatMap (·.returned H.self))
          = .ok e.post.world ∧
        ∀ id ∈ l, ∃ q ∈ tr₁, ∃ holding, opens q = some (id, holding) ∧
          e.pre.held id = some holding) ∧
    ∀ asset, fromDeposits tr asset = s.deposits asset := by
  refine ⟨?_, ?_, fromDeposits_eq hx hpath⟩
  · exact count_eq hpath (fun _ id hinit => held_of_init hinit id) (fun _ _ _ => turns_of_step)
  · intro tr₁ e env call hpart hinput
    obtain ⟨t', hpath₁, _, hkeeps, hstep⟩ := hpath.before hpart
    obtain ⟨pre, input, post⟩ := e
    dsimp only at hinput hkeeps hstep hpath₁
    subst hinput
    rcases turn_of_step hkeeps hstep with ⟨hnone, l, hsettles⟩ | ⟨id, holding, hsome, hopens, hfree⟩
    · refine ⟨l, hsettles.book.nodup, ?_, ?_, ?_⟩
      · intro id
        rw [hsettles.book.mem_iff, releasedUnder_iff]
      · rw [taken, hnone, List.nil_append]
        exact hsettles.carried
      · intro id hid
        obtain ⟨holding, hheld⟩ := Option.ne_none_iff_exists'.1 (hsettles.book.held id hid)
        obtain ⟨q, hq, hopened⟩ := opened_of_held hpath₁ hheld
        exact ⟨q, hq, holding, hopened, hheld⟩
    · refine ⟨[], List.nodup_nil, ?_, ?_, by simp⟩
      · intro id'
        rw [releasedUnder_iff, hopens.book]
        by_cases hid : id' = id
        · subst hid
          simp
        · simp [hid]
      · rw [taken, hsome, List.filterMap_nil, List.flatMap_nil, List.append_nil]
        exact hopens.carried

/-- The opening, two approvals and the execution. -/
def execution : Script Call :=
  opening ++ [(signedBy 3 [1], .approve (.account 1) 1), (signedBy 3 [2], .approve (.account 2) 1),
    (signedBy 4 [1], .execute (.account 1) 1)]

/-- The one deposit of the execution is returned. -/
theorem deposits_returned_once_execution :
    let tr := (deployment referenceHost).trace deployed execution
    tr.countP (ends 1) + ((play deployed execution).held 1).isSome.toNat
      = tr.countP (opensUnder 1) := by
  have hstart : (machine referenceHost).Path keepsDeposits [] deployed 0 := .start deployed_fresh
  have hplays : (deployment referenceHost).plays deployed 0 execution = true := by decide
  have hallow : (deployment referenceHost).AllAllowed keepsDeposits deployed execution := by
    refine ⟨trivial, ?_, trivial, trivial, trivial, trivial⟩
    intro count _
    rfl
  have hpath := Deployment.path_play hstart hplays hallow
  rw [List.nil_append] at hpath
  exact (deposits_returned_once referenceHost_exact hpath).1 1

/-! ## The deposit of a failed proposal -/

/-- **What `fail` keeps.**  After a run that kept the law, failing an approved proposal leaves
its deposit with the contract and with no proposal. -/
theorem fromDeposits_fail (hx : H.Exact) (hpath : (machine H).Path keepsDeposits tr s t)
    {caller : Address} {p : Proposal} (hp : s.proposal id = some p)
    (happroved : p.state = .approved) (hunexpired : ¬ p.IsExpired env)
    (h : fail H env s caller id = .ok s') (asset : Address) :
    fromDeposits (tr ++ [⟨s, .invoke env (.fail caller id), s'⟩]) asset
      = s'.deposits asset + p.holding.worth asset := by
  have hlive : p.state.isLive = true := by
    rw [happroved]
    rfl
  have hheld := held_of_live hp hlive
  have hrange : id ∈ Finset.range (2 ^ 64) := Finset.mem_range.2 (party_of_held hpath hheld).2
  obtain ⟨q, hq, hends⟩ := fail_ok h
  rw [hp, Option.some.injEq] at hq
  subst hq
  rcases hends with hexpires | ⟨_, _, rfl⟩
  · rcases hexpires.due with hexpired | hexpired
    · rw [happroved] at hexpired
      cases hexpired
    · exact absurd hexpired hunexpired
  · have hmoved : movedIn asset ⟨s, .invoke env (.fail caller id),
        s.store id { p with state := .failed }⟩ = 0 := sub_self _
    have hdeposits : (s.store id { p with state := .failed }).deposits asset
        = s.deposits asset - p.holding.worth asset := by
      unfold State.deposits
      rw [held_store, worth_update hrange, hheld]
      simp [ProposalState.isLive]
    rw [fromDeposits, List.map_append, List.sum_append, List.map_singleton, List.sum_singleton,
      hmoved, hdeposits, ← fromDeposits_eq hx hpath, fromDeposits]
    ring

/-- The opening and two approvals. -/
def approval : Script Call :=
  opening ++ [(signedBy 3 [1], .approve (.account 1) 1), (signedBy 3 [2], .approve (.account 2) 1)]

def failure : Script Call := [(signedBy 4 [1], .fail (.account 1) 1)]

/-- **A failed proposal keeps its deposit.**  Account 1 fails the approved proposal it put a
deposit of 100 in. -/
theorem not_deposits_returned_once :
    ¬ ∀ tr s t, (machine referenceHost).Path anyInput tr s t →
      ∀ asset, fromDeposits tr asset = s.deposits asset := by
  intro h
  have hstart : (machine referenceHost).Path keepsDeposits [] deployed 0 := .start deployed_fresh
  have hplays : (deployment referenceHost).plays deployed 0 approval = true := by decide
  have hallow : (deployment referenceHost).AllAllowed keepsDeposits deployed approval := by
    refine ⟨trivial, ?_, trivial, trivial, trivial⟩
    intro count _
    rfl
  have hpath := Deployment.path_play hstart hplays hallow
  rw [List.nil_append] at hpath
  have hrecord : ((play deployed approval).proposal 1).map (fun p =>
      (p.state, decide (p.IsExpired (signedBy 4 [1])), p.holding.worth (.contract 7)))
      = some (.approved, false, 100) := by decide
  obtain ⟨p, hp, hp'⟩ := Option.map_eq_some_iff.1 hrecord
  simp only [Prod.mk.injEq, decide_eq_false_iff_not] at hp'
  obtain ⟨happroved, hunexpired, hworth⟩ := hp'
  have hfails : (deployment referenceHost).plays (play deployed approval) 3 failure = true := by
    decide
  have hpath' : (machine referenceHost).Path anyInput
      ((deployment referenceHost).trace deployed approval ++ [_]) _ _ :=
    Deployment.path_playing hpath.any hfails
  obtain ⟨_, _, _, _, hstep, _⟩ := hpath'.last
  have hkept := fromDeposits_fail referenceHost_exact hpath hp happroved hunexpired hstep
    (.contract 7)
  rw [hworth] at hkept
  have hstranded : ∀ x : ℤ, x ≠ x + 100 := fun x => by omega
  exact hstranded _ ((h _ _ _ hpath' (.contract 7)).symm.trans hkept)

end ProposalContract
end Astroid
