import Astroid.Budget.TotalSpend

/-!
# A budget behind a gate

A contract that consumes an envelope of the budget contract before it moves a token leaves
its mark there, unlike one that asks a policy.  What the calls of a stretch consume of the
envelope adds up (`Draws`), whoever made them; so everything that was drawn on an envelope
stays within its limits, as long as nobody reconfigures it or releases into it
(`draws_bounded`).
-/

namespace Astroid
namespace BudgetContract

open Outcome Machine Tally

variable {budget : Address} {id : String} {s s' s'' : State} {b : Budget} {t t' w : ℕ}
  {amount amount' net net' : ℤ}

/-! ## Drawing on an envelope -/

/-- The call neither reconfigures the envelope nor gives anything back to it. -/
def Call.Leaves (id : String) (call : Call) : Prop := ¬ call.Reconfigures id ∧ 0 ≤ call.net id

/-- Some such calls at one time, one after the other, and what they consume of the envelope
together. -/
inductive Operates (budget : Address) (id : String) (t : ℕ) : ℤ → State → State → Prop
  | idle {s : State} : Operates budget id t 0 s s
  | called {s s' s'' : State} {net : ℤ} (env : Env budget) (call : Call) :
      env.timestamp.toNat = t → call.Leaves id → exec env s call = .ok s' →
      Operates budget id t net s' s'' → Operates budget id t (call.net id + net) s s''

/-- Such calls, which consume at least `amount`. -/
def Draws (budget : Address) (id : String) (t : ℕ) (amount : ℤ) (s s' : State) : Prop :=
  ∃ net, amount ≤ net ∧ Operates budget id t net s s'

/-- One consumption of the envelope `id'`. -/
def Consumes (budget : Address) (id' : String) (t : ℕ) (amount : ℤ) (s s' : State) : Prop :=
  ∃ (env : Env budget) (caller : Address) (a : I128), env.timestamp.toNat = t ∧ a.1 = amount ∧
    exec env s (.consume caller id' a) = .ok s'

theorem Operates.trans (h : Operates budget id t net s s') (h' : Operates budget id t net' s' s'') :
    Operates budget id t (net + net') s s'' := by
  induction h with
  | idle =>
      rw [zero_add]
      exact h'
  | called env call htime hleaves hexec _ ih =>
      rw [add_assoc]
      exact .called env call htime hleaves hexec (ih h')

namespace Draws

theorem refl : Draws budget id t 0 s s := ⟨0, le_rfl, .idle⟩

theorem trans (h : Draws budget id t amount s s') (h' : Draws budget id t amount' s' s'') :
    Draws budget id t (amount + amount') s s'' := by
  obtain ⟨net, hle, hoperates⟩ := h
  obtain ⟨net', hle', hoperates'⟩ := h'
  exact ⟨net + net', add_le_add hle hle', hoperates.trans hoperates'⟩

theorem mono (h : Draws budget id t amount s s') (hle : amount' ≤ amount) :
    Draws budget id t amount' s s' := by
  obtain ⟨net, hnet, hoperates⟩ := h
  exact ⟨net, hle.trans hnet, hoperates⟩

end Draws

theorem Consumes.pos {id' : String} (h : Consumes budget id' t amount s s') : 0 < amount := by
  obtain ⟨env, caller, a, _, rfl, hexec⟩ := h
  obtain ⟨_, hconsume⟩ := snd_map_ok hexec
  simp only [ofSpend_eq_ok, consume, bind_eq_ok, intoSpend_eq_ok, requirePositiveAmount_eq_ok]
    at hconsume
  obtain ⟨_, hpos, _⟩ := hconsume
  exact hpos

/-- A consumption draws on the envelope it names. -/
theorem Consumes.draws {id' : String} (h : Consumes budget id' t amount s s') :
    Draws budget id t (if id' = id then amount else 0) s s' := by
  have hpos := h.pos
  obtain ⟨env, caller, a, htime, rfl, hexec⟩ := h
  have hnet : Call.net id (.consume caller id' a) = if id' = id then a.1 else 0 := rfl
  have hleaves : Call.Leaves id (.consume caller id' a) := by
    refine ⟨not_false, ?_⟩
    rw [hnet]
    split
    · exact hpos.le
    · exact le_rfl
  refine ⟨_, ?_, .called env _ htime hleaves hexec .idle⟩
  rw [hnet, add_zero]

/-! ## What is left of it -/

theorem Bounded.later {tr : List (Entry State (Inputs budget))} (h : Bounded id b w tr s t)
    (ht : t ≤ t') : Bounded id b w tr s t' := by
  obtain ⟨c, j, hc, hwithin, hstart, hclock, hsum⟩ := h.record
  exact ⟨fun e he => (h.past e he).trans ht,
    ⟨c, j, hc, hwithin, hstart, hclock.imp_right ht.trans', hsum⟩, h.windows⟩

/-- The contract can be in the state `s` by then, and consumed at least `drawn d` of the envelope before
each deadline `d`, from where the record was `b` on. -/
def Stands (budget : Address) (id : String) (b : Budget) (w : ℕ) (drawn : ℕ → ℤ) (s : State)
    (t : ℕ) : Prop :=
  (machine budget).ReachableBy t s ∧ ∃ tr : List (Entry State (Inputs budget)),
    Bounded id b w tr s t ∧ ∀ d, drawn d ≤ consumedBefore id d tr

variable {drawn drawn' : ℕ → ℤ}

theorem Stands.mono (h : Stands budget id b w drawn s t) (hle : ∀ d, drawn' d ≤ drawn d) :
    Stands budget id b w drawn' s t := by
  obtain ⟨hreach, tr, hbounded, hdrawn⟩ := h
  exact ⟨hreach, tr, hbounded, fun d => (hle d).trans (hdrawn d)⟩

/-- At the record itself, nothing has been drawn. -/
theorem stands_fresh (hreach : (machine budget).ReachableBy t s) (hb : s.budget id = some b)
    (hw : b.window = some w) (hnone : b.allowDeficit = false)
    (hspent : b.spent ≤ b.limit + b.rolloverCredit) :
    Stands budget id b w (fun _ => 0) s t := by
  have hlimit := (sound_reachable hreach.reachable hb).wellFormed.limit.1
  refine ⟨hreach, [], ⟨by simp, ⟨b, 0, hb, ⟨rfl, hw, hnone, hspent⟩, by simp, .inl rfl, ?_⟩, ?_⟩, ?_⟩
  · simp [Budget.capacity, consumed]
  · intro k
    have hlimits : 0 ≤ (k : ℤ) * b.limit := mul_nonneg (by omega) hlimit
    simp only [consumedBefore, tally_nil]
    linarith
  · intro d
    exact le_rfl

/-- One call. -/
theorem Stands.call (h : Stands budget id b w drawn s t) (hb : b.Sound) {env : Env budget}
    {call : Call} (ht : t ≤ env.timestamp.toNat) (hleaves : call.Leaves id)
    (hexec : exec env s call = .ok s') :
    Stands budget id b w (fun d => drawn d + if env.timestamp.toNat < d then call.net id else 0) s'
      env.timestamp.toNat := by
  obtain ⟨hreach, tr, hbounded, hdrawn⟩ := h
  have hstep : (machine budget).step (Input.invoke env call) s s' := hexec
  have hreach' : (machine budget).ReachableBy env.timestamp.toNat s' :=
    ReachableBy.step (i := Input.invoke env call) hreach ht hstep
  refine ⟨hreach', tr ++ [⟨s, .invoke env call, s'⟩], ?_, ?_⟩
  · exact hbounded.step hb hreach.reachable ht hleaves.1 hstep
  · intro d
    rw [consumedBefore, tally_append, tally_cons, tally_nil, add_zero]
    exact add_le_add (hdrawn d) le_rfl

/-- Any number of them. -/
theorem Stands.operates (hoperates : Operates budget id t' net s s')
    (h : Stands budget id b w drawn s t) (hb : b.Sound) (ht : t ≤ t') :
    Stands budget id b w (fun d => drawn d + if t' < d then net else 0) s' t' := by
  induction hoperates generalizing drawn t with
  | idle =>
      obtain ⟨hreach, tr, hbounded, hdrawn⟩ := h
      refine ⟨hreach.later ht, tr, hbounded.later ht, ?_⟩
      intro d
      simpa using hdrawn d
  | called env call htime hleaves hexec _ ih =>
      subst htime
      refine (ih (h.call hb ht hleaves hexec) le_rfl).mono ?_
      intro d
      split <;> linarith

/-- **Whatever was drawn is within the limits.**  Let everything a run of some system does to
the budget contract neither reconfigure the envelope nor release into it, and consume at
least what the system draws on it.  Then from any point of the run on, what was drawn by the
end of each window of the envelope is at most one limit for each window, besides what was
left of the credit. -/
theorem draws_bounded {σ ι : Type} {M : Machine σ ι} {allow : ι → σ → Prop} (view : σ → State)
    {drawn : Entry σ ι → ℤ} {tr₁ tr₂ : List (Entry σ ι)} {q : Entry σ ι} {x : σ}
    (hpath : M.Path allow (tr₁ ++ q :: tr₂) x t)
    (hreach : (machine budget).ReachableBy (M.time q.input) (view q.post)) (hb : (view q.post).budget id = some b)
    (hw : b.window = some w) (hnone : b.allowDeficit = false)
    (hspent : b.spent ≤ b.limit + b.rolloverCredit)
    (hdraws : ∀ e ∈ tr₂, allow e.input e.pre → M.step e.input e.pre e.post →
      Draws budget id (M.time e.input) (drawn e) (view e.pre) (view e.post)) (k : ℕ) :
    tally drawn (fun e => M.time e.input < b.windowStart + (k + 1) * w) tr₂ + b.spent
      ≤ (k + 1) * b.limit + b.rolloverCredit := by
  have hsound := sound_reachable hreach.reachable hb
  rw [List.append_cons] at hpath
  have hstands : Stands budget id b w
      (fun d => tally drawn (fun e => M.time e.input < d) tr₂) (view x) t := by
    refine hpath.stretch (Q := fun tr x t => Stands budget id b w
      (fun d => tally drawn (fun e => M.time e.input < d) tr) (view x) t) ?_ ?_
    · intro x t hq
      obtain ⟨_, _, _, _, _, rfl, rfl⟩ := hq.last
      exact stands_fresh hreach hb hw hnone hspent
    · intro tr e t' hpart _ ht hallow hstep hstands
      have he : e ∈ tr₂ := hpart.subset (List.mem_append_right _ (List.mem_singleton_self e))
      obtain ⟨net, hnet, hoperates⟩ := hdraws e he hallow hstep
      refine (Stands.operates hoperates hstands hsound ht).mono ?_
      intro d
      rw [tally_append, tally_cons, tally_nil, add_zero]
      split <;> linarith
  obtain ⟨_, tr, hbounded, hdrawn⟩ := hstands
  have hwindow := hbounded.windows k
  have hle := hdrawn (b.windowStart + (k + 1) * w)
  linarith

end BudgetContract
end Astroid
