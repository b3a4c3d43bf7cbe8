import Astroid.Policy.Recurrence

/-!
# A policy behind a gate

A contract that asks the policy contract before it moves a token leaves nothing there:
`check_transfer` finds room for the amount in the allowance (`checkTransfer_room`) and
drops what it found.  The allowance bounds what moves only where each earlier move was
recorded before the next one is checked (`Recorded`); then no window moves more than the
limit (`gated_within`).
-/

namespace Astroid
namespace PolicyContract

open Outcome Machine Periods

variable {policy : Address} {id : String} {asset : Address} {s s' : State}
  {a : AssetAllowance} {t t' : ℕ}

/-! ## What the policy contract does meanwhile -/

/-- The policy contract at `policy` can be in a state at a time. -/
def CanBe (policy : Address) (t : ℕ) (s : State) : Prop :=
  ∃ tr t', t' ≤ t ∧ (machine policy).Path anyInput tr s t'

/-- A call of the policy contract at a time, which does not reconfigure the allowance. -/
def Operation (policy : Address) (id : String) (asset : Address) (a : AssetAllowance) (t : ℕ)
    (s s' : State) : Prop :=
  ∃ (env : Env policy) (call : Call), env.timestamp.toNat = t ∧
    call.Keeps id asset a.limit a.windowSeconds ∧ exec env s call = .ok s'

/-- Some such calls, one after the other. -/
def Operates (policy : Address) (id : String) (asset : Address) (a : AssetAllowance) (t : ℕ) :
    State → State → Prop :=
  Relation.ReflTransGen (Operation policy id asset a t)

/-- What is stored for the asset has the limit and the window of `a`. -/
def Carries (s : State) (id : String) (asset : Address) (a : AssetAllowance) : Prop :=
  ∃ a', (s.records id).allowance asset = some a' ∧ a'.limit = a.limit ∧
    a'.windowSeconds = a.windowSeconds

theorem CanBe.later (h : CanBe policy t s) (ht : t ≤ t') : CanBe policy t' s := by
  obtain ⟨tr, t₀, ht₀, hpath⟩ := h
  exact ⟨tr, t₀, ht₀.trans ht, hpath⟩

theorem CanBe.operation (h : CanBe policy t s) (hs : Operation policy id asset a t s s') :
    CanBe policy t s' := by
  obtain ⟨tr, t₀, ht₀, hpath⟩ := h
  obtain ⟨env, call, rfl, _, hexec⟩ := hs
  have hnext : (machine policy).Path anyInput _ s' env.timestamp.toNat :=
    Path.step (i := Input.invoke env call) hpath ht₀ trivial hexec
  exact ⟨_, _, le_rfl, hnext⟩

theorem Carries.operation (h : Carries s id asset a) (hlimit : 0 < a.limit)
    (hbe : CanBe policy t s) (hs : Operation policy id asset a t s s') :
    Carries s' id asset a := by
  obtain ⟨a', ha', hlimit', hwindow⟩ := h
  obtain ⟨_, _, _, hpath⟩ := hbe
  obtain ⟨env, call, rfl, hkeeps, hexec⟩ := hs
  cases (exec_effect (keyed_reachable hpath.reachable) hexec).allowance id asset with
  | removed caller hcall _ => exact absurd hcall (hkeeps.1 caller)
  | limited l hcall _ _ hafter =>
      obtain ⟨hl, hlwindow⟩ := hkeeps.2 l hcall
      rw [← hwindow] at hlwindow
      exact ⟨_, hafter, hl, (limited_settled ha' hlwindow).2.trans hwindow⟩
  | charged _ hcharged =>
      cases hcharge : call.charge id asset with
      | none =>
          rw [hcharge] at hcharged
          exact ⟨a', hcharged.trans ha', hlimit', hwindow⟩
      | some amount =>
          rw [hcharge] at hcharged
          obtain ⟨_, allowance, hconsumed, hafter⟩ := hcharged
          obtain ⟨_, rfl⟩ := consumeAllowance_limited env.timestamp.toNat_lt ha'
            (hlimit' ▸ hlimit) hconsumed
          exact ⟨_, hafter, hlimit', hwindow⟩

/-- Whatever the policy contract does, it carries the allowance. -/
theorem Operates.carries (hs : Operates policy id asset a t s s') (hlimit : 0 < a.limit)
    (hbe : CanBe policy t s) (h : Carries s id asset a) :
    CanBe policy t s' ∧ Carries s' id asset a := by
  induction hs with
  | refl => exact ⟨hbe, h⟩
  | tail _ hs ih => exact ⟨ih.1.operation hs, ih.2.operation hlimit ih.1 hs⟩

/-! ## What a check finds -/

theorem checkTransfer_consumes {env : Env policy} {recipient : Address} {amount : ℤ}
    (h : checkTransfer env s id asset recipient amount = .ok ()) :
    ∃ allowance, (s.records id).consumeAllowance env.timestamp.toNat asset amount
      = .ok allowance := by
  simp only [checkTransfer, Records.evaluatePolicyDecision, bind_eq_ok] at h
  obtain ⟨_, _, decision, ⟨registered, _, screened, _, hdecision⟩, henforced⟩ := h
  cases hdenial : screened.1 with
  | some reason =>
      simp only [hdenial, pure_eq_ok] at hdecision
      subst hdecision
      cases henforced
  | none =>
      simp only [hdenial, bind_eq_ok] at hdecision
      obtain ⟨⟨outcome, context⟩, hassets, hdecision⟩ := hdecision
      cases outcome with
      | denied reason =>
          cases hdecision
          cases henforced
      | passed allowance => exact ⟨allowance, screenAssetRules_passed hassets⟩

/-- **A check finds room for the amount in the allowance.** -/
theorem checkTransfer_room {env : Env policy} {recipient : Address} {amount : ℤ}
    (hcarries : Carries s id asset a) (hlimit : 0 < a.limit)
    (h : checkTransfer env s id asset recipient amount = .ok ()) :
    (getAllowance env s id asset).spent + amount ≤ a.limit := by
  obtain ⟨a', ha', hlimit', _⟩ := hcarries
  obtain ⟨_, hconsumed⟩ := checkTransfer_consumes h
  obtain ⟨hroom, _⟩ := consumeAllowance_limited env.timestamp.toNat_lt ha' (hlimit' ▸ hlimit)
    hconsumed
  rw [getAllowance_eq]
  unfold Records.allowanceOrUnset
  rw [ha', Option.getD_some]
  omega

/-! ## Gated runs -/

/-- `policy` is a policy contract: its `check_transfer` is asked, and `view` is what it stores. -/
def Answers {current : Address} {World : Type}
    (check : Env current → World → Address → String → Address → Address → ℤ → Option World)
    (policy : Address) (view : World → State) : Prop :=
  ∀ (env : Env current) w asset recipient amount w',
    check env w policy "active" asset recipient amount = some w' → view w' = view w ∧
      ∃ asked : Env policy, asked.timestamp = env.timestamp ∧
        checkTransfer asked (view w) "active" asset recipient amount = .ok ()

section Gated

variable {σ ι : Type} {M : Machine σ ι} {view : σ → State}
  {moves : Entry σ ι → List (ℕ × ℤ)} {tr tr₁ tr₂ : List (Entry σ ι)} {q e : Entry σ ι} {x : σ}

/-- The policy contract has nothing against a move at its time. -/
def Passes (policy : Address) (id : String) (asset : Address) (s : State) (move : ℕ × ℤ) : Prop :=
  ∃ (env : Env policy) (recipient : Address), env.timestamp.toNat = move.1 ∧
    checkTransfer env s id asset recipient move.2 = .ok ()

theorem Answers.passes {current recipient : Address} {World : Type} {view : World → State}
    {check : Env current → World → Address → String → Address → Address → ℤ → Option World}
    (h : Answers check policy view) {env : Env current} {w w' : World} {amount : ℤ}
    (hcheck : check env w policy "active" asset recipient amount = some w') :
    view w' = view w ∧ Passes policy "active" asset (view w) (env.timestamp.toNat, amount) := by
  obtain ⟨hsame, asked, htime, hpassed⟩ := h env w asset recipient amount w' hcheck
  exact ⟨hsame, asked, recipient, congrArg UInt64.toNat htime, hpassed⟩

/-- From the entry `q` of a run on, the policy contract carries the allowance `a` under
`active`, and none of its calls reconfigures it. -/
structure Governs (M : Machine σ ι) (policy asset : Address) (a : AssetAllowance)
    (view : σ → State) (q : Entry σ ι) (tr : List (Entry σ ι)) : Prop where
  canBe : CanBe policy (M.time q.input) (view q.post)
  allowance : ((view q.post).records "active").allowance asset = some a
  limit : 0 < a.limit
  operates : ∀ e ∈ tr,
    Operates policy "active" asset a (M.time e.input) (view e.pre) (view e.post)

/-- At each move, the allowance reports no less than what was moved in its window before. -/
def Recorded (policy asset : Address) (a : AssetAllowance) (view : σ → State)
    (moves : Entry σ ι → List (ℕ × ℤ)) (tr : List (Entry σ ι)) : Prop :=
  ∀ tr' e before move after, tr' ++ [e] <+: tr → moves e = before ++ move :: after →
    ∀ env : Env policy, env.timestamp.toNat = move.1 →
      charged a.windowStart a.windowSeconds (index a.windowStart a.windowSeconds move.1)
        (tr'.flatMap moves ++ before) ≤ (getAllowance env (view e.pre) "active" asset).spent

theorem recorded_nil : Recorded policy asset a view moves [] := by
  intro tr' e before move after hpart
  simp at hpart

/-- One more entry, which is a single move or none. -/
theorem Recorded.concat (h : Recorded policy asset a view moves tr) (next : Option (ℕ × ℤ))
    (hmoves : moves e = next.toList)
    (hcovered : ∀ move, next = some move → ∀ env : Env policy, env.timestamp.toNat = move.1 →
      charged a.windowStart a.windowSeconds (index a.windowStart a.windowSeconds move.1)
        (tr.flatMap moves) ≤ (getAllowance env (view e.pre) "active" asset).spent) :
    Recorded policy asset a view moves (tr ++ [e]) := by
  intro tr' e' before move after hpart hsplit env htime
  rcases concat_prefix_concat hpart with ⟨rfl, rfl⟩ | hearlier
  · rw [hmoves] at hsplit
    cases next with
    | none => simp at hsplit
    | some only =>
        obtain ⟨rfl, hrest⟩ := List.append_eq_singleton_iff.1 hsplit.symm |>.resolve_right (by simp)
        obtain ⟨rfl, _⟩ := List.cons.inj hrest
        rw [List.append_nil]
        exact hcovered move rfl env htime
  · exact h tr' e' before move after hearlier hsplit env htime

/-- The moves of one entry. -/
theorem Recorded.entry (h : Recorded policy asset a view moves tr₂)
    (hpart : tr ++ [e] <+: tr₂) (hlimit : 0 < a.limit)
    (hcarries : Carries (view e.pre) "active" asset a)
    (hpasses : ∀ move ∈ moves e, Passes policy "active" asset (view e.pre) move)
    (hwithin : Within a.windowStart a.windowSeconds a.limit (tr.flatMap moves)) :
    Within a.windowStart a.windowSeconds a.limit ((tr ++ [e]).flatMap moves) := by
  have hsplit : ∀ before after, moves e = before ++ after →
      Within a.windowStart a.windowSeconds a.limit (tr.flatMap moves ++ before) := by
    intro before
    induction before using List.reverseRecOn with
    | nil =>
        intro _ _
        rw [List.append_nil]
        exact hwithin
    | append_singleton before move ih =>
        intro after hmoves
        rw [List.append_assoc, List.singleton_append] at hmoves
        have hmem : move ∈ moves e := by
          rw [hmoves]
          exact List.mem_append_right _ (List.mem_cons_self ..)
        obtain ⟨env, recipient, htime, hcheck⟩ := hpasses move hmem
        have hroom := checkTransfer_room hcarries hlimit hcheck
        have hcovered := h tr e before move after hpart hmoves env htime
        rw [← List.append_assoc]
        exact (ih _ hmoves).append (by omega)
  rw [List.flatMap_append, List.flatMap_singleton]
  exact hsplit (moves e) [] (List.append_nil _).symm

/-- **What moves behind the gate stays within the allowance.**  If each move passed the policy
contract, and was recorded before the next one, then no window moves more than the
limit. -/
theorem gated_bounds (hpath : M.Path anyInput (tr₁ ++ q :: tr₂) x t)
    (hgoverns : Governs M policy asset a view q tr₂)
    (hpasses : ∀ e ∈ tr₂, M.step e.input e.pre e.post → ∀ move ∈ moves e,
      move.1 = M.time e.input ∧ Passes policy "active" asset (view e.pre) move)
    (hrecorded : Recorded policy asset a view moves tr₂) : Bounds a (tr₂.flatMap moves) := by
  obtain ⟨hbe, ha, hlimit, hoperates⟩ := hgoverns
  have hrun : CanBe policy t (view x) ∧ Carries (view x) "active" asset a ∧ a.windowStart ≤ t ∧
      (∀ move ∈ tr₂.flatMap moves, a.windowStart ≤ move.1) ∧
      Within a.windowStart a.windowSeconds a.limit (tr₂.flatMap moves) := by
    rw [List.append_cons] at hpath
    refine hpath.stretch (Q := fun tr x t => CanBe policy t (view x) ∧
      Carries (view x) "active" asset a ∧ a.windowStart ≤ t ∧
      (∀ move ∈ tr.flatMap moves, a.windowStart ≤ move.1) ∧
      Within a.windowStart a.windowSeconds a.limit (tr.flatMap moves)) ?_ ?_
    · intro x t hq
      obtain ⟨_, _, _, _, _, rfl, rfl⟩ := hq.last
      have hstarted : a.windowStart ≤ M.time q.input := by
        obtain ⟨_, t₀, ht₀, hbefore⟩ := hbe
        exact (started_of_path hbefore "active" asset a ha).trans ht₀
      exact ⟨hbe, ⟨a, ha, rfl, rfl⟩, hstarted, by simp, within_nil hlimit.le⟩
    · intro tr e t' hpart _ ht _ hstep hQ
      obtain ⟨hbe', hcarries, hstarted, hlater, hwithin⟩ := hQ
      have he : e ∈ tr₂ := hpart.subset (List.mem_append_right _ (List.mem_singleton_self e))
      have hmoves := hpasses e he hstep
      obtain ⟨hbe'', hcarries'⟩ := (hoperates e he).carries hlimit (hbe'.later ht) hcarries
      refine ⟨hbe'', hcarries', hstarted.trans ht, ?_, ?_⟩
      · intro move hmove
        rw [List.flatMap_append, List.flatMap_singleton] at hmove
        rcases List.mem_append.1 hmove with hmove | hmove
        · exact hlater move hmove
        · rw [(hmoves move hmove).1]
          exact hstarted.trans ht
      · exact hrecorded.entry hpart hlimit hcarries (fun move h => (hmoves move h).2) hwithin
  obtain ⟨_, _, _, hlater, hwithin⟩ := hrun
  exact bounds_of_within hwithin hlater

end Gated

end PolicyContract
end Astroid
