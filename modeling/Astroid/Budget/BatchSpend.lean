import Astroid.Budget.Assets

/-!
# Spends in a batch

A batch settles the windows of its tokens as single spends do, and holds each leg to the
limit of its token, where a single spend may also use the credit that rolled over.  The
two agree unless some leg needs its credit, or the credit is so large that its sum with
the limit overflows (`batchAgrees_iff`).
-/

namespace Astroid
namespace BudgetContract

open Outcome

variable {here : Address} {env : Env here} {s s' t : State} {id : String} {token caller : Address}
  {spends : List AssetSpend} {settled settled' : List (Address × AssetBudget)} {now : ℕ}

/-- `check_and_record_spend` for each leg in turn. -/
def checkAndRecordSpends (env : Env here) (s : State) (caller : Address) (id : String)
    (spends : List AssetSpend) : SpendResult State :=
  spends.foldlM (fun s spend => checkAndRecordSpend env s caller id spend.token spend.amount) s

/-! ## The two ways to spend -/

theorem Spendable.congr {b : Budget} (h : Spendable env s caller id b)
    (hsame : t.budget = s.budget) : Spendable env t caller id b := by
  obtain ⟨hsigned, hstored, howner, hactive, hstarted, hunexpired⟩ := h
  exact ⟨hsigned, hsame ▸ hstored, howner, hactive, hstarted, hunexpired⟩

/-- The records of the legs do not depend on what was checked of them. -/
theorem Legs.unique {fits fits' : AssetBudget → ℤ → Prop} (h : Legs now fits s id spends settled)
    (h' : Legs now fits' s id spends settled') : settled = settled' := by
  induction spends generalizing settled settled' with
  | nil =>
      cases h
      cases h'
      rfl
  | cons spend rest ih =>
      cases h with
      | cons hleg hrest =>
          cases h' with
          | cons hleg' hrest' =>
              obtain ⟨_, a, ha, _, rfl⟩ := hleg
              obtain ⟨_, a', ha', _, rfl⟩ := hleg'
              rw [ha, Option.some.injEq] at ha'
              subst ha'
              rw [ih hrest hrest']

/-- Legs that only read records two states share. -/
theorem Legs.congr {fits : AssetBudget → ℤ → Prop}
    (hsame : ∀ spend ∈ spends, t.assetBudget id spend.token = s.assetBudget id spend.token) :
    Legs now fits t id spends settled ↔ Legs now fits s id spends settled := by
  induction spends generalizing settled with
  | nil => simp [Legs]
  | cons spend rest ih =>
      have hrest : ∀ settled, Legs now fits t id rest settled ↔ Legs now fits s id rest settled :=
        fun _ => ih fun leg hleg => hsame leg (List.mem_cons_of_mem _ hleg)
      simp only [Legs, List.forall₂_cons_left_iff] at hrest ⊢
      simp only [hsame spend (List.mem_cons_self ..), hrest]

/-- **Single spends** of distinct tokens check each leg against the records as they were
before the first. -/
theorem checkAndRecordSpends_eq_ok (hspendable : ∃ b, Spendable env s caller id b)
    (hnodup : (spends.map AssetSpend.token).Nodup) :
    checkAndRecordSpends env s caller id spends = .ok s' ↔
      ∃ settled, Legs env.timestamp.toNat AssetBudget.Covers s id spends settled ∧
        s' = storeLegs id s settled := by
  induction spends generalizing s with
  | nil =>
      have hnil : checkAndRecordSpends env s caller id [] = .ok s := rfl
      simp [hnil, Legs, storeLegs, eq_comm]
  | cons spend rest ih =>
      rw [List.map_cons, List.nodup_cons] at hnodup
      obtain ⟨hnew, hnodup⟩ := hnodup
      have hstep : checkAndRecordSpends env s caller id (spend :: rest)
          = checkAndRecordSpend env s caller id spend.token spend.amount
            >>= fun s₁ => checkAndRecordSpends env s₁ caller id rest := rfl
      rw [hstep, bind_eq_ok]
      simp only [checkAndRecordSpend_eq_ok, Legs, List.forall₂_cons_left_iff]
      -- what the first leg writes, the later ones do not read
      have hlater : ∀ a, checkAndRecordSpends env (s.storeAsset id spend.token a) caller id rest
          = .ok s' ↔ ∃ settled, Legs env.timestamp.toNat AssetBudget.Covers s id rest settled ∧
            s' = storeLegs id (s.storeAsset id spend.token a) settled := by
        intro a
        obtain ⟨b, hb⟩ := hspendable
        have hlater : ∃ b, Spendable env (s.storeAsset id spend.token a) caller id b :=
          ⟨b, hb.congr rfl⟩
        rw [ih hlater hnodup]
        refine exists_congr fun settled => and_congr (Legs.congr ?_) Iff.rfl
        intro leg hleg
        refine storeAsset_assetBudget_ne ?_
        rintro ⟨_, htoken⟩
        exact hnew (htoken ▸ List.mem_map_of_mem hleg)
      constructor
      · rintro ⟨_, ⟨hpos, _, a, ha, hcovers, rfl⟩, hrest⟩
        obtain ⟨settled, hlegs, rfl⟩ := (hlater _).1 hrest
        exact ⟨_, ⟨_, _, ⟨hpos, a, ha, hcovers, rfl⟩, hlegs, rfl⟩, rfl⟩
      · rintro ⟨_, ⟨leg, settled, ⟨hpos, a, ha, hcovers, rfl⟩, hlegs, rfl⟩, rfl⟩
        exact ⟨_, ⟨hpos, hspendable, a, ha, hcovers, rfl⟩, (hlater _).2 ⟨settled, hlegs, rfl⟩⟩

/-- Nobody spends from a budget that is not open to them. -/
theorem spendable_of_spends (hne : spends ≠ [])
    (h : checkAndRecordSpends env s caller id spends = .ok s') :
    ∃ b, Spendable env s caller id b := by
  cases spends with
  | nil => exact absurd rfl hne
  | cons spend rest =>
      obtain ⟨s₁, hfirst, _⟩ := bind_eq_ok.1 h
      exact (checkAndRecordSpend_eq_ok.1 hfirst).2.1

/-! ## Where they agree -/

/-- The budget is open to the caller, every amount is positive and every token has a limit. -/
structure Admitted (env : Env here) (s : State) (caller : Address) (id : String)
    (spends : List AssetSpend) : Prop where
  spendable : ∃ b, Spendable env s caller id b
  positive : ∀ spend ∈ spends, 0 < spend.amount.1
  registered : ∀ spend ∈ spends, s.assetBudget id spend.token ≠ none

/-- Every leg `fits` the record of its token, once its window caught up. -/
def EachLeg (now : ℕ) (s : State) (id : String) (spends : List AssetSpend)
    (fits : AssetBudget → ℤ → Prop) : Prop :=
  ∀ spend ∈ spends, ∀ a, s.assetBudget id spend.token = some a →
    fits (a.windowTransition now) spend.amount

/-- No leg is let through for its credit, or refused because of it: legs within their limits
have a sum of limit and credit, and legs within these sums are within their limits. -/
def CreditUnused (env : Env here) (s : State) (caller : Address) (id : String)
    (spends : List AssetSpend) : Prop :=
  Admitted env s caller id spends →
    (EachLeg env.timestamp.toNat s id spends (fun a x => a.spent + x ≤ a.limit) →
      EachLeg env.timestamp.toNat s id spends fun a _ => a.room ≤ i128Max) ∧
    (EachLeg env.timestamp.toNat s id spends (fun a x => a.room ≤ i128Max ∧ a.spent + x ≤ a.room) →
      EachLeg env.timestamp.toNat s id spends fun a x => a.spent + x ≤ a.limit)

/-- A batch does what its legs do one by one. -/
structure BatchAgrees (env : Env here) (s : State) (caller : Address) (id : String)
    (spends : List AssetSpend) : Prop where
  succeeds : (∃ s', checkAndRecordBatchSpend env s caller id spends = .ok s') ↔
    ∃ s', checkAndRecordSpends env s caller id spends = .ok s'
  records : ∀ s₁ s₂, checkAndRecordBatchSpend env s caller id spends = .ok s₁ →
    checkAndRecordSpends env s caller id spends = .ok s₂ →
    ∀ token, s₁.assetBudget id token = s₂.assetBudget id token
  refused : ∀ f, exec env s (.checkAndRecordBatchSpend caller id spends) = .error f →
    (deployment here).after s (env, .checkAndRecordBatchSpend caller id spends) = s

/-- The legs can be settled when each of them fits. -/
theorem exists_legs {fits : AssetBudget → ℤ → Prop} :
    (∃ settled, Legs now fits s id spends settled) ↔
      (∀ spend ∈ spends, 0 < spend.amount.1) ∧
      (∀ spend ∈ spends, s.assetBudget id spend.token ≠ none) ∧ EachLeg now s id spends fits := by
  induction spends with
  | nil => simp [Legs, EachLeg]
  | cons spend rest ih =>
      simp only [Legs, List.forall₂_cons_left_iff, EachLeg] at ih ⊢
      simp only [List.forall_mem_cons]
      constructor
      · rintro ⟨_, leg, settled, ⟨hpos, a, ha, hfits, _⟩, hrest, _⟩
        obtain ⟨hpositive, hregistered, heach⟩ := ih.1 ⟨settled, hrest⟩
        refine ⟨⟨hpos, hpositive⟩, ⟨by simp [ha], hregistered⟩, ?_, heach⟩
        intro a' ha'
        rw [ha, Option.some.injEq] at ha'
        exact ha' ▸ hfits
      · rintro ⟨⟨hpos, hpositive⟩, ⟨hsome, hregistered⟩, hfirst, heach⟩
        obtain ⟨settled, hrest⟩ := ih.2 ⟨hpositive, hregistered, heach⟩
        obtain ⟨a, ha⟩ := Option.ne_none_iff_exists'.1 hsome
        exact ⟨_, _, settled, ⟨hpos, a, ha, hfirst a ha, rfl⟩, hrest, rfl⟩

/-- Legs that can be settled are admitted, and fit what each record allows in every state a run
reaches. -/
theorem admitted_iff {fits fits' : AssetBudget → ℤ → Prop} (h : (machine here).Reachable s)
    (hfits : ∀ (a : AssetBudget) (x : ℤ), a.Sound → 0 < x → (fits a x ↔ fits' a x)) :
    ((∃ b, Spendable env s caller id b) ∧ ∃ settled, Legs now fits s id spends settled) ↔
      Admitted env s caller id spends ∧ EachLeg now s id spends fits' := by
  have hcongr : (∀ spend ∈ spends, 0 < spend.amount.1) →
      (EachLeg now s id spends fits ↔ EachLeg now s id spends fits') := by
    intro hpositive
    refine forall₂_congr fun spend hspend => forall₂_congr fun a ha => ?_
    exact hfits _ _ (asset_sound_reachable h ha).windowTransition (hpositive spend hspend)
  rw [exists_legs]
  constructor
  · rintro ⟨hspendable, hpositive, hregistered, heach⟩
    exact ⟨⟨hspendable, hpositive, hregistered⟩, (hcongr hpositive).1 heach⟩
  · rintro ⟨⟨hspendable, hpositive, hregistered⟩, heach⟩
    exact ⟨hspendable, hpositive, hregistered, (hcongr hpositive).2 heach⟩

/-- A batch checks its legs against their limits. -/
theorem batch_returns_iff (h : (machine here).Reachable s)
    (hnodup : (spends.map AssetSpend.token).Nodup)
    (hlength : 1 ≤ spends.length ∧ spends.length ≤ maxBatchTokens) :
    (∃ s', checkAndRecordBatchSpend env s caller id spends = .ok s') ↔
      Admitted env s caller id spends ∧
        EachLeg env.timestamp.toNat s id spends fun a x => a.spent + x ≤ a.limit := by
  have hne : spends ≠ [] := List.ne_nil_of_length_pos hlength.1
  rw [← admitted_iff h fun _ _ hsound hpos => hsound.within_iff hpos]
  simp only [checkAndRecordBatchSpend_eq_ok]
  constructor
  · rintro ⟨_, _, hspendable, settled, ⟨hlegs, _⟩, _⟩
    exact ⟨hspendable, settled, hlegs⟩
  · rintro ⟨hspendable, settled, hlegs⟩
    exact ⟨_, ⟨hne, hlength.2⟩, hspendable, settled, ⟨hlegs, hnodup⟩, rfl⟩

/-- Single spends are checked against their limits and what was carried over. -/
theorem spends_return_iff (h : (machine here).Reachable s)
    (hnodup : (spends.map AssetSpend.token).Nodup) (hne : spends ≠ []) :
    (∃ s', checkAndRecordSpends env s caller id spends = .ok s') ↔
      Admitted env s caller id spends ∧ EachLeg env.timestamp.toNat s id spends fun a x =>
        a.room ≤ i128Max ∧ a.spent + x ≤ a.room := by
  rw [← admitted_iff h fun _ _ hsound hpos => hsound.covers_iff hpos]
  constructor
  · rintro ⟨s', hspends⟩
    have hspendable := spendable_of_spends hne hspends
    obtain ⟨settled, hlegs, _⟩ := (checkAndRecordSpends_eq_ok hspendable hnodup).1 hspends
    exact ⟨hspendable, settled, hlegs⟩
  · rintro ⟨hspendable, settled, hlegs⟩
    exact ⟨_, (checkAndRecordSpends_eq_ok hspendable hnodup).2 ⟨settled, hlegs, rfl⟩⟩

/-- **A batch agrees with single spends** exactly when no leg needs its credit. -/
theorem batchAgrees_iff (h : (machine here).Reachable s)
    (hnodup : (spends.map AssetSpend.token).Nodup)
    (hlength : 1 ≤ spends.length ∧ spends.length ≤ maxBatchTokens) :
    BatchAgrees env s caller id spends ↔ CreditUnused env s caller id spends := by
  have hne : spends ≠ [] := List.ne_nil_of_length_pos hlength.1
  constructor
  · rintro ⟨hsucceeds, _, _⟩ hadmitted
    rw [batch_returns_iff h hnodup hlength, spends_return_iff h hnodup hne] at hsucceeds
    constructor
    · intro hwithin spend hspend a ha
      exact ((hsucceeds.1 ⟨hadmitted, hwithin⟩).2 spend hspend a ha).1
    · intro hcovered
      exact (hsucceeds.2 ⟨hadmitted, hcovered⟩).2
  · intro hunused
    refine ⟨?_, ?_, fun f hf => Deployment.after_of_error hf⟩
    · rw [batch_returns_iff h hnodup hlength, spends_return_iff h hnodup hne]
      constructor
      · rintro ⟨hadmitted, hwithin⟩
        refine ⟨hadmitted, ?_⟩
        intro spend hspend a ha
        have hsettled : (a.windowTransition env.timestamp.toNat).Sound :=
          (asset_sound_reachable h ha).windowTransition
        have hcredit := hsettled.credit.1
        have hle := hwithin spend hspend a ha
        have hroom := (hunused hadmitted).1 hwithin spend hspend a ha
        refine ⟨hroom, hle.trans ?_⟩
        exact le_add_of_nonneg_right hcredit
      · rintro ⟨hadmitted, hcovered⟩
        exact ⟨hadmitted, (hunused hadmitted).2 hcovered⟩
    · intro s₁ s₂ hs₁ hs₂ token
      obtain ⟨_, hspendable, settled, ⟨hlegs, _⟩, rfl⟩ := checkAndRecordBatchSpend_eq_ok.1 hs₁
      obtain ⟨settled', hlegs', rfl⟩ := (checkAndRecordSpends_eq_ok hspendable hnodup).1 hs₂
      rw [hlegs.unique hlegs']

/-- All of it, in basis points. -/
theorem isI128_whole : IsI128 10000 := by decide

theorem isI128_overdrawn : IsI128 180 := by decide

/-- The owner registers a limit of 100 every ten seconds for the token, all of which rolls
over. -/
def rolling : Script Call :=
  [(signedBy 0 [1], .allocate (.account 1) "eng" ⟨100, isI128_hundred⟩ .daily false 0),
    (signedBy 0 [1], .setBudgetLimitWithRollover (.account 1) "eng" (.account 2)
      ⟨100, isI128_hundred⟩ 10 true ⟨10000, isI128_whole⟩ ⟨0, isI128_zero⟩)]

theorem rolling_reachable : (machine (.contract 0)).Reachable (play deployed rolling) :=
  Deployment.reachable_play deployed_fresh (by decide)

/-- The record after `rolling`. -/
def rollingAsset : AssetBudget where
  limit := 100
  spent := 0
  windowSeconds := 10
  windowStart := 0
  rolloverEnabled := true
  rolloverCredit := 0
  rolloverBps := bpsDenominator
  maxRolloverCap := 0

/-- In the first window there is no credit to use. -/
theorem batchAgrees_rolling : BatchAgrees (signedBy 5 [1]) (play deployed rolling) (.account 1)
    "eng" [⟨.account 2, ⟨50, isI128_fifty⟩⟩] := by
  refine (batchAgrees_iff rolling_reachable (by decide) (by decide)).2 ?_
  have ha : (play deployed rolling).assetBudget "eng" (.account 2) = some rollingAsset := rfl
  rintro -
  constructor
  · rintro - spend hspend a hstored
    rw [List.mem_singleton] at hspend
    subst hspend
    rw [ha, Option.some.injEq] at hstored
    subst hstored
    decide
  · rintro - spend hspend a hstored
    rw [List.mem_singleton] at hspend
    subst hspend
    rw [ha, Option.some.injEq] at hstored
    subst hstored
    decide

/-- In the second window 100 are carried over, and a spend of 180 is refused in a batch. -/
theorem not_batchAgrees_rolling :
    ¬ ∀ (s : State) (env : Env (.contract 0)) (caller : Address) (id : String)
      (spends : List AssetSpend), (machine (.contract 0)).Reachable s →
      (spends.map AssetSpend.token).Nodup →
      1 ≤ spends.length ∧ spends.length ≤ maxBatchTokens →
      BatchAgrees env s caller id spends := by
  intro hall
  have hagrees := hall (play deployed rolling) (signedBy 10 [1]) (.account 1) "eng"
    [⟨.account 2, ⟨180, isI128_overdrawn⟩⟩] rolling_reachable (by decide) (by decide)
  obtain ⟨s', hs'⟩ := hagrees.succeeds.2 ⟨_, rfl⟩
  have hrefused : (checkAndRecordBatchSpend (signedBy 10 [1]) (play deployed rolling) (.account 1)
      "eng" [⟨.account 2, ⟨180, isI128_overdrawn⟩⟩]).isOk = false := rfl
  rw [hs'] at hrefused
  cases hrefused

end BudgetContract
end Astroid
