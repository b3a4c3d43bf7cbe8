import Astroid.Budget.Effects
import Astroid.Lib.Periods

/-!
# The limits of the tokens

What a call does to the record of one token.  Its window is a counter over fixed periods
that catches up whenever the record is used (`counter_windowTransition`); a record is
made anew by a registration and by nothing else (`exec_asset`).
-/

namespace Astroid
namespace BudgetContract

open Outcome Periods

variable {here : Address} {env : Env here} {s s' : State} {id id' : String}
  {token caller : Address}

namespace AssetBudget

/-- The ranges of a record, which holds credit only where something rolls over. -/
structure Sound (a : AssetBudget) : Prop where
  limit : 0 ≤ a.limit ∧ a.limit ≤ i128Max
  spent : 0 ≤ a.spent ∧ a.spent ≤ i128Max
  credit : 0 ≤ a.rolloverCredit ∧ a.rolloverCredit ≤ i128Max
  cap : 0 ≤ a.maxRolloverCap ∧ a.maxRolloverCap ≤ i128Max
  dropped : a.rolloverEnabled = false → a.rolloverCredit = 0

/-- What the window allows. -/
def room (a : AssetBudget) : ℤ := a.limit + a.rolloverCredit

/-- The window of the record, with what was spent in it. -/
def counter (a : AssetBudget) : Counter := ⟨a.windowStart, a.spent⟩

variable {a a' : AssetBudget} {now : ℕ} {c : ℤ}

theorem capacity_eq_ok (h : a.Sound) : a.capacity = .ok c ↔ a.room ≤ i128Max ∧ c = a.room := by
  obtain ⟨hlimit, _, hcredit, _, hdropped⟩ := h
  have hmin : i128Min ≤ 0 := by decide
  unfold capacity room
  by_cases henabled : a.rolloverEnabled = true
  · rw [if_pos henabled, checkedAdd_eq_ok, IsI128]
    omega
  · have hzero : a.rolloverCredit = 0 := hdropped (by simpa using henabled)
    rw [if_neg henabled, hzero, add_zero, Except.ok.injEq]
    omega

/-! ## Catching up -/

/-- A record whose window runs is left alone. -/
theorem windowTransition_running
    (h : a.windowSeconds = 0 ∨ now - a.windowStart < a.windowSeconds) :
    a.windowTransition now = a :=
  if_pos h

theorem windowTransition_lapsed
    (h : ¬ (a.windowSeconds = 0 ∨ now - a.windowStart < a.windowSeconds)) :
    a.windowTransition now = { a with
      rolloverCredit := if a.rolloverEnabled = true then AssetBudget.windowTransition.carried a else 0
      spent := 0
      windowStart := saturateSeconds (a.windowStart
        + saturateSeconds ((now - a.windowStart) / a.windowSeconds * a.windowSeconds)) } :=
  if_neg h

theorem elapsed_eq_zero (h : a.windowSeconds = 0 ∨ now - a.windowStart < a.windowSeconds) :
    (now - a.windowStart) / a.windowSeconds = 0 := by
  rcases h with hzero | hrunning
  · rw [hzero, Nat.div_zero]
  · exact Nat.div_eq_of_lt hrunning

/-- The terms of a record outlast its windows. -/
theorem windowTransition_terms : (a.windowTransition now).limit = a.limit ∧
    (a.windowTransition now).windowSeconds = a.windowSeconds ∧
    (a.windowTransition now).rolloverEnabled = a.rolloverEnabled ∧
    (a.windowTransition now).maxRolloverCap = a.maxRolloverCap := by
  by_cases h : a.windowSeconds = 0 ∨ now - a.windowStart < a.windowSeconds
  · rw [windowTransition_running h]
    exact ⟨rfl, rfl, rfl, rfl⟩
  · rw [windowTransition_lapsed h]
    exact ⟨rfl, rfl, rfl, rfl⟩

/-- **The window catches up** with all the periods that have passed. -/
theorem counter_windowTransition (hnow : now < 2 ^ 64) :
    (a.windowTransition now).counter = a.counter.settle a.windowSeconds now := by
  by_cases h : a.windowSeconds = 0 ∨ now - a.windowStart < a.windowSeconds
  · rw [windowTransition_running h]
    simp [counter, Counter.settle, elapsed_eq_zero h]
  · have hle : a.windowSeconds ≤ now - a.windowStart := by omega
    have hpos : 0 < a.windowSeconds := by omega
    have hpassed : (now - a.windowStart) / a.windowSeconds ≠ 0 := (Nat.div_pos hle hpos).ne'
    have hwhole := Nat.div_mul_le_self (now - a.windowStart) a.windowSeconds
    rw [windowTransition_lapsed h]
    simp only [counter, Counter.settle, hpassed, ↓reduceIte, Counter.mk.injEq, and_true]
    unfold saturateSeconds
    omega

/-- What carries over is in range. -/
theorem carried_range (h : a.Sound) :
    0 ≤ AssetBudget.windowTransition.carried a ∧
      AssetBudget.windowTransition.carried a ≤ i128Max := by
  have hmax : (0 : ℤ) ≤ i128Max := by decide
  have hcap := h.cap
  unfold windowTransition.carried
  dsimp only
  generalize hunspent : max (saturatingSubI128 _ a.spent) 0 = unspent
  have hrange : 0 ≤ unspent ∧ unspent ≤ i128Max := by
    rw [← hunspent]
    unfold saturatingSubI128 i128Max i128Min
    omega
  have hi128 : IsI128 unspent := ⟨le_trans (by decide) hrange.1, hrange.2⟩
  cases hcredit : calculateBudgetRollover unspent a.rolloverBps a.maxRolloverCap with
  | error e => exact ⟨le_rfl, hmax⟩
  | ok credit =>
      obtain ⟨_, hbps0, _, hbps, hvalue⟩ := (calculateBudgetRollover_eq_ok hi128).1 hcredit
      have hshare0 : 0 ≤ unspent * a.rolloverBps / bpsDenominator :=
        Int.ediv_nonneg (mul_nonneg hrange.1 hbps0) (by decide)
      have hshare : unspent * a.rolloverBps / bpsDenominator ≤ unspent :=
        (Budget.percentageCarry a.rolloverBps hbps0 hbps).le unspent hrange.1
      show 0 ≤ credit ∧ credit ≤ i128Max
      rw [hvalue]
      split
      · exact hcap
      · omega

theorem Sound.windowTransition (h : a.Sound) : (a.windowTransition now).Sound := by
  by_cases hrunning : a.windowSeconds = 0 ∨ now - a.windowStart < a.windowSeconds
  · rw [windowTransition_running hrunning]
    exact h
  · rw [windowTransition_lapsed hrunning]
    have hzero : (0 : ℤ) ≤ 0 ∧ (0 : ℤ) ≤ i128Max := by decide
    refine ⟨h.limit, hzero, ?_, h.cap, ?_⟩
    · dsimp only
      split
      · exact carried_range h
      · exact hzero
    · intro hdisabled
      have hoff : a.rolloverEnabled = false := hdisabled
      simp [hoff]

/-- The record after `x` more was spent. -/
def take (a : AssetBudget) (x : ℤ) : AssetBudget := { a with spent := a.spent + x }

theorem Sound.take {x : ℤ} (h : a.Sound) (hx : 0 ≤ x) (hroom : a.spent + x ≤ i128Max) :
    (a.take x).Sound :=
  ⟨h.limit, ⟨add_nonneg h.spent.1 hx, hroom⟩, h.credit, h.cap, h.dropped⟩

end AssetBudget

/-! ## Reading and writing -/

theorem loadAsset_eq_ok {a : AssetBudget} :
    s.loadAsset id token = .ok a ↔ s.assetBudget id token = some a := okOr_eq_ok

@[simp] theorem storeAsset_assetBudget {a : AssetBudget} :
    (s.storeAsset id token a).assetBudget id token = some a := by
  simp [State.storeAsset]

theorem storeAsset_assetBudget_ne {token' : Address} {a : AssetBudget}
    (h : ¬ (id' = id ∧ token' = token)) :
    (s.storeAsset id token a).assetBudget id' token' = s.assetBudget id' token' := by
  unfold State.storeAsset
  by_cases hid : id' = id
  · subst hid
    have htoken : token' ≠ token := fun heq => h ⟨rfl, heq⟩
    simp [Function.update_of_ne htoken]
  · simp [Function.update_of_ne hid]

/-! ## Spending -/

/-- The budget may be spent from by `caller` at the time of the call. -/
structure Spendable (env : Env here) (s : State) (caller : Address) (id : String) (b : Budget) :
    Prop where
  signed : caller ∈ env.auths
  stored : s.budget id = some b
  owner : b.owner = caller
  active : b.state = .active
  started : b.windowStart ≤ env.timestamp.toNat
  unexpired : b.Unexpired env.timestamp.toNat

theorem requireSpendable_eq_ok {b : Budget} :
    requireSpendable env s caller id = .ok b ↔ Spendable env s caller id b := by
  simp only [requireSpendable, requireStarted, requireSpend, bind_eq_ok, intoSpend_eq_ok,
    requireOwner_eq_ok, requireActive_eq_ok, Budget.requireNotExpired_eq_ok, ensure_eq_ok,
    pure_eq_ok]
  constructor
  · rintro ⟨_, ⟨hsigned, hstored, howner⟩, _, hactive, _, hstarted, _, hunexpired, rfl⟩
    exact ⟨hsigned, hstored, howner, hactive, hstarted, hunexpired⟩
  · rintro ⟨hsigned, hstored, howner, hactive, hstarted, hunexpired⟩
    exact ⟨b, ⟨hsigned, hstored, howner⟩, (), hactive, (), hstarted, (), hunexpired, rfl⟩

/-- A single spend fits in what the window allows, the credit included. -/
def AssetBudget.Covers (a : AssetBudget) (x : ℤ) : Prop :=
  ∃ c, a.capacity = .ok c ∧ IsI128 (a.spent + x) ∧ a.spent + x ≤ c

/-- A leg of a batch fits in the limit. -/
def AssetBudget.Within (a : AssetBudget) (x : ℤ) : Prop :=
  IsI128 (a.spent + x) ∧ a.spent + x ≤ a.limit

theorem AssetBudget.Sound.within_iff {a : AssetBudget} {x : ℤ} (h : a.Sound) (hx : 0 < x) :
    a.Within x ↔ a.spent + x ≤ a.limit := by
  have hspent := h.spent.1
  have hlimit := h.limit.2
  have hmin : i128Min ≤ 0 := by decide
  unfold Within IsI128
  omega

theorem AssetBudget.Sound.covers_iff {a : AssetBudget} {x : ℤ} (h : a.Sound) (hx : 0 < x) :
    a.Covers x ↔ a.room ≤ i128Max ∧ a.spent + x ≤ a.room := by
  have hspent := h.spent.1
  have hmin : i128Min ≤ 0 := by decide
  unfold Covers IsI128
  simp only [AssetBudget.capacity_eq_ok h]
  constructor
  · rintro ⟨_, ⟨hroom, rfl⟩, _, hle⟩
    exact ⟨hroom, hle⟩
  · rintro ⟨hroom, hle⟩
    exact ⟨_, ⟨hroom, rfl⟩, by omega, hle⟩

/-- **What a single spend does.** -/
theorem checkAndRecordSpend_eq_ok {amount : ℤ} :
    checkAndRecordSpend env s caller id token amount = .ok s' ↔
      0 < amount ∧ (∃ b, Spendable env s caller id b) ∧
      ∃ a, s.assetBudget id token = some a ∧
        (a.windowTransition env.timestamp.toNat).Covers amount ∧
        s' = s.storeAsset id token ((a.windowTransition env.timestamp.toNat).take amount) := by
  simp only [checkAndRecordSpend, requireSpend, bind_eq_ok, intoSpend_eq_ok,
    requirePositiveAmount_eq_ok, requireSpendable_eq_ok, loadAsset_eq_ok, checkedAdd_eq_ok,
    ensure_eq_ok, pure_eq_ok, AssetBudget.Covers, AssetBudget.take]
  constructor
  · rintro ⟨_, hpos, b, hb, a, ha, c, hc, _, ⟨hrange, rfl⟩, _, hle, rfl⟩
    exact ⟨hpos, ⟨b, hb⟩, a, ha, ⟨c, hc, hrange, hle⟩, rfl⟩
  · rintro ⟨hpos, ⟨b, hb⟩, a, ha, ⟨c, hc, hrange, hle⟩, rfl⟩
    exact ⟨(), hpos, b, hb, a, ha, c, hc, _, ⟨hrange, rfl⟩, (), hle, rfl⟩

/-! ## Legs -/

/-- The legs of a batch, each with the record it leaves: its token has a record, and what is
spent of it `fits`. -/
def Legs (now : ℕ) (fits : AssetBudget → ℤ → Prop) (s : State) (id : String)
    (spends : List AssetSpend) (settled : List (Address × AssetBudget)) : Prop :=
  spends.Forall₂ (fun spend leg => 0 < spend.amount.1 ∧ ∃ a, s.assetBudget id spend.token = some a ∧
    fits (a.windowTransition now) spend.amount ∧
    leg = (spend.token, (a.windowTransition now).take spend.amount)) settled

/-- **What the first pass of a batch checks.** -/
theorem settleLegs_eq_ok {seen : List Address} {spends : List AssetSpend}
    {settled : List (Address × AssetBudget)} :
    settleLegs env s id seen spends = .ok settled ↔
      Legs env.timestamp.toNat AssetBudget.Within s id spends settled ∧
      (spends.map AssetSpend.token).Nodup ∧ ∀ t ∈ seen, t ∉ spends.map AssetSpend.token := by
  induction spends generalizing seen settled with
  | nil =>
      simp [settleLegs, Legs, eq_comm]
  | cons spend rest ih =>
      simp only [settleLegs, requireSpend, bind_eq_ok, intoSpend_eq_ok,
        requirePositiveAmount_eq_ok, ensure_eq_ok, loadAsset_eq_ok, checkedAdd_eq_ok, pure_eq_ok,
        ih, Legs, List.forall₂_cons_left_iff, List.map_cons, List.nodup_cons, List.mem_cons]
      constructor
      · rintro ⟨_, hpos, _, hfresh, a, ha, _, ⟨hrange, rfl⟩, _, hle, later,
          ⟨hrest, hnodup, hseen⟩, rfl⟩
        refine ⟨⟨_, _, ⟨hpos, a, ha, ⟨hrange, hle⟩, rfl⟩, hrest, rfl⟩, ⟨?_, hnodup⟩, ?_⟩
        · exact hseen spend.token (by simp)
        · rintro t ht (rfl | hlater)
          · exact hfresh ht
          · exact hseen t (List.mem_append_left _ ht) hlater
      · rintro ⟨⟨leg, later, ⟨hpos, a, ha, ⟨hrange, hle⟩, rfl⟩, hrest, rfl⟩, ⟨hnew, hnodup⟩, hseen⟩
        refine ⟨(), hpos, (), ?_, a, ha, _, ⟨hrange, rfl⟩, (), hle, later,
          ⟨hrest, hnodup, ?_⟩, rfl⟩
        · intro ht
          exact hseen _ ht (.inl rfl)
        · intro t ht
          rcases List.mem_append.1 ht with hold | hlast
          · exact fun hlater => hseen t hold (.inr hlater)
          · rw [List.mem_singleton.1 hlast]
            exact hnew

/-- Write the legs, one after the other. -/
def storeLegs (id : String) (s : State) (settled : List (Address × AssetBudget)) : State :=
  settled.foldl (fun s leg => s.storeAsset id leg.1 leg.2) s

theorem checkAndRecordBatchSpend_eq_ok {spends : List AssetSpend} :
    checkAndRecordBatchSpend env s caller id spends = .ok s' ↔
      (spends ≠ [] ∧ spends.length ≤ maxBatchTokens) ∧ (∃ b, Spendable env s caller id b) ∧
      ∃ settled, (Legs env.timestamp.toNat AssetBudget.Within s id spends settled ∧
        (spends.map AssetSpend.token).Nodup) ∧ s' = storeLegs id s settled := by
  simp only [checkAndRecordBatchSpend, requireSpend, bind_eq_ok, ensure_eq_ok,
    requireSpendable_eq_ok, settleLegs_eq_ok, pure_eq_ok]
  constructor
  · rintro ⟨_, hlength, b, hb, settled, ⟨hlegs, hnodup, _⟩, rfl⟩
    exact ⟨hlength, ⟨b, hb⟩, settled, ⟨hlegs, hnodup⟩, rfl⟩
  · rintro ⟨hlength, ⟨b, hb⟩, settled, ⟨hlegs, hnodup⟩, rfl⟩
    exact ⟨(), hlength, b, hb, settled, ⟨hlegs, hnodup, by simp⟩, rfl⟩

/-! ## What a call does to a record -/

/-- The call registers a limit for the token. -/
def Call.Registers (id : String) (token : Address) : Call → Prop
  | .setBudgetLimit _ id' token' _ _ | .setBudgetLimitWithRollover _ id' token' _ _ _ _ _ =>
      id' = id ∧ token' = token
  | _ => False

/-- Where the record `a` that a call leaves comes from. -/
inductive AssetEffect (now : UInt64) (call : Call) (id : String) (token : Address) (s : State)
    (a : AssetBudget) : Prop
  | kept : s.assetBudget id token = some a → AssetEffect now call id token s a
  | registered : call.Registers id token → a.Sound → AssetEffect now call id token s a
  | settled (a₀ : AssetBudget) : s.assetBudget id token = some a₀ →
      a.windowSeconds = a₀.windowSeconds →
      a.windowStart = (a₀.windowTransition now.toNat).windowStart → (a₀.Sound → a.Sound) →
      AssetEffect now call id token s a

section Effects

variable {call : Call} {a : AssetBudget}

theorem AssetEffect.frame (hframe : s'.assetBudget = s.assetBudget)
    (h : s'.assetBudget id token = some a) : AssetEffect env.timestamp call id token s a :=
  .kept (hframe ▸ h)

/-- A call that wrote one record. -/
theorem AssetEffect.one {token' : Address} {a' : AssetBudget}
    (hwrite : id = id' → token = token' → AssetEffect env.timestamp call id token s a')
    (h : (s.storeAsset id' token' a').assetBudget id token = some a) :
    AssetEffect env.timestamp call id token s a := by
  by_cases hsame : id = id' ∧ token = token'
  · obtain ⟨rfl, rfl⟩ := hsame
    rw [storeAsset_assetBudget, Option.some.injEq] at h
    subst h
    exact hwrite rfl rfl
  · rw [storeAsset_assetBudget_ne hsame] at h
    exact .kept h

/-- A record that caught up, and may have been spent from. -/
theorem AssetEffect.catchUp {a₀ : AssetBudget} {x : ℤ} (ha₀ : s.assetBudget id token = some a₀)
    (hx : 0 ≤ x) (hroom : x = 0 ∨ (a₀.windowTransition env.timestamp.toNat).spent + x ≤ i128Max) :
    AssetEffect env.timestamp call id token s
      ((a₀.windowTransition env.timestamp.toNat).take x) := by
  refine .settled a₀ ha₀ AssetBudget.windowTransition_terms.2.1 rfl ?_
  intro hsound
  have hsettled : (a₀.windowTransition env.timestamp.toNat).Sound := hsound.windowTransition
  refine hsettled.take hx ?_
  rcases hroom with rfl | hroom
  · rw [add_zero]
    exact hsettled.spent.2
  · exact hroom

/-- The records a batch writes are those of its legs. -/
theorem storeLegs_assetBudget {settled : List (Address × AssetBudget)}
    (h : (storeLegs id' s settled).assetBudget id token = some a) :
    s.assetBudget id token = some a ∨ (id = id' ∧ (token, a) ∈ settled) := by
  induction settled generalizing s with
  | nil => exact .inl h
  | cons leg rest ih =>
      rcases ih h with hstored | ⟨hid, hlater⟩
      · by_cases hsame : id = id' ∧ token = leg.1
        · obtain ⟨rfl, rfl⟩ := hsame
          rw [storeAsset_assetBudget, Option.some.injEq] at hstored
          subst hstored
          exact .inr ⟨rfl, List.mem_cons_self ..⟩
        · rw [storeAsset_assetBudget_ne hsame] at hstored
          exact .inl hstored
      · exact .inr ⟨hid, List.mem_cons_of_mem _ hlater⟩

theorem registerAsset_ok {limit : I128} {windowSeconds : ℕ} {enabled : Bool} {bps cap : ℤ}
    (hlimit : 0 ≤ limit.1) (hcap : 0 ≤ cap ∧ cap ≤ i128Max)
    (h : registerAsset env s caller id token limit windowSeconds enabled bps cap = .ok s') :
    ∃ a, a.Sound ∧ s' = s.storeAsset id token a := by
  simp only [registerAsset, bind_eq_ok, pure_eq_ok] at h
  obtain ⟨_, _, _, _, _, _, rfl⟩ := h
  have hzero : (0 : ℤ) ≤ 0 ∧ (0 : ℤ) ≤ i128Max := by decide
  exact ⟨_, ⟨⟨hlimit, limit.2.2⟩, hzero, hzero, hcap, fun _ => rfl⟩, rfl⟩

theorem setAssetRolloverConfig_ok {enabled : Bool} {bps cap : I128}
    (h : setAssetRolloverConfig env s caller id token enabled bps cap = .ok s') :
    ∃ a₀ a, s.assetBudget id token = some a₀ ∧ a.windowSeconds = a₀.windowSeconds ∧
      a.windowStart = (a₀.windowTransition env.timestamp.toNat).windowStart ∧
      (a₀.Sound → a.Sound) ∧ s' = s.storeAsset id token a := by
  simp only [setAssetRolloverConfig, requireValidLimit, bind_eq_ok, require_eq_ok,
    loadAsset_eq_ok, pure_eq_ok] at h
  obtain ⟨_, hcap, _, _, _, _, _, _, _, _, a₀, ha₀, rfl⟩ := h
  refine ⟨a₀, _, ha₀, ?_, ?_, ?_, rfl⟩
  · exact AssetBudget.windowTransition_terms.2.1
  · rfl
  intro hsound
  have hsettled : (a₀.windowTransition env.timestamp.toNat).Sound := hsound.windowTransition
  obtain ⟨hlimit, hspent, hcredit, _, _⟩ := hsettled
  have hzero : (0 : ℤ) ≤ 0 ∧ (0 : ℤ) ≤ i128Max := by decide
  refine ⟨hlimit, hspent, ?_, ⟨hcap, cap.2.2⟩, ?_⟩
  · dsimp only
    split
    · exact hzero
    · split
      · exact ⟨hcap, cap.2.2⟩
      · exact hcredit
  · intro hdisabled
    have hoff : enabled = false := hdisabled
    simp [hoff]

theorem getAssetBudget_ok {a₀ : AssetBudget} (h : getAssetBudget env s id token = .ok (a₀, s')) :
    ∃ a, s.assetBudget id token = some a ∧ a₀ = a.windowTransition env.timestamp.toNat ∧
      s' = s.storeAsset id token a₀ := by
  simp only [getAssetBudget, bind_eq_ok, loadAsset_eq_ok, pure_eq_ok, Prod.mk.injEq] at h
  obtain ⟨a, ha, rfl, rfl⟩ := h
  exact ⟨a, ha, rfl, rfl⟩

theorem assetRemaining_ok {x : ℤ} (h : assetRemaining env s id token = .ok (x, s')) :
    ∃ a, s.assetBudget id token = some a ∧
      s' = s.storeAsset id token (a.windowTransition env.timestamp.toNat) := by
  simp only [assetRemaining, bind_eq_ok] at h
  obtain ⟨⟨a₀, s₁⟩, hget, b, _, h⟩ := h
  obtain ⟨a, ha, rfl, rfl⟩ := getAssetBudget_ok hget
  refine ⟨a, ha, ?_⟩
  split at h
  · cases h
    rfl
  · simp only [bind_eq_ok, pure_eq_ok, Prod.mk.injEq] at h
    obtain ⟨_, _, _, _, _, rfl⟩ := h
    rfl

theorem AssetEffect.query {a₀ : AssetBudget} (ha₀ : s.assetBudget id token = some a₀) :
    AssetEffect env.timestamp call id token s (a₀.windowTransition env.timestamp.toNat) := by
  have hcaught : AssetEffect env.timestamp call id token s
      ((a₀.windowTransition env.timestamp.toNat).take 0) := .catchUp ha₀ le_rfl (.inl rfl)
  rwa [AssetBudget.take, add_zero] at hcaught

/-- **A record is made by a registration**, and every other call that writes it lets its
window catch up. -/
theorem exec_asset {call : Call} {a : AssetBudget} (h : exec env s call = .ok s')
    (ha : s'.assetBudget id token = some a) :
    AssetEffect env.timestamp call id token s a := by
  cases call with
  | initializeContract admin =>
      simp only [exec, initializeContract, bind_eq_ok, pure_eq_ok] at h
      obtain ⟨_, _, rfl⟩ := h
      exact .kept ha
  | allocate owner id limit period rolloverEnabled expiresAt =>
      obtain ⟨_, b, _, rfl⟩ := allocateInternal_ok (by decide) h
      exact .kept ha
  | allocateWithDeficit owner id limit period rolloverEnabled allowDeficit expiresAt =>
      obtain ⟨_, b, _, rfl⟩ := allocateInternal_ok (by decide) h
      exact .kept ha
  | allocateScheduled owner id limit period rolloverEnabled startAt expiresAt =>
      obtain ⟨_, b, _, rfl⟩ := allocateInternal_ok (by decide) h
      exact .kept ha
  | allocateWithRollover owner id limit period rolloverEnabled rolloverBps maxRolloverCap
      expiresAt =>
      simp only [exec, allocateWithRollover, bind_eq_ok] at h
      obtain ⟨_, _, _, _, h⟩ := h
      obtain ⟨_, b, _, rfl⟩ := allocateInternal_ok maxRolloverCap.2.2 h
      exact .kept ha
  | setRecurrence caller id period periodSeconds rolloverEnabled rolloverCap rolloverMaxBps =>
      exact .frame (setRecurrence_ok h).assets ha
  | setRolloverConfig caller id rolloverEnabled rolloverBps maxRolloverCap =>
      exact .frame (setRolloverConfig_ok h).assets ha
  | reset caller id =>
      exact .frame (reset_ok h).assets ha
  | rollover caller id =>
      exact .frame (rollover_ok h).assets ha
  | setLimit caller id newLimit =>
      exact .frame (setLimit_ok h).assets ha
  | freeze caller id =>
      exact .frame (freeze_ok h).assets ha
  | unfreeze caller id =>
      exact .frame (unfreeze_ok h).assets ha
  | archive caller id =>
      exact .frame (archive_ok h).assets ha
  | transferAllocation caller srcId dstId amount =>
      obtain ⟨_, _, _, _, _, _, _, _, rfl⟩ := transferAllocation_ok h
      exact .kept ha
  | setBudgetLimit caller id' token' limit windowSeconds =>
      simp only [exec, setBudgetLimit, requireValidLimit, bind_eq_ok, require_eq_ok] at h
      obtain ⟨_, hlimit, h⟩ := h
      obtain ⟨a', hsound, rfl⟩ := registerAsset_ok hlimit (by decide) h
      exact AssetEffect.one (fun hid htoken => .registered ⟨hid.symm, htoken.symm⟩ hsound) ha
  | setBudgetLimitWithRollover caller id' token' limit windowSeconds rolloverEnabled rolloverBps
      maxRolloverCap =>
      simp only [exec, setBudgetLimitWithRollover, requireValidLimit, bind_eq_ok,
        require_eq_ok] at h
      obtain ⟨_, hlimit, _, hcap, _, _, h⟩ := h
      obtain ⟨a', hsound, rfl⟩ := registerAsset_ok hlimit ⟨hcap, maxRolloverCap.2.2⟩ h
      exact AssetEffect.one (fun hid htoken => .registered ⟨hid.symm, htoken.symm⟩ hsound) ha
  | setAssetRolloverConfig caller id' token' rolloverEnabled rolloverBps maxRolloverCap =>
      obtain ⟨a₀, a', ha₀, hwindow, hstart, hsound, rfl⟩ := setAssetRolloverConfig_ok h
      refine AssetEffect.one ?_ ha
      rintro rfl rfl
      exact .settled a₀ ha₀ hwindow hstart hsound
  | checkAndRecordSpend caller id' token' amount =>
      obtain ⟨hpos, _, a₀, ha₀, ⟨_, _, hrange, _⟩, rfl⟩ :=
        checkAndRecordSpend_eq_ok.1 (ofSpend_eq_ok.1 h)
      refine AssetEffect.one ?_ ha
      rintro rfl rfl
      exact .catchUp ha₀ hpos.le (.inr hrange.2)
  | checkAndRecordBatchSpend caller id' spends =>
      obtain ⟨_, _, settled, ⟨hlegs, _⟩, rfl⟩ :=
        checkAndRecordBatchSpend_eq_ok.1 (ofSpend_eq_ok.1 h)
      rcases storeLegs_assetBudget ha with hkept | ⟨rfl, hleg⟩
      · exact .kept hkept
      · obtain ⟨i, hi, hget⟩ := List.getElem_of_mem hleg
        have hi' : i < spends.length := by
          rw [hlegs.length_eq]
          exact hi
        obtain ⟨hpos, a₀, ha₀, ⟨hrange, _⟩, hleg'⟩ := hlegs.get hi' hi
        rw [List.get_eq_getElem, hget, Prod.mk.injEq] at hleg'
        obtain ⟨rfl, rfl⟩ := hleg'
        exact .catchUp ha₀ hpos.le (.inr hrange.2)
  | getAssetBudget id' token' =>
      obtain ⟨a', h⟩ := snd_map_ok h
      obtain ⟨a₀, ha₀, rfl, rfl⟩ := getAssetBudget_ok h
      refine AssetEffect.one ?_ ha
      rintro rfl rfl
      exact .query ha₀
  | assetRemaining id' token' =>
      obtain ⟨x, h⟩ := snd_map_ok h
      obtain ⟨a₀, ha₀, rfl⟩ := assetRemaining_ok h
      refine AssetEffect.one ?_ ha
      rintro rfl rfl
      exact .query ha₀
  | consume caller id amount =>
      obtain ⟨_, h⟩ := snd_map_ok h
      exact .frame (consume_ok (ofSpend_eq_ok.1 h)).assets ha
  | release caller id amount =>
      obtain ⟨_, h⟩ := snd_map_ok h
      exact .frame (release_ok h).assets ha
  | remaining id =>
      obtain ⟨_, h⟩ := snd_map_ok h
      exact .frame (remaining_ok h).assets ha

/-- **Every record of a token is sound**, in every state a run reaches. -/
theorem asset_sound_reachable {a : AssetBudget} (h : (machine here).Reachable s)
    (ha : s.assetBudget id token = some a) : a.Sound := by
  have hall : ∀ id token a, s.assetBudget id token = some a → a.Sound := by
    refine h.invariant (P := fun s => ∀ id token a, s.assetBudget id token = some a → a.Sound) ?_ ?_
    · intro s hfresh id token a ha
      rw [hfresh.assetBudget id token] at ha
      cases ha
    · intro i s s' hs hstep id token a ha
      cases i with
      | outside t w =>
          have hsame : s' = s := hstep
          subst hsame
          exact hs id token a ha
      | invoke env call =>
          cases exec_asset hstep ha with
          | kept hkept => exact hs id token a hkept
          | registered _ hsound => exact hsound
          | settled a₀ ha₀ _ _ hsound => exact hsound (hs id token a₀ ha₀)
  exact hall id token a ha

end Effects

end BudgetContract
end Astroid
