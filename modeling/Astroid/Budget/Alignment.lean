import Astroid.Budget.Assets
import Astroid.Budget.Ceilings

/-!
# Windows on their schedule

Settling moves the start of a window by whole windows, to the one that the time of the
settlement is in.  The windows of a budget and of its tokens are counters over fixed
periods (`settle_counter`, `counter_windowTransition`), and only a reset, a new
recurrence or a new registration starts them anew: every other run keeps them on the
schedule they had (`windows_never_drift`).
-/

namespace Astroid
namespace BudgetContract

open Outcome Periods Machine Budget

variable {here : Address} {env : Env here} {s s' : State} {id : String} {token : Address}
  {b b' : Budget} {a a' : AssetBudget} {call : Call} {now : UInt64} {w : ℕ}

/-! ## Budgets -/

/-- The start of the window that `now` is in, whole windows past `start`. -/
structure OnSchedule (start w now start' : ℕ) : Prop where
  whole : start' = start + (now - start) / w * w
  begun : start' ≤ now
  running : now < start' + w

namespace Budget

/-- The window of the record, with what was spent in it. -/
def counter (b : Budget) : Counter := ⟨b.windowStart, b.spent⟩

/-- The length of the windows, zero for a budget that has none. -/
def windowLength (b : Budget) : ℕ := b.window.getD 0

theorem windowLength_eq (hw : b.window = some w) : b.windowLength = w := by
  simp [windowLength, hw]

/-- **The hook lets the window catch up.** -/
theorem settle_counter (h : b.WellFormed) (hsettle : b.settle now = .ok b') :
    b'.counter = b.counter.settle b.windowLength now.toNat ∧ b'.window = b.window ∧
      b'.expiresAt = b.expiresAt := by
  cases (settle_eq_ok h).1 hsettle with
  | same hopen hsame =>
      subst hsame
      refine ⟨?_, rfl, rfl⟩
      cases hw : b'.window with
      | none => simp [windowLength, hw, counter, Counter.settle]
      | some w =>
          rw [windowLength_eq hw, Counter.settle_eq_self]
          exact (hopen.running w hw).2
  | closed w periods credit deficit hdue _ hclosed =>
      subst hclosed
      refine ⟨?_, rfl, rfl⟩
      obtain ⟨_, hpos, _⟩ := hdue.bounds
      rw [windowLength_eq hdue.window]
      simp only [counter, reopened, Counter.settle, ← hdue.periods_eq, Counter.mk.injEq, true_and]
      rw [if_neg (by omega)]

/-- A window whose end is no time cannot be compared with the clock. -/
theorem settle_endless (hunexpired : b.Unexpired now.toNat) (hw : b.window = some w)
    (hend : 2 ^ 64 ≤ b.windowStart + w) : b.settle now = .error (.error .overflow) := by
  have hu : b.requireNotExpired now.toNat = .ok () := requireNotExpired_eq_ok.2 hunexpired
  have hover : checkedAddSeconds b.windowStart w = .error (.error .overflow) :=
    if_neg (not_lt.2 hend)
  simp only [settle, windowTransition, hu, calculateRollover, hw, isWindowExpired, hover, ok_bind]
  rfl

/-- Where a settlement leaves the windows. -/
theorem settle_onSchedule (h : b.WellFormed) (hstart : b.windowStart ≤ now.toNat)
    (hsettle : b.settle now = .ok b') : b'.Unexpired now.toNat ∧ b'.window = b.window ∧
      ∀ w, b.window = some w → OnSchedule b.windowStart w now.toNat b'.windowStart := by
  obtain ⟨hcounter, hwindow, hexpires⟩ := settle_counter h hsettle
  refine ⟨?_, hwindow, ?_⟩
  · unfold Unexpired
    rw [hexpires]
    cases (settle_eq_ok h).1 hsettle with
    | same hopen _ => exact hopen.unexpired
    | closed _ _ _ _ hdue => exact hdue.unexpired
  · intro w hw
    rw [windowLength_eq hw] at hcounter
    have hbounds := Counter.settle_bounds (c := b.counter) (window_pos hw) hstart
    rw [← hcounter] at hbounds
    exact ⟨congrArg Counter.start hcounter, hbounds.1, hbounds.2⟩

/-- **A second settlement** at the same time changes nothing; it fails where the window it
finds has no end. -/
theorem settle_twice (h : b.WellFormed) (hw : b.window = some w)
    (hstart : b.windowStart ≤ now.toNat) (hsettle : b.settle now = .ok b') :
    b'.settle now = .ok b' ∨
      (2 ^ 64 ≤ b'.windowStart + w ∧ b'.settle now = .error (.error .overflow)) := by
  obtain ⟨hunexpired, hwindow, hschedule⟩ := settle_onSchedule h hstart hsettle
  have hw' : b'.window = some w := hwindow.trans hw
  by_cases hend : b'.windowStart + w < 2 ^ 64
  · have hopen : b'.Open now.toNat := by
      refine ⟨hunexpired, ?_⟩
      intro v hv
      rw [hw', Option.some.injEq] at hv
      subst hv
      exact ⟨hend, (hschedule w hw).running⟩
    exact .inl hopen.windowTransition
  · exact .inr ⟨not_lt.1 hend, settle_endless hunexpired hw' (not_lt.1 hend)⟩

end Budget

/-! ## Tokens -/

namespace AssetBudget

/-- The window of a token catches up, however far it is behind. -/
theorem windowStart_windowTransition :
    (a.windowTransition now.toNat).windowStart = a.windowStart
      + (now.toNat - a.windowStart) / a.windowSeconds * a.windowSeconds :=
  congrArg Counter.start (counter_windowTransition now.toNat_lt)

/-- **A second settlement** of a token changes nothing, even after a spend. -/
theorem windowTransition_take {x : ℤ} :
    ((a.windowTransition now.toNat).take x).windowTransition now.toNat
      = (a.windowTransition now.toNat).take x := by
  refine windowTransition_running ?_
  show (a.windowTransition now.toNat).windowSeconds = 0 ∨
    now.toNat - (a.windowTransition now.toNat).windowStart
      < (a.windowTransition now.toNat).windowSeconds
  rw [windowTransition_terms.2.1, windowStart_windowTransition]
  rcases Nat.eq_zero_or_pos a.windowSeconds with hzero | hpos
  · exact .inl hzero
  · have hlt := Nat.lt_div_mul_add (a := now.toNat - a.windowStart) hpos
    exact .inr (by omega)

theorem windowTransition_twice :
    (a.windowTransition now.toNat).windowTransition now.toNat = a.windowTransition now.toNat := by
  have htwice : ((a.windowTransition now.toNat).take 0).windowTransition now.toNat
      = (a.windowTransition now.toNat).take 0 := windowTransition_take
  rwa [take, add_zero] at htwice

end AssetBudget

/-! ## Runs -/

/-- The call starts the windows of the budget anew. -/
def Call.Restarts (id : String) : Call → Prop
  | .reset _ id' | .setRecurrence _ id' _ _ _ _ _ => id' = id
  | _ => False

/-- The windows of `b'` are on the schedule of `b`. -/
def Budget.Onward (b b' : Budget) : Prop :=
  b'.window = b.window ∧ b'.windowStart ≡ b.windowStart [MOD b.windowLength]

namespace Budget

theorem Onward.refl : b.Onward b := ⟨rfl, Nat.ModEq.refl _⟩

theorem Onward.trans {b₁ b₂ b₃ : Budget} (h : b₁.Onward b₂) (h' : b₂.Onward b₃) :
    b₁.Onward b₃ := by
  obtain ⟨hwindow, hstart⟩ := h
  obtain ⟨hwindow', hstart'⟩ := h'
  have hlength : b₂.windowLength = b₁.windowLength := by
    unfold windowLength
    rw [hwindow]
  rw [hlength] at hstart'
  exact ⟨hwindow'.trans hwindow, hstart'.trans hstart⟩

theorem onward_settle (h : b.WellFormed) (hsettle : b.settle now = .ok b') : b.Onward b' := by
  obtain ⟨hcounter, hwindow, _⟩ := settle_counter h hsettle
  refine ⟨hwindow, ?_⟩
  have hstart : b'.windowStart = (b.counter.settle b.windowLength now.toNat).start :=
    congrArg Counter.start hcounter
  rw [hstart]
  exact Counter.settle_modEq

end Budget

/-- What a call does to a record keeps its schedule, unless it restarts it. -/
theorem Effect.onward (h : b.WellFormed) (hkeeps : ¬ call.Restarts id)
    (heffect : Effect now id b call b') : b.Onward b' := by
  cases heffect with
  | kept => exact .refl
  | freeze => exact .refl
  | unfreeze => exact .refl
  | archive => exact .refl
  | reset => exact absurd rfl hkeeps
  | transferOut => exact .refl
  | transferIn => exact .refl
  | setRecurrence => exact absurd rfl hkeeps
  | setRolloverConfig hsettle _ _ _ hclamp =>
      obtain ⟨credit, rfl, _⟩ := clampCredit_ok hclamp
      have hon := onward_settle h hsettle
      exact hon
  | setLimit hsettle =>
      have hon := onward_settle h hsettle
      exact hon
  | rollover hsettle => exact onward_settle h hsettle
  | consume hsettle =>
      have hon := onward_settle h hsettle
      exact hon
  | release hsettle =>
      have hon := onward_settle h hsettle
      exact hon
  | remaining hsettle => exact onward_settle h hsettle
  | unsettled => exact .refl

/-- The windows of `a'` are on the schedule of `a`. -/
def AssetBudget.Onward (a a' : AssetBudget) : Prop :=
  a'.windowSeconds = a.windowSeconds ∧ a'.windowStart ≡ a.windowStart [MOD a.windowSeconds]

theorem AssetBudget.Onward.refl : a.Onward a := ⟨rfl, Nat.ModEq.refl _⟩

theorem AssetBudget.Onward.trans {a₁ a₂ a₃ : AssetBudget} (h : a₁.Onward a₂) (h' : a₂.Onward a₃) :
    a₁.Onward a₃ := by
  obtain ⟨hlength, hstart⟩ := h
  obtain ⟨hlength', hstart'⟩ := h'
  rw [hlength] at hstart'
  exact ⟨hlength'.trans hlength, hstart'.trans hstart⟩

theorem AssetEffect.onward (hkeeps : ¬ call.Registers id token)
    (heffect : AssetEffect now call id token s a') :
    ∃ a, s.assetBudget id token = some a ∧ a.Onward a' := by
  cases heffect with
  | kept hkept => exact ⟨a', hkept, .refl⟩
  | registered hregisters => exact absurd hregisters hkeeps
  | settled a₀ ha₀ hlength hstart =>
      refine ⟨a₀, ha₀, hlength, ?_⟩
      rw [hstart, AssetBudget.windowStart_windowTransition]
      simp [Nat.ModEq]

/-- An input of a run that is no call as `p` says. -/
def Quiet (p : Call → Prop) : Inputs here → Prop
  | .invoke _ call => ¬ p call
  | .outside _ _ => True

/-- Runs keep the schedule of a budget that they do not restart. -/
theorem run_onward {tr₁ tr₂ : List (Entry State (Inputs here))} {t : ℕ}
    (h : (machine here).Path anyInput (tr₁ ++ tr₂) s t)
    (hquiet : ∀ e ∈ tr₂, Quiet (Call.Restarts id) e.input) :
    ∀ e ∈ tr₂, ∀ b, e.pre.budget id = some b → ∃ b', s.budget id = some b' ∧ b.Onward b' := by
  refine h.since (R := fun s s' => ∀ b, s.budget id = some b → ∃ b', s'.budget id = some b' ∧
    b.Onward b') ?_ ?_
  · intro s₁ s₂ s₃ h₁ h₂ b hb
    obtain ⟨b₂, hb₂, hon⟩ := h₁ b hb
    obtain ⟨b₃, hb₃, hon'⟩ := h₂ b₂ hb₂
    exact ⟨b₃, hb₃, hon.trans hon'⟩
  · intro e he b hb
    have hreach := h.reachable_of_mem (List.mem_append_right tr₁ he)
    have hstep := h.stepped (List.mem_append_right tr₁ he)
    have hcalm := hquiet e he
    obtain ⟨pre, input, post⟩ := e
    cases input with
    | outside time world =>
        have hsame : post = pre := hstep
        subst hsame
        exact ⟨b, hb, .refl⟩
    | invoke env call =>
        have hexec : exec env pre call = .ok post := hstep
        obtain ⟨b', hb', heffect⟩ := exec_effect hb hexec
        exact ⟨b', hb', heffect.onward (sound_reachable hreach hb).wellFormed hcalm⟩

/-- Runs keep the schedule of a token that they do not register. -/
theorem run_asset_onward {tr₁ tr₂ : List (Entry State (Inputs here))} {t : ℕ}
    (h : (machine here).Path anyInput (tr₁ ++ tr₂) s t)
    (hquiet : ∀ e ∈ tr₂, Quiet (Call.Registers id token) e.input) :
    ∀ e ∈ tr₂, ∀ a', s.assetBudget id token = some a' →
      ∃ a, e.pre.assetBudget id token = some a ∧ a.Onward a' := by
  refine h.since (R := fun s s' => ∀ a', s'.assetBudget id token = some a' →
    ∃ a, s.assetBudget id token = some a ∧ a.Onward a') ?_ ?_
  · intro s₁ s₂ s₃ h₁ h₂ a₃ ha₃
    obtain ⟨a₂, ha₂, hon'⟩ := h₂ a₃ ha₃
    obtain ⟨a₁, ha₁, hon⟩ := h₁ a₂ ha₂
    exact ⟨a₁, ha₁, hon.trans hon'⟩
  · intro e he a' ha'
    have hstep := h.stepped (List.mem_append_right tr₁ he)
    have hcalm := hquiet e he
    obtain ⟨pre, input, post⟩ := e
    cases input with
    | outside time world =>
        have hsame : post = pre := hstep
        subst hsame
        exact ⟨a', ha', .refl⟩
    | invoke env call =>
        have hexec : exec env pre call = .ok post := hstep
        exact (exec_asset hexec ha').onward hcalm

/-- Ten seconds at a time for the budget and for a token. -/
def ticking : Script Call :=
  quartered ⟨100, isI128_hundred⟩ ++
    [(signedBy 0 [1], .setBudgetLimit (.account 1) "eng" (.account 2) ⟨100, isI128_hundred⟩ 10)]

/-- Both are visited in their third window. -/
def visited : Script Call :=
  [(signedBy 25 [1], .rollover (.account 1) "eng"),
    (signedBy 25 [1], .assetRemaining "eng" (.account 2))]

/-- The record of the token after `ticking`. -/
def tickingAsset : AssetBudget where
  limit := 100
  spent := 0
  windowSeconds := 10
  windowStart := 0
  rolloverEnabled := false
  rolloverCredit := 0
  rolloverBps := 0
  maxRolloverCap := 0

end BudgetContract
end Astroid
