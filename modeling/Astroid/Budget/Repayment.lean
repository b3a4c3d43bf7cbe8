import Astroid.Budget.Effects

/-!
# Repayment

A deficit lowers the ceiling of the windows after it, and nothing ever lowers the
deficit.  So what one window overspends is taken out of all later ones: the runs in
which it is repaid once (`RepaidOnce`) are those that do not reach the second window
after it (`repaidOnce_iff`).
-/

namespace Astroid
namespace BudgetContract

open Outcome Budget Machine

/-! ## The windows of a run -/

/-- By how much more was spent than the window allowed. -/
def Budget.overspend (b : Budget) : ℤ := max 0 (b.spent - b.capacity)

/-- The windows of length `w` that a step opened, idle ones too: for each the overspend of the
window before it, and the record that it was opened with. -/
def Budget.opened (b b' : Budget) (w : ℕ) : List (ℤ × Budget) :=
  (List.range ((b'.windowStart - b.windowStart) / w)).filterMap fun i =>
    match b.windowTransition (b.windowStart + (i + 1) * w) with
    | .ok r => some (if i = 0 then b.overspend else 0, r)
    | .error _ => none

/-- The windows of the budget `id` that a run opened. -/
def windows {self : Address} (id : String) (w : ℕ) (tr : List (Entry State (Inputs self))) :
    List (ℤ × Budget) :=
  tr.flatMap fun e =>
    match e.pre.budget id, e.post.budget id with
    | some b, some b' => b.opened b' w
    | _, _ => []

/-- Every window has a deficit of what the window before it overspent, and is short of the
limit by no more and no less; what the windows are short of is what was overspent. -/
structure RepaidOnce (limit : ℤ) (ws : List (ℤ × Budget)) : Prop where
  each : ∀ p ∈ ws, p.2.deficitAmount = p.1 ∧ p.2.ceiling = limit - p.1
  sum : (ws.map fun p => limit - p.2.ceiling).sum = (ws.map Prod.fst).sum

/-- The call evaluates the hook of `id` and configures nothing. -/
def Call.Uses (id : String) : Call → Prop
  | .consume _ id' _ | .release _ id' _ | .rollover _ id' | .remaining id' => id' = id
  | _ => False

/-- The call restarts or reconfigures the budget `id`. -/
def Call.Reconfigures (id : String) : Call → Prop
  | .setRecurrence _ id' _ _ _ _ _ | .setRolloverConfig _ id' _ _ _ | .reset _ id'
  | .setLimit _ id' _ => id' = id
  | .transferAllocation _ srcId dstId _ => srcId = id ∨ dstId = id
  | _ => False

/-- What an input asks of the contract. -/
def Asks {self : Address} (p : Call → Prop) : Inputs self → Prop
  | .invoke _ call => p call
  | .outside _ _ => False

section Windows

variable {b b' r : Budget} {w n : ℕ} {limit : ℤ}

theorem mem_opened {p : ℤ × Budget} :
    p ∈ b.opened b' w ↔ ∃ i < (b'.windowStart - b.windowStart) / w, ∃ r,
      b.windowTransition (b.windowStart + (i + 1) * w) = .ok r ∧
      p = (if i = 0 then b.overspend else 0, r) := by
  simp only [opened, List.mem_filterMap, List.mem_range]
  refine exists_congr fun i => and_congr_right fun _ => ?_
  cases b.windowTransition (b.windowStart + (i + 1) * w) with
  | error f => simp
  | ok r => simp [eq_comm]

theorem repaidOnce_iff_each {ws : List (ℤ × Budget)} :
    RepaidOnce limit ws ↔
      ∀ p ∈ ws, p.2.deficitAmount = p.1 ∧ p.2.ceiling = limit - p.1 := by
  refine ⟨RepaidOnce.each, fun heach => ⟨heach, ?_⟩⟩
  refine congrArg List.sum (List.map_congr_left ?_)
  intro p hp
  rw [(heach p hp).2]
  omega

theorem repaidOnce_append {ws ws' : List (ℤ × Budget)} :
    RepaidOnce limit (ws ++ ws') ↔ RepaidOnce limit ws ∧ RepaidOnce limit ws' := by
  simp only [repaidOnce_iff_each, List.forall_mem_append]

/-- A window that is not over opens none. -/
theorem opened_same (h : b'.windowStart = b.windowStart) : b.opened b' w = [] := by
  simp [opened, h]

/-- A window that leaves no credit is opened at its boundary with the deficit that it leaves. -/
theorem boundary_eq {deficit : ℤ} (h : b.WellFormed) (hw : b.window = some w) (hn : 1 ≤ n)
    (hfits : b.windowStart + n * w < 2 ^ 64) (hunexpired : b.Unexpired (b.windowStart + n * w))
    (hcapacity : b.capacity ≤ i128Max) (hbalance : b.Balance h n 0 deficit) :
    b.windowTransition (b.windowStart + n * w)
      = .ok (b.reopened (b.windowStart + n * w) 0 deficit) :=
  (windowTransition_eq_ok h hfits).2
    (.closed w n 0 deficit (due_boundary hw hfits hunexpired hcapacity hn) hbalance rfl)

end Windows

/-! ## Uses -/

/-- What a call that reconfigures nothing did to a record. -/
inductive Use (now : UInt64) (id : String) (b : Budget) (call : Call) (b' : Budget) : Prop
  | idle (state : ResourceState) : ¬ call.Uses id → b' = { b with state := state } →
      Use now id b call b'
  | used (r : Budget) (spent : ℤ) : call.Uses id → b.settle now = .ok r →
      b' = { r with spent := spent } → 0 ≤ spent → spent ≤ i128Max →
      spent ≤ r.spent ∨ spent ≤ r.ceiling ∨ (r.allowDeficit = true ∧ r.deficitAmount = 0) →
      Use now id b call b'
  | failed : call.Uses id → now.toNat < b.windowStart ∨ (∀ r, b.settle now ≠ .ok r) → b' = b →
      Use now id b call b'

section Uses

variable {self : Address} {id : String} {now : UInt64} {call : Call} {b b' r : Budget}

theorem Call.Uses.writes (h : call.Uses id) : call.Writes id := by
  cases call with
  | consume => exact h
  | release => exact h
  | rollover => exact h
  | remaining => exact h
  | _ => exact h.elim

theorem Effect.use (hwell : b.Sound) (hkeeps : ¬ call.Reconfigures id)
    (h : Effect now id b call b') : Use now id b call b' := by
  cases h with
  | kept hnot => exact .idle b.state (fun huses => hnot huses.writes) rfl
  | freeze => exact .idle _ (fun huses => huses) rfl
  | unfreeze => exact .idle _ (fun huses => huses) rfl
  | archive => exact .idle _ (fun huses => huses) rfl
  | reset => exact absurd rfl hkeeps
  | transferOut => exact absurd (.inl rfl) hkeeps
  | transferIn => exact absurd (.inr rfl) hkeeps
  | setRecurrence => exact absurd rfl hkeeps
  | setRolloverConfig => exact absurd rfl hkeeps
  | setLimit => exact absurd rfl hkeeps
  | rollover hsettle =>
      have hspent := (hwell.settle hsettle).wellFormed.spent
      exact .used _ b'.spent rfl hsettle rfl hspent.1 hspent.2 (.inl le_rfl)
  | @consume _ amount r hsettle hpos hroom hgranted =>
      have hspent := (hwell.settle hsettle).wellFormed.spent
      exact .used _ _ rfl hsettle rfl (by omega) hroom (.inr hgranted)
  | @release _ amount r hsettle hpos hcovered =>
      have hspent := (hwell.settle hsettle).wellFormed.spent
      exact .used _ _ rfl hsettle rfl (by omega) (by omega) (.inl (by omega))
  | remaining hsettle =>
      have hspent := (hwell.settle hsettle).wellFormed.spent
      exact .used _ b'.spent rfl hsettle rfl hspent.1 hspent.2 (.inl le_rfl)
  | unsettled hwhy => exact .failed rfl hwhy rfl

end Uses

/-! ## Owing -/

/-- A record that owes `debt`, under the terms of `b₀`, and is within its limit. -/
structure Owing (b₀ : Budget) (w : ℕ) (debt : ℤ) (c : Budget) : Prop where
  sound : c.Sound
  window : c.window = some w
  allowed : c.allowDeficit = true
  disabled : c.rolloverEnabled = false
  limit : c.limit = b₀.limit
  expires : c.expiresAt = b₀.expiresAt
  deficit : c.deficitAmount = debt
  inside : c.spent ≤ c.limit

section Owing

variable {b₀ c c' r : Budget} {w n : ℕ} {debt : ℤ} {now : UInt64} {id : String} {call : Call}

theorem Owing.capacity (h : Owing b₀ w debt c) : c.capacity = c.limit := by
  unfold Budget.capacity
  rw [h.sound.credit h.disabled, add_zero]

theorem Owing.not_overspent (h : Owing b₀ w debt c) : ¬ c.Overspent := by
  rintro ⟨_, hlt⟩
  have hinside := h.inside
  rw [h.capacity] at hlt
  omega

/-- What is owed stays owed over a boundary. -/
theorem Owing.balance (h : Owing b₀ w debt c) (n : ℕ) :
    c.Balance h.sound.wellFormed n 0 debt := by
  have hdropped : c.Balance h.sound.wellFormed n 0 c.deficitAmount :=
    .dropped h.not_overspent h.disabled
  exact h.deficit ▸ hdropped

theorem Owing.unexpired (h : Owing b₀ w debt c) {t : ℕ} : c.Unexpired t ↔ b₀.Unexpired t := by
  unfold Unexpired
  rw [h.expires]

theorem Owing.reopened (h : Owing b₀ w debt c) (hdebt : debt ≤ i128Max) (h0 : 0 ≤ debt)
    (start : ℕ) : Owing b₀ w debt (c.reopened start 0 debt) := by
  obtain ⟨⟨hlimit, _, _, hcap, hmax, hbps, _⟩, _⟩ := h.sound
  have hzero : (0 : ℤ) ≤ 0 ∧ (0 : ℤ) ≤ i128Max := by decide
  exact ⟨⟨⟨hlimit, hzero, hzero, hcap, hmax, hbps, h0, hdebt⟩, fun _ => rfl⟩, h.window, h.allowed,
    h.disabled, h.limit, h.expires, rfl, hlimit.1⟩

/-- The hook leaves the window alone until it is over, and then opens a later one. -/
theorem Owing.settle (h : Owing b₀ w debt c) (hsettle : c.settle now = .ok r) :
    (now.toNat < c.windowStart + w ∧ r = c) ∨ ∃ n, 1 ≤ n ∧ b₀.Unexpired now.toNat ∧
      c.windowStart + n * w ≤ now.toNat ∧ r = c.reopened (c.windowStart + n * w) 0 debt := by
  cases (settle_eq_ok h.sound.wellFormed).1 hsettle with
  | same hopen hsame => exact .inl ⟨(hopen.running w h.window).2, hsame⟩
  | closed w' n credit deficit hdue hbalance hclosed =>
      obtain rfl := hdue.window_eq h.window
      obtain ⟨rfl, rfl⟩ := hbalance.unique (h.balance n)
      obtain ⟨_, hn, hle, _⟩ := hdue.bounds
      exact .inr ⟨n, hn, h.unexpired.1 hdue.unexpired, hle, hclosed⟩

/-- The hook settles a window that is over, unless the budget has expired. -/
theorem Owing.settles (h : Owing b₀ w debt c) (hunexpired : b₀.Unexpired now.toNat)
    (hover : c.windowStart + w ≤ now.toNat) : ∃ r, c.settle now = .ok r := by
  have hlimit := h.sound.wellFormed.limit
  have hnow := now.toNat_lt
  refine ⟨_, (settle_eq_ok h.sound.wellFormed).2 (.closed w _ 0 debt
    ⟨h.unexpired.2 hunexpired, h.window, by omega, hover, rfl, ?_⟩ (h.balance _) rfl)⟩
  rw [h.capacity]
  exact hlimit.2

/-- Nobody can spend past what is owed. -/
theorem Owing.used {spent : ℤ} (h : Owing b₀ w debt c) (hdebt : 0 < debt) (h0 : 0 ≤ spent)
    (hmax : spent ≤ i128Max)
    (hgranted : spent ≤ c.spent ∨ spent ≤ c.ceiling ∨
      (c.allowDeficit = true ∧ c.deficitAmount = 0)) :
    Owing b₀ w debt { c with spent := spent } := by
  have hinside : spent ≤ c.limit := by
    rcases hgranted with hless | hceiling | ⟨_, hnone⟩
    · exact hless.trans h.inside
    · have howed : c.allowDeficit = true ∧ 0 < c.deficitAmount := by
        rw [h.deficit]
        exact ⟨h.allowed, hdebt⟩
      rw [Budget.ceiling, if_pos howed, h.capacity, h.deficit] at hceiling
      omega
    · rw [h.deficit] at hnone
      omega
  exact ⟨h.sound.used ⟨h0, hmax⟩, h.window, h.allowed, h.disabled, h.limit, h.expires, h.deficit,
    hinside⟩

/-- What a call does to the window of a record: it is still running, or a use of the budget
opened a later one. -/
inductive Turns (b₀ : Budget) (w now : ℕ) (used : Prop) (c c' : Budget) : Prop
  | stays : (used → b₀.Unexpired now → now < c.windowStart + w) →
      c'.windowStart = c.windowStart → Turns b₀ w now used c c'
  | turned (n : ℕ) : used → b₀.Unexpired now → now < 2 ^ 64 → 1 ≤ n →
      c.windowStart + n * w ≤ now → c'.windowStart = c.windowStart + n * w →
      Turns b₀ w now used c c'

/-- **A debt is never repaid**: what a use leaves of a record that owes, owes as much. -/
theorem Owing.use (h : Owing b₀ w debt c) (hdebt : 0 < debt) (huse : Use now id c call c') :
    Owing b₀ w debt c' ∧ Turns b₀ w now.toNat (call.Uses id) c c' := by
  have hrange : debt ≤ i128Max := by
    rw [← h.deficit]
    exact h.sound.wellFormed.deficit.2
  cases huse with
  | idle state hnot hc' =>
      subst hc'
      refine ⟨⟨h.sound.staged state, h.window, h.allowed, h.disabled, h.limit, h.expires,
        h.deficit, h.inside⟩, .stays (fun huses => absurd huses hnot) rfl⟩
  | used r spent huses hsettle hc' h0 hmax hgranted =>
      subst hc'
      rcases h.settle hsettle with ⟨hrunning, rfl⟩ | ⟨n, hn, hunexpired, hle, rfl⟩
      · exact ⟨h.used hdebt h0 hmax hgranted, .stays (fun _ _ => hrunning) rfl⟩
      · exact ⟨(h.reopened hrange hdebt.le _).used hdebt h0 hmax hgranted,
          .turned n huses hunexpired now.toNat_lt hn hle rfl⟩
  | failed huses hwhy hc' =>
      subst hc'
      refine ⟨h, .stays ?_ rfl⟩
      intro _ hunexpired
      by_contra hover
      rcases hwhy with hscheduled | hfails
      · omega
      · obtain ⟨r, hr⟩ := h.settles hunexpired (not_lt.1 hover)
        exact hfails r hr

/-- A record that owes opens no window that is repaid. -/
theorem Owing.repaid_iff {used : Prop} {limit : ℤ} {now : ℕ} (h : Owing b₀ w debt c)
    (hdebt : 0 < debt) (hturns : Turns b₀ w now used c c') :
    RepaidOnce limit (c.opened c' w) ↔
      (used → b₀.Unexpired now → now < c.windowStart + w) := by
  cases hturns with
  | stays hrunning hsame =>
      rw [opened_same hsame, repaidOnce_iff_each]
      exact ⟨fun _ => hrunning, fun _ p hp => absurd hp List.not_mem_nil⟩
  | turned n hused hunexpired hnow hn hle hstart =>
      have hpos := window_pos h.window
      have hfirst : 1 * w ≤ n * w := Nat.mul_le_mul_right w hn
      constructor
      · intro hrepaid
        have hcapacity : c.capacity ≤ i128Max := by
          rw [h.capacity]
          exact h.sound.wellFormed.limit.2
        have hopens := boundary_eq h.sound.wellFormed h.window le_rfl (by omega)
          (h.unexpired.2 (hunexpired.mono (by omega))) hcapacity (h.balance 1)
        have hmem : (c.overspend, c.reopened (c.windowStart + 1 * w) 0 debt) ∈ c.opened c' w := by
          refine mem_opened.2 ⟨0, ?_, _, hopens, rfl⟩
          rw [hstart, Nat.add_sub_cancel_left, Nat.mul_div_cancel _ hpos]
          exact hn
        -- the window before was not overspent, and the debt is still there
        have howed : debt = c.overspend := (hrepaid.each _ hmem).1
        have hnone : c.overspend = 0 := by
          have hinside := h.inside
          rw [overspend, h.capacity]
          omega
        omega
      · intro hrunning
        have hlt := hrunning hused hunexpired
        omega

end Owing

/-! ## The overspent window -/

section Closing

variable {b b' r : Budget} {w n : ℕ} {now : UInt64} {id : String} {call : Call}

/-- The debt of a record whose window closes in deficit. -/
def Budget.debt (b : Budget) : ℤ := b.deficitAmount + (b.spent - b.capacity)

/-- A use of the budget that closes its overspent window leaves a record that owes. -/
theorem Use.closes (hsound : b.Sound) (hw : b.window = some w) (hover : b.Overspent)
    (hdisabled : b.rolloverEnabled = false) (huse : Use now id b call b')
    (hcloses : b'.windowStart ≠ b.windowStart) :
    Owing b w b.debt b' ∧ ∃ n, 1 ≤ n ∧ call.Uses id ∧ b.Due now.toNat w n ∧
      b'.windowStart = b.windowStart + n * w := by
  cases huse with
  | idle state _ hb' => exact absurd (by rw [hb']) hcloses
  | failed _ _ hb' => exact absurd (by rw [hb']) hcloses
  | used r spent huses hsettle hb' h0 hmax hgranted =>
      have hr := hsound.settle hsettle
      subst hb'
      cases (settle_eq_ok hsound.wellFormed).1 hsettle with
      | same _ hsame => exact absurd (by rw [hsame]) hcloses
      | closed w' n credit deficit hdue hbalance hclosed =>
          obtain rfl := hdue.window_eq hw
          cases hbalance with
          | carried hinside => exact absurd hover hinside
          | dropped hinside => exact absurd hover hinside
          | overspent _ hrange =>
              subst hclosed
              have hdebt : 0 < b.debt := by
                have hbefore := hsound.wellFormed.deficit.1
                have hlt := hover.2
                unfold debt
                omega
              have howing : Owing b w' b.debt
                  (b.reopened (b.windowStart + n * w') 0 (b.deficitAmount + (b.spent - b.capacity))) :=
                ⟨hr, hw, hover.1, hdisabled, rfl, rfl, rfl, hsound.wellFormed.limit.1⟩
              exact ⟨howing.used hdebt h0 hmax hgranted, n, hdue.bounds.2.1, huses, hdue, rfl⟩

/-- The windows that the overspent one makes way for: only the first is repaid, and only if
nothing was owed before. -/
theorem closes_repaidOnce_iff (hsound : b.Sound) (hover : b.Overspent)
    (howing : Owing b w b.debt b') (hdue : b.Due now.toNat w n)
    (hstart : b'.windowStart = b.windowStart + n * w) :
    RepaidOnce b.limit (b.opened b' w) ↔
      b.deficitAmount = 0 ∧ now.toNat < b.windowStart + 2 * w := by
  obtain ⟨hpos, hn, hle, hlt⟩ := hdue.bounds
  have hbefore := hsound.wellFormed.deficit.1
  have hspent := hover.2
  have hnow := now.toNat_lt
  have hcount : (b'.windowStart - b.windowStart) / w = n := by
    rw [hstart, Nat.add_sub_cancel_left, Nat.mul_div_cancel _ hpos]
  have hoverspend : b.overspend = b.spent - b.capacity := by
    unfold overspend
    omega
  have hrange : b.debt ≤ i128Max := by
    rw [← howing.deficit]
    exact howing.sound.wellFormed.deficit.2
  have hopens : ∀ i, i < n → b.windowTransition (b.windowStart + (i + 1) * w)
      = .ok (b.reopened (b.windowStart + (i + 1) * w) 0 b.debt) := by
    intro i hi
    have hmono : (i + 1) * w ≤ n * w := Nat.mul_le_mul_right w hi
    exact boundary_eq hsound.wellFormed hdue.window (by omega) (by omega)
      (hdue.unexpired.mono (by omega)) hdue.capacity (.overspent hover hrange)
  have hmem : ∀ i, i < n → (if i = 0 then b.overspend else 0,
      b.reopened (b.windowStart + (i + 1) * w) 0 b.debt) ∈ b.opened b' w :=
    fun i hi => mem_opened.2 ⟨i, by rwa [hcount], _, hopens i hi, rfl⟩
  constructor
  · intro hrepaid
    have hfirst : b.debt = b.overspend := (hrepaid.each _ (hmem 0 hn)).1
    have hone : n = 1 := by
      by_contra hmany
      have hsecond : b.debt = 0 := (hrepaid.each _ (hmem 1 (by omega))).1
      omega
    subst hone
    unfold debt at hfirst
    omega
  · rintro ⟨hnone, hearly⟩
    obtain rfl := hdue.eq_one_iff.2 hearly
    rw [repaidOnce_iff_each]
    intro p hp
    obtain ⟨i, hi, r, hr, rfl⟩ := mem_opened.1 hp
    rw [hcount] at hi
    obtain rfl : i = 0 := by omega
    rw [hopens 0 hi, Except.ok.injEq] at hr
    subst hr
    have hdebt : b.debt = b.overspend := by
      unfold debt
      omega
    have howed : b.allowDeficit = true ∧ 0 < b.debt := ⟨hover.1, by omega⟩
    refine ⟨hdebt, ?_⟩
    show b.limit + 0 - (if b.allowDeficit = true ∧ 0 < b.debt then b.debt else 0)
      = b.limit - b.overspend
    rw [if_pos howed, hdebt, add_zero]

end Closing

/-! ## Runs -/

section Runs

variable {self : Address} {id : String} {b : Budget} {w : ℕ} {s s' : State}
  {i : Inputs self} {tr : List (Entry State (Inputs self))}

/-- Every use of the budget, before it expires, is before its second window from now ends. -/
def Early (id : String) (b : Budget) (w : ℕ) (tr : List (Entry State (Inputs self))) : Prop :=
  ∀ q ∈ tr, Asks (Call.Uses id) q.input → b.Unexpired q.input.time →
    q.input.time < b.windowStart + 2 * w

/-- What a step that reconfigures nothing does to a record that owes. -/
theorem step_turns {c : Budget} {debt : ℤ} (hc : s.budget id = some c) (h : Owing b w debt c)
    (hdebt : 0 < debt) (hkeeps : ¬ Asks (Call.Reconfigures id) i)
    (hstep : (machine self).step i s s') :
    ∃ c', s'.budget id = some c' ∧ Owing b w debt c' ∧
      Turns b w i.time (Asks (Call.Uses id) i) c c' := by
  cases i with
  | outside t _ =>
      have hsame : s' = s := hstep
      subst hsame
      exact ⟨c, hc, h, .stays (fun huses => huses.elim) rfl⟩
  | invoke env call =>
      obtain ⟨c', hc', heffect⟩ := exec_effect hc hstep
      obtain ⟨howing, hturns⟩ := h.use hdebt (heffect.use h.sound hkeeps)
      exact ⟨c', hc', howing, hturns⟩

theorem windows_append {tr' : List (Entry State (Inputs self))} :
    windows id w (tr ++ tr') = windows id w tr ++ windows id w tr' :=
  List.flatMap_append

theorem windows_singleton {e : Entry State (Inputs self)} {c c' : Budget}
    (hc : e.pre.budget id = some c) (hc' : e.post.budget id = some c') :
    windows id w [e] = c.opened c' w := by
  simp [windows, hc, hc']

theorem early_append {tr' : List (Entry State (Inputs self))} :
    Early id b w (tr ++ tr') ↔ Early id b w tr ∧ Early id b w tr' := by
  simp only [Early, List.forall_mem_append]

theorem early_singleton {e : Entry State (Inputs self)} :
    Early id b w [e] ↔ (Asks (Call.Uses id) e.input → b.Unexpired e.input.time →
      e.input.time < b.windowStart + 2 * w) := by
  simp only [Early, List.forall_mem_singleton]

/-- Where a run stands after the overspent window `b` was closed: it owes, what was seen so
far is repaid once exactly if it was early and nothing was owed before, and then it is still
in the first window. -/
def Standing (id : String) (b : Budget) (w : ℕ) (tr : List (Entry State (Inputs self)))
    (s : State) : Prop :=
  ∃ c, s.budget id = some c ∧ Owing b w b.debt c ∧
    (RepaidOnce b.limit (windows id w tr) ↔ b.deficitAmount = 0 ∧ Early id b w tr) ∧
    (b.deficitAmount = 0 ∧ Early id b w tr → c.windowStart = b.windowStart + w)

/-- Standing is kept by every step that reconfigures nothing. -/
theorem Standing.step {e : Entry State (Inputs self)} (h : Standing id b w tr e.pre)
    (hdebt : 0 < b.debt) (hkeeps : ¬ Asks (Call.Reconfigures id) e.input)
    (hstep : (machine self).step e.input e.pre e.post) : Standing id b w (tr ++ [e]) e.post := by
  obtain ⟨c, hc, howing, hrepaid, hfirst⟩ := h
  obtain ⟨c', hc', howing', hturns⟩ := step_turns hc howing hdebt hkeeps hstep
  have hopened : RepaidOnce b.limit (c.opened c' w) ↔ _ := howing.repaid_iff hdebt hturns
  refine ⟨c', hc', howing', ?_, ?_⟩
  · rw [windows_append, repaidOnce_append, early_append, windows_singleton hc hc', hopened,
      hrepaid, early_singleton, ← and_assoc]
    refine and_congr_right fun hearly => ?_
    rw [hfirst hearly, Nat.add_assoc, ← two_mul]
  · rw [early_append, early_singleton]
    rintro ⟨hnone, hearly, hlast⟩
    have hstart := hfirst ⟨hnone, hearly⟩
    cases hturns with
    | stays _ hsame => rw [hsame, hstart]
    | turned n hused hunexpired _ hn hle _ =>
        have hlt := hlast hused hunexpired
        have hone : 1 * w ≤ n * w := Nat.mul_le_mul_right w hn
        omega

/-- Standing begins where the overspent window is closed. -/
theorem Standing.closing {e : Entry State (Inputs self)} {b' : Budget} (hsound : b.Sound)
    (hb : e.pre.budget id = some b) (hb' : e.post.budget id = some b')
    (hw : b.window = some w) (hover : b.Overspent) (hdisabled : b.rolloverEnabled = false)
    (hcloses : b'.windowStart ≠ b.windowStart)
    (hkeeps : ¬ Asks (Call.Reconfigures id) e.input)
    (hstep : (machine self).step e.input e.pre e.post) : Standing id b w [e] e.post := by
  obtain ⟨pre, input, post⟩ := e
  cases input with
  | outside t _ =>
      have hsame : post = pre := hstep
      subst hsame
      have hkept := hb.symm.trans hb'
      rw [Option.some.injEq] at hkept
      exact absurd (by rw [hkept]) hcloses
  | invoke env call =>
      obtain ⟨b₁, hb₁, heffect⟩ := exec_effect hb hstep
      have hb₁' : some b₁ = some b' := hb₁.symm.trans hb'
      rw [Option.some.injEq] at hb₁'
      subst hb₁'
      obtain ⟨howing, n, _, huses, hdue, hstart⟩ :=
        (heffect.use hsound hkeeps).closes hsound hw hover hdisabled hcloses
      refine ⟨b₁, hb', howing, ?_, ?_⟩
      · rw [windows_singleton hb hb', closes_repaidOnce_iff hsound hover howing hdue hstart,
          early_singleton]
        exact and_congr_right fun _ => ⟨fun hlt _ _ => hlt, fun hearly => hearly huses hdue.unexpired⟩
      · rintro ⟨_, hearly⟩
        have hlt : env.timestamp.toNat < b.windowStart + 2 * w :=
          early_singleton.1 hearly huses hdue.unexpired
        rw [hstart, hdue.eq_one_iff.2 hlt, one_mul]

/-- **An overspend is repaid once**, over the run that begins by closing its window and
reconfigures nothing, exactly if nothing was owed before and nobody uses the budget once
the window after it has ended. -/
theorem repaidOnce_iff {tr₁ tr₂ : List (Entry State (Inputs self))}
    {e : Entry State (Inputs self)} {t : ℕ} {b' : Budget}
    (hpath : (machine self).Path anyInput (tr₁ ++ e :: tr₂) s t)
    (hb : e.pre.budget id = some b) (hb' : e.post.budget id = some b')
    (hw : b.window = some w) (hallowed : b.allowDeficit = true)
    (hdisabled : b.rolloverEnabled = false) (hspent : b.capacity < b.spent)
    (hcloses : b'.windowStart ≠ b.windowStart)
    (hkeeps : ∀ q ∈ e :: tr₂, ¬ Asks (Call.Reconfigures id) q.input) :
    RepaidOnce b.limit (windows id w (e :: tr₂)) ↔
      b.deficitAmount = 0 ∧ ∀ q ∈ e :: tr₂, Asks (Call.Uses id) q.input →
        b.Unexpired q.input.time → q.input.time < b.windowStart + 2 * w := by
  have hover : b.Overspent := ⟨hallowed, hspent⟩
  obtain ⟨_, _, _, hpre, _, _, hstep, _⟩ := hpath.entry (e := e) (by simp)
  have hsound := sound_reachable hpre.reachable hb
  have hdebt : 0 < b.debt := by
    have hbefore := hsound.wellFormed.deficit.1
    unfold debt
    omega
  have hfirst : Standing id b w [e] e.post :=
    .closing hsound hb hb' hw hover hdisabled hcloses (hkeeps e (by simp)) hstep
  have hlast : Standing id b w ([e] ++ tr₂) s := by
    refine hpath.after (Q := fun seen s => Standing id b w ([e] ++ seen) s) hfirst ?_
    intro seen q hseen _ _ hstep' hstanding
    have hq : q ∈ e :: tr₂ := List.mem_cons_of_mem _ (hseen.subset (by simp))
    have hnext := hstanding.step hdebt (hkeeps q hq) hstep'
    rwa [List.append_assoc] at hnext
  obtain ⟨_, _, _, hrepaid, _⟩ := hlast
  exact hrepaid

end Runs

/-! ## Two runs -/

/-- Within the day after the overspend, account 1 spends what is left of its allowance. -/
def repaying : Script Call :=
  [(signedBy 86400 [1], .rollover (.account 1) "eng"),
    (signedBy 90000 [1], .consume (.account 1) "eng" ⟨50, isI128_fifty⟩)]

/-- The overspend is repaid once as long as the next day lasts. -/
theorem repaidOnce_repaying :
    RepaidOnce 100 (windows "eng" 86400
      ((deployment (.contract 0)).trace (play deployed overspending) repaying)) := by
  have hplays : (deployment (.contract 0)).plays deployed 0 overspending = true := rfl
  have hplays' : (deployment (.contract 0)).plays (play deployed overspending) 1 repaying = true :=
    rfl
  obtain ⟨tr, hpath⟩ := Deployment.anyPath_play deployed_fresh hplays
  have hpath' := Deployment.path_playing hpath hplays'
  have hb : (play deployed overspending).budget "eng" = some _ := rfl
  have hiff := repaidOnce_iff hpath' hb rfl rfl rfl rfl (by decide) (by decide) ?_
  · refine hiff.2 ⟨rfl, ?_⟩
    intro q hq _ _
    rcases List.mem_cons.1 hq with rfl | hq
    · decide
    · obtain rfl := List.mem_singleton.1 hq
      decide
  · intro q hq
    rcases List.mem_cons.1 hq with rfl | hq
    · exact fun hasks => hasks
    · obtain rfl := List.mem_singleton.1 hq
      exact fun hasks => hasks

/-- **The overspend is charged twice**: the day after the next is as short as the next. -/
theorem not_repaidOnce :
    ¬ ∀ tr₁ e tr₂ s t id b b' w, (machine (.contract 0)).Path anyInput (tr₁ ++ e :: tr₂) s t →
      e.pre.budget id = some b → e.post.budget id = some b' → b.window = some w →
      b.allowDeficit = true → b.rolloverEnabled = false → b.capacity < b.spent →
      b.spent - b.capacity ≤ b.limit → b'.windowStart ≠ b.windowStart →
      (∀ q ∈ e :: tr₂, ¬ Asks (Call.Reconfigures id) q.input) →
      RepaidOnce b.limit (windows id w (e :: tr₂)) := by
  intro h
  let calls : Script Call :=
    [(signedBy 86400 [1], .rollover (.account 1) "eng"),
      (signedBy 172800 [1], .rollover (.account 1) "eng")]
  have hplays : (deployment (.contract 0)).plays deployed 0 overspending = true := rfl
  have hplays' : (deployment (.contract 0)).plays (play deployed overspending) 1 calls = true := rfl
  obtain ⟨tr, hpath⟩ := Deployment.anyPath_play deployed_fresh hplays
  have hpath' := Deployment.path_playing hpath hplays'
  have hrepaid := h tr _ _ _ _ "eng" _ _ 86400 hpath' rfl rfl rfl rfl rfl (by decide) (by decide)
    (by decide) ?_
  · exact absurd hrepaid.sum (by decide)
  · intro q hq
    rcases List.mem_cons.1 hq with rfl | hq
    · exact fun hasks => hasks
    · obtain rfl := List.mem_singleton.1 hq
      exact fun hasks => hasks

end BudgetContract
end Astroid
