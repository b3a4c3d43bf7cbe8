import Mathlib

/-!
# Sums over a rolling window

Time is cut into buckets of equal width.  A log of charges, each at a time, is added
up bucket by bucket (`slots`), the latest bucket first.  The slots move along as
time goes by (`slots_age`), take a charge in the first place (`slots_charge`), and
add up to what was charged in the buckets they cover (`sum_slots`).

* `Metered.span_le`: when no charge was let through that brings the `n` covered
  buckets over a cap, no span of time shorter than `n - 1` buckets holds more than
  the cap, wherever it begins.
-/

namespace Window

section Sums

variable {M : Type} [AddCommMonoid M]

/-- What a log charged at the times that satisfy `p`. -/
def charged (p : ℕ → Prop) [DecidablePred p] (log : List (ℕ × M)) : M :=
  (log.map fun c => if p c.1 then c.2 else 0).sum

variable {p q : ℕ → Prop} [DecidablePred p] [DecidablePred q] {log log' : List (ℕ × M)}

@[simp] theorem charged_nil : charged p ([] : List (ℕ × M)) = 0 := rfl

@[simp] theorem charged_cons (c : ℕ × M) :
    charged p (c :: log) = (if p c.1 then c.2 else 0) + charged p log := by
  simp [charged]

theorem charged_append : charged p (log ++ log') = charged p log + charged p log' := by
  simp [charged]

theorem charged_congr (h : ∀ c ∈ log, p c.1 ↔ q c.1) : charged p log = charged q log := by
  unfold charged
  congr 1
  refine List.map_congr_left ?_
  intro c hc
  simp only [h c hc]

theorem charged_eq_zero (h : ∀ c ∈ log, ¬ p c.1) : charged p log = 0 := by
  induction log with
  | nil => rfl
  | cons c rest ih =>
      rw [charged_cons, if_neg (h c (List.mem_cons_self ..)), zero_add]
      exact ih fun c hc => h c (List.mem_cons_of_mem _ hc)

/-- The sum over two kinds of times that exclude each other. -/
theorem charged_or (h : ∀ t, p t → ¬ q t) :
    charged (fun t => p t ∨ q t) log = charged p log + charged q log := by
  induction log with
  | nil => simp
  | cons c rest ih =>
      rw [charged_cons, charged_cons, charged_cons, ih]
      by_cases hp : p c.1
      · simp [hp, h c.1 hp, add_assoc]
      · by_cases hq : q c.1
        · simp [hp, hq, add_left_comm]
        · simp [hp, hq]

/-! ## Slots -/

/-- What was charged in bucket number `bucket`, the one before it, and so on, `n` of them. -/
def slots (width n : ℕ) (log : List (ℕ × M)) (bucket : ℕ) : List M :=
  (List.range n).map fun j => charged (fun t => t / width + j = bucket) log

/-- What was charged in the last `n` buckets. -/
def recent (width n : ℕ) (log : List (ℕ × M)) (bucket : ℕ) : M :=
  charged (fun t => t / width ≤ bucket ∧ bucket < t / width + n) log

variable {width n bucket now : ℕ}

@[simp] theorem length_slots : (slots width n log bucket).length = n := by
  simp [slots]

theorem getD_slots {j : ℕ} (hj : j < n) :
    (slots width n log bucket).getD j 0 = charged (fun t => t / width + j = bucket) log := by
  simp [slots, List.getD_eq_getElem?_getD, hj]

theorem slots_nil : slots width n ([] : List (ℕ × M)) bucket = List.replicate n 0 := by
  simp [slots, List.map_const']

/-- The slots add up to what was charged in the buckets they cover. -/
theorem sum_slots : (slots width n log bucket).sum = recent width n log bucket := by
  induction n with
  | zero =>
      refine (charged_eq_zero ?_).symm
      rintro c _ ⟨hle, hlt⟩
      omega
  | succ n ih =>
      have hsplit : recent width (n + 1) log bucket
          = recent width n log bucket + charged (fun t => t / width + n = bucket) log := by
        unfold recent
        rw [← charged_or]
        · refine charged_congr ?_
          intro c _
          omega
        · intro t ht
          omega
      rw [hsplit, ← ih]
      simp [slots, List.range_succ]

/-- Slots move along as time goes by; what falls off the end is dropped. -/
theorem slots_age {shift : ℕ} (hpast : ∀ c ∈ log, c.1 / width ≤ bucket) :
    slots width n log (bucket + shift) = (List.range n).map fun i =>
      if shift ≤ i then (slots width n log bucket).getD (i - shift) 0 else 0 := by
  refine List.map_congr_left ?_
  intro i hi
  rw [List.mem_range] at hi
  by_cases hshift : shift ≤ i
  · rw [if_pos hshift, getD_slots (by omega)]
    refine charged_congr ?_
    intro c _
    omega
  · rw [if_neg hshift]
    refine charged_eq_zero ?_
    intro c hc heq
    have hle := hpast c hc
    omega

/-- A charge goes to the first slot. -/
theorem slots_charge {x : M} :
    slots width (n + 1) (log ++ [(now, x)]) (now / width)
      = (slots width (n + 1) log (now / width)).set 0
        ((slots width (n + 1) log (now / width)).getD 0 0 + x) := by
  refine List.ext_getElem (by simp) ?_
  intro i hi _
  rw [length_slots] at hi
  by_cases hzero : i = 0
  · subst hzero
    rw [List.getElem_set_self, getD_slots hi]
    simp [slots, charged_append]
  · rw [List.getElem_set_ne (Ne.symm hzero)]
    have hlater : ¬ now / width + i = now / width := by omega
    simp [slots, charged_append, hzero]

end Sums

/-! ## A cap on every span -/

section Caps

variable {M : Type} [AddCommMonoid M] [PartialOrder M] [IsOrderedAddMonoid M]
  {p q : ℕ → Prop} [DecidablePred p] [DecidablePred q] {log older : List (ℕ × M)}
  {width n now t₁ t₂ : ℕ} {cap : M}

/-- More times, more charges. -/
theorem charged_mono (h : ∀ c ∈ log, 0 ≤ c.2 ∧ (p c.1 → q c.1)) : charged p log ≤ charged q log := by
  refine List.sum_le_sum ?_
  intro c hc
  obtain ⟨hnonneg, himp⟩ := h c hc
  by_cases hp : p c.1
  · simp [hp, himp hp]
  · by_cases hq : q c.1 <;> simp [hp, hq, hnonneg]

theorem charged_nonneg (h : ∀ c ∈ log, 0 ≤ c.2) : 0 ≤ charged p log := by
  refine List.sum_nonneg ?_
  intro x hx
  obtain ⟨c, hc, rfl⟩ := List.mem_map.1 hx
  by_cases hp : p c.1 <;> simp [hp, h c hc]

/-- What was charged at the times from `t₁` to `t₂`. -/
def span (t₁ t₂ : ℕ) (log : List (ℕ × M)) : M := charged (fun t => t₁ ≤ t ∧ t ≤ t₂) log

/-- The charges of a span shorter than `n - 1` buckets that `now` is part of are
recent. -/
theorem span_le_recent (hwidth : 0 < width) (hspan : now < t₁ + (n - 1) * width)
    (hlog : ∀ c ∈ log, c.1 ≤ now ∧ 0 ≤ c.2) :
    span t₁ t₂ log ≤ recent width n log (now / width) := by
  refine charged_mono ?_
  intro c hc
  obtain ⟨hpast, hnonneg⟩ := hlog c hc
  refine ⟨hnonneg, ?_⟩
  rintro ⟨hafter, _⟩
  refine ⟨Nat.div_le_div_right hpast, ?_⟩
  have hclose : now < c.1 + (n - 1) * width := by omega
  have hdiv : now / width ≤ (c.1 + (n - 1) * width) / width := Nat.div_le_div_right hclose.le
  rw [Nat.add_mul_div_right _ _ hwidth] at hdiv
  rcases Nat.eq_zero_or_pos n with rfl | hn
  · simp at hclose
    omega
  · omega

/-- A log every charge of which was let through with the last `n` buckets, what was
charged before the log included, at or under the cap. -/
inductive Metered (width n : ℕ) (cap : M) (older : List (ℕ × M)) : List (ℕ × M) → Prop
  | nil : Metered width n cap older []
  | charge {log new : List (ℕ × M)} {t : ℕ} : Metered width n cap older log →
      (∀ c ∈ older ++ log, c.1 ≤ t ∧ 0 ≤ c.2) → (∀ c ∈ new, c.1 = t ∧ 0 ≤ c.2) →
      (new ≠ [] → recent width n (older ++ log ++ new) (t / width) ≤ cap) →
      Metered width n cap older (log ++ new)

/-- **No span shorter than `n - 1` buckets holds more than the cap.** -/
theorem Metered.span_le (h : Metered width n cap older log) (hwidth : 0 < width) (hcap : 0 ≤ cap)
    (hspan : t₂ < t₁ + (n - 1) * width) : span t₁ t₂ log ≤ cap := by
  induction h with
  | nil => exact hcap
  | @charge log new now _ hlog hnew hlet ih =>
      by_cases hinside : new ≠ [] ∧ t₁ ≤ now ∧ now ≤ t₂
      · obtain ⟨hne, _, hlate⟩ := hinside
        have hall : ∀ c ∈ older ++ log ++ new, c.1 ≤ now ∧ 0 ≤ c.2 := by
          intro c hc
          rcases List.mem_append.1 hc with hc | hc
          · exact hlog c hc
          · exact ⟨(hnew c hc).1.le, (hnew c hc).2⟩
        calc span t₁ t₂ (log ++ new)
            ≤ span t₁ t₂ older + span t₁ t₂ (log ++ new) :=
              le_add_of_nonneg_left (charged_nonneg fun c hc =>
                (hlog c (List.mem_append_left _ hc)).2)
          _ = span t₁ t₂ (older ++ log ++ new) := by
              rw [List.append_assoc]
              exact charged_append.symm
          _ ≤ recent width n (older ++ log ++ new) (now / width) :=
              span_le_recent hwidth (by omega) hall
          _ ≤ cap := hlet hne
      · -- nothing new falls into the span
        have hzero : span t₁ t₂ new = 0 := by
          refine charged_eq_zero ?_
          rintro c hc ⟨hafter, hbefore⟩
          rw [(hnew c hc).1] at hafter hbefore
          exact hinside ⟨List.ne_nil_of_mem hc, hafter, hbefore⟩
        have hsum : span t₁ t₂ (log ++ new) = span t₁ t₂ log + span t₁ t₂ new := charged_append
        rw [hsum, hzero, add_zero]
        exact ih

end Caps

end Window
