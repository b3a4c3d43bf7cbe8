import Astroid.Lib.Tally

/-!
# Fixed periods

Time is cut into periods of one length from an origin on; a length of 0 stands for one
period that never ends.  A counter keeps where its period starts and what was charged in
it, and catches up when it is used, however many periods have passed (`Counts.settle`).
If no charge takes it over a limit, no period is charged more than the limit
(`Within.charge`), and it does not matter how often it catches up (`Counter.settle_settle`).
-/

namespace Periods

/-- The period a time is in. -/
def index (origin length t : ℕ) : ℕ := (t - origin) / length

/-- What was charged in period `k`. -/
def charged (origin length k : ℕ) (log : List (ℕ × ℤ)) : ℤ :=
  Tally.tally Prod.snd (fun c => index origin length c.1 = k) log

/-- No period is charged more than the limit. -/
def Within (origin length : ℕ) (limit : ℤ) (log : List (ℕ × ℤ)) : Prop :=
  ∀ k, charged origin length k log ≤ limit

/-- Where the present period starts, and what was charged in it. -/
structure Counter where
  start : ℕ
  spent : ℤ

/-- Catch up with the periods that have passed. -/
def Counter.settle (c : Counter) (length now : ℕ) : Counter :=
  let elapsed := (now - c.start) / length
  ⟨c.start + elapsed * length, if elapsed = 0 then c.spent else 0⟩

/-- The counter stands for period `k` of the log, and nothing was charged after it. -/
structure Counts (origin length : ℕ) (log : List (ℕ × ℤ)) (c : Counter) (k : ℕ) : Prop where
  start : c.start = origin + k * length
  single : length = 0 → k = 0
  spent : c.spent = charged origin length k log
  past : ∀ x ∈ log, index origin length x.1 ≤ k

section Index

variable {origin length t k : ℕ}

/-- Periods are half-open intervals. -/
theorem index_eq_iff (hlength : 0 < length) (horigin : origin ≤ t) :
    index origin length t = k ↔ origin + k * length ≤ t ∧ t < origin + (k + 1) * length := by
  unfold index
  rw [Nat.div_eq_iff hlength, Nat.succ_mul]
  omega

theorem index_of_not_lasting : index origin 0 t = 0 := Nat.div_zero _

/-- Whole periods can be counted from where any of them starts. -/
theorem index_eq_add (hsingle : length = 0 → k = 0) (h : origin + k * length ≤ t) :
    index origin length t = k + (t - (origin + k * length)) / length := by
  unfold index
  rcases Nat.eq_zero_or_pos length with hzero | hpos
  · subst hzero
    rw [Nat.div_zero, Nat.div_zero, hsingle rfl]
  · have hsplit : t - origin = t - (origin + k * length) + k * length := by omega
    rw [hsplit, Nat.add_mul_div_right _ _ hpos, Nat.add_comm]

end Index

section Counting

variable {origin length k now : ℕ} {limit x : ℤ} {log : List (ℕ × ℤ)} {c : Counter}

/-- The charges of a period are those of its interval. -/
theorem charged_eq (hlength : 0 < length) (horigin : ∀ x ∈ log, origin ≤ x.1) :
    charged origin length k log = Tally.tally Prod.snd
      (fun x => origin + k * length ≤ x.1 ∧ x.1 < origin + (k + 1) * length) log := by
  unfold charged Tally.tally
  rw [List.filter_congr]
  intro x hx
  exact decide_eq_decide.2 (index_eq_iff hlength (horigin x hx))

/-- A period that never ends has all the charges. -/
theorem charged_zero : charged origin 0 0 log = (log.map Prod.snd).sum := by
  unfold charged Tally.tally
  rw [List.filter_eq_self.2]
  intro x _
  exact decide_eq_true index_of_not_lasting

/-- Nothing was charged in a period after the last charge. -/
theorem Counts.charged_later (h : Counts origin length log c k) {j : ℕ} (hj : k < j) :
    charged origin length j log = 0 := by
  refine Tally.tally_eq_zero ?_
  intro x hx heq
  have hpast := h.past x hx
  omega

/-- **A counter that catches up stands for the present period.** -/
theorem Counts.settle (h : Counts origin length log c k) (hnow : c.start ≤ now) :
    Counts origin length log (c.settle length now) (index origin length now) := by
  have hstart := h.start
  have hindex := index_eq_add (t := now) h.single (hstart ▸ hnow)
  rw [← hstart] at hindex
  refine ⟨?_, ?_, ?_, ?_⟩
  · rw [hindex, Nat.add_mul]
    unfold Counter.settle
    dsimp only
    omega
  · rintro rfl
    exact index_of_not_lasting
  · unfold Counter.settle
    dsimp only
    split
    · rename_i hsame
      rw [hindex, hsame, Nat.add_zero]
      exact h.spent
    · rename_i hpassed
      have hlater : k < index origin length now := by
        rw [hindex]
        exact Nat.lt_add_of_pos_right (Nat.pos_of_ne_zero hpassed)
      rw [h.charged_later hlater]
  · intro x hx
    rw [hindex]
    exact (h.past x hx).trans (Nat.le_add_right _ _)

/-- A charge in the present period. -/
theorem Counts.charge (h : Counts origin length log c (index origin length now)) :
    Counts origin length (log ++ [(now, x)]) ⟨c.start, c.spent + x⟩ (index origin length now) := by
  refine ⟨h.start, h.single, ?_, ?_⟩
  · unfold charged
    rw [Tally.tally_append, Tally.tally_cons, Tally.tally_nil, if_pos rfl, add_zero]
    exact congrArg (· + x) h.spent
  · intro y hy
    rcases List.mem_append.1 hy with hy | hy
    · exact h.past y hy
    · rw [List.mem_singleton] at hy
      rw [hy]

/-- A charge its period has room for. -/
theorem Within.append (h : Within origin length limit log)
    (hroom : charged origin length (index origin length now) log + x ≤ limit) :
    Within origin length limit (log ++ [(now, x)]) := by
  intro j
  unfold charged
  rw [Tally.tally_append, Tally.tally_cons, Tally.tally_nil, add_zero]
  by_cases hj : index origin length now = j
  · subst hj
    rw [if_pos rfl]
    exact hroom
  · rw [if_neg hj, add_zero]
    exact h j

/-- **What the counter lets through keeps every period within the limit.** -/
theorem Within.charge (h : Within origin length limit log)
    (hcounts : Counts origin length log c (index origin length now))
    (hroom : c.spent + x ≤ limit) : Within origin length limit (log ++ [(now, x)]) :=
  h.append (hcounts.spent ▸ hroom)

theorem within_nil (hlimit : 0 ≤ limit) : Within origin length limit [] := fun _ => hlimit

theorem counts_nil : Counts origin length [] ⟨origin, 0⟩ 0 :=
  ⟨by simp, fun _ => rfl, rfl, by simp⟩

end Counting

/-- **It does not matter how often a counter catches up.** -/
theorem Counter.settle_settle {c : Counter} {length t t' : ℕ} (ht : t ≤ t') :
    (c.settle length t).settle length t' = c.settle length t' := by
  rcases Nat.eq_zero_or_pos length with hzero | _
  · subst hzero
    simp [Counter.settle]
  · have hle : (t - c.start) / length * length ≤ t - c.start := Nat.div_mul_le_self _ _
    have hadd : (t' - (c.start + (t - c.start) / length * length)) / length
        = (t' - c.start) / length - (t - c.start) / length := by
      rw [← Nat.sub_sub, Nat.mul_comm ((t - c.start) / length), Nat.sub_mul_div]
    have hmono : (t - c.start) / length ≤ (t' - c.start) / length :=
      Nat.div_le_div_right (Nat.sub_le_sub_right ht _)
    unfold Counter.settle
    dsimp only
    rw [hadd, Counter.mk.injEq]
    refine ⟨?_, ?_⟩
    · rw [Nat.add_assoc, ← Nat.add_mul, Nat.add_sub_cancel' hmono]
    · by_cases hsame : (t' - c.start) / length = 0
      · simp [hsame, Nat.le_zero.1 (hsame ▸ hmono)]
      · by_cases hmid : (t' - c.start) / length - (t - c.start) / length = 0
        · have hpassed : ¬ (t - c.start) / length = 0 := by omega
          rw [if_pos hmid, if_neg hpassed, if_neg hsame]
        · rw [if_neg hmid, if_neg hsame]

/-! ## The schedule -/

section Schedule

variable {c : Counter} {length now : ℕ}

/-- Periods start where they did, up to whole periods. -/
theorem Counter.settle_modEq : (c.settle length now).start ≡ c.start [MOD length] := by
  show c.start + (now - c.start) / length * length ≡ c.start [MOD length]
  simp [Nat.ModEq]

/-- A counter that caught up is in the present period. -/
theorem Counter.settle_bounds (hlength : 0 < length) (hstart : c.start ≤ now) :
    (c.settle length now).start ≤ now ∧ now < (c.settle length now).start + length := by
  show c.start + (now - c.start) / length * length ≤ now ∧
    now < c.start + (now - c.start) / length * length + length
  have hle := Nat.div_mul_le_self (now - c.start) length
  have hlt := Nat.lt_div_mul_add (a := now - c.start) hlength
  omega

/-- A counter in its present period has caught up. -/
theorem Counter.settle_eq_self (hrunning : now < c.start + length) : c.settle length now = c := by
  have hnone : (now - c.start) / length = 0 := Nat.div_eq_zero_iff.2 (by omega)
  simp [Counter.settle, hnone]

end Schedule

end Periods
