import Mathlib

/-!
# Lazy settlement

A record that is settled at times of its own, each settlement catching up with all
that is due.  Whether it matters how often it is settled is a question about two
settlements in a row: if these leave what the later one alone leaves, so do any number
of them (`visits_eq`).

What is caught up with here is an allowance that accrues period by period: a share of
what is left carries over the first boundary, every idle period adds its whole base,
and a cap bounds the total.  Catching up twice loses nothing exactly when the first
idle period can be carried whole, or what is carried of it reaches the cap anyway
(`Carry.Lossless.settled_settled`, `Carry.lossless_of_settled`).
-/

namespace Lazy

/-! ## Visits -/

section Visits

variable {α ε T : Type} {settle : α → T → Except ε α} {a r r' : α} {t : T} {ts : List T}

/-- Settle at each of the times. -/
def visits (settle : α → T → Except ε α) (a : α) (ts : List T) : Except ε α := ts.foldlM settle a

theorem visits_append : visits settle a (ts ++ [t]) = visits settle a ts >>= (settle · t) := by
  simp [visits]

theorem visits_cons (h : settle a t = .ok r) :
    visits settle a (t :: ts) = visits settle r ts := by
  simp only [visits, List.foldlM_cons, h]
  rfl

variable [LE T]

/-- Settlements that can be skipped: what can be settled later can be settled now, and
settling twice leaves what settling once does. -/
structure Skips (settle : α → T → Except ε α) (a : α) : Prop where
  earlier : ∀ t t' r', t ≤ t' → settle a t' = .ok r' → ∃ r, settle a t = .ok r
  twice : ∀ t t' r r₂ r', t ≤ t' → settle a t = .ok r → settle r t' = .ok r₂ →
    settle a t' = .ok r' → r₂ = r'

/-- **It does not matter how often a record is settled**, if it can be skipped. -/
theorem visits_eq (h : Skips settle a) (hsorted : (ts ++ [t]).Pairwise (· ≤ ·))
    (hvisits : visits settle a (ts ++ [t]) = .ok r) (honce : settle a t = .ok r') : r = r' := by
  induction ts using List.reverseRecOn generalizing t r r' with
  | nil =>
      rw [visits_append] at hvisits
      have hsame : settle a t = .ok r := hvisits
      rw [honce, Except.ok.injEq] at hsame
      exact hsame.symm
  | append_singleton ts t₀ ih =>
      rw [List.pairwise_append] at hsorted
      obtain ⟨hbefore, _, hlast⟩ := hsorted
      have hle : t₀ ≤ t := hlast t₀ (by simp) t (by simp)
      obtain ⟨r₀, hr₀⟩ := h.earlier t₀ t r' hle honce
      rw [visits_append] at hvisits
      cases hseen : visits settle a (ts ++ [t₀]) with
      | error e =>
          rw [hseen] at hvisits
          cases hvisits
      | ok r₁ =>
          rw [hseen] at hvisits
          have hsame := ih hbefore hseen hr₀
          subst hsame
          exact h.twice t₀ t r₁ r r' hle hr₀ hvisits honce

end Visits

/-! ## Optional caps -/

section Caps

variable {M : Type} [AddCommGroup M] [LinearOrder M] {cap x y z : M}

/-- A cap of zero is no cap. -/
def clamp (cap x : M) : M := if cap ≠ 0 ∧ cap < x then cap else x

theorem clamp_le : clamp cap x ≤ x := by
  unfold clamp
  split
  · rename_i h
    exact h.2.le
  · exact le_rfl

theorem clamp_zero_left : clamp 0 x = x := by
  simp [clamp]

theorem clamp_eq_min (h : cap ≠ 0) : clamp cap x = min x cap := by
  unfold clamp
  by_cases hlt : cap < x
  · rw [if_pos ⟨h, hlt⟩, min_eq_right hlt.le]
  · rw [if_neg fun hboth => hlt hboth.2, min_eq_left (not_lt.1 hlt)]

theorem clamp_nonneg (hcap : 0 ≤ cap) (hx : 0 ≤ x) : 0 ≤ clamp cap x := by
  unfold clamp
  split
  · exact hcap
  · exact hx

theorem clamp_mono (h : x ≤ y) : clamp cap x ≤ clamp cap y := by
  by_cases hcap : cap = 0
  · subst hcap
    rw [clamp_zero_left, clamp_zero_left]
    exact h
  · rw [clamp_eq_min hcap, clamp_eq_min hcap]
    exact min_le_min_right cap h

theorem clamp_eq_cap (hcap : cap ≠ 0) (h : cap ≤ x) : clamp cap x = cap := by
  rw [clamp_eq_min hcap, min_eq_right h]

theorem clamp_pos (hcap : 0 ≤ cap) : 0 < clamp cap x ↔ 0 < x := by
  constructor
  · intro hpos
    exact hpos.trans_le clamp_le
  · intro hpos
    unfold clamp
    split
    · rename_i hover
      exact lt_of_le_of_ne hcap hover.1.symm
    · exact hpos

/-- The smaller of two caps. -/
def tighter (cap cap' : M) : M :=
  if cap = 0 then cap' else if cap' = 0 then cap else min cap cap'

/-- Below a cap, if it is one. -/
def Under (cap x : M) : Prop := cap ≠ 0 → x ≤ cap

theorem under_clamp : Under cap (clamp cap x) := by
  intro hcap
  rw [clamp_eq_min hcap]
  exact min_le_right x cap

/-- The tighter of two caps is below both of them, where these are caps at all. -/
theorem under_tighter {cap' : M} (hcap : 0 ≤ cap) (hcap' : 0 ≤ cap') :
    Under cap x ∧ Under cap' x ↔ Under (tighter cap cap') x := by
  unfold tighter
  by_cases hzero : cap = 0
  · simp [hzero, Under]
  · by_cases hzero' : cap' = 0
    · simp [hzero, hzero', Under]
    · have hmin : min cap cap' ≠ 0 :=
        (lt_min (lt_of_le_of_ne hcap (Ne.symm hzero)) (lt_of_le_of_ne hcap' (Ne.symm hzero'))).ne'
      simp [hzero, hzero', hmin, Under]

/-- Clamping on the way makes no difference to a total that only grows. -/
theorem clamp_clamp_add [IsOrderedAddMonoid M] (hz : 0 ≤ z) :
    clamp cap (clamp cap x + z) = clamp cap (x + z) := by
  by_cases hcap : cap = 0
  · subst hcap
    simp only [clamp_zero_left]
  · rw [clamp_eq_min hcap, clamp_eq_min hcap, clamp_eq_min hcap]
    by_cases hx : x ≤ cap
    · rw [min_eq_left hx]
    · have hover : cap ≤ x := (not_le.1 hx).le
      rw [min_eq_right hover, min_eq_right (le_add_of_nonneg_right hz),
        min_eq_right (hover.trans (le_add_of_nonneg_right hz))]

end Caps

/-! ## Accrual -/

/-- What carries over a boundary of what is left: a part of it, more of more, and all of
some only if all of everything. -/
structure Carry (M : Type) [AddCommGroup M] [LinearOrder M] where
  part : M → M
  nonneg : ∀ x, 0 ≤ x → 0 ≤ part x
  le : ∀ x, 0 ≤ x → part x ≤ x
  mono : ∀ x y, x ≤ y → part x ≤ part y
  full : ∀ x, 0 < x → part x = x → ∀ y, part y = y

namespace Carry

variable {M : Type} [AddCommGroup M] [LinearOrder M] [IsOrderedAddMonoid M] (p : Carry M)
  {cap base unspent : M} {m n : ℕ}

/-- The credit after `n` periods, of which all but the first were idle. -/
def settled (cap base unspent : M) (n : ℕ) : M :=
  clamp cap (clamp cap (p.part unspent) + (n - 1) • base)

/-- What is carried of one more idle period is the whole of it, or reaches the cap. -/
def Lossless (cap base credit : M) : Prop :=
  p.part (base + credit) = base + credit ∨ (cap ≠ 0 ∧ cap ≤ p.part (base + credit))

variable {p}

theorem settled_eq (hbase : 0 ≤ base) :
    p.settled cap base unspent n = clamp cap (p.part unspent + (n - 1) • base) :=
  clamp_clamp_add (nsmul_nonneg hbase _)

theorem settled_nonneg (hcap : 0 ≤ cap) (hbase : 0 ≤ base) (hunspent : 0 ≤ unspent) :
    0 ≤ p.settled cap base unspent n := by
  rw [settled_eq hbase]
  exact clamp_nonneg hcap (add_nonneg (p.nonneg _ hunspent) (nsmul_nonneg hbase _))

/-- The credit grows with the periods. -/
theorem settled_mono (hbase : 0 ≤ base) (h : m - 1 ≤ n - 1) :
    p.settled cap base unspent m ≤ p.settled cap base unspent n := by
  rw [settled_eq hbase, settled_eq hbase]
  exact clamp_mono (add_le_add_right (nsmul_le_nsmul_left hbase h) _)

/-- One more idle period, after any number of them. -/
theorem settled_succ (hbase : 0 ≤ base) (hm : 1 ≤ m) (hn : 1 ≤ n) :
    p.settled cap base unspent (m + n)
      = clamp cap (base + p.settled cap base unspent m + (n - 1) • base) := by
  have hsplit : p.part unspent + (m + n - 1) • base
      = p.part unspent + (m - 1) • base + (base + (n - 1) • base) := by
    have hcount : m + n - 1 = (m - 1) + (1 + (n - 1)) := by omega
    rw [hcount, add_nsmul, add_nsmul, one_nsmul, add_assoc]
  rw [settled_eq hbase, settled_eq hbase, hsplit,
    ← clamp_clamp_add (add_nonneg hbase (nsmul_nonneg hbase _))]
  congr 1
  abel

/-- Where nothing is lost, carrying makes no difference. -/
theorem Lossless.clamp_eq {credit z : M} (h : p.Lossless cap base credit) (hz : 0 ≤ z)
    (hall : 0 ≤ base + credit) :
    clamp cap (p.part (base + credit) + z) = clamp cap (base + credit + z) := by
  rcases h with hwhole | ⟨hcap, hreached⟩
  · rw [hwhole]
  · have hpart : cap ≤ p.part (base + credit) + z := hreached.trans (le_add_of_nonneg_right hz)
    rw [clamp_eq_cap hcap hpart, clamp_eq_cap hcap]
    exact hpart.trans (add_le_add_left (p.le _ hall) z)

/-- What is lossless after the first period stays so. -/
theorem Lossless.settled (hcap : 0 ≤ cap) (hbase : 0 ≤ base) (hunspent : 0 ≤ unspent)
    (h : p.Lossless cap base (p.settled cap base unspent 1)) :
    p.Lossless cap base (p.settled cap base unspent n) := by
  have hgrows : p.settled cap base unspent 1 ≤ p.settled cap base unspent n :=
    settled_mono hbase (by omega)
  have hnonneg : 0 ≤ p.settled cap base unspent 1 := settled_nonneg hcap hbase hunspent
  rcases h with hwhole | ⟨hne, hreached⟩
  · by_cases hpos : 0 < base + p.settled cap base unspent 1
    · exact .inl (p.full _ hpos hwhole _)
    · -- nothing to carry, and nothing accrues
      have hnone : base = 0 := by
        refine le_antisymm ?_ hbase
        exact (le_add_of_nonneg_right hnonneg).trans (not_lt.1 hpos)
      subst hnone
      have hsame : p.settled cap 0 unspent n = p.settled cap 0 unspent 1 := by
        simp [Carry.settled]
      rw [hsame]
      exact .inl hwhole
  · exact .inr ⟨hne, hreached.trans (p.mono _ _ (add_le_add_right hgrows base))⟩

/-- What loses nothing in the first idle period is lossless. -/
theorem lossless_of_settled (hbase : 0 ≤ base)
    (h : p.settled cap base (base + p.settled cap base unspent 1) 1
      = p.settled cap base unspent 2) :
    p.Lossless cap base (p.settled cap base unspent 1) := by
  have hone : p.settled cap base unspent (1 + 1)
      = clamp cap (base + p.settled cap base unspent 1 + (1 - 1) • base) :=
    settled_succ hbase le_rfl le_rfl
  rw [hone, settled_eq hbase] at h
  simp only [Nat.sub_self, zero_nsmul, add_zero] at h
  by_cases hzero : cap = 0
  · subst hzero
    rw [clamp_zero_left, clamp_zero_left] at h
    exact .inl h
  · by_cases hreached : cap ≤ p.part (base + p.settled cap base unspent 1)
    · exact .inr ⟨hzero, hreached⟩
    · rw [clamp_eq_min hzero, clamp_eq_min hzero, min_eq_left (not_le.1 hreached).le] at h
      rcases min_choice (base + p.settled cap base unspent 1) cap with hmin | hmin
      · exact .inl (h.trans hmin)
      · exact absurd (h.trans hmin).ge hreached

/-- **Catching up twice loses nothing** where nothing is lost in the first idle period. -/
theorem Lossless.settled_settled (hcap : 0 ≤ cap) (hbase : 0 ≤ base) (hunspent : 0 ≤ unspent)
    (h : p.Lossless cap base (p.settled cap base unspent 1)) (hm : 1 ≤ m) (hn : 1 ≤ n) :
    p.settled cap base (base + p.settled cap base unspent m) n
      = p.settled cap base unspent (m + n) := by
  have hnonneg : 0 ≤ p.settled cap base unspent m := settled_nonneg hcap hbase hunspent
  rw [settled_succ hbase hm hn, settled_eq hbase]
  exact (h.settled hcap hbase hunspent).clamp_eq (nsmul_nonneg hbase _)
    (add_nonneg hbase hnonneg)

end Carry

end Lazy
