import Astroid.Lib.History

/-!
# Pledges by key

A book holds at most one pledge under each key.  Over a stretch of steps some pledges are
released, each of them once (`Released`), or one is made under a free key (`Pledged`).
Stretches compose, and a release tells what a key went through; what the book is worth, in
any measure of its pledges, moves by the worth of what was released or pledged.

The last section is about a machine whose every step does one or the other: each pledge
that is held was made in the run, and under each key as many pledges were made as were
released or are held.
-/

namespace Pledges

variable {κ α : Type} [DecidableEq κ]

/-- The pledges under the keys of `l` are released, in that order, and nothing else changes. -/
structure Released (l : List κ) (b b' : κ → Option α) : Prop where
  nodup : l.Nodup
  held : ∀ k ∈ l, b k ≠ none
  gone : ∀ k ∈ l, b' k = none
  rest : ∀ k, k ∉ l → b' k = b k

/-- The pledge `a` is made under the free key `k`. -/
structure Pledged (k : κ) (a : α) (b b' : κ → Option α) : Prop where
  free : b k = none
  book : b' = Function.update b k (some a)

/-- The worth of the pledges under the keys of `T`. -/
def worth (w : α → ℤ) (T : Finset κ) (b : κ → Option α) : ℤ := ∑ k ∈ T, ((b k).map w).getD 0

variable {l l' : List κ} {b b' b'' : κ → Option α} {k : κ} {a : α} {w : α → ℤ} {T : Finset κ}

/-- Rewriting one key replaces its worth. -/
theorem worth_update (hk : k ∈ T) (o : Option α) :
    worth w T (Function.update b k o) = worth w T b - ((b k).map w).getD 0 + (o.map w).getD 0 := by
  have hothers : ∑ x ∈ T.erase k, ((Function.update b k o x).map w).getD 0
      = ∑ x ∈ T.erase k, ((b x).map w).getD 0 := by
    refine Finset.sum_congr rfl ?_
    intro x hx
    rw [Function.update_of_ne (Finset.ne_of_mem_erase hx)]
  unfold worth
  rw [← Finset.add_sum_erase T _ hk, ← Finset.add_sum_erase T _ hk, hothers, Function.update_self]
  ring

/-- **A pledge adds its worth to the book.** -/
theorem Pledged.worth_eq (h : Pledged k a b b') (hk : k ∈ T) :
    worth w T b' = worth w T b + w a := by
  rw [h.book, worth_update hk, h.free]
  simp

namespace Released

omit [DecidableEq κ] in
theorem refl : Released [] b b :=
  ⟨List.nodup_nil, by simp, by simp, fun _ _ => rfl⟩

theorem single (hheld : b k ≠ none) (hbook : b' = Function.update b k none) :
    Released [k] b b' := by
  refine ⟨List.nodup_singleton k, ?_, ?_, ?_⟩
  · intro x hx
    rw [List.mem_singleton] at hx
    exact hx ▸ hheld
  · intro x hx
    rw [List.mem_singleton] at hx
    rw [hx, hbook, Function.update_self]
  · intro x hx
    rw [List.mem_singleton] at hx
    rw [hbook, Function.update_of_ne hx]

omit [DecidableEq κ] in
/-- **What a release says of a key.** -/
theorem mem_iff (h : Released l b b') : k ∈ l ↔ b k ≠ none ∧ b' k = none := by
  constructor
  · exact fun hk => ⟨h.held k hk, h.gone k hk⟩
  · rintro ⟨hheld, hgone⟩
    by_contra hk
    exact hheld (h.rest k hk ▸ hgone)

omit [DecidableEq κ] in
/-- What was released before is not released again. -/
theorem disjoint (h : Released l b b') (h' : Released l' b' b'') : ∀ k ∈ l, k ∉ l' :=
  fun k hk hk' => h'.held k hk' (h.gone k hk)

omit [DecidableEq κ] in
theorem trans (h : Released l b b') (h' : Released l' b' b'') : Released (l ++ l') b b'' := by
  have hdisjoint := h.disjoint h'
  refine ⟨?_, ?_, ?_, ?_⟩
  · refine List.nodup_append.2 ⟨h.nodup, h'.nodup, ?_⟩
    rintro x hx y hy rfl
    exact hdisjoint x hx hy
  · intro k hk
    rcases List.mem_append.1 hk with hk | hk
    · exact h.held k hk
    · have hnot : k ∉ l := fun hl => hdisjoint k hl hk
      exact h.rest k hnot ▸ h'.held k hk
  · intro k hk
    rcases List.mem_append.1 hk with hk | hk
    · rw [h'.rest k (hdisjoint k hk)]
      exact h.gone k hk
    · exact h'.gone k hk
  · intro k hk
    rw [List.mem_append, not_or] at hk
    rw [h'.rest k hk.2, h.rest k hk.1]

omit [DecidableEq κ] in
/-- The pledges a composed stretch released are those of its parts. -/
theorem filterMap_append (h : Released l b b') (h' : Released l' b' b'') :
    (l ++ l').filterMap b = l.filterMap b ++ l'.filterMap b' := by
  rw [List.filterMap_append]
  congr 1
  refine List.filterMap_congr ?_
  intro k hk
  exact (h.rest k fun hl => h.disjoint h' k hl hk).symm

/-- **A release takes its worth out of the book.** -/
theorem worth_eq (h : Released l b b') (hT : ∀ k ∈ l, k ∈ T) :
    worth w T b' = worth w T b - ((l.filterMap b).map w).sum := by
  induction l generalizing b with
  | nil =>
      have hsame : b' = b := funext fun k => h.rest k (by simp)
      rw [hsame]
      simp
  | cons k rest ih =>
      obtain ⟨a, ha⟩ := Option.ne_none_iff_exists'.1 (h.held k (List.mem_cons_self ..))
      have hnodup := List.nodup_cons.1 h.nodup
      have hne : ∀ x ∈ rest, x ≠ k := by
        rintro x hx rfl
        exact hnodup.1 hx
      have hrest : Released rest (Function.update b k none) b' := by
        refine ⟨hnodup.2, ?_, fun x hx => h.gone x (List.mem_cons_of_mem _ hx), ?_⟩
        · intro x hx
          rw [Function.update_of_ne (hne x hx)]
          exact h.held x (List.mem_cons_of_mem _ hx)
        · intro x hx
          by_cases hxk : x = k
          · subst hxk
            rw [Function.update_self]
            exact h.gone x (List.mem_cons_self ..)
          · rw [Function.update_of_ne hxk]
            exact h.rest x (by simp [hx, hxk])
      have hvalues : rest.filterMap (Function.update b k none) = rest.filterMap b := by
        refine List.filterMap_congr ?_
        intro x hx
        rw [Function.update_of_ne (hne x hx)]
      have hfirst : worth w T (Function.update b k none) = worth w T b - w a := by
        rw [worth_update (hT k (List.mem_cons_self ..)), ha]
        simp
      rw [ih hrest fun x hx => hT x (List.mem_cons_of_mem _ hx), hfirst, hvalues,
        List.filterMap_cons_some ha, List.map_cons, List.sum_cons]
      ring

end Released

/-! ## Runs that keep a book -/

section Runs

variable {σ ι : Type} {M : Machine σ ι} {allow : ι → σ → Prop} {tr : List (Entry σ ι)} {s : σ}
  {t : ℕ} {book : σ → κ → Option α} {makes : Entry σ ι → Option (κ × α)} {e : Entry σ ι}

/-- An entry of a run releases pledges, or makes the one that `makes` reads off it. -/
inductive Turns (book : σ → κ → Option α) (makes : Entry σ ι → Option (κ × α))
    (e : Entry σ ι) : Prop
  | released (l : List κ) : makes e = none → Released l (book e.pre) (book e.post) →
      Turns book makes e
  | pledged (k : κ) (a : α) : makes e = some (k, a) → Pledged k a (book e.pre) (book e.post) →
      Turns book makes e

/-- The entry made a pledge under `k`. -/
def madeUnder (makes : Entry σ ι → Option (κ × α)) (k : κ) (e : Entry σ ι) : Bool :=
  decide ((makes e).map Prod.fst = some k)

/-- The entry released the pledge under `k`. -/
def releasedUnder (book : σ → κ → Option α) (k : κ) (e : Entry σ ι) : Bool :=
  (book e.pre k).isSome && (book e.post k).isNone

omit [DecidableEq κ] in
theorem releasedUnder_iff : releasedUnder book k e = true ↔ book e.pre k ≠ none ∧
    book e.post k = none := by
  simp [releasedUnder, Option.isSome_iff_ne_none]

/-- What one entry does to one key. -/
theorem Turns.count (h : Turns book makes e) (k : κ) :
    (releasedUnder book k e).toNat + (book e.post k).isSome.toNat
      = (madeUnder makes k e).toNat + (book e.pre k).isSome.toNat := by
  cases h with
  | released l hnone hreleased =>
      have hmade : madeUnder makes k e = false := by simp [madeUnder, hnone]
      rw [hmade]
      by_cases hk : k ∈ l
      · have hheld := hreleased.held k hk
        have hgone := hreleased.gone k hk
        have hreleases := releasedUnder_iff.2 ⟨hheld, hgone⟩
        obtain ⟨a, ha⟩ := Option.ne_none_iff_exists'.1 hheld
        rw [hreleases, hgone, ha]
        rfl
      · have hsame := hreleased.rest k hk
        have hreleases : releasedUnder book k e = false := by
          unfold releasedUnder
          rw [hsame]
          cases book e.pre k <;> rfl
        rw [hreleases, hsame]
  | pledged k' a hsome hpledged =>
      by_cases hk : k = k'
      · subst hk
        have hmade : madeUnder makes k e = true := by simp [madeUnder, hsome]
        have hreleases : releasedUnder book k e = false := by simp [releasedUnder, hpledged.free]
        rw [hmade, hreleases, hpledged.book, hpledged.free, Function.update_self]
        rfl
      · have hmade : madeUnder makes k e = false := by
          simp [madeUnder, hsome, Ne.symm hk]
        have hsame : book e.post k = book e.pre k := by
          rw [hpledged.book, Function.update_of_ne hk]
        have hreleases : releasedUnder book k e = false := by
          unfold releasedUnder
          rw [hsame]
          cases book e.pre k <;> rfl
        rw [hmade, hreleases, hsame]

/-- **Each pledge is released once or held.** -/
theorem count_eq (h : M.Path allow tr s t) (hempty : ∀ s k, M.init s → book s k = none)
    (hturns : ∀ i s s', allow i s → M.step i s s' → Turns book makes ⟨s, i, s'⟩) (k : κ) :
    tr.countP (releasedUnder book k) + (book s k).isSome.toNat
      = tr.countP (madeUnder makes k) := by
  refine h.history (P := fun tr s _ => tr.countP (releasedUnder book k)
    + (book s k).isSome.toNat = tr.countP (madeUnder makes k)) ?_ ?_
  · intro s t hinit
    rw [hempty s k hinit]
    rfl
  · intro tr s t i s' _ ih _ hallow hstep
    have hcount := (hturns i s s' hallow hstep).count k
    dsimp only at hcount
    rw [List.countP_append, List.countP_append, List.countP_singleton, List.countP_singleton]
    cases hreleased : releasedUnder book k ⟨s, i, s'⟩ <;>
      cases hmade : madeUnder makes k ⟨s, i, s'⟩ <;>
      simp only [hreleased, hmade, Bool.toNat_true, Bool.toNat_false, if_true, if_false,
        Bool.false_eq_true] at hcount ⊢ <;> omega

/-- **What is held was pledged in the run.** -/
theorem made_of_held (h : M.Path allow tr s t) (hempty : ∀ s k, M.init s → book s k = none)
    (hturns : ∀ i s s', allow i s → M.step i s s' → Turns book makes ⟨s, i, s'⟩)
    (hheld : book s k = some a) : ∃ q ∈ tr, makes q = some (k, a) := by
  revert k a
  refine h.history (P := fun tr s _ => ∀ {k a}, book s k = some a →
    ∃ q ∈ tr, makes q = some (k, a)) ?_ ?_
  · intro s t hinit k a hheld
    rw [hempty s k hinit] at hheld
    cases hheld
  · intro tr s t i s' _ ih _ hallow hstep k a hheld
    have hearlier : book s k = some a → ∃ q ∈ tr ++ [⟨s, i, s'⟩], makes q = some (k, a) := by
      intro hheld
      obtain ⟨q, hq, hmakes⟩ := ih hheld
      exact ⟨q, List.mem_append_left _ hq, hmakes⟩
    cases hturns i s s' hallow hstep with
    | released l _ hreleased =>
        by_cases hk : k ∈ l
        · have hgone := hreleased.gone k hk
          dsimp only at hgone
          rw [hgone] at hheld
          cases hheld
        · exact hearlier ((hreleased.rest k hk).symm.trans hheld)
    | pledged k' a' hmakes hpledged =>
        have hbook := hpledged.book
        dsimp only at hbook
        rw [hbook] at hheld
        by_cases hk : k = k'
        · subst hk
          rw [Function.update_self] at hheld
          cases hheld
          exact ⟨_, List.mem_append_right _ (List.mem_singleton_self _), hmakes⟩
        · rw [Function.update_of_ne hk] at hheld
          exact hearlier hheld

end Runs

end Pledges
