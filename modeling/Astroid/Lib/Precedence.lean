import Mathlib

/-!
# Prerequisites that come first

Things are done one after the other, each with the keys it requires.  A log of what was done
is ordered when whatever an entry requires was done before it (`Ordered`).  In an ordered log
all that an entry requires, however indirectly, was done before it (`Ordered.transitive`).  A
relation whose edges all go down some order has no cycle (`acyclic`).
-/

namespace Precedence

variable {κ : Type} {log earlier : List (κ × List κ)} {x : κ × List κ} {k dep : κ}

/-- Something was done under the key. -/
def Done (log : List (κ × List κ)) (k : κ) : Prop := k ∈ log.map Prod.fst

/-- What was done under `k` required `dep`. -/
def Requires (log : List (κ × List κ)) (k dep : κ) : Prop :=
  ∃ deps, (k, deps) ∈ log ∧ dep ∈ deps

/-- What an entry requires was done before it. -/
def Ordered (log : List (κ × List κ)) : Prop :=
  ∀ earlier x, earlier ++ [x] <+: log → ∀ dep ∈ x.2, Done earlier dep

theorem ordered_nil : Ordered ([] : List (κ × List κ)) := by
  intro earlier x hpart
  simp at hpart

/-- One more thing is done, after what it requires. -/
theorem Ordered.append (h : Ordered log) (hx : ∀ dep ∈ x.2, Done log dep) :
    Ordered (log ++ [x]) := by
  intro earlier y hpart
  rcases List.prefix_concat_iff.1 hpart with heq | hpart
  · obtain ⟨rfl, hyx⟩ := List.append_inj' heq rfl
    rw [List.singleton_inj] at hyx
    exact hyx ▸ hx
  · exact h earlier y hpart

theorem Done.mono (hpart : earlier <+: log) (h : Done earlier k) : Done log k :=
  (hpart.map Prod.fst).subset h

/-- What the entries up to `x` require was done before `x`. -/
theorem Ordered.done_of_requires (h : Ordered log) (hpart : earlier ++ [x] <+: log)
    (hrequires : Requires (earlier ++ [x]) k dep) : Done earlier dep := by
  obtain ⟨deps, hmem, hdep⟩ := hrequires
  rcases List.mem_append.1 hmem with hmem | hmem
  · obtain ⟨l₁, l₂, rfl⟩ := List.append_of_mem hmem
    have hearlier : l₁ ++ [(k, deps)] <+: l₁ ++ (k, deps) :: l₂ := ⟨l₂, by simp⟩
    have hfirst := h l₁ (k, deps) ((hearlier.trans (List.prefix_append _ _)).trans hpart) dep hdep
    exact hfirst.mono (List.prefix_append _ _)
  · rw [List.mem_singleton] at hmem
    subst hmem
    exact h earlier _ hpart dep hdep

/-- **All that an entry requires, however indirectly, was done before it.** -/
theorem Ordered.transitive (h : Ordered log) (hpart : earlier ++ [x] <+: log)
    (hrequires : Relation.TransGen (Requires (earlier ++ [x])) x.1 dep) : Done earlier dep := by
  cases hrequires with
  | single hlast => exact h.done_of_requires hpart hlast
  | tail _ hlast => exact h.done_of_requires hpart hlast

/-- Edges that go down an order close no cycle. -/
theorem acyclic {r : κ → κ → Prop} [Preorder κ] (h : ∀ k dep, r k dep → dep < k) (k : κ) :
    ¬ Relation.TransGen r k k := by
  have hdown : ∀ {a b}, Relation.TransGen r a b → b < a := by
    intro a b hab
    induction hab with
    | single hlast => exact h _ _ hlast
    | tail _ hlast ih => exact (h _ _ hlast).trans ih
  exact fun hcycle => lt_irrefl k (hdown hcycle)

end Precedence
