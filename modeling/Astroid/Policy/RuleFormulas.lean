import Astroid.Policy.RuleTrees

/-!
# The formulas of rule trees

A rule tree writes a Boolean formula down by indices (`Encodes`).  Where every branch points
forward, a tree that was accepted writes down exactly one formula, and where no path from its
root is longer than the depth limit, it is evaluated to what that formula denotes, whatever was
read of the blocklists before; a stack of such trees accepts as its strategy says
(`rule_tree_semantics`).
-/

/-- A Boolean formula over atoms. -/
inductive Formula (α : Type) where
  | atom (a : α)
  | all {arity : ℕ} (part : Fin arity → Formula α)
  | any {arity : ℕ} (part : Fin arity → Formula α)
  | neg (part : Formula α)

/-- What a formula denotes, given what its atoms do. -/
def Formula.denote {α : Type} (v : α → Bool) : Formula α → Bool
  | .atom a => v a
  | .all part => decide (∀ k, (part k).denote v = true)
  | .any part => decide (∃ k, (part k).denote v = true)
  | .neg part => !part.denote v

namespace Astroid
namespace PolicyContract

open Outcome Body

variable {listed : Listings} {tree : RuleTree} {payload : TransactionPayload}
  {context : RuleEvaluationContext} {i j : ℕ}

/-! ## What a tree writes down -/

/-- The node is a branch. -/
def RuleNode.IsBranch (node : RuleNode) : Prop :=
  node.op = .and ∨ node.op = .or ∨ node.op = .not

instance (node : RuleNode) : Decidable node.IsBranch := inferInstanceAs (Decidable (_ ∨ _ ∨ _))

/-- The comparison a leaf makes. -/
def RuleNode.compare (listed : Listings) (payload : TransactionPayload) (node : RuleNode) : Bool :=
  match node.op with
  | .maxAmount => decide (payload.amount ≤ node.valueI128)
  | .allowedRecipient => decide (payload.recipient = node.valueAddress)
  | .allowedAsset => decide (payload.asset = node.valueAddress)
  | .recipientBlacklisted => listed.recipient
  | .merchantBlacklisted => listed.merchant
  | _ => false

/-- The number of children of a branch. -/
abbrev RuleNode.arity (node : RuleNode) : ℕ := node.childrenEnd - node.childrenStart

/-- The formula that is written down from an index on; its atoms are leaves. -/
inductive Encodes (tree : RuleTree) : ℕ → Formula RuleNode → Prop
  | leaf {i : ℕ} {node : RuleNode} : tree[i]? = some node → ¬ node.IsBranch →
      Encodes tree i (.atom node)
  | and {i : ℕ} {node : RuleNode} {part : Fin node.arity → Formula RuleNode} :
      tree[i]? = some node → node.op = .and →
      (∀ k : Fin node.arity, Encodes tree (node.childrenStart + k) (part k)) → Encodes tree i (.all part)
  | or {i : ℕ} {node : RuleNode} {part : Fin node.arity → Formula RuleNode} :
      tree[i]? = some node → node.op = .or →
      (∀ k : Fin node.arity, Encodes tree (node.childrenStart + k) (part k)) → Encodes tree i (.any part)
  | not {i : ℕ} {node : RuleNode} {part : Formula RuleNode} :
      tree[i]? = some node → node.op = .not →
      Encodes tree node.childrenStart part → Encodes tree i (.neg part)

/-- The tree denotes `holds` of a payload. -/
def RuleTree.Denotes (tree : RuleTree) (listed : Listings) (payload : TransactionPayload)
    (holds : Bool) : Prop :=
  ∃ f, Encodes tree 0 f ∧ f.denote (·.compare listed payload) = holds

/-- The children of a branch; a leaf has none. -/
def RuleNode.offspring (node : RuleNode) : List ℕ := if node.IsBranch then node.children else []

/-- `j` is a child of `i`. -/
def RuleTree.Child (tree : RuleTree) (i j : ℕ) : Prop :=
  ∃ node, tree[i]? = some node ∧ j ∈ node.offspring

/-- The paths from a node down to a leaf. -/
inductive LeafPath (tree : RuleTree) : ℕ → List ℕ → Prop
  | leaf {i : ℕ} : (∀ j, ¬ tree.Child i j) → LeafPath tree i [i]
  | step {i j : ℕ} {path : List ℕ} : tree.Child i j → LeafPath tree j path →
      LeafPath tree i (i :: path)

/-- An accepted tree in which the children of a branch come after it. -/
structure Forward (tree : RuleTree) : Prop where
  accepted : validateRuleTree tree = .ok ()
  forward : ∀ (i : ℕ) (node : RuleNode), tree[i]? = some node → node.IsBranch →
    i < node.childrenStart

/-- The depth limit allows every path of the tree. -/
structure Admissible (tree : RuleTree) : Prop extends Forward tree where
  shallow : ∀ path, LeafPath tree 0 path → path.length ≤ maxRuleDepth

section Shape

/-- The children of a branch are a range. -/
theorem mem_children {node : RuleNode} :
    j ∈ node.children ↔ ∃ k : Fin node.arity, j = node.childrenStart + k := by
  rw [RuleNode.children, List.mem_range'_1]
  constructor
  · rintro ⟨hstart, hend⟩
    have hk : j - node.childrenStart < node.childrenEnd - node.childrenStart := by omega
    exact ⟨⟨_, hk⟩, (Nat.add_sub_cancel' hstart).symm⟩
  · rintro ⟨k, rfl⟩
    have hk : (k : ℕ) < node.childrenEnd - node.childrenStart := k.isLt
    omega

theorem WellFormed.mem_offspring (h : WellFormed tree) {node : RuleNode} (hnode : tree[i]? = some node)
    (hj : j ∈ node.offspring) : node.IsBranch ∧ node.childrenStart ≤ j ∧ j < tree.length := by
  have hmem := List.mem_of_getElem? hnode
  unfold RuleNode.offspring at hj
  split at hj
  · rename_i hbranch
    obtain ⟨k, rfl⟩ := mem_children.1 hj
    refine ⟨hbranch, Nat.le_add_right _ _, ?_⟩
    rcases hbranch with hop | hop | hop
    · exact (h.branch node hmem (.inl hop)).2 _ hj
    · exact (h.branch node hmem (.inr hop)).2 _ hj
    · obtain ⟨hone, hlt⟩ := h.negation node hmem hop
      have hk : (k : ℕ) < node.childrenEnd - node.childrenStart := k.isLt
      omega
  · cases hj

theorem Forward.wellFormed (h : Forward tree) : WellFormed tree :=
  validateRuleTree_ok h.accepted

/-- A child comes after its parent, in the tree. -/
theorem Forward.child_lt (h : Forward tree) (hchild : tree.Child i j) :
    i < j ∧ j < tree.length := by
  obtain ⟨node, hnode, hj⟩ := hchild
  obtain ⟨hbranch, hstart, hlt⟩ := h.wellFormed.mem_offspring hnode hj
  have hforward := h.forward i node hnode hbranch
  omega

/-- From every node some path leads down to a leaf. -/
theorem Forward.exists_leafPath (h : Forward tree) (i : ℕ) : ∃ path, LeafPath tree i path := by
  -- by induction on the number of nodes after `i`
  induction hrest : tree.length - i using Nat.strong_induction_on generalizing i with
  | _ rest ih =>
      by_cases hleaf : ∀ j, ¬ tree.Child i j
      · exact ⟨[i], .leaf hleaf⟩
      · push Not at hleaf
        obtain ⟨j, hchild⟩ := hleaf
        have hlt := h.child_lt hchild
        obtain ⟨path, hpath⟩ := ih (tree.length - j) (by omega) j rfl
        exact ⟨i :: path, .step hchild hpath⟩

/-- A chain of calls leads down some path. -/
theorem Forward.leafPath_of_descends (h : Forward tree) {depth : ℕ}
    (hcalls : ∀ i j, Calls (tree.body listed payload) i j → tree.Child i j)
    (hdeep : Descends (tree.body listed payload) depth i) :
    ∃ path, LeafPath tree i path ∧ depth < path.length := by
  induction depth generalizing i with
  | zero =>
      obtain ⟨path, hpath⟩ := h.exists_leafPath i
      refine ⟨path, hpath, ?_⟩
      cases hpath <;> simp
  | succ depth ih =>
      obtain ⟨j, hcall, hrest⟩ := descends_succ.1 hdeep
      obtain ⟨path, hpath, hlength⟩ := ih hrest
      refine ⟨i :: path, .step (hcalls i j hcall) hpath, ?_⟩
      simpa using hlength

/-- A path never comes back, so a tree with few nodes has no long path. -/
theorem Forward.leafPath_length (h : Forward tree) {path : List ℕ} (hpath : LeafPath tree i path)
    (hi : i < tree.length) : i + path.length ≤ tree.length := by
  induction hpath with
  | leaf _ =>
      rw [List.length_singleton]
      omega
  | step hchild _ ih =>
      have hlt := h.child_lt hchild
      have hrest := ih hlt.2
      rw [List.length_cons]
      omega

theorem Forward.admissible (h : Forward tree) (hsmall : tree.length ≤ maxRuleDepth) :
    Admissible tree := by
  refine ⟨h, ?_⟩
  intro path hpath
  have hlength := h.leafPath_length hpath h.wellFormed.root
  omega

end Shape

/-! ## The value of a formula -/

section Values

variable {body : ℕ → Body ℕ Bool} {decides : Bool} {l : List ℕ}

/-- What a search asks for is in its list. -/
theorem asks_firstThat (h : Asks body (firstThat decides l) j) : j ∈ l := by
  induction l with
  | nil => cases h
  | cons i rest ih =>
      cases h with
      | first => exact List.mem_cons_self
      | @later _ _ _ answer _ hlater =>
          by_cases hdecides : answer = decides
          · simp only [if_pos hdecides] at hlater
            cases hlater
          · simp only [if_neg hdecides] at hlater
            exact List.mem_cons_of_mem _ (ih hlater)

/-- **A search decides exactly when something in its list does**, in whatever order. -/
theorem value_firstThat (decides : Bool) (h : ∀ j ∈ l, ∃ b, Value body (body j) b) :
    ∃ b, Value body (firstThat decides l) b ∧
      (b = decides ↔ ∃ j ∈ l, Value body (body j) decides) := by
  induction l with
  | nil => exact ⟨!decides, .ret, by simp⟩
  | cons i rest ih =>
      rw [List.forall_mem_cons] at h
      obtain ⟨answer, hanswer⟩ := h.1
      by_cases hdecides : answer = decides
      · subst hdecides
        refine ⟨answer, .ask hanswer ?_, by simp [hanswer]⟩
        simpa using Value.ret
      · obtain ⟨b, hvalue, hdecided⟩ := ih h.2
        refine ⟨b, .ask hanswer ?_, ?_⟩
        · simpa [hdecides] using hvalue
        · have hfirst : ¬ Value body (body i) decides := fun hfirst =>
            hdecides (hanswer.unique hfirst)
          simpa [hfirst] using hdecided

end Values

theorem body_of_getElem {node : RuleNode} (hnode : tree[i]? = some node) :
    tree.body listed payload i = node.body listed payload := by
  rw [RuleTree.body, hnode]

theorem mem_offspring_of_branch {node : RuleNode} (hbranch : node.IsBranch)
    (hj : j ∈ node.children) : j ∈ node.offspring := by
  rw [RuleNode.offspring, if_pos hbranch]
  exact hj

/-- A node asks for its children alone. -/
theorem WellFormed.child_of_calls (h : WellFormed tree)
    (hcall : Calls (tree.body listed payload) i j) : tree.Child i j := by
  unfold Calls at hcall
  cases hnode : tree[i]? with
  | none =>
      rw [RuleTree.body, hnode] at hcall
      cases hcall
  | some node =>
      refine ⟨node, hnode, ?_⟩
      rw [body_of_getElem hnode, RuleNode.body] at hcall
      cases hop : node.op with
      | maxAmount | allowedRecipient | allowedAsset | recipientBlacklisted | merchantBlacklisted =>
          simp only [hop] at hcall
          cases hcall
      | and =>
          simp only [hop] at hcall
          exact mem_offspring_of_branch (.inl hop) (asks_firstThat hcall)
      | or =>
          simp only [hop] at hcall
          exact mem_offspring_of_branch (.inr (.inl hop)) (asks_firstThat hcall)
      | not =>
          simp only [hop] at hcall
          obtain ⟨hone, _⟩ := h.negation node (List.mem_of_getElem? hnode) hop
          have harity : 0 < node.childrenEnd - node.childrenStart := by omega
          cases hcall with
          | first => exact mem_offspring_of_branch (.inr (.inr hop)) (mem_children.2 ⟨⟨0, harity⟩, rfl⟩)
          | later _ hlater => cases hlater

/-- The children of a branch are searched for one that denotes `decides`. -/
theorem value_children {node : RuleNode} {denotes : Fin node.arity → Bool} (decides : Bool)
    (h : ∀ k : Fin node.arity, Value (tree.body listed payload)
      (tree.body listed payload (node.childrenStart + k)) (denotes k)) :
    ∃ b, Value (tree.body listed payload) (firstThat decides node.children) b ∧
      (b = decides ↔ ∃ k, denotes k = decides) := by
  have hall : ∀ j ∈ node.children,
      ∃ b, Value (tree.body listed payload) (tree.body listed payload j) b := by
    intro j hj
    obtain ⟨k, rfl⟩ := mem_children.1 hj
    exact ⟨denotes k, h k⟩
  obtain ⟨b, hvalue, hdecides⟩ := value_firstThat decides hall
  refine ⟨b, hvalue, hdecides.trans ?_⟩
  constructor
  · rintro ⟨j, hj, hsame⟩
    obtain ⟨k, rfl⟩ := mem_children.1 hj
    exact ⟨k, (h k).unique hsame⟩
  · rintro ⟨k, rfl⟩
    exact ⟨_, mem_children.2 ⟨k, rfl⟩, h k⟩

/-- **What a node is evaluated to is what its formula denotes.** -/
theorem Encodes.value {f : Formula RuleNode} (h : Encodes tree i f) :
    Value (tree.body listed payload) (tree.body listed payload i)
      (f.denote (·.compare listed payload)) := by
  induction h with
  | @leaf i node hnode hleaf =>
      rw [body_of_getElem hnode, RuleNode.body, Formula.denote, RuleNode.compare]
      cases hop : node.op with
      | maxAmount | allowedRecipient | allowedAsset | recipientBlacklisted | merchantBlacklisted =>
          exact .ret
      | and => exact absurd (.inl hop) hleaf
      | or => exact absurd (.inr (.inl hop)) hleaf
      | not => exact absurd (.inr (.inr hop)) hleaf
  | @and i node part hnode hop _ ih =>
      obtain ⟨b, hvalue, hfalse⟩ := value_children false ih
      have hall : (Formula.all part).denote (·.compare listed payload) = b := by
        rw [Formula.denote, Bool.eq_iff_iff, decide_eq_true_iff, ← Bool.not_eq_false b, hfalse]
        simp
      rw [body_of_getElem hnode, RuleNode.body, hop, hall]
      exact hvalue
  | @or i node part hnode hop _ ih =>
      obtain ⟨b, hvalue, htrue⟩ := value_children true ih
      have hany : (Formula.any part).denote (·.compare listed payload) = b := by
        rw [Formula.denote, Bool.eq_iff_iff, decide_eq_true_iff, htrue]
      rw [body_of_getElem hnode, RuleNode.body, hop, hany]
      exact hvalue
  | @not i node part hnode hop _ ih =>
      rw [body_of_getElem hnode, RuleNode.body, hop]
      exact .ask ih .ret

/-- The formulas a node can write down. -/
def RuleNode.Shapes (tree : RuleTree) (node : RuleNode) (f : Formula RuleNode) : Prop :=
  match node.op with
  | .and => ∃ part : Fin node.arity → Formula RuleNode, f = .all part ∧
      ∀ k : Fin node.arity, Encodes tree (node.childrenStart + k) (part k)
  | .or => ∃ part : Fin node.arity → Formula RuleNode, f = .any part ∧
      ∀ k : Fin node.arity, Encodes tree (node.childrenStart + k) (part k)
  | .not => ∃ part, f = .neg part ∧ Encodes tree node.childrenStart part
  | _ => f = .atom node

theorem encodes_iff {node : RuleNode} {f : Formula RuleNode} (hnode : tree[i]? = some node) :
    Encodes tree i f ↔ node.Shapes tree f := by
  constructor
  · intro h
    cases h with
    | leaf hnode' hleaf =>
        obtain rfl := Option.some.inj (hnode.symm.trans hnode')
        unfold RuleNode.Shapes
        cases hop : node.op with
        | maxAmount | allowedRecipient | allowedAsset | recipientBlacklisted
        | merchantBlacklisted => rfl
        | and => exact absurd (.inl hop) hleaf
        | or => exact absurd (.inr (.inl hop)) hleaf
        | not => exact absurd (.inr (.inr hop)) hleaf
    | and hnode' hop hparts =>
        obtain rfl := Option.some.inj (hnode.symm.trans hnode')
        simp only [RuleNode.Shapes, hop]
        exact ⟨_, rfl, hparts⟩
    | or hnode' hop hparts =>
        obtain rfl := Option.some.inj (hnode.symm.trans hnode')
        simp only [RuleNode.Shapes, hop]
        exact ⟨_, rfl, hparts⟩
    | not hnode' hop hpart =>
        obtain rfl := Option.some.inj (hnode.symm.trans hnode')
        simp only [RuleNode.Shapes, hop]
        exact ⟨_, rfl, hpart⟩
  · intro h
    unfold RuleNode.Shapes at h
    cases hop : node.op with
    | maxAmount | allowedRecipient | allowedAsset | recipientBlacklisted | merchantBlacklisted =>
        simp only [hop] at h
        subst h
        refine .leaf hnode ?_
        simp [RuleNode.IsBranch, hop]
    | and =>
        simp only [hop] at h
        obtain ⟨part, rfl, hparts⟩ := h
        exact .and hnode hop hparts
    | or =>
        simp only [hop] at h
        obtain ⟨part, rfl, hparts⟩ := h
        exact .or hnode hop hparts
    | not =>
        simp only [hop] at h
        obtain ⟨part, rfl, hpart⟩ := h
        exact .not hnode hop hpart

/-- A node writes down one formula at most. -/
theorem Encodes.unique {f g : Formula RuleNode} (hf : Encodes tree i f) (hg : Encodes tree i g) :
    f = g := by
  induction hf generalizing g with
  | @leaf i node hnode hleaf =>
      have hshape := (encodes_iff hnode).1 hg
      unfold RuleNode.Shapes at hshape
      cases hop : node.op with
      | maxAmount | allowedRecipient | allowedAsset | recipientBlacklisted | merchantBlacklisted =>
          simp only [hop] at hshape
          exact hshape.symm
      | and => exact absurd (.inl hop) hleaf
      | or => exact absurd (.inr (.inl hop)) hleaf
      | not => exact absurd (.inr (.inr hop)) hleaf
  | @and i node part hnode hop _ ih =>
      have hshape := (encodes_iff hnode).1 hg
      simp only [RuleNode.Shapes, hop] at hshape
      obtain ⟨part', rfl, hparts⟩ := hshape
      congr 1
      funext k
      exact ih k (hparts k)
  | @or i node part hnode hop _ ih =>
      have hshape := (encodes_iff hnode).1 hg
      simp only [RuleNode.Shapes, hop] at hshape
      obtain ⟨part', rfl, hparts⟩ := hshape
      congr 1
      funext k
      exact ih k (hparts k)
  | @not i node part hnode hop _ ih =>
      have hshape := (encodes_iff hnode).1 hg
      simp only [RuleNode.Shapes, hop] at hshape
      obtain ⟨part', rfl, hpart⟩ := hshape
      congr 1
      exact ih hpart

/-- Every node writes a formula down. -/
theorem Forward.exists_encodes (h : Forward tree) (hi : i < tree.length) :
    ∃ f, Encodes tree i f := by
  -- by induction on the number of nodes after `i`
  induction hrest : tree.length - i using Nat.strong_induction_on generalizing i with
  | _ rest ih =>
      obtain ⟨node, hnode⟩ : ∃ node, tree[i]? = some node := ⟨_, List.getElem?_eq_getElem hi⟩
      have hparts : ∀ j ∈ node.offspring, ∃ f, Encodes tree j f := by
        intro j hj
        have hlt := h.child_lt ⟨node, hnode, hj⟩
        exact ih (tree.length - j) (by omega) hlt.2 rfl
      by_cases hbranch : node.IsBranch
      · have hchildren : ∀ k : Fin node.arity,
            ∃ f, Encodes tree (node.childrenStart + k) f := fun k =>
          hparts _ (mem_offspring_of_branch hbranch (mem_children.2 ⟨k, rfl⟩))
        choose part hpart using hchildren
        rcases hbranch with hop | hop | hop
        · exact ⟨_, .and hnode hop hpart⟩
        · exact ⟨_, .or hnode hop hpart⟩
        · obtain ⟨hone, _⟩ := h.wellFormed.negation node (List.mem_of_getElem? hnode) hop
          have harity : 0 < node.childrenEnd - node.childrenStart := by omega
          exact ⟨_, .not hnode hop (hpart ⟨0, harity⟩)⟩
      · exact ⟨_, .leaf hnode hbranch⟩

/-- **An admissible tree denotes one value**, and its evaluation returns it. -/
theorem Admissible.denotes (h : Admissible tree) (listed : Listings) (payload : TransactionPayload) :
    ∃ f, Encodes tree 0 f ∧ Simulates listed (evaluateNode listed tree payload maxRuleDepth 0)
      (some (f.denote (·.compare listed payload))) := by
  have hwf := h.wellFormed
  obtain ⟨f, hf⟩ := h.exists_encodes hwf.root
  refine ⟨f, hf, ?_⟩
  have hsimulates : Simulates listed (evaluateNode listed tree payload maxRuleDepth 0)
      (run (tree.body listed payload) maxRuleDepth 0) :=
    evaluateNode_simulates hwf maxRuleDepth hwf.root
  cases hrun : run (tree.body listed payload) maxRuleDepth 0 with
  | none =>
      -- a chain of calls that goes too deep would lead down a path that is too long
      obtain ⟨path, hpath, hlong⟩ := h.leafPath_of_descends
        (fun _ _ => hwf.child_of_calls) (run_eq_none_iff.1 hrun)
      have hshort := h.shallow path hpath
      omega
  | some holds =>
      obtain rfl := (value_of_run hrun).unique hf.value
      rw [hrun] at hsimulates
      exact hsimulates

/-! ## Stacks -/

/-- The loop of both strategies: the first rule that is `decides` decides. -/
def firstRule (evaluate : RuleTree → Screening Bool) (decides : Bool) : RuleStack → Screening Bool
  | [], context => pure (!decides, context)
  | tree :: rest, context => do
      let (holds, context) ← evaluate tree context
      if holds = decides then pure (decides, context) else firstRule evaluate decides rest context

theorem allRules_eq (evaluate : RuleTree → Screening Bool) {stack : RuleStack}
    (hrooted : ∀ tree ∈ stack, tree ≠ []) :
    allRules evaluate stack = firstRule evaluate false stack := by
  induction stack with
  | nil => rfl
  | cons tree rest ih =>
      rw [List.forall_mem_cons] at hrooted
      funext context
      simp only [allRules, firstRule, if_neg hrooted.1, ih hrooted.2]
      congr 1
      funext ⟨holds, context⟩
      cases holds <;> rfl

theorem anyRule_eq (evaluate : RuleTree → Screening Bool) {stack : RuleStack}
    (hrooted : ∀ tree ∈ stack, tree ≠ []) :
    anyRule evaluate stack = firstRule evaluate true stack := by
  induction stack with
  | nil => rfl
  | cons tree rest ih =>
      rw [List.forall_mem_cons] at hrooted
      funext context
      simp only [anyRule, firstRule, if_neg hrooted.1, ih hrooted.2]

/-- A rule decides a stack exactly when it denotes `decides`. -/
theorem firstRule_simulates (listed : Listings) (payload : TransactionPayload) (decides : Bool)
    {stack : RuleStack} (h : ∀ tree ∈ stack, Admissible tree) :
    ∃ b, Simulates listed
        (firstRule (fun tree => evaluateNode listed tree payload maxRuleDepth 0) decides stack)
        (some b) ∧
      (b = decides ↔ ∃ tree ∈ stack, tree.Denotes listed payload decides) := by
  induction stack with
  | nil => exact ⟨!decides, fun context hcontext => ⟨context, rfl, hcontext⟩, by simp⟩
  | cons tree rest ih =>
      rw [List.forall_mem_cons] at h
      obtain ⟨f, hf, heval⟩ := h.1.denotes listed payload
      obtain ⟨b, hrest, hdecided⟩ := ih h.2
      have hfirst : tree.Denotes listed payload decides
          ↔ f.denote (·.compare listed payload) = decides := by
        constructor
        · rintro ⟨g, hg, hdenotes⟩
          rw [hf.unique hg, hdenotes]
        · intro hdenotes
          exact ⟨f, hf, hdenotes⟩
      by_cases hdecides : f.denote (·.compare listed payload) = decides
      · refine ⟨decides, ?_, by simp [hfirst, hdecides]⟩
        intro context hcontext
        obtain ⟨context₁, hok, hcontext₁⟩ := heval context hcontext
        refine ⟨context₁, ?_, hcontext₁⟩
        rw [firstRule, hok, ok_bind]
        exact if_pos hdecides
      · refine ⟨b, ?_, by simpa [hfirst, hdecides] using hdecided⟩
        intro context hcontext
        obtain ⟨context₁, hok, hcontext₁⟩ := heval context hcontext
        obtain ⟨context₂, hok₂, hcontext₂⟩ := hrest context₁ hcontext₁
        refine ⟨context₂, ?_, hcontext₂⟩
        rw [firstRule, hok, ok_bind]
        exact (if_neg hdecides).trans hok₂

/-- What a strategy demands of a stack. -/
def CombinationStrategy.Accepts (strategy : CombinationStrategy) (stack : RuleStack)
    (listed : Listings) (payload : TransactionPayload) : Prop :=
  match strategy with
  | .all => ∀ tree ∈ stack, tree.Denotes listed payload true
  | .any => stack = [] ∨ ∃ tree ∈ stack, tree.Denotes listed payload true

/-- An admissible tree denotes true or false, and not both. -/
theorem Admissible.denotes_iff (h : Admissible tree) :
    tree.Denotes listed payload true ↔ ¬ tree.Denotes listed payload false := by
  obtain ⟨f, hf, _⟩ := h.denotes listed payload
  constructor
  · rintro ⟨g, hg, htrue⟩ ⟨g', hg', hfalse⟩
    rw [hg.unique hg', hfalse] at htrue
    cases htrue
  · intro hnot
    refine ⟨f, hf, ?_⟩
    rw [← Bool.not_eq_false]
    exact fun hfalse => hnot ⟨f, hf, hfalse⟩

/-- **A stack accepts as its strategy says.** -/
theorem evaluatePolicyRules_simulates {r : Records} (listed : Listings)
    (payload : TransactionPayload) (strategy : CombinationStrategy)
    (h : ∀ tree ∈ r.policyRules.getD [], Admissible tree) :
    ∃ b, Simulates listed (r.evaluatePolicyRules listed payload strategy) (some b) ∧
      (b = true ↔ strategy.Accepts (r.policyRules.getD []) listed payload) := by
  have hrooted : ∀ tree ∈ r.policyRules.getD [], tree ≠ [] := fun tree htree =>
    List.length_pos_iff.1 (h tree htree).wellFormed.root
  cases strategy with
  | all =>
      obtain ⟨b, hsimulates, hfalse⟩ := firstRule_simulates listed payload false h
      refine ⟨b, ?_, ?_⟩
      · rw [← allRules_eq _ hrooted] at hsimulates
        exact hsimulates
      · rw [← Bool.not_eq_false b, hfalse, CombinationStrategy.Accepts]
        push Not
        exact forall₂_congr fun tree htree => (h tree htree).denotes_iff.symm
  | any =>
      obtain ⟨b, hsimulates, htrue⟩ := firstRule_simulates listed payload true h
      by_cases hnone : r.policyRules.getD [] = []
      · refine ⟨true, ?_, by simp [CombinationStrategy.Accepts, hnone]⟩
        intro context hcontext
        refine ⟨context, ?_, hcontext⟩
        simp only [Records.evaluatePolicyRules, hnone, List.length_nil, if_true]
        rfl
      · refine ⟨b, ?_, by simpa [CombinationStrategy.Accepts, hnone] using htrue⟩
        intro context hcontext
        have hrules := hsimulates context hcontext
        rw [← anyRule_eq _ hrooted] at hrules
        simpa only [Records.evaluatePolicyRules, List.length_eq_zero_iff, if_neg hnone] using hrules

/-- **The semantics of rule trees.**  Whatever was read of the blocklists before, an admissible
tree evaluates to what the one formula it writes down denotes, and a stack of admissible trees
accepts exactly what its strategy demands. -/
theorem rule_tree_semantics (s : State) (payload : TransactionPayload)
    (context : RuleEvaluationContext) (hcontext : context.Agrees (s.listings payload.recipient)) :
    (∀ tree, Admissible tree → ∃ f, (∀ g, Encodes tree 0 g ↔ g = f) ∧ ∃ context',
      evaluateNode (s.listings payload.recipient) tree payload maxRuleDepth 0 context
        = .ok (f.denote (·.compare (s.listings payload.recipient) payload), context') ∧
      context'.Agrees (s.listings payload.recipient)) ∧
    (∀ id strategy, (∀ tree ∈ (s.records id).policyRules.getD [], Admissible tree) →
      ∃ holds context', (s.records id).evaluatePolicyRules (s.listings payload.recipient) payload
        strategy context = .ok (holds, context') ∧
      context'.Agrees (s.listings payload.recipient) ∧
      (holds = true ↔ strategy.Accepts ((s.records id).policyRules.getD [])
        (s.listings payload.recipient) payload)) := by
  constructor
  · intro tree htree
    obtain ⟨f, hf, heval⟩ := htree.denotes (s.listings payload.recipient) payload
    obtain ⟨context', hok, hcontext'⟩ := heval context hcontext
    refine ⟨f, ?_, context', hok, hcontext'⟩
    intro g
    constructor
    · exact fun hg => hg.unique hf
    · rintro rfl
      exact hf
  · intro id strategy hstack
    obtain ⟨holds, heval, haccepts⟩ :=
      evaluatePolicyRules_simulates (s.listings payload.recipient) payload strategy hstack
    obtain ⟨context', hok, hcontext'⟩ := heval context hcontext
    exact ⟨holds, context', hok, hcontext', haccepts⟩

/-- Both parts of the conjunction at the root have the negation of a maximum of 100 below them. -/
def sharedRule : RuleTree :=
  [⟨.and, 0, .account 0, 1, 3⟩, ⟨.or, 0, .account 0, 2, 4⟩, ⟨.not, 0, .account 0, 3, 4⟩,
    ⟨.maxAmount, 100, .account 0, 0, 0⟩]

theorem sharedRule_forward : Forward sharedRule := by
  refine ⟨rfl, ?_⟩
  intro i node hnode _
  match i with
  | 0 | 1 | 2 =>
      cases hnode
      decide
  | 3 =>
      cases hnode
      contradiction
  | _ + 4 => cases hnode

/-- A contract with one rule in the stack of the policy `active`. -/
def ruled : State :=
  deployed.amend "active" fun r => { r with policyRules := some [sharedRule] }

theorem ruled_rules : (ruled.records "active").policyRules.getD [] = [sharedRule] := by
  simp [ruled, State.amend]

/-- It holds of 300, and so the stack accepts. -/
theorem rule_tree_semantics_shared :
    sharedRule.Denotes ⟨false, false⟩ ⟨.contract 7, .account 2, 300⟩ true ∧
      CombinationStrategy.all.Accepts [sharedRule] ⟨false, false⟩
        ⟨.contract 7, .account 2, 300⟩ := by
  have hadmissible : Admissible sharedRule := sharedRule_forward.admissible (by decide)
  obtain ⟨htree, hstack⟩ := rule_tree_semantics ruled ⟨.contract 7, .account 2, 300⟩ .default
    default_agrees
  have hlisted : ruled.listings (.account 2) = ⟨false, false⟩ := rfl
  simp only [hlisted] at htree hstack
  have hdenotes : sharedRule.Denotes ⟨false, false⟩ ⟨.contract 7, .account 2, 300⟩ true := by
    obtain ⟨f, hf, _, heval, _⟩ := htree sharedRule hadmissible
    have htrue : evaluateNode ⟨false, false⟩ sharedRule ⟨.contract 7, .account 2, 300⟩
        maxRuleDepth 0 .default = .ok (true, .default) := rfl
    rw [htrue, Except.ok.injEq, Prod.mk.injEq] at heval
    exact ⟨f, (hf f).2 rfl, heval.1.symm⟩
  refine ⟨hdenotes, ?_⟩
  obtain ⟨holds, _, hrules, _, haccepts⟩ := hstack "active" .all (by simpa [ruled_rules])
  have htrue : (ruled.records "active").evaluatePolicyRules ⟨false, false⟩
      ⟨.contract 7, .account 2, 300⟩ .all .default = .ok (true, .default) := rfl
  rw [htrue, Except.ok.injEq, Prod.mk.injEq] at hrules
  rw [ruled_rules] at haccepts
  exact haccepts.1 hrules.1.symm

end PolicyContract
end Astroid
