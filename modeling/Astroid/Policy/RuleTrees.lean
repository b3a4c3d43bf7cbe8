import Astroid.Lib.Recursion
import Astroid.Policy.Machine

/-!
# Rule trees

The evaluation of a rule tree is a recursion with a depth limit (`evaluateNode_simulates`).  A
tree that was accepted is evaluated to the value it has, unless the evaluation goes down more
nodes than the limit allows; then it is refused (`accepted_rule_evaluates`).
-/

namespace Astroid
namespace PolicyContract

open Outcome Body

variable {listed : Listings} {tree : RuleTree} {payload : TransactionPayload}
  {context : RuleEvaluationContext}

/-! ## What a tree says -/

/-- Ask for the nodes in order until one is `decides`, which is then the outcome. -/
def firstThat (decides : Bool) : List ℕ → Body ℕ Bool
  | [] => .ret !decides
  | i :: rest => .ask i fun holds => if holds = decides then .ret decides else firstThat decides rest

/-- What a node asks of its children. -/
def RuleNode.body (listed : Listings) (payload : TransactionPayload) (node : RuleNode) :
    Body ℕ Bool :=
  match node.op with
  | .maxAmount => .ret (decide (payload.amount ≤ node.valueI128))
  | .allowedRecipient => .ret (decide (payload.recipient = node.valueAddress))
  | .allowedAsset => .ret (decide (payload.asset = node.valueAddress))
  | .recipientBlacklisted => .ret listed.recipient
  | .merchantBlacklisted => .ret listed.merchant
  | .and => firstThat false node.children
  | .or => firstThat true node.children
  | .not => .ask node.childrenStart fun holds => .ret !holds

/-- The rule at an index of a tree; there is none beyond its end. -/
def RuleTree.body (tree : RuleTree) (listed : Listings) (payload : TransactionPayload) (i : ℕ) :
    Body ℕ Bool :=
  match tree[i]? with
  | some node => node.body listed payload
  | none => .ret false

/-! ## The context -/

/-- What was read of the blocklists is what they say. -/
structure RuleEvaluationContext.Agrees (context : RuleEvaluationContext) (listed : Listings) :
    Prop where
  recipient : ∀ b, context.recipientBlacklisted = some b → b = listed.recipient
  merchant : ∀ b, context.merchantBlacklisted = some b → b = listed.merchant

theorem default_agrees : RuleEvaluationContext.default.Agrees listed := by
  constructor
  · intro b h
    cases h
  · intro b h
    cases h

theorem RuleEvaluationContext.Agrees.readRecipient (h : context.Agrees listed) :
    ∃ context', context.readRecipient listed = (listed.recipient, context') ∧
      context'.Agrees listed := by
  obtain ⟨_ | b, merchant⟩ := context
  · exact ⟨_, rfl, fun b hb => (Option.some.inj hb).symm, h.merchant⟩
  · obtain rfl := h.recipient b rfl
    exact ⟨_, rfl, h⟩

theorem RuleEvaluationContext.Agrees.readMerchant (h : context.Agrees listed) :
    ∃ context', context.readMerchant listed = (listed.merchant, context') ∧
      context'.Agrees listed := by
  obtain ⟨recipient, _ | b⟩ := context
  · exact ⟨_, rfl, h.recipient, fun b hb => (Option.some.inj hb).symm⟩
  · obtain rfl := h.merchant b rfl
    exact ⟨_, rfl, h⟩

/-! ## The evaluation is the recursion -/

/-- A result is the outcome, and invalid input where there is none. -/
def Yields (listed : Listings) (result : Result (Bool × RuleEvaluationContext)) :
    Option Bool → Prop
  | some holds => ∃ context, result = .ok (holds, context) ∧ context.Agrees listed
  | none => result = .error (.error .invalidInput)

/-- A computation yields the outcome, whatever was read before. -/
def Simulates (listed : Listings) (f : Screening Bool) (outcome : Option Bool) : Prop :=
  ∀ context, context.Agrees listed → Yields listed (f context) outcome

/-- The loop both branches are: the first child that is `decides` decides. -/
def firstChild (evaluate : ℕ → Screening Bool) (decides : Bool) : List ℕ → Screening Bool
  | [], context => pure (!decides, context)
  | i :: rest, context => do
      let (holds, context) ← evaluate i context
      if holds = decides then pure (decides, context) else firstChild evaluate decides rest context

theorem allChildren_eq (evaluate : ℕ → Screening Bool) (l : List ℕ) :
    allChildren evaluate l = firstChild evaluate false l := by
  induction l with
  | nil => rfl
  | cons i rest ih =>
      funext context
      simp only [allChildren, firstChild, ih]
      congr 1
      funext ⟨holds, context⟩
      cases holds <;> rfl

theorem anyChild_eq (evaluate : ℕ → Screening Bool) (l : List ℕ) :
    anyChild evaluate l = firstChild evaluate true l := by
  induction l with
  | nil => rfl
  | cons i rest ih =>
      funext context
      simp only [anyChild, firstChild, ih]

theorem firstChild_simulates {evaluate : ℕ → Screening Bool} {f : ℕ → Option Bool}
    {decides : Bool} {l : List ℕ} (h : ∀ i ∈ l, Simulates listed (evaluate i) (f i)) :
    Simulates listed (firstChild evaluate decides l) ((firstThat decides l).resolve f) := by
  induction l with
  | nil => exact fun context hcontext => ⟨context, rfl, hcontext⟩
  | cons i rest ih =>
      rw [List.forall_mem_cons] at h
      intro context hcontext
      have hfirst := h.1 context hcontext
      rw [firstThat, resolve]
      cases hanswer : f i with
      | none =>
          rw [hanswer] at hfirst
          have hfails : evaluate i context = .error (.error .invalidInput) := hfirst
          show firstChild evaluate decides (i :: rest) context = _
          rw [firstChild, hfails]
          rfl
      | some holds =>
          rw [hanswer] at hfirst
          obtain ⟨context₁, heval, hcontext₁⟩ := hfirst
          have hloop : firstChild evaluate decides (i :: rest) context
              = if holds = decides then pure (decides, context₁)
                else firstChild evaluate decides rest context₁ := by
            rw [firstChild, heval]
            rfl
          rw [hloop, Option.bind_some]
          by_cases hdecides : holds = decides
          · rw [if_pos hdecides, if_pos hdecides]
            exact ⟨context₁, rfl, hcontext₁⟩
          · rw [if_neg hdecides, if_neg hdecides]
            exact ih h.2 context₁ hcontext₁

/-- A tree that was accepted has a root, and its branches have children in it. -/
structure WellFormed (tree : RuleTree) : Prop where
  root : 0 < tree.length
  branch : ∀ node ∈ tree, node.op = .and ∨ node.op = .or →
    node.childrenStart ≠ node.childrenEnd ∧ ∀ i ∈ node.children, i < tree.length
  negation : ∀ node ∈ tree, node.op = .not →
    node.childrenEnd = node.childrenStart + 1 ∧ node.childrenStart < tree.length

theorem validateRuleTree_ok {u : Unit} (h : validateRuleTree tree = .ok u) : WellFormed tree := by
  obtain ⟨hne, hgood⟩ := require_eq_ok.1 h
  refine ⟨List.length_pos_iff.2 hne, ?_, ?_⟩
  · intro node hmem hop
    have hchildren := hgood node hmem
    have hrange : node.childrenStart < node.childrenEnd ∧ node.childrenEnd ≤ tree.length := by
      unfold RuleNode.badChildren at hchildren
      rcases hop with hop | hop
      · simpa [hop] using hchildren
      · simpa [hop] using hchildren
    refine ⟨hrange.1.ne, ?_⟩
    intro i hi
    rw [RuleNode.children, List.mem_range'_1] at hi
    omega
  · intro node hmem hop
    have hchildren := hgood node hmem
    unfold RuleNode.badChildren at hchildren
    simp only [hop, not_or, not_not, not_lt] at hchildren
    omega

/-- **The evaluation of a node is the recursion, down to the same depth.** -/
theorem evaluateNode_simulates (hwf : WellFormed tree) (depth : ℕ) {i : ℕ}
    (hi : i < tree.length) :
    Simulates listed (evaluateNode listed tree payload depth i)
      (run (tree.body listed payload) depth i) := by
  induction depth generalizing i with
  | zero => exact fun _ _ => rfl
  | succ remaining ih =>
      obtain ⟨node, hnode⟩ : ∃ node, tree[i]? = some node := ⟨_, List.getElem?_eq_getElem hi⟩
      have hmem := List.mem_of_getElem? hnode
      have hbody : tree.body listed payload i = node.body listed payload := by
        rw [RuleTree.body, hnode]
      intro context hcontext
      have hload : (okOr (some node) .invalidInput : Result RuleNode) = .ok node := rfl
      rw [run, hbody, RuleNode.body, evaluateNode, hnode, hload, ok_bind]
      cases hop : node.op with
      | maxAmount => exact ⟨context, rfl, hcontext⟩
      | allowedRecipient => exact ⟨context, rfl, hcontext⟩
      | allowedAsset => exact ⟨context, rfl, hcontext⟩
      | recipientBlacklisted =>
          obtain ⟨context', hread, hcontext'⟩ := hcontext.readRecipient
          exact ⟨context', congrArg _ hread, hcontext'⟩
      | merchantBlacklisted =>
          obtain ⟨context', hread, hcontext'⟩ := hcontext.readMerchant
          exact ⟨context', congrArg _ hread, hcontext'⟩
      | and =>
          obtain ⟨hne, hchildren⟩ := hwf.branch node hmem (.inl hop)
          simp only [if_neg hne, allChildren_eq]
          exact firstChild_simulates (fun j hj => ih (hchildren j hj)) context hcontext
      | or =>
          obtain ⟨hne, hchildren⟩ := hwf.branch node hmem (.inr hop)
          simp only [if_neg hne, anyChild_eq]
          exact firstChild_simulates (fun j hj => ih (hchildren j hj)) context hcontext
      | not =>
          obtain ⟨hone, hchild⟩ := hwf.negation node hmem hop
          have hanswers := ih hchild context hcontext
          simp only [hone, ne_eq, not_true_eq_false, if_false, resolve]
          cases hanswer : run (tree.body listed payload) remaining node.childrenStart with
          | none =>
              rw [hanswer] at hanswers
              have hfails : evaluateNode listed tree payload remaining node.childrenStart context
                  = .error (.error .invalidInput) := hanswers
              rw [hfails]
              rfl
          | some holds =>
              rw [hanswer] at hanswers
              obtain ⟨context', heval, hcontext'⟩ := hanswers
              rw [heval]
              exact ⟨context', rfl, hcontext'⟩

/-! ## Accepted trees -/

/-- One of the entrypoints that store rule trees stored this one. -/
def Stored (tree : RuleTree) : Prop :=
  ∃ (self : Address) (env : Env self) (s s' : State) (caller : Address) (id : String),
    setCompositeRule env s caller id tree = .ok s' ∨
      ∃ count, addPolicyRule env s caller id tree = .ok (count, s')

/-- No tree is stored that was not accepted. -/
theorem Stored.accepted (h : Stored tree) : validateRuleTree tree = .ok () := by
  obtain ⟨_, _, _, _, _, _, hset | ⟨_, hadd⟩⟩ := h
  · simp only [setCompositeRule, bind_eq_ok] at hset
    obtain ⟨_, _, _, hvalid, _⟩ := hset
    exact hvalid
  · simp only [addPolicyRule, bind_eq_ok] at hadd
    obtain ⟨_, _, _, hvalid, _⟩ := hadd
    exact hvalid

/-- **Accepted rules evaluate.**  From its root, an accepted tree is evaluated to the value it
has, unless the evaluation goes down a chain of more than `MAX_RULE_DEPTH` nodes; then, and for
no other reason, it is refused as invalid input. -/
theorem accepted_rule_evaluates
    (haccepted : validateRuleTree tree = .ok () ∨ Stored tree)
    (hcontext : context.Agrees listed) :
    (Descends (tree.body listed payload) maxRuleDepth 0 ∧
      evaluateNode listed tree payload maxRuleDepth 0 context = .error (.error .invalidInput)) ∨
    (¬ Descends (tree.body listed payload) maxRuleDepth 0 ∧
      ∃ holds context', evaluateNode listed tree payload maxRuleDepth 0 context
          = .ok (holds, context') ∧
        Value (tree.body listed payload) (tree.body listed payload 0) holds ∧
        context'.Agrees listed) := by
  have hvalid : validateRuleTree tree = .ok () := by
    rcases haccepted with hvalid | hstored
    · exact hvalid
    · exact hstored.accepted
  have hwf := validateRuleTree_ok hvalid
  have hyields : Yields listed (evaluateNode listed tree payload maxRuleDepth 0 context)
      (run (tree.body listed payload) maxRuleDepth 0) :=
    evaluateNode_simulates hwf maxRuleDepth hwf.root context hcontext
  cases hrun : run (tree.body listed payload) maxRuleDepth 0 with
  | none =>
      rw [hrun] at hyields
      exact .inl ⟨run_eq_none_iff.1 hrun, hyields⟩
  | some holds =>
      rw [hrun] at hyields
      obtain ⟨context', heval, hcontext'⟩ := hyields
      refine .inr ⟨?_, holds, context', heval, value_of_run hrun, hcontext'⟩
      intro hdeep
      rw [run_eq_none_iff.2 hdeep] at hrun
      cases hrun

/-- `depth` negations, each of the next, over a maximum of 100. -/
def negations (depth : ℕ) : RuleTree :=
  (List.range depth).map (fun i => ⟨.not, 0, .account 0, i + 1, i + 2⟩) ++
    [⟨.maxAmount, 100, .account 0, 0, 0⟩]

/-- Nine negations of a maximum of 100 hold of 300. -/
theorem accepted_rule_evaluates_negations :
    ¬ Descends ((negations 9).body ⟨false, false⟩ ⟨.contract 7, .account 2, 300⟩) maxRuleDepth 0 ∧
      Value ((negations 9).body ⟨false, false⟩ ⟨.contract 7, .account 2, 300⟩)
        ((negations 9).body ⟨false, false⟩ ⟨.contract 7, .account 2, 300⟩ 0) true := by
  have haccepted : validateRuleTree (negations 9) = .ok () := rfl
  have heval : evaluateNode ⟨false, false⟩ (negations 9) ⟨.contract 7, .account 2, 300⟩
      maxRuleDepth 0 .default = .ok (true, .default) := rfl
  have hyields := @accepted_rule_evaluates ⟨false, false⟩ (negations 9)
    ⟨.contract 7, .account 2, 300⟩ .default (.inl haccepted) default_agrees
  rw [heval] at hyields
  rcases hyields with ⟨_, hrefused⟩ | ⟨hshallow, holds, _, hsame, hvalue, _⟩
  · cases hrefused
  · cases hsame
    exact ⟨hshallow, hvalue⟩

/-- Fifteen negations are accepted, but too deep to evaluate. -/
theorem not_accepted_rule_evaluates :
    ¬ ∀ (listed : Listings) (tree : RuleTree) (payload : TransactionPayload),
      validateRuleTree tree = .ok () → ∃ holds context,
        evaluateNode listed tree payload maxRuleDepth 0 .default = .ok (holds, context) := by
  intro h
  have haccepted : validateRuleTree (negations 15) = .ok () := rfl
  obtain ⟨_, _, heval⟩ := h ⟨false, false⟩ (negations 15) ⟨.contract 7, .account 2, 300⟩ haccepted
  cases heval

end PolicyContract
end Astroid
