import Astroid.Lib.Cached
import Astroid.Policy.Requests
import Astroid.Policy.RuleFormulas

/-!
# What a policy permits

The walk over the rules of a policy reads the blocklists once and passes what it read from
rule to rule and from leg to leg.  Its answer does not depend on what was read before
(`Steady`), so it is the conjunction of the gates as the records state them
(`check_transfer_exact`), and a request of several assets passes just if the total of each of
its assets passes alone (`multi_check_exact`).
-/

namespace Astroid
namespace PolicyContract

open Outcome Body

variable {self : Address} {env : Env self} {s s' : State} {id : String} {caller asset : Address}
  {listed : Listings} {α β : Type}

/-! ## Stored rules and allowances -/

/-- Every stored tree was accepted. -/
structure Records.Ruled (r : Records) : Prop where
  composite : ∀ tree, r.compositeRule = some tree → WellFormed tree
  stack : ∀ tree ∈ r.policyRules.getD [], WellFormed tree

/-- What is left of the rules was there, or is accepted. -/
structure Records.EditsRules (r r' : Records) : Prop where
  composite : ∀ tree, r'.compositeRule = some tree → r.compositeRule = some tree ∨ WellFormed tree
  stack : ∀ tree ∈ r'.policyRules.getD [], tree ∈ r.policyRules.getD [] ∨ WellFormed tree

theorem Records.Ruled.edit {r r' : Records} (h : r.Ruled) (hedit : r.EditsRules r') : r'.Ruled := by
  refine ⟨?_, ?_⟩
  · intro tree htree
    exact (hedit.composite tree htree).elim (h.composite tree) fun hwf => hwf
  · intro tree htree
    exact (hedit.stack tree htree).elim (h.stack tree) fun hwf => hwf

/-- The rules were left alone. -/
theorem Records.editsRules_kept {r r' : Records} (hcomposite : r'.compositeRule = r.compositeRule)
    (hstack : r'.policyRules = r.policyRules) : r.EditsRules r' := by
  refine ⟨?_, ?_⟩
  · intro tree htree
    exact .inl (hcomposite ▸ htree)
  · intro tree htree
    rw [hstack] at htree
    exact .inl htree

/-- A call that rewrote the records of one policy. -/
theorem rules_amend {f : Records → Records} (h : (pure (s.amend id f) : Result State) = .ok s')
    (hf : (s.records id).EditsRules (f (s.records id))) (id' : String) :
    (s.records id').EditsRules (s'.records id') := by
  rw [pure_eq_ok] at h
  subst h
  by_cases hid : id' = id
  · subst hid
    rw [amend_records]
    exact hf
  · rw [amend_records_ne hid]
    exact Records.editsRules_kept rfl rfl

/-- A call that left the records alone. -/
theorem rules_same {s₁ : State} (h : (pure s₁ : Result State) = .ok s')
    (hsame : s₁.records = s.records) (id' : String) :
    (s.records id').EditsRules (s'.records id') := by
  rw [pure_eq_ok] at h
  subst h
  rw [hsame]
  exact Records.editsRules_kept rfl rfl

/-- What charged or set an allowance left the rules alone. -/
theorem Effect.rules {call : Call} (h : Effect env s call s') (hplain : ¬ call.Plain)
    (id' : String) : (s.records id').EditsRules (s'.records id') := by
  cases h with
  | read hcall => exact absurd hcall hplain
  | started hcall => exact absurd hcall hplain
  | registered _ _ hcall => exact absurd hcall hplain
  | listed _ _ hcall => exact absurd hcall hplain
  | governed _ _ _ hcall => exact absurd hcall hplain
  | limited _ id asset l _ _ _ _ hs' =>
      exact rules_amend (pure_eq_ok.2 hs'.symm) (Records.editsRules_kept rfl rfl) id'
  | removed _ id asset _ _ _ hs' =>
      exact rules_amend (pure_eq_ok.2 hs'.symm) (Records.editsRules_kept rfl rfl) id'
  | spent _ id _ _ _ _ hspent =>
      obtain ⟨allowance, hs', _⟩ := hspent
      exact rules_amend (pure_eq_ok.2 hs'.symm) (Records.editsRules_kept rfl rfl) id'

theorem removePolicyRule_rules {index : ℕ} (h : removePolicyRule env s caller id index = .ok s')
    (id' : String) : (s.records id').EditsRules (s'.records id') := by
  obtain ⟨_, _, _, _, h⟩ := owner_ok h
  obtain ⟨stack, hstack, h⟩ := bind_eq_ok.1 h
  rw [okOr_eq_ok] at hstack
  refine of_bind_ok h fun _ h => rules_amend h ⟨fun _ => .inl, ?_⟩ id'
  intro tree htree
  dsimp only at htree
  split at htree
  · cases htree
  · rw [hstack, Option.getD_some]
    exact .inl (List.mem_of_mem_eraseIdx htree)

theorem addPolicyRule_rules {rule : RuleTree} {count : ℕ}
    (h : addPolicyRule env s caller id rule = .ok (count, s')) (id' : String) :
    (s.records id').EditsRules (s'.records id') := by
  obtain ⟨_, _, _, _, h⟩ := owner_ok h
  simp only [bind_eq_ok, pure_eq_ok, Prod.mk.injEq] at h
  obtain ⟨_, hvalid, _, _, _, h⟩ := h
  refine rules_amend (pure_eq_ok.2 h) ⟨fun _ => .inl, ?_⟩ id'
  intro tree htree
  rcases List.mem_append.1 htree with htree | htree
  · exact .inl htree
  · rw [List.mem_singleton.1 htree]
    exact .inr (validateRuleTree_ok hvalid)

theorem setCompositeRule_rules {rule : RuleTree}
    (h : setCompositeRule env s caller id rule = .ok s') (id' : String) :
    (s.records id').EditsRules (s'.records id') := by
  obtain ⟨_, _, _, _, h⟩ := owner_ok h
  obtain ⟨_, hvalid, h⟩ := bind_eq_ok.1 h
  refine rules_amend h ⟨?_, fun _ => .inl⟩ id'
  rintro tree ⟨⟩
  exact .inr (validateRuleTree_ok hvalid)

/-- **Only accepted rules are stored.** -/
theorem exec_rules {call : Call} (hkeyed : Keyed s) (h : exec env s call = .ok s') (id' : String) :
    (s.records id').EditsRules (s'.records id') := by
  have hread {α : Type} {x : Result α} (hx : (fun _ => s) <$> x = .ok s') :
      (s.records id').EditsRules (s'.records id') := by
    obtain ⟨_, _, rfl⟩ := map_ok hx
    exact Records.editsRules_kept rfl rfl
  cases call with
  | initializeContract => exact of_bind_ok h fun _ h => rules_same h rfl id'
  | registerPolicy =>
      refine of_bind_ok h fun _ h => of_bind_ok h fun _ h => of_bind_ok h fun _ h => ?_
      exact rules_amend h (Records.editsRules_kept rfl rfl) id'
  | rotatePolicy | setEnabled | setRuleCombinationStrategy | setAssetWhitelistEnabled
  | setRecipientWhitelistEnabled | setWhitelistEnabled =>
      obtain ⟨_, _, _, _, h⟩ := owner_ok h
      exact rules_amend h (Records.editsRules_kept rfl rfl) id'
  | addAssetToWhitelist | removeAssetFromWhitelist | addAssetBlacklist | removeAssetBlacklist
  | addRecipientToWhitelist | addWhitelist | removeRecipientFromWhitelist | removeWhitelist =>
      obtain ⟨_, _, _, _, h⟩ := owner_ok h
      refine of_bind_ok h fun _ h => ?_
      exact rules_amend h (Records.editsRules_kept rfl rfl) id'
  | setTransferWindow =>
      obtain ⟨_, _, _, _, h⟩ := owner_ok h
      refine of_bind_ok h fun _ h => of_bind_ok h fun _ h => ?_
      exact rules_amend h (Records.editsRules_kept rfl rfl) id'
  | clearCompositeRule =>
      obtain ⟨_, _, _, _, h⟩ := owner_ok h
      refine of_bind_ok h fun _ h => rules_amend h ⟨?_, fun _ => .inl⟩ id'
      rintro tree ⟨⟩
  | clearPolicyRules =>
      obtain ⟨_, _, _, _, h⟩ := owner_ok h
      refine of_bind_ok h fun _ h => rules_amend h ⟨fun _ => .inl, ?_⟩ id'
      rintro tree ⟨⟩
  | setCompositeRule => exact setCompositeRule_rules h id'
  | addPolicyRule =>
      obtain ⟨_, h⟩ := snd_map_ok h
      exact addPolicyRule_rules h id'
  | removePolicyRule => exact removePolicyRule_rules h id'
  | addBlacklist | removeBlacklist | addMerchantBlacklist | removeMerchantBlacklist
  | removeCategoryBlacklist | addToBlocklist | removeFromBlocklist =>
      obtain ⟨_, _, _, _, h⟩ := owner_ok h
      exact of_bind_ok h fun _ h => rules_same h rfl id'
  | addCategoryBlacklist =>
      obtain ⟨_, _, _, _, h⟩ := owner_ok h
      exact of_bind_ok h fun _ h => of_bind_ok h fun _ h => rules_same h rfl id'
  | setAllowance | setRecurringAllowance | removeAllowance | updateAllowance
  | recordMultiAssetSpend => exact (exec_effect hkeyed h).rules not_false id'
  | getAllowance =>
      cases h
      exact Records.editsRules_kept rfl rfl
  | checkAllowance | checkTransfer | evaluatePolicy | checkMultiAssetTransfer | checkCategory =>
      exact hread h

/-- The numbers of an allowance are amounts. -/
structure AssetAllowance.Sound (a : AssetAllowance) : Prop where
  limit : 0 ≤ a.limit ∧ a.limit ≤ i128Max
  spent : 0 ≤ a.spent ∧ a.spent ≤ i128Max

/-- What the records of a policy always are. -/
structure Records.Sound (r : Records) : Prop where
  ruled : r.Ruled
  allowance : ∀ asset a, r.allowance asset = some a → a.Sound

theorem AssetAllowance.Sound.settled {a : AssetAllowance} (h : a.Sound) (now : ℕ) :
    (a.settled now).Sound := by
  refine ⟨h.limit, ?_⟩
  have hspent := h.spent
  unfold AssetAllowance.settled Periods.Counter.settle AssetAllowance.counter
  dsimp only
  split
  · exact hspent
  · exact ⟨le_rfl, by decide⟩

theorem consumeAllowance_sound {r : Records} {now : ℕ} (hnow : now < 2 ^ 64)
    {amount : ℤ} (hamount : 0 < amount) {a : AssetAllowance}
    (hsound : ∀ a, r.allowance asset = some a → a.Sound)
    (h : r.consumeAllowance now asset amount = .ok (some a)) : a.Sound := by
  unfold Records.consumeAllowance at h
  split at h
  · cases h
  · rename_i stored hstored
    split at h
    · cases h
    · simp only [bind_eq_ok, pure_eq_ok, Option.some.injEq] at h
      obtain ⟨_, hconsume, rfl⟩ := h
      obtain ⟨hroom, rfl⟩ := AssetAllowance.consume_ok hnow hconsume
      have hsettled := (hsound stored hstored).settled now
      have hlimit : stored.limit ≤ i128Max := (hsound stored hstored).limit.2
      have hspent : 0 ≤ (stored.settled now).spent := hsettled.spent.1
      refine ⟨hsettled.limit, ?_, ?_⟩
      · dsimp only
        omega
      · dsimp only
        omega

theorem Call.limit_isI128 {call : Call} {l : Limit} (h : call.limit id asset = some l) :
    l.limit ≤ i128Max := by
  cases call with
  | setAllowance caller id' asset' limit expiresAt =>
      simp only [Call.limit] at h
      split at h
      · cases h
        exact limit.2.2
      · cases h
  | setRecurringAllowance caller id' asset' limit windowSeconds expiresAt =>
      simp only [Call.limit] at h
      split at h
      · cases h
        exact limit.2.2
      · cases h
  | _ => cases h

/-- A limit that is set keeps what was spent, or starts from nothing. -/
theorem limited_sound {r : Records} {now : ℕ} {l : Limit} (hlow : 0 ≤ l.limit)
    (hhigh : l.limit ≤ i128Max) (hsound : ∀ a, r.allowance asset = some a → a.Sound) :
    (r.limited now id asset l).Sound := by
  have hbefore : (r.allowanceOrUnset id asset).Sound := by
    unfold Records.allowanceOrUnset
    cases ha : r.allowance asset with
    | none =>
        have hzero : (0 : ℤ) ≤ i128Max := by decide
        exact ⟨⟨le_rfl, hzero⟩, ⟨le_rfl, hzero⟩⟩
    | some a => exact hsound a ha
  have hspent : (r.limited now id asset l).spent = ((r.allowanceOrUnset id asset).settled now).spent := by
    unfold Records.limited AssetAllowance.withWindow
    dsimp only
    split <;> split <;> first | rfl | (split <;> rfl)
  refine ⟨⟨hlow, hhigh⟩, ?_⟩
  rw [hspent]
  exact (hbefore.settled now).spent

/-- One call. -/
theorem Records.Sound.step {call : Call} (hkeyed : Keyed s) (hs : ∀ id, (s.records id).Sound)
    (h : exec env s call = .ok s') (id : String) : (s'.records id).Sound := by
  refine ⟨(hs id).ruled.edit (exec_rules hkeyed h id), ?_⟩
  intro asset a ha
  have hsound := (hs id).allowance asset
  cases (exec_effect hkeyed h).allowance id asset with
  | charged hlimit hcharged =>
      unfold Charged at hcharged
      split at hcharged
      · exact hsound a (hcharged.symm.trans ha)
      · obtain ⟨hpos, allowance, hconsumed, hafter⟩ := hcharged
        rw [hafter] at ha
        cases allowance with
        | none => exact hsound a ha
        | some left =>
            rw [Option.some_or, Option.some.injEq] at ha
            subst ha
            exact consumeAllowance_sound env.timestamp.toNat_lt hpos hsound hconsumed
  | limited l hlimit _ hlow hafter =>
      rw [hafter, Option.some.injEq] at ha
      subst ha
      exact limited_sound hlow (Call.limit_isI128 hlimit) hsound
  | removed _ _ hafter =>
      rw [hafter] at ha
      cases ha

/-- **In every state of a run the stored rules were accepted**, and the numbers of allowances
are amounts. -/
theorem sound_reachable (h : Reachable self s) (id : String) : (s.records id).Sound := by
  obtain ⟨tr, t, h⟩ := h
  have hall : ∀ id, (s.records id).Sound := by
    refine h.history (P := fun _ s _ => ∀ id, (s.records id).Sound) ?_ ?_
    · intro s t hinit id
      have hfresh : Fresh s := hinit
      rw [hfresh.records id]
      exact ⟨⟨by rintro tree ⟨⟩, by rintro tree ⟨⟩⟩, by rintro asset a ⟨⟩⟩
    · intro tr s t i s' hpath hs _ _ hstep
      cases i with
      | invoke env call => exact Records.Sound.step (keyed_reachable hpath.reachable) hs hstep
      | outside _ _ =>
          obtain rfl := hstep
          exact hs
  exact hall id

/-! ## The walk without its cache -/

/-- The computation answers `r`, whatever was read of the blocklists before. -/
abbrev Answered (listed : Listings) (f : Screening α) (r : Result α) : Prop :=
  Cached.Gives (fun context => context.Agrees listed) f r

/-- What an accepted tree evaluates to: a tree that goes too deep is invalid input. -/
def RuleTree.verdict (tree : RuleTree) (listed : Listings) (payload : TransactionPayload) :
    Result Bool :=
  match run (tree.body listed payload) maxRuleDepth 0 with
  | some holds => .ok holds
  | none => .error (.error .invalidInput)

section Walk

variable {r : Records} {now : ℕ} {policy : Policy} {recipient : Address} {amount : ℤ}
  {payload : TransactionPayload} {tree : RuleTree} {stack : RuleStack}

theorem evaluateNode_answered (hwf : WellFormed tree) :
    Answered listed (evaluateNode listed tree payload maxRuleDepth 0)
      (tree.verdict listed payload) := by
  have hsimulates : Simulates listed (evaluateNode listed tree payload maxRuleDepth 0)
      (run (tree.body listed payload) maxRuleDepth 0) :=
    evaluateNode_simulates hwf maxRuleDepth hwf.root
  unfold RuleTree.verdict
  cases hrun : run (tree.body listed payload) maxRuleDepth 0 with
  | none =>
      rw [hrun] at hsimulates
      exact hsimulates
  | some holds =>
      rw [hrun] at hsimulates
      exact hsimulates

/-- What the composite rule comes to; there need be none. -/
def Records.compositeVerdict (r : Records) (listed : Listings) (payload : TransactionPayload) :
    Result Bool :=
  match r.compositeRule with
  | none => .ok true
  | some tree => tree.verdict listed payload

theorem compositeRule_answered (hruled : r.Ruled) :
    Answered listed (r.evaluateCompositeRule listed payload) (r.compositeVerdict listed payload) := by
  unfold Records.evaluateCompositeRule Records.compositeVerdict
  cases htree : r.compositeRule with
  | none => exact .pure true
  | some tree =>
      have hwf := hruled.composite tree htree
      have hrooted : tree ≠ [] := List.length_pos_iff.1 hwf.root
      simp only [if_neg hrooted]
      exact evaluateNode_answered hwf

/-- What the rules of a stack come to: the first that `decides` decides. -/
def stackVerdict (decides : Bool) (listed : Listings) (payload : TransactionPayload) :
    RuleStack → Result Bool
  | [] => .ok !decides
  | tree :: rest => do
      let holds ← tree.verdict listed payload
      if holds = decides then .ok decides else stackVerdict decides listed payload rest

theorem firstRule_answered (decides : Bool) (hwf : ∀ tree ∈ stack, WellFormed tree) :
    Answered listed
      (firstRule (fun tree => evaluateNode listed tree payload maxRuleDepth 0) decides stack)
      (stackVerdict decides listed payload stack) := by
  induction stack with
  | nil => exact .pure _
  | cons tree rest ih =>
      rw [List.forall_mem_cons] at hwf
      refine (evaluateNode_answered hwf.1).bind ?_
      intro holds
      dsimp only
      by_cases hdecides : holds = decides
      · simp only [if_pos hdecides]
        exact .pure decides
      · simp only [if_neg hdecides]
        exact ih hwf.2

/-- What the stack comes to under a strategy. -/
def CombinationStrategy.verdict (strategy : CombinationStrategy) (listed : Listings)
    (payload : TransactionPayload) (stack : RuleStack) : Result Bool :=
  match strategy with
  | .all => stackVerdict false listed payload stack
  | .any => if stack = [] then .ok true else stackVerdict true listed payload stack

theorem policyRules_answered (hruled : r.Ruled) (strategy : CombinationStrategy) :
    Answered listed (r.evaluatePolicyRules listed payload strategy)
      (strategy.verdict listed payload (r.policyRules.getD [])) := by
  have hrooted : ∀ tree ∈ r.policyRules.getD [], tree ≠ [] := fun tree htree =>
    List.length_pos_iff.1 (hruled.stack tree htree).root
  unfold Records.evaluatePolicyRules CombinationStrategy.verdict
  cases strategy with
  | all =>
      simp only [allRules_eq _ hrooted]
      exact firstRule_answered false hruled.stack
  | any =>
      simp only [List.length_eq_zero_iff, anyRule_eq _ hrooted]
      split
      · exact .pure true
      · exact firstRule_answered true hruled.stack

/-- What the rules of a leg come to after its allowance. -/
def Records.rulesVerdict (r : Records) (listed : Listings) (policy : Policy)
    (payload : TransactionPayload) (allowance : Option AssetAllowance) : Result Screened := do
  let holds ← r.compositeVerdict listed payload
  if holds = false then
    .ok (.denied .compositeRuleDenied)
  else do
    let holds ← policy.ruleCombinationStrategy.verdict listed payload (r.policyRules.getD [])
    if holds = false then .ok (.denied .ruleStackDenied) else .ok (.passed allowance)

theorem screenRules_answered (hruled : r.Ruled) (allowance : Option AssetAllowance) :
    Answered listed (r.screenRules listed policy payload allowance)
      (r.rulesVerdict listed policy payload allowance) := by
  unfold Records.screenRules Records.rulesVerdict
  refine (compositeRule_answered hruled).bind ?_
  intro holds
  dsimp only
  by_cases hholds : holds = false
  · simp only [if_pos hholds]
    exact .pure _
  · simp only [if_neg hholds]
    refine (policyRules_answered hruled policy.ruleCombinationStrategy).bind ?_
    intro accepts
    dsimp only
    by_cases haccepts : accepts = false
    · simp only [if_pos haccepts]
      exact .pure _
    · simp only [if_neg haccepts]
      exact .pure _

/-- What a leg comes to. -/
def Records.legVerdict (r : Records) (listed : Listings) (now : ℕ) (policy : Policy)
    (recipient : Address) (leg : Address × ℤ) : Result Screened :=
  match r.screenGates policy leg.1 recipient leg.2 with
  | some reason => .ok (.denied reason)
  | none =>
      match r.consumeAllowance now leg.1 leg.2 with
      | .ok allowance => r.rulesVerdict listed policy ⟨leg.1, recipient, leg.2⟩ allowance
      | .error (.error .allowanceExpired) => .ok (.denied .allowanceExpired)
      | .error (.error .allowanceExceeded) => .ok (.denied .allowanceExceeded)
      | .error other => .error other

theorem screenAssetRules_answered (hruled : r.Ruled) (leg : Address × ℤ) :
    Answered listed (r.screenAssetRules listed now policy leg.1 recipient leg.2)
      (r.legVerdict listed now policy recipient leg) := by
  unfold Records.screenAssetRules Records.legVerdict
  cases r.screenGates policy leg.1 recipient leg.2 with
  | some reason => exact .pure _
  | none =>
      dsimp only
      rcases r.consumeAllowance now leg.1 leg.2 with fault | allowance
      · rcases fault with e | e | _
        · cases e <;> first | exact .pure _ | exact .fail _
        · exact .fail _
        · exact .fail _
      · exact screenRules_answered hruled allowance

/-- What the rules about the recipient come to. -/
def Records.recipientVerdict (r : Records) (listed : Listings) (now : ℕ) (policy : Policy)
    (recipient : Address) : Option DenialReason :=
  if policy.enabled = false then some .disabled
  else if listed.recipient = true then some .recipientBlacklisted
  else if listed.merchant = true then some .merchantBlacklisted
  else if r.recipientWhitelistDenied recipient = true then some .recipientNotWhitelisted
  else if policy.isWithinTransferWindow now = false then some .outsideTransferWindow
  else if policy.expiresAt ≠ 0 ∧ policy.expiresAt ≤ now then some .expired
  else none

theorem screenRecipientRules_answered :
    Answered listed (r.screenRecipientRules listed now policy recipient)
      (.ok (r.recipientVerdict listed now policy recipient)) := by
  intro context hcontext
  obtain ⟨context₁, hrecipient, hcontext₁⟩ := hcontext.readRecipient
  obtain ⟨context₂, hmerchant, hcontext₂⟩ := hcontext₁.readMerchant
  unfold Records.screenRecipientRules Records.recipientVerdict
  simp only [hrecipient, hmerchant]
  split
  · exact ⟨context, rfl, hcontext⟩
  · split
    · exact ⟨context₁, rfl, hcontext₁⟩
    · split
      · exact ⟨context₂, rfl, hcontext₂⟩
      · split
        · exact ⟨context₂, rfl, hcontext₂⟩
        · split
          · exact ⟨context₂, rfl, hcontext₂⟩
          · split
            · exact ⟨context₂, rfl, hcontext₂⟩
            · exact ⟨context₂, rfl, hcontext₂⟩

/-- The walk starts with nothing read. -/
theorem screenRecipientRules_default (r : Records) (listed : Listings) (now : ℕ) (policy : Policy)
    (recipient : Address) : ∃ context : RuleEvaluationContext,
      r.screenRecipientRules listed now policy recipient .default
        = .ok (r.recipientVerdict listed now policy recipient, context) ∧ context.Agrees listed :=
  screenRecipientRules_answered .default default_agrees

end Walk

/-! ## One transfer -/

/-- What a leg that was screened means for a transfer of it. -/
def Screened.enforce : Result Screened → Result Unit
  | .ok (.passed _) => .ok ()
  | .ok (.denied reason) => .error (.error reason.toError)
  | .error fault => .error fault

/-- What a transfer of a positive amount comes to. -/
def Records.transferVerdict (r : Records) (listed : Listings) (now : ℕ) (policy : Policy)
    (recipient : Address) (leg : Address × ℤ) : Result Unit :=
  match r.recipientVerdict listed now policy recipient with
  | some reason => .error (.error reason.toError)
  | none => Screened.enforce (r.legVerdict listed now policy recipient leg)

section Transfers

variable {policy : Policy} {recipient : Address} {amount : ℤ}

theorem checkTransfer_eq (hruled : (s.records id).Ruled) (hpolicy : (s.records id).policy = some policy)
    (hamount : 0 < amount) : checkTransfer env s id asset recipient amount
      = (s.records id).transferVerdict (s.listings recipient) env.timestamp.toNat policy recipient
        (asset, amount) := by
  have hpositive : requirePositiveAmount amount = .ok () := requirePositiveAmount_eq_ok.2 hamount
  have hload : (okOr (some policy) .notFound : Result Policy) = .ok policy := rfl
  obtain ⟨context, hrecipient, hcontext⟩ :=
    screenRecipientRules_default (s.records id) (s.listings recipient) env.timestamp.toNat policy
      recipient
  unfold checkTransfer Records.evaluatePolicyDecision Records.transferVerdict
  rw [hpositive, ok_bind, hpolicy, hload, ok_bind, hrecipient, ok_bind]
  cases (s.records id).recipientVerdict (s.listings recipient) env.timestamp.toNat policy recipient with
  | some reason => rfl
  | none =>
      have hleg : Answered (s.listings recipient)
          ((s.records id).screenAssetRules (s.listings recipient) env.timestamp.toNat policy asset
            recipient amount)
          ((s.records id).legVerdict (s.listings recipient) env.timestamp.toNat policy recipient
            (asset, amount)) := screenAssetRules_answered hruled (asset, amount)
      dsimp only
      cases hverdict : (s.records id).legVerdict (s.listings recipient) env.timestamp.toNat policy
        recipient (asset, amount) with
      | error fault =>
          rw [hverdict] at hleg
          have hfails : (s.records id).screenAssetRules (s.listings recipient) env.timestamp.toNat
            policy asset recipient amount context = .error fault := hleg context hcontext
          rw [hfails]
          rfl
      | ok screened =>
          rw [hverdict] at hleg
          obtain ⟨context', hok, _⟩ := hleg context hcontext
          have hok : (s.records id).screenAssetRules (s.listings recipient) env.timestamp.toNat
            policy asset recipient amount context = .ok (screened, context') := hok
          rw [hok]
          cases screened with
          | passed allowance => rfl
          | denied reason => rfl

/-- Without a policy there is no transfer. -/
theorem checkTransfer_none (hpolicy : (s.records id).policy = none) (hamount : 0 < amount) :
    checkTransfer env s id asset recipient amount = .error (.error .notFound) := by
  have hpositive : requirePositiveAmount amount = .ok () := requirePositiveAmount_eq_ok.2 hamount
  unfold checkTransfer Records.evaluatePolicyDecision
  rw [hpositive, ok_bind, hpolicy]
  rfl

end Transfers

/-! ## What a policy says -/

/-- The tree has the value `holds`, and goes no deeper than the limit allows. -/
def RuleTree.Says (tree : RuleTree) (listed : Listings) (payload : TransactionPayload)
    (holds : Bool) : Prop :=
  Value (tree.body listed payload) (tree.body listed payload 0) holds ∧
    ¬ Descends (tree.body listed payload) maxRuleDepth 0

/-- What a strategy demands of a stack of rules; a rule that is not reached decides nothing. -/
def CombinationStrategy.Passes (strategy : CombinationStrategy) (listed : Listings)
    (payload : TransactionPayload) (stack : RuleStack) : Prop :=
  match strategy with
  | .all => ∀ tree ∈ stack, tree.Says listed payload true
  | .any => stack = [] ∨ ∃ front tree back, stack = front ++ tree :: back ∧
      tree.Says listed payload true ∧ ∀ q ∈ front, q.Says listed payload false

/-- **What a policy permits**, as its records state it. -/
structure Records.Permits (r : Records) (listed : Listings) (now : ℕ) (policy : Policy)
    (payload : TransactionPayload) : Prop where
  enabled : policy.enabled = true
  recipient : listed.recipient = false
  merchant : listed.merchant = false
  directory : r.recipientWhitelistEnabled.getD false = true → r.recipientWhitelist payload.recipient = true
  window : policy.isWithinTransferWindow now = true
  unexpired : policy.expiresAt = 0 ∨ now < policy.expiresAt
  ceiling : policy.maxAmount = 0 ∨ payload.amount ≤ policy.maxAmount
  allowedRecipient : ∀ allowed ∈ policy.allowedRecipient, allowed = payload.recipient
  allowedAsset : ∀ allowed ∈ policy.allowedAsset, allowed = payload.asset
  blacklist : r.assetBlacklist payload.asset = false
  whitelist : r.assetWhitelistEnabled.getD false = true → r.assetWhitelist payload.asset = true
  allowance : ∀ a, r.allowance payload.asset = some a → a.limit ≠ 0 →
    (a.expiresAt = 0 ∨ now < a.expiresAt) ∧ (a.settled now).spent + payload.amount ≤ a.limit
  composite : ∀ tree, r.compositeRule = some tree → tree.Says listed payload true
  rules : policy.ruleCombinationStrategy.Passes listed payload (r.policyRules.getD [])

section Verdicts

variable {r : Records} {now : ℕ} {policy : Policy} {payload : TransactionPayload}
  {stack : RuleStack} {recipient : Address} {amount : ℤ}

theorem verdict_eq_ok {tree : RuleTree} {holds : Bool} :
    tree.verdict listed payload = .ok holds ↔ tree.Says listed payload holds := by
  unfold RuleTree.verdict RuleTree.Says
  rw [← run_eq_none_iff]
  cases hrun : run (tree.body listed payload) maxRuleDepth 0 with
  | none => simp
  | some value =>
      have hvalue := value_of_run hrun
      constructor
      · rintro ⟨⟩
        exact ⟨hvalue, by simp⟩
      · rintro ⟨hholds, _⟩
        rw [hvalue.unique hholds]

/-- A gate that is shut gives its reason. -/
theorem gate_eq_none {p : Prop} [Decidable p] {reason : DenialReason} {rest : Option DenialReason} :
    (if p then some reason else rest) = none ↔ ¬ p ∧ rest = none := by
  by_cases hp : p
  · simp [hp]
  · simp [hp]

theorem recipientVerdict_eq_none : r.recipientVerdict listed now policy recipient = none ↔
    policy.enabled = true ∧ listed.recipient = false ∧ listed.merchant = false ∧
      (r.recipientWhitelistEnabled.getD false = true → r.recipientWhitelist recipient = true) ∧
      policy.isWithinTransferWindow now = true ∧ (policy.expiresAt = 0 ∨ now < policy.expiresAt) := by
  have hunexpired : (policy.expiresAt = 0 ∨ now < policy.expiresAt) ↔
      ¬ (policy.expiresAt ≠ 0 ∧ policy.expiresAt ≤ now) := by omega
  have hdirectory : (r.recipientWhitelistEnabled.getD false = true →
      r.recipientWhitelist recipient = true) ↔ ¬ r.recipientWhitelistDenied recipient = true := by
    simp [Records.recipientWhitelistDenied]
  unfold Records.recipientVerdict
  simp only [gate_eq_none, hunexpired, hdirectory, Bool.not_eq_false, Bool.not_eq_true, and_true]

theorem screenGates_eq_none : r.screenGates policy asset recipient amount = none ↔
    (policy.maxAmount = 0 ∨ amount ≤ policy.maxAmount) ∧
      (∀ allowed ∈ policy.allowedRecipient, allowed = recipient) ∧
      (∀ allowed ∈ policy.allowedAsset, allowed = asset) ∧ r.assetBlacklist asset = false ∧
      (r.assetWhitelistEnabled.getD false = true → r.assetWhitelist asset = true) := by
  have hceiling : (policy.maxAmount = 0 ∨ amount ≤ policy.maxAmount) ↔
      ¬ (policy.maxAmount ≠ 0 ∧ policy.maxAmount < amount) := by omega
  have hallowed (pinned : Option Address) (address : Address) : (∀ allowed ∈ pinned, allowed = address) ↔
      ¬ pinned.any (fun allowed => decide (allowed ≠ address)) = true := by
    cases pinned <;> simp
  have hdirectory : (r.assetWhitelistEnabled.getD false = true → r.assetWhitelist asset = true) ↔
      ¬ r.assetWhitelistDenied asset = true := by
    simp [Records.assetWhitelistDenied]
  unfold Records.screenGates
  simp only [gate_eq_none, hceiling, hallowed, hdirectory, Bool.not_eq_true, and_true]

/-- An allowance has room as its record says. -/
theorem consumeAllowance_eq_ok (hnow : now < 2 ^ 64) (hamount : 0 < amount)
    (hsound : ∀ a, r.allowance asset = some a → a.Sound) :
    (∃ left, r.consumeAllowance now asset amount = .ok left) ↔
      ∀ a, r.allowance asset = some a → a.limit ≠ 0 →
        (a.expiresAt = 0 ∨ now < a.expiresAt) ∧ (a.settled now).spent + amount ≤ a.limit := by
  unfold Records.consumeAllowance
  cases ha : r.allowance asset with
  | none =>
      refine ⟨?_, fun _ => ⟨none, rfl⟩⟩
      rintro _ _ ⟨⟩
  | some a =>
      by_cases hlimit : a.limit = 0
      · simp only [if_pos hlimit]
        refine ⟨?_, fun _ => ⟨none, rfl⟩⟩
        rintro _ _ ⟨⟩ hlimited
        exact absurd hlimit hlimited
      · simp only [if_neg hlimit]
        have hsettled := (hsound a ha).settled now
        have hlow := hsettled.spent.1
        have hhigh : a.limit ≤ i128Max := (hsound a ha).limit.2
        have hpositive : 0 ≤ a.limit := (hsound a ha).limit.1
        have hspent := hsettled.spent.2
        constructor
        · rintro ⟨left, h⟩ _ ⟨⟩ _
          simp only [bind_eq_ok, pure_eq_ok] at h
          obtain ⟨_, hconsume, _⟩ := h
          refine ⟨?_, (AssetAllowance.consume_ok hnow hconsume).1⟩
          obtain ⟨_, hunexpired, _⟩ := bind_eq_ok.1 hconsume
          have hunexpired := require_eq_ok.1 hunexpired
          omega
        · intro h
          obtain ⟨hunexpired, hroom⟩ := h a rfl hlimit
          have hsame : (a.settled now).limit = a.limit := rfl
          have hheadroom : checkedSub (a.settled now).limit (a.settled now).spent
              = .ok (a.limit - (a.settled now).spent) :=
            checkedSub_eq_ok.2 ⟨⟨by unfold i128Min; omega, by omega⟩, rfl⟩
          have hspend : checkedAdd (a.settled now).spent amount
              = .ok ((a.settled now).spent + amount) :=
            checkedAdd_eq_ok.2 ⟨⟨by unfold i128Min; omega, by omega⟩, rfl⟩
          have hopen : ¬ (a.expiresAt ≠ 0 ∧ a.expiresAt ≤ now) := by omega
          have hfits : amount ≤ a.limit - (a.settled now).spent := by omega
          refine ⟨some { a.settled now with spent := (a.settled now).spent + amount }, ?_⟩
          unfold AssetAllowance.consume
          rw [require_pos hopen, ok_bind, AssetAllowance.settleWindow_eq hnow, ok_bind, hheadroom,
            ok_bind, require_pos hfits, ok_bind, hspend]
          rfl

theorem compositeVerdict_eq_true : r.compositeVerdict listed payload = .ok true ↔
    ∀ tree, r.compositeRule = some tree → tree.Says listed payload true := by
  unfold Records.compositeVerdict
  cases r.compositeRule with
  | none => simp
  | some tree => simp [verdict_eq_ok]

/-- All rules hold. -/
theorem stackVerdict_all : stackVerdict false listed payload stack = .ok true ↔
    ∀ tree ∈ stack, tree.Says listed payload true := by
  induction stack with
  | nil => simp [stackVerdict]
  | cons tree rest ih =>
      rw [List.forall_mem_cons, stackVerdict, ← ih, ← verdict_eq_ok]
      cases hverdict : tree.verdict listed payload with
      | error fault =>
          constructor
          · intro h
            cases h
          · rintro ⟨h, _⟩
            cases h
      | ok holds =>
          rw [ok_bind]
          cases holds <;> simp

/-- A rule holds, and none before it was refused as invalid. -/
theorem stackVerdict_any : stackVerdict true listed payload stack = .ok true ↔
    ∃ front tree back, stack = front ++ tree :: back ∧ tree.Says listed payload true ∧
      ∀ q ∈ front, q.Says listed payload false := by
  simp only [← verdict_eq_ok]
  induction stack with
  | nil => simp [stackVerdict]
  | cons tree rest ih =>
      rw [stackVerdict]
      constructor
      · intro h
        obtain ⟨holds, hverdict, h⟩ := bind_eq_ok.1 h
        cases holds with
        | true => exact ⟨[], tree, rest, rfl, hverdict, by simp⟩
        | false =>
            obtain ⟨front, q, back, rfl, hq, hfront⟩ := ih.1 h
            exact ⟨tree :: front, q, back, rfl, hq, List.forall_mem_cons.2 ⟨hverdict, hfront⟩⟩
      · rintro ⟨front, q, back, hstack, hq, hfront⟩
        cases front with
        | nil =>
            obtain ⟨rfl, rfl⟩ := List.cons.inj hstack
            rw [hq, ok_bind]
            rfl
        | cons first front =>
            obtain ⟨rfl, rfl⟩ := List.cons.inj hstack
            rw [List.forall_mem_cons] at hfront
            rw [hfront.1, ok_bind]
            exact ih.2 ⟨front, q, back, rfl, hq, hfront.2⟩

theorem strategy_verdict_eq_true {strategy : CombinationStrategy} :
    strategy.verdict listed payload stack = .ok true ↔ strategy.Passes listed payload stack := by
  cases strategy with
  | all => exact stackVerdict_all
  | any =>
      unfold CombinationStrategy.verdict CombinationStrategy.Passes
      dsimp only
      split
      · rename_i hnone
        exact ⟨fun _ => .inl hnone, fun _ => rfl⟩
      · rename_i hsome
        rw [stackVerdict_any]
        exact ⟨.inr, fun h => h.resolve_left hsome⟩

theorem rulesVerdict_passed {allowance left : Option AssetAllowance} :
    r.rulesVerdict listed policy payload allowance = .ok (.passed left) ↔
      allowance = left ∧ r.compositeVerdict listed payload = .ok true ∧
      policy.ruleCombinationStrategy.verdict listed payload (r.policyRules.getD []) = .ok true := by
  unfold Records.rulesVerdict
  constructor
  · intro h
    obtain ⟨holds, hcomposite, h⟩ := bind_eq_ok.1 h
    cases holds with
    | false => cases h
    | true =>
        obtain ⟨accepts, hrules, h⟩ := bind_eq_ok.1 h
        cases accepts with
        | false => cases h
        | true =>
            cases h
            exact ⟨rfl, hcomposite, hrules⟩
  · rintro ⟨rfl, hcomposite, hrules⟩
    rw [hcomposite, ok_bind, if_neg (by decide), hrules, ok_bind, if_neg (by decide)]

/-- A leg passes its gates, its allowance and its rules. -/
theorem enforce_legVerdict : Screened.enforce (r.legVerdict listed now policy recipient (asset, amount))
      = .ok () ↔ r.screenGates policy asset recipient amount = none ∧
    (∃ left, r.consumeAllowance now asset amount = .ok left) ∧
    r.compositeVerdict listed ⟨asset, recipient, amount⟩ = .ok true ∧
    policy.ruleCombinationStrategy.verdict listed ⟨asset, recipient, amount⟩
      (r.policyRules.getD []) = .ok true := by
  have henforce {screened : Result Screened} : Screened.enforce screened = .ok () ↔
      ∃ left, screened = .ok (.passed left) := by
    rcases screened with fault | ⟨left⟩ | ⟨reason⟩ <;> simp [Screened.enforce]
  rw [henforce]
  unfold Records.legVerdict
  dsimp only
  cases r.screenGates policy asset recipient amount with
  | some reason => simp
  | none =>
      dsimp only
      cases r.consumeAllowance now asset amount with
      | ok allowance =>
          simp only [rulesVerdict_passed, Except.ok.injEq, exists_eq', true_and,
            exists_and_right]
      | error fault =>
          constructor
          · rintro ⟨left, h⟩
            exfalso
            revert h
            rcases fault with e | e | _
            · cases e <;> simp
            · simp
            · simp
          · rintro ⟨_, ⟨left, h⟩, _⟩
            cases h

/-- A transfer passes just if the policy permits it. -/
theorem transferVerdict_eq_ok (hnow : now < 2 ^ 64) (hamount : 0 < amount) (hsound : r.Sound) :
    r.transferVerdict listed now policy recipient (asset, amount) = .ok () ↔
      r.Permits listed now policy ⟨asset, recipient, amount⟩ := by
  have hopen : r.transferVerdict listed now policy recipient (asset, amount) = .ok () ↔
      r.recipientVerdict listed now policy recipient = none ∧
        Screened.enforce (r.legVerdict listed now policy recipient (asset, amount)) = .ok () := by
    unfold Records.transferVerdict
    cases r.recipientVerdict listed now policy recipient with
    | none => simp
    | some reason => simp
  rw [hopen, recipientVerdict_eq_none, enforce_legVerdict, screenGates_eq_none,
    consumeAllowance_eq_ok hnow hamount (hsound.allowance asset), compositeVerdict_eq_true,
    strategy_verdict_eq_true]
  constructor
  · rintro ⟨⟨henabled, hrecipient, hmerchant, hdirectory, hwindow, hunexpired⟩,
      ⟨hceiling, hpinnedRecipient, hpinnedAsset, hblacklist, hwhitelist⟩, hallowance, hcomposite,
      hrules⟩
    exact ⟨henabled, hrecipient, hmerchant, hdirectory, hwindow, hunexpired, hceiling,
      hpinnedRecipient, hpinnedAsset, hblacklist, hwhitelist, hallowance, hcomposite, hrules⟩
  · intro h
    exact ⟨⟨h.enabled, h.recipient, h.merchant, h.directory, h.window, h.unexpired⟩,
      ⟨h.ceiling, h.allowedRecipient, h.allowedAsset, h.blacklist, h.whitelist⟩, h.allowance,
      h.composite, h.rules⟩

end Verdicts

/-- **A transfer is allowed exactly when the records of the policy permit it.**  In every state of
a run, `check_transfer` passes just for a positive amount that every gate, the allowance of the
asset, the composite rule and the rule stack allow. -/
theorem check_transfer_exact (hs : Reachable self s) (env : Env self) (id : String)
    (asset recipient : Address) (amount : ℤ) :
    checkTransfer env s id asset recipient amount = .ok () ↔
      0 < amount ∧ ∃ policy, (s.records id).policy = some policy ∧
        (s.records id).Permits (s.listings recipient) env.timestamp.toNat policy
          ⟨asset, recipient, amount⟩ := by
  have hsound := sound_reachable hs id
  by_cases hamount : 0 < amount
  · cases hpolicy : (s.records id).policy with
    | none =>
        rw [checkTransfer_none hpolicy hamount]
        simp
    | some policy =>
        rw [checkTransfer_eq hsound.ruled hpolicy hamount,
          transferVerdict_eq_ok env.timestamp.toNat_lt hamount hsound]
        simp [hamount]
  · have hrefused : requirePositiveAmount amount = .error (.error .invalidAmount) :=
      require_neg hamount
    unfold checkTransfer
    rw [hrefused]
    refine ⟨?_, fun h => absurd h.1 hamount⟩
    rintro ⟨⟩

/-- Of the 100 that the policy allows, 60 may be sent. -/
theorem check_transfer_exact_allowing :
    let s := play deployed allowing
    ∃ policy, (s.records "ops").policy = some policy ∧
      (s.records "ops").Permits (s.listings (.account 9)) 1 policy
        ⟨.contract 5, .account 9, 60⟩ := by
  intro s
  have hplays : (deployment (.contract 0)).plays deployed 0 allowing = true := by
    decide
  have hreachable : Reachable (.contract 0) s := Deployment.reachable_play deployed_fresh hplays
  have hpasses : checkTransfer (signedBy 1 [1]) s "ops" (.contract 5) (.account 9) 60 = .ok () := by
    decide
  exact ((check_transfer_exact hreachable (signedBy 1 [1]) "ops" (.contract 5) (.account 9) 60).1
    hpasses).2

/-! ## Several assets -/

section Several

variable {r : Records} {now : ℕ} {policy : Policy} {recipient : Address} {context : RuleEvaluationContext}
  {legs : List (Address × ℤ)} {amounts : List SpendEntry} {totals : AddressMap ℤ}

/-- **The legs of a request pass just if each of them does**, and what refuses the request refuses
a leg: what one leg reads of the blocklists changes nothing for the next. -/
theorem screenLegs_spec (hruled : r.Ruled) (hcontext : context.Agrees listed) :
    match r.screenLegs listed now policy recipient legs context with
    | .ok _ => ∀ leg ∈ legs, Screened.enforce (r.legVerdict listed now policy recipient leg) = .ok ()
    | .error fault => ∃ leg ∈ legs,
        Screened.enforce (r.legVerdict listed now policy recipient leg) = .error fault := by
  induction legs generalizing context with
  | nil =>
      intro leg hleg
      cases hleg
  | cons leg rest ih =>
      have hleg : Answered listed (r.screenAssetRules listed now policy leg.1 recipient leg.2)
          (r.legVerdict listed now policy recipient leg) := screenAssetRules_answered hruled leg
      unfold Records.screenLegs
      cases hverdict : r.legVerdict listed now policy recipient leg with
      | error fault =>
          rw [hverdict] at hleg
          have hfails : r.screenAssetRules listed now policy leg.1 recipient leg.2 context
              = .error fault := hleg context hcontext
          rw [hfails]
          refine ⟨leg, List.mem_cons_self, ?_⟩
          rw [hverdict]
          rfl
      | ok screened =>
          rw [hverdict] at hleg
          obtain ⟨context', hok, hcontext'⟩ := hleg context hcontext
          have hok : r.screenAssetRules listed now policy leg.1 recipient leg.2 context
              = .ok (screened, context') := hok
          rw [hok, ok_bind]
          cases screened with
          | denied reason =>
              refine ⟨leg, List.mem_cons_self, ?_⟩
              rw [hverdict]
              rfl
          | passed allowance =>
              have hrest := ih hcontext'
              dsimp only
              cases hlater : r.screenLegs listed now policy recipient rest context' with
              | error fault =>
                  rw [hlater] at hrest
                  obtain ⟨refused, hmem, hrefused⟩ := hrest
                  exact ⟨refused, List.mem_cons_of_mem _ hmem, hrefused⟩
              | ok later =>
                  rw [hlater] at hrest
                  refine List.forall_mem_cons.2 ⟨?_, hrest⟩
                  rw [hverdict]
                  rfl

/-- The legs of a request are its assets, each with its total. -/
theorem mem_legs (htotals : aggregateAmounts amounts = .ok totals) {leg : Address × ℤ} :
    leg ∈ totals.toList ↔ 0 < asked leg.1 amounts ∧ leg.2 = asked leg.1 amounts := by
  rw [Std.ExtTreeMap.mem_toList_iff_getElem?_eq_some, (aggregateAmounts_ok htotals).2 leg.1]
  split
  · rename_i hpos
    rw [Option.some.injEq, eq_comm]
    exact ⟨fun h => ⟨hpos, h⟩, And.right⟩
  · rename_i hnone
    refine ⟨?_, fun h => absurd h.1 hnone⟩
    rintro ⟨⟩

/-- Totals that fit are summed up. -/
theorem aggregateAmounts_eq_ok (h : Request amounts) (hfits : ∀ asset, asked asset amounts ≤ i128Max) :
    ∃ totals, aggregateAmounts amounts = .ok totals := by
  have hrange : ∀ asset : Address, 0 ≤ (∅ : AddressMap ℤ)[asset]?.getD 0 ∧
      (∅ : AddressMap ℤ)[asset]?.getD 0 ≤ i128Max := by
    intro asset
    rw [Std.ExtTreeMap.getElem?_empty]
    exact ⟨le_rfl, by decide⟩
  have hsums : ∀ asset : Address, (∅ : AddressMap ℤ)[asset]?.getD 0 + asked asset amounts ≤ i128Max := by
    intro asset
    rw [Std.ExtTreeMap.getElem?_empty, Option.getD_none, zero_add]
    exact hfits asset
  obtain ⟨totals, hok⟩ := (addEntries_eq h.positive hrange).1 hsums
  refine ⟨totals, ?_⟩
  unfold aggregateAmounts
  rw [require_pos ⟨h.nonempty, h.length⟩, ok_bind, hok]

/-- A request asks for something. -/
theorem Request.asks (h : Request amounts) : ∃ asset, 0 < asked asset amounts := by
  obtain ⟨entry, rest, rfl⟩ := List.exists_cons_of_ne_nil h.nonempty
  have hpos := List.forall_mem_cons.1 h.positive
  have hrest : 0 ≤ asked entry.asset rest := asked_nonneg hpos.2
  have hentry : 0 < entry.amount.1 := hpos.1
  refine ⟨entry.asset, ?_⟩
  rw [asked_cons, if_pos rfl]
  omega

/-- A request under a policy. -/
theorem checkMultiAssetTransfer_spec (hruled : (s.records id).Ruled)
    (hpolicy : (s.records id).policy = some policy) (htotals : aggregateAmounts amounts = .ok totals)
    (hasks : ∃ asset, 0 < asked asset amounts) :
    match checkMultiAssetTransfer env s id recipient amounts with
    | .ok _ => ∀ asset, 0 < asked asset amounts →
        checkTransfer env s id asset recipient (asked asset amounts) = .ok ()
    | .error fault => ∃ asset, 0 < asked asset amounts ∧
        checkTransfer env s id asset recipient (asked asset amounts) = .error fault := by
  have htransfer (asset : Address) (hasked : 0 < asked asset amounts) :
      checkTransfer env s id asset recipient (asked asset amounts)
        = (s.records id).transferVerdict (s.listings recipient) env.timestamp.toNat policy recipient
          (asset, asked asset amounts) := checkTransfer_eq hruled hpolicy hasked
  have hload : (okOr (some policy) .notFound : Result Policy) = .ok policy := rfl
  obtain ⟨context, hrecipient, hcontext⟩ :=
    screenRecipientRules_default (s.records id) (s.listings recipient) env.timestamp.toNat policy
      recipient
  unfold checkMultiAssetTransfer evaluateSpend
  rw [htotals, ok_bind]
  dsimp only
  rw [hpolicy, hload, ok_bind, hrecipient, ok_bind]
  cases hdenied : (s.records id).recipientVerdict (s.listings recipient) env.timestamp.toNat policy
      recipient with
  | some reason =>
      obtain ⟨asset, hasked⟩ := hasks
      refine ⟨asset, hasked, ?_⟩
      rw [htransfer asset hasked, Records.transferVerdict, hdenied]
  | none =>
      have hlegs : match (s.records id).screenLegs (s.listings recipient) env.timestamp.toNat policy
            recipient totals.toList context with
          | .ok _ => ∀ leg ∈ totals.toList, Screened.enforce ((s.records id).legVerdict
              (s.listings recipient) env.timestamp.toNat policy recipient leg) = .ok ()
          | .error fault => ∃ leg ∈ totals.toList, Screened.enforce ((s.records id).legVerdict
              (s.listings recipient) env.timestamp.toNat policy recipient leg) = .error fault :=
        screenLegs_spec hruled hcontext
      have hleg (asset : Address) (hasked : 0 < asked asset amounts) :
          checkTransfer env s id asset recipient (asked asset amounts) = Screened.enforce
            ((s.records id).legVerdict (s.listings recipient) env.timestamp.toNat policy recipient
              (asset, asked asset amounts)) := by
        rw [htransfer asset hasked, Records.transferVerdict, hdenied]
      dsimp only
      cases hscreened : (s.records id).screenLegs (s.listings recipient) env.timestamp.toNat policy
          recipient totals.toList context with
      | error fault =>
          rw [hscreened] at hlegs
          obtain ⟨leg, hmem, hrefused⟩ := hlegs
          obtain ⟨hasked, htotal⟩ := (mem_legs htotals).1 hmem
          refine ⟨leg.1, hasked, ?_⟩
          rw [hleg leg.1 hasked, ← htotal]
          exact hrefused
      | ok updated =>
          rw [hscreened] at hlegs
          intro asset hasked
          rw [hleg asset hasked]
          exact hlegs (asset, asked asset amounts) ((mem_legs htotals).2 ⟨hasked, rfl⟩)

end Several

/-- **A request of several assets is its transfers.**  In every state of a run, a request whose
totals fit passes exactly when each total passes as a transfer of its own, and what refuses the
request refuses one of them. -/
theorem multi_check_exact {amounts : List SpendEntry} (hs : Reachable self s)
    (hrequest : Request amounts) (hfits : ∀ asset, asked asset amounts ≤ i128Max) (env : Env self)
    (id : String) (recipient : Address) :
    (checkMultiAssetTransfer env s id recipient amounts = .ok () ↔
      ∀ asset, 0 < asked asset amounts →
        checkTransfer env s id asset recipient (asked asset amounts) = .ok ()) ∧
    ∀ fault, checkMultiAssetTransfer env s id recipient amounts = .error fault →
      ∃ asset, 0 < asked asset amounts ∧
        checkTransfer env s id asset recipient (asked asset amounts) = .error fault := by
  obtain ⟨totals, htotals⟩ := aggregateAmounts_eq_ok hrequest hfits
  have hspec : match checkMultiAssetTransfer env s id recipient amounts with
      | .ok _ => ∀ asset, 0 < asked asset amounts →
          checkTransfer env s id asset recipient (asked asset amounts) = .ok ()
      | .error fault => ∃ asset, 0 < asked asset amounts ∧
          checkTransfer env s id asset recipient (asked asset amounts) = .error fault := by
    cases hpolicy : (s.records id).policy with
    | some policy =>
        exact checkMultiAssetTransfer_spec (sound_reachable hs id).ruled hpolicy htotals
          hrequest.asks
    | none =>
        have hrefused : checkMultiAssetTransfer env s id recipient amounts
            = .error (.error .notFound) := by
          unfold checkMultiAssetTransfer evaluateSpend
          rw [htotals, ok_bind]
          dsimp only
          rw [hpolicy]
          rfl
        obtain ⟨asset, hasked⟩ := hrequest.asks
        rw [hrefused]
        exact ⟨asset, hasked, checkTransfer_none hpolicy hasked⟩
  cases hcheck : checkMultiAssetTransfer env s id recipient amounts with
  | ok _ =>
      rw [hcheck] at hspec
      refine ⟨⟨fun _ => hspec, fun _ => rfl⟩, ?_⟩
      rintro fault ⟨⟩
  | error refused =>
      rw [hcheck] at hspec
      refine ⟨⟨?_, ?_⟩, ?_⟩
      · rintro ⟨⟩
      · intro hpasses
        obtain ⟨asset, hasked, hfails⟩ := hspec
        rw [hpasses asset hasked] at hfails
        cases hfails
      · rintro fault ⟨⟩
        exact hspec

/-- Twice 60 of the asset that is limited to 100, and something of another, are refused for
what the one asset is limited to. -/
theorem multi_check_exact_allowing :
    let s := play deployed allowing
    let amounts : List SpendEntry := [⟨.contract 5, ⟨60, by decide⟩⟩, ⟨.contract 6, ⟨7, by decide⟩⟩,
      ⟨.contract 5, ⟨60, by decide⟩⟩]
    ∃ asset, 0 < asked asset amounts ∧
      checkTransfer (signedBy 1 [1]) s "ops" asset (.account 9) (asked asset amounts)
        = .error (.error .allowanceExceeded) := by
  intro s amounts
  have hplays : (deployment (.contract 0)).plays deployed 0 allowing = true := by
    decide
  have hreachable : Reachable (.contract 0) s := Deployment.reachable_play deployed_fresh hplays
  have hrequest : Request amounts := ⟨by simp [amounts], by decide, by decide⟩
  have hfits : ∀ asset, asked asset amounts ≤ i128Max := by
    intro asset
    simp only [amounts, asked_cons]
    unfold asked i128Max
    rw [Tally.tally_nil]
    split <;> split <;> omega
  exact (multi_check_exact hreachable hrequest hfits (signedBy 1 [1]) "ops" (.account 9)).2 _ (by
    decide)


end PolicyContract
end Astroid
