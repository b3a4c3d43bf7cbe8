import Astroid.Policy.Effects

/-!
# Policies of different owners

What an owner writes is kept under the owner's own policies, with one exception: the
blocklists hold an entry for everybody.  So calls that only one owner authorized change no
answer under a policy of another owner, as long as none of them edits a blocklist
(`isolation`), and one entry is enough to block the other's payments
(`not_isolation`).
-/

namespace Astroid
namespace PolicyContract

open Outcome

variable {self : Address} {env : Env self} {s s' : State} {id : String} {a : Address}
  {policy : Policy} {call : Call}

/-- Every question about policy `id`, asked at any time, is answered alike. -/
def SameAnswers (self : Address) (id : String) (s s' : State) : Prop :=
  ∀ env : Env self,
    (∀ asset recipient (amount : I128), checkTransfer env s' id asset recipient amount
      = checkTransfer env s id asset recipient amount) ∧
    (∀ payload, evaluatePolicy env s' id payload = evaluatePolicy env s id payload) ∧
    (∀ recipient amounts, checkMultiAssetTransfer env s' id recipient amounts
      = checkMultiAssetTransfer env s id recipient amounts) ∧
    (∀ asset (amount : I128), checkAllowance env s' id asset amount
      = checkAllowance env s id asset amount) ∧
    ∀ category, checkCategory s' id category = checkCategory s id category

/-- What the answers about policy `id` depend on. -/
structure Agrees (id : String) (s s' : State) : Prop where
  records : s'.records id = s.records id
  blacklist : s'.blacklist = s.blacklist
  merchantBlacklist : s'.merchantBlacklist = s.merchantBlacklist
  categoryBlacklist : s'.categoryBlacklist = s.categoryBlacklist

theorem Agrees.refl : Agrees id s s := ⟨rfl, rfl, rfl, rfl⟩

theorem Agrees.trans {s₁ s₂ s₃ : State} (h : Agrees id s₁ s₂) (h' : Agrees id s₂ s₃) :
    Agrees id s₁ s₃ :=
  ⟨h'.records.trans h.records, h'.blacklist.trans h.blacklist,
    h'.merchantBlacklist.trans h.merchantBlacklist,
    h'.categoryBlacklist.trans h.categoryBlacklist⟩

theorem Agrees.sameAnswers (h : Agrees id s s') : SameAnswers self id s s' := by
  have hlistings : ∀ recipient, s'.listings recipient = s.listings recipient := by
    intro recipient
    unfold State.listings
    rw [h.blacklist, h.merchantBlacklist]
  intro env
  refine ⟨?_, ?_, ?_, ?_, ?_⟩
  · intro asset recipient amount
    unfold checkTransfer
    rw [h.records, hlistings]
  · intro payload
    unfold evaluatePolicy
    rw [h.records, hlistings]
  · intro recipient amounts
    unfold checkMultiAssetTransfer evaluateSpend
    rw [h.records, hlistings]
  · intro asset amount
    unfold checkAllowance
    rw [h.records]
  · intro category
    unfold checkCategory
    rw [h.categoryBlacklist]

/-- Rewriting what is stored under one policy. -/
theorem agrees_amend {id' : String} {f : Records → Records} (hne : id' ≠ id) :
    Agrees id s (s.amend id' f) :=
  ⟨amend_records_ne hne.symm, rfl, rfl, rfl⟩

/-- **A call that only `a` authorized stays with the policies of `a`**, unless it edits a
blocklist. -/
theorem Effect.agrees (h : Effect env s call s') (hauths : ∀ x ∈ env.auths, x = a)
    (hpolicy : (s.records id).policy = some policy) (howner : policy.owner ≠ a)
    (hedits : ¬ call.EditsBlocklist) : Agrees id s s' := by
  have hother : ∀ {caller id'}, caller ∈ env.auths → s.Owns caller id' → id' ≠ id := by
    rintro caller id' hauth ⟨policy', hpolicy', rfl⟩ rfl
    rw [hpolicy, Option.some.injEq] at hpolicy'
    subst hpolicy'
    exact howner (hauths _ hauth)
  cases h with
  | read _ hs' =>
      subst hs'
      exact .refl
  | started _ hs' =>
      subst hs'
      exact ⟨rfl, rfl, rfl, rfl⟩
  | registered id' policy' _ _ hnone hs' =>
      subst hs'
      refine agrees_amend ?_
      rintro rfl
      rw [hpolicy] at hnone
      cases hnone
  | listed _ _ _ hcall => exact absurd hcall hedits
  | governed caller id' f _ hauth howns _ _ hs' =>
      subst hs'
      exact agrees_amend (hother hauth howns)
  | limited caller id' asset l _ hauth howns _ hs' =>
      subst hs'
      exact agrees_amend (hother hauth howns)
  | removed caller id' asset _ hauth howns hs' =>
      subst hs'
      exact agrees_amend (hother hauth howns)
  | spent caller id' _ _ hauth howns hspent =>
      obtain ⟨allowance, rfl, _⟩ := hspent
      exact agrees_amend (hother hauth howns)

/-- Only `a` authorized the call, and if it edits a blocklist, it is refused. -/
def authorizedBy (a : Address) : Inputs self → State → Prop
  | .invoke env call, s => (∀ x ∈ env.auths, x = a) ∧
      (call.EditsBlocklist → ∀ s', exec env s call ≠ .ok s')
  | .outside _ _, _ => True

/-- **One owner's calls are none of another's business.**  In every state of a run, whatever
calls `a` alone authorizes next, of which none edits a blocklist: every question about a
policy of another owner has the answer it had before them. -/
theorem isolation {calls : List (Env self × Call)} (hs : Reachable self s)
    (hpolicy : (s.records id).policy = some policy) (howner : policy.owner ≠ a)
    (hcalls : (deployment self).AllAllowed (authorizedBy a) s calls) :
    SameAnswers self id s ((deployment self).play s calls) := by
  refine Agrees.sameAnswers ?_
  have hkeyed := keyed_reachable hs
  clear hs
  induction calls generalizing s with
  | nil => exact .refl
  | cons c rest ih =>
      obtain ⟨⟨hauths, hedits⟩, hrest⟩ := hcalls
      have hplay : (deployment self).play s (c :: rest)
          = (deployment self).play ((deployment self).after s c) rest := rfl
      rw [hplay]
      cases hexec : exec c.1 s c.2 with
      | error fault =>
          have hafter : (deployment self).after s c = s := by
            unfold Deployment.after deployment
            simp only [hexec]
          rw [hafter] at hrest ⊢
          exact ih hpolicy hrest hkeyed
      | ok s₁ =>
          have hafter : (deployment self).after s c = s₁ := by
            unfold Deployment.after deployment
            simp only [hexec]
          rw [hafter] at hrest ⊢
          have heffect := exec_effect hkeyed hexec
          have hagrees := heffect.agrees hauths hpolicy howner fun h => hedits h s₁ hexec
          refine hagrees.trans (ih ?_ hrest ?_)
          · rw [hagrees.records, hpolicy]
          · intro id' asset
            exact (heffect.allowance id' asset).keyed c.1.timestamp.toNat_lt (hkeyed id')

/-! ## Two owners -/

/-- Accounts 1 and 2 each register a policy. -/
def twoOwners : Script Call :=
  [(signedBy 0 [1], registering 1 "ops"), (signedBy 0 [2], registering 2 "other")]

theorem twoOwners_reachable : Reachable (.contract 0) (play deployed twoOwners) :=
  Deployment.reachable_play deployed_fresh
    (by decide : (deployment (.contract 0)).plays deployed 0 twoOwners = true)

/-- Account 2 switches its own policy off. -/
def switchingOff : Script Call := [(signedBy 1 [2], .setEnabled (.account 2) "other" false)]

/-- Switching a policy off is no matter of another owner. -/
theorem isolation_switchingOff :
    SameAnswers (.contract 0) "ops" (play deployed twoOwners)
      (play (play deployed twoOwners) switchingOff) := by
  have hpolicy : ((play deployed twoOwners).records "ops").policy.map (·.owner)
      = some (.account 1) := by decide
  obtain ⟨policy, hpolicy, howner⟩ := Option.map_eq_some_iff.1 hpolicy
  have hne : policy.owner ≠ .account 2 := by
    rw [howner]
    decide
  refine isolation (a := .account 2) twoOwners_reachable hpolicy hne ⟨⟨?_, ?_⟩, trivial⟩
  · intro x hx
    exact List.mem_singleton.1 hx
  · exact fun h => h.elim

/-- Account 2 lists account 9 under its own policy. -/
def listing : Script Call := [(signedBy 1 [2], .addBlacklist (.account 2) "other" (.account 9))]

/-- **One owner blocks another's payments.** -/
theorem not_isolation :
    ¬ ∀ (s : State) (a : Address) (idA id : String) (policy : Policy)
      (calls : List (Env (.contract 0) × Call)), Reachable (.contract 0) s → s.Owns a idA →
      (s.records id).policy = some policy → policy.owner ≠ a →
      (∀ c ∈ calls, ∀ x ∈ c.1.auths, x = a) →
      SameAnswers (.contract 0) id s ((deployment (.contract 0)).play s calls) := by
  intro h
  have howns : (play deployed twoOwners).Owns (.account 2) "other" := by
    have hother : ((play deployed twoOwners).records "other").policy.map (·.owner)
        = some (.account 2) := by decide
    exact Option.map_eq_some_iff.1 hother
  have hpolicy : ((play deployed twoOwners).records "ops").policy.map (·.owner)
      = some (.account 1) := by decide
  obtain ⟨policy, hpolicy, howner⟩ := Option.map_eq_some_iff.1 hpolicy
  have hne : policy.owner ≠ .account 2 := by
    rw [howner]
    decide
  have hsigned : ∀ c ∈ listing, ∀ x ∈ c.1.auths, x = .account 2 := by decide
  have hsame := (h _ _ _ _ _ listing twoOwners_reachable howns hpolicy hne hsigned
    (signedBy 2 [])).1 (.contract 5) (.account 9) ⟨10, by decide⟩
  have hdiffer : checkTransfer (signedBy 2 []) (play (play deployed twoOwners) listing) "ops"
      (.contract 5) (.account 9) 10 ≠ checkTransfer (signedBy 2 []) (play deployed twoOwners) "ops"
      (.contract 5) (.account 9) 10 := by decide
  exact hdiffer hsame

end PolicyContract
end Astroid
