import Astroid.Policy.Spend

/-!
# What a successful policy call did

Every call that returned did one of eight things (`exec_effect`): it read, started the
contract, registered a policy, edited a blocklist, or rewrote what is stored under a
policy of its caller, where the allowances are only written by the calls that set, remove
and charge them.  So every allowance stays under its own key (`keyed_reachable`), and what
a call did to one allowance is one of four things (`Effect.allowance`).
-/

namespace Astroid
namespace PolicyContract

open Outcome

variable {self : Address} {env : Env self} {s s' : State} {id : String} {caller asset : Address}

/-- The calls that edit a blocklist. -/
def Call.EditsBlocklist : Call → Prop
  | .addBlacklist .. | .removeBlacklist .. | .addMerchantBlacklist ..
  | .removeMerchantBlacklist .. | .addCategoryBlacklist .. | .removeCategoryBlacklist ..
  | .addToBlocklist .. | .removeFromBlocklist .. => True
  | _ => False

/-- What a call charges to an asset under a policy. -/
def Call.charge (id : String) : Call → Address → Option ℤ
  | .updateAllowance _ id' asset amount =>
      if id' = id then single asset amount else fun _ => none
  | .recordMultiAssetSpend _ id' _ amounts =>
      if id' = id then requested amounts else fun _ => none
  | _ => fun _ => none

/-- A new limit for an allowance, with another window when one is given. -/
structure Limit where
  limit : ℤ
  windowSeconds : Option ℕ
  expiresAt : ℕ

/-- The limit a call sets for an asset under a policy. -/
def Call.limit (id : String) (asset : Address) : Call → Option Limit
  | .setAllowance _ id' asset' limit expiresAt =>
      if id' = id ∧ asset' = asset then some ⟨limit, none, expiresAt.toNat⟩ else none
  | .setRecurringAllowance _ id' asset' limit windowSeconds expiresAt =>
      if id' = id ∧ asset' = asset then some ⟨limit, some windowSeconds.toNat, expiresAt.toNat⟩
      else none
  | _ => none

/-- The calls that charge allowances. -/
def Call.Spends : Call → Prop
  | .updateAllowance .. | .recordMultiAssetSpend .. => True
  | _ => False

/-- The call is about no allowance. -/
def Call.Plain : Call → Prop
  | .setAllowance .. | .setRecurringAllowance .. | .removeAllowance .. | .updateAllowance ..
  | .recordMultiAssetSpend .. => False
  | _ => True

/-- What `store_allowance` writes for an asset. -/
def Records.limited (r : Records) (now : ℕ) (id : String) (asset : Address) (l : Limit) :
    AssetAllowance :=
  let a := (r.allowanceOrUnset id asset).settled now
  let a := if r.allowance asset = none then { a with windowStart := now } else a
  { a.withWindow now l.windowSeconds with
    limit := l.limit
    expiresAt := l.expiresAt
    policyId := id
    asset := asset }

/-- What a call that returned did. -/
inductive Effect (env : Env self) (s : State) (call : Call) (s' : State) : Prop
  | read : call.Plain → s' = s → Effect env s call s'
  | started : call.Plain → s' = { s with count := some 0 } → Effect env s call s'
  | registered (id : String) (policy : Policy) : call.Plain → policy.owner ∈ env.auths →
      (s.records id).policy = none → s' = s.amend id (fun r => { r with policy := some policy }) →
      Effect env s call s'
  | listed (caller : Address) (id : String) : call.Plain → call.EditsBlocklist →
      caller ∈ env.auths → s.Owns caller id → s'.records = s.records → Effect env s call s'
  | governed (caller : Address) (id : String) (f : Records → Records) : call.Plain →
      caller ∈ env.auths → s.Owns caller id → (f (s.records id)).allowance = (s.records id).allowance →
      (f (s.records id)).policy.map (·.owner) = some caller → s' = s.amend id f →
      Effect env s call s'
  | limited (caller : Address) (id : String) (asset : Address) (l : Limit) :
      call.limit id asset = some l → caller ∈ env.auths → s.Owns caller id → 0 ≤ l.limit →
      s' = s.storeAllowance ((s.records id).limited env.timestamp.toNat id asset l) →
      Effect env s call s'
  | removed (caller : Address) (id : String) (asset : Address) :
      call = .removeAllowance caller id asset → caller ∈ env.auths → s.Owns caller id →
      s' = s.amend id (fun r => { r with allowance := Function.update r.allowance asset none }) →
      Effect env s call s'
  | spent (caller : Address) (id : String) : call.Spends →
      (∀ id', id' ≠ id → ∀ asset, call.charge id' asset = none) →
      caller ∈ env.auths → s.Owns caller id →
      Spent env.timestamp.toNat id (call.charge id) s s' → Effect env s call s'

section Calls

variable {call : Call} {α : Type}

/-- A computation after a check of the owner. -/
theorem owner_ok {f : Policy → Result α} {x : α}
    (h : (requirePolicyOwner env s caller id >>= f) = .ok x) :
    caller ∈ env.auths ∧ ∃ policy, (s.records id).policy = some policy ∧ policy.owner = caller ∧
      f policy = .ok x := by
  obtain ⟨policy, howner, h⟩ := bind_eq_ok.1 h
  obtain ⟨hauth, hpolicy, howner⟩ := requirePolicyOwner_eq_ok.1 howner
  exact ⟨hauth, policy, hpolicy, howner, h⟩

/-- A call that rewrote the policy of its caller. -/
theorem governed_policy {policy policy' : Policy} (hplain : call.Plain)
    (hauth : caller ∈ env.auths) (hpolicy : (s.records id).policy = some policy)
    (howner : policy.owner = caller) (howner' : policy'.owner = policy.owner)
    (h : (pure (s.amend id fun r => { r with policy := some policy' }) : Result State) = .ok s') :
    Effect env s call s' := by
  rw [pure_eq_ok] at h
  have hsame : some policy'.owner = some caller := congrArg some (howner'.trans howner)
  exact .governed caller id (fun r => { r with policy := some policy' }) hplain hauth
    ⟨policy, hpolicy, howner⟩ rfl hsame h.symm

/-- A call that rewrote another record under a policy of its caller. -/
theorem governed_records {policy : Policy} {f : Records → Records} (hplain : call.Plain)
    (hauth : caller ∈ env.auths) (hpolicy : (s.records id).policy = some policy)
    (howner : policy.owner = caller)
    (h : (pure (s.amend id f) : Result State) = .ok s')
    (hsame : ∀ r, (f r).allowance = r.allowance ∧ (f r).policy = r.policy) :
    Effect env s call s' := by
  rw [pure_eq_ok] at h
  refine .governed caller id f hplain hauth ⟨policy, hpolicy, howner⟩ (hsame _).1 ?_ h.symm
  rw [(hsame _).2, hpolicy, Option.map_some, howner]

theorem registerPolicy_effect {owner : Address} {configHash : List UInt8} {maxAmount : ℤ}
    {allowedRecipient allowedAsset : Option Address} {expiresAt : ℕ}
    {strategy : Option CombinationStrategy} (hplain : call.Plain)
    (h : registerPolicy env s owner id configHash maxAmount allowedRecipient allowedAsset expiresAt
      strategy = .ok s') : Effect env s call s' := by
  simp only [registerPolicy, bind_eq_ok, requireAuth_eq_ok, require_eq_ok, pure_eq_ok] at h
  obtain ⟨_, hauth, _, _, _, hnone, rfl⟩ := h
  exact .registered id _ hplain hauth hnone rfl

theorem setTransferWindow_effect {startTime endTime windowDays : ℕ} (hplain : call.Plain)
    (h : setTransferWindow env s caller id startTime endTime windowDays = .ok s') :
    Effect env s call s' := by
  obtain ⟨hauth, policy, hpolicy, howner, h⟩ := owner_ok h
  refine of_bind_ok h fun _ h => of_bind_ok h fun _ h => ?_
  dsimp only at h
  refine governed_policy hplain hauth hpolicy howner ?_ h
  rfl

theorem storeAllowance_effect {limit : ℤ} {windowSeconds : Option ℕ} {expiresAt : ℕ}
    (hcall : call.limit id asset = some ⟨limit, windowSeconds, expiresAt⟩)
    (h : storeAllowance env s caller id asset limit windowSeconds expiresAt = .ok s') :
    Effect env s call s' := by
  obtain ⟨hauth, policy, hpolicy, howner, h⟩ := owner_ok h
  simp only [bind_eq_ok, requireNonNegativeAmount_eq_ok, pure_eq_ok] at h
  obtain ⟨_, hlimit, rfl⟩ := h
  refine .limited caller id asset _ hcall hauth ⟨policy, hpolicy, howner⟩ hlimit ?_
  unfold Records.limited
  rw [getAllowance_eq]

theorem removeAllowance_effect (h : removeAllowance env s caller id asset = .ok s') :
    Effect env s (.removeAllowance caller id asset) s' := by
  obtain ⟨hauth, policy, hpolicy, howner, h⟩ := owner_ok h
  simp only [bind_eq_ok, pure_eq_ok] at h
  obtain ⟨_, _, rfl⟩ := h
  exact .removed caller id asset rfl hauth ⟨policy, hpolicy, howner⟩ rfl

theorem updateAllowance_effect {amount : I128} (hkeyed : Keyed s)
    (h : updateAllowance env s caller id asset amount = .ok s') :
    Effect env s (.updateAllowance caller id asset amount) s' := by
  obtain ⟨hauth, howns, hspent⟩ := updateAllowance_ok hkeyed h
  have hcharge : ∀ id', (Call.updateAllowance caller id asset amount).charge id' =
      if id = id' then single asset amount else fun _ => none := fun _ => rfl
  refine .spent caller id trivial ?_ hauth howns ?_
  · intro id' hne asset'
    rw [hcharge, if_neg hne.symm]
  · rw [hcharge, if_pos rfl]
    exact hspent

theorem recordMultiAssetSpend_effect {recipient : Address} {amounts : List SpendEntry}
    (hkeyed : Keyed s) (h : recordMultiAssetSpend env s caller id recipient amounts = .ok s') :
    Effect env s (.recordMultiAssetSpend caller id recipient amounts) s' := by
  obtain ⟨hauth, howns, hspent⟩ := recordMultiAssetSpend_ok hkeyed h
  have hcharge : ∀ id', (Call.recordMultiAssetSpend caller id recipient amounts).charge id' =
      if id = id' then requested amounts else fun _ => none := fun _ => rfl
  refine .spent caller id trivial ?_ hauth howns ?_
  · intro id' hne asset'
    rw [hcharge, if_neg hne.symm]
  · rw [hcharge, if_pos rfl]
    exact hspent

/-- A read. -/
theorem read_effect {x : Result α} (hplain : call.Plain) (h : (fun _ => s) <$> x = .ok s') :
    Effect env s call s' := by
  obtain ⟨_, _, rfl⟩ := map_ok h
  exact .read hplain rfl

/-- A call that edited a blocklist. -/
theorem listed_effect {policy : Policy} {s₁ : State} (hplain : call.Plain)
    (hedits : call.EditsBlocklist) (hauth : caller ∈ env.auths)
    (hpolicy : (s.records id).policy = some policy) (howner : policy.owner = caller)
    (h : (pure s₁ : Result State) = .ok s') (hrecords : s₁.records = s.records) :
    Effect env s call s' := by
  rw [pure_eq_ok] at h
  subst h
  exact .listed caller id hplain hedits hauth ⟨policy, hpolicy, howner⟩ hrecords

theorem addBlacklist_effect {address : Address} (hplain : call.Plain)
    (hedits : call.EditsBlocklist) (h : addBlacklist env s caller id address = .ok s') :
    Effect env s call s' := by
  obtain ⟨hauth, policy, hpolicy, howner, h⟩ := owner_ok h
  exact of_bind_ok h fun _ h => listed_effect hplain hedits hauth hpolicy howner h rfl

theorem removeBlacklist_effect {address : Address} (hplain : call.Plain)
    (hedits : call.EditsBlocklist) (h : removeBlacklist env s caller id address = .ok s') :
    Effect env s call s' := by
  obtain ⟨hauth, policy, hpolicy, howner, h⟩ := owner_ok h
  exact of_bind_ok h fun _ h => listed_effect hplain hedits hauth hpolicy howner h rfl

theorem setRecipientWhitelistEnabled_effect {enabled : Bool} (hplain : call.Plain)
    (h : setRecipientWhitelistEnabled env s caller id enabled = .ok s') :
    Effect env s call s' := by
  obtain ⟨hauth, policy, hpolicy, howner, h⟩ := owner_ok h
  exact governed_records hplain hauth hpolicy howner h fun _ => ⟨rfl, rfl⟩

theorem addRecipientToWhitelist_effect {recipient : Address} (hplain : call.Plain)
    (h : addRecipientToWhitelist env s caller id recipient = .ok s') : Effect env s call s' := by
  obtain ⟨hauth, policy, hpolicy, howner, h⟩ := owner_ok h
  exact of_bind_ok h fun _ h =>
    governed_records hplain hauth hpolicy howner h fun _ => ⟨rfl, rfl⟩

theorem removeRecipientFromWhitelist_effect {recipient : Address} (hplain : call.Plain)
    (h : removeRecipientFromWhitelist env s caller id recipient = .ok s') :
    Effect env s call s' := by
  obtain ⟨hauth, policy, hpolicy, howner, h⟩ := owner_ok h
  exact of_bind_ok h fun _ h =>
    governed_records hplain hauth hpolicy howner h fun _ => ⟨rfl, rfl⟩

end Calls

/-- **Every call that returned did one of these things.** -/
theorem exec_effect {call : Call} (hkeyed : Keyed s) (h : exec env s call = .ok s') :
    Effect env s call s' := by
  cases call with
  | initializeContract =>
      simp only [exec, initializeContract, bind_eq_ok, pure_eq_ok] at h
      obtain ⟨_, _, rfl⟩ := h
      exact .started trivial rfl
  | registerPolicy => exact registerPolicy_effect trivial h
  | rotatePolicy caller id =>
      obtain ⟨hauth, policy, hpolicy, howner, h⟩ := owner_ok h
      refine governed_policy trivial hauth hpolicy howner ?_ h
      rfl
  | setEnabled caller id =>
      obtain ⟨hauth, policy, hpolicy, howner, h⟩ := owner_ok h
      refine governed_policy trivial hauth hpolicy howner ?_ h
      rfl
  | setRuleCombinationStrategy caller id =>
      obtain ⟨hauth, policy, hpolicy, howner, h⟩ := owner_ok h
      refine governed_policy trivial hauth hpolicy howner ?_ h
      rfl
  | setTransferWindow => exact setTransferWindow_effect trivial h
  | addAssetToWhitelist caller id =>
      obtain ⟨hauth, policy, hpolicy, howner, h⟩ := owner_ok h
      exact of_bind_ok h fun _ h =>
        governed_records trivial hauth hpolicy howner h fun _ => ⟨rfl, rfl⟩
  | removeAssetFromWhitelist caller id =>
      obtain ⟨hauth, policy, hpolicy, howner, h⟩ := owner_ok h
      exact of_bind_ok h fun _ h =>
        governed_records trivial hauth hpolicy howner h fun _ => ⟨rfl, rfl⟩
  | addAssetBlacklist caller id =>
      obtain ⟨hauth, policy, hpolicy, howner, h⟩ := owner_ok h
      exact of_bind_ok h fun _ h =>
        governed_records trivial hauth hpolicy howner h fun _ => ⟨rfl, rfl⟩
  | removeAssetBlacklist caller id =>
      obtain ⟨hauth, policy, hpolicy, howner, h⟩ := owner_ok h
      exact of_bind_ok h fun _ h =>
        governed_records trivial hauth hpolicy howner h fun _ => ⟨rfl, rfl⟩
  | setAssetWhitelistEnabled caller id =>
      obtain ⟨hauth, policy, hpolicy, howner, h⟩ := owner_ok h
      exact governed_records trivial hauth hpolicy howner h fun _ => ⟨rfl, rfl⟩
  | addBlacklist => exact addBlacklist_effect trivial trivial h
  | removeBlacklist => exact removeBlacklist_effect trivial trivial h
  | addMerchantBlacklist caller id =>
      obtain ⟨hauth, policy, hpolicy, howner, h⟩ := owner_ok h
      exact of_bind_ok h fun _ h => listed_effect trivial trivial hauth hpolicy howner h rfl
  | removeMerchantBlacklist caller id =>
      obtain ⟨hauth, policy, hpolicy, howner, h⟩ := owner_ok h
      exact of_bind_ok h fun _ h => listed_effect trivial trivial hauth hpolicy howner h rfl
  | addCategoryBlacklist caller id =>
      obtain ⟨hauth, policy, hpolicy, howner, h⟩ := owner_ok h
      exact of_bind_ok h fun _ h => of_bind_ok h fun _ h =>
        listed_effect trivial trivial hauth hpolicy howner h rfl
  | removeCategoryBlacklist caller id =>
      obtain ⟨hauth, policy, hpolicy, howner, h⟩ := owner_ok h
      exact of_bind_ok h fun _ h => listed_effect trivial trivial hauth hpolicy howner h rfl
  | addToBlocklist => exact addBlacklist_effect trivial trivial h
  | removeFromBlocklist => exact removeBlacklist_effect trivial trivial h
  | setRecipientWhitelistEnabled => exact setRecipientWhitelistEnabled_effect trivial h
  | addRecipientToWhitelist => exact addRecipientToWhitelist_effect trivial h
  | removeRecipientFromWhitelist => exact removeRecipientFromWhitelist_effect trivial h
  | setWhitelistEnabled => exact setRecipientWhitelistEnabled_effect trivial h
  | addWhitelist => exact addRecipientToWhitelist_effect trivial h
  | removeWhitelist => exact removeRecipientFromWhitelist_effect trivial h
  | setAllowance => exact storeAllowance_effect (if_pos ⟨rfl, rfl⟩) h
  | setRecurringAllowance => exact storeAllowance_effect (if_pos ⟨rfl, rfl⟩) h
  | removeAllowance => exact removeAllowance_effect h
  | updateAllowance => exact updateAllowance_effect hkeyed h
  | recordMultiAssetSpend => exact recordMultiAssetSpend_effect hkeyed h
  | setCompositeRule caller id =>
      obtain ⟨hauth, policy, hpolicy, howner, h⟩ := owner_ok h
      exact of_bind_ok h fun _ h =>
        governed_records trivial hauth hpolicy howner h fun _ => ⟨rfl, rfl⟩
  | clearCompositeRule caller id =>
      obtain ⟨hauth, policy, hpolicy, howner, h⟩ := owner_ok h
      exact of_bind_ok h fun _ h =>
        governed_records trivial hauth hpolicy howner h fun _ => ⟨rfl, rfl⟩
  | addPolicyRule caller id =>
      obtain ⟨count, h⟩ := snd_map_ok h
      obtain ⟨hauth, policy, hpolicy, howner, h⟩ := owner_ok h
      simp only [bind_eq_ok, pure_eq_ok, Prod.mk.injEq] at h
      obtain ⟨_, _, _, _, _, h⟩ := h
      exact governed_records trivial hauth hpolicy howner (pure_eq_ok.2 h) fun _ => ⟨rfl, rfl⟩
  | removePolicyRule caller id =>
      obtain ⟨hauth, policy, hpolicy, howner, h⟩ := owner_ok h
      exact of_bind_ok h fun _ h => of_bind_ok h fun _ h =>
        governed_records trivial hauth hpolicy howner h fun _ => ⟨rfl, rfl⟩
  | clearPolicyRules caller id =>
      obtain ⟨hauth, policy, hpolicy, howner, h⟩ := owner_ok h
      exact of_bind_ok h fun _ h =>
        governed_records trivial hauth hpolicy howner h fun _ => ⟨rfl, rfl⟩
  | getAllowance =>
      cases h
      exact .read trivial rfl
  | checkAllowance => exact read_effect trivial h
  | checkTransfer => exact read_effect trivial h
  | evaluatePolicy => exact read_effect trivial h
  | checkMultiAssetTransfer => exact read_effect trivial h
  | checkCategory => exact read_effect trivial h

/-! ## One allowance -/

/-- What a call did to the allowance of an asset under a policy. -/
inductive AllowanceEffect (r : Records) (now : ℕ) (id : String) (asset : Address) (call : Call)
    (after : Option AssetAllowance) : Prop
  | charged : call.limit id asset = none → Charged r now asset (call.charge id asset) after →
      AllowanceEffect r now id asset call after
  | limited (l : Limit) : call.limit id asset = some l → call.charge id asset = none →
      0 ≤ l.limit → after = some (r.limited now id asset l) →
      AllowanceEffect r now id asset call after
  | removed (caller : Address) : call = .removeAllowance caller id asset → after = none →
      AllowanceEffect r now id asset call after

section OneAllowance

variable {call : Call}

theorem Call.Plain.limit (h : call.Plain) : call.limit id asset = none := by
  cases call <;> first | rfl | exact h.elim

theorem Call.Plain.charge (h : call.Plain) : call.charge id asset = none := by
  cases call <;> first | rfl | exact h.elim

theorem Call.Spends.limit (h : call.Spends) : call.limit id asset = none := by
  cases call <;> first | rfl | exact h.elim

/-- A call that sets a limit sets it under one key and charges nothing. -/
theorem Call.limit_some {l : Limit} (h : call.limit id asset = some l) :
    (∀ id' asset', call.charge id' asset' = none) ∧
      ∀ id' asset', ¬ (id' = id ∧ asset' = asset) → call.limit id' asset' = none := by
  cases call with
  | setAllowance caller id₁ asset₁ limit expiresAt =>
      refine ⟨fun _ _ => rfl, ?_⟩
      intro id' asset' hne
      simp only [Call.limit] at h ⊢
      split at h
      · rename_i heq
        obtain ⟨rfl, rfl⟩ := heq
        exact if_neg fun hsame => hne ⟨hsame.1.symm, hsame.2.symm⟩
      · cases h
  | setRecurringAllowance caller id₁ asset₁ limit windowSeconds expiresAt =>
      refine ⟨fun _ _ => rfl, ?_⟩
      intro id' asset' hne
      simp only [Call.limit] at h ⊢
      split at h
      · rename_i heq
        obtain ⟨rfl, rfl⟩ := heq
        exact if_neg fun hsame => hne ⟨hsame.1.symm, hsame.2.symm⟩
      · cases h
  | _ => cases h

/-- A call that leaves the allowance of an asset as it is. -/
theorem AllowanceEffect.kept {r : Records} {now : ℕ} {after : Option AssetAllowance}
    (hlimit : call.limit id asset = none) (hcharge : call.charge id asset = none)
    (h : after = r.allowance asset) : AllowanceEffect r now id asset call after := by
  refine .charged hlimit ?_
  rw [hcharge]
  exact h

/-- **What a call that returned did to one allowance.** -/
theorem Effect.allowance (h : Effect env s call s') (id : String) (asset : Address) :
    AllowanceEffect (s.records id) env.timestamp.toNat id asset call
      ((s'.records id).allowance asset) := by
  have hplain : call.Plain → (s'.records id).allowance = (s.records id).allowance →
      AllowanceEffect (s.records id) env.timestamp.toNat id asset call
        ((s'.records id).allowance asset) :=
    fun hplain hsame => .kept hplain.limit hplain.charge (congrFun hsame asset)
  cases h with
  | read hcall hs' =>
      subst hs'
      exact hplain hcall rfl
  | started hcall hs' =>
      subst hs'
      exact hplain hcall rfl
  | registered id' policy hcall _ _ hs' =>
      subst hs'
      exact hplain hcall (amend_allowance rfl)
  | listed caller id' hcall _ _ _ hrecords =>
      refine hplain hcall ?_
      rw [hrecords]
  | governed caller id' f hcall _ _ hsame _ hs' =>
      subst hs'
      exact hplain hcall (amend_allowance hsame)
  | limited caller id' asset' l hcall _ _ hl hs' =>
      subst hs'
      obtain ⟨hcharge, hothers⟩ := Call.limit_some hcall
      by_cases hkey : id = id' ∧ asset = asset'
      · obtain ⟨rfl, rfl⟩ := hkey
        refine .limited l hcall (hcharge _ _) hl ?_
        rw [storeAllowance_allowance]
        exact if_pos ⟨rfl, rfl⟩
      · refine .kept (hothers _ _ hkey) (hcharge _ _) ?_
        rw [storeAllowance_allowance]
        exact if_neg hkey
  | removed caller id' asset' hcall _ _ hs' =>
      subst hs'
      by_cases hkey : id = id' ∧ asset = asset'
      · obtain ⟨rfl, rfl⟩ := hkey
        refine .removed caller hcall ?_
        rw [amend_update_allowance]
        exact if_pos ⟨rfl, rfl⟩
      · subst hcall
        refine .kept rfl rfl ?_
        rw [amend_update_allowance]
        exact if_neg hkey
  | spent caller id' hcall hothers _ _ hspent =>
      obtain ⟨allowance, rfl, hcharged⟩ := hspent
      by_cases hid : id = id'
      · subst hid
        rw [amend_records]
        exact .charged hcall.limit (hcharged asset)
      · refine .kept hcall.limit (hothers id hid asset) ?_
        rw [amend_records_ne hid]

/-- What an effect leaves is kept under its key. -/
theorem AllowanceEffect.keyed {r : Records} {now : ℕ} {after : Option AssetAllowance}
    (h : AllowanceEffect r now id asset call after) (hnow : now < 2 ^ 64)
    (hr : KeyedUnder id r) : ∀ a, after = some a → a.policyId = id ∧ a.asset = asset := by
  rintro a rfl
  cases h with
  | charged _ hcharged =>
      unfold Charged at hcharged
      split at hcharged
      · exact hr asset a hcharged.symm
      · obtain ⟨_, allowance, hconsumed, hafter⟩ := hcharged
        cases allowance with
        | none => exact hr asset a hafter.symm
        | some a' =>
            cases hafter
            obtain ⟨stored, hstored, hid, hasset⟩ := consumeAllowance_key hnow hconsumed
            obtain ⟨hsid, hsasset⟩ := hr asset stored hstored
            exact ⟨hid.trans hsid, hasset.trans hsasset⟩
  | limited l _ _ _ hafter =>
      cases hafter
      exact ⟨rfl, rfl⟩
  | removed _ _ hafter => cases hafter

end OneAllowance

/-- **Every allowance stays under its own key.** -/
theorem keyed_reachable (h : Reachable self s) : Keyed s := by
  refine Machine.Reachable.invariant (M := machine self) (P := Keyed) ?_ ?_ h
  · intro s hfresh id asset a ha
    rw [hfresh.records id] at ha
    cases ha
  · intro i s s' hkeyed hstep
    cases i with
    | invoke env call =>
        intro id asset
        exact ((exec_effect hkeyed hstep).allowance id asset).keyed env.timestamp.toNat_lt
          (hkeyed id)
    | outside _ _ =>
        obtain rfl := hstep
        exact hkeyed

end PolicyContract
end Astroid
