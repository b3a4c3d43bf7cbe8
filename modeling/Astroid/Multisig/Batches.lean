import Astroid.Multisig.Frame

/-!
# Signatures over a payload

The weight behind a payload is that of a set of addresses: the caller and the signatories,
each counted once in whatever order they are listed (`accumulateWeight_eq_ok`).  A batch and
a bare verification accept the same sets, those that reach the threshold, and no batch is
executed twice (`signature_weight`).
-/

namespace Astroid
namespace MultisigContract

open Outcome Quorum

variable {World : Type} {H : MultisigHost World} {env : Env H.self} {s s' : State World}
  {signers : List SignerWeight} {threshold : ℕ} {args : List Val} {caller who : Address}

/-! ## The weight of a set -/

/-- The weight `weight_in` finds for an address. -/
abbrev weightAtAddress (signers : List SignerWeight) (who : Address) : ℕ :=
  weightAt SignerWeight.address SignerWeight.weight signers who

/-- The weight of a set of addresses. -/
def weightOver (signers : List SignerWeight) (S : Finset Address) : ℕ :=
  ∑ who ∈ S, weightAtAddress signers who

/-- Everybody in the set is a signer and authorized the payload. -/
def Backed (env : Env H.self) (signers : List SignerWeight) (args : List Val)
    (S : Finset Address) : Prop :=
  ∀ who ∈ S, IsSignerIn signers who ∧ env.argAuths who args = true

theorem weightOver_le (S : Finset Address) : weightOver signers S ≤ weights signers :=
  sum_weightAt_le_total S

theorem weightIn_eq_ok {weight : ℕ} : weightIn signers who = .ok weight ↔
    IsSignerIn signers who ∧ weightAtAddress signers who = weight := by
  simp only [weightIn, weightAtAddress, weightAt, IsSignerIn, bind_eq_ok, okOr_eq_ok, pure_eq_ok]
  cases hfind : signers.find? (·.address = who) with
  | none =>
      have hnot : who ∉ signers.map (·.address) := by
        intro hmem
        obtain ⟨signer, hsigner, rfl⟩ := List.mem_map.1 hmem
        simpa using List.find?_eq_none.1 hfind signer hsigner
      simp [hnot]
  | some signer =>
      have hmem : who ∈ signers.map (·.address) := by
        have hwho := List.find?_some hfind
        rw [decide_eq_true_iff] at hwho
        exact hwho ▸ List.mem_map_of_mem (List.mem_of_find?_eq_some hfind)
      simp [hmem]

/-- An address that was seen counts no more. -/
theorem weightOver_seen {seen rest : List Address} (hseen : who ∈ seen) :
    weightOver signers (seen ++ who :: rest).toFinset = weightOver signers (seen ++ rest).toFinset := by
  have hmem : who ∈ seen.toFinset ∪ rest.toFinset :=
    Finset.mem_union_left _ (List.mem_toFinset.2 hseen)
  rw [List.toFinset_append, List.toFinset_append, List.toFinset_cons, Finset.union_insert,
    Finset.insert_eq_of_mem hmem]

/-- An address that is new adds its weight. -/
theorem weightOver_new {seen : List Address} (hnew : who ∉ seen) :
    weightOver signers (seen ++ [who]).toFinset
      = weightOver signers seen.toFinset + weightAtAddress signers who := by
  have hmem : who ∉ seen.toFinset := by rwa [List.mem_toFinset]
  have hset : (seen ++ [who]).toFinset = insert who seen.toFinset := by
    ext a
    simp
  rw [hset, weightOver, Finset.sum_insert hmem, Nat.add_comm]
  rfl

/-- The loop of `accumulate_weight`: what was seen has been counted, and every address seen for
the first time is a signer that authorized the payload. -/
theorem accumulateSignatories_ok {seen rest : List Address} {sum result : ℤ}
    (hsum : sum = weightOver signers seen.toFinset)
    (h : accumulateSignatories H env signers args seen sum rest = .ok result) :
    result = weightOver signers (seen ++ rest).toFinset ∧
      ∀ who ∈ rest, who ∉ seen → IsSignerIn signers who ∧ env.argAuths who args = true := by
  induction rest generalizing seen sum with
  | nil =>
      cases h
      simpa using hsum
  | cons who rest ih =>
      unfold accumulateSignatories at h
      split at h
      · rename_i hseen
        obtain ⟨hresult, hbacked⟩ := ih hsum h
        refine ⟨by rw [hresult, weightOver_seen hseen], ?_⟩
        intro a ha hnew
        rcases List.mem_cons.1 ha with rfl | ha
        · exact absurd hseen hnew
        · exact hbacked a ha hnew
      · rename_i hnew
        simp only [bind_eq_ok, weightIn_eq_ok, requireAuthForArgs, ensure_eq_ok, addWeight,
          checkedAdd_eq_ok] at h
        obtain ⟨weight, ⟨hsigner, rfl⟩, _, hauth, _, ⟨_, rfl⟩, hrest⟩ := h
        have hcounted : sum + weightAtAddress signers who
            = weightOver signers (seen ++ [who]).toFinset := by
          rw [hsum, weightOver_new hnew]
          push_cast
          rfl
        obtain ⟨hresult, hbacked⟩ := ih hcounted hrest
        refine ⟨by simpa using hresult, ?_⟩
        intro a ha hseen
        by_cases hsame : a = who
        · subst hsame
          exact ⟨hsigner, hauth⟩
        · refine hbacked a ((List.mem_cons.1 ha).resolve_left hsame) ?_
          simp [hseen, hsame]

/-- The loop returns when everybody is a signer that authorized the payload and the sum fits. -/
theorem accumulateSignatories_returns {seen rest : List Address} {sum : ℤ}
    (hsum : sum = weightOver signers seen.toFinset)
    (hfits : weightOver signers (seen ++ rest).toFinset ≤ 2 ^ 32 - 1)
    (hbacked : ∀ who ∈ rest, IsSignerIn signers who ∧ env.argAuths who args = true) :
    accumulateSignatories H env signers args seen sum rest
      = .ok (weightOver signers (seen ++ rest).toFinset : ℤ) := by
  induction rest generalizing seen sum with
  | nil => simp [accumulateSignatories, hsum]
  | cons who rest ih =>
      rw [List.forall_mem_cons] at hbacked
      unfold accumulateSignatories
      split
      · rename_i hseen
        rw [weightOver_seen hseen] at hfits ⊢
        exact ih hsum hfits hbacked.2
      · rename_i hnew
        have hcounted : sum + weightAtAddress signers who
            = weightOver signers (seen ++ [who]).toFinset := by
          rw [hsum, weightOver_new hnew]
          push_cast
          rfl
        have happend : seen ++ who :: rest = seen ++ [who] ++ rest := List.append_cons ..
        rw [happend] at hfits
        have hpart : weightOver signers (seen ++ [who]).toFinset
            ≤ weightOver signers (seen ++ [who] ++ rest).toFinset := by
          refine Finset.sum_le_sum_of_subset (f := weightAtAddress signers) ?_
          intro a ha
          rw [List.mem_toFinset] at ha ⊢
          exact List.mem_append_left _ ha
        have hloop := ih hcounted hfits hbacked.2
        rw [← happend] at hloop
        simp only [bind_eq_ok, weightIn_eq_ok, requireAuthForArgs, ensure_eq_ok, addWeight,
          checkedAdd_eq_ok]
        exact ⟨_, ⟨hbacked.1.1, rfl⟩, (), hbacked.1.2, _,
          ⟨isI128_of_small (by omega) (by omega), rfl⟩, hloop⟩

/-- **The weight behind a payload is that of a set.** -/
theorem accumulateWeight_eq_ok {signatories : List Address} {weight : ℕ} :
    accumulateWeight H env signers caller signatories args = .ok weight ↔
      Backed env signers args (insert caller signatories.toFinset) ∧
      weightOver signers (insert caller signatories.toFinset) ≤ 2 ^ 32 - 1 ∧
      weightOver signers (insert caller signatories.toFinset) = weight := by
  have hset : insert caller signatories.toFinset = ([caller] ++ signatories).toFinset := by
    rw [List.singleton_append, List.toFinset_cons]
  have hcaller : (weightAtAddress signers caller : ℤ) = weightOver signers [caller].toFinset := by
    simp [weightOver]
  simp only [accumulateWeight, bind_eq_ok, weightIn_eq_ok, requireAuthForArgs, ensure_eq_ok,
    narrow_eq_ok]
  constructor
  · rintro ⟨_, ⟨hsigner, rfl⟩, _, hauth, sum, hloop, hsmall, rfl⟩
    obtain ⟨hsum, hbacked⟩ := accumulateSignatories_ok hcaller hloop
    rw [← hset] at hsum
    refine ⟨?_, by omega, by omega⟩
    intro who hwho
    rw [Finset.mem_insert, List.mem_toFinset] at hwho
    by_cases hsame : who = caller
    · subst hsame
      exact ⟨hsigner, hauth⟩
    · exact hbacked who (hwho.resolve_left hsame) (by simpa using hsame)
  · rintro ⟨hbacked, hfits, rfl⟩
    obtain ⟨hsigner, hauth⟩ := hbacked caller (Finset.mem_insert_self _ _)
    have hloop : accumulateSignatories H env signers args [caller]
        (weightAtAddress signers caller) signatories
        = .ok (weightOver signers ([caller] ++ signatories).toFinset : ℤ) := by
      refine accumulateSignatories_returns hcaller ?_ ?_
      · rw [← hset]
        exact hfits
      · exact fun who hwho => hbacked who (Finset.mem_insert_of_mem (List.mem_toFinset.2 hwho))
    rw [← hset] at hloop
    exact ⟨_, ⟨hsigner, rfl⟩, (), hauth, _, hloop, by omega, by omega⟩

/-! ## Who accepts a set -/

/-- The set is backed and reaches the threshold. -/
structure Carries (env : Env H.self) (signers : List SignerWeight) (threshold : ℕ)
    (args : List Val) (S : Finset Address) : Prop where
  backed : Backed env signers args S
  reaches : threshold ≤ weightOver signers S

/-- **What a bare verification accepts.** -/
theorem Governed.verifyThreshold_eq_ok (hg : Governed s signers threshold)
    {signatories : List Address} {payload : List UInt8} {weight : ℕ} :
    verifyThreshold H env s caller signatories payload = .ok weight ↔
      s.emergencyLock = false ∧ signatories.length ≤ maxSigners ∧
      Carries env signers threshold [.bytes payload] (insert caller signatories.toFinset) ∧
      weightOver signers (insert caller signatories.toFinset) = weight := by
  have hfits : weightOver signers (insert caller signatories.toFinset) ≤ 2 ^ 32 - 1 :=
    (weightOver_le _).trans hg.wellFormed.fits
  simp only [verifyThreshold, State.requireNotLocked, State.loadSigners, State.loadThreshold,
    hg.signers_eq, hg.threshold_eq, bind_eq_ok, require_eq_ok, okOr_eq_ok, pure_eq_ok,
    accumulateWeight_eq_ok, Option.some.injEq]
  constructor
  · rintro ⟨_, hunlocked, _, hlength, _, rfl, _, rfl, _, ⟨hbacked, _, rfl⟩, _, hreaches, rfl⟩
    exact ⟨hunlocked, hlength, ⟨hbacked, hreaches⟩, rfl⟩
  · rintro ⟨hunlocked, hlength, hcarries, rfl⟩
    exact ⟨(), hunlocked, (), hlength, _, rfl, _, rfl, _, ⟨hcarries.backed, hfits, rfl⟩, (),
      hcarries.reaches, rfl⟩

/-- **What a batch accepts.** -/
theorem Governed.executeBatch_eq_ok (hg : Governed s signers threshold) {nonce : UInt64}
    {calls : List BatchCall} {approvers : List Address} :
    executeBatch H env s caller nonce calls approvers = .ok s' ↔
      s.emergencyLock = false ∧ (calls ≠ [] ∧ calls.length ≤ maxBatchCalls) ∧
      approvers.length ≤ maxSigners ∧ s.lastBatchNonce < nonce ∧
      Carries env signers threshold (batchPayload nonce calls) (insert caller approvers.toFinset) ∧
      executeCalls H env { s with lastBatchNonce := nonce } calls = .ok s' := by
  have hfits : weightOver signers (insert caller approvers.toFinset) ≤ 2 ^ 32 - 1 :=
    (weightOver_le _).trans hg.wellFormed.fits
  simp only [executeBatch, State.requireNotLocked, State.loadSigners, State.loadThreshold,
    requireQuorum, isMet, hg.signers_eq, hg.threshold_eq, bind_eq_ok, require_eq_ok, okOr_eq_ok,
    accumulateWeight_eq_ok, decide_eq_true_eq, Option.some.injEq]
  constructor
  · rintro ⟨_, hunlocked, _, rfl, _, rfl, _, _, _, hcalls, _, hlength, _, hnonce, _,
      ⟨hbacked, _, rfl⟩, _, hreaches, _, _, hexecute⟩
    exact ⟨hunlocked, hcalls, hlength, hnonce, ⟨hbacked, hreaches⟩, hexecute⟩
  · rintro ⟨hunlocked, hcalls, hlength, hnonce, hcarries, hexecute⟩
    have hsigner := (hcarries.backed caller (Finset.mem_insert_self _ _)).1
    exact ⟨(), hunlocked, _, rfl, _, rfl, (), hsigner, (), hcalls, (), hlength, (), hnonce, _,
      ⟨hcarries.backed, hfits, rfl⟩, (), hcarries.reaches, _, hg.wellFormed.totalWeight_eq, hexecute⟩

/-- Every set of signers can be listed. -/
theorem WellFormed.listable (h : WellFormed signers threshold) {S : Finset Address}
    (hcaller : caller ∈ S) (hsigners : ∀ who ∈ S, IsSignerIn signers who) :
    ∃ signatories : List Address, signatories.length ≤ maxSigners ∧
      insert caller signatories.toFinset = S := by
  refine ⟨S.toList, ?_, ?_⟩
  · have hsub : S ⊆ (signers.map (·.address)).toFinset := by
      intro who hwho
      rw [List.mem_toFinset]
      exact hsigners who hwho
    rw [Finset.length_toList]
    calc S.card ≤ (signers.map (·.address)).toFinset.card := Finset.card_le_card hsub
      _ ≤ (signers.map (·.address)).length := List.toFinset_card_le _
      _ = signers.length := List.length_map _
      _ ≤ maxSigners := h.length
  · rw [Finset.toList_toFinset]
    exact Finset.insert_eq_of_mem hcaller

/-! ## The nonces of a run -/

/-- The batch that an entry of a run executed. -/
def executedBatch (e : Entry (State World) (Inputs H)) : Option (UInt64 × List BatchCall) :=
  match e.input with
  | .invoke _ (.executeBatch _ nonce calls _) => some (nonce, calls)
  | _ => none

/-- The call leaves the nonces alone. -/
def Call.KeepsNonce : Call → Prop
  | .initializeContract .. | .executeBatch .. => False
  | _ => True

theorem exec_lastBatchNonce {call : Call} (hkeeps : call.KeepsNonce)
    (h : exec H env s call = .ok s') : s'.lastBatchNonce = s.lastBatchNonce := by
  cases call with
  | initializeContract | executeBatch => exact absurd hkeeps id
  | addSigner caller signer weight =>
      obtain ⟨_, rfl⟩ := addSigner_ok h
      rfl
  | removeSigner caller signer =>
      obtain ⟨_, rfl⟩ := removeSigner_ok h
      rfl
  | setThreshold caller threshold =>
      obtain ⟨_, rfl⟩ := setThreshold_ok h
      rfl
  | finalizeThreshold caller =>
      obtain ⟨_, _, rfl⟩ := finalizeThreshold_ok h
      rfl
  | setEmergencyLock caller locked =>
      obtain rfl := setEmergencyLock_ok h
      rfl
  | proposeThresholdChange | proposeWeightChange | proposeSignerAddition | proposeSignerRemoval
  | proposeTimelockDelayChange =>
      obtain ⟨id, h⟩ := snd_map_ok h
      obtain ⟨p, _, _, _, _, _, rfl⟩ := proposeChange_ok h
      rfl
  | executeThresholdChange caller id =>
      obtain ⟨p, s₁, _, _, _, _, _, happly, rfl⟩ := executeThresholdChange_ok h
      obtain ⟨signers, threshold, delay, rfl⟩ := applyChange_ok happly
      rfl
  | cancelThresholdChange caller id =>
      obtain ⟨p, _, _, rfl⟩ := cancelThresholdChange_ok h
      rfl
  | propose proposer action payload unlockAt =>
      obtain ⟨id, h⟩ := snd_map_ok h
      obtain ⟨_, _, _, _, _, _, rfl⟩ := propose_ok h
      rfl
  | approve caller id =>
      obtain ⟨weight, h⟩ := snd_map_ok h
      obtain ⟨_, _, _, _, _, rfl⟩ := approve_ok h
      rfl
  | execute caller id =>
      obtain ⟨_, _, _, _, _, _, _, _, _, _, rfl⟩ := execute_ok h
      rfl
  | verifyThreshold caller signatories payload =>
      obtain ⟨_, _, rfl⟩ := map_ok h
      rfl

/-- Before `initialize` no nonce was used. -/
theorem lastBatchNonce_of_unset (h : Reachable H s) (hunset : s.threshold = none) :
    s.lastBatchNonce = 0 := by
  obtain ⟨tr, t, hpath⟩ := h
  refine hpath.history (P := fun _ s _ => s.threshold = none → s.lastBatchNonce = 0) ?_ ?_ hunset
  · intro s _ hfresh _
    exact hfresh.lastBatchNonce
  · intro tr s t i s' hbefore ih _ _ hstep hunset'
    cases i with
    | outside time w =>
        obtain rfl := hstep
        exact ih hunset'
    | invoke env call =>
        have hexec : exec H env s call = .ok s' := hstep
        -- every call that returns leaves the contract initialized
        have hgoverned : s'.IsGoverned := by
          rcases governed_reachable hbefore.reachable with hblank | ⟨_, _, hg⟩
          · obtain ⟨_, _, rfl⟩ := initialize_of_unsigned hblank.signers hexec
            exact ⟨_, _, initializeContract_governed hexec⟩
          · exact hg.call hexec
        obtain ⟨_, _, hg⟩ := hgoverned
        rw [hg.threshold_eq] at hunset'
        cases hunset'

/-- An entry executes a batch under a higher nonce, or leaves the last nonce alone. -/
theorem raises_nonce {e : Entry (State World) (Inputs H)} (hreach : Reachable H e.pre)
    (hstep : (machine H).step e.input e.pre e.post) :
    Machine.Raises (· < ·) State.lastBatchNonce (fun e => (executedBatch e).map Prod.fst) e := by
  obtain ⟨pre, input, post⟩ := e
  unfold Machine.Raises executedBatch
  cases input with
  | outside time w =>
      have hpost : post = { pre with world := w } := hstep
      rw [hpost]
      rfl
  | invoke env call =>
      have hexec : exec H env pre call = .ok post := hstep
      cases call with
      | executeBatch caller nonce calls approvers =>
          obtain ⟨hnonce, _, rfl⟩ := executeBatch_ok hexec
          exact ⟨hnonce, rfl⟩
      | initializeContract signers threshold =>
          obtain ⟨hunset, rfl⟩ := initializeContract_ok hexec
          exact (lastBatchNonce_of_unset hreach hunset).symm
      | _ =>
          refine exec_lastBatchNonce ?_ hexec
          trivial

/-- A payload names its nonce. -/
theorem batchPayload_nonce {nonce nonce' : UInt64} {calls calls' : List BatchCall}
    (h : batchPayload nonce calls = batchPayload nonce' calls') : nonce = nonce' := by
  simp only [batchPayload, List.cons.injEq, Val.u64.injEq] at h
  exact h.1

/-- **Batches are executed under rising nonces**, so each payload at most once. -/
theorem batches_rise {tr : List (Entry (State World) (Inputs H))} {t : ℕ}
    (hpath : (machine H).Path Machine.anyInput tr s t) :
    ((Machine.log executedBatch tr).map Prod.fst).Pairwise (· < ·) ∧
      ((Machine.log executedBatch tr).map fun b => batchPayload b.1 b.2).Nodup := by
  have hall : (machine H).Path Machine.anyInput ([] ++ tr) s t := hpath
  have hrises := hall.rising (r := fun n n' : UInt64 => n < n') (fun _ _ _ => UInt64.lt_trans)
    fun e he => raises_nonce (hpath.reachable_of_mem he) (hpath.stepped he)
  have hnonces : ((Machine.log executedBatch tr).map Prod.fst).Pairwise (· < ·) := by
    rw [Machine.log, List.map_filterMap]
    exact hrises.1
  refine ⟨hnonces, ?_⟩
  rw [List.pairwise_map] at hnonces
  rw [List.Nodup, List.pairwise_map]
  refine hnonces.imp ?_
  intro b b' hlt hsame
  rw [batchPayload_nonce hsame] at hlt
  exact UInt64.lt_irrefl _ hlt

/-- **Signature weight is a set function.**  The weight behind a payload is that of the set of
the caller and the signatories, and is returned exactly when each of them is a signer that
authorized the payload and the sum is a `u32`.  Once the contract is initialized a verification
and a batch accept exactly the sets that reach the threshold, every set of signers can be listed
within the limit, and the batches of a run are executed under rising nonces. -/
theorem signature_weight (H : MultisigHost World) :
    (∀ (env : Env H.self) signers caller signatories args weight,
      accumulateWeight H env signers caller signatories args = .ok weight ↔
        Backed env signers args (insert caller signatories.toFinset) ∧
        weightOver signers (insert caller signatories.toFinset) ≤ 2 ^ 32 - 1 ∧
        weightOver signers (insert caller signatories.toFinset) = weight) ∧
    (∀ s signers threshold, Reachable H s → s.signers = some signers →
      s.threshold = some threshold →
      (∀ (env : Env H.self) caller signatories payload weight,
        verifyThreshold H env s caller signatories payload = .ok weight ↔
          s.emergencyLock = false ∧ signatories.length ≤ maxSigners ∧
          Carries env signers threshold [.bytes payload] (insert caller signatories.toFinset) ∧
          weightOver signers (insert caller signatories.toFinset) = weight) ∧
      (∀ (env : Env H.self) caller nonce calls approvers s',
        executeBatch H env s caller nonce calls approvers = .ok s' ↔
          s.emergencyLock = false ∧ (calls ≠ [] ∧ calls.length ≤ maxBatchCalls) ∧
          approvers.length ≤ maxSigners ∧ s.lastBatchNonce < nonce ∧
          Carries env signers threshold (batchPayload nonce calls)
            (insert caller approvers.toFinset) ∧
          executeCalls H env { s with lastBatchNonce := nonce } calls = .ok s') ∧
      ∀ (S : Finset Address) caller, caller ∈ S → (∀ who ∈ S, IsSignerIn signers who) →
        ∃ signatories : List Address, signatories.length ≤ maxSigners ∧
          insert caller signatories.toFinset = S) ∧
    ∀ tr s t, (machine H).Path Machine.anyInput tr s t →
      ((Machine.log executedBatch tr).map Prod.fst).Pairwise (· < ·) ∧
      ((Machine.log executedBatch tr).map fun b => batchPayload b.1 b.2).Nodup := by
  refine ⟨fun _ _ _ _ _ _ => accumulateWeight_eq_ok, ?_, fun _ _ _ => batches_rise⟩
  intro s signers threshold hreach hsigners hthreshold
  obtain ⟨threshold', hg⟩ := governed_of_signers hreach hsigners
  have hsame := hg.threshold_eq.symm.trans hthreshold
  cases hsame
  exact ⟨fun _ _ _ _ _ => hg.verifyThreshold_eq_ok, fun _ _ _ _ _ _ => hg.executeBatch_eq_ok,
    fun _ _ => hg.wellFormed.listable⟩

/-- A multisig whose batches every contract answers. -/
def answeringHost : MultisigHost Unit where
  self := .contract 0
  invoke _ w _ := .ok w

/-- Accounts 1 and 2 authorized every payload. -/
def bothSigned : Env (.contract 0) :=
  { signedBy 1 [] with argAuths := fun who _ => decide (who ∈ [Address.account 1, .account 2]) }

/-- A call of another contract. -/
def ping : BatchCall := ⟨.contract 7, "ping", []⟩

/-- Two batches are executed, under the nonces 1 and 2. -/
def batched : Script Call :=
  opening ++ [(bothSigned, .executeBatch (.account 1) 1 [ping] [.account 2, .account 1]),
    (bothSigned, .executeBatch (.account 2) 2 [ping] [.account 1])]

/-- Account 2 is listed twice and counts once, and so does the caller. -/
theorem signature_weight_batched :
    verifyThreshold answeringHost bothSigned ((deployment answeringHost).play deployed batched)
      (.account 1) [.account 2, .account 1, .account 2] [7] = .ok 2 ∧
    ((Machine.log executedBatch ((deployment answeringHost).trace deployed batched)).map
      fun b => batchPayload b.1 b.2).Nodup := by
  have hplays : (deployment answeringHost).plays deployed 0 batched = true := by decide
  have hpath := Deployment.path_trace deployed_fresh hplays
  obtain ⟨_, haccepts, hruns⟩ := signature_weight answeringHost
  refine ⟨?_, ?_⟩
  · obtain ⟨hverify, _⟩ := haccepts _ pair 2 hpath.reachable rfl rfl
    refine (hverify bothSigned (.account 1) [.account 2, .account 1, .account 2] [7] 2).2 ?_
    refine ⟨rfl, by decide, ⟨?_, by decide⟩, by decide⟩
    have hset : insert (Address.account 1) [Address.account 2, .account 1, .account 2].toFinset
        = {.account 1, .account 2} := by decide
    rw [hset]
    intro who hwho
    rw [Finset.mem_insert, Finset.mem_singleton] at hwho
    rcases hwho with rfl | rfl
    · exact ⟨by decide, rfl⟩
    · exact ⟨by decide, rfl⟩
  · exact (hruns _ _ _ hpath).2

end MultisigContract
end Astroid
