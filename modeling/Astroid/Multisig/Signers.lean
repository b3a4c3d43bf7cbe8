import Astroid.Lib.Quorum
import Astroid.Multisig.Effects

/-!
# Well-formed signer sets

The signer set is a list of weighted voters.  It is well formed for a threshold when the
voters are distinct and few, each has a positive weight, the sum of the weights is a
`u32` and the threshold is between one and that sum (`WellFormed`).  Then none of the
weight sums the contract takes can fail: the total (`totalWeight_eq`), the tally of a
proposal (`liveTally_eq`) and the weight behind a batch (`accumulateWeight_fits`).
-/

namespace Astroid
namespace MultisigContract

open Outcome Quorum

variable {World : Type} {H : MultisigHost World} {env : Env H.self} {s s' : State World}
  {signers : List SignerWeight} {threshold : ℕ}

/-- The total weight of a signer set. -/
abbrev weights (signers : List SignerWeight) : ℕ := total SignerWeight.weight signers

/-- The weight of the signers that an approval is on record of. -/
abbrev approvedWeight (s : State World) (id : ℕ) (signers : List SignerWeight) : ℕ :=
  support SignerWeight.address SignerWeight.weight (s.approval id) signers

@[simp] theorem weights_cons {signer : SignerWeight} :
    weights (signer :: signers) = signer.weight + weights signers :=
  total_cons

@[simp] theorem approvedWeight_cons {id : ℕ} {signer : SignerWeight} :
    approvedWeight s id (signer :: signers)
      = (if s.approval id signer.address = true then signer.weight else 0)
        + approvedWeight s id signers :=
  support_cons

structure WellFormed (signers : List SignerWeight) (threshold : ℕ) : Prop where
  distinct : (signers.map (·.address)).Nodup
  length : signers.length ≤ maxSigners
  positive : ∀ signer ∈ signers, 0 < signer.weight
  fits : weights signers ≤ 2 ^ 32 - 1
  low : minThreshold ≤ threshold
  high : threshold ≤ weights signers

/-- The signers of the opening. -/
def pair : List SignerWeight := [⟨.account 1, 1⟩, ⟨.account 2, 1⟩]

theorem pair_wellFormed : WellFormed pair 2 := by
  refine ⟨by decide, by decide, by decide, by decide, by decide, by decide⟩

theorem WellFormed.nonempty (h : WellFormed signers threshold) : signers ≠ [] := by
  rintro rfl
  have hlow := h.low
  have hhigh := h.high
  unfold minThreshold at hlow
  simp at hhigh
  omega

/-! ## Sums of weights -/

theorem narrow_eq_ok {sum : ℤ} {n : ℕ} :
    narrow sum = .ok n ↔ sum ≤ 2 ^ 32 - 1 ∧ sum.toNat = n := by
  unfold narrow
  split
  · rename_i hlarge
    simp
    omega
  · rename_i hsmall
    simp
    omega

theorem isI128_of_small {sum : ℤ} (h0 : 0 ≤ sum) (h : sum ≤ 2 ^ 32 - 1) : IsI128 sum := by
  unfold IsI128 i128Min i128Max
  omega

theorem sumWeights_ok {sum result : ℤ} (h : sumWeights sum signers = .ok result) :
    result = sum + weights signers := by
  induction signers generalizing sum with
  | nil =>
      cases h
      simp
  | cons signer rest ih =>
      simp only [sumWeights, addWeight, bind_eq_ok, checkedAdd_eq_ok] at h
      obtain ⟨_, ⟨_, rfl⟩, hrest⟩ := h
      rw [ih hrest, weights_cons]
      push_cast
      ring

theorem sumWeights_returns {sum : ℤ} (h0 : 0 ≤ sum) (hfits : sum + weights signers ≤ 2 ^ 32 - 1) :
    sumWeights sum signers = .ok (sum + weights signers) := by
  induction signers generalizing sum with
  | nil => simp [sumWeights]
  | cons signer rest ih =>
      rw [weights_cons] at hfits ⊢
      push_cast at hfits ⊢
      simp only [sumWeights, addWeight, bind_eq_ok, checkedAdd_eq_ok]
      refine ⟨_, ⟨isI128_of_small (by omega) (by omega), rfl⟩, ?_⟩
      rw [ih (by omega) (by omega)]
      congr 1
      ring

/-- **When the total weight can be taken.** -/
theorem totalWeight_eq_ok {n : ℕ} :
    totalWeight signers = .ok n ↔ weights signers ≤ 2 ^ 32 - 1 ∧ weights signers = n := by
  simp only [totalWeight, bind_eq_ok, narrow_eq_ok]
  constructor
  · rintro ⟨sum, hsum, hfits, rfl⟩
    have htotal := sumWeights_ok hsum
    omega
  · rintro ⟨hfits, rfl⟩
    refine ⟨_, sumWeights_returns le_rfl (by omega), by omega, by omega⟩

theorem WellFormed.totalWeight_eq (h : WellFormed signers threshold) :
    totalWeight signers = .ok (weights signers) :=
  totalWeight_eq_ok.2 ⟨h.fits, rfl⟩

/-- The loop of `live_tally` over the signers that remain. -/
theorem tallyApprovals_eq {id : ℕ} {sum : ℤ} {count : ℕ} (h0 : 0 ≤ sum)
    (hsum : sum + approvedWeight s id signers ≤ 2 ^ 32 - 1)
    (hcount : count + turnout SignerWeight.address (s.approval id) signers < 2 ^ 32) :
    tallyApprovals s id sum count signers = .ok (sum + approvedWeight s id signers,
      count + turnout SignerWeight.address (s.approval id) signers) := by
  induction signers generalizing sum count with
  | nil => simp [tallyApprovals, turnout]
  | cons signer rest ih =>
      rw [approvedWeight_cons] at hsum ⊢
      rw [turnout_cons] at hcount ⊢
      unfold tallyApprovals
      by_cases happroved : s.approval id signer.address = true
      · simp only [if_pos happroved] at hsum hcount ⊢
        push_cast at hsum ⊢
        have hadd : addWeight sum signer.weight = .ok (sum + signer.weight) :=
          checkedAdd_eq_ok.2 ⟨isI128_of_small (by omega) (by omega), rfl⟩
        have hone : checkedCount count 1 = .ok (count + 1) :=
          checkedCount_eq_ok.2 ⟨by omega, rfl⟩
        rw [hadd, ok_bind, hone, ok_bind, ih (by omega) (by omega) (by omega)]
        congr 2
        · ring
        · ring
      · simp only [if_neg happroved, zero_add] at hsum hcount ⊢
        exact ih h0 hsum hcount

/-- **The tally of a proposal does not fail.** -/
theorem WellFormed.liveTally_eq (h : WellFormed signers threshold) (hs : s.signers = some signers)
    (id : ℕ) : liveTally s id = .ok (approvedWeight s id signers,
      turnout SignerWeight.address (s.approval id) signers) := by
  have hfits := h.fits
  have hlength := h.length
  unfold maxSigners at hlength
  have hweight : approvedWeight s id signers ≤ weights signers := support_le_total
  have hturnout : turnout SignerWeight.address (s.approval id) signers ≤ signers.length :=
    turnout_le_length
  have htally : tallyApprovals s id 0 0 signers = .ok (0 + (approvedWeight s id signers : ℤ),
      0 + turnout SignerWeight.address (s.approval id) signers) :=
    tallyApprovals_eq le_rfl (by omega) (by omega)
  simp only [liveTally, State.loadSigners, hs, bind_eq_ok, okOr_eq_ok, narrow_eq_ok, pure_eq_ok]
  refine ⟨signers, rfl, _, htally, _, ⟨by omega, rfl⟩, ?_⟩
  rw [zero_add, zero_add, Int.toNat_natCast]

/-- **The quorum of a proposal**, against the signers and the threshold as they stand. -/
theorem WellFormed.quorumStatus_eq (h : WellFormed signers threshold)
    (hs : s.signers = some signers) (ht : s.threshold = some threshold) (id : ℕ) :
    quorumStatus s id = .ok (.evaluate (approvedWeight s id signers)
      (turnout SignerWeight.address (s.approval id) signers) threshold (weights signers)) := by
  simp only [quorumStatus, State.loadSigners, State.loadThreshold, hs, ht, bind_eq_ok, okOr_eq_ok,
    pure_eq_ok]
  exact ⟨signers, rfl, _, h.liveTally_eq hs id, threshold, rfl, _, h.totalWeight_eq, rfl⟩

/-! ## Looking a signer up -/

theorem weightIn_error {who : Address} {fault : Fault}
    (h : weightIn signers who = .error fault) : fault = .error .notASigner := by
  unfold weightIn at h
  cases hfind : signers.find? (·.address = who) with
  | none =>
      rw [hfind] at h
      cases h
      rfl
  | some signer =>
      rw [hfind] at h
      cases h

/-- The first entry of a signer. -/
theorem indexOf_ok {who : Address} {idx : ℕ} (h : indexOf signers who = .ok idx) :
    ∃ before signer after, signers = before ++ signer :: after ∧ before.length = idx ∧
      signer.address = who ∧ weightIn signers who = .ok signer.weight := by
  simp only [indexOf, okOr_eq_ok, List.findIdx?_eq_some_iff_getElem, decide_eq_true_eq] at h
  obtain ⟨hlt, hwho, hearlier⟩ := h
  have hsplit : signers = signers.take idx ++ signers[idx] :: signers.drop (idx + 1) := by
    rw [List.getElem_cons_drop, List.take_append_drop]
  generalize signers[idx] = signer at hsplit hwho
  refine ⟨_, _, _, hsplit, ?_, hwho, ?_⟩
  · rw [List.length_take]
    omega
  · have hnone : (signers.take idx).find? (·.address = who) = none := by
      rw [List.find?_eq_none]
      intro x hx
      obtain ⟨j, hj, rfl⟩ := List.mem_iff_getElem.1 hx
      rw [List.getElem_take, decide_eq_true_eq]
      rw [List.length_take] at hj
      exact hearlier j (by omega)
    have hfind : signers.find? (·.address = who) = some signer := by
      rw [hsplit, List.find?_append, hnone, Option.none_or]
      exact List.find?_cons_of_pos (by simpa using hwho)
    simp only [weightIn, hfind, bind_eq_ok, okOr_eq_ok, pure_eq_ok]
    exact ⟨_, rfl, rfl⟩

/-! ## The weight behind a batch -/

/-- The weight of the signers among some addresses. -/
abbrev weightOf (signers : List SignerWeight) (seen : List Address) : ℕ :=
  support SignerWeight.address SignerWeight.weight (fun who => decide (who ∈ seen)) signers

theorem weightOf_append {who : Address} {weight : ℕ} {seen : List Address}
    (hdistinct : (signers.map (·.address)).Nodup) (hweight : weightIn signers who = .ok weight)
    (hnew : who ∉ seen) : weightOf signers (seen ++ [who]) = weightOf signers seen + weight := by
  obtain ⟨signer, hmem, rfl, rfl⟩ := weightIn_ok hweight
  have hinsert : support SignerWeight.address SignerWeight.weight
        (fun who => decide (who ∈ seen) || decide (who = signer.address)) signers
      = weightOf signers seen + signer.weight :=
    support_insert hdistinct hmem (decide_eq_false hnew)
  rw [← hinsert]
  refine support_congr ?_
  intro x _
  rw [Bool.eq_iff_iff]
  simp

/-- The loop of `accumulate_weight`, with the weight of those already seen. -/
theorem accumulateSignatories_fits {args : List Val} {seen rest : List Address} {sum : ℤ}
    (hdistinct : (signers.map (·.address)).Nodup) (hfits : weights signers ≤ 2 ^ 32 - 1)
    (hsum : sum = weightOf signers seen) :
    accumulateSignatories H env signers args seen sum rest ≠ .error (.error .overflow) ∧
      ∀ result, accumulateSignatories H env signers args seen sum rest = .ok result →
        result ≤ weights signers := by
  induction rest generalizing seen sum with
  | nil =>
      refine ⟨?_, ?_⟩
      · rintro ⟨⟩
      · rintro result ⟨⟩
        have hle : weightOf signers seen ≤ weights signers := support_le_total
        omega
  | cons who rest ih =>
      unfold accumulateSignatories
      split
      · exact ih hsum
      · rename_i hnew
        cases hweight : weightIn signers who with
        | error fault =>
            obtain rfl := weightIn_error hweight
            refine ⟨?_, ?_⟩
            · rintro ⟨⟩
            · rintro result ⟨⟩
        | ok weight =>
            have hnext := weightOf_append hdistinct hweight hnew
            have hle : weightOf signers (seen ++ [who]) ≤ weights signers := support_le_total
            have hadd : addWeight sum weight = .ok (sum + weight) :=
              checkedAdd_eq_ok.2 ⟨isI128_of_small (by omega) (by omega), rfl⟩
            rw [ok_bind, hadd]
            unfold requireAuthForArgs
            by_cases hauth : env.argAuths who args = true
            · rw [ensure_pos hauth, ok_bind, ok_bind]
              exact ih (by omega)
            · rw [ensure_neg hauth]
              refine ⟨?_, ?_⟩
              · rintro ⟨⟩
              · rintro result ⟨⟩

/-- **The weight behind a batch does not overflow.** -/
theorem WellFormed.accumulateWeight_fits (h : WellFormed signers threshold) (caller : Address)
    (signatories : List Address) (args : List Val) :
    accumulateWeight H env signers caller signatories args ≠ .error (.error .overflow) := by
  unfold accumulateWeight requireAuthForArgs
  cases hweight : weightIn signers caller with
  | error fault =>
      obtain rfl := weightIn_error hweight
      rintro ⟨⟩
  | ok weight =>
      by_cases hauth : env.argAuths caller args = true
      · have hcaller : weightOf signers [caller] = weight := by
          have hnext : weightOf signers ([] ++ [caller]) = weightOf signers [] + weight :=
            weightOf_append h.distinct hweight (by simp)
          have hnone : weightOf signers [] = 0 := by simp [weightOf, support]
          rw [List.nil_append] at hnext
          omega
        have hsum : (weight : ℤ) = weightOf signers [caller] := by omega
        have hloops : accumulateSignatories H env signers args [caller] weight signatories
              ≠ .error (.error .overflow) ∧ ∀ result,
            accumulateSignatories H env signers args [caller] weight signatories = .ok result →
              result ≤ weights signers := accumulateSignatories_fits h.distinct h.fits hsum
        obtain ⟨hfails, hsmall⟩ := hloops
        rw [ok_bind, ensure_pos hauth, ok_bind]
        cases hloop : accumulateSignatories H env signers args [caller] weight signatories with
        | error fault =>
            rw [hloop] at hfails
            rintro ⟨⟩
            exact hfails rfl
        | ok result =>
            have hresult := hsmall result hloop
            have hfits := h.fits
            have hnarrow : narrow result = .ok result.toNat := narrow_eq_ok.2 ⟨by omega, rfl⟩
            rw [ok_bind, hnarrow]
            rintro ⟨⟩
      · rw [ok_bind, ensure_neg hauth]
        rintro ⟨⟩

end MultisigContract
end Astroid
