import Astroid.Lib.Quorum
import Astroid.Shared.Math

/-!
# Quorum verification

`verify_quorum` of `shared/src/validation.rs`: it scans the signers and the approvals for
duplicates, looks every approval up among the signers, and adds up their weights, giving up
as soon as the sum is no `u32`.  The sum it arrives at is the support of the approvals, in
whatever order they stand (`verifyQuorum_eq_ok`).
-/

namespace Astroid

open Outcome Quorum

/-! ## The verifier -/

/-- `u32::MAX`. -/
def u32Max : UInt64 := 4294967295

/-- The scan for two equal entries. -/
def requireDistinct (e : Error) : List Address → Result Unit
  | [] => .ok ()
  | a :: rest => do
      require (∀ b ∈ rest, a ≠ b) e
      requireDistinct e rest

/-- The search among the signers, which stops at the first that is `app`. -/
def findWeight (signers : List Address) (weights : List UInt32) (app : Address) : Option UInt32 :=
  ((signers.zip weights).find? fun s => decide (s.1 = app)).map (·.2)

/-- The loop over the approvals. -/
def tallyApprovals (signers : List Address) (weights : List UInt32) (totalWeight : UInt64) :
    List Address → Result UInt64
  | [] => pure totalWeight
  | app :: approvals => do
      let weight ← okOr (findWeight signers weights app) .notASigner
      let totalWeight ← checkedAddU64 totalWeight weight.toUInt64
      require (totalWeight ≤ u32Max) .overflow
      tallyApprovals signers weights totalWeight approvals

def verifyQuorum (signers : List Address) (weights : List UInt32) (approvals : List Address)
    (threshold : UInt32) : Result Unit := do
  require (signers.length = weights.length ∧ signers ≠ []) .invalidInput
  require (threshold ≠ 0) .invalidThreshold
  requireDistinct .invalidInput signers
  requireDistinct .alreadySigned approvals
  let totalWeight ← tallyApprovals signers weights 0 approvals
  require (threshold.toUInt64 ≤ totalWeight) .thresholdNotMet

/-! ## What the loops do -/

section Loops

variable {signers signers' approvals : List Address} {weights weights' : List UInt32}
  {threshold : UInt32} {total r : UInt64} {app : Address}

theorem requireDistinct_eq (e : Error) (l : List Address) :
    requireDistinct e l = require l.Nodup e := by
  induction l with
  | nil => exact (require_pos List.nodup_nil).symm
  | cons a l ih =>
      have hhead : (∀ b ∈ l, a ≠ b) ↔ a ∉ l := List.forall_mem_ne
      rw [requireDistinct, ih]
      by_cases ha : a ∉ l
      · rw [require_pos (hhead.2 ha), ok_bind]
        by_cases hl : l.Nodup
        · rw [require_pos hl, require_pos (List.nodup_cons.2 ⟨ha, hl⟩)]
        · rw [require_neg hl, require_neg fun h => hl (List.nodup_cons.1 h).2]
      · rw [require_neg (mt hhead.1 ha), require_neg fun h => ha (List.nodup_cons.1 h).1]
        rfl

/-- The weight a search stands for. -/
abbrev weightOf (signers : List Address) (weights : List UInt32) : Address → ℕ :=
  weightAt Prod.fst (fun s : Address × UInt32 => s.2.toNat) (signers.zip weights)

theorem weightOf_eq {weight : UInt32} (h : findWeight signers weights app = some weight) :
    weightOf signers weights app = weight.toNat := by
  obtain ⟨s, hs, rfl⟩ := Option.map_eq_some_iff.1 h
  simp only [weightOf, weightAt, hs]
  rfl

/-- Who is found is a signer. -/
theorem exists_findWeight (hlength : signers.length = weights.length) :
    (∃ weight, findWeight signers weights app = some weight) ↔ app ∈ signers := by
  have hkeys : (signers.zip weights).map Prod.fst = signers := List.map_fst_zip hlength.le
  have hmem : app ∈ signers ↔ ∃ s ∈ signers.zip weights, s.1 = app := by
    rw [← hkeys, List.mem_map, hkeys]
  rw [hmem, ← Option.isSome_iff_exists]
  simp [findWeight]

/-- The loop returns the sum of the weights of signers, as long as it is a `u32`. -/
theorem tallyApprovals_eq_ok (htotal : total ≤ u32Max) :
    tallyApprovals signers weights total approvals = .ok r ↔
      (∀ a ∈ approvals, ∃ weight, findWeight signers weights a = some weight) ∧
        r.toNat = total.toNat + (approvals.map (weightOf signers weights)).sum ∧ r ≤ u32Max := by
  induction approvals generalizing total with
  | nil =>
      rw [tallyApprovals, pure_eq_ok, ← UInt64.toNat_inj, eq_comm]
      constructor
      · intro h
        refine ⟨by simp, h, ?_⟩
        rw [UInt64.le_iff_toNat_le, h]
        exact UInt64.le_iff_toNat_le.1 htotal
      · rintro ⟨_, h, _⟩
        exact h
  | cons a approvals ih =>
      simp only [tallyApprovals, bind_eq_ok, okOr_eq_ok, checkedAddU64_eq_ok, require_eq_ok,
        List.forall_mem_cons, List.map_cons, List.sum_cons]
      constructor
      · rintro ⟨weight, hweight, next, ⟨hfits, rfl⟩, _, hnext, hrest⟩
        obtain ⟨hfound, hr, hmax⟩ := (ih hnext).1 hrest
        rw [UInt64.toNat_add, Nat.mod_eq_of_lt hfits, UInt32.toNat_toUInt64] at hr
        refine ⟨⟨⟨weight, hweight⟩, hfound⟩, ?_, hmax⟩
        rw [weightOf_eq hweight]
        omega
      · rintro ⟨⟨⟨weight, hweight⟩, hfound⟩, hr, hmax⟩
        rw [weightOf_eq hweight] at hr
        have hle := UInt64.le_iff_toNat_le.1 hmax
        have hbound : u32Max.toNat < 2 ^ 64 := u32Max.toNat_lt
        have hsum : (total + weight.toUInt64).toNat = total.toNat + weight.toNat := by
          rw [UInt64.toNat_add, UInt32.toNat_toUInt64, Nat.mod_eq_of_lt (by omega)]
        have hnext : total + weight.toUInt64 ≤ u32Max := by
          rw [UInt64.le_iff_toNat_le, hsum]
          omega
        refine ⟨weight, hweight, _, ⟨?_, rfl⟩, (), hnext, (ih hnext).2 ⟨hfound, ?_, hmax⟩⟩
        · rw [UInt32.toNat_toUInt64]
          omega
        · rw [hsum]
          omega

/-! ## What is accepted -/

/-- The weight of the signers that approved. -/
def approvedWeight (signers : List Address) (weights : List UInt32) (approvals : List Address) :
    ℕ :=
  support Prod.fst (fun s => s.2.toNat) (fun a => decide (a ∈ approvals)) (signers.zip weights)

/-- A quorum was reached. -/
structure QuorumReached (signers : List Address) (weights : List UInt32)
    (approvals : List Address) (threshold : UInt32) : Prop where
  length_eq : signers.length = weights.length
  length_pos : 0 < signers.length
  signers_nodup : signers.Nodup
  approvals_nodup : approvals.Nodup
  approvals_subset : ∀ a ∈ approvals, a ∈ signers
  threshold_pos : 1 ≤ threshold.toNat
  reached : threshold.toNat ≤ approvedWeight signers weights approvals
  representable : approvedWeight signers weights approvals ≤ 2 ^ 32 - 1

/-- Distinct approvals of signers weigh what the approving signers do. -/
theorem sum_weightOf (hlength : signers.length = weights.length) (hsigners : signers.Nodup)
    (happrovals : approvals.Nodup) (hsubset : ∀ a ∈ approvals, a ∈ signers) :
    (approvals.map (weightOf signers weights)).sum = approvedWeight signers weights approvals := by
  have hkeys : (signers.zip weights).map Prod.fst = signers := List.map_fst_zip hlength.le
  refine (support_eq_sum_weightAt ?_ happrovals ?_).symm
  · rw [hkeys]
    exact hsigners
  · rw [hkeys]
    exact hsubset

/-- **A quorum is verified exactly when it was reached.** -/
theorem verifyQuorum_eq_ok :
    verifyQuorum signers weights approvals threshold = .ok ()
      ↔ QuorumReached signers weights approvals threshold := by
  have hmax : u32Max.toNat = 2 ^ 32 - 1 := rfl
  have hzero : (0 : UInt64).toNat = 0 := rfl
  have hpos : threshold ≠ 0 ↔ 1 ≤ threshold.toNat := by
    rw [ne_eq, ← UInt32.toNat_inj, Nat.one_le_iff_ne_zero]
    rfl
  simp only [verifyQuorum, requireDistinct_eq, bind_eq_ok, require_eq_ok,
    tallyApprovals_eq_ok (show (0 : UInt64) ≤ u32Max by decide), UInt64.le_iff_toNat_le,
    UInt32.toNat_toUInt64, hmax, hzero, zero_add, hpos]
  constructor
  · rintro ⟨_, ⟨hlength, hsome⟩, _, hthreshold, _, hsigners, _, happrovals, total,
      ⟨hfound, htotal, hle⟩, hreached⟩
    have hsubset : ∀ a ∈ approvals, a ∈ signers :=
      fun a ha => (exists_findWeight hlength).1 (hfound a ha)
    rw [sum_weightOf hlength hsigners happrovals hsubset] at htotal
    rw [htotal] at hle hreached
    exact ⟨hlength, List.length_pos_iff.2 hsome, hsigners, happrovals, hsubset, hthreshold, hreached,
      hle⟩
  · intro h
    have hsum := sum_weightOf h.length_eq h.signers_nodup h.approvals_nodup h.approvals_subset
    have hle := h.representable
    have htotal : (UInt64.ofNat (approvedWeight signers weights approvals)).toNat
        = approvedWeight signers weights approvals := by
      rw [UInt64.toNat_ofNat', Nat.mod_eq_of_lt (by omega)]
    refine ⟨(), ⟨h.length_eq, List.length_pos_iff.1 h.length_pos⟩, (), h.threshold_pos, (),
      h.signers_nodup, (), h.approvals_nodup, .ofNat (approvedWeight signers weights approvals),
      ⟨?_, ?_, ?_⟩, ?_⟩
    · intro a ha
      exact (exists_findWeight h.length_eq).2 (h.approvals_subset a ha)
    · rw [htotal, hsum]
    · rw [htotal]
      exact hle
    · rw [htotal]
      exact h.reached

/-! ## Reordering -/

/-- What was reached is reached by the approvals in any order. -/
theorem QuorumReached.perm {approvals' : List Address} (hperm : approvals.Perm approvals')
    (h : QuorumReached signers weights approvals threshold) :
    QuorumReached signers weights approvals' threshold := by
  have hweight : approvedWeight signers weights approvals'
      = approvedWeight signers weights approvals := by
    refine support_congr ?_
    intro s _
    simp only [hperm.mem_iff]
  refine ⟨h.length_eq, h.length_pos, h.signers_nodup, hperm.nodup h.approvals_nodup, ?_,
    h.threshold_pos, ?_, ?_⟩
  · intro a ha
    exact h.approvals_subset a (hperm.mem_iff.2 ha)
  · rw [hweight]
    exact h.reached
  · rw [hweight]
    exact h.representable

/-- The loop over the approvals looks weights up and nothing else. -/
theorem tallyApprovals_congr
    (h : ∀ a, findWeight signers weights a = findWeight signers' weights' a) :
    tallyApprovals signers weights total approvals
      = tallyApprovals signers' weights' total approvals := by
  induction approvals generalizing total with
  | nil => rfl
  | cons a approvals ih =>
      rw [tallyApprovals, tallyApprovals, h a]
      exact bind_congr_ok fun _ _ => bind_congr_ok fun _ _ => bind_congr_ok fun _ _ => ih

/-- The outcome, its error included, is that of the signers in any order, each with its weight. -/
theorem verifyQuorum_perm (hsigners : signers.length = signers'.length)
    (hweights : weights.length = weights'.length)
    (hperm : (signers.zip weights).Perm (signers'.zip weights')) :
    verifyQuorum signers weights approvals threshold
      = verifyQuorum signers' weights' approvals threshold := by
  have hshape : (signers.length = weights.length ∧ signers ≠ []) ↔
      (signers'.length = weights'.length ∧ signers' ≠ []) := by
    rw [hsigners, hweights, ← List.length_pos_iff, ← List.length_pos_iff, hsigners]
  unfold verifyQuorum
  simp only [requireDistinct_eq, hshape]
  refine bind_congr_ok fun _ hlength => bind_congr_ok fun _ _ => ?_
  rw [require_eq_ok] at hlength
  have hlength' : signers.length = weights.length := (hshape.2 hlength).1
  -- the signers themselves are reordered with their weights
  have hkeys : (signers.zip weights).map Prod.fst = signers := List.map_fst_zip hlength'.le
  have hkeys' : (signers'.zip weights').map Prod.fst = signers' := List.map_fst_zip hlength.1.le
  have hreordered : signers.Perm signers' := by
    rw [← hkeys, ← hkeys']
    exact hperm.map _
  simp only [hreordered.nodup_iff]
  refine bind_congr_ok fun _ hnodup => bind_congr_ok fun _ _ => ?_
  rw [require_eq_ok, ← hreordered.nodup_iff] at hnodup
  have hfind : ∀ a, findWeight signers weights a = findWeight signers' weights' a := by
    intro a
    unfold findWeight
    rw [find?_key_perm (by rw [hkeys]; exact hnodup) hperm]
  rw [tallyApprovals_congr hfind]

end Loops

/-- **Quorum verification is exact**, and does not depend on any order. -/
theorem quorum_verification :
    (∀ signers weights approvals threshold,
      verifyQuorum signers weights approvals threshold = .ok ()
        ↔ QuorumReached signers weights approvals threshold) ∧
    (∀ signers weights approvals approvals' threshold, approvals.Perm approvals' →
      (verifyQuorum signers weights approvals threshold = .ok ()
        ↔ verifyQuorum signers weights approvals' threshold = .ok ())) ∧
    (∀ signers signers' weights weights' approvals threshold,
      signers.length = signers'.length → weights.length = weights'.length →
      (signers.zip weights).Perm (signers'.zip weights') →
      verifyQuorum signers weights approvals threshold
        = verifyQuorum signers' weights' approvals threshold) := by
  refine ⟨fun _ _ _ _ => verifyQuorum_eq_ok, ?_, fun _ _ _ _ _ _ => verifyQuorum_perm⟩
  intro signers weights approvals approvals' threshold hperm
  rw [verifyQuorum_eq_ok, verifyQuorum_eq_ok]
  exact ⟨QuorumReached.perm hperm, QuorumReached.perm hperm.symm⟩

/-- Two of three signers reach their threshold, whoever approves and is listed first. -/
theorem quorum_verification_two :
    let signers : List Address := [.account 0, .account 1, .account 2]
    QuorumReached signers [1, 2, 3] [.account 0, .account 2] 4 ∧
      verifyQuorum signers [1, 2, 3] [.account 2, .account 0] 4 = .ok () ∧
      verifyQuorum [.account 2, .account 0, .account 1] [3, 1, 2] [.account 0, .account 2] 4
        = .ok () := by
  obtain ⟨hexact, happrovals, hsigners⟩ := quorum_verification
  have hok : verifyQuorum [.account 0, .account 1, .account 2] [1, 2, 3]
      [.account 0, .account 2] 4 = .ok () := by
    decide
  refine ⟨(hexact _ _ _ _).1 hok, ?_, ?_⟩
  · exact (happrovals _ _ _ _ _ (List.Perm.swap ..)).1 hok
  · exact (hsigners _ [.account 2, .account 0, .account 1] _ [3, 1, 2] _ _ rfl rfl
      (by decide)).symm.trans hok

end Astroid
