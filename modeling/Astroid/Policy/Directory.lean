import Astroid.Lib.Directory
import Astroid.Policy.Effects

/-!
# The recipient directories

Every policy has a directory of recipients: a record for each of them, which the gate looks
up, and an index, which is read back and goes with its last entry.  Only the two operations
on the directory touch either, under one policy at a time (`exec_directories`).
-/

namespace Astroid
namespace PolicyContract

open Outcome

variable {self : Address} {env : Env self} {s s' : State} {id : String} {caller : Address}
  {r r' : Records} {call : Call}

/-- The index has the listed recipients in it, each of them once, and is not kept empty. -/
structure Records.Indexed (r : Records) : Prop where
  mirrors : Directory.Mirrors (r.recipientWhitelistIndex.getD []) r.recipientWhitelist
  index_ne : r.recipientWhitelistIndex ≠ some []

/-- One operation on the directory at most. -/
structure Records.EditsDirectory (r r' : Records) : Prop where
  edit : Directory.Edit (fun _ => True) (r.recipientWhitelistIndex.getD []) r.recipientWhitelist
    (r'.recipientWhitelistIndex.getD []) r'.recipientWhitelist
  index_ne : r.recipientWhitelistIndex ≠ some [] → r'.recipientWhitelistIndex ≠ some []

namespace Records

theorem Indexed.edit (h : r.Indexed) (hedit : r.EditsDirectory r') : r'.Indexed :=
  ⟨h.mirrors.edit hedit.edit, hedit.index_ne h.index_ne⟩

theorem editsDirectory_kept (hlist : r'.recipientWhitelistIndex = r.recipientWhitelistIndex)
    (hflag : r'.recipientWhitelist = r.recipientWhitelist) : r.EditsDirectory r' := by
  refine ⟨.kept ?_ hflag, ?_⟩
  · rw [hlist]
  · rw [hlist]
    exact id

end Records

/-! ## What a call does to the directories -/

/-- A call that rewrote what is stored under one policy. -/
theorem directories_amend {f : Records → Records}
    (h : (pure (s.amend id f) : Result State) = .ok s') (hf : ∀ r : Records, r.EditsDirectory (f r))
    (id' : String) : (s.records id').EditsDirectory (s'.records id') := by
  rw [pure_eq_ok] at h
  subst h
  by_cases hid : id' = id
  · subst hid
    rw [amend_records]
    exact hf _
  · rw [amend_records_ne hid]
    exact Records.editsDirectory_kept rfl rfl

/-- A call that left what is stored under the policies alone. -/
theorem directories_same {s₁ : State} (h : (pure s₁ : Result State) = .ok s')
    (hsame : s₁.records = s.records) (id' : String) :
    (s.records id').EditsDirectory (s'.records id') := by
  rw [pure_eq_ok] at h
  subst h
  rw [hsame]
  exact Records.editsDirectory_kept rfl rfl

theorem addRecipientToWhitelist_directories {recipient : Address}
    (h : addRecipientToWhitelist env s caller id recipient = .ok s') (id' : String) :
    (s.records id').EditsDirectory (s'.records id') := by
  obtain ⟨_, _, _, _, h⟩ := owner_ok h
  simp only [bind_eq_ok, requireNew, require_eq_ok, pure_eq_ok] at h
  obtain ⟨_, hnew, rfl⟩ := h
  by_cases hid : id' = id
  · subst hid
    rw [amend_records]
    refine ⟨.added recipient hnew trivial rfl rfl, ?_⟩
    simp
  · rw [amend_records_ne hid]
    exact Records.editsDirectory_kept rfl rfl

theorem removeRecipientFromWhitelist_directories {recipient : Address}
    (h : removeRecipientFromWhitelist env s caller id recipient = .ok s') (id' : String) :
    (s.records id').EditsDirectory (s'.records id') := by
  obtain ⟨_, _, _, _, h⟩ := owner_ok h
  simp only [bind_eq_ok, requireListed, require_eq_ok, pure_eq_ok] at h
  obtain ⟨_, hlisted, rfl⟩ := h
  by_cases hid : id' = id
  · subst hid
    rw [amend_records]
    refine ⟨.removed recipient hlisted ?_ rfl, ?_⟩
    · dsimp only
      split
      · rename_i hempty
        rw [hempty]
        rfl
      · rfl
    · intro _
      dsimp only
      split
      · exact (Option.some_ne_none []).symm
      · rename_i hsome
        rw [ne_eq, Option.some.injEq]
        exact hsome
  · rw [amend_records_ne hid]
    exact Records.editsDirectory_kept rfl rfl

/-- What charged or set an allowance left the directories alone. -/
theorem Effect.directories (h : Effect env s call s') (hplain : ¬ call.Plain) (id' : String) :
    (s.records id').EditsDirectory (s'.records id') := by
  cases h with
  | read hcall => exact absurd hcall hplain
  | started hcall => exact absurd hcall hplain
  | registered _ _ hcall => exact absurd hcall hplain
  | listed _ _ hcall => exact absurd hcall hplain
  | governed _ _ _ hcall => exact absurd hcall hplain
  | limited _ id asset l _ _ _ _ hs' =>
      exact directories_amend (pure_eq_ok.2 hs'.symm) (fun _ => Records.editsDirectory_kept rfl rfl) id'
  | removed _ id asset _ _ _ hs' =>
      exact directories_amend (pure_eq_ok.2 hs'.symm) (fun _ => Records.editsDirectory_kept rfl rfl) id'
  | spent _ id _ _ _ _ hspent =>
      obtain ⟨allowance, hs', _⟩ := hspent
      exact directories_amend (pure_eq_ok.2 hs'.symm) (fun _ => Records.editsDirectory_kept rfl rfl) id'

/-- **Only the operations on a directory touch it.** -/
theorem exec_directories (hkeyed : Keyed s) (h : exec env s call = .ok s') (id' : String) :
    (s.records id').EditsDirectory (s'.records id') := by
  have hread {α : Type} {x : Result α} (hx : (fun _ => s) <$> x = .ok s') :
      (s.records id').EditsDirectory (s'.records id') := by
    obtain ⟨_, _, rfl⟩ := map_ok hx
    exact Records.editsDirectory_kept rfl rfl
  cases call with
  | initializeContract => exact of_bind_ok h fun _ h => directories_same h rfl id'
  | registerPolicy =>
      refine of_bind_ok h fun _ h => of_bind_ok h fun _ h => of_bind_ok h fun _ h => ?_
      exact directories_amend h (fun _ => Records.editsDirectory_kept rfl rfl) id'
  | rotatePolicy | setEnabled | setRuleCombinationStrategy | setAssetWhitelistEnabled
  | setRecipientWhitelistEnabled | setWhitelistEnabled =>
      obtain ⟨_, _, _, _, h⟩ := owner_ok h
      exact directories_amend h (fun _ => Records.editsDirectory_kept rfl rfl) id'
  | addAssetToWhitelist | removeAssetFromWhitelist | addAssetBlacklist | removeAssetBlacklist
  | setCompositeRule | clearCompositeRule | clearPolicyRules =>
      obtain ⟨_, _, _, _, h⟩ := owner_ok h
      refine of_bind_ok h fun _ h => ?_
      exact directories_amend h (fun _ => Records.editsDirectory_kept rfl rfl) id'
  | setTransferWindow | removePolicyRule =>
      obtain ⟨_, _, _, _, h⟩ := owner_ok h
      refine of_bind_ok h fun _ h => of_bind_ok h fun _ h => ?_
      exact directories_amend h (fun _ => Records.editsDirectory_kept rfl rfl) id'
  | addPolicyRule =>
      obtain ⟨_, h⟩ := snd_map_ok h
      obtain ⟨_, _, _, _, h⟩ := owner_ok h
      simp only [bind_eq_ok, pure_eq_ok, Prod.mk.injEq] at h
      obtain ⟨_, _, _, _, _, h⟩ := h
      exact directories_amend (pure_eq_ok.2 h) (fun _ => Records.editsDirectory_kept rfl rfl) id'
  | addBlacklist | removeBlacklist | addMerchantBlacklist | removeMerchantBlacklist
  | removeCategoryBlacklist | addToBlocklist | removeFromBlocklist =>
      obtain ⟨_, _, _, _, h⟩ := owner_ok h
      exact of_bind_ok h fun _ h => directories_same h rfl id'
  | addCategoryBlacklist =>
      obtain ⟨_, _, _, _, h⟩ := owner_ok h
      exact of_bind_ok h fun _ h => of_bind_ok h fun _ h => directories_same h rfl id'
  | addRecipientToWhitelist | addWhitelist => exact addRecipientToWhitelist_directories h id'
  | removeRecipientFromWhitelist | removeWhitelist =>
      exact removeRecipientFromWhitelist_directories h id'
  | setAllowance | setRecurringAllowance | removeAllowance | updateAllowance
  | recordMultiAssetSpend => exact (exec_effect hkeyed h).directories not_false id'
  | getAllowance =>
      cases h
      exact Records.editsDirectory_kept rfl rfl
  | checkAllowance | checkTransfer | evaluatePolicy | checkMultiAssetTransfer | checkCategory =>
      exact hread h

theorem Fresh.indexed (h : Fresh s) (id : String) : (s.records id).Indexed := by
  rw [h.records id]
  exact ⟨Directory.mirrors_nil fun _ => rfl, nofun⟩

/-- **The index of every policy has its listed recipients in it** in every state the contract
can be in. -/
theorem indexed_reachable (h : Reachable self s) (id : String) : (s.records id).Indexed := by
  obtain ⟨tr, t, h⟩ := h
  refine h.history (P := fun _ s _ => (s.records id).Indexed) ?_ ?_
  · intro s t hfresh
    exact hfresh.indexed id
  · intro tr s t i s' hpath hindexed _ _ hstep
    cases i with
    | invoke env call =>
        have hkeyed : Keyed s := keyed_reachable hpath.reachable
        exact hindexed.edit (exec_directories hkeyed hstep id)
    | outside _ _ =>
        obtain rfl := hstep
        exact hindexed

end PolicyContract
end Astroid
