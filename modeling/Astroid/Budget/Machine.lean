import Astroid.Budget.Contract
import Astroid.Shared.Deployment

/-!
# Runs of the budget contract

The contract calls nobody, so between two invocations only time passes.
-/

namespace Astroid
namespace BudgetContract

/-- An invocation of the contract. -/
inductive Call where
  | initializeContract (admin : Address)
  | allocate (owner : Address) (id : String) (limit : I128) (period : Period)
      (rolloverEnabled : Bool) (expiresAt : UInt64)
  | allocateWithDeficit (owner : Address) (id : String) (limit : I128) (period : Period)
      (rolloverEnabled allowDeficit : Bool) (expiresAt : UInt64)
  | allocateScheduled (owner : Address) (id : String) (limit : I128) (period : Period)
      (rolloverEnabled : Bool) (startAt expiresAt : UInt64)
  | allocateWithRollover (owner : Address) (id : String) (limit : I128) (period : Period)
      (rolloverEnabled : Bool) (rolloverBps maxRolloverCap : I128) (expiresAt : UInt64)
  | setRecurrence (caller : Address) (id : String) (period : Period) (periodSeconds : UInt64)
      (rolloverEnabled : Bool) (rolloverCap rolloverMaxBps : I128)
  | setRolloverConfig (caller : Address) (id : String) (rolloverEnabled : Bool)
      (rolloverBps maxRolloverCap : I128)
  | reset (caller : Address) (id : String)
  | rollover (caller : Address) (id : String)
  | setLimit (caller : Address) (id : String) (newLimit : I128)
  | freeze (caller : Address) (id : String)
  | unfreeze (caller : Address) (id : String)
  | archive (caller : Address) (id : String)
  | transferAllocation (caller : Address) (srcId dstId : String) (amount : I128)
  | setBudgetLimit (caller : Address) (id : String) (token : Address) (limit : I128)
      (windowSeconds : UInt64)
  | setBudgetLimitWithRollover (caller : Address) (id : String) (token : Address) (limit : I128)
      (windowSeconds : UInt64) (rolloverEnabled : Bool) (rolloverBps maxRolloverCap : I128)
  | setAssetRolloverConfig (caller : Address) (id : String) (token : Address)
      (rolloverEnabled : Bool) (rolloverBps maxRolloverCap : I128)
  | checkAndRecordSpend (caller : Address) (id : String) (token : Address) (amount : I128)
  | checkAndRecordBatchSpend (caller : Address) (id : String) (spends : List AssetSpend)
  | getAssetBudget (id : String) (token : Address)
  | assetRemaining (id : String) (token : Address)
  | consume (caller : Address) (id : String) (amount : I128)
  | release (caller : Address) (id : String) (amount : I128)
  | remaining (id : String)

variable {self : Address}

/-- Run an entrypoint and keep the state it leaves. -/
def exec (env : Env self) (s : State) : Call → Result State
  | .initializeContract admin => initializeContract s admin
  | .allocate owner id limit period rolloverEnabled expiresAt =>
      allocate env s owner id limit period rolloverEnabled expiresAt.toNat
  | .allocateWithDeficit owner id limit period rolloverEnabled allowDeficit expiresAt =>
      allocateWithDeficit env s owner id limit period rolloverEnabled allowDeficit expiresAt.toNat
  | .allocateScheduled owner id limit period rolloverEnabled startAt expiresAt =>
      allocateScheduled env s owner id limit period rolloverEnabled startAt.toNat expiresAt.toNat
  | .allocateWithRollover owner id limit period rolloverEnabled rolloverBps maxRolloverCap
      expiresAt =>
      allocateWithRollover env s owner id limit period rolloverEnabled rolloverBps maxRolloverCap
        expiresAt.toNat
  | .setRecurrence caller id period periodSeconds rolloverEnabled rolloverCap rolloverMaxBps =>
      setRecurrence env s caller id period periodSeconds.toNat rolloverEnabled rolloverCap
        rolloverMaxBps
  | .setRolloverConfig caller id rolloverEnabled rolloverBps maxRolloverCap =>
      setRolloverConfig env s caller id rolloverEnabled rolloverBps maxRolloverCap
  | .reset caller id => reset env s caller id
  | .rollover caller id => rollover env s caller id
  | .setLimit caller id newLimit => setLimit env s caller id newLimit
  | .freeze caller id => freeze env s caller id
  | .unfreeze caller id => unfreeze env s caller id
  | .archive caller id => archive env s caller id
  | .transferAllocation caller srcId dstId amount =>
      transferAllocation env s caller srcId dstId amount
  | .setBudgetLimit caller id token limit windowSeconds =>
      setBudgetLimit env s caller id token limit windowSeconds.toNat
  | .setBudgetLimitWithRollover caller id token limit windowSeconds rolloverEnabled rolloverBps
      maxRolloverCap =>
      setBudgetLimitWithRollover env s caller id token limit windowSeconds.toNat rolloverEnabled
        rolloverBps maxRolloverCap
  | .setAssetRolloverConfig caller id token rolloverEnabled rolloverBps maxRolloverCap =>
      setAssetRolloverConfig env s caller id token rolloverEnabled rolloverBps maxRolloverCap
  | .checkAndRecordSpend caller id token amount =>
      ofSpend (checkAndRecordSpend env s caller id token amount)
  | .checkAndRecordBatchSpend caller id spends =>
      ofSpend (checkAndRecordBatchSpend env s caller id spends)
  | .getAssetBudget id token => Prod.snd <$> getAssetBudget env s id token
  | .assetRemaining id token => Prod.snd <$> assetRemaining env s id token
  | .consume caller id amount => Prod.snd <$> ofSpend (consume env s caller id amount)
  | .release caller id amount => Prod.snd <$> release env s caller id amount
  | .remaining id => Prod.snd <$> remaining env s id

/-- A contract that was just deployed. -/
structure Fresh (s : State) : Prop where
  admin : s.admin = none
  budget : ∀ id, s.budget id = none
  assetBudget : ∀ id token, s.assetBudget id token = none

/-- The budget contract as deployed at `self`. -/
def deployment (self : Address) : Deployment self Unit State Call where
  fresh := Fresh
  exec := exec
  outside _ s s' := s' = s

abbrev Inputs (self : Address) := Input self Unit Call

/-- The budget contract as a machine. -/
abbrev machine (self : Address) : Machine State (Inputs self) := (deployment self).machine

/-! ## A reference deployment -/

/-- A fresh contract. -/
def deployed : State where
  admin := none
  budget _ := none
  assetBudget _ _ := none

theorem deployed_fresh : Fresh deployed := ⟨rfl, fun _ => rfl, fun _ _ => rfl⟩

/-- The state a list of calls to `contract 0` leaves. -/
abbrev play : State → Script Call → State := (deployment (.contract 0)).play

/-- Account 1 allocates 100 a day, allows itself a deficit and spends 150. -/
def overspending : Script Call :=
  [(signedBy 0 [1],
      .allocateWithDeficit (.account 1) "eng" ⟨100, isI128_hundred⟩ .daily false true 0),
    (signedBy 1 [1], .consume (.account 1) "eng" ⟨150, by decide⟩)]

end BudgetContract
end Astroid
