import Astroid.Shared.AddressMap
import Astroid.Shared.Math
import Astroid.Shared.Token

/-!
# Balance maps

`shared/src/balance.rs`: maps from assets to amounts, where a missing entry reads as zero,
and the loops that fill, merge and compare them.  A loop over a map runs through its entries
in the order of their keys.
-/

namespace Astroid

/-- One asset balance. -/
structure BalanceEntry where
  asset : Address
  amount : ℤ
  deriving DecidableEq, Repr

/-- `MAX_BALANCE_ENTRIES`. -/
def maxBalanceEntries : ℕ := 32

/-- `Map<Address, i128>`. -/
abbrev BalanceMap := AddressMap ℤ

/-- `checked_balance_sub`. -/
def checkedBalanceSub (balance amount : ℤ) : Result ℤ := do
  validateSufficientBalance balance amount
  checkedSub balance amount

namespace BalanceMap

/-- `new_map`. -/
def newMap : BalanceMap := ∅

/-- `get_balance`. -/
def getBalance (map : BalanceMap) (asset : Address) : ℤ := map[asset]?.getD 0

/-- The map is full and has no entry for the asset. -/
def Refuses (map : BalanceMap) (asset : Address) : Prop :=
  maxBalanceEntries ≤ map.size ∧ asset ∉ map

instance (map : BalanceMap) (asset : Address) : Decidable (map.Refuses asset) :=
  inferInstanceAs (Decidable (_ ∧ _))

/-! ## One asset -/

/-- `checked_add_balance`, with the map it leaves. -/
def checkedAddBalance (map : BalanceMap) (asset : Address) (amount : ℤ) :
    Result (ℤ × BalanceMap) := do
  requireNonNegativeAmount amount
  if amount = 0 then
    pure (map.getBalance asset, map)
  else do
    require (¬ map.Refuses asset) .invalidInput
    let nxt ← checkedBalanceAdd (map.getBalance asset) amount
    pure (nxt, map.insert asset nxt)

/-- `checked_sub_balance`, with the map it leaves. -/
def checkedSubBalance (map : BalanceMap) (asset : Address) (amount : ℤ) :
    Result (ℤ × BalanceMap) := do
  requireNonNegativeAmount amount
  if amount = 0 then
    pure (map.getBalance asset, map)
  else do
    let nxt ← checkedBalanceSub (map.getBalance asset) amount
    pure (nxt, if nxt = 0 then map.erase asset else map.insert asset nxt)

/-- `set_balance`, with the map it leaves. -/
def setBalance (map : BalanceMap) (asset : Address) (amount : ℤ) : Result (ℤ × BalanceMap) := do
  requireNonNegativeAmount amount
  if amount = 0 then
    pure (amount, map.erase asset)
  else do
    require (¬ map.Refuses asset) .invalidInput
    pure (amount, map.insert asset amount)

/-! ## Lists of entries -/

/-- The part the accumulating loops share: add to the total of an asset. -/
def accumulate (totals : BalanceMap) (asset : Address) (amount : ℤ) : Result BalanceMap := do
  let nxt ← checkedBalanceAdd (totals.getBalance asset) amount
  require (¬ totals.Refuses asset) .invalidInput
  pure (totals.insert asset nxt)

/-- The loop of `aggregate_asset_amounts`. -/
def aggregateAmountsFrom (totals : BalanceMap) : List AssetAmount → Result BalanceMap
  | [] => pure totals
  | entry :: amounts => do
      requirePositiveAmount entry.amount
      let totals ← totals.accumulate entry.asset entry.amount
      aggregateAmountsFrom totals amounts

/-- `aggregate_asset_amounts`. -/
def aggregateAssetAmounts (amounts : List AssetAmount) : Result BalanceMap := do
  require (amounts ≠ []) .invalidInput
  aggregateAmountsFrom newMap amounts

/-- The loop of `aggregate_entries`. -/
def aggregateEntriesFrom (totals : BalanceMap) : List BalanceEntry → Result BalanceMap
  | [] => pure totals
  | e :: entries => do
      requireNonNegativeAmount e.amount
      if e.amount = 0 then
        aggregateEntriesFrom totals entries
      else do
        let totals ← totals.accumulate e.asset e.amount
        aggregateEntriesFrom totals entries

/-- `aggregate_entries`. -/
def aggregateEntries (entries : List BalanceEntry) : Result BalanceMap :=
  aggregateEntriesFrom newMap entries

/-- The loop of `from_entries_strict`. -/
def insertStrict (map : BalanceMap) : List BalanceEntry → Result BalanceMap
  | [] => pure map
  | e :: entries => do
      requireNonNegativeAmount e.amount
      require (e.asset ∉ map) .invalidInput
      if e.amount = 0 then
        insertStrict map entries
      else do
        require (map.size < maxBalanceEntries) .invalidInput
        insertStrict (map.insert e.asset e.amount) entries

/-- `from_entries_strict`. -/
def fromEntriesStrict (entries : List BalanceEntry) : Result BalanceMap :=
  insertStrict newMap entries

/-- `to_entries`. -/
def toEntries (map : BalanceMap) : List BalanceEntry := map.toList.map fun e => ⟨e.1, e.2⟩

/-- `to_asset_amounts`. -/
def toAssetAmounts (map : BalanceMap) : List AssetAmount := map.toList.map fun e => ⟨e.1, e.2⟩

/-! ## Two maps -/

/-- The loop of `merge_maps`. -/
def mergeEntries (dst : BalanceMap) : List (Address × ℤ) → Result BalanceMap
  | [] => pure dst
  | (asset, amount) :: src => do
      let dst ← dst.accumulate asset amount
      mergeEntries dst src

/-- `merge_maps`, and the map it leaves in `dst`. -/
def mergeMaps (dst src : BalanceMap) : Result BalanceMap := mergeEntries dst src.toList

/-- The loop of `subtract_maps`. -/
def subtractEntries (dst : BalanceMap) : List (Address × ℤ) → Result BalanceMap
  | [] => pure dst
  | (asset, amount) :: src => do
      let nxt ← checkedBalanceSub (dst.getBalance asset) amount
      subtractEntries (if nxt = 0 then dst.erase asset else dst.insert asset nxt) src

/-- `subtract_maps`, and the map it leaves in `dst`. -/
def subtractMaps (dst src : BalanceMap) : Result BalanceMap := subtractEntries dst src.toList

/-- The loop of `ensure_sufficient`. -/
def ensureEntries (available : BalanceMap) : List (Address × ℤ) → Result Unit
  | [] => pure ()
  | (asset, amount) :: required => do
      require (amount ≤ available.getBalance asset) .insufficientFunds
      ensureEntries available required

/-- `ensure_sufficient`. -/
def ensureSufficient (available required : BalanceMap) : Result Unit :=
  ensureEntries available required.toList

/-- `ledger_delta`. -/
def ledgerDelta (internal external : ℤ) : Result ℤ := do
  require (0 ≤ internal ∧ 0 ≤ external) .invalidAmount
  checkedSub external internal

/-- The first loop of `reconcile_maps`: every asset of the first map. -/
def reconcileFirst (b : BalanceMap) : List (Address × ℤ) → Result Unit
  | [] => pure ()
  | (asset, amount) :: a => do
      require (amount = b.getBalance asset) .invalidState
      reconcileFirst b a

/-- The second loop of `reconcile_maps`: the assets of the second map alone. -/
def reconcileSecond (a : BalanceMap) : List (Address × ℤ) → Result Unit
  | [] => pure ()
  | (asset, amount) :: b => do
      require (¬ (asset ∉ a ∧ amount ≠ 0)) .invalidState
      reconcileSecond a b

/-- `reconcile_maps`. -/
def reconcileMaps (a b : BalanceMap) : Result Unit := do
  reconcileFirst b a.toList
  reconcileSecond a b.toList

/-- Note a delta that is not zero. -/
def note (out : BalanceMap) (asset : Address) (d : ℤ) : BalanceMap :=
  if d ≠ 0 then out.insert asset d else out

/-- The first loop of `deltas`: every asset of the external map. -/
def deltasExternal (internal : BalanceMap) (out : BalanceMap) : List (Address × ℤ) → Result BalanceMap
  | [] => pure out
  | (asset, ext) :: external => do
      let d ← ledgerDelta (internal.getBalance asset) ext
      deltasExternal internal (out.note asset d) external

/-- The second loop of `deltas`: the assets of the internal map alone. -/
def deltasInternal (external : BalanceMap) (out : BalanceMap) : List (Address × ℤ) → Result BalanceMap
  | [] => pure out
  | (asset, int) :: internal =>
      if asset ∈ external then
        deltasInternal external out internal
      else do
        let d ← ledgerDelta int 0
        deltasInternal external (out.note asset d) internal

/-- `deltas`, `external - internal`. -/
def deltas (internal external : BalanceMap) : Result BalanceMap := do
  let out ← deltasExternal internal newMap external.toList
  deltasInternal external out internal.toList

end BalanceMap

end Astroid
