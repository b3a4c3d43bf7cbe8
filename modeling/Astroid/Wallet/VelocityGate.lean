import Astroid.Wallet.Frame
import Astroid.Wallet.Buckets
import Astroid.Lib.WriteBack

/-!
# The velocity gate

Every spend and every action of a batch charges the record of its asset, the
actions of a batch through a cache that holds each asset once and is written back
once.  What the cache leaves behind is what charging the stored records one action
after the other would leave.
-/

namespace Astroid
namespace WalletContract

open Outcome Window

variable {World : Type} {H : WalletHost World} {env : Env H.self} {s s' : State World}
  {id : ℕ} {asset : Address} {now : UInt64}

/-! ## The gate, for one asset -/

/-- The charge `VelocityGate::enforce` makes against a live record. -/
def chargeVelocity (limit : VelocityLimit) (usage : VelocityUsage) (amount : ℤ) :
    Result VelocityUsage := do
  let total ← velocityTotal usage
  require (IsI128 (total + amount) ∧ total + amount ≤ limit.maxAmount) .velocityLimitExceeded
  let current ← checkedAdd (usage.spent.getD 0 0) amount
  pure { usage with spent := usage.spent.set 0 current }

/-- The live record of an asset after some charges: the stored one aged to `now`, and
charged with them one after the other.  Without a ceiling there is none. -/
def Live (now : UInt64) (limit : Option VelocityLimit) (stored : Option VelocityUsage)
    (xs : List ℤ) (live : Option VelocityUsage) : Prop :=
  match limit with
  | none => live = none
  | some limit => ∃ aged usage, rolledVelocityUsage stored limit now = .ok aged ∧
      xs.foldlM (chargeVelocity limit) aged = .ok usage ∧ live = some usage

/-- One more charge. -/
theorem Live.charge {limit : VelocityLimit} {stored : Option VelocityUsage} {xs : List ℤ}
    {usage usage' : VelocityUsage} {x : ℤ} (h : Live now (some limit) stored xs (some usage))
    (hcharge : chargeVelocity limit usage x = .ok usage') :
    Live now (some limit) stored (xs ++ [x]) (some usage') := by
  obtain ⟨aged, usage₁, haged, hxs, husage⟩ := h
  rw [Option.some.injEq] at husage
  subst husage
  refine ⟨aged, usage', haged, ?_, rfl⟩
  rw [List.foldlM_append, hxs]
  simp [hcharge]

/-- What a call did to the stored record of an asset it charged with `xs`. -/
inductive ChargedTo (now : UInt64) (limit : Option VelocityLimit)
    (stored stored' : Option VelocityUsage) (xs : List ℤ) : Prop
  | idle : xs = [] → stored' = stored → ChargedTo now limit stored stored' xs
  | unlimited : limit = none → stored' = stored → ChargedTo now limit stored stored' xs
  | metered (ceiling : VelocityLimit) (usage : VelocityUsage) : xs ≠ [] → limit = some ceiling →
      Live now limit stored xs (some usage) → stored' = some usage →
      ChargedTo now limit stored stored' xs

/-! ## The cache -/

/-- The cache after the charges `xs`: each asset once, with its ceiling and live record. -/
structure Cached (now : UInt64) (limits : Address → Option VelocityLimit)
    (stored : Address → Option VelocityUsage) (xs : Address → List ℤ)
    (entries : VelocityEntries) : Prop where
  nodup : (entries.map (·.1)).Nodup
  live : ∀ a limit live, (a, limit, live) ∈ entries →
    limit = limits a ∧ Live now limit (stored a) (xs a) live

/-- The cache holds the assets that were charged. -/
def HoldsCharged (xs : Address → List ℤ) (entries : VelocityEntries) : Prop :=
  ∀ a, a ∈ entries.map (·.1) ↔ xs a ≠ []

variable {limits : Address → Option VelocityLimit} {stored : Address → Option VelocityUsage}
  {xs : Address → List ℤ} {entries entries' : VelocityEntries}

theorem Cached.empty : Cached now limits stored (fun _ => []) [] :=
  ⟨List.nodup_nil, fun _ _ _ h => by cases h⟩

/-- An entry for an asset that was not charged yet. -/
theorem Cached.load {limit : Option VelocityLimit} {live : Option VelocityUsage}
    (h : Cached now limits stored xs entries) (habsent : asset ∉ entries.map (·.1))
    (hfresh : xs asset = []) (hlimit : limit = limits asset)
    (hlive : Live now limit (stored asset) [] live) :
    Cached now limits stored xs (entries ++ [(asset, limit, live)]) := by
  constructor
  · rw [List.map_append, List.map_singleton]
    exact h.nodup.append (List.nodup_singleton _) (by simpa using habsent)
  · intro a limit' live' hmem
    rcases List.mem_append.1 hmem with hmem | hmem
    · exact h.live a limit' live' hmem
    · rw [List.mem_singleton, Prod.mk.injEq, Prod.mk.injEq] at hmem
      obtain ⟨rfl, rfl, rfl⟩ := hmem
      rw [hfresh]
      exact ⟨hlimit, hlive⟩

/-- The assets held after the entry was added. -/
theorem HoldsCharged.load {limit : Option VelocityLimit} {live : Option VelocityUsage}
    (h : HoldsCharged xs entries) (a : Address) :
    a ∈ (entries ++ [(asset, limit, live)]).map (·.1) ↔ a = asset ∨ xs a ≠ [] := by
  rw [List.map_append, List.mem_append, h a, List.map_singleton, List.mem_singleton]
  exact Or.comm

/-- The gate finds the entry of its asset, or loads it. -/
theorem velocityPosition_cached {index : ℕ}
    (hcached : Cached now (s.velocityLimit id) (s.velocityUsage id) xs entries)
    (hnow : now = env.timestamp)
    (hcharged : HoldsCharged xs entries)
    (h : velocityPosition H env s id asset entries = .ok (index, entries')) :
    Cached now (s.velocityLimit id) (s.velocityUsage id) xs entries' ∧
      (∀ a, a ∈ entries'.map (·.1) ↔ a = asset ∨ xs a ≠ []) ∧
      ∃ limit live, entries'[index]? = some (asset, limit, live) := by
  subst hnow
  unfold velocityPosition at h
  split at h
  · -- the asset was touched before
    rename_i found hfound
    simp only [Except.ok.injEq, Prod.mk.injEq] at h
    obtain ⟨rfl, rfl⟩ := h
    obtain ⟨hlt, hkey, _⟩ := List.findIdx?_eq_some_iff_getElem.1 hfound
    rw [decide_eq_true_iff] at hkey
    refine ⟨hcached, ?_, entries[found].2.1, entries[found].2.2, ?_⟩
    · intro a
      rw [hcharged a]
      constructor
      · exact .inr
      · rintro (rfl | ha)
        · rw [← hcharged a, ← hkey]
          exact List.mem_map_of_mem (List.getElem_mem hlt)
        · exact ha
    · rw [List.getElem?_eq_getElem hlt, ← hkey]
  · -- the first touch loads the asset
    rename_i hfound
    have habsent : asset ∉ entries.map (·.1) := by
      intro hmem
      obtain ⟨e, he, rfl⟩ := List.mem_map.1 hmem
      have hno := List.findIdx?_eq_none_iff.1 hfound e he
      simp at hno
    have hfresh : xs asset = [] := by
      by_contra hne
      exact habsent ((hcharged asset).2 hne)
    split at h
    · rename_i hlimit
      simp only [Except.ok.injEq, Prod.mk.injEq] at h
      obtain ⟨rfl, rfl⟩ := h
      exact ⟨hcached.load habsent hfresh hlimit.symm rfl, hcharged.load, none, none, by simp⟩
    · rename_i limit hlimit
      simp only [bind_eq_ok, pure_eq_ok, Prod.mk.injEq] at h
      obtain ⟨aged, haged, rfl, rfl⟩ := h
      exact ⟨hcached.load habsent hfresh hlimit.symm ⟨aged, aged, haged, rfl, rfl⟩, hcharged.load,
        some limit, some aged, by simp⟩

/-- The charges with one more for `asset`. -/
def chargeOne (xs : Address → List ℤ) (asset : Address) (x : ℤ) : Address → List ℤ :=
  Function.update xs asset (xs asset ++ [x])

theorem chargeOne_ne_nil {x : ℤ} {a : Address} :
    chargeOne xs asset x a ≠ [] ↔ a = asset ∨ xs a ≠ [] := by
  by_cases ha : a = asset
  · subst ha
    simp [chargeOne]
  · simp [chargeOne, ha]

/-- A charge to the entry of an asset. -/
theorem Cached.set {index : ℕ} {ceiling : VelocityLimit} {usage usage' : VelocityUsage} {x : ℤ}
    (h : Cached now limits stored xs entries)
    (hentry : entries[index]? = some (asset, some ceiling, some usage))
    (hcharge : chargeVelocity ceiling usage x = .ok usage') :
    Cached now limits stored (chargeOne xs asset x)
      (entries.set index (asset, some ceiling, some usage')) := by
  have hkeys : (entries.set index (asset, some ceiling, some usage')).map (·.1)
      = entries.map (·.1) := WriteBack.Device.keys_set hentry
  obtain ⟨hlimit, hlive⟩ := h.live _ _ _ (List.mem_of_getElem? hentry)
  have hlt : index < entries.length := (List.getElem?_eq_some_iff.1 hentry).1
  have hnodup : ((entries.set index (asset, some ceiling, some usage')).map (·.1)).Nodup := by
    rw [hkeys]
    exact h.nodup
  refine ⟨hnodup, ?_⟩
  intro a limit' live' hmem
  by_cases ha : a = asset
  · subst ha
    have hsame := List.inj_on_of_nodup_map hnodup hmem (List.mem_set hlt _) rfl
    rw [Prod.mk.injEq, Prod.mk.injEq] at hsame
    obtain ⟨_, rfl, rfl⟩ := hsame
    refine ⟨hlimit, ?_⟩
    rw [chargeOne, Function.update_self]
    exact hlive.charge hcharge
  · rcases List.mem_or_eq_of_mem_set hmem with hmem | heq
    · rw [chargeOne, Function.update_of_ne ha]
      exact h.live a limit' live' hmem
    · rw [Prod.mk.injEq] at heq
      exact absurd heq.1 ha

/-- The gate charges the entry of its asset. -/
theorem velocityEnforce_cached {x : ℤ}
    (hcached : Cached now (s.velocityLimit id) (s.velocityUsage id) xs entries)
    (hnow : now = env.timestamp) (hcharged : HoldsCharged xs entries)
    (h : velocityEnforce H env s id entries asset x = .ok entries') :
    Cached now (s.velocityLimit id) (s.velocityUsage id) (chargeOne xs asset x) entries' ∧
      HoldsCharged (chargeOne xs asset x) entries' := by
  simp only [velocityEnforce, bind_eq_ok] at h
  obtain ⟨⟨index, touched⟩, hposition, h⟩ := h
  obtain ⟨htouched, hkeys, limit, live, hentry⟩ :=
    velocityPosition_cached hcached hnow hcharged hposition
  have hmem : (asset, limit, live) ∈ touched := List.mem_of_getElem? hentry
  obtain ⟨hlimit, hlive⟩ := htouched.live _ _ _ hmem
  cases limit with
  | none =>
      -- no ceiling: the entry stays empty
      have hnone : live = none := hlive
      subst hnone
      simp only [hentry, Except.ok.injEq] at h
      subst h
      refine ⟨⟨htouched.nodup, ?_⟩, fun a => (hkeys a).trans chargeOne_ne_nil.symm⟩
      intro a limit' live' ha
      obtain ⟨hlimit', hlive'⟩ := htouched.live a limit' live' ha
      refine ⟨hlimit', ?_⟩
      by_cases hsame : a = asset
      · subst hsame
        rw [← hlimit] at hlimit'
        subst hlimit'
        exact hlive'
      · rw [chargeOne, Function.update_of_ne hsame]
        exact hlive'
  | some ceiling =>
      obtain ⟨aged, usage, haged, hxs, rfl⟩ := hlive
      simp only [hentry, bind_eq_ok, require_eq_ok, checkedAdd_eq_ok, pure_eq_ok] at h
      obtain ⟨total, htotal, _, hroom, current, ⟨hfits, rfl⟩, rfl⟩ := h
      have hcharge : chargeVelocity ceiling usage x
          = .ok { usage with spent := usage.spent.set 0 (usage.spent.getD 0 0 + x) } := by
        simp only [chargeVelocity, bind_eq_ok, require_eq_ok, checkedAdd_eq_ok, pure_eq_ok]
        exact ⟨total, htotal, (), hroom, _, ⟨hfits, rfl⟩, rfl⟩
      refine ⟨htouched.set hentry hcharge, ?_⟩
      intro a
      have hsame : (touched.set index (asset, some ceiling, some
          { usage with spent := usage.spent.set 0 (usage.spent.getD 0 0 + x) })).map (·.1)
            = touched.map (·.1) := WriteBack.Device.keys_set hentry
      rw [hsame, hkeys a]
      exact chargeOne_ne_nil.symm

/-! ## The write-back -/

theorem velocityFlush_other {w : ℕ} (hw : w ≠ id) (s : State World) (entries : VelocityEntries)
    (a : Address) : (velocityFlush s id entries).velocityUsage w a = s.velocityUsage w a := by
  induction entries generalizing s with
  | nil => rfl
  | cons entry rest ih =>
      obtain ⟨key, _ | limit, _ | usage⟩ := entry
      · exact ih s
      · exact ih s
      · exact ih s
      · refine (ih _).trans ?_
        simp [State.update₂, hw]

theorem velocityFlush_absent {a : Address} (s : State World) (ha : a ∉ entries.map (·.1)) :
    (velocityFlush s id entries).velocityUsage id a = s.velocityUsage id a := by
  induction entries generalizing s with
  | nil => rfl
  | cons entry rest ih =>
      rw [List.map_cons, List.mem_cons, not_or] at ha
      obtain ⟨key, _ | limit, _ | usage⟩ := entry
      · exact ih s ha.2
      · exact ih s ha.2
      · exact ih s ha.2
      · refine (ih _ ha.2).trans ?_
        simp [State.update₂, ha.1]

/-- What is written back for an asset of the cache. -/
theorem velocityFlush_mem {a : Address} {limit : Option VelocityLimit}
    {live : Option VelocityUsage} (s : State World) (hnodup : (entries.map (·.1)).Nodup)
    (hmem : (a, limit, live) ∈ entries) :
    (velocityFlush s id entries).velocityUsage id a
      = if limit.isSome ∧ live.isSome then live else s.velocityUsage id a := by
  induction entries generalizing s with
  | nil => cases hmem
  | cons entry rest ih =>
      rw [List.map_cons, List.nodup_cons] at hnodup
      rcases List.mem_cons.1 hmem with rfl | hlater
      · -- later entries are about other assets
        cases limit <;> cases live
        all_goals
          refine (velocityFlush_absent _ hnodup.1).trans ?_
          simp [State.update₂]
      · have hne : entry.1 ≠ a := by
          intro heq
          rw [heq] at hnodup
          exact hnodup.1 (List.mem_map_of_mem hlater)
        obtain ⟨key, _ | limit', _ | usage'⟩ := entry
        · exact ih s hnodup.2 hlater
        · exact ih s hnodup.2 hlater
        · exact ih s hnodup.2 hlater
        · refine (ih _ hnodup.2 hlater).trans ?_
          simp [State.update₂, Ne.symm hne]

/-- The write-back records exactly what was charged. -/
theorem velocityFlush_charged {limits : Address → Option VelocityLimit}
    (hcached : Cached now limits (s.velocityUsage id) xs entries)
    (hcharged : HoldsCharged xs entries) (a : Address) :
    ChargedTo now (limits a) (s.velocityUsage id a)
      ((velocityFlush s id entries).velocityUsage id a) (xs a) := by
  by_cases hidle : xs a = []
  · refine .idle hidle (velocityFlush_absent s ?_)
    rw [hcharged a]
    exact not_not.2 hidle
  · obtain ⟨⟨key, limit, live⟩, hmem, hkey⟩ := List.mem_map.1 ((hcharged a).2 hidle)
    have hkey' : key = a := hkey
    subst hkey'
    obtain ⟨hlimit, hlive⟩ := hcached.live _ _ _ hmem
    have hflushed : (velocityFlush s id entries).velocityUsage id key = _ :=
      velocityFlush_mem s hcached.nodup hmem
    cases limit with
    | none =>
        refine .unlimited hlimit.symm ?_
        rw [hflushed]
        simp
    | some ceiling =>
        have hlive' := hlive
        obtain ⟨_, usage, _, _, rfl⟩ := hlive'
        rw [hlimit] at hlive
        refine .metered ceiling usage hidle hlimit.symm hlive ?_
        rw [hflushed]
        simp

/-! ## What a call charges -/

/-- What a call charges for an asset of a wallet, action by action. -/
def Call.charges (id : ℕ) (asset : Address) : Call → List ℤ
  | .transfer _ walletId _ a amount => if walletId = id ∧ a = asset then [amount] else []
  | .withdraw _ walletId a amount => if walletId = id ∧ a = asset then [amount] else []
  | .batchExecuteValidated _ walletId actions =>
      if walletId = id then (actions.filter (·.asset = asset)).map (·.amount) else []
  | _ => []

theorem update₂_of_ne {α : Type} {f : ℕ → Address → α} {w : ℕ} {a : Address} {x : α}
    (h : ¬ (id = w ∧ asset = a)) : State.update₂ f w a x id asset = f id asset := by
  unfold State.update₂
  by_cases hw : id = w
  · subst hw
    have ha : asset ≠ a := fun ha => h ⟨rfl, ha⟩
    rw [Function.update_self, Function.update_of_ne ha]
  · rw [Function.update_of_ne hw]

/-- What a spend or a batch did to the record of an asset it charged with `xs`. -/
structure VelocityCharged (now : UInt64) (s s' : State World) (id : ℕ) (asset : Address)
    (xs : List ℤ) : Prop where
  limit : s'.velocityLimit id asset = s.velocityLimit id asset
  positive : ∀ x ∈ xs, 0 < x
  record : ChargedTo now (s.velocityLimit id asset) (s.velocityUsage id asset)
    (s'.velocityUsage id asset) xs

theorem enforceVelocity_charged {w : ℕ} {a : Address} {x : ℤ}
    (h : enforceVelocity H env w a x s = .ok s') :
    ChargedTo env.timestamp (s.velocityLimit id asset) (s.velocityUsage id asset)
      (s'.velocityUsage id asset) (if w = id ∧ a = asset then [x] else []) := by
  simp only [enforceVelocity, bind_eq_ok, pure_eq_ok] at h
  obtain ⟨entries, henforce, rfl⟩ := h
  by_cases hw : w = id
  · subst hw
    have hempty : HoldsCharged (fun _ => []) ([] : VelocityEntries) := by
      intro b
      simp
    obtain ⟨hcached, hcharged⟩ := velocityEnforce_cached Cached.empty rfl hempty henforce
    have hflush := velocityFlush_charged hcached hcharged asset
    by_cases ha : a = asset
    · subst ha
      simpa [chargeOne] using hflush
    · simpa [chargeOne, ha, Ne.symm ha] using hflush
  · have hother := velocityFlush_other (Ne.symm hw) s entries asset
    exact .idle (by simp [hw]) hother

/-- The first phase of a batch charges the cache with each of its actions. -/
theorem validateActions_cached {caller : Address} {policy budget : Option Address}
    {totals totals' : BatchTotals} {actions : List BatchAction}
    (hcached : Cached now (s.velocityLimit id) (s.velocityUsage id) xs totals.velocity)
    (hnow : now = env.timestamp) (hcharged : HoldsCharged xs totals.velocity)
    (h : validateActions H env id caller policy budget totals actions s = (.ok totals', s')) :
    let xs' := fun a => xs a ++ (actions.filter (·.asset = a)).map (·.amount)
    Cached now (s.velocityLimit id) (s.velocityUsage id) xs' totals'.velocity ∧
      HoldsCharged xs' totals'.velocity := by
  induction actions generalizing totals xs s with
  | nil =>
      rw [validateActions, Act.pure_ok] at h
      obtain ⟨rfl, _⟩ := h
      simpa using And.intro hcached hcharged
  | cons action rest ih =>
      rw [validateActions, Act.bind_ok] at h
      obtain ⟨totals₁, s₁, hfirst, hrest⟩ := h
      obtain ⟨_, _, henforce⟩ := validateAction_total hfirst
      obtain ⟨w, _, rfl⟩ := validateAction_ok hfirst
      obtain ⟨hcached₁, hcharged₁⟩ := velocityEnforce_cached hcached hnow hcharged henforce
      have hstep : (fun a => chargeOne xs action.asset action.amount a
            ++ (rest.filter (·.asset = a)).map (·.amount))
          = fun a => xs a ++ ((action :: rest).filter (·.asset = a)).map (·.amount) := by
        funext a
        by_cases ha : action.asset = a
        · subst ha
          simp [chargeOne]
        · simp [chargeOne, ha, Ne.symm ha]
      have hall := ih (s := { s with world := w }) hcached₁ hcharged₁ hrest
      rw [hstep] at hall
      exact hall

/-- What a spend or a batch did to the record of an asset. -/
theorem Gates.velocity {w : ℕ} {a : Address} {x : ℤ} (h : Gates H env s s' w a x) :
    VelocityCharged env.timestamp s s' id asset (if w = id ∧ a = asset then [x] else []) := by
  obtain ⟨s₁, s₂, s₃, hbefore, hvelocity, hrate, hafter⟩ := h.gates
  have hcharged : ChargedTo _ (s₁.velocityLimit id asset) _ _ _ :=
    enforceVelocity_charged hvelocity
  obtain ⟨velocityUsage, rfl⟩ := enforceVelocity_ok hvelocity
  obtain ⟨rateLimitUsage, rfl⟩ := enforceRateLimit_ok hrate
  rw [hbefore.velocityLimit, hbefore.velocityUsage] at hcharged
  refine ⟨?_, ?_, ?_⟩
  · rw [hafter.velocityLimit]
    exact congrFun (congrFun hbefore.velocityLimit id) asset
  · intro y hy
    have hpos := h.positive
    by_cases hsame : w = id ∧ a = asset
    · simp only [if_pos hsame, List.mem_singleton] at hy
      omega
    · simp [if_neg hsame] at hy
  · rw [hafter.velocityUsage]
    exact hcharged

theorem BatchGates.velocity {w : ℕ} {actions : List BatchAction}
    (h : BatchGates H env s s' w actions) :
    VelocityCharged env.timestamp s s' id asset
      (if w = id then (actions.filter (·.asset = asset)).map (·.amount) else []) := by
  obtain ⟨caller, policy, budget, totals, s₀, s₁, s₂, hbefore, hvalid, hrate, hafter⟩ := h.gates
  have hempty : HoldsCharged (fun _ => []) ([] : VelocityEntries) := by
    intro b
    simp
  obtain ⟨hcached, hcharged⟩ := validateActions_cached (s := s₀) Cached.empty rfl hempty hvalid
  obtain ⟨_, hpos⟩ := validateActions_total hvalid
  obtain ⟨world, _, rfl⟩ := validateActions_ok hvalid
  obtain ⟨rateLimitUsage, rfl⟩ := enforceRateLimit_ok hrate
  refine ⟨?_, ?_, ?_⟩
  · rw [hafter.velocityLimit]
    obtain ⟨usage, hflush⟩ := velocityFlush_eq
      { s₀ with world := world, rateLimitUsage := rateLimitUsage } w totals.velocity
    rw [hflush]
    exact congrFun (congrFun hbefore.velocityLimit id) asset
  · intro x hx
    by_cases hw : w = id
    · rw [if_pos hw] at hx
      obtain ⟨action, haction, rfl⟩ := List.mem_map.1 hx
      exact hpos action (List.mem_of_mem_filter haction)
    · rw [if_neg hw] at hx
      cases hx
  · rw [hafter.velocityUsage, ← hbefore.velocityLimit, ← hbefore.velocityUsage]
    by_cases hw : w = id
    · subst hw
      rw [if_pos rfl]
      have hflush := velocityFlush_charged
        (s := { s₀ with world := world, rateLimitUsage := rateLimitUsage }) hcached hcharged asset
      simpa using hflush
    · rw [if_neg hw]
      exact .idle rfl (velocityFlush_other (Ne.symm hw) _ _ _)

end WalletContract
end Astroid
