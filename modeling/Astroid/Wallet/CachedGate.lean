import Astroid.Lib.WriteBack
import Astroid.Wallet.Velocity

/-!
# The shared gate

A batch charges one gate with all its actions and writes the records back once; a spend has
a gate of its own.  The gate is a write-back cache of the usage records: a record is loaded
by aging it to the current time, and a record aged and charged at that time is found as it
is when it is aged again (`velocityDevice_lawful`).  So one gate for a list of movements
comes to the same as one gate for each, whatever the assets and their order.
-/

namespace Astroid
namespace WalletContract

open Outcome WriteBack

variable {World : Type} {H : WalletHost World} {env : Env H.self} {s s' : State World}
  {id : ℕ} {asset : Address} {now : UInt64} {limit : VelocityLimit} {usage usage' : VelocityUsage}
  {entries entries' : VelocityEntries} {amount : ℤ}

/-! ## Aging twice -/

@[simp] theorem length_rollBuckets {α : Type} (buckets shift : ℕ) (zero : α) (old : List α) :
    (rollBuckets buckets shift zero old).length = buckets := by
  simp [rollBuckets_eq]

/-- Buckets that do not move stay. -/
theorem rollBuckets_zero {α : Type} {zero : α} {old : List α} :
    rollBuckets old.length 0 zero old = old := by
  rw [rollBuckets_eq]
  refine List.ext_getElem (by simp) ?_
  intro i _ hi
  simp [List.getElem?_eq_getElem hi]

/-- The record is of the current bucket or a later one, and has all its buckets. -/
structure Aged (limit : VelocityLimit) (now : UInt64) (usage : VelocityUsage) : Prop where
  current : now.toNat / (limit.windowSeconds / velocityBuckets) ≤ usage.bucket
  whole : usage.spent.length = velocityBuckets

/-- What rolling leaves is aged. -/
theorem aged_of_rolled {stored : Option VelocityUsage}
    (h : rolledVelocityUsage stored limit now = .ok usage) : Aged limit now usage := by
  cases stored with
  | none =>
      cases h
      exact ⟨le_rfl, List.length_replicate⟩
  | some old =>
      simp only [rolledVelocityUsage, bind_eq_ok, pure_eq_ok] at h
      obtain ⟨_, _, rfl⟩ := h
      exact ⟨le_max_left _ _, length_rollBuckets ..⟩

/-- **Rolling an aged record changes nothing.** -/
theorem Aged.rolled (h : Aged limit now usage) :
    rolledVelocityUsage (some usage) limit now = .ok usage := by
  have hbucket : max (now.toNat / (limit.windowSeconds / velocityBuckets)) usage.bucket
      = usage.bucket := max_eq_right h.current
  have hspent : rollBuckets velocityBuckets 0 0 usage.spent = usage.spent := by
    rw [← h.whole]
    exact rollBuckets_zero
  have hshift : requireShift velocityBuckets 0 = .ok () := by decide
  simp only [rolledVelocityUsage, hbucket, Nat.sub_self, hshift, ok_bind, hspent]
  rfl

theorem Aged.charge (h : Aged limit now usage)
    (hcharge : chargeVelocity limit usage amount = .ok usage') : Aged limit now usage' := by
  simp only [chargeVelocity, bind_eq_ok, pure_eq_ok] at hcharge
  obtain ⟨_, _, _, _, current, _, rfl⟩ := hcharge
  exact ⟨h.current, by simpa using h.whole⟩

/-! ## The gate as a cache -/

/-- The records of the assets under a ceiling.  An asset without one has an empty line, which
saves nothing. -/
def velocityDevice (limits : Address → Option VelocityLimit) (now : UInt64) :
    Device Address (Option VelocityUsage) (Option VelocityLimit × Option VelocityUsage) ℤ Fault where
  load asset stored :=
    match limits asset with
    | none => .ok (none, none)
    | some limit => do
        let usage ← rolledVelocityUsage stored limit now
        pure (some limit, some usage)
  work line amount :=
    match line with
    | (some limit, some usage) => do
        let usage ← chargeVelocity limit usage amount
        pure (some limit, some usage)
    | line => .ok line
  save line stored :=
    match line with
    | (some _, some usage) => some usage
    | _ => stored

section Device

variable {limits : Address → Option VelocityLimit}
  {line line' : Option VelocityLimit × Option VelocityUsage} {stored : Option VelocityUsage}

/-- An asset without a ceiling has an empty line. -/
theorem velocityDevice_load_none (h : limits asset = none) :
    (velocityDevice limits now).load asset stored = .ok (none, none) := by
  simp only [velocityDevice, h]

/-- What is loaded for an asset under a ceiling. -/
theorem velocityDevice_load_some (h : limits asset = some limit) :
    (velocityDevice limits now).load asset stored = .ok line ↔
      ∃ usage, rolledVelocityUsage stored limit now = .ok usage ∧ (some limit, some usage) = line := by
  simp only [velocityDevice, h, bind_eq_ok, pure_eq_ok]

/-- The lines that stay as they are when they are saved and loaded. -/
theorem velocityDevice_settled : (velocityDevice limits now).Settled asset line ↔
    (limits asset = none ∧ line = (none, none)) ∨
      ∃ limit usage, limits asset = some limit ∧ line = (some limit, some usage) ∧
        Aged limit now usage := by
  constructor
  · intro h
    cases hlimit : limits asset with
    | none =>
        have hload := h none
        rw [velocityDevice_load_none hlimit, Except.ok.injEq] at hload
        exact .inl ⟨rfl, hload.symm⟩
    | some limit =>
        obtain ⟨usage, hrolled, hline⟩ := (velocityDevice_load_some hlimit).1 (h none)
        exact .inr ⟨limit, usage, rfl, hline.symm, aged_of_rolled hrolled⟩
  · rintro (⟨hlimit, rfl⟩ | ⟨limit, usage, hlimit, rfl, haged⟩) v
    · exact velocityDevice_load_none hlimit
    · exact (velocityDevice_load_some hlimit).2 ⟨usage, haged.rolled, rfl⟩

/-- **The gate may cache**: the clock stands still during a call. -/
theorem velocityDevice_lawful : (velocityDevice limits now).Lawful where
  loaded := by
    intro asset stored line hload
    cases hlimit : limits asset with
    | none =>
        rw [velocityDevice_load_none hlimit, Except.ok.injEq] at hload
        exact velocityDevice_settled.2 (.inl ⟨hlimit, hload.symm⟩)
    | some limit =>
        obtain ⟨usage, hrolled, rfl⟩ := (velocityDevice_load_some hlimit).1 hload
        exact velocityDevice_settled.2 (.inr ⟨limit, usage, hlimit, rfl, aged_of_rolled hrolled⟩)
  worked := by
    intro asset line line' amount hsettled hwork
    rw [velocityDevice_settled] at hsettled
    rcases hsettled with ⟨hlimit, rfl⟩ | ⟨limit, usage, hlimit, rfl, haged⟩
    · cases hwork
      exact velocityDevice_settled.2 (.inl ⟨hlimit, rfl⟩)
    · simp only [velocityDevice, bind_eq_ok, pure_eq_ok] at hwork
      obtain ⟨usage', hcharge, rfl⟩ := hwork
      exact velocityDevice_settled.2 (.inr ⟨limit, usage', hlimit, rfl, haged.charge hcharge⟩)
  covered := by
    intro line line' amount hwork stored
    obtain ⟨_ | limit, _ | usage⟩ := line
    · cases hwork
      rfl
    · cases hwork
      rfl
    · cases hwork
      rfl
    · simp only [velocityDevice, bind_eq_ok, pure_eq_ok] at hwork
      obtain ⟨usage', _, rfl⟩ := hwork
      rfl

end Device

/-! ## The code is that cache -/

/-- The device a call at `env` works with. -/
abbrev gateOf (env : Env H.self) (s : State World) (id : ℕ) :=
  velocityDevice (s.velocityLimit id) env.timestamp

theorem velocityPosition_eq : velocityPosition H env s id asset entries
    = (gateOf env s id).place (s.velocityUsage id) entries asset := by
  unfold velocityPosition Device.place
  cases entries.findIdx? (·.1 = asset) with
  | some i => rfl
  | none =>
      cases hlimit : s.velocityLimit id asset with
      | none => simp [gateOf, velocityDevice_load_none hlimit, pure, Except.pure]
      | some limit =>
          simp only [gateOf, velocityDevice, hlimit, bind_assoc, pure_bind]

/-- **`enforce` is an operation through the cache.** -/
theorem velocityEnforce_eq : velocityEnforce H env s id entries asset amount
    = (gateOf env s id).cached (s.velocityUsage id) entries asset amount := by
  unfold velocityEnforce Device.cached
  rw [velocityPosition_eq]
  refine bind_congr_ok ?_
  rintro ⟨i, touched⟩ hplace
  obtain ⟨⟨limit, usage⟩, hline⟩ := Device.place_ok hplace
  obtain ⟨hlt, hget⟩ := List.getElem?_eq_some_iff.1 hline
  have hidle : touched.set i (asset, limit, usage) = touched := by
    rw [← hget]
    exact List.set_getElem_self hlt
  dsimp only
  rw [hline]
  cases limit with
  | none =>
      show Except.ok touched = Except.ok (touched.set i (asset, none, usage))
      rw [hidle]
  | some limit =>
      cases usage with
      | none =>
          show Except.ok touched = Except.ok (touched.set i (asset, some limit, none))
          rw [hidle]
      | some usage => simp only [gateOf, velocityDevice, chargeVelocity, bind_assoc, pure_bind]

/-- The state with other usage records for a wallet. -/
def State.withVelocityUsage (s : State World) (id : ℕ) (usage : Address → Option VelocityUsage) :
    State World :=
  { s with velocityUsage := Function.update s.velocityUsage id usage }

theorem withVelocityUsage_self : s.withVelocityUsage id (s.velocityUsage id) = s := by
  unfold State.withVelocityUsage
  rw [Function.update_eq_self]

theorem withVelocityUsage_again {usage usage' : Address → Option VelocityUsage} :
    (s.withVelocityUsage id usage).withVelocityUsage id usage' = s.withVelocityUsage id usage' := by
  unfold State.withVelocityUsage
  simp only [Function.update_idem]

@[simp] theorem withVelocityUsage_velocityUsage {usage : Address → Option VelocityUsage} :
    (s.withVelocityUsage id usage).velocityUsage id = usage := Function.update_self ..

/-- **`flush` saves the lines.** -/
theorem velocityFlush_eq_flush {limits : Address → Option VelocityLimit} :
    velocityFlush s id entries
      = s.withVelocityUsage id ((velocityDevice limits now).flush (s.velocityUsage id) entries) := by
  induction entries generalizing s with
  | nil => exact withVelocityUsage_self.symm
  | cons entry rest ih =>
      obtain ⟨asset, limit, usage⟩ := entry
      -- an empty line is skipped, and saves what is there
      have hskip : Function.update (s.velocityUsage id) asset (s.velocityUsage id asset)
          = s.velocityUsage id := Function.update_eq_self ..
      cases limit with
      | none =>
          show velocityFlush s id rest = s.withVelocityUsage id
            ((velocityDevice limits now).flush (Function.update _ asset _) rest)
          rw [ih]
          exact congrArg (fun store => s.withVelocityUsage id
            ((velocityDevice limits now).flush store rest)) hskip.symm
      | some limit =>
          cases usage with
          | none =>
              show velocityFlush s id rest = s.withVelocityUsage id
                ((velocityDevice limits now).flush (Function.update _ asset _) rest)
              rw [ih]
              exact congrArg (fun store => s.withVelocityUsage id
                ((velocityDevice limits now).flush store rest)) hskip.symm
          | some usage =>
              show velocityFlush (s.withVelocityUsage id (Function.update _ asset (some usage))) id rest
                = _
              rw [ih, withVelocityUsage_again, withVelocityUsage_velocityUsage]
              rfl

/-! ## A list of movements -/

/-- One gate, charged with a list of movements and flushed once. -/
def enforceShared (H : WalletHost World) (env : Env H.self) (id : ℕ)
    (moves : List (Address × ℤ)) (s : State World) : Result (State World) := do
  let entries ← moves.foldlM
    (fun entries move => velocityEnforce H env s id entries move.1 move.2) []
  pure (velocityFlush s id entries)

/-- `enforce_velocity` for each movement in turn. -/
def enforceInTurn (H : WalletHost World) (env : Env H.self) (id : ℕ)
    (moves : List (Address × ℤ)) (s : State World) : Result (State World) :=
  moves.foldlM (fun s move => enforceVelocity H env id move.1 move.2 s) s

/-- **The shared gate** is a run through the cache and one flush. -/
theorem enforceShared_eq {moves : List (Address × ℤ)} : enforceShared H env id moves s
    = s.withVelocityUsage id <$> (gateOf env s id).runDirect (s.velocityUsage id) moves := by
  rw [← Device.flush_runCached_nil velocityDevice_lawful moves, Device.runCached]
  simp only [enforceShared, velocityEnforce_eq]
  cases moves.foldlM (fun entries move =>
      (gateOf env s id).cached (s.velocityUsage id) entries move.1 move.2) [] with
  | error e => rfl
  | ok entries =>
      show Except.ok _ = Except.ok _
      rw [velocityFlush_eq_flush]

/-- A gate for one movement. -/
theorem enforceVelocity_eq : enforceVelocity H env id asset amount s
    = s.withVelocityUsage id <$> (gateOf env s id).direct (s.velocityUsage id) asset amount := by
  have hsingle : enforceVelocity H env id asset amount s
      = enforceShared H env id [(asset, amount)] s := by
    simp [enforceVelocity, enforceShared]
  rw [hsingle, enforceShared_eq, Device.runDirect_cons]
  cases (gateOf env s id).direct (s.velocityUsage id) asset amount with
  | error e => rfl
  | ok usage => rfl

/-- **One gate for each movement** is a run on the records themselves. -/
theorem enforceInTurn_eq {moves : List (Address × ℤ)} : enforceInTurn H env id moves s
    = s.withVelocityUsage id <$> (gateOf env s id).runDirect (s.velocityUsage id) moves := by
  induction moves generalizing s with
  | nil =>
      show Except.ok s = Except.ok _
      rw [withVelocityUsage_self]
  | cons move rest ih =>
      obtain ⟨asset, amount⟩ := move
      have hrest : ∀ usage : Address → Option VelocityUsage,
          enforceInTurn H env id rest (s.withVelocityUsage id usage)
            = s.withVelocityUsage id <$> (gateOf env s id).runDirect usage rest := by
        intro usage
        have hagain : (s.withVelocityUsage id usage).withVelocityUsage id
            = s.withVelocityUsage id := funext fun _ => withVelocityUsage_again
        rw [ih, withVelocityUsage_velocityUsage, hagain]
        rfl
      rw [Device.runDirect_cons]
      show (enforceVelocity H env id asset amount s >>= enforceInTurn H env id rest) = _
      rw [enforceVelocity_eq]
      cases (gateOf env s id).direct (s.velocityUsage id) asset amount with
      | error e => rfl
      | ok usage => exact hrest usage

/-- The first phase of a batch charges one gate with its actions. -/
theorem validateActions_enforces {caller : Address} {policy budget : Option Address}
    {totals totals' : BatchTotals} {actions : List BatchAction}
    (h : validateActions H env id caller policy budget totals actions s = (.ok totals', s')) :
    (∃ w, s' = { s with world := w }) ∧
      (actions.map fun action => (action.asset, action.amount)).foldlM
        (fun entries move => velocityEnforce H env s id entries move.1 move.2) totals.velocity
          = .ok totals'.velocity := by
  induction actions generalizing totals s with
  | nil =>
      rw [validateActions, Act.pure_ok] at h
      obtain ⟨rfl, rfl⟩ := h
      exact ⟨⟨s.world, rfl⟩, rfl⟩
  | cons action rest ih =>
      rw [validateActions, Act.bind_ok] at h
      obtain ⟨totals₁, s₁, hfirst, hrest⟩ := h
      obtain ⟨_, _, henforce⟩ := validateAction_total hfirst
      obtain ⟨w₁, _, rfl⟩ := validateAction_ok hfirst
      obtain ⟨⟨w, rfl⟩, hloop⟩ := ih hrest
      refine ⟨⟨w, rfl⟩, ?_⟩
      rw [List.map_cons, List.foldlM_cons, henforce, ok_bind]
      exact hloop

/-- **One gate or one for each.**  A shared gate and one flush give the verdict of charging
the movements one after the other, error included, and leave the same state.  Nothing but the
usage records of the wallet changes, and no record of an asset without a ceiling does.  The
first phase of a batch is such a gate. -/
theorem shared_gate_exact (H : WalletHost World) (env : Env H.self) (s : State World) (id : ℕ) :
    (∀ moves, enforceShared H env id moves s = enforceInTurn H env id moves s) ∧
    (∀ moves s', enforceShared H env id moves s = .ok s' →
      (∃ usage, s' = s.withVelocityUsage id usage) ∧
      ∀ asset, s.velocityLimit id asset = none →
        s'.velocityUsage id asset = s.velocityUsage id asset) ∧
    ∀ caller policy budget actions totals s',
      validateActions H env id caller policy budget ⟨0, 0, []⟩ actions s = (.ok totals, s') →
        enforceInTurn H env id (actions.map fun action => (action.asset, action.amount)) s'
          = .ok (velocityFlush s' id totals.velocity) := by
  have hsame : ∀ (s : State World) moves,
      enforceShared H env id moves s = enforceInTurn H env id moves s := by
    intro s moves
    rw [enforceShared_eq, enforceInTurn_eq]
  refine ⟨hsame s, ?_, ?_⟩
  · intro moves s' h
    rw [enforceShared_eq] at h
    obtain ⟨usage, hrun, rfl⟩ := map_ok h
    refine ⟨⟨usage, rfl⟩, ?_⟩
    intro asset hnone
    rw [withVelocityUsage_velocityUsage]
    refine Device.runDirect_kept hrun ?_
    intro stored line line' amount hload hwork v
    rw [velocityDevice_load_none hnone, Except.ok.injEq] at hload
    subst hload
    cases hwork
    rfl
  · intro caller policy budget actions totals s' h
    obtain ⟨⟨w, rfl⟩, hloop⟩ := validateActions_enforces h
    rw [← hsame]
    show (List.foldlM (fun entries move => velocityEnforce H env s id entries move.1 move.2) []
      (actions.map fun action => (action.asset, action.amount))) >>= _ = _
    rw [hloop]
    rfl

/-- Movements of 10, 5 and 20 of two tokens, the first and the last under one ceiling. -/
def interleaved : List (Address × ℤ) := [(.contract 7, 10), (.contract 8, 5), (.contract 7, 20)]

/-- They are charged as they would be one after the other, and the token without a ceiling has
no record. -/
theorem shared_gate_exact_interleaved :
    let s := play (deployed funded) limited
    ∃ s', enforceInTurn referenceHost (signedBy 10 [1]) 1 interleaved s = .ok s' ∧
      s'.velocityUsage 1 (.contract 8) = none := by
  intro s
  have hreturns : (enforceShared referenceHost (signedBy 10 [1]) 1 interleaved s).isOk = true := by
    decide
  obtain ⟨s', hshared⟩ := isOk_iff.1 hreturns
  obtain ⟨hsame, hkept, _⟩ := shared_gate_exact referenceHost (signedBy 10 [1]) s 1
  refine ⟨s', hsame interleaved ▸ hshared, ?_⟩
  exact (hkept interleaved s' hshared).2 (.contract 8) rfl

end WalletContract
end Astroid
