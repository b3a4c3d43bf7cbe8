import Astroid.Registry.Approvals
import Astroid.Lib.Playing
import Astroid.Lib.Projection

/-!
# Upgrades through the registry

Every member contract replaces its code through the shared `upgrade` module: the recorded
upgrade admin signs, and the recorded registry answers that the code is approved for the
contract's kind.  A registry and its members run side by side, called by anybody in any order.
Whatever code a member runs, its upgrade admin asked for it while the last decision of the
registry's administrators was to approve it (`Members.code_approved`), and without the admin's
signature neither the code nor the authority changes (`Members.code_kept`).

After an upgrade a member goes on with the rules of this file: a run is a run of contracts that
share them.
-/

namespace Astroid
namespace Upgrade

open Machine Outcome
open RegistryContract (WasmHash UpgradeAuthority)

/-! ## The shared module -/

/-- What a contract stores for its upgrades, and the code that replaced the deployed one. -/
structure State where
  authority : Option UpgradeAuthority
  wasm : Option WasmHash

/-- The rest of the ledger: what the registry at an address answers, which is nothing where the
call fails, and which code was uploaded. -/
structure Ledger where
  tryIsWasmApproved : Address → ModuleKind → WasmHash → Option Bool
  uploaded : WasmHash → Bool

section

variable {self : Address} (env : Env self) (L : Ledger) (s : State)

/-- `set_authority`. -/
def setAuthority (caller admin registry : Address) : Result State := do
  requireAuth env caller
  require (∀ current ∈ s.authority, current.admin = caller) .unauthorized
  pure { s with authority := some ⟨admin, registry⟩ }

/-- `get_authority`. -/
def getAuthority : Result UpgradeAuthority := okOr s.authority .notInitialized

/-- `check`: a registry that cannot be asked is one that refused. -/
def check (caller : Address) (kind : ModuleKind) (wasmHash : WasmHash) : Result Unit := do
  requireAuth env caller
  let authority ← getAuthority s
  require (authority.admin = caller) .unauthorized
  match L.tryIsWasmApproved authority.registry kind wasmHash with
  | some true => pure ()
  | some false => .error (.error .unauthorized)
  | none => .error (.error .unauthorized)

/-- `apply`: the host refuses code that was not uploaded. -/
def apply (wasmHash : WasmHash) : Result State := do
  Outcome.ensure (L.uploaded wasmHash = true) .trap
  pure { s with wasm := some wasmHash }

/-- `perform`. -/
def perform (caller : Address) (kind : ModuleKind) (wasmHash : WasmHash) : Result State := do
  check env L s caller kind wasmHash
  apply L s wasmHash

end

/-- The entrypoints every member contract shares. -/
inductive Call where
  | setUpgradeAuthority (caller admin registry : Address)
  | getUpgradeAuthority
  | upgrade (caller : Address) (wasmHash : WasmHash)

/-- An entrypoint of a member of a kind. -/
def exec {self : Address} (env : Env self) (L : Ledger) (kind : ModuleKind) (s : State) :
    Call → Result State
  | .setUpgradeAuthority caller admin registry => setAuthority env s caller admin registry
  | .getUpgradeAuthority => (fun _ => s) <$> getAuthority s
  | .upgrade caller wasmHash => perform env L s caller kind wasmHash

section

variable {self : Address} {env : Env self} {L : Ledger} {s s' : State} {kind : ModuleKind}
  {caller admin registry : Address} {wasmHash : WasmHash} {u : Unit}

theorem setAuthority_eq_ok : setAuthority env s caller admin registry = .ok s' ↔
    caller ∈ env.auths ∧ (∀ current ∈ s.authority, current.admin = caller) ∧
      s' = { s with authority := some ⟨admin, registry⟩ } := by
  simp only [setAuthority, bind_eq_ok, requireAuth_eq_ok, require_eq_ok, pure_eq_ok]
  constructor
  · rintro ⟨_, hauth, _, hcurrent, rfl⟩
    exact ⟨hauth, hcurrent, rfl⟩
  · rintro ⟨hauth, hcurrent, rfl⟩
    exact ⟨(), hauth, (), hcurrent, rfl⟩

/-- Both gates: the recorded admin signs, and the recorded registry approves. -/
theorem check_eq_ok : check env L s caller kind wasmHash = .ok u ↔
    caller ∈ env.auths ∧ ∃ authority, s.authority = some authority ∧ authority.admin = caller ∧
      L.tryIsWasmApproved authority.registry kind wasmHash = some true := by
  simp only [check, getAuthority, bind_eq_ok, requireAuth_eq_ok, okOr_eq_ok, require_eq_ok]
  constructor
  · rintro ⟨_, hauth, authority, hauthority, _, hadmin, h⟩
    refine ⟨hauth, authority, hauthority, hadmin, ?_⟩
    split at h <;> first | assumption | cases h
  · rintro ⟨hauth, authority, hauthority, hadmin, happroved⟩
    refine ⟨(), hauth, authority, hauthority, (), hadmin, ?_⟩
    rw [happroved]
    rfl

theorem perform_eq_ok : perform env L s caller kind wasmHash = .ok s' ↔
    check env L s caller kind wasmHash = .ok () ∧ L.uploaded wasmHash = true ∧
      s' = { s with wasm := some wasmHash } := by
  simp only [perform, apply, bind_eq_ok, ensure_eq_ok, pure_eq_ok]
  constructor
  · rintro ⟨_, hcheck, _, huploaded, rfl⟩
    exact ⟨hcheck, huploaded, rfl⟩
  · rintro ⟨hcheck, huploaded, rfl⟩
    exact ⟨(), hcheck, (), huploaded, rfl⟩

end

/-! ## Members of one registry -/

/-- A registry and the contracts around it. -/
structure Members (ι : Type) where
  registry : Address
  self : ι → Address
  kind : ι → ModuleKind

namespace Members

variable {ι : Type}

/-- What the ledger stores for them all; elsewhere there are other registries. -/
structure State (ι : Type) where
  registry : RegistryContract.State
  elsewhere : Address → ModuleKind → WasmHash → Option Bool
  member : ι → Upgrade.State

variable (M : Members ι)

/-- An input: an invocation of the registry or code uploaded, an invocation of a member, or a
change elsewhere. -/
inductive Input where
  | registry (input : RegistryContract.Inputs M.registry)
  | invoke (i : ι) (env : Env (M.self i)) (call : Call)
  | outside (time : ℕ) (elsewhere : Address → ModuleKind → WasmHash → Option Bool)

def Input.time {M : Members ι} : M.Input → ℕ
  | .registry input => Astroid.Input.time input
  | .invoke _ env _ => env.timestamp.toNat
  | .outside time _ => time

/-- The ledger a member sees. -/
def ledger (s : State ι) : Ledger where
  tryIsWasmApproved address kind wasmHash :=
    if address = M.registry then some (s.registry.isWasmApproved kind wasmHash)
    else s.elsewhere address kind wasmHash
  uploaded := s.registry.uploaded

/-- Nothing is stored yet. -/
structure Fresh (s : State ι) : Prop where
  registry : RegistryContract.Fresh s.registry
  authority : ∀ i, (s.member i).authority = none
  wasm : ∀ i, (s.member i).wasm = none

variable [DecidableEq ι]

/-- A call of one member. -/
def Invoked (s s' : State ι) (i : ι) (env : Env (M.self i)) (call : Call) : Prop :=
  ∃ m, exec env (M.ledger s) (M.kind i) (s.member i) call = .ok m ∧
    s' = { s with member := Function.update s.member i m }

/-- One step of them all. -/
def Step (s s' : State ι) : M.Input → Prop
  | .registry input => (RegistryContract.machine M.registry).step input s.registry s'.registry ∧
      s' = { s with registry := s'.registry }
  | .invoke i env call => M.Invoked s s' i env call
  | .outside _ elsewhere => s' = { s with elsewhere := elsewhere }

/-- A registry and its members as a machine. -/
def machine : Machine (State ι) M.Input where
  init := Fresh
  step input s s' := M.Step s s' input
  time := Input.time

variable {M} {s s' : State ι} {i : ι} {tr : List (Entry (State ι) M.Input)} {t : ℕ}
  {e : Entry (State ι) M.Input}

/-! ## The registry's part of a run -/

/-- The registry sees a call of a member as time that passes. -/
def registryView (M : Members ι) :
    View (State ι) M.Input RegistryContract.State (RegistryContract.Inputs M.registry) where
  state := State.registry
  input e :=
    match e.input with
    | .registry input => input
    | input => .outside input.time e.pre.registry.uploaded

/-- A run of them all is a run of the registry. -/
theorem path_registry {allow : M.Input → State ι → Prop} (h : M.machine.Path allow tr s t) :
    (RegistryContract.machine M.registry).Path anyInput (M.registryView.trace tr) s.registry t := by
  refine h.project M.registryView (fun s (hfresh : Fresh s) => hfresh.registry) ?_
  intro tr s t input s' _ _ hstep _
  cases input with
  | registry input => exact ⟨rfl, trivial, hstep.1⟩
  | invoke i env call =>
      obtain ⟨m, _, rfl⟩ := hstep
      exact ⟨rfl, trivial, rfl⟩
  | outside time elsewhere =>
      obtain rfl : s' = { s with elsewhere := elsewhere } := hstep
      exact ⟨rfl, trivial, rfl⟩

/-- An administrator of the registry approved the code (`approved`), or withdrew it. -/
def Decides (kind : ModuleKind) (wasmHash : WasmHash) (approved : Bool)
    (e : Entry (State ι) M.Input) : Prop :=
  ∃ (env : Env M.registry) (call : RegistryContract.Call) (caller : Address),
    e.input = .registry (.invoke env call) ∧
      call.decides e.pre.registry kind wasmHash = some approved ∧
      RegistryContract.Administers env e.pre.registry caller

omit [DecidableEq ι] in
/-- What the registry sees decided was decided by an administrator. -/
theorem decides_of_view {kind : ModuleKind} {wasmHash : WasmHash} {approved : Bool}
    (hdecides : RegistryContract.decides kind wasmHash (M.registryView.entry e) = some approved)
    (hadmin : RegistryContract.Administered (M.registryView.entry e)) :
    Decides kind wasmHash approved e := by
  obtain ⟨env, call, caller, hinput, hcaller⟩ := hadmin
  obtain ⟨pre, input, post⟩ := e
  cases input with
  | registry input =>
      obtain rfl : input = .invoke env call := hinput
      exact ⟨env, call, caller, rfl, hdecides, hcaller⟩
  | invoke | outside => cases hinput

omit [DecidableEq ι] in
/-- A decision is what the registry sees decided. -/
theorem view_of_decides {kind : ModuleKind} {wasmHash : WasmHash} {approved : Bool}
    (h : Decides kind wasmHash approved e) :
    RegistryContract.decides kind wasmHash (M.registryView.entry e) = some approved := by
  obtain ⟨env, call, caller, hinput, hdecides, _⟩ := h
  obtain ⟨pre, input, post⟩ := e
  obtain rfl : input = .registry (.invoke env call) := hinput
  exact hdecides

/-- **Approved code was approved**, and the approval stands. -/
theorem approved_standing {allow : M.Input → State ι → Prop} (h : M.machine.Path allow tr s t)
    {kind : ModuleKind} {wasmHash : WasmHash}
    (happroved : s.registry.isWasmApproved kind wasmHash = true) :
    ∃ tr₁ q tr₂, tr = tr₁ ++ q :: tr₂ ∧ Decides kind wasmHash true q ∧
      ∀ x ∈ tr₂, ¬ Decides kind wasmHash false x := by
  obtain ⟨hlast, hadmin⟩ := RegistryContract.approved_last (path_registry h) kind wasmHash
  have hwritten : lastWrite (RegistryContract.decides kind wasmHash) (M.registryView.trace tr)
      = some true := by
    rw [happroved] at hlast
    cases hw : lastWrite (RegistryContract.decides kind wasmHash) (M.registryView.trace tr) with
    | none =>
        rw [hw] at hlast
        cases hlast
    | some approved =>
        rw [hw] at hlast
        exact congrArg some hlast.symm
  obtain ⟨trace₁, q', trace₂, htrace, hq', hafter⟩ := lastWrite_eq_some.1 hwritten
  obtain ⟨tr₁, rest, rfl, _, hrest⟩ := List.map_eq_append_iff.1 htrace
  obtain ⟨q, tr₂, rfl, rfl, rfl⟩ := List.map_eq_cons_iff.1 hrest
  refine ⟨tr₁, q, tr₂, rfl, ?_, ?_⟩
  · refine decides_of_view hq' (hadmin _ ?_ ?_)
    · exact List.mem_map_of_mem (List.mem_append_right _ (List.mem_cons_self ..))
    · rw [hq']
      exact Option.some_ne_none true
  · intro x hx hwithdrawn
    have hnone := hafter _ (List.mem_map_of_mem hx)
    rw [view_of_decides hwithdrawn] at hnone
    cases hnone

/-! ## The code of a member -/

/-- The code an entry moved a member to. -/
def moves (i : ι) (e : Entry (State ι) M.Input) : Option WasmHash :=
  match e.input with
  | .invoke j _ (.upgrade _ wasmHash) => if j = i then some wasmHash else none
  | _ => none

/-- The upgrade admin of a member asked for code, which the recorded registry approved and
which was uploaded. -/
def Upgrades (i : ι) (wasmHash : WasmHash) (authority : UpgradeAuthority)
    (e : Entry (State ι) M.Input) : Prop :=
  ∃ env : Env (M.self i), e.input = .invoke i env (.upgrade authority.admin wasmHash) ∧
    authority.admin ∈ env.auths ∧ (e.pre.member i).authority = some authority ∧
    (M.ledger e.pre).tryIsWasmApproved authority.registry (M.kind i) wasmHash = some true ∧
    e.pre.registry.uploaded wasmHash = true

/-- A step that moves a member to code is an upgrade. -/
theorem upgrades_of_moves {wasmHash : WasmHash} (hmoves : moves i e = some wasmHash)
    (h : M.machine.step e.input e.pre e.post) : ∃ authority, Upgrades i wasmHash authority e := by
  obtain ⟨pre, input, post⟩ := e
  cases input with
  | registry | outside => cases hmoves
  | invoke j env call =>
      cases call with
      | setUpgradeAuthority | getUpgradeAuthority => cases hmoves
      | upgrade caller wasmHash' =>
          simp only [moves] at hmoves
          split at hmoves
          · rename_i hj
            subst hj
            cases hmoves
            have hinvoked : M.Invoked pre post j env (.upgrade caller wasmHash) := h
            obtain ⟨m, hexec, _⟩ := hinvoked
            obtain ⟨hcheck, huploaded, _⟩ := perform_eq_ok.1 hexec
            obtain ⟨hauth, authority, hauthority, rfl, happroved⟩ := check_eq_ok.1 hcheck
            exact ⟨authority, env, rfl, hauth, hauthority, happroved, huploaded⟩
          · cases hmoves

/-- A step writes the code of a member just if it moves the member. -/
theorem writes_wasm (h : M.machine.step e.input e.pre e.post) :
    Writes (fun s => (s.member i).wasm) (fun e => (moves i e).map some) e := by
  obtain ⟨pre, input, post⟩ := e
  cases input with
  | registry input =>
      have hpost : post = { pre with registry := post.registry } := h.2
      unfold Writes
      rw [hpost]
      rfl
  | outside time elsewhere =>
      obtain rfl : post = { pre with elsewhere := elsewhere } := h
      rfl
  | invoke j env call =>
      have hinvoked : M.Invoked pre post j env call := h
      obtain ⟨m, hexec, rfl⟩ := hinvoked
      by_cases hj : j = i
      · subst hj
        cases call with
        | setUpgradeAuthority caller admin registry =>
            obtain ⟨_, _, rfl⟩ := setAuthority_eq_ok.1 hexec
            simp [Writes, moves]
        | getUpgradeAuthority =>
            obtain ⟨_, _, rfl⟩ := map_ok hexec
            simp [Writes, moves]
        | upgrade caller wasmHash =>
            obtain ⟨_, _, rfl⟩ := perform_eq_ok.1 hexec
            simp [Writes, moves]
      · have hmoves (post : State ι) :
            moves i (⟨pre, .invoke j env call, post⟩ : Entry (State ι) M.Input) = none := by
          cases call <;> simp [moves, hj]
        simp [Writes, hmoves, Function.update_of_ne (Ne.symm hj)]

/-- **No code without an approval.**  Whatever code a member runs, the last upgrade of the
member moved it there: its upgrade admin signed, and the recorded registry approved.  Where that
is the registry of these members, an administrator of the registry had approved the code
for the member's kind, and none had withdrawn it before the upgrade. -/
theorem code_approved {allow : M.Input → State ι → Prop} (h : M.machine.Path allow tr s t)
    {wasmHash : WasmHash} (hcode : (s.member i).wasm = some wasmHash) :
    ∃ tr₁ e tr₂ authority, tr = tr₁ ++ e :: tr₂ ∧ Upgrades i wasmHash authority e ∧
      (∀ x ∈ tr₂, moves i x = none) ∧
      (authority.registry = M.registry → ∃ tr₃ q tr₄, tr₁ = tr₃ ++ q :: tr₄ ∧
        Decides (M.kind i) wasmHash true q ∧
        ∀ x ∈ tr₄, ¬ Decides (M.kind i) wasmHash false x) := by
  have hwritten : lastWrite (fun e => (moves i e).map some) tr = some (some wasmHash) := by
    rw [← hcode]
    refine h.written (fun s (hfresh : Fresh s) => hfresh.wasm i)
      (fun _ _ _ _ _ _ _ hstep => writes_wasm hstep) ?_
    rw [hcode]
    exact Option.some_ne_none _
  obtain ⟨tr₁, e, tr₂, rfl, he, hafter⟩ := lastWrite_eq_some.1 hwritten
  have hmoves : moves i e = some wasmHash := by
    obtain ⟨code, hcode', hsame⟩ := Option.map_eq_some_iff.1 he
    cases hsame
    exact hcode'
  have hpart : tr₁ ++ [e] <+: tr₁ ++ e :: tr₂ := ⟨tr₂, by simp⟩
  obtain ⟨_, hbefore, _, _, hstep⟩ := h.before hpart
  obtain ⟨authority, hupgrades⟩ := upgrades_of_moves hmoves hstep
  refine ⟨tr₁, e, tr₂, authority, rfl, hupgrades, ?_, ?_⟩
  · exact fun x hx => Option.map_eq_none_iff.1 (hafter x hx)
  · intro hregistry
    obtain ⟨_, _, _, _, happroved, _⟩ := hupgrades
    simp only [ledger, hregistry, if_true, Option.some.injEq] at happroved
    exact approved_standing hbefore happroved

/-! ## The signature of the upgrade admin -/

/-- The address authorizes this entry's invocation of the member. -/
def Signs (i : ι) (admin : Address) (e : Entry (State ι) M.Input) : Prop :=
  ∃ (env : Env (M.self i)) (call : Call), e.input = .invoke i env call ∧ admin ∈ env.auths

/-- Without its upgrade admin, a member keeps its authority and its code. -/
theorem step_keeps {authority : UpgradeAuthority}
    (hauthority : (e.pre.member i).authority = some authority) (hsigns : ¬ Signs i authority.admin e)
    (h : M.machine.step e.input e.pre e.post) : e.post.member i = e.pre.member i := by
  obtain ⟨pre, input, post⟩ := e
  cases input with
  | registry input =>
      have hpost : post = { pre with registry := post.registry } := h.2
      dsimp only
      rw [hpost]
  | outside time elsewhere =>
      obtain rfl : post = { pre with elsewhere := elsewhere } := h
      rfl
  | invoke j env call =>
      have hinvoked : M.Invoked pre post j env call := h
      obtain ⟨m, hexec, rfl⟩ := hinvoked
      by_cases hj : j = i
      · subst hj
        have hunsigned : authority.admin ∉ env.auths := fun hsigned => hsigns ⟨env, call, rfl, hsigned⟩
        cases call with
        | setUpgradeAuthority caller admin registry =>
            obtain ⟨hcaller, hcurrent, _⟩ := setAuthority_eq_ok.1 hexec
            rw [hcurrent authority hauthority] at hunsigned
            exact absurd hcaller hunsigned
        | getUpgradeAuthority =>
            obtain ⟨_, _, rfl⟩ := map_ok hexec
            simp
        | upgrade caller wasmHash =>
            obtain ⟨hcheck, _⟩ := perform_eq_ok.1 hexec
            obtain ⟨hcaller, recorded, hrecorded, hadmin, _⟩ := check_eq_ok.1 hcheck
            obtain rfl : authority = recorded := Option.some.inj (hauthority.symm.trans hrecorded)
            rw [hadmin] at hunsigned
            exact absurd hcaller hunsigned
      · exact Function.update_of_ne (Ne.symm hj) _ _

/-- **No upgrade without its admin.**  From an entry of a run on, a member whose recorded
upgrade admin signs none of its invocations keeps its authority and its code, whatever
the registry, its administrators and everybody else do. -/
theorem code_kept {allow : M.Input → State ι → Prop} {tr₁ tr₂ : List (Entry (State ι) M.Input)}
    {q : Entry (State ι) M.Input} (h : M.machine.Path allow (tr₁ ++ q :: tr₂) s t)
    {authority : UpgradeAuthority} (hauthority : (q.post.member i).authority = some authority)
    (hunsigned : ∀ e ∈ tr₂, ¬ Signs i authority.admin e) :
    s.member i = q.post.member i := by
  refine h.after (Q := fun _ s => s.member i = q.post.member i) rfl ?_
  intro tr e hpre _ _ hstep hkept
  have he : e ∈ tr₂ := hpre.subset (List.mem_append_right _ (List.mem_singleton_self e))
  rw [step_keeps (hkept ▸ hauthority) (hunsigned e he) hstep, hkept]

/-! ## A run -/

/-- Take one step. -/
def run (s : State ι) : M.Input → Result (State ι)
  | .registry (.invoke env call) =>
      (fun r => { s with registry := r }) <$> RegistryContract.exec env s.registry call
  | .registry (.outside _ uploaded) =>
      pure { s with registry := { s.registry with uploaded := uploaded } }
  | .invoke i env call =>
      (fun m => { s with member := Function.update s.member i m }) <$>
        exec env (M.ledger s) (M.kind i) (s.member i) call
  | .outside _ elsewhere => pure { s with elsewhere := elsewhere }

theorem step_run {input : M.Input} (h : run s input = .ok s') : M.machine.step input s s' := by
  cases input with
  | registry input =>
      cases input with
      | invoke env call =>
          obtain ⟨r, hexec, rfl⟩ := map_ok h
          exact ⟨hexec, rfl⟩
      | outside time uploaded =>
          obtain rfl : _ = s' := Except.ok.inj h
          exact ⟨rfl, rfl⟩
  | invoke i env call =>
      obtain ⟨m, hexec, rfl⟩ := map_ok h
      exact ⟨m, hexec, rfl⟩
  | outside time elsewhere =>
      obtain rfl : _ = s' := Except.ok.inj h
      rfl

/-- Every input is computed. -/
def player (M : Members ι) : M.machine.Player where
  run s input := (run s input).toOption
  step_run s input s' h := by
    cases hresult : run s input with
    | error f =>
        rw [hresult] at h
        cases h
    | ok t =>
        rw [hresult] at h
        cases h
        exact step_run hresult

/-- One contract of each kind: the registry at `contract 0`, the wallet at `contract 1`. -/
def family : Members ModuleKind where
  registry := .contract 0
  self kind := .contract (kind.ctorIdx + 1)
  kind kind := kind

/-- All are just deployed, and no other registry answers. -/
def familyDeployed : State ModuleKind where
  registry := RegistryContract.deployed
  elsewhere _ _ _ := none
  member _ := ⟨none, none⟩

theorem familyDeployed_fresh : Fresh familyDeployed :=
  ⟨RegistryContract.deployed_fresh, fun _ => rfl, fun _ => rfl⟩

/-- Account 1 administers the registry and approves code for wallets; the deployer of the
wallet, account 4, makes account 5 its upgrade admin, who moves it to that code. -/
def upgrading : List family.Input :=
  [.registry (.invoke (signedAt 0 1 []) (.initializeContract (.account 1))),
    .registry (.invoke (signedAt 0 2 [1]) (.addApprovedWasm (.account 1) .wallet
      (RegistryContract.hashOf 3))),
    .invoke .wallet (signedAt 1 3 [4]) (.setUpgradeAuthority (.account 4) (.account 5)
      (.contract 0))]

/-- The upgrade. -/
def upgradingLast : family.Input :=
  .invoke .wallet (signedAt 1 4 [5]) (.upgrade (.account 5) (RegistryContract.hashOf 3))

/-- Afterwards the approval is withdrawn, and other code approved. -/
def withdrawing : List family.Input :=
  [.registry (.invoke (signedAt 0 5 [1]) (.removeApprovedWasm (.account 1) .wallet
      (RegistryContract.hashOf 3))),
    .registry (.invoke (signedAt 0 6 [1]) (.addApprovedWasm (.account 1) .wallet
      (RegistryContract.hashOf 4)))]

/-- The wallet as the upgrade leaves it. -/
def upgraded : State ModuleKind :=
  family.player.after (family.player.play familyDeployed upgrading) upgradingLast

/-- The entry that moves it. -/
def upgradingEntry : Entry (State ModuleKind) family.Input :=
  ⟨family.player.play familyDeployed upgrading, upgradingLast, upgraded⟩

theorem family_path : ∃ t, family.machine.Path anyInput
    (family.player.trace familyDeployed upgrading ++
      upgradingEntry :: family.player.trace upgraded withdrawing)
    (family.player.play upgraded withdrawing) t := by
  have hplays : family.player.plays familyDeployed 0 (upgrading ++ upgradingLast :: withdrawing)
      = true := by decide
  obtain ⟨t, hpath⟩ := Player.path_plays (.start familyDeployed_fresh) hplays fun _ _ _ => trivial
  rw [List.nil_append, Player.trace_middle, Player.play_middle] at hpath
  exact ⟨t, hpath⟩

/-- The wallet runs that code, and an approval stood when it was moved there. -/
theorem code_approved_upgrading :
    ∃ tr₁ e tr₂ authority,
      family.player.trace familyDeployed upgrading ++
        upgradingEntry :: family.player.trace upgraded withdrawing = tr₁ ++ e :: tr₂ ∧
      Upgrades .wallet (RegistryContract.hashOf 3) authority e ∧
      (∀ x ∈ tr₂, moves .wallet x = none) ∧
      (authority.registry = family.registry → ∃ tr₃ q tr₄, tr₁ = tr₃ ++ q :: tr₄ ∧
        Decides (family.kind .wallet) (RegistryContract.hashOf 3) true q ∧
        ∀ x ∈ tr₄, ¬ Decides (family.kind .wallet) (RegistryContract.hashOf 3) false x) := by
  obtain ⟨t, hpath⟩ := family_path
  exact code_approved hpath (by decide)

/-- Without account 5 nobody moves it on, although the approval is withdrawn. -/
theorem code_kept_upgrading :
    (family.player.play upgraded withdrawing).member .wallet
      = ⟨some ⟨.account 5, .contract 0⟩, some (RegistryContract.hashOf 3)⟩ := by
  obtain ⟨t, hpath⟩ := family_path
  have hunsigned : ∀ e ∈ family.player.trace upgraded withdrawing,
      ¬ Signs ModuleKind.wallet (.account 5) e := by
    intro e he
    simp only [withdrawing, Player.trace, List.mem_cons, List.not_mem_nil, or_false] at he
    rcases he with rfl | rfl
    all_goals
      rintro ⟨env, call, hinput, _⟩
      cases hinput
  have hauthority : (upgradingEntry.post.member .wallet).authority
      = some ⟨.account 5, .contract 0⟩ := by decide
  exact (code_kept hpath hauthority hunsigned).trans rfl

end Members
end Upgrade
end Astroid
