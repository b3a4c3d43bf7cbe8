import Astroid.Registry.Routing
import Astroid.Treasury.Effects
import Astroid.Wallet.Lifecycle
import Astroid.Wallet.PolicyGate

/-!
# Contracts that follow a registry

A treasury asks the registry of its organization who a contract is that calls it, and a wallet
asks it whom to consult before it spends.  Both act on nothing but live modules: a contract moves
value through a treasury only as the module the registry names (`contract_callers_registered`),
a wallet spends only as the policy and the budget consent that the registry names, and neither
happens while the registry is frozen (`spends_follow_registry`).  Each such module was registered
by somebody who might manage it.
-/

namespace Astroid

open Outcome

namespace RegistryContract

open Machine

variable {s : State} {org : String} {kind : ModuleKind} {address : Address}

/-- In every run of the registry at `here` to this state, somebody who might manage the module
pointed it at the address, and nobody pointed it elsewhere since. -/
def State.Appointed (here : Address) (s : State) (org : String) (kind : ModuleKind)
    (address : Address) : Prop :=
  ∀ tr t, (machine here).Path anyInput tr s t →
    ∃ tr₁ e tr₂, tr = tr₁ ++ e :: tr₂ ∧ RoutedByManager org kind e ∧
      e.post.moduleAddress org kind = some address ∧ ∀ q ∈ tr₂, routes org kind q = none

theorem State.Live.appointed (h : s.Live org kind address) (here : Address) :
    s.Appointed here org kind address :=
  fun _ _ hpath => routed_by_manager hpath h.registered

/-- Account 1 owns the organization of the registry at `contract 9`, and named its wallet and its
policy. -/
def enrolling : List (Env (.contract 9) × Call) :=
  [(signedAt 9 0 [1], .initializeContract (.account 1)),
    (signedAt 9 0 [1], .registerOrg (.account 1) "org" (.account 1)),
    (signedAt 9 0 [1], .registerModule (.account 1) "org" .wallet (.contract 5)),
    (signedAt 9 0 [1], .registerModule (.account 1) "org" .policy (.contract 6))]

def enrolled : State := (deployment (.contract 9)).play deployed enrolling

end RegistryContract

/-! ## Treasuries -/

namespace TreasuryContract

open RegistryContract (State.Live State.Appointed)

variable {World : Type} {H : TreasuryHost World} {env : Env H.self} {s s' : State World}
  {registry : Address} {view : World → RegistryContract.State}

/-- At `registry` there is a registry contract, which stores what `view` shows. -/
def AsksRegistry (H : TreasuryHost World) (registry : Address)
    (view : World → RegistryContract.State) : Prop :=
  ∀ w org kind, H.lookup w registry org kind
    = (RegistryContract.lookup (view w) org kind).toOption

/-- Whom a call names as the source of value or as its mover, and which module a contract has to be
to do so. -/
def Call.mover : Call → Option (Address × ModuleKind)
  | .deposit src _ _ => some (src, .wallet)
  | .withdraw caller _ _ _ | .batchTransfer caller _ _ | .queueWithdrawal caller _ _ _
  | .queueBatchTransfer caller _ _ | .executeWithdrawal caller _ => some (caller, .multisig)
  | _ => none

/-- A call that moves value verified who moves it. -/
theorem exec_verified {call : Call} {who : Address} {kind : ModuleKind}
    (hmover : call.mover = some (who, kind)) (h : exec H env s call = .ok s') :
    ∃ t, s.treasury = some t ∧ requireVerifiedCaller H s t who kind = .ok () := by
  cases call with
  | deposit src asset amount =>
      cases hmover
      simp only [exec, deposit, State.load, bind_eq_ok, okOr_eq_ok] at h
      obtain ⟨_, _, _, _, t, ht, _, _, _, _, _, hverified, _⟩ := h
      exact ⟨t, ht, hverified⟩
  | withdraw caller asset payee amount =>
      cases hmover
      simp only [exec, withdraw, bind_eq_ok] at h
      obtain ⟨_, _, _, _, _, _, t, hadmin, _, _, _, _, _, hverified, _⟩ := h
      exact ⟨t, (requireAdmin_ok hadmin).1, hverified⟩
  | batchTransfer caller asset payments =>
      cases hmover
      simp only [exec, batchTransfer, bind_eq_ok] at h
      obtain ⟨_, _, _, _, _, _, t, hadmin, _, _, _, _, _, _, _, hverified, _⟩ := h
      exact ⟨t, (requireAdmin_ok hadmin).1, hverified⟩
  | queueWithdrawal caller asset payee amount =>
      cases hmover
      obtain ⟨_, h⟩ := snd_map_ok h
      simp only [queueWithdrawal, bind_eq_ok] at h
      obtain ⟨_, _, _, _, _, _, t, hadmin, _, _, _, _, _, hverified, _⟩ := h
      exact ⟨t, (requireAdmin_ok hadmin).1, hverified⟩
  | queueBatchTransfer caller asset payments =>
      cases hmover
      obtain ⟨_, h⟩ := snd_map_ok h
      simp only [queueBatchTransfer, bind_eq_ok] at h
      obtain ⟨_, _, _, _, _, _, t, hadmin, _, _, _, _, _, hverified, _⟩ := h
      exact ⟨t, (requireAdmin_ok hadmin).1, hverified⟩
  | executeWithdrawal caller id =>
      cases hmover
      simp only [exec, executeWithdrawal, bind_eq_ok] at h
      obtain ⟨_, _, _, _, t, hadmin, _, _, _, _, _, _, _, _, _, _, _, _, _, hverified, _⟩ := h
      exact ⟨t, (requireAdmin_ok hadmin).1, hverified⟩
  | _ => cases hmover

/-- **A contract moves value through a treasury only as a registered module.**  In every run of a
treasury, whenever a call of a contract deposits, withdraws, pays a batch, queues or executes a
withdrawal while a registry is wired, the registry is not frozen and names that contract as
the live module of the organization: its wallet for a deposit, its multisig for the rest.
Somebody who might manage the module registered it there, and nobody moved it since. -/
theorem contract_callers_registered (hasks : AsksRegistry H registry view)
    {tr : List (Entry (State World) (Inputs H))} {t : ℕ}
    (hpath : (machine H).Path Machine.anyInput tr s t)
    {e : Entry (State World) (Inputs H)} (he : e ∈ tr) {env : Env H.self} {call : Call}
    (hinput : e.input = .invoke env call) {n : ℕ} {kind : ModuleKind}
    (hmover : call.mover = some (.contract n, kind)) {treasury : Treasury}
    (htreasury : e.pre.treasury = some treasury) (hregistry : treasury.registry = some registry) :
    State.Live (view e.pre.world) treasury.org kind (.contract n) ∧
      State.Appointed registry (view e.pre.world) treasury.org kind (.contract n) := by
  have hstep := hpath.stepped he
  rw [hinput] at hstep
  obtain ⟨stored, hstored, hverified⟩ := exec_verified hmover hstep
  obtain rfl : treasury = stored := Option.some.inj (htreasury.symm.trans hstored)
  simp only [requireVerifiedCaller, hregistry, require_eq_ok] at hverified
  rw [hasks] at hverified
  have hlive : State.Live (view e.pre.world) treasury.org kind (.contract n) := by
    refine RegistryContract.lookup_eq_ok.1 ?_
    cases hlookup : RegistryContract.lookup (view e.pre.world) treasury.org kind with
    | error fault =>
        rw [hlookup] at hverified
        cases hverified
    | ok address =>
        rw [hlookup] at hverified
        exact congrArg _ (Option.some.inj hverified)
  exact ⟨hlive, hlive.appointed registry⟩

/-! ### A run -/

/-- The treasury at `contract 0`, next to that registry. -/
def registeredHost : TreasuryHost (Ledger × RegistryContract.State) where
  toTokenHost := (ledgerHost (.contract 0)).beside RegistryContract.State
  lookup w registry org kind :=
    if registry = .contract 9 then (RegistryContract.lookup w.2 org kind).toOption else none
  checkTransfer _ w _ _ _ _ _ := some w
  consume _ w _ _ _ _ := some w

theorem registeredHost_asks : AsksRegistry registeredHost (.contract 9) Prod.snd :=
  fun _ _ _ => rfl

/-- `contract 5` holds 40 of the token `contract 7`. -/
def pocket : Ledger := fun asset holder =>
  if asset = .contract 7 ∧ holder = .contract 5 then 40 else 0

def registeredDeployed : State (Ledger × RegistryContract.State) :=
  { deployed pocket with world := (pocket, RegistryContract.enrolled) }

/-- Account 0 sets up the treasury and wires the registry. -/
def wiring : Script Call :=
  [(signedBy 0 [0], .initializeContract "org" (.account 0)),
    (signedBy 0 [0], .addApprovedAsset (.account 0) (.contract 7)),
    (signedBy 0 [0], .setRegistry (.account 0) (some (.contract 9)))]

/-- `contract 5` calls. -/
def byWallet : Env (.contract 0) :=
  { signedBy 1 [] with auths := [.contract 5], current_notMem := by decide }

/-- `contract 5` deposits all it holds. -/
def delivery : Entry (State (Ledger × RegistryContract.State)) (Inputs registeredHost) :=
  let s := (deployment registeredHost).play registeredDeployed wiring
  let call := (byWallet, Call.deposit (.contract 5) (.contract 7) 40)
  ⟨s, .invoke call.1 call.2, (deployment registeredHost).after s call⟩

theorem registeredDeployed_fresh : Fresh registeredHost registeredDeployed := by
  have hnone : ∀ asset, 0 ≤ pocket asset (.contract 0) := by
    intro asset
    simp [pocket]
  exact ⟨rfl, fun _ => rfl, fun _ => rfl, rfl, rfl, fun _ => rfl, rfl, rfl, fun _ => rfl, rfl,
    fun _ => rfl, rfl, fun _ => rfl, rfl, fun _ => rfl, rfl, hnone⟩

/-- It may, since it is the wallet of the organization. -/
theorem contract_callers_registered_delivery :
    delivery.post.assetBalance (.contract 7) = some 40 ∧
      State.Live delivery.pre.world.2 "org" .wallet (.contract 5) ∧
      State.Appointed (.contract 9) delivery.pre.world.2 "org" .wallet (.contract 5) := by
  have hplays : (deployment registeredHost).plays registeredDeployed 0 wiring = true := by decide
  have hpath : (machine registeredHost).Path Machine.anyInput
      ((deployment registeredHost).trace registeredDeployed wiring ++ [delivery])
      delivery.post 1 := by
    refine (Deployment.path_trace registeredDeployed_fresh hplays).step (by decide) trivial
      (Deployment.step_after ?_)
    decide
  refine ⟨by decide, ?_⟩
  exact contract_callers_registered registeredHost_asks hpath
    (List.mem_append_right _ (List.mem_singleton_self _)) rfl rfl rfl rfl

end TreasuryContract

/-! ## Wallets -/

namespace WalletContract

open RegistryContract (State.Live State.Appointed)

variable {World : Type} {H : WalletHost World} {env : Env H.self} {s s' : State World}
  {registry : Address} {view : World → RegistryContract.State} {org : String} {id : ℕ}
  {caller payee asset : Address} {amount : ℤ} {policy budget : Option Address}

/-- What a caller sees of a batch lookup. -/
def answerModules : Result (List (Option RegistryContract.ModuleInfo)) →
    Except (Option Error) (List (Option ModuleInfo))
  | .ok infos => .ok (infos.map (Option.map fun info => ⟨info.address, info.deprecated⟩))
  | .error (.error e) => .error (some e)
  | .error _ => .error none

/-- At `registry` there is a registry contract, which stores what `view` shows. -/
def AsksRegistry (H : WalletHost World) (registry : Address)
    (view : World → RegistryContract.State) : Prop :=
  ∀ w org kinds, H.getModulesBatch w registry org kinds
    = answerModules (RegistryContract.getModulesBatch (view w) (kinds.map fun kind => ⟨org, kind⟩))

/-- The gate of a kind is the live module of that kind. -/
theorem live_iff {r : RegistryContract.State} {kind : ModuleKind} {address : Address}
    (hunfrozen : r.isFrozen = false) :
    ((RegistryContract.readModule r org kind).map fun info =>
      (⟨info.address, info.deprecated⟩ : ModuleInfo)).bind resolveGates.live = some address ↔
      r.Live org kind address := by
  unfold RegistryContract.readModule
  cases hmodule : r.moduleAddress org kind with
  | none =>
      constructor
      · rintro ⟨⟩
      · intro h
        rw [h.registered] at hmodule
        cases hmodule
  | some a =>
      simp only [Option.map_some, Option.bind_some, resolveGates.live]
      cases hflag : (r.moduleDeprecated org kind).getD false with
      | true =>
          constructor
          · rintro ⟨⟩
          · intro h
            rw [h.current] at hflag
            cases hflag
      | false =>
          constructor
          · rintro ⟨⟩
            exact ⟨hunfrozen, hmodule, hflag⟩
          · intro h
            rw [h.registered, Option.some.injEq] at hmodule
            rw [hmodule]
            rfl

/-- The two modules a wallet asks for. -/
theorem getModulesBatch_gates (r : RegistryContract.State) (org : String) :
    RegistryContract.getModulesBatch r [⟨org, .policy⟩, ⟨org, .budget⟩]
      = if r.isFrozen = false then
          .ok [RegistryContract.readModule r org .policy, RegistryContract.readModule r org .budget]
        else .error (.error .registryFrozen) := by
  have hsize : [(⟨org, .policy⟩ : RegistryContract.ModuleId), ⟨org, .budget⟩].length
      ≤ RegistryContract.maxRegistryBatch := by
    simp [RegistryContract.maxRegistryBatch]
  unfold RegistryContract.getModulesBatch
  rw [require_pos hsize, ok_bind]
  cases hfrozen : r.isFrozen with
  | true =>
      have hrefused : RegistryContract.checkFrozen r = .error (.error .registryFrozen) :=
        require_neg (by rw [hfrozen]; decide)
      rw [hrefused]
      rfl
  | false =>
      have hopen : RegistryContract.checkFrozen r = .ok () := require_pos hfrozen
      rw [hopen]
      rfl

/-- The gates of a wallet that follows a registry are the live modules of its organization. -/
theorem resolveGates_live (hasks : AsksRegistry H registry view)
    (hregistry : s.registry = some registry) (horg : s.org = some org)
    (h : resolveGates H s = .ok (policy, budget)) : (view s.world).isFrozen = false ∧
      (∀ a, policy = some a ↔ (view s.world).Live org .policy a) ∧
      (∀ a, budget = some a ↔ (view s.world).Live org .budget a) := by
  have hmodules : H.getModulesBatch s.world registry org [.policy, .budget]
      = answerModules (RegistryContract.getModulesBatch (view s.world)
        [⟨org, .policy⟩, ⟨org, .budget⟩]) := hasks s.world org [.policy, .budget]
  simp only [resolveGates, hregistry, horg, hmodules, getModulesBatch_gates] at h
  cases hfrozen : (view s.world).isFrozen with
  | true =>
      rw [hfrozen] at h
      cases h
  | false =>
      rw [hfrozen] at h
      cases h
      exact ⟨rfl, fun _ => live_iff hfrozen, fun _ => live_iff hfrozen⟩

/-! ### Spends -/

/-- The gates of a spend, in the state that is locked for it. -/
theorem spend_gated {u : Unit} (h : spend H env caller id payee asset amount s = (.ok u, s')) :
    ∃ policy budget s₁ s₂, resolveGates H s.locked = .ok (policy, budget) ∧
      policyGate H env id asset payee amount policy s.locked = .ok s₁ ∧
      budgetGate H env asset caller amount budget s₁ = .ok s₂ := by
  simp only [spend, unlockOnError, preExecuteChecks, Act.bind_ok, Act.onError_ok, Act.step_ok,
    Act.read_ok] at h
  obtain ⟨_, _, hlock, _, _, ⟨⟨policy, budget⟩, _, ⟨hgates, rfl⟩, _, s₁, hpolicy, hbudget⟩, _⟩ := h
  obtain ⟨_, rfl⟩ := lock_ok hlock
  exact ⟨policy, budget, s₁, _, hgates, hpolicy, hbudget⟩

/-- **A spend asks the live modules.** -/
theorem spend_asks {u : Unit} (hasks : AsksRegistry H registry view)
    (hregistry : s.registry = some registry) (horg : s.org = some org)
    (h : spend H env caller id payee asset amount s = (.ok u, s')) :
    (view s.world).isFrozen = false ∧
      (∀ a, (view s.world).Live org .policy a → s.policyBypass id = false →
        ∃ w, H.checkTransfer env s.world a "active" asset payee amount = some w) ∧
      ∀ a budgetId, (view s.world).Live org .budget a → budgetIdFor s asset = some budgetId →
        ∃ w w' left, Consults H env s.world w ∧
          H.consume env w a caller budgetId amount = .ok (w', left) := by
  obtain ⟨policy, budget, s₁, s₂, hgates, hpolicy, hbudget⟩ := spend_gated h
  have hresolved : (view s.world).isFrozen = false ∧
      (∀ a, policy = some a ↔ (view s.world).Live org .policy a) ∧
      (∀ a, budget = some a ↔ (view s.world).Live org .budget a) :=
    resolveGates_live (s := s.locked) hasks hregistry horg hgates
  obtain ⟨hunfrozen, hpolicies, hbudgets⟩ := hresolved
  refine ⟨hunfrozen, ?_, ?_⟩
  · intro a hlive hbypass
    obtain rfl := (hpolicies a).2 hlive
    have hguarded : s.locked.policyBypass id = false := hbypass
    simp only [policyGate, if_pos hguarded, requirePolicyCheck, bind_eq_ok, okOr_eq_ok] at hpolicy
    obtain ⟨w, hcheck, _⟩ := hpolicy
    exact ⟨w, hcheck⟩
  · intro a budgetId hlive henvelope
    obtain rfl := (hbudgets a).2 hlive
    obtain ⟨w, hconsults, rfl⟩ := policyGate_ok hpolicy
    have hid : budgetIdFor { s.locked with world := w } asset = some budgetId := henvelope
    simp only [budgetGate, hid, consumeBudget, bind_eq_ok] at hbudget
    obtain ⟨⟨left, s₃⟩, hconsume, _⟩ := hbudget
    unfold tryConsume at hconsume
    split at hconsume
    · rename_i w' left' hconsumed
      exact ⟨w, w', left', hconsults, hconsumed⟩
    · cases hconsume
    · cases hconsume

/-! ### Batches -/

/-- An action that names a policy was put to the policy of the batch. -/
theorem validateActions_asks {actions : List BatchAction} {totals totals' : BatchTotals}
    (h : validateActions H env id caller policy budget totals actions s = (.ok totals', s'))
    {action : BatchAction} (haction : action ∈ actions) (hnamed : action.policyId ≠ "") :
    ∃ a w w', policy = some a ∧ Consults H env s.world w ∧ H.checkTransfer env w a action.policyId
      action.asset action.recipient action.amount = some w' := by
  induction actions generalizing totals s with
  | nil => cases haction
  | cons first rest ih =>
      rw [validateActions, Act.bind_ok] at h
      obtain ⟨totals₁, s₁, hfirst, hrest⟩ := h
      rcases List.mem_cons.1 haction with rfl | haction
      · simp only [validateAction, checkActionPolicy, if_neg hnamed, Act.bind_ok, Act.read_ok,
          Act.step_ok, okOr_eq_ok] at hfirst
        obtain ⟨_, _, ⟨_, rfl⟩, _, _, ⟨_, rfl⟩, _, _, ⟨a, _, ⟨hpolicy, rfl⟩, hcheck⟩, _⟩ := hfirst
        simp only [requirePolicyCheck, bind_eq_ok, okOr_eq_ok] at hcheck
        obtain ⟨w, hchecked, _⟩ := hcheck
        exact ⟨a, _, w, hpolicy, .refl, hchecked⟩
      · obtain ⟨w₁, hconsults, rfl⟩ := validateAction_ok hfirst
        obtain ⟨a, w, w', hpolicy, hlater, hchecked⟩ := ih hrest haction
        exact ⟨a, w, w', hpolicy, hconsults.trans hlater, hchecked⟩

/-- **A batch asks the live policy**, for each action that names one. -/
theorem batch_asks {actions : List BatchAction} {receipt : BatchReceipt}
    (hasks : AsksRegistry H registry view) (hregistry : s.registry = some registry)
    (horg : s.org = some org)
    (h : batchExecuteValidated H env caller id actions s = (.ok receipt, s')) :
    (view s.world).isFrozen = false ∧ ∀ action ∈ actions, action.policyId ≠ "" →
      ∃ a w w', (view s.world).Live org .policy a ∧ Consults H env s.world w ∧
        H.checkTransfer env w a action.policyId action.asset action.recipient action.amount
          = some w' := by
  simp only [batchExecuteValidated, unlockOnError, Act.bind_ok, Act.onError_ok, Act.step_ok,
    Act.read_ok, Except.ok.injEq] at h
  obtain ⟨_, _, ⟨_, rfl⟩, _, _, ⟨_, rfl⟩, _, _, ⟨_, rfl⟩, _, _, ⟨_, rfl⟩, _, _, ⟨_, rfl⟩, _, _,
    hlock, ⟨policy, budget⟩, _, ⟨hgates, rfl⟩, _, _, ⟨rfl, rfl⟩, totals, s₁, hvalid, _⟩ := h
  obtain ⟨_, rfl⟩ := lock_ok hlock
  have hresolved : (view s.world).isFrozen = false ∧
      (∀ a, policy = some a ↔ (view s.world).Live org .policy a) ∧
      (∀ a, budget = some a ↔ (view s.world).Live org .budget a) :=
    resolveGates_live (s := s.locked) hasks hregistry horg hgates
  refine ⟨hresolved.1, ?_⟩
  intro action haction hnamed
  obtain ⟨a, w, w', hpolicy, hconsults, hchecked⟩ := validateActions_asks hvalid haction hnamed
  have hwired : ({ s with reentrancyLock := true } : State World).registry ≠ none := by
    rw [hregistry]
    exact Option.some_ne_none _
  rw [if_neg hwired] at hpolicy
  exact ⟨a, w, w', (hresolved.2.1 a).1 hpolicy, hconsults, hchecked⟩

/-! ### Runs -/

/-- What moves value out of a wallet asks live modules of the registry, which are appointed. -/
structure FollowsRegistry (H : WalletHost World) (registry : Address) (org : String) (id : ℕ)
    (view : World → RegistryContract.State) (env : Env H.self) (s : State World) (call : Call) :
    Prop where
  unfrozen : (view s.world).isFrozen = false
  policy : ∀ asset payee amount, Spends s call id asset payee amount → s.policyBypass id = false →
    ∀ a, (view s.world).Live org .policy a → (view s.world).Appointed registry org .policy a ∧
      ∃ w, H.checkTransfer env s.world a "active" asset payee amount = some w
  budget : ∀ asset payee amount, Spends s call id asset payee amount → ∀ budgetId,
    budgetIdFor s asset = some budgetId → ∀ a, (view s.world).Live org .budget a →
    (view s.world).Appointed registry org .budget a ∧ ∃ caller w w' left,
      Consults H env s.world w ∧ H.consume env w a caller budgetId amount = .ok (w', left)
  batch : ∀ caller actions, call = .batchExecuteValidated caller id actions →
    ∀ action ∈ actions, action.policyId ≠ "" → ∃ a w w', (view s.world).Live org .policy a ∧
      (view s.world).Appointed registry org .policy a ∧ Consults H env s.world w ∧
      H.checkTransfer env w a action.policyId action.asset action.recipient action.amount = some w'

/-- **A wallet spends as the registry says.**  In every run of a wallet contract, whenever a call
moves value out of a wallet while a registry is wired with an organization, the registry is
not frozen; the policy and the budget it names as live were asked and agreed, and in a batch
each action that names a policy was put to that policy; and each of them was registered by
somebody who might manage it, and nobody moved it since. -/
theorem spends_follow_registry (hasks : AsksRegistry H registry view)
    {tr : List (Entry (State World) (Inputs H))} {t : ℕ}
    (hpath : (machine H).Path Machine.anyInput tr s t) {e : Entry (State World) (Inputs H)}
    (he : e ∈ tr) {env : Env H.self} {call : Call} (hinput : e.input = .invoke env call)
    (hmoves : call.Moves id) (hregistry : e.pre.registry = some registry)
    (horg : e.pre.org = some org) : FollowsRegistry H registry org id view env e.pre call := by
  have hstep := hpath.stepped he
  rw [hinput] at hstep
  have hasked {asset payee : Address} {amount : ℤ} (hspends : Spends e.pre call id asset payee amount) :
      ∃ caller, (view e.pre.world).isFrozen = false ∧
        (∀ a, (view e.pre.world).Live org .policy a → e.pre.policyBypass id = false →
          ∃ w, H.checkTransfer env e.pre.world a "active" asset payee amount = some w) ∧
        ∀ a budgetId, (view e.pre.world).Live org .budget a → budgetIdFor e.pre asset = some budgetId →
          ∃ w w' left, Consults H env e.pre.world w ∧
            H.consume env w a caller budgetId amount = .ok (w', left) := by
    obtain ⟨caller, u, hspend⟩ := spend_of_spends hspends hstep
    exact ⟨caller, spend_asks hasks hregistry horg hspend⟩
  have hbatched {caller : Address} {actions : List BatchAction}
      (hcall : call = .batchExecuteValidated caller id actions) :
      (view e.pre.world).isFrozen = false ∧ ∀ action ∈ actions, action.policyId ≠ "" →
        ∃ a w w', (view e.pre.world).Live org .policy a ∧ Consults H env e.pre.world w ∧
          H.checkTransfer env w a action.policyId action.asset action.recipient action.amount
            = some w' := by
    subst hcall
    obtain ⟨_, h⟩ := snd_map_ok hstep
    exact batch_asks hasks hregistry horg (Act.commit_eq_ok.1 h)
  refine ⟨?_, ?_, ?_, ?_⟩
  · cases call with
    | transfer caller w payee asset amount =>
        obtain rfl : w = id := hmoves
        obtain ⟨_, hunfrozen, _⟩ := hasked .transfer
        exact hunfrozen
    | withdraw caller w asset amount =>
        obtain rfl : w = id := hmoves
        obtain ⟨_, h⟩ := snd_map_ok hstep
        obtain ⟨wallet, hwallet, _⟩ := (withdraw_gates (Act.commit_eq_ok.1 h)).active
        obtain ⟨_, hunfrozen, _⟩ := hasked (.withdraw hwallet)
        exact hunfrozen
    | batchExecuteValidated caller w actions =>
        obtain rfl : w = id := hmoves
        exact (hbatched rfl).1
    | _ => exact hmoves.elim
  · intro asset payee amount hspends hbypass a hlive
    obtain ⟨_, _, hpolicy, _⟩ := hasked hspends
    exact ⟨hlive.appointed registry, hpolicy a hlive hbypass⟩
  · intro asset payee amount hspends budgetId henvelope a hlive
    obtain ⟨caller, _, _, hbudget⟩ := hasked hspends
    obtain ⟨w, w', left, hconsults, hconsumed⟩ := hbudget a budgetId hlive henvelope
    exact ⟨hlive.appointed registry, caller, w, w', left, hconsults, hconsumed⟩
  · intro caller actions hcall action haction hnamed
    obtain ⟨a, w, w', hlive, hconsults, hchecked⟩ := (hbatched hcall).2 action haction hnamed
    exact ⟨a, w, w', hlive, hlive.appointed registry, hconsults, hchecked⟩

/-! ### A run -/

/-- The wallet contract at `contract 0`, next to that registry. -/
def registeredHost : WalletHost (Ledger × RegistryContract.State) where
  toTokenHost := (ledgerHost (.contract 0)).beside RegistryContract.State
  getModulesBatch w registry org kinds :=
    if registry = .contract 9 then
      answerModules (RegistryContract.getModulesBatch w.2 (kinds.map fun kind => ⟨org, kind⟩))
    else
      .error none
  checkTransfer _ w _ _ _ _ _ := some w
  consume _ w _ _ _ _ := .ok (w, 0)
  invoke _ _ _ := .error none

theorem registeredHost_asks : AsksRegistry registeredHost (.contract 9) Prod.snd :=
  fun _ _ _ => rfl

def registeredDeployed : State (Ledger × RegistryContract.State) :=
  { deployed funded with world := (funded, RegistryContract.enrolled) }

/-- The contract is wired to the registry after account 1 has opened a wallet. -/
def wired : Script Call :=
  opening ++ [(signedBy 0 [3], .setRegistry (.account 3) (.contract 9)),
    (signedBy 0 [3], .setOrg (.account 3) "org")]

/-- The owner transfers 60. -/
def payout : Entry (State (Ledger × RegistryContract.State)) (Inputs registeredHost) :=
  let s := (deployment registeredHost).play registeredDeployed wired
  let call := (signedBy 1 [1], Call.transfer (.account 1) 1 (.account 2) (.contract 7) 60)
  ⟨s, .invoke call.1 call.2, (deployment registeredHost).after s call⟩

theorem registeredDeployed_fresh : Fresh registeredHost registeredDeployed := by
  have hnone : ∀ asset, 0 ≤ funded asset (.contract 0) := by
    intro asset
    simp [funded]
  exact ⟨rfl, rfl, rfl, rfl, rfl, fun _ => rfl, fun _ _ => rfl, rfl, fun _ => rfl, fun _ _ => rfl,
    fun _ _ => rfl, fun _ => rfl, fun _ => rfl, rfl, rfl, rfl, rfl, fun _ => rfl,
    fun _ _ => rfl, hnone⟩

/-- The policy of the organization agreed. -/
theorem spends_follow_registry_payout :
    payout.post.balanceOf 1 (.contract 7) = 40 ∧
      payout.pre.world.2.Live "org" .policy (.contract 6) ∧
      FollowsRegistry registeredHost (.contract 9) "org" 1 Prod.snd (signedBy 1 [1]) payout.pre
        (.transfer (.account 1) 1 (.account 2) (.contract 7) 60) := by
  have hplays : (deployment registeredHost).plays registeredDeployed 0 wired = true := by decide
  have hpath : (machine registeredHost).Path Machine.anyInput
      ((deployment registeredHost).trace registeredDeployed wired ++ [payout]) payout.post 1 := by
    refine (Deployment.path_trace registeredDeployed_fresh hplays).step (by decide) trivial
      (Deployment.step_after ?_)
    decide
  refine ⟨by decide, ⟨by decide, by decide, by decide⟩, ?_⟩
  exact spends_follow_registry registeredHost_asks hpath
    (List.mem_append_right _ (List.mem_singleton_self _)) rfl rfl rfl rfl

end WalletContract
end Astroid
