import Astroid.Wallet.Machine

/-!
# What a successful wallet call did

Every call that returns is one of four things (`exec_effect`): a change that
moves no value, a deposit into one wallet, a spend out of one wallet, or a batch.
A spend debits what it sends; a batch makes its sub-calls and leaves every
tracked balance alone.
-/

namespace Astroid
namespace WalletContract

open Outcome

variable {World : Type} {H : WalletHost World} {env : Env H.self} {s s' : State World}

/-! ## Calls into other contracts -/

variable (H) in
/-- Some calls into policies and budgets. -/
def Consults (env : Env H.self) : World → World → Prop :=
  Relation.ReflTransGen fun w w' =>
    (∃ policy id asset payee amount,
        H.checkTransfer env w policy id asset payee amount = some w') ∨
      ∃ budget caller id amount remaining,
        H.consume env w budget caller id amount = .ok (w', remaining)

/-- The sub-calls of a batch, one after the other. -/
inductive Invokes (H : WalletHost World) (env : Env H.self) :
    List BatchAction → World → World → Prop
  | nil {w : World} : Invokes H env [] w w
  | cons {w w₁ w' : World} {action : BatchAction} {rest : List BatchAction} :
      H.invoke env w action.call = .ok w₁ → Invokes H env rest w₁ w' →
      Invokes H env (action :: rest) w w'

/-! ## The gates -/

theorem lock_ok (h : s.lock = .ok s') :
    s.reentrancyLock = false ∧ s' = { s with reentrancyLock := true } := by
  simp only [State.lock, bind_eq_ok, require_eq_ok, pure_eq_ok] at h
  obtain ⟨_, hfree, rfl⟩ := h
  exact ⟨hfree, rfl⟩

theorem requirePolicyCheck_ok {policy asset recipient : Address} {policyId : String} {amount : ℤ}
    (h : requirePolicyCheck H env policy policyId asset recipient amount s = .ok s') :
    ∃ w, Consults H env s.world w ∧ s' = { s with world := w } := by
  simp only [requirePolicyCheck, bind_eq_ok, okOr_eq_ok, pure_eq_ok] at h
  obtain ⟨w, hcheck, rfl⟩ := h
  exact ⟨w, .single (.inl ⟨_, _, _, _, _, hcheck⟩), rfl⟩

theorem tryConsume_ok {budget caller : Address} {budgetId : String} {amount remaining : ℤ}
    (h : tryConsume H env budget budgetId caller amount s = .ok (remaining, s')) :
    ∃ w, Consults H env s.world w ∧ s' = { s with world := w } := by
  unfold tryConsume at h
  split at h
  · rename_i w rest hconsume
    cases h
    exact ⟨w, .single (.inr ⟨_, _, _, _, _, hconsume⟩), rfl⟩
  · cases h
  · cases h

theorem consumeBudget_ok {budget caller : Address} {budgetId : String} {amount : ℤ}
    (h : consumeBudget H env budget budgetId caller amount s = .ok s') :
    ∃ w, Consults H env s.world w ∧ s' = { s with world := w } := by
  simp only [consumeBudget, bind_eq_ok, pure_eq_ok] at h
  obtain ⟨⟨remaining, s₁⟩, hconsume, rfl⟩ := h
  exact tryConsume_ok hconsume

theorem policyGate_ok {walletId : ℕ} {asset recipient : Address} {amount : ℤ}
    {policy : Option Address}
    (h : policyGate H env walletId asset recipient amount policy s = .ok s') :
    ∃ w, Consults H env s.world w ∧ s' = { s with world := w } := by
  unfold policyGate at h
  split at h
  · split at h
    · exact requirePolicyCheck_ok h
    · cases h
      exact ⟨_, .refl, rfl⟩
  · cases h
    exact ⟨_, .refl, rfl⟩

theorem budgetGate_ok {asset caller : Address} {amount : ℤ} {budget : Option Address}
    (h : budgetGate H env asset caller amount budget s = .ok s') :
    ∃ w, Consults H env s.world w ∧ s' = { s with world := w } := by
  unfold budgetGate at h
  split at h
  · exact consumeBudget_ok h
  · cases h
    exact ⟨_, .refl, rfl⟩

/-- The gates of a spend touch nothing but the world. -/
theorem preExecuteChecks_ok {walletId : ℕ} {asset recipient caller : Address} {amount : ℤ}
    {u : Unit}
    (h : preExecuteChecks H env walletId asset recipient amount caller s = (.ok u, s')) :
    ∃ w, Consults H env s.world w ∧ s' = { s with world := w } := by
  simp only [preExecuteChecks, Act.bind_ok, Act.read_ok, Act.step_ok] at h
  obtain ⟨_, _, ⟨_, rfl⟩, _, s₁, hpolicy, hbudget⟩ := h
  obtain ⟨w₁, hconsults₁, rfl⟩ := policyGate_ok hpolicy
  obtain ⟨w₂, hconsults₂, rfl⟩ := budgetGate_ok hbudget
  exact ⟨w₂, hconsults₁.trans hconsults₂, rfl⟩

theorem velocityFlush_eq (s : State World) (walletId : ℕ) (entries : VelocityEntries) :
    ∃ usage, velocityFlush s walletId entries = { s with velocityUsage := usage } := by
  induction entries generalizing s with
  | nil => exact ⟨s.velocityUsage, rfl⟩
  | cons entry rest ih =>
      obtain ⟨asset, _ | limit, _ | usage⟩ := entry
      · exact ih s
      · exact ih s
      · exact ih s
      · obtain ⟨usage', h⟩ := ih { s with
          velocityUsage := State.update₂ s.velocityUsage walletId asset (some usage) }
        exact ⟨usage', h⟩

theorem enforceVelocity_ok {walletId : ℕ} {asset : Address} {amount : ℤ}
    (h : enforceVelocity H env walletId asset amount s = .ok s') :
    ∃ usage, s' = { s with velocityUsage := usage } := by
  simp only [enforceVelocity, bind_eq_ok, pure_eq_ok] at h
  obtain ⟨entries, _, rfl⟩ := h
  exact velocityFlush_eq s walletId entries

theorem enforceRateLimit_ok {walletId count : ℕ} {amount : ℤ}
    (h : enforceRateLimit H env walletId amount count s = .ok s') :
    ∃ usage, s' = { s with rateLimitUsage := usage } := by
  unfold enforceRateLimit at h
  split at h
  · cases h
    exact ⟨_, rfl⟩
  · split at h
    · cases h
      exact ⟨_, rfl⟩
    · simp only [bind_eq_ok, pure_eq_ok] at h
      obtain ⟨_, _, _, _, _, _, _, _, _, _, _, _, _, _, _, _, rfl⟩ := h
      exact ⟨_, rfl⟩

theorem debit_ok {walletId : ℕ} {asset : Address} {amount : ℤ}
    (h : s.debit walletId asset amount = .ok s') :
    amount ≤ s.balanceOf walletId asset ∧
      s' = s.storeBalance walletId asset (s.balanceOf walletId asset - amount) := by
  simp only [State.debit, bind_eq_ok, require_eq_ok, checkedSub_eq_ok, pure_eq_ok] at h
  obtain ⟨_, hcovered, _, ⟨_, rfl⟩, rfl⟩ := h
  exact ⟨hcovered, rfl⟩

theorem safeTransferOut_ok {asset payee : Address} {amount : ℤ}
    (h : safeTransferOut H asset payee amount s = .ok s') :
    ∃ w, 0 < amount ∧ H.transfer s.world asset H.self payee amount = .ok w ∧
      s' = { s with world := w } := by
  simp only [safeTransferOut, bind_eq_ok, pure_eq_ok] at h
  obtain ⟨w, htransfer, rfl⟩ := h
  obtain ⟨hpos, htransfer⟩ := H.safeTransfer_ok htransfer
  exact ⟨w, hpos, htransfer, rfl⟩

/-! ## Spends and batches -/

/-- A spend: the gates are consulted, one tracked balance that covers the amount is
debited, and that amount leaves custody. -/
structure Spent (H : WalletHost World) (env : Env H.self) (s s' : State World) (walletId : ℕ)
    (payee asset : Address) (amount : ℤ) : Prop where
  positive : 0 < amount
  covered : amount ≤ s.balanceOf walletId asset
  world : ∃ w, Consults H env s.world w ∧ H.transfer w asset H.self payee amount = .ok s'.world
  state : ∃ velocityUsage rateLimitUsage,
    s' = { s.storeBalance walletId asset (s.balanceOf walletId asset - amount) with
      world := s'.world
      velocityUsage := velocityUsage
      rateLimitUsage := rateLimitUsage }

/-- What happens under the lock of a spend. -/
theorem spend_ok {caller payee asset : Address} {walletId : ℕ} {amount : ℤ} {u : Unit}
    (h : spend H env caller walletId payee asset amount s = (.ok u, s')) :
    s.reentrancyLock = false ∧ Spent H env s s' walletId payee asset amount := by
  simp only [spend, unlockOnError, Act.bind_ok, Act.onError_ok, Act.step_ok, Act.read_ok,
    Except.ok.injEq] at h
  obtain ⟨_, _, hlock, _, _, hchecks, _, _, hvelocity, _, _, hrate, _, _, ⟨_, rfl⟩, _, _, hdebit,
    _, _, hsafe, rfl⟩ := h
  obtain ⟨hfree, rfl⟩ := lock_ok hlock
  obtain ⟨w, hconsults, rfl⟩ := preExecuteChecks_ok hchecks
  obtain ⟨velocityUsage, rfl⟩ := enforceVelocity_ok hvelocity
  obtain ⟨rateLimitUsage, rfl⟩ := enforceRateLimit_ok hrate
  obtain ⟨hcovered, rfl⟩ := debit_ok hdebit
  obtain ⟨w', hpos, htransfer, rfl⟩ := safeTransferOut_ok hsafe
  refine ⟨hfree, hpos, hcovered, ⟨w, hconsults, htransfer⟩, velocityUsage, rateLimitUsage, ?_⟩
  simp only [State.unlock, State.storeBalance, hfree]
  rfl

theorem transfer_ok {caller payee asset : Address} {walletId : ℕ} {amount : ℤ} {u : Unit}
    (h : transfer H env caller walletId payee asset amount s = (.ok u, s')) :
    Spent H env s s' walletId payee asset amount := by
  simp only [transfer, Act.bind_ok, Act.read_ok] at h
  obtain ⟨_, _, ⟨_, rfl⟩, _, _, ⟨_, rfl⟩, _, _, ⟨_, rfl⟩, _, _, ⟨_, rfl⟩, _, _, ⟨_, rfl⟩, h⟩ := h
  exact (spend_ok h).2

/-- A withdrawal is a spend to the owner. -/
theorem withdraw_ok {caller asset : Address} {walletId : ℕ} {amount : ℤ} {u : Unit}
    (h : withdraw H env caller walletId asset amount s = (.ok u, s')) :
    ∃ owner, Spent H env s s' walletId owner asset amount := by
  simp only [withdraw, Act.bind_ok, Act.read_ok] at h
  obtain ⟨_, _, ⟨_, rfl⟩, _, _, ⟨_, rfl⟩, wallet, _, ⟨_, rfl⟩, _, _, ⟨_, rfl⟩, h⟩ := h
  exact ⟨wallet.owner, (spend_ok h).2⟩

theorem checkActionPolicy_ok {policy : Option Address} {action : BatchAction} {u : Unit}
    (h : checkActionPolicy H env policy action s = (.ok u, s')) :
    ∃ w, Consults H env s.world w ∧ s' = { s with world := w } := by
  unfold checkActionPolicy at h
  split at h
  · rw [Act.pure_ok] at h
    obtain ⟨_, rfl⟩ := h
    exact ⟨_, .refl, rfl⟩
  · simp only [Act.bind_ok, Act.read_ok, Act.step_ok] at h
    obtain ⟨_, _, ⟨_, rfl⟩, hcheck⟩ := h
    exact requirePolicyCheck_ok hcheck

theorem consumeActionBudget_ok {budget : Option Address} {caller : Address}
    {remaining remaining' : ℤ} {action : BatchAction}
    (h : consumeActionBudget H env budget caller remaining action s = (.ok remaining', s')) :
    ∃ w, Consults H env s.world w ∧ s' = { s with world := w } := by
  unfold consumeActionBudget at h
  split at h
  · rw [Act.pure_ok] at h
    obtain ⟨_, rfl⟩ := h
    exact ⟨_, .refl, rfl⟩
  · simp only [Act.bind_ok, Act.read_ok, Act.returning_ok] at h
    obtain ⟨_, _, ⟨_, rfl⟩, hconsume⟩ := h
    exact tryConsume_ok hconsume

theorem validateAction_ok {walletId : ℕ} {caller : Address} {policy budget : Option Address}
    {totals totals' : BatchTotals} {action : BatchAction}
    (h : validateAction H env walletId caller policy budget totals action s = (.ok totals', s')) :
    ∃ w, Consults H env s.world w ∧ s' = { s with world := w } := by
  simp only [validateAction, Act.bind_ok, Act.read_ok, Act.pure_ok] at h
  obtain ⟨_, _, ⟨_, rfl⟩, _, _, ⟨_, rfl⟩, _, _, hpolicy, _, _, ⟨_, rfl⟩, _, _, hbudget, _, rfl⟩ := h
  obtain ⟨w₁, hconsults₁, rfl⟩ := checkActionPolicy_ok hpolicy
  obtain ⟨w₂, hconsults₂, rfl⟩ := consumeActionBudget_ok hbudget
  exact ⟨w₂, hconsults₁.trans hconsults₂, rfl⟩

/-- The first phase of a batch touches nothing but the world. -/
theorem validateActions_ok {walletId : ℕ} {caller : Address} {policy budget : Option Address}
    {totals totals' : BatchTotals} {actions : List BatchAction}
    (h : validateActions H env walletId caller policy budget totals actions s
      = (.ok totals', s')) :
    ∃ w, Consults H env s.world w ∧ s' = { s with world := w } := by
  induction actions generalizing totals s with
  | nil =>
      rw [validateActions, Act.pure_ok] at h
      obtain ⟨_, rfl⟩ := h
      exact ⟨_, .refl, rfl⟩
  | cons action rest ih =>
      rw [validateActions, Act.bind_ok] at h
      obtain ⟨totals₁, s₁, hfirst, hrest⟩ := h
      obtain ⟨w₁, hconsults₁, rfl⟩ := validateAction_ok hfirst
      obtain ⟨w₂, hconsults₂, rfl⟩ := ih hrest
      exact ⟨w₂, hconsults₁.trans hconsults₂, rfl⟩

theorem executeCall_ok {call : ContractCall} (h : executeCall H env call s = .ok s') :
    ∃ w, H.invoke env s.world call = .ok w ∧ s' = { s with world := w } := by
  unfold executeCall at h
  split at h
  · rename_i w hinvoke
    cases h
    exact ⟨w, hinvoke, rfl⟩
  · cases h
  · cases h

/-- The second phase makes the sub-calls and nothing else. -/
theorem executeCalls_ok {actions : List BatchAction} {u : Unit}
    (h : executeCalls H env actions s = (.ok u, s')) :
    ∃ w, Invokes H env actions s.world w ∧ s' = { s with world := w } := by
  induction actions generalizing s with
  | nil =>
      rw [executeCalls, Act.pure_ok] at h
      obtain ⟨_, rfl⟩ := h
      exact ⟨_, .nil, rfl⟩
  | cons action rest ih =>
      simp only [executeCalls, Act.bind_ok, Act.step_ok] at h
      obtain ⟨_, s₁, hfirst, hrest⟩ := h
      obtain ⟨w₁, hinvoke, rfl⟩ := executeCall_ok hfirst
      obtain ⟨w₂, hinvokes, rfl⟩ := ih hrest
      exact ⟨w₂, .cons hinvoke hinvokes, rfl⟩

/-- A batch: the gates are consulted, the sub-calls are made, and the only records that
change are those of the windows. -/
structure Batched (H : WalletHost World) (env : Env H.self) (s s' : State World)
    (actions : List BatchAction) : Prop where
  world : ∃ w, Consults H env s.world w ∧ Invokes H env actions w s'.world
  state : ∃ velocityUsage rateLimitUsage, s' = { s with
    world := s'.world
    velocityUsage := velocityUsage
    rateLimitUsage := rateLimitUsage }

theorem batchExecuteValidated_ok {caller : Address} {walletId : ℕ} {actions : List BatchAction}
    {receipt : BatchReceipt}
    (h : batchExecuteValidated H env caller walletId actions s = (.ok receipt, s')) :
    Batched H env s s' actions := by
  simp only [batchExecuteValidated, unlockOnError, Act.bind_ok, Act.onError_ok, Act.step_ok,
    Act.read_ok, Act.pure_ok, Except.ok.injEq] at h
  obtain ⟨_, _, ⟨_, rfl⟩, _, _, ⟨_, rfl⟩, _, _, ⟨_, rfl⟩, _, _, ⟨_, rfl⟩, _, _, ⟨_, rfl⟩, _, _, hlock,
    _, _, ⟨_, rfl⟩, _, _, ⟨_, rfl⟩, totals, _, hvalid, _, _, hrate, _, _, hflush, _, _, hcalls,
    _, _, hunlock, _, rfl⟩ := h
  obtain ⟨hfree, rfl⟩ := lock_ok hlock
  obtain ⟨w, hconsults, rfl⟩ := validateActions_ok hvalid
  obtain ⟨rateLimitUsage, rfl⟩ := enforceRateLimit_ok hrate
  obtain ⟨velocityUsage, hflushed⟩ := velocityFlush_eq _ walletId totals.velocity
  rw [hflushed] at hflush
  subst hflush
  obtain ⟨w', hinvokes, rfl⟩ := executeCalls_ok hcalls
  subst hunlock
  refine ⟨⟨w, hconsults, hinvokes⟩, velocityUsage, rateLimitUsage, ?_⟩
  simp only [State.unlock, hfree]

/-! ## Every call -/

/-- No value moved. -/
structure Same (s s' : State World) : Prop where
  world : s'.world = s.world
  balance : s'.balance = s.balance

namespace Same

theorem of_pure {s₁ : State World} (h : pure s₁ = (.ok s' : Result _)) (hsame : Same s s₁) :
    Same s s' :=
  of_pure_ok h hsame

/-- A check before the rest changes nothing. -/
theorem of_bind {α : Type} {r : Result α} {f : α → Result (State World)}
    (h : r >>= f = .ok s') (hrest : ∀ a, f a = .ok s' → Same s s') : Same s s' :=
  of_bind_ok h hrest

end Same

/-- What a call that returned did. -/
inductive Effect (H : WalletHost World) (env : Env H.self) (s : State World) (call : Call)
    (s' : State World) : Prop
  | unmoved : Same s s' → Effect H env s call s'
  | deposited (walletId : ℕ) (src asset : Address) (amount : ℤ) :
      call = .deposit walletId src asset amount → 0 < amount → src ∈ env.auths →
      H.transfer s.world asset src H.self amount = .ok s'.world →
      s' = { s.storeBalance walletId asset (s.balanceOf walletId asset + amount) with
        world := s'.world } →
      Effect H env s call s'
  | spent (walletId : ℕ) (payee asset : Address) (amount : ℤ) :
      Spent H env s s' walletId payee asset amount → Effect H env s call s'
  | batched (caller : Address) (walletId : ℕ) (actions : List BatchAction) :
      call = .batchExecuteValidated caller walletId actions → Batched H env s s' actions →
      Effect H env s call s'

theorem deposit_effect {walletId : ℕ} {src asset : Address} {amount : ℤ}
    (h : deposit H env s walletId src asset amount = .ok s') :
    Effect H env s (.deposit walletId src asset amount) s' := by
  simp only [deposit, State.credit, bind_eq_ok, requirePositiveAmount_eq_ok, requireAuth_eq_ok,
    TokenHost.transferOrTrap_eq_ok, checkedAdd_eq_ok, pure_eq_ok] at h
  obtain ⟨_, hpos, _, hauth, _, _, _, _, w, htransfer, _, ⟨_, rfl⟩, rfl⟩ := h
  exact .deposited walletId src asset amount rfl hpos hauth htransfer rfl

theorem setRateLimit_same {caller : Address} {walletId maxCount windowSeconds : ℕ}
    {maxVolume : ℤ}
    (h : setRateLimit H env s caller walletId maxVolume maxCount windowSeconds = .ok s') :
    Same s s' := by
  simp only [setRateLimit, bind_eq_ok] at h
  obtain ⟨_, _, _, _, _, _, h⟩ := h
  split at h
  · exact .of_pure h ⟨rfl, rfl⟩
  · exact .of_bind h fun _ h => .of_pure h ⟨rfl, rfl⟩

theorem createWallet_same {owner : Address} {id : ℕ}
    (h : createWallet H env s owner = .ok (id, s')) : Same s s' := by
  simp only [createWallet, bind_eq_ok, pure_eq_ok, Prod.mk.injEq] at h
  obtain ⟨_, _, _, _, _, _, _, rfl⟩ := h
  exact ⟨rfl, rfl⟩

/-- **Every call that returned did one of these things.** -/
theorem exec_effect {call : Call} (h : exec H env s call = .ok s') : Effect H env s call s' := by
  cases call with
  | initializeContract admin => exact .unmoved (.of_bind h fun _ h => .of_pure h ⟨rfl, rfl⟩)
  | setGuardian caller guardian => exact .unmoved (.of_bind h fun _ h => .of_pure h ⟨rfl, rfl⟩)
  | emergencyPause caller =>
      exact .unmoved (.of_bind h fun _ h => .of_bind h fun _ h => .of_pure h ⟨rfl, rfl⟩)
  | emergencyUnpause caller =>
      exact .unmoved (.of_bind h fun _ h => .of_bind h fun _ h => .of_pure h ⟨rfl, rfl⟩)
  | createWallet owner =>
      obtain ⟨id, h⟩ := snd_map_ok h
      exact .unmoved (createWallet_same h)
  | setPolicy caller policy => exact .unmoved (.of_bind h fun _ h => .of_pure h ⟨rfl, rfl⟩)
  | clearPolicy caller =>
      exact .unmoved (.of_bind h fun _ h => .of_bind h fun _ h => .of_pure h ⟨rfl, rfl⟩)
  | setPolicyBypass caller walletId bypass =>
      exact .unmoved (.of_bind h fun _ h => .of_bind h fun _ h => .of_pure h ⟨rfl, rfl⟩)
  | setVelocityLimit caller walletId asset maxAmount windowSeconds =>
      exact .unmoved (.of_bind h fun _ h => .of_bind h fun _ h => .of_bind h fun _ h =>
        .of_bind h fun _ h => .of_pure h ⟨rfl, rfl⟩)
  | clearVelocityLimit caller walletId asset =>
      exact .unmoved (.of_bind h fun _ h => .of_bind h fun _ h => .of_pure h ⟨rfl, rfl⟩)
  | setRateLimit caller walletId maxVolume maxCount windowSeconds =>
      exact .unmoved (setRateLimit_same h)
  | clearRateLimit caller walletId =>
      exact .unmoved (.of_bind h fun _ h => .of_bind h fun _ h => .of_pure h ⟨rfl, rfl⟩)
  | deposit walletId src asset amount => exact deposit_effect h
  | transfer caller walletId payee asset amount =>
      obtain ⟨_, h⟩ := snd_map_ok h
      exact .spent walletId payee asset amount (transfer_ok (Act.commit_eq_ok.1 h))
  | withdraw caller walletId asset amount =>
      obtain ⟨_, h⟩ := snd_map_ok h
      obtain ⟨owner, hspent⟩ := withdraw_ok (Act.commit_eq_ok.1 h)
      exact .spent walletId owner asset amount hspent
  | freeze caller walletId =>
      exact .unmoved (.of_bind h fun _ h => .of_bind h fun _ h => .of_pure h ⟨rfl, rfl⟩)
  | unfreeze caller walletId =>
      exact .unmoved (.of_bind h fun _ h => .of_bind h fun _ h => .of_pure h ⟨rfl, rfl⟩)
  | pause caller walletId =>
      exact .unmoved (.of_bind h fun _ h => .of_bind h fun _ h => .of_pure h ⟨rfl, rfl⟩)
  | unpause caller walletId =>
      exact .unmoved (.of_bind h fun _ h => .of_bind h fun _ h => .of_pure h ⟨rfl, rfl⟩)
  | archive caller walletId =>
      exact .unmoved (.of_bind h fun _ h => .of_bind h fun _ h => .of_pure h ⟨rfl, rfl⟩)
  | batchExecuteValidated caller walletId actions =>
      obtain ⟨receipt, h⟩ := snd_map_ok h
      exact .batched caller walletId actions rfl
        (batchExecuteValidated_ok (Act.commit_eq_ok.1 h))
  | setBudget caller budget => exact .unmoved (.of_bind h fun _ h => .of_pure h ⟨rfl, rfl⟩)
  | setRegistry caller registry => exact .unmoved (.of_bind h fun _ h => .of_pure h ⟨rfl, rfl⟩)
  | setOrg caller org =>
      exact .unmoved (.of_bind h fun _ h => .of_bind h fun _ h => .of_pure h ⟨rfl, rfl⟩)
  | setDefaultBudgetId caller budgetId =>
      exact .unmoved (.of_bind h fun _ h => .of_bind h fun _ h => .of_pure h ⟨rfl, rfl⟩)
  | clearDefaultBudgetId caller =>
      exact .unmoved (.of_bind h fun _ h => .of_bind h fun _ h => .of_pure h ⟨rfl, rfl⟩)
  | setAssetBudgetId caller asset budgetId =>
      exact .unmoved (.of_bind h fun _ h => .of_bind h fun _ h => .of_pure h ⟨rfl, rfl⟩)
  | clearAssetBudgetId caller asset =>
      exact .unmoved (.of_bind h fun _ h => .of_bind h fun _ h => .of_pure h ⟨rfl, rfl⟩)
  | grantRole caller walletId account role =>
      exact .unmoved (.of_bind h fun _ h => .of_bind h fun _ h => .of_bind h fun _ h =>
        .of_pure h ⟨rfl, rfl⟩)
  | revokeRole caller walletId account =>
      exact .unmoved (.of_bind h fun _ h => .of_bind h fun _ h => .of_pure h ⟨rfl, rfl⟩)

end WalletContract
end Astroid
