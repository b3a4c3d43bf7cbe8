import Astroid.Wallet.Effects

/-!
# What a wallet call leaves alone

The records of the windows and the wallets themselves are written by few calls:
what each of these writes is told call by call, and every other call keeps them
all (`exec_frame`, `exec_sameWindows`, `exec_sameWallets`).
-/

namespace Astroid
namespace WalletContract

open Outcome

variable {World : Type} {H : WalletHost World} {env : Env H.self} {s s' : State World}
  {id : ℕ} {caller : Address}

/-- The records of the windows are the same. -/
structure SameWindows (s s' : State World) : Prop where
  velocityLimit : s'.velocityLimit = s.velocityLimit
  velocityUsage : s'.velocityUsage = s.velocityUsage
  rateLimit : s'.rateLimit = s.rateLimit
  rateLimitUsage : s'.rateLimitUsage = s.rateLimitUsage

/-- The wallets are the same. -/
structure SameWallets (s s' : State World) : Prop where
  admin : s'.admin = s.admin
  walletCount : s'.walletCount = s.walletCount
  wallet : s'.wallet = s.wallet

structure Frame (s s' : State World) : Prop extends SameWindows s s', SameWallets s s'

/-- A call that writes none of them. -/
def Call.Plain : Call → Prop
  | .initializeContract .. | .createWallet .. | .setVelocityLimit .. | .clearVelocityLimit ..
  | .setRateLimit .. | .clearRateLimit .. | .transfer .. | .withdraw .. | .freeze ..
  | .unfreeze .. | .pause .. | .unpause .. | .archive .. | .batchExecuteValidated .. => False
  | _ => True

/-- **Every plain call keeps the records.** -/
theorem exec_frame {call : Call} (h : exec H env s call = .ok s') (hplain : call.Plain) :
    Frame s s' := by
  have hframe : ∀ {s₁ : State World}, (pure s₁ : Result _) = .ok s' → SameWindows s s₁ →
      SameWallets s s₁ → Frame s s' :=
    fun h hwindows hwallets => of_pure_ok h ⟨hwindows, hwallets⟩
  cases call with
  | setGuardian caller guardian =>
      exact of_bind_ok h fun _ h => hframe h ⟨rfl, rfl, rfl, rfl⟩ ⟨rfl, rfl, rfl⟩
  | emergencyPause caller =>
      exact of_bind_ok h fun _ h => of_bind_ok h fun _ h =>
        hframe h ⟨rfl, rfl, rfl, rfl⟩ ⟨rfl, rfl, rfl⟩
  | emergencyUnpause caller =>
      exact of_bind_ok h fun _ h => of_bind_ok h fun _ h =>
        hframe h ⟨rfl, rfl, rfl, rfl⟩ ⟨rfl, rfl, rfl⟩
  | setPolicy caller policy =>
      exact of_bind_ok h fun _ h => hframe h ⟨rfl, rfl, rfl, rfl⟩ ⟨rfl, rfl, rfl⟩
  | clearPolicy caller =>
      exact of_bind_ok h fun _ h => of_bind_ok h fun _ h =>
        hframe h ⟨rfl, rfl, rfl, rfl⟩ ⟨rfl, rfl, rfl⟩
  | setPolicyBypass caller walletId bypass =>
      exact of_bind_ok h fun _ h => of_bind_ok h fun _ h =>
        hframe h ⟨rfl, rfl, rfl, rfl⟩ ⟨rfl, rfl, rfl⟩
  | deposit walletId src asset amount =>
      simp only [exec, deposit, State.credit, bind_eq_ok, pure_eq_ok] at h
      obtain ⟨_, _, _, _, _, _, _, _, _, _, _, _, rfl⟩ := h
      exact ⟨⟨rfl, rfl, rfl, rfl⟩, ⟨rfl, rfl, rfl⟩⟩
  | setBudget caller budget =>
      exact of_bind_ok h fun _ h => hframe h ⟨rfl, rfl, rfl, rfl⟩ ⟨rfl, rfl, rfl⟩
  | setRegistry caller registry =>
      exact of_bind_ok h fun _ h => hframe h ⟨rfl, rfl, rfl, rfl⟩ ⟨rfl, rfl, rfl⟩
  | setOrg caller org =>
      exact of_bind_ok h fun _ h => of_bind_ok h fun _ h =>
        hframe h ⟨rfl, rfl, rfl, rfl⟩ ⟨rfl, rfl, rfl⟩
  | setDefaultBudgetId caller budgetId =>
      exact of_bind_ok h fun _ h => of_bind_ok h fun _ h =>
        hframe h ⟨rfl, rfl, rfl, rfl⟩ ⟨rfl, rfl, rfl⟩
  | clearDefaultBudgetId caller =>
      exact of_bind_ok h fun _ h => of_bind_ok h fun _ h =>
        hframe h ⟨rfl, rfl, rfl, rfl⟩ ⟨rfl, rfl, rfl⟩
  | setAssetBudgetId caller asset budgetId =>
      exact of_bind_ok h fun _ h => of_bind_ok h fun _ h =>
        hframe h ⟨rfl, rfl, rfl, rfl⟩ ⟨rfl, rfl, rfl⟩
  | clearAssetBudgetId caller asset =>
      exact of_bind_ok h fun _ h => of_bind_ok h fun _ h =>
        hframe h ⟨rfl, rfl, rfl, rfl⟩ ⟨rfl, rfl, rfl⟩
  | grantRole caller walletId account role =>
      exact of_bind_ok h fun _ h => of_bind_ok h fun _ h => of_bind_ok h fun _ h =>
        hframe h ⟨rfl, rfl, rfl, rfl⟩ ⟨rfl, rfl, rfl⟩
  | revokeRole caller walletId account =>
      exact of_bind_ok h fun _ h => of_bind_ok h fun _ h =>
        hframe h ⟨rfl, rfl, rfl, rfl⟩ ⟨rfl, rfl, rfl⟩
  | _ => exact hplain.elim

/-! ## Roles -/

theorem requireWalletRole_ok {required : Role} {wallet : WalletData}
    (h : requireWalletRole H env s id caller required = .ok wallet) :
    s.wallet id = some wallet ∧ caller ∈ env.auths ∧
      ∃ role, s.effectiveRole id wallet.owner caller = some role ∧ role.Satisfies required := by
  simp only [requireWalletRole, State.loadWallet, State.requireRole, bind_eq_ok, okOr_eq_ok,
    requireAuth_eq_ok, pure_eq_ok] at h
  obtain ⟨_, hauth, wallet, hwallet, _, hrole, rfl⟩ := h
  refine ⟨hwallet, hauth, ?_⟩
  split at hrole
  · rename_i role heffective
    exact ⟨role, heffective, require_eq_ok.1 hrole⟩
  · cases hrole

theorem requireWalletRoleOrAdmin_ok {required : Role} {wallet : WalletData}
    (h : requireWalletRoleOrAdmin H env s id caller required = .ok wallet) :
    s.wallet id = some wallet := by
  simp only [requireWalletRoleOrAdmin, State.loadWallet, bind_eq_ok, okOr_eq_ok] at h
  obtain ⟨_, _, wallet', hwallet, h⟩ := h
  split at h
  · cases h
    exact hwallet
  · simp only [bind_eq_ok, pure_eq_ok] at h
    obtain ⟨_, _, rfl⟩ := h
    exact hwallet

/-! ## The wallets -/

theorem initializeContract_ok {admin : Address} (h : initializeContract s admin = .ok s') :
    s.admin = none ∧ s' = { s with
      admin := some admin, guardian := some admin, walletCount := some 0, paused := false } := by
  simp only [initializeContract, bind_eq_ok, require_eq_ok, pure_eq_ok] at h
  obtain ⟨_, hnone, rfl⟩ := h
  exact ⟨hnone, rfl⟩

theorem createWallet_ok {owner : Address} (h : createWallet H env s owner = .ok (id, s')) :
    s' = { s.storeWallet id ⟨owner, .active⟩ with walletCount := some id } ∧
      ∃ count, s.walletCount = some count ∧ id = (count + 1) % 2 ^ 64 := by
  simp only [createWallet, bind_eq_ok, okOr_eq_ok, pure_eq_ok, Prod.mk.injEq] at h
  obtain ⟨_, _, _, _, count, hcount, rfl, rfl⟩ := h
  exact ⟨rfl, count, hcount, rfl⟩

theorem freeze_ok (h : freeze H env s caller id = .ok s') :
    ∃ wallet, s.wallet id = some wallet ∧ wallet.state ≠ .archived ∧
      s' = s.storeWallet id { wallet with state := .frozen } := by
  simp only [freeze, requireNotArchived, bind_eq_ok, require_eq_ok, pure_eq_ok] at h
  obtain ⟨wallet, hrole, _, hlive, rfl⟩ := h
  exact ⟨wallet, requireWalletRoleOrAdmin_ok hrole, hlive, rfl⟩

theorem unfreeze_ok (h : unfreeze H env s caller id = .ok s') :
    ∃ wallet, s.wallet id = some wallet ∧ wallet.state = .frozen ∧
      s' = s.storeWallet id { wallet with state := .active } := by
  simp only [unfreeze, bind_eq_ok, require_eq_ok, pure_eq_ok] at h
  obtain ⟨wallet, hrole, _, hfrozen, rfl⟩ := h
  exact ⟨wallet, requireWalletRoleOrAdmin_ok hrole, hfrozen, rfl⟩

theorem pause_ok (h : pause H env s caller id = .ok s') :
    ∃ wallet, requireWalletRole H env s id caller .admin = .ok wallet ∧ wallet.state = .active ∧
      s' = s.storeWallet id { wallet with state := .paused } := by
  simp only [pause, bind_eq_ok, require_eq_ok, pure_eq_ok] at h
  obtain ⟨wallet, hrole, _, hactive, rfl⟩ := h
  exact ⟨wallet, hrole, hactive, rfl⟩

theorem unpause_ok (h : unpause H env s caller id = .ok s') :
    ∃ wallet, requireWalletRole H env s id caller .admin = .ok wallet ∧ wallet.state = .paused ∧
      s' = s.storeWallet id { wallet with state := .active } := by
  simp only [unpause, bind_eq_ok, require_eq_ok, pure_eq_ok] at h
  obtain ⟨wallet, hrole, _, hpaused, rfl⟩ := h
  exact ⟨wallet, hrole, hpaused, rfl⟩

theorem archive_ok (h : archive H env s caller id = .ok s') :
    ∃ wallet, requireWalletRole H env s id caller .admin = .ok wallet ∧ wallet.state ≠ .archived ∧
      s' = s.storeWallet id { wallet with state := .archived } := by
  simp only [archive, requireNotArchived, bind_eq_ok, require_eq_ok, pure_eq_ok] at h
  obtain ⟨wallet, hrole, _, hlive, rfl⟩ := h
  exact ⟨wallet, hrole, hlive, rfl⟩

/-! ## The limits -/

theorem setVelocityLimit_ok {asset : Address} {maxAmount : ℤ} {windowSeconds : ℕ}
    (h : setVelocityLimit H env s caller id asset maxAmount windowSeconds = .ok s') :
    0 < maxAmount ∧ velocityBuckets ≤ windowSeconds ∧ windowSeconds % velocityBuckets = 0 ∧
      s' = { s with
        velocityUsage :=
          if (s.velocityLimit id asset).map (·.windowSeconds) ≠ some windowSeconds then
            State.update₂ s.velocityUsage id asset none
          else s.velocityUsage
        velocityLimit := State.update₂ s.velocityLimit id asset
          (some ⟨maxAmount, windowSeconds⟩) } := by
  simp only [setVelocityLimit, bind_eq_ok, requirePositiveAmount_eq_ok, require_eq_ok,
    pure_eq_ok] at h
  obtain ⟨_, _, _, _, _, hpositive, _, ⟨hwidth, hdivides⟩, rfl⟩ := h
  exact ⟨hpositive, hwidth, hdivides, rfl⟩

theorem clearVelocityLimit_ok {asset : Address}
    (h : clearVelocityLimit H env s caller id asset = .ok s') :
    s' = { s with
      velocityLimit := State.update₂ s.velocityLimit id asset none
      velocityUsage := State.update₂ s.velocityUsage id asset none } := by
  simp only [clearVelocityLimit, bind_eq_ok, pure_eq_ok] at h
  obtain ⟨_, _, _, _, rfl⟩ := h
  rfl

theorem setRateLimit_ok {maxVolume : ℤ} {maxCount windowSeconds : ℕ}
    (h : setRateLimit H env s caller id maxVolume maxCount windowSeconds = .ok s') :
    0 ≤ maxVolume ∧
      (windowSeconds = 0 ∧ s' = { s with
          rateLimit := Function.update s.rateLimit id none
          rateLimitUsage := Function.update s.rateLimitUsage id none } ∨
        rateLimitBuckets ≤ windowSeconds ∧ windowSeconds % rateLimitBuckets = 0 ∧ s' = { s with
          rateLimitUsage :=
            if (s.rateLimit id).map (·.windowSeconds) ≠ some windowSeconds then
              Function.update s.rateLimitUsage id none
            else s.rateLimitUsage
          rateLimit := Function.update s.rateLimit id
            (some ⟨maxVolume, maxCount, windowSeconds⟩) }) := by
  simp only [setRateLimit, bind_eq_ok, require_eq_ok] at h
  obtain ⟨_, _, _, _, _, hvolume, h⟩ := h
  refine ⟨hvolume, ?_⟩
  split at h
  · rename_i hzero
    cases h
    exact .inl ⟨hzero, rfl⟩
  · simp only [bind_eq_ok, require_eq_ok, pure_eq_ok] at h
    obtain ⟨_, ⟨hwidth, hdivides⟩, rfl⟩ := h
    exact .inr ⟨hwidth, hdivides, rfl⟩

theorem clearRateLimit_ok (h : clearRateLimit H env s caller id = .ok s') :
    s' = { s with
      rateLimit := Function.update s.rateLimit id none
      rateLimitUsage := Function.update s.rateLimitUsage id none } := by
  simp only [clearRateLimit, bind_eq_ok, pure_eq_ok] at h
  obtain ⟨_, _, _, _, rfl⟩ := h
  rfl

/-! ## Spends and batches -/

theorem requireActive_ok {wallet : WalletData} {u : Unit} (h : requireActive wallet = .ok u) :
    wallet.state = .active := by
  unfold requireActive at h
  split at h
  · assumption
  all_goals cases h

/-- Only the two gates of the windows write the records in a spend. -/
structure Gates (H : WalletHost World) (env : Env H.self) (s s' : State World) (id : ℕ)
    (asset : Address) (amount : ℤ) : Prop where
  positive : 0 < amount
  active : ∃ wallet, s.wallet id = some wallet ∧ wallet.state = .active
  gates : ∃ s₁ s₂ s₃, Frame s s₁ ∧ enforceVelocity H env id asset amount s₁ = .ok s₂ ∧
    enforceRateLimit H env id amount 1 s₂ = .ok s₃ ∧ Frame s₃ s'

theorem spend_gates {payee asset : Address} {amount : ℤ} {u : Unit}
    (h : spend H env caller id payee asset amount s = (.ok u, s')) :
    ∃ s₁ s₂ s₃, Frame s s₁ ∧ enforceVelocity H env id asset amount s₁ = .ok s₂ ∧
      enforceRateLimit H env id amount 1 s₂ = .ok s₃ ∧ Frame s₃ s' := by
  simp only [spend, unlockOnError, Act.bind_ok, Act.onError_ok, Act.step_ok, Act.read_ok,
    Except.ok.injEq] at h
  obtain ⟨_, _, hlock, _, s₁, hchecks, _, s₂, hvelocity, _, s₃, hrate, _, _, ⟨_, rfl⟩, _, _,
    hdebit, _, _, hsafe, rfl⟩ := h
  obtain ⟨_, rfl⟩ := lock_ok hlock
  obtain ⟨w, _, rfl⟩ := preExecuteChecks_ok hchecks
  obtain ⟨_, rfl⟩ := debit_ok hdebit
  obtain ⟨w', _, _, rfl⟩ := safeTransferOut_ok hsafe
  refine ⟨_, s₂, s₃, ?_, hvelocity, hrate, ?_⟩
  all_goals exact ⟨⟨rfl, rfl, rfl, rfl⟩, ⟨rfl, rfl, rfl⟩⟩

theorem transfer_gates {payee asset : Address} {amount : ℤ} {u : Unit}
    (h : transfer H env caller id payee asset amount s = (.ok u, s')) :
    Gates H env s s' id asset amount := by
  simp only [transfer, Act.bind_ok, Act.read_ok, requirePositiveAmount_eq_ok] at h
  obtain ⟨_, _, ⟨hpos, rfl⟩, _, _, ⟨_, rfl⟩, wallet, _, ⟨hrole, rfl⟩, _, _, ⟨hactive, rfl⟩, _, _,
    ⟨_, rfl⟩, hspend⟩ := h
  exact ⟨hpos, ⟨wallet, (requireWalletRole_ok hrole).1, requireActive_ok hactive⟩,
    spend_gates hspend⟩

theorem withdraw_gates {asset : Address} {amount : ℤ} {u : Unit}
    (h : withdraw H env caller id asset amount s = (.ok u, s')) :
    Gates H env s s' id asset amount := by
  simp only [withdraw, Act.bind_ok, Act.read_ok, requirePositiveAmount_eq_ok] at h
  obtain ⟨_, _, ⟨hpos, rfl⟩, _, _, ⟨_, rfl⟩, wallet, _, ⟨hrole, rfl⟩, _, _, ⟨hactive, rfl⟩,
    hspend⟩ := h
  exact ⟨hpos, ⟨wallet, (requireWalletRole_ok hrole).1, requireActive_ok hactive⟩,
    spend_gates hspend⟩

/-- What the actions of a batch declare to move. -/
def actionsTotal (actions : List BatchAction) : ℤ := (actions.map (·.amount)).sum

theorem validateAction_total {policy budget : Option Address} {totals totals' : BatchTotals}
    {action : BatchAction}
    (h : validateAction H env id caller policy budget totals action s = (.ok totals', s')) :
    0 < action.amount ∧ totals'.totalAmount = totals.totalAmount + action.amount ∧
      velocityEnforce H env s id totals.velocity action.asset action.amount
        = .ok totals'.velocity := by
  simp only [validateAction, Act.bind_ok, Act.read_ok, Act.pure_ok, requirePositiveAmount_eq_ok,
    checkedAdd_eq_ok] at h
  obtain ⟨_, _, ⟨hpos, rfl⟩, total, _, ⟨⟨_, htotal⟩, rfl⟩, _, _, hpolicy, velocity, _,
    ⟨hvelocity, rfl⟩, _, _, _, rfl, rfl⟩ := h
  obtain ⟨w, _, rfl⟩ := checkActionPolicy_ok hpolicy
  exact ⟨hpos, htotal.symm, hvelocity⟩

/-- The first phase of a batch adds up what its actions declare, all of it positive. -/
theorem validateActions_total {policy budget : Option Address} {totals totals' : BatchTotals}
    {actions : List BatchAction}
    (h : validateActions H env id caller policy budget totals actions s = (.ok totals', s')) :
    totals'.totalAmount = totals.totalAmount + actionsTotal actions ∧
      ∀ action ∈ actions, 0 < action.amount := by
  induction actions generalizing totals s with
  | nil =>
      rw [validateActions, Act.pure_ok] at h
      obtain ⟨rfl, _⟩ := h
      simp [actionsTotal]
  | cons action rest ih =>
      rw [validateActions, Act.bind_ok] at h
      obtain ⟨totals₁, s₁, hfirst, hrest⟩ := h
      obtain ⟨hpos, htotal, _⟩ := validateAction_total hfirst
      obtain ⟨hsum, hall⟩ := ih hrest
      refine ⟨?_, List.forall_mem_cons.2 ⟨hpos, hall⟩⟩
      rw [hsum, htotal]
      simp [actionsTotal, add_assoc]

/-- In a batch, the velocity gate is run action by action and written back once, and the
rate limit is charged with the whole. -/
structure BatchGates (H : WalletHost World) (env : Env H.self) (s s' : State World) (id : ℕ)
    (actions : List BatchAction) : Prop where
  nonempty : actions ≠ []
  active : ∃ wallet, s.wallet id = some wallet ∧ wallet.state = .active
  gates : ∃ caller policy budget totals s₀ s₁ s₂, Frame s s₀ ∧
    validateActions H env id caller policy budget ⟨0, 0, []⟩ actions s₀ = (.ok totals, s₁) ∧
    enforceRateLimit H env id totals.totalAmount actions.length s₁ = .ok s₂ ∧
    Frame (velocityFlush s₂ id totals.velocity) s'

theorem batchExecuteValidated_gates {actions : List BatchAction} {receipt : BatchReceipt}
    (h : batchExecuteValidated H env caller id actions s = (.ok receipt, s')) :
    BatchGates H env s s' id actions := by
  simp only [batchExecuteValidated, unlockOnError, Act.bind_ok, Act.onError_ok, Act.step_ok,
    Act.read_ok, Act.pure_ok, Except.ok.injEq, require_eq_ok] at h
  obtain ⟨_, _, ⟨_, rfl⟩, wallet, _, ⟨hrole, rfl⟩, _, _, ⟨hactive, rfl⟩, _, _, ⟨hne, rfl⟩, _, _,
    ⟨_, rfl⟩, _, _, hlock, _, _, ⟨_, rfl⟩, gates, _, ⟨_, rfl⟩, totals, s₁, hvalid, _, s₂, hrate,
    _, _, rfl, _, _, hcalls, _, _, rfl, _, rfl⟩ := h
  obtain ⟨_, rfl⟩ := lock_ok hlock
  obtain ⟨w', _, rfl⟩ := executeCalls_ok hcalls
  refine ⟨hne, ⟨wallet, (requireWalletRole_ok hrole).1, requireActive_ok hactive⟩, caller, _, _,
    totals, _, s₁, s₂, ?_, hvalid, hrate, ?_⟩
  all_goals exact ⟨⟨rfl, rfl, rfl, rfl⟩, ⟨rfl, rfl, rfl⟩⟩

/-! ## Calls that keep one of the two -/

theorem Gates.sameWallets {asset : Address} {amount : ℤ} (h : Gates H env s s' id asset amount) :
    SameWallets s s' := by
  obtain ⟨s₁, s₂, s₃, hbefore, hvelocity, hrate, hafter⟩ := h.gates
  obtain ⟨_, rfl⟩ := enforceVelocity_ok hvelocity
  obtain ⟨_, rfl⟩ := enforceRateLimit_ok hrate
  exact ⟨hafter.admin.trans hbefore.admin, hafter.walletCount.trans hbefore.walletCount,
    hafter.wallet.trans hbefore.wallet⟩

theorem BatchGates.sameWallets {actions : List BatchAction}
    (h : BatchGates H env s s' id actions) : SameWallets s s' := by
  obtain ⟨_, _, _, totals, s₀, s₁, s₂, hbefore, hvalid, hrate, hafter⟩ := h.gates
  obtain ⟨_, _, rfl⟩ := validateActions_ok hvalid
  obtain ⟨_, rfl⟩ := enforceRateLimit_ok hrate
  obtain ⟨usage, hflush⟩ := velocityFlush_eq _ id totals.velocity
  rw [hflush] at hafter
  exact ⟨hafter.admin.trans hbefore.admin, hafter.walletCount.trans hbefore.walletCount,
    hafter.wallet.trans hbefore.wallet⟩

/-- A call that neither sets a limit nor spends. -/
def Call.KeepsWindows : Call → Prop
  | .setVelocityLimit .. | .clearVelocityLimit .. | .setRateLimit .. | .clearRateLimit ..
  | .transfer .. | .withdraw .. | .batchExecuteValidated .. => False
  | _ => True

theorem exec_sameWindows {call : Call} (h : exec H env s call = .ok s')
    (hcall : call.KeepsWindows) : SameWindows s s' := by
  cases call with
  | initializeContract admin =>
      obtain ⟨_, rfl⟩ := initializeContract_ok h
      exact ⟨rfl, rfl, rfl, rfl⟩
  | createWallet owner =>
      obtain ⟨_, h⟩ := snd_map_ok h
      obtain ⟨rfl, _⟩ := createWallet_ok h
      exact ⟨rfl, rfl, rfl, rfl⟩
  | freeze caller w =>
      obtain ⟨_, _, _, rfl⟩ := freeze_ok h
      exact ⟨rfl, rfl, rfl, rfl⟩
  | unfreeze caller w =>
      obtain ⟨_, _, _, rfl⟩ := unfreeze_ok h
      exact ⟨rfl, rfl, rfl, rfl⟩
  | pause caller w =>
      obtain ⟨_, _, _, rfl⟩ := pause_ok h
      exact ⟨rfl, rfl, rfl, rfl⟩
  | unpause caller w =>
      obtain ⟨_, _, _, rfl⟩ := unpause_ok h
      exact ⟨rfl, rfl, rfl, rfl⟩
  | archive caller w =>
      obtain ⟨_, _, _, rfl⟩ := archive_ok h
      exact ⟨rfl, rfl, rfl, rfl⟩
  | _ =>
      first
      | exact hcall.elim
      | exact (exec_frame h trivial).toSameWindows

/-- A call that moves no wallet through its lifecycle. -/
def Call.KeepsWallets : Call → Prop
  | .initializeContract .. | .createWallet .. | .freeze .. | .unfreeze .. | .pause ..
  | .unpause .. | .archive .. => False
  | _ => True

theorem exec_sameWallets {call : Call} (h : exec H env s call = .ok s')
    (hcall : call.KeepsWallets) : SameWallets s s' := by
  cases call with
  | transfer caller w payee a x =>
      obtain ⟨_, h⟩ := snd_map_ok h
      exact (transfer_gates (Act.commit_eq_ok.1 h)).sameWallets
  | withdraw caller w a x =>
      obtain ⟨_, h⟩ := snd_map_ok h
      exact (withdraw_gates (Act.commit_eq_ok.1 h)).sameWallets
  | batchExecuteValidated caller w actions =>
      obtain ⟨_, h⟩ := snd_map_ok h
      exact (batchExecuteValidated_gates (Act.commit_eq_ok.1 h)).sameWallets
  | setVelocityLimit caller w a maxAmount windowSeconds =>
      obtain ⟨_, _, _, rfl⟩ := setVelocityLimit_ok h
      exact ⟨rfl, rfl, rfl⟩
  | clearVelocityLimit caller w a =>
      obtain rfl := clearVelocityLimit_ok h
      exact ⟨rfl, rfl, rfl⟩
  | setRateLimit caller w maxVolume maxCount windowSeconds =>
      obtain ⟨_, ⟨_, rfl⟩ | ⟨_, _, rfl⟩⟩ := setRateLimit_ok h
      · exact ⟨rfl, rfl, rfl⟩
      · exact ⟨rfl, rfl, rfl⟩
  | clearRateLimit caller w =>
      obtain rfl := clearRateLimit_ok h
      exact ⟨rfl, rfl, rfl⟩
  | _ =>
      first
      | exact hcall.elim
      | exact (exec_frame h trivial).toSameWallets

end WalletContract
end Astroid
