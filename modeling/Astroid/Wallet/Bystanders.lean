import Astroid.Wallet.Lifecycle
import Astroid.Wallet.VelocityGate

/-!
# What bystanders can do to a wallet

Only the administrator of the contract and those who hold `Agent` or more on a wallet may act
on it (`State.MayAct`).  In a stretch of a run in which none of them signs, everybody else
together, whoever calls what in any order, changes nothing the contract keeps of the wallet,
and its tracked balances change by what is deposited alone (`wallet_undisturbed`).
-/

namespace Astroid
namespace WalletContract

open Outcome Machine

variable {World : Type} {H : WalletHost World} {env : Env H.self} {s s' : State World}
  {id w : ℕ} {caller : Address} {required : Role}

/-- The accounts that may act on a wallet. -/
def State.MayAct (s : State World) (id : ℕ) (who : Address) : Prop :=
  s.admin = some who ∨ ∃ wallet role, s.wallet id = some wallet ∧
    s.effectiveRole id wallet.owner who = some role ∧ role.Satisfies .agent

/-- What the contract keeps of a wallet, but for its balances. -/
structure SameTerms (id : ℕ) (s s' : State World) : Prop where
  admin : s'.admin = s.admin
  wallet : s'.wallet id = s.wallet id
  role : s'.role id = s.role id
  policyBypass : s'.policyBypass id = s.policyBypass id
  velocityLimit : s'.velocityLimit id = s.velocityLimit id
  velocityUsage : s'.velocityUsage id = s.velocityUsage id
  rateLimit : s'.rateLimit id = s.rateLimit id
  rateLimitUsage : s'.rateLimitUsage id = s.rateLimitUsage id

theorem SameTerms.trans {s'' : State World} (h : SameTerms id s s') (h' : SameTerms id s' s'') :
    SameTerms id s s'' :=
  ⟨h'.admin.trans h.admin, h'.wallet.trans h.wallet, h'.role.trans h.role,
    h'.policyBypass.trans h.policyBypass, h'.velocityLimit.trans h.velocityLimit,
    h'.velocityUsage.trans h.velocityUsage, h'.rateLimit.trans h.rateLimit,
    h'.rateLimitUsage.trans h.rateLimitUsage⟩

/-- Who may act is kept with the wallet. -/
theorem SameTerms.mayAct {who : Address} (h : SameTerms id s s') :
    s'.MayAct id who ↔ s.MayAct id who := by
  unfold State.MayAct State.effectiveRole
  rw [h.admin, h.wallet, h.role]

/-- What a call deposits in a wallet. -/
def Call.deposits (id : ℕ) (asset : Address) : Call → ℤ
  | .deposit walletId _ a amount => if walletId = id ∧ a = asset then amount else 0
  | _ => 0

/-- The call left the wallet alone, but for what it deposited. -/
structure Undisturbed (id : ℕ) (call : Call) (s s' : State World) : Prop where
  terms : SameTerms id s s'
  balance : ∀ asset, s'.balanceOf id asset = s.balanceOf id asset + call.deposits id asset

/-! ## Who signed -/

theorem requireAdmin_ok {u : Unit} (h : requireAdmin H env s caller = .ok u) :
    caller ∈ env.auths ∧ s.admin = some caller := by
  simp only [requireAdmin, bind_eq_ok, requireAuth_eq_ok, okOr_eq_ok, require_eq_ok] at h
  obtain ⟨_, hauth, admin, hadmin, rfl⟩ := h
  exact ⟨hauth, hadmin⟩

theorem mayAct_of_admin {u : Unit} (h : requireAdmin H env s caller = .ok u) :
    ∃ who ∈ env.auths, s.MayAct id who :=
  ⟨caller, (requireAdmin_ok h).1, .inl (requireAdmin_ok h).2⟩

theorem mayAct_of_role {wallet : WalletData} (hrank : required.Satisfies .agent)
    (h : requireWalletRole H env s id caller required = .ok wallet) :
    ∃ who ∈ env.auths, s.MayAct id who := by
  obtain ⟨hwallet, hauth, role, hrole, hsatisfies⟩ := requireWalletRole_ok h
  exact ⟨caller, hauth, .inr ⟨wallet, role, hwallet, hrole, le_trans hrank hsatisfies⟩⟩

theorem mayAct_of_roleOrAdmin {wallet : WalletData} (hrank : required.Satisfies .agent)
    (h : requireWalletRoleOrAdmin H env s id caller required = .ok wallet) :
    ∃ who ∈ env.auths, s.MayAct id who := by
  have hwallet := requireWalletRoleOrAdmin_ok h
  simp only [requireWalletRoleOrAdmin, bind_eq_ok, requireAuth_eq_ok, State.loadWallet,
    okOr_eq_ok] at h
  obtain ⟨_, hauth, stored, hstored, h⟩ := h
  split at h
  · rename_i hadmin
    exact ⟨caller, hauth, .inl hadmin⟩
  · obtain ⟨_, hrole, h⟩ := bind_eq_ok.1 h
    have hholds : requireWalletRole H env s id caller required = .ok stored := by
      simp only [requireWalletRole, bind_eq_ok, requireAuth_eq_ok, State.loadWallet, okOr_eq_ok,
        pure_eq_ok]
      exact ⟨(), hauth, stored, hstored, (), hrole, rfl⟩
    exact mayAct_of_role hrank hholds

/-! ## One call -/

section Calls

variable {call : Call} {asset payee : Address} {amount : ℤ} {actions : List BatchAction}

theorem undisturbed_pure {s₁ : State World} (h : (pure s₁ : Result _) = .ok s')
    (hterms : SameTerms id s s₁) (hbalance : s₁.balance id = s.balance id)
    (hdeposits : ∀ asset, call.deposits id asset = 0) : Undisturbed id call s s' := by
  rw [pure_eq_ok] at h
  subst h
  refine ⟨hterms, ?_⟩
  intro asset
  rw [hdeposits asset, add_zero, State.balanceOf, State.balanceOf, hbalance]

/-- A stored wallet that is another one. -/
theorem undisturbed_store {data : WalletData} (hw : w ≠ id)
    (hdeposits : ∀ asset, call.deposits id asset = 0) :
    Undisturbed id call s (s.storeWallet w data) := by
  refine undisturbed_pure rfl ⟨rfl, ?_, rfl, rfl, rfl, rfl, rfl, rfl⟩ rfl hdeposits
  exact Function.update_of_ne (Ne.symm hw) ..

/-- Where nothing was charged, the record stays. -/
theorem VelocityCharged.nothing {now : UInt64} (h : VelocityCharged now s s' id asset []) :
    s'.velocityUsage id asset = s.velocityUsage id asset := by
  cases h.record with
  | idle _ hsame => exact hsame
  | unlimited _ hsame => exact hsame
  | metered _ _ hsome => exact absurd rfl hsome

theorem enforceRateLimit_ne {count : ℕ} (hw : w ≠ id)
    (h : enforceRateLimit H env w amount count s = .ok s') :
    s'.rateLimitUsage id = s.rateLimitUsage id := by
  unfold enforceRateLimit at h
  split at h
  · cases h
    rfl
  · split at h
    · cases h
      rfl
    · simp only [bind_eq_ok, pure_eq_ok] at h
      obtain ⟨_, _, _, _, _, _, _, _, _, _, _, _, _, _, _, _, rfl⟩ := h
      exact Function.update_of_ne (Ne.symm hw) ..

/-- A spend from another wallet. -/
theorem Spent.undisturbed (hspent : Spent H env s s' w payee asset amount)
    (hgates : Gates H env s s' w asset amount) (hw : w ≠ id)
    (hdeposits : ∀ asset, call.deposits id asset = 0) : Undisturbed id call s s' := by
  have hvelocity : s'.velocityUsage id = s.velocityUsage id := by
    funext a
    have hcharged : VelocityCharged env.timestamp s s' id a (if w = id ∧ asset = a then [amount]
      else []) := hgates.velocity
    rw [if_neg fun hsame => hw hsame.1] at hcharged
    exact hcharged.nothing
  have hrate : s'.rateLimitUsage id = s.rateLimitUsage id := by
    obtain ⟨s₁, s₂, s₃, hbefore, hvelocity, hrate, hafter⟩ := hgates.gates
    obtain ⟨_, rfl⟩ := enforceVelocity_ok hvelocity
    have hsame := enforceRateLimit_ne hw hrate
    rw [hafter.rateLimitUsage, hsame, hbefore.rateLimitUsage]
  obtain ⟨velocityUsage, rateLimitUsage, hs'⟩ := hspent.state
  rw [hs'] at hvelocity hrate ⊢
  refine undisturbed_pure rfl ⟨rfl, rfl, rfl, rfl, rfl, hvelocity, rfl, hrate⟩ ?_ hdeposits
  exact Function.update_of_ne (Ne.symm hw) ..

/-- A batch of another wallet. -/
theorem Batched.undisturbed (hbatched : Batched H env s s' actions)
    (hgates : BatchGates H env s s' w actions) (hw : w ≠ id)
    (hdeposits : ∀ asset, call.deposits id asset = 0) : Undisturbed id call s s' := by
  have hvelocity : s'.velocityUsage id = s.velocityUsage id := by
    funext a
    have hcharged : VelocityCharged env.timestamp s s' id a (if w = id then
      (actions.filter (·.asset = a)).map (·.amount) else []) := hgates.velocity
    rw [if_neg hw] at hcharged
    exact hcharged.nothing
  have hrate : s'.rateLimitUsage id = s.rateLimitUsage id := by
    obtain ⟨_, _, _, totals, s₀, s₁, s₂, hbefore, hvalid, hrate, hafter⟩ := hgates.gates
    obtain ⟨_, _, rfl⟩ := validateActions_ok hvalid
    have hsame := enforceRateLimit_ne hw hrate
    obtain ⟨usage, hflush⟩ := velocityFlush_eq s₂ w totals.velocity
    rw [hflush] at hafter
    rw [hafter.rateLimitUsage, hsame, hbefore.rateLimitUsage]
  obtain ⟨velocityUsage, rateLimitUsage, hs'⟩ := hbatched.state
  rw [hs'] at hvelocity hrate ⊢
  exact undisturbed_pure rfl ⟨rfl, rfl, rfl, rfl, rfl, hvelocity, rfl, hrate⟩ rfl hdeposits

end Calls

/-- **A call that nobody signed who may act on the wallet leaves it alone**, but for what it
deposits, as long as no new wallet takes its number. -/
theorem exec_undisturbed {call : Call} (hout : ¬ ∃ who ∈ env.auths, s.MayAct id who)
    (hadmin : s.admin ≠ none)
    (hnew : ∀ owner w s', call = .createWallet owner → createWallet H env s owner = .ok (w, s') →
      w ≠ id) (h : exec H env s call = .ok s') : Undisturbed id call s s' := by
  have hpure {call : Call} {s₁ : State World} (h : (pure s₁ : Result _) = .ok s')
      (hterms : SameTerms id s s₁) (hbalance : s₁.balance = s.balance)
      (hdeposits : ∀ asset, call.deposits id asset = 0) : Undisturbed id call s s' :=
    undisturbed_pure h hterms (congrFun hbalance id) hdeposits
  cases call with
  | initializeContract admin => exact absurd (initializeContract_ok h).1 hadmin
  | setGuardian | setPolicy | setBudget | setRegistry =>
      exact of_bind_ok h fun _ h => hpure h ⟨rfl, rfl, rfl, rfl, rfl, rfl, rfl, rfl⟩ rfl fun _ => rfl
  | emergencyPause | emergencyUnpause | clearPolicy | setOrg | setDefaultBudgetId
  | clearDefaultBudgetId | setAssetBudgetId | clearAssetBudgetId =>
      exact of_bind_ok h fun _ h => of_bind_ok h fun _ h =>
        hpure h ⟨rfl, rfl, rfl, rfl, rfl, rfl, rfl, rfl⟩ rfl fun _ => rfl
  | createWallet owner =>
      obtain ⟨w, h⟩ := snd_map_ok h
      have hw : w ≠ id := hnew owner w s' rfl h
      obtain ⟨rfl, _⟩ := createWallet_ok h
      have hwallet : (s.storeWallet w ⟨owner, .active⟩).wallet id = s.wallet id :=
        Function.update_of_ne (Ne.symm hw) ..
      exact hpure rfl ⟨rfl, hwallet, rfl, rfl, rfl, rfl, rfl, rfl⟩ rfl fun _ => rfl
  | setPolicyBypass caller w bypass =>
      simp only [exec, setPolicyBypass, bind_eq_ok] at h
      obtain ⟨_, hrole, _, _, h⟩ := h
      exact absurd (mayAct_of_admin hrole) hout
  | deposit w src a amount =>
      simp only [exec, deposit, State.credit, bind_eq_ok, checkedAdd_eq_ok, pure_eq_ok] at h
      obtain ⟨_, _, _, _, _, _, _, _, world, _, _, ⟨_, rfl⟩, rfl⟩ := h
      refine ⟨⟨rfl, rfl, rfl, rfl, rfl, rfl, rfl, rfl⟩, ?_⟩
      intro asset
      unfold State.storeBalance State.balanceOf Call.deposits
      dsimp only
      by_cases hsame : id = w ∧ asset = a
      · obtain ⟨rfl, rfl⟩ := hsame
        simp [State.update₂]
      · rw [update₂_of_ne hsame, if_neg fun hsame' => hsame ⟨hsame'.1.symm, hsame'.2.symm⟩, add_zero]
  | transfer caller w payee a amount =>
      obtain ⟨_, h⟩ := snd_map_ok h
      have h := Act.commit_eq_ok.1 h
      by_cases hw : w = id
      · subst hw
        simp only [transfer, Act.bind_ok, Act.read_ok] at h
        obtain ⟨_, _, ⟨_, rfl⟩, _, _, ⟨_, rfl⟩, wallet, _, ⟨hrole, rfl⟩, _⟩ := h
        exact absurd (mayAct_of_role le_rfl hrole) hout
      · exact (transfer_ok h).undisturbed (transfer_gates h) hw fun _ => rfl
  | withdraw caller w a amount =>
      obtain ⟨_, h⟩ := snd_map_ok h
      have h := Act.commit_eq_ok.1 h
      by_cases hw : w = id
      · subst hw
        simp only [withdraw, Act.bind_ok, Act.read_ok] at h
        obtain ⟨_, _, ⟨_, rfl⟩, _, _, ⟨_, rfl⟩, wallet, _, ⟨hrole, rfl⟩, _⟩ := h
        exact absurd (mayAct_of_role (by decide) hrole) hout
      · obtain ⟨owner, hspent⟩ := withdraw_ok h
        exact hspent.undisturbed (withdraw_gates h) hw fun _ => rfl
  | batchExecuteValidated caller w actions =>
      obtain ⟨_, h⟩ := snd_map_ok h
      have h := Act.commit_eq_ok.1 h
      by_cases hw : w = id
      · subst hw
        simp only [batchExecuteValidated, Act.bind_ok, Act.read_ok] at h
        obtain ⟨_, _, ⟨_, rfl⟩, wallet, _, ⟨hrole, rfl⟩, _⟩ := h
        exact absurd (mayAct_of_role le_rfl hrole) hout
      · exact (batchExecuteValidated_ok h).undisturbed (batchExecuteValidated_gates h) hw
          fun _ => rfl
  | freeze caller w =>
      simp only [exec, freeze, bind_eq_ok, pure_eq_ok] at h
      obtain ⟨wallet, hrole, _, _, rfl⟩ := h
      by_cases hw : w = id
      · subst hw
        exact absurd (mayAct_of_roleOrAdmin le_rfl hrole) hout
      · exact undisturbed_store hw fun _ => rfl
  | unfreeze caller w =>
      simp only [exec, unfreeze, bind_eq_ok, pure_eq_ok] at h
      obtain ⟨wallet, hrole, _, _, rfl⟩ := h
      by_cases hw : w = id
      · subst hw
        exact absurd (mayAct_of_roleOrAdmin le_rfl hrole) hout
      · exact undisturbed_store hw fun _ => rfl
  | pause caller w | unpause caller w | archive caller w =>
      obtain ⟨wallet, hrole, h⟩ := bind_eq_ok.1 h
      obtain ⟨_, _, h⟩ := bind_eq_ok.1 h
      rw [pure_eq_ok] at h
      subst h
      by_cases hw : w = id
      · subst hw
        exact absurd (mayAct_of_role (by decide) hrole) hout
      · exact undisturbed_store hw fun _ => rfl
  | setVelocityLimit caller w a maxAmount windowSeconds =>
      obtain ⟨wallet, hrole, _⟩ := bind_eq_ok.1 h
      by_cases hw : w = id
      · subst hw
        exact absurd (mayAct_of_role (by decide) hrole) hout
      · obtain ⟨_, _, _, rfl⟩ := setVelocityLimit_ok h
        have hlimit {α : Type} {f : ℕ → Address → α} {x : α} : State.update₂ f w a x id = f id :=
          Function.update_of_ne (Ne.symm hw) ..
        refine hpure rfl ⟨rfl, rfl, rfl, rfl, hlimit, ?_, rfl, rfl⟩ rfl fun _ => rfl
        dsimp only
        split
        · exact hlimit
        · rfl
  | clearVelocityLimit caller w a =>
      obtain ⟨wallet, hrole, _⟩ := bind_eq_ok.1 h
      by_cases hw : w = id
      · subst hw
        exact absurd (mayAct_of_role (by decide) hrole) hout
      · obtain rfl := clearVelocityLimit_ok h
        have hlimit {α : Type} {f : ℕ → Address → α} {x : α} : State.update₂ f w a x id = f id :=
          Function.update_of_ne (Ne.symm hw) ..
        exact hpure rfl ⟨rfl, rfl, rfl, rfl, hlimit, hlimit, rfl, rfl⟩ rfl fun _ => rfl
  | setRateLimit caller w maxVolume maxCount windowSeconds =>
      obtain ⟨wallet, hrole, _⟩ := bind_eq_ok.1 h
      by_cases hw : w = id
      · subst hw
        exact absurd (mayAct_of_role (by decide) hrole) hout
      · have hlimit {α : Type} {f : ℕ → α} {x : α} : Function.update f w x id = f id :=
          Function.update_of_ne (Ne.symm hw) ..
        obtain ⟨_, ⟨_, rfl⟩ | ⟨_, _, rfl⟩⟩ := setRateLimit_ok h
        · exact hpure rfl ⟨rfl, rfl, rfl, rfl, rfl, rfl, hlimit, hlimit⟩ rfl fun _ => rfl
        · refine hpure rfl ⟨rfl, rfl, rfl, rfl, rfl, rfl, hlimit, ?_⟩ rfl fun _ => rfl
          dsimp only
          split
          · exact hlimit
          · rfl
  | clearRateLimit caller w =>
      obtain ⟨wallet, hrole, _⟩ := bind_eq_ok.1 h
      by_cases hw : w = id
      · subst hw
        exact absurd (mayAct_of_role (by decide) hrole) hout
      · obtain rfl := clearRateLimit_ok h
        have hlimit {α : Type} {f : ℕ → α} {x : α} : Function.update f w x id = f id :=
          Function.update_of_ne (Ne.symm hw) ..
        exact hpure rfl ⟨rfl, rfl, rfl, rfl, rfl, rfl, hlimit, hlimit⟩ rfl fun _ => rfl
  | grantRole caller w account role =>
      obtain ⟨wallet, hrole, h⟩ := bind_eq_ok.1 h
      by_cases hw : w = id
      · subst hw
        exact absurd (mayAct_of_role (by decide) hrole) hout
      · have hkeeps : State.update₂ s.role w account (some role) id = s.role id :=
          Function.update_of_ne (Ne.symm hw) ..
        exact of_bind_ok h fun _ h => of_bind_ok h fun _ h =>
          hpure h ⟨rfl, rfl, hkeeps, rfl, rfl, rfl, rfl, rfl⟩ rfl fun _ => rfl
  | revokeRole caller w account =>
      obtain ⟨wallet, hrole, h⟩ := bind_eq_ok.1 h
      by_cases hw : w = id
      · subst hw
        exact absurd (mayAct_of_role (by decide) hrole) hout
      · have hkeeps : State.update₂ s.role w account none id = s.role id :=
          Function.update_of_ne (Ne.symm hw) ..
        exact of_bind_ok h fun _ h =>
          hpure h ⟨rfl, rfl, hkeeps, rfl, rfl, rfl, rfl, rfl⟩ rfl fun _ => rfl

/-! ## The counter -/

/-- No wallet is opened when the counter is at its last number. -/
def HasRoom : Inputs H → State World → Prop
  | .invoke _ (.createWallet _), s => s.walletCount ≠ some (2 ^ 64 - 1)
  | _, _ => True

/-- A new wallet takes none of the numbers in use. -/
theorem createWallet_new {owner : Address} (hnumbered : Numbered s)
    (hroom : s.walletCount ≠ some (2 ^ 64 - 1)) (hid : s.stateOf id ≠ none)
    (h : createWallet H env s owner = .ok (w, s')) : w ≠ id := by
  obtain ⟨_, count, hcount, hw⟩ := createWallet_ok h
  have hbound := hnumbered.bound count hcount
  have hlast : count ≠ 2 ^ 64 - 1 := by
    rintro rfl
    exact hroom hcount
  obtain ⟨count', hcount', hle⟩ := hnumbered.numbered id hid
  rw [hcount, Option.some.injEq] at hcount'
  omega

theorem Numbered.exec {call : Call} (hnumbered : Numbered s)
    (hroom : HasRoom (.invoke env call) s) (h : exec H env s call = .ok s') : Numbered s' := by
  have hstored {data : WalletData} {wallet : WalletData} {w : ℕ} (hw : s.wallet w = some wallet) :
      Numbered (s.storeWallet w data) := by
    refine hnumbered.store ?_
    rw [stateOf_some hw]
    exact Option.some_ne_none _
  cases call with
  | initializeContract admin =>
      have hmoves : Numbered s' ∧ ∀ id, Moved id env (.initializeContract admin) s s' :=
        initializeContract_moves hnumbered h
      exact hmoves.1
  | createWallet owner =>
      obtain ⟨w, h⟩ := snd_map_ok h
      have hmoves : Numbered s' ∧ ∀ id, Moved id env (.createWallet owner) s s' :=
        createWallet_moves hnumbered hroom h
      exact hmoves.1
  | freeze caller w =>
      obtain ⟨_, hwallet, _, rfl⟩ := freeze_ok h
      exact hstored hwallet
  | unfreeze caller w =>
      obtain ⟨_, hwallet, _, rfl⟩ := unfreeze_ok h
      exact hstored hwallet
  | pause caller w =>
      obtain ⟨_, hrole, _, rfl⟩ := pause_ok h
      exact hstored (requireWalletRole_ok hrole).1
  | unpause caller w =>
      obtain ⟨_, hrole, _, rfl⟩ := unpause_ok h
      exact hstored (requireWalletRole_ok hrole).1
  | archive caller w =>
      obtain ⟨_, hrole, _, rfl⟩ := archive_ok h
      exact hstored (requireWalletRole_ok hrole).1
  | _ => exact (exec_sameWallets h trivial).numbered hnumbered

/-! ## Runs -/

variable {tr tr₁ tr₂ : List (Entry (State World) (Inputs H))} {q : Entry (State World) (Inputs H)}
  {t : ℕ}

theorem numbered_of_path (hpath : (machine H).Path HasRoom tr s t) : Numbered s := by
  refine hpath.invariant ?_ ?_
  · intro s hfresh
    have hcount : s.walletCount = none := Fresh.walletCount hfresh
    refine ⟨fun _ => hcount, ?_, ?_⟩
    · intro count hsome
      rw [hcount] at hsome
      cases hsome
    · intro id hid
      exact absurd (by simp [State.stateOf, Fresh.wallet hfresh id]) hid
  · intro i s s' hnumbered hroom hstep
    cases i with
    | invoke env call => exact hnumbered.exec hroom hstep
    | outside time w =>
        obtain ⟨_, rfl⟩ := hstep
        have hsame : SameWallets s { s with world := w } := ⟨rfl, rfl, rfl⟩
        exact hsame.numbered hnumbered

/-- What an entry of a run deposited in a wallet. -/
def depositedIn (id : ℕ) (asset : Address) (e : Entry (State World) (Inputs H)) : ℤ :=
  match e.input with
  | .invoke _ call => call.deposits id asset
  | .outside _ _ => 0

/-- **Bystanders cannot touch a wallet.**  Take any point of a run at which the wallet exists, and
the run from there on, and let nobody sign in it who may act on the wallet at that point: neither
the administrator nor a holder of `Agent` or more.  Whatever all others call in any order, at
the end of the run the wallet is as it was, with its roles, its limits and what was charged to
them, and its tracked balances are what they were and what was deposited. -/
theorem wallet_undisturbed (hpath : (machine H).Path HasRoom (tr₁ ++ q :: tr₂) s t)
    (hwallet : q.post.wallet id ≠ none)
    (hout : ∀ e ∈ tr₂, ∀ env call, e.input = .invoke env call →
      ∀ who ∈ env.auths, ¬ q.post.MayAct id who) :
    SameTerms id q.post s ∧ ∀ asset, s.balanceOf id asset
      = q.post.balanceOf id asset + (tr₂.map (depositedIn id asset)).sum := by
  rw [List.append_cons] at hpath
  refine hpath.stretch (Q := fun tr s _ => SameTerms id q.post s ∧ ∀ asset, s.balanceOf id asset
    = q.post.balanceOf id asset + (tr.map (depositedIn id asset)).sum) ?_ ?_
  · intro s t hq
    obtain ⟨_, _, _, _, _, rfl, _⟩ := hq.last
    refine ⟨⟨rfl, rfl, rfl, rfl, rfl, rfl, rfl, rfl⟩, ?_⟩
    intro asset
    exact (add_zero _).symm
  · intro tr e t' hpart hbefore _ hroom hstep hkept
    obtain ⟨hterms, hbalance⟩ := hkept
    have he : e ∈ tr₂ := hpart.subset (List.mem_append_right _ (List.mem_singleton_self e))
    have hnumbered := numbered_of_path hbefore
    have hsum (asset : Address) : ((tr ++ [e]).map (depositedIn id asset)).sum
        = (tr.map (depositedIn id asset)).sum + depositedIn id asset e := by
      simp
    have hside := hout e he
    obtain ⟨pre, input, post⟩ := e
    cases input with
    | outside time w =>
        obtain ⟨_, hpost⟩ := hstep
        obtain rfl : post = { pre with world := w } := hpost
        refine ⟨hterms.trans ⟨rfl, rfl, rfl, rfl, rfl, rfl, rfl, rfl⟩, ?_⟩
        intro asset
        have hstays := hbalance asset
        rw [hsum asset]
        exact hstays.trans (by simp [depositedIn])
    | invoke env call =>
        have hstands : pre.wallet id ≠ none := by
          rw [hterms.wallet]
          exact hwallet
        have hstate : pre.stateOf id ≠ none := fun hnone =>
          hstands (Option.map_eq_none_iff.1 hnone)
        have hadmin : pre.admin ≠ none := by
          intro hnone
          obtain ⟨count, hcount, _⟩ := hnumbered.numbered id hstate
          rw [hnumbered.uninitialized hnone] at hcount
          cases hcount
        have hnobody : ¬ ∃ who ∈ env.auths, pre.MayAct id who := by
          rintro ⟨who, hwho, hacts⟩
          exact hside env call rfl who hwho (hterms.mayAct.1 hacts)
        have hnew : ∀ owner w s', call = .createWallet owner →
            createWallet H env pre owner = .ok (w, s') → w ≠ id := by
          rintro owner w s' rfl hcreated
          exact createWallet_new hnumbered hroom hstate hcreated
        have hleft := exec_undisturbed hnobody hadmin hnew hstep
        refine ⟨hterms.trans hleft.terms, ?_⟩
        intro asset
        have hstays := hleft.balance asset
        rw [hsum asset, hstays, hbalance asset, add_assoc]
        rfl

/-! ### A run -/

/-- Of the token `contract 7`, account 1 holds 100 and account 2 holds 30. -/
def neighbours : Ledger := fun asset holder =>
  if asset = .contract 7 ∧ holder = .account 1 then 100
  else if asset = .contract 7 ∧ holder = .account 2 then 30
  else 0

/-- Account 2 pays 10 into the wallet of account 1, and spends from a wallet of its own. -/
def aside : Script Call :=
  [(signedBy 1 [2], .deposit 1 (.account 2) (.contract 7) 10),
    (signedBy 1 [2], .createWallet (.account 2)),
    (signedBy 2 [2], .deposit 2 (.account 2) (.contract 7) 20),
    (signedBy 3 [2], .transfer (.account 2) 2 (.account 9) (.contract 7) 5)]

/-- The wallet of account 1 has the 10 more, and is otherwise as account 1 left it. -/
theorem wallet_undisturbed_aside :
    let s := play (deployed neighbours) opening
    SameTerms 1 s (play s aside) ∧ (play s aside).balanceOf 1 (.contract 7) = 110 := by
  intro s
  let q : Entry (State Ledger) (Inputs referenceHost) :=
    ⟨play (deployed neighbours) (opening.take 2),
      .invoke (signedBy 0 [1]) (.deposit 1 (.account 1) (.contract 7) 100), s⟩
  have hfresh : Fresh referenceHost (deployed neighbours) := by
    apply deployed_fresh
    intro asset
    unfold neighbours
    simp
  have hstart : (machine referenceHost).Path HasRoom [] (deployed neighbours) 0 := .start hfresh
  have hcount (n : ℕ) (hn : n < 2) : (some n : Option ℕ) ≠ some (2 ^ 64 - 1) := by
    intro h
    rw [Option.some.injEq] at h
    omega
  have hplays : (deployment referenceHost).plays (deployed neighbours) 0 (opening ++ aside) = true :=
    rfl
  have hpath : (machine referenceHost).Path HasRoom
      ((deployment referenceHost).trace (deployed neighbours) (opening.take 2)
        ++ q :: (deployment referenceHost).trace s aside) (play s aside) 3 :=
    Deployment.path_play hstart hplays
      ⟨trivial, hcount 0 (by decide), trivial, trivial, hcount 1 (by decide), trivial, trivial, trivial⟩
  have hout : ∀ e ∈ (deployment referenceHost).trace s aside, ∀ env call,
      e.input = .invoke env call → ∀ who ∈ env.auths, ¬ q.post.MayAct 1 who := by
    intro e he env call hinput who hwho
    obtain ⟨c, hc, hcall⟩ := Deployment.input_mem he
    have hsigned : ∀ c ∈ aside, c.1.auths = [.account 2] := by
      simp [aside, signedBy]
    obtain rfl : env = c.1 := by
      rw [hinput] at hcall
      injection hcall
    rw [hsigned c hc, List.mem_singleton] at hwho
    subst hwho
    rintro (hadmin | ⟨wallet, role, hstored, hrole, _⟩)
    · cases hadmin
    · obtain rfl : (⟨.account 1, .active⟩ : WalletData) = wallet := Option.some.inj hstored
      cases hrole
  obtain ⟨hterms, hbalance⟩ := wallet_undisturbed hpath (by decide) hout
  exact ⟨hterms, hbalance (.contract 7)⟩

end WalletContract
end Astroid
