import Astroid.Wallet.Frame

/-!
# The lifecycle of a wallet

A wallet moves between its four states by the calls of its lifecycle alone
(`exec_moves`), and what that says over a run is `lifecycle`: a paused wallet is
resumed by an `unpause` of an Admin, a frozen one is left by `unfreeze` or `archive`,
an archived one stays archived, and only an active one moves tokens.

Freezing does not remember what it found.  A paused wallet that is frozen and unfrozen
is active again, without an Admin (`not_lifecycle`); the runs of `lifecycle` are those
that freeze no paused wallet.  They also open fewer wallets than the counter can number,
which starts over at the first.
-/

namespace Astroid
namespace WalletContract

open Outcome

variable {World : Type} {H : WalletHost World} {env : Env H.self} {s s' : State World}
  {id : ℕ} {caller : Address}

/-- The state of a wallet. -/
def State.stateOf (s : State World) (id : ℕ) : Option ResourceState :=
  (s.wallet id).map (·.state)

theorem stateOf_store {w : ℕ} {data : WalletData} :
    (s.storeWallet w data).stateOf id = if id = w then some data.state else s.stateOf id := by
  by_cases h : id = w
  · subst h
    simp [State.stateOf, State.storeWallet]
  · simp [State.stateOf, State.storeWallet, h]

theorem SameWallets.stateOf (h : SameWallets s s') : s'.stateOf id = s.stateOf id := by
  unfold State.stateOf
  rw [h.wallet]

/-! ## Numbered wallets -/

/-- Wallets are numbered up to the counter, and there is none before the contract is
initialized. -/
structure Numbered (s : State World) : Prop where
  uninitialized : s.admin = none → s.walletCount = none
  bound : ∀ count, s.walletCount = some count → count < 2 ^ 64
  numbered : ∀ id, s.stateOf id ≠ none → ∃ count, s.walletCount = some count ∧ id ≤ count

theorem SameWallets.numbered (h : SameWallets s s') (hs : Numbered s) : Numbered s' := by
  refine ⟨?_, ?_, ?_⟩
  · rw [h.admin, h.walletCount]
    exact hs.uninitialized
  · rw [h.walletCount]
    exact hs.bound
  · intro id hid
    rw [h.stateOf] at hid
    rw [h.walletCount]
    exact hs.numbered id hid

/-- A wallet that is stored again keeps its number. -/
theorem Numbered.store {data : WalletData} (hs : Numbered s) (hid : s.stateOf id ≠ none) :
    Numbered (s.storeWallet id data) := by
  refine ⟨hs.uninitialized, hs.bound, ?_⟩
  intro w hw
  rw [stateOf_store] at hw
  by_cases hsame : w = id
  · subst hsame
    exact hs.numbered w hid
  · rw [if_neg hsame] at hw
    exact hs.numbered w hw

/-! ## Moves -/

/-- An unpause of the wallet by a caller who authorized it and holds `Admin` on it. -/
def AdminUnpause (id : ℕ) (s : State World) (env : Env H.self) (call : Call) : Prop :=
  ∃ caller wallet, call = .unpause caller id ∧ caller ∈ env.auths ∧ s.wallet id = some wallet ∧
    s.effectiveRole id wallet.owner caller = some .admin

/-- A call out of the frozen state. -/
def Thaws (id : ℕ) (call : Call) : Prop :=
  ∃ caller, call = .unfreeze caller id ∨ call = .archive caller id

/-- A call that moves tokens out of the wallet. -/
def Call.Moves (id : ℕ) : Call → Prop
  | .transfer _ walletId _ _ _ => walletId = id
  | .withdraw _ walletId _ _ => walletId = id
  | .batchExecuteValidated _ walletId _ => walletId = id
  | _ => False

/-- The condition on a step: it freezes no paused wallet, and it opens no wallet when the
counter is at its last number. -/
def KeepsPaused : Inputs H → State World → Prop
  | .invoke _ (.freeze _ id), s => s.stateOf id ≠ some .paused
  | .invoke _ (.createWallet _), s => s.walletCount ≠ some (2 ^ 64 - 1)
  | _, _ => True

/-- What a call does to the state of a wallet. -/
inductive Moved (id : ℕ) (env : Env H.self) (call : Call) (s s' : State World) : Prop
  | kept : s'.stateOf id = s.stateOf id → Moved id env call s s'
  | opened : s.stateOf id = none → s'.stateOf id = some .active → Moved id env call s s'
  | frozen : s.stateOf id = some .active ∨ s.stateOf id = some .frozen →
      s'.stateOf id = some .frozen → Moved id env call s s'
  | unfrozen : s.stateOf id = some .frozen → s'.stateOf id = some .active → Thaws id call →
      Moved id env call s s'
  | paused : s.stateOf id = some .active → s'.stateOf id = some .paused → Moved id env call s s'
  | unpaused : s.stateOf id = some .paused → s'.stateOf id = some .active →
      AdminUnpause id s env call → Moved id env call s s'
  | archived : s.stateOf id ≠ some .archived → s'.stateOf id = some .archived → Thaws id call →
      Moved id env call s s'

theorem satisfies_admin {role : Role} (h : role.Satisfies .admin) : role = .admin := by
  cases role with
  | admin => rfl
  | auditor | agent => exact absurd h (by decide)

/-- The owner, and whoever was granted the role, holds `Admin`. -/
theorem adminUnpause_of_role {wallet : WalletData}
    (h : requireWalletRole H env s id caller .admin = .ok wallet) :
    AdminUnpause id s env (.unpause caller id) := by
  obtain ⟨hwallet, hauth, role, hrole, hsatisfies⟩ := requireWalletRole_ok h
  obtain rfl := satisfies_admin hsatisfies
  exact ⟨caller, wallet, rfl, hauth, hwallet, hrole⟩

theorem stateOf_some {wallet : WalletData} (h : s.wallet id = some wallet) :
    s.stateOf id = some wallet.state := by
  simp [State.stateOf, h]

/-- A wallet that is stored again moves, and no other one does. -/
theorem stored_moved {call : Call} {w : ℕ} {wallet data : WalletData} (hnumbered : Numbered s)
    (hwallet : s.wallet w = some wallet)
    (hmoved : s.stateOf w = some wallet.state →
      (s.storeWallet w data).stateOf w = some data.state →
      Moved w env call s (s.storeWallet w data)) :
    Numbered (s.storeWallet w data) ∧ ∀ id, Moved id env call s (s.storeWallet w data) := by
  have hstate := stateOf_some hwallet
  constructor
  · exact hnumbered.store (by rw [hstate]; exact Option.some_ne_none _)
  · intro id
    by_cases hsame : id = w
    · subst hsame
      exact hmoved hstate (by simp [stateOf_store])
    · exact .kept (by rw [stateOf_store, if_neg hsame])

/-- The contract starts without a wallet. -/
theorem initializeContract_moves {call : Call} {admin : Address} (hnumbered : Numbered s)
    (h : initializeContract s admin = .ok s') :
    Numbered s' ∧ ∀ id, Moved id env call s s' := by
  obtain ⟨hnone, rfl⟩ := initializeContract_ok h
  refine ⟨⟨?_, ?_, ?_⟩, fun id => .kept rfl⟩
  · rintro ⟨⟩
  · rintro _ ⟨⟩
    decide
  · intro id hid
    obtain ⟨count, hcount, _⟩ := hnumbered.numbered id hid
    rw [hnumbered.uninitialized hnone] at hcount
    cases hcount

/-- A new wallet takes a number no other one has, as long as the counter has room. -/
theorem createWallet_moves {call : Call} {owner : Address} {w : ℕ} (hnumbered : Numbered s)
    (hroom : s.walletCount ≠ some (2 ^ 64 - 1)) (h : createWallet H env s owner = .ok (w, s')) :
    Numbered s' ∧ ∀ id, Moved id env call s s' := by
  obtain ⟨rfl, count, hcount, hw⟩ := createWallet_ok h
  have hbound := hnumbered.bound count hcount
  have hlast : count ≠ 2 ^ 64 - 1 := by
    rintro rfl
    exact hroom hcount
  have hnext : w = count + 1 := by omega
  -- the wallets there were are numbered up to the old count
  have hold : ∀ id, s.stateOf id ≠ none → id ≤ count := by
    intro id hid
    obtain ⟨count', hcount', hle⟩ := hnumbered.numbered id hid
    rw [hcount, Option.some.injEq] at hcount'
    exact hle.trans hcount'.ge
  have hstore : ∀ id, ({ s.storeWallet w ⟨owner, .active⟩ with walletCount := some w } :
      State World).stateOf id = if id = w then some .active else s.stateOf id :=
    fun id => stateOf_store
  refine ⟨⟨?_, ?_, ?_⟩, ?_⟩
  · intro hnone
    have hnone' := hnumbered.uninitialized hnone
    rw [hcount] at hnone'
    cases hnone'
  · rintro _ ⟨⟩
    omega
  · intro id hid
    refine ⟨w, rfl, ?_⟩
    rw [hstore] at hid
    by_cases hsame : id = w
    · exact hsame.le
    · rw [if_neg hsame] at hid
      have hle := hold id hid
      omega
  · intro id
    by_cases hsame : id = w
    · subst hsame
      refine .opened ?_ (by rw [hstore, if_pos rfl])
      by_contra hid
      have hle := hold id hid
      omega
    · exact .kept (by rw [hstore, if_neg hsame])

/-- **What every call does to the wallets**, freezing no paused one. -/
theorem exec_moves {call : Call} (hnumbered : Numbered s)
    (hallow : KeepsPaused (.invoke env call) s) (h : exec H env s call = .ok s') :
    Numbered s' ∧ ∀ id, Moved id env call s s' := by
  cases call with
  | initializeContract admin => exact initializeContract_moves hnumbered h
  | createWallet owner =>
      obtain ⟨w, h⟩ := snd_map_ok h
      exact createWallet_moves hnumbered hallow h
  | freeze caller w =>
      obtain ⟨wallet, hwallet, hlive, rfl⟩ := freeze_ok h
      refine stored_moved hnumbered hwallet fun hbefore hafter => .frozen ?_ hafter
      have hpaused : s.stateOf w ≠ some .paused := hallow
      rw [hbefore] at hpaused ⊢
      cases hstate : wallet.state with
      | active => exact .inl rfl
      | frozen => exact .inr rfl
      | paused => exact absurd (congrArg some hstate) hpaused
      | archived => exact absurd hstate hlive
  | unfreeze caller w =>
      obtain ⟨wallet, hwallet, hfrozen, rfl⟩ := unfreeze_ok h
      refine stored_moved hnumbered hwallet fun hbefore hafter => ?_
      rw [hfrozen] at hbefore
      exact .unfrozen hbefore hafter ⟨caller, .inl rfl⟩
  | pause caller w =>
      obtain ⟨wallet, hrole, hactive, rfl⟩ := pause_ok h
      refine stored_moved hnumbered (requireWalletRole_ok hrole).1 fun hbefore hafter => ?_
      rw [hactive] at hbefore
      exact .paused hbefore hafter
  | unpause caller w =>
      obtain ⟨wallet, hrole, hpaused, rfl⟩ := unpause_ok h
      refine stored_moved hnumbered (requireWalletRole_ok hrole).1 fun hbefore hafter => ?_
      rw [hpaused] at hbefore
      exact .unpaused hbefore hafter (adminUnpause_of_role hrole)
  | archive caller w =>
      obtain ⟨wallet, hrole, hlive, rfl⟩ := archive_ok h
      refine stored_moved hnumbered (requireWalletRole_ok hrole).1 fun hbefore hafter => ?_
      refine .archived ?_ hafter ⟨caller, .inr rfl⟩
      rw [hbefore]
      exact fun heq => hlive (Option.some.inj heq)
  | _ =>
      have hsame := exec_sameWallets h trivial
      exact ⟨hsame.numbered hnumbered, fun id => .kept hsame.stateOf⟩

/-- Only an active wallet moves tokens. -/
theorem exec_active {call : Call} (h : exec H env s call = .ok s') (hmoves : call.Moves id) :
    s.stateOf id = some .active := by
  have hactive : ∃ wallet, s.wallet id = some wallet ∧ wallet.state = .active := by
    cases call with
    | transfer caller w payee asset amount =>
        obtain rfl := hmoves
        obtain ⟨_, h⟩ := snd_map_ok h
        exact (transfer_gates (Act.commit_eq_ok.1 h)).active
    | withdraw caller w asset amount =>
        obtain rfl := hmoves
        obtain ⟨_, h⟩ := snd_map_ok h
        exact (withdraw_gates (Act.commit_eq_ok.1 h)).active
    | batchExecuteValidated caller w actions =>
        obtain rfl := hmoves
        obtain ⟨_, h⟩ := snd_map_ok h
        exact (batchExecuteValidated_gates (Act.commit_eq_ok.1 h)).active
    | _ => exact hmoves.elim
  obtain ⟨wallet, hwallet, hstate⟩ := hactive
  rw [stateOf_some hwallet, hstate]

/-! ## Runs -/

/-- What an entry of a run does to the state of a wallet. -/
inductive Passes (id : ℕ) (e : Entry (State World) (Inputs H)) : Prop
  | invoked (env : Env H.self) (call : Call) : e.input = .invoke env call →
      Moved id env call e.pre e.post → Passes id e
  | outside : e.post.stateOf id = e.pre.stateOf id → Passes id e

theorem step_passes {e : Entry (State World) (Inputs H)} (hnumbered : Numbered e.pre)
    (hallow : KeepsPaused e.input e.pre) (hstep : (machine H).step e.input e.pre e.post) :
    Numbered e.post ∧ ∀ id, Passes id e := by
  obtain ⟨s, i, s'⟩ := e
  cases i with
  | invoke env call =>
      obtain ⟨hnumbered', hmoved⟩ := exec_moves hnumbered hallow hstep
      exact ⟨hnumbered', fun id => .invoked env call rfl (hmoved id)⟩
  | outside time w =>
      have hs' : s' = { s with world := w } := hstep.2
      subst hs'
      have hsame : SameWallets s { s with world := w } := ⟨rfl, rfl, rfl⟩
      exact ⟨hsame.numbered hnumbered, fun id => .outside hsame.stateOf⟩

theorem numbered_path {tr : List (Entry (State World) (Inputs H))} {t : ℕ}
    (hpath : (machine H).Path KeepsPaused tr s t) : Numbered s := by
  refine hpath.invariant ?_ ?_
  · intro s hfresh
    have hcount : s.walletCount = none := Fresh.walletCount hfresh
    refine ⟨fun _ => hcount, ?_, ?_⟩
    · intro count hsome
      rw [hcount] at hsome
      cases hsome
    · intro id hid
      exact absurd (by simp [State.stateOf, Fresh.wallet hfresh id]) hid
  · intro i s s' hnumbered hallow hstep
    exact (step_passes (e := ⟨s, i, s'⟩) hnumbered hallow hstep).1

/-- The entry is an unpause of the wallet by an Admin. -/
def Resumes (id : ℕ) (e : Entry (State World) (Inputs H)) : Prop :=
  ∃ env call, e.input = .invoke env call ∧ AdminUnpause id e.pre env call

/-- What the role table promises of a wallet, at the end of a run. -/
structure Lifecycle (H : WalletHost World) (id : ℕ) (tr : List (Entry (State World) (Inputs H)))
    (s : State World) : Prop where
  resumed : ∀ tr₁ e tr₂, tr = tr₁ ++ e :: tr₂ → e.pre.stateOf id = some .paused →
    s.stateOf id = some .active → ∃ e' ∈ e :: tr₂, Resumes id e'
  thawed : ∀ e ∈ tr, e.pre.stateOf id = some .frozen → e.post.stateOf id ≠ some .frozen →
    ∃ env call, e.input = .invoke env call ∧ Thaws id call
  archived : ∀ e ∈ tr, e.pre.stateOf id = some .archived → s.stateOf id = some .archived
  active : ∀ env call s', exec H env s call = .ok s' → call.Moves id → s.stateOf id = some .active

section Entries

variable {e : Entry (State World) (Inputs H)} {seen : List (Entry (State World) (Inputs H))}

/-- A wallet that was paused is paused or archived, unless an Admin resumed it. -/
def HeldPaused (id : ℕ) (seen : List (Entry (State World) (Inputs H))) (s : State World) : Prop :=
  (∃ e ∈ seen, Resumes id e) ∨ s.stateOf id = some .paused ∨ s.stateOf id = some .archived

theorem Passes.heldPaused (h : Passes id e) (hheld : HeldPaused id seen e.pre) :
    HeldPaused id (seen ++ [e]) e.post := by
  rcases hheld with ⟨e', he', hresumes⟩ | hheld
  · exact .inl ⟨e', List.mem_append_left _ he', hresumes⟩
  · cases h with
    | outside hsame =>
        unfold HeldPaused
        rw [hsame]
        exact .inr hheld
    | invoked env call hinput hmoved =>
        cases hmoved with
        | kept hsame =>
            unfold HeldPaused
            rw [hsame]
            exact .inr hheld
        | opened hnone => simp [hnone] at hheld
        | frozen hbefore => rcases hbefore with hbefore | hbefore <;> simp [hbefore] at hheld
        | unfrozen hfrozen => simp [hfrozen] at hheld
        | paused _ hafter => exact .inr (.inl hafter)
        | unpaused _ _ hadmin =>
            exact .inl ⟨e, List.mem_append_right _ (List.mem_singleton_self e), env, call, hinput,
              hadmin⟩
        | archived _ hafter => exact .inr (.inr hafter)

theorem Passes.archived (h : Passes id e) (harchived : e.pre.stateOf id = some .archived) :
    e.post.stateOf id = some .archived := by
  cases h with
  | outside hsame => exact hsame.trans harchived
  | invoked env call hinput hmoved =>
      cases hmoved with
      | kept hsame => exact hsame.trans harchived
      | opened hnone => simp [hnone] at harchived
      | frozen hbefore => rcases hbefore with hbefore | hbefore <;> simp [hbefore] at harchived
      | unfrozen hfrozen => simp [hfrozen] at harchived
      | paused hactive => simp [hactive] at harchived
      | unpaused hpaused => simp [hpaused] at harchived
      | archived _ hafter => exact hafter

theorem Passes.thawed (h : Passes id e) (hfrozen : e.pre.stateOf id = some .frozen)
    (hleft : e.post.stateOf id ≠ some .frozen) :
    ∃ env call, e.input = .invoke env call ∧ Thaws id call := by
  cases h with
  | outside hsame => exact absurd (hsame.trans hfrozen) hleft
  | invoked env call hinput hmoved =>
      cases hmoved with
      | kept hsame => exact absurd (hsame.trans hfrozen) hleft
      | opened hnone => simp [hnone] at hfrozen
      | frozen _ hafter => exact absurd hafter hleft
      | unfrozen _ _ hthaws => exact ⟨env, call, hinput, hthaws⟩
      | paused hactive => simp [hactive] at hfrozen
      | unpaused hpaused => simp [hpaused] at hfrozen
      | archived _ _ hthaws => exact ⟨env, call, hinput, hthaws⟩

end Entries

/-- What holds of the states of the wallets after an entry, and passes every later one,
holds at the end of a run that freezes no paused wallet. -/
theorem passed {Q : List (Entry (State World) (Inputs H)) → State World → Prop}
    {tr₁ tr₂ : List (Entry (State World) (Inputs H))} {e : Entry (State World) (Inputs H)} {t : ℕ}
    (hpath : (machine H).Path KeepsPaused (tr₁ ++ e :: tr₂) s t) (hfirst : Q [] e.pre)
    (hkeeps : ∀ seen e, (∀ id, Passes id e) → Q seen e.pre → Q (seen ++ [e]) e.post) :
    Q (e :: tr₂) s := by
  obtain ⟨_, _, _, hpre, _, hallow, hstep, _⟩ := hpath.entry (e := e) (by simp)
  obtain ⟨hnumbered, hpasses⟩ := step_passes (numbered_path hpre) hallow hstep
  refine (hpath.after (Q := fun seen s => Numbered s ∧ Q (e :: seen) s) ?_ ?_).2
  · exact ⟨hnumbered, hkeeps [] e hpasses hfirst⟩
  · rintro seen e' _ _ hallow' hstep' ⟨hnumbered', hQ⟩
    obtain ⟨hnumbered'', hpasses'⟩ := step_passes hnumbered' hallow' hstep'
    exact ⟨hnumbered'', hkeeps (e :: seen) e' hpasses' hQ⟩

/-- **The lifecycle of a wallet**, over every run that freezes no paused wallet. -/
theorem lifecycle (H : WalletHost World) (id : ℕ) :
    ∀ tr s t, (machine H).Path KeepsPaused tr s t → Lifecycle H id tr s := by
  intro tr s t hpath
  refine ⟨?_, ?_, ?_, ?_⟩
  · rintro tr₁ e tr₂ rfl hpaused hactive
    have hheld : HeldPaused id (e :: tr₂) s :=
      passed hpath (.inr (.inl hpaused)) fun seen e hpasses => (hpasses id).heldPaused
    rcases hheld with hresumed | hheld
    · exact hresumed
    · simp [hactive] at hheld
  · intro e he hfrozen hleft
    obtain ⟨_, _, _, hpre, _, hallow, hstep, _⟩ := hpath.entry he
    obtain ⟨_, hpasses⟩ := step_passes (numbered_path hpre) hallow hstep
    exact (hpasses id).thawed hfrozen hleft
  · intro e he harchived
    obtain ⟨tr₁, tr₂, rfl⟩ := List.append_of_mem he
    exact passed (Q := fun _ s => s.stateOf id = some .archived) hpath harchived
      fun seen e hpasses => (hpasses id).archived
  · intro env call s' h hmoves
    exact exec_active h hmoves

/-! ## Two runs -/

/-- Account 1 pauses its wallet after making account 2 an agent of it. -/
def pausing : Script Call :=
  opening ++
    [(signedBy 1 [1], .grantRole (.account 1) 1 (.account 2) .agent),
      (signedBy 1 [1], .pause (.account 1) 1)]

/-- The lifecycle of a wallet that its owner pauses and resumes. -/
theorem lifecycle_resumed :
    let calls := pausing ++ [(signedBy 2 [1], .unpause (.account 1) 1)]
    Lifecycle referenceHost 1 ((deployment referenceHost).trace (deployed funded) calls)
      (play (deployed funded) calls) := by
  intro calls
  have hstart : (machine referenceHost).Path KeepsPaused [] (deployed funded) 0 :=
    .start funded_fresh
  have hcount : (some 0 : Option ℕ) ≠ some (2 ^ 64 - 1) := by simp
  have hplays : (deployment referenceHost).plays (deployed funded) 0 calls = true := rfl
  have hpath := Deployment.path_play hstart hplays
    ⟨trivial, hcount, trivial, trivial, trivial, trivial, trivial⟩
  exact lifecycle referenceHost 1 _ _ _ hpath

/-- **An agent resumes a paused wallet**: it freezes the wallet and unfreezes it. -/
theorem not_lifecycle :
    ¬ ∀ id tr s t, (machine referenceHost).Path Machine.anyInput tr s t →
      Lifecycle referenceHost id tr s := by
  intro h
  let s := play (deployed funded) pausing
  let thaw : Script Call :=
    [(signedBy 2 [2], .freeze (.account 2) 1), (signedBy 2 [2], .unfreeze (.account 2) 1)]
  have hplays : (deployment referenceHost).plays (deployed funded) 0 pausing = true := rfl
  have hthaws : (deployment referenceHost).plays s 1 thaw = true := rfl
  obtain ⟨tr, hpath⟩ := Deployment.anyPath_play funded_fresh hplays
  have hpath' := Deployment.path_playing hpath hthaws
  obtain ⟨e, he, env, call, hinput, caller, _, hcall, _⟩ :=
    (h 1 _ _ _ hpath').resumed tr _ _ rfl rfl rfl
  rcases List.mem_cons.1 he with rfl | he
  · cases hinput
    cases hcall
  · obtain rfl := List.mem_singleton.1 he
    cases hinput
    cases hcall

end WalletContract
end Astroid
