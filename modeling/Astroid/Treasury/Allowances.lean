import Astroid.Treasury.Routes

/-!
# The withdrawal allowances

An allowance caps what an agent may send to a recipient in an asset, from the call
that records it until it is replaced or removed.  `settle_withdrawal` advances the
counter of the allowance; `settle_batch` and `release_next_milestone` pay without
looking at it.  The cap holds in every run in which the agent sends the recipient
no batch leg and no milestone payout of the asset (`allowance_cap`).
-/

namespace Astroid
namespace TreasuryContract

open Outcome

variable {World : Type} {H : TreasuryHost World} {env : Env H.self} {s s' : State World}
  {id : AllowanceId}

/-! ## Who is paid by whom -/

/-- The caller of an invocation. -/
def Call.caller : Call → Address
  | .initializeContract _ admin => admin
  | .setRegistry caller _ => caller
  | .setPolicy caller _ => caller
  | .setBudget caller _ => caller
  | .setMultisig caller _ => caller
  | .setGuardian caller _ => caller
  | .addApprovedAsset caller _ => caller
  | .removeApprovedAsset caller _ => caller
  | .freeze caller => caller
  | .unfreeze caller => caller
  | .pause caller => caller
  | .unpause caller => caller
  | .deposit src _ _ => src
  | .allocateBudget admin _ _ => admin
  | .setAllowance admin _ _ _ _ _ => admin
  | .removeAllowance admin _ _ _ => admin
  | .withdraw caller _ _ _ => caller
  | .batchTransfer caller _ _ => caller
  | .setWithdrawalTimeLock caller _ _ => caller
  | .queueWithdrawal caller _ _ _ => caller
  | .queueBatchTransfer caller _ _ => caller
  | .executeWithdrawal caller _ => caller
  | .cancelWithdrawal caller _ => caller
  | .initMilestoneDisbursement caller _ _ _ _ => caller
  | .releaseNextMilestone caller _ => caller

/-- The outflow goes where the allowance looks. -/
def Outflow.Concerns (o : Outflow) (id : AllowanceId) : Prop :=
  o.asset = id.asset ∧ o.recipient = id.recipient

instance (o : Outflow) (id : AllowanceId) : Decidable (o.Concerns id) :=
  inferInstanceAs (Decidable (_ ∧ _))

/-- What some outflows paid to the recipient of an allowance in its asset. -/
def concerning (id : AllowanceId) (outflows : List Outflow) : ℤ :=
  ((outflows.filter (·.Concerns id)).map (·.amount)).sum

theorem concerning_append (outflows new : List Outflow) :
    concerning id (outflows ++ new) = concerning id outflows + concerning id new := by
  unfold concerning
  rw [List.filter_append, List.map_append, List.sum_append]

/-- Outflows that go elsewhere. -/
theorem concerning_append_aside {outflows new : List Outflow} (h : ∀ o ∈ new, ¬ o.Concerns id) :
    concerning id (outflows ++ new) = concerning id outflows := by
  have hnone : new.filter (·.Concerns id) = [] := by
    rw [List.filter_eq_nil_iff]
    intro o ho
    simpa using h o ho
  have hzero : concerning id new = 0 := by
    rw [concerning, hnone]
    rfl
  rw [concerning_append, hzero, add_zero]

theorem concerning_append_own {outflows : List Outflow} {o : Outflow} (h : o.Concerns id) :
    concerning id (outflows ++ [o]) = concerning id outflows + o.amount := by
  rw [concerning_append]
  simp [concerning, h]

/-- What an entry of a run paid under the eyes of an allowance: by its agent, to its
recipient, in its asset. -/
def paidUnder (id : AllowanceId) (e : Entry (State World) (Inputs H)) : ℤ :=
  match e.input with
  | .invoke _ call =>
      if call.caller = id.agent then
        concerning id e.post.outflows - concerning id e.pre.outflows
      else 0
  | .outside _ _ => 0

/-- What some entries paid. -/
def totalUnder (id : AllowanceId) (tr : List (Entry (State World) (Inputs H))) : ℤ :=
  (tr.map (paidUnder id)).sum

theorem totalUnder_append (tr : List (Entry (State World) (Inputs H)))
    (e : Entry (State World) (Inputs H)) :
    totalUnder id (tr ++ [e]) = totalUnder id tr + paidUnder id e := by
  simp [totalUnder]

/-! ## What a call does to an allowance -/

/-- A payout the settlement routine of which does not look at the allowance: a batch leg
or a milestone payout, to the recipient in the asset. -/
def Call.Bypasses (s : State World) (id : AllowanceId) : Call → Prop
  | .batchTransfer _ asset payments =>
      asset = id.asset ∧ ∃ p ∈ payments, p.recipient = id.recipient
  | .executeWithdrawal _ request => ∃ p, s.pendingWithdrawal request = some p ∧
      p.asset = id.asset ∧ ∃ leg ∈ p.payments, leg.recipient = id.recipient
  | .releaseNextMilestone _ schedule => ∃ d, s.milestone schedule = some d ∧
      d.asset = id.asset ∧ d.payee = id.recipient
  | _ => False

/-- What a call of `caller` did about an allowance that is recorded: nothing that concerns it,
or a payment inside it. -/
inductive Under (id : AllowanceId) (al : Allowance) (now : UInt64) (caller : Address)
    (s s' : State World) : Prop
  | aside : s'.allowance id = some al →
      (caller = id.agent → concerning id s'.outflows = concerning id s.outflows) →
      Under id al now caller s s'
  | consumed (amount : ℤ) : caller = id.agent → ¬ (al.expiresAt ≠ 0 ∧ al.expiresAt ≤ now) →
      amount ≤ al.limit - al.spent →
      s'.allowance id = some { al with spent := al.spent + amount } →
      concerning id s'.outflows = concerning id s.outflows + amount →
      Under id al now caller s s'

/-- What `consume_allowance` does to the allowance of an agent. -/
theorem consumeAllowance_under {own : AllowanceId} {amount : ℤ} {al : Allowance}
    (h : consumeAllowance H env s own amount = .ok s') (hal : s.allowance id = some al) :
    (own ≠ id → s'.allowance id = some al) ∧
      (own = id → ¬ (al.expiresAt ≠ 0 ∧ al.expiresAt ≤ env.timestamp) ∧
        amount ≤ al.limit - al.spent ∧
        s'.allowance id = some { al with spent := al.spent + amount }) := by
  unfold consumeAllowance at h
  constructor
  · intro hne
    split at h
    · cases h
      exact hal
    · simp only [bind_eq_ok, pure_eq_ok] at h
      obtain ⟨_, _, _, _, _, _, _, _, rfl⟩ := h
      exact (Function.update_of_ne hne.symm _ _).trans hal
  · rintro rfl
    rw [hal] at h
    simp only [bind_eq_ok, require_eq_ok, checkedSub_eq_ok, checkedAdd_eq_ok, pure_eq_ok] at h
    obtain ⟨_, hlive, _, ⟨_, rfl⟩, _, hroom, _, ⟨_, rfl⟩, rfl⟩ := h
    exact ⟨hlive, hroom, Function.update_self _ _ _⟩

theorem settleWithdrawal_under {t : Treasury} {caller a payee : Address} {amount : ℤ}
    {al : Allowance} (h : settleWithdrawal H env s t caller a payee amount = .ok s')
    (hal : s.allowance id = some al) : Under id al env.timestamp caller s s' := by
  obtain ⟨w₁, w₂, allowance, s₁, s₂, _, _, hallowance, _, hdebit, hpay, rfl⟩ :=
    settleWithdrawal_steps h
  obtain ⟨haside, hconsumed⟩ := consumeAllowance_under hallowance hal
  obtain rfl := debit_ok hdebit
  obtain ⟨w, _, _, rfl⟩ := payOut_ok hpay
  by_cases hown : (⟨caller, payee, a⟩ : AllowanceId) = id
  · obtain ⟨hlive, hroom, hspent⟩ := hconsumed hown
    subst hown
    refine .consumed amount rfl hlive hroom hspent ?_
    exact concerning_append_own ⟨rfl, rfl⟩
  · refine .aside (haside hown) ?_
    rintro rfl
    refine concerning_append_aside ?_
    rintro o ho ⟨hasset, hrecipient⟩
    obtain rfl := List.mem_singleton.1 ho
    refine hown ?_
    cases id
    subst hasset hrecipient
    rfl

theorem settleBatch_under {t : Treasury} {caller a : Address} {payments : List Payment}
    {al : Allowance} (h : settleBatch H env s t caller a payments = .ok s')
    (hal : s.allowance id = some al)
    (hkeeps : caller = id.agent → ¬ (a = id.asset ∧ ∃ p ∈ payments, p.recipient = id.recipient)) :
    Under id al env.timestamp caller s s' := by
  obtain ⟨w₁, w₂, s₁, s₂, _, _, hdebit, hpay, rfl⟩ := settleBatch_steps h
  obtain rfl := debit_ok hdebit
  obtain ⟨w, _, _, rfl⟩ := payOut_ok hpay
  refine .aside hal ?_
  intro hcaller
  refine concerning_append_aside ?_
  rintro o ho ⟨hasset, hrecipient⟩
  obtain ⟨p, hp, rfl⟩ := List.mem_map.1 ho
  exact hkeeps hcaller ⟨hasset, p, hp, hrecipient⟩

/-- **What a call does to a recorded allowance** that it neither writes nor bypasses. -/
theorem Route.under {call : Call} (h : Route H env s call s') {al : Allowance}
    (hal : s.allowance id = some al) (hwrites : call.allowanceId ≠ some id)
    (hkeeps : call.caller = id.agent → ¬ call.Bypasses s id) :
    Under id al env.timestamp call.caller s s' := by
  cases h with
  | quiet hquiet =>
      refine .aside ((hquiet.allowance id hwrites).trans hal) ?_
      intro _
      rw [hquiet.outflows]
  | withdraw _ _ hsettle => exact settleWithdrawal_under hsettle hal
  | batch _ hsettle => exact settleBatch_under hsettle hal hkeeps
  | executed _ _ _ _ hsettle =>
      cases settleWithdrawal_under hsettle hal with
      | aside hsame hconcerning => exact .aside hsame hconcerning
      | consumed amount hagent hlive hroom hspent hconcerning =>
          exact .consumed amount hagent hlive hroom hspent hconcerning
  | @executedBatch caller request p _ _ _ hp _ _ hsettle =>
      have hunder := settleBatch_under hsettle hal (by
        rintro hcaller ⟨hasset, hleg⟩
        exact hkeeps hcaller ⟨p, hp, hasset, hleg⟩)
      cases hunder with
      | aside hsame hconcerning => exact .aside hsame hconcerning
      | consumed amount hagent hlive hroom hspent hconcerning =>
          exact .consumed amount hagent hlive hroom hspent hconcerning
  | @released caller schedule d amount _ _ _ _ _ hd _ hdebit hpay =>
      obtain rfl := debit_ok hdebit
      obtain ⟨w, _, _, rfl⟩ := payOut_ok hpay
      refine .aside hal ?_
      intro hcaller
      refine concerning_append_aside ?_
      rintro o ho ⟨hasset, hrecipient⟩
      obtain rfl := List.mem_singleton.1 ho
      exact hkeeps hcaller ⟨d, hd, hasset, hrecipient⟩

/-! ## Over whole runs -/

/-- The agent of the allowance makes no payout past it while it is recorded. -/
def keepsUnder (id : AllowanceId) : Inputs H → State World → Prop
  | .invoke _ call, s => s.allowance id ≠ none → call.caller = id.agent → ¬ call.Bypasses s id
  | .outside _ _, _ => True

/-- The entry replaces or removes the allowance. -/
def Rewrites (id : AllowanceId) (e : Entry (State World) (Inputs H)) : Prop :=
  match e.input with
  | .invoke _ call => call.allowanceId = some id
  | .outside _ _ => False

/-- The allowance recorded with `limit` and `expiresAt` has been kept to by `tr`. -/
structure KeptTo (id : AllowanceId) (limit : ℤ) (expiresAt : UInt64)
    (tr : List (Entry (State World) (Inputs H))) : Prop where
  limit : totalUnder id tr ≤ limit
  expired : expiresAt ≠ 0 → ∀ e ∈ tr, expiresAt.toNat ≤ (machine H).time e.input →
    paidUnder id e = 0

/-- An entry that paid nothing, or within what is left of an allowance in force. -/
theorem KeptTo.append {limit amount : ℤ} {expiresAt : UInt64}
    {tr : List (Entry (State World) (Inputs H))} {e : Entry (State World) (Inputs H)}
    (h : KeptTo id limit expiresAt tr) (hpaid : paidUnder id e = amount)
    (hroom : amount = 0 ∨ amount ≤ limit - totalUnder id tr ∧
      ¬ (expiresAt ≠ 0 ∧ expiresAt.toNat ≤ (machine H).time e.input)) :
    KeptTo id limit expiresAt (tr ++ [e]) := by
  constructor
  · rw [totalUnder_append, hpaid]
    rcases hroom with rfl | ⟨hroom, _⟩
    · rw [add_zero]
      exact h.limit
    · omega
  · intro hexpires e' he' hlate
    rcases List.mem_append.1 he' with he' | he'
    · exact h.expired hexpires e' he' hlate
    · obtain rfl := List.mem_singleton.1 he'
      rcases hroom with rfl | ⟨_, hlive⟩
      · exact hpaid
      · exact absurd ⟨hexpires, hlate⟩ hlive

/-- A step keeps to an allowance whose counter is what was paid under it. -/
theorem keptTo_step {limit : ℤ} {expiresAt : UInt64} {tr : List (Entry (State World) (Inputs H))}
    {e : Entry (State World) (Inputs H)} (hkept : KeptTo id limit expiresAt tr)
    (hal : e.pre.allowance id
      = some ⟨id.agent, id.recipient, id.asset, limit, totalUnder id tr, expiresAt⟩)
    (hwrites : ¬ Rewrites id e) (hallow : keepsUnder id e.input e.pre)
    (hstep : Step H e.input e.pre e.post) :
    KeptTo id limit expiresAt (tr ++ [e]) ∧ e.post.allowance id
      = some ⟨id.agent, id.recipient, id.asset, limit, totalUnder id (tr ++ [e]), expiresAt⟩ := by
  have hsum : totalUnder id (tr ++ [e]) = totalUnder id tr + paidUnder id e :=
    totalUnder_append tr e
  obtain ⟨s, i, s'⟩ := e
  cases i with
  | outside time w =>
      obtain ⟨_, hs'⟩ := hstep
      have hpaid : paidUnder (H := H) id ⟨s, .outside time w, s'⟩ = 0 := rfl
      refine ⟨hkept.append hpaid (.inl rfl), ?_⟩
      rw [hsum, hpaid, add_zero]
      exact (congrArg (fun s : State World => s.allowance id) hs').trans hal
  | invoke env call =>
      have hcall : call.caller = id.agent → ¬ call.Bypasses s id :=
        hallow (by rw [hal]; exact Option.some_ne_none _)
      have hunder : Under id _ env.timestamp call.caller s s' :=
        (exec_route hstep).under hal hwrites hcall
      cases hunder with
      | aside hsame hconcerning =>
          have hpaid : paidUnder (H := H) id ⟨s, .invoke env call, s'⟩ = 0 := by
            unfold paidUnder
            by_cases hcaller : call.caller = id.agent
            · simp only [if_pos hcaller, hconcerning hcaller, sub_self]
            · simp only [if_neg hcaller]
          refine ⟨hkept.append hpaid (.inl rfl), ?_⟩
          rw [hsum, hpaid, add_zero]
          exact hsame
      | consumed amount hcaller hlive hroom hspent hconcerning =>
          have hpaid : paidUnder (H := H) id ⟨s, .invoke env call, s'⟩ = amount := by
            unfold paidUnder
            simp only [if_pos hcaller, hconcerning]
            omega
          refine ⟨hkept.append hpaid (.inr ⟨hroom, hlive⟩), ?_⟩
          rw [hsum, hpaid]
          exact hspent

/-- **The withdrawal allowance.**  In every run whose agent makes no payout past a
recorded allowance, what is paid under it from the call that records it until it is
replaced or removed is at most its limit, and nothing once it has expired. -/
theorem allowance_cap (H : TreasuryHost World) (id : AllowanceId) :
    ∀ tr₁ q tr₂ s t, (machine H).Path (keepsUnder id) (tr₁ ++ q :: tr₂) s t →
      ∀ (env : Env H.self) admin limit expiresAt,
      q.input = .invoke env (.setAllowance admin id.agent id.recipient id.asset limit expiresAt) →
      (∀ e ∈ tr₂, ¬ Rewrites id e) → KeptTo id limit expiresAt tr₂ := by
  intro tr₁ q tr₂ s t hpath env admin limit expiresAt hq hkept
  let Q : List (Entry (State World) (Inputs H)) → State World → Prop := fun tr s =>
    KeptTo id limit expiresAt tr ∧ s.allowance id
      = some ⟨id.agent, id.recipient, id.asset, limit, totalUnder id tr, expiresAt⟩
  have hrecorded : Q [] q.post := by
    have hstep := hpath.stepped (e := q) (by simp)
    rw [hq] at hstep
    obtain ⟨hpos, hq'⟩ := setAllowance_ok hstep
    refine ⟨⟨hpos.le, by simp⟩, ?_⟩
    rw [hq']
    exact Function.update_self _ _ _
  have hfinal : Q tr₂ s := by
    refine hpath.after hrecorded ?_
    intro tr e hpre _ hallow hstep hQ
    have hwrites := hkept e (hpre.subset (List.mem_append_right _ (List.mem_singleton_self e)))
    exact keptTo_step hQ.1 hQ.2 hwrites hallow hstep
  exact hfinal.1

/-! ## Two runs -/

/-- The allowance of account 0 for account 2 in the token `contract 7`. -/
def cap : AllowanceId := ⟨.account 0, .account 2, .contract 7⟩

/-- The treasury after the opening, and the call that sets the limit of `cap` to 50. -/
def openedTreasury : State Ledger := play (deployed (funded 0)) opening

def setCap : Env (.contract 0) × Call :=
  (signedBy 1 [0], .setAllowance (.account 0) (.account 0) (.account 2) (.contract 7) 50 0)

/-- The state it leaves, and its entry in a run. -/
def cappedTreasury : State Ledger := play openedTreasury [setCap]

def capEntry : Entry (State Ledger) (Inputs referenceHost) :=
  ⟨openedTreasury, .invoke setCap.1 setCap.2, cappedTreasury⟩

def withdrawal : Script Call :=
  [(signedBy 2 [0], .withdraw (.account 0) (.contract 7) (.account 2) 40)]

def batch : Script Call :=
  [(signedBy 2 [0], .batchTransfer (.account 0) (.contract 7) [⟨.account 2, 60⟩])]

/-- A withdrawal of 40 keeps to the limit of 50. -/
theorem allowance_cap_withdrawal :
    KeptTo cap 50 0 ((deployment referenceHost).trace cappedTreasury withdrawal) := by
  have hstart : (machine referenceHost).Path (keepsUnder cap) [] (deployed (funded 0)) 0 :=
    .start (funded_fresh le_rfl)
  have hallow : (deployment referenceHost).AllAllowed (keepsUnder cap) (deployed (funded 0))
      (opening ++ setCap :: withdrawal) :=
    ⟨fun _ _ => id, fun _ _ => id, fun _ _ => id, fun _ _ => id, fun _ _ => id, trivial⟩
  have hpath := Deployment.path_play hstart rfl hallow
  refine allowance_cap referenceHost cap
    ((deployment referenceHost).trace (deployed (funded 0)) opening) capEntry _ _ _ hpath
    (signedBy 1 [0]) (.account 0) 50 0 rfl ?_
  intro e he
  obtain rfl := List.mem_singleton.1 he
  rintro ⟨⟩

/-- **A batch transfer pays past an allowance.**  It sends 60 under a limit of 50. -/
theorem not_allowance_cap :
    ¬ ∀ tr₁ q tr₂ s t, (machine referenceHost).Path Machine.anyInput (tr₁ ++ q :: tr₂) s t →
      ∀ (env : Env referenceHost.self) admin limit expiresAt,
      q.input = .invoke env (.setAllowance admin cap.agent cap.recipient cap.asset limit expiresAt) →
      (∀ e ∈ tr₂, ¬ Rewrites cap e) → KeptTo cap limit expiresAt tr₂ := by
  intro h
  have hstart : (machine referenceHost).Path Machine.anyInput [] (deployed (funded 0)) 0 :=
    .start (funded_fresh le_rfl)
  have hallow : (deployment referenceHost).AllAllowed Machine.anyInput (deployed (funded 0))
      (opening ++ setCap :: batch) :=
    ⟨trivial, trivial, trivial, trivial, trivial, trivial⟩
  have hpath := Deployment.path_play hstart rfl hallow
  have hkept := h ((deployment referenceHost).trace (deployed (funded 0)) opening) capEntry
    ((deployment referenceHost).trace cappedTreasury batch) _ _ hpath (signedBy 1 [0])
    (.account 0) 50 0 rfl (by
      intro e he
      obtain rfl := List.mem_singleton.1 he
      rintro ⟨⟩)
  have hlimit := hkept.limit
  revert hlimit
  decide

end TreasuryContract
end Astroid
