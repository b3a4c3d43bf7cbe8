import Astroid.Escrow.Account

/-!
# The contract refines the account machine

A successful call either touches no account at all, or takes one step of one
account, leaves every other account as it was, and makes exactly the token
transfers the step logs (`exec_touches`).
-/

namespace Astroid
namespace EscrowContract

open Outcome

variable {World : Type}

def State.account (s : State World) (id : ℕ) : Account where
  record := s.escrow id
  milestones := s.milestones id
  inflows := s.inflows.filter (·.escrow = id)
  outflows := s.outflows.filter (·.escrow = id)
  payouts := s.payouts.filter (·.escrow = id)

/-! ## How the storage operations read as account operations -/

section Operations

variable {s : State World} {id j : ℕ}

@[simp] theorem account_storeEscrow_self {e : Escrow} :
    (s.storeEscrow id e).account id = { s.account id with record := some e } := by
  simp [State.account, State.storeEscrow]

@[simp] theorem account_storeEscrow_ne {e : Escrow} (h : j ≠ id) :
    (s.storeEscrow id e).account j = s.account j := by
  simp [State.account, State.storeEscrow, h]

@[simp] theorem account_storeMilestones_self {set : MilestoneSet} :
    (s.storeMilestones id set).account id = { s.account id with milestones := some set } := by
  simp [State.account, State.storeMilestones]

@[simp] theorem account_storeMilestones_ne {set : MilestoneSet} (h : j ≠ id) :
    (s.storeMilestones id set).account j = s.account j := by
  simp [State.account, State.storeMilestones, h]

/-- Entries that all belong to `id` are all of its log, and none of another's. -/
theorem filter_legs {legs : List Leg} (h : ∀ l ∈ legs, l.escrow = id) :
    legs.filter (·.escrow = id) = legs := by
  rw [List.filter_eq_self]
  intro l hl
  exact decide_eq_true (h l hl)

theorem filter_legs_ne {legs : List Leg} (h : ∀ l ∈ legs, l.escrow = id) (hj : j ≠ id) :
    legs.filter (·.escrow = j) = [] := by
  rw [List.filter_eq_nil_iff]
  intro l hl
  simp only [h l hl, decide_eq_true_eq]
  exact fun hid => hj hid.symm

theorem account_recordPayout_self {w : World} {legs : List Leg} {payee : Address} {units : ℤ}
    (h : ∀ l ∈ legs, l.escrow = id) :
    (s.recordPayout w legs id payee units).account id = { s.account id with
      outflows := (s.account id).outflows ++ legs
      payouts := (s.account id).payouts ++ [⟨id, payee, units⟩] } := by
  simp [State.account, State.recordPayout, filter_legs h]

theorem account_recordPayout_ne {w : World} {legs : List Leg} {payee : Address} {units : ℤ}
    (h : ∀ l ∈ legs, l.escrow = id) (hj : j ≠ id) :
    (s.recordPayout w legs id payee units).account j = s.account j := by
  simp [State.account, State.recordPayout, filter_legs_ne h hj, hj.symm]

theorem account_recordInflow_self {w : World} {legs : List Leg} (h : ∀ l ∈ legs, l.escrow = id) :
    (s.recordInflow w legs).account id =
      { s.account id with inflows := (s.account id).inflows ++ legs } := by
  simp [State.account, State.recordInflow, filter_legs h]

theorem account_recordInflow_ne {w : World} {legs : List Leg} (h : ∀ l ∈ legs, l.escrow = id)
    (hj : j ≠ id) : (s.recordInflow w legs).account j = s.account j := by
  simp [State.account, State.recordInflow, filter_legs_ne h hj]

theorem depositLegs_escrow {src : Address} {assets : List AssetAmount} :
    ∀ l ∈ depositLegs id src assets, l.escrow = id := by
  intro l hl
  obtain ⟨a, _, rfl⟩ := List.mem_map.1 hl
  rfl

end Operations

/-! ## Token traffic -/

/-- The token transfers of one call: `ins` into custody, by parties other than
the contract, and `outs` out of it, in the order they were made. -/
inductive Traffic (H : EscrowHost World) : World → List Leg → List Leg → World → Prop
  | idle {w : World} : Traffic H w [] [] w
  | pulled {w w₁ w₂ : World} {l : Leg} {ins outs : List Leg} :
      H.transfer w l.asset l.party H.self l.amount = .ok w₁ → l.party ≠ H.self →
      Traffic H w₁ ins outs w₂ → Traffic H w (l :: ins) outs w₂
  | paid {w w₁ w₂ : World} {l : Leg} {ins outs : List Leg} :
      H.transfer w l.asset H.self l.party l.amount = .ok w₁ →
      Traffic H w₁ ins outs w₂ → Traffic H w ins (l :: outs) w₂

/-- With exact tokens, custody gains what came in and loses at most what went
out. -/
theorem Traffic.custody {H : EscrowHost World} (hx : H.Exact) {w w' : World}
    {ins outs : List Leg} (h : Traffic H w ins outs w') (houts : ∀ l ∈ outs, 0 ≤ l.amount)
    (asset : Address) :
    H.custody w asset + Tally.tally (·.amount) (·.asset = asset) ins
      - Tally.tally (·.amount) (·.asset = asset) outs ≤ H.custody w' asset := by
  induction h with
  | idle => simp
  | @pulled w w₁ w₂ l ins outs htransfer hparty _ ih =>
      have hin := hx.custody_in htransfer hparty asset
      have hrest := ih houts
      simp only [Tally.tally_cons, eq_comm (a := l.asset)]
      linarith
  | @paid w w₁ w₂ l ins outs htransfer _ ih =>
      rw [List.forall_mem_cons] at houts
      have hout := hx.custody_out htransfer houts.1 asset
      have hrest := ih houts.2
      simp only [Tally.tally_cons, eq_comm (a := l.asset)]
      linarith

section Loops

variable {H : EscrowHost World} {w w' : World} {id : ℕ} {payee src : Address}

theorem sendShares_ok {fundedAmount units : ℤ} {assets : List AssetAmount} {legs : List Leg}
    (h : sendShares H id payee fundedAmount units w assets = .ok (w', legs)) :
    legs = shareLegs id payee fundedAmount units assets ∧ Traffic H w [] legs w' := by
  induction assets generalizing w legs with
  | nil =>
      cases h
      exact ⟨rfl, .idle⟩
  | cons a rest ih =>
      simp only [sendShares, bind_eq_ok, checkedMul_eq_ok, checkedDiv_eq_ok] at h
      obtain ⟨_, ⟨_, rfl⟩, _, ⟨_, _, rfl⟩, h⟩ := h
      split at h
      · rename_i hpos
        simp only [bind_eq_ok, TokenHost.transferOrTrap_eq_ok, Prod.exists, pure_eq_ok,
          Prod.mk.injEq] at h
        obtain ⟨w₁, htransfer, _, legs', hrest, rfl, rfl⟩ := h
        obtain ⟨rfl, htraffic⟩ := ih hrest
        exact ⟨by simp [shareLegs, hpos], .paid htransfer htraffic⟩
      · rename_i hpos
        obtain ⟨rfl, htraffic⟩ := ih h
        exact ⟨by simp [shareLegs, hpos], htraffic⟩

theorem pullAssets_ok {assets : List AssetAmount} {total total' : ℤ}
    (h : pullAssets H src w total assets = .ok (w', total')) (hsrc : src ≠ H.self) :
    total' = total + totalAmount assets ∧ (assets ≠ [] → total' ≤ i128Max) ∧
      Traffic H w (depositLegs id src assets) [] w' := by
  induction assets generalizing w total with
  | nil =>
      cases h
      exact ⟨by simp [totalAmount], by simp, .idle⟩
  | cons a rest ih =>
      simp only [pullAssets, bind_eq_ok, TokenHost.transferOrTrap_eq_ok, checkedAdd_eq_ok] at h
      obtain ⟨w₁, htransfer, _, ⟨hrange, rfl⟩, hrest⟩ := h
      obtain ⟨rfl, hmax, htraffic⟩ := ih hrest
      refine ⟨by simp [totalAmount, add_assoc], fun _ => ?_, .pulled htransfer hsrc htraffic⟩
      by_cases hnil : rest = []
      · subst hnil
        simpa [totalAmount] using hrange.2
      · exact hmax hnil

end Loops

/-! ## The contract steps accounts -/

/-- A call that touches no account and moves no token. -/
structure Quiet (s s' : State World) : Prop where
  world : s'.world = s.world
  account : ∀ j, s'.account j = s.account j
  inflows : s'.inflows = s.inflows
  outflows : s'.outflows = s.outflows
  count : s'.getCount = s.getCount

/-- A call that takes one step of the account of `id`, and makes exactly the
transfers that step logs. -/
structure Touches (H : EscrowHost World) (now : UInt64) (call : Call) (s s' : State World)
    (id : ℕ) : Prop where
  step : Account.Step H.self now call id (s.account id) (s'.account id)
  others : ∀ j, j ≠ id → s'.account j = s.account j
  traffic : ∃ ins outs, Traffic H s.world ins outs s'.world ∧
    s'.inflows = s.inflows ++ ins ∧ s'.outflows = s.outflows ++ outs ∧
    (∀ l ∈ ins, l.escrow = id) ∧ ∀ l ∈ outs, l.escrow = id
  count : s.getCount ≤ s'.getCount
  id_le : id ≤ s'.getCount

/-- Ids the counter has not reached are unused. -/
def Unused (s : State World) : Prop := ∀ j, s.getCount < j → s.account j = .blank

section Touching

variable {H : EscrowHost World} {env : Env H.self} {call : Call} {s s' : State World}
  {id : ℕ} {e : Escrow}

theorem Unused.id_le (hu : Unused s) (he : s.escrow id = some e) : id ≤ s.getCount := by
  by_contra hlt
  have hblank : (s.account id).record = none := by
    rw [hu id (not_le.1 hlt)]
    rfl
  change s.escrow id = none at hblank
  rw [he] at hblank
  cases hblank

theorem Sends.escrow {payee : Address} {units : ℤ} {legs : List Leg}
    (h : Sends id e payee units legs) : ∀ l ∈ legs, l.escrow = id := by
  rcases h with rfl | ⟨_, rfl⟩
  · exact fun l hl => (shareLegs_mem hl).1
  · simp

theorem transferAll_ok {payee : Address} {remaining : ℤ} {w : World} {legs : List Leg}
    (h : transferAll H s id e payee remaining = .ok (w, legs)) :
    Sends id e payee remaining legs ∧ Traffic H s.world [] legs w := by
  unfold transferAll at h
  split at h
  · rename_i hzero
    cases h
    exact ⟨.inr ⟨hzero.le, rfl⟩, .idle⟩
  · obtain ⟨rfl, htraffic⟩ := sendShares_ok h
    exact ⟨.inl rfl, htraffic⟩

theorem returnRemaining_ok {remaining : ℤ} {w : World} {legs : List Leg}
    (h : returnRemaining H s id e remaining = .ok (w, legs)) :
    Sends id e e.sender remaining legs ∧ Traffic H s.world [] legs w := by
  unfold returnRemaining at h
  split at h
  · obtain ⟨rfl, htraffic⟩ := sendShares_ok h
    exact ⟨.inl rfl, htraffic⟩
  · rename_i hpos
    cases h
    exact ⟨.inr ⟨not_lt.1 hpos, rfl⟩, .idle⟩

/-- A payout touches the account it pays out of. -/
theorem touches_of_paid {e' : Escrow} {w : World} {legs : List Leg} {payee : Address} {units : ℤ}
    (hu : Unused s) (he : s.escrow id = some e) (hms : s.milestones id = none)
    (hreason : Reason env.timestamp call id e payee units) (hpaid : Paid e units e')
    (hsends : Sends id e payee units legs) (htraffic : Traffic H s.world [] legs w)
    (hs' : s' = (s.storeEscrow id e').recordPayout w legs id payee units) :
    Touches H env.timestamp call s s' id := by
  have hlegs := hsends.escrow
  subst hs'
  refine ⟨?_, ?_, ⟨[], legs, htraffic, (List.append_nil _).symm, rfl, by simp, hlegs⟩, le_rfl,
    hu.id_le he⟩
  · rw [account_recordPayout_self hlegs, account_storeEscrow_self]
    exact .paid he hms hreason hpaid hsends
  · intro j hj
    rw [account_recordPayout_ne hlegs hj, account_storeEscrow_ne hj]

/-- A funded creation touches the account of the next id. -/
theorem openFunded_touches (hu : Unused s) (hauth : e.sender ∈ env.auths)
    (hne : e.recipient ≠ e.sender) (hassets : ValidAssets s e.assets) (hstate : e.state = .funded)
    (hreleased : e.releasedAmount = 0) (h : openFunded H s e = .ok (id, s')) :
    Touches H env.timestamp call s s' id := by
  have hsender := env.ne_current hauth
  obtain ⟨w, total, rfl, hpull, rfl⟩ := openFunded_ok h
  obtain ⟨rfl, hmax, htraffic⟩ := pullAssets_ok hpull hsender
  have hwf : WellFormed H.self { e with fundedAmount := 0 + totalAmount e.assets } :=
    ⟨hsender, hne, hassets.nonempty, hassets.amount_pos, hassets.nodup⟩
  have hblank : s.account (s.getCount + 1) = .blank := hu _ (Nat.lt_succ_self _)
  refine ⟨?_, ?_, ⟨_, [], htraffic, rfl, (List.append_nil _).symm, depositLegs_escrow, by simp⟩,
    Nat.le_succ _, le_rfl⟩
  · rw [account_storeEscrow_self, account_recordInflow_self depositLegs_escrow]
    change Account.Step H.self env.timestamp call _ (s.account (s.getCount + 1))
      { s.account (s.getCount + 1) with
        record := some { e with fundedAmount := 0 + totalAmount e.assets }
        inflows := (s.account (s.getCount + 1)).inflows ++ depositLegs _ e.sender e.assets }
    rw [hblank]
    exact .opened hwf hstate (zero_add _) (hmax hassets.nonempty) hreleased
  · intro j hj
    rw [account_storeEscrow_ne hj, account_recordInflow_ne depositLegs_escrow hj]
    rfl

/-- An escrow is opened under an id the counter had not reached. -/
theorem openFunded_new (h : openFunded H s e = .ok (id, s')) : s.getCount < id := by
  obtain ⟨_, _, rfl, _⟩ := openFunded_ok h
  exact Nat.lt_succ_self _

theorem createWithRefundWindow_touches {sender recipient arbiter : Address}
    {assets : List AssetAmount} {deadline gracePeriod refundWindow : UInt64}
    {releaseSigners : List (BytesN 32)} {releaseThreshold : ℕ} (hu : Unused s)
    (h : createWithRefundWindow H env s sender recipient arbiter assets deadline gracePeriod
      refundWindow releaseSigners releaseThreshold = .ok (id, s')) :
    Touches H env.timestamp call s s' id := by
  obtain ⟨hauth, hne, _, hassets, hopen⟩ := createWithRefundWindow_ok h
  exact openFunded_touches hu hauth hne hassets rfl rfl hopen

/-- Recording a release condition touches no account. -/
theorem Touches.storeReleaseCondition {c : ReleaseCondition}
    (h : Touches H env.timestamp call s s' id) :
    Touches H env.timestamp call s (s'.storeReleaseCondition id c) id :=
  ⟨h.step, h.others, h.traffic, h.count, h.id_le⟩

theorem initializeTimelock_touches {sender recipient arbiter : Address}
    {assets : List AssetAmount} {unlockTime gracePeriod : UInt64} (hu : Unused s)
    (h : initializeTimelock H env s sender recipient arbiter assets unlockTime gracePeriod
      = .ok (id, s')) : Touches H env.timestamp call s s' id := by
  obtain ⟨hauth, hne, hassets, rfl, rfl⟩ := initializeTimelock_ok h
  have hblank : s.account (s.getCount + 1) = .blank := hu _ (Nat.lt_succ_self _)
  refine ⟨?_, ?_, ⟨[], [], .idle, (List.append_nil _).symm, (List.append_nil _).symm, by simp,
    by simp⟩, Nat.le_succ _, le_rfl⟩
  · rw [account_storeEscrow_self]
    change Account.Step H.self env.timestamp call _ (s.account (s.getCount + 1))
      { s.account (s.getCount + 1) with record := some _ }
    rw [hblank]
    exact .recorded ⟨env.ne_current hauth, hne, hassets.nonempty, hassets.amount_pos,
      hassets.nodup⟩ rfl rfl rfl
  · intro j hj
    rw [account_storeEscrow_ne hj]
    rfl

theorem fund_touches {sender : Address} (hu : Unused s)
    (hnonempty : ∀ e, s.escrow id = some e → e.assets ≠ [])
    (h : fund H env s sender id = .ok s') : Touches H env.timestamp call s s' id := by
  obtain ⟨e, w, total, hauth, he, rfl, hstate, hpull, rfl⟩ := fund_ok h
  obtain ⟨rfl, hmax, htraffic⟩ := pullAssets_ok hpull (env.ne_current hauth)
  refine ⟨?_, ?_, ⟨_, [], htraffic, rfl, (List.append_nil _).symm, depositLegs_escrow, by simp⟩,
    le_rfl, hu.id_le he⟩
  · rw [account_storeEscrow_self, account_recordInflow_self depositLegs_escrow]
    have hle := hmax (hnonempty e he)
    rw [zero_add] at hle ⊢
    exact .funded he hstate hle
  · intro j hj
    rw [account_storeEscrow_ne hj, account_recordInflow_ne depositLegs_escrow hj]

/-- A payout of part or all of what is claimable. -/
theorem disburse_touches {units r : ℤ} (hu : Unused s) (he : s.escrow id = some e)
    (hms : s.milestones id = none)
    (hreason : Reason env.timestamp call id e e.recipient units)
    (h : disburse H s id e units = .ok (r, s')) : Touches H env.timestamp call s s' id := by
  obtain ⟨w, legs, rfl, hsend, hs'⟩ := disburse_ok h
  obtain ⟨rfl, htraffic⟩ := sendShares_ok hsend
  refine touches_of_paid hu he hms hreason ?_ (.inl rfl) htraffic hs'
  by_cases hall : e.releasedAmount + units = e.fundedAmount
  · rw [if_pos hall]
    exact .final hall (.inl rfl)
  · rw [if_neg hall]
    exact .ongoing hall

theorem withdraw_touches {caller : Address} {amount r : ℤ} (hu : Unused s)
    (h : withdraw H env s caller id amount = .ok (r, s')) :
    Touches H env.timestamp (.withdraw caller id amount) s s' id := by
  obtain ⟨e, claimable, _, hpos, he, hms, rfl, hstate, hclaim, hle, hdisburse⟩ := withdraw_ok h
  obtain ⟨hscheduled, hvested⟩ := calculateClaimableAmount_pos hclaim (hpos.trans_le hle)
  exact disburse_touches hu he hms
    (.instalment hstate hpos hscheduled (.inl rfl) ⟨_, hvested, by linarith⟩) hdisburse

theorem claim_touches {caller : Address} {r : ℤ} (hu : Unused s)
    (h : claim H env s caller id = .ok (r, s')) :
    Touches H env.timestamp (.claim caller id) s s' id := by
  obtain ⟨e, _, he, hms, rfl, hpays⟩ := claim_ok h
  rcases hpays with ⟨hstate, units, r', hunits, hpos, hdisburse⟩ | ⟨hstate, _, w, legs, hsend, hs'⟩
  · rcases claimableUnits_ok hunits with ⟨hscheduled, hclaim⟩ | ⟨hunscheduled, _, rfl⟩
    · obtain ⟨_, hvested⟩ := calculateClaimableAmount_pos hclaim hpos
      exact disburse_touches hu he hms
        (.instalment hstate hpos hscheduled (.inr ⟨rfl, hclaim⟩) ⟨_, hvested, le_rfl⟩) hdisburse
    · exact disburse_touches hu he hms (.claimRest (.inl ⟨hstate, hunscheduled⟩)) hdisburse
  · obtain ⟨hsends, htraffic⟩ := transferAll_ok hsend
    exact touches_of_paid hu he hms (.claimRest (.inr hstate))
      (.final (by ring) (.inl rfl)) hsends htraffic hs'

theorem release_touches {arbiter : Address} {releaseAmount : ℤ} (hu : Unused s)
    (h : release H env s arbiter id releaseAmount = .ok s') :
    Touches H env.timestamp (.release arbiter id releaseAmount) s s' id := by
  obtain ⟨e, w, legs, _, he, _, hstate, hms, hunlocked, _, hsend, hs'⟩ := release_ok h
  obtain ⟨hsends, htraffic⟩ := transferAll_ok hsend
  exact touches_of_paid hu he hms (.settle hstate rfl hunlocked) (.final (by ring) (.inl rfl))
    hsends htraffic hs'

theorem overrideRelease_touches {nonce : UInt64} {signatures : List OverrideSignature}
    (hu : Unused s) (h : overrideRelease H env s id nonce signatures = .ok s') :
    Touches H env.timestamp (.overrideRelease id nonce signatures) s s' id := by
  obtain ⟨e, w, legs, he, hms, hstate, _, hunlocked, hsend, hs'⟩ := overrideRelease_ok h
  obtain ⟨hsends, htraffic⟩ := transferAll_ok hsend
  exact touches_of_paid hu he hms (.settle hstate rfl hunlocked) (.final (by ring) (.inl rfl))
    hsends htraffic hs'

/-- The sender's exits give back the rest. -/
theorem SenderExit.touches {caller : Address} {w : World} {legs : List Leg} (hu : Unused s)
    (hexit : SenderExit env s s' caller id e w legs)
    (hstate : e.state = .funded ∨ e.state = .expired ∨ e.state = .created)
    (hsends : Sends id e e.sender (e.fundedAmount - e.releasedAmount) legs)
    (htraffic : Traffic H s.world [] legs w) : Touches H env.timestamp call s s' id :=
  touches_of_paid hu hexit.record hexit.milestones (.giveBack hstate)
    (.final (by ring) (.inr rfl)) hsends htraffic hexit.post

theorem refund_touches {caller : Address} (hu : Unused s) (h : refund H env s caller id = .ok s') :
    Touches H env.timestamp call s s' id := by
  obtain ⟨e, w, legs, hexit, hstate, _, hsend⟩ := refund_ok h
  obtain ⟨hsends, htraffic⟩ := returnRemaining_ok hsend
  exact hexit.touches hu (hstate.imp_right .inl) hsends htraffic

theorem refundTimelock_touches {caller : Address} (hu : Unused s)
    (h : refundTimelock H env s caller id = .ok s') : Touches H env.timestamp call s s' id := by
  obtain ⟨e, w, legs, hexit, hstate, hsend⟩ := refundTimelock_ok h
  obtain ⟨hsends, htraffic⟩ := returnRemaining_ok hsend
  exact hexit.touches hu (by tauto) hsends htraffic

theorem reclaim_touches {caller : Address} (hu : Unused s)
    (h : reclaim H env s caller id = .ok s') : Touches H env.timestamp call s s' id := by
  obtain ⟨e, w, legs, hexit, hstate, _, hsend⟩ := reclaim_ok h
  obtain ⟨hsends, htraffic⟩ := transferAll_ok hsend
  exact hexit.touches hu (hstate.imp_right .inl) hsends htraffic

/-- A step that only rewrites the record touches no token. -/
theorem touches_of_restated {e' : Escrow} (hu : Unused s) (he : s.escrow id = some e)
    (hstep : Account.Step H.self env.timestamp call id (s.account id)
      { s.account id with record := some e' })
    (hs' : s' = s.storeEscrow id e') : Touches H env.timestamp call s s' id := by
  subst hs'
  refine ⟨?_, fun j hj => account_storeEscrow_ne hj, ⟨[], [], .idle, (List.append_nil _).symm,
    (List.append_nil _).symm, by simp, by simp⟩, le_rfl, hu.id_le he⟩
  rw [account_storeEscrow_self]
  exact hstep

theorem expire_touches (hu : Unused s) (h : expire H env s id = .ok s') :
    Touches H env.timestamp call s s' id := by
  obtain ⟨e, he, hstate, _, hs'⟩ := expire_ok h
  exact touches_of_restated hu he (.expired he hstate) hs'

theorem close_touches {caller : Address} (hu : Unused s) (h : close H env s caller id = .ok s') :
    Touches H env.timestamp call s s' id := by
  obtain ⟨e, he, hstate, hs'⟩ := close_ok h
  exact touches_of_restated hu he (.closed he hstate) hs'

/-! ### Milestones -/

theorem totalBps_ok {total r : ℕ} {weights : List ℕ} (h : totalBps total weights = .ok r) :
    r = total + weights.sum := by
  induction weights generalizing total with
  | nil =>
      cases h
      rfl
  | cons bps rest ih =>
      simp only [totalBps, bind_eq_ok, require_eq_ok] at h
      obtain ⟨_, _, hrest⟩ := h
      rw [ih hrest, List.sum_cons, add_assoc]

theorem depositWithMilestones_touches {sender recipient arbiter asset : Address} {amount : ℤ}
    {deadline : UInt64} {milestones : List ℕ} (hu : Unused s)
    (h : depositWithMilestones H env s sender recipient arbiter asset amount deadline milestones
      = .ok (id, s')) : Touches H env.timestamp call s s' id := by
  obtain ⟨w, hauth, hpos, hne, hbps, rfl, htransfer, rfl⟩ := depositWithMilestones_ok h
  have hsender := env.ne_current hauth
  have hblank : s.account (s.getCount + 1) = .blank := hu _ (Nat.lt_succ_self _)
  have hlegs : ∀ l ∈ [(⟨s.getCount + 1, asset, sender, amount⟩ : Leg)],
      l.escrow = s.getCount + 1 := by simp
  have hsum : ((milestones.zipIdx.map fun p =>
      (⟨p.2, p.1, .pending⟩ : Milestone)).map fun m => (m.releaseBps : ℤ)).sum = 10000 := by
    have hweights : milestones.sum = 10000 := by
      rw [← zero_add milestones.sum, ← totalBps_ok hbps]
    rw [List.map_map]
    change (milestones.zipIdx.map (Nat.cast ∘ Prod.fst)).sum = (10000 : ℤ)
    rw [← List.map_map, List.zipIdx_map_fst, ← Nat.cast_list_sum, hweights]
    rfl
  refine ⟨?_, ?_, ⟨_, [], .pulled htransfer hsender .idle, rfl, (List.append_nil _).symm, hlegs,
    by simp⟩, Nat.le_succ _, le_rfl⟩
  · rw [account_storeEscrow_self, account_storeMilestones_self, account_recordInflow_self hlegs]
    change Account.Step H.self env.timestamp call _ (s.account (s.getCount + 1))
      { s.account (s.getCount + 1) with
        record := some _
        milestones := some _
        inflows := (s.account (s.getCount + 1)).inflows ++ [⟨_, asset, sender, amount⟩] }
    rw [hblank]
    refine Account.Step.phased ⟨hsender, hne, by simp, by simpa using hpos,
      by simp⟩ rfl rfl rfl rfl rfl ?_ rfl hsum rfl
    intro m hm
    obtain ⟨p, _, rfl⟩ := List.mem_map.1 hm
    rfl
  · intro j hj
    rw [account_storeEscrow_ne hj, account_storeMilestones_ne hj, account_recordInflow_ne hlegs hj]
    rfl

theorem releaseMilestone_touches {caller : Address} {index : ℕ} (hu : Unused s)
    (h : releaseMilestone H env s caller id index = .ok s') :
    Touches H env.timestamp call s s' id := by
  obtain ⟨e, set, i, m, primary, w, he, hset, hlive, hstate, hm, hpending, hprimary, htransfer,
    hs'⟩ := releaseMilestone_ok h
  have hlegs : ∀ l ∈ [(⟨id, primary.asset, e.recipient, milestonePayout e set m⟩ : Leg)],
      l.escrow = id := by simp
  have htraffic := Traffic.paid (H := H)
    (l := ⟨id, primary.asset, e.recipient, milestonePayout e set m⟩) htransfer .idle
  have hstep := @Account.Step.approved H.self env.timestamp call id (s.account id) _ _ _ _ _
    he hset hlive hstate hm hpending hprimary
  dsimp only at hs'
  split at hs'
  · rename_i hall
    subst hs'
    refine ⟨?_, ?_, ⟨[], _, htraffic, (List.append_nil _).symm, rfl, by simp, hlegs⟩, le_rfl,
      hu.id_le he⟩
    · rw [account_storeEscrow_self, account_storeMilestones_self, account_recordPayout_self hlegs]
      rw [if_pos hall] at hstep
      exact hstep
    · intro j hj
      rw [account_storeEscrow_ne hj, account_storeMilestones_ne hj,
        account_recordPayout_ne hlegs hj]
  · rename_i hall
    subst hs'
    refine ⟨?_, ?_, ⟨[], _, htraffic, (List.append_nil _).symm, rfl, by simp, hlegs⟩, le_rfl,
      hu.id_le he⟩
    · rw [account_storeMilestones_self, account_recordPayout_self hlegs]
      rw [if_neg hall, ← he] at hstep
      exact hstep
    · intro j hj
      rw [account_storeMilestones_ne hj, account_recordPayout_ne hlegs hj]

theorem MilestoneMarked.touches (hu : Unused s) (h : MilestoneMarked s s' id) :
    Touches H env.timestamp call s s' id := by
  obtain ⟨e, set, i, m, status, he, hstate, hset, hlive, hm, hnotDone, hstatus, rfl⟩ := h
  refine ⟨?_, fun j hj => account_storeMilestones_ne hj, ⟨[], [], .idle,
    (List.append_nil _).symm, (List.append_nil _).symm, by simp, by simp⟩, le_rfl, hu.id_le he⟩
  rw [account_storeMilestones_self]
  exact .marked he hstate hset hlive hm hnotDone hstatus

theorem cancelMilestonesInner_touches {caller : Address} {r : ℤ} (hu : Unused s)
    (h : cancelMilestonesInner H s caller id = .ok (r, s')) :
    Touches H env.timestamp call s s' id := by
  obtain ⟨e, set, w, legs, milestones, he, hset, hlive, hstate, hsend, rfl⟩ :=
    cancelMilestonesInner_ok h
  obtain ⟨hsends, htraffic⟩ := returnRemaining_ok hsend
  have hlegs := hsends.escrow
  refine ⟨?_, ?_, ⟨[], legs, htraffic, (List.append_nil _).symm, rfl, by simp, hlegs⟩, le_rfl,
    hu.id_le he⟩
  · rw [account_recordPayout_self hlegs, account_storeEscrow_self, account_storeMilestones_self]
    exact .cancelled he hset hlive hstate hsends
  · intro j hj
    rw [account_recordPayout_ne hlegs hj, account_storeEscrow_ne hj, account_storeMilestones_ne hj]

theorem cancel_touches {caller : Address} (hu : Unused s) (h : cancel H env s caller id = .ok s') :
    Touches H env.timestamp call s s' id := by
  rcases cancel_ok h with ⟨r, hcancel⟩ | ⟨e, w, legs, he, hms, hstate, _, hsend, hs'⟩
  · exact cancelMilestonesInner_touches hu hcancel
  · obtain ⟨hsends, htraffic⟩ := returnRemaining_ok hsend
    exact touches_of_paid hu he hms (.giveBack (hstate.imp_right .inr)) (.final (by ring) (.inr rfl))
      hsends htraffic hs'

end Touching

/-! ### Every call -/

section Exec

variable {H : EscrowHost World} {env : Env H.self} {s s' : State World}

theorem initializeContract_quiet {admin : Address} (h : initializeContract s admin = .ok s') :
    Quiet s s' := by
  simp only [initializeContract, bind_eq_ok, require_eq_ok, pure_eq_ok] at h
  obtain ⟨_, hcount, rfl⟩ := h
  exact ⟨rfl, fun _ => rfl, rfl, rfl, by simp [State.getCount, hcount]⟩

theorem approveToken_quiet {caller token : Address}
    (h : approveToken H env s caller token = .ok s') : Quiet s s' := by
  simp only [approveToken, bind_eq_ok, require_eq_ok, pure_eq_ok] at h
  obtain ⟨_, _, _, _, _, _, rfl⟩ := h
  exact ⟨rfl, fun _ => rfl, rfl, rfl, rfl⟩

theorem revokeToken_quiet {caller token : Address}
    (h : revokeToken H env s caller token = .ok s') : Quiet s s' := by
  simp only [revokeToken, bind_eq_ok, require_eq_ok, pure_eq_ok] at h
  obtain ⟨_, _, _, _, rfl⟩ := h
  exact ⟨rfl, fun _ => rfl, rfl, rfl, rfl⟩

theorem approveRelease_quiet {caller : Address} {id n : ℕ}
    (h : approveRelease H env s caller id = .ok (n, s')) : Quiet s s' := by
  simp only [approveRelease, bind_eq_ok, require_eq_ok, pure_eq_ok, Prod.mk.injEq] at h
  obtain ⟨_, _, _, _, _, _, _, _, _, _, _, _, _, rfl⟩ := h
  exact ⟨rfl, fun _ => rfl, rfl, rfl, rfl⟩

/-- The calls that name the escrow `id`. -/
def Call.Names (id : ℕ) : Call → Prop
  | .approveRelease _ id' | .fund _ id' | .withdraw _ id' _ | .claim _ id' | .release _ id' _
  | .overrideRelease id' _ _ | .expire id' | .refund _ id' | .refundTimelock _ id'
  | .cancel _ id' | .reclaim _ id' | .close _ id' | .releaseMilestone _ id' _
  | .disputeMilestone _ id' _ | .resolveMilestone _ id' _ | .cancelRemainingMilestones _ id' =>
      id' = id
  | _ => False

/-- A successful call takes one step of one account, which is the one it names or a new one, or
touches none. -/
theorem exec_named {call : Call} (hu : Unused s)
    (hnonempty : ∀ id e, s.escrow id = some e → e.assets ≠ [])
    (h : exec H env s call = .ok s') :
    Quiet s s' ∨
      ∃ id, (call.Names id ∨ s.getCount < id) ∧ Touches H env.timestamp call s s' id := by
  cases call with
  | initializeContract => exact .inl (initializeContract_quiet h)
  | approveToken => exact .inl (approveToken_quiet h)
  | revokeToken => exact .inl (revokeToken_quiet h)
  | create =>
      obtain ⟨id, h⟩ := snd_map_ok h
      have hnew := openFunded_new (createWithRefundWindow_ok h).2.2.2.2
      exact .inr ⟨id, .inr hnew, createWithRefundWindow_touches hu h⟩
  | createWithRefundWindow =>
      obtain ⟨id, h⟩ := snd_map_ok h
      have hnew := openFunded_new (createWithRefundWindow_ok h).2.2.2.2
      exact .inr ⟨id, .inr hnew, createWithRefundWindow_touches hu h⟩
  | createWithReleaseCondition =>
      obtain ⟨id, h⟩ := snd_map_ok h
      obtain ⟨s₁, hcreate, hs'⟩ := createWithReleaseCondition_ok h
      have hnew := openFunded_new (createWithRefundWindow_ok hcreate).2.2.2.2
      rcases hs' with rfl | rfl
      · exact .inr ⟨id, .inr hnew, createWithRefundWindow_touches hu hcreate⟩
      · exact .inr ⟨id, .inr hnew,
          (createWithRefundWindow_touches hu hcreate).storeReleaseCondition⟩
  | approveRelease =>
      obtain ⟨_, h⟩ := snd_map_ok h
      exact .inl (approveRelease_quiet h)
  | createTimelock =>
      obtain ⟨id, h⟩ := snd_map_ok h
      obtain ⟨hauth, hne, _, hassets, hopen⟩ := createTimelock_ok h
      exact .inr ⟨id, .inr (openFunded_new hopen),
        openFunded_touches hu hauth hne hassets rfl rfl hopen⟩
  | createScheduled =>
      obtain ⟨id, h⟩ := snd_map_ok h
      obtain ⟨_, hauth, hne, hassets, _, hopen⟩ := createScheduled_ok h
      exact .inr ⟨id, .inr (openFunded_new hopen),
        openFunded_touches hu hauth hne hassets rfl rfl hopen⟩
  | initializeTimelock =>
      obtain ⟨id, h⟩ := snd_map_ok h
      have hid : id = s.getCount + 1 := (initializeTimelock_ok h).2.2.2.1
      exact .inr ⟨id, .inr (by omega), initializeTimelock_touches hu h⟩
  | depositWithMilestones =>
      obtain ⟨id, h⟩ := snd_map_ok h
      obtain ⟨_, _, _, _, _, hid, _⟩ := depositWithMilestones_ok h
      exact .inr ⟨id, .inr (by omega), depositWithMilestones_touches hu h⟩
  | fund sender id => exact .inr ⟨id, .inl rfl, fund_touches hu (hnonempty id) h⟩
  | withdraw caller id amount =>
      obtain ⟨_, h⟩ := snd_map_ok h
      exact .inr ⟨id, .inl rfl, withdraw_touches hu h⟩
  | claim caller id =>
      obtain ⟨_, h⟩ := snd_map_ok h
      exact .inr ⟨id, .inl rfl, claim_touches hu h⟩
  | release arbiter id releaseAmount => exact .inr ⟨id, .inl rfl, release_touches hu h⟩
  | overrideRelease id nonce signatures => exact .inr ⟨id, .inl rfl, overrideRelease_touches hu h⟩
  | expire id => exact .inr ⟨id, .inl rfl, expire_touches hu h⟩
  | refund caller id => exact .inr ⟨id, .inl rfl, refund_touches hu h⟩
  | refundTimelock caller id => exact .inr ⟨id, .inl rfl, refundTimelock_touches hu h⟩
  | cancel caller id => exact .inr ⟨id, .inl rfl, cancel_touches hu h⟩
  | reclaim caller id => exact .inr ⟨id, .inl rfl, reclaim_touches hu h⟩
  | close caller id => exact .inr ⟨id, .inl rfl, close_touches hu h⟩
  | releaseMilestone caller id index => exact .inr ⟨id, .inl rfl, releaseMilestone_touches hu h⟩
  | disputeMilestone caller id index =>
      exact .inr ⟨id, .inl rfl, (disputeMilestone_ok h).touches hu⟩
  | resolveMilestone caller id index =>
      exact .inr ⟨id, .inl rfl, (resolveMilestone_ok h).touches hu⟩
  | cancelRemainingMilestones caller id =>
      obtain ⟨r, h⟩ := snd_map_ok h
      simp only [cancelRemainingMilestones, bind_eq_ok] at h
      obtain ⟨_, _, hcancel⟩ := h
      exact .inr ⟨id, .inl rfl, cancelMilestonesInner_touches hu hcancel⟩

/-- **A successful call takes one step of one account, or touches none.** -/
theorem exec_touches {call : Call} (hu : Unused s)
    (hnonempty : ∀ id e, s.escrow id = some e → e.assets ≠ [])
    (h : exec H env s call = .ok s') :
    Quiet s s' ∨ ∃ id, Touches H env.timestamp call s s' id := by
  rcases exec_named hu hnonempty h with hquiet | ⟨id, _, htouches⟩
  · exact .inl hquiet
  · exact .inr ⟨id, htouches⟩

/-- A call leaves the escrows on record it does not name alone. -/
theorem exec_elsewhere {call : Call} {id : ℕ} {e : Escrow} (hu : Unused s)
    (hnonempty : ∀ id e, s.escrow id = some e → e.assets ≠ []) (he : s.escrow id = some e)
    (hcall : ¬ call.Names id) (h : exec H env s call = .ok s') : s'.account id = s.account id := by
  rcases exec_named hu hnonempty h with hquiet | ⟨id', hid', htouches⟩
  · exact hquiet.account id
  · refine htouches.others id ?_
    rintro rfl
    rcases hid' with hname | hnew
    · exact hcall hname
    · exact absurd (hu.id_le he) (not_le.2 hnew)

end Exec

end EscrowContract
end Astroid
