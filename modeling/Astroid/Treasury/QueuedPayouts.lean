import Astroid.Lib.Docket
import Astroid.Treasury.CoolingOff

/-!
# Queued payouts

The requests of a treasury are a docket: queueing one opens a ticket under the next id, and
executing or cancelling it closes the ticket.  What a request says is fixed when it is queued,
whatever becomes of the configuration, and the one payout it may cause is the one it says, in
its window (`queued_payouts`).
-/

namespace Astroid
namespace TreasuryContract

open Outcome Machine

variable {World : Type} {H : TreasuryHost World} {env : Env H.self} {s s' : State World} {call : Call}
  {caller : Address} {id : ℕ} {p : PendingWithdrawal} {tr : List (Entry (State World) (Inputs H))}
  {t : ℕ}

/-! ## The docket -/

/-- The flags of a request that is not pending. -/
structure Closing where
  cancelled : Bool
  executed : Bool

/-- The flags of a request that was executed. -/
def Closing.settled : Closing := ⟨false, true⟩

/-- The flags of a request that was cancelled. -/
def Closing.dropped : Closing := ⟨true, false⟩

/-- The request as it was queued. -/
def PendingWithdrawal.terms (p : PendingWithdrawal) : PendingWithdrawal :=
  { p with
    cancelled := false
    executed := false }

/-- How the request was closed. -/
def PendingWithdrawal.closing (p : PendingWithdrawal) : Option Closing :=
  if p.IsPending then none else some ⟨p.cancelled, p.executed⟩

/-- The requests as tickets. -/
def State.docket (s : State World) (id : ℕ) : Option (Ticket PendingWithdrawal Closing) :=
  (s.pendingWithdrawal id).map fun p => ⟨p.terms, p.closing⟩

variable (H) in
/-- What a call that queues a request answers. -/
def queueing (env : Env H.self) (s : State World) : Call → Option (Result (ℕ × State World))
  | .queueWithdrawal caller asset payee amount =>
      some (queueWithdrawal H env s caller asset payee amount)
  | .queueBatchTransfer caller asset payments =>
      some (queueBatchTransfer H env s caller asset payments)
  | _ => none

/-- The request an entry queued, under the id it answered. -/
def queues (e : Entry (State World) (Inputs H)) : Option (ℕ × PendingWithdrawal) :=
  match e.input with
  | .invoke env call =>
      match queueing H env e.pre call with
      | some (.ok (id, s')) => (s'.pendingWithdrawal id).map fun p => (id, p)
      | _ => none
  | .outside _ _ => none

/-- The request an entry executed or cancelled. -/
def closes (e : Entry (State World) (Inputs H)) : Option (ℕ × Closing) :=
  match e.input with
  | .invoke _ (.executeWithdrawal _ id) => some (id, .settled)
  | .invoke _ (.cancelWithdrawal _ id) => some (id, .dropped)
  | _ => none

theorem terms_of_isPending (h : p.IsPending) : p.terms = p := by
  obtain ⟨hcancelled, hexecuted⟩ := h
  cases p
  simp_all [PendingWithdrawal.terms]

theorem closing_of_isPending (h : p.IsPending) : p.closing = none := if_pos h

theorem docket_storePending : (s.storePending id p).docket =
    Function.update s.docket id (some ⟨p.terms, p.closing⟩) := by
  funext i
  by_cases hi : i = id
  · subst hi
    simp [State.docket, State.storePending]
  · simp [State.docket, State.storePending, hi]

/-- A pending request is an open ticket. -/
theorem docket_of_isPending (hp : s.pendingWithdrawal id = some p) (h : p.IsPending) :
    s.docket id = some ⟨p.terms, none⟩ := by
  rw [State.docket, hp, Option.map_some, closing_of_isPending h]

/-! ## The entrypoints -/

/-- No value moved. -/
structure Inert (s s' : State World) : Prop where
  world : s'.world = s.world
  books : s'.books = s.books
  outflows : s'.outflows = s.outflows

/-- A call queued `p` under `id`: for what it was asked, to be paid from the delay of the moment
on and until the grace period has passed. -/
structure Queues (H : TreasuryHost World) (env : Env H.self) (s : State World) (call : Call)
    (id : ℕ) (p : PendingWithdrawal) (s' : State World) : Prop where
  request : call.request = some (p.asset, p.legs)
  amount : p.amount = paymentsTotal p.legs
  opened : p.IsPending
  executeAfter : p.executeAfter.toNat = env.timestamp.toNat + s.loadTimeLock.delay.toNat
  expiresAt : p.expiresAt.toNat = p.executeAfter.toNat + governanceGracePeriod
  next : id = s.pendingWithdrawalCount + 1
  post : s' = { s.storePending id p with pendingWithdrawalCount := id }

/-- A call paid the request `p` what it says, in its window. -/
structure Settles (H : TreasuryHost World) (env : Env H.self) (s : State World)
    (p : PendingWithdrawal) (s' : State World) : Prop where
  matured : p.executeAfter ≤ env.timestamp
  current : env.timestamp < p.expiresAt
  outflows : s'.outflows
    = s.outflows ++ p.legs.map fun leg => ⟨p.asset, leg.recipient, leg.amount⟩
  custody : ∃ w, Consults H env s.world w ∧ Moves H p.asset w s'.world ∧
    H.custody w p.asset - paymentsTotal p.legs = H.custody s'.world p.asset

theorem Queues.inert (h : Queues H env s call id p s') : Inert s s' := by
  obtain ⟨_, _, _, _, _, _, rfl⟩ := h
  exact ⟨rfl, rfl, rfl⟩

/-- What `open_pending` records. -/
theorem openPending_queues {requester asset payee : Address} {amount : ℤ}
    {payments legs : List Payment}
    (hrequest : call.request = some (asset, legs)) (hamount : amount = paymentsTotal legs)
    (hlegs : legs = if payments = [] then [⟨payee, amount⟩] else payments)
    (h : openPending H env s requester asset payee amount payments = .ok (id, s')) :
    ∃ p, Queues H env s call id p s' := by
  simp only [openPending, bind_eq_ok, checkedAddU64_eq_ok, pure_eq_ok, Prod.mk.injEq] at h
  obtain ⟨after, ⟨hafter, rfl⟩, expiry, ⟨hexpiry, rfl⟩, _, _, rfl, rfl⟩ := h
  have hgrace : (UInt64.ofNat governanceGracePeriod).toNat = governanceGracePeriod := by decide
  subst hlegs
  refine ⟨_, hrequest, hamount, ⟨rfl, rfl⟩, ?_, ?_, rfl, rfl⟩
  · rw [UInt64.toNat_add, Nat.mod_eq_of_lt hafter]
  · rw [UInt64.toNat_add, Nat.mod_eq_of_lt hexpiry, hgrace]

theorem queueing_queues {r : Result (ℕ × State World)} (hcall : queueing H env s call = some r)
    (h : r = .ok (id, s')) : ∃ p, Queues H env s call id p s' := by
  cases call with
  | queueWithdrawal caller asset payee amount =>
      cases hcall
      obtain ⟨_, hopen⟩ := queueWithdrawal_ok h
      exact openPending_queues rfl (by simp [paymentsTotal]) rfl hopen
  | queueBatchTransfer caller asset payments =>
      cases hcall
      obtain ⟨hsome, _, first, hopen⟩ := queueBatchTransfer_ok h
      exact openPending_queues rfl rfl (if_neg hsome).symm hopen
  | _ => cases hcall

theorem executeWithdrawal_settles (h : executeWithdrawal H env s caller id = .ok s') :
    ∃ p, s.pendingWithdrawal id = some p ∧ p.IsPending ∧ Settles H env s p s' ∧
      s'.pendingWithdrawal = (s.storePending id { p with executed := true }).pendingWithdrawal ∧
      s'.pendingWithdrawalCount = s.pendingWithdrawalCount := by
  obtain ⟨p, _, _, hp, hpending, hmatured, _, hpaid⟩ := executeWithdrawal_ok h
  obtain ⟨t, q, _, _, _, hq, _, hcurrent, _⟩ := executeWithdrawal_steps h
  obtain rfl : p = q := Option.some.inj (hp.symm.trans hq)
  exact ⟨p, hp, hpending, ⟨hmatured, hcurrent, hpaid.outflows, hpaid.world⟩, hpaid.pending,
    hpaid.pendingCount⟩

theorem cancelWithdrawal_inert (h : cancelWithdrawal H env s caller id = .ok s') : Inert s s' := by
  obtain ⟨p, _, _, rfl⟩ := cancelWithdrawal_ok h
  exact ⟨rfl, rfl, rfl⟩

/-! ## What a step files -/

theorem queues_invoke (hexec : exec H env s call = .ok s') {r : Result (ℕ × State World)}
    (hcall : queueing H env s call = some r) :
    ∃ id p, Queues H env s call id p s' ∧
      queues (H := H) ⟨s, .invoke env call, s'⟩ = some (id, p) := by
  have hanswer : ∃ id, r = .ok (id, s') := by
    cases call with
    | queueWithdrawal =>
        cases hcall
        exact snd_map_ok hexec
    | queueBatchTransfer =>
        cases hcall
        exact snd_map_ok hexec
    | _ => cases hcall
  obtain ⟨id, hr⟩ := hanswer
  obtain ⟨p, hqueues⟩ := queueing_queues hcall hr
  refine ⟨id, p, hqueues, ?_⟩
  subst hr
  have hstored : s'.pendingWithdrawal id = some p := by
    rw [hqueues.post]
    exact Function.update_self _ _ _
  simp [queues, hcall, hstored]

/-- A call that neither queues nor closes a request leaves the docket alone. -/
theorem filing_kept (hrequest : call.request = none)
    (hcloses : closes (H := H) ⟨s, .invoke env call, s'⟩ = none)
    (hexec : exec H env s call = .ok s') :
    s'.docket = s.docket ∧ s'.pendingWithdrawalCount = s.pendingWithdrawalCount := by
  have hsame : s'.pendingWithdrawal = s.pendingWithdrawal ∧
      s'.pendingWithdrawalCount = s.pendingWithdrawalCount := by
    have heffect : Effect H env s call s' := exec_effect hexec
    cases heffect with
    | configured hsame => exact ⟨hsame.pending, hsame.pendingCount⟩
    | queued p hasked =>
        rw [hrequest] at hasked
        cases hasked
    | cancelled caller id p hcall =>
        subst hcall
        cases hcloses
    | deposited _ _ _ _ _ _ _ _ _ _ _ hpending hcount => exact ⟨hpending, hcount⟩
    | paid _ _ _ _ hpaid => exact ⟨hpaid.pending, hpaid.pendingCount⟩
    | executed caller id p hcall =>
        subst hcall
        cases hcloses
  refine ⟨?_, hsame.2⟩
  unfold State.docket
  rw [hsame.1]

theorem filing_queued {r : Result (ℕ × State World)} (hcall : queueing H env s call = some r)
    (hexec : exec H env s call = .ok s') :
    Filing s.pendingWithdrawalCount s.docket s'.pendingWithdrawalCount s'.docket
      (queues (H := H) ⟨s, .invoke env call, s'⟩) (none : Option (ℕ × Closing)) := by
  obtain ⟨id, p, hqueues, hid⟩ := queues_invoke hexec hcall
  obtain rfl := hqueues.next
  have hdocket : s'.docket
      = Function.update s.docket (s.pendingWithdrawalCount + 1) (some ⟨p, none⟩) := by
    rw [hqueues.post]
    show (s.storePending (s.pendingWithdrawalCount + 1) p).docket = _
    rw [docket_storePending, closing_of_isPending hqueues.opened, terms_of_isPending hqueues.opened]
  have hcount : s'.pendingWithdrawalCount = s.pendingWithdrawalCount + 1 := by rw [hqueues.post]
  rw [hid, hdocket, hcount]
  exact .opened p

/-- A call that flags a pending request closes its ticket. -/
theorem filing_closed {p' : PendingWithdrawal} {k : Closing} (hp : s.pendingWithdrawal id = some p)
    (hpending : p.IsPending) (hclosing : p'.closing = some k) (hterms : p'.terms = p.terms)
    (htable : s'.pendingWithdrawal = (s.storePending id p').pendingWithdrawal)
    (hcount : s'.pendingWithdrawalCount = s.pendingWithdrawalCount) :
    Filing s.pendingWithdrawalCount s.docket s'.pendingWithdrawalCount s'.docket
      (none : Option (ℕ × PendingWithdrawal)) (some (id, k)) := by
  have hdocket : s'.docket = Function.update s.docket id (some ⟨p.terms, some k⟩) := by
    rw [← hterms, ← hclosing, ← docket_storePending]
    unfold State.docket
    rw [htable]
  rw [hdocket, hcount]
  exact .closed id p.terms k (docket_of_isPending hp hpending)

/-- **Every step files what it queues or closes.** -/
theorem step_filing (i : Inputs H) (s s' : State World) (hstep : (machine H).step i s s') :
    Filing s.pendingWithdrawalCount s.docket s'.pendingWithdrawalCount s'.docket
      (queues ⟨s, i, s'⟩) (closes ⟨s, i, s'⟩) := by
  cases i with
  | outside time w =>
      obtain ⟨_, rfl⟩ := hstep
      exact .kept
  | invoke env call =>
      have hexec : exec H env s call = .ok s' := hstep
      cases call with
      | queueWithdrawal => exact filing_queued rfl hexec
      | queueBatchTransfer => exact filing_queued rfl hexec
      | executeWithdrawal caller id =>
          obtain ⟨p, hp, hpending, _, htable, hcount⟩ := executeWithdrawal_settles hexec
          have hclosing : ({ p with executed := true } : PendingWithdrawal).closing
              = some .settled := by
            simp [PendingWithdrawal.closing, PendingWithdrawal.IsPending, Closing.settled,
              hpending.1]
          exact filing_closed hp hpending hclosing rfl htable hcount
      | cancelWithdrawal caller id =>
          obtain ⟨p, hp, hpending, rfl⟩ := cancelWithdrawal_ok hexec
          have hclosing : ({ p with cancelled := true } : PendingWithdrawal).closing
              = some .dropped := by
            simp [PendingWithdrawal.closing, PendingWithdrawal.IsPending, Closing.dropped,
              hpending.2]
          exact filing_closed hp hpending hclosing rfl rfl rfl
      | _ =>
          obtain ⟨hdocket, hcount⟩ := filing_kept rfl rfl hexec
          rw [hdocket, hcount]
          exact .kept

/-! ## Runs -/

theorem fresh_docket (s : State World) (h : (machine H).init s) (id : ℕ) : s.docket id = none := by
  have hfresh : Fresh H s := h
  simp [State.docket, hfresh.pendingWithdrawal id]

theorem docketed_of_path (hpath : (machine H).Path anyInput tr s t) :
    Docketed queues closes tr s.pendingWithdrawalCount s.docket :=
  hpath.docketed fresh_docket step_filing

/-- An entry of a run that queued a request made a call that queued it. -/
theorem queues_of_mem {q : Entry (State World) (Inputs H)}
    (hpath : (machine H).Path anyInput tr s t) (hq : q ∈ tr) (hqueues : queues q = some (id, p)) :
    ∃ env call, q.input = .invoke env call ∧ Queues H env q.pre call id p q.post := by
  obtain ⟨pre, input, post⟩ := q
  have hstep := hpath.stepped hq
  cases input with
  | outside => cases hqueues
  | invoke env call =>
      have hexec : exec H env pre call = .ok post := hstep
      cases hcall : queueing H env pre call with
      | none => simp [queues, hcall] at hqueues
      | some r =>
          obtain ⟨id', p', hqueued, hid⟩ := queues_invoke hexec hcall
          rw [hid, Option.some.injEq, Prod.mk.injEq] at hqueues
          obtain ⟨rfl, rfl⟩ := hqueues
          exact ⟨env, call, rfl, hqueued⟩

/-- A request is closed by an execution or a cancellation. -/
theorem closing_of_mem {k : Closing} (h : (id, k) ∈ log closes tr) :
    k = .settled ∨ k = .dropped := by
  obtain ⟨e, _, he⟩ := List.mem_filterMap.1 h
  unfold closes at he
  split at he
  · cases he
    exact .inl rfl
  · cases he
    exact .inr rfl
  · cases he

/-- **The flags of a stored request are what the run did with it.** -/
theorem flags_of_docketed {count : ℕ} {p' : PendingWithdrawal}
    (h : Docketed queues closes tr count s.docket) (hp' : s.pendingWithdrawal id = some p') :
    (p'.executed = true ↔ (id, .settled) ∈ log closes tr) ∧
      (p'.cancelled = true ↔ (id, .dropped) ∈ log closes tr) := by
  have hclosing : ∀ k, (id, k) ∈ log closes tr ↔ p'.closing = some k := by
    intro k
    rw [h.closed, State.docket, hp', Option.map_some]
    simp
  have hflags : ∀ k, p'.closing = some k ↔ ¬ p'.IsPending ∧ k = ⟨p'.cancelled, p'.executed⟩ := by
    intro k
    by_cases hpending : p'.IsPending <;> simp [PendingWithdrawal.closing, hpending, eq_comm]
  have honly : ¬ p'.IsPending →
      (⟨p'.cancelled, p'.executed⟩ : Closing) = .settled ∨
        (⟨p'.cancelled, p'.executed⟩ : Closing) = .dropped := by
    intro hclosed
    exact closing_of_mem ((hclosing _).2 ((hflags _).2 ⟨hclosed, rfl⟩))
  simp only [hclosing, hflags]
  simp only [Closing.settled, Closing.dropped, Closing.mk.injEq, PendingWithdrawal.IsPending]
    at honly ⊢
  cases hcancelled : p'.cancelled <;> cases hexecuted : p'.executed <;> simp_all

/-- **The life of a queued payout.**  No id is given twice, and no request is closed twice.  A
request says what it was asked for and when it may be paid, as long as the run lasts, and is
flagged as what the run did with it.  It is paid by an execution in its window, exactly what it
says; queueing and cancelling move no value. -/
theorem queued_payouts (hpath : (machine H).Path anyInput tr s t) :
    ((log queues tr).map Prod.fst).Nodup ∧ ((log closes tr).map Prod.fst).Nodup ∧
    (∀ q ∈ tr, ∀ id p, queues q = some (id, p) →
      (∃ env call, q.input = .invoke env call ∧ Queues H env q.pre call id p q.post ∧
        Inert q.pre q.post) ∧
      ∃ p', s.pendingWithdrawal id = some p' ∧ p'.terms = p ∧
        (p'.executed = true ↔ (id, .settled) ∈ log closes tr) ∧
        (p'.cancelled = true ↔ (id, .dropped) ∈ log closes tr)) ∧
    ∀ e ∈ tr, ∀ id k, closes e = some (id, k) →
      ∃ tr₁ p env caller, tr₁ ++ [e] <+: tr ∧ (id, p) ∈ log queues tr₁ ∧
        (e.input = .invoke env (.executeWithdrawal caller id) ∧ Settles H env e.pre p e.post ∨
          e.input = .invoke env (.cancelWithdrawal caller id) ∧ Inert e.pre e.post) := by
  have hdocketed := docketed_of_path hpath
  refine ⟨hdocketed.once, hdocketed.closed_once, ?_, ?_⟩
  · intro q hq id p hqueues
    obtain ⟨env, call, hinput, hqueued⟩ := queues_of_mem hpath hq hqueues
    refine ⟨⟨env, call, hinput, hqueued, hqueued.inert⟩, ?_⟩
    have hlogged : (id, p) ∈ log queues tr := List.mem_filterMap.2 ⟨q, hq, hqueues⟩
    obtain ⟨o, hticket⟩ := hdocketed.opened id p hlogged
    obtain ⟨p', hp', heq⟩ := Option.map_eq_some_iff.1 hticket
    exact ⟨p', hp', congrArg Ticket.terms heq, flags_of_docketed hdocketed hp'⟩
  · intro e he id k hcloses
    obtain ⟨tr₁, p, hpart, hqueued, hopen⟩ :=
      hpath.opened_before he fresh_docket step_filing hcloses
    have hstep := hpath.stepped he
    obtain ⟨pre, input, post⟩ := e
    unfold closes at hcloses
    split at hcloses
    · rename_i env caller _ hinput
      cases hcloses
      obtain rfl : input = _ := hinput
      obtain ⟨q, hq, hpending, hsettles, _⟩ := executeWithdrawal_settles hstep
      rw [docket_of_isPending hq hpending, terms_of_isPending hpending] at hopen
      cases hopen
      exact ⟨tr₁, _, env, caller, hpart, hqueued, .inl ⟨rfl, hsettles⟩⟩
    · rename_i env caller _ hinput
      cases hcloses
      obtain rfl : input = _ := hinput
      exact ⟨tr₁, p, env, caller, hpart, hqueued, .inr ⟨rfl, cancelWithdrawal_inert hstep⟩⟩
    · cases hcloses

/-- The 60 that were queued are paid as the request says. -/
theorem queued_payouts_executed :
    let s := play (deployed (funded 0)) queuedPayment
    ∃ p, Settles referenceHost (signedBy 90000 [0]) s p (play s execution) := by
  intro s
  have hfresh : Fresh referenceHost (deployed (funded 0)) := funded_fresh le_rfl
  have hqueued : (deployment referenceHost).plays (deployed (funded 0)) 0 queuedPayment = true :=
    rfl
  obtain ⟨tr, hpath⟩ := Deployment.anyPath_play hfresh hqueued
  have hplays : (deployment referenceHost).plays s 2 execution = true := rfl
  have hpath' := Deployment.path_playing hpath hplays
  obtain ⟨_, _, _, hclosed⟩ := queued_payouts hpath'
  obtain ⟨_, p, env, caller, _, _, ⟨hinput, hsettles⟩ | ⟨hinput, _⟩⟩ :=
    hclosed _ (List.mem_append_right _ (List.mem_singleton_self _)) 1 .settled rfl
  · cases hinput
    exact ⟨p, hsettles⟩
  · cases hinput

end TreasuryContract
end Astroid
