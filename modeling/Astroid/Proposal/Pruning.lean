import Astroid.Proposal.Changes

/-!
# Bulk pruning

`prune_expired_batch` and `prune_expired_range` walk over a list of numbers and do for each
what `prune_expired` does, except that they go on where it refuses.  What they leave is what
the single calls leave (`pruneEach_eq`), the number of records removed included.

They cannot go on where it traps, and there is one place where it does: the deposit of a
stale live proposal is due and its token refuses to pay it.  Then the whole bulk call traps
and nothing is pruned, while single calls would have pruned the rest.
-/

namespace Astroid
namespace ProposalContract

open Outcome

variable {World : Type} (H : ProposalHost World) (env : Env H.self)

/-! ## The single calls -/

/-- One call of `prune_expired`, and how many went through so far; a call that fails leaves
the state. -/
def pruneApart (done : ℕ × State World) (id : ℕ) : ℕ × State World :=
  match pruneExpired H env done.2 id with
  | .ok s => (done.1 + 1, s)
  | .error _ => done

/-- `prune_expired` called on each number in order. -/
def pruneInTurn (s : State World) (ids : List ℕ) : ℕ × State World :=
  ids.foldl (pruneApart H env) (0, s)

/-- A deposit is due for return, and its token refuses it. -/
def RefundRefused (s : State World) (id : ℕ) : Prop :=
  ∃ p, s.proposal id = some p ∧ p.state.isLive = true ∧ p.IsExpired env ∧
    ∀ s', returnDeposit H s p ≠ .ok s'

/-- Some number of the list meets a refused refund at its turn. -/
def MeetsRefusal (done : ℕ × State World) (ids : List ℕ) : Prop :=
  ∃ pre id post, ids = pre ++ id :: post ∧
    RefundRefused H env (pre.foldl (pruneApart H env) done).2 id

variable {H env} {s s' : State World} {id n : ℕ} {p p' : Proposal} {ids : List ℕ}
  {done : ℕ × State World}

/-! ## One record -/

theorem returnDeposit_error {f : Fault} (h : returnDeposit H s p = .error f) : f = .trap := by
  unfold returnDeposit TokenHost.transferOrTrap at h
  split at h
  · cases h
  · rename_i dep _ _
    cases htransfer : H.transfer s.world dep.asset H.self p.proposer dep.amount with
    | ok w =>
        rw [htransfer] at h
        cases h
    | error e =>
        rw [htransfer] at h
        cases h
        rfl

/-- Whether the refund is refused, by the record under the number. -/
theorem refundRefused_iff (hp : s.proposal id = some p) : RefundRefused H env s id ↔
    p.state.isLive = true ∧ p.IsExpired env ∧ ∀ s', returnDeposit H s p ≠ .ok s' := by
  constructor
  · rintro ⟨q, hq, hrefused⟩
    rw [hp, Option.some.injEq] at hq
    rwa [hq]
  · exact fun hrefused => ⟨p, hp, hrefused⟩

/-- **What a settled record is.**  The expiry is due and its refund was refused, or the record
that results is the one on record, past its deadline and settled if it expired just now. -/
theorem expireIfDue_outcome (H : ProposalHost World) (env : Env H.self)
    (hp : s.proposal id = some p) :
    (RefundRefused H env s id ∧ expireIfDue H env s id p = .error .trap) ∨
      ¬ RefundRefused H env s id ∧ ∃ expired p' s', expireIfDue H env s id p = .ok (expired, p', s') ∧
        (¬ (p'.IsExpired env ∧ p'.state.depositSettled = true) → s' = s) := by
  rw [refundRefused_iff hp]
  by_cases hexpired : p.state = .expired
  · refine .inr ⟨?_, true, p, s, ?_, fun _ => rfl⟩
    · rintro ⟨hlive, _⟩
      rw [hexpired] at hlive
      cases hlive
    · unfold expireIfDue
      rw [if_pos hexpired]
  · by_cases hdue : p.state.isLive = true ∧ p.IsExpired env
    swap
    · have hidle : p.state.isLive = false ∨ ¬ p.IsExpired env := by
        rw [not_and_or, Bool.not_eq_true] at hdue
        exact hdue
      refine .inr ⟨?_, false, p, s, ?_, fun _ => rfl⟩
      · rintro ⟨hlive, hlate, _⟩
        exact hdue ⟨hlive, hlate⟩
      · unfold expireIfDue
        rw [if_neg hexpired, if_pos hidle]
    · have hmust : ¬ (p.state.isLive = false ∨ ¬ p.IsExpired env) := by
        rw [not_or, Bool.not_eq_false, not_not]
        exact hdue
      have hmay : p.state.mayTransition .expired = true := by
        have hlive := hdue.1
        cases hstate : p.state <;> rw [hstate] at hlive <;> first | rfl | cases hlive
      have hsettle : expireIfDue H env s id p
          = returnDeposit H s p >>= fun s' =>
            pure (true, { p with state := .expired }, s'.store id { p with state := .expired }) := by
        unfold expireIfDue
        rw [if_neg hexpired, if_neg hmust, assertTransition, ensure_pos hmay, ok_bind]
        rfl
      cases hreturn : returnDeposit H s p with
      | error f =>
          rw [hreturn] at hsettle
          obtain rfl := returnDeposit_error hreturn
          refine .inl ⟨⟨hdue.1, hdue.2, ?_⟩, hsettle⟩
          intro s' hpaid
          cases hpaid
      | ok s₁ =>
          rw [hreturn] at hsettle
          refine .inr ⟨?_, _, _, _, hsettle, fun hkept => absurd ⟨hdue.2, rfl⟩ hkept⟩
          rintro ⟨_, _, hrefused⟩
          exact hrefused s₁ rfl

/-- A call of `prune_expired` prunes, refuses, or traps on a refund. -/
theorem pruneExpired_cases (H : ProposalHost World) (env : Env H.self) (s : State World) (id : ℕ) :
    (RefundRefused H env s id ∧ pruneExpired H env s id = .error .trap ∧
      ∀ n, pruneOne H env s n id = .error .trap) ∨
    (¬ RefundRefused H env s id ∧ ∃ s', pruneExpired H env s id = .ok s' ∧
      ∀ n, pruneOne H env s n id = .ok (n + 1, s')) ∨
    (¬ RefundRefused H env s id ∧ ∃ f, pruneExpired H env s id = .error f ∧
      ∀ n, pruneOne H env s n id = .ok (n, s)) := by
  cases hp : s.proposal id with
  | none =>
      have hload : s.load id = .error (.error .notFound) := by
        rw [State.load, hp]
        rfl
      refine .inr (.inr ⟨?_, .error .notFound, ?_, ?_⟩)
      · rintro ⟨p, hp', _⟩
        rw [hp] at hp'
        cases hp'
      · rw [pruneExpired, hload]
        rfl
      · intro n
        rw [pruneOne, hp]
  | some p =>
      have hload : s.load id = .ok p := okOr_eq_ok.2 hp
      rcases expireIfDue_outcome H env hp with
        ⟨hrefused, hexpire⟩ | ⟨hpaid, expired, p', s', hexpire, hkept⟩
      · refine .inl ⟨hrefused, ?_, ?_⟩
        · rw [pruneExpired, hload, ok_bind, hexpire]
          rfl
        · intro n
          rw [pruneOne, hp]
          dsimp only
          rw [hexpire]
          rfl
      · by_cases hpurgeable : p'.IsExpired env ∧ p'.state.depositSettled = true
        · refine .inr (.inl ⟨hpaid, s'.purgeProposal id p', ?_, ?_⟩)
          · rw [pruneExpired, hload, ok_bind, hexpire, ok_bind]
            dsimp only
            rw [require_pos hpurgeable.1, require_pos hpurgeable.2]
            rfl
          · intro n
            rw [pruneOne, hp]
            dsimp only
            rw [hexpire, ignoreError, ok_bind]
            dsimp only
            rw [if_pos hpurgeable]
            rfl
        · obtain rfl := hkept hpurgeable
          refine .inr (.inr ⟨hpaid, .error .invalidProposalState, ?_, ?_⟩)
          · rw [pruneExpired, hload, ok_bind, hexpire, ok_bind]
            dsimp only
            by_cases hdue : p'.IsExpired env
            · rw [require_pos hdue, require_neg fun hsettled => hpurgeable ⟨hdue, hsettled⟩]
              rfl
            · rw [require_neg hdue]
              rfl
          · intro n
            rw [pruneOne, hp]
            dsimp only
            rw [hexpire, ignoreError, ok_bind]
            dsimp only
            rw [if_neg hpurgeable]
            rfl

/-! ## The loop -/

theorem pruneApart_of_ok (h : pruneExpired H env done.2 id = .ok s') :
    pruneApart H env done id = (done.1 + 1, s') := by
  rw [pruneApart, h]

theorem pruneApart_of_error {f : Fault} (h : pruneExpired H env done.2 id = .error f) :
    pruneApart H env done id = done := by
  rw [pruneApart, h]

theorem meetsRefusal_nil : ¬ MeetsRefusal H env done [] := by
  rintro ⟨pre, id, post, hsplit, _⟩
  simp at hsplit

theorem meetsRefusal_cons : MeetsRefusal H env done (id :: ids) ↔
    RefundRefused H env done.2 id ∨ MeetsRefusal H env (pruneApart H env done id) ids := by
  constructor
  · rintro ⟨pre, id', post, hsplit, hrefused⟩
    cases pre with
    | nil =>
        simp only [List.nil_append, List.cons.injEq] at hsplit
        obtain ⟨rfl, rfl⟩ := hsplit
        exact .inl hrefused
    | cons first pre =>
        simp only [List.cons_append, List.cons.injEq] at hsplit
        obtain ⟨rfl, rfl⟩ := hsplit
        exact .inr ⟨pre, id', post, rfl, hrefused⟩
  · rintro (hrefused | ⟨pre, id', post, rfl, hrefused⟩)
    · exact ⟨[], id, ids, rfl, hrefused⟩
    · exact ⟨id :: pre, id', post, rfl, hrefused⟩

/-- **The loop is the single calls**, up to the first refund that is refused, if there is one. -/
theorem pruneEach_eq (done : ℕ × State World) (ids : List ℕ) :
    (¬ MeetsRefusal H env done ids →
      pruneEach H env done.2 done.1 ids = .ok (ids.foldl (pruneApart H env) done)) ∧
    (MeetsRefusal H env done ids → pruneEach H env done.2 done.1 ids = .error .trap) := by
  induction ids generalizing done with
  | nil => exact ⟨fun _ => rfl, fun h => absurd h meetsRefusal_nil⟩
  | cons id rest ih =>
      rw [meetsRefusal_cons, List.foldl_cons]
      have hrest := ih (pruneApart H env done id)
      rcases pruneExpired_cases H env done.2 id with
        ⟨hrefused, hcall, hone⟩ | ⟨hpaid, s', hcall, hone⟩ | ⟨hpaid, f, hcall, hone⟩
      · refine ⟨fun hnone => absurd (.inl hrefused) hnone, fun _ => ?_⟩
        rw [pruneEach, hone]
        rfl
      · rw [pruneApart_of_ok hcall] at hrest ⊢
        rw [pruneEach, hone, ok_bind]
        exact ⟨fun hnone => hrest.1 fun hlater => hnone (.inr hlater),
          fun hsome => hrest.2 (hsome.resolve_left hpaid)⟩
      · rw [pruneApart_of_error hcall] at hrest ⊢
        rw [pruneEach, hone, ok_bind]
        exact ⟨fun hnone => hrest.1 fun hlater => hnone (.inr hlater),
          fun hsome => hrest.2 (hsome.resolve_left hpaid)⟩

/-! ## What is removed -/

/-- The record under `id` was removed: it was past its deadline, and settled or about to be. -/
def Removed (env : Env H.self) (s s' : State World) (id : ℕ) : Prop :=
  s'.proposal id = none ∧ ∃ p, s.proposal id = some p ∧ p.IsExpired env ∧
    (p.state.depositSettled = true ∨ p.state.isLive = true)

/-- The record under `id` and the votes on it are what they were. -/
def Kept (s s' : State World) (id : ℕ) : Prop :=
  s'.proposal id = s.proposal id ∧ s'.approval id = s.approval id

/-- What a call of `prune_expired` that returned did. -/
theorem pruneExpired_removes (h : pruneExpired H env s id = .ok s') :
    Removed env s s' id ∧ ∀ x, x ≠ id → Kept s s' x := by
  obtain ⟨p, expired, p₁, s₁, hp, hexpire, hdue, hsettled, rfl⟩ := pruneExpired_ok h
  have hgone : (s₁.purgeProposal id p₁).proposal id = none := Function.update_self ..
  rcases expireIfDue_cases hexpire with ⟨_, rfl, rfl, _⟩ | ⟨_, _, rfl, rfl⟩ | ⟨_, hlive, _, rfl, w, _, rfl⟩
  · refine ⟨⟨hgone, p₁, hp, hdue, .inl hsettled⟩, ?_⟩
    intro x hx
    simp [Kept, State.purgeProposal, hx]
  · refine ⟨⟨hgone, p₁, hp, hdue, .inl hsettled⟩, ?_⟩
    intro x hx
    simp [Kept, State.purgeProposal, hx]
  · refine ⟨⟨hgone, p, hp, hdue, .inr hlive⟩, ?_⟩
    intro x hx
    simp [Kept, State.purgeProposal, State.store, hx]

theorem Kept.trans {s'' : State World} (h : Kept s s' id) (h' : Kept s' s'' id) : Kept s s'' id :=
  ⟨h'.1.trans h.1, h'.2.trans h.2⟩

/-- The numbers of a list whose records went. -/
def removedFrom (s s' : State World) (ids : List ℕ) : Finset ℕ :=
  ids.toFinset.filter fun x => s.proposal x ≠ none ∧ s'.proposal x = none

/-- A number adds nothing if its record was kept or the rest of the list names it too. -/
theorem removedFrom_cons_of_kept (h : Kept s s' id ∨ id ∈ ids) :
    removedFrom s s' (id :: ids) = removedFrom s s' ids := by
  ext x
  simp only [removedFrom, Finset.mem_filter, List.mem_toFinset, List.mem_cons]
  constructor
  · rintro ⟨rfl | hmem, hheld, hgone⟩
    · rcases h with hkept | hmem
      · exact absurd (hkept.1 ▸ hgone) hheld
      · exact ⟨hmem, hheld, hgone⟩
    · exact ⟨hmem, hheld, hgone⟩
  · rintro ⟨hmem, hheld, hgone⟩
    exact ⟨.inr hmem, hheld, hgone⟩

/-- A number whose record the first call removed is one more than the rest removed. -/
theorem card_removedFrom_cons {s₁ : State World} (hheld : s.proposal id ≠ none)
    (hfirst : s₁.proposal id = none) (hgone : s'.proposal id = none)
    (hothers : ∀ x, x ≠ id → Kept s s₁ x) :
    (removedFrom s s' (id :: ids)).card = (removedFrom s₁ s' ids).card + 1 := by
  have hinsert : removedFrom s s' (id :: ids) = insert id (removedFrom s₁ s' ids) := by
    ext x
    simp only [removedFrom, Finset.mem_insert, Finset.mem_filter, List.mem_toFinset, List.mem_cons]
    by_cases hx : x = id
    · subst hx
      simp [hheld, hgone]
    · rw [(hothers x hx).1]
      simp [hx]
  have hnew : id ∉ removedFrom s₁ s' ids := by
    simp [removedFrom, hfirst]
  rw [hinsert, Finset.card_insert_of_notMem hnew]

/-- **What the single calls removed**: every record was kept or removed, and the count is the
number of those removed. -/
theorem foldl_pruneApart (H : ProposalHost World) (env : Env H.self) (done : ℕ × State World)
    (ids : List ℕ) :
    (∀ x, Kept done.2 (ids.foldl (pruneApart H env) done).2 x ∨
      x ∈ ids ∧ Removed env done.2 (ids.foldl (pruneApart H env) done).2 x) ∧
    (ids.foldl (pruneApart H env) done).1
      = done.1 + (removedFrom done.2 (ids.foldl (pruneApart H env) done).2 ids).card := by
  induction ids generalizing done with
  | nil => exact ⟨fun x => .inl ⟨rfl, rfl⟩, by simp [removedFrom]⟩
  | cons id rest ih =>
      rw [List.foldl_cons]
      cases hcall : pruneExpired H env done.2 id with
      | error f =>
          rw [pruneApart_of_error hcall]
          obtain ⟨hfate, hcount⟩ := ih done
          refine ⟨fun x => (hfate x).imp_right fun h => ⟨List.mem_cons_of_mem _ h.1, h.2⟩, ?_⟩
          -- a record that the failed call named was removed by a later one, if at all
          rw [removedFrom_cons_of_kept ((hfate id).imp_right And.left)]
          exact hcount
      | ok s₁ =>
          rw [pruneApart_of_ok hcall]
          obtain ⟨⟨hgone₁, p, hp, hdue, hwas⟩, hothers⟩ := pruneExpired_removes hcall
          obtain ⟨hfate, hcount⟩ := ih (done.1 + 1, s₁)
          rw [hcount]
          generalize (rest.foldl (pruneApart H env) (done.1 + 1, s₁)).2 = final at hfate ⊢
          dsimp only at hfate ⊢
          have hgone : final.proposal id = none := by
            rcases hfate id with hkept | ⟨_, hremoved⟩
            · exact hkept.1.trans hgone₁
            · exact hremoved.1
          constructor
          · intro x
            by_cases hx : x = id
            · subst hx
              exact .inr ⟨List.mem_cons_self, hgone, p, hp, hdue, hwas⟩
            · rcases hfate x with hkept | ⟨hmem, hnone, q, hq, hremoved⟩
              · exact .inl ((hothers x hx).trans hkept)
              · exact .inr ⟨List.mem_cons_of_mem _ hmem, hnone, q, (hothers x hx).1 ▸ hq, hremoved⟩
          · have hheld : done.2.proposal id ≠ none := by simp [hp]
            rw [card_removedFrom_cons hheld hgone₁ hgone hothers]
            omega

/-! ## The bulk calls -/

theorem pruneExpiredBatch_eq (H : ProposalHost World) (env : Env H.self) (s : State World)
    (hfew : ids.length ≤ maxPruneBatch) :
    (¬ MeetsRefusal H env (0, s) ids →
      pruneExpiredBatch H env s ids = .ok (pruneInTurn H env s ids)) ∧
    (MeetsRefusal H env (0, s) ids → pruneExpiredBatch H env s ids = .error .trap) := by
  unfold pruneExpiredBatch
  rw [require_pos hfew, ok_bind]
  exact pruneEach_eq (0, s) ids

/-- A range is the batch of its numbers. -/
theorem pruneExpiredRange_eq {startId : UInt64} {limit : ℕ} (hsome : limit ≠ 0)
    (hfew : limit ≤ maxPruneBatch) (hfits : startId.toNat + limit < 2 ^ 64) :
    pruneExpiredRange H env s startId limit
      = pruneExpiredBatch H env s (List.range' startId.toNat limit) := by
  have hsum : checkedAdd (asI128 startId) limit = .ok (startId.toNat + limit : ℤ) := by
    rw [checkedAdd_eq_ok]
    refine ⟨⟨?_, ?_⟩, rfl⟩
    · show -(2 ^ 127) ≤ (startId.toNat + limit : ℤ)
      omega
    · show (startId.toNat + limit : ℤ) ≤ 2 ^ 127 - 1
      omega
  have hend : tryFromU64 (startId.toNat + limit : ℤ) = .ok (asU64 (startId.toNat + limit : ℤ)) := by
    rw [tryFromU64, require_pos ⟨by positivity, by omega⟩]
    rfl
  have hlast : (asU64 (startId.toNat + limit : ℤ)).toNat - startId.toNat = limit := by
    rw [toNat_asU64]
    omega
  have hlength : (List.range' startId.toNat limit).length ≤ maxPruneBatch := by simpa using hfew
  unfold pruneExpiredRange pruneExpiredBatch
  rw [require_pos ⟨hsome, hfew⟩, require_pos hlength, ok_bind, ok_bind, hsum, ok_bind, hend, ok_bind,
    hlast]

/-- What a batch that returned is. -/
theorem pruneExpiredBatch_ok (h : pruneExpiredBatch H env s ids = .ok (n, s')) :
    pruneInTurn H env s ids = (n, s') := by
  have hfew : ids.length ≤ maxPruneBatch := by
    simp only [pruneExpiredBatch, bind_eq_ok, require_eq_ok] at h
    exact h.choose_spec.1
  obtain ⟨hequal, htraps⟩ := pruneExpiredBatch_eq H env s hfew
  by_cases hrefused : MeetsRefusal H env (0, s) ids
  · rw [htraps hrefused] at h
    cases h
  · rw [hequal hrefused, Except.ok.injEq] at h
    exact h

/-- **Bulk pruning.**  A batch leaves what calling `prune_expired` on its numbers in order
leaves, with the number of records removed, unless the refund of some proposal is refused by
its token at its turn; then it traps.  A range is a batch.  A batch that returned removed no
record whose deposit was still held, but those it returned itself, and touched no other. -/
theorem bulk_pruning (H : ProposalHost World) (env : Env H.self) (s : State World) :
    (∀ ids : List ℕ, ids.length ≤ maxPruneBatch →
      (¬ MeetsRefusal H env (0, s) ids →
        pruneExpiredBatch H env s ids = .ok (pruneInTurn H env s ids)) ∧
      (MeetsRefusal H env (0, s) ids → pruneExpiredBatch H env s ids = .error .trap)) ∧
    (∀ (startId : UInt64) (limit : ℕ), limit ≠ 0 → limit ≤ maxPruneBatch →
      startId.toNat + limit < 2 ^ 64 →
      pruneExpiredRange H env s startId limit
        = pruneExpiredBatch H env s (List.range' startId.toNat limit)) ∧
    ∀ ids n s', pruneExpiredBatch H env s ids = .ok (n, s') →
      n = (ids.toFinset.filter fun id => s.proposal id ≠ none ∧ s'.proposal id = none).card ∧
      (∃ l, Settles H l s s' ∧ ∀ id p, s.proposal id = some p → s'.proposal id = none →
        id ∈ ids ∧ p.IsExpired env ∧
          (p.state.depositSettled = true ∨ p.state.isLive = true ∧ id ∈ l)) ∧
      ∀ id, s.proposal id = none ∨ s'.proposal id ≠ none →
        s'.proposal id = s.proposal id ∧ s'.approval id = s.approval id := by
  refine ⟨fun ids hfew => pruneExpiredBatch_eq H env s hfew,
    fun startId limit hsome hfew hfits => pruneExpiredRange_eq hsome hfew hfits, ?_⟩
  intro ids n s' h
  have hrun : ids.foldl (pruneApart H env) (0, s) = (n, s') := pruneExpiredBatch_ok h
  have hremoved := foldl_pruneApart H env (0, s) ids
  rw [hrun] at hremoved
  obtain ⟨hfate, hcount⟩ := hremoved
  obtain ⟨l, hsettles⟩ := pruneExpiredBatch_settled h
  refine ⟨?_, ⟨l, hsettles, ?_⟩, ?_⟩
  · rw [zero_add] at hcount
    exact hcount
  · intro id p hp hgone
    rcases hfate id with hkept | ⟨hmem, _, q, hq, hdue, hwas⟩
    · rw [hkept.1, hp] at hgone
      cases hgone
    · obtain rfl : p = q := Option.some.inj (hp.symm.trans hq)
      refine ⟨hmem, hdue, hwas.imp_right fun hlive => ⟨hlive, ?_⟩⟩
      -- a live record held its deposit, and holds nothing now
      have hheld : s.held id ≠ none := by
        rw [held_of_live hp hlive]
        exact Option.some_ne_none _
      have hreleased : s'.held id = none := by simp [State.held, hgone]
      exact hsettles.book.mem_iff.2 ⟨hheld, hreleased⟩
  · intro id hside
    rcases hfate id with hkept | ⟨_, hgone, q, hq, _⟩
    · exact hkept
    · rcases hside with hnone | hsome
      · exact absurd (hnone.symm.trans hq) (Option.some_ne_none q).symm
      · exact absurd hgone hsome

/-! ## Two stale proposals -/

/-- A second proposal without a deposit, both stale at time 1000. -/
def stale : Script Call :=
  opening ++ [(signedBy 2 [1], .create (.account 1) "org" "wallet" "policy"
    [.account 1, .account 2, .account 3] [] 2 [] 1000 0)]

/-- A list with a number twice and one that was never given out prunes them both. -/
theorem bulk_pruning_twice :
    let s := play deployed stale
    pruneExpiredBatch referenceHost (signedBy 1000 []) s [1, 1, 9, 2]
      = .ok (pruneInTurn referenceHost (signedBy 1000 []) s [1, 1, 9, 2]) := by
  intro s
  obtain ⟨hbatch, _⟩ := bulk_pruning referenceHost (signedBy 1000 []) s
  obtain ⟨hequal, htraps⟩ := hbatch [1, 1, 9, 2] (by decide)
  refine hequal fun hrefused => ?_
  have hreturns : (pruneExpiredBatch referenceHost (signedBy 1000 []) s [1, 1, 9, 2]).isOk = true := by
    decide
  rw [htraps hrefused] at hreturns
  cases hreturns

/-- The reference deployment, but the token `contract 7` pays nothing out of custody. -/
def frozenHost : ProposalHost Ledger :=
  { referenceHost with
    transfer := fun w asset src dst amount =>
      if asset = .contract 7 ∧ src = .contract 0 then .error .auth
      else referenceHost.transfer w asset src dst amount }

/-- **One refused refund stops the batch.**  The first proposal's deposit is frozen.  Called
one by one, the second proposal is pruned; the batch of both prunes nothing. -/
theorem not_bulk_pruning :
    ¬ ∀ s ids, Reachable frozenHost s → ids.length ≤ maxPruneBatch →
      (deployment frozenHost).after s (signedBy 1000 [], .pruneExpiredBatch ids)
        = (pruneInTurn frozenHost (signedBy 1000 []) s ids).2 := by
  intro h
  have hfresh : Fresh frozenHost deployed := by
    refine ⟨rfl, rfl, rfl, fun _ => rfl, fun _ _ => rfl, ?_⟩
    exact deployed_fresh.custody
  have hreach : Reachable frozenHost ((deployment frozenHost).play deployed stale) :=
    Deployment.reachable_play hfresh (by decide)
  have hsame := congrArg (fun s : State Ledger => (s.proposal 2).isSome) (h _ [1, 2] hreach (by decide))
  have hdiffer : (((deployment frozenHost).after ((deployment frozenHost).play deployed stale)
      (signedBy 1000 [], .pruneExpiredBatch [1, 2])).proposal 2).isSome
      ≠ ((pruneInTurn frozenHost (signedBy 1000 []) ((deployment frozenHost).play deployed stale)
        [1, 2]).2.proposal 2).isSome := by decide
  exact hdiffer hsame

end ProposalContract
end Astroid
