import Astroid.Budget.Repayment
import Astroid.Lib.Tally

/-!
# What a budget spends in all

A budget without deficits spends at most one limit for each of its windows, however it
rolls over (`total_spend`).  What it has spent and what it may still spend in its window
grow together: a consumption moves an amount from the one to the other, a release moves
it back, and settling `n` windows adds at most `n` limits (`settle_accrues`).
-/

namespace Astroid
namespace BudgetContract

open Outcome Budget Machine Lazy Tally

/-- The net amount a call consumes of the budget `id`. -/
def Call.net (id : String) : Call → ℤ
  | .consume _ id' amount => if id' = id then amount else 0
  | .release _ id' amount => if id' = id then -amount else 0
  | _ => 0

/-- The net amount an entry of a run consumed of the budget `id`. -/
def netConsumed {self : Address} (id : String) (e : Entry State (Inputs self)) : ℤ :=
  match e.input with
  | .invoke _ call => call.net id
  | .outside _ _ => 0

variable {self : Address} {id : String} {s s' : State} {b c c' r : Budget} {now : UInt64}
  {w : ℕ} {call : Call} {tr : List (Entry State (Inputs self))} {i : Inputs self}

/-! ## Settling -/

/-- A budget without deficits, with the limit of `b` and windows of `w` seconds, that has
spent no more than its window allows. -/
structure Budget.Within (c b : Budget) (w : ℕ) : Prop where
  limit : c.limit = b.limit
  window : c.window = some w
  noDeficit : c.allowDeficit = false
  spent : c.spent ≤ c.capacity

/-- An untouched budget gains at most one limit for each window. -/
theorem settle_accrues (hsound : c.Sound) (h : c.Within b w) (hsettle : c.settle now = .ok r) :
    r.Within b w ∧ ∃ n, r.windowStart = c.windowStart + n * w ∧
      (n = 0 ∨ r.windowStart ≤ now.toNat) ∧
      r.capacity - r.spent ≤ c.capacity - c.spent + n * c.limit := by
  have hlimit := hsound.wellFormed.limit.1
  cases (settle_eq_ok hsound.wellFormed).1 hsettle with
  | same _ hsame =>
      subst hsame
      exact ⟨h, 0, by simp, .inl rfl, by simp⟩
  | closed w' n credit deficit hdue hbalance hclosed =>
      obtain rfl := hdue.window_eq h.window
      obtain ⟨_, hn, hle, _⟩ := hdue.bounds
      obtain ⟨⟨hcredit0, _⟩, _⟩ := hbalance.bounds hdue.capacity
      have hunspent : c.unspent = c.capacity - c.spent := by
        have hspent := h.spent
        unfold unspent
        omega
      have hgain : credit ≤ c.unspent + (n - 1) * c.limit := by
        have hu0 := (unspent_range hsound.wellFormed hdue.capacity).1
        have hidle : 0 ≤ ((n : ℤ) - 1) * c.limit := mul_nonneg (by omega) hlimit
        cases hbalance with
        | overspent => omega
        | dropped => omega
        | carried =>
            have hcount : ((n - 1 : ℕ) : ℤ) = (n : ℤ) - 1 := by omega
            rw [Carry.settled_eq hlimit, nsmul_eq_mul, hcount]
            refine clamp_le.trans ?_
            have hpart := hsound.wellFormed.share.le _ hu0
            linarith
      subst hclosed
      refine ⟨⟨h.limit, h.window, h.noDeficit, ?_⟩, n, rfl, .inr hle, ?_⟩
      · exact add_nonneg hlimit hcredit0
      · show c.limit + credit - 0 ≤ _
        rw [← hunspent]
        linarith

/-! ## Steps -/

/-- What a step at the time `t` that reconfigures nothing did: it consumed `amount`, net, of
the settled record, or did not touch the balance. -/
inductive Spends (t : ℕ) (c : Budget) (amount : ℤ) (c' : Budget) : Prop
  | idle (state : ResourceState) : amount = 0 → c' = { c with state := state } →
      Spends t c amount c'
  | settled (now : UInt64) (r : Budget) : now.toNat = t → c.settle now = .ok r →
      c' = { r with spent := r.spent + amount } → r.spent + amount ≤ r.capacity ∨ amount ≤ 0 →
      Spends t c amount c'

theorem Call.net_of_not_writes (h : ¬ call.Writes id) : call.net id = 0 := by
  cases call with
  | consume caller id' amount => exact if_neg h
  | release caller id' amount => exact if_neg h
  | _ => rfl

theorem Effect.spends (hnone : c.allowDeficit = false) (hkeeps : ¬ call.Reconfigures id)
    (h : Effect now id c call c') : Spends now.toNat c (call.net id) c' := by
  have hsame : ∀ {r}, c.settle now = .ok r → r.allowDeficit = false := by
    intro r hsettle
    obtain ⟨_, _, _, _, rfl⟩ := settle_terms hsettle
    exact hnone
  have hzero : ∀ {r : Budget}, r = { r with spent := r.spent + 0 } := by
    intro r
    rw [add_zero]
  cases h with
  | kept hnot => exact .idle c.state (Call.net_of_not_writes hnot) rfl
  | freeze => exact .idle _ rfl rfl
  | unfreeze => exact .idle _ rfl rfl
  | archive => exact .idle _ rfl rfl
  | reset => exact absurd rfl hkeeps
  | transferOut => exact absurd (.inl rfl) hkeeps
  | transferIn => exact absurd (.inr rfl) hkeeps
  | setRecurrence => exact absurd rfl hkeeps
  | setRolloverConfig => exact absurd rfl hkeeps
  | setLimit => exact absurd rfl hkeeps
  | rollover hsettle => exact .settled now _ rfl hsettle hzero (.inr le_rfl)
  | remaining hsettle => exact .settled now _ rfl hsettle hzero (.inr le_rfl)
  | unsettled => exact .idle c.state rfl rfl
  | @consume caller amount r hsettle hpos hroom hgranted =>
      have hnet : Call.net id (.consume caller id amount) = amount := if_pos rfl
      have hceiling : r.ceiling = r.capacity := by
        rw [ceiling, hsame hsettle, if_neg (by simp), sub_zero]
      refine .settled now r rfl hsettle (by rw [hnet]) (.inl ?_)
      rw [hnet, ← hceiling]
      rcases hgranted with hgranted | ⟨hallow, _⟩
      · exact hgranted
      · rw [hsame hsettle] at hallow
        cases hallow
  | @release caller amount r hsettle hpos hcovered =>
      have hnet : Call.net id (.release caller id amount) = -amount := if_pos rfl
      refine .settled now r rfl hsettle ?_ (.inr ?_)
      · rw [hnet, sub_eq_add_neg]
      · rw [hnet]
        omega

/-! ## Runs -/

/-- What was consumed. -/
def consumed (id : String) (tr : List (Entry State (Inputs self))) : ℤ :=
  (tr.map (netConsumed id)).sum

/-- What was consumed before the time `deadline`. -/
def consumedBefore (id : String) (deadline : ℕ) (tr : List (Entry State (Inputs self))) : ℤ :=
  tally (netConsumed id) (fun e => e.input.time < deadline) tr

/-- Where a run stands that began with the record `b`: what the budget consumed and may still
consume in its window is within the limits of the windows so far, and so is what it had
consumed when any of them ended. -/
structure Bounded {current : Address} (id : String) (b : Budget) (w : ℕ)
    (tr : List (Entry State (Inputs current))) (s : State) (t : ℕ) : Prop where
  past : ∀ e ∈ tr, e.input.time ≤ t
  record : ∃ c j, s.budget id = some c ∧ c.Within b w ∧ c.windowStart = b.windowStart + j * w ∧
    (j = 0 ∨ c.windowStart ≤ t) ∧
    consumed id tr + b.spent + (c.capacity - c.spent) ≤ (j + 1) * b.limit + b.rolloverCredit
  windows : ∀ k : ℕ, consumedBefore id (b.windowStart + (k + 1) * w) tr + b.spent
    ≤ (k + 1) * b.limit + b.rolloverCredit

/-- What one step does to the record. -/
theorem step_spends (hc : s.budget id = some c) (hnone : c.allowDeficit = false)
    (hkeeps : ¬ Asks (Call.Reconfigures id) i) (hstep : (machine self).step i s s') :
    ∃ c', s'.budget id = some c' ∧ Spends i.time c (netConsumed id ⟨s, i, s'⟩) c' := by
  cases i with
  | outside t _ =>
      have hsame : s' = s := hstep
      subst hsame
      exact ⟨c, hc, .idle c.state rfl rfl⟩
  | invoke env call =>
      obtain ⟨c', hc', heffect⟩ := exec_effect hc hstep
      exact ⟨c', hc', heffect.spends hnone hkeeps⟩

theorem consumed_append {e : Entry State (Inputs self)} :
    consumed id (tr ++ [e]) = consumed id tr + netConsumed id e := by
  simp [consumed]

/-- Before the deadline, everything was consumed before it. -/
theorem consumedBefore_eq {deadline : ℕ} (h : ∀ e ∈ tr, e.input.time < deadline) :
    consumedBefore id deadline tr = consumed id tr := by
  have hall : tr.filter (fun e => e.input.time < deadline) = tr :=
    List.filter_eq_self.2 fun e he => decide_eq_true (h e he)
  rw [consumedBefore, tally, hall, consumed]

/-- An entry after the deadline does not count. -/
theorem consumedBefore_late {deadline : ℕ} {e : Entry State (Inputs self)}
    (h : ¬ e.input.time < deadline) :
    consumedBefore id deadline (tr ++ [e]) = consumedBefore id deadline tr := by
  rw [consumedBefore, tally_append, tally_cons, if_neg h, tally_nil, add_zero, add_zero]
  rfl

/-- What is left in a window, and what a step spent of it, is within the limits of the
windows that have begun. -/
theorem Budget.Within.spends {t t' j : ℕ} {amount : ℤ} (h : c.Within b w) (hsound : c.Sound)
    (hstart : c.windowStart = b.windowStart + j * w) (hclock : j = 0 ∨ c.windowStart ≤ t)
    (ht : t ≤ t') (hspends : Spends t' c amount c') :
    ∃ j', c'.Within b w ∧ c'.windowStart = b.windowStart + j' * w ∧
      (j' = 0 ∨ c'.windowStart ≤ t') ∧
      amount + (c'.capacity - c'.spent) + j * b.limit ≤ c.capacity - c.spent + j' * b.limit := by
  cases hspends with
  | idle state hnone hidle =>
      subst hidle
      refine ⟨j, ⟨h.limit, h.window, h.noDeficit, h.spent⟩, hstart, hclock.imp_right ht.trans', ?_⟩
      rw [hnone, zero_add]
      exact le_rfl
  | settled now r hnow hsettle hused hroom =>
      obtain ⟨hr, n, hlater, hlast, hgain⟩ := settle_accrues hsound h hsettle
      rw [h.limit] at hgain
      have hinside := hr.spent
      subst hused
      refine ⟨j + n, ⟨hr.limit, hr.window, hr.noDeficit, ?_⟩, ?_, ?_, ?_⟩
      · show r.spent + amount ≤ r.capacity
        omega
      · show r.windowStart = _
        rw [hlater, hstart]
        ring
      · show j + n = 0 ∨ r.windowStart ≤ t'
        rcases hlast with rfl | hlast
        · rw [zero_mul, add_zero] at hlater
          omega
        · exact .inr (hnow ▸ hlast)
      · show amount + (r.capacity - (r.spent + amount)) + _ ≤ _
        push_cast
        linarith

/-- No more windows have begun than a deadline allows. -/
theorem begun_le {start j k t : ℕ} (hclock : j = 0 ∨ start + j * w ≤ t)
    (hearly : t < start + (k + 1) * w) : j ≤ k := by
  rcases hclock with rfl | hbegun
  · exact Nat.zero_le k
  · have hlt : j * w < (k + 1) * w := by omega
    exact Nat.lt_succ_iff.1 (Nat.lt_of_mul_lt_mul_right hlt)

/-- One step. -/
theorem Bounded.step {t : ℕ} (h : Bounded id b w tr s t) (hb : b.Sound)
    (hreach : (machine self).Reachable s) (ht : t ≤ i.time)
    (hkeeps : ¬ Asks (Call.Reconfigures id) i) (hstep : (machine self).step i s s') :
    Bounded id b w (tr ++ [⟨s, i, s'⟩]) s' i.time := by
  have hlimit := hb.wellFormed.limit.1
  obtain ⟨c, j, hc, hwithin, hstart, hclock, hsum⟩ := h.record
  obtain ⟨c', hc', hspends⟩ := step_spends hc hwithin.noDeficit hkeeps hstep
  obtain ⟨j', hwithin', hstart', hclock', hgain⟩ :=
    hwithin.spends (sound_reachable hreach hc) hstart hclock ht hspends
  have hpast : ∀ e ∈ tr ++ [⟨s, i, s'⟩], e.input.time ≤ i.time := by
    intro e he
    rcases List.mem_append.1 he with he | he
    · exact (h.past e he).trans ht
    · obtain rfl := List.mem_singleton.1 he
      exact le_rfl
  have hsum' : consumed id (tr ++ [⟨s, i, s'⟩]) + b.spent + (c'.capacity - c'.spent)
      ≤ (j' + 1) * b.limit + b.rolloverCredit := by
    rw [consumed_append]
    linarith
  refine ⟨hpast, ⟨c', j', hc', hwithin', hstart', hclock', hsum'⟩, ?_⟩
  intro k
  by_cases hearly : i.time < b.windowStart + (k + 1) * w
  · have hcount : j' ≤ k := begun_le (hstart' ▸ hclock') hearly
    have hlimits : ((j' : ℤ) + 1) * b.limit ≤ (k + 1) * b.limit :=
      mul_le_mul_of_nonneg_right (by omega) hlimit
    have hleft := hwithin'.spent
    rw [consumedBefore_eq fun e he => (hpast e he).trans_lt hearly]
    linarith
  · rw [consumedBefore_late hearly]
    exact h.windows k

/-- **Total spend is bounded.**  From any point of a run on, as long as the budget is not
reconfigured, it stays within the capacity of its window, it has consumed at most one limit
for each of its windows when the window ends, and untouched it gains at most one limit
for each. -/
theorem total_spend {tr₁ tr₂ : List (Entry State (Inputs self))} {e : Entry State (Inputs self)}
    {t : ℕ} (hpath : (machine self).Path anyInput (tr₁ ++ e :: tr₂) s t)
    (hb : e.post.budget id = some b) (hw : b.window = some w) (hnone : b.allowDeficit = false)
    (hspent : b.spent ≤ b.limit + b.rolloverCredit)
    (hkeeps : ∀ q ∈ tr₂, ¬ Asks (Call.Reconfigures id) q.input) :
    ∃ c, s.budget id = some c ∧ c.spent ≤ b.limit + c.rolloverCredit ∧
      (∀ k : ℕ, consumedBefore id (b.windowStart + (k + 1) * w) tr₂ + b.spent
        ≤ (k + 1) * b.limit + b.rolloverCredit) ∧
      ∀ now r, c.settle now = .ok r → ∃ n, r.windowStart = c.windowStart + n * w ∧
        r.limit + r.rolloverCredit - r.spent
          ≤ c.limit + c.rolloverCredit - c.spent + n * b.limit := by
  obtain ⟨_, _, _, hpre, hle, _, hstep, _⟩ := hpath.entry (e := e) (by simp)
  have hsound : b.Sound := sound_reachable (hpre.step hle trivial hstep).reachable hb
  have hlimit := hsound.wellFormed.limit.1
  have hcredit := hsound.wellFormed.credit.1
  have hsplit : tr₁ ++ e :: tr₂ = (tr₁ ++ [e]) ++ tr₂ := by simp
  rw [hsplit] at hpath
  have hbounded : Bounded id b w tr₂ s t := by
    refine hpath.stretch ?_ ?_
    · intro s t hp
      obtain ⟨_, _, _, _, _, rfl, _⟩ := hp.last
      refine ⟨by simp, ⟨b, 0, hb, ⟨rfl, hw, hnone, hspent⟩, by simp, .inl rfl, ?_⟩, ?_⟩
      · simp [capacity, consumed]
      · intro k
        have hlimits : 0 ≤ (k : ℤ) * b.limit := mul_nonneg (by omega) hlimit
        simp only [consumedBefore, tally_nil]
        linarith
    · intro tr q t' hseen hp ht _ hstep hbounded
      exact hbounded.step hsound hp.reachable ht
        (hkeeps q (hseen.subset (by simp))) hstep
  obtain ⟨c, j, hc, hwithin, _⟩ := hbounded.record
  refine ⟨c, hc, ?_, hbounded.windows, ?_⟩
  · have hinside := hwithin.spent
    rw [capacity, hwithin.limit] at hinside
    exact hinside
  · intro now r hsettle
    obtain ⟨_, n, hstart, _, hgain⟩ :=
      settle_accrues (sound_reachable hpath.reachable hc) hwithin hsettle
    rw [hwithin.limit] at hgain
    exact ⟨n, hstart, hgain⟩

/-! ## A run -/

/-- Account 1 allocates 100 a day, half of which rolls over. -/
def allocation : Script Call :=
  [(signedBy 0 [1], .allocateWithRollover (.account 1) "eng" ⟨100, isI128_hundred⟩ .daily true
    ⟨5000, by decide⟩ ⟨0, isI128_zero⟩ 0)]

/-- Two days later it spends the credit of both. -/
def spendingCredit : Script Call :=
  [(signedBy 172800 [1], .consume (.account 1) "eng" ⟨250, by decide⟩)]

/-- The 250 are within three limits. -/
theorem total_spend_credit :
    ∃ c, (play (play deployed allocation) spendingCredit).budget "eng" = some c ∧
      c.spent ≤ 100 + c.rolloverCredit ∧
      (∀ k : ℕ, consumedBefore "eng" (0 + (k + 1) * 86400)
        ((deployment (.contract 0)).trace (play deployed allocation) spendingCredit) + 0
        ≤ (k + 1) * 100 + 0) ∧
      ∀ now r, c.settle now = .ok r → ∃ n, r.windowStart = c.windowStart + n * 86400 ∧
        r.limit + r.rolloverCredit - r.spent
          ≤ c.limit + c.rolloverCredit - c.spent + n * 100 := by
  have hplays : (deployment (.contract 0)).plays (play deployed allocation) 0 spendingCredit
      = true := rfl
  have hfirst : (deployment (.contract 0)).plays deployed 0 allocation = true := rfl
  have hstart : (machine (.contract 0)).Path anyInput [] deployed 0 := .start deployed_fresh
  have hallocated := Deployment.path_playing hstart hfirst
  have hpath : (machine (.contract 0)).Path anyInput
      ([] ++ ⟨deployed, .invoke (signedBy 0 [1]) _, play deployed allocation⟩ ::
        (deployment (.contract 0)).trace (play deployed allocation) spendingCredit)
      (play (play deployed allocation) spendingCredit) _ :=
    Deployment.path_playing hallocated hplays
  have hb : (play deployed allocation).budget "eng" = some _ := rfl
  refine total_spend hpath hb rfl rfl (by decide) ?_
  intro q hq
  obtain rfl := List.mem_singleton.1 hq
  exact fun hasks => hasks

end BudgetContract
end Astroid
