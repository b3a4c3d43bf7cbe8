import Astroid.Lib.Lazy
import Astroid.Policy.Effects

/-!
# Recurring allowances

An allowance is a counter of fixed periods: it is settled when it is charged or set, and
what it has `spent` is what was recorded in the period its window starts
(`Recurs.step`).  So each period records at most the limit, a read reports the period it
is made in, and it does not matter how often the allowance is settled
(`recurring_allowance`).
-/

namespace Astroid
namespace PolicyContract

open Outcome Machine Periods

variable {self : Address} {id : String} {asset : Address} {s s' : State} {a a' : AssetAllowance}
  {now t : ℕ} {call : Call} {tr tr₁ tr₂ : List (Entry State (Inputs self))}
  {q : Entry State (Inputs self)} {i : Inputs self}

/-- What an entry of a run recorded as spent, and when. -/
def spends (id : String) (asset : Address) (e : Entry State (Inputs self)) : List (ℕ × ℤ) :=
  match e.input with
  | .invoke env call =>
      ((call.charge id asset).map fun amount => (env.timestamp.toNat, amount)).toList
  | .outside _ _ => []

/-- What a run recorded as spent. -/
def recorded (id : String) (asset : Address) (tr : List (Entry State (Inputs self))) :
    List (ℕ × ℤ) :=
  tr.flatMap (spends id asset)

/-- The call does not remove the allowance, nor give it another limit or window. -/
def Call.Keeps (id : String) (asset : Address) (limit : ℤ) (windowSeconds : ℕ) (call : Call) :
    Prop :=
  (∀ caller, call ≠ .removeAllowance caller id asset) ∧
    ∀ l, call.limit id asset = some l →
      l.limit = limit ∧ (l.windowSeconds = none ∨ l.windowSeconds = some windowSeconds)

/-- The input keeps the allowance `a`. -/
def keeps (id : String) (asset : Address) (a : AssetAllowance) : Inputs self → Prop
  | .invoke _ call => call.Keeps id asset a.limit a.windowSeconds
  | .outside _ _ => True

/-! ## When a window starts -/

theorem settled_started (h : a.windowStart ≤ now) : (a.settled now).windowStart ≤ now := by
  have hle : (now - a.windowStart) / a.windowSeconds * a.windowSeconds ≤ now - a.windowStart :=
    Nat.div_mul_le_self _ _
  show a.windowStart + (now - a.windowStart) / a.windowSeconds * a.windowSeconds ≤ now
  omega

/-- No window starts in the future. -/
def StartedBy (t : ℕ) (r : Records) : Prop :=
  ∀ asset a, r.allowance asset = some a → a.windowStart ≤ t

theorem AllowanceEffect.started {r : Records} {after : Option AssetAllowance}
    (h : AllowanceEffect r now id asset call after) (hnow : now < 2 ^ 64)
    (hr : StartedBy now r) : ∀ a, after = some a → a.windowStart ≤ now := by
  rintro a rfl
  cases h with
  | charged _ hcharged =>
      unfold Charged at hcharged
      split at hcharged
      · exact hr asset a hcharged.symm
      · obtain ⟨_, allowance, hconsumed, hafter⟩ := hcharged
        cases allowance with
        | none => exact hr asset a hafter.symm
        | some a' =>
            cases hafter
            unfold Records.consumeAllowance at hconsumed
            split at hconsumed
            · cases hconsumed
            · rename_i stored hstored
              split at hconsumed
              · cases hconsumed
              · simp only [bind_eq_ok, pure_eq_ok, Option.some.injEq] at hconsumed
                obtain ⟨_, hconsume, rfl⟩ := hconsumed
                obtain ⟨_, rfl⟩ := AssetAllowance.consume_ok hnow hconsume
                exact settled_started (hr asset stored hstored)
  | limited l _ _ _ hafter =>
      cases hafter
      have hsettled : r.allowance asset ≠ none →
          ((r.allowanceOrUnset id asset).settled now).windowStart ≤ now := by
        intro hsome
        obtain ⟨stored, hstored⟩ := Option.ne_none_iff_exists'.1 hsome
        unfold Records.allowanceOrUnset
        rw [hstored]
        exact settled_started (hr asset stored hstored)
      have hwindow : ∀ {a : AssetAllowance}, a.windowStart ≤ now →
          (a.withWindow now l.windowSeconds).windowStart ≤ now := by
        intro a ha
        unfold AssetAllowance.withWindow
        split
        · exact ha
        · split
          · exact le_rfl
          · exact ha
      unfold Records.limited
      refine hwindow ?_
      split
      · exact le_rfl
      · rename_i hsome
        exact hsettled hsome
  | removed _ _ hafter => cases hafter

theorem started_of_path (h : (machine self).Path anyInput tr s t) (id : String) :
    StartedBy t (s.records id) := by
  refine h.history (P := fun _ s t => ∀ id, StartedBy t (s.records id)) ?_ ?_ id
  · intro s t hfresh id asset a ha
    rw [hfresh.records id] at ha
    cases ha
  · intro tr s t i s' hpath hstarted ht _ hstep id asset a ha
    have hbefore : StartedBy i.time (s.records id) := fun asset a ha =>
      (hstarted id asset a ha).trans ht
    cases i with
    | outside time w =>
        obtain rfl := hstep
        exact hbefore asset a ha
    | invoke env call =>
        exact ((exec_effect (keyed_reachable hpath.reachable) hstep).allowance id asset).started
          env.timestamp.toNat_lt hbefore a ha

/-! ## A stretch of a run -/

/-- Where a run stands that began with the allowance `a`. -/
structure Recurs {current : Address} (id : String) (asset : Address) (a : AssetAllowance)
    (tr : List (Entry State (Inputs current))) (s : State) (t : ℕ) : Prop where
  later : ∀ x ∈ recorded id asset tr, a.windowStart ≤ x.1
  within : Within a.windowStart a.windowSeconds a.limit (recorded id asset tr)
  record : ∃ a' k, (s.records id).allowance asset = some a' ∧ a'.limit = a.limit ∧
    a'.windowSeconds = a.windowSeconds ∧ a'.windowStart ≤ t ∧
    Counts a.windowStart a.windowSeconds (recorded id asset tr) a'.counter k

theorem recorded_append {e : Entry State (Inputs self)} :
    recorded id asset (tr ++ [e]) = recorded id asset tr ++ spends id asset e := by
  simp [recorded]

theorem Recurs.start (ha : (s.records id).allowance asset = some a) (hspent : a.spent = 0)
    (hlimit : 0 ≤ a.limit) (ht : a.windowStart ≤ t) :
    Recurs id asset a ([] : List (Entry State (Inputs self))) s t := by
  have hcounter : a.counter = ⟨a.windowStart, 0⟩ := by
    unfold AssetAllowance.counter
    rw [hspent]
  exact ⟨by simp [recorded], within_nil hlimit, a, 0, ha, rfl, rfl, ht, hcounter ▸ counts_nil⟩

/-- A step that records nothing and leaves the allowance with an equal counter. -/
theorem Recurs.idle {e : Entry State (Inputs self)} {t' : ℕ} (h : Recurs id asset a tr s t)
    (hnone : spends id asset e = []) (ht : t ≤ t')
    (hsame : (s'.records id).allowance asset = (s.records id).allowance asset) :
    Recurs id asset a (tr ++ [e]) s' t' := by
  obtain ⟨a', k, ha', hlimit, hwindow, hstart, hcounts⟩ := h.record
  have hrecorded : recorded id asset (tr ++ [e]) = recorded id asset tr := by
    rw [recorded_append, hnone, List.append_nil]
  refine ⟨hrecorded ▸ h.later, hrecorded ▸ h.within, a', k, hsame.trans ha', hlimit, hwindow,
    hstart.trans ht, hrecorded ▸ hcounts⟩

/-- A call that keeps the limit and the window settles the allowance. -/
theorem limited_settled {r : Records} {l : Limit} (ha' : r.allowance asset = some a')
    (hwindow : l.windowSeconds = none ∨ l.windowSeconds = some a'.windowSeconds) :
    (r.limited now id asset l).counter = (a'.settled now).counter ∧
      (r.limited now id asset l).windowSeconds = a'.windowSeconds := by
  have hstored : r.allowanceOrUnset id asset = a' := by
    unfold Records.allowanceOrUnset
    rw [ha', Option.getD_some]
  have hkept : (a'.settled now).withWindow now l.windowSeconds = a'.settled now := by
    rcases hwindow with hnone | hsome
    · rw [hnone]
      rfl
    · rw [hsome]
      exact if_neg fun hne => hne rfl
  have hold : ¬ r.allowance asset = none := by
    rw [ha']
    exact Option.some_ne_none _
  unfold Records.limited
  rw [hstored]
  simp only [if_neg hold, hkept]
  exact ⟨rfl, rfl⟩

/-- Settling an allowance is catching up its counter. -/
theorem counts_settled {origin length k : ℕ} {log : List (ℕ × ℤ)}
    (h : Counts origin length log a'.counter k) (hwindow : a'.windowSeconds = length)
    (hstart : a'.windowStart ≤ now) :
    Counts origin length log (a'.settled now).counter (index origin length now) := by
  subst hwindow
  exact h.settle hstart

/-- A step that settles the allowance and records nothing. -/
theorem Recurs.settle {e : Entry State (Inputs self)} (h : Recurs id asset a tr s t)
    (ha' : (s.records id).allowance asset = some a') (hnone : spends id asset e = [])
    (ht : t ≤ now) {after : AssetAllowance}
    (hafter : (s'.records id).allowance asset = some after) (hlimit : after.limit = a.limit)
    (hwindow : after.windowSeconds = a'.windowSeconds)
    (hcounter : after.counter = (a'.settled now).counter) :
    Recurs id asset a (tr ++ [e]) s' now := by
  obtain ⟨a₁, k, ha₁, _, hwindow', hstart, hcounts⟩ := h.record
  rw [ha', Option.some.injEq] at ha₁
  subst ha₁
  have hrecorded : recorded id asset (tr ++ [e]) = recorded id asset tr := by
    rw [recorded_append, hnone, List.append_nil]
  have hstart' : after.windowStart ≤ now := by
    have hsame : after.windowStart = (a'.settled now).windowStart :=
      congrArg Counter.start hcounter
    rw [hsame]
    exact settled_started (hstart.trans ht)
  refine ⟨hrecorded ▸ h.later, hrecorded ▸ h.within, after,
    index a.windowStart a.windowSeconds now, hafter, hlimit, hwindow.trans hwindow', hstart', ?_⟩
  rw [hrecorded, hcounter]
  exact counts_settled hcounts hwindow' (hstart.trans ht)

/-- A step that charges the allowance. -/
theorem Recurs.charge {e : Entry State (Inputs self)} {amount : ℤ} (h : Recurs id asset a tr s t)
    (ha' : (s.records id).allowance asset = some a')
    (hspends : spends id asset e = [(now, amount)]) (ht : t ≤ now)
    (hroom : (a'.settled now).spent + amount ≤ a'.limit)
    (hafter : (s'.records id).allowance asset
      = some { a'.settled now with spent := (a'.settled now).spent + amount }) :
    Recurs id asset a (tr ++ [e]) s' now := by
  obtain ⟨a₁, k, ha₁, hlimit, hwindow, hstart, hcounts⟩ := h.record
  rw [ha', Option.some.injEq] at ha₁
  subst ha₁
  have hnow : a'.counter.start ≤ now := hstart.trans ht
  have hsettled : Counts a.windowStart a.windowSeconds (recorded id asset tr)
      (a'.settled now).counter (index a.windowStart a.windowSeconds now) :=
    counts_settled hcounts hwindow hnow
  have horigin : a.windowStart ≤ now := by
    have hfrom := hcounts.start
    omega
  rw [hlimit] at hroom
  refine ⟨?_, ?_, _, index a.windowStart a.windowSeconds now, hafter, hlimit, hwindow,
    settled_started hnow, ?_⟩
  · rw [recorded_append, hspends]
    intro x hx
    rcases List.mem_append.1 hx with hx | hx
    · exact h.later x hx
    · rw [List.mem_singleton] at hx
      rw [hx]
      exact horigin
  · rw [recorded_append, hspends]
    exact h.within.charge hsettled hroom
  · rw [recorded_append, hspends]
    exact hsettled.charge

/-- **Every step keeps the counter that of what was recorded.** -/
theorem Recurs.step (h : Recurs id asset a tr s t) (hpositive : 0 < a.limit) (hkeyed : Keyed s)
    (ht : t ≤ i.time) (hkeeps : keeps id asset a i) (hstep : (machine self).step i s s') :
    Recurs id asset a (tr ++ [⟨s, i, s'⟩]) s' i.time := by
  cases i with
  | outside time w =>
      obtain rfl := hstep
      exact h.idle rfl ht rfl
  | invoke env call =>
      obtain ⟨a', k, ha', hlimit, hwindow, hstart, hcounts⟩ := h.record
      have hspends : spends id asset ⟨s, .invoke env call, s'⟩ = ((call.charge id asset).map
        fun amount => (env.timestamp.toNat, amount)).toList := rfl
      cases (exec_effect hkeyed hstep).allowance id asset with
      | removed caller hcall _ => exact absurd hcall (hkeeps.1 caller)
      | limited l hcall hcharge _ hafter =>
          obtain ⟨hl, hlwindow⟩ := hkeeps.2 l hcall
          rw [← hwindow] at hlwindow
          have hsettled : ((s.records id).limited env.timestamp.toNat id asset l).counter
                = (a'.settled env.timestamp.toNat).counter ∧
              ((s.records id).limited env.timestamp.toNat id asset l).windowSeconds
                = a'.windowSeconds := limited_settled ha' hlwindow
          obtain ⟨hcounter, hwindow'⟩ := hsettled
          rw [hcharge] at hspends
          exact h.settle ha' hspends ht hafter hl hwindow' hcounter
      | charged _ hcharged =>
          cases hcharge : call.charge id asset with
          | none =>
              rw [hcharge] at hcharged hspends
              exact h.idle hspends ht hcharged
          | some amount =>
              rw [hcharge] at hcharged hspends
              obtain ⟨_, allowance, hconsumed, hafter⟩ := hcharged
              obtain ⟨hroom, rfl⟩ := consumeAllowance_limited env.timestamp.toNat_lt ha'
                (hlimit ▸ hpositive) hconsumed
              exact h.charge ha' hspends ht hroom hafter

/-! ## Settling at any times -/

theorem settled_settled {t t' : ℕ} (h : t ≤ t') : (a.settled t).settled t' = a.settled t' := by
  have hsame : (a.counter.settle a.windowSeconds t).settle a.windowSeconds t'
      = a.counter.settle a.windowSeconds t' := Counter.settle_settle h
  have hcounter : (a.settled t).counter = a.counter.settle a.windowSeconds t := rfl
  show { a.settled t with
      windowStart := ((a.settled t).counter.settle a.windowSeconds t').start
      spent := ((a.settled t).counter.settle a.windowSeconds t').spent } = a.settled t'
  rw [hcounter, hsame]
  rfl

/-- Settle at a ledger time. -/
def settleAt (a : AssetAllowance) (t : UInt64) : Result AssetAllowance := a.settleWindow t.toNat

theorem settleAt_eq {t : UInt64} : settleAt a t = .ok (a.settled t.toNat) :=
  AssetAllowance.settleWindow_eq t.toNat_lt

/-- **Settling at every boundary is settling once.** -/
theorem visits_settleAt {ts : List UInt64} {last : UInt64}
    (hsorted : (ts ++ [last]).Pairwise (· ≤ ·)) :
    Lazy.visits settleAt a (ts ++ [last]) = settleAt a last := by
  induction ts generalizing a with
  | nil =>
      rw [List.nil_append, Lazy.visits_cons settleAt_eq, settleAt_eq]
      rfl
  | cons first ts ih =>
      rw [List.cons_append, List.pairwise_cons] at hsorted
      have hle : first.toNat ≤ last.toNat :=
        UInt64.le_iff_toNat_le.1 (hsorted.1 last (by simp))
      rw [List.cons_append, Lazy.visits_cons settleAt_eq, ih hsorted.2, settleAt_eq, settleAt_eq,
        settled_settled hle]

/-! ## The law -/

/-- What was spent from one time until before another. -/
def spentBetween (start stop : ℕ) (log : List (ℕ × ℤ)) : ℤ :=
  Tally.tally Prod.snd (fun x => start ≤ x.1 ∧ x.1 < stop) log

/-- Each window of an allowance, or everything if there is no window, stays within the limit. -/
def Bounds (a : AssetAllowance) (log : List (ℕ × ℤ)) : Prop :=
  (0 < a.windowSeconds → ∀ k, spentBetween (a.windowStart + k * a.windowSeconds)
    (a.windowStart + (k + 1) * a.windowSeconds) log ≤ a.limit) ∧
  (a.windowSeconds = 0 → (log.map Prod.snd).sum ≤ a.limit)

theorem bounds_of_within {log : List (ℕ × ℤ)}
    (h : Within a.windowStart a.windowSeconds a.limit log)
    (hlater : ∀ x ∈ log, a.windowStart ≤ x.1) : Bounds a log := by
  refine ⟨?_, ?_⟩
  · intro hlength k
    unfold spentBetween
    rw [← charged_eq hlength hlater]
    exact h k
  · intro hzero
    have hall := h 0
    rw [hzero, charged_zero] at hall
    exact hall

/-- **What a recurring allowance records.**  Let an entry of a run leave the allowance `a` with
nothing spent, and let no later one remove it or give it another limit or window.  Then
each period, counted from where the window of `a` starts, records at most the limit, as
does the whole run if there is no window.  The window keeps starting at a boundary, a
read reports what was recorded in the period it is made in, and settling at any times
leaves what settling at the last of them leaves. -/
theorem recurring_allowance (hpath : (machine self).Path anyInput (tr₁ ++ q :: tr₂) s t)
    (ha : (q.post.records id).allowance asset = some a) (hspent : a.spent = 0)
    (hlimit : 0 < a.limit) (hkeeps : ∀ e ∈ tr₂, keeps id asset a e.input) :
    (0 < a.windowSeconds → ∀ k, spentBetween (a.windowStart + k * a.windowSeconds)
      (a.windowStart + (k + 1) * a.windowSeconds) (recorded id asset tr₂) ≤ a.limit) ∧
    (a.windowSeconds = 0 → ((recorded id asset tr₂).map Prod.snd).sum ≤ a.limit) ∧
    ∃ a', (s.records id).allowance asset = some a' ∧ a'.limit = a.limit ∧
      a'.windowSeconds = a.windowSeconds ∧
      a'.windowStart ≡ a.windowStart [MOD a.windowSeconds] ∧
      (∀ env : Env self, t ≤ env.timestamp.toNat →
        (∀ k, a.windowStart + k * a.windowSeconds ≤ env.timestamp.toNat →
          env.timestamp.toNat < a.windowStart + (k + 1) * a.windowSeconds →
          (getAllowance env s id asset).spent
            = spentBetween (a.windowStart + k * a.windowSeconds)
              (a.windowStart + (k + 1) * a.windowSeconds) (recorded id asset tr₂)) ∧
        (a.windowSeconds = 0 →
          (getAllowance env s id asset).spent = ((recorded id asset tr₂).map Prod.snd).sum)) ∧
      ∀ (ts : List UInt64) (last : UInt64), (ts ++ [last]).Pairwise (· ≤ ·) →
        Lazy.visits settleAt a' (ts ++ [last]) = settleAt a' last := by
  have hrecurs : Recurs id asset a tr₂ s t := by
    rw [List.append_cons] at hpath
    refine hpath.stretch (Q := fun tr s t => Recurs id asset a tr s t) ?_ ?_
    · intro s t hq
      have hstarted := started_of_path hq id
      obtain ⟨_, _, _, _, _, rfl, _⟩ := hq.last
      exact .start ha hspent hlimit.le (hstarted asset a ha)
    · intro tr e t' hpre hbefore ht _ hstep hrecurs
      refine hrecurs.step hlimit (keyed_reachable hbefore.reachable) ht ?_ hstep
      exact hkeeps e (hpre.subset (List.mem_append_right _ (List.mem_singleton_self e)))
  obtain ⟨a', k, ha', hlimit', hwindow, hstart, hcounts⟩ := hrecurs.record
  obtain ⟨hperiods, htotal⟩ := bounds_of_within hrecurs.within hrecurs.later
  refine ⟨hperiods, htotal, a', ha', hlimit', hwindow, ?_, ?_, fun _ _ => visits_settleAt⟩
  · have hfrom : a'.windowStart = a.windowStart + k * a.windowSeconds := hcounts.start
    rw [hfrom]
    simp [Nat.ModEq]
  · intro env ht
    have hread : (getAllowance env s id asset).spent
        = charged a.windowStart a.windowSeconds
          (index a.windowStart a.windowSeconds env.timestamp.toNat) (recorded id asset tr₂) := by
      have hstored : (s.records id).allowanceOrUnset id asset = a' := by
        unfold Records.allowanceOrUnset
        rw [ha', Option.getD_some]
      rw [getAllowance_eq, hstored]
      exact (counts_settled hcounts hwindow (hstart.trans ht)).spent
    refine ⟨?_, ?_⟩
    · intro k hlow hhigh
      have hlength : 0 < a.windowSeconds := by
        by_contra hzero
        have hzero : a.windowSeconds = 0 := by omega
        rw [hzero] at hlow hhigh
        omega
      have hindex : index a.windowStart a.windowSeconds env.timestamp.toNat = k :=
        (index_eq_iff hlength ((Nat.le_add_right _ _).trans hlow)).2 ⟨hlow, hhigh⟩
      rw [hread, hindex]
      exact charged_eq hlength hrecurs.later
    · intro hzero
      rw [hread, hzero, index_of_not_lasting, charged_zero]

/-! ## Two periods -/

/-- Account 1 registers a policy. -/
def registration : Script Call := [(signedBy 0 [1], registering 1 "ops")]

/-- It allows 100 of `contract 5` an hour. -/
def hourlyLimit : Call :=
  .setRecurringAllowance (.account 1) "ops" (.contract 5) ⟨100, isI128_hundred⟩ 3600 0

def hourly : Script Call := [(signedBy 30 [1], hourlyLimit)]

/-- It records 70 in the first hour and 80 in the third. -/
def twoSpends : Script Call :=
  [(signedBy 40 [1], .updateAllowance (.account 1) "ops" (.contract 5) ⟨70, by decide⟩),
    (signedBy 7300 [1], .updateAllowance (.account 1) "ops" (.contract 5) ⟨80, by decide⟩)]

/-- What the two spends record. -/
def hourlyLog : List (ℕ × ℤ) :=
  recorded "ops" (.contract 5)
    ((deployment (.contract 0)).trace (play (play deployed registration) hourly) twoSpends)

/-- The first hour records no more than 100. -/
theorem recurring_allowance_hourly : spentBetween (30 + 0 * 3600) (30 + (0 + 1) * 3600) hourlyLog
    ≤ 100 := by
  have hfirst : (deployment (.contract 0)).plays deployed 0 registration = true := by
    decide
  have hsecond : (deployment (.contract 0)).plays (play deployed registration) 0 hourly
      = true := by decide
  have hplays : (deployment (.contract 0)).plays (play (play deployed registration) hourly) 30
      twoSpends = true := by decide
  have hstart : (machine (.contract 0)).Path anyInput [] deployed 0 := .start deployed_fresh
  have hregistered := Deployment.path_playing hstart hfirst
  have hlimited := Deployment.path_playing hregistered hsecond
  have hpath : (machine (.contract 0)).Path anyInput
      (([] ++ (deployment (.contract 0)).trace deployed registration) ++
        ⟨play deployed registration, .invoke (signedBy 30 [1]) hourlyLimit,
          play (play deployed registration) hourly⟩ ::
        (deployment (.contract 0)).trace (play (play deployed registration) hourly) twoSpends)
      (play (play (play deployed registration) hourly) twoSpends) 7300 := by
    rw [List.append_cons]
    exact Deployment.path_playing hlimited hplays
  have ha : ((play (play deployed registration) hourly).records "ops").allowance (.contract 5)
      = some ⟨"ops", .contract 5, 100, 0, 0, 3600, 30⟩ := by decide
  refine (recurring_allowance hpath ha rfl (by decide) ?_).1 (by decide) 0
  intro e he
  rcases List.mem_cons.1 he with rfl | he
  · exact ⟨by simp, by simp [Call.limit]⟩
  · rw [List.mem_singleton.1 he]
    exact ⟨by simp, by simp [Call.limit]⟩

end PolicyContract
end Astroid
