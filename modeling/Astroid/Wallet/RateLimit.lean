import Astroid.Wallet.Frame
import Astroid.Wallet.Buckets
import Astroid.Lib.Meter

/-!
# The rate limit

The rate records are a meter of two columns, the volume moved and the transactions
issued, over all assets of a wallet.  A cap of zero is no cap; the other column is
still counted.  No span shorter than three buckets holds more of either than its
cap (`rate_limit`).
-/

namespace Astroid
namespace WalletContract

open Outcome Window Metering

variable {World : Type} {H : WalletHost World} {env : Env H.self} {s s' : State World}
  {id : ℕ} {now : UInt64}

/-! ## Records and logs -/

/-- The charge `enforce_rate_limit` makes under a limit. -/
def chargeRate (now : UInt64) (config : RateLimitConfig) (stored : Option RateUsage) (amount : ℤ)
    (count : ℕ) : Result RateUsage := do
  let usage ← rolledRateUsage stored config now
  let (totalVolume, totalCount) ← rateTotals usage
  let newCount ← checkedCount totalCount count
  require (¬ (config.maxCount ≠ 0 ∧ config.maxCount < newCount)) .rateLimitExceeded
  let newVolume ← checkedAdd totalVolume amount
  require (¬ (config.maxVolume ≠ 0 ∧ config.maxVolume < newVolume)) .rateLimitExceeded
  let bucketVolume ← checkedAdd (usage.volume.getD 0 0) amount
  let bucketCount ← checkedCount (usage.count.getD 0 0) count
  pure { usage with
    volume := usage.volume.set 0 bucketVolume
    count := usage.count.set 0 bucketCount }

/-- The stored record is that of a log of volumes and counts, and not ahead of the clock. -/
def TracksRate (width : ℕ) (log : List (ℕ × (ℤ × ℕ))) (stored : Option RateUsage)
    (clock : ℕ) : Prop :=
  (∀ c ∈ log, 0 ≤ c.2.1) ∧
    match stored with
    | none => log = []
    | some usage => Tracks width rateLimitBuckets (partOf Prod.fst log) usage.bucket usage.volume ∧
        Tracks width rateLimitBuckets (partOf Prod.snd log) usage.bucket usage.count ∧
        usage.bucket ≤ clock / width

section Records

variable {width clock : ℕ} {log : List (ℕ × (ℤ × ℕ))} {config : RateLimitConfig}
  {record record' : Option RateUsage} {usage : RateUsage}

theorem TracksRate.mono {clock' : ℕ} (h : TracksRate width log record clock)
    (hle : clock ≤ clock') : TracksRate width log record clock' := by
  refine ⟨h.1, ?_⟩
  cases record with
  | none => exact h.2
  | some usage => exact ⟨h.2.1, h.2.2.1, h.2.2.2.trans (Nat.div_le_div_right hle)⟩

/-- A record aged to `now` is in the bucket of `now`, in both columns. -/
theorem rolledRateUsage_tracks
    (htracks : TracksRate (config.windowSeconds / rateLimitBuckets) log record clock)
    (hclock : clock ≤ now.toNat) (h : rolledRateUsage record config now = .ok usage) :
    usage.bucket = now.toNat / (config.windowSeconds / rateLimitBuckets) ∧
      Tracks (config.windowSeconds / rateLimitBuckets) rateLimitBuckets (partOf Prod.fst log)
        usage.bucket usage.volume ∧
      Tracks (config.windowSeconds / rateLimitBuckets) rateLimitBuckets (partOf Prod.snd log)
        usage.bucket usage.count := by
  unfold rolledRateUsage at h
  cases record with
  | none =>
      cases h
      have hnone : log = [] := htracks.2
      subst hnone
      exact ⟨rfl, Tracks.empty, Tracks.empty⟩
  | some old =>
      obtain ⟨_, hvolume, hcount, hbehind⟩ := htracks
      simp only [bind_eq_ok, pure_eq_ok] at h
      obtain ⟨_, _, rfl⟩ := h
      have hmono := Nat.div_le_div_right (c := config.windowSeconds / rateLimitBuckets) hclock
      have hbucket : max (now.toNat / (config.windowSeconds / rateLimitBuckets)) old.bucket
          = now.toNat / (config.windowSeconds / rateLimitBuckets) := max_eq_left (by omega)
      have hshift := Nat.add_sub_cancel'
        (le_max_right (now.toNat / (config.windowSeconds / rateLimitBuckets)) old.bucket)
      have hvolume' := hvolume.roll
        (max (now.toNat / (config.windowSeconds / rateLimitBuckets)) old.bucket - old.bucket)
      have hcount' := hcount.roll
        (max (now.toNat / (config.windowSeconds / rateLimitBuckets)) old.bucket - old.bucket)
      rw [hshift] at hvolume' hcount'
      exact ⟨hbucket, hvolume', hcount'⟩

/-- A charge is recorded in both columns, and leaves what is recent of each at or under
its cap, where it has one. -/
theorem chargeRate_tracks {x : ℤ} {n : ℕ} (hpos : 0 < x)
    (htracks : TracksRate (config.windowSeconds / rateLimitBuckets) log record clock)
    (hclock : clock ≤ now.toNat) (h : chargeRate now config record x n = .ok usage) :
    TracksRate (config.windowSeconds / rateLimitBuckets) (log ++ [(now.toNat, (x, n))])
        (some usage) now.toNat ∧
      (config.maxVolume ≠ 0 → recent (config.windowSeconds / rateLimitBuckets) rateLimitBuckets
        (partOf Prod.fst (log ++ [(now.toNat, (x, n))]))
        (now.toNat / (config.windowSeconds / rateLimitBuckets)) ≤ config.maxVolume) ∧
      (config.maxCount ≠ 0 → recent (config.windowSeconds / rateLimitBuckets) rateLimitBuckets
        (partOf Prod.snd (log ++ [(now.toNat, (x, n))]))
        (now.toNat / (config.windowSeconds / rateLimitBuckets)) ≤ config.maxCount) := by
  simp only [chargeRate, rateTotals, bind_eq_ok, require_eq_ok, checkedAdd_eq_ok,
    checkedCount_eq_ok, pure_eq_ok] at h
  obtain ⟨aged, haged, _, ⟨volume, hvolumeSum, count, hcountSum, rfl⟩, _, ⟨_, rfl⟩, _, hcountRoom,
    _, ⟨_, rfl⟩, _, hvolumeRoom, _, ⟨_, rfl⟩, _, ⟨_, rfl⟩, rfl⟩ := h
  obtain ⟨hbucket, hvolume, hcount⟩ := rolledRateUsage_tracks htracks hclock haged
  have hvolumeTotal := checkedSum_ok hvolumeSum
  have hcountTotal := checkedCountSum_ok hcountSum
  rw [hvolume.sum, zero_add, hbucket] at hvolumeTotal
  rw [hcount.sum, zero_add, hbucket] at hcountTotal
  rw [hbucket] at hvolume hcount
  rw [partOf_append, partOf_append]
  refine ⟨⟨?_, ?_, ?_, hbucket.le⟩, ?_, ?_⟩
  · intro c hc
    rcases List.mem_append.1 hc with hc | hc
    · exact htracks.1 c hc
    · rw [List.mem_singleton] at hc
      rw [hc]
      exact hpos.le
  · show Tracks _ _ (partOf Prod.fst _) aged.bucket _
    rw [hbucket, partOf_append]
    exact hvolume.charge x
  · show Tracks _ _ (partOf Prod.snd _) aged.bucket _
    rw [hbucket, partOf_append]
    exact hcount.charge n
  · intro hcap
    refine le_of_eq_of_le recent_charge ?_
    have hrecent : recent _ (3 + 1) (partOf Prod.fst log) _ = volume := hvolumeTotal.symm
    rw [hrecent]
    exact not_lt.1 fun hover => hvolumeRoom ⟨hcap, hover⟩
  · intro hcap
    refine le_of_eq_of_le recent_charge ?_
    have hrecent : recent _ (3 + 1) (partOf Prod.snd log) _ = count := hcountTotal.symm
    rw [hrecent]
    exact not_lt.1 fun hover => hcountRoom ⟨hcap, hover⟩

end Records

/-! ## The meter -/

/-- A step at `now` left a record alone, or charged it once with a positive volume.  The
gate does nothing under a limit with an empty window, which nobody can set. -/
inductive ChargesRate (now : ℕ) (config : RateLimitConfig) (record record' : Option RateUsage)
    (new : List (ℕ × (ℤ × ℕ))) : Prop
  | idle : new = [] → record' = record → ChargesRate now config record record' new
  | empty : config.windowSeconds = 0 → ChargesRate now config record record' new
  | charged (clock : UInt64) (x : ℤ) (n : ℕ) (usage : RateUsage) : clock.toNat = now →
      new = [(now, (x, n))] → 0 < x → chargeRate clock config record x n = .ok usage →
      record' = some usage → ChargesRate now config record record' new

/-- A limit that can be set: the volume cap is not negative and the window is a positive
number of buckets of equal width. -/
def RateLimitConfig.Sensible (config : RateLimitConfig) : Prop :=
  0 ≤ config.maxVolume ∧ rateLimitBuckets ≤ config.windowSeconds ∧
    config.windowSeconds % rateLimitBuckets = 0

/-- What a charged record stands for, and what is then recent in each column. -/
theorem ChargesRate.tracks {now clock : ℕ} {config : RateLimitConfig}
    {record record' : Option RateUsage} {log new : List (ℕ × (ℤ × ℕ))}
    (hsensible : config.Sensible) (h : ChargesRate now config record record' new)
    (htracks : TracksRate (config.windowSeconds / rateLimitBuckets) log record clock)
    (hclock : clock ≤ now) :
    TracksRate (config.windowSeconds / rateLimitBuckets) (log ++ new) record' now ∧
      (new ≠ [] →
        (config.maxVolume ≠ 0 → recent (config.windowSeconds / rateLimitBuckets) rateLimitBuckets
          (partOf Prod.fst (log ++ new)) (now / (config.windowSeconds / rateLimitBuckets))
          ≤ config.maxVolume) ∧
        (config.maxCount ≠ 0 → recent (config.windowSeconds / rateLimitBuckets) rateLimitBuckets
          (partOf Prod.snd (log ++ new)) (now / (config.windowSeconds / rateLimitBuckets))
          ≤ config.maxCount)) := by
  cases h with
  | idle hnone hsame =>
      subst hnone hsame
      rw [List.append_nil]
      exact ⟨htracks.mono hclock, fun hne => absurd rfl hne⟩
  | empty hempty =>
      obtain ⟨_, hwidth, _⟩ := hsensible
      unfold rateLimitBuckets at hwidth
      omega
  | charged now' x n usage hnow hnew hpos hcharge hrecord =>
      subst hnow hnew hrecord
      obtain ⟨htracks', hrooms⟩ := chargeRate_tracks hpos htracks hclock hcharge
      exact ⟨htracks', fun _ => hrooms⟩

/-- The rate records as a meter. -/
def rateMeter : Meter RateLimitConfig RateUsage (ℤ × ℕ) where
  window := (·.windowSeconds)
  Sensible := RateLimitConfig.Sensible
  Tracks w := TracksRate (w / rateLimitBuckets)
  Charges := ChargesRate
  empty _ _ := ⟨by simp, rfl⟩
  mono _ _ _ _ _ h hle := h.mono hle
  charge _ _ _ _ _ _ _ hsensible h htracks hclock := (h.tracks hsensible htracks hclock).1

/-- The effect of a step on the rate records of one wallet. -/
abbrev RateEffect (now : ℕ) (s s' : State World) (id : ℕ) (new : List (ℕ × (ℤ × ℕ))) : Prop :=
  rateMeter.Effect now (s.rateLimit id) (s'.rateLimit id) (s.rateLimitUsage id)
    (s'.rateLimitUsage id) new

/-- A step that kept the records and charged nothing. -/
theorem RateEffect.kept {now : ℕ} (hlimit : s'.rateLimit id = s.rateLimit id)
    (husage : s'.rateLimitUsage id = s.rateLimitUsage id) : RateEffect now s s' id [] :=
  .charged hlimit (fun _ => husage) fun _ _ => .idle rfl husage

/-! ## What a call issues -/

/-- The volume a call moves out of a wallet and the transactions it issues: one, or as
many as a batch has actions. -/
def Call.issues (id : ℕ) : Call → List (ℤ × ℕ)
  | .transfer _ walletId _ _ amount => if walletId = id then [(amount, 1)] else []
  | .withdraw _ walletId _ amount => if walletId = id then [(amount, 1)] else []
  | .batchExecuteValidated _ walletId actions =>
      if walletId = id then [(actionsTotal actions, actions.length)] else []
  | _ => []

/-- The rate gate charges the record of its wallet, whatever the asset. -/
theorem enforceRateLimit_effect {w n : ℕ} {x : ℤ} (hpos : 0 < x)
    (h : enforceRateLimit H env w x n s = .ok s') :
    RateEffect env.timestamp.toNat s s' id
      ((if w = id then [(x, n)] else []).map fun c => (env.timestamp.toNat, c)) := by
  by_cases hw : w = id
  · subst hw
    have hlimit : s'.rateLimit = s.rateLimit := by
      obtain ⟨_, rfl⟩ := enforceRateLimit_ok h
      rfl
    refine .charged (congrFun hlimit w) ?_ ?_
    · intro hnone
      rw [enforceRateLimit, hnone] at h
      cases h
      rfl
    · intro config hsome
      rw [enforceRateLimit, hsome] at h
      by_cases hempty : config.windowSeconds = 0
      · exact .empty hempty
      · simp only [if_neg hempty, bind_eq_ok, pure_eq_ok] at h
        obtain ⟨aged, haged, totals, htotals, newCount, hnewCount, u, hcount, newVolume, hnewVolume,
          u', hvolume, bucketVolume, hbucketVolume, bucketCount, hbucketCount, rfl⟩ := h
        refine .charged env.timestamp x n _ rfl (by simp) hpos ?_ (Function.update_self ..)
        simp only [chargeRate, bind_eq_ok, pure_eq_ok]
        exact ⟨aged, haged, totals, htotals, newCount, hnewCount, u, hcount, newVolume, hnewVolume,
          u', hvolume, bucketVolume, hbucketVolume, bucketCount, hbucketCount, rfl⟩
  · rw [if_neg hw]
    refine .kept ?_ ?_
    · obtain ⟨_, rfl⟩ := enforceRateLimit_ok h
      rfl
    · unfold enforceRateLimit at h
      split at h
      · cases h
        rfl
      · split at h
        · cases h
          rfl
        · simp only [bind_eq_ok, pure_eq_ok] at h
          obtain ⟨_, _, _, _, _, _, _, _, _, _, _, _, _, _, _, _, rfl⟩ := h
          exact Function.update_of_ne (Ne.symm hw) _ _

/-- Effects do not see what else changed. -/
theorem RateEffect.framed {now : ℕ} {s₁ s₂ : State World} {new : List (ℕ × (ℤ × ℕ))}
    (h : RateEffect now s₁ s₂ id new) (hbefore : s₁.rateLimit = s.rateLimit)
    (husage : s₁.rateLimitUsage = s.rateLimitUsage) (hafter : s'.rateLimit = s₂.rateLimit)
    (husage' : s'.rateLimitUsage = s₂.rateLimitUsage) : RateEffect now s s' id new := by
  unfold RateEffect
  rw [hafter, husage', ← hbefore, ← husage]
  exact h

/-- The velocity gate keeps the rate records. -/
theorem Gates.rate {w : ℕ} {a : Address} {x : ℤ} (h : Gates H env s s' w a x) :
    RateEffect env.timestamp.toNat s s' id
      ((if w = id then [(x, 1)] else []).map fun c => (env.timestamp.toNat, c)) := by
  obtain ⟨s₁, s₂, s₃, hbefore, hvelocity, hrate, hafter⟩ := h.gates
  have heffect : RateEffect _ _ _ id _ := enforceRateLimit_effect h.positive hrate
  obtain ⟨velocityUsage, rfl⟩ := enforceVelocity_ok hvelocity
  exact heffect.framed hbefore.rateLimit hbefore.rateLimitUsage hafter.rateLimit
    hafter.rateLimitUsage

theorem actionsTotal_pos {actions : List BatchAction} (hne : actions ≠ [])
    (hpos : ∀ action ∈ actions, 0 < action.amount) : 0 < actionsTotal actions := by
  refine List.sum_pos _ ?_ ?_
  · intro x hx
    obtain ⟨action, haction, rfl⟩ := List.mem_map.1 hx
    exact hpos action haction
  · simpa using hne

/-- A batch charges its whole volume, and one transaction for each action. -/
theorem BatchGates.rate {w : ℕ} {actions : List BatchAction}
    (h : BatchGates H env s s' w actions) :
    RateEffect env.timestamp.toNat s s' id
      ((if w = id then [(actionsTotal actions, actions.length)] else []).map
        fun c => (env.timestamp.toNat, c)) := by
  obtain ⟨caller, policy, budget, totals, s₀, s₁, s₂, hbefore, hvalid, hrate, hafter⟩ := h.gates
  obtain ⟨htotal, hpos⟩ := validateActions_total hvalid
  rw [zero_add] at htotal
  rw [htotal] at hrate
  have heffect : RateEffect _ _ _ id _ :=
    enforceRateLimit_effect (actionsTotal_pos h.nonempty hpos) hrate
  obtain ⟨world, _, rfl⟩ := validateActions_ok hvalid
  obtain ⟨usage, hflush⟩ := velocityFlush_eq s₂ w totals.velocity
  rw [hflush] at hafter
  exact heffect.framed hbefore.rateLimit hbefore.rateLimitUsage hafter.rateLimit
    hafter.rateLimitUsage

/-- **What a call did to the rate records.** -/
theorem exec_rate {call : Call} (h : exec H env s call = .ok s') (id : ℕ) :
    RateEffect env.timestamp.toNat s s' id
      ((call.issues id).map fun c => (env.timestamp.toNat, c)) := by
  cases call with
  | transfer caller w payee a x =>
      obtain ⟨_, h⟩ := snd_map_ok h
      exact (transfer_gates (Act.commit_eq_ok.1 h)).rate
  | withdraw caller w a x =>
      obtain ⟨_, h⟩ := snd_map_ok h
      exact (withdraw_gates (Act.commit_eq_ok.1 h)).rate
  | batchExecuteValidated caller w actions =>
      obtain ⟨_, h⟩ := snd_map_ok h
      exact (batchExecuteValidated_gates (Act.commit_eq_ok.1 h)).rate
  | setRateLimit caller w maxVolume maxCount windowSeconds =>
      obtain ⟨hvolume, ⟨_, rfl⟩ | ⟨hwidth, hdivides, rfl⟩⟩ := setRateLimit_ok h
      · by_cases hsame : id = w
        · subst hsame
          exact .cleared rfl (Function.update_self ..) (Function.update_self ..)
        · exact .kept (Function.update_of_ne hsame ..) (Function.update_of_ne hsame ..)
      · by_cases hsame : id = w
        · subst hsame
          refine .limited ⟨maxVolume, maxCount, windowSeconds⟩ rfl ⟨hvolume, hwidth, hdivides⟩
            (Function.update_self ..) ?_
          show (if _ then _ else _ : ℕ → Option RateUsage) id = if _ then _ else _
          split <;> simp_all [rateMeter]
        · refine .kept (Function.update_of_ne hsame ..) ?_
          dsimp only
          split
          · exact Function.update_of_ne hsame ..
          · rfl
  | clearRateLimit caller w =>
      obtain rfl := clearRateLimit_ok h
      by_cases hsame : id = w
      · subst hsame
        exact .cleared rfl (Function.update_self ..) (Function.update_self ..)
      · exact .kept (Function.update_of_ne hsame ..) (Function.update_of_ne hsame ..)
  | setVelocityLimit caller w a maxAmount windowSeconds =>
      obtain ⟨_, _, _, rfl⟩ := setVelocityLimit_ok h
      exact .kept rfl rfl
  | clearVelocityLimit caller w a =>
      obtain rfl := clearVelocityLimit_ok h
      exact .kept rfl rfl
  | _ =>
      have hsame := exec_sameWindows h trivial
      exact .kept (by rw [hsame.rateLimit]) (by rw [hsame.rateLimitUsage])

/-! ## The limit -/

/-- What an entry of a run issued from a wallet, at its time. -/
def issuedBy (id : ℕ) (e : Entry (State World) (Inputs H)) : List (ℕ × (ℤ × ℕ)) :=
  match e.input with
  | .invoke env call => (call.issues id).map fun c => (env.timestamp.toNat, c)
  | .outside _ _ => []

/-- The rate records of a wallet in the runs of the contract. -/
def rateMetering (H : WalletHost World) (id : ℕ) : Metering (machine H) rateMeter where
  limit s := s.rateLimit id
  record s := s.rateLimitUsage id
  charges := issuedBy id
  init s hfresh := ⟨Fresh.rateLimit hfresh id, Fresh.rateLimitUsage hfresh id⟩
  time := by
    rintro ⟨s, i, s'⟩ c hc
    cases i with
    | invoke env call =>
        obtain ⟨x, _, rfl⟩ := List.mem_map.1 hc
        rfl
    | outside time w => cases hc
  step := by
    rintro ⟨s, i, s'⟩ hstep
    cases i with
    | invoke env call => exact exec_rate hstep id
    | outside time w =>
        have hs' : s' = { s with world := w } := hstep.2
        subst hs'
        exact RateEffect.kept rfl rfl

/-- **The rate limit.**  Over any stretch of a run in which the limit of a wallet stays what
it is, no span of time shorter than three quarters of the window holds more
transactions or more volume, over all assets, than the limit has caps for. -/
theorem rate_limit (H : WalletHost World) (id : ℕ) :
    let μ := rateMetering H id
    ∀ tr₁ tr₂ s t config, (machine H).Path Machine.anyInput (tr₁ ++ tr₂) s t →
      μ.KeepsLimit config tr₂ s →
      ∀ t₁ t₂, t₁ ≤ t₂ → 4 * (t₂ - t₁) < 3 * config.windowSeconds →
        (config.maxCount ≠ 0 →
          span t₁ t₂ (partOf Prod.snd (μ.chargesIn tr₂)) ≤ config.maxCount) ∧
        (config.maxVolume ≠ 0 →
          span t₁ t₂ (partOf Prod.fst (μ.chargesIn tr₂)) ≤ config.maxVolume) := by
  intro μ tr₁ tr₂ s t config hpath hkeeps t₁ t₂ hle hspan
  obtain ⟨⟨hvolume, hwidth, hdivides⟩, _⟩ := Metering.recorded_limited hpath hkeeps.2
  have hbuckets : 0 < config.windowSeconds / rateLimitBuckets ∧
      t₂ < t₁ + (rateLimitBuckets - 1) * (config.windowSeconds / rateLimitBuckets) := by
    unfold rateLimitBuckets at hwidth hdivides ⊢
    omega
  constructor
  · intro hcap
    have hmetered := Metering.metered (μ := μ) (f := Prod.snd) (n := rateLimitBuckets)
      (w := config.windowSeconds / rateLimitBuckets) (fun _ _ _ _ _ _ => Nat.zero_le _)
      (fun _ _ _ _ _ _ hsensible hcharges htracks hclock hne =>
        (((hcharges : ChargesRate ..).tracks hsensible htracks hclock).2 hne).2 hcap) hpath hkeeps
    exact hmetered.span_le hbuckets.1 (Nat.zero_le _) hbuckets.2
  · intro hcap
    have hmetered := Metering.metered (μ := μ) (f := Prod.fst) (n := rateLimitBuckets)
      (w := config.windowSeconds / rateLimitBuckets) (fun _ _ _ htracks => htracks.1)
      (fun _ _ _ _ _ _ hsensible hcharges htracks hclock hne =>
        (((hcharges : ChargesRate ..).tracks hsensible htracks hclock).2 hne).1 hcap) hpath hkeeps
    exact hmetered.span_le hbuckets.1 hvolume hbuckets.2

/-! ## One run -/

/-- After the opening, wallet 1 may issue two transactions and move 50 in 40 seconds. -/
def rateLimited : Script Call :=
  opening ++ [(signedBy 1 [1], .setRateLimit (.account 1) 1 50 2 40)]

def issuing : Script Call :=
  [(signedBy 10 [1], .transfer (.account 1) 1 (.account 2) (.contract 7) 30),
    (signedBy 20 [1], .withdraw (.account 1) 1 (.contract 7) 20)]

/-- A transfer of 30 and a withdrawal of 20 use both caps up for 30 seconds. -/
theorem rate_limit_issuing :
    let μ := rateMetering referenceHost 1
    let tr := (deployment referenceHost).trace (play (deployed funded) rateLimited) issuing
    span 10 39 (partOf Prod.snd (μ.chargesIn tr)) ≤ 2 ∧
      span 10 39 (partOf Prod.fst (μ.chargesIn tr)) ≤ 50 := by
  intro μ tr
  have hstart : (machine referenceHost).Path Machine.anyInput [] (deployed funded) 0 :=
    .start funded_fresh
  have hlimited : (deployment referenceHost).plays (deployed funded) 0 rateLimited = true := rfl
  have hissuing : (deployment referenceHost).plays (play (deployed funded) rateLimited) 1 issuing
      = true := rfl
  have hpath := Deployment.path_playing hstart hlimited
  have hpath' := Deployment.path_playing hpath hissuing
  have hkeeps : μ.KeepsLimit ⟨50, 2, 40⟩ tr
      (play (play (deployed funded) rateLimited) issuing) := by
    refine ⟨?_, rfl⟩
    intro e he
    rcases List.mem_cons.1 he with rfl | he
    · rfl
    · obtain rfl := List.mem_singleton.1 he
      rfl
  obtain ⟨hcount, hvolume⟩ := rate_limit referenceHost 1 _ tr _ _ _ hpath' hkeeps 10 39
    (by decide) (by decide)
  exact ⟨hcount (by decide), hvolume (by decide)⟩

end WalletContract
end Astroid
