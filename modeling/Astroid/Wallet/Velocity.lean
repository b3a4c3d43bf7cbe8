import Astroid.Wallet.VelocityGate
import Astroid.Lib.Meter

/-!
# The velocity ceiling

The velocity records are a meter: what the stored buckets hold is what was charged in
their bucket and the three before it since the window was set, and no span shorter
than three buckets holds more than the ceiling (`velocity_ceiling`).
-/

namespace Astroid
namespace WalletContract

open Outcome Window

variable {World : Type} {H : WalletHost World} {env : Env H.self} {s s' : State World}
  {id : ℕ} {asset : Address} {now : UInt64}

/-! ## Records and logs -/

/-- The stored record is that of a log, and not ahead of the clock. -/
def TracksVelocity (width : ℕ) (log : List (ℕ × ℤ)) (stored : Option VelocityUsage)
    (clock : ℕ) : Prop :=
  (∀ c ∈ log, 0 ≤ c.2) ∧
    match stored with
    | none => log = []
    | some usage => Tracks width velocityBuckets log usage.bucket usage.spent ∧
        usage.bucket ≤ clock / width

section Records

variable {width clock : ℕ} {log : List (ℕ × ℤ)} {limit : VelocityLimit}
  {record record' : Option VelocityUsage} {usage usage' : VelocityUsage}

theorem TracksVelocity.mono {clock' : ℕ} (h : TracksVelocity width log record clock)
    (hle : clock ≤ clock') : TracksVelocity width log record clock' := by
  refine ⟨h.1, ?_⟩
  cases record with
  | none => exact h.2
  | some usage => exact ⟨h.2.1, h.2.2.trans (Nat.div_le_div_right hle)⟩

/-- A record aged to `now` is in the bucket of `now`. -/
theorem rolledVelocityUsage_tracks
    (htracks : TracksVelocity (limit.windowSeconds / velocityBuckets) log record clock)
    (hclock : clock ≤ now.toNat) (h : rolledVelocityUsage record limit now = .ok usage) :
    usage.bucket = now.toNat / (limit.windowSeconds / velocityBuckets) ∧
      Tracks (limit.windowSeconds / velocityBuckets) velocityBuckets log usage.bucket
        usage.spent := by
  unfold rolledVelocityUsage at h
  cases record with
  | none =>
      cases h
      have hnone : log = [] := htracks.2
      subst hnone
      exact ⟨rfl, Tracks.empty⟩
  | some old =>
      obtain ⟨_, hold, hbehind⟩ := htracks
      simp only [bind_eq_ok, pure_eq_ok] at h
      obtain ⟨_, _, rfl⟩ := h
      have hmono := Nat.div_le_div_right (c := limit.windowSeconds / velocityBuckets) hclock
      have hbucket : max (now.toNat / (limit.windowSeconds / velocityBuckets)) old.bucket
          = now.toNat / (limit.windowSeconds / velocityBuckets) := max_eq_left (by omega)
      have hrolled := hold.roll
        (max (now.toNat / (limit.windowSeconds / velocityBuckets)) old.bucket - old.bucket)
      rw [Nat.add_sub_cancel' (le_max_right _ _)] at hrolled
      exact ⟨hbucket, hrolled⟩

/-- A charge is recorded, and leaves what is recent at or under the ceiling. -/
theorem chargeVelocity_tracks {x : ℤ} (hbucket : usage.bucket = now.toNat / width)
    (htracks : Tracks width velocityBuckets log usage.bucket usage.spent)
    (h : chargeVelocity limit usage x = .ok usage') :
    usage'.bucket = now.toNat / width ∧
      Tracks width velocityBuckets (log ++ [(now.toNat, x)]) usage'.bucket usage'.spent ∧
      recent width velocityBuckets (log ++ [(now.toNat, x)]) (now.toNat / width)
        ≤ limit.maxAmount := by
  simp only [chargeVelocity, velocityTotal, bind_eq_ok, require_eq_ok, checkedAdd_eq_ok,
    pure_eq_ok] at h
  obtain ⟨total, htotal, _, ⟨_, hroom⟩, _, ⟨_, rfl⟩, rfl⟩ := h
  have hsum := checkedSum_ok htotal
  rw [htracks.sum, zero_add, hbucket] at hsum
  refine ⟨hbucket, ?_, ?_⟩
  · rw [hbucket] at htracks ⊢
    exact htracks.charge x
  · refine le_of_eq_of_le recent_charge ?_
    have hrecent : recent width (3 + 1) log (now.toNat / width) = total := hsum.symm
    rw [hrecent]
    exact hroom

/-- The charges of one call. -/
theorem charges_tracks {xs : List ℤ} (hbucket : usage.bucket = now.toNat / width)
    (htracks : Tracks width velocityBuckets log usage.bucket usage.spent)
    (h : xs.foldlM (chargeVelocity limit) usage = .ok usage') :
    usage'.bucket = now.toNat / width ∧
      Tracks width velocityBuckets (log ++ xs.map fun x => (now.toNat, x)) usage'.bucket
        usage'.spent ∧
      (xs ≠ [] → recent width velocityBuckets (log ++ xs.map fun x => (now.toNat, x))
        (now.toNat / width) ≤ limit.maxAmount) := by
  induction xs generalizing log usage with
  | nil =>
      cases h
      simpa using And.intro hbucket htracks
  | cons x rest ih =>
      rw [List.foldlM_cons, bind_eq_ok] at h
      obtain ⟨usage₁, hcharge, hrest⟩ := h
      obtain ⟨hbucket₁, htracks₁, hroom⟩ := chargeVelocity_tracks hbucket htracks hcharge
      obtain ⟨hbucket', htracks', hroom'⟩ := ih hbucket₁ htracks₁ hrest
      rw [List.append_assoc] at htracks' hroom'
      refine ⟨hbucket', htracks', ?_⟩
      intro _
      by_cases hlast : rest = []
      · subst hlast
        exact hroom
      · exact hroom' hlast

/-- The charges of a call are recorded with those before it, and what is then recent is at
or under the ceiling. -/
theorem ChargedTo.tracks {xs : List ℤ} (h : ChargedTo now (some limit) record record' xs)
    (hpos : ∀ x ∈ xs, 0 < x)
    (htracks : TracksVelocity (limit.windowSeconds / velocityBuckets) log record clock)
    (hclock : clock ≤ now.toNat) :
    TracksVelocity (limit.windowSeconds / velocityBuckets)
        (log ++ xs.map fun x => (now.toNat, x)) record' now.toNat ∧
      (xs ≠ [] → recent (limit.windowSeconds / velocityBuckets) velocityBuckets
        (log ++ xs.map fun x => (now.toNat, x))
        (now.toNat / (limit.windowSeconds / velocityBuckets)) ≤ limit.maxAmount) := by
  have hnonneg : ∀ c ∈ log ++ xs.map fun x => (now.toNat, x), 0 ≤ c.2 := by
    intro c hc
    rcases List.mem_append.1 hc with hc | hc
    · exact htracks.1 c hc
    · obtain ⟨x, hx, rfl⟩ := List.mem_map.1 hc
      exact (hpos x hx).le
  cases h with
  | idle hidle hsame =>
      subst hidle hsame
      rw [List.map_nil, List.append_nil]
      exact ⟨htracks.mono hclock, fun hne => absurd rfl hne⟩
  | unlimited hnone => cases hnone
  | metered ceiling usage _ hceiling hlive hrecord =>
      rw [Option.some.injEq] at hceiling
      subst hceiling hrecord
      obtain ⟨aged, usage', haged, hxs, husage⟩ := hlive
      rw [Option.some.injEq] at husage
      subst husage
      obtain ⟨hbucket, hrolled⟩ := rolledVelocityUsage_tracks htracks hclock haged
      obtain ⟨hbucket', htracks', hroom⟩ := charges_tracks hbucket hrolled hxs
      exact ⟨⟨hnonneg, htracks', hbucket'.le⟩, hroom⟩

end Records

/-! ## The meter -/

/-- A step at `now` left a record alone, or charged it with positive amounts. -/
inductive ChargesVelocity (now : ℕ) (limit : VelocityLimit) (record record' : Option VelocityUsage)
    (new : List (ℕ × ℤ)) : Prop
  | idle : new = [] → record' = record → ChargesVelocity now limit record record' new
  | charged (clock : UInt64) (xs : List ℤ) : clock.toNat = now →
      new = xs.map (fun x => (now, x)) → (∀ x ∈ xs, 0 < x) →
      ChargedTo clock (some limit) record record' xs →
      ChargesVelocity now limit record record' new

/-- What a charged record stands for, and what is then recent. -/
theorem ChargesVelocity.tracks {now clock : ℕ} {limit : VelocityLimit}
    {record record' : Option VelocityUsage} {log new : List (ℕ × ℤ)}
    (h : ChargesVelocity now limit record record' new)
    (htracks : TracksVelocity (limit.windowSeconds / velocityBuckets) log record clock)
    (hclock : clock ≤ now) :
    TracksVelocity (limit.windowSeconds / velocityBuckets) (log ++ new) record' now ∧
      (new ≠ [] → recent (limit.windowSeconds / velocityBuckets) velocityBuckets (log ++ new)
        (now / (limit.windowSeconds / velocityBuckets)) ≤ limit.maxAmount) := by
  cases h with
  | idle hnone hsame =>
      subst hnone hsame
      rw [List.append_nil]
      exact ⟨htracks.mono hclock, fun hne => absurd rfl hne⟩
  | charged now' xs hnow hnew hpos hcharged =>
      subst hnow hnew
      obtain ⟨htracks', hroom⟩ := hcharged.tracks hpos htracks hclock
      exact ⟨htracks', fun hne => hroom fun hnil => hne (by rw [hnil]; rfl)⟩

/-- The velocity records as a meter. -/
def velocityMeter : Meter VelocityLimit VelocityUsage ℤ where
  window := (·.windowSeconds)
  Sensible limit := 0 < limit.maxAmount ∧ velocityBuckets ≤ limit.windowSeconds ∧
    limit.windowSeconds % velocityBuckets = 0
  Tracks w := TracksVelocity (w / velocityBuckets)
  Charges := ChargesVelocity
  empty _ _ := ⟨by simp, rfl⟩
  mono _ _ _ _ _ h hle := h.mono hle
  charge _ _ _ _ _ _ _ _ h htracks hclock := (h.tracks htracks hclock).1

/-- The effect of a step on the records of one asset. -/
abbrev VelocityEffect (now : ℕ) (s s' : State World) (id : ℕ) (asset : Address)
    (new : List (ℕ × ℤ)) : Prop :=
  velocityMeter.Effect now (s.velocityLimit id asset) (s'.velocityLimit id asset)
    (s.velocityUsage id asset) (s'.velocityUsage id asset) new

/-- A step that kept the records and charged nothing. -/
theorem VelocityEffect.kept {now : ℕ}
    (hlimit : s'.velocityLimit id asset = s.velocityLimit id asset)
    (husage : s'.velocityUsage id asset = s.velocityUsage id asset) :
    VelocityEffect now s s' id asset [] :=
  .charged hlimit (fun _ => husage) fun _ _ => .idle rfl husage

theorem VelocityCharged.effect {xs : List ℤ} (h : VelocityCharged now s s' id asset xs) :
    VelocityEffect now.toNat s s' id asset (xs.map fun x => (now.toNat, x)) := by
  refine .charged h.limit ?_ ?_
  · intro hnone
    cases h.record with
    | idle _ hsame => exact hsame
    | unlimited _ hsame => exact hsame
    | metered ceiling _ _ hsome =>
        rw [hnone] at hsome
        cases hsome
  · intro limit hlimit
    have hrecord := h.record
    rw [hlimit] at hrecord
    exact .charged now xs rfl rfl h.positive hrecord

/-- **What a call did to the velocity records.** -/
theorem exec_velocity {call : Call} (h : exec H env s call = .ok s') (id : ℕ) (asset : Address) :
    VelocityEffect env.timestamp.toNat s s' id asset
      ((call.charges id asset).map fun x => (env.timestamp.toNat, x)) := by
  cases call with
  | transfer caller w payee a x =>
      obtain ⟨_, h⟩ := snd_map_ok h
      exact (transfer_gates (Act.commit_eq_ok.1 h)).velocity.effect
  | withdraw caller w a x =>
      obtain ⟨_, h⟩ := snd_map_ok h
      exact (withdraw_gates (Act.commit_eq_ok.1 h)).velocity.effect
  | batchExecuteValidated caller w actions =>
      obtain ⟨_, h⟩ := snd_map_ok h
      exact (batchExecuteValidated_gates (Act.commit_eq_ok.1 h)).velocity.effect
  | setVelocityLimit caller w a maxAmount windowSeconds =>
      obtain ⟨hpos, hwidth, hdivides, rfl⟩ := setVelocityLimit_ok h
      by_cases hsame : id = w ∧ asset = a
      · obtain ⟨rfl, rfl⟩ := hsame
        refine .limited ⟨maxAmount, windowSeconds⟩ rfl ⟨hpos, hwidth, hdivides⟩ ?_ ?_
        · simp [State.update₂]
        · show (if _ then _ else _ : ℕ → Address → Option VelocityUsage) id asset = if _ then _ else _
          split <;> simp_all [State.update₂, velocityMeter]
      · refine .kept (update₂_of_ne hsame) ?_
        dsimp only
        split
        · exact update₂_of_ne hsame
        · rfl
  | clearVelocityLimit caller w a =>
      obtain rfl := clearVelocityLimit_ok h
      by_cases hsame : id = w ∧ asset = a
      · obtain ⟨rfl, rfl⟩ := hsame
        exact .cleared rfl (by simp [State.update₂]) (by simp [State.update₂])
      · exact .kept (update₂_of_ne hsame) (update₂_of_ne hsame)
  | setRateLimit caller w maxVolume maxCount windowSeconds =>
      obtain ⟨_, ⟨_, rfl⟩ | ⟨_, _, rfl⟩⟩ := setRateLimit_ok h
      · exact .kept rfl rfl
      · exact .kept rfl rfl
  | clearRateLimit caller w =>
      obtain rfl := clearRateLimit_ok h
      exact .kept rfl rfl
  | _ =>
      have hsame := exec_sameWindows h trivial
      exact .kept (by rw [hsame.velocityLimit]) (by rw [hsame.velocityUsage])

/-! ## The ceiling -/

/-- What an entry of a run charged for an asset of a wallet, at its time. -/
def chargesOf (id : ℕ) (asset : Address) (e : Entry (State World) (Inputs H)) : List (ℕ × ℤ) :=
  match e.input with
  | .invoke env call => (call.charges id asset).map fun x => (env.timestamp.toNat, x)
  | .outside _ _ => []

/-- The velocity records of an asset in the runs of the contract. -/
def velocityMetering (H : WalletHost World) (id : ℕ) (asset : Address) :
    Metering (machine H) velocityMeter where
  limit s := s.velocityLimit id asset
  record s := s.velocityUsage id asset
  charges := chargesOf id asset
  init s hfresh := ⟨Fresh.velocityLimit hfresh id asset, Fresh.velocityUsage hfresh id asset⟩
  time := by
    rintro ⟨s, i, s'⟩ c hc
    cases i with
    | invoke env call =>
        obtain ⟨x, _, rfl⟩ := List.mem_map.1 hc
        rfl
    | outside time w => cases hc
  step := by
    rintro ⟨s, i, s'⟩ hstep
    cases i with
    | invoke env call => exact exec_velocity hstep id asset
    | outside time w =>
        have hs' : s' = { s with world := w } := hstep.2
        subst hs'
        exact VelocityEffect.kept rfl rfl

/-- The stored buckets hold what was charged: as they are stored, and as they are read at
any later time. -/
structure BucketsHold (id : ℕ) (asset : Address) (limit : VelocityLimit) (log : List (ℕ × ℤ))
    (s : State World) (clock : ℕ) : Prop where
  stored : ∀ usage, s.velocityUsage id asset = some usage →
    usage.spent.sum = recent (limit.windowSeconds / velocityBuckets) velocityBuckets log
      usage.bucket
  read : ∀ (now : UInt64) usage, clock ≤ now.toNat →
    rolledVelocityUsage (s.velocityUsage id asset) limit now = .ok usage →
    usage.bucket = now.toNat / (limit.windowSeconds / velocityBuckets) ∧
    usage.spent.sum = recent (limit.windowSeconds / velocityBuckets) velocityBuckets log
      usage.bucket

/-- **The velocity ceiling.**  Over any stretch of a run in which the ceiling of an asset
stays what it is, no span of time shorter than three quarters of the window holds
more charges than the ceiling; and in every run the buckets hold exactly what was
charged in the bucket they are of and the three before it. -/
theorem velocity_ceiling (H : WalletHost World) (id : ℕ) (asset : Address) :
    let μ := velocityMetering H id asset
    (∀ tr₁ tr₂ s t limit, (machine H).Path Machine.anyInput (tr₁ ++ tr₂) s t →
      μ.KeepsLimit limit tr₂ s →
      ∀ t₁ t₂, t₁ ≤ t₂ → 4 * (t₂ - t₁) < 3 * limit.windowSeconds →
        span t₁ t₂ (μ.chargesIn tr₂) ≤ limit.maxAmount) ∧
    (∀ tr s t limit, (machine H).Path Machine.anyInput tr s t →
      s.velocityLimit id asset = some limit →
      BucketsHold id asset limit (μ.windowLog tr) s t) := by
  intro μ
  constructor
  · intro tr₁ tr₂ s t limit hpath hkeeps t₁ t₂ hle hspan
    obtain ⟨⟨hmax, hwidth, hdivides⟩, _⟩ := Metering.recorded_limited hpath hkeeps.2
    have hroom : ∀ now record record' log new clock, velocityMeter.Sensible limit →
        ChargesVelocity now limit record record' new →
        TracksVelocity (limit.windowSeconds / velocityBuckets) log record clock → clock ≤ now →
        new ≠ [] → recent (limit.windowSeconds / velocityBuckets) velocityBuckets
          (Metering.partOf (fun x => x) (log ++ new))
          (now / (limit.windowSeconds / velocityBuckets)) ≤ limit.maxAmount := by
      intro now record record' log new clock _ hcharges htracks hclock hne
      simpa [Metering.partOf] using (hcharges.tracks htracks hclock).2 hne
    have hmetered := Metering.metered (μ := μ) (fun _ _ _ htracks => htracks.1) hroom hpath hkeeps
    unfold velocityBuckets at hwidth hdivides hmetered
    have hle' : span t₁ t₂ (Metering.partOf (fun x => x) (μ.chargesIn tr₂)) ≤ limit.maxAmount :=
      hmetered.span_le (by omega) hmax.le (by omega)
    simpa [Metering.partOf] using hle'
  · intro tr s t limit hpath hlimit
    obtain ⟨_, _, htracks⟩ := Metering.recorded_limited (μ := μ) hpath hlimit
    constructor
    · intro usage husage
      have htracks' : TracksVelocity _ _ (s.velocityUsage id asset) _ := htracks
      rw [husage] at htracks'
      exact htracks'.2.1.sum
    · intro now usage hclock hrolled
      obtain ⟨hbucket, hread⟩ := rolledVelocityUsage_tracks htracks hclock hrolled
      exact ⟨hbucket, hread.sum⟩

/-! ## One run -/

/-- After the opening, wallet 1 may move 50 of the token `contract 7` in 40 seconds. -/
def limited : Script Call :=
  opening ++ [(signedBy 1 [1], .setVelocityLimit (.account 1) 1 (.contract 7) 50 40)]

def spending : Script Call :=
  [(signedBy 10 [1], .transfer (.account 1) 1 (.account 2) (.contract 7) 30),
    (signedBy 20 [1], .transfer (.account 1) 1 (.account 2) (.contract 7) 20)]

/-- Transfers of 30 and 20 use the ceiling up for 30 seconds. -/
theorem velocity_ceiling_spending :
    let μ := velocityMetering referenceHost 1 (.contract 7)
    let s := play (deployed funded) limited
    let tr := (deployment referenceHost).trace (deployed funded) limited
    let tr' := (deployment referenceHost).trace s spending
    span 10 39 (μ.chargesIn tr') ≤ 50 ∧
      BucketsHold 1 (.contract 7) ⟨50, 40⟩ (μ.windowLog (tr ++ tr')) (play s spending) 20 := by
  intro μ s tr tr'
  obtain ⟨hceiling, hbuckets⟩ := velocity_ceiling referenceHost 1 (.contract 7)
  have hstart : (machine referenceHost).Path Machine.anyInput [] (deployed funded) 0 :=
    .start funded_fresh
  have hlimited : (deployment referenceHost).plays (deployed funded) 0 limited = true := rfl
  have hspending : (deployment referenceHost).plays s 1 spending = true := rfl
  have hpath := Deployment.path_playing hstart hlimited
  have hpath' := Deployment.path_playing hpath hspending
  refine ⟨hceiling tr tr' _ _ ⟨50, 40⟩ hpath' ⟨?_, rfl⟩ 10 39 (by decide) (by decide), ?_⟩
  · intro e he
    rcases List.mem_cons.1 he with rfl | he
    · rfl
    · obtain rfl := List.mem_singleton.1 he
      rfl
  · exact hbuckets _ _ _ ⟨50, 40⟩ hpath' rfl

end WalletContract
end Astroid
