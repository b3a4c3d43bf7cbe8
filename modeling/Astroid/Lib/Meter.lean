import Astroid.Lib.History
import Astroid.Lib.Window

/-!
# Metered machines

A meter keeps a record of what was charged lately, under a limit that is set,
replaced and cleared from time to time; a limit with another window restarts the
record.  `Meter` says what such a record stands for and that charging keeps it
so; `Metering` says where a machine keeps one and which of its steps charge it.

* `Metering.recorded`: in every run the record stands for exactly what was charged
  since the present window was set (`Metering.windowLog`);
* `Metering.metered`: over a stretch of a run with one limit, every charge was let
  through by it, so that `Window.Metered.span_le` bounds every span.
-/

open Window

/-! ## Meters -/

/-- A kind of record: the window of a limit, which limits can be set, what it means that
a record stands for a log of charges, and how a call charges a record. -/
structure Meter (Limit Record A : Type) where
  window : Limit → ℕ
  Sensible : Limit → Prop
  Tracks : ℕ → List (ℕ × A) → Option Record → ℕ → Prop
  Charges : ℕ → Limit → Option Record → Option Record → List (ℕ × A) → Prop
  empty : ∀ w clock, Tracks w [] none clock
  mono : ∀ w log record clock clock', Tracks w log record clock → clock ≤ clock' →
    Tracks w log record clock'
  charge : ∀ now limit record record' log new clock, Sensible limit →
    Charges now limit record record' new → Tracks (window limit) log record clock →
    clock ≤ now → Tracks (window limit) (log ++ new) record' now

namespace Meter

variable {Limit Record A : Type} (m : Meter Limit Record A)

/-- What a step does to a limit and its record: charge it, set the limit, or clear it. -/
inductive Effect (now : ℕ) (limit limit' : Option Limit) (record record' : Option Record)
    (new : List (ℕ × A)) : Prop
  | charged : limit' = limit → (limit = none → record' = record) →
      (∀ l, limit = some l → m.Charges now l record record' new) →
      Effect now limit limit' record record' new
  | limited (l : Limit) : new = [] → m.Sensible l → limit' = some l →
      record' = (if limit.map m.window ≠ some (m.window l) then none else record) →
      Effect now limit limit' record record' new
  | cleared : new = [] → limit' = none → record' = none →
      Effect now limit limit' record record' new

/-- The record stands for the log. -/
def Recorded (log : List (ℕ × A)) (limit : Option Limit) (record : Option Record)
    (clock : ℕ) : Prop :=
  match limit with
  | none => record = none ∧ log = []
  | some l => m.Sensible l ∧ (∀ c ∈ log, c.1 ≤ clock) ∧ m.Tracks (m.window l) log record clock

variable {m} {log new : List (ℕ × A)} {limit limit' : Option Limit}
  {record record' : Option Record} {clock now : ℕ}

/-- **A step keeps the record that of the log**, which starts again with a new window. -/
theorem Recorded.step (h : m.Recorded log limit record clock)
    (heffect : m.Effect now limit limit' record record' new) (hclock : clock ≤ now)
    (hnew : ∀ c ∈ new, c.1 = now) :
    m.Recorded
      (if limit ≠ none ∧ limit'.map m.window = limit.map m.window then log ++ new else [])
      limit' record' now := by
  cases heffect with
  | charged hlimit hidle hcharges =>
      subst hlimit
      cases limit' with
      | none =>
          obtain ⟨hrecord, _⟩ := h
          exact ⟨(hidle rfl).trans hrecord, if_neg fun hkeeps => hkeeps.1 rfl⟩
      | some l =>
          obtain ⟨hsensible, hpast, htracks⟩ := h
          rw [if_pos ⟨Option.some_ne_none _, rfl⟩]
          refine ⟨hsensible, ?_, m.charge _ _ _ _ _ _ _ hsensible (hcharges l rfl) htracks hclock⟩
          intro c hc
          rcases List.mem_append.1 hc with hc | hc
          · exact (hpast c hc).trans hclock
          · exact (hnew c hc).le
  | limited l hnone hsensible hlimit hrecord =>
      subst hnone hlimit hrecord
      rw [List.append_nil]
      by_cases hsame : limit.map m.window = some (m.window l)
      · -- a new limit over the same window keeps the record
        obtain ⟨old, rfl, hwindow⟩ := Option.map_eq_some_iff.1 hsame
        obtain ⟨_, hpast, htracks⟩ := h
        rw [if_pos ⟨Option.some_ne_none _, hsame.symm⟩, if_neg (not_not.2 hsame)]
        rw [hwindow] at htracks
        exact ⟨hsensible, fun c hc => (hpast c hc).trans hclock, m.mono _ _ _ _ _ htracks hclock⟩
      · rw [if_neg fun hkeeps => hsame hkeeps.2.symm, if_pos hsame]
        exact ⟨hsensible, by simp, m.empty _ _⟩
  | cleared hnone hlimit hrecord =>
      subst hlimit hrecord
      refine ⟨rfl, if_neg ?_⟩
      rintro ⟨hsome, heq⟩
      rw [Option.map_none, eq_comm, Option.map_eq_none_iff] at heq
      exact hsome heq

end Meter

/-! ## A meter in a machine -/

/-- Where a machine keeps a meter, and what its entries charge. -/
structure Metering {σ ι Limit Record A : Type} (M : Machine σ ι) (m : Meter Limit Record A) where
  limit : σ → Option Limit
  record : σ → Option Record
  charges : Entry σ ι → List (ℕ × A)
  init : ∀ s, M.init s → limit s = none ∧ record s = none
  time : ∀ e, ∀ c ∈ charges e, c.1 = M.time e.input
  step : ∀ e : Entry σ ι, M.step e.input e.pre e.post →
    m.Effect (M.time e.input) (limit e.pre) (limit e.post) (record e.pre) (record e.post)
      (charges e)

namespace Metering

variable {σ ι Limit Record A : Type} {M : Machine σ ι} {m : Meter Limit Record A}
  (μ : Metering M m)

/-- The entry leaves a limit with the window of the one it found. -/
def KeepsWindow (e : Entry σ ι) : Prop :=
  μ.limit e.pre ≠ none ∧ (μ.limit e.post).map m.window = (μ.limit e.pre).map m.window

instance (e : Entry σ ι) : Decidable (μ.KeepsWindow e) :=
  inferInstanceAs (Decidable (_ ∧ _))

/-- What a run charged since the present window was set. -/
def windowLog (tr : List (Entry σ ι)) : List (ℕ × A) :=
  tr.foldl (fun log e => if μ.KeepsWindow e then log ++ μ.charges e else []) []

/-- What a stretch of a run charged. -/
def chargesIn (tr : List (Entry σ ι)) : List (ℕ × A) := tr.flatMap μ.charges

variable {μ}

theorem windowLog_append (tr : List (Entry σ ι)) (e : Entry σ ι) :
    μ.windowLog (tr ++ [e])
      = if μ.KeepsWindow e then μ.windowLog tr ++ μ.charges e else [] := by
  simp [windowLog]

theorem chargesIn_append (tr : List (Entry σ ι)) (e : Entry σ ι) :
    μ.chargesIn (tr ++ [e]) = μ.chargesIn tr ++ μ.charges e := by
  simp [chargesIn]

variable {allow : ι → σ → Prop} {tr tr₁ tr₂ : List (Entry σ ι)} {s : σ} {t : ℕ} {l : Limit}

/-- **Every run records what it charges.** -/
theorem recorded (hpath : M.Path allow tr s t) :
    m.Recorded (μ.windowLog tr) (μ.limit s) (μ.record s) t := by
  refine hpath.history (P := fun tr s t => m.Recorded (μ.windowLog tr) (μ.limit s) (μ.record s) t)
    ?_ ?_
  · intro s t hinit
    obtain ⟨hlimit, hrecord⟩ := μ.init s hinit
    rw [hlimit, hrecord]
    exact ⟨rfl, rfl⟩
  · intro tr s t i s' _ h hclock _ hstep
    rw [windowLog_append]
    exact h.step (μ.step ⟨s, i, s'⟩ hstep) hclock (μ.time _)

/-- What is recorded where there is a limit. -/
theorem recorded_limited (hpath : M.Path allow tr s t) (hlimit : μ.limit s = some l) :
    m.Sensible l ∧ (∀ c ∈ μ.windowLog tr, c.1 ≤ t) ∧
      m.Tracks (m.window l) (μ.windowLog tr) (μ.record s) t := by
  have h := μ.recorded hpath
  unfold Meter.Recorded at h
  rw [hlimit] at h
  exact h

variable (μ) in
/-- The limit stays what it is over a stretch of a run that ends in `s`. -/
def KeepsLimit (l : Limit) (tr : List (Entry σ ι)) (s : σ) : Prop :=
  (∀ e ∈ tr, μ.limit e.pre = some l) ∧ μ.limit s = some l

section Caps

variable {N : Type}

/-- One part of what was charged. -/
def partOf (f : A → N) (log : List (ℕ × A)) : List (ℕ × N) := log.map fun c => (c.1, f c.2)

theorem partOf_append {f : A → N} {log log' : List (ℕ × A)} :
    partOf f (log ++ log') = partOf f log ++ partOf f log' :=
  List.map_append

variable [AddCommMonoid N] [PartialOrder N]

/-- **Every charge of a stretch with one limit was let through by it**, when no charge is
negative and a record is charged only at or under the cap. -/
theorem metered {f : A → N} {cap : N} {n w : ℕ}
    (hnonneg : ∀ log record clock, m.Tracks (m.window l) log record clock →
      ∀ c ∈ log, 0 ≤ f c.2)
    (hroom : ∀ now record record' log new clock, m.Sensible l → m.Charges now l record record' new →
      m.Tracks (m.window l) log record clock → clock ≤ now → new ≠ [] →
      recent w n (partOf f (log ++ new)) (now / w) ≤ cap)
    (hpath : M.Path allow (tr₁ ++ tr₂) s t) (hkeeps : μ.KeepsLimit l tr₂ s) :
    Metered w n cap (partOf f (μ.windowLog tr₁)) (partOf f (μ.chargesIn tr₂)) := by
  let Q : List (Entry σ ι) → σ → ℕ → Prop := fun tr s _ => μ.limit s = some l →
    μ.windowLog (tr₁ ++ tr) = μ.windowLog tr₁ ++ μ.chargesIn tr ∧
      Metered w n cap (partOf f (μ.windowLog tr₁)) (partOf f (μ.chargesIn tr))
  have hstretch : Q tr₂ s t := by
    refine hpath.stretch ?_ ?_
    · intro s t _ _
      rw [List.append_nil]
      exact ⟨(List.append_nil _).symm, .nil⟩
    · intro tr e t' hseen hpre hclock _ hstep hQ hpost
      have hlimit := hkeeps.1 e
        (hseen.subset (List.mem_append_right _ (List.mem_singleton_self e)))
      obtain ⟨hlog, hmetered⟩ := hQ hlimit
      obtain ⟨hsensible, hpast, htracks⟩ := recorded_limited (μ := μ) hpre hlimit
      have hsame : μ.KeepsWindow e := by
        refine ⟨?_, ?_⟩
        · rw [hlimit]
          exact Option.some_ne_none _
        · rw [hlimit, hpost]
      rw [← List.append_assoc, windowLog_append, if_pos hsame, chargesIn_append, hlog]
      refine ⟨List.append_assoc _ _ _, ?_⟩
      rw [hlog] at hpast htracks
      have hlet : (∀ c ∈ μ.charges e, 0 ≤ f c.2) ∧ (μ.charges e ≠ [] →
          recent w n (partOf f (μ.windowLog tr₁ ++ μ.chargesIn tr ++ μ.charges e))
            (M.time e.input / w) ≤ cap) := by
        cases μ.step e hstep with
        | charged _ _ hcharges =>
            have htracks' :=
              m.charge _ _ _ _ _ _ _ hsensible (hcharges l hlimit) htracks hclock
            exact ⟨fun c hc => hnonneg _ _ _ htracks' c (List.mem_append_right _ hc),
              hroom _ _ _ _ _ _ hsensible (hcharges l hlimit) htracks hclock⟩
        | limited _ hnone => simp [hnone]
        | cleared hnone => simp [hnone]
      rw [partOf_append]
      refine hmetered.charge (t := M.time e.input) ?_ ?_ ?_
      · intro c hc
        rw [← partOf_append] at hc
        obtain ⟨c', hc', rfl⟩ := List.mem_map.1 hc
        exact ⟨(hpast c' hc').trans hclock, hnonneg _ _ _ htracks c' hc'⟩
      · intro c hc
        obtain ⟨c', hc', rfl⟩ := List.mem_map.1 hc
        exact ⟨μ.time e c' hc', hlet.1 c' hc'⟩
      · intro hne
        rw [← partOf_append, ← partOf_append]
        exact hlet.2 fun hnil => hne (by rw [hnil]; rfl)
  exact (hstretch hkeeps.2).2

end Caps

end Metering
