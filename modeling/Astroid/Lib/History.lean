import Mathlib

/-!
# Runs of a clocked machine

A machine steps from state to state on inputs that each carry a time.  A
`Path` is a run: the entries it took so far, in order, the state it is in, and
the time of its last input; times never go back.  The parameter `allow`
restricts which inputs a run may take in which state, so that a property of
"every run whose steps all meet a condition" is a property of every
`Path M allow`.

The rules below are the ones a development uses: the invariant rule, the
invariant rule with the clock, what every entry of a run is, what the last
part of a run keeps, the rule for a stretch of a run, a run that repeats a step, the rule
of accounts, the first time something holds, the list of what a run did, and marks that a
run only raises.
-/

/-- A machine: its initial states, its steps and the time of each input. -/
structure Machine (σ ι : Type) where
  init : σ → Prop
  step : ι → σ → σ → Prop
  time : ι → ℕ

/-- One entry of a run: the input taken and the states around it. -/
structure Entry (σ ι : Type) where
  pre : σ
  input : ι
  post : σ

namespace Machine

variable {σ ι : Type} (M : Machine σ ι)

/-- The runs of a machine all of whose inputs `allow` accepts. -/
inductive Path (allow : ι → σ → Prop) : List (Entry σ ι) → σ → ℕ → Prop
  | start {s : σ} {t : ℕ} : M.init s → Path allow [] s t
  | step {tr : List (Entry σ ι)} {s s' : σ} {t : ℕ} {i : ι} :
      Path allow tr s t → t ≤ M.time i → allow i s → M.step i s s' →
      Path allow (tr ++ [⟨s, i, s'⟩]) s' (M.time i)

/-- No restriction on the inputs. -/
def anyInput : ι → σ → Prop := fun _ _ => True

/-- The states a run may be in. -/
def Reachable (s : σ) : Prop := ∃ tr t, M.Path anyInput tr s t

/-- The states a run may be in at a time. -/
def ReachableBy (t : ℕ) (s : σ) : Prop := ∃ tr t', t' ≤ t ∧ M.Path anyInput tr s t'

variable {M} {allow : ι → σ → Prop} {tr : List (Entry σ ι)} {s : σ} {t : ℕ}

/-- A restricted run is a run. -/
theorem Path.mono {allow' : ι → σ → Prop} (hle : ∀ i s, allow i s → allow' i s)
    (h : M.Path allow tr s t) : M.Path allow' tr s t := by
  induction h with
  | start h => exact .start h
  | step _ ht ha hs ih => exact .step ih ht (hle _ _ ha) hs

theorem Path.any (h : M.Path allow tr s t) : M.Path anyInput tr s t :=
  h.mono fun _ _ _ => trivial

theorem Path.reachable (h : M.Path allow tr s t) : M.Reachable s := ⟨tr, t, h.any⟩

namespace ReachableBy

theorem reachable (h : M.ReachableBy t s) : M.Reachable s := by
  obtain ⟨tr, t', _, hpath⟩ := h
  exact ⟨tr, t', hpath⟩

theorem later {t' : ℕ} (h : M.ReachableBy t s) (ht : t ≤ t') : M.ReachableBy t' s := by
  obtain ⟨tr, t₀, ht₀, hpath⟩ := h
  exact ⟨tr, t₀, ht₀.trans ht, hpath⟩

theorem step {i : ι} {s' : σ} (h : M.ReachableBy t s) (ht : t ≤ M.time i)
    (hs : M.step i s s') : M.ReachableBy (M.time i) s' := by
  obtain ⟨tr, t₀, ht₀, hpath⟩ := h
  exact ⟨_, _, le_rfl, hpath.step (ht₀.trans ht) trivial hs⟩

end ReachableBy

/-- **The invariant rule.**  What holds initially and is kept by every allowed
step holds in every state a run reaches. -/
theorem Path.invariant {P : σ → Prop} (hinit : ∀ s, M.init s → P s)
    (hstep : ∀ i s s', P s → allow i s → M.step i s s' → P s')
    (h : M.Path allow tr s t) : P s := by
  induction h with
  | start h => exact hinit _ h
  | step _ _ ha hs ih => exact hstep _ _ _ ih ha hs

/-- The invariant rule for a property that also speaks of the clock and of the
run so far. -/
theorem Path.history {P : List (Entry σ ι) → σ → ℕ → Prop}
    (hinit : ∀ s t, M.init s → P [] s t)
    (hstep : ∀ tr s t i s', M.Path allow tr s t → P tr s t → t ≤ M.time i → allow i s →
      M.step i s s' → P (tr ++ [⟨s, i, s'⟩]) s' (M.time i))
    (h : M.Path allow tr s t) : P tr s t := by
  induction h with
  | start h => exact hinit _ _ h
  | step hp ht ha hs ih => exact hstep _ _ _ _ _ hp ih ht ha hs

theorem Reachable.invariant {P : σ → Prop} (hinit : ∀ s, M.init s → P s)
    (hstep : ∀ i s s', P s → M.step i s s' → P s') (h : M.Reachable s) : P s := by
  obtain ⟨tr, t, h⟩ := h
  exact h.invariant hinit fun i s s' hp _ hs => hstep i s s' hp hs

/-- Every entry of a run is an allowed step of the machine, taken from a state
the run had reached, at a time the run's clock has not passed since. -/
theorem Path.entry {e : Entry σ ι} (h : M.Path allow tr s t) (he : e ∈ tr) :
    ∃ tr' t', tr' ++ [e] <+: tr ∧ M.Path allow tr' e.pre t' ∧ t' ≤ M.time e.input ∧
      allow e.input e.pre ∧ M.step e.input e.pre e.post ∧ M.time e.input ≤ t := by
  induction h with
  | start h => simp at he
  | @step tr s s' t i hp ht ha hs ih =>
    rcases List.mem_append.1 he with he | he
    · obtain ⟨tr', t', hpre, hp', ht', ha', hs', hle⟩ := ih he
      exact ⟨tr', t', hpre.trans (List.prefix_append _ _), hp', ht', ha', hs', hle.trans ht⟩
    · rw [List.mem_singleton] at he
      subst he
      exact ⟨tr, t, List.prefix_rfl, hp, ht, ha, hs, le_rfl⟩

/-- The step an entry of a run took. -/
theorem Path.stepped {e : Entry σ ι} (h : M.Path allow tr s t) (he : e ∈ tr) :
    M.step e.input e.pre e.post := by
  obtain ⟨_, _, _, _, _, _, hstep, _⟩ := h.entry he
  exact hstep

/-- The state an entry of a run was taken in. -/
theorem Path.reachable_of_mem {e : Entry σ ι} (h : M.Path allow tr s t) (he : e ∈ tr) :
    M.Reachable e.pre := by
  obtain ⟨_, _, _, hbefore, _⟩ := h.entry he
  exact hbefore.reachable

/-- What each entry of the last part of a run keeps is kept from any of its entries
to the end of the run. -/
theorem Path.since {R : σ → σ → Prop} (htrans : ∀ a b c, R a b → R b c → R a c)
    {tr₁ tr₂ : List (Entry σ ι)} (h : M.Path allow (tr₁ ++ tr₂) s t)
    (hkeeps : ∀ e ∈ tr₂, R e.pre e.post) : ∀ e ∈ tr₂, R e.pre s := by
  generalize htr : tr₁ ++ tr₂ = tr at h
  induction h generalizing tr₂ with
  | start h =>
      rw [List.append_eq_nil_iff] at htr
      simp [htr.2]
  | @step tr s s' t i _ _ _ _ ih =>
      rcases List.eq_nil_or_concat tr₂ with rfl | ⟨tr₃, x, rfl⟩
      · simp
      · rw [List.concat_eq_append, ← List.append_assoc] at htr
        obtain ⟨hinit, hlast⟩ := List.append_inj' htr rfl
        rw [List.singleton_inj] at hlast
        subst hlast
        rw [List.concat_eq_append] at hkeeps ⊢
        have hx := hkeeps _ (List.mem_append_right _ (List.mem_singleton_self _))
        intro e he
        rcases List.mem_append.1 he with he | he
        · refine htrans _ _ _ (ih ?_ hinit e he) hx
          exact fun e he => hkeeps e (List.mem_append_left _ he)
        · rw [List.mem_singleton] at he
          subst he
          exact hx

/-- The last entry of a run. -/
theorem Path.last {e : Entry σ ι} (h : M.Path allow (tr ++ [e]) s t) :
    ∃ t', M.Path allow tr e.pre t' ∧ t' ≤ M.time e.input ∧ allow e.input e.pre ∧
      M.step e.input e.pre e.post ∧ s = e.post ∧ t = M.time e.input := by
  generalize htr : tr ++ [e] = tr' at h
  cases h with
  | start h => simp at htr
  | step hp ht ha hs =>
      obtain ⟨rfl, hlast⟩ := List.append_inj' htr rfl
      rw [List.singleton_inj] at hlast
      subst hlast
      exact ⟨_, hp, ht, ha, hs, rfl, rfl⟩

/-- The clock does not go back between two entries of a run. -/
theorem Path.time_le {tr₁ tr₂ : List (Entry σ ι)} {e q : Entry σ ι}
    (h : M.Path allow (tr₁ ++ tr₂) s t) (he : e ∈ tr₁) (hq : q ∈ tr₂) :
    M.time e.input ≤ M.time q.input := by
  induction tr₂ using List.reverseRecOn generalizing s t with
  | nil => cases hq
  | append_singleton tr₃ x ih =>
      rw [← List.append_assoc] at h
      obtain ⟨t', hp, ht, _⟩ := h.last
      rcases List.mem_append.1 hq with hq | hq
      · exact ih hp hq
      · rw [List.mem_singleton] at hq
        subst hq
        obtain ⟨_, _, _, _, _, _, _, hle⟩ := hp.entry (List.mem_append_left _ he)
        exact hle.trans ht

/-- The first part of a run is a run. -/
theorem Path.init {tr₁ tr₂ : List (Entry σ ι)} (h : M.Path allow (tr₁ ++ tr₂) s t) :
    ∃ s' t', M.Path allow tr₁ s' t' := by
  induction tr₂ using List.reverseRecOn generalizing s t with
  | nil =>
      rw [List.append_nil] at h
      exact ⟨s, t, h⟩
  | append_singleton tr₃ e ih =>
      rw [← List.append_assoc] at h
      obtain ⟨_, hp, _⟩ := h.last
      exact ih hp

/-- The run up to one of its entries. -/
theorem Path.before {e : Entry σ ι} {tr₁ : List (Entry σ ι)} (h : M.Path allow tr s t)
    (hpart : tr₁ ++ [e] <+: tr) : ∃ t', M.Path allow tr₁ e.pre t' ∧ t' ≤ M.time e.input ∧
      allow e.input e.pre ∧ M.step e.input e.pre e.post := by
  obtain ⟨tr₂, rfl⟩ := hpart
  obtain ⟨_, _, hinit⟩ := h.init
  obtain ⟨t', hp, ht, ha, hs, _, _⟩ := hinit.last
  exact ⟨t', hp, ht, ha, hs⟩

/-- **The rule for a stretch of a run.**  What holds where the stretch begins and is kept
by each of its entries holds where it ends.  The property speaks of the stretch so
far, the state and the clock. -/
theorem Path.stretch {Q : List (Entry σ ι) → σ → ℕ → Prop} {tr₁ tr₂ : List (Entry σ ι)}
    (h : M.Path allow (tr₁ ++ tr₂) s t) (hbase : ∀ s t, M.Path allow tr₁ s t → Q [] s t)
    (hkeeps : ∀ tr e t', tr ++ [e] <+: tr₂ → M.Path allow (tr₁ ++ tr) e.pre t' →
      t' ≤ M.time e.input → allow e.input e.pre → M.step e.input e.pre e.post →
      Q tr e.pre t' → Q (tr ++ [e]) e.post (M.time e.input)) : Q tr₂ s t := by
  induction tr₂ using List.reverseRecOn generalizing s t with
  | nil =>
      rw [List.append_nil] at h
      exact hbase s t h
  | append_singleton tr₃ e ih =>
      rw [← List.append_assoc] at h
      obtain ⟨t', hp, ht, ha, hs, rfl, rfl⟩ := h.last
      refine hkeeps tr₃ e t' List.prefix_rfl hp ht ha hs (ih hp ?_)
      intro tr e' t'' hpre
      exact hkeeps tr e' t'' (hpre.trans (List.prefix_append _ _))

/-- A step that can be taken again and again is taken any number of times, at one time. -/
theorem Path.iterate {Q : ℕ → List (Entry σ ι) → σ → Prop} (h : M.Path allow tr s t)
    (hbase : Q 0 tr s)
    (hnext : ∀ n tr s, Q n tr s → ∃ i s', M.time i = t ∧ allow i s ∧ M.step i s s' ∧
      Q (n + 1) (tr ++ [⟨s, i, s'⟩]) s') (n : ℕ) :
    ∃ tr s, M.Path allow tr s t ∧ Q n tr s := by
  induction n with
  | zero => exact ⟨tr, s, h, hbase⟩
  | succ n ih =>
      obtain ⟨tr, s, hpath, hQ⟩ := ih
      obtain ⟨i, s', ht, ha, hs, hQ'⟩ := hnext n tr s hQ
      have hpath' := hpath.step ht.ge ha hs
      rw [ht] at hpath'
      exact ⟨_, s', hpath', hQ'⟩

/-- What one entry of a run establishes, and each later entry keeps, holds at the end of
the run.  The property speaks of the later part of the run alone. -/
theorem Path.after {Q : List (Entry σ ι) → σ → Prop} {tr₁ tr₂ : List (Entry σ ι)} {q : Entry σ ι}
    (h : M.Path allow (tr₁ ++ q :: tr₂) s t) (hq : Q [] q.post)
    (hkeeps : ∀ tr e, tr ++ [e] <+: tr₂ → M.Reachable e.pre → allow e.input e.pre →
      M.step e.input e.pre e.post → Q tr e.pre → Q (tr ++ [e]) e.post) : Q tr₂ s := by
  have hsplit : tr₁ ++ q :: tr₂ = (tr₁ ++ [q]) ++ tr₂ := by simp
  rw [hsplit] at h
  refine h.stretch (Q := fun tr s _ => Q tr s) ?_ ?_
  · intro s t hq'
    obtain ⟨_, _, _, _, _, rfl, _⟩ := hq'.last
    exact hq
  · intro tr e t' hpre hbefore _ ha hs hQ
    exact hkeeps tr e hpre hbefore.reachable ha hs hQ

/-- **The rule of accounts.**  A quantity that starts at zero and moves, at every step, by
what the entry adds is the sum of what the entries of the run added. -/
theorem Path.account {f : σ → ℤ} {g : Entry σ ι → ℤ} (h : M.Path allow tr s t)
    (hinit : ∀ s, M.init s → f s = 0)
    (hstep : ∀ tr s t i s', M.Path allow tr s t → allow i s → M.step i s s' →
      f s' = f s + g ⟨s, i, s'⟩) : f s = (tr.map g).sum := by
  induction h with
  | start h => exact hinit _ h
  | step hp _ ha hs ih =>
      rw [hstep _ _ _ _ _ hp ha hs, ih, List.map_append, List.sum_append, List.map_singleton,
        List.sum_singleton]

/-- The entries of a run that is one longer, each with the run before it. -/
theorem concat_prefix_concat {tr' : List (Entry σ ι)} {e q : Entry σ ι}
    (h : tr' ++ [e] <+: tr ++ [q]) : tr' = tr ∧ e = q ∨ tr' ++ [e] <+: tr := by
  rcases List.prefix_concat_iff.1 h with hlast | hearlier
  · obtain ⟨rfl, he⟩ := List.append_inj' hlast rfl
    exact .inl ⟨rfl, List.singleton_inj.1 he⟩
  · exact .inr hearlier

/-! ## The first time -/

/-- The first entry of a run of which `P` holds. -/
def First (P : Entry σ ι → Prop) (tr : List (Entry σ ι)) (e : Entry σ ι) : Prop :=
  ∃ tr₁, tr₁ ++ [e] <+: tr ∧ P e ∧ ∀ q ∈ tr₁, ¬ P q

section First

variable {P : Entry σ ι → Prop} {e q : Entry σ ι}

theorem exists_first (h : ∃ q ∈ tr, P q) : ∃ e, First P tr e := by
  induction tr using List.reverseRecOn with
  | nil => simp at h
  | append_singleton tr x ih =>
      by_cases hearlier : ∃ q ∈ tr, P q
      · obtain ⟨e, tr₁, hpart, hfirst⟩ := ih hearlier
        exact ⟨e, tr₁, hpart.trans (List.prefix_append _ _), hfirst⟩
      · refine ⟨x, tr, List.prefix_rfl, ?_, fun q hq hP => hearlier ⟨q, hq, hP⟩⟩
        obtain ⟨q, hq, hP⟩ := h
        rcases List.mem_append.1 hq with hq | hq
        · exact absurd ⟨q, hq, hP⟩ hearlier
        · rw [List.mem_singleton] at hq
          exact hq ▸ hP

/-- **The first time is the least.** -/
theorem Path.first_le (h : M.Path allow tr s t) (hfirst : First P tr e) (hq : q ∈ tr)
    (hP : P q) : M.time e.input ≤ M.time q.input := by
  obtain ⟨tr₁, ⟨tr₂, rfl⟩, _, hearlier⟩ := hfirst
  rcases List.mem_append.1 hq with hq | hq
  · rcases List.mem_append.1 hq with hq | hq
    · exact absurd hP (hearlier q hq)
    · rw [List.mem_singleton] at hq
      rw [hq]
  · exact h.time_le (by simp) hq

end First

/-! ## What a run did -/

/-- What the entries of a run did, as `f` reads it off each of them. -/
def log {α : Type} (f : Entry σ ι → Option α) (tr : List (Entry σ ι)) : List α := tr.filterMap f

section Log

variable {α : Type} {f : Entry σ ι → Option α} {e : Entry σ ι} {x : α}

theorem log_none (h : f e = none) : log f (tr ++ [e]) = log f tr := by
  simp [log, h]

theorem log_some (h : f e = some x) : log f (tr ++ [e]) = log f tr ++ [x] := by
  simp [log, h]

theorem mem_log_append (h : x ∈ log f tr) : x ∈ log f (tr ++ [e]) := by
  rw [log, List.filterMap_append]
  exact List.mem_append_left _ h

theorem log_nodup (hnodup : (log f tr).Nodup) (h : f e = some x) (hnew : x ∉ log f tr) :
    (log f (tr ++ [e])).Nodup := by
  rw [log_some h, List.nodup_append_comm]
  exact List.nodup_cons.2 ⟨hnew, hnodup⟩

end Log

/-! ## Marks that rise -/

section Marks

variable {ν : Type} {r : ν → ν → Prop} {mark : σ → ν} {writes : Entry σ ι → Option ν}

/-- An entry leaves the mark alone, or writes one that it is below. -/
def Raises (r : ν → ν → Prop) (mark : σ → ν) (writes : Entry σ ι → Option ν) (e : Entry σ ι) : Prop :=
  match writes e with
  | none => mark e.post = mark e.pre
  | some n => r (mark e.pre) n ∧ mark e.post = n

/-- **Marks that rise are written in order.**  Where every entry of the last part of a run raises
the mark or leaves it alone, each mark written there is below every later one, and none is
above the mark at the end. -/
theorem Path.rising (htrans : ∀ a b c, r a b → r b c → r a c) {tr₁ tr₂ : List (Entry σ ι)}
    (h : M.Path allow (tr₁ ++ tr₂) s t) (hraises : ∀ e ∈ tr₂, Raises r mark writes e) :
    (log writes tr₂).Pairwise r ∧ ∀ n ∈ log writes tr₂, n = mark s ∨ r n (mark s) := by
  refine h.stretch (Q := fun tr s _ =>
    (log writes tr).Pairwise r ∧ ∀ n ∈ log writes tr, n = mark s ∨ r n (mark s)) ?_ ?_
  · intro s t _
    simp [log]
  · rintro tr e t' hpart _ _ _ _ ⟨hpairwise, hbelow⟩
    have hraise := hraises e (hpart.subset (by simp))
    unfold Raises at hraise
    cases hwrites : writes e with
    | none =>
        rw [hwrites] at hraise
        rw [log_none hwrites, hraise]
        exact ⟨hpairwise, hbelow⟩
    | some n =>
        rw [hwrites] at hraise
        obtain ⟨hup, hpost⟩ := hraise
        have hall : ∀ m ∈ log writes tr, r m n := by
          intro m hm
          rcases hbelow m hm with rfl | hlow
          · exact hup
          · exact htrans _ _ _ hlow hup
        rw [log_some hwrites, hpost, List.pairwise_append]
        refine ⟨⟨hpairwise, List.pairwise_singleton .., ?_⟩, ?_⟩
        · intro m hm n' hn'
          rw [List.mem_singleton] at hn'
          exact hn' ▸ hall m hm
        · intro m hm
          rcases List.mem_append.1 hm with hm | hm
          · exact .inr (hall m hm)
          · exact .inl (List.mem_singleton.1 hm)

end Marks

end Machine
