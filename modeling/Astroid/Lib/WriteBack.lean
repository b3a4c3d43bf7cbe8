import Astroid.Lib.Outcome

/-!
# A write-back cache

A store keeps a value under every key.  An operation on a key loads a line from the value,
works on the line and saves it back.  A cache loads a line when its key is first touched,
works on it from then on, and saves every line once, at the end.

When loading finds a saved line as it is (`Lawful`), a list of operations comes to the same
through a cache and one flush as one after the other on the store: the same verdict, and on
success the same store (`flush_runCached`).
-/

namespace WriteBack

open Outcome

/-- How a line is loaded from the value under a key, worked on with an input, and saved. -/
structure Device (κ V C α ε : Type) where
  load : κ → V → Except ε C
  work : C → α → Except ε C
  save : C → V → V

namespace Device

variable {κ V C α ε : Type} (D : Device κ V C α ε)

/-! ## Laws -/

/-- Loading finds the line as it was saved, whatever it was saved over. -/
def Settled (k : κ) (c : C) : Prop := ∀ v, D.load k (D.save c v) = .ok c

/-- Lines stay settled, and saving a line covers what saving it earlier wrote. -/
structure Lawful : Prop where
  loaded : ∀ {k v c}, D.load k v = .ok c → D.Settled k c
  worked : ∀ {k c c' x}, D.Settled k c → D.work c x = .ok c' → D.Settled k c'
  covered : ∀ {c c' x}, D.work c x = .ok c' → ∀ v, D.save c' (D.save c v) = D.save c' v

/-- Each key has one line, and the line is settled. -/
structure Coherent (lines : List (κ × C)) : Prop where
  nodup : (lines.map (·.1)).Nodup
  settled : ∀ k c, (k, c) ∈ lines → D.Settled k c

theorem Coherent.nil : D.Coherent [] := ⟨List.nodup_nil, fun _ _ h => nomatch h⟩

variable {D} {lines : List (κ × C)} {k : κ} {c c' : C} {x : α} {i : ℕ}

/-- Writing a line back under its key. -/
theorem keys_set (hline : lines[i]? = some (k, c)) :
    (lines.set i (k, c')).map (·.1) = lines.map (·.1) := by
  obtain ⟨hlt, hget⟩ := List.getElem?_eq_some_iff.1 hline
  refine List.ext_getElem (by simp) ?_
  intro j _ _
  by_cases hj : i = j
  · subst hj
    simp [hget]
  · simp [hj]

/-- Working on a line of the cache. -/
theorem Coherent.set (h : D.Coherent lines) (hD : D.Lawful) (hline : lines[i]? = some (k, c))
    (hwork : D.work c x = .ok c') : D.Coherent (lines.set i (k, c')) := by
  have hsettled := hD.worked (h.settled k c (List.mem_of_getElem? hline)) hwork
  refine ⟨?_, ?_⟩
  · rw [keys_set hline]
    exact h.nodup
  · intro k' d hd
    rcases List.mem_or_eq_of_mem_set hd with hd | heq
    · exact h.settled k' d hd
    · cases heq
      exact hsettled

theorem Coherent.append (h : D.Coherent lines) (hk : k ∉ lines.map (·.1))
    (hsettled : D.Settled k c) : D.Coherent (lines ++ [(k, c)]) := by
  refine ⟨?_, ?_⟩
  · rw [List.map_append, List.map_singleton]
    exact h.nodup.append (List.nodup_singleton _) (by simpa using hk)
  · intro k' d hd
    rcases List.mem_append.1 hd with hd | hd
    · exact h.settled k' d hd
    · cases List.mem_singleton.1 hd
      exact hsettled

/-! ## The two ways to operate -/

variable (D) [DecidableEq κ]

/-- An operation on the store itself. -/
def direct (store : κ → V) (k : κ) (x : α) : Except ε (κ → V) := do
  let c ← D.load k (store k)
  let c ← D.work c x
  pure (Function.update store k (D.save c (store k)))

/-- The place of a key among the lines of a cache; on first touch its line is loaded. -/
def place (store : κ → V) (lines : List (κ × C)) (k : κ) : Except ε (ℕ × List (κ × C)) :=
  match lines.findIdx? (·.1 = k) with
  | some i => .ok (i, lines)
  | none => do
      let c ← D.load k (store k)
      pure (lines.length, lines ++ [(k, c)])

/-- An operation through a cache of the store. -/
def cached (store : κ → V) (lines : List (κ × C)) (k : κ) (x : α) :
    Except ε (List (κ × C)) := do
  let (i, lines) ← D.place store lines k
  match lines[i]? with
  | some (_, c) => do
      let c ← D.work c x
      pure (lines.set i (k, c))
  | none => .ok lines

/-- Save every line. -/
def flush (store : κ → V) (lines : List (κ × C)) : κ → V :=
  lines.foldl (fun store line => Function.update store line.1 (D.save line.2 (store line.1))) store

/-- Some operations, one after the other on the store. -/
def runDirect (store : κ → V) (ops : List (κ × α)) : Except ε (κ → V) :=
  ops.foldlM (fun store op => D.direct store op.1 op.2) store

/-- Some operations through one cache. -/
def runCached (store : κ → V) (lines : List (κ × C)) (ops : List (κ × α)) :
    Except ε (List (κ × C)) :=
  ops.foldlM (fun lines op => D.cached store lines op.1 op.2) lines

variable {D} {store store' : κ → V} {lines' : List (κ × C)}

/-! ## Places -/

/-- A key has a place when it has a line, and then it is loaded from there. -/
theorem place_cases (store : κ → V) (lines : List (κ × C)) (k : κ) :
    (∃ i c, lines[i]? = some (k, c) ∧ D.place store lines k = .ok (i, lines)) ∨
      k ∉ lines.map (·.1) ∧ D.place store lines k
        = D.load k (store k) >>= fun c => pure (lines.length, lines ++ [(k, c)]) := by
  unfold place
  cases hfound : lines.findIdx? (·.1 = k) with
  | some i =>
      obtain ⟨hlt, hkey, _⟩ := List.findIdx?_eq_some_iff_getElem.1 hfound
      rw [decide_eq_true_iff] at hkey
      refine .inl ⟨i, lines[i].2, ?_, rfl⟩
      rw [List.getElem?_eq_getElem hlt, ← hkey]
  | none =>
      refine .inr ⟨?_, rfl⟩
      intro hmem
      obtain ⟨line, hline, rfl⟩ := List.mem_map.1 hmem
      have hno := List.findIdx?_eq_none_iff.1 hfound line hline
      simp at hno

/-- The place that was found holds a line of the key. -/
theorem place_ok (h : D.place store lines k = .ok (i, lines')) :
    ∃ c, lines'[i]? = some (k, c) := by
  rcases place_cases (D := D) store lines k with ⟨j, c, hline, hplace⟩ | ⟨_, hplace⟩
  · rw [hplace] at h
    cases h
    exact ⟨c, hline⟩
  · rw [hplace] at h
    simp only [bind_eq_ok, pure_eq_ok, Prod.mk.injEq] at h
    obtain ⟨c, _, rfl, rfl⟩ := h
    exact ⟨c, by simp⟩

/-! ## What a flush saves -/

theorem flush_of_notMem (h : k ∉ lines.map (·.1)) : D.flush store lines k = store k := by
  induction lines generalizing store with
  | nil => rfl
  | cons line rest ih =>
      rw [List.map_cons, List.mem_cons, not_or] at h
      show D.flush (Function.update store line.1 _) rest k = store k
      rw [ih h.2, Function.update_of_ne h.1]

theorem flush_of_mem (hnodup : (lines.map (·.1)).Nodup) (h : (k, c) ∈ lines) :
    D.flush store lines k = D.save c (store k) := by
  induction lines generalizing store with
  | nil => cases h
  | cons line rest ih =>
      rw [List.map_cons, List.nodup_cons] at hnodup
      show D.flush (Function.update store line.1 _) rest k = D.save c (store k)
      rcases List.mem_cons.1 h with rfl | hlater
      · -- no later line has this key
        rw [flush_of_notMem hnodup.1, Function.update_self]
      · have hother : k ≠ line.1 := by
          intro heq
          rw [← heq] at hnodup
          exact hnodup.1 (List.mem_map_of_mem hlater)
        rw [ih hnodup.2 hlater, Function.update_of_ne hother]

theorem flush_append : D.flush store (lines ++ [(k, c)])
    = Function.update (D.flush store lines) k (D.save c (D.flush store lines k)) := by
  simp [flush, List.foldl_append]

/-- A line that is replaced is saved in place of the old one. -/
theorem flush_set (hnodup : (lines.map (·.1)).Nodup) (hline : lines[i]? = some (k, c)) :
    D.flush store (lines.set i (k, c'))
      = Function.update (D.flush store lines) k (D.save c' (store k)) := by
  have hkeys : (lines.set i (k, c')).map (·.1) = lines.map (·.1) := keys_set hline
  have hnodup' : ((lines.set i (k, c')).map (·.1)).Nodup := hkeys ▸ hnodup
  have hlt : i < lines.length := (List.getElem?_eq_some_iff.1 hline).1
  funext y
  by_cases hy : y = k
  · subst hy
    rw [Function.update_self, flush_of_mem hnodup' (List.mem_set hlt _)]
  · rw [Function.update_of_ne hy]
    by_cases hmem : y ∈ lines.map (·.1)
    · obtain ⟨⟨key, d⟩, hd, rfl⟩ := List.mem_map.1 hmem
      have hd' : (key, d) ∈ lines.set i (k, c') := by
        obtain ⟨j, hj⟩ := List.mem_iff_getElem?.1 hd
        have hij : i ≠ j := by
          rintro rfl
          rw [hline, Option.some.injEq, Prod.mk.injEq] at hj
          exact hy hj.1.symm
        exact List.mem_iff_getElem?.2 ⟨j, by rw [List.getElem?_set_ne hij, hj]⟩
      rw [flush_of_mem hnodup hd, flush_of_mem hnodup' hd']
    · rw [flush_of_notMem hmem, flush_of_notMem (hkeys ▸ hmem)]

/-! ## One operation -/

/-- A coherent cache of a store stays coherent. -/
theorem Coherent.cached (h : D.Coherent lines) (hD : D.Lawful)
    (hcached : D.cached store lines k x = .ok lines') : D.Coherent lines' := by
  rw [Device.cached, bind_eq_ok] at hcached
  obtain ⟨⟨i, touched⟩, hplace, hwork⟩ := hcached
  have htouched : D.Coherent touched := by
    rcases place_cases (D := D) store lines k with ⟨_, _, _, hsome⟩ | ⟨hk, hnone⟩
    · rw [hsome] at hplace
      cases hplace
      exact h
    · rw [hnone, bind_eq_ok] at hplace
      obtain ⟨c, hload, hsame⟩ := hplace
      cases hsame
      exact h.append hk (hD.loaded hload)
  obtain ⟨c, hline⟩ := place_ok hplace
  simp only [hline, bind_eq_ok, pure_eq_ok] at hwork
  obtain ⟨c', hwork, rfl⟩ := hwork
  exact htouched.set hD hline hwork

/-- **One operation.**  Through a coherent cache it comes to what it comes to on the store as
it would be flushed. -/
theorem flush_cached (hD : D.Lawful) (h : D.Coherent lines) :
    D.flush store <$> D.cached store lines k x = D.direct (D.flush store lines) k x := by
  unfold Device.cached direct
  rcases place_cases (D := D) store lines k with ⟨i, c, hline, hplace⟩ | ⟨hk, hplace⟩
  · -- the line is in the cache, and loading it from the flushed store finds it
    have hmem := List.mem_of_getElem? hline
    have hload : D.load k (D.flush store lines k) = .ok c := by
      rw [flush_of_mem h.nodup hmem]
      exact h.settled k c hmem _
    rw [hplace, hload]
    simp only [ok_bind, hline]
    cases hwork : D.work c x with
    | error e => rfl
    | ok c' =>
        show Except.ok _ = Except.ok _
        rw [flush_set h.nodup hline, flush_of_mem h.nodup hmem, hD.covered hwork]
  · -- the line is loaded, from a value no line has changed
    rw [hplace, flush_of_notMem hk]
    cases hload : D.load k (store k) with
    | error e => rfl
    | ok c =>
        have hline : (lines ++ [(k, c)])[lines.length]? = some (k, c) := by simp
        have hnodup := (h.append hk (hD.loaded hload)).nodup
        simp only [ok_bind, pure, Except.pure, hline]
        cases hwork : D.work c x with
        | error e => rfl
        | ok c' =>
            show Except.ok _ = Except.ok _
            rw [flush_set hnodup hline, flush_append, Function.update_idem]

/-! ## Runs -/

/-- **A cache and one flush.**  Running operations through a coherent cache and flushing it
comes to running them one after the other on the flushed store. -/
theorem flush_runCached (hD : D.Lawful) (h : D.Coherent lines) (ops : List (κ × α)) :
    D.flush store <$> D.runCached store lines ops = D.runDirect (D.flush store lines) ops := by
  unfold runCached runDirect
  induction ops generalizing lines with
  | nil => rfl
  | cons op rest ih =>
      rw [List.foldlM_cons, List.foldlM_cons, ← flush_cached hD h]
      cases hcached : D.cached store lines op.1 op.2 with
      | error e => rfl
      | ok lines₁ => exact ih (h.cached hD hcached)

/-- From an empty cache. -/
theorem flush_runCached_nil (hD : D.Lawful) (ops : List (κ × α)) :
    D.flush store <$> D.runCached store [] ops = D.runDirect store ops :=
  flush_runCached hD (Coherent.nil D) ops

@[simp] theorem runDirect_cons {ops : List (κ × α)} : D.runDirect store ((k, x) :: ops)
    = D.direct store k x >>= fun store => D.runDirect store ops := rfl

/-- A key whose lines save nothing keeps its value. -/
theorem runDirect_kept {ops : List (κ × α)} (h : D.runDirect store ops = .ok store')
    (hk : ∀ {v c c' x}, D.load k v = .ok c → D.work c x = .ok c' → ∀ v, D.save c' v = v) :
    store' k = store k := by
  induction ops generalizing store with
  | nil =>
      cases h
      rfl
  | cons op rest ih =>
      rw [runDirect, List.foldlM_cons, bind_eq_ok] at h
      obtain ⟨store₁, hfirst, hrest⟩ := h
      rw [ih hrest]
      simp only [direct, bind_eq_ok, pure_eq_ok] at hfirst
      obtain ⟨c, hload, c', hwork, rfl⟩ := hfirst
      by_cases hsame : k = op.1
      · subst hsame
        rw [Function.update_self, hk hload hwork]
      · rw [Function.update_of_ne hsame]

end Device
end WriteBack
