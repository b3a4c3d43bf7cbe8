import Mathlib

/-!
# Recursion with a depth limit

What a recursive function does with an argument is a body: it asks for its value at other
arguments, one after the other, and what it asks next may depend on the answers.  Run down to
a depth (`run`), the function returns the value it has without a limit (`value_of_run`), unless
some chain of its calls is longer than the depth (`run_eq_none_iff`).
-/

/-- What a recursive function does with one argument. -/
inductive Body (ν β : Type) where
  | ret (value : β)
  | ask (arg : ν) (next : β → Body ν β)

namespace Body

variable {ν β : Type}

/-- The outcome of a body where `f` answers; the first question without an answer ends it. -/
def resolve (f : ν → Option β) : Body ν β → Option β
  | ret value => some value
  | ask arg next => (f arg).bind fun answer => (next answer).resolve f

variable (body : ν → Body ν β)

/-- The function, down to a depth. -/
def run : ℕ → ν → Option β
  | 0, _ => none
  | depth + 1, x => (body x).resolve (run depth)

/-- What a body returns when every call is followed to its end. -/
inductive Value : Body ν β → β → Prop
  | ret {value : β} : Value (.ret value) value
  | ask {arg : ν} {next : β → Body ν β} {answer value : β} : Value (body arg) answer →
      Value (next answer) value → Value (.ask arg next) value

/-- The arguments a body comes to ask for. -/
inductive Asks : Body ν β → ν → Prop
  | first {arg : ν} {next : β → Body ν β} : Asks (.ask arg next) arg
  | later {arg x : ν} {next : β → Body ν β} {answer : β} : Value body (body arg) answer →
      Asks (next answer) x → Asks (.ask arg next) x

/-- The function calls itself at `y` when called at `x`. -/
def Calls (x y : ν) : Prop := Asks body (body x) y

/-- A chain of `depth` calls starts at `x`. -/
def Descends (depth : ℕ) (x : ν) : Prop :=
  ∃ calls : List ν, calls.length = depth ∧ (x :: calls).IsChain (Calls body)

section Values

variable {body} {q : Body ν β} {x : ν} {a b : β} {depth : ℕ}

/-- A body returns one value at most. -/
theorem Value.unique (ha : Value body q a) (hb : Value body q b) : a = b := by
  induction ha generalizing b with
  | ret =>
      cases hb
      rfl
  | ask _ _ ihanswer ihvalue =>
      cases hb with
      | ask hanswer hvalue =>
          obtain rfl := ihanswer hanswer
          exact ihvalue hvalue

theorem value_of_resolve {f : ν → Option β} (hf : ∀ x v, f x = some v → Value body (body x) v)
    (h : q.resolve f = some a) : Value body q a := by
  induction q with
  | ret value =>
      obtain rfl : value = a := Option.some.inj h
      exact .ret
  | ask arg next ih =>
      obtain ⟨answer, hanswer, hrest⟩ := Option.bind_eq_some_iff.1 h
      exact .ask (hf arg answer hanswer) (ih answer hrest)

/-- What a run down to some depth returns is the value. -/
theorem value_of_run (h : run body depth x = some a) : Value body (body x) a := by
  induction depth generalizing x a with
  | zero => cases h
  | succ depth ih => exact value_of_resolve (fun _ _ => ih) h

/-- A body has no outcome exactly when it comes to ask for something without an answer. -/
theorem resolve_eq_none_iff {f : ν → Option β}
    (hf : ∀ x v, f x = some v → Value body (body x) v) :
    q.resolve f = none ↔ ∃ y, Asks body q y ∧ f y = none := by
  induction q with
  | ret value =>
      constructor
      · intro h
        cases h
      · rintro ⟨_, hasks, _⟩
        cases hasks
  | ask arg next ih =>
      cases hanswer : f arg with
      | none => simpa [resolve, hanswer] using ⟨arg, .first, hanswer⟩
      | some answer =>
          have hvalue := hf arg answer hanswer
          simp only [resolve, hanswer, Option.bind_some, ih]
          constructor
          · rintro ⟨y, hasks, hnone⟩
            exact ⟨y, .later hvalue hasks, hnone⟩
          · rintro ⟨y, hasks, hnone⟩
            cases hasks with
            | first =>
                rw [hanswer] at hnone
                cases hnone
            | later hvalue' hasks =>
                obtain rfl := hvalue.unique hvalue'
                exact ⟨y, hasks, hnone⟩

end Values

section Descent

variable {body} {x : ν} {depth : ℕ}

theorem descends_zero : Descends body 0 x := ⟨[], rfl, List.isChain_singleton x⟩

theorem descends_succ : Descends body (depth + 1) x ↔ ∃ y, Calls body x y ∧ Descends body depth y := by
  constructor
  · rintro ⟨calls, hlength, hchain⟩
    obtain ⟨y, rest, rfl⟩ := List.exists_cons_of_length_eq_add_one hlength
    rw [List.isChain_cons_cons] at hchain
    exact ⟨y, hchain.1, rest, by simpa using hlength, hchain.2⟩
  · rintro ⟨y, hcall, rest, rfl, hchain⟩
    exact ⟨y :: rest, rfl, List.isChain_cons_cons.2 ⟨hcall, hchain⟩⟩

/-- **A limit on the depth is met exactly by a chain of calls that goes beyond it.** -/
theorem run_eq_none_iff : run body depth x = none ↔ Descends body depth x := by
  induction depth generalizing x with
  | zero => simp [run, descends_zero]
  | succ depth ih =>
      rw [run, resolve_eq_none_iff fun _ _ => value_of_run, descends_succ]
      refine exists_congr fun y => ?_
      rw [ih]
      rfl

end Descent

end Body
