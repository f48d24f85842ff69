import Mathlib.Tactic

/-!
# Programs that make calls

A program returns or makes a call and goes on with the answer, whatever it is.  The calls that it has
made, with their answers, are its past.  A specification says which calls are allowed after a past
and which results; it is met by a program exactly if every course of the program obeys it.  A state
that answers every call runs the program.
-/

namespace CodexNos.Lib

universe u

/-- A program whose calls `ι` have answers `ρ`. -/
inductive Calls (ι : Type u) (ρ : ι → Type u) (α : Type u) : Type u
  /-- Return. -/
  | done (result : α)
  /-- Make a call and go on with its answer. -/
  | call (input : ι) (next : ρ input → Calls ι ρ α)

namespace Calls

variable {ι : Type u} {ρ : ι → Type u} {α β : Type u}

/-- A call with its answer. -/
abbrev Event (ρ : ι → Type u) : Type u := Σ input, ρ input

/-- Run one program after another. -/
def andThen (first : Calls ι ρ α) (second : α → Calls ι ρ β) : Calls ι ρ β :=
  match first with
  | .done result => second result
  | .call input next => .call input fun answer => (next answer).andThen second

instance : Monad (Calls ι ρ) where
  pure := .done
  bind := andThen

/-- The calls `events` lead from a program to the rest of it. -/
inductive Follows : Calls ι ρ α → List (Event ρ) → Calls ι ρ α → Prop
  | refl (program : Calls ι ρ α) : Follows program [] program
  | call {input : ι} {next : ρ input → Calls ι ρ α} {answer : ρ input} {events : List (Event ρ)}
      {rest : Calls ι ρ α} (later : Follows (next answer) events rest) :
      Follows (.call input next) (⟨input, answer⟩ :: events) rest

/-- Every call of a program is allowed after its past, and every result. -/
def Meets (allowed : List (Event ρ) → ι → Prop) (returned : List (Event ρ) → α → Prop) :
    List (Event ρ) → Calls ι ρ α → Prop
  | past, .done result => returned past result
  | past, .call input next =>
      allowed past input ∧
        ∀ answer, Meets allowed returned (past ++ [⟨input, answer⟩]) (next answer)

variable {allowed : List (Event ρ) → ι → Prop} {returned : List (Event ρ) → α → Prop}
  {past : List (Event ρ)}

@[simp]
theorem meets_done (result : α) :
    Meets allowed returned past (.done result) ↔ returned past result := Iff.rfl

@[simp]
theorem meets_pure (result : α) :
    Meets allowed returned past (pure result : Calls ι ρ α) ↔ returned past result := Iff.rfl

@[simp]
theorem meets_call (input : ι) (next : ρ input → Calls ι ρ α) :
    Meets allowed returned past (.call input next) ↔
      allowed past input ∧
        ∀ answer, Meets allowed returned (past ++ [⟨input, answer⟩]) (next answer) :=
  Iff.rfl

/-- A sequence meets what its first part meets when the second is asked for the rest. -/
@[simp]
theorem meets_bind {returned : List (Event ρ) → β → Prop} (first : Calls ι ρ α)
    (second : α → Calls ι ρ β) :
    Meets allowed returned past (first >>= second) ↔
      Meets allowed (fun past result => Meets allowed returned past (second result)) past first := by
  change Meets allowed returned past (first.andThen second) ↔ _
  induction first generalizing past with
  | done result => rfl
  | call input next ih =>
      rw [andThen, meets_call, meets_call]
      exact and_congr_right fun _ => forall_congr' fun answer => ih answer

@[simp]
theorem meets_map {returned : List (Event ρ) → β → Prop} (convert : α → β) (program : Calls ι ρ α) :
    Meets allowed returned past (convert <$> program) ↔
      Meets allowed (fun past result => returned past (convert result)) past program :=
  meets_bind program fun result => pure (convert result)

theorem Meets.weaken {weaker : List (Event ρ) → α → Prop} {program : Calls ι ρ α}
    (meets : Meets allowed returned past program)
    (implies : ∀ past result, returned past result → weaker past result) :
    Meets allowed weaker past program := by
  induction program generalizing past with
  | done result => exact implies past result meets
  | call input next ih => exact ⟨meets.1, fun answer => ih answer (meets.2 answer)⟩

/-- What is left of a program meets the specification after the calls that led to it. -/
theorem Meets.follows {program rest : Calls ι ρ α} {events : List (Event ρ)}
    (meets : Meets allowed returned past program) (course : Follows program events rest) :
    Meets allowed returned (past ++ events) rest := by
  induction course generalizing past with
  | refl program => rwa [List.append_nil]
  | call later ih =>
      have reached := ih (meets.2 _)
      rwa [List.append_assoc, List.singleton_append] at reached

/-- Every result of a program that meets the specification is allowed. -/
theorem Meets.result {program : Calls ι ρ α} {events : List (Event ρ)} {result : α}
    (meets : Meets allowed returned [] program) (course : Follows program events (.done result)) :
    returned events result :=
  meets.follows course

/-! ## Interpretation -/

section Interpretation

variable {σ : Type*}

/-- Run a program on a state that answers its calls.  There is no result if it does not answer one. -/
def interpret (perform : σ → (input : ι) → Option (σ × ρ input)) (state : σ) :
    Calls ι ρ α → Option (σ × α)
  | .done result => some (state, result)
  | .call input next =>
      (perform state input).bind fun step => interpret perform step.1 (next step.2)

variable {perform : σ → (input : ι) → Option (σ × ρ input)} {state : σ}

@[simp]
theorem interpret_done (result : α) :
    interpret perform state (.done result) = some (state, result) := rfl

@[simp]
theorem interpret_pure (result : α) :
    interpret perform state (pure result : Calls ι ρ α) = some (state, result) := rfl

@[simp]
theorem interpret_call (input : ι) (next : ρ input → Calls ι ρ α) :
    interpret perform state (.call input next) =
      (perform state input).bind fun step => interpret perform step.1 (next step.2) := rfl

/-- A sequence runs its second part where the first one has ended. -/
@[simp]
theorem interpret_bind (first : Calls ι ρ α) (second : α → Calls ι ρ β) :
    interpret perform state (first >>= second) =
      (interpret perform state first).bind fun done =>
        interpret perform done.1 (second done.2) := by
  change interpret perform state (first.andThen second) = _
  induction first generalizing state with
  | done result => rfl
  | call input next ih =>
      rw [andThen, interpret_call, interpret_call, Option.bind_assoc]
      exact congrArg _ (funext fun step => ih step.2)

@[simp]
theorem interpret_map (convert : α → β) (program : Calls ι ρ α) :
    interpret perform state (convert <$> program) =
      (interpret perform state program).map fun done => (done.1, convert done.2) := by
  change interpret perform state (program >>= fun result => pure (convert result)) = _
  rw [interpret_bind, Option.map_eq_bind]
  rfl

end Interpretation

end Calls

end CodexNos.Lib
