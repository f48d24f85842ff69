import Mathlib.Tactic

/-!
# Labelled executions

A system is a partial step function on states and labels; the choices of its environment are in
the labels.  A guard restricts which labels a run may take in which state.  Safety of every guarded
run is one induction, and a guard that decides each single step decides whole runs.
-/

namespace CodexNos.Lib.Transition

variable {σ α : Type*}

/-- Execute the labels in order, failing at the first one that is not enabled. -/
def run (step : σ → α → Option σ) : σ → List α → Option σ
  | state, [] => some state
  | state, label :: labels => (step state label).bind fun next => run step next labels

@[simp]
theorem run_nil (step : σ → α → Option σ) (state : σ) : run step state [] = some state := rfl

@[simp]
theorem run_cons (step : σ → α → Option σ) (state : σ) (label : α) (labels : List α) :
    run step state (label :: labels) =
      (step state label).bind fun next => run step next labels := rfl

theorem run_append {step : σ → α → Option σ} {before between : σ} {labels : List α}
    (execution : run step before labels = some between) (later : List α) :
    run step before (labels ++ later) = run step between later := by
  induction labels generalizing before with
  | nil =>
      obtain rfl : before = between := by simpa using execution
      rfl
  | cons label labels ih =>
      obtain ⟨next, stepped, rest⟩ := Option.bind_eq_some_iff.mp execution
      rw [List.cons_append, run_cons, stepped, Option.bind_some]
      exact ih rest

/-- States reached from `start` by steps that each meet `guard` in the state before them. -/
inductive Reach (step : σ → α → Option σ) (guard : σ → α → Prop) (start : σ → Prop) : σ → Prop
  | start {state : σ} : start state → Reach step guard start state
  | step {before after : σ} {label : α} :
      Reach step guard start before →
      guard before label →
      step before label = some after →
      Reach step guard start after

/-- States reached from `start` by arbitrary steps. -/
def Reachable (step : σ → α → Option σ) (start : σ → Prop) : σ → Prop :=
  Reach step (fun _ _ => True) start

/-- A property of the start states kept by every guarded step holds in every reached state. -/
theorem Reach.invariant {step : σ → α → Option σ} {guard : σ → α → Prop} {start : σ → Prop}
    (inv : σ → Prop) (base : ∀ state, start state → inv state)
    (keep : ∀ before label after, inv before → guard before label →
      step before label = some after → inv after)
    {state : σ} (reach : Reach step guard start state) : inv state := by
  induction reach with
  | start initial => exact base _ initial
  | step _ allowed stepped ih => exact keep _ _ _ ih allowed stepped

theorem reachable_of_run {step : σ → α → Option σ} {start : σ → Prop} {labels : List α}
    {before after : σ} (reach : Reachable step start before)
    (execution : run step before labels = some after) : Reachable step start after := by
  induction labels generalizing before with
  | nil =>
      obtain rfl : before = after := by simpa using execution
      exact reach
  | cons label labels ih =>
      obtain ⟨next, stepped, rest⟩ := Option.bind_eq_some_iff.mp execution
      exact ih (.step reach trivial stepped) rest

/-- If every start state has a related one, and every step is followed from a related state by
steps of another system, then every reached state has a related one that the other system reaches. -/
theorem Reachable.follows {τ β : Type*} {step : σ → α → Option σ} {start : σ → Prop}
    {step' : τ → β → Option τ} {start' : τ → Prop} {rel : σ → τ → Prop}
    (base : ∀ state, start state → ∃ other, start' other ∧ rel state other)
    (keep : ∀ before label after other, Reachable step start before → rel before other →
      step before label = some after → ∃ labels later, run step' other labels = some later ∧
        rel after later)
    {state : σ} (reached : Reachable step start state) :
    ∃ other, Reachable step' start' other ∧ rel state other := by
  induction reached with
  | start initial =>
      obtain ⟨other, other_initial, related⟩ := base _ initial
      exact ⟨other, .start other_initial, related⟩
  | step earlier _ stepped ih =>
      obtain ⟨other, other_reached, related⟩ := ih
      obtain ⟨labels, later, execution, related⟩ := keep _ _ _ other earlier related stepped
      exact ⟨later, reachable_of_run other_reached execution, related⟩

/-- Execute the labels in order, failing also at the first one that its guard forbids. -/
def runGuarded (step : σ → α → Option σ) (guard : σ → α → Prop)
    [∀ state label, Decidable (guard state label)] : σ → List α → Option σ
  | state, [] => some state
  | state, label :: labels =>
      if guard state label then
        (step state label).bind fun next => runGuarded step guard next labels
      else none

theorem reach_of_runGuarded {step : σ → α → Option σ} {guard : σ → α → Prop}
    [∀ state label, Decidable (guard state label)] {start : σ → Prop} {labels : List α}
    {before after : σ} (reach : Reach step guard start before)
    (execution : runGuarded step guard before labels = some after) :
    Reach step guard start after := by
  induction labels generalizing before with
  | nil =>
      obtain rfl : before = after := Option.some.inj execution
      exact reach
  | cons label labels ih =>
      simp only [runGuarded] at execution
      split at execution
      · rename_i allowed
        obtain ⟨next, stepped, rest⟩ := Option.bind_eq_some_iff.mp execution
        exact ih (.step reach allowed stepped) rest
      · simp at execution

/-- Every state visited by a run, its first and last included, satisfies a property. -/
def Visits (step : σ → α → Option σ) (property : σ → Prop) : σ → List α → Prop
  | state, [] => property state
  | state, label :: labels =>
      property state ∧ ∀ next, step state label = some next → Visits step property next labels

theorem Visits.head {step : σ → α → Option σ} {property : σ → Prop} {state : σ} {labels : List α}
    (visited : Visits step property state labels) : property state := by
  cases labels with
  | nil => exact visited
  | cons _ _ => exact visited.1

theorem Visits.last {step : σ → α → Option σ} {property : σ → Prop} {before after : σ}
    {labels : List α} (visited : Visits step property before labels)
    (execution : run step before labels = some after) : property after := by
  induction labels generalizing before with
  | nil =>
      obtain rfl : before = after := Option.some.inj execution
      exact visited
  | cons label labels ih =>
      obtain ⟨next, stepped, rest⟩ := Option.bind_eq_some_iff.mp execution
      exact ih (visited.2 next stepped) rest

/-- A property that is tested before each label and holds at the end holds all along the run. -/
theorem visits_of_runGuarded {step : σ → α → Option σ} {property : σ → Prop}
    [DecidablePred property] {labels : List α} {before after : σ}
    (execution : runGuarded step (fun state _ => property state) before labels = some after)
    (last : property after) : Visits step property before labels := by
  induction labels generalizing before with
  | nil =>
      obtain rfl : before = after := Option.some.inj execution
      exact last
  | cons label labels ih =>
      simp only [runGuarded] at execution
      split at execution
      · rename_i holds
        obtain ⟨next, stepped, rest⟩ := Option.bind_eq_some_iff.mp execution
        refine ⟨holds, ?_⟩
        intro next' stepped'
        obtain rfl : next = next' := Option.some.inj (stepped.symm.trans stepped')
        exact ih rest
      · simp at execution

/-- Every step of a run meets the guard in the state before it. -/
def Guarded (step : σ → α → Option σ) (guard : σ → α → Prop) : σ → List α → Prop
  | _, [] => True
  | state, label :: labels =>
      guard state label ∧ ∀ next, step state label = some next → Guarded step guard next labels

theorem guarded_of_runGuarded {step : σ → α → Option σ} {guard : σ → α → Prop}
    [∀ state label, Decidable (guard state label)] {labels : List α} {before after : σ}
    (execution : runGuarded step guard before labels = some after) :
    run step before labels = some after ∧ Guarded step guard before labels := by
  induction labels generalizing before with
  | nil => exact ⟨execution, trivial⟩
  | cons label labels ih =>
      simp only [runGuarded] at execution
      split at execution
      · rename_i allowed
        obtain ⟨next, stepped, rest⟩ := Option.bind_eq_some_iff.mp execution
        obtain ⟨ran, guarded⟩ := ih rest
        constructor
        · rw [run_cons, stepped]
          exact ran
        · refine ⟨allowed, ?_⟩
          intro next' stepped'
          obtain rfl : next = next' := Option.some.inj (stepped.symm.trans stepped')
          exact guarded
      · simp at execution

theorem Guarded.of_append {step : σ → α → Option σ} {guard : σ → α → Prop} {before between : σ}
    {labels later : List α} (guarded : Guarded step guard before (labels ++ later))
    (execution : run step before labels = some between) : Guarded step guard between later := by
  induction labels generalizing before with
  | nil =>
      obtain rfl : before = between := Option.some.inj execution
      exact guarded
  | cons label labels ih =>
      obtain ⟨next, stepped, rest⟩ := Option.bind_eq_some_iff.mp execution
      exact ih (guarded.2 next stepped) rest

/-- Two guards that agree on every step from an invariant agree on every run. -/
theorem guarded_iff_of_invariant {step : σ → α → Option σ} {guard other : σ → α → Prop}
    {inv : σ → Prop}
    (keep : ∀ before label after, inv before → step before label = some after → inv after)
    (agree : ∀ before label after, inv before → step before label = some after →
      (guard before label ↔ other before label))
    {labels : List α} {before after : σ} (holds : inv before)
    (execution : run step before labels = some after) :
    Guarded step guard before labels ↔ Guarded step other before labels := by
  induction labels generalizing before with
  | nil => exact Iff.rfl
  | cons label labels ih =>
      obtain ⟨next, stepped, rest⟩ := Option.bind_eq_some_iff.mp execution
      have later := ih (keep before label next holds stepped) rest
      refine and_congr (agree before label next holds stepped) ?_
      simp only [stepped, Option.some.injEq, forall_eq']
      exact later

/-- If a guard decides of each single step whether it keeps a property, then it decides of each
run whether the property holds all along it. -/
theorem visits_iff_guarded {step : σ → α → Option σ} {guard : σ → α → Prop}
    (support : σ → Prop) {property : σ → Prop}
    (keep : ∀ before label after, support before → step before label = some after → support after)
    (exact_step : ∀ before label after, support before → property before →
      step before label = some after → (property after ↔ guard before label))
    {labels : List α} {before after : σ} (supported : support before) (holds : property before)
    (execution : run step before labels = some after) :
    Visits step property before labels ↔ Guarded step guard before labels := by
  induction labels generalizing before with
  | nil => simp [Visits, Guarded, holds]
  | cons label labels ih =>
      obtain ⟨next, stepped, rest⟩ := Option.bind_eq_some_iff.mp execution
      have decided := exact_step before label next supported holds stepped
      have kept := keep before label next supported stepped
      constructor
      · rintro ⟨_, visited⟩
        have next_holds : property next := (visited next stepped).head
        refine ⟨decided.mp next_holds, ?_⟩
        intro next' stepped'
        obtain rfl : next = next' := Option.some.inj (stepped.symm.trans stepped')
        exact (ih kept next_holds rest).mp (visited next stepped)
      · rintro ⟨allowed, guarded⟩
        have next_holds : property next := decided.mpr allowed
        refine ⟨holds, ?_⟩
        intro next' stepped'
        obtain rfl : next = next' := Option.some.inj (stepped.symm.trans stepped')
        exact (ih kept next_holds rest).mpr (guarded next stepped)

/-- The property that a run visits may be weaker than the invariant that carries it: the invariant
is kept by guarded steps, and a step that ends in the property was guarded. -/
theorem visits_iff_guarded_of_invariant {step : σ → α → Option σ} {guard : σ → α → Prop}
    {inv property : σ → Prop} (implies : ∀ state, inv state → property state)
    (keep : ∀ before label after, inv before → guard before label →
      step before label = some after → inv after)
    (needed : ∀ before label after, inv before → step before label = some after →
      property after → guard before label)
    {labels : List α} {before after : σ} (holds : inv before)
    (execution : run step before labels = some after) :
    Visits step property before labels ↔ Guarded step guard before labels := by
  induction labels generalizing before with
  | nil => simp [Visits, Guarded, implies before holds]
  | cons label labels ih =>
      obtain ⟨next, stepped, rest⟩ := Option.bind_eq_some_iff.mp execution
      have tail (allowed : guard before label) :=
        ih (keep before label next holds allowed stepped) rest
      constructor
      · rintro ⟨_, visited⟩
        have later := visited next stepped
        have next_holds : property next := later.head
        have allowed := needed before label next holds stepped next_holds
        refine ⟨allowed, ?_⟩
        intro next' stepped'
        obtain rfl : next = next' := Option.some.inj (stepped.symm.trans stepped')
        exact (tail allowed).mp later
      · rintro ⟨allowed, guarded⟩
        refine ⟨implies before holds, ?_⟩
        intro next' stepped'
        obtain rfl : next = next' := Option.some.inj (stepped.symm.trans stepped')
        exact (tail allowed).mpr (guarded next stepped)

/-- A property that every step needs in its first state holds all along a run exactly if it holds at
the end. -/
theorem visits_iff_last {step : σ → α → Option σ} {property : σ → Prop}
    (needs : ∀ before label after, property after → step before label = some after →
      property before)
    {labels : List α} {before after : σ} (execution : run step before labels = some after) :
    Visits step property before labels ↔ property after := by
  induction labels generalizing before with
  | nil =>
      obtain rfl : before = after := Option.some.inj execution
      exact Iff.rfl
  | cons label labels ih =>
      obtain ⟨next, stepped, rest⟩ := Option.bind_eq_some_iff.mp execution
      have later := ih rest
      constructor
      · rintro ⟨_, visited⟩
        exact later.mp (visited next stepped)
      · intro last
        have visited := later.mpr last
        have next_holds : property next := visited.head
        refine ⟨needs before label next next_holds stepped, ?_⟩
        intro next' stepped'
        obtain rfl : next = next' := Option.some.inj (stepped.symm.trans stepped')
        exact visited

end CodexNos.Lib.Transition
