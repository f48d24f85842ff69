import CodexNos.Scheduler.Wakeup

/-!
# Registered components and the run loop

A registrar appends a component and then writes `notify_fd`.  The loop starts pending components
before it reads `notify_fd`, so a registration between the two loses its notice: the read erases it
and the loop can wait with a component that nobody starts.  If every read finds no such component,
or something that brings the loop back to `start_pending_components`, no waiting loop has one.
-/

namespace CodexNos.Scheduler

open Lib.Transition

namespace RunLoop

variable {θ : Type*}

/-- Some component is registered and not started. -/
def Unstarted (loop : RunLoop θ) : Prop := ∃ member ∈ loop.components, member.status = .inited

/-- A registrar has appended its component and not yet written `notify_fd`. -/
def Registering (loop : RunLoop θ) : Prop := ∃ thread, loop.caller thread = .registered

/-- The loop runs `start_pending_components` before it waits again. -/
def StartsAhead : LoopPoint → Prop
  | .startLock _ | .startEach _ _ | .wake | .timers .slow => True
  | _ => False

/-- The loop looks at the queue before it announces a sleep. -/
def Testing : LoopPoint → Prop
  | .events .fast | .test => True
  | .loadHead use | .loadTail use _ => use ≠ .retest
  | _ => False

/-- Reasons for which a component that is not started does not stay so. -/
def Excused (loop : RunLoop θ) : Prop :=
  loop.counter ≠ 0 ∨ loop.Registering ∨ StartsAhead loop.point ∨
    loop.stopRequested = true ∧ loop.point ≠ .blocked ∨
      loop.head ≠ loop.tail ∧ Testing loop.point

/-- A read of `notify_fd` erases no notice that is still needed. -/
def KeepsNotice (loop : RunLoop θ) : LoopOp θ → Prop
  | .advance _ _ =>
      match loop.point, loop.pending with
      | .events path, .notify :: _ =>
          ¬ loop.Unstarted ∨ loop.Registering ∨ loop.stopRequested = true ∨
            path = .fast ∧ loop.head ≠ loop.tail
      | _, _ => True
  | _ => True

instance (loop : RunLoop θ) : Decidable loop.Unstarted := by
  unfold Unstarted
  infer_instance

instance [Fintype θ] (loop : RunLoop θ) : Decidable loop.Registering := by
  unfold Registering
  infer_instance

instance [Fintype θ] (loop : RunLoop θ) (op : LoopOp θ) : Decidable (loop.KeepsNotice op) := by
  unfold KeepsNotice
  repeat' split
  all_goals infer_instance

/-- What keeps registrations noticed. -/
structure Noticing (loop : RunLoop θ) : Prop where
  /-- The components that `start_pending_components` has passed are started. -/
  passed : ∀ path index, loop.point = .startEach path index →
    ∀ before < index, ∀ member, loop.components[before]? = some member → member.status ≠ .inited
  /-- A component that is not started has not been forgotten. -/
  excused : loop.Unstarted → loop.Excused

theorem noticing_of_initial {loop : RunLoop θ} (initial : loop.Initial) : loop.Noticing where
  passed := by simp [initial.point]
  excused := fun _ => .inr (.inr (.inl (by simp [initial.point, StartsAhead])))

theorem startMember_status (startOk : Bool) (member : Member) :
    (startMember startOk member).status ≠ .inited := by
  unfold startMember
  split
  · dsimp only
    split <;> simp
  · assumption

theorem testing_spinFrom (left : Nat) : Testing (spinFrom left) := by
  cases left <;> simp [spinFrom, Testing]

theorem spinFrom_ne_blocked (left : Nat) : spinFrom left ≠ .blocked := by
  cases left <;> simp [spinFrom]

theorem spinFrom_ne_startEach (left : Nat) (path : Path) (index : Nat) :
    spinFrom left ≠ .startEach path index := by
  cases left <;> simp [spinFrom]

/-- An excuse outside the special points goes along with the loop. -/
theorem Excused.carry {before after : RunLoop θ} (excused : before.Excused)
    (no_start : ¬ StartsAhead before.point) (no_test : ¬ Testing before.point)
    (counter : after.counter = before.counter) (caller : after.caller = before.caller)
    (stop : after.stopRequested = before.stopRequested)
    (awake : before.stopRequested = true → after.point ≠ .blocked) : after.Excused := by
  rcases excused with readable | registering | starts | ⟨stopped, -⟩ | ⟨-, testing⟩
  · exact .inl (counter ▸ readable)
  · exact .inr (.inl (by simpa [Registering, caller] using registering))
  · exact absurd starts no_start
  · exact .inr (.inr (.inr (.inl ⟨stop ▸ stopped, awake stopped⟩)))
  · exact absurd testing no_test

/-- Outside the special points registrations stay noticed. -/
theorem Noticing.carry {before after : RunLoop θ} (noticing : before.Noticing)
    (no_start : ¬ StartsAhead before.point) (no_test : ¬ Testing before.point)
    (components : after.components = before.components) (counter : after.counter = before.counter)
    (caller : after.caller = before.caller) (stop : after.stopRequested = before.stopRequested)
    (outside : ∀ path index, after.point ≠ .startEach path index)
    (awake : before.stopRequested = true → after.point ≠ .blocked) : after.Noticing where
  passed := fun path index inside => absurd inside (outside path index)
  excused := fun unstarted =>
    (noticing.excused (by simpa [Unstarted, components] using unstarted)).carry no_start no_test
      counter caller stop awake

/-- Before `start_pending_components` registrations are noticed. -/
theorem Noticing.ahead {loop : RunLoop θ} (starts : StartsAhead loop.point)
    (outside : ∀ path index, loop.point ≠ .startEach path index) : loop.Noticing where
  passed := fun path index inside => absurd inside (outside path index)
  excused := fun _ => .inr (.inr (.inl starts))

/-! ## Steps of the loop -/

variable {pollCycles : Nat}

theorem Noticing.startEach {before after : RunLoop θ} {startOk : Bool} {ready : List Event}
    {path : Path} {index : Nat} (noticing : before.Noticing)
    (point_eq : before.point = .startEach path index)
    (stepped : before.advance pollCycles startOk ready = some after) : after.Noticing := by
  have passed := noticing.passed path index point_eq
  simp only [RunLoop.advance, point_eq] at stepped
  split at stepped
  · rename_i at_end
    obtain rfl := Option.some.inj stepped
    have length_le : before.components.length ≤ index := List.getElem?_eq_none_iff.mp at_end
    constructor
    · cases path <;> simp [afterStart]
    · rintro ⟨member, present, inited⟩
      obtain ⟨place, place_lt, rfl⟩ := List.mem_iff_getElem.mp present
      exact absurd inited
        (passed place (place_lt.trans_le length_le) _ (List.getElem?_eq_getElem place_lt))
  · rename_i member found
    obtain rfl := Option.some.inj stepped
    constructor
    · intro path' index' moved place place_lt other found_other
      obtain ⟨-, rfl⟩ : path = path' ∧ index + 1 = index' := by simpa using moved
      obtain place_lt | rfl : place < index ∨ place = index := by omega
      · rw [List.getElem?_set_ne (by omega)] at found_other
        exact passed place place_lt other found_other
      · have inside : place < before.components.length := (List.getElem?_eq_some_iff.mp found).1
        rw [List.getElem?_set_self inside] at found_other
        obtain rfl := Option.some.inj found_other
        exact startMember_status startOk member
    · exact fun _ => .inr (.inr (.inl trivial))

theorem Noticing.test {before after : RunLoop θ} {startOk : Bool} {ready : List Event}
    (noticing : before.Noticing) (point_eq : before.point = .test)
    (stepped : before.advance pollCycles startOk ready = some after) : after.Noticing := by
  simp only [RunLoop.advance, point_eq, Option.some.injEq] at stepped
  subst stepped
  constructor
  · intro path index moved
    dsimp only at moved
    split at moved
    · cases moved
    · exact absurd moved (spinFrom_ne_startEach pollCycles path index)
  · intro unstarted
    rcases noticing.excused unstarted with readable | registering | starts | ⟨stop, -⟩ |
      ⟨queue, -⟩
    · exact .inl readable
    · exact .inr (.inl registering)
    · simp [point_eq, StartsAhead] at starts
    · exact .inr (.inr (.inr (.inl ⟨stop, by simp [stop]⟩)))
    · cases stop : before.stopRequested with
      | true => exact .inr (.inr (.inr (.inl ⟨rfl, by simp⟩)))
      | false =>
          exact .inr (.inr (.inr (.inr ⟨queue, by simpa using testing_spinFrom pollCycles⟩)))

/-- The second half of an emptiness test keeps registrations noticed. -/
theorem Noticing.loadTail {before after : RunLoop θ} {startOk : Bool} {ready : List Event}
    {use : QueueTest} {head : Nat} (noticing : before.Noticing) (attentive : before.Attentive)
    (point_eq : before.point = .loadTail use head)
    (stepped : before.advance pollCycles startOk ready = some after) : after.Noticing := by
  have own : head = before.head := attentive.loaded use head point_eq
  simp only [RunLoop.advance, point_eq, Option.some.injEq] at stepped
  subst stepped
  cases empty : head == before.tail with
  | true =>
      have same : before.head = before.tail := by simpa [own] using empty
      constructor
      · intro path index moved
        cases use with
        | spin left => exact absurd moved (spinFrom_ne_startEach left path index)
        | busy => simp [afterTest] at moved
        | retest => simp [afterTest] at moved
      · intro unstarted
        rcases noticing.excused unstarted with readable | registering | starts | ⟨stop, -⟩ |
          ⟨queue, -⟩
        · exact .inl readable
        · exact .inr (.inl registering)
        · simp [point_eq, StartsAhead] at starts
        · have next_ne : afterTest true use ≠ .blocked := by
            cases use with
            | spin left => exact spinFrom_ne_blocked left
            | busy => simp [afterTest]
            | retest => simp [afterTest]
          exact .inr (.inr (.inr (.inl ⟨stop, next_ne⟩)))
        · exact absurd same queue
  | false =>
      cases use with
      | spin left => exact .ahead (by simp [afterTest, StartsAhead]) (by simp [afterTest])
      | busy => exact .ahead (by simp [afterTest, StartsAhead]) (by simp [afterTest])
      | retest =>
          exact noticing.carry (by simp [point_eq, StartsAhead]) (by simp [point_eq, Testing])
            rfl rfl rfl rfl (by simp [afterTest]) (by simp [afterTest])

/-- Handling an event keeps registrations noticed, if a read of `notify_fd` is allowed. -/
theorem Noticing.events {before after : RunLoop θ} {startOk : Bool} {ready : List Event}
    {path : Path} (noticing : before.Noticing) (point_eq : before.point = .events path)
    (keeps : before.KeepsNotice (.advance startOk ready))
    (stepped : before.advance pollCycles startOk ready = some after) : after.Noticing := by
  have ahead : ¬ StartsAhead before.point := by simp [point_eq, StartsAhead]
  simp only [RunLoop.advance, point_eq, Option.some.injEq] at stepped
  subst stepped
  cases pending_eq : before.pending with
  | nil =>
      simp only [handleEvent, pending_eq]
      constructor
      · simp
      · intro unstarted
        rcases noticing.excused unstarted with readable | registering | starts | ⟨stop, -⟩ |
          ⟨queue, -⟩
        · exact .inl readable
        · exact .inr (.inl registering)
        · exact absurd starts ahead
        · exact .inr (.inr (.inr (.inl ⟨stop, by simp⟩)))
        · exact .inr (.inr (.inr (.inr ⟨queue, trivial⟩)))
  | cons event rest =>
      cases event with
      | other =>
          simp only [handleEvent, pending_eq]
          exact
            { passed := by simp [point_eq]
              excused := fun unstarted => noticing.excused unstarted }
      | notify =>
          simp only [handleEvent, pending_eq]
          constructor
          · intro path' index inside
            dsimp only at inside
            split at inside <;> cases inside
          · intro unstarted
            simp only [KeepsNotice, point_eq, pending_eq] at keeps
            rcases keeps with started | registering | stop | ⟨rfl, queue⟩
            · exact absurd unstarted started
            · exact .inr (.inl registering)
            · refine .inr (.inr (.inr (.inl ⟨stop, ?_⟩)))
              dsimp only
              split <;> simp
            · exact .inr (.inr (.inr (.inr ⟨queue, by simp [Testing]⟩)))

/-- A step of the loop that erases no needed notice keeps registrations noticed. -/
theorem Noticing.advance {before after : RunLoop θ} {startOk : Bool} {ready : List Event}
    (noticing : before.Noticing) (attentive : before.Attentive)
    (keeps : before.KeepsNotice (.advance startOk ready))
    (stepped : before.advance pollCycles startOk ready = some after) : after.Noticing := by
  cases point_eq : before.point with
  | startLock path =>
      simp only [RunLoop.advance, point_eq, Option.some.injEq] at stepped
      subst stepped
      exact
        { passed := by simp
          excused := fun _ => .inr (.inr (.inl trivial)) }
  | startEach path index => exact noticing.startEach point_eq stepped
  | test => exact noticing.test point_eq stepped
  | loadHead use =>
      simp only [RunLoop.advance, point_eq, Option.some.injEq] at stepped
      subst stepped
      constructor
      · simp
      · intro unstarted
        simpa [Excused, Registering, point_eq, StartsAhead, Testing] using
          noticing.excused unstarted
  | loadTail use head => exact noticing.loadTail attentive point_eq stepped
  | drain path =>
      simp only [RunLoop.advance, point_eq] at stepped
      split at stepped
      · obtain rfl := Option.some.inj stepped
        exact noticing.carry (by simp [point_eq, StartsAhead]) (by simp [point_eq, Testing])
          rfl rfl rfl rfl (by cases path <;> simp [afterDrain])
          (by cases path <;> simp [afterDrain])
      · obtain rfl := Option.some.inj stepped
        exact noticing.carry (by simp [point_eq, StartsAhead]) (by simp [point_eq, Testing])
          rfl rfl rfl rfl (by simp) (by simp)
  | timers path =>
      simp only [RunLoop.advance, point_eq, Option.some.injEq] at stepped
      subst stepped
      cases path with
      | slow => exact .ahead trivial (by simp [afterTimers])
      | boot =>
          exact noticing.carry (by simp [point_eq, StartsAhead]) (by simp [point_eq, Testing])
            rfl rfl rfl rfl (by simp [afterTimers]) (by simp [afterTimers])
      | fast =>
          exact noticing.carry (by simp [point_eq, StartsAhead]) (by simp [point_eq, Testing])
            rfl rfl rfl rfl (by simp [afterTimers]) (by simp [afterTimers])
  | poll =>
      simp only [RunLoop.advance, point_eq, Option.ite_none_right_eq_some,
        Option.some.injEq] at stepped
      obtain ⟨-, rfl⟩ := stepped
      exact noticing.carry (by simp [point_eq, StartsAhead]) (by simp [point_eq, Testing])
        rfl rfl rfl rfl (by simp) (by simp)
  | sleep =>
      simp only [RunLoop.advance, point_eq, Option.some.injEq] at stepped
      subst stepped
      exact noticing.carry (by simp [point_eq, StartsAhead]) (by simp [point_eq, Testing])
        rfl rfl rfl rfl (by simp) (by simp)
  | retestStop =>
      simp only [RunLoop.advance, point_eq, Option.some.injEq] at stepped
      subst stepped
      exact noticing.carry (by simp [point_eq, StartsAhead]) (by simp [point_eq, Testing])
        rfl rfl rfl rfl (by cases before.stopRequested <;> simp) (by simp +contextual)
  | retreat =>
      simp only [RunLoop.advance, point_eq, Option.some.injEq] at stepped
      subst stepped
      exact noticing.carry (by simp [point_eq, StartsAhead]) (by simp [point_eq, Testing])
        rfl rfl rfl rfl (by simp) (by simp)
  | blocked =>
      simp only [RunLoop.advance, point_eq, Option.ite_none_right_eq_some,
        Option.some.injEq] at stepped
      obtain ⟨-, rfl⟩ := stepped
      exact .ahead trivial (by simp)
  | wake =>
      simp only [RunLoop.advance, point_eq, Option.some.injEq] at stepped
      subst stepped
      exact .ahead trivial (by simp)
  | events path => exact noticing.events point_eq keeps stepped
  | terminated => simp [RunLoop.advance, point_eq] at stepped

/-! ## Steps of the other threads -/

variable [DecidableEq θ]

/-- A registrar other than the moving thread still has its notice to give. -/
theorem Registering.setCaller {loop : RunLoop θ} {thread : θ} {point : CallPoint}
    (registering : loop.Registering) (other : loop.caller thread ≠ .registered) :
    (loop.setCaller thread point).Registering := by
  obtain ⟨registrar, registered⟩ := registering
  have distinct : registrar ≠ thread := by
    rintro rfl
    exact other registered
  exact ⟨registrar, by simpa [RunLoop.setCaller, distinct] using registered⟩

/-- A call that appends no component and writes nothing to `notify_fd` keeps registrations
noticed. -/
theorem Noticing.setCaller {before after : RunLoop θ} {thread : θ} {point : CallPoint}
    (noticing : before.Noticing) (other : before.caller thread ≠ .registered)
    (caller : after.caller = (before.setCaller thread point).caller)
    (components : after.components = before.components) (counter : after.counter = before.counter)
    (point_eq : after.point = before.point)
    (stop : before.stopRequested = true → after.stopRequested = true)
    (queue : before.head ≠ before.tail → after.head ≠ after.tail) : after.Noticing := by
  constructor
  · rw [point_eq, components]
    exact noticing.passed
  · intro unstarted
    rcases noticing.excused (by simpa [Unstarted, components] using unstarted) with
      readable | registering | starts | ⟨stopped, awake⟩ | ⟨waiting, testing⟩
    · exact .inl (counter ▸ readable)
    · exact .inr (.inl (by simpa [Registering, caller] using registering.setCaller other))
    · exact .inr (.inr (.inl (point_eq ▸ starts)))
    · exact .inr (.inr (.inr (.inl ⟨stop stopped, point_eq ▸ awake⟩)))
    · exact .inr (.inr (.inr (.inr ⟨queue waiting, point_eq ▸ testing⟩)))

theorem Noticing.caller_step {before after : RunLoop θ} {op : LoopOp θ}
    (noticing : before.Noticing) (caller_op : ∀ startOk ready, op ≠ .advance startOk ready)
    (stepped : before.step pollCycles op = some after) : after.Noticing := by
  cases callerStep caller_op stepped with
  | refused => exact noticing
  | enqueued thread buf idle room =>
      exact noticing.setCaller (by simp [idle]) rfl rfl rfl rfl id fun _ => Ne.symm room
  | looked thread enqueued => exact noticing.setCaller (by simp [enqueued]) rfl rfl rfl rfl id id
  | stopping thread idle =>
      exact noticing.setCaller (by simp [idle]) rfl rfl rfl rfl (fun _ => rfl) id
  | registered thread member idle unlocked =>
      constructor
      · intro path index inside
        have outside : before.point ≠ .startEach path index := by
          intro locked
          simp [componentLocked, locked] at unlocked
        exact absurd inside outside
      · exact fun _ => .inr (.inl ⟨thread, setCaller_caller_self ..⟩)
  | notified thread counter busy readable =>
      exact
        { passed := noticing.passed
          excused := fun _ => .inl readable }

/-! ## Runs -/

/-- Registrations stay noticed in every run whose reads of `notify_fd` are allowed. -/
theorem noticing_of_reach {loop : RunLoop θ}
    (reach : Reach (step pollCycles) KeepsNotice Initial loop) : loop.Noticing := by
  suffices both : loop.Attentive ∧ loop.Noticing from both.2
  apply Reach.invariant (fun state => Attentive state ∧ Noticing state) _ _ reach
  · exact fun _ initial => ⟨attentive_of_initial initial, noticing_of_initial initial⟩
  · rintro before op after ⟨attentive, noticing⟩ keeps stepped
    refine ⟨attentive.step stepped, ?_⟩
    cases op with
    | advance startOk ready => exact noticing.advance attentive keeps stepped
    | send thread buf => exact noticing.caller_step (by simp) stepped
    | loadSleeping thread => exact noticing.caller_step (by simp) stepped
    | stop thread => exact noticing.caller_step (by simp) stepped
    | register thread member => exact noticing.caller_step (by simp) stepped
    | writeNotify thread => exact noticing.caller_step (by simp) stepped

/-- If every read of `notify_fd` keeps the notices that are needed, then a loop that waits with an
unreadable `notify_fd` and without a registrar on its way has started all its components. -/
theorem started_of_blocked {loop : RunLoop θ}
    (reach : Reach (step pollCycles) KeepsNotice Initial loop) (blocked : loop.point = .blocked)
    (unreadable : loop.counter = 0) (settled : ∀ thread, loop.caller thread ≠ .registered) :
    ∀ member ∈ loop.components, member.status ≠ .inited := by
  intro member present inited
  rcases (noticing_of_reach reach).excused ⟨member, present, inited⟩ with
    readable | ⟨thread, registered⟩ | starts | ⟨-, awake⟩ | ⟨-, testing⟩
  · exact readable unreadable
  · exact settled thread registered
  · simp [blocked, StartsAhead] at starts
  · exact awake blocked
  · simp [blocked, Testing] at testing

/-- A component with a `start` function that is registered after its initialisation. -/
def newMember (comp : CompRef) : Member := { comp, hasStart := true, status := .inited }

/-- The loop sleeps, a component is registered, and the woken loop starts it. -/
def startedRun : List (LoopOp Unit) :=
  List.replicate 9 (.advance true []) ++
    [.register () (newMember 1), .writeNotify (), .advance true [.notify]] ++
    List.replicate 5 (.advance true [])

/-- The loop handles the notice and sleeps again. -/
def sleepAgain : List (LoopOp Unit) := List.replicate 10 (.advance true [])

/-- A component registered during a sleep is started before the next one. -/
theorem sleeper_starts_component :
    ∃ loop : RunLoop Unit, loop.point = .blocked ∧ loop.components.length = 1 ∧
      ∀ member ∈ loop.components, member.status ≠ .inited := by
  have execution :
      (runGuarded (step 0) KeepsNotice fresh (startedRun ++ sleepAgain)).map
        (fun loop => (loop.point, loop.counter, loop.components.length, loop.caller ())) =
      some (.blocked, 0, 1, .idle) := by
    decide +kernel
  obtain ⟨loop, ran, view⟩ := Option.map_eq_some_iff.mp execution
  obtain ⟨blocked, unreadable, single, settled⟩ :
      loop.point = .blocked ∧ loop.counter = 0 ∧ loop.components.length = 1 ∧
        loop.caller () = .idle := by
    simpa using view
  exact ⟨loop, blocked, single,
    started_of_blocked (reach_of_runGuarded (.start fresh_initial) ran) blocked unreadable
      (by simp [settled])⟩

/-- A component registered between `start_pending_components` and the read of `notify_fd` is left
behind by a loop that waits. -/
theorem registration_erased :
    ∃ loop : RunLoop Unit, Reachable (step 0) Initial loop ∧ loop.point = .blocked ∧
      loop.counter = 0 ∧ (∀ thread, loop.caller thread ≠ .registered) ∧
      ∃ member ∈ loop.components, member.status = .inited := by
  have execution :
      (run (step 0) fresh
          (startedRun ++ [.register () (newMember 2), .writeNotify ()] ++ sleepAgain)).map
        (fun loop => (loop.point, loop.counter, loop.components, loop.caller ())) =
      some (.blocked, 0, [{ newMember 1 with status := .active }, newMember 2], .idle) := by
    decide +kernel
  obtain ⟨loop, ran, view⟩ := Option.map_eq_some_iff.mp execution
  obtain ⟨blocked, unreadable, components, settled⟩ :
      loop.point = .blocked ∧ loop.counter = 0 ∧
        loop.components = [{ newMember 1 with status := .active }, newMember 2] ∧
          loop.caller () = .idle := by
    simpa using view
  refine ⟨loop, reachable_of_run (.start fresh_initial) ran, blocked, unreadable,
    by simp [settled], newMember 2, ?_, rfl⟩
  simp [components]

end RunLoop

end CodexNos.Scheduler
