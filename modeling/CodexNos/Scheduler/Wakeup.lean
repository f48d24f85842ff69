import CodexNos.Scheduler.RunLoop

/-!
# Messages and stop requests wake the loop

The loop announces its sleep before it looks at the queue and at `stop_requested` for the last
time.  A sender that puts a message into the queue after this look reads the announcement after
it, and a stopper always writes `notify_fd`.  So a loop that waits while there is work has a
readable `notify_fd`, or somebody has still to write it.
-/

namespace CodexNos.Scheduler

open Lib.Transition

namespace RunLoop

variable {θ : Type*}

/-- The points between the announcement of a sleep and its end. -/
def Announced : LoopPoint → Prop
  | .loadHead .retest | .loadTail .retest _ | .retestStop | .retreat | .blocked | .wake => True
  | _ => False

/-- The points after the last look at the queue. -/
def Committed : LoopPoint → Prop
  | .retestStop | .blocked => True
  | _ => False

/-- A sender or stopper has published and has not yet read `is_sleeping` or written `notify_fd`. -/
def Owes (loop : RunLoop θ) (thread : θ) : Prop :=
  loop.caller thread = .enqueued ∨ loop.caller thread = .waking ∨ loop.caller thread = .stopping

/-- `notify_fd` is readable or somebody has still to see to it. -/
def Alerted (loop : RunLoop θ) : Prop := loop.counter ≠ 0 ∨ ∃ thread, loop.Owes thread

/-- What makes the handshake work. -/
structure Attentive (loop : RunLoop θ) : Prop where
  /-- The announcement stands. -/
  announced : Announced loop.point → loop.isSleeping = true
  /-- Only the loop moves `head`. -/
  loaded : ∀ use head, loop.point = .loadTail use head → head = loop.head
  /-- A message behind the last look at the queue is noticed. -/
  queued : Committed loop.point → loop.head ≠ loop.tail → loop.Alerted
  /-- A stop request behind the last look at `stop_requested` is noticed. -/
  stopping : loop.point = .blocked → loop.stopRequested = true → loop.Alerted

theorem announced_of_committed {point : LoopPoint} (committed : Committed point) :
    Announced point := by
  cases point <;> simp_all [Committed, Announced]

theorem attentive_of_initial {loop : RunLoop θ} (initial : loop.Initial) : loop.Attentive where
  announced := by simp [initial.point, Announced]
  loaded := by simp [initial.point]
  queued := by simp [initial.point, Committed]
  stopping := by simp [initial.point]

variable [DecidableEq θ] {pollCycles : Nat}

/-! ## Steps of the other threads -/

@[simp]
theorem setCaller_point (loop : RunLoop θ) (thread : θ) (point : CallPoint) :
    (loop.setCaller thread point).point = loop.point := rfl

@[simp]
theorem setCaller_head (loop : RunLoop θ) (thread : θ) (point : CallPoint) :
    (loop.setCaller thread point).head = loop.head := rfl

@[simp]
theorem setCaller_tail (loop : RunLoop θ) (thread : θ) (point : CallPoint) :
    (loop.setCaller thread point).tail = loop.tail := rfl

@[simp]
theorem setCaller_counter (loop : RunLoop θ) (thread : θ) (point : CallPoint) :
    (loop.setCaller thread point).counter = loop.counter := rfl

@[simp]
theorem setCaller_isSleeping (loop : RunLoop θ) (thread : θ) (point : CallPoint) :
    (loop.setCaller thread point).isSleeping = loop.isSleeping := rfl

@[simp]
theorem setCaller_caller_self (loop : RunLoop θ) (thread : θ) (point : CallPoint) :
    (loop.setCaller thread point).caller thread = point := by simp [setCaller]

/-- What the steps of the other threads do. -/
inductive CallerStep (before : RunLoop θ) : LoopOp θ → RunLoop θ → Prop
  /-- The queue or the component list is full. -/
  | refused (op : LoopOp θ) : CallerStep before op before
  /-- A message goes into the queue. -/
  | enqueued (thread : θ) (buf : BufRef) (idle : before.caller thread = .idle)
      (room : (before.tail + 1) % maxQueueSize ≠ before.head) :
      CallerStep before (.send thread buf)
        { before.setCaller thread .enqueued with
          msgQueue := Function.update before.msgQueue before.tail buf
          tail := (before.tail + 1) % maxQueueSize }
  /-- The sender has read `is_sleeping`. -/
  | looked (thread : θ) (enqueued : before.caller thread = .enqueued) :
      CallerStep before (.loadSleeping thread)
        (before.setCaller thread (if before.isSleeping then .waking else .idle))
  /-- `stop_requested` is set. -/
  | stopping (thread : θ) (idle : before.caller thread = .idle) :
      CallerStep before (.stop thread)
        { before.setCaller thread .stopping with stopRequested := true }
  /-- A component goes into the list. -/
  | registered (thread : θ) (member : Member) (idle : before.caller thread = .idle)
      (unlocked : before.componentLocked = false) :
      CallerStep before (.register thread member)
        { before.setCaller thread .registered with components := before.components ++ [member] }
  /-- A write to `notify_fd` finishes a call. -/
  | notified (thread : θ) (counter : Nat) (busy : before.caller thread ≠ .idle)
      (readable : counter ≠ 0) :
      CallerStep before (.writeNotify thread)
        { before.setCaller thread .idle with counter := counter }

theorem callerStep {before after : RunLoop θ} {op : LoopOp θ}
    (caller_op : ∀ startOk ready, op ≠ .advance startOk ready)
    (stepped : before.step pollCycles op = some after) : CallerStep before op after := by
  cases op with
  | send thread buf =>
      simp only [step, Option.ite_none_right_eq_some, Option.some.injEq] at stepped
      obtain ⟨idle, rfl⟩ := stepped
      unfold enqueue
      dsimp only
      split
      · exact .refused _
      · rename_i room
        exact .enqueued thread buf idle room
  | loadSleeping thread =>
      simp only [step, Option.ite_none_right_eq_some, Option.some.injEq] at stepped
      obtain ⟨enqueued, rfl⟩ := stepped
      exact .looked thread enqueued
  | stop thread =>
      simp only [step, Option.ite_none_right_eq_some, Option.some.injEq] at stepped
      obtain ⟨idle, rfl⟩ := stepped
      exact .stopping thread idle
  | register thread member =>
      simp only [step, Option.ite_none_right_eq_some, Option.some.injEq, Bool.and_eq_true,
        decide_eq_true_eq, Bool.not_eq_true'] at stepped
      obtain ⟨⟨idle, unlocked⟩, rfl⟩ := stepped
      unfold append
      split
      · exact .refused _
      · exact .registered thread member idle unlocked
  | writeNotify thread =>
      have raised : (if before.counter < maxCounter then before.counter + 1 else before.counter) ≠
          0 := by
        unfold maxCounter
        split <;> omega
      simp only [step] at stepped
      split at stepped
      case h_4 => cases stepped
      case h_5 => cases stepped
      all_goals
        rename_i caller_eq
        obtain rfl := Option.some.inj stepped
        exact .notified thread _ (by simp [caller_eq]) raised
  | advance startOk ready => exact absurd rfl (caller_op startOk ready)

/-- The other threads leave the loop, its announcement and `head` alone. -/
theorem frame_of_caller {before after : RunLoop θ} {op : LoopOp θ}
    (caller_op : ∀ startOk ready, op ≠ .advance startOk ready)
    (stepped : before.step pollCycles op = some after) :
    after.point = before.point ∧ after.head = before.head ∧
      after.isSleeping = before.isSleeping := by
  cases callerStep caller_op stepped <;> exact ⟨rfl, rfl, rfl⟩

/-- A caller changes the queue only by a message, about which it then owes a notice. -/
theorem caller_queue {before after : RunLoop θ} {op : LoopOp θ}
    (caller_op : ∀ startOk ready, op ≠ .advance startOk ready)
    (stepped : before.step pollCycles op = some after) :
    (after.msgQueue = before.msgQueue ∧ after.head = before.head ∧ after.tail = before.tail) ∨
      (∃ thread buf, op = .send thread buf ∧ after.Owes thread) ∧ after.head = before.head ∧
        after.tail = (before.tail + 1) % maxQueueSize := by
  cases callerStep caller_op stepped with
  | enqueued thread buf idle room =>
      exact .inr ⟨⟨thread, buf, rfl, .inl (setCaller_caller_self ..)⟩, rfl, rfl⟩
  | refused => exact .inl ⟨rfl, rfl, rfl⟩
  | looked => exact .inl ⟨rfl, rfl, rfl⟩
  | stopping => exact .inl ⟨rfl, rfl, rfl⟩
  | registered => exact .inl ⟨rfl, rfl, rfl⟩
  | notified => exact .inl ⟨rfl, rfl, rfl⟩

theorem caller_stopRequested {before after : RunLoop θ} {op : LoopOp θ}
    (caller_op : ∀ startOk ready, op ≠ .advance startOk ready)
    (stepped : before.step pollCycles op = some after) :
    after.stopRequested = before.stopRequested ∨ ∃ thread, after.Owes thread := by
  cases callerStep caller_op stepped with
  | stopping thread idle => exact .inr ⟨thread, .inr (.inr (setCaller_caller_self ..))⟩
  | refused => exact .inl rfl
  | enqueued => exact .inl rfl
  | looked => exact .inl rfl
  | registered => exact .inl rfl
  | notified => exact .inl rfl

/-- While the loop announces its sleep, a notice does not get lost. -/
theorem Alerted.caller_step {before after : RunLoop θ} {op : LoopOp θ} (alerted : before.Alerted)
    (sleeping : before.isSleeping = true) (caller_op : ∀ startOk ready, op ≠ .advance startOk ready)
    (stepped : before.step pollCycles op = some after) : after.Alerted := by
  cases callerStep caller_op stepped with
  | refused => exact alerted
  | enqueued thread buf idle room => exact .inr ⟨thread, .inl (setCaller_caller_self ..)⟩
  | looked thread enqueued => exact .inr ⟨thread, .inr (.inl (by simp [sleeping]))⟩
  | stopping thread idle => exact .inr ⟨thread, .inr (.inr (setCaller_caller_self ..))⟩
  | registered thread member idle unlocked =>
      obtain readable | ⟨other, owes⟩ := alerted
      · exact .inl readable
      · have distinct : other ≠ thread := by
          rintro rfl
          simp [Owes, idle] at owes
        exact .inr ⟨other, by simpa [Owes, setCaller, distinct] using owes⟩
  | notified thread counter busy readable => exact .inl readable

theorem Attentive.caller_step {before after : RunLoop θ} {op : LoopOp θ}
    (attentive : before.Attentive) (caller_op : ∀ startOk ready, op ≠ .advance startOk ready)
    (stepped : before.step pollCycles op = some after) : after.Attentive := by
  obtain ⟨point_eq, head_eq, sleeping_eq⟩ := frame_of_caller caller_op stepped
  constructor
  · intro announced
    rw [sleeping_eq]
    exact attentive.announced (point_eq ▸ announced)
  · intro use head loaded
    rw [head_eq]
    exact attentive.loaded use head (point_eq ▸ loaded)
  · intro committed queue
    have committed_before : Committed before.point := point_eq ▸ committed
    have sleeping := attentive.announced (announced_of_committed committed_before)
    rcases caller_queue caller_op stepped with ⟨-, -, tail_eq⟩ | ⟨⟨thread, buf, -, owes⟩, -⟩
    · rw [head_eq, tail_eq] at queue
      exact (attentive.queued committed_before queue).caller_step sleeping caller_op stepped
    · exact .inr ⟨thread, owes⟩
  · intro blocked stop
    have blocked_before : before.point = .blocked := point_eq ▸ blocked
    have sleeping := attentive.announced (by simp [blocked_before, Announced])
    rcases caller_stopRequested caller_op stepped with stop_eq | owed
    · rw [stop_eq] at stop
      exact (attentive.stopping blocked_before stop).caller_step sleeping caller_op stepped
    · exact .inr owed

/-! ## Steps of the loop -/

omit [DecidableEq θ]

theorem announced_spinFrom (left : Nat) : ¬ Announced (spinFrom left) := by
  cases left <;> simp [spinFrom, Announced]

theorem loadTail_ne_spinFrom (left : Nat) (use : QueueTest) (head : Nat) :
    spinFrom left ≠ .loadTail use head := by
  cases left <;> simp [spinFrom]

/-- Away from the announced points the handshake asks for nothing. -/
theorem Attentive.unannounced {loop : RunLoop θ} (unannounced : ¬ Announced loop.point)
    (loaded : ∀ use head, loop.point = .loadTail use head → head = loop.head) :
    loop.Attentive where
  announced := fun announced => absurd announced unannounced
  loaded := loaded
  queued := fun committed => absurd (announced_of_committed committed) unannounced
  stopping := by
    intro blocked
    simp [blocked, Announced] at unannounced

theorem Attentive.advance {before after : RunLoop θ} {startOk : Bool} {ready : List Event}
    (attentive : before.Attentive)
    (stepped : before.advance pollCycles startOk ready = some after) : after.Attentive := by
  cases point_eq : before.point with
  | startLock path =>
      simp only [RunLoop.advance, point_eq, Option.some.injEq] at stepped
      subst stepped
      exact .unannounced (by simp [Announced]) (by simp)
  | startEach path index =>
      simp only [RunLoop.advance, point_eq] at stepped
      split at stepped
      · obtain rfl := Option.some.inj stepped
        cases path <;> exact .unannounced (by simp [afterStart, Announced]) (by simp [afterStart])
      · obtain rfl := Option.some.inj stepped
        exact .unannounced (by simp [Announced]) (by simp)
  | test =>
      simp only [RunLoop.advance, point_eq, Option.some.injEq] at stepped
      subst stepped
      apply Attentive.unannounced
      · dsimp only
        split
        · simp [Announced]
        · exact announced_spinFrom pollCycles
      · intro use head
        dsimp only
        split
        · simp
        · exact fun loaded => absurd loaded (loadTail_ne_spinFrom _ _ _)
  | loadHead use =>
      simp only [RunLoop.advance, point_eq, Option.some.injEq] at stepped
      subst stepped
      have announced := attentive.announced
      rw [point_eq] at announced
      cases use with
      | spin left => exact .unannounced (by simp [Announced]) (by simp)
      | busy => exact .unannounced (by simp [Announced]) (by simp)
      | retest =>
          exact
            { announced := fun _ => announced trivial
              loaded := by simp
              queued := by simp [Committed]
              stopping := by simp }
  | loadTail use head =>
      simp only [RunLoop.advance, point_eq, Option.some.injEq] at stepped
      subst stepped
      have announced := attentive.announced
      rw [point_eq] at announced
      have own : head = before.head := attentive.loaded use head point_eq
      cases use with
      | spin left =>
          apply Attentive.unannounced
          · cases head == before.tail
            · simp [afterTest, Announced]
            · simpa [afterTest] using announced_spinFrom left
          · intro use' head'
            cases head == before.tail
            · simp [afterTest]
            · intro loaded
              exact absurd loaded (loadTail_ne_spinFrom _ _ _)
      | busy =>
          apply Attentive.unannounced
          · cases head == before.tail <;> simp [afterTest, Announced]
          · cases head == before.tail <;> simp [afterTest]
      | retest =>
          constructor
          · exact fun _ => announced trivial
          · cases head == before.tail <;> simp [afterTest]
          · intro committed queue
            have busy : (head == before.tail) = false := by simpa [own] using queue
            simp [afterTest, busy, Committed] at committed
          · cases head == before.tail <;> simp [afterTest]
  | drain path =>
      simp only [RunLoop.advance, point_eq] at stepped
      split at stepped
      · obtain rfl := Option.some.inj stepped
        cases path <;> exact .unannounced (by simp [afterDrain, Announced]) (by simp [afterDrain])
      · obtain rfl := Option.some.inj stepped
        exact .unannounced (by simp [Announced]) (by simp)
  | timers path =>
      simp only [RunLoop.advance, point_eq, Option.some.injEq] at stepped
      subst stepped
      cases path <;> exact .unannounced (by simp [afterTimers, Announced]) (by simp [afterTimers])
  | poll =>
      simp only [RunLoop.advance, point_eq, Option.ite_none_right_eq_some,
        Option.some.injEq] at stepped
      obtain ⟨-, rfl⟩ := stepped
      exact .unannounced (by simp [Announced]) (by simp)
  | sleep =>
      simp only [RunLoop.advance, point_eq, Option.some.injEq] at stepped
      subst stepped
      exact
        { announced := fun _ => rfl
          loaded := by simp
          queued := by simp [Committed]
          stopping := by simp }
  | retestStop =>
      simp only [RunLoop.advance, point_eq, Option.some.injEq] at stepped
      subst stepped
      have announced := attentive.announced
      have queued := attentive.queued
      rw [point_eq] at announced queued
      cases stop : before.stopRequested with
      | true =>
          exact
            { announced := fun _ => announced trivial
              loaded := by simp
              queued := by simp [Committed]
              stopping := by simp }
      | false =>
          exact
            { announced := fun _ => announced trivial
              loaded := by simp
              queued := fun _ => queued trivial
              stopping := by simp }
  | retreat =>
      simp only [RunLoop.advance, point_eq, Option.some.injEq] at stepped
      subst stepped
      exact .unannounced (by simp [Announced]) (by simp)
  | blocked =>
      simp only [RunLoop.advance, point_eq, Option.ite_none_right_eq_some,
        Option.some.injEq] at stepped
      obtain ⟨-, rfl⟩ := stepped
      have announced := attentive.announced
      rw [point_eq] at announced
      exact
        { announced := fun _ => announced trivial
          loaded := by simp
          queued := by simp [Committed]
          stopping := by simp }
  | wake =>
      simp only [RunLoop.advance, point_eq, Option.some.injEq] at stepped
      subst stepped
      exact .unannounced (by simp [Announced]) (by simp)
  | events path =>
      simp only [RunLoop.advance, point_eq, Option.some.injEq] at stepped
      subst stepped
      unfold handleEvent
      split
      · exact .unannounced (by simp [Announced]) (by simp)
      · exact .unannounced (by simp [point_eq, Announced]) (by simp [point_eq])
      · apply Attentive.unannounced
        · dsimp only
          split <;> simp [Announced]
        · dsimp only
          split <;> simp
  | terminated => simp [RunLoop.advance, point_eq] at stepped

/-! ## Runs -/

variable [DecidableEq θ]

theorem Attentive.step {before after : RunLoop θ} {op : LoopOp θ} (attentive : before.Attentive)
    (stepped : before.step pollCycles op = some after) : after.Attentive := by
  cases op with
  | advance startOk ready => exact attentive.advance stepped
  | send thread buf => exact attentive.caller_step (by simp) stepped
  | loadSleeping thread => exact attentive.caller_step (by simp) stepped
  | stop thread => exact attentive.caller_step (by simp) stepped
  | register thread member => exact attentive.caller_step (by simp) stepped
  | writeNotify thread => exact attentive.caller_step (by simp) stepped

theorem attentive_of_reachable {loop : RunLoop θ}
    (reach : Reachable (step pollCycles) Initial loop) : loop.Attentive :=
  Reach.invariant Attentive (fun _ initial => attentive_of_initial initial)
    (fun _ _ _ attentive _ stepped => attentive.step stepped) reach

/-- A loop that waits while its queue holds a message or a stop is requested has a readable
`notify_fd`, or a sender or stopper that has published has still to see to it. -/
theorem alerted_of_work {loop : RunLoop θ}
    (reach : Reachable (step pollCycles) Initial loop) (blocked : loop.point = .blocked)
    (work : loop.head ≠ loop.tail ∨ loop.stopRequested = true) :
    loop.counter ≠ 0 ∨ ∃ thread, loop.Owes thread := by
  have attentive := attentive_of_reachable reach
  obtain queue | stop := work
  · exact attentive.queued (by simp [blocked, Committed]) queue
  · exact attentive.stopping blocked stop

/-- A message queued after the last look at the queue is noticed. -/
theorem late_message_alerts :
    ∃ loop : RunLoop Unit, loop.point = .blocked ∧ loop.head ≠ loop.tail ∧
      (loop.counter ≠ 0 ∨ ∃ thread, loop.Owes thread) := by
  have execution :
      (run (step 1) fresh
          (List.replicate 11 (.advance true []) ++ [.send () 7])).map
        (fun loop => (loop.point, loop.head, loop.tail)) = some (.blocked, 0, 1) := by
    decide +kernel
  obtain ⟨loop, ran, view⟩ := Option.map_eq_some_iff.mp execution
  obtain ⟨blocked, queue⟩ : loop.point = .blocked ∧ loop.head = 0 ∧ loop.tail = 1 := by
    simpa using view
  have work : loop.head ≠ loop.tail := by omega
  exact ⟨loop, blocked, work,
    alerted_of_work (reachable_of_run (.start fresh_initial) ran) blocked (.inl work)⟩

end RunLoop

end CodexNos.Scheduler
