import CodexNos.Lib.Transition
import CodexNos.Types

/-!
# The run loop of a scheduler thread

Other threads publish work to a scheduler thread in three ways: a sender puts a message into the
queue, a stopper sets `stop_requested`, a registrar appends a component.  Each of them then writes
`notify_fd`, the sender only if it reads that the thread sleeps.  The loop works on the queue while
it finds messages, and otherwise announces its sleep, looks once more and waits in `epoll_wait`.

Each access of a shared variable is a step, and so is a critical section of another thread.
-/

namespace CodexNos.Scheduler

/-- Address of a message buffer. -/
abbrev BufRef := Nat

/-- `MAX_EVENTS`. -/
def maxEvents : Nat := 10

/-- Largest value of an event counter (`eventfd`). -/
def maxCounter : Nat := 2 ^ 64 - 2

/-- A component of the thread. -/
structure Member where
  /-- Its address. -/
  comp : CompRef
  /-- Whether it has a `start` function. -/
  hasStart : Bool
  /-- Its status. -/
  status : CompStatus
  deriving DecidableEq, Repr

/-- Where a thread is that publishes work. -/
inductive CallPoint
  /-- In no call. -/
  | idle
  /-- `nos_transport_local_send` has queued the message: read `is_sleeping`. -/
  | enqueued
  /-- `nos_transport_local_send` has read that the thread sleeps: write `notify_fd`. -/
  | waking
  /-- `nos_scheduler_stop` has set `stop_requested`: write `notify_fd`. -/
  | stopping
  /-- `nos_scheduler_register_component` has appended the component: write `notify_fd`. -/
  | registered
  deriving DecidableEq, Repr

/-- The part of the loop that runs a helper. -/
inductive Path
  /-- Before the loop. -/
  | boot
  /-- After a successful emptiness test. -/
  | fast
  /-- After a sleep. -/
  | slow
  deriving DecidableEq, Repr

/-- The emptiness tests of the loop. -/
inductive QueueTest
  /-- In the busy wait, with the number of further rounds. -/
  | spin (left : Nat)
  /-- After the busy wait. -/
  | busy
  /-- After the announcement of the sleep. -/
  | retest
  deriving DecidableEq, Repr

/-- What `epoll_wait` reports. -/
inductive Event
  /-- `notify_fd` is readable. -/
  | notify
  /-- Another descriptor. -/
  | other
  deriving DecidableEq, Repr

/-- Where the scheduler thread is in `nos_scheduler_run_loop`. -/
inductive LoopPoint
  /-- `start_pending_components`: take the lock. -/
  | startLock (path : Path)
  /-- `start_pending_components`: look at a component. -/
  | startEach (path : Path) (index : Nat)
  /-- Loop test: read `stop_requested`. -/
  | test
  /-- Emptiness test: read `head`. -/
  | loadHead (use : QueueTest)
  /-- Emptiness test: read `tail`. -/
  | loadTail (use : QueueTest) (head : Nat)
  /-- `process_thread_messages`: take the next message. -/
  | drain (path : Path)
  /-- `process_timers`. -/
  | timers (path : Path)
  /-- `epoll_wait` without waiting. -/
  | poll
  /-- Announce the sleep. -/
  | sleep
  /-- Read `stop_requested` after the announcement. -/
  | retestStop
  /-- Take the announcement back and go on. -/
  | retreat
  /-- In `epoll_wait`. -/
  | blocked
  /-- Returned from `epoll_wait`: clear `is_sleeping`. -/
  | wake
  /-- Handle the next reported event. -/
  | events (path : Path)
  /-- Left the loop. -/
  | terminated
  deriving DecidableEq, Repr

/-- A scheduler thread and the threads that publish work to it. -/
structure RunLoop (θ : Type*) where
  /-- Ring of messages. -/
  msgQueue : Nat → BufRef
  /-- Place of the first message. -/
  head : Nat
  /-- Place behind the last message. -/
  tail : Nat
  /-- `is_sleeping`. -/
  isSleeping : Bool
  /-- `stop_requested`. -/
  stopRequested : Bool
  /-- Counter of `notify_fd`. -/
  counter : Nat
  /-- Components of the thread. -/
  components : List Member
  /-- Reported events that are not yet handled. -/
  pending : List Event
  /-- Messages taken from the queue, oldest first. -/
  dispatched : List BufRef
  /-- Where the thread is. -/
  point : LoopPoint
  /-- Where the other threads are. -/
  caller : θ → CallPoint

/-- A step of the loop or of another thread. -/
inductive LoopOp (θ : Type*)
  /-- Put a message into the queue. -/
  | send (thread : θ) (buf : BufRef)
  /-- Read `is_sleeping` after putting a message into the queue. -/
  | loadSleeping (thread : θ)
  /-- Set `stop_requested`. -/
  | stop (thread : θ)
  /-- Append a component. -/
  | register (thread : θ) (member : Member)
  /-- Write `notify_fd`. -/
  | writeNotify (thread : θ)
  /-- Next step of the loop; the result of a `start` and the events that `epoll_wait` reports. -/
  | advance (startOk : Bool) (ready : List Event)

namespace RunLoop

variable {θ : Type*}

/-- The first emptiness test of a round. -/
def spinFrom : Nat → LoopPoint
  | 0 => .loadHead .busy
  | left + 1 => .loadHead (.spin left)

/-- Where the loop goes after an emptiness test. -/
def afterTest (empty : Bool) : QueueTest → LoopPoint
  | .spin left => if empty then spinFrom left else .startLock .fast
  | .busy => if empty then .sleep else .startLock .fast
  | .retest => if empty then .retestStop else .retreat

/-- Where `start_pending_components` returns to. -/
def afterStart : Path → LoopPoint
  | .boot => .test
  | .fast => .drain .fast
  | .slow => .events .slow

/-- Where `process_thread_messages` returns to. -/
def afterDrain : Path → LoopPoint
  | .slow => .events .slow
  | _ => .timers .fast

/-- Where `process_timers` returns to. -/
def afterTimers : Path → LoopPoint
  | .slow => .startLock .slow
  | _ => .poll

/-- `start_pending_components` on one component. -/
def startMember (startOk : Bool) (member : Member) : Member :=
  if member.status = .inited then
    { member with status := if !member.hasStart || startOk then .active else .error }
  else member

/-- The events that `epoll_wait` can report. -/
def CanReport (loop : RunLoop θ) (ready : List Event) : Prop :=
  ready.length ≤ maxEvents ∧ ready.count .notify ≤ 1 ∧ (.notify ∈ ready → loop.counter ≠ 0)

instance (loop : RunLoop θ) (ready : List Event) : Decidable (loop.CanReport ready) := by
  unfold CanReport
  infer_instance

/-- Handle the next event: read `notify_fd`, after a sleep also work on the queue. -/
def handleEvent (loop : RunLoop θ) (path : Path) : RunLoop θ :=
  match loop.pending with
  | [] => { loop with point := .test }
  | .other :: rest => { loop with pending := rest }
  | .notify :: rest =>
      { loop with
        counter := 0
        pending := rest
        point := if loop.counter ≠ 0 && path = .slow then .drain .slow else .events path }

/-- Next step of the loop. -/
def advance (pollCycles : Nat) (loop : RunLoop θ) (startOk : Bool) (ready : List Event) :
    Option (RunLoop θ) :=
  match loop.point with
  | .startLock path => some { loop with point := .startEach path 0 }
  | .startEach path index =>
      match loop.components[index]? with
      | none => some { loop with point := afterStart path }
      | some member =>
          some
            { loop with
              components := loop.components.set index (startMember startOk member)
              point := .startEach path (index + 1) }
  | .test =>
      some { loop with point := if loop.stopRequested then .terminated else spinFrom pollCycles }
  | .loadHead use => some { loop with point := .loadTail use loop.head }
  | .loadTail use head => some { loop with point := afterTest (head == loop.tail) use }
  | .drain path =>
      if loop.head = loop.tail then some { loop with point := afterDrain path }
      else
        some
          { loop with
            head := (loop.head + 1) % maxQueueSize
            dispatched := loop.dispatched ++ [loop.msgQueue loop.head] }
  | .timers path => some { loop with point := afterTimers path }
  | .poll =>
      if loop.CanReport ready then some { loop with pending := ready, point := .events .fast }
      else none
  | .sleep => some { loop with isSleeping := true, point := .loadHead .retest }
  | .retestStop =>
      some { loop with point := if loop.stopRequested then .retreat else .blocked }
  | .retreat => some { loop with isSleeping := false, point := .test }
  | .blocked =>
      if loop.CanReport ready then some { loop with pending := ready, point := .wake } else none
  | .wake => some { loop with isSleeping := false, point := .timers .slow }
  | .events path => some (loop.handleEvent path)
  | .terminated => none

/-- The thread holds the component lock. -/
def componentLocked (loop : RunLoop θ) : Bool :=
  match loop.point with
  | .startEach _ _ => true
  | _ => false

variable [DecidableEq θ]

/-- Move a calling thread. -/
def setCaller (loop : RunLoop θ) (thread : θ) (point : CallPoint) : RunLoop θ :=
  { loop with caller := Function.update loop.caller thread point }

/-- `nos_transport_local_send` up to the release of the queue lock. -/
def enqueue (loop : RunLoop θ) (thread : θ) (buf : BufRef) : RunLoop θ × Status :=
  let nextTail := (loop.tail + 1) % maxQueueSize
  if nextTail = loop.head then (loop, .errBusy)
  else
    ({ loop.setCaller thread .enqueued with
        msgQueue := Function.update loop.msgQueue loop.tail buf
        tail := nextTail }, .ok)

/-- `nos_scheduler_register_component` up to the release of the component lock. -/
def append (loop : RunLoop θ) (thread : θ) (member : Member) : RunLoop θ × Status :=
  if maxCompPerThread ≤ loop.components.length then (loop, .err)
  else
    ({ loop.setCaller thread .registered with components := loop.components ++ [member] }, .ok)

/-- Perform one step. -/
def step (pollCycles : Nat) (loop : RunLoop θ) : LoopOp θ → Option (RunLoop θ)
  | .send thread buf =>
      if loop.caller thread = .idle then some (loop.enqueue thread buf).1 else none
  | .loadSleeping thread =>
      if loop.caller thread = .enqueued then
        some (loop.setCaller thread (if loop.isSleeping then .waking else .idle))
      else none
  | .stop thread =>
      if loop.caller thread = .idle then
        some { loop.setCaller thread .stopping with stopRequested := true }
      else none
  | .register thread member =>
      if loop.caller thread = .idle && !loop.componentLocked then
        some (loop.append thread member).1
      else none
  | .writeNotify thread =>
      match loop.caller thread with
      | .waking | .stopping | .registered =>
          some
            { loop.setCaller thread .idle with
              counter := if loop.counter < maxCounter then loop.counter + 1 else loop.counter }
      | .idle | .enqueued => none
  | .advance startOk ready => loop.advance pollCycles startOk ready

/-- The loop is just called, and no other thread is in a call. -/
structure Initial (loop : RunLoop θ) : Prop where
  point : loop.point = .startLock .boot
  idle : ∀ thread, loop.caller thread = .idle
  awake : loop.isSleeping = false
  pending : loop.pending = []

/-- A thread after `nos_scheduler_init_thread`. -/
def fresh : RunLoop θ where
  msgQueue := fun _ => 0
  head := 0
  tail := 0
  isSleeping := false
  stopRequested := false
  counter := 0
  components := []
  pending := []
  dispatched := []
  point := .startLock .boot
  caller := fun _ => .idle

omit [DecidableEq θ] in
theorem fresh_initial : (fresh : RunLoop θ).Initial where
  point := rfl
  idle := fun _ => rfl
  awake := rfl
  pending := rfl

end RunLoop

end CodexNos.Scheduler
