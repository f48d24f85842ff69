import CodexNos.Scheduler.Timer

/-!
# Timer callbacks that use timers

`process_timers` takes a due timer out of its heap, drops the lock, runs the callback and then puts
a periodic timer back.  In between, the callback and other threads may call the timer functions on
any timer, the fired one included.  A step is one call or one stretch of `process_timers` between
two points where other code can run; the events are recorded, newest first.
-/

namespace CodexNos.Scheduler

/-- A timer that `process_timers` has taken out of a heap. -/
structure Firing where
  /-- The timer. -/
  ref : TimerRef
  /-- The callback was called, or the test before it failed. -/
  called : Bool
  deriving DecidableEq, Repr

/-- What happens to a timer. -/
inductive TimerEvent
  /-- `nos_timer_start` succeeded. -/
  | start (ref : TimerRef)
  /-- `nos_timer_stop` was called. -/
  | stop (ref : TimerRef)
  /-- The callback was called. -/
  | invoke (ref : TimerRef)
  deriving DecidableEq, Repr

/-- Timers of a node and what the threads do with them. -/
structure FiringSys where
  /-- Heaps, timer objects and component states. -/
  sys : TimerSys
  /-- The timer that a thread is firing. -/
  firing : ThreadRef → Option Firing
  /-- Events, newest first. -/
  history : List TimerEvent

/-- A call, or a stretch of `process_timers`. -/
inductive FiringOp
  /-- A call of a timer function, or a change of states or component lists. -/
  | call (op : TimerSys.TimerOp)
  /-- The thread takes out its root if it is due. -/
  | pop (thread : ThreadRef) (now : Nat)
  /-- The thread tests the owner and calls the callback. -/
  | invoke (thread : ThreadRef)
  /-- The callback has returned: the thread puts a periodic timer back. -/
  | rearm (thread : ThreadRef) (now : Nat)

namespace FiringSys

/-- Some thread is firing the timer. -/
def isFiring (state : FiringSys) (ref : TimerRef) : Bool :=
  (List.range state.sys.threadCount).any fun thread =>
    (state.firing thread).any fun firing => firing.ref = ref

/-- Execute a call.  A timer that is being fired is read again after its callback, so a call that
frees it has no defined continuation; `process_timers` itself is not a call. -/
def call (state : FiringSys) : TimerSys.TimerOp → Option FiringSys
  | .start self (some ref) intervalMs isPeriodic now =>
      (state.sys.nosTimerStart self (some ref) intervalMs isPeriodic now).map fun started =>
        { state with
          sys := started.1
          history := if started.2 = .ok then .start ref :: state.history else state.history }
  | .stop self (some ref) =>
      (state.sys.nosTimerStop self (some ref)).map fun stopped =>
        { state with
          sys := stopped.1
          history := .stop ref :: state.history }
  | .delete (some ref) =>
      if state.isFiring ref then none
      else (state.sys.nosTimerDelete (some ref)).map fun sys => { state with sys := sys }
  | .process _ _ => none
  | op => (state.sys.step op).map fun sys => { state with sys := sys }

/-- Replace what a thread is firing. -/
def setFiring (state : FiringSys) (thread : ThreadRef) (firing : Option Firing) : FiringSys :=
  { state with firing := Function.update state.firing thread firing }

/-- First critical section of a turn of `process_timers`. -/
def pop (state : FiringSys) (thread : ThreadRef) (now : Nat) : Option FiringSys :=
  match state.firing thread with
  | some _ => none
  | none =>
      match state.sys.popDue thread now with
      | none => some state
      | some (ref, popped) => some ({ state with sys := popped }.setFiring thread (some ⟨ref, false⟩))

/-- The test of the owner, and the call of the callback. -/
def invoke (state : FiringSys) (thread : ThreadRef) : Option FiringSys :=
  match state.firing thread with
  | some ⟨ref, false⟩ =>
      (state.sys.timer ref).map fun timer =>
        let called := state.setFiring thread (some ⟨ref, true⟩)
        if state.sys.ownerActive timer && timer.callback.isSome then
          { called with history := .invoke ref :: state.history }
        else called
  | _ => none

/-- What `process_timers` does after the callback. -/
def rearm (state : FiringSys) (thread : ThreadRef) (now : Nat) : Option FiringSys :=
  match state.firing thread with
  | some ⟨ref, true⟩ =>
      (state.sys.timer ref).map fun timer =>
        let done := state.setFiring thread none
        if timer.isPeriodic && state.sys.ownerActive timer then
          { done with sys := state.sys.rearm thread ref timer now }
        else done
  | _ => none

/-- Perform one step. -/
def step (state : FiringSys) : FiringOp → Option FiringSys
  | .call op => state.call op
  | .pop thread now => if thread < state.sys.threadCount then state.pop thread now else none
  | .invoke thread => if thread < state.sys.threadCount then state.invoke thread else none
  | .rearm thread now => if thread < state.sys.threadCount then state.rearm thread now else none

/-- Freshly initialised threads that fire nothing. -/
structure Initial (state : FiringSys) : Prop where
  fresh : state.sys.Initial
  idle : ∀ thread, state.firing thread = none
  history : state.history = []

end FiringSys

end CodexNos.Scheduler
