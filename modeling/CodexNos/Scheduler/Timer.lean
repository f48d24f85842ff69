import CodexNos.Types
import CodexNos.Lib.BinaryHeap

/-!
# Timers of the scheduler

Each scheduler thread keeps its armed timers in an array-backed min-heap ordered by expiry time.
The heap stores addresses; the expiry lives in the timer object.  A call on a freed timer has no
defined behaviour and therefore no result here.
-/

namespace CodexNos.Scheduler

open Lib

/-- A timer object (`struct nos_timer_s`). -/
structure Timer where
  /-- Expiry time on the monotonic clock. -/
  expireAtMs : Nat
  /-- Requested interval. -/
  intervalMs : Nat
  /-- Whether the timer is re-armed after it fired. -/
  isPeriodic : Bool
  /-- Callback address, absent when null. -/
  callback : Option Nat
  /-- Argument handed to the callback. -/
  arg : Nat
  /-- Whether the timer is armed. -/
  isRunning : Bool
  /-- Component that started the timer. -/
  owner : Option CompRef
  /-- Thread whose heap holds the timer. -/
  ownerThread : Option ThreadRef
  deriving DecidableEq, Repr

/-- The part of a scheduler thread that the timer functions read. -/
structure TimerThread where
  /-- Components registered with the thread, in table order. -/
  components : List CompRef
  /-- Heap array up to its current size. -/
  nodes : Array TimerRef
  /-- Number of heap places. -/
  capacity : Nat

/-- Timer objects, scheduler threads and component states of one node. -/
structure TimerSys where
  /-- Number of threads: the management thread followed by the workers. -/
  threadCount : Nat
  /-- Threads by address. -/
  thread : ThreadRef → TimerThread
  /-- Timer objects by address, absent when not allocated. -/
  timer : TimerRef → Option Timer
  /-- Component states by address. -/
  status : CompRef → CompStatus

namespace TimerSys

/-- Expiry time read through a heap node. -/
def expireAt (sys : TimerSys) (ref : TimerRef) : Nat :=
  match sys.timer ref with
  | some timer => timer.expireAtMs
  | none => 0

/-- Heap array of a thread. -/
abbrev nodes (sys : TimerSys) (thread : ThreadRef) : Array TimerRef :=
  (sys.thread thread).nodes

/-- Replace one timer object. -/
def setTimer (sys : TimerSys) (ref : TimerRef) (timer : Option Timer) : TimerSys :=
  { sys with timer := Function.update sys.timer ref timer }

/-- Replace the heap array of one thread. -/
def setNodes (sys : TimerSys) (thread : ThreadRef) (nodes : Array TimerRef) : TimerSys :=
  { sys with
    thread := Function.update sys.thread thread { sys.thread thread with nodes := nodes } }

/-- Restore the heap order upwards from `index`. -/
def heapifyUp (sys : TimerSys) (thread : ThreadRef) (index : Nat) : TimerSys :=
  sys.setNodes thread (BinaryHeap.siftUp sys.expireAt (sys.nodes thread) index)

/-- Restore the heap order downwards from `index`. -/
def heapifyDown (sys : TimerSys) (thread : ThreadRef) (index : Nat) : TimerSys :=
  sys.setNodes thread (BinaryHeap.siftDown sys.expireAt (sys.nodes thread) index)

/-- First thread whose component table holds the component. -/
def findThreadOfComponent (sys : TimerSys) (comp : CompRef) : Option ThreadRef :=
  (List.range sys.threadCount).find? fun thread => comp ∈ (sys.thread thread).components

/-- Allocate a zeroed timer object with a callback. -/
def nosTimerCreate (sys : TimerSys) (ref : TimerRef) (callback : Option Nat) (arg : Nat) :
    Option TimerSys :=
  match sys.timer ref with
  | some _ => none
  | none =>
      some <| sys.setTimer ref <| some
        { expireAtMs := 0
          intervalMs := 0
          isPeriodic := false
          callback := callback
          arg := arg
          isRunning := false
          owner := none
          ownerThread := none }

/-- Append a timer to a heap and restore the order. -/
def insertTimer (sys : TimerSys) (thread : ThreadRef) (ref : TimerRef) (timer : Timer) :
    TimerSys :=
  ((sys.setTimer ref (some timer)).setNodes thread ((sys.nodes thread).push ref)).heapifyUp
    thread (sys.nodes thread).size

/-- Remove the heap place `index`: the last node takes it and is sifted down. -/
def removeNode (sys : TimerSys) (thread : ThreadRef) (index : Nat)
    (inside : index < (sys.nodes thread).size) : TimerSys :=
  (sys.setNodes thread (BinaryHeap.removeAt (sys.nodes thread) index inside)).heapifyDown
    thread index

/-- Arm a timer on the thread of the calling component. -/
def nosTimerStart (sys : TimerSys) (self : CompRef) (ref : Option TimerRef) (intervalMs : Nat)
    (isPeriodic : Bool) (now : Nat) : Option (TimerSys × Status) :=
  match sys.findThreadOfComponent self, ref with
  | some thread, some ref =>
      match sys.timer ref with
      | none => none
      | some timer =>
          if timer.isRunning then some (sys, .err)
          else if (sys.thread thread).capacity ≤ (sys.nodes thread).size then some (sys, .err)
          else
            some
              (sys.insertTimer thread ref
                { timer with
                  intervalMs := intervalMs
                  expireAtMs := (now + intervalMs) % 2 ^ 64
                  isPeriodic := isPeriodic
                  isRunning := true
                  owner := some self
                  ownerThread := some thread }, .ok)
  | _, _ => some (sys, .err)

/-- A timer object after it was taken out of service. -/
def disarm (timer : Timer) : Timer :=
  { timer with isRunning := false, owner := none, ownerThread := none }

/-- Disarm a timer by searching the heap of its thread. -/
def nosTimerStop (sys : TimerSys) (self : CompRef) (ref : Option TimerRef) :
    Option (TimerSys × Status) :=
  match ref with
  | none => some (sys, .err)
  | some ref =>
      match sys.timer ref with
      | none => none
      | some timer =>
          match timer.ownerThread <|> sys.findThreadOfComponent self with
          | none => some (sys, .err)
          | some thread =>
              if timer.isRunning then
                match (sys.nodes thread).finIdxOf? ref with
                | some index =>
                    some ((sys.removeNode thread index index.isLt).setTimer ref
                      (some (disarm timer)), .ok)
                | none => some (sys, .err)
              else some (sys, .err)

/-- Take a timer out of its heap and free it. -/
def nosTimerDelete (sys : TimerSys) (ref : Option TimerRef) : Option TimerSys :=
  match ref with
  | none => some sys
  | some ref =>
      match sys.timer ref with
      | none => none
      | some timer =>
          match timer.isRunning, timer.ownerThread with
          | true, some thread =>
              match (sys.nodes thread).finIdxOf? ref with
              | some index => some ((sys.removeNode thread index index.isLt).setTimer ref none)
              | none => some (sys.setTimer ref none)
          | _, _ => some (sys.setTimer ref none)

/-- Whether the timer behind a heap node belongs to a component. -/
def ownedBy (sys : TimerSys) (owner : CompRef) (ref : TimerRef) : Bool :=
  (sys.timer ref).any fun timer => timer.owner = some owner

/-- Release the timers of one component in the order of the heap array, and collect the nodes that
stay.  A released timer has no owner when the scan meets it again. -/
def cancelScan (owner : CompRef) : TimerSys → List TimerRef → TimerSys × List TimerRef
  | sys, [] => (sys, [])
  | sys, ref :: rest =>
      if sys.ownedBy owner ref then
        cancelScan owner (sys.setTimer ref ((sys.timer ref).map disarm)) rest
      else
        let scanned := cancelScan owner sys rest
        (scanned.1, ref :: scanned.2)

/-- Drop the timers of one component from a heap and rebuild it. -/
def nosSchedulerCancelTimersByOwner (sys : TimerSys) (thread : ThreadRef) (owner : CompRef) :
    TimerSys :=
  let scanned := cancelScan owner sys (sys.nodes thread).toList
  scanned.1.setNodes thread
    (BinaryHeap.rebuild scanned.1.expireAt (scanned.2.length / 2) scanned.2.toArray)

/-- Whether the owner of a timer is in the active state. -/
def ownerActive (sys : TimerSys) (timer : Timer) : Bool :=
  timer.owner.any fun owner => sys.status owner = .active

/-- Take the root out of a heap if it is due, and mark it as not running. -/
def popDue (sys : TimerSys) (thread : ThreadRef) (now : Nat) : Option (TimerRef × TimerSys) :=
  if bound : 0 < (sys.nodes thread).size then
    if now < sys.expireAt (sys.nodes thread)[0] then none
    else
      let root := (sys.nodes thread)[0]
      let popped := sys.removeNode thread 0 bound
      some (root, popped.setTimer root
        ((sys.timer root).map fun timer => { timer with isRunning := false }))
  else none

/-- Put a fired periodic timer back into the heap. -/
def rearm (sys : TimerSys) (thread : ThreadRef) (ref : TimerRef) (timer : Timer) (now : Nat) :
    TimerSys :=
  let next := { timer with expireAtMs := (now + timer.intervalMs) % 2 ^ 64 }
  if (sys.thread thread).capacity ≤ (sys.nodes thread).size then
    sys.setTimer ref (some { next with isRunning := false })
  else sys.insertTimer thread ref { next with isRunning := true }

/-- A turn of the expiry loop. -/
structure Turn where
  /-- State before the turn. -/
  before : TimerSys
  /-- Reading of the clock. -/
  now : Nat
  /-- The timer that was taken out. -/
  ref : TimerRef
  /-- Reading of the clock when the timer was put back. -/
  rearmed : Option Nat

/-- Outcome of the expiry loop on a finite list of clock readings. -/
structure Expiry where
  /-- State when the loop returned or the readings ran out. -/
  sys : TimerSys
  /-- Timers whose callback ran, in order. -/
  fired : List TimerRef
  /-- The turns, in order. -/
  turns : List Turn
  /-- Reading of the clock at which the loop returned. -/
  last : Option Nat

/-- The loop returned. -/
def Expiry.returned (expiry : Expiry) : Bool := expiry.last.isSome

/-- One more turn before the others. -/
def Expiry.after (expiry : Expiry) (turn : Turn) (fired : List TimerRef) : Expiry :=
  { expiry with fired := fired ++ expiry.fired, turns := turn :: expiry.turns }

@[simp]
theorem Expiry.after_sys (expiry : Expiry) (turn : Turn) (fired : List TimerRef) :
    (expiry.after turn fired).sys = expiry.sys := rfl

@[simp]
theorem Expiry.after_fired (expiry : Expiry) (turn : Turn) (fired : List TimerRef) :
    (expiry.after turn fired).fired = fired ++ expiry.fired := rfl

@[simp]
theorem Expiry.after_turns (expiry : Expiry) (turn : Turn) (fired : List TimerRef) :
    (expiry.after turn fired).turns = turn :: expiry.turns := rfl

@[simp]
theorem Expiry.after_returned (expiry : Expiry) (turn : Turn) (fired : List TimerRef) :
    (expiry.after turn fired).returned = expiry.returned := rfl

/-- The expiry loop.  Each turn reads the clock once, and once more when it re-arms the timer; the
callbacks perform no timer operation. -/
def processTimers (sys : TimerSys) (thread : ThreadRef) : List Nat → Expiry
  | [] => ⟨sys, [], [], none⟩
  | now :: readings =>
      match sys.popDue thread now with
      | none => ⟨sys, [], [], some now⟩
      | some (ref, popped) =>
          match popped.timer ref with
          | none => ⟨popped, [], [], none⟩
          | some timer =>
              let active := popped.ownerActive timer
              let fired := if active && timer.callback.isSome then [ref] else []
              if timer.isPeriodic && active then
                match readings with
                | [] => ⟨popped, fired, [⟨sys, now, ref, none⟩], none⟩
                | rearmed :: readings =>
                    (processTimers (popped.rearm thread ref timer rearmed) thread readings).after
                      ⟨sys, now, ref, some rearmed⟩ fired
              else (processTimers popped thread readings).after ⟨sys, now, ref, none⟩ fired

/-- Calls and environment events that act on the timers of a node. -/
inductive TimerOp
  /-- `nos_timer_create`, with the address the allocator returned. -/
  | create (ref : TimerRef) (callback : Option Nat) (arg : Nat)
  /-- `nos_timer_start` at a clock reading. -/
  | start (self : CompRef) (ref : Option TimerRef) (intervalMs : Nat) (isPeriodic : Bool)
      (now : Nat)
  /-- `nos_timer_stop`. -/
  | stop (self : CompRef) (ref : Option TimerRef)
  /-- `nos_timer_delete`. -/
  | delete (ref : Option TimerRef)
  /-- `nos_scheduler_cancel_timers_by_owner`. -/
  | cancelByOwner (thread : ThreadRef) (owner : CompRef)
  /-- `process_timers` with the clock readings it takes. -/
  | process (thread : ThreadRef) (readings : List Nat)
  /-- A component changes its life-cycle state. -/
  | setStatus (comp : CompRef) (status : CompStatus)
  /-- The component table of a thread changes. -/
  | setComponents (thread : ThreadRef) (components : List CompRef)

/-- Execute one timer operation. -/
def step (sys : TimerSys) : TimerOp → Option TimerSys
  | .create ref callback arg => sys.nosTimerCreate ref callback arg
  | .start self ref intervalMs isPeriodic now =>
      (sys.nosTimerStart self ref intervalMs isPeriodic now).map Prod.fst
  | .stop self ref => (sys.nosTimerStop self ref).map Prod.fst
  | .delete ref => sys.nosTimerDelete ref
  | .cancelByOwner thread owner => some (sys.nosSchedulerCancelTimersByOwner thread owner)
  | .process thread readings => some (sys.processTimers thread readings).sys
  | .setStatus comp status => some { sys with status := Function.update sys.status comp status }
  | .setComponents thread components =>
      some
        { sys with
          thread := Function.update sys.thread thread
            { sys.thread thread with components := components } }

/-- Freshly initialised threads: empty heaps of 128 places and no timer object. -/
def Initial (sys : TimerSys) : Prop :=
  (∀ thread, (sys.thread thread).nodes = #[] ∧ (sys.thread thread).capacity = 128) ∧
    ∀ ref, sys.timer ref = none

end TimerSys
end CodexNos.Scheduler
