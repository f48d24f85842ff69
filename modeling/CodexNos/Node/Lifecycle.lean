import CodexNos.Types
import CodexNos.Lib.Transition

/-!
# A worker thread and the command thread that unloads components

The worker starts pending components, dispatches queued messages and runs expired timers; the
command thread unloads and reloads components of that worker.  They share the component instances,
the table of loaded components, the service registry, the message queue and the timer heap.  A step
is one access or one critical section; only the start callback runs inside one.

Instances are named by identity.  The status of a freed instance can be anything, which is the
`stale` value of a step.
-/

namespace CodexNos.Node

/-- Memory of a component instance. -/
inductive Cell
  | unallocated
  | live (status : CompStatus)
  | freed
  deriving DecidableEq, Repr

/-- Status that a thread reads. -/
def Cell.read (stale : CompStatus) : Cell → CompStatus
  | .live status => status
  | .unallocated | .freed => stale

/-- What the node knows of its instances and services. -/
structure NodeDef where
  /-- Component id of an instance. -/
  id : CompRef → Nat
  /-- The instance has an `on_msg` callback. -/
  onMsg : CompRef → Bool
  /-- The instance has a `start` callback. -/
  start : CompRef → Bool
  /-- The instance has a `stop` callback. -/
  stop : CompRef → Bool
  /-- The timer has a callback. -/
  callback : TimerRef → Bool
  /-- Services of this node with the id of their provider. -/
  services : List (Nat × Nat)

/-- Services that a component of this node provides. -/
def NodeDef.localServices (node : NodeDef) (id : Nat) : List Nat :=
  (node.services.filter (·.2 = id)).map (·.1)

/-- A queued message. -/
structure Message where
  /-- Destination service. -/
  service : Nat
  /-- Destination component of a reply. -/
  replyTo : Option Nat
  deriving DecidableEq, Repr

/-- A callback that the worker runs. -/
inductive Callback
  | onMsg (comp : CompRef)
  | timer (timer : TimerRef) (comp : CompRef)
  | start (comp : CompRef) (rest : List CompRef)
  deriving DecidableEq, Repr

/-- The instance that runs. -/
def Callback.comp : Callback → CompRef
  | .onMsg comp | .timer _ comp | .start comp _ => comp

/-- Where the worker is. -/
inductive WorkerPoint
  /-- Between its functions. -/
  | idle
  /-- Has taken a message: look up its target. -/
  | lookup (msg : Message)
  /-- Has a target: test its status. -/
  | testMsg (comp : CompRef)
  /-- Test passed: call `on_msg`. -/
  | callMsg (comp : CompRef)
  /-- Has taken a timer: test the status of its owner. -/
  | testTimer (timer : TimerRef)
  /-- Test passed: call the timer callback. -/
  | callTimer (timer : TimerRef) (comp : CompRef)
  /-- Callback returned or skipped: test the status again. -/
  | retestTimer (timer : TimerRef)
  /-- Test passed: insert the timer again. -/
  | reinsert (timer : TimerRef)
  /-- Has the component lock: instances still to look at. -/
  | starting (rest : List CompRef)
  /-- Has the component lock and a pending instance: call `start`. -/
  | callStart (comp : CompRef) (rest : List CompRef)
  /-- In a callback. -/
  | running (callback : Callback)
  /-- In a callback, in `nos_timer_start`, thread found: insert the timer. -/
  | inserting (callback : Callback) (self : CompRef) (timer : TimerRef) (periodic : Bool)
  deriving DecidableEq, Repr

/-- Why an instance is torn down. -/
inductive Teardown
  /-- `node_unload_component`. -/
  | unload
  /-- `node_reload_component`, the old instance. -/
  | reload
  /-- `node_reload_component`, the new instance after a failure. -/
  | discard
  deriving DecidableEq, Repr

/-- Where the command thread is. -/
inductive CliPoint
  /-- No command. -/
  | idle
  /-- Unload: take the instance off the thread. -/
  | unregister (comp : CompRef)
  /-- Unload: services still to unregister. -/
  | unbind (comp : CompRef) (services : List Nat)
  /-- Reload: take the old instance off the thread. -/
  | swapOut (old new : CompRef)
  /-- Reload: put the new instance on the thread. -/
  | swapIn (old new : CompRef)
  /-- Reload: put the new instance into the table. -/
  | replace (old new : CompRef)
  /-- Reload: services still to bind to the new instance. -/
  | bind (old new : CompRef) (services : List Nat)
  /-- Set the status to stopped. -/
  | mark (comp : CompRef) (why : Teardown)
  /-- Drop its messages. -/
  | drop (comp : CompRef) (callStop : Bool) (why : Teardown)
  /-- Cancel its timers. -/
  | cancel (comp : CompRef) (callStop : Bool) (why : Teardown)
  /-- Call `stop`. -/
  | stop (comp : CompRef) (callStop : Bool) (why : Teardown)
  /-- In `stop`. -/
  | stopping (comp : CompRef) (why : Teardown)
  /-- Free the instance. -/
  | free (comp : CompRef) (why : Teardown)
  /-- Unload: take the instance out of the table. -/
  | remove (comp : CompRef)
  deriving DecidableEq, Repr

/-- The begin of a callback. -/
inductive Event
  | stop (comp : CompRef)
  | onMsg (comp : CompRef)
  | start (comp : CompRef)
  | timer (comp : CompRef)
  deriving DecidableEq, Repr

/-- The event begins `on_msg`, `start` or a timer callback of the instance. -/
def Event.begins (comp : CompRef) : Event → Prop
  | .stop _ => False
  | .onMsg other | .start other | .timer other => other = comp

/-- Both threads and what they share. -/
structure LifeSys where
  /-- Component instances. -/
  memory : CompRef → Cell
  /-- Instances on the worker thread. -/
  components : List CompRef
  /-- Loaded instances (`loaded_info`). -/
  loaded : List CompRef
  /-- Local providers of the service registry. -/
  registry : Nat → Option CompRef
  /-- Message queue of the worker. -/
  queue : List Message
  /-- Timers in the heap of the worker. -/
  heap : List TimerRef
  /-- Owner of a timer. -/
  owner : TimerRef → Option CompRef
  /-- The timer is periodic. -/
  periodic : TimerRef → Bool
  /-- The timer counts as running. -/
  isRunning : TimerRef → Bool
  /-- Worker. -/
  worker : WorkerPoint
  /-- Command thread. -/
  cli : CliPoint
  /-- Callbacks begun so far, oldest first. -/
  events : List Event
  /-- Instances whose unload or reload has returned. -/
  retired : List CompRef

/-- A step of one of the threads or of a sender. -/
inductive LifeOp
  /-- A message is queued. -/
  | send (msg : Message)
  /-- The worker takes a message. -/
  | popMsg
  /-- The worker takes an expired timer. -/
  | popTimer (timer : TimerRef)
  /-- The worker takes the component lock to start pending components. -/
  | startPending
  /-- Next access of the worker. -/
  | work (stale : CompStatus)
  /-- The running callback calls `nos_timer_start` for an instance of this thread. -/
  | startTimer (self : CompRef) (timer : TimerRef) (periodic : Bool)
  /-- The running callback returns. -/
  | finish (ok : Bool)
  /-- Command: unload a component. -/
  | unload (id : Nat)
  /-- Command: reload a component; the new instance if it can be loaded. -/
  | reload (id : Nat) (fresh : Option CompRef)
  /-- Next access of the command thread. -/
  | cli
  deriving DecidableEq, Repr

namespace LifeSys

/-- Capacity of a timer heap. -/
def heapCapacity : Nat := 128

/-- Target of a message. -/
def target (node : NodeDef) (sys : LifeSys) (msg : Message) : Option CompRef :=
  match msg.replyTo with
  | some id => sys.loaded.find? (node.id · = id)
  | none => sys.registry msg.service

/-- The worker has the component lock. -/
def lockHeld (sys : LifeSys) : Bool :=
  match sys.worker with
  | .starting _ | .callStart _ _ => true
  | .running (.start _ _) | .inserting (.start _ _) _ _ _ => true
  | _ => false

/-- Set the status of an instance. -/
def setStatus (sys : LifeSys) (comp : CompRef) (status : CompStatus) : LifeSys :=
  { sys with memory := Function.update sys.memory comp (.live status) }

/-- Put a timer into the heap. -/
def insertTimer (sys : LifeSys) (timer : TimerRef) : LifeSys :=
  if sys.heap.length < heapCapacity then
    { sys with
      heap := sys.heap ++ [timer]
      isRunning := Function.update sys.isRunning timer true }
  else { sys with isRunning := Function.update sys.isRunning timer false }

/-- Next access of the worker. -/
def work (node : NodeDef) (sys : LifeSys) (stale : CompStatus) : Option LifeSys :=
  match sys.worker with
  | .lookup msg =>
      match sys.target node msg with
      | some comp => some { sys with worker := .testMsg comp }
      | none => some { sys with worker := .idle }
  | .testMsg comp =>
      if (sys.memory comp).read stale = .active && node.onMsg comp then
        some { sys with worker := .callMsg comp }
      else some { sys with worker := .idle }
  | .callMsg comp =>
      some { sys with worker := .running (.onMsg comp), events := sys.events ++ [.onMsg comp] }
  | .testTimer timer =>
      match sys.owner timer with
      | some comp =>
          if (sys.memory comp).read stale = .active && node.callback timer then
            some { sys with worker := .callTimer timer comp }
          else some { sys with worker := .retestTimer timer }
      | none => some { sys with worker := .retestTimer timer }
  | .callTimer timer comp =>
      some
        { sys with
          worker := .running (.timer timer comp)
          events := sys.events ++ [.timer comp] }
  | .retestTimer timer =>
      match sys.owner timer with
      | some comp =>
          if sys.periodic timer && (sys.memory comp).read stale = .active then
            some { sys with worker := .reinsert timer }
          else some { sys with worker := .idle }
      | none => some { sys with worker := .idle }
  | .reinsert timer => some { sys.insertTimer timer with worker := .idle }
  | .starting [] => some { sys with worker := .idle }
  | .starting (comp :: rest) =>
      if (sys.memory comp).read stale = .inited then
        if node.start comp then some { sys with worker := .callStart comp rest }
        else some { sys.setStatus comp .active with worker := .starting rest }
      else some { sys with worker := .starting rest }
  | .callStart comp rest =>
      some
        { sys with
          worker := .running (.start comp rest)
          events := sys.events ++ [.start comp] }
  | .inserting callback self timer periodic =>
      if sys.heap.length < heapCapacity then
        some
          { sys with
            heap := sys.heap ++ [timer]
            owner := Function.update sys.owner timer (some self)
            periodic := Function.update sys.periodic timer periodic
            isRunning := Function.update sys.isRunning timer true
            worker := .running callback }
      else some { sys with worker := .running callback }
  | .idle | .running _ => none

/-- The running callback returns. -/
def finish (sys : LifeSys) (ok : Bool) : Option LifeSys :=
  match sys.worker with
  | .running (.onMsg _) => some { sys with worker := .idle }
  | .running (.timer timer _) => some { sys with worker := .retestTimer timer }
  | .running (.start comp rest) =>
      some { sys.setStatus comp (if ok then .active else .error) with worker := .starting rest }
  | _ => none

/-- Take an instance out of an array by putting the last one in its place. -/
def swapRemove (comps : List CompRef) (comp : CompRef) : List CompRef :=
  (comps.set (comps.idxOf comp) (comps.getLastD comp)).dropLast

/-- A queued message goes to the provider (`nos_scheduler_drop_messages_for_provider`). -/
def targets (node : NodeDef) (sys : LifeSys) (provider : CompRef) (msg : Message) : Bool :=
  sys.registry msg.service = some provider || msg.service ∈ node.localServices (node.id provider)

/-- Timers of an owner leave the heap (`nos_scheduler_cancel_timers_by_owner`). -/
def cancelTimers (sys : LifeSys) (comp : CompRef) : LifeSys :=
  { sys with
    heap := sys.heap.filter (sys.owner · ≠ some comp)
    owner := fun timer =>
      if timer ∈ sys.heap ∧ sys.owner timer = some comp then none else sys.owner timer
    isRunning := fun timer =>
      if timer ∈ sys.heap ∧ sys.owner timer = some comp then false else sys.isRunning timer }

/-- Next access of the command thread. -/
def command (node : NodeDef) (sys : LifeSys) : Option LifeSys :=
  match sys.cli with
  | .idle => none
  | .unregister comp =>
      if sys.lockHeld then none
      else some
        { sys with
          components := if comp ∈ sys.components then swapRemove sys.components comp
            else sys.components
          cli := .unbind comp (node.localServices (node.id comp)) }
  | .unbind comp [] => some { sys with cli := .mark comp .unload }
  | .unbind comp (service :: rest) =>
      some
        { sys with
          registry := Function.update sys.registry service none
          cli := .unbind comp rest }
  | .swapOut old new =>
      if sys.lockHeld then none
      else if old ∈ sys.components then
        some { sys with components := swapRemove sys.components old, cli := .swapIn old new }
      else some { sys with cli := .mark new .discard }
  | .swapIn old new =>
      if sys.lockHeld then none
      else if sys.components.length < maxCompPerThread then
        some { sys with components := sys.components ++ [new], cli := .replace old new }
      else some { sys with cli := .mark new .discard }
  | .replace old new =>
      some
        { sys with
          loaded := sys.loaded.replace old new
          cli := .bind old new (node.localServices (node.id old)) }
  | .bind old _ [] => some { sys with cli := .mark old .reload }
  | .bind old new (service :: rest) =>
      some
        { sys with
          registry := Function.update sys.registry service (some new)
          cli := .bind old new rest }
  | .mark comp why =>
      let callStop := (sys.memory comp).read .stopped ≠ .stopped
      some
        { sys.setStatus comp .stopped with
          cli := if why = .discard then .stop comp callStop why else .drop comp callStop why }
  | .drop comp callStop why =>
      some
        { sys with
          queue := sys.queue.filter fun msg => !sys.targets node comp msg
          cli := .cancel comp callStop why }
  | .cancel comp callStop why => some { sys.cancelTimers comp with cli := .stop comp callStop why }
  | .stop comp callStop why =>
      if callStop && node.stop comp then
        some { sys with cli := .stopping comp why, events := sys.events ++ [.stop comp] }
      else some { sys with cli := .free comp why }
  | .stopping comp why => some { sys with cli := .free comp why }
  | .free comp why =>
      let freed := { sys with memory := Function.update sys.memory comp .freed }
      match why with
      | .unload => some { freed with cli := .remove comp }
      | .reload => some { freed with cli := .idle, retired := comp :: sys.retired }
      | .discard => some { freed with cli := .idle }
  | .remove comp =>
      some
        { sys with
          loaded := sys.loaded.erase comp
          cli := .idle
          retired := comp :: sys.retired }

/-- Perform one step. -/
def step (node : NodeDef) (sys : LifeSys) : LifeOp → Option LifeSys
  | .send msg => some { sys with queue := sys.queue ++ [msg] }
  | .popMsg =>
      match sys.worker, sys.queue with
      | .idle, msg :: rest => some { sys with queue := rest, worker := .lookup msg }
      | _, _ => none
  | .popTimer timer =>
      if sys.worker = .idle && timer ∈ sys.heap then
        some
          { sys with
            heap := sys.heap.erase timer
            isRunning := Function.update sys.isRunning timer false
            worker := .testTimer timer }
      else none
  | .startPending =>
      if sys.worker = .idle then some { sys with worker := .starting sys.components } else none
  | .work stale => sys.work node stale
  | .startTimer self timer periodic =>
      match sys.worker with
      | .running callback =>
          if self ∈ sys.components && !sys.isRunning timer then
            some { sys with worker := .inserting callback self timer periodic }
          else some sys
      | _ => none
  | .finish ok => sys.finish ok
  | .unload id =>
      if sys.cli = .idle then
        match sys.loaded.find? (node.id · = id) with
        | some comp => some { sys with cli := .unregister comp }
        | none => some sys
      else none
  | .reload id fresh =>
      if sys.cli = .idle then
        match sys.loaded.find? (node.id · = id), fresh with
        | some old, some new =>
            if sys.memory new = .unallocated && node.id new = id then
              some { sys.setStatus new .inited with cli := .swapOut old new }
            else none
        | _, _ => some sys
      else none
  | .cli => sys.command node

/-- A node whose components are loaded on the worker and not yet started. -/
structure Initial (node : NodeDef) (sys : LifeSys) : Prop where
  inited : ∀ comp ∈ sys.components, sys.memory comp = .live .inited
  loaded_iff : ∀ comp, comp ∈ sys.loaded ↔ comp ∈ sys.components
  components_nodup : sys.components.Nodup
  loaded_nodup : sys.loaded.Nodup
  room : sys.components.length ≤ maxCompPerThread
  bound : ∀ service comp, sys.registry service = some comp →
    comp ∈ sys.components ∧ service ∈ node.localServices (node.id comp)
  heap : sys.heap = []
  worker : sys.worker = .idle
  cli : sys.cli = .idle
  events : sys.events = []
  retired : sys.retired = []

end LifeSys

end CodexNos.Node
