import CodexNos.Node.BookkeepingSafety

/-!
# The callbacks of component instances

Each instance has the callbacks that its export set.  The functions of the node manager and of the
scheduler call them, and free the instance in the end.  Instances are numbered in the order of
their exports, so that a new instance at an old address is another instance; the history of each
instance records the callbacks that were called and the free.

The functions are those of the bookkeeping with what they call.
-/

namespace CodexNos.Node

open Lib Messaging Scheduler
open NodeState (Call Turn)

/-- The callbacks that an export has set. -/
structure Callbacks where
  /-- `init`. -/
  init : Bool
  /-- `start`. -/
  start : Bool
  /-- `stop`. -/
  stop : Bool
  /-- `on_msg`. -/
  onMsg : Bool
  deriving DecidableEq, Repr

/-- What happens to an instance. -/
inductive LifeEvent
  /-- `init` is called; whether it returns `NOS_OK`. -/
  | init (ok : Bool)
  /-- `start` is called; whether it returns `NOS_OK`. -/
  | start (ok : Bool)
  /-- `on_msg` is called. -/
  | onMsg
  /-- The callback of a timer that was armed for the instance is called. -/
  | timer
  /-- `stop` is called. -/
  | stop
  /-- The instance is freed. -/
  | freed
  deriving DecidableEq, Repr

/-- The call of `init`, which succeeds. -/
def Callbacks.inited (set : Callbacks) : List LifeEvent := if set.init then [.init true] else []

/-- How `node_load_component_staged` ends. -/
inductive Staging
  /-- There is no library, no export function or no memory. -/
  | missing
  /-- The export fails after it set some callbacks. -/
  | exportFailed (set : Callbacks)
  /-- `init` fails. -/
  | initFailed (set : Callbacks)
  /-- The instance at this address is ready. -/
  | ready (comp : CompRef) (set : Callbacks)
  deriving DecidableEq, Repr

/-- What the bookkeeping sees of it. -/
def Staging.outcome : Staging → LoadOutcome
  | .ready comp set => .staged comp set.onMsg
  | .missing | .exportFailed _ | .initFailed _ => .failed

/-- A node with the histories of its instances. -/
structure Lives where
  /-- The structures of the node. -/
  node : NodeState
  /-- Number of instances so far. -/
  count : Nat
  /-- Their callbacks. -/
  set : Nat → Callbacks
  /-- The instance at an address. -/
  number : CompRef → Nat
  /-- The instance that a timer was last armed for. -/
  armedFor : TimerRef → Nat
  /-- What happened to each instance, oldest first. -/
  history : Nat → List LifeEvent
  /-- The node has shut down. -/
  ended : Bool

namespace Lives

/-- Replace the structures of the node. -/
def withNode (lives : Lives) (node : NodeState) : Lives := { lives with node := node }

/-- The callbacks of the instance at an address. -/
def callbacks (lives : Lives) (comp : CompRef) : Callbacks := lives.set (lives.number comp)

/-- Record what happens to an instance. -/
def record (lives : Lives) (instanceNo : Nat) (events : List LifeEvent) : Lives :=
  { lives with
    history := Function.update lives.history instanceNo (lives.history instanceNo ++ events) }

/-- Record what happens to the instance at an address. -/
def recordAt (lives : Lives) (comp : CompRef) (events : List LifeEvent) : Lives :=
  lives.record (lives.number comp) events

/-- A new instance with its callbacks. -/
def born (lives : Lives) (set : Callbacks) : Lives :=
  { lives with count := lives.count + 1, set := Function.update lives.set lives.count set }

/-- The call of `stop`, unless the status is already stopped. -/
def stopEvents (set : Callbacks) (status : CompStatus) : List LifeEvent :=
  if status ≠ .stopped ∧ set.stop then [.stop] else []

/-! ## Loading and stopping -/

/-- `node_destroy_loaded_component`. -/
def nodeDestroyLoadedComponent (lives : Lives) (comp : CompRef) : Lives :=
  (lives.withNode (lives.node.nodeDestroyLoadedComponent comp)).recordAt comp
    (stopEvents (lives.callbacks comp) (lives.node.sys.status comp) ++ [.freed])

/-- `node_stop_component_instance`. -/
def nodeStopComponentInstance (lives : Lives) (entry : LoadedComp) : Lives :=
  (lives.withNode (lives.node.nodeStopComponentInstance entry)).recordAt entry.comp
    (stopEvents (lives.callbacks entry.comp) (lives.node.sys.status entry.comp))

/-- `node_load_component_staged`.  An instance that fails has the status of an error when it is
destroyed. -/
def nodeLoadComponentStaged (lives : Lives) (id : UInt32) (name : String) :
    Staging → Option (Lives × Option CompRef)
  | .missing => some (lives, none)
  | .exportFailed set =>
      some ((lives.born set).record lives.count (stopEvents set .error ++ [.freed]), none)
  | .initFailed set =>
      if set.init then
        some
          ((lives.born set).record lives.count
            (.init false :: (stopEvents set .error ++ [.freed])), none)
      else none
  | .ready comp set =>
      match lives.node.nodeLoadComponentStaged id name (.staged comp set.onMsg) with
      | some (node, some comp) =>
          some
            ({ (lives.born set).withNode node with
                number := Function.update lives.number comp lives.count }.record lives.count
              set.inited, some comp)
      | _ => none

/-- Load one component of a thread in `node_init_workers`. -/
def nodeInitComponent (lives : Lives) (thread : ThreadRef) (compDef : CompDef)
    (staging : Staging) : Option Lives :=
  match lives.nodeLoadComponentStaged compDef.id compDef.name staging with
  | none => none
  | some (failed, none) => some failed
  | some (staged, some comp) =>
      if maxComponentsPerNode ≤ staged.node.loaded.length then
        some (staged.nodeDestroyLoadedComponent comp)
      else
        match staged.node.nosSchedulerRegisterComponent thread comp with
        | (registered, .ok) =>
            some
              (staged.withNode
                { registered with loaded := registered.loaded ++ [⟨comp, compDef.model, thread⟩] })
        | (unchanged, _) => some ((staged.withNode unchanged).nodeDestroyLoadedComponent comp)

/-- The inner loop of `node_init_workers`. -/
def nodeInitThread (thread : ThreadRef) : List CompDef → List Staging → Lives → Option Lives
  | [], _, lives => some lives
  | _ :: _, [], _ => none
  | compDef :: comps, staging :: stagings, lives =>
      (lives.nodeInitComponent thread compDef staging).bind (nodeInitThread thread comps stagings)

/-- The outer loop of `node_init_workers`. -/
def nodeInitThreads : List ThreadDef → List (List Staging) → Lives → Option Lives
  | [], _, lives => some lives
  | _ :: _, [], _ => none
  | threadDef :: threads, stagings :: later, lives =>
      let comps := (threadDef.comps.takeWhile (·.id ≠ 0)).take maxComponentsPerNode
      (nodeInitThread lives.node.sys.threadCount comps stagings lives).bind fun filled =>
        nodeInitThreads threads later
          (filled.withNode
            { filled.node with
              sys := { filled.node.sys with threadCount := filled.node.sys.threadCount + 1 } })

/-- A node without instances. -/
def blank (manifest : Manifest) : Lives where
  node := .blank manifest
  count := 0
  set _ := ⟨false, false, false, false⟩
  number _ := 0
  armedFor _ := 0
  history _ := []
  ended := false

/-- Start-up of a node. -/
def boot (manifest : Manifest) (stagings : List (List Staging)) : Option Lives :=
  (nodeInitThreads (manifest.threads.take maxWorkers) stagings (blank manifest)).map fun lives =>
    lives.withNode (lives.node.nodeSetupRouting manifest.name)

/-! ## Unloading, reloading and the end -/

/-- `node_unload_component`. -/
def nodeUnloadComponent (lives : Lives) (name : String) : Lives :=
  match lives.node.loaded.findFinIdx? (lives.node.isNamed name) with
  | none => lives
  | some index =>
      let entry := lives.node.loaded[index]
      let unlisted :=
        (lives.node.nosSchedulerUnregisterComponent entry.ownerThread entry.comp).1
      let unbound := unlisted.nodeUnregisterLocalProviders (unlisted.idOf entry.comp)
      let stopped := (lives.withNode unbound).nodeStopComponentInstance entry
      let destroyed := stopped.nodeDestroyLoadedComponent entry.comp
      destroyed.withNode
        { destroyed.node with loaded := destroyed.node.loaded.eraseIdx index }

/-- The part of `node_reload_component` after the old instance left its thread. -/
def nodeSwapComponent (lives : Lives) (index : Nat) (entry : LoadedComp) (id : UInt32)
    (comp : CompRef) : Lives :=
  match lives.node.nosSchedulerRegisterComponent entry.ownerThread comp with
  | (registered, .ok) =>
      let replaced :=
        { registered with loaded := registered.loaded.set index { entry with comp := comp } }
      let bound := replaced.nodeRegisterLocalProviders id comp entry.ownerThread
      let stopped := (lives.withNode bound).nodeStopComponentInstance entry
      (stopped.withNode
        { stopped.node with
          instances := Function.update stopped.node.instances entry.comp none }).recordAt
        entry.comp [.freed]
  | (refused, _) =>
      let restored := (refused.nosSchedulerRegisterComponent entry.ownerThread entry.comp).1
      (lives.withNode restored).nodeDestroyLoadedComponent comp

/-- `node_reload_component`. -/
def nodeReloadComponent (lives : Lives) (name : String) (staging : Staging) : Option Lives :=
  match lives.node.loaded.findFinIdx? (lives.node.isNamed name) with
  | none => some lives
  | some index =>
      let entry := lives.node.loaded[index]
      match lives.nodeLoadComponentStaged (lives.node.idOf entry.comp) name staging with
      | none => none
      | some (failed, none) => some failed
      | some (staged, some comp) =>
          match staged.node.nosSchedulerUnregisterComponent entry.ownerThread entry.comp with
          | (unlisted, .ok) =>
              some ((staged.withNode unlisted).nodeSwapComponent index entry
                (lives.node.idOf entry.comp) comp)
          | (unchanged, _) => some ((staged.withNode unchanged).nodeDestroyLoadedComponent comp)

/-- The end of one component in `main`. -/
def shutdownComponent (lives : Lives) (entry : LoadedComp) : Lives :=
  (lives.withNode
    { lives.node with
      instances := Function.update lives.node.instances entry.comp none }).recordAt entry.comp
    ((if (lives.callbacks entry.comp).stop then [.stop] else []) ++ [.freed])

/-- The end of all components in `main`, after the threads were joined. -/
def shutdown (lives : Lives) : Lives :=
  { lives.node.loaded.reverse.foldl shutdownComponent lives with ended := true }

/-! ## What components do -/

/-- The instances that the timers are armed for after a call: a timer that is started is armed for
the instance that starts it. -/
def armedAfter (lives : Lives) : Call → TimerRef → Nat
  | .startTimer self (some ref) intervalMs isPeriodic now =>
      if (lives.node.sys.nosTimerStart self (some ref) intervalMs isPeriodic now).any
          (·.2 = .ok) then
        Function.update lives.armedFor ref (lives.number self)
      else lives.armedFor
  | _ => lives.armedFor

/-- Execute one call. -/
def call (lives : Lives) (made : Call) : Option Lives :=
  (lives.node.call made).map fun node =>
    { lives.withNode node with armedFor := lives.armedAfter made }

/-- Execute the calls of one callback. -/
def calls : Lives → List Call → Option Lives
  | lives, [] => some lives
  | lives, first :: rest => (lives.call first).bind fun next => next.calls rest

/-- `process_thread_messages`, with what the callbacks do that it runs. -/
def processThreadMessages (thread : ThreadRef) : List (List Call) → Lives → Option Lives
  | [], lives => if lives.node.queue thread = [] then some lives else none
  | made :: later, lives =>
      match lives.node.queue thread with
      | [] => some lives
      | header :: rest =>
          let taken :=
            lives.withNode
              { lives.node with queue := Function.update lives.node.queue thread rest }
          match taken.node.tables.dispatchTarget header with
          | some comp =>
              ((taken.recordAt comp [.onMsg]).calls made).bind
                (processThreadMessages thread later)
          | none => processThreadMessages thread later taken

/-- `start_pending_components` on the components still to look at, with what each `start` does and
whether it succeeds. -/
def startPendingComponents :
    List CompRef → List (List Call × Bool) → Lives → Option Lives
  | [], _, lives => some lives
  | comp :: comps, runs, lives =>
      if lives.node.sys.status comp = .inited then
        match runs with
        | [] => none
        | (made, ok) :: later =>
            if (lives.callbacks comp).start then
              ((lives.recordAt comp [.start ok]).calls made).bind fun started =>
                startPendingComponents comps later
                  (started.withNode
                    (started.node.setStatus comp (if ok then .active else .error)))
            else if made = [] ∧ ok then
              startPendingComponents comps later
                (lives.withNode (lives.node.setStatus comp .active))
            else none
      else startPendingComponents comps runs lives

/-- Run the callback of a timer that was taken out of its heap. -/
def fireTimer (lives : Lives) (ref : TimerRef) (made : List Call) : Option Lives :=
  match lives.node.sys.timer ref with
  | none => none
  | some timer =>
      if lives.node.sys.ownerActive timer && timer.callback.isSome then
        (lives.record (lives.armedFor ref) [.timer]).calls made
      else some lives

/-- `process_timers`, in turns. -/
def processTimers (thread : ThreadRef) : List Turn → Lives → Option Lives
  | [], _ => none
  | turn :: turns, lives =>
      match lives.node.sys.popDue thread turn.now with
      | none => some lives
      | some (ref, popped) =>
          ((lives.withNode { lives.node with sys := popped }).fireTimer ref turn.made).bind
            fun fired =>
              (fired.node.rearmTimer thread ref turn.rearmed).bind fun rearmed =>
                processTimers thread turns (fired.withNode rearmed)

/-! ## Steps -/

/-- What happens in a node after start-up. -/
inductive LifeStep
  /-- A component makes a call, or a message comes in from another node. -/
  | call (made : Call)
  /-- `process_thread_messages`. -/
  | processMessages (thread : ThreadRef) (made : List (List Call))
  /-- `start_pending_components`. -/
  | startPending (thread : ThreadRef) (runs : List (List Call × Bool))
  /-- `process_timers`. -/
  | processTimers (thread : ThreadRef) (turns : List Turn)
  /-- `node_unload_component`. -/
  | unload (name : String)
  /-- `node_reload_component`. -/
  | reload (name : String) (staging : Staging)
  /-- The end of `main`. -/
  | shutdown
  deriving DecidableEq, Repr

/-- Perform one step; there is none after the end. -/
def step (lives : Lives) (taken : LifeStep) : Option Lives :=
  if lives.ended then none
  else
    match taken with
    | .call made => lives.call made
    | .processMessages thread made => processThreadMessages thread made lives
    | .startPending thread runs =>
        startPendingComponents (lives.node.components thread) runs lives
    | .processTimers thread turns => processTimers thread turns lives
    | .unload name => some (lives.nodeUnloadComponent name)
    | .reload name staging => lives.nodeReloadComponent name staging
    | .shutdown => some lives.shutdown

/-- A node after start-up. -/
def Booted (lives : Lives) : Prop := ∃ manifest stagings, boot manifest stagings = some lives

end Lives

end CodexNos.Node
