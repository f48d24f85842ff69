import CodexNos.Lib.SwapRemove
import CodexNos.Messaging.Routing
import CodexNos.Scheduler.Timer

/-!
# Bookkeeping of a node

A node keeps four structures about its components: the table of loaded components, the component
list of each thread, the service registry and the timer heaps.  Start-up fills them from the
manifest; unloading and reloading a component change them piece by piece.  Each call is one step
here, and the outcome of a load is part of the label of its step.

Thread `0` is the management thread; worker `i` of the manifest is thread `i + 1`.
-/

namespace CodexNos.Node

open Lib Messaging Scheduler

/-! ## Manifest -/

/-- A component of a thread in the manifest. -/
structure CompDef where
  /-- `comp_ids`. -/
  id : UInt32
  /-- `comp_names`. -/
  name : String
  /-- `comp_models`. -/
  model : String
  deriving DecidableEq, Repr

/-- A thread in the manifest (`nos_thread_def_t`). -/
structure ThreadDef where
  /-- `name`. -/
  name : String
  /-- Its components, up to the terminating id `0`. -/
  comps : List CompDef
  deriving DecidableEq, Repr

/-- A service in the manifest, with the path of the node that provides it. -/
structure RoutedService extends ServiceDef where
  /-- `remote_uds_path`. -/
  remoteUdsPath : Option String
  deriving DecidableEq, Repr

/-- The manifest of a node (`nos_node_def_t`). -/
structure Manifest where
  /-- `name`. -/
  name : String
  /-- `threads`, up to the terminating empty name. -/
  threads : List ThreadDef
  /-- `services`. -/
  services : List RoutedService
  deriving DecidableEq, Repr

/-- Services of this node that a component provides. -/
def Manifest.localServices (manifest : Manifest) (providerId : UInt32) : List RoutedService :=
  manifest.services.filter fun svc =>
    svc.providerCompId = providerId && svc.nodeName = manifest.name

/-! ## State -/

/-- What the manager reads of a component instance. -/
structure Instance where
  /-- `id`. -/
  id : UInt32
  /-- `name`. -/
  name : String
  /-- There is an `on_msg`. -/
  onMsg : Bool
  deriving DecidableEq, Repr

/-- An entry of the table of loaded components (`loaded_comp_info_t`). -/
structure LoadedComp where
  /-- `comp`. -/
  comp : CompRef
  /-- `lib_name`. -/
  libName : String
  /-- `owner_thread`. -/
  ownerThread : ThreadRef
  deriving DecidableEq, Repr

/-- What routing reads of a loaded component. -/
def LoadedComp.info (entry : LoadedComp) : LoadedInfo := ⟨some entry.comp, some entry.ownerThread⟩

/-- The structures of a node. -/
structure NodeState where
  /-- The manifest. -/
  manifest : Manifest
  /-- Component lists, timer heaps, timers and component states. -/
  sys : TimerSys
  /-- Allocated component instances. -/
  instances : CompRef → Option Instance
  /-- `loaded_info` up to `loaded_count`. -/
  loaded : List LoadedComp
  /-- `g_service_registry` up to `g_service_count`. -/
  registry : List ServiceEntry
  /-- The rest of `g_service_registry`, with what earlier entries left there. -/
  unusedEntries : List ServiceEntry
  /-- Message queues of the threads. -/
  queue : ThreadRef → List Header

/-- `MAX_WORKERS`. -/
def maxWorkers : Nat := 8

/-- `MAX_COMPONENTS_PER_NODE`. -/
def maxComponentsPerNode : Nat := 64

/-- An entry of zeroed memory. -/
def blankEntry : ServiceEntry := ⟨0, none, none, "", "", false⟩

/-- What fits into a zeroed array of `limit + 1` bytes; the characters of a string are its bytes. -/
def stored (limit : Nat) (text : String) : String := String.ofList (text.toList.take limit)

/-- How `node_load_component_staged` ends. -/
inductive LoadOutcome
  /-- The library is not readable, does not open or does not export the component, memory ran out,
  or the export or the `init` failed.  The instance, if there was one, is freed again. -/
  | failed
  /-- The instance at this address is ready. -/
  | staged (comp : CompRef) (onMsg : Bool)
  deriving DecidableEq, Repr

namespace NodeState

/-- A node before its workers are initialised. -/
def blank (manifest : Manifest) : NodeState where
  manifest := manifest
  sys :=
    { threadCount := 1
      thread := fun _ => { components := [], nodes := #[], capacity := 128 }
      timer := fun _ => none
      status := fun _ => .loaded }
  instances _ := none
  loaded := []
  registry := []
  unusedEntries := List.replicate 64 blankEntry
  queue _ := []

/-- Components of a thread. -/
def components (node : NodeState) (thread : ThreadRef) : List CompRef :=
  (node.sys.thread thread).components

/-- Replace the components of a thread. -/
def setComponents (node : NodeState) (thread : ThreadRef) (comps : List CompRef) : NodeState :=
  { node with
    sys :=
      { node.sys with
        thread := Function.update node.sys.thread thread
          { node.sys.thread thread with components := comps } } }

/-- Set the status of an instance. -/
def setStatus (node : NodeState) (comp : CompRef) (status : CompStatus) : NodeState :=
  { node with sys := { node.sys with status := Function.update node.sys.status comp status } }

/-- `comp->id`. -/
def idOf (node : NodeState) (comp : CompRef) : UInt32 := ((node.instances comp).map (·.id)).getD 0

/-- The name of a loaded component is `name`. -/
def isNamed (node : NodeState) (name : String) (entry : LoadedComp) : Bool :=
  (node.instances entry.comp).any fun inst => inst.name = name

/-- The tables that routing reads. -/
def tables (node : NodeState) : Tables where
  registry := node.registry
  loaded := node.loaded.map LoadedComp.info
  component comp :=
    { id := node.idOf comp
      status := node.sys.status comp
      onMsg := (node.instances comp).any (·.onMsg) }
  nodeDef := some (node.manifest.name, node.manifest.services.map RoutedService.toServiceDef)

/-! ## Service registry -/

/-- Fill the entry of a service, a new one if it has none. -/
def fillEntry (node : NodeState) (serviceId : UInt32) (fill : ServiceEntry → ServiceEntry) :
    NodeState × Status :=
  match node.registry.findFinIdx? (fun entry => entry.serviceId = serviceId) with
  | some index =>
      ({ node with registry := node.registry.set index (fill node.registry[index]) }, .ok)
  | none =>
      match node.unusedEntries with
      | [] => (node, .err)
      | entry :: rest =>
          ({ node with registry := node.registry ++ [fill entry], unusedEntries := rest }, .ok)

/-- `nos_service_register_provider_bind`. -/
def nosServiceRegisterProviderBind (node : NodeState) (serviceId : UInt32) (provider : CompRef)
    (thread : ThreadRef) : NodeState × Status :=
  node.fillEntry serviceId fun entry =>
    { entry with
      serviceId := serviceId
      localProvider := some provider
      localThread := some thread
      isRemote := false }

/-- `nos_service_register_remote`. -/
def nosServiceRegisterRemote (node : NodeState) (serviceId : UInt32) (nodeName udsPath : String) :
    NodeState × Status :=
  node.fillEntry serviceId fun entry =>
    { entry with
      serviceId := serviceId
      isRemote := true
      remoteNode := stored 31 nodeName
      remoteUdsPath := stored 107 udsPath }

/-- `nos_service_unregister_provider`. -/
def nosServiceUnregisterProvider (node : NodeState) (serviceId : UInt32) : NodeState × Status :=
  match node.registry.findFinIdx? (fun entry => entry.serviceId = serviceId) with
  | some index =>
      ({ node with
          registry := swapRemoveAt node.registry index
          unusedEntries := node.registry.getLastD node.registry[index] :: node.unusedEntries }, .ok)
  | none => (node, .err)

/-- `node_register_local_providers`. -/
def nodeRegisterLocalProviders (node : NodeState) (providerId : UInt32) (provider : CompRef)
    (thread : ThreadRef) : NodeState :=
  (node.manifest.localServices providerId).foldl
    (fun node svc => (node.nosServiceRegisterProviderBind svc.serviceId provider thread).1) node

/-- `node_unregister_local_providers`. -/
def nodeUnregisterLocalProviders (node : NodeState) (providerId : UInt32) : NodeState :=
  (node.manifest.localServices providerId).foldl
    (fun node svc => (node.nosServiceUnregisterProvider svc.serviceId).1) node

/-! ## Component lists, messages and timers of a thread -/

/-- `nos_scheduler_register_component`. -/
def nosSchedulerRegisterComponent (node : NodeState) (thread : ThreadRef) (comp : CompRef) :
    NodeState × Status :=
  if maxCompPerThread ≤ (node.components thread).length then (node, .err)
  else (node.setComponents thread (node.components thread ++ [comp]), .ok)

/-- `nos_scheduler_unregister_component`. -/
def nosSchedulerUnregisterComponent (node : NodeState) (thread : ThreadRef) (comp : CompRef) :
    NodeState × Status :=
  match (node.components thread).finIdxOf? comp with
  | some index => (node.setComponents thread (swapRemoveAt (node.components thread) index), .ok)
  | none => (node, .err)

/-- `nos_scheduler_drop_messages_for_provider`. -/
def nosSchedulerDropMessagesForProvider (node : NodeState) (thread : ThreadRef)
    (provider : CompRef) : NodeState :=
  { node with
    queue := Function.update node.queue thread
      ((node.queue thread).filter fun header => !node.tables.targetsProvider provider header) }

/-- `nos_scheduler_cancel_timers_by_owner`. -/
def nosSchedulerCancelTimersByOwner (node : NodeState) (thread : ThreadRef) (owner : CompRef) :
    NodeState :=
  { node with sys := node.sys.nosSchedulerCancelTimersByOwner thread owner }

/-! ## Loading -/

/-- `node_load_component_staged`. -/
def nodeLoadComponentStaged (node : NodeState) (id : UInt32) (name : String) :
    LoadOutcome → Option (NodeState × Option CompRef)
  | .failed => some (node, none)
  | .staged comp onMsg =>
      match node.instances comp with
      | some _ => none
      | none =>
          let made :=
            { node with
              instances := Function.update node.instances comp (some ⟨id, name, onMsg⟩) }
          some (made.setStatus comp .inited, some comp)

/-- `node_destroy_loaded_component`. -/
def nodeDestroyLoadedComponent (node : NodeState) (comp : CompRef) : NodeState :=
  { node.setStatus comp .stopped with instances := Function.update node.instances comp none }

/-- Load one component of a thread in `node_init_workers`. -/
def nodeInitComponent (node : NodeState) (thread : ThreadRef) (compDef : CompDef)
    (outcome : LoadOutcome) : Option NodeState :=
  match node.nodeLoadComponentStaged compDef.id compDef.name outcome with
  | none => none
  | some (failed, none) => some failed
  | some (staged, some comp) =>
      if maxComponentsPerNode ≤ staged.loaded.length then
        some (staged.nodeDestroyLoadedComponent comp)
      else
        match staged.nosSchedulerRegisterComponent thread comp with
        | (registered, .ok) =>
            some
              { registered with loaded := registered.loaded ++ [⟨comp, compDef.model, thread⟩] }
        | (unchanged, _) => some (unchanged.nodeDestroyLoadedComponent comp)

/-- The inner loop of `node_init_workers`. -/
def nodeInitThread (thread : ThreadRef) :
    List CompDef → List LoadOutcome → NodeState → Option NodeState
  | [], _, node => some node
  | _ :: _, [], _ => none
  | compDef :: comps, outcome :: outcomes, node =>
      (node.nodeInitComponent thread compDef outcome).bind (nodeInitThread thread comps outcomes)

/-- The outer loop of `node_init_workers`. -/
def nodeInitThreads : List ThreadDef → List (List LoadOutcome) → NodeState → Option NodeState
  | [], _, node => some node
  | _ :: _, [], _ => none
  | threadDef :: threads, outcomes :: later, node =>
      let comps := (threadDef.comps.takeWhile (·.id ≠ 0)).take maxComponentsPerNode
      (nodeInitThread node.sys.threadCount comps outcomes node).bind fun filled =>
        nodeInitThreads threads later
          { filled with sys := { filled.sys with threadCount := filled.sys.threadCount + 1 } }

/-- `node_init_workers`. -/
def nodeInitWorkers (node : NodeState) (outcomes : List (List LoadOutcome)) : Option NodeState :=
  nodeInitThreads (node.manifest.threads.take maxWorkers) outcomes node

/-! ## Routing -/

/-- `node_get_loaded_comp_by_id`. -/
def nodeGetLoadedCompById (node : NodeState) (id : UInt32) : Option CompRef :=
  (node.loaded.find? fun entry => node.idOf entry.comp = id).map (·.comp)

/-- First worker with a component of this id. -/
def ownerWorker (node : NodeState) (id : UInt32) : Option ThreadRef :=
  ((List.range (node.sys.threadCount - 1)).find? fun worker =>
    (node.components (worker + 1)).any fun comp => node.idOf comp = id).map (· + 1)

/-- One turn of `node_setup_routing`. -/
def nodeSetupService (currentNodeName : String) (node : NodeState) (svc : RoutedService) :
    NodeState :=
  if svc.nodeName = currentNodeName then
    match node.nodeGetLoadedCompById svc.providerCompId, node.ownerWorker svc.providerCompId with
    | some provider, some worker =>
        (node.nosServiceRegisterProviderBind svc.serviceId provider worker).1
    | _, _ => node
  else
    match svc.remoteUdsPath with
    | some path =>
        if path.isEmpty then node
        else (node.nosServiceRegisterRemote svc.serviceId svc.nodeName path).1
    | none => node

/-- `node_setup_routing`. -/
def nodeSetupRouting (node : NodeState) (currentNodeName : String) : NodeState :=
  node.manifest.services.foldl (nodeSetupService currentNodeName) node

/-- Start-up of a node. -/
def boot (manifest : Manifest) (outcomes : List (List LoadOutcome)) : Option NodeState :=
  ((blank manifest).nodeInitWorkers outcomes).map fun node => node.nodeSetupRouting manifest.name

/-! ## Unloading and reloading -/

/-- `node_stop_component_instance`. -/
def nodeStopComponentInstance (node : NodeState) (entry : LoadedComp) : NodeState :=
  ((node.setStatus entry.comp .stopped).nosSchedulerDropMessagesForProvider entry.ownerThread
    entry.comp).nosSchedulerCancelTimersByOwner entry.ownerThread entry.comp

/-- `node_unload_component`. -/
def nodeUnloadComponent (node : NodeState) (name : String) : NodeState × Status :=
  match node.loaded.findFinIdx? (node.isNamed name) with
  | none => (node, .err)
  | some index =>
      let entry := node.loaded[index]
      let unlisted := (node.nosSchedulerUnregisterComponent entry.ownerThread entry.comp).1
      let unbound := unlisted.nodeUnregisterLocalProviders (unlisted.idOf entry.comp)
      let stopped := unbound.nodeStopComponentInstance entry
      let destroyed := stopped.nodeDestroyLoadedComponent entry.comp
      ({ destroyed with loaded := destroyed.loaded.eraseIdx index }, .ok)

/-- The part of `node_reload_component` after the old instance left its thread. -/
def nodeSwapComponent (node : NodeState) (index : Nat) (entry : LoadedComp) (id : UInt32)
    (comp : CompRef) : NodeState × Status :=
  match node.nosSchedulerRegisterComponent entry.ownerThread comp with
  | (registered, .ok) =>
      let replaced :=
        { registered with loaded := registered.loaded.set index { entry with comp := comp } }
      let bound := replaced.nodeRegisterLocalProviders id comp entry.ownerThread
      let stopped := bound.nodeStopComponentInstance entry
      ({ stopped with instances := Function.update stopped.instances entry.comp none }, .ok)
  | (refused, _) =>
      let restored := (refused.nosSchedulerRegisterComponent entry.ownerThread entry.comp).1
      (restored.nodeDestroyLoadedComponent comp, .err)

/-- `node_reload_component`. -/
def nodeReloadComponent (node : NodeState) (name : String) (outcome : LoadOutcome) :
    Option (NodeState × Status) :=
  match node.loaded.findFinIdx? (node.isNamed name) with
  | none => some (node, .err)
  | some index =>
      let entry := node.loaded[index]
      match node.nodeLoadComponentStaged (node.idOf entry.comp) name outcome with
      | none => none
      | some (failed, none) => some (failed, .err)
      | some (staged, some comp) =>
          match staged.nosSchedulerUnregisterComponent entry.ownerThread entry.comp with
          | (unlisted, .ok) =>
              some (unlisted.nodeSwapComponent index entry (node.idOf entry.comp) comp)
          | (unchanged, _) => some (unchanged.nodeDestroyLoadedComponent comp, .err)

/-! ## What components do -/

/-- `nos_service_msg_send`, as far as it changes the queues of this node. -/
def nosServiceMsgSend (node : NodeState) (header : Header) : NodeState :=
  match node.tables.route header with
  | some (.localThread (some thread)) =>
      if (node.queue thread).length + 1 = maxQueueSize then node
      else
        { node with
          queue := Function.update node.queue thread (node.queue thread ++ [header]) }
  | _ => node

/-- A call that a component makes. -/
inductive Call
  /-- `nos_timer_create`, with the address the allocator returned. -/
  | createTimer (ref : TimerRef) (callback : Option Nat) (arg : Nat)
  /-- `nos_timer_start` at a clock reading. -/
  | startTimer (self : CompRef) (ref : Option TimerRef) (intervalMs : Nat) (isPeriodic : Bool)
      (now : Nat)
  /-- `nos_service_msg_send`. -/
  | send (header : Header)
  deriving DecidableEq, Repr

/-- Execute one call. -/
def call (node : NodeState) : Call → Option NodeState
  | .createTimer ref callback arg =>
      (node.sys.nosTimerCreate ref callback arg).map fun sys => { node with sys := sys }
  | .startTimer self ref intervalMs isPeriodic now =>
      (node.sys.nosTimerStart self ref intervalMs isPeriodic now).map fun started =>
        { node with sys := started.1 }
  | .send header => some (node.nosServiceMsgSend header)

/-- Execute the calls of one callback. -/
def calls : NodeState → List Call → Option NodeState
  | node, [] => some node
  | node, first :: rest => (node.call first).bind fun next => next.calls rest

/-- `process_thread_messages`, with what the callbacks do that it runs; each turn takes one
message. -/
def processThreadMessages (thread : ThreadRef) : List (List Call) → NodeState → Option NodeState
  | [], node => if node.queue thread = [] then some node else none
  | made :: later, node =>
      match node.queue thread with
      | [] => some node
      | header :: rest =>
          let taken := { node with queue := Function.update node.queue thread rest }
          let target := taken.tables.dispatchTarget header
          (taken.calls (if target.isSome then made else [])).bind
            (processThreadMessages thread later)

/-- `start_pending_components` on the components still to look at, with what each `start` does and
whether it succeeds. -/
def startPendingComponents : List CompRef → List (List Call × Bool) → NodeState → Option NodeState
  | [], _, node => some node
  | comp :: comps, runs, node =>
      if node.sys.status comp = .inited then
        match runs with
        | [] => none
        | (made, ok) :: later =>
            (node.calls made).bind fun started =>
              startPendingComponents comps later
                (started.setStatus comp (if ok then .active else .error))
      else startPendingComponents comps runs node

/-- A turn of `process_timers`: the clock, what the callback does, and the clock again. -/
structure Turn where
  /-- First clock reading. -/
  now : Nat
  /-- What the callback does, if it runs. -/
  made : List Call
  /-- Clock reading when the timer is armed again. -/
  rearmed : Nat
  deriving DecidableEq, Repr

/-- Run the callback of a timer that was taken out of its heap. -/
def fireTimer (node : NodeState) (ref : TimerRef) (made : List Call) : Option NodeState :=
  match node.sys.timer ref with
  | none => none
  | some timer =>
      if node.sys.ownerActive timer && timer.callback.isSome then node.calls made else some node

/-- Put a timer back after its callback, if it is periodic. -/
def rearmTimer (node : NodeState) (thread : ThreadRef) (ref : TimerRef) (now : Nat) :
    Option NodeState :=
  (node.sys.timer ref).map fun timer =>
    if timer.isPeriodic && node.sys.ownerActive timer then
      { node with sys := node.sys.rearm thread ref timer now }
    else node

/-- `process_timers`, in turns; the last one finds no timer that is due. -/
def processTimers (thread : ThreadRef) : List Turn → NodeState → Option NodeState
  | [], _ => none
  | turn :: turns, node =>
      match node.sys.popDue thread turn.now with
      | none => some node
      | some (ref, popped) =>
          (fireTimer { node with sys := popped } ref turn.made).bind fun fired =>
            (fired.rearmTimer thread ref turn.rearmed).bind (processTimers thread turns)

/-! ## Steps -/

/-- What happens in a node after start-up. -/
inductive NodeOp
  /-- A component makes a call, or a message comes in from another node. -/
  | call (made : Call)
  /-- `process_thread_messages`. -/
  | processMessages (thread : ThreadRef) (made : List (List Call))
  /-- `start_pending_components`. -/
  | startPending (thread : ThreadRef) (runs : List (List Call × Bool))
  /-- `process_timers`. -/
  | processTimers (thread : ThreadRef) (turns : List Turn)
  /-- `node_unload_component`. -/
  | unload (name : String)
  /-- `node_reload_component`. -/
  | reload (name : String) (outcome : LoadOutcome)
  deriving DecidableEq, Repr

/-- Perform one call. -/
def step (node : NodeState) : NodeOp → Option NodeState
  | .call made => node.call made
  | .processMessages thread made => processThreadMessages thread made node
  | .startPending thread runs => startPendingComponents (node.components thread) runs node
  | .processTimers thread turns => processTimers thread turns node
  | .unload name => some (node.nodeUnloadComponent name).1
  | .reload name outcome => (node.nodeReloadComponent name outcome).map Prod.fst

/-- A node after start-up. -/
def Booted (node : NodeState) : Prop := ∃ manifest outcomes, boot manifest outcomes = some node

end NodeState

end CodexNos.Node
