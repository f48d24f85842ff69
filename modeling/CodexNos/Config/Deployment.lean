import CodexNos.Config.Reading

/-!
# Routing in a deployed configuration

Each node of an accepted configuration is generated, compiled and started.  A node registers the
services it needs that can be registered, and a number is bound to the last of them that has it, if
there was room for the first.  A request for a service arrives exactly if its number is bound, on
the node or on the one that the request is sent to, to a service of the thread that has the
provider.
-/

namespace CodexNos.Config

open Lib Messaging Node

/-! ## Deployments -/

/-- The node is up, and every library loaded. -/
def Boots (data : ConfigData) (node : NodeConf) (state : NodeState) : Prop :=
  ∃ manifest outcomes, data.manifestOf node = some manifest ∧ AllStaged outcomes ∧
    NodeState.boot manifest outcomes = some state

/-- All nodes are up. -/
def Deployed (data : ConfigData) (state : NodeConf → NodeState) : Prop :=
  ∀ node ∈ data.nodes, Boots data node (state node)

/-! ## Delivery -/

/-- The number of a service in a message. -/
def ServiceConf.number (svc : ServiceConf) : UInt32 := svc.id.number

/-- The path that a node binds, as far as `sun_path` has room. -/
def NodeConf.path (node : NodeConf) : String := stored 107 (spelled (asRead (textOf node.udsPath)))

/-- A message is put into the queue of a thread on which a component that provides the service is
loaded; an instance is known by its number and its name. -/
def Served (data : ConfigData) (state : NodeState) (svc : ServiceConf) (header : Header) : Prop :=
  ∃ thread, state.tables.route header = some (.localThread (some thread)) ∧
    ∃ comp ∈ data.components, svc ∈ comp.provides ∧ ∃ info ∈ state.loaded,
      info.ownerThread = thread ∧
      (state.instances info.comp).map (fun inst => (inst.id, inst.name)) =
        some (comp.id.number, spelled (asRead (textOf comp.name)))

/-- A message is sent to the path of a node that serves it. -/
def Forwarded (data : ConfigData) (state : NodeConf → NodeState) (node : NodeConf)
    (svc : ServiceConf) (header : Header) : Prop :=
  ∃ other ∈ data.nodes, ∃ nodeName,
    (state node).tables.route header = some (.remoteNode nodeName other.path) ∧
    Served data (state other) svc header

/-- A request for the service reaches a provider in at most one hop. -/
def Delivered (data : ConfigData) (state : NodeConf → NodeState) (node : NodeConf)
    (svc : ServiceConf) : Prop :=
  ∀ header : Header, header.toRequester = false → header.dstService = svc.number →
    Served data (state node) svc header ∨ Forwarded data state node svc header

/-! ## What a configuration binds -/

/-- The number of the provider in the manifest; services of the platform have `0`. -/
def ResolvedService.provider (svc : ResolvedService) : UInt32 :=
  (svc.providerId.getD (.int 0)).number

/-- The path of a service as it is read. -/
def ResolvedService.path (svc : ResolvedService) : List UInt8 := asRead (svc.udsPath.getD "")

/-- The service has the name of the node as both are read. -/
def ResolvedService.IsOf (svc : ResolvedService) (node : NodeConf) : Prop :=
  asRead svc.node = asRead (textOf node.name)

instance (svc : ResolvedService) (node : NodeConf) : Decidable (svc.IsOf node) :=
  inferInstanceAs (Decidable (_ = _))

namespace ConfigData

/-- The components that a node loads with their threads, as far as there is room. -/
def loads (data : ConfigData) (node : NodeConf) : List (ThreadRef × Row) :=
  (((data.rows node).zipIdx 1).flatMap fun entry =>
    (readRows entry.1.2).map fun row => (entry.2, row)).take maxComponentsPerNode

/-- The thread of the first component that a node loads under a number. -/
def loadThread (data : ConfigData) (node : NodeConf) (number : UInt32) : Option ThreadRef :=
  ((data.loads node).find? fun load => load.2.id.number = number).map Prod.fst

/-- A node can register the services of its own components and those that have a path. -/
def registers (data : ConfigData) (node : NodeConf) (svc : ResolvedService) : Bool :=
  if svc.IsOf node then (data.loadThread node svc.provider).isSome else svc.path ≠ []

/-- The services that a node needs and can register, in the order of their numbers; their count is
kept in 32 bits. -/
def registrable (data : ConfigData) (node : NodeConf) : List ResolvedService :=
  ((data.resolvedServices node).take ((data.resolvedServices node).length % 2 ^ 32)).filter
    (data.registers node)

/-- The service that a number is bound to on a node. -/
def bound (data : ConfigData) (node : NodeConf) (number : UInt32) : Option ResolvedService :=
  holder (·.id.number) 64 (data.registrable node) number

/-- The node passes requests for a number to a thread. -/
def Keeps (data : ConfigData) (node : NodeConf) (number : UInt32) (thread : ThreadRef) : Prop :=
  ∃ svc, data.bound node number = some svc ∧ svc.IsOf node ∧
    data.loadThread node svc.provider = some thread

/-- The node sends requests for a number to a path. -/
def Sends (data : ConfigData) (node : NodeConf) (number : UInt32) (path : String) : Prop :=
  ∃ svc, data.bound node number = some svc ∧ ¬ svc.IsOf node ∧ stored 107 (spelled svc.path) = path

/-- A thread of the node loads the component. -/
def Loads (data : ConfigData) (node : NodeConf) (thread : ThreadRef) (comp : ComponentConf) :
    Prop :=
  ∃ row, (thread, row) ∈ data.loads node ∧ row.id.number = comp.id.number ∧
    asRead row.name = asRead (textOf comp.name)

/-- The node passes requests for a number to a thread that loads the component. -/
def Serves (data : ConfigData) (node : NodeConf) (number : UInt32) (comp : ComponentConf) : Prop :=
  ∃ thread, data.Keeps node number thread ∧ data.Loads node thread comp

/-- The node serves the component under a number, or sends the requests to a node that does. -/
def Routes (data : ConfigData) (node : NodeConf) (number : UInt32) (comp : ComponentConf) : Prop :=
  data.Serves node number comp ∨
    ∃ other ∈ data.nodes, data.Sends node number other.path ∧ data.Serves other number comp

end ConfigData

/-! ## Strings -/

theorem charOfByte_injective : Function.Injective fun byte : UInt8 => Char.ofNat byte.toNat := by
  intro byte other same
  have valid (byte : UInt8) : byte.toNat.isValidChar := Or.inl (byte.toNat_lt.trans (by decide))
  have toNat (byte : UInt8) : (Char.ofNat byte.toNat).toNat = byte.toNat := by
    rw [Char.ofNat, dif_pos (valid byte)]
    rfl
  have codes : (Char.ofNat byte.toNat).toNat = (Char.ofNat other.toNat).toNat :=
    congrArg Char.toNat same
  rw [toNat, toNat] at codes
  exact UInt8.toNat_inj.mp codes

theorem spelled_inj {bytes others : List UInt8} :
    spelled bytes = spelled others ↔ bytes = others := by
  rw [spelled, spelled, String.ofList_inj]
  exact charOfByte_injective.list_map.eq_iff

theorem isEmpty_spelled {bytes : List UInt8} :
    (spelled bytes).isEmpty = decide (bytes = []) := by
  have nothing : spelled bytes = spelled [] ↔ bytes = [] := spelled_inj
  rw [Bool.eq_iff_iff, decide_eq_true_iff, String.isEmpty_iff]
  exact nothing

/-! ## The manifest of a node -/

section Manifests

variable {data : ConfigData} {node : NodeConf}

theorem placed_eq (threads : List ThreadDef) (first : ThreadRef) :
    placed threads first =
      (threads.zipIdx first).flatMap fun entry => entry.1.comps.map fun comp => (entry.2, comp) := by
  induction threads generalizing first with
  | nil => rfl
  | cons threadDef threads ih => rw [placed, ih, List.zipIdx_cons, List.flatMap_cons]

theorem hosted_readManifest : (data.readManifest node).hosted =
    (data.loads node).map fun load => (load.1, load.2.compDef) := by
  rw [Manifest.hosted, placed_eq, ConfigData.loads, List.map_take, List.map_flatMap]
  congr 1
  rw [ConfigData.readManifest, List.zipIdx_map, List.flatMap_map]
  refine List.flatMap_congr fun entry _ => ?_
  simp only [Prod.map, id_eq, List.map_map]
  rfl

theorem providerThread_readManifest (number : UInt32) :
    (data.readManifest node).providerThread number = data.loadThread node number := by
  rw [Manifest.providerThread, hosted_readManifest, List.find?_map, Option.map_map]
  rfl

theorem routed_nodeName {svc : ResolvedService} :
    svc.routed.nodeName = (data.readManifest node).name ↔ svc.IsOf node := spelled_inj

theorem registers_routed (svc : ResolvedService) :
    (data.readManifest node).registers svc.routed = data.registers node svc := by
  have hosted : ((data.readManifest node).hosted.any fun entry =>
      entry.2.id = svc.routed.providerCompId) = (data.loadThread node svc.provider).isSome := by
    rw [ConfigData.loadThread, hosted_readManifest, List.any_map, Option.isSome_map,
      List.isSome_find?]
    rfl
  unfold Manifest.registers ConfigData.registers
  simp only [routed_nodeName, hosted]
  congr 1
  change (some (spelled svc.path)).any _ = _
  rw [Option.any_some, isEmpty_spelled, decide_not]

/-- The services of the manifest hold the numbers that the configuration binds. -/
theorem holder_readManifest (number : UInt32) :
    (data.readManifest node).holder number =
      (data.bound node number).map ResolvedService.routed := by
  have each : (data.readManifest node).registers ∘ ResolvedService.routed = data.registers node :=
    funext registers_routed
  have kept : (data.readManifest node).services.filter (data.readManifest node).registers =
      (data.registrable node).map ResolvedService.routed := by
    rw [ConfigData.registrable, ← each, ← List.filter_map]
    rfl
  rw [Manifest.holder, kept, holder_map]
  rfl

end Manifests

/-! ## Nodes that are up -/

section Booted

variable {data : ConfigData} {node : NodeConf} {state : NodeState} {svc : ServiceConf}
  {header : Header}

/-- The node is up with its manifest. -/
structure Up (data : ConfigData) (node : NodeConf) (state : NodeState) : Prop where
  ready : state.Ready
  manifest : state.manifest = data.readManifest node

theorem WellFormed.up (wellFormed : WellFormed data) (listed : node ∈ data.nodes)
    (booted : Boots data node state) : Up data node state := by
  obtain ⟨manifest, outcomes, given, succeed, started⟩ := booted
  obtain ⟨starts, rfl⟩ := (wellFormed.manifestOf_eq_some_iff listed).mp given
  obtain ⟨ready, same⟩ := NodeState.ready_of_boot starts.tidy succeed started
  exact ⟨ready, same⟩

/-- The message is no reply and is meant for the service. -/
structure Asks (svc : ServiceConf) (header : Header) : Prop where
  request : header.toRequester = false
  service : header.dstService = svc.number

/-- A request for the service. -/
def request (svc : ServiceConf) : Header := ⟨0x4E4F, 1, svc.number, 0, 0, 0, 0, 0, 0⟩

theorem asks_request (svc : ServiceConf) : Asks svc (request svc) :=
  ⟨by simp [request, Header.toRequester], rfl⟩

theorem Asks.route_of_unbound (asks : Asks svc header) (up : Up data node state)
    (unbound : data.bound node svc.number = none) : state.tables.route header = none := by
  have missing : state.manifest.holder svc.number = none := by
    rw [up.manifest, holder_readManifest, unbound]
    rfl
  rw [Tables.route, asks.request, asks.service, up.ready.findService_eq_none missing]
  rfl

/-- A request for a service of this node goes to the thread of its provider. -/
theorem Asks.route_of_here (asks : Asks svc header) (up : Up data node state)
    {winner : ResolvedService} (held : data.bound node svc.number = some winner)
    (here : winner.IsOf node) :
    state.tables.route header = some (.localThread (data.loadThread node winner.provider)) := by
  have holds : state.manifest.holder svc.number = some winner.routed := by
    rw [up.manifest, holder_readManifest, held]
    rfl
  obtain ⟨entry, found, describes⟩ := up.ready.findService holds
  obtain ⟨near, thread⟩ := describes.here (up.manifest ▸ routed_nodeName.mpr here)
  have thread_eq : entry.localThread = data.loadThread node winner.provider := by
    rw [thread, up.manifest]
    exact providerThread_readManifest _
  rw [Tables.route, asks.request, asks.service, found, ← thread_eq]
  simp [near]

theorem Asks.route_of_elsewhere (asks : Asks svc header) (up : Up data node state)
    {winner : ResolvedService} (held : data.bound node svc.number = some winner)
    (away : ¬ winner.IsOf node) :
    ∃ nodeName, state.tables.route header =
      some (.remoteNode nodeName (stored 107 (spelled winner.path))) := by
  have holds : state.manifest.holder svc.number = some winner.routed := by
    rw [up.manifest, holder_readManifest, held]
    rfl
  obtain ⟨entry, found, describes⟩ := up.ready.findService holds
  obtain ⟨far, path, given, path_eq⟩ :=
    describes.elsewhere (up.manifest ▸ mt routed_nodeName.mp away)
  obtain rfl : spelled winner.path = path := Option.some.inj given
  refine ⟨entry.remoteNode, ?_⟩
  rw [Tables.route, asks.request, asks.service, found, ← path_eq]
  simp [far]

/-- A node passes a request to a thread exactly if the configuration says so. -/
theorem Asks.localThread_iff (asks : Asks svc header) (up : Up data node state)
    {thread : ThreadRef} :
    state.tables.route header = some (.localThread (some thread)) ↔
      data.Keeps node svc.number thread := by
  cases held : data.bound node svc.number with
  | none => simp [asks.route_of_unbound up held, ConfigData.Keeps, held]
  | some winner =>
      by_cases here : winner.IsOf node
      · simp [asks.route_of_here up held here, ConfigData.Keeps, held, here]
      · obtain ⟨nodeName, route⟩ := asks.route_of_elsewhere up held here
        simp [route, ConfigData.Keeps, held, here]

/-- A node sends a request to a path exactly if the configuration says so. -/
theorem Asks.remoteNode_iff (asks : Asks svc header) (up : Up data node state) {path : String} :
    (∃ nodeName, state.tables.route header = some (.remoteNode nodeName path)) ↔
      data.Sends node svc.number path := by
  cases held : data.bound node svc.number with
  | none => simp [asks.route_of_unbound up held, ConfigData.Sends, held]
  | some winner =>
      by_cases here : winner.IsOf node
      · simp [asks.route_of_here up held here, ConfigData.Sends, held, here]
      · obtain ⟨nodeName, route⟩ := asks.route_of_elsewhere up held here
        simp [route, ConfigData.Sends, held, here]

theorem Up.loaded_iff (up : Up data node state) {thread : ThreadRef} {comp : ComponentConf} :
    (∃ info ∈ state.loaded, info.ownerThread = thread ∧
      (state.instances info.comp).map (fun inst => (inst.id, inst.name)) =
        some (comp.id.number, spelled (asRead (textOf comp.name)))) ↔
      data.Loads node thread comp := by
  have hosted : state.manifest.hosted =
      (data.loads node).map fun load => (load.1, load.2.compDef) := by
    rw [up.manifest, hosted_readManifest]
  constructor
  · rintro ⟨info, loaded, rfl, shows⟩
    obtain ⟨entry, member, view⟩ := up.ready.hosts.of_loaded loaded
    rw [hosted] at member
    obtain ⟨load, inside, rfl⟩ := List.mem_map.mp member
    obtain ⟨thread_eq, inst⟩ := Prod.mk.inj view
    obtain ⟨id, name⟩ := Prod.mk.inj (Option.some.inj (inst.trans shows))
    exact ⟨load.2, by rwa [← thread_eq], id, spelled_inj.mp name⟩
  · rintro ⟨row, inside, id, name⟩
    have member : (thread, row.compDef) ∈ state.manifest.hosted := by
      rw [hosted]
      exact List.mem_map.mpr ⟨_, inside, rfl⟩
    obtain ⟨info, loaded, view⟩ := up.ready.hosts.of_hosted member
    obtain ⟨thread_eq, inst⟩ := Prod.mk.inj view
    refine ⟨info, loaded, thread_eq.symm, ?_⟩
    rw [← inst, Row.compDef, id, name]

theorem WellFormed.provider_unique (wellFormed : WellFormed data) {comp other : ComponentConf}
    (member : comp ∈ data.components) (member' : other ∈ data.components)
    (provided : svc ∈ comp.provides) (provided' : svc ∈ other.provides) : comp = other := by
  have listed {comp : ComponentConf} (member : comp ∈ data.components)
      (provided : svc ∈ comp.provides) : data.componentService comp svc ∈ data.globalSvcMap :=
    List.mem_append_right _ (List.mem_flatMap.mpr ⟨comp, member, List.mem_map_of_mem provided⟩)
  have same := wellFormed.entry_unique (listed member provided) (listed member' provided') rfl
  have ids : comp.id = other.id := Option.some.inj (congrArg (·.2.providerId) same)
  exact List.inj_on_of_nodup_map wellFormed.distinctIds member member' (congrArg Scalar.toInt? ids)

/-- A node serves a request exactly if the configuration says so. -/
theorem Asks.served_iff (asks : Asks svc header) (wellFormed : WellFormed data)
    (up : Up data node state) {provider : ComponentConf} (member : provider ∈ data.components)
    (provided : svc ∈ provider.provides) :
    Served data state svc header ↔ data.Serves node svc.number provider := by
  constructor
  · rintro ⟨thread, route, comp, known, provides, loaded⟩
    obtain rfl := wellFormed.provider_unique known member provides provided
    exact ⟨thread, (asks.localThread_iff up).mp route, up.loaded_iff.mp loaded⟩
  · rintro ⟨thread, keeps, loads⟩
    exact ⟨thread, (asks.localThread_iff up).mpr keeps, provider, member, provided,
      up.loaded_iff.mpr loads⟩

end Booted

/-! ## Deployed configurations -/

section Deployed

variable {data : ConfigData}

theorem WellFormed.exists_deployed_iff (wellFormed : WellFormed data) :
    (∃ state, Deployed data state) ↔ ∀ node ∈ data.nodes, Starts data node := by
  constructor
  · rintro ⟨state, deployed⟩ node listed
    obtain ⟨manifest, -, given, -⟩ := deployed node listed
    exact ((wellFormed.manifestOf_eq_some_iff listed).mp given).1
  · intro starts
    have each (node : NodeConf) : ∃ state, node ∈ data.nodes → Boots data node state := by
      obtain ⟨outcomes, state, succeed, started⟩ := NodeState.exists_boot (data.readManifest node)
      refine ⟨state, fun listed => ⟨_, outcomes, ?_, succeed, started⟩⟩
      exact (wellFormed.manifestOf_eq_some_iff listed).mpr ⟨starts node listed, rfl⟩
    choose state boots using each
    exact ⟨state, boots⟩

/-- A service is delivered exactly if the configuration routes its number to the provider. -/
theorem WellFormed.delivered_iff_routes (wellFormed : WellFormed data) {state : NodeConf → NodeState}
    (deployed : Deployed data state) {node : NodeConf} (listed : node ∈ data.nodes)
    {provider : ComponentConf} (member : provider ∈ data.components) {svc : ServiceConf}
    (provided : svc ∈ provider.provides) :
    Delivered data state node svc ↔ data.Routes node svc.number provider := by
  have up := fun node listed => wellFormed.up listed (deployed node listed)
  have served {header : Header} (asks : Asks svc header) {node : NodeConf}
      (listed : node ∈ data.nodes) :
      Served data (state node) svc header ↔ data.Serves node svc.number provider :=
    asks.served_iff wellFormed (up node listed) member provided
  constructor
  · intro delivered
    have asks := asks_request svc
    rcases delivered (request svc) asks.request asks.service with
      here | ⟨other, listed', nodeName, route, there⟩
    · exact Or.inl ((served asks listed).mp here)
    · have sends := (asks.remoteNode_iff (up node listed)).mp ⟨nodeName, route⟩
      exact Or.inr ⟨other, listed', sends, (served asks listed').mp there⟩
  · intro routes header isRequest meant
    have asks : Asks svc header := ⟨isRequest, meant⟩
    rcases routes with here | ⟨other, listed', sends, there⟩
    · exact Or.inl ((served asks listed).mpr here)
    · obtain ⟨nodeName, route⟩ := (asks.remoteNode_iff (up node listed)).mpr sends
      exact Or.inr ⟨other, listed', nodeName, route, (served asks listed').mpr there⟩

end Deployed

/-- `SVC_WORK`. -/
def svcWork : ServiceConf := ⟨some "SVC_WORK", .int 100, some "remote"⟩

/-- The component that provides it. -/
def compA : ComponentConf := ⟨some "Comp-A", .int 10, some "Model1", [svcWork], []⟩

/-- A component that requires it. -/
def compB : ComponentConf := ⟨some "Comp-B", .int 11, some "Model1", [], ["SVC_WORK"]⟩

/-- A node with one component. -/
def oneComponent (name path comp : String) : NodeConf :=
  ⟨some name, some path, none, [⟨some "Worker-1", [comp]⟩], none⟩

/-- The node of the component that requires the service. -/
def procB : NodeConf := oneComponent "ProcB" "/tmp/proc_b.sock" "Comp-B"

/-- The two components on some nodes. -/
def workConfig (nodes : List NodeConf) : ConfigData where
  nodes := nodes
  components := [compA, compB]
  profiles := [⟨some "default", [⟨.int 64, .int 8⟩]⟩]
  models := [⟨some "Model1", some "libcomp.so"⟩]
  platform := []

/-- The nodes of an accepted configuration start if their manifests are read. -/
theorem WellFormed.starts_of_isSome {data : ConfigData} (wellFormed : WellFormed data)
    (read : ∀ node ∈ data.nodes, (data.manifestOf node).isSome) :
    ∀ node ∈ data.nodes, Starts data node := by
  intro node listed
  obtain ⟨manifest, given⟩ := Option.isSome_iff_exists.mp (read node listed)
  exact ((wellFormed.manifestOf_eq_some_iff listed).mp given).1

end CodexNos.Config
