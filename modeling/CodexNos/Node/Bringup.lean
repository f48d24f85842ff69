import CodexNos.Lib.LastWins
import CodexNos.Node.Startup

/-!
# What start-up loads and registers

If every library loads, start-up puts the first components of the manifest into the table of loaded
components, and `node_setup_routing` enters each service whose provider is in the table or that has
a path.  A number that two services have is that of the later one, and a new number needs room in the
registry.
-/

namespace CodexNos.Node

open Lib Messaging Scheduler

/-! ## What a manifest asks for -/

/-- Every library loads and every component initialises. -/
def AllStaged (outcomes : List (List LoadOutcome)) : Prop := ∀ thread ∈ outcomes, .failed ∉ thread

/-- The components of some threads in the order in which they are loaded; the first thread has this
number. -/
def placed : List ThreadDef → ThreadRef → List (ThreadRef × CompDef)
  | [], _ => []
  | threadDef :: threads, thread =>
      threadDef.comps.map (fun comp => (thread, comp)) ++ placed threads (thread + 1)

namespace Manifest

/-- The components for which the table has room. -/
def hosted (manifest : Manifest) : List (ThreadRef × CompDef) :=
  (placed manifest.threads 1).take maxComponentsPerNode

/-- The service can be registered. -/
def registers (manifest : Manifest) (svc : RoutedService) : Bool :=
  if svc.nodeName = manifest.name then
    manifest.hosted.any fun entry => entry.2.id = svc.providerCompId
  else svc.remoteUdsPath.any fun path => !path.isEmpty

/-- The service that a number is bound to. -/
def holder (manifest : Manifest) (serviceId : UInt32) : Option RoutedService :=
  Lib.holder (·.serviceId) 64 (manifest.services.filter manifest.registers) serviceId

/-- The thread of the first hosted component with a number. -/
def providerThread (manifest : Manifest) (id : UInt32) : Option ThreadRef :=
  (manifest.hosted.find? fun entry => entry.2.id = id).map Prod.fst

/-- The manifest stays below the limits of the loops that read it. -/
structure Tidy (manifest : Manifest) : Prop where
  threads : manifest.threads.length ≤ maxWorkers
  comps : ∀ thread ∈ manifest.threads, thread.comps.length ≤ maxCompPerThread
  ids : ∀ thread ∈ manifest.threads, ∀ comp ∈ thread.comps, comp.id ≠ 0

/-- The entry that start-up makes of a service. -/
structure Describes (manifest : Manifest) (svc : RoutedService) (entry : ServiceEntry) : Prop where
  serviceId : entry.serviceId = svc.serviceId
  /-- A service of this node is bound to the thread of the first component with the number of its
  provider. -/
  here : svc.nodeName = manifest.name →
    entry.isRemote = false ∧ entry.localThread = manifest.providerThread svc.providerCompId
  /-- Another service has the path of its node. -/
  elsewhere : svc.nodeName ≠ manifest.name → entry.isRemote = true ∧
    ∃ path, svc.remoteUdsPath = some path ∧ entry.remoteUdsPath = stored 107 path

end Manifest

theorem take_append_of_take {α : Type*} (items later : List α) (limit : Nat) :
    (items.take limit ++ later).take limit = (items ++ later).take limit := by
  rw [List.take_append, List.take_append, List.take_take, Nat.min_self, List.length_take]
  rcases Nat.le_total items.length limit with short | long
  · rw [Nat.min_eq_right short]
  · rw [Nat.min_eq_left long, Nat.sub_self, Nat.sub_eq_zero_of_le long]

namespace NodeState

/-! ## Loading -/

/-- The table of loaded components, with numbers and names. -/
def seen (node : NodeState) : List (ThreadRef × Option (UInt32 × String)) :=
  node.loaded.map fun entry =>
    (entry.ownerThread, (node.instances entry.comp).map fun inst => (inst.id, inst.name))

/-- A component as it is in the table. -/
def shown (entry : ThreadRef × CompDef) : ThreadRef × Option (UInt32 × String) :=
  (entry.1, some (entry.2.id, entry.2.name))

theorem Listed.seen_update {node : NodeState} (listed : node.Listed) {comp : CompRef}
    (free : node.instances comp = none) (new : Option Instance) :
    (node.loaded.map fun entry => (entry.ownerThread,
      (Function.update node.instances comp new entry.comp).map fun inst => (inst.id, inst.name))) =
      node.seen := by
  refine List.map_congr_left fun entry member => ?_
  have different : entry.comp ≠ comp := by
    intro same
    have allocated := listed.allocated entry member
    simp [same, free] at allocated
  rw [Function.update_of_ne different]

/-- A library that loads gives a new instance with the number and the name of the manifest. -/
theorem nodeLoadComponentStaged_of_staged {node staged : NodeState} {id : UInt32} {name : String}
    {outcome : LoadOutcome} {loaded : Option CompRef} (succeeds : outcome ≠ .failed)
    (done : node.nodeLoadComponentStaged id name outcome = some (staged, loaded)) :
    ∃ comp onMsg, loaded = some comp ∧ node.instances comp = none ∧
      staged = NodeState.setStatus
        { node with instances := Function.update node.instances comp (some ⟨id, name, onMsg⟩) }
        comp .inited := by
  cases outcome with
  | failed => exact absurd rfl succeeds
  | staged comp onMsg =>
      simp only [nodeLoadComponentStaged] at done
      split at done
      · simp at done
      · rename_i free
        obtain ⟨rfl, rfl⟩ := Prod.mk.inj (Option.some.inj done)
        exact ⟨comp, onMsg, rfl, free, rfl⟩

/-- A component that loads goes to the end of the table, if there is room. -/
theorem Listed.nodeInitComponent_seen {node after : NodeState} (listed : node.Listed)
    {thread : ThreadRef} (room : (node.components thread).length < maxCompPerThread)
    {compDef : CompDef} {outcome : LoadOutcome} (succeeds : outcome ≠ .failed)
    (loaded : node.nodeInitComponent thread compDef outcome = some after)
    (fits : node.loaded.length ≤ maxComponentsPerNode) :
    after.seen = (node.seen ++ [shown (thread, compDef)]).take maxComponentsPerNode ∧
      (after.components thread).length ≤ (node.components thread).length + 1 ∧
      after.unusedEntries = node.unusedEntries := by
  have length : node.seen.length = node.loaded.length := List.length_map _
  unfold NodeState.nodeInitComponent at loaded
  split at loaded
  · simp at loaded
  · rename_i staging
    obtain ⟨_, _, none_eq, -⟩ := nodeLoadComponentStaged_of_staged succeeds staging
    simp at none_eq
  · rename_i staged comp staging
    obtain ⟨comp', onMsg, some_eq, free, staged_eq⟩ :=
      nodeLoadComponentStaged_of_staged succeeds staging
    obtain rfl : comp = comp' := Option.some.inj some_eq
    split at loaded
    · rename_i full
      obtain rfl := Option.some.inj loaded
      have size : node.seen.length = maxComponentsPerNode := by
        rw [staged_eq] at full
        exact length.trans (le_antisymm fits full)
      have unchanged := listed.seen_update free none
      rw [staged_eq]
      refine ⟨?_, Nat.le_succ _, rfl⟩
      rw [List.take_append_of_le_length size.ge, List.take_of_length_le size.le, ← unchanged]
      unfold seen NodeState.nodeDestroyLoadedComponent NodeState.setStatus
      simp only [Function.update_idem]
    · rename_i space
      have room' : (staged.components thread).length < maxCompPerThread := by
        rwa [staged_eq]
      rw [nosSchedulerRegisterComponent_eq room'] at loaded
      obtain rfl := Option.some.inj loaded
      rw [staged_eq] at space ⊢
      have short : node.seen.length < maxComponentsPerNode := by
        rw [length]
        exact not_le.mp space
      refine ⟨?_, ?_, rfl⟩
      · rw [List.take_of_length_le (by simpa using short), ← listed.seen_update free
          (some ⟨compDef.id, compDef.name, onMsg⟩)]
        simp [seen, shown, setComponents, setStatus]
      · change (components (setComponents _ thread _) thread).length ≤ _
        rw [setComponents_components, List.length_append]
        exact le_refl _

/-- The components of a thread go to the end of the table, as far as there is room. -/
theorem Starting.nodeInitThread_seen {thread : ThreadRef} {node after : NodeState}
    (starting : Starting thread node) (worker : 0 < thread) {comps : List CompDef}
    {outcomes : List LoadOutcome} (succeed : .failed ∉ outcomes)
    (loaded : NodeState.nodeInitThread thread comps outcomes node = some after)
    (room : (node.components thread).length + comps.length ≤ maxCompPerThread)
    (fits : node.seen.length ≤ maxComponentsPerNode) :
    after.seen =
        (node.seen ++ comps.map fun comp => shown (thread, comp)).take maxComponentsPerNode ∧
      after.unusedEntries = node.unusedEntries := by
  induction comps generalizing node outcomes with
  | nil =>
      obtain rfl := Option.some.inj loaded
      rw [List.map_nil, List.append_nil, List.take_of_length_le fits]
      exact ⟨rfl, rfl⟩
  | cons compDef comps ih =>
      cases outcomes with
      | nil => simp [NodeState.nodeInitThread] at loaded
      | cons outcome outcomes =>
          obtain ⟨succeeds, succeed⟩ := not_or.mp (mt List.mem_cons.mpr succeed)
          obtain ⟨next, first, rest⟩ := Option.bind_eq_some_iff.mp loaded
          rw [List.length_cons] at room
          have inside : (node.components thread).length < maxCompPerThread := by omega
          obtain ⟨seen_eq, longer, unused⟩ := starting.listed.nodeInitComponent_seen inside
            (Ne.symm succeeds) first ((List.length_map _).symm.trans_le fits)
          obtain ⟨starting', -, -⟩ := starting.nodeInitComponent worker first
          have fits' : next.seen.length ≤ maxComponentsPerNode := by
            rw [seen_eq]
            exact List.length_take_le _ _
          obtain ⟨later, unused'⟩ := ih starting' succeed rest (by omega) fits'
          refine ⟨?_, unused'.trans unused⟩
          rw [later, seen_eq, take_append_of_take, List.append_assoc]
          rfl

/-- The components of the threads go to the end of the table, as far as there is room. -/
theorem Starting.nodeInitThreads_seen {node after : NodeState}
    (starting : Starting node.lastWorker node) (positive : 0 < node.sys.threadCount)
    {threads : List ThreadDef} {outcomes : List (List LoadOutcome)} (succeed : AllStaged outcomes)
    (loaded : NodeState.nodeInitThreads threads outcomes node = some after)
    (lengths : ∀ thread ∈ threads, thread.comps.length ≤ maxCompPerThread)
    (ids : ∀ thread ∈ threads, ∀ comp ∈ thread.comps, comp.id ≠ 0)
    (fits : node.seen.length ≤ maxComponentsPerNode) :
    after.seen = (node.seen ++ (placed threads node.sys.threadCount).map shown).take
        maxComponentsPerNode ∧
      after.unusedEntries = node.unusedEntries := by
  induction threads generalizing node outcomes with
  | nil =>
      obtain rfl := Option.some.inj loaded
      rw [placed, List.map_nil, List.append_nil, List.take_of_length_le fits]
      exact ⟨rfl, rfl⟩
  | cons threadDef threads ih =>
      cases outcomes with
      | nil => simp [NodeState.nodeInitThreads] at loaded
      | cons first later =>
          obtain ⟨filled, filling, rest⟩ := Option.bind_eq_some_iff.mp loaded
          obtain ⟨short, lengths⟩ := List.forall_mem_cons.mp lengths
          obtain ⟨nonzero, ids⟩ := List.forall_mem_cons.mp ids
          obtain ⟨succeeds, succeed⟩ := List.forall_mem_cons.mp succeed
          have comps_eq : (threadDef.comps.takeWhile (·.id ≠ 0)).take maxComponentsPerNode =
              threadDef.comps := by
            rw [List.takeWhile_eq_self_iff.mpr (by simpa using nonzero),
              List.take_of_length_le (short.trans (by decide))]
          rw [comps_eq] at filling
          have last : node.lastWorker < node.sys.threadCount := Nat.sub_lt positive Nat.one_pos
          have empty : node.components node.sys.threadCount = [] := starting.components_nil last
          obtain ⟨seen_eq, unused⟩ := starting.reached.nodeInitThread_seen positive succeeds filling
            (by simpa [empty] using short) fits
          obtain ⟨started, -, count⟩ := starting.reached.nodeInitThread positive filling
          have fits' : filled.seen.length ≤ maxComponentsPerNode := by
            rw [seen_eq]
            exact List.length_take_le _ _
          obtain ⟨rest_eq, unused'⟩ :=
            ih (started.counted count) (Nat.succ_pos _) succeed rest lengths ids fits'
          refine ⟨?_, unused'.trans unused⟩
          have same : ({ filled with
              sys := { filled.sys with threadCount := filled.sys.threadCount + 1 } } :
                NodeState).seen = filled.seen := rfl
          rw [rest_eq, same, seen_eq, take_append_of_take, List.append_assoc, placed, List.map_append,
            List.map_map, count]
          rfl

theorem seen_of_nodeInitWorkers {manifest : Manifest} (tidy : manifest.Tidy)
    {outcomes : List (List LoadOutcome)} (succeed : AllStaged outcomes) {node : NodeState}
    (loaded : (blank manifest).nodeInitWorkers outcomes = some node) :
    node.seen = manifest.hosted.map shown ∧ node.unusedEntries = List.replicate 64 blankEntry := by
  have blank_starting : Starting (blank manifest).lastWorker (blank manifest) :=
    starting_blank manifest
  have threads_eq : (blank manifest).manifest.threads.take maxWorkers = manifest.threads :=
    List.take_of_length_le tidy.threads
  rw [nodeInitWorkers, threads_eq] at loaded
  obtain ⟨seen_eq, unused⟩ := blank_starting.nodeInitThreads_seen Nat.one_pos succeed loaded
    tidy.comps tidy.ids (Nat.zero_le _)
  refine ⟨?_, unused⟩
  rw [seen_eq, Manifest.hosted, List.map_take]
  rfl

/-! ## Finding providers -/

/-- The table has the components of the manifest for which there is room. -/
def Hosts (node : NodeState) : Prop := node.seen = node.manifest.hosted.map shown

theorem Hosts.of_loaded {node : NodeState} (hosts : node.Hosts) {info : LoadedComp}
    (member : info ∈ node.loaded) :
    ∃ entry ∈ node.manifest.hosted, shown entry =
      (info.ownerThread, (node.instances info.comp).map fun inst => (inst.id, inst.name)) := by
  have listed : _ ∈ node.seen := List.mem_map_of_mem member
  rw [hosts] at listed
  exact List.mem_map.mp listed

theorem Hosts.of_hosted {node : NodeState} (hosts : node.Hosts) {entry : ThreadRef × CompDef}
    (member : entry ∈ node.manifest.hosted) :
    ∃ info ∈ node.loaded, shown entry =
      (info.ownerThread, (node.instances info.comp).map fun inst => (inst.id, inst.name)) := by
  have listed : _ ∈ node.manifest.hosted.map shown := List.mem_map_of_mem member
  rw [← hosts] at listed
  obtain ⟨info, inside, same⟩ := List.mem_map.mp listed
  exact ⟨info, inside, same.symm⟩

/-- The first loaded component with a number is on the thread of the first hosted one. -/
theorem Hosts.providerThread {node : NodeState} (hosts : node.Hosts) (id : UInt32) :
    (node.loaded.find? fun entry => node.idOf entry.comp = id).map (·.ownerThread) =
      node.manifest.providerThread id := by
  let wanted (entry : ThreadRef × Option (UInt32 × String)) : Bool :=
    (entry.2.map Prod.fst).getD 0 = id
  have loaded : (node.loaded.find? fun entry => node.idOf entry.comp = id).map (·.ownerThread) =
      (node.seen.find? wanted).map Prod.fst := by
    rw [seen, List.find?_map, Option.map_map]
    congr 2
    funext entry
    simp only [wanted, idOf, Function.comp_def, Option.map_map]
    rfl
  rw [loaded, hosts, List.find?_map, Option.map_map, Manifest.providerThread]
  rfl

/-- A loaded component is found by its number, and so is its worker. -/
theorem Wiring.located {node : NodeState} (wiring : node.Wiring) {info : LoadedComp}
    (member : info ∈ node.loaded) :
    ∃ provider worker, node.nodeGetLoadedCompById (node.idOf info.comp) = some provider ∧
      node.ownerWorker (node.idOf info.comp) = some worker := by
  have found : (node.loaded.find? fun entry => node.idOf entry.comp = node.idOf info.comp).isSome := by
    rw [List.find?_isSome]
    exact ⟨info, member, by simp⟩
  have located : ((List.range (node.sys.threadCount - 1)).find? fun worker =>
      (node.components (worker + 1)).any fun comp => node.idOf comp = node.idOf info.comp).isSome := by
    obtain ⟨positive, reached⟩ := wiring.workers info member
    have here : info.ownerThread - 1 + 1 = info.ownerThread := Nat.sub_add_cancel positive
    rw [List.find?_isSome]
    refine ⟨info.ownerThread - 1, List.mem_range.mpr ?_, ?_⟩
    · exact (Nat.sub_lt positive Nat.one_pos).trans_le reached
    · rw [here, List.any_eq_true]
      exact ⟨info.comp, wiring.sound.listed.mem_components member, by simp⟩
  obtain ⟨first, found⟩ := Option.isSome_iff_exists.mp found
  obtain ⟨index, located⟩ := Option.isSome_iff_exists.mp located
  exact ⟨first.comp, index + 1, by rw [nodeGetLoadedCompById, found, Option.map_some],
    by rw [ownerWorker, located, Option.map_some]⟩

/-- The provider and the worker that start-up looks up are those of the first hosted component. -/
theorem Wiring.providerThread_eq {node : NodeState} (wiring : node.Wiring) (hosts : node.Hosts)
    {id : UInt32} {provider : CompRef} {worker : ThreadRef}
    (found : node.nodeGetLoadedCompById id = some provider)
    (located : node.ownerWorker id = some worker) :
    node.manifest.providerThread id = some worker := by
  obtain ⟨info, listed, same, rfl, -⟩ := wiring.owner found located
  obtain ⟨first, first_found, rfl⟩ := Option.map_eq_some_iff.mp found
  have inside := List.mem_of_find?_eq_some first_found
  obtain rfl := List.inj_on_of_nodup_map wiring.sound.listed.distinct listed inside same
  rw [← hosts.providerThread, first_found, Option.map_some]

/-! ## Registering -/

/-- The registry after some services were entered. -/
structure Entered (node : NodeState) (services : List RoutedService) : Prop where
  /-- What a number is bound to has an entry. -/
  held : ∀ {serviceId : UInt32} {svc : RoutedService},
    holder (·.serviceId) 64 services serviceId = some svc →
      ∃ entry ∈ node.registry, node.manifest.Describes svc entry
  /-- There is no other entry. -/
  known : ∀ entry ∈ node.registry, (holder (·.serviceId) 64 services entry.serviceId).isSome
  /-- The registry has an entry for each number, up to its size. -/
  count : node.registry.length = min 64 (keyCount (·.serviceId) services)
  room : node.registry.length + node.unusedEntries.length = 64

section Entering

variable {node : NodeState} {services : List RoutedService} {svc : RoutedService}
  {fill : ServiceEntry → ServiceEntry}

theorem isSome_holder_concat {serviceId : UInt32}
    (bound : (holder (·.serviceId) 64 services serviceId).isSome) :
    (holder (·.serviceId) 64 (services ++ [svc]) serviceId).isSome := by
  by_cases same : svc.serviceId = serviceId
  · subst same
    obtain ⟨old, held⟩ := Option.isSome_iff_exists.mp bound
    obtain ⟨member, key⟩ := mem_of_holder held
    have known : svc.serviceId ∈ services.map (·.serviceId) := List.mem_map.mpr ⟨old, member, key⟩
    rw [holder_concat_of_mem known, held]
    rfl
  · rwa [holder_concat_of_ne (fun svc : RoutedService => svc.serviceId) same]

/-- A service whose number has an entry takes the entry over. -/
theorem Entered.replace (entered : node.Entered services)
    (unique : UniqueServices node.registry) {index : Fin node.registry.length}
    (same : (node.registry.get index).serviceId = svc.serviceId)
    (describes : node.manifest.Describes svc (fill (node.registry.get index))) :
    Entered { node with registry := node.registry.set index (fill (node.registry.get index)) }
      (services ++ [svc]) := by
  have bound := entered.known _ (List.getElem_mem index.isLt)
  have known : svc.serviceId ∈ services.map (·.serviceId) := by
    obtain ⟨old, held⟩ := Option.isSome_iff_exists.mp bound
    obtain ⟨member, key⟩ := mem_of_holder held
    exact List.mem_map.mpr ⟨old, member, key.trans same⟩
  have members {entry : ServiceEntry} :
      entry ∈ node.registry.set index (fill (node.registry.get index)) ↔
        entry = fill (node.registry.get index) ∨
          entry ∈ node.registry ∧ entry.serviceId ≠ svc.serviceId := by
    rw [← same]
    exact mem_set_iff_of_unique unique
  refine ⟨?_, ?_, ?_, ?_⟩
  · intro serviceId other held
    by_cases own : svc.serviceId = serviceId
    · subst own
      rw [holder_concat_of_mem known] at held
      obtain ⟨_, -, rfl⟩ := Option.map_eq_some_iff.mp held
      exact ⟨_, members.mpr (Or.inl rfl), describes⟩
    · rw [holder_concat_of_ne (fun svc : RoutedService => svc.serviceId) own] at held
      obtain ⟨entry, present, kept⟩ := entered.held held
      refine ⟨entry, members.mpr (Or.inr ⟨present, ?_⟩), kept⟩
      rw [kept.serviceId, (mem_of_holder held).2]
      exact Ne.symm own
  · intro entry present
    rcases members.mp present with rfl | ⟨old, -⟩
    · rw [describes.serviceId, ← same]
      exact isSome_holder_concat bound
    · exact isSome_holder_concat (entered.known entry old)
  · rw [keyCount_concat_of_mem known]
    exact (List.length_set ..).trans entered.count
  · exact (congrArg (· + _) (List.length_set ..)).trans entered.room

/-- A service whose number has no entry gets one if there is room. -/
theorem Entered.append (entered : node.Entered services)
    (absent : ∀ entry ∈ node.registry, entry.serviceId ≠ svc.serviceId) {first : ServiceEntry}
    {rest : List ServiceEntry} (unused : node.unusedEntries = first :: rest)
    (describes : node.manifest.Describes svc (fill first)) :
    Entered { node with registry := node.registry ++ [fill first], unusedEntries := rest }
      (services ++ [svc]) := by
  have room := entered.room
  have count := entered.count
  rw [unused, List.length_cons] at room
  have unheld : holder (·.serviceId) 64 services svc.serviceId = none := by
    by_contra bound
    obtain ⟨old, held⟩ := Option.ne_none_iff_exists'.mp bound
    obtain ⟨entry, present, kept⟩ := entered.held held
    exact absent entry present (kept.serviceId.trans (mem_of_holder held).2)
  have new : svc.serviceId ∉ services.map (·.serviceId) := by
    intro known
    have full := limit_le_of_holder_eq_none known unheld
    omega
  have held_now : holder (·.serviceId) 64 (services ++ [svc]) svc.serviceId = some svc := by
    rw [holder_concat_of_notMem new, if_pos (by omega)]
  refine ⟨?_, ?_, ?_, ?_⟩
  · intro serviceId other held
    by_cases own : svc.serviceId = serviceId
    · subst own
      obtain rfl := Option.some.inj (held_now.symm.trans held)
      exact ⟨_, List.mem_append_right _ (List.mem_singleton.mpr rfl), describes⟩
    · rw [holder_concat_of_ne (fun svc : RoutedService => svc.serviceId) own] at held
      obtain ⟨entry, present, kept⟩ := entered.held held
      exact ⟨entry, List.mem_append_left _ present, kept⟩
  · intro entry present
    rcases List.mem_append.mp present with old | last
    · exact isSome_holder_concat (entered.known entry old)
    · obtain rfl := List.mem_singleton.mp last
      rw [describes.serviceId, held_now]
      rfl
  · rw [keyCount_concat_of_notMem new, List.length_append, List.length_singleton]
    omega
  · change (node.registry ++ [fill first]).length + rest.length = 64
    rw [List.length_append, List.length_singleton]
    omega

theorem Entered.refuse (entered : node.Entered services)
    (absent : ∀ entry ∈ node.registry, entry.serviceId ≠ svc.serviceId)
    (unused : node.unusedEntries = []) : Entered node (services ++ [svc]) := by
  have room := entered.room
  have count := entered.count
  rw [unused, List.length_nil] at room
  have unheld : holder (·.serviceId) 64 (services ++ [svc]) svc.serviceId = none := by
    by_cases known : svc.serviceId ∈ services.map (·.serviceId)
    · rw [holder_concat_of_mem known, Option.map_eq_none_iff]
      by_contra bound
      obtain ⟨old, held⟩ := Option.ne_none_iff_exists'.mp bound
      obtain ⟨entry, present, kept⟩ := entered.held held
      exact absent entry present (kept.serviceId.trans (mem_of_holder held).2)
    · rw [holder_concat_of_notMem known, if_neg (by omega)]
  refine ⟨?_, fun entry present => isSome_holder_concat (entered.known entry present), ?_, ?_⟩
  · intro serviceId other held
    by_cases own : svc.serviceId = serviceId
    · subst own
      rw [unheld] at held
      cases held
    · rw [holder_concat_of_ne (fun svc : RoutedService => svc.serviceId) own] at held
      exact entered.held held
  · by_cases known : svc.serviceId ∈ services.map (·.serviceId)
    · rw [keyCount_concat_of_mem known]
      exact count
    · rw [keyCount_concat_of_notMem known]
      omega
  · exact entered.room

theorem Entered.fillEntry (entered : node.Entered services) (unique : UniqueServices node.registry)
    (describes : ∀ entry, node.manifest.Describes svc (fill entry)) :
    Entered (node.fillEntry svc.serviceId fill).1 (services ++ [svc]) := by
  unfold NodeState.fillEntry
  split
  · rename_i index found
    have same : node.registry[index].serviceId = svc.serviceId := by
      simpa using (List.findFinIdx?_eq_some_iff.mp found).1
    exact entered.replace unique same (describes _)
  · rename_i missing
    have absent : ∀ entry ∈ node.registry, entry.serviceId ≠ svc.serviceId := by
      simpa using List.findFinIdx?_eq_none_iff.mp missing
    split
    · rename_i unused
      exact entered.refuse absent unused
    · rename_i first rest unused
      exact entered.append absent unused (describes _)

theorem Wiring.nodeSetupService_entered (wiring : node.Wiring) (hosts : node.Hosts)
    (entered : node.Entered services) (svc : RoutedService) :
    Entered (NodeState.nodeSetupService node.manifest.name node svc)
      (services ++ [svc].filter node.manifest.registers) := by
  have unique := wiring.sound.registered.unique
  have unregistered (fails : node.manifest.registers svc = false) :
      Entered node (services ++ [svc].filter node.manifest.registers) := by
    rwa [List.filter_cons_of_neg (by simp [fails]), List.filter_nil, List.append_nil]
  have registered (passes : node.manifest.registers svc = true) :
      [svc].filter node.manifest.registers = [svc] := List.filter_cons_of_pos passes
  unfold NodeState.nodeSetupService
  by_cases here : svc.nodeName = node.manifest.name
  · have registers_eq : node.manifest.registers svc =
        node.manifest.hosted.any fun entry => entry.2.id = svc.providerCompId := if_pos here
    rw [if_pos here]
    by_cases hosted : node.manifest.hosted.any fun entry => entry.2.id = svc.providerCompId
    · obtain ⟨entry, member, same⟩ := List.any_eq_true.mp hosted
      obtain ⟨info, loaded, view⟩ := hosts.of_hosted member
      have id_eq : node.idOf info.comp = svc.providerCompId := by
        obtain ⟨-, inst⟩ := Prod.mk.inj view
        obtain ⟨found, allocated, seen_eq⟩ := Option.map_eq_some_iff.mp inst.symm
        obtain ⟨id, -⟩ := Prod.mk.inj seen_eq
        rw [idOf, allocated, Option.map_some, Option.getD_some, id]
        simpa using same
      obtain ⟨provider, worker, found, located⟩ := wiring.located loaded
      rw [id_eq] at found located
      rw [found, located, registered (registers_eq.trans hosted)]
      exact entered.fillEntry unique fun old =>
        ⟨rfl, fun _ => ⟨rfl, (wiring.providerThread_eq hosts found located).symm⟩,
          fun other => absurd here other⟩
    · have fails := registers_eq.trans (Bool.not_eq_true _ ▸ hosted)
      split
      · rename_i provider worker found located
        have thread := wiring.providerThread_eq hosts found located
        obtain ⟨entry, first, -⟩ := Option.map_eq_some_iff.mp thread
        have passes := List.find?_some first
        exact absurd (List.any_eq_true.mpr ⟨entry, List.mem_of_find?_eq_some first, passes⟩) hosted
      · exact unregistered fails
  · have registers_eq : node.manifest.registers svc =
        svc.remoteUdsPath.any fun path => !path.isEmpty := if_neg here
    rw [if_neg here]
    cases path_eq : svc.remoteUdsPath with
    | none => exact unregistered (by rw [registers_eq, path_eq]; rfl)
    | some path =>
        dsimp only
        by_cases empty : path.isEmpty
        · rw [if_pos empty]
          exact unregistered (by rw [registers_eq, path_eq]; simp [empty])
        · rw [if_neg empty, registered (by rw [registers_eq, path_eq]; simp [empty])]
          exact entered.fillEntry unique fun old =>
            ⟨rfl, fun other => absurd other here, fun _ => ⟨rfl, path, path_eq, rfl⟩⟩

theorem seen_nodeSetupService (node : NodeState) (name : String) (svc : RoutedService) :
    (NodeState.nodeSetupService name node svc).seen = node.seen := by
  have filled (serviceId : UInt32) (fill : ServiceEntry → ServiceEntry) :
      (node.fillEntry serviceId fill).1.seen = node.seen := by
    unfold NodeState.fillEntry
    split
    · rfl
    · split <;> rfl
  unfold NodeState.nodeSetupService
  split
  · split
    · exact filled _ _
    · rfl
  · split
    · split
      · rfl
      · exact filled _ _
    · rfl

/-- `node_setup_routing` enters the services that can be registered, one after the other. -/
theorem Wiring.foldl_nodeSetupService (wiring : node.Wiring) (hosts : node.Hosts)
    (entered : node.Entered services) {later : List RoutedService}
    (listed : later ⊆ node.manifest.services) :
    ∃ after, later.foldl (NodeState.nodeSetupService node.manifest.name) node = after ∧
      after.Wiring ∧ after.Hosts ∧ after.manifest = node.manifest ∧
      after.Entered (services ++ later.filter node.manifest.registers) := by
  induction later generalizing node services with
  | nil => exact ⟨node, rfl, wiring, hosts, rfl, by simpa using entered⟩
  | cons svc later ih =>
      obtain ⟨here, listed⟩ := List.cons_subset.mp listed
      obtain ⟨wiring', same⟩ := wiring.nodeSetupService here
      have entered' := wiring.nodeSetupService_entered hosts entered svc
      have hosts' : (NodeState.nodeSetupService node.manifest.name node svc).Hosts := by
        rw [Hosts, seen_nodeSetupService, same]
        exact hosts
      obtain ⟨after, done, wired, hosting, manifest, all⟩ :=
        ih wiring' hosts' entered' (same.symm ▸ listed)
      rw [same] at done manifest all
      refine ⟨after, done, wired, hosting, manifest, ?_⟩
      rwa [List.append_assoc, ← List.filter_append] at all

end Entering

/-! ## After start-up -/

/-- What start-up leaves behind if every library loads. -/
structure Ready (node : NodeState) : Prop where
  hosts : node.Hosts
  /-- One entry for each number. -/
  unique : UniqueServices node.registry
  /-- The services that can be registered are entered. -/
  entered : node.Entered (node.manifest.services.filter node.manifest.registers)

theorem ready_of_boot {manifest : Manifest} (tidy : manifest.Tidy)
    {outcomes : List (List LoadOutcome)} (succeed : AllStaged outcomes) {node : NodeState}
    (booted : boot manifest outcomes = some node) : node.Ready ∧ node.manifest = manifest := by
  obtain ⟨loaded, loading, rfl⟩ := Option.map_eq_some_iff.mp booted
  have blank_starting : Starting (blank manifest).lastWorker (blank manifest) :=
    starting_blank manifest
  obtain ⟨starting, same⟩ := blank_starting.nodeInitThreads Nat.one_pos loading
  obtain ⟨seen_eq, unused⟩ := seen_of_nodeInitWorkers tidy succeed loading
  obtain rfl : loaded.manifest = manifest := same
  have nothing : loaded.Entered [] :=
    { held := by simp [holder]
      known := by simp [starting.registry]
      count := by simp [starting.registry, keyCount]
      room := by rw [starting.registry, unused]; simp }
  obtain ⟨after, done, wired, hosting, manifest, all⟩ :=
    starting.wiring.foldl_nodeSetupService seen_eq nothing (List.Subset.refl _)
  rw [nodeSetupRouting, done]
  rw [List.nil_append, ← manifest] at all
  exact ⟨⟨hosting, wired.sound.registered.unique, all⟩, manifest⟩

theorem Ready.findService {node : NodeState} (ready : node.Ready) {serviceId : UInt32}
    {svc : RoutedService} (held : node.manifest.holder serviceId = some svc) :
    ∃ entry, node.tables.findService serviceId = some entry ∧
      node.manifest.Describes svc entry := by
  obtain ⟨entry, present, describes⟩ := ready.entered.held held
  refine ⟨entry, ?_, describes⟩
  exact (find?_eq_some_iff_of_unique ready.unique).mpr
    ⟨present, describes.serviceId.trans (mem_of_holder held).2⟩

theorem Ready.findService_eq_none {node : NodeState} (ready : node.Ready) {serviceId : UInt32}
    (missing : node.manifest.holder serviceId = none) :
    node.tables.findService serviceId = none := by
  refine List.find?_eq_none.mpr fun entry present => ?_
  have bound := ready.entered.known entry present
  have different : entry.serviceId ≠ serviceId := by
    rintro rfl
    rw [Manifest.holder] at missing
    simp [missing] at bound
  simpa using different

/-! ## Start-up is possible -/

/-- The addresses from a bound on are free. -/
def FreeFrom (node : NodeState) (bound : CompRef) : Prop :=
  ∀ comp, bound ≤ comp → node.instances comp = none

theorem FreeFrom.update {node : NodeState} {bound : CompRef} (free : node.FreeFrom bound)
    (new : Option Instance) {comp : CompRef} (above : bound + 1 ≤ comp) :
    Function.update node.instances bound new comp = none := by
  have different : comp ≠ bound := (Nat.lt_of_succ_le above).ne'
  rw [Function.update_of_ne different]
  exact free comp (Nat.le_of_succ_le above)

theorem FreeFrom.nodeInitComponent {node : NodeState} {bound : CompRef}
    (free : node.FreeFrom bound) (thread : ThreadRef) (compDef : CompDef) :
    ∃ after, node.nodeInitComponent thread compDef (.staged bound true) = some after ∧
      after.FreeFrom (bound + 1) := by
  have staging : node.nodeLoadComponentStaged compDef.id compDef.name (.staged bound true) =
      some (NodeState.setStatus
        { node with
          instances := Function.update node.instances bound
            (some ⟨compDef.id, compDef.name, true⟩) }
        bound .inited, some bound) := by
    simp only [nodeLoadComponentStaged, free bound le_rfl]
  unfold NodeState.nodeInitComponent
  rw [staging]
  have freed (comp : CompRef) (above : bound + 1 ≤ comp) :
      Function.update (Function.update node.instances bound
        (some ⟨compDef.id, compDef.name, true⟩)) bound none comp = none := by
    rw [Function.update_idem]
    exact free.update none above
  dsimp only
  split
  · exact ⟨_, rfl, freed⟩
  · unfold nosSchedulerRegisterComponent
    split
    · rename_i registered same
      split at same
      · simp at same
      · obtain ⟨rfl, -⟩ := Prod.mk.inj same
        exact ⟨_, rfl, fun comp above => free.update _ above⟩
    · rename_i unchanged status refused same
      split at same
      · obtain ⟨rfl, -⟩ := Prod.mk.inj same
        exact ⟨_, rfl, freed⟩
      · obtain ⟨-, rfl⟩ := Prod.mk.inj same
        exact (refused rfl).elim

theorem FreeFrom.nodeInitThread {node : NodeState} {bound : CompRef} (free : node.FreeFrom bound)
    (thread : ThreadRef) (comps : List CompDef) :
    ∃ outcomes after next, .failed ∉ outcomes ∧
      NodeState.nodeInitThread thread comps outcomes node = some after ∧ after.FreeFrom next := by
  induction comps generalizing node bound with
  | nil => exact ⟨[], node, bound, by simp, rfl, free⟩
  | cons compDef comps ih =>
      obtain ⟨middle, first, free'⟩ := free.nodeInitComponent thread compDef
      obtain ⟨outcomes, after, next, succeed, rest, free''⟩ := ih free'
      refine ⟨.staged bound true :: outcomes, after, next, by simp [succeed], ?_, free''⟩
      rw [NodeState.nodeInitThread, first, Option.bind_some, rest]

theorem FreeFrom.nodeInitThreads {node : NodeState} {bound : CompRef} (free : node.FreeFrom bound)
    (threads : List ThreadDef) :
    ∃ outcomes after, AllStaged outcomes ∧
      NodeState.nodeInitThreads threads outcomes node = some after := by
  induction threads generalizing node bound with
  | nil => exact ⟨[], node, by simp [AllStaged], rfl⟩
  | cons threadDef threads ih =>
      obtain ⟨first, filled, next, succeeds, filling, free'⟩ :=
        free.nodeInitThread node.sys.threadCount
          ((threadDef.comps.takeWhile (·.id ≠ 0)).take maxComponentsPerNode)
      obtain ⟨later, after, succeed, rest⟩ := @ih
        { filled with sys := { filled.sys with threadCount := filled.sys.threadCount + 1 } } next
        free'
      refine ⟨first :: later, after, List.forall_mem_cons.mpr ⟨succeeds, succeed⟩, ?_⟩
      rw [NodeState.nodeInitThreads, filling, Option.bind_some, rest]

theorem exists_boot (manifest : Manifest) :
    ∃ outcomes node, AllStaged outcomes ∧ boot manifest outcomes = some node := by
  have free : (blank manifest).FreeFrom 0 := fun _ _ => rfl
  obtain ⟨outcomes, node, succeed, loaded⟩ := free.nodeInitThreads (manifest.threads.take maxWorkers)
  refine ⟨outcomes, node.nodeSetupRouting manifest.name, succeed, ?_⟩
  exact congrArg (Option.map fun node => node.nodeSetupRouting manifest.name) loaded

end NodeState

end CodexNos.Node
