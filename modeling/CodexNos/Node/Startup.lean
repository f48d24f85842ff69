import CodexNos.Node.Soundness

/-!
# Start-up of a node

`node_init_workers` fills the table of loaded components thread by thread, so the first loaded
component with an id is on the first worker that lists one with that id.  `node_setup_routing` looks
up both separately and therefore binds a provider to its own thread.
-/

namespace CodexNos.Node

open Lib Messaging Scheduler

namespace NodeState

/-- Where start-up is: nothing is bound or armed, and what is loaded is on the workers `1` to
`last`, in their order. -/
structure Starting (last : ThreadRef) (node : NodeState) : Prop where
  /-- Table and component lists agree. -/
  listed : node.Listed
  /-- The table follows the order of the threads. -/
  ordered : node.loaded.Pairwise fun entry later => entry.ownerThread ≤ later.ownerThread
  /-- Loaded instances are on workers that were reached. -/
  workers : ∀ entry ∈ node.loaded, 0 < entry.ownerThread ∧ entry.ownerThread ≤ last
  /-- The registry is empty. -/
  registry : node.registry = []
  /-- Its memory is zeroed. -/
  zeroed : ∀ entry ∈ node.unusedEntries, entry.localProvider = none ∧ entry.localThread = none
  /-- There is no timer. -/
  timers : ∀ ref, node.sys.timer ref = none
  /-- The heaps are empty. -/
  heaps : ∀ thread, node.sys.nodes thread = #[]

theorem starting_blank (manifest : Manifest) : Starting 0 (blank manifest) where
  listed := ⟨by simp [blank], by simp [blank], by simp [blank, components, hosted],
    by simp [blank, components]⟩
  ordered := by simp [blank]
  workers := by simp [blank]
  registry := rfl
  zeroed := by
    intro entry member
    obtain rfl := List.eq_of_mem_replicate member
    exact ⟨rfl, rfl⟩
  timers _ := rfl
  heaps _ := rfl

/-! ## Loading the components -/

/-- An instance that is in no structure and is freed again leaves them as they were. -/
theorem Listed.discard {node : NodeState} (listed : node.Listed) {comp : CompRef} {inst : Instance}
    (free : node.instances comp = none) :
    Listed (nodeDestroyLoadedComponent
      (NodeState.setStatus
        { node with instances := Function.update node.instances comp (some inst) } comp .inited)
      comp) := by
  refine ⟨?_, listed.distinct, listed.hosted, listed.room⟩
  intro entry member
  have allocated := listed.allocated entry member
  have different : entry.comp ≠ comp := by
    intro same
    simp [same, free] at allocated
  change (Function.update (Function.update node.instances comp (some inst)) comp none
    entry.comp).isSome = true
  rwa [Function.update_of_ne different, Function.update_of_ne different]

/-- A new instance goes to the end of the table and of the list of its thread. -/
theorem Listed.append {node : NodeState} (listed : node.Listed) {comp : CompRef} {inst : Instance}
    (free : node.instances comp = none) {thread : ThreadRef} (libName : String)
    (room : (node.components thread).length < maxCompPerThread) :
    Listed
      { (NodeState.setStatus
          { node with instances := Function.update node.instances comp (some inst) }
          comp .inited).setComponents thread (node.components thread ++ [comp]) with
        loaded := node.loaded ++ [⟨comp, libName, thread⟩] } := by
  have fresh : ∀ entry ∈ node.loaded, entry.comp ≠ comp := by
    intro entry member same
    have allocated := listed.allocated entry member
    simp [same, free] at allocated
  have lists (place : ThreadRef) :
      (NodeState.hosted (node.loaded ++ [⟨comp, libName, thread⟩]) place).Perm
        (NodeState.hosted (⟨comp, libName, thread⟩ :: node.loaded) place) :=
    hosted_perm (List.perm_append_singleton _ _) place
  refine ⟨?_, ?_, ?_, ?_⟩
  · intro entry member
    change (Function.update node.instances comp (some inst) entry.comp).isSome = true
    rcases List.mem_append.mp member with old | new
    · rw [Function.update_of_ne (fresh entry old)]
      exact listed.allocated entry old
    · obtain rfl := List.mem_singleton.mp new
      simp
  · rw [((List.perm_append_singleton _ _).map _).nodup_iff, List.map_cons, List.nodup_cons]
    refine ⟨?_, listed.distinct⟩
    intro present
    obtain ⟨entry, member, same⟩ := List.mem_map.mp present
    exact fresh entry member same
  · intro place
    refine List.Perm.trans ?_ (lists place).symm
    rcases eq_or_ne place thread with rfl | different
    · refine (List.Perm.of_eq (setComponents_components _ _ _)).trans ?_
      refine (List.perm_append_singleton comp _).trans ?_
      refine ((listed.hosted place).cons comp).trans (List.Perm.of_eq ?_)
      exact (hosted_cons_self ⟨comp, libName, place⟩ node.loaded).symm
    · refine (List.Perm.of_eq (setComponents_components_other _ _ different)).trans ?_
      refine (listed.hosted place).trans (List.Perm.of_eq ?_)
      exact (hosted_cons_other ⟨comp, libName, thread⟩ node.loaded different.symm).symm
  · intro place
    rcases eq_or_ne place thread with rfl | different
    · refine (congrArg List.length (setComponents_components _ _ _)).le.trans ?_
      rw [List.length_append, List.length_singleton]
      exact room
    · refine (congrArg List.length (setComponents_components_other _ _ different)).le.trans ?_
      exact listed.room place

theorem Starting.nodeInitComponent {thread : ThreadRef} {node after : NodeState}
    (starting : Starting thread node) (worker : 0 < thread) {compDef : CompDef}
    {outcome : LoadOutcome} (loaded : node.nodeInitComponent thread compDef outcome = some after) :
    Starting thread after ∧ after.manifest = node.manifest ∧
      after.sys.threadCount = node.sys.threadCount := by
  unfold NodeState.nodeInitComponent at loaded
  split at loaded
  · simp at loaded
  · rename_i failed staging
    obtain rfl := Option.some.inj loaded
    rcases nodeLoadComponentStaged_cases staging with ⟨-, rfl⟩ | ⟨comp, inst, none_eq, -⟩
    · exact ⟨starting, rfl, rfl⟩
    · simp at none_eq
  · rename_i staged comp staging
    rcases nodeLoadComponentStaged_cases staging with
      ⟨none_eq, -⟩ | ⟨comp', inst, some_eq, free, -, staged_eq⟩
    · simp at none_eq
    obtain rfl : comp = comp' := Option.some.inj some_eq
    have discarded : Starting thread (staged.nodeDestroyLoadedComponent comp) := by
      rw [staged_eq]
      exact ⟨starting.listed.discard free, starting.ordered, starting.workers, starting.registry,
        starting.zeroed, starting.timers, starting.heaps⟩
    split at loaded
    · obtain rfl := Option.some.inj loaded
      rw [staged_eq] at discarded ⊢
      exact ⟨discarded, rfl, rfl⟩
    · by_cases room : (node.components thread).length < maxCompPerThread
      · have room' : (staged.components thread).length < maxCompPerThread := by
          rwa [staged_eq]
        rw [nosSchedulerRegisterComponent_eq room'] at loaded
        obtain rfl := Option.some.inj loaded
        rw [staged_eq]
        refine ⟨⟨starting.listed.append free compDef.model room, ?_, ?_, starting.registry,
          starting.zeroed, starting.timers, ?_⟩, rfl, rfl⟩
        · refine List.pairwise_append.mpr ⟨starting.ordered, List.pairwise_singleton _ _, ?_⟩
          intro entry member later new
          obtain rfl := List.mem_singleton.mp new
          exact (starting.workers entry member).2
        · intro entry member
          rcases List.mem_append.mp member with old | new
          · exact starting.workers entry old
          · obtain rfl := List.mem_singleton.mp new
            exact ⟨worker, le_refl thread⟩
        · intro place
          exact (TimerSys.setComponents_nodes _ _ _ place).trans (starting.heaps place)
      · have full : staged.nosSchedulerRegisterComponent thread comp = (staged, .err) := by
          rw [staged_eq]
          exact if_pos (Nat.not_lt.mp room)
        rw [full] at loaded
        obtain rfl := Option.some.inj loaded
        rw [staged_eq] at discarded ⊢
        exact ⟨discarded, rfl, rfl⟩

theorem Starting.nodeInitThread {thread : ThreadRef} {node after : NodeState}
    (starting : Starting thread node) (worker : 0 < thread) {comps : List CompDef}
    {outcomes : List LoadOutcome}
    (loaded : NodeState.nodeInitThread thread comps outcomes node = some after) :
    Starting thread after ∧ after.manifest = node.manifest ∧
      after.sys.threadCount = node.sys.threadCount := by
  induction comps generalizing node outcomes with
  | nil =>
      obtain rfl := Option.some.inj loaded
      exact ⟨starting, rfl, rfl⟩
  | cons compDef comps ih =>
      cases outcomes with
      | nil => simp [NodeState.nodeInitThread] at loaded
      | cons outcome outcomes =>
          obtain ⟨next, first, rest⟩ := Option.bind_eq_some_iff.mp loaded
          obtain ⟨starting', manifest, count⟩ := starting.nodeInitComponent worker first
          obtain ⟨done, manifest', count'⟩ := ih starting' rest
          exact ⟨done, manifest'.trans manifest, count'.trans count⟩

/-- Number of the last worker. -/
def lastWorker (node : NodeState) : ThreadRef := node.sys.threadCount - 1

theorem Starting.reached {node : NodeState} (starting : Starting node.lastWorker node) :
    Starting node.sys.threadCount node :=
  { starting with
    workers := fun entry member =>
      ⟨(starting.workers entry member).1,
        (starting.workers entry member).2.trans (Nat.sub_le _ 1)⟩ }

theorem Starting.counted {thread : ThreadRef} {filled : NodeState} (started : Starting thread filled)
    (count : filled.sys.threadCount = thread) :
    Starting
      (lastWorker
        { filled with sys := { filled.sys with threadCount := filled.sys.threadCount + 1 } })
      { filled with sys := { filled.sys with threadCount := filled.sys.threadCount + 1 } } := by
  have last : filled.sys.threadCount + 1 - 1 = thread := by omega
  refine ⟨⟨started.listed.allocated, started.listed.distinct, started.listed.hosted,
    started.listed.room⟩, started.ordered, ?_, started.registry, started.zeroed,
    started.timers, started.heaps⟩
  rw [lastWorker, last]
  exact started.workers

theorem Starting.components_nil {last thread : ThreadRef} {node : NodeState}
    (starting : Starting last node) (beyond : last < thread) : node.components thread = [] := by
  rw [List.eq_nil_iff_forall_not_mem]
  intro comp member
  obtain ⟨entry, loaded, -, place⟩ :=
    mem_hosted.mp ((starting.listed.hosted thread).mem_iff.mp member)
  exact absurd (place ▸ (starting.workers entry loaded).2) (Nat.not_le.mpr beyond)

theorem Starting.nodeInitThreads {node after : NodeState}
    (starting : Starting node.lastWorker node) (positive : 0 < node.sys.threadCount)
    {threads : List ThreadDef} {outcomes : List (List LoadOutcome)}
    (loaded : NodeState.nodeInitThreads threads outcomes node = some after) :
    Starting after.lastWorker after ∧ after.manifest = node.manifest := by
  induction threads generalizing node outcomes with
  | nil =>
      obtain rfl := Option.some.inj loaded
      exact ⟨starting, rfl⟩
  | cons threadDef threads ih =>
      cases outcomes with
      | nil => simp [NodeState.nodeInitThreads] at loaded
      | cons first later =>
          obtain ⟨filled, filling, rest⟩ := Option.bind_eq_some_iff.mp loaded
          obtain ⟨started, manifest, count⟩ := starting.reached.nodeInitThread positive filling
          have next := started.counted count
          obtain ⟨done, manifest'⟩ := ih next (Nat.succ_pos _) rest
          exact ⟨done, manifest'.trans manifest⟩

/-! ## Binding the services -/

/-- Where `node_setup_routing` is. -/
structure Wiring (node : NodeState) : Prop where
  /-- The structures agree. -/
  sound : node.Sound
  /-- The table follows the order of the threads. -/
  ordered : node.loaded.Pairwise fun entry later => entry.ownerThread ≤ later.ownerThread
  /-- Loaded instances are on workers. -/
  workers : ∀ entry ∈ node.loaded, 0 < entry.ownerThread ∧ entry.ownerThread ≤ node.lastWorker
  /-- The unused part of the registry is zeroed. -/
  zeroed : ∀ entry ∈ node.unusedEntries, entry.localProvider = none ∧ entry.localThread = none

theorem Starting.wiring {node : NodeState} (starting : Starting node.lastWorker node) :
    Wiring node where
  sound :=
    { listed := starting.listed
      registered := ⟨by simp [starting.registry, UniqueServices], by simp [starting.registry]⟩
      attended :=
        { linked :=
            { armed := by simp [starting.heaps]
              running := by simp [starting.timers]
              distinct := by simp [starting.heaps] }
          owned := by simp [starting.timers] } }
  ordered := starting.ordered
  workers := starting.workers
  zeroed := starting.zeroed

/-- The provider and the worker that are looked up for an id belong together. -/
theorem Wiring.owner {node : NodeState} (wiring : node.Wiring) {id : UInt32} {provider : CompRef}
    {worker : ThreadRef} (found : node.nodeGetLoadedCompById id = some provider)
    (located : node.ownerWorker id = some worker) :
    ∃ info ∈ node.loaded, info.comp = provider ∧ info.ownerThread = worker ∧
      node.idOf provider = id := by
  obtain ⟨info, first, rfl⟩ := Option.map_eq_some_iff.mp found
  obtain ⟨index, least, rfl⟩ := Option.map_eq_some_iff.mp located
  obtain ⟨matched, front, back, split, earlier⟩ := List.find?_eq_some_iff_append.mp first
  obtain ⟨listed, -, none_below⟩ := List.find?_range_eq_some.mp least
  have sameId : node.idOf info.comp = id := by simpa using matched
  have member : info ∈ node.loaded := by simp [split]
  obtain ⟨comp, inList, compId⟩ := List.any_eq_true.mp listed
  obtain ⟨other, member', rfl, place⟩ :=
    mem_hosted.mp ((wiring.sound.listed.hosted (index + 1)).mem_iff.mp inList)
  have after : info.ownerThread ≤ index + 1 := by
    rw [← place]
    rw [split] at member'
    have ordered := wiring.ordered
    rw [split] at ordered
    rcases List.mem_append.mp member' with before | later
    · have different := earlier other before
      simp only [decide_eq_true_eq] at compId
      simp [compId] at different
    · rcases List.mem_cons.mp later with rfl | behind
      · exact le_refl _
      · exact (List.pairwise_cons.mp (List.pairwise_append.mp ordered).2.1).1 other behind
  have before : index + 1 ≤ info.ownerThread := by
    by_contra low
    obtain ⟨positive, -⟩ := wiring.workers info member
    have here : info.ownerThread - 1 + 1 = info.ownerThread := Nat.sub_add_cancel positive
    have below : info.ownerThread - 1 < index := by
      have later : info.ownerThread < index + 1 := Nat.lt_of_not_le low
      rw [← here] at later
      exact Nat.lt_of_succ_lt_succ later
    have missed := none_below _ below
    have present := wiring.sound.listed.mem_components member
    rw [here] at missed
    simp only [Bool.not_eq_true', List.any_eq_false, decide_eq_true_eq] at missed
    exact missed info.comp present sameId
  exact ⟨info, member, rfl, Nat.le_antisymm after before, sameId⟩

theorem Wiring.withRegistry {node : NodeState} (wiring : node.Wiring)
    {registry unused : List ServiceEntry} (unique : UniqueServices registry)
    (fewer : unused ⊆ node.unusedEntries) (backed : ∀ entry ∈ registry, node.Backed entry) :
    Wiring { node with registry := registry, unusedEntries := unused } where
  sound :=
    { listed :=
        { allocated := wiring.sound.listed.allocated
          distinct := wiring.sound.listed.distinct
          hosted := wiring.sound.listed.hosted
          room := wiring.sound.listed.room }
      registered := ⟨unique, backed⟩
      attended := ⟨wiring.sound.attended.linked, wiring.sound.attended.owned⟩ }
  ordered := wiring.ordered
  workers := wiring.workers
  zeroed entry member := wiring.zeroed entry (fewer member)

theorem Wiring.nodeSetupService {node : NodeState} (wiring : node.Wiring) {svc : RoutedService}
    (listed : svc ∈ node.manifest.services) :
    (NodeState.nodeSetupService node.manifest.name node svc).Wiring ∧
      (NodeState.nodeSetupService node.manifest.name node svc).manifest = node.manifest := by
  unfold NodeState.nodeSetupService
  split
  · rename_i here
    split
    · rename_i provider worker found located
      obtain ⟨info, member, rfl, rfl, sameId⟩ := wiring.owner found located
      obtain ⟨registry, unused, result, unique, fewer, entries⟩ :=
        fillEntry_spec wiring.sound.registered.unique svc.serviceId
          (fun entry =>
            { entry with
              serviceId := svc.serviceId
              localProvider := some info.comp
              localThread := some info.ownerThread
              isRemote := false })
          (fun _ => rfl)
      rw [nosServiceRegisterProviderBind, result]
      refine ⟨wiring.withRegistry unique fewer ?_, rfl⟩
      intro entry inside
      rcases entries entry inside with ⟨old, -⟩ | ⟨old, -, rfl⟩
      · exact wiring.sound.registered.backed entry old
      · refine Or.inr ⟨info, member, rfl, rfl, svc, ?_, rfl⟩
        rw [sameId]
        simp [Manifest.localServices, listed, here]
    · exact ⟨wiring, rfl⟩
  · split
    · split
      · exact ⟨wiring, rfl⟩
      · rename_i path _ _
        obtain ⟨registry, unused, result, unique, fewer, entries⟩ :=
          fillEntry_spec wiring.sound.registered.unique svc.serviceId
            (fun entry =>
              { entry with
                serviceId := svc.serviceId
                isRemote := true
                remoteNode := stored 31 svc.nodeName
                remoteUdsPath := stored 107 path })
            (fun _ => rfl)
        rw [nosServiceRegisterRemote, result]
        refine ⟨wiring.withRegistry unique fewer ?_, rfl⟩
        intro entry inside
        rcases entries entry inside with ⟨old, -⟩ | ⟨old, ⟨present, same⟩ | blank, rfl⟩
        · exact wiring.sound.registered.backed entry old
        · rcases wiring.sound.registered.backed old present with
            none | ⟨info, member, provider, thread, other, provides, otherId⟩
          · exact Or.inl none
          · exact Or.inr ⟨info, member, provider, thread, other, provides, otherId.trans same⟩
        · exact Or.inl (wiring.zeroed old blank)
    · exact ⟨wiring, rfl⟩

theorem Wiring.nodeSetupRouting {node : NodeState} (wiring : node.Wiring) :
    (node.nodeSetupRouting node.manifest.name).Wiring := by
  have turns (services : List RoutedService) (current : NodeState) (wired : current.Wiring)
      (same : current.manifest = node.manifest) (listed : services ⊆ node.manifest.services) :
      (services.foldl (NodeState.nodeSetupService node.manifest.name) current).Wiring := by
    induction services generalizing current with
    | nil => exact wired
    | cons svc services ih =>
        have member : svc ∈ current.manifest.services := same ▸ listed List.mem_cons_self
        obtain ⟨wired', same'⟩ := wired.nodeSetupService member
        rw [same] at wired' same'
        exact ih _ wired' same' (fun other later => listed (List.mem_cons_of_mem _ later))
  exact turns _ node wiring rfl (List.Subset.refl _)

theorem Booted.sound {node : NodeState} (booted : node.Booted) : node.Sound := by
  obtain ⟨manifest, outcomes, started⟩ := booted
  obtain ⟨loaded, loading, rfl⟩ := Option.map_eq_some_iff.mp started
  have blank_starting : Starting (blank manifest).lastWorker (blank manifest) :=
    starting_blank manifest
  obtain ⟨starting, same⟩ := blank_starting.nodeInitThreads Nat.one_pos loading
  have name : loaded.manifest.name = manifest.name := congrArg Manifest.name same
  rw [← name]
  exact starting.wiring.nodeSetupRouting.sound

end NodeState

end CodexNos.Node
