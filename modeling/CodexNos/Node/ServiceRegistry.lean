import CodexNos.Lib.BoundedMap
import CodexNos.Messaging.Purging
import CodexNos.Node.Bookkeeping

/-!
# The service registry as a map

The registry maps a service to the thread of its local provider or to the node that has it.  Three
functions read an entry, each in its own way: sending looks at `is_remote`, dispatching at
`local_provider` and purging at both.  A remote registration leaves `local_provider` as it finds it,
in the entry of the service or in a place that another service has left.
-/

namespace CodexNos.Node

open Lib Messaging

/-- `g_service_registry`. -/
structure Registry where
  /-- The entries up to `g_service_count`. -/
  used : List ServiceEntry
  /-- The rest, with what earlier entries left there. -/
  unused : List ServiceEntry
  /-- Number of places. -/
  length_eq : used.length + unused.length = 64

/-- A call that changes the registry. -/
inductive RegistryOp
  /-- `nos_service_register_provider_bind`. -/
  | bind (serviceId : UInt32) (provider : Option CompRef) (thread : Option ThreadRef)
  /-- `nos_service_register_remote`. -/
  | remote (serviceId : UInt32) (nodeName : Option String) (udsPath : String)
  /-- `nos_service_unregister_provider`. -/
  | unregister (serviceId : UInt32)
  deriving DecidableEq, Repr

namespace Registry

/-- The registry of a new process. -/
def zeroed : Registry := ⟨[], List.replicate 64 blankEntry, rfl⟩

/-- `find_service_entry`. -/
def findServiceEntry (registry : Registry) (serviceId : UInt32) : Option ServiceEntry :=
  registry.used.find? fun entry => entry.serviceId = serviceId

/-- Fill the entry of a service, a new one if it has none. -/
def fillEntry (registry : Registry) (serviceId : UInt32) (fill : ServiceEntry → ServiceEntry) :
    Registry × Status :=
  match registry.used.findFinIdx? (fun entry => entry.serviceId = serviceId) with
  | some index =>
      ({ registry with
          used := registry.used.set index (fill registry.used[index])
          length_eq := by rw [List.length_set, registry.length_eq] }, .ok)
  | none =>
      match unused_eq : registry.unused with
      | [] => (registry, .err)
      | entry :: rest =>
          ({ used := registry.used ++ [fill entry]
             unused := rest
             length_eq := by
              have := registry.length_eq
              rw [unused_eq, List.length_cons] at this
              rw [List.length_append, List.length_singleton]
              omega }, .ok)

/-- What `nos_service_register_provider_bind` writes. -/
def bound (serviceId : UInt32) (provider : Option CompRef) (thread : Option ThreadRef)
    (entry : ServiceEntry) : ServiceEntry :=
  { entry with
    serviceId := serviceId
    localProvider := provider
    localThread := thread
    isRemote := false }

/-- What `nos_service_register_remote` writes. -/
def madeRemote (serviceId : UInt32) (nodeName : Option String) (udsPath : String)
    (entry : ServiceEntry) : ServiceEntry :=
  { entry with
    serviceId := serviceId
    isRemote := true
    remoteNode := (nodeName.map (stored 31)).getD entry.remoteNode
    remoteUdsPath := stored 107 udsPath }

/-- `nos_service_unregister_provider`. -/
def unregister (registry : Registry) (serviceId : UInt32) : Registry × Status :=
  match registry.used.findFinIdx? (fun entry => entry.serviceId = serviceId) with
  | some index =>
      ({ used := swapRemoveAt registry.used index
         unused := registry.used.getLastD registry.used[index] :: registry.unused
         length_eq := by
          have := registry.length_eq
          have := (perm_cons_swapRemoveAt registry.used index).length_eq
          rw [List.length_cons] at this ⊢
          omega }, .ok)
  | none => (registry, .err)

/-- One call. -/
def step (registry : Registry) : RegistryOp → Registry × Status
  | .bind serviceId provider thread => registry.fillEntry serviceId (bound serviceId provider thread)
  | .remote serviceId nodeName udsPath =>
      registry.fillEntry serviceId (madeRemote serviceId nodeName udsPath)
  | .unregister serviceId => registry.unregister serviceId

/-- Calls in order, with their results. -/
def run : Registry → List RegistryOp → Registry × List Status
  | registry, [] => (registry, [])
  | registry, op :: ops =>
      let (next, status) := registry.step op
      let (final, statuses) := next.run ops
      (final, status :: statuses)

end Registry

/-! ## Bounded maps -/

/-- Where a service is. -/
inductive Binding
  /-- On this node, with its provider and the thread of the provider. -/
  | here (provider : Option CompRef) (thread : Option ThreadRef)
  /-- On another node. -/
  | remote (nodeName udsPath : String)
  deriving DecidableEq, Repr

namespace Binding

/-- The route to the service. -/
def route : Binding → Route
  | .here _ thread => .localThread thread
  | .remote nodeName udsPath => .remoteNode nodeName udsPath

/-- The local provider of the service. -/
def provider : Binding → Option CompRef
  | .here provider _ => provider
  | .remote _ _ => none

end Binding

/-- What the registry is for. -/
abbrev ServiceMap := BoundedMap UInt32 Binding 64

namespace ServiceMap

/-- Bind a service, unless it is new and `64` services are bound. -/
def register (services : ServiceMap) (serviceId : UInt32) (binding : Binding) :
    ServiceMap × Status :=
  match services.insert? serviceId binding with
  | none => (services, .err)
  | some services' => (services', .ok)

/-- One call.  A remote binding has the names as far as the arrays of an entry hold them. -/
def step (services : ServiceMap) : RegistryOp → ServiceMap × Status
  | .bind serviceId provider thread => register services serviceId (.here provider thread)
  | .remote serviceId nodeName udsPath =>
      register services serviceId
        (.remote (nodeName.elim "" (stored 31)) (stored 107 udsPath))
  | .unregister serviceId =>
      if (services.lookup serviceId).isSome then (services.erase serviceId, .ok)
      else (services, .err)

/-- Calls in order, with their results. -/
def run : ServiceMap → List RegistryOp → ServiceMap × List Status
  | services, [] => (services, [])
  | services, op :: ops =>
      let (next, status) := step services op
      let (final, statuses) := run next ops
      (final, status :: statuses)

end ServiceMap

/-! ## Single calls -/

/-- What an entry says about its service. -/
def bindingOf (entry : ServiceEntry) : Binding :=
  if entry.isRemote then .remote entry.remoteNode entry.remoteUdsPath
  else .here entry.localProvider entry.localThread

namespace Registry

variable {registry : Registry}

/-- One entry for each service. -/
def Distinct (registry : Registry) : Prop := (registry.used.map (·.serviceId)).Nodup

/-- The entry that a registration of the service fills. -/
def place (registry : Registry) (serviceId : UInt32) : Option ServiceEntry :=
  (registry.findServiceEntry serviceId).or registry.unused.head?

theorem findServiceEntry_eq_some_iff (distinct : registry.Distinct) {serviceId : UInt32}
    {entry : ServiceEntry} :
    registry.findServiceEntry serviceId = some entry ↔
      entry ∈ registry.used ∧ entry.serviceId = serviceId :=
  find?_eq_some_iff_of_unique distinct

theorem findServiceEntry_eq_none_iff {serviceId : UInt32} :
    registry.findServiceEntry serviceId = none ↔
      ∀ entry ∈ registry.used, entry.serviceId ≠ serviceId := by
  simp [findServiceEntry]

theorem place_eq_none_iff {serviceId : UInt32} :
    registry.place serviceId = none ↔
      registry.findServiceEntry serviceId = none ∧ registry.used.length = 64 := by
  have := registry.length_eq
  rw [place, Option.or_eq_none_iff, List.head?_eq_none_iff, ← List.length_eq_zero_iff]
  refine and_congr_right fun _ => ?_
  omega

theorem fillEntry_of_place_eq_none {serviceId : UInt32} (full : registry.place serviceId = none)
    (fill : ServiceEntry → ServiceEntry) : registry.fillEntry serviceId fill = (registry, .err) := by
  obtain ⟨missing, no_place⟩ := Option.or_eq_none_iff.mp full
  unfold fillEntry
  split
  · rename_i index found
    have same : registry.used[index].serviceId = serviceId := by
      simpa using (List.findFinIdx?_eq_some_iff.mp found).1
    exact absurd same (findServiceEntry_eq_none_iff.mp missing _ (List.getElem_mem index.isLt))
  · split
    · rfl
    · rename_i entry rest unused_eq
      simp [unused_eq] at no_place

/-- A registration replaces the entry of its service; the others stay. -/
theorem fillEntry_of_place {serviceId : UInt32} {old : ServiceEntry} (distinct : registry.Distinct)
    (placed : registry.place serviceId = some old) {fill : ServiceEntry → ServiceEntry}
    (keys : ∀ entry, (fill entry).serviceId = serviceId) :
    ∃ next, registry.fillEntry serviceId fill = (next, .ok) ∧ next.Distinct ∧
      ∀ entry, entry ∈ next.used ↔
        entry = fill old ∨ entry ∈ registry.used ∧ entry.serviceId ≠ serviceId := by
  unfold fillEntry
  split
  · rename_i index found
    have same : registry.used[index].serviceId = serviceId := by
      simpa using (List.findFinIdx?_eq_some_iff.mp found).1
    have own : registry.findServiceEntry serviceId = some registry.used[index] :=
      (findServiceEntry_eq_some_iff distinct).mpr ⟨List.getElem_mem index.isLt, same⟩
    obtain rfl : registry.used[index] = old := by simpa [place, own] using placed
    refine ⟨_, rfl, unique_set distinct (Or.inl ((keys _).trans same.symm)), ?_⟩
    intro entry
    rw [mem_set_iff_of_unique distinct, same]
  · rename_i missing
    have absent : ∀ entry ∈ registry.used, entry.serviceId ≠ serviceId := by
      simpa using List.findFinIdx?_eq_none_iff.mp missing
    have new : registry.findServiceEntry serviceId = none :=
      findServiceEntry_eq_none_iff.mpr absent
    split
    · rename_i unused_eq
      simp [place, new, unused_eq] at placed
    · rename_i first rest unused_eq
      obtain rfl : first = old := by simpa [place, new, unused_eq] using placed
      refine ⟨_, rfl, ?_, ?_⟩
      · rw [Distinct, List.map_append, List.map_singleton, List.nodup_append_comm,
          List.singleton_append, List.nodup_cons]
        refine ⟨?_, distinct⟩
        intro present
        obtain ⟨entry, member, same⟩ := List.mem_map.mp present
        exact absent entry member (same.trans (keys first))
      · intro entry
        rw [List.mem_append, List.mem_singleton, or_comm]
        exact or_congr_right ⟨fun member => ⟨member, absent entry member⟩, And.left⟩

/-- Unregistering removes the entry of its service; the others stay. -/
theorem unregister_of_find {serviceId : UInt32} {old : ServiceEntry} (distinct : registry.Distinct)
    (found : registry.findServiceEntry serviceId = some old) :
    ∃ next, registry.unregister serviceId = (next, .ok) ∧ next.Distinct ∧
      ∀ entry, entry ∈ next.used ↔ entry ∈ registry.used ∧ entry.serviceId ≠ serviceId := by
  obtain ⟨present, own⟩ := (findServiceEntry_eq_some_iff distinct).mp found
  unfold unregister
  split
  · rename_i index indexed
    have same : registry.used[index].serviceId = serviceId := by
      simpa using (List.findFinIdx?_eq_some_iff.mp indexed).1
    refine ⟨_, rfl, unique_swapRemoveAt distinct, ?_⟩
    intro entry
    rw [mem_swapRemoveAt_iff distinct, same]
  · rename_i missing
    have absent : ∀ entry ∈ registry.used, entry.serviceId ≠ serviceId := by
      simpa using List.findFinIdx?_eq_none_iff.mp missing
    exact absurd own (absent old present)

theorem unregister_of_find_eq_none {serviceId : UInt32}
    (missing : registry.findServiceEntry serviceId = none) :
    registry.unregister serviceId = (registry, .err) := by
  unfold unregister
  split
  · rename_i index found
    have same : registry.used[index].serviceId = serviceId := by
      simpa using (List.findFinIdx?_eq_some_iff.mp found).1
    exact absurd same (findServiceEntry_eq_none_iff.mp missing _ (List.getElem_mem index.isLt))
  · rfl

theorem findServiceEntry_of_replaced {next : Registry} {serviceId : UInt32} {new : ServiceEntry}
    (distinct : registry.Distinct) (next_distinct : next.Distinct) (own : new.serviceId = serviceId)
    (entries : ∀ entry, entry ∈ next.used ↔
      entry = new ∨ entry ∈ registry.used ∧ entry.serviceId ≠ serviceId) (other : UInt32) :
    next.findServiceEntry other =
      if other = serviceId then some new else registry.findServiceEntry other := by
  ext entry
  rw [findServiceEntry_eq_some_iff next_distinct, entries]
  split
  · rename_i same
    subst same
    constructor
    · rintro ⟨rfl | ⟨-, different⟩, key⟩
      · rfl
      · exact absurd key different
    · rintro ⟨⟩
      exact ⟨.inl rfl, own⟩
  · rename_i different
    rw [findServiceEntry_eq_some_iff distinct]
    constructor
    · rintro ⟨rfl | ⟨member, -⟩, key⟩
      · exact absurd (key.symm.trans own) different
      · exact ⟨member, key⟩
    · rintro ⟨member, key⟩
      exact ⟨.inr ⟨member, fun same => different (key.symm.trans same)⟩, key⟩

theorem findServiceEntry_of_removed {next : Registry} {serviceId : UInt32}
    (distinct : registry.Distinct) (next_distinct : next.Distinct)
    (entries : ∀ entry, entry ∈ next.used ↔
      entry ∈ registry.used ∧ entry.serviceId ≠ serviceId) (other : UInt32) :
    next.findServiceEntry other =
      if other = serviceId then none else registry.findServiceEntry other := by
  split
  · rename_i same
    rw [findServiceEntry_eq_none_iff]
    intro entry member
    rw [same]
    exact ((entries entry).mp member).2
  · rename_i different
    ext entry
    rw [findServiceEntry_eq_some_iff next_distinct, entries, findServiceEntry_eq_some_iff distinct]
    constructor
    · rintro ⟨⟨member, -⟩, key⟩
      exact ⟨member, key⟩
    · rintro ⟨member, key⟩
      exact ⟨⟨member, fun same => different (key.symm.trans same)⟩, key⟩

end Registry

/-! ## The registry of a node -/

/-- The registry of a node in its other structures. -/
def Registry.Of (registry : Registry) (node : NodeState) : Prop :=
  registry.used = node.registry ∧ registry.unused = node.unusedEntries

section Node

variable {registry : Registry} {node : NodeState}

theorem Registry.Of.fillEntry (of : registry.Of node) (serviceId : UInt32)
    (fill : ServiceEntry → ServiceEntry) :
    (registry.fillEntry serviceId fill).1.Of (node.fillEntry serviceId fill).1 ∧
      (registry.fillEntry serviceId fill).2 = (node.fillEntry serviceId fill).2 := by
  obtain ⟨used, unused, length_eq⟩ := registry
  obtain ⟨rfl, rfl⟩ := of
  unfold Registry.fillEntry NodeState.fillEntry
  dsimp only
  cases node.registry.findFinIdx? fun entry => entry.serviceId = serviceId with
  | some index => exact ⟨⟨rfl, rfl⟩, rfl⟩
  | none =>
      dsimp only
      split
      · rename_i unused_eq
        simp only [unused_eq]
        exact ⟨⟨rfl, unused_eq.symm⟩, trivial⟩
      · rename_i unused_eq
        simp only [unused_eq]
        exact ⟨⟨rfl, rfl⟩, trivial⟩

theorem Registry.Of.step (of : registry.Of node) :
    (∀ serviceId provider thread,
      (registry.step (.bind serviceId (some provider) (some thread))).1.Of
        (node.nosServiceRegisterProviderBind serviceId provider thread).1) ∧
    (∀ serviceId nodeName udsPath,
      (registry.step (.remote serviceId (some nodeName) udsPath)).1.Of
        (node.nosServiceRegisterRemote serviceId nodeName udsPath).1) ∧
    ∀ serviceId,
      (registry.step (.unregister serviceId)).1.Of
        (node.nosServiceUnregisterProvider serviceId).1 := by
  refine ⟨fun _ _ _ => (of.fillEntry _ _).1, fun _ _ _ => (of.fillEntry _ _).1, fun serviceId => ?_⟩
  obtain ⟨used, unused, length_eq⟩ := registry
  obtain ⟨rfl, rfl⟩ := of
  unfold Registry.step Registry.unregister NodeState.nosServiceUnregisterProvider
  dsimp only
  cases node.registry.findFinIdx? fun entry => entry.serviceId = serviceId with
  | some index => exact ⟨rfl, rfl⟩
  | none => exact ⟨rfl, rfl⟩

end Node

/-! ## The registry and the map -/

/-- The registry has the bindings of the map, and no remote entry has a local provider. -/
structure Represents (registry : Registry) (services : ServiceMap) : Prop where
  /-- One entry for each service. -/
  distinct : registry.Distinct
  /-- The bindings. -/
  lookup : ∀ serviceId,
    services.lookup serviceId = (registry.findServiceEntry serviceId).map bindingOf
  /-- A remote entry has no local provider. -/
  clean : ∀ entry ∈ registry.used, entry.isRemote = true → entry.localProvider = none

/-- A remote registration fills an entry without a local provider, and names its node unless the
entry has no name either. -/
def Unspoiled (registry : Registry) : RegistryOp → Bool
  | .remote serviceId nodeName _ =>
      (registry.place serviceId).all fun entry =>
        entry.localProvider = none && (nodeName.isSome || entry.remoteNode = "")
  | _ => true

/-- All calls in order are so. -/
def UnspoiledRun : Registry → List RegistryOp → Bool
  | _, [] => true
  | registry, op :: ops => Unspoiled registry op && UnspoiledRun (registry.step op).1 ops

namespace Represents

variable {registry : Registry} {services : ServiceMap}

theorem zeroed : Represents Registry.zeroed BoundedMap.empty where
  distinct := List.nodup_nil
  lookup _ := rfl
  clean _ member := absurd member List.not_mem_nil

theorem fillEntry (represents : Represents registry services) {serviceId : UInt32}
    {fill : ServiceEntry → ServiceEntry} {binding : Binding}
    (keys : ∀ entry, (fill entry).serviceId = serviceId)
    (written : ∀ old, registry.place serviceId = some old → bindingOf (fill old) = binding ∧
      ((fill old).isRemote = true → (fill old).localProvider = none)) :
    (registry.fillEntry serviceId fill).2 = (ServiceMap.register services serviceId binding).2 ∧
      Represents (registry.fillEntry serviceId fill).1
        (ServiceMap.register services serviceId binding).1 := by
  have full_iff : services.insert? serviceId binding = none ↔
      registry.place serviceId = none := by
    rw [BoundedMap.insert?_eq_none_iff, Registry.place_eq_none_iff, represents.lookup,
      Option.map_eq_none_iff, services.card_eq_length represents.distinct represents.lookup]
  cases placed : registry.place serviceId with
  | none =>
      have refused := full_iff.mpr placed
      rw [Registry.fillEntry_of_place_eq_none placed, ServiceMap.register, refused]
      exact ⟨rfl, represents⟩
  | some old =>
      obtain ⟨next, filled, distinct, entries⟩ :=
        Registry.fillEntry_of_place represents.distinct placed keys
      obtain ⟨same, clean⟩ := written old placed
      cases inserted : services.insert? serviceId binding with
      | none => simp [full_iff.mp inserted] at placed
      | some services' =>
          rw [filled, ServiceMap.register, inserted]
          refine ⟨rfl, distinct, ?_, ?_⟩
          · intro other
            rw [BoundedMap.lookup_insert? inserted,
              Registry.findServiceEntry_of_replaced represents.distinct distinct (keys old) entries]
            split
            · rw [Option.map_some, same]
            · exact represents.lookup other
          · intro entry member
            rcases (entries entry).mp member with rfl | ⟨kept, -⟩
            · exact clean
            · exact represents.clean entry kept

theorem unregister (represents : Represents registry services) (serviceId : UInt32) :
    (registry.unregister serviceId).2 = (ServiceMap.step services (.unregister serviceId)).2 ∧
      Represents (registry.unregister serviceId).1
        (ServiceMap.step services (.unregister serviceId)).1 := by
  have lookup := represents.lookup serviceId
  cases found : registry.findServiceEntry serviceId with
  | none =>
      rw [found, Option.map_none] at lookup
      rw [Registry.unregister_of_find_eq_none found, ServiceMap.step, lookup]
      exact ⟨rfl, represents⟩
  | some old =>
      rw [found, Option.map_some] at lookup
      obtain ⟨next, removed, distinct, entries⟩ :=
        Registry.unregister_of_find represents.distinct found
      rw [removed, ServiceMap.step, lookup]
      refine ⟨rfl, distinct, ?_, ?_⟩
      · intro other
        rw [if_pos Option.isSome_some, BoundedMap.lookup_erase,
          Registry.findServiceEntry_of_removed represents.distinct distinct entries]
        split
        · rfl
        · exact represents.lookup other
      · intro entry member
        exact represents.clean entry ((entries entry).mp member).1

theorem step (represents : Represents registry services) {op : RegistryOp}
    (unspoiled : Unspoiled registry op = true) :
    (registry.step op).2 = (ServiceMap.step services op).2 ∧
      Represents (registry.step op).1 (ServiceMap.step services op).1 := by
  cases op with
  | bind serviceId provider thread =>
      exact represents.fillEntry (fun _ => rfl)
        fun old _ => ⟨by simp [bindingOf, Registry.bound], by simp [Registry.bound]⟩
  | remote serviceId nodeName udsPath =>
      refine represents.fillEntry (fun _ => rfl) fun old placed => ?_
      simp only [Unspoiled, placed, Option.all_some, Bool.and_eq_true, Bool.or_eq_true,
        decide_eq_true_eq] at unspoiled
      obtain ⟨no_provider, named⟩ := unspoiled
      refine ⟨?_, fun _ => no_provider⟩
      cases nodeName with
      | none => simpa [bindingOf, Registry.madeRemote] using named
      | some name => simp [bindingOf, Registry.madeRemote]
  | unregister serviceId => exact represents.unregister serviceId

theorem run (represents : Represents registry services) {ops : List RegistryOp}
    (unspoiled : UnspoiledRun registry ops = true) :
    (registry.run ops).2 = (ServiceMap.run services ops).2 ∧
      Represents (registry.run ops).1 (ServiceMap.run services ops).1 := by
  induction ops generalizing registry services with
  | nil => exact ⟨rfl, represents⟩
  | cons op ops ih =>
      obtain ⟨first, rest⟩ := (Bool.and_eq_true _ _).mp unspoiled
      obtain ⟨status, stepped⟩ := represents.step first
      obtain ⟨statuses, final⟩ := ih stepped rest
      exact ⟨congrArg₂ List.cons status statuses, final⟩

end Represents

/-! ## The three readers -/

/-- The local provider of a service. -/
def ServiceMap.providerOf (services : ServiceMap) (serviceId : UInt32) : Option CompRef :=
  (services.lookup serviceId).bind Binding.provider

/-- Sending, dispatching and purging read a map in the same way. -/
structure ReadersAgree (tables : Tables) (services : ServiceMap) : Prop where
  /-- A message is sent along the binding of its service. -/
  sent : ∀ header : Header, header.toRequester = false →
    tables.route header = (services.lookup header.dstService).map Binding.route
  /-- A message is dispatched to the local provider of its service. -/
  dispatched : ∀ header : Header, header.toRequester = false →
    tables.dispatchTarget header = (services.providerOf header.dstService).filter tables.receives
  /-- If a message is dispatched to a component, it would be sent to the thread of this
  component. -/
  sent_of_dispatched : ∀ header : Header, header.toRequester = false → ∀ provider,
    tables.dispatchTarget header = some provider →
      ∃ thread, services.lookup header.dstService = some (.here (some provider) thread) ∧
        tables.route header = some (.localThread thread)
  /-- A purge targets the messages to the services of which its component is the local provider, if
  the manifest gives the component no other service of this node. -/
  purged : ∀ header : Header, ∀ provider,
    (tables.manifestProvides header.dstService (tables.component provider).id = true →
      services.providerOf header.dstService = some provider) →
    (tables.targetsProvider provider header = true ↔
      services.providerOf header.dstService = some provider)

/-- The service that a call registers. -/
def RegistryOp.registered : RegistryOp → Option UInt32
  | .bind serviceId _ _ | .remote serviceId _ _ => some serviceId
  | .unregister _ => none

/-- The registry is a map that all readers see alike. -/
structure RegistryLaws (registry : Registry) (services : ServiceMap) : Prop where
  /-- The services are pairwise different. -/
  distinct : (registry.used.map (·.serviceId)).Nodup
  /-- A lookup gives the binding of the map. -/
  lookup : ∀ serviceId,
    (registry.findServiceEntry serviceId).map bindingOf = services.lookup serviceId
  /-- A registration fails exactly on a new service where `64` are registered. -/
  refused : ∀ op serviceId, op.registered = some serviceId →
    ((registry.step op).2 ≠ .ok ↔
      registry.findServiceEntry serviceId = none ∧ registry.used.length = 64)
  /-- A call that fails changes nothing. -/
  unchanged : ∀ op, (registry.step op).2 ≠ .ok → (registry.step op).1 = registry
  /-- Unregistering a service leaves the entries of the others. -/
  others : ∀ serviceId other, other ≠ serviceId →
    (registry.step (.unregister serviceId)).1.findServiceEntry other =
      registry.findServiceEntry other
  /-- The readers agree, whatever the other tables are. -/
  readers : ∀ tables : Tables, tables.registry = registry.used → ReadersAgree tables services

namespace Represents

variable {registry : Registry} {services : ServiceMap}

theorem providerOf_eq (represents : Represents registry services) (serviceId : UInt32) :
    services.providerOf serviceId =
      (registry.findServiceEntry serviceId).bind ServiceEntry.localProvider := by
  rw [ServiceMap.providerOf, represents.lookup]
  cases found : registry.findServiceEntry serviceId with
  | none => rfl
  | some entry =>
      have member := ((Registry.findServiceEntry_eq_some_iff represents.distinct).mp found).1
      cases remote : entry.isRemote with
      | false => simp [bindingOf, remote, Binding.provider]
      | true => simp [bindingOf, remote, Binding.provider, represents.clean entry member remote]

theorem readersAgree (represents : Represents registry services) {tables : Tables}
    (reads : tables.registry = registry.used) : ReadersAgree tables services := by
  have found_eq (serviceId : UInt32) :
      tables.findService serviceId = registry.findServiceEntry serviceId := by
    rw [Tables.findService, reads, Registry.findServiceEntry]
  have sent (header : Header) (request : header.toRequester = false) :
      tables.route header = (services.lookup header.dstService).map Binding.route := by
    rw [Tables.route, request, if_neg Bool.false_ne_true, found_eq, represents.lookup,
      Option.map_map]
    congr 1
    funext entry
    cases remote : entry.isRemote <;> simp [bindingOf, remote, Binding.route]
  have dispatched (header : Header) (request : header.toRequester = false) :
      tables.dispatchTarget header =
        (services.providerOf header.dstService).filter tables.receives := by
    rw [Tables.dispatchTarget, request, if_neg Bool.false_ne_true, found_eq,
      represents.providerOf_eq]
  constructor
  case sent => exact sent
  case dispatched => exact dispatched
  case sent_of_dispatched =>
    intro header request provider target
    rw [dispatched header request, Option.filter_eq_some_iff] at target
    obtain ⟨binding, bound, provides⟩ := Option.bind_eq_some_iff.mp target.1
    cases binding with
    | remote nodeName udsPath => cases provides
    | here provider' thread =>
        obtain rfl : provider' = some provider := provides
        exact ⟨thread, bound, by rw [sent header request, bound]; rfl⟩
  case purged =>
    intro header provider listed
    rw [Tables.targetsProvider_iff, Tables.Provides, found_eq]
    constructor
    · rintro (⟨entry, found, -, held⟩ | given)
      · rw [represents.providerOf_eq, found]
        exact held
      · exact listed given
    · intro provides
      rw [represents.providerOf_eq] at provides
      obtain ⟨entry, found, held⟩ := Option.bind_eq_some_iff.mp provides
      refine .inl ⟨entry, found, ?_, held⟩
      by_contra remote
      have member := ((Registry.findServiceEntry_eq_some_iff represents.distinct).mp found).1
      have no_provider := represents.clean entry member (by simpa using remote)
      simp [no_provider] at held

/-- A registration fails exactly on a new service in a full registry, and then does nothing. -/
theorem step_refused (represents : Represents registry services) {op : RegistryOp}
    {serviceId : UInt32} (registered : op.registered = some serviceId) :
    ((registry.step op).2 ≠ .ok ↔
      registry.findServiceEntry serviceId = none ∧ registry.used.length = 64) ∧
    ((registry.step op).2 ≠ .ok → (registry.step op).1 = registry) := by
  obtain ⟨fill, step_eq, keys⟩ : ∃ fill : ServiceEntry → ServiceEntry,
      registry.step op = registry.fillEntry serviceId fill ∧
        ∀ entry, (fill entry).serviceId = serviceId := by
    cases op with
    | bind other provider thread =>
        obtain rfl := Option.some.inj registered
        exact ⟨Registry.bound other provider thread, rfl, fun _ => rfl⟩
    | remote other nodeName udsPath =>
        obtain rfl := Option.some.inj registered
        exact ⟨Registry.madeRemote other nodeName udsPath, rfl, fun _ => rfl⟩
    | unregister => cases registered
  rw [step_eq, ← Registry.place_eq_none_iff]
  cases placed : registry.place serviceId with
  | none => simp [Registry.fillEntry_of_place_eq_none placed]
  | some old =>
      obtain ⟨next, filled, -⟩ := Registry.fillEntry_of_place represents.distinct placed keys
      simp [filled]

theorem registryLaws (represents : Represents registry services) :
    RegistryLaws registry services where
  distinct := represents.distinct
  lookup serviceId := (represents.lookup serviceId).symm
  refused _ _ registered := (represents.step_refused registered).1
  unchanged op failed := by
    cases op with
    | bind serviceId provider thread => exact (represents.step_refused rfl).2 failed
    | remote serviceId nodeName udsPath => exact (represents.step_refused rfl).2 failed
    | unregister serviceId =>
        cases found : registry.findServiceEntry serviceId with
        | none => rw [Registry.step, Registry.unregister_of_find_eq_none found]
        | some old =>
            obtain ⟨next, removed, -⟩ := Registry.unregister_of_find represents.distinct found
            simp [Registry.step, removed] at failed
  others serviceId other different := by
    cases found : registry.findServiceEntry serviceId with
    | none => rw [Registry.step, Registry.unregister_of_find_eq_none found]
    | some old =>
        obtain ⟨next, removed, distinct, entries⟩ :=
          Registry.unregister_of_find represents.distinct found
        rw [Registry.step, removed,
          Registry.findServiceEntry_of_removed represents.distinct distinct entries,
          if_neg different]
  readers _ := represents.readersAgree

end Represents

/-- After every sequence of calls in which no remote registration fills an entry with a local
provider, or takes over the name of an earlier node, the calls have had the results of a bounded map,
the registry has the bindings of this map, and its readers agree. -/
theorem registryLaws_of_run (ops : List RegistryOp)
    (unspoiled : UnspoiledRun Registry.zeroed ops = true) :
    (Registry.zeroed.run ops).2 = (ServiceMap.run BoundedMap.empty ops).2 ∧
      RegistryLaws (Registry.zeroed.run ops).1 (ServiceMap.run BoundedMap.empty ops).1 := by
  obtain ⟨statuses, represents⟩ := Represents.zeroed.run unspoiled
  exact ⟨statuses, represents.registryLaws⟩

/-- A service that moves between two components and another one that is found on a peer. -/
theorem registryLaws_of_moves :
    RegistryLaws
      (Registry.zeroed.run
        [.remote 200 (some "peer") "/tmp/peer.sock", .bind 100 (some 7) (some 1),
          .bind 100 (some 8) (some 2), .unregister 200]).1
      (ServiceMap.run BoundedMap.empty
        [.remote 200 (some "peer") "/tmp/peer.sock", .bind 100 (some 7) (some 1),
          .bind 100 (some 8) (some 2), .unregister 200]).1 :=
  (registryLaws_of_run _ (by decide +kernel)).2

/-- Once a service of a component has been registered as remote, its messages are sent to the other
node, but those that are already queued are dispatched to the component. -/
theorem dispatch_of_spoiled {registry : Registry} (distinct : registry.Distinct)
    {serviceId : UInt32} {old : ServiceEntry} (placed : registry.place serviceId = some old)
    {provider : CompRef} (left : old.localProvider = some provider) (nodeName : Option String)
    (udsPath : String) {tables : Tables}
    (reads : tables.registry = (registry.step (.remote serviceId nodeName udsPath)).1.used)
    (receives : tables.receives provider = true) {header : Header}
    (request : header.toRequester = false) (addressed : header.dstService = serviceId) :
    tables.dispatchTarget header = some provider ∧
      ∃ nodeName udsPath, tables.route header = some (.remoteNode nodeName udsPath) := by
  obtain ⟨next, filled, next_distinct, entries⟩ :=
    Registry.fillEntry_of_place distinct placed
      (show ∀ entry, (Registry.madeRemote serviceId nodeName udsPath entry).serviceId = serviceId
        from fun _ => rfl)
  have own : (Registry.madeRemote serviceId nodeName udsPath old).serviceId = serviceId := rfl
  have found := Registry.findServiceEntry_of_replaced distinct next_distinct own entries serviceId
  rw [if_pos rfl, Registry.findServiceEntry] at found
  rw [Registry.step, filled] at reads
  have entry_eq : tables.findService header.dstService =
      some (Registry.madeRemote serviceId nodeName udsPath old) := by
    rw [Tables.findService, reads, addressed]
    exact found
  constructor
  · rw [Tables.dispatchTarget, request, if_neg Bool.false_ne_true, entry_eq]
    simp [Registry.madeRemote, left, receives]
  · rw [Tables.route, request, if_neg Bool.false_ne_true, entry_eq]
    exact ⟨_, _, rfl⟩

/-- Component `7` provides service `100`; then the service is registered as remote. -/
def movedAway : List RegistryOp :=
  [.bind 100 (some 7) (some 1), .remote 100 (some "peer") "/tmp/peer.sock"]

/-- After the move the readers do not agree, on whatever map. -/
theorem readers_disagree_after_move :
    ¬ ∃ services, RegistryLaws (Registry.zeroed.run movedAway).1 services := by
  rintro ⟨services, laws⟩
  let tables : Tables :=
    { registry := (Registry.zeroed.run movedAway).1.used
      loaded := []
      component := fun _ => ⟨7, .active, true⟩
      nodeDef := none }
  have target : tables.dispatchTarget ThreadQueue.servedHeader = some 7 := by decide +kernel
  have away : tables.route ThreadQueue.servedHeader = some (.remoteNode "peer" "/tmp/peer.sock") := by
    decide +kernel
  obtain ⟨thread, -, home⟩ :=
    (laws.readers tables rfl).sent_of_dispatched ThreadQueue.servedHeader (by decide) 7 target
  simp [away] at home

end CodexNos.Node
