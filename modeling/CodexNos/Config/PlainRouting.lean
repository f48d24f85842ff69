import CodexNos.Config.Deployment
import CodexNos.Config.Placement

/-!
# Routing with plain names and small numbers

If the nodes have room for their components, names of nodes and paths are plain and the numbers of
components and services have 32 bits, then a node loads all its components, no two services share a
number, and what matters is where the provider is placed and how many services come first.
-/

namespace CodexNos.Config

open Lib Messaging Node

/-- Each node has room for its components, and what routing compares is read as configured. -/
structure Compact (data : ConfigData) : Prop where
  room : ∀ node ∈ data.nodes, (ConfigData.nodeComps node).length ≤ maxComponentsPerNode
  nodeNames : ∀ node ∈ data.nodes, IsPlain (textOf node.name)
  paths : ∀ node ∈ data.nodes, IsPlain (textOf node.udsPath)
  componentIds : ∀ comp ∈ data.components, comp.id.Fits
  serviceIds : ∀ svc ∈ data.services, svc.id.Fits

/-! ## Numbers and strings -/

theorem utf8_inj {text other : String} : utf8 text = utf8 other ↔ text = other := by
  refine ⟨fun same => ?_, congrArg utf8⟩
  rw [← String.toByteArray_inj, ← String.utf8Encode_toList, ← String.utf8Encode_toList]
  exact congrArg List.toByteArray same

theorem asRead_of_plain {text : String} (plain : IsPlain text) : asRead text = utf8 text := by
  rw [asRead, (CString.value_quoted_iff _).mpr plain, Option.getD_some]

theorem asRead_inj_of_plain {text other : String} (plain : IsPlain text) (plain' : IsPlain other) :
    asRead text = asRead other ↔ text = other := by
  rw [asRead_of_plain plain, asRead_of_plain plain', utf8_inj]

/-- A positive number of 32 bits. -/
def Scalar.Small (value : Scalar) : Prop := 0 < sortKey value ∧ sortKey value < 2 ^ 32

theorem Scalar.Fits.small {value : Scalar} (fits : value.Fits) (positive : value.Positive) :
    value.Small := by
  obtain ⟨given, rfl, below⟩ := fits
  obtain ⟨_, same, above⟩ := positive
  obtain rfl := Option.some.inj same
  exact ⟨above, below⟩

theorem Scalar.Small.inj {value other : Scalar} (small : value.Small) (small' : other.Small)
    (same : value.number = other.number) : sortKey value = sortKey other := by
  have numbers : (UInt32.ofInt (sortKey value)).toNat = (UInt32.ofInt (sortKey other)).toNat :=
    congrArg UInt32.toNat same
  rw [← toNat_ofInt small.1.le small.2, ← toNat_ofInt small'.1.le small'.2, numbers]

theorem Scalar.Small.ne_zero {value : Scalar} (small : value.Small) : value.number ≠ 0 := by
  intro zero
  have number := toNat_ofInt small.1.le small.2
  have none_left : (UInt32.ofInt (sortKey value)).toNat = 0 := congrArg UInt32.toNat zero
  rw [none_left] at number
  exact small.1.ne number

/-- There are fewer different numbers than `2 ^ 32`, without `0`. -/
theorem length_lt_of_nodup {numbers : List UInt32} (distinct : numbers.Nodup)
    (nonzero : 0 ∉ numbers) : numbers.length < 2 ^ 32 := by
  have injective : Function.Injective UInt32.toFin := fun _ _ => UInt32.toFin_inj.mp
  have all : (((0 :: numbers).map UInt32.toFin)).Nodup :=
    (List.nodup_cons.mpr ⟨nonzero, distinct⟩).map injective
  simpa [UInt32.size] using all.length_le_card

section Configured

variable {data : ConfigData} {node : NodeConf}

/-! ## Services -/

theorem Compact.small_service (compact : Compact data) (wellFormed : WellFormed data)
    {entry : String × ResolvedService} (member : entry ∈ data.globalSvcMap) :
    entry.2.id.Small := by
  have same : (data.globalSvcMap.map fun entry => entry.2.id) = data.services.map (·.id) := by
    simp only [ConfigData.globalSvcMap, ConfigData.services, List.map_append, List.map_map,
      List.map_flatMap]
    rfl
  have listed : entry.2.id ∈ data.globalSvcMap.map fun entry => entry.2.id :=
    List.mem_map_of_mem member
  rw [same] at listed
  obtain ⟨svc, inside, id_eq⟩ := List.mem_map.mp listed
  exact (id_eq ▸ compact.serviceIds svc inside).small (wellFormed.positive_service member)

theorem Compact.small_component (compact : Compact data) (wellFormed : WellFormed data)
    {comp : ComponentConf} (member : comp ∈ data.components) : comp.id.Small :=
  (compact.componentIds comp member).small (wellFormed.componentIds comp member)

theorem Compact.service_inj (compact : Compact data) (wellFormed : WellFormed data)
    {entry other : String × ResolvedService} (member : entry ∈ data.globalSvcMap)
    (member' : other ∈ data.globalSvcMap) (same : entry.2.id.number = other.2.id.number) :
    entry = other :=
  wellFormed.entry_unique member member'
    ((compact.small_service wellFormed member).inj (compact.small_service wellFormed member') same)

/-- The services that a node needs have different numbers. -/
theorem Compact.numbers_nodup (compact : Compact data) (wellFormed : WellFormed data)
    (node : NodeConf) : ((data.resolvedServices node).map (·.id.number)).Nodup := by
  refine List.Nodup.map_on (fun svc needed other needed' same => ?_)
    wellFormed.resolvedServices_nodup
  obtain ⟨name, -, member⟩ := wellFormed.mem_resolvedServices.mp needed
  obtain ⟨name', -, member'⟩ := wellFormed.mem_resolvedServices.mp needed'
  exact congrArg Prod.snd (compact.service_inj wellFormed member member' same)

theorem Compact.registrable_eq (compact : Compact data) (wellFormed : WellFormed data)
    (node : NodeConf) :
    data.registrable node = (data.resolvedServices node).filter (data.registers node) := by
  have short : (data.resolvedServices node).length < 2 ^ 32 := by
    rw [← List.length_map (·.id.number)]
    refine length_lt_of_nodup (compact.numbers_nodup wellFormed node) fun zero => ?_
    obtain ⟨svc, needed, same⟩ := List.mem_map.mp zero
    obtain ⟨name, -, member⟩ := wellFormed.mem_resolvedServices.mp needed
    exact (compact.small_service wellFormed member).ne_zero same
  rw [ConfigData.registrable, Nat.mod_eq_of_lt short, List.take_length]

/-! ## Components -/

theorem WellFormed.node_unique (wellFormed : WellFormed data) {other : NodeConf}
    (listed : node ∈ data.nodes) (listed' : other ∈ data.nodes)
    (same : textOf node.name = textOf other.name) : node = other :=
  List.inj_on_of_nodup_map wellFormed.nodeNames.keys listed listed' same

theorem WellFormed.rowOf_listed (wellFormed : WellFormed data) (listed : node ∈ data.nodes)
    {name : String} (hosted : name ∈ ConfigData.nodeComps node) :
    ∃ comp ∈ data.components, comp.name = some name ∧ (data.rowOf name).id = comp.id ∧
      (data.rowOf name).name = name := by
  obtain ⟨thread, threaded, hosted⟩ := List.mem_flatMap.mp hosted
  obtain ⟨comp, member, named, -, id, name_eq, -⟩ := wellFormed.placed listed threaded hosted
  exact ⟨comp, member, named, id, name_eq⟩

theorem Compact.map_loads (compact : Compact data) (wellFormed : WellFormed data)
    (listed : node ∈ data.nodes) :
    (data.loads node).map Prod.snd = (ConfigData.nodeComps node).map data.rowOf := by
  have whole (thread : ThreadConf) (threaded : thread ∈ node.threads) :
      readRows (thread.components.map data.rowOf) = thread.components.map data.rowOf := by
    refine List.takeWhile_eq_self_iff.mpr fun row member => ?_
    obtain ⟨name, hosted, rfl⟩ := List.mem_map.mp member
    obtain ⟨comp, known, -, id, -⟩ :=
      wellFormed.rowOf_listed listed (List.mem_flatMap.mpr ⟨thread, threaded, hosted⟩)
    have nonzero := (compact.small_component wellFormed known).ne_zero
    rw [← id] at nonzero
    simpa using nonzero
  have all : (((data.rows node).zipIdx 1).flatMap fun entry =>
      (readRows entry.1.2).map fun row => (entry.2, row)).map Prod.snd =
      (ConfigData.nodeComps node).map data.rowOf := by
    calc (((data.rows node).zipIdx 1).flatMap fun entry =>
          (readRows entry.1.2).map fun row => (entry.2, row)).map Prod.snd
        = ((data.rows node).zipIdx 1).flatMap fun entry => readRows entry.1.2 := by
          rw [List.map_flatMap]
          refine List.flatMap_congr fun entry _ => ?_
          rw [List.map_map]
          exact List.map_id _
      _ = (((data.rows node).zipIdx 1).map Prod.fst).flatMap fun entry => readRows entry.2 := by
          rw [List.flatMap_map]
      _ = node.threads.flatMap fun thread => readRows (thread.components.map data.rowOf) := by
          rw [List.zipIdx_map_fst, ConfigData.rows, List.flatMap_map]
      _ = (ConfigData.nodeComps node).map data.rowOf := by
          rw [ConfigData.nodeComps, List.map_flatMap]
          exact List.flatMap_congr whole
  have short := compact.room node listed
  rw [← List.length_map data.rowOf, ← all, List.length_map] at short
  rw [ConfigData.loads, List.take_of_length_le short, all]

theorem Compact.exists_of_load (compact : Compact data) (wellFormed : WellFormed data)
    (listed : node ∈ data.nodes) {load : ThreadRef × Row} (loaded : load ∈ data.loads node) :
    ∃ comp ∈ data.components, textOf comp.name ∈ ConfigData.nodeComps node ∧
      load.2.id = comp.id ∧ load.2.name = textOf comp.name := by
  have inside : load.2 ∈ (data.loads node).map Prod.snd := List.mem_map_of_mem loaded
  rw [compact.map_loads wellFormed listed] at inside
  obtain ⟨name, here, same⟩ := List.mem_map.mp inside
  obtain ⟨comp, member, named, id, name_eq⟩ := wellFormed.rowOf_listed listed here
  refine ⟨comp, member, ?_, same ▸ id, ?_⟩
  · rwa [named]
  · rw [← same, name_eq, named]
    rfl

theorem Compact.load_unique (compact : Compact data) (wellFormed : WellFormed data)
    (listed : node ∈ data.nodes) {comp : ComponentConf} (member : comp ∈ data.components)
    {load : ThreadRef × Row} (loaded : load ∈ data.loads node)
    (same : load.2.id.number = comp.id.number) :
    textOf comp.name ∈ ConfigData.nodeComps node ∧ load.2.name = textOf comp.name := by
  obtain ⟨other, known, here, id, name⟩ := compact.exists_of_load wellFormed listed loaded
  obtain rfl : other = comp := wellFormed.component_unique known member
    ((compact.small_component wellFormed known).inj (compact.small_component wellFormed member)
      (id ▸ same))
  exact ⟨here, name⟩

theorem Compact.loadThread_isSome (compact : Compact data) (wellFormed : WellFormed data)
    (listed : node ∈ data.nodes) {comp : ComponentConf} (member : comp ∈ data.components) :
    (data.loadThread node comp.id.number).isSome ↔
      textOf comp.name ∈ ConfigData.nodeComps node := by
  rw [ConfigData.loadThread, Option.isSome_map, List.find?_isSome]
  constructor
  · rintro ⟨load, loaded, same⟩
    exact (compact.load_unique wellFormed listed member loaded (by simpa using same)).1
  · intro here
    have inside := List.mem_map_of_mem (f := data.rowOf) here
    rw [← compact.map_loads wellFormed listed] at inside
    obtain ⟨load, loaded, same⟩ := List.mem_map.mp inside
    obtain ⟨other, known, named, id, -⟩ := wellFormed.rowOf_listed listed here
    obtain ⟨name, given, -⟩ := wellFormed.componentNames.given _ (List.mem_map_of_mem member)
    have other_eq : other = comp := by
      refine List.inj_on_of_nodup_map wellFormed.componentNames.nodup known member ?_
      rw [named, given]
      rfl
    refine ⟨load, loaded, ?_⟩
    rw [decide_eq_true_iff, same, id, other_eq]

/-! ## Registries -/

theorem Compact.registers_iff (compact : Compact data) (wellFormed : WellFormed data)
    (listed : node ∈ data.nodes) {entry : String × ResolvedService}
    (member : entry ∈ data.globalSvcMap) :
    data.registers node entry.2 ↔ entry ∈ data.placedEntries := by
  have nothing : asRead "" = [] := by decide +kernel
  unfold ConfigData.registers
  rcases wellFormed.entry_cases member with ⟨-, provider, path⟩ |
    ⟨comp, inside, ⟨svc, provided, rfl⟩, provider, ⟨homeless, -, path⟩ | ⟨home, placed, here, path⟩⟩
  · refine iff_of_false ?_ ?_
    · rw [ResolvedService.provider, ResolvedService.path, provider, path]
      split
      · intro hosted
        rw [ConfigData.loadThread, Option.isSome_map, List.find?_isSome] at hosted
        obtain ⟨load, loaded, zero⟩ := hosted
        obtain ⟨comp, known, -, id, -⟩ := compact.exists_of_load wellFormed listed loaded
        have nonzero := (compact.small_component wellFormed known).ne_zero
        rw [← id] at nonzero
        exact nonzero (of_decide_eq_true zero)
      · simp [nothing]
    · intro placed
      obtain ⟨comp, -, -, svc, -, rfl⟩ := ConfigData.mem_placedEntries.mp placed
      simp [ConfigData.componentService] at provider
  · refine iff_of_false ?_ ?_
    · rw [ResolvedService.provider, ResolvedService.path, provider, path]
      split
      · rw [Option.getD_some, compact.loadThread_isSome wellFormed listed inside]
        intro hosted
        obtain ⟨other, placed⟩ := ConfigData.home_isSome listed hosted
        simp [homeless] at placed
      · simp [nothing]
    · rw [wellFormed.placed_iff inside provided, homeless]
      simp
  · refine iff_of_true ?_ ?_
    · obtain ⟨known, hosted⟩ := ConfigData.home_mem placed
      rw [ResolvedService.provider, ResolvedService.path, provider, path]
      split
      · rename_i same
        rw [ResolvedService.IsOf, here, asRead_inj_of_plain (compact.nodeNames home known)
          (compact.nodeNames node listed)] at same
        obtain rfl := wellFormed.node_unique known listed same
        rwa [Option.getD_some, compact.loadThread_isSome wellFormed listed inside]
      · obtain ⟨text, given, nonempty⟩ := (wellFormed.eachNode home known).path
        have plain := compact.paths home known
        rw [given, textOf, Option.getD_some] at plain
        rw [Option.getD_some, given, textOf, Option.getD_some, decide_eq_true_iff, ← nothing,
          asRead_of_plain plain, nothing]
        exact fun empty => nonempty (utf8_inj.mp (empty.trans (by decide +kernel)))
    · exact (wellFormed.placed_iff inside provided).mpr ⟨home, placed⟩

/-- The number of a service is bound to the service, if its component is placed and few services
come before it. -/
theorem Compact.bound_iff (compact : Compact data) (wellFormed : WellFormed data)
    (listed : node ∈ data.nodes) {comp : ComponentConf} (member : comp ∈ data.components)
    {svc : ServiceConf} (provided : svc ∈ comp.provides) {winner : ResolvedService} :
    data.bound node svc.number = some winner ↔
      winner = (data.componentService comp svc).2 ∧
        textOf svc.name ∈ data.neededSvcNames node ∧ (∃ home, data.home comp = some home) ∧
          data.rank node svc < 64 := by
  set entry := data.componentService comp svc
  have known : entry ∈ data.globalSvcMap :=
    List.mem_append_right _ (List.mem_flatMap.mpr ⟨comp, member, List.mem_map_of_mem provided⟩)
  have registrable := compact.registrable_eq wellFormed node
  have distinct : ((data.registrable node).map (·.id.number)).Nodup := by
    rw [registrable]
    exact (compact.numbers_nodup wellFormed node).sublist (List.filter_sublist.map _)
  have kept_iff : entry.2 ∈ data.registrable node ↔
      textOf svc.name ∈ data.neededSvcNames node ∧ ∃ home, data.home comp = some home := by
    rw [registrable, List.mem_filter, wellFormed.mem_resolvedServices]
    refine and_congr ?_ ?_
    · constructor
      · rintro ⟨name, needed, inside⟩
        obtain rfl : name = textOf svc.name :=
          congrArg Prod.fst (wellFormed.entry_unique inside known rfl)
        exact needed
      · exact fun needed => ⟨textOf svc.name, needed, known⟩
    · rw [← wellFormed.placed_iff member provided]
      exact compact.registers_iff wellFormed listed known
  have ranked : ((data.registrable node).countP fun other =>
      sortKey other.id < sortKey entry.2.id) = data.rank node svc := by
    rw [registrable]
    exact wellFormed.countP_placed
      (fun _ _ _ inside => compact.registers_iff wellFormed listed inside) svc
  have sorted : (data.registrable node).Pairwise fun svc other =>
      sortKey svc.id < sortKey other.id := by
    rw [registrable]
    exact wellFormed.resolvedServices_sorted.filter _
  rw [ConfigData.bound, holder_eq_some_iff_of_nodup distinct, ← and_assoc (b := ∃ _, _), ← kept_iff]
  constructor
  · rintro ⟨taken, same⟩
    have kept := List.mem_of_mem_take taken
    have needed := kept
    rw [registrable] at needed
    obtain ⟨name, -, listed⟩ := wellFormed.mem_resolvedServices.mp (List.mem_filter.mp needed).1
    obtain rfl : winner = entry.2 :=
      congrArg Prod.snd (compact.service_inj wellFormed listed known same)
    exact ⟨rfl, kept, ranked ▸ (mem_take_iff_of_sorted sorted kept 64).mp taken⟩
  · rintro ⟨rfl, kept, few⟩
    exact ⟨(mem_take_iff_of_sorted sorted kept 64).mpr (ranked ▸ few), rfl⟩

/-! ## Routes -/

/-- The entry of a placed service is of the home of its component. -/
theorem Compact.isOf_iff (compact : Compact data) (wellFormed : WellFormed data)
    (listed : node ∈ data.nodes) {comp : ComponentConf} (member : comp ∈ data.components)
    {home : NodeConf} (placed : data.home comp = some home) (svc : ServiceConf) :
    (data.componentService comp svc).2.IsOf node ↔ home = node := by
  obtain ⟨known, -⟩ := ConfigData.home_mem placed
  rw [ResolvedService.IsOf, (wellFormed.componentService_of_home member placed svc).1,
    asRead_inj_of_plain (compact.nodeNames home known) (compact.nodeNames node listed)]
  exact ⟨wellFormed.node_unique known listed, fun same => same ▸ rfl⟩

/-- A node serves a service if it is the home of its component and few services come before it. -/
theorem Compact.serves_iff (compact : Compact data) (wellFormed : WellFormed data)
    (listed : node ∈ data.nodes) {comp : ComponentConf} (member : comp ∈ data.components)
    {svc : ServiceConf} (provided : svc ∈ comp.provides) :
    data.Serves node svc.number comp ↔
      data.home comp = some node ∧ data.rank node svc < 64 := by
  constructor
  · rintro ⟨thread, ⟨winner, held, here, -⟩, -⟩
    obtain ⟨rfl, -, ⟨home, placed⟩, few⟩ :=
      (compact.bound_iff wellFormed listed member provided).mp held
    obtain rfl := (compact.isOf_iff wellFormed listed member placed svc).mp here
    exact ⟨placed, few⟩
  · rintro ⟨placed, few⟩
    have hosted := (ConfigData.home_mem placed).2
    have needed : textOf svc.name ∈ data.neededSvcNames node :=
      ConfigData.mem_neededSvcNames.mpr ⟨textOf comp.name, hosted, comp,
        wellFormed.dictGet_compMap member, Or.inl (List.mem_map_of_mem provided)⟩
    have held := (compact.bound_iff wellFormed listed member provided).mpr
      ⟨rfl, needed, ⟨node, placed⟩, few⟩
    have here := (compact.isOf_iff wellFormed listed member placed svc).mpr rfl
    obtain ⟨thread, thread_eq⟩ := Option.isSome_iff_exists.mp
      ((compact.loadThread_isSome wellFormed listed member).mpr hosted)
    obtain ⟨load, found, rfl⟩ := Option.map_eq_some_iff.mp thread_eq
    have same : load.2.id.number = comp.id.number := by simpa using List.find?_some found
    have loaded := List.mem_of_find?_eq_some found
    have name := (compact.load_unique wellFormed listed member loaded same).2
    exact ⟨load.1, ⟨_, held, here, thread_eq⟩, load.2, loaded, same, congrArg asRead name⟩

/-- A service that a node needs is routed exactly if its component is placed and neither registry is
full before the turn of the service. -/
theorem Compact.routes_iff (compact : Compact data) (wellFormed : WellFormed data)
    (listed : node ∈ data.nodes) {comp : ComponentConf} (member : comp ∈ data.components)
    {svc : ServiceConf} (provided : svc ∈ comp.provides)
    (needed : textOf svc.name ∈ data.neededSvcNames node) :
    data.Routes node svc.number comp ↔
      ∃ home, data.home comp = some home ∧ data.rank node svc < 64 ∧ data.rank home svc < 64 := by
  constructor
  · rintro (here | ⟨other, listed', ⟨winner, held, -⟩, there⟩)
    · obtain ⟨placed, few⟩ := (compact.serves_iff wellFormed listed member provided).mp here
      exact ⟨node, placed, few, few⟩
    · obtain ⟨-, -, -, few⟩ := (compact.bound_iff wellFormed listed member provided).mp held
      obtain ⟨placed, few'⟩ := (compact.serves_iff wellFormed listed' member provided).mp there
      exact ⟨other, placed, few, few'⟩
  · rintro ⟨home, placed, few, few'⟩
    have listed' := (ConfigData.home_mem placed).1
    have served := (compact.serves_iff wellFormed listed' member provided).mpr ⟨placed, few'⟩
    by_cases here : home = node
    · exact Or.inl (here ▸ served)
    · have held := (compact.bound_iff wellFormed listed member provided).mpr
        ⟨rfl, needed, ⟨home, placed⟩, few⟩
      have away := mt (compact.isOf_iff wellFormed listed member placed svc).mp here
      refine Or.inr ⟨home, listed', ⟨_, held, away, ?_⟩, served⟩
      rw [ResolvedService.path, (wellFormed.componentService_of_home member placed svc).2]
      rfl

/-- In such a configuration a service that a component of a node requires is delivered exactly if
its component is placed and neither registry is full before the turn of the service. -/
theorem Compact.delivered_iff_placed (compact : Compact data) {checked : Checked}
    (accepted : validateConfig data = .ok checked) {state : NodeConf → NodeState}
    (deployed : Deployed data state) (listed : node ∈ data.nodes) {user provider : ComponentConf}
    (known : user ∈ data.components) (hosted : textOf user.name ∈ ConfigData.nodeComps node)
    (member : provider ∈ data.components) {svc : ServiceConf} (provided : svc ∈ provider.provides)
    (required : textOf svc.name ∈ user.requires) :
    Delivered data state node svc ↔
      ∃ home, data.home provider = some home ∧ data.rank node svc < 64 ∧
        data.rank home svc < 64 := by
  have wellFormed := wellFormed_of_validateConfig accepted
  have needed : textOf svc.name ∈ data.neededSvcNames node :=
    ConfigData.mem_neededSvcNames.mpr ⟨textOf user.name, hosted, user,
      wellFormed.dictGet_compMap known, Or.inr required⟩
  rw [wellFormed.delivered_iff_routes deployed listed member provided,
    compact.routes_iff wellFormed listed member provided needed]

end Configured

end CodexNos.Config
