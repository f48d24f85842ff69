import CodexNos.Config.RoundTrip

/-!
# Order of the lists of a configuration

Tables are filled in the order of the lists, and the needed services come out of a set in any order.
In an accepted configuration names and numbers are different, so no entry of a table replaces another
one, and sorting by numbers leaves one order only: permuting components, models, profiles, the
services of the platform and what a component provides and requires changes neither the resolved
nodes nor the header.
-/

namespace CodexNos.Config

open Lib

/-! ## Sorting by keys -/

section Sorting

variable {α : Type*} {key : α → Int} {items others : List α}

/-- A list that is sorted by different keys is the same for each order that it had. -/
theorem insertionSort_eq_of_perm (same : items.Perm others)
    (distinct : ∀ item ∈ items, ∀ other ∈ items, key item = key other → item = other) :
    items.insertionSort (fun item other => key item ≤ key other) =
      others.insertionSort fun item other => key item ≤ key other := by
  have total : Std.Total fun item other : α => key item ≤ key other :=
    ⟨fun item other => le_total _ _⟩
  have transitive : IsTrans α fun item other : α => key item ≤ key other :=
    ⟨fun _ _ _ => le_trans⟩
  have sorted := fun items : List α =>
    List.pairwise_insertionSort (fun item other : α => key item ≤ key other) items
  have permuted := fun items : List α =>
    List.perm_insertionSort (fun item other : α => key item ≤ key other) items
  refine List.Perm.eq_of_pairwise (fun item other member member' below above => ?_)
    (sorted items) (sorted others) ((permuted items).trans (same.trans (permuted others).symm))
  have listed := (permuted items).mem_iff.mp member
  have listed' := same.mem_iff.mpr ((permuted others).mem_iff.mp member')
  exact distinct item listed other listed' (le_antisymm below above)

end Sorting

/-- A dictionary of different keys does not depend on the order in which it is filled. -/
theorem dictGet_eq_of_perm {κ β : Type*} [BEq κ] [LawfulBEq κ] {entries others : List (κ × β)}
    (same : entries.Perm others) (distinct : (entries.map Prod.fst).Nodup) (key : κ) :
    dictGet entries key = dictGet others key := by
  have distinct' : (others.map Prod.fst).Nodup := (same.map Prod.fst).nodup_iff.mp distinct
  ext item
  rw [dictGet_eq_some_iff distinct, dictGet_eq_some_iff distinct', same.mem_iff]

/-! ## The header -/

/-- `to_c_macro`. -/
def toCMacro (name : String) : String :=
  String.ofList (name.toList.map fun letter => if letter.isAlphanum then letter.toUpper else '_')

/-- The field width of a macro. -/
def padded (text : String) : String :=
  text ++ String.ofList (List.replicate (20 - text.length) ' ')

/-- The number that an entry is sorted by. -/
def sortKey (value : Scalar) : Int := value.toInt?.getD 0

/-- The lines of a table of numbers. -/
def defineLines (ids : List (String × Scalar)) : List String :=
  (ids.insertionSort fun entry other => sortKey entry.2 ≤ sortKey other.2).map fun entry =>
    s!"#define {padded (toCMacro entry.1)} {entry.2.text}"

/-- `generate_header`. -/
def generateHeader (compIds svcIds : List (String × Scalar)) : List String :=
  ["#ifndef __NOS_IDS_H__", "#define __NOS_IDS_H__", "", "/* Component IDs */"] ++
    defineLines compIds ++ ["\n/* Service IDs */"] ++ defineLines svcIds ++ ["\n#endif"]

theorem eq_of_sortKey {value other : Scalar} (positive : value.Positive)
    (positive' : other.Positive) (same : sortKey value = sortKey other) :
    value.toInt? = other.toInt? := by
  obtain ⟨number, given, -⟩ := positive
  obtain ⟨number', given', -⟩ := positive'
  rw [sortKey, sortKey, given, given'] at same
  rw [given, given']
  exact congrArg some same

/-- The lines of a table of different numbers do not depend on its order. -/
theorem defineLines_eq_of_perm {ids others : List (String × Scalar)} (same : ids.Perm others)
    (positive : ∀ entry ∈ ids, entry.2.Positive)
    (distinct : (ids.map fun entry => entry.2.toInt?).Nodup) :
    defineLines ids = defineLines others := by
  unfold defineLines
  rw [insertionSort_eq_of_perm same fun entry member other member' equal => ?_]
  exact List.inj_on_of_nodup_map distinct member member'
    (eq_of_sortKey (positive entry member) (positive other member') equal)

/-! ## Reordered configurations -/

/-- The same component with its lists in another order. -/
structure ComponentConf.Reordered (comp other : ComponentConf) : Prop where
  name : comp.name = other.name
  id : comp.id = other.id
  model : comp.model = other.model
  provides : comp.provides.Perm other.provides
  requires : comp.requires.Perm other.requires

/-- The same configuration with its lists in another order, except those of nodes and threads. -/
structure ConfigData.Reordered (data other : ConfigData) : Prop where
  nodes : data.nodes = other.nodes
  components : ∃ listed, data.components.Perm listed ∧
    List.Forall₂ ComponentConf.Reordered listed other.components
  models : data.models.Perm other.models
  profiles : data.profiles.Perm other.profiles
  platform : data.platform.Perm other.platform

namespace ConfigData

/-- The services of these names, sorted. -/
def sortedServices (data : ConfigData) (names : List String) : List ResolvedService :=
  (names.filterMap (dictGet data.globalSvcMap)).insertionSort
    fun svc other => svc.id.toInt?.getD 0 ≤ other.id.toInt?.getD 0

theorem map_ids_globalSvcMap (data : ConfigData) :
    (data.globalSvcMap.map fun entry => entry.2.id.toInt?) =
      data.services.map fun svc => svc.id.toInt? := by
  simp only [globalSvcMap, services, List.map_append, List.map_map, List.map_flatMap]
  rfl

theorem map_names_globalSvcMap (data : ConfigData) :
    data.globalSvcMap.map Prod.fst = data.services.map fun svc => textOf svc.name := by
  simp only [globalSvcMap, services, List.map_append, List.map_map, List.map_flatMap]
  rfl

end ConfigData

/-! ## Tables of accepted configurations -/

section Tables

variable {data : ConfigData}

theorem WellFormed.serviceKeys (wellFormed : WellFormed data) :
    (data.globalSvcMap.map Prod.fst).Nodup := by
  rw [data.map_names_globalSvcMap]
  exact wellFormed.services.names.keys

theorem WellFormed.serviceIds (wellFormed : WellFormed data) :
    (data.globalSvcMap.map fun entry => entry.2.id.toInt?).Nodup := by
  rw [data.map_ids_globalSvcMap]
  exact wellFormed.services.ids

theorem WellFormed.positive_service (wellFormed : WellFormed data)
    {entry : String × ResolvedService} (member : entry ∈ data.globalSvcMap) :
    entry.2.id.Positive := by
  have listed : entry.2.id.toInt? ∈ data.services.map fun svc => svc.id.toInt? := by
    rw [← data.map_ids_globalSvcMap]
    exact List.mem_map_of_mem member
  obtain ⟨svc, served, same⟩ := List.mem_map.mp listed
  obtain ⟨number, given, positive⟩ := wellFormed.services.positive svc served
  exact ⟨number, same.symm.trans given, positive⟩

theorem WellFormed.entry_unique (wellFormed : WellFormed data)
    {entry other : String × ResolvedService} (member : entry ∈ data.globalSvcMap)
    (member' : other ∈ data.globalSvcMap) (same : sortKey entry.2.id = sortKey other.2.id) :
    entry = other :=
  List.inj_on_of_nodup_map wellFormed.serviceIds member member'
    (eq_of_sortKey (wellFormed.positive_service member) (wellFormed.positive_service member') same)

/-- The needed services come out sorted in one way only, whatever the order of the set. -/
theorem WellFormed.sortedServices_eq_of_perm (wellFormed : WellFormed data)
    {names others : List String} (same : names.Perm others) :
    data.sortedServices names = data.sortedServices others := by
  have listed : ∀ {svc}, svc ∈ names.filterMap (dictGet data.globalSvcMap) →
      ∃ name, (name, svc) ∈ data.globalSvcMap := by
    intro svc member
    obtain ⟨name, -, found⟩ := List.mem_filterMap.mp member
    exact ⟨name, (dictGet_eq_some_iff wellFormed.serviceKeys).mp found⟩
  refine insertionSort_eq_of_perm (same.filterMap _) fun svc member other member' equal => ?_
  obtain ⟨name, inside⟩ := listed member
  obtain ⟨name', inside'⟩ := listed member'
  exact congrArg Prod.snd (wellFormed.entry_unique inside inside' equal)

theorem WellFormed.dictGet_compMap_iff (wellFormed : WellFormed data) {name : String}
    {comp : ComponentConf} :
    dictGet data.compMap name = some comp ↔ comp ∈ data.components ∧ comp.name = some name := by
  have distinct : (data.compMap.map Prod.fst).Nodup := by
    rw [ConfigData.compMap, List.map_map]
    exact wellFormed.componentNames.keys
  rw [dictGet_eq_some_iff distinct]
  constructor
  · intro member
    obtain ⟨comp', inside, pair⟩ := List.mem_map.mp member
    obtain ⟨named, rfl⟩ := Prod.mk.inj pair
    obtain ⟨text, given, -⟩ :=
      wellFormed.componentNames.given _ (List.mem_map_of_mem inside)
    rw [given] at named
    exact ⟨inside, given.trans (congrArg some named)⟩
  · rintro ⟨inside, named⟩
    refine List.mem_map.mpr ⟨comp, inside, ?_⟩
    rw [named]
    rfl

end Tables

/-! ## The same results -/

section Reordered

variable {data other : ConfigData} {node : NodeConf}

theorem ConfigData.Reordered.component (reordered : data.Reordered other) {comp : ComponentConf}
    (member : comp ∈ data.components) : ∃ comp' ∈ other.components, comp.Reordered comp' := by
  obtain ⟨listed, same, matched⟩ := reordered.components
  obtain ⟨index, inside, rfl⟩ := List.getElem_of_mem (same.mem_iff.mp member)
  have inside' : index < other.components.length := matched.length_eq ▸ inside
  exact ⟨other.components[index], List.getElem_mem inside', matched.get inside inside'⟩

theorem ComponentConf.Reordered.symm {comp other : ComponentConf} (same : comp.Reordered other) :
    other.Reordered comp :=
  ⟨same.name.symm, same.id.symm, same.model.symm, same.provides.symm, same.requires.symm⟩

theorem ConfigData.Reordered.symm (reordered : data.Reordered other) : other.Reordered data := by
  obtain ⟨listed, same, matched⟩ := reordered.components
  obtain ⟨listed', matched', same'⟩ := List.perm_comp_forall₂ same matched
  have flipped : List.Forall₂ ComponentConf.Reordered listed' data.components :=
    matched'.flip.imp fun _ _ => ComponentConf.Reordered.symm
  exact ⟨reordered.nodes.symm, ⟨listed', same'.symm, flipped⟩, reordered.models.symm,
    reordered.profiles.symm, reordered.platform.symm⟩

/-- The component of a name is the same up to the order of its lists. -/
theorem WellFormed.dictGet_reordered (wellFormed : WellFormed data) (wellFormed' : WellFormed other)
    (reordered : data.Reordered other) {name : String} {comp : ComponentConf}
    (found : dictGet data.compMap name = some comp) :
    ∃ comp', dictGet other.compMap name = some comp' ∧ comp.Reordered comp' := by
  obtain ⟨member, named⟩ := wellFormed.dictGet_compMap_iff.mp found
  obtain ⟨comp', member', same⟩ := reordered.component member
  exact ⟨comp', wellFormed'.dictGet_compMap_iff.mpr ⟨member', same.name ▸ named⟩, same⟩

theorem WellFormed.rowOf_reordered (wellFormed : WellFormed data) (wellFormed' : WellFormed other)
    (reordered : data.Reordered other) (listed : node ∈ data.nodes) {thread : ThreadConf}
    (member : thread ∈ node.threads) {name : String} (hosted : name ∈ thread.components) :
    data.rowOf name = other.rowOf name := by
  obtain ⟨comp, inside, named⟩ :=
    List.mem_map.mp ((wellFormed.eachNode node listed).known thread member name hosted)
  obtain ⟨comp', inside', same⟩ := reordered.component inside
  obtain ⟨model, modelled, model_eq⟩ := List.mem_map.mp (wellFormed.componentModels comp inside)
  have comp_found := find?_of_distinct wellFormed.componentNames inside named
  have comp_found' := find?_of_distinct wellFormed'.componentNames inside' (same.name ▸ named)
  have model_found := find?_of_distinct wellFormed.modelNames modelled model_eq
  have model_found' := find?_of_distinct wellFormed'.modelNames
    (reordered.models.mem_iff.mp modelled) (same.model ▸ model_eq)
  unfold ConfigData.rowOf
  rw [comp_found, comp_found']
  simp only [model_found, model_found', same.id]

theorem WellFormed.binsOf_reordered (wellFormed : WellFormed data) (wellFormed' : WellFormed other)
    (reordered : data.Reordered other) (listed : node ∈ data.nodes) :
    data.binsOf node = other.binsOf node := by
  obtain ⟨profile, member, named⟩ := List.mem_map.mp (wellFormed.eachNode node listed).profile
  have found := find?_of_distinct wellFormed.profileNames member named
  have found' := find?_of_distinct wellFormed'.profileNames
    (reordered.profiles.mem_iff.mp member) named
  rw [ConfigData.binsOf, ConfigData.binsOf, found, found']

theorem ConfigData.mem_neededSvcNames {svc : String} :
    svc ∈ data.neededSvcNames node ↔ ∃ name ∈ nodeComps node, ∃ comp,
      dictGet data.compMap name = some comp ∧
        (svc ∈ comp.provides.map (fun svc => textOf svc.name) ∨ svc ∈ comp.requires) := by
  rw [ConfigData.neededSvcNames, List.mem_dedup, List.mem_flatMap]
  refine exists_congr fun name => and_congr_right fun _ => ?_
  cases dictGet data.compMap name with
  | none => simp
  | some comp => simp

theorem WellFormed.needed_of_reordered (wellFormed : WellFormed data)
    (wellFormed' : WellFormed other) (reordered : data.Reordered other) {svc : String}
    (needed : svc ∈ data.neededSvcNames node) : svc ∈ other.neededSvcNames node := by
  obtain ⟨name, member, comp, found, listed⟩ := ConfigData.mem_neededSvcNames.mp needed
  obtain ⟨comp', found', same⟩ := wellFormed.dictGet_reordered wellFormed' reordered found
  refine ConfigData.mem_neededSvcNames.mpr ⟨name, member, comp', found', ?_⟩
  exact listed.imp (same.provides.map _).mem_iff.mp same.requires.mem_iff.mp

theorem WellFormed.mem_needed_reordered (wellFormed : WellFormed data)
    (wellFormed' : WellFormed other) (reordered : data.Reordered other) (svc : String) :
    svc ∈ data.neededSvcNames node ↔ svc ∈ other.neededSvcNames node :=
  ⟨wellFormed.needed_of_reordered wellFormed' reordered,
    wellFormed'.needed_of_reordered wellFormed reordered.symm⟩

theorem WellFormed.compToNode_reordered (wellFormed : WellFormed data)
    (wellFormed' : WellFormed other) (reordered : data.Reordered other) :
    data.compToNode = other.compToNode := by
  have known : ∀ name, (dictGet data.compMap name).isSome = (dictGet other.compMap name).isSome := by
    intro name
    rw [Bool.eq_iff_iff, Option.isSome_iff_exists, Option.isSome_iff_exists]
    constructor
    · rintro ⟨comp, found⟩
      obtain ⟨comp', found', -⟩ := wellFormed.dictGet_reordered wellFormed' reordered found
      exact ⟨comp', found'⟩
    · rintro ⟨comp, found⟩
      obtain ⟨comp', found', -⟩ := wellFormed'.dictGet_reordered wellFormed reordered.symm found
      exact ⟨comp', found'⟩
  unfold ConfigData.compToNode
  simp only [known, reordered.nodes]

theorem WellFormed.globalSvcMap_reordered (wellFormed : WellFormed data)
    (wellFormed' : WellFormed other) (reordered : data.Reordered other) :
    data.globalSvcMap.Perm other.globalSvcMap := by
  have placement := wellFormed.compToNode_reordered wellFormed' reordered
  have paths : data.nodeToUds = other.nodeToUds := by
    rw [ConfigData.nodeToUds, ConfigData.nodeToUds, reordered.nodes]
  have entry : ∀ {comp comp' : ComponentConf}, comp.Reordered comp' →
      data.componentService comp = other.componentService comp' := by
    intro comp comp' same
    funext svc
    simp only [ConfigData.componentService, placement, paths, same.name, same.id]
  obtain ⟨listed, same, matched⟩ := reordered.components
  refine (reordered.platform.map _).append ((same.flatMap_right _).trans ?_)
  clear same
  generalize other.components = comps at matched
  induction matched with
  | nil => exact .refl _
  | cons here later ih =>
      rw [List.flatMap_cons, List.flatMap_cons, entry here]
      exact (here.provides.map _).append ih

theorem ConfigData.Reordered.compIds (reordered : data.Reordered other) :
    (data.components.map fun comp => (textOf comp.name, comp.id)).Perm
      (other.components.map fun comp => (textOf comp.name, comp.id)) := by
  obtain ⟨listed, same, matched⟩ := reordered.components
  refine (same.map _).trans (.of_eq ?_)
  clear same
  generalize other.components = comps at matched
  induction matched with
  | nil => rfl
  | cons here later ih =>
      rw [List.map_cons, List.map_cons, here.name, here.id, ih]

theorem WellFormed.componentLines_reordered (wellFormed : WellFormed data)
    (reordered : data.Reordered other) :
    defineLines (data.components.map fun comp => (textOf comp.name, comp.id)) =
      defineLines (other.components.map fun comp => (textOf comp.name, comp.id)) := by
  refine defineLines_eq_of_perm reordered.compIds (fun entry member => ?_) ?_
  · obtain ⟨comp, inside, rfl⟩ := List.mem_map.mp member
    exact wellFormed.componentIds comp inside
  · rw [List.map_map]
    exact wellFormed.distinctIds

theorem WellFormed.serviceLines_reordered (wellFormed : WellFormed data)
    (wellFormed' : WellFormed other) (reordered : data.Reordered other) :
    defineLines (data.globalSvcMap.map fun entry => (entry.1, entry.2.id)) =
      defineLines (other.globalSvcMap.map fun entry => (entry.1, entry.2.id)) := by
  refine defineLines_eq_of_perm
    ((wellFormed.globalSvcMap_reordered wellFormed' reordered).map _) (fun entry member => ?_) ?_
  · obtain ⟨listed, inside, rfl⟩ := List.mem_map.mp member
    exact wellFormed.positive_service inside
  · rw [List.map_map]
    exact wellFormed.serviceIds

/-- The sorted services of a node, for any order in which the sets of names are run through. -/
theorem WellFormed.sortedServices_reordered (wellFormed : WellFormed data)
    (wellFormed' : WellFormed other) (reordered : data.Reordered other) {names others : List String}
    (enumerated : names.Perm (data.neededSvcNames node))
    (enumerated' : others.Perm (other.neededSvcNames node)) :
    data.sortedServices names = other.sortedServices others := by
  have needed : (data.neededSvcNames node).Perm (other.neededSvcNames node) :=
    (List.perm_ext_iff_of_nodup (List.nodup_dedup _) (List.nodup_dedup _)).mpr
      (wellFormed.mem_needed_reordered wellFormed' reordered)
  have entries : dictGet data.globalSvcMap = dictGet other.globalSvcMap :=
    funext (dictGet_eq_of_perm (wellFormed.globalSvcMap_reordered wellFormed' reordered)
      wellFormed.serviceKeys)
  rw [wellFormed.sortedServices_eq_of_perm
    (enumerated.trans (needed.trans enumerated'.symm)), ConfigData.sortedServices, entries]
  rfl

theorem WellFormed.resolveNode_reordered (wellFormed : WellFormed data)
    (wellFormed' : WellFormed other) (reordered : data.Reordered other)
    (listed : node ∈ data.nodes) : data.resolveNode node = other.resolveNode node := by
  have listed' : node ∈ other.nodes := reordered.nodes ▸ listed
  have rows : data.rows node = other.rows node := by
    refine List.map_congr_left fun thread member => congrArg (Prod.mk _) ?_
    exact List.map_congr_left fun name hosted =>
      wellFormed.rowOf_reordered wellFormed' reordered listed member hosted
  have services : data.resolvedServices node = other.resolvedServices node :=
    wellFormed.sortedServices_reordered wellFormed' reordered (.refl _) (.refl _)
  have inits : data.platformInits node = other.platformInits node := by
    unfold ConfigData.platformInits
    simp only [wellFormed.mem_needed_reordered wellFormed' reordered]
  rw [wellFormed.resolveNode listed, wellFormed'.resolveNode listed', rows, services, inits,
    wellFormed.binsOf_reordered wellFormed' reordered listed]

theorem validateAndResolve_of_mapM {checked : Checked} {nodes : List ResolvedNode}
    (accepted : validateConfig data = .ok checked)
    (resolved : data.nodes.mapM data.resolveNode = some nodes) :
    data.validateAndResolve = .ok
      { nodes := nodes
        compIds := data.components.map fun comp => (textOf comp.name, comp.id)
        svcNameToId := data.globalSvcMap.map fun entry => (entry.1, entry.2.id) } := by
  rw [ConfigData.validateAndResolve, accepted, resolved]

/-- What is generated does not depend on the order of the lists: an accepted configuration and one
that is the same up to their order are both resolved, to the same nodes and the same header, in
whatever order the sets of needed services are run through. -/
theorem generated_of_reordered {data other : ConfigData} {checked checked' : Checked}
    (accepted : validateConfig data = .ok checked) (accepted' : validateConfig other = .ok checked')
    (reordered : data.Reordered other) :
    ∃ resolved resolved', data.validateAndResolve = .ok resolved ∧
      other.validateAndResolve = .ok resolved' ∧ resolved.nodes = resolved'.nodes ∧
      generateHeader resolved.compIds resolved.svcNameToId =
        generateHeader resolved'.compIds resolved'.svcNameToId ∧
      ∀ node ∈ data.nodes, ∀ names others : List String,
        names.Perm (data.neededSvcNames node) → others.Perm (other.neededSvcNames node) →
        data.sortedServices names = data.resolvedServices node ∧
          other.sortedServices others = data.resolvedServices node := by
  have wellFormed := wellFormed_of_validateConfig accepted
  have wellFormed' := wellFormed_of_validateConfig accepted'
  obtain ⟨nodes, resolved⟩ : ∃ nodes, data.nodes.mapM data.resolveNode = some nodes := by
    refine exists_mapM fun node member => ?_
    rw [wellFormed.resolveNode member]
    rfl
  have resolved' : other.nodes.mapM other.resolveNode = some nodes := by
    rw [mapM_eq_some_iff] at resolved ⊢
    rw [← resolved, ← reordered.nodes]
    exact List.map_congr_left fun node member =>
      (wellFormed.resolveNode_reordered wellFormed' reordered member).symm
  refine ⟨_, _, validateAndResolve_of_mapM accepted resolved,
    validateAndResolve_of_mapM accepted' resolved', rfl, ?_, fun node listed names others set set' =>
      ⟨?_, ?_⟩⟩
  · rw [generateHeader, generateHeader, wellFormed.componentLines_reordered reordered,
      wellFormed.serviceLines_reordered wellFormed' reordered]
  · exact wellFormed.sortedServices_eq_of_perm set
  · exact (wellFormed.sortedServices_reordered wellFormed' reordered (.refl _) set').symm

end Reordered

/-- The same component with reversed lists. -/
def ComponentConf.reversed (comp : ComponentConf) : ComponentConf where
  name := comp.name
  id := comp.id
  model := comp.model
  provides := comp.provides.reverse
  requires := comp.requires.reverse

/-- The same configuration with reversed lists, except those of nodes and threads. -/
def ConfigData.reversed (data : ConfigData) : ConfigData where
  nodes := data.nodes
  components := (data.components.map ComponentConf.reversed).reverse
  profiles := data.profiles.reverse
  models := data.models.reverse
  platform := data.platform.reverse

theorem ConfigData.reordered_reversed (data : ConfigData) : data.Reordered data.reversed where
  nodes := rfl
  components := by
    refine ⟨data.components.reverse, (List.reverse_perm _).symm, ?_⟩
    rw [ConfigData.reversed, ← List.map_reverse, List.forall₂_map_right_iff, List.forall₂_same]
    intro comp _
    exact ⟨rfl, rfl, rfl, (List.reverse_perm _).symm, (List.reverse_perm _).symm⟩
  models := (List.reverse_perm _).symm
  profiles := (List.reverse_perm _).symm
  platform := (List.reverse_perm _).symm

/-- Two components that need each other and the platform. -/
def twoProviders : ConfigData where
  nodes := [⟨some "ProcA", some "/tmp/proc_a.sock", none, [⟨some "T", ["Sensor", "Motor"]⟩], none⟩]
  components :=
    [⟨some "Sensor", .int 2, some "M1", [⟨some "SVC_TEMP", .int 101, some "remote"⟩,
        ⟨some "SVC_HUMIDITY", .int 100, some "remote"⟩], ["SVC_LOG", "SVC_SPEED"]⟩,
      ⟨some "Motor", .int 1, some "M2", [⟨some "SVC_SPEED", .int 99, some "remote"⟩], ["SVC_TEMP"]⟩]
  profiles := [⟨some "default", [⟨.int 64, .int 8⟩]⟩, ⟨some "small", [⟨.int 16, .int 4⟩]⟩]
  models := [⟨some "M1", some "libone.so"⟩, ⟨some "M2", some "libtwo.so"⟩]
  platform := [⟨some "SVC_TIMER", .int 2, some "embedded"⟩, ⟨some "SVC_LOG", .int 1, some "embedded"⟩]

/-- Reversing the lists of a configuration leaves what is generated as it is. -/
theorem reversed_generates_the_same :
    ∃ resolved resolved', twoProviders.validateAndResolve = .ok resolved ∧
      twoProviders.reversed.validateAndResolve = .ok resolved' ∧ resolved.nodes = resolved'.nodes ∧
      generateHeader resolved.compIds resolved.svcNameToId =
        generateHeader resolved'.compIds resolved'.svcNameToId := by
  obtain ⟨checked, accepted⟩ : ∃ checked, validateConfig twoProviders = .ok checked :=
    exists_checked (by decide +kernel)
  obtain ⟨checked', accepted'⟩ : ∃ checked', validateConfig twoProviders.reversed = .ok checked' :=
    exists_checked (by decide +kernel)
  obtain ⟨resolved, resolved', done, done', nodes, header, -⟩ :=
    generated_of_reordered accepted accepted' twoProviders.reordered_reversed
  exact ⟨resolved, resolved', done, done', nodes, header⟩

end CodexNos.Config
