import CodexNos.Config.InputOrder

/-!
# Where components are placed

`comp_to_node` has the last node that lists a component, and the services of a component go to its
node.  Among the services that a node needs, it registers those whose component has a node, in the
order of their numbers; the place of a service in the registry is the number of such services with
smaller numbers.
-/

namespace CodexNos.Config

open Lib

/-! ## Ranks -/

section Ranks

variable {α : Type*} {key : α → Int} {items : List α}

/-- An item is among the first of a sorted list if few items have smaller keys. -/
theorem mem_take_iff_of_sorted (sorted : items.Pairwise fun item other => key item < key other)
    {item : α} (member : item ∈ items) (limit : Nat) :
    item ∈ items.take limit ↔ (items.countP fun other => key other < key item) < limit := by
  induction items generalizing limit with
  | nil => simp at member
  | cons first rest ih =>
      obtain ⟨least, sorted⟩ := List.pairwise_cons.mp sorted
      cases limit with
      | zero => simp
      | succ limit =>
          rw [List.take_succ_cons, List.mem_cons]
          rcases List.mem_cons.mp member with rfl | later
          · have above : ∀ other ∈ rest, ¬ key other < key item :=
              fun other inside => (least other inside).le.not_gt
            have nothing : (rest.countP fun other => key other < key item) = 0 :=
              List.countP_eq_zero.mpr (by simpa using above)
            rw [List.countP_cons_of_neg (by simp), nothing]
            simp
          · have smaller := least item later
            have different : item ≠ first := fun same => smaller.ne' (congrArg key same)
            rw [List.countP_cons_of_pos (by simpa using smaller), Nat.succ_lt_succ_iff,
              or_iff_right different]
            exact ih sorted later limit

end Ranks

/-! ## Homes -/

theorem dictGet_append {κ β : Type*} [BEq κ] (entries later : List (κ × β)) (key : κ) :
    dictGet (entries ++ later) key = (dictGet later key).or (dictGet entries key) := by
  rw [dictGet, List.reverse_append, List.lookup_append]
  rfl

theorem dictGet_constant {κ β : Type*} [DecidableEq κ] (keys : List κ) (value : β) (key : κ) :
    dictGet (keys.map fun key => (key, value)) key = if key ∈ keys then some value else none := by
  induction keys with
  | nil => rfl
  | cons first keys ih =>
      rw [List.map_cons, ← List.singleton_append, dictGet_append, ih]
      by_cases later : key ∈ keys
      · simp [later]
      · rw [if_neg later, Option.none_or]
        by_cases here : key = first
        · simp [dictGet, here]
        · have other : (key == first) = false := by simpa using here
          simp [dictGet, here, later, List.lookup_cons, other]

namespace ConfigData

/-- The node that a component is placed on: the last one that lists it. -/
def home (data : ConfigData) (comp : ComponentConf) : Option NodeConf :=
  data.nodes.reverse.find? fun node => textOf comp.name ∈ nodeComps node

/-- The services of the components that are placed. -/
def placedServices (data : ConfigData) : List ServiceConf :=
  (data.components.filter fun comp => (data.home comp).isSome).flatMap (·.provides)

/-- How many of these services a node needs with numbers below that of a service. -/
def rank (data : ConfigData) (node : NodeConf) (svc : ServiceConf) : Nat :=
  data.placedServices.countP fun other =>
    textOf other.name ∈ data.neededSvcNames node ∧ sortKey other.id < sortKey svc.id

/-- Their entries in `global_svc_map`. -/
def placedEntries (data : ConfigData) : List (String × ResolvedService) :=
  (data.components.filter fun comp => (data.home comp).isSome).flatMap fun comp =>
    comp.provides.map (data.componentService comp)

theorem home_mem {data : ConfigData} {comp : ComponentConf} {node : NodeConf}
    (placed : data.home comp = some node) :
    node ∈ data.nodes ∧ textOf comp.name ∈ nodeComps node :=
  ⟨List.mem_reverse.mp (List.mem_of_find?_eq_some placed), by simpa using List.find?_some placed⟩

theorem home_isSome {data : ConfigData} {comp : ComponentConf} {node : NodeConf}
    (listed : node ∈ data.nodes) (hosted : textOf comp.name ∈ nodeComps node) :
    ∃ other, data.home comp = some other := by
  rw [← Option.isSome_iff_exists, home, List.find?_isSome]
  exact ⟨node, List.mem_reverse.mpr listed, by simpa using hosted⟩

end ConfigData

section Homes

variable {data : ConfigData} {node : NodeConf}

theorem WellFormed.dictGet_compMap (wellFormed : WellFormed data) {comp : ComponentConf}
    (member : comp ∈ data.components) : dictGet data.compMap (textOf comp.name) = some comp := by
  obtain ⟨name, given, -⟩ := wellFormed.componentNames.given _ (List.mem_map_of_mem member)
  rw [given]
  exact wellFormed.dictGet_compMap_iff.mpr ⟨member, given⟩

theorem WellFormed.dictGet_compToNode (wellFormed : WellFormed data) {comp : ComponentConf}
    (member : comp ∈ data.components) :
    dictGet data.compToNode (textOf comp.name) =
      (data.home comp).map fun node => textOf node.name := by
  have known : (dictGet data.compMap (textOf comp.name)).isSome :=
    Option.isSome_of_eq_some (wellFormed.dictGet_compMap member)
  unfold ConfigData.compToNode ConfigData.home
  induction data.nodes with
  | nil => rfl
  | cons node nodes ih =>
      have block : (node.threads.flatMap fun thread =>
          (thread.components.filter fun comp => (dictGet data.compMap comp).isSome).map fun comp =>
            (comp, textOf node.name)) =
          ((ConfigData.nodeComps node).filter fun comp =>
            (dictGet data.compMap comp).isSome).map fun comp => (comp, textOf node.name) := by
        simp only [ConfigData.nodeComps, List.filter_flatMap, List.map_flatMap]
      rw [List.flatMap_cons, dictGet_append, ih, block, dictGet_constant, List.reverse_cons,
        List.find?_append, Option.map_or]
      congr 1
      by_cases hosted : textOf comp.name ∈ ConfigData.nodeComps node
      · rw [if_pos (List.mem_filter.mpr ⟨hosted, known⟩)]
        simp [hosted]
      · rw [if_neg fun inside => hosted (List.mem_filter.mp inside).1]
        simp [hosted]

theorem WellFormed.componentService_of_home (wellFormed : WellFormed data) {comp : ComponentConf}
    (member : comp ∈ data.components) (placed : data.home comp = some node) (svc : ServiceConf) :
    (data.componentService comp svc).2.node = textOf node.name ∧
      (data.componentService comp svc).2.udsPath = some (textOf node.udsPath) := by
  have found := wellFormed.dictGet_compToNode member
  rw [placed, Option.map_some] at found
  obtain ⟨listed, -⟩ := ConfigData.home_mem placed
  obtain ⟨name, given, -⟩ := wellFormed.nodeNames.given _ (List.mem_map_of_mem listed)
  have path := dictGet_of_distinct wellFormed.nodeNames (fun node => textOf node.udsPath) listed
    given
  unfold ConfigData.componentService
  rw [found]
  refine ⟨rfl, ?_⟩
  change some ((dictGet data.nodeToUds (textOf node.name)).getD "") = _
  rw [given]
  exact congrArg (fun path : Option String => some (path.getD "")) path

theorem WellFormed.componentService_of_homeless (wellFormed : WellFormed data)
    {comp : ComponentConf} (member : comp ∈ data.components) (homeless : data.home comp = none)
    (svc : ServiceConf) :
    (data.componentService comp svc).2.node = "Unknown" ∧
      (data.componentService comp svc).2.udsPath = some "" := by
  have found := wellFormed.dictGet_compToNode member
  rw [homeless, Option.map_none] at found
  have nameless : dictGet data.nodeToUds "" = none := by
    rw [dictGet, List.lookup_eq_none_iff]
    intro entry inside
    obtain ⟨node, listed, rfl⟩ := List.mem_map.mp (List.mem_reverse.mp inside)
    obtain ⟨name, given, nonempty⟩ := wellFormed.nodeNames.given _ (List.mem_map_of_mem listed)
    simpa [given, textOf] using Ne.symm nonempty
  unfold ConfigData.componentService
  rw [found]
  refine ⟨rfl, ?_⟩
  change some ((dictGet data.nodeToUds "").getD "") = _
  rw [nameless]
  rfl

/-- An entry of `global_svc_map` is a service of the platform, of a component without a place, or of
a component with a home. -/
theorem WellFormed.entry_cases (wellFormed : WellFormed data) {entry : String × ResolvedService}
    (member : entry ∈ data.globalSvcMap) :
    (entry.2.node = "Platform" ∧ entry.2.providerId = none ∧ entry.2.udsPath = none) ∨
      ∃ comp ∈ data.components, (∃ svc ∈ comp.provides, data.componentService comp svc = entry) ∧
        entry.2.providerId = some comp.id ∧
        ((data.home comp = none ∧ entry.2.node = "Unknown" ∧ entry.2.udsPath = some "") ∨
          ∃ home, data.home comp = some home ∧ entry.2.node = textOf home.name ∧
            entry.2.udsPath = some (textOf home.udsPath)) := by
  rcases List.mem_append.mp member with platform | provided
  · obtain ⟨svc, -, rfl⟩ := List.mem_map.mp platform
    exact Or.inl ⟨rfl, rfl, rfl⟩
  · obtain ⟨comp, inside, provided⟩ := List.mem_flatMap.mp provided
    obtain ⟨svc, listed, rfl⟩ := List.mem_map.mp provided
    refine Or.inr ⟨comp, inside, ⟨svc, listed, rfl⟩, rfl, ?_⟩
    cases placed : data.home comp with
    | none => exact Or.inl ⟨rfl, wellFormed.componentService_of_homeless inside placed svc⟩
    | some home =>
        exact Or.inr ⟨home, rfl, wellFormed.componentService_of_home inside placed svc⟩

end Homes

/-! ## Places in the registry -/

section Places

variable {data : ConfigData} {node : NodeConf}

theorem ConfigData.mem_placedEntries {entry : String × ResolvedService} :
    entry ∈ data.placedEntries ↔ ∃ comp ∈ data.components, (∃ home, data.home comp = some home) ∧
      ∃ svc ∈ comp.provides, data.componentService comp svc = entry := by
  simp only [placedEntries, List.mem_flatMap, List.mem_filter, List.mem_map,
    Option.isSome_iff_exists, and_assoc]

theorem WellFormed.component_unique (wellFormed : WellFormed data) {comp other : ComponentConf}
    (member : comp ∈ data.components) (member' : other ∈ data.components)
    (same : sortKey comp.id = sortKey other.id) : comp = other :=
  List.inj_on_of_nodup_map wellFormed.distinctIds member member' (eq_of_sortKey
    (wellFormed.componentIds comp member) (wellFormed.componentIds other member') same)

/-- The entry of a service is among those with a place if its component has one. -/
theorem WellFormed.placed_iff (wellFormed : WellFormed data) {comp : ComponentConf}
    (member : comp ∈ data.components) {svc : ServiceConf} (provided : svc ∈ comp.provides) :
    data.componentService comp svc ∈ data.placedEntries ↔ ∃ home, data.home comp = some home := by
  rw [ConfigData.mem_placedEntries]
  constructor
  · rintro ⟨other, known, placed, svc', -, same⟩
    have ids : other.id = comp.id := Option.some.inj (congrArg (·.2.providerId) same)
    exact wellFormed.component_unique known member (congrArg sortKey ids) ▸ placed
  · exact fun placed => ⟨comp, member, placed, svc, provided, rfl⟩

theorem ConfigData.placedEntries_sublist (data : ConfigData) :
    data.placedEntries.Sublist data.globalSvcMap :=
  (List.filter_sublist.flatMap _).trans (List.sublist_append_right _ _)

theorem ConfigData.map_placedEntries (data : ConfigData) :
    (data.placedEntries.map fun entry => (entry.1, entry.2.id)) =
      data.placedServices.map fun svc => (textOf svc.name, svc.id) := by
  simp only [placedEntries, placedServices, List.map_flatMap, List.map_map]
  rfl

theorem WellFormed.mem_resolvedServices (wellFormed : WellFormed data) {svc : ResolvedService} :
    svc ∈ data.resolvedServices node ↔
      ∃ name ∈ data.neededSvcNames node, (name, svc) ∈ data.globalSvcMap := by
  rw [ConfigData.resolvedServices, List.mem_insertionSort, List.mem_filterMap]
  simp only [dictGet_eq_some_iff wellFormed.serviceKeys]

theorem WellFormed.resolvedServices_nodup (wellFormed : WellFormed data) :
    (data.resolvedServices node).Nodup := by
  rw [ConfigData.resolvedServices, (List.perm_insertionSort _ _).nodup_iff]
  refine List.Nodup.filterMap (fun name other svc found found' => ?_) (List.nodup_dedup _)
  have member := (dictGet_eq_some_iff wellFormed.serviceKeys).mp found
  have member' := (dictGet_eq_some_iff wellFormed.serviceKeys).mp found'
  exact congrArg Prod.fst (wellFormed.entry_unique member member' rfl)

theorem WellFormed.resolvedServices_sorted (wellFormed : WellFormed data) :
    (data.resolvedServices node).Pairwise fun svc other => sortKey svc.id < sortKey other.id := by
  have total : Std.Total fun svc other : ResolvedService => sortKey svc.id ≤ sortKey other.id :=
    ⟨fun _ _ => le_total _ _⟩
  have transitive : IsTrans ResolvedService fun svc other => sortKey svc.id ≤ sortKey other.id :=
    ⟨fun _ _ _ => le_trans⟩
  have sorted : (data.resolvedServices node).Pairwise fun svc other =>
      sortKey svc.id ≤ sortKey other.id := List.pairwise_insertionSort _ _
  refine (sorted.and wellFormed.resolvedServices_nodup).imp_of_mem ?_
  rintro svc other member member' ⟨below, different⟩
  refine lt_of_le_of_ne below fun same => different ?_
  obtain ⟨name, -, inside⟩ := wellFormed.mem_resolvedServices.mp member
  obtain ⟨name', -, inside'⟩ := wellFormed.mem_resolvedServices.mp member'
  exact congrArg Prod.snd (wellFormed.entry_unique inside inside' same)

/-- Among the needed services that are placed, as many have a smaller number as the rank says. -/
theorem WellFormed.countP_placed (wellFormed : WellFormed data) {keeps : ResolvedService → Bool}
    (placed_iff : ∀ name ∈ data.neededSvcNames node, ∀ svc, (name, svc) ∈ data.globalSvcMap →
      (keeps svc ↔ (name, svc) ∈ data.placedEntries)) (svc : ServiceConf) :
    (((data.resolvedServices node).filter keeps).countP fun other =>
      sortKey other.id < sortKey svc.id) = data.rank node svc := by
  have listed := data.placedEntries_sublist.subset
  have nodup : ((data.placedEntries.filter fun entry =>
      entry.1 ∈ data.neededSvcNames node).map Prod.snd).Nodup := by
    refine List.Nodup.map_on (fun entry member other member' same => ?_) ?_
    · exact wellFormed.entry_unique (listed (List.mem_filter.mp member).1)
        (listed (List.mem_filter.mp member').1) (by rw [same])
    · exact ((wellFormed.serviceKeys.of_map _).sublist data.placedEntries_sublist).filter _
  have same : ((data.resolvedServices node).filter keeps).Perm
      ((data.placedEntries.filter fun entry =>
        entry.1 ∈ data.neededSvcNames node).map Prod.snd) := by
    refine (List.perm_ext_iff_of_nodup (wellFormed.resolvedServices_nodup.filter _) nodup).mpr ?_
    intro other
    rw [List.mem_filter, wellFormed.mem_resolvedServices, List.mem_map]
    constructor
    · rintro ⟨⟨name, needed, inside⟩, kept⟩
      refine ⟨(name, other), List.mem_filter.mpr ⟨?_, by simpa using needed⟩, rfl⟩
      exact (placed_iff name needed other inside).mp kept
    · rintro ⟨entry, member, rfl⟩
      obtain ⟨inside, needed⟩ := List.mem_filter.mp member
      have needed : entry.1 ∈ data.neededSvcNames node := by simpa using needed
      exact ⟨⟨entry.1, needed, listed inside⟩,
        (placed_iff entry.1 needed entry.2 (listed inside)).mpr inside⟩
  calc ((data.resolvedServices node).filter keeps).countP
        (fun other => sortKey other.id < sortKey svc.id)
      = (data.placedEntries.map fun entry => (entry.1, entry.2.id)).countP fun pair =>
          pair.1 ∈ data.neededSvcNames node ∧ sortKey pair.2 < sortKey svc.id := by
        rw [same.countP_eq, List.countP_map, List.countP_filter, List.countP_map]
        refine List.countP_congr fun entry _ => ?_
        simp [and_comm]
    _ = data.rank node svc := by
        rw [data.map_placedEntries, List.countP_map]
        rfl

end Places

end CodexNos.Config
