import CodexNos.Config.Validate

/-!
# What validation ensures

Each loop of `validate_config` that ends without an error has looked at every entry of its list, and
the tables that it fills have one entry for each of them.
-/

namespace CodexNos.Config

/-! ## Computations that may fail -/

theorem bind_eq_ok_iff {ε α β : Type*} {first : Except ε α} {then_ : α → Except ε β} {result : β} :
    first.bind then_ = .ok result ↔ ∃ value, first = .ok value ∧ then_ value = .ok result := by
  cases first with
  | error failure => simp [Except.bind]
  | ok value => simp [Except.bind]

theorem forM_eq_ok_iff {ε α : Type*} {check : α → Except ε Unit} {items : List α} {done : Unit} :
    items.forM check = .ok done ↔ ∀ item ∈ items, check item = .ok () := by
  induction items with
  | nil => exact ⟨fun _ _ member => absurd member List.not_mem_nil, fun _ => rfl⟩
  | cons item items ih =>
      have unfolded : (item :: items).forM check = (check item).bind fun _ => items.forM check := rfl
      rw [unfolded, bind_eq_ok_iff, List.forall_mem_cons, ← ih]
      constructor
      · rintro ⟨value, first, rest⟩
        exact ⟨first, rest⟩
      · rintro ⟨first, rest⟩
        exact ⟨(), first, rest⟩

/-! ## Well-formed configurations -/

/-- A positive number. -/
def Scalar.Positive (value : Scalar) : Prop := ∃ number, value.toInt? = some number ∧ 0 < number

/-- Names that are there, and pairwise different. -/
structure Distinct (names : List (Option String)) : Prop where
  given : ∀ name ∈ names, ∃ text, name = some text ∧ text ≠ ""
  nodup : names.Nodup

/-- Services with different names and numbers. -/
structure ServicesOk (services : List ServiceConf) : Prop where
  names : Distinct (services.map (·.name))
  positive : ∀ svc ∈ services, svc.id.Positive
  ids : (services.map (·.id.toInt?)).Nodup
  types : ∀ svc ∈ services, svc.type = some "embedded" ∨ svc.type = some "remote"

/-- The services of the platform and of all components. -/
def ConfigData.services (data : ConfigData) : List ServiceConf :=
  data.platform ++ data.components.flatMap (·.provides)

/-- A node with known components. -/
structure NodeOk (data : ConfigData) (node : NodeConf) : Prop where
  path : ∃ path, node.udsPath = some path ∧ path ≠ ""
  profile : some node.profile ∈ data.profiles.map (·.name)
  threads : node.threads ≠ []
  threadNames : Distinct (node.threads.map (·.name))
  hosts : ∀ thread ∈ node.threads, thread.components ≠ []
  known : ∀ thread ∈ node.threads, ∀ comp ∈ thread.components,
    some comp ∈ data.components.map (·.name)
  busyPoll : ∃ number, node.busyPoll.toInt? = some number ∧ 0 ≤ number

/-- A configuration without errors. -/
structure WellFormed (data : ConfigData) : Prop where
  nodes : data.nodes ≠ []
  components : data.components ≠ []
  models : data.models ≠ []
  componentNames : Distinct (data.components.map (·.name))
  modelNames : Distinct (data.models.map (·.name))
  profileNames : Distinct (data.profiles.map (·.name))
  nodeNames : Distinct (data.nodes.map (·.name))
  libs : ∀ model ∈ data.models, ∃ lib, model.lib = some lib ∧ lib ≠ "" ∧ isSharedObject lib
  bins : ∀ profile ∈ data.profiles, profile.bins ≠ [] ∧
    ∀ bin ∈ profile.bins, bin.size.Positive ∧ bin.count.Positive
  componentIds : ∀ comp ∈ data.components, comp.id.Positive
  distinctIds : (data.components.map (·.id.toInt?)).Nodup
  componentModels : ∀ comp ∈ data.components, comp.model ∈ data.models.map (·.name)
  services : ServicesOk data.services
  requires : ∀ comp ∈ data.components, ∀ required ∈ comp.requires,
    some required ∈ data.services.map (·.name)
  eachNode : ∀ node ∈ data.nodes, NodeOk data node

/-! ## Names -/

theorem itemName_eq_ok_iff {value : Option String} {field owner name : String} :
    itemName value field owner = .ok name ↔ value = some name ∧ name ≠ "" := by
  cases value with
  | none => simp [itemName]
  | some text =>
      unfold itemName
      by_cases empty : text = ""
      · subst empty
        simp
      · simp [empty]
        grind

theorem positive_of_filter {value : Scalar} {number : Int}
    (found : value.toInt?.filter (0 < ·) = some number) :
    value.toInt? = some number ∧ 0 < number := by
  simpa using found

theorem Distinct.snoc {names : List (Option String)} (distinct : Distinct names) {name : String}
    (nonempty : name ≠ "") (fresh : some name ∉ names) : Distinct (names ++ [some name]) where
  given := by
    intro text member
    rcases List.mem_append.mp member with old | new
    · exact distinct.given text old
    · exact ⟨name, List.mem_singleton.mp new, nonempty⟩
  nodup := by
    rw [← List.concat_eq_append]
    exact distinct.nodup.concat fresh

theorem lookup_isSome_iff_mem {κ β : Type*} [BEq κ] [LawfulBEq κ] {table : List (κ × β)} {key : κ} :
    (table.lookup key).isSome ↔ some key ∈ table.map fun entry => some entry.1 := by
  rw [List.lookup_isSome_iff]
  constructor
  · rintro ⟨entry, member, same⟩
    exact List.mem_map.mpr ⟨entry, member, congrArg some (eq_of_beq same).symm⟩
  · intro member
    obtain ⟨entry, member, same⟩ := List.mem_map.mp member
    exact ⟨entry, member, by simpa using (Option.some.inj same).symm⟩

theorem ensureUnique_ok {α : Type*} {nameOf : α → Option String} {owner : String} {items : List α}
    {seen table : List (String × α)} (checked : ensureUnique nameOf owner items seen = .ok table)
    (listed : Distinct (seen.map fun entry => some entry.1)) :
    Distinct (table.map fun entry => some entry.1) ∧
      table.map (fun entry => some entry.1) =
        seen.map (fun entry => some entry.1) ++ items.map nameOf := by
  induction items generalizing seen with
  | nil =>
      obtain rfl := Except.ok.inj checked
      simpa using listed
  | cons item items ih =>
      obtain ⟨name, named, checked⟩ := bind_eq_ok_iff.mp checked
      obtain ⟨given, nonempty⟩ := itemName_eq_ok_iff.mp named
      split at checked
      · simp at checked
      · rename_i fresh
        have longer : Distinct ((seen ++ [(name, item)]).map fun entry => some entry.1) := by
          rw [List.map_append]
          exact listed.snoc nonempty fun old => fresh (lookup_isSome_iff_mem.mpr old)
        obtain ⟨distinct, same⟩ := ih checked longer
        refine ⟨distinct, ?_⟩
        rw [same]
        simp [given]

/-! ## Services and components -/

/-- The tables list the names and the numbers of the services. -/
structure Owners.Lists (owners : Owners) (services : List ServiceConf) : Prop where
  names : owners.byName.map (fun entry => some entry.1) = services.map (·.name)
  ids : owners.byId.map (fun entry => some entry.1) = services.map (·.id.toInt?)

theorem lookup_eq_none_iff_mem {κ β : Type*} [BEq κ] [LawfulBEq κ] {table : List (κ × β)}
    {key : κ} : table.lookup key = none ↔ some key ∉ table.map fun entry => some entry.1 := by
  rw [← lookup_isSome_iff_mem, Option.not_isSome_iff_eq_none]

theorem validateServiceDefs_ok {owner : String} {services done : List ServiceConf}
    {owners owners' : Owners} (checked : validateServiceDefs owner services owners = .ok owners')
    (lists : owners.Lists done) (ok : ServicesOk done) :
    owners'.Lists (done ++ services) ∧ ServicesOk (done ++ services) := by
  induction services generalizing owners done with
  | nil =>
      obtain rfl := Except.ok.inj checked
      simpa using ⟨lists, ok⟩
  | cons svc services ih =>
      obtain ⟨name, named, checked⟩ := bind_eq_ok_iff.mp checked
      obtain ⟨given, nonempty⟩ := itemName_eq_ok_iff.mp named
      split at checked
      · simp at checked
      · rename_i sid found
        obtain ⟨number, positive⟩ := positive_of_filter found
        split at checked
        · simp at checked
        · rename_i known
          split at checked
          · simp at checked
          · simp at checked
          · rename_i fresh_name fresh_id
            rw [lookup_eq_none_iff_mem, lists.names] at fresh_name
            rw [lookup_eq_none_iff_mem, lists.ids] at fresh_id
            have lists' : Owners.Lists ⟨owners.byName ++ [(name, owner)],
                owners.byId ++ [(sid, owner)]⟩ (done ++ [svc]) := by
              constructor
              · simp [lists.names, given]
              · simp [lists.ids, number]
            have ok' : ServicesOk (done ++ [svc]) := by
              refine ⟨?_, ?_, ?_, ?_⟩
              · rw [List.map_append, List.map_singleton, given]
                exact ok.names.snoc nonempty fresh_name
              · intro other member
                rcases List.mem_append.mp member with old | new
                · exact ok.positive other old
                · obtain rfl := List.mem_singleton.mp new
                  exact ⟨sid, number, positive⟩
              · rw [List.map_append, List.map_singleton, number, ← List.concat_eq_append]
                exact ok.ids.concat fresh_id
              · intro other member
                rcases List.mem_append.mp member with old | new
                · exact ok.types other old
                · obtain rfl := List.mem_singleton.mp new
                  tauto
            rw [List.append_cons]
            exact ih checked lists' ok'

/-- Components with different numbers and known models. -/
structure ComponentsOk (models : List (String × ModelConf)) (comps : List ComponentConf) : Prop where
  positive : ∀ comp ∈ comps, comp.id.Positive
  ids : (comps.map (·.id.toInt?)).Nodup
  models : ∀ comp ∈ comps, comp.model ∈ models.map fun entry => some entry.1

theorem validateComponents_ok {models : List (String × ModelConf)} {comps done : List ComponentConf}
    {seen seen' : Seen} {services : List ServiceConf}
    (checked : validateComponents models comps seen = .ok seen')
    (listed : seen.compIds.map (fun entry => some entry.1) = done.map (·.id.toInt?))
    (lists : seen.owners.Lists services) (ok : ComponentsOk models done)
    (servicesOk : ServicesOk services) :
    ComponentsOk models (done ++ comps) ∧
      seen'.owners.Lists (services ++ comps.flatMap (·.provides)) ∧
      ServicesOk (services ++ comps.flatMap (·.provides)) := by
  induction comps generalizing seen done services with
  | nil =>
      obtain rfl := Except.ok.inj checked
      simpa using ⟨ok, lists, servicesOk⟩
  | cons comp comps ih =>
      simp only [validateComponents] at checked
      split at checked
      · simp at checked
      · rename_i cid found
        obtain ⟨number, positive⟩ := positive_of_filter found
        split at checked
        · simp at checked
        · rename_i fresh
          rw [lookup_eq_none_iff_mem, listed] at fresh
          obtain ⟨model, named, checked⟩ := bind_eq_ok_iff.mp checked
          obtain ⟨given, -⟩ := itemName_eq_ok_iff.mp named
          split at checked
          · simp at checked
          · rename_i known
            obtain ⟨owners, provided, checked⟩ := bind_eq_ok_iff.mp checked
            obtain ⟨lists', servicesOk'⟩ := validateServiceDefs_ok provided lists servicesOk
            have ok' : ComponentsOk models (done ++ [comp]) := by
              refine ⟨?_, ?_, ?_⟩
              · intro other member
                rcases List.mem_append.mp member with old | new
                · exact ok.positive other old
                · obtain rfl := List.mem_singleton.mp new
                  exact ⟨cid, number, positive⟩
              · rw [List.map_append, List.map_singleton, number, ← List.concat_eq_append]
                exact ok.ids.concat fresh
              · intro other member
                rcases List.mem_append.mp member with old | new
                · exact ok.models other old
                · obtain rfl := List.mem_singleton.mp new
                  rw [given, ← lookup_isSome_iff_mem]
                  simpa [Option.isSome_iff_ne_none] using known
            rw [List.append_cons, List.flatMap_cons, ← List.append_assoc]
            exact ih checked (by simp [listed, number]) lists' ok' servicesOk'

/-! ## Profiles and nodes -/

theorem positive_of_isNone {value : Scalar}
    (found : ¬ (value.toInt?.filter (0 < ·)).isNone = true) : value.Positive := by
  cases filtered : value.toInt?.filter (0 < ·) with
  | none => exact absurd (congrArg Option.isNone filtered) found
  | some number => exact ⟨number, positive_of_filter filtered⟩

theorem validateBins_ok {profile : String} {index : Nat} {bins : List BinConf} {done : Unit}
    (checked : validateBins profile index bins = .ok done) :
    ∀ bin ∈ bins, bin.size.Positive ∧ bin.count.Positive := by
  induction bins generalizing index with
  | nil => simp
  | cons bin bins ih =>
      unfold validateBins at checked
      split at checked
      · simp at checked
      · rename_i size
        split at checked
        · simp at checked
        · rename_i count
          exact List.forall_mem_cons.mpr
            ⟨⟨positive_of_isNone size, positive_of_isNone count⟩, ih checked⟩

theorem validateThreads_ok {comps : List (String × ComponentConf)} {node : String}
    {threads : List ThreadConf} {names : List String} {done : Unit}
    (checked : validateThreads comps node threads names = .ok done) :
    Distinct (threads.map (·.name)) ∧ (∀ thread ∈ threads, ∀ name ∈ names, thread.name ≠ some name) ∧
      ∀ thread ∈ threads, thread.components ≠ [] ∧
        ∀ comp ∈ thread.components, some comp ∈ comps.map fun entry => some entry.1 := by
  induction threads generalizing names with
  | nil => exact ⟨⟨by simp, by simp⟩, by simp, by simp⟩
  | cons thread threads ih =>
      obtain ⟨name, named, checked⟩ := bind_eq_ok_iff.mp checked
      obtain ⟨given, nonempty⟩ := itemName_eq_ok_iff.mp named
      split at checked
      · simp at checked
      · rename_i fresh
        split at checked
        · simp at checked
        · rename_i hosts
          obtain ⟨_, hosted, checked⟩ := bind_eq_ok_iff.mp checked
          obtain ⟨distinct, others, hosting⟩ := ih checked
          have known : ∀ comp ∈ thread.components, some comp ∈ comps.map fun entry => some entry.1 := by
            intro comp member
            have checked := forM_eq_ok_iff.mp hosted comp member
            unfold validateHosted at checked
            split at checked
            · rename_i found
              exact lookup_isSome_iff_mem.mp found
            · simp at checked
          refine ⟨⟨?_, ?_⟩, ?_, List.forall_mem_cons.mpr ⟨⟨hosts, known⟩, hosting⟩⟩
          · exact List.forall_mem_cons.mpr ⟨⟨name, given, nonempty⟩, distinct.given⟩
          · refine List.nodup_cons.mpr ⟨fun again => ?_, distinct.nodup⟩
            obtain ⟨other, member, same⟩ := List.mem_map.mp again
            exact others other member name List.mem_cons_self (same.trans given)
          · refine List.forall_mem_cons.mpr ⟨fun other old same => ?_, fun later member other old =>
              others later member other (List.mem_cons_of_mem _ old)⟩
            obtain rfl : name = other := Option.some.inj (given.symm.trans same)
            exact fresh old

theorem validateNode_ok {comps : List (String × ComponentConf)}
    {profiles : List (String × ProfileConf)} {data : ConfigData} {node : NodeConf} {done : Unit}
    (compNames : comps.map (fun entry => some entry.1) = data.components.map (·.name))
    (profileNames : profiles.map (fun entry => some entry.1) = data.profiles.map (·.name))
    (checked : validateNode comps profiles node = .ok done) : NodeOk data node := by
  obtain ⟨path, named, checked⟩ := bind_eq_ok_iff.mp checked
  split at checked
  · simp at checked
  · rename_i profile
    split at checked
    · simp at checked
    · rename_i threads
      obtain ⟨_, threaded, checked⟩ := bind_eq_ok_iff.mp checked
      obtain ⟨distinct, -, hosting⟩ := validateThreads_ok threaded
      split at checked
      · rename_i busyPoll
        obtain ⟨number, found⟩ := Option.isSome_iff_exists.mp busyPoll
        refine ⟨⟨path, itemName_eq_ok_iff.mp named⟩, ?_, threads, distinct, ?_, ?_, number, ?_⟩
        · rw [← profileNames, ← lookup_isSome_iff_mem]
          simpa [Option.isSome_iff_ne_none] using profile
        · exact fun thread member => (hosting thread member).1
        · intro thread member comp hosted
          rw [← compNames]
          exact (hosting thread member).2 comp hosted
        · simpa using found
      · simp at checked

/-! ## The configuration -/

theorem wellFormed_of_validateConfig {data : ConfigData} {checked : Checked}
    (accepted : validateConfig data = .ok checked) : WellFormed data := by
  unfold validateConfig at accepted
  split at accepted
  · simp at accepted
  · rename_i nodes
    split at accepted
    · simp at accepted
    · rename_i components
      split at accepted
      · simp at accepted
      · rename_i models
        obtain ⟨compMap, comps, accepted⟩ := bind_eq_ok_iff.mp accepted
        obtain ⟨modelMap, modelled, accepted⟩ := bind_eq_ok_iff.mp accepted
        obtain ⟨profileMap, profiled, accepted⟩ := bind_eq_ok_iff.mp accepted
        obtain ⟨platform, provided, accepted⟩ := bind_eq_ok_iff.mp accepted
        obtain ⟨_, libs, accepted⟩ := bind_eq_ok_iff.mp accepted
        obtain ⟨_, profiles, accepted⟩ := bind_eq_ok_iff.mp accepted
        obtain ⟨seen, components', accepted⟩ := bind_eq_ok_iff.mp accepted
        obtain ⟨_, required, accepted⟩ := bind_eq_ok_iff.mp accepted
        obtain ⟨nodeMap, noded, accepted⟩ := bind_eq_ok_iff.mp accepted
        obtain ⟨_, eachNode, -⟩ := bind_eq_ok_iff.mp accepted
        have empty {α : Type} :
            Distinct (([] : List (String × α)).map fun entry => some entry.1) :=
          ⟨by simp, by simp⟩
        obtain ⟨compNames, compKeys⟩ := ensureUnique_ok comps empty
        obtain ⟨modelNames, modelKeys⟩ := ensureUnique_ok modelled empty
        obtain ⟨profileNames, profileKeys⟩ := ensureUnique_ok profiled empty
        obtain ⟨nodeNames, nodeKeys⟩ := ensureUnique_ok noded empty
        rw [List.map_nil, List.nil_append] at compKeys modelKeys profileKeys nodeKeys
        have nothing : ServicesOk [] := ⟨⟨by simp, by simp⟩, by simp, by simp, by simp⟩
        obtain ⟨lists, platformOk⟩ := validateServiceDefs_ok provided ⟨rfl, rfl⟩ nothing
        have none_yet : ComponentsOk modelMap [] := ⟨by simp, by simp, by simp⟩
        obtain ⟨componentsOk, lists', servicesOk⟩ :=
          validateComponents_ok components' rfl lists none_yet platformOk
        rw [List.nil_append] at lists' servicesOk componentsOk
        refine ⟨nodes, components, models, compKeys ▸ compNames, modelKeys ▸ modelNames,
          profileKeys ▸ profileNames, nodeKeys ▸ nodeNames, ?_, ?_, componentsOk.positive,
          componentsOk.ids, modelKeys ▸ componentsOk.models, servicesOk, ?_, ?_⟩
        · intro model member
          obtain ⟨lib, named, shared⟩ := bind_eq_ok_iff.mp (forM_eq_ok_iff.mp libs model member)
          split at shared
          · rename_i suffix
            obtain ⟨given, nonempty⟩ := itemName_eq_ok_iff.mp named
            exact ⟨lib, given, nonempty, suffix⟩
          · simp at shared
        · intro profile member
          have checked := forM_eq_ok_iff.mp profiles profile member
          unfold validateProfile at checked
          split at checked
          · simp at checked
          · rename_i bins
            exact ⟨bins, validateBins_ok checked⟩
        · intro comp member name needed
          have checked := forM_eq_ok_iff.mp required comp member
          have known := forM_eq_ok_iff.mp checked name needed
          split at known
          · rename_i found
            rw [lookup_isSome_iff_mem, lists'.names] at found
            exact found
          · simp at known
        · intro node member
          exact validateNode_ok compKeys profileKeys (forM_eq_ok_iff.mp eachNode node member)

end CodexNos.Config
