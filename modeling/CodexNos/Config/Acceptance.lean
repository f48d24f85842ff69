import CodexNos.Config.Accepted

/-!
# What validation accepts

No loop of `validate_config` stops on a list that is in order: each entry passes its own checks, and
what the earlier entries left in the tables is in no one's way.
-/

namespace CodexNos.Config

/-! ## Names and numbers -/

theorem itemName_of_given {value : Option String} {name : String} (given : value = some name)
    (nonempty : name ≠ "") (field owner : String) : itemName value field owner = .ok name :=
  itemName_eq_ok_iff.mpr ⟨given, nonempty⟩

theorem Scalar.Positive.filter {value : Scalar} (positive : value.Positive) :
    ∃ number, value.toInt? = some number ∧ value.toInt?.filter (0 < ·) = some number := by
  obtain ⟨number, found, above⟩ := positive
  exact ⟨number, found, by simp [found, above]⟩

theorem Scalar.Positive.not_isNone {value : Scalar} (positive : value.Positive) :
    ¬ (value.toInt?.filter (0 < ·)).isNone = true := by
  obtain ⟨number, -, found⟩ := positive.filter
  simp [found]

/-- The next of different names is there, and is not among the names before it. -/
theorem Distinct.middle {names later : List (Option String)} {name : Option String}
    (distinct : Distinct (names ++ name :: later)) :
    ∃ text, name = some text ∧ text ≠ "" ∧ some text ∉ names := by
  obtain ⟨text, rfl, nonempty⟩ := distinct.given name (by simp)
  refine ⟨text, rfl, nonempty, fun member => ?_⟩
  exact List.disjoint_of_nodup_append distinct.nodup member List.mem_cons_self

theorem Distinct.of_append {names later : List (Option String)}
    (distinct : Distinct (names ++ later)) : Distinct names where
  given := fun name member => distinct.given name (List.mem_append_left _ member)
  nodup := distinct.nodup.of_append_left

/-- Services that are in order stay so without the last ones. -/
theorem ServicesOk.of_append {services later : List ServiceConf}
    (ok : ServicesOk (services ++ later)) : ServicesOk services := by
  obtain ⟨names, positive, ids, types⟩ := ok
  rw [List.map_append] at names ids
  exact ⟨names.of_append, fun svc member => positive svc (List.mem_append_left _ member),
    ids.of_append_left, fun svc member => types svc (List.mem_append_left _ member)⟩

theorem not_mem_of_nodup {ids later : List (Option Int)} {id : Option Int} {number : Int}
    (nodup : (ids ++ id :: later).Nodup) (found : id = some number) : some number ∉ ids := by
  intro member
  refine List.disjoint_of_nodup_append nodup member ?_
  rw [← found]
  exact List.mem_cons_self

/-! ## Loops -/

/-- The names of a list are accepted if they and the names seen so far are different. -/
theorem ensureUnique_accepts {α : Type*} {nameOf : α → Option String} {owner : String}
    {items : List α} {seen : List (String × α)}
    (distinct : Distinct (seen.map (fun entry => some entry.1) ++ items.map nameOf)) :
    ∃ table, ensureUnique nameOf owner items seen = .ok table := by
  induction items generalizing seen with
  | nil => exact ⟨seen, rfl⟩
  | cons item items ih =>
      rw [List.map_cons] at distinct
      obtain ⟨name, given, nonempty, fresh⟩ := distinct.middle
      have absent : ¬ (seen.lookup name).isSome = true := mt lookup_isSome_iff_mem.mp fresh
      have next : Distinct ((seen ++ [(name, item)]).map (fun entry => some entry.1) ++
          items.map nameOf) := by
        rw [List.map_append, List.map_singleton, List.append_assoc, ← given]
        exact distinct
      obtain ⟨table, rest⟩ := ih next
      refine ⟨table, ?_⟩
      rw [ensureUnique, itemName_of_given given nonempty]
      change (if (seen.lookup name).isSome = true then _ else _) = _
      rw [if_neg absent, rest]

theorem validateServiceDefs_accepts (owner : String) {services done : List ServiceConf}
    {owners : Owners} (lists : owners.Lists done) (ok : ServicesOk (done ++ services)) :
    ∃ owners', validateServiceDefs owner services owners = .ok owners' := by
  induction services generalizing owners done with
  | nil => exact ⟨owners, rfl⟩
  | cons svc services ih =>
      have names := ok.names
      have ids := ok.ids
      rw [List.map_append, List.map_cons] at names ids
      obtain ⟨name, given, nonempty, fresh_name⟩ := names.middle
      obtain ⟨sid, number, found⟩ := (ok.positive svc (by simp)).filter
      have fresh_id := not_mem_of_nodup ids number
      rw [← lists.names, ← lookup_eq_none_iff_mem] at fresh_name
      rw [← lists.ids, ← lookup_eq_none_iff_mem] at fresh_id
      have known : ¬ (svc.type ≠ some "embedded" ∧ svc.type ≠ some "remote") := by
        rintro ⟨not_embedded, not_remote⟩
        exact (ok.types svc (by simp)).elim not_embedded not_remote
      have lists' : Owners.Lists ⟨owners.byName ++ [(name, owner)], owners.byId ++ [(sid, owner)]⟩
          (done ++ [svc]) := by
        constructor
        · simp [lists.names, given]
        · simp [lists.ids, number]
      obtain ⟨owners', rest⟩ := ih lists' (by rwa [List.append_assoc])
      refine ⟨owners', ?_⟩
      rw [validateServiceDefs, itemName_of_given given nonempty]
      simp only [Except.bind, found, if_neg known, fresh_name, fresh_id]
      exact rest

theorem validateComponents_accepts {models : List (String × ModelConf)}
    {comps done : List ComponentConf} {seen : Seen} {services : List ServiceConf}
    (listed : seen.compIds.map (fun entry => some entry.1) = done.map (·.id.toInt?))
    (lists : seen.owners.Lists services) (ok : ComponentsOk models (done ++ comps))
    (given : ∀ comp ∈ comps, ∃ model, comp.model = some model ∧ model ≠ "")
    (servicesOk : ServicesOk (services ++ comps.flatMap (·.provides))) :
    ∃ seen', validateComponents models comps seen = .ok seen' := by
  induction comps generalizing seen done services with
  | nil => exact ⟨seen, rfl⟩
  | cons comp comps ih =>
      have ids := ok.ids
      rw [List.map_append, List.map_cons] at ids
      obtain ⟨cid, number, found⟩ := (ok.positive comp (by simp)).filter
      have fresh := not_mem_of_nodup ids number
      rw [← listed, ← lookup_eq_none_iff_mem] at fresh
      obtain ⟨model, named, nonempty⟩ := given comp List.mem_cons_self
      have known : ¬ (models.lookup model).isNone = true := by
        have member := ok.models comp (by simp)
        rw [named, ← lookup_isSome_iff_mem] at member
        simpa using member
      rw [List.flatMap_cons, ← List.append_assoc] at servicesOk
      have first : ServicesOk (services ++ comp.provides) := servicesOk.of_append
      obtain ⟨owners, provided⟩ :=
        validateServiceDefs_accepts s!"component '{textOf comp.name}'" lists first
      obtain ⟨lists', -⟩ := validateServiceDefs_ok provided lists first.of_append
      have listed' : (seen.compIds ++ [(cid, textOf comp.name)]).map (fun entry => some entry.1) =
          (done ++ [comp]).map (·.id.toInt?) := by
        simp [listed, number]
      have next : ∃ seen', validateComponents models comps
          ⟨seen.compIds ++ [(cid, textOf comp.name)], owners⟩ = .ok seen' :=
        ih listed' lists' (by rwa [List.append_assoc])
          (fun other member => given other (List.mem_cons_of_mem _ member)) servicesOk
      obtain ⟨seen', rest⟩ := next
      refine ⟨seen', ?_⟩
      rw [validateComponents]
      simp only [found, fresh, itemName_of_given named nonempty, Except.bind, if_neg known, provided]
      exact rest

theorem validateBins_accepts {profile : String} {index : Nat} {bins : List BinConf}
    (positive : ∀ bin ∈ bins, bin.size.Positive ∧ bin.count.Positive) :
    validateBins profile index bins = .ok () := by
  induction bins generalizing index with
  | nil => rfl
  | cons bin bins ih =>
      obtain ⟨⟨size, count⟩, rest⟩ := List.forall_mem_cons.mp positive
      rw [validateBins, if_neg size.not_isNone, if_neg count.not_isNone]
      exact ih rest

/-- Threads are accepted if their names and the names seen so far are different, and each of them
has components, all of them known. -/
theorem validateThreads_accepts {comps : List (String × ComponentConf)} {node : String}
    {threads : List ThreadConf} {names : List String} (distinct : Distinct (threads.map (·.name)))
    (others : ∀ thread ∈ threads, ∀ name ∈ names, thread.name ≠ some name)
    (hosts : ∀ thread ∈ threads, thread.components ≠ [])
    (known : ∀ thread ∈ threads, ∀ comp ∈ thread.components, (comps.lookup comp).isSome) :
    validateThreads comps node threads names = .ok () := by
  induction threads generalizing names with
  | nil => rfl
  | cons thread threads ih =>
      obtain ⟨first_others, rest_others⟩ := List.forall_mem_cons.mp others
      obtain ⟨first_hosts, rest_hosts⟩ := List.forall_mem_cons.mp hosts
      obtain ⟨first_known, rest_known⟩ := List.forall_mem_cons.mp known
      rw [List.map_cons] at distinct
      obtain ⟨name, given, nonempty⟩ := distinct.given _ List.mem_cons_self
      have fresh : name ∉ names := fun member => first_others name member given
      obtain ⟨absent, nodup⟩ := List.nodup_cons.mp distinct.nodup
      have hosted : thread.components.forM (validateHosted comps node name) = .ok () := by
        rw [forM_eq_ok_iff]
        intro comp member
        rw [validateHosted, if_pos (first_known comp member)]
      have next : validateThreads comps node threads (name :: names) = .ok () := by
        refine ih ⟨?_, nodup⟩ ?_ rest_hosts rest_known
        · exact fun other member => distinct.given other (List.mem_cons_of_mem _ member)
        · intro other member text listed same
          rcases List.mem_cons.mp listed with rfl | old
          · exact absent (given ▸ same ▸ List.mem_map_of_mem member)
          · exact rest_others other member text old same
      rw [validateThreads, itemName_of_given given nonempty]
      simp only [Except.bind, if_neg fresh, if_neg first_hosts, hosted]
      exact next

/-- A node is accepted if its components and its profile are known. -/
theorem NodeOk.validateNode {comps : List (String × ComponentConf)}
    {profiles : List (String × ProfileConf)} {data : ConfigData} {node : NodeConf}
    (ok : NodeOk data node)
    (compNames : comps.map (fun entry => some entry.1) = data.components.map (·.name))
    (profileNames : profiles.map (fun entry => some entry.1) = data.profiles.map (·.name)) :
    Config.validateNode comps profiles node = .ok () := by
  obtain ⟨path, given, nonempty⟩ := ok.path
  obtain ⟨number, found, above⟩ := ok.busyPoll
  have profile : ¬ (profiles.lookup node.profile).isNone = true := by
    have member := ok.profile
    rw [← profileNames, ← lookup_isSome_iff_mem] at member
    simpa using member
  have known : ∀ thread ∈ node.threads, ∀ comp ∈ thread.components,
      (comps.lookup comp).isSome := by
    intro thread member comp hosted
    rw [lookup_isSome_iff_mem, compNames]
    exact ok.known thread member comp hosted
  have threads : validateThreads comps (textOf node.name) node.threads [] = .ok () :=
    validateThreads_accepts ok.threadNames (by simp) ok.hosts known
  have busyPoll : (node.busyPoll.toInt?.filter (0 ≤ ·)).isSome = true := by
    simp [found, above]
  unfold Config.validateNode
  simp only [itemName_of_given given nonempty, Except.bind, if_neg profile, if_neg ok.threads,
    threads, if_pos busyPoll]

/-! ## The configuration -/

/-- The names of a list are all accepted, and the table lists them. -/
theorem ensureUnique_table {α : Type*} {nameOf : α → Option String} (owner : String)
    {items : List α} (distinct : Distinct (items.map nameOf)) :
    ∃ table, ensureUnique nameOf owner items [] = .ok table ∧
      table.map (fun entry => some entry.1) = items.map nameOf := by
  obtain ⟨table, checked⟩ : ∃ table, ensureUnique nameOf owner items [] = .ok table :=
    ensureUnique_accepts (by simpa using distinct)
  obtain ⟨-, keys⟩ := ensureUnique_ok checked ⟨by simp, by simp⟩
  exact ⟨table, checked, by simpa using keys⟩

theorem WellFormed.validateConfig {data : ConfigData} (wellFormed : WellFormed data) :
    ∃ checked, Config.validateConfig data = .ok checked := by
  obtain ⟨compMap, comps, compKeys⟩ := ensureUnique_table "component" wellFormed.componentNames
  obtain ⟨modelMap, models, modelKeys⟩ := ensureUnique_table "model" wellFormed.modelNames
  obtain ⟨profileMap, profiles, profileKeys⟩ :=
    ensureUnique_table "profile" wellFormed.profileNames
  obtain ⟨nodeMap, nodes, -⟩ := ensureUnique_table "node" wellFormed.nodeNames
  have servicesOk := wellFormed.services
  have no_owner : Owners.Lists ⟨[], []⟩ [] := ⟨rfl, rfl⟩
  have first : ServicesOk ([] ++ data.platform) := servicesOk.of_append
  obtain ⟨platform, provided⟩ := validateServiceDefs_accepts "platform" no_owner first
  obtain ⟨lists, -⟩ := validateServiceDefs_ok provided no_owner first.of_append
  have libs : data.models.forM validateModel = .ok () := by
    rw [forM_eq_ok_iff]
    intro model member
    obtain ⟨lib, given, nonempty, shared⟩ := wellFormed.libs model member
    rw [validateModel, itemName_of_given given nonempty]
    exact if_pos shared
  have bins : data.profiles.forM validateProfile = .ok () := by
    rw [forM_eq_ok_iff]
    intro profile member
    obtain ⟨some_bin, positive⟩ := wellFormed.bins profile member
    rw [validateProfile, if_neg some_bin, validateBins_accepts positive]
  have componentsOk : ComponentsOk modelMap ([] ++ data.components) := by
    refine ⟨wellFormed.componentIds, wellFormed.distinctIds, ?_⟩
    rw [modelKeys]
    exact wellFormed.componentModels
  have modelled : ∀ comp ∈ data.components, ∃ model, comp.model = some model ∧ model ≠ "" :=
    fun comp member =>
      wellFormed.modelNames.given comp.model (wellFormed.componentModels comp member)
  obtain ⟨seen, checked⟩ : ∃ seen,
      validateComponents modelMap data.components ⟨[], platform⟩ = .ok seen :=
    validateComponents_accepts rfl lists componentsOk modelled servicesOk
  have none_yet : ComponentsOk modelMap [] := ⟨by simp, by simp, by simp⟩
  obtain ⟨-, lists', -⟩ := validateComponents_ok checked rfl lists none_yet first
  have required : data.components.forM (validateRequires seen.owners) = .ok () := by
    rw [forM_eq_ok_iff]
    intro comp member
    rw [validateRequires, forM_eq_ok_iff]
    intro name needed
    have known := wellFormed.requires comp member name needed
    rw [if_pos]
    rw [lookup_isSome_iff_mem, lists'.names]
    exact known
  have hosted : data.nodes.forM (validateNode compMap profileMap) = .ok () := by
    rw [forM_eq_ok_iff]
    intro node member
    exact (wellFormed.eachNode node member).validateNode compKeys profileKeys
  refine ⟨⟨compMap, modelMap, profileMap, nodeMap, seen.owners.byName⟩, ?_⟩
  rw [Config.validateConfig, if_neg wellFormed.nodes, if_neg wellFormed.components,
    if_neg wellFormed.models]
  simp only [comps, models, profiles, nodes, provided, libs, bins, checked, required, hosted,
    Except.bind]

/-- `validate_config` accepts exactly the well-formed configurations. -/
theorem validateConfig_accepts_iff (data : ConfigData) :
    (∃ checked, validateConfig data = .ok checked) ↔ WellFormed data := by
  constructor
  · rintro ⟨checked, accepted⟩
    exact wellFormed_of_validateConfig accepted
  · exact WellFormed.validateConfig

end CodexNos.Config
