import CodexNos.Config.Accepted
import CodexNos.Lib.SwapRemove
import Mathlib.Data.List.Sort

/-!
# Resolution of a configuration

`validate_and_resolve` finds out where each component is placed, and gives every node the component
lists of its threads, the bins of its buffer profile and the services that its components provide or
require, with the node that provides them.

The needed services pass through a set; they are listed here in the order of their first use and
sorted by their numbers, which are different in an accepted configuration.
-/

namespace CodexNos.Config

open Lib

/-! ## Dictionaries -/

/-- The value of a key in a dictionary that was filled in this order: the last one. -/
def dictGet {κ β : Type*} [BEq κ] (entries : List (κ × β)) (key : κ) : Option β :=
  entries.reverse.lookup key

theorem dictGet_eq_some_iff {κ β : Type*} [BEq κ] [LawfulBEq κ] {entries : List (κ × β)}
    (distinct : (entries.map Prod.fst).Nodup) {key : κ} {item : β} :
    dictGet entries key = some item ↔ (key, item) ∈ entries := by
  induction entries generalizing item with
  | nil => simp [dictGet]
  | cons entry entries ih =>
      rw [List.map_cons, List.nodup_cons] at distinct
      have unfolded : dictGet (entry :: entries) key =
          (dictGet entries key).or ([entry].lookup key) := by
        rw [dictGet, List.reverse_cons, List.lookup_append]
        rfl
      rw [unfolded, Option.or_eq_some_iff, ih distinct.2, List.mem_cons]
      constructor
      · rintro (later | ⟨-, here⟩)
        · exact .inr later
        · obtain ⟨key', item'⟩ := entry
          cases same : key == key' with
          | true =>
              obtain rfl : key = key' := eq_of_beq same
              exact .inl (congrArg (Prod.mk key) (by simpa using here.symm))
          | false => simp [List.lookup_cons, same] at here
      · rintro (rfl | later)
        · refine .inr ⟨?_, List.lookup_cons_self⟩
          rw [Option.eq_none_iff_forall_ne_some]
          intro other found
          exact distinct.1 (List.mem_map.mpr ⟨(key, other), (ih distinct.2).mp found, rfl⟩)
        · exact .inl later

theorem Distinct.keys {α : Type*} {items : List α} {nameOf : α → Option String}
    (distinct : Distinct (items.map nameOf)) :
    (items.map fun item => textOf (nameOf item)).Nodup := by
  have injective : ∀ name ∈ items.map nameOf, ∀ other ∈ items.map nameOf,
      textOf name = textOf other → name = other := by
    intro name member other member' same
    obtain ⟨text, rfl, -⟩ := distinct.given name member
    obtain ⟨text', rfl, -⟩ := distinct.given other member'
    exact congrArg some same
  have mapped := distinct.nodup.map_on injective
  rwa [List.map_map] at mapped

theorem dictGet_of_distinct {α β : Type*} {items : List α} {nameOf : α → Option String}
    (distinct : Distinct (items.map nameOf)) (result : α → β) {item : α} (member : item ∈ items)
    {name : String} (named : nameOf item = some name) :
    dictGet (items.map fun item => (textOf (nameOf item), result item)) name =
      some (result item) := by
  rw [dictGet_eq_some_iff]
  · refine List.mem_map.mpr ⟨item, member, ?_⟩
    rw [named]
    rfl
  · rw [List.map_map]
    exact distinct.keys

theorem find?_of_distinct {α : Type*} {items : List α} {nameOf : α → Option String}
    (distinct : Distinct (items.map nameOf)) {item : α} (member : item ∈ items)
    {name : Option String} (named : nameOf item = name) :
    items.find? (fun item => nameOf item = name) = some item :=
  (find?_eq_some_iff_of_unique distinct.nodup).mpr ⟨member, named⟩

/-- A traversal that does not fail yields one item for each item. -/
theorem mapM_eq_some_iff {α β : Type} {convert : α → Option β} {items : List α}
    {results : List β} :
    items.mapM convert = some results ↔ items.map convert = results.map some := by
  induction items generalizing results with
  | nil => cases results <;> simp
  | cons item items ih =>
      rw [List.mapM_cons, List.map_cons]
      constructor
      · intro done
        obtain ⟨first, converted, done⟩ := Option.bind_eq_some_iff.mp done
        obtain ⟨rest, later, done⟩ := Option.bind_eq_some_iff.mp done
        obtain rfl : first :: rest = results := Option.some.inj done
        rw [converted, ih.mp later, List.map_cons]
      · intro same
        cases results with
        | nil => simp at same
        | cons first rest =>
            obtain ⟨converted, later⟩ := List.cons.inj same
            rw [converted, ih.mpr later]
            rfl

/-! ## Resolved records -/

/-- An entry of `global_svc_map`. -/
structure ResolvedService where
  name : String
  id : Scalar
  type : String
  node : String
  /-- `provider_id`, where there is one. -/
  providerId : Option Scalar
  /-- `uds_path`, where there is one. -/
  udsPath : Option String
  deriving DecidableEq, Repr

/-- A thread with the lists of its components. -/
structure ResolvedThread where
  name : String
  compIds : List Scalar
  compNames : List String
  compLibs : List (Option String)
  deriving DecidableEq, Repr

/-- A node with what was resolved. -/
structure ResolvedNode where
  name : String
  udsPath : String
  busyPoll : Scalar
  bins : List BinConf
  threads : List ResolvedThread
  services : List ResolvedService
  platformInits : List String
  deriving DecidableEq, Repr

/-- What `validate_and_resolve` leaves behind. -/
structure Resolved where
  nodes : List ResolvedNode
  /-- The numbers of the components. -/
  compIds : List (String × Scalar)
  /-- The numbers of the services. -/
  svcNameToId : List (String × Scalar)
  deriving DecidableEq, Repr

/-- How `validate_and_resolve` fails. -/
inductive Failure
  /-- A `ConfigError`. -/
  | configError (message : String)
  /-- Another exception. -/
  | raised
  deriving DecidableEq, Repr

/-- `INFRA_INIT_MAP`. -/
def infraInitMap : List (String × String) :=
  [("SVC_LOG", "nos_log_init"), ("SVC_KV_DB", "nos_kv_db_init"), ("SVC_TIMER", "nos_timer_init")]

namespace ConfigData

variable (data : ConfigData)

/-! ## Tables -/

/-- `comp_map`. -/
def compMap : List (String × ComponentConf) :=
  data.components.map fun comp => (textOf comp.name, comp)

/-- `model_to_lib`. -/
def modelToLib : List (String × String) :=
  data.models.map fun model => (textOf model.name, textOf model.lib)

/-- `node_to_uds`. -/
def nodeToUds : List (String × String) :=
  data.nodes.map fun node => (textOf node.name, textOf node.udsPath)

/-- `profile_map`. -/
def profileMap : List (String × List BinConf) :=
  data.profiles.map fun profile => (textOf profile.name, profile.bins)

/-- `comp_to_node`. -/
def compToNode : List (String × String) :=
  data.nodes.flatMap fun node =>
    node.threads.flatMap fun thread =>
      (thread.components.filter fun comp => (dictGet data.compMap comp).isSome).map fun comp =>
        (comp, textOf node.name)

/-- The entry of a service of the platform. -/
def platformService (svc : ServiceConf) : String × ResolvedService :=
  (textOf svc.name, ⟨textOf svc.name, svc.id, "embedded", "Platform", none, none⟩)

/-- The entry of a service of a component. -/
def componentService (comp : ComponentConf) (svc : ServiceConf) : String × ResolvedService :=
  let home := dictGet data.compToNode (textOf comp.name)
  (textOf svc.name,
    { name := textOf svc.name
      id := svc.id
      type := "remote"
      providerId := some comp.id
      node := home.getD "Unknown"
      udsPath := some ((dictGet data.nodeToUds (home.getD "")).getD "") })

/-- `global_svc_map`. -/
def globalSvcMap : List (String × ResolvedService) :=
  data.platform.map platformService ++
    data.components.flatMap fun comp => comp.provides.map (data.componentService comp)

/-! ## Nodes -/

/-- `resolved_bins`. -/
def resolvedBins (node : NodeConf) : List BinConf :=
  (dictGet data.profileMap node.profile).getD ((dictGet data.profileMap "default").getD [])

/-- The lists of a thread; there are none if a component is unknown. -/
def resolveThread (thread : ThreadConf) : Option ResolvedThread :=
  (thread.components.mapM (dictGet data.compMap)).map fun comps =>
    { name := textOf thread.name
      compIds := comps.map (·.id)
      compNames := thread.components
      compLibs := comps.map fun comp => dictGet data.modelToLib (textOf comp.model) }

/-- `node_comps`. -/
def nodeComps (node : NodeConf) : List String := node.threads.flatMap (·.components)

/-- `needed_svc_names`. -/
def neededSvcNames (node : NodeConf) : List String :=
  ((nodeComps node).flatMap fun name =>
    ((dictGet data.compMap name).map fun comp =>
      comp.provides.map (fun svc => textOf svc.name) ++ comp.requires).getD []).dedup

/-- `resolved_services`. -/
def resolvedServices (node : NodeConf) : List ResolvedService :=
  ((data.neededSvcNames node).filterMap (dictGet data.globalSvcMap)).insertionSort
    fun svc other => svc.id.toInt?.getD 0 ≤ other.id.toInt?.getD 0

/-- `platform_inits`. -/
def platformInits (node : NodeConf) : List String :=
  (infraInitMap.filter fun entry => entry.1 ∈ data.neededSvcNames node).map (·.2)

/-- The turn of a node. -/
def resolveNode (node : NodeConf) : Option ResolvedNode :=
  (node.threads.mapM data.resolveThread).map fun threads =>
    { name := textOf node.name
      udsPath := textOf node.udsPath
      busyPoll := node.busyPoll
      bins := data.resolvedBins node
      threads := threads
      services := data.resolvedServices node
      platformInits := data.platformInits node }

/-- `validate_and_resolve`. -/
def validateAndResolve : Except Failure Resolved :=
  match validateConfig data with
  | .error message => .error (.configError message)
  | .ok _ =>
      match data.nodes.mapM data.resolveNode with
      | none => .error .raised
      | some nodes =>
          .ok
            { nodes := nodes
              compIds := data.components.map fun comp => (textOf comp.name, comp.id)
              svcNameToId := data.globalSvcMap.map fun entry => (entry.1, entry.2.id) }

end ConfigData

end CodexNos.Config
