import Mathlib.Tactic

/-!
# Validation of a configuration

A configuration lists nodes with their threads, components with the services that they provide and
require, models, buffer profiles and the services of the platform.  `validate_config` looks at one
list after the other and stops at the first entry that is wrong.

A key that is missing where the code asks for a name is `none`.
-/

namespace CodexNos.Config

/-! ## Records -/

/-- A value where a number is expected. -/
inductive Scalar
  /-- A number. -/
  | int (value : Int)
  /-- A truth value, which is an `int` as well. -/
  | bool (value : Bool)
  /-- Anything else, by its text; `None` where the key is missing. -/
  | other (text : String)
  deriving DecidableEq, Repr

/-- The number, where it is an instance of `int`. -/
def Scalar.toInt? : Scalar → Option Int
  | int value => some value
  | bool value => some (if value then 1 else 0)
  | other _ => none

/-- `str`. -/
def Scalar.text : Scalar → String
  | int value => toString value
  | bool value => if value then "True" else "False"
  | other text => text

/-- `str` of a value that may be missing. -/
def textOf (value : Option String) : String := value.getD "None"

/-- A service under `provides`. -/
structure ServiceConf where
  name : Option String
  id : Scalar
  type : Option String
  deriving DecidableEq, Repr

/-- An entry of `components`. -/
structure ComponentConf where
  name : Option String
  id : Scalar
  model : Option String
  provides : List ServiceConf
  requires : List String
  deriving DecidableEq, Repr

/-- An entry of `models`. -/
structure ModelConf where
  name : Option String
  lib : Option String
  deriving DecidableEq, Repr

/-- An entry of `bins`. -/
structure BinConf where
  size : Scalar
  count : Scalar
  deriving DecidableEq, Repr

/-- An entry of `profiles`. -/
structure ProfileConf where
  name : Option String
  bins : List BinConf
  deriving DecidableEq, Repr

/-- An entry of `threads`. -/
structure ThreadConf where
  name : Option String
  components : List String
  deriving DecidableEq, Repr

/-- An entry of `nodes`. -/
structure NodeConf where
  name : Option String
  udsPath : Option String
  /-- `buffer_profile`, where it is given. -/
  bufferProfile : Option String
  threads : List ThreadConf
  /-- `busy_poll_cycles`, where it is given. -/
  busyPollCycles : Option Scalar
  deriving DecidableEq, Repr

/-- `node.get("buffer_profile", "default")`. -/
def NodeConf.profile (node : NodeConf) : String := node.bufferProfile.getD "default"

/-- `node.get("busy_poll_cycles", 500)`. -/
def NodeConf.busyPoll (node : NodeConf) : Scalar := node.busyPollCycles.getD (.int 500)

/-- A configuration. -/
structure ConfigData where
  nodes : List NodeConf
  components : List ComponentConf
  profiles : List ProfileConf
  models : List ModelConf
  /-- `provides` of `platform`. -/
  platform : List ServiceConf
  deriving DecidableEq, Repr

/-! ## Names -/

/-- `_item_name`. -/
def itemName (value : Option String) (field owner : String) : Except String String :=
  match value with
  | none => .error s!"{owner} missing required field '{field}'"
  | some name =>
      if name = "" then .error s!"{owner} missing required field '{field}'" else .ok name

/-- `_ensure_unique` on the field `name`, with the entries seen so far. -/
def ensureUnique {α : Type*} (nameOf : α → Option String) (owner : String) :
    List α → List (String × α) → Except String (List (String × α))
  | [], seen => .ok seen
  | item :: items, seen =>
      (itemName (nameOf item) "name" owner).bind fun name =>
        if (seen.lookup name).isSome then .error s!"duplicate {owner} name: {name}"
        else ensureUnique nameOf owner items (seen ++ [(name, item)])

/-! ## Services -/

/-- `svc_name_to_owner` and `svc_id_to_owner`. -/
structure Owners where
  byName : List (String × String)
  byId : List (Int × String)
  deriving DecidableEq, Repr

/-- `_validate_service_defs`. -/
def validateServiceDefs (owner : String) :
    List ServiceConf → Owners → Except String Owners
  | [], owners => .ok owners
  | svc :: services, owners =>
      (itemName svc.name "name" owner).bind fun name =>
        match svc.id.toInt?.filter (0 < ·) with
        | none => .error s!"{owner} service '{name}' has invalid id: {svc.id.text}"
        | some sid =>
            if svc.type ≠ some "embedded" ∧ svc.type ≠ some "remote" then
              .error s!"{owner} service '{name}' has invalid type: {textOf svc.type}"
            else
              match owners.byName.lookup name, owners.byId.lookup sid with
              | some other, _ =>
                  .error
                    s!"duplicate service name '{name}' in {owner}; already provided by {other}"
              | none, some other =>
                  .error
                    s!"duplicate service id '{svc.id.text}' in {owner}; already used by {other}"
              | none, none =>
                  validateServiceDefs owner services
                    ⟨owners.byName ++ [(name, owner)], owners.byId ++ [(sid, owner)]⟩

/-! ## Models and profiles -/

/-- `lib.endswith(".so")`. -/
def isSharedObject (lib : String) : Bool := ".so".toList.isSuffixOf lib.toList

/-- The turn of a model. -/
def validateModel (model : ModelConf) : Except String Unit :=
  (itemName model.lib "lib" s!"model '{textOf model.name}'").bind fun lib =>
    if isSharedObject lib then .ok ()
    else .error s!"model '{textOf model.name}' lib should be a shared object: {lib}"

/-- The turns of the bins of a profile, from an index on. -/
def validateBins (profile : String) : Nat → List BinConf → Except String Unit
  | _, [] => .ok ()
  | index, bin :: bins =>
      if (bin.size.toInt?.filter (0 < ·)).isNone then
        .error s!"profile '{profile}' bin {index} has invalid size: {bin.size.text}"
      else if (bin.count.toInt?.filter (0 < ·)).isNone then
        .error s!"profile '{profile}' bin {index} has invalid count: {bin.count.text}"
      else validateBins profile (index + 1) bins

/-- The turn of a profile. -/
def validateProfile (profile : ProfileConf) : Except String Unit :=
  if profile.bins = [] then .error s!"profile '{textOf profile.name}' has no bins"
  else validateBins (textOf profile.name) 0 profile.bins

/-! ## Components -/

/-- `comp_ids` and the owners of the services. -/
structure Seen where
  compIds : List (Int × String)
  owners : Owners
  deriving DecidableEq, Repr

/-- The turns of the components. -/
def validateComponents (models : List (String × ModelConf)) :
    List ComponentConf → Seen → Except String Seen
  | [], seen => .ok seen
  | comp :: comps, seen =>
      match comp.id.toInt?.filter (0 < ·) with
      | none => .error s!"component '{textOf comp.name}' has invalid id: {comp.id.text}"
      | some cid =>
          match seen.compIds.lookup cid with
          | some other =>
              .error
                (s!"duplicate component id '{comp.id.text}' in component '{textOf comp.name}'; " ++
                  s!"already used by '{other}'")
          | none =>
              (itemName comp.model "model" s!"component '{textOf comp.name}'").bind fun model =>
                if (models.lookup model).isNone then
                  .error s!"component '{textOf comp.name}' references unknown model '{model}'"
                else
                  (validateServiceDefs s!"component '{textOf comp.name}'" comp.provides
                    seen.owners).bind fun owners =>
                      validateComponents models comps
                        ⟨seen.compIds ++ [(cid, textOf comp.name)], owners⟩

/-- The turn of a component in the check of what it requires. -/
def validateRequires (owners : Owners) (comp : ComponentConf) : Except String Unit :=
  comp.requires.forM fun required =>
    if (owners.byName.lookup required).isSome then .ok ()
    else .error s!"component '{textOf comp.name}' requires unknown service '{required}'"

/-! ## Nodes -/

/-- A component of a thread. -/
def validateHosted (comps : List (String × ComponentConf)) (node thread comp : String) :
    Except String Unit :=
  if (comps.lookup comp).isSome then .ok ()
  else .error s!"node '{node}' thread '{thread}' references unknown component '{comp}'"

/-- The turns of the threads of a node, with the names seen so far. -/
def validateThreads (comps : List (String × ComponentConf)) (node : String) :
    List ThreadConf → List String → Except String Unit
  | [], _ => .ok ()
  | thread :: threads, names =>
      (itemName thread.name "name" s!"node '{node}' thread").bind fun name =>
        if name ∈ names then .error s!"node '{node}' has duplicate thread '{name}'"
        else if thread.components = [] then
          .error s!"node '{node}' thread '{name}' has no components"
        else
          (thread.components.forM (validateHosted comps node name)).bind fun _ =>
            validateThreads comps node threads (name :: names)

/-- The turn of a node. -/
def validateNode (comps : List (String × ComponentConf)) (profiles : List (String × ProfileConf))
    (node : NodeConf) : Except String Unit :=
  let name := textOf node.name
  (itemName node.udsPath "uds_path" s!"node '{name}'").bind fun _ =>
    if (profiles.lookup node.profile).isNone then
      .error s!"node '{name}' references unknown buffer_profile '{node.profile}'"
    else if node.threads = [] then .error s!"node '{name}' has no threads"
    else
      (validateThreads comps name node.threads []).bind fun _ =>
        if (node.busyPoll.toInt?.filter (0 ≤ ·)).isSome then .ok ()
        else .error s!"node '{name}' has invalid busy_poll_cycles: {node.busyPoll.text}"

/-! ## The configuration -/

/-- What `validate_config` returns. -/
structure Checked where
  compMap : List (String × ComponentConf)
  modelMap : List (String × ModelConf)
  profileMap : List (String × ProfileConf)
  nodeMap : List (String × NodeConf)
  svcNameToOwner : List (String × String)
  deriving DecidableEq, Repr

/-- `validate_config`. -/
def validateConfig (data : ConfigData) : Except String Checked :=
  if data.nodes = [] then .error "no nodes configured"
  else if data.components = [] then .error "no components configured"
  else if data.models = [] then .error "no component models configured"
  else
    (ensureUnique ComponentConf.name "component" data.components []).bind fun compMap =>
    (ensureUnique ModelConf.name "model" data.models []).bind fun modelMap =>
    (ensureUnique ProfileConf.name "profile" data.profiles []).bind fun profileMap =>
    (validateServiceDefs "platform" data.platform ⟨[], []⟩).bind fun platform =>
    (data.models.forM validateModel).bind fun _ =>
    (data.profiles.forM validateProfile).bind fun _ =>
    (validateComponents modelMap data.components ⟨[], platform⟩).bind fun seen =>
    (data.components.forM (validateRequires seen.owners)).bind fun _ =>
    (ensureUnique NodeConf.name "node" data.nodes []).bind fun nodeMap =>
    (data.nodes.forM (validateNode compMap profileMap)).bind fun _ =>
      .ok ⟨compMap, modelMap, profileMap, nodeMap, seen.owners.byName⟩

end CodexNos.Config
