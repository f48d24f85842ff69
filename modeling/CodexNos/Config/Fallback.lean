import CodexNos.Lib.Text
import CodexNos.Config.Resolve

/-!
# The parser without a library

Where there is no YAML library, `parse_yaml_fallback` reads a file line by line.  A line without
indentation rules chooses a mode, and each mode looks for words in the other lines.

The lines that begin with `- name:` are nodes in the mode of nodes, however deep they stand, so the
branch for threads is never taken, and no service of a component is given a type.  What is read has
no thread at all and is never accepted.
-/

namespace CodexNos.Config

open Lib

/-! ## Lines -/

/-- The exceptions of the parser. -/
inductive Raised
  | indexError
  | valueError
  | attributeError
  deriving DecidableEq, Repr

/-- `mode`. -/
inductive Mode
  | nodes
  | services
  | components
  | profiles
  | models
  | platform
  deriving DecidableEq, Repr

/-- `content.startswith`. -/
def startsWith (word : String) (content : Text) : Bool := word.toList.isPrefixOf content

/-- `word in content`. -/
def Holds (word : String) (content : Text) : Prop := word.toList <:+: content

instance (word : String) (content : Text) : Decidable (Holds word content) :=
  inferInstanceAs (Decidable (_ <:+: _))

/-- `content.split(sep)[1]`. -/
def partAfter (sep : Char) (content : Text) : Except Raised Text :=
  match Text.second sep content with
  | some part => .ok part
  | none => .error .indexError

/-- `int`. -/
def toInt (text : Text) : Except Raised Int :=
  match Text.toInt? text with
  | some number => .ok number
  | none => .error .valueError

/-- `content.split(":")[1].strip().strip('"')`. -/
def valueText (content : Text) : Except Raised String :=
  (partAfter ':' content).map fun part => String.ofList (Text.unquote part)

/-- `int(content.split(":")[1].strip())`. -/
def valueInt (content : Text) : Except Raised Int := (partAfter ':' content).bind toInt

/-- The names between brackets. -/
def valueList (content : Text) : Except Raised (List String) :=
  (partAfter ':' content).map fun part =>
    let inner := Text.stripWhere (fun letter => letter == '[' || letter == ']') (Text.strip part)
    ((inner.splitOn ',').filter fun item => Text.strip item ≠ []).map fun item =>
      String.ofList (Text.unquote item)

/-- `name:\s*"([^"]+)"`, at the beginning of a text. -/
def matchName (text : Text) : Option Text :=
  if startsWith "name:" text then
    match (text.drop 5).dropWhile Text.isSpace with
    | '"' :: rest =>
        let name := rest.takeWhile (· ≠ '"')
        if name ≠ [] ∧ name.length < rest.length then some name else none
    | _ => none
  else none

/-- `id:\s*(\d+)`, at the beginning of a text. -/
def matchId (text : Text) : Option Text :=
  if startsWith "id:" text then
    let digits := ((text.drop 3).dropWhile Text.isSpace).takeWhile fun letter =>
      (Text.digit? letter).isSome
    if digits ≠ [] then some digits else none
  else none

/-- `re.search(pattern, content).group(1)`. -/
def searched (found : Option Text) : Except Raised Text :=
  match found with
  | some group => .ok group
  | none => .error .attributeError

/-- The name and the number of a service in braces. -/
def serviceEntry (content : Text) : Except Raised (String × Int) :=
  (searched (Text.search matchName content)).bind fun name =>
    (searched (Text.search matchId content)).bind fun digits =>
      (toInt digits).map fun number => (String.ofList name, number)

/-- A change of the last item. -/
def onLast {α : Type} (change : α → Except Raised α) (items : List α) : Except Raised (List α) :=
  match items.getLast? with
  | none => .error .indexError
  | some last => (change last).map fun changed => items.dropLast ++ [changed]

/-! ## Modes -/

/-- A line in the mode of nodes. -/
def readNodes (indent : Nat) (content : Text) (nodes : List NodeConf) :
    Except Raised (List NodeConf) :=
  if startsWith "- name:" content then
    (valueText content).map fun name => nodes ++ [⟨some name, none, some "default", [], none⟩]
  else if Holds "uds_path:" content then
    (valueText content).bind fun path =>
      onLast (fun node => .ok { node with udsPath := some path }) nodes
  else if Holds "buffer_profile:" content then
    (valueText content).bind fun profile =>
      onLast (fun node => .ok { node with bufferProfile := some profile }) nodes
  else if Holds "busy_poll_cycles:" content then
    (valueInt content).bind fun cycles =>
      onLast (fun node => .ok { node with busyPollCycles := some (.int cycles) }) nodes
  else if startsWith "- name:" content ∧ 4 < indent then
    onLast (fun node => (valueText content).map fun name =>
      { node with threads := node.threads ++ [⟨some name, []⟩] }) nodes
  else if Holds "components:" content then
    (valueList content).bind fun comps =>
      onLast (fun node =>
        (onLast (fun thread => .ok { thread with components := comps }) node.threads).map
          fun threads => { node with threads := threads }) nodes
  else .ok nodes

/-- What a line that is not a name says about the last component. -/
def componentChange (indent : Nat) (content : Text) :
    Except Raised (Option (ComponentConf → ComponentConf)) :=
  if Holds "id:" content ∧ indent = 4 then
    (valueInt content).map fun id => some fun comp => { comp with id := .int id }
  else if Holds "model:" content then
    (valueText content).map fun model => some fun comp => { comp with model := some model }
  else if Holds "provides:" content then .ok none
  else if startsWith "- \x7b name:" content ∧ 4 < indent then
    (serviceEntry content).map fun svc => some fun comp =>
      { comp with provides := comp.provides ++ [⟨some svc.1, .int svc.2, none⟩] }
  else if Holds "requires:" content then .ok none
  else if startsWith "- " content ∧ 4 < indent then
    (partAfter '-' content).map fun part => some fun comp =>
      { comp with requires := comp.requires ++ [String.ofList (Text.unquote part)] }
  else .ok none

/-- A line in the mode of components. -/
def readComponents (indent : Nat) (content : Text) (comps : List ComponentConf) :
    Except Raised (List ComponentConf) :=
  if startsWith "- name:" content then
    (valueText content).map fun name =>
      comps ++ [⟨some name, .other "None", some "", [], []⟩]
  else
    (componentChange indent content).bind fun
      | none => .ok comps
      | some change => onLast (fun comp => .ok (change comp)) comps

/-- A line in the mode of the platform. -/
def readPlatform (indent : Nat) (content : Text) (services : List ServiceConf) :
    Except Raised (List ServiceConf) :=
  if startsWith "- \x7b name:" content ∧ 4 < indent then
    (serviceEntry content).map fun svc =>
      services ++ [⟨some svc.1, .int svc.2, some "embedded"⟩]
  else .ok services

/-- A line in the mode of models. -/
def readModels (content : Text) (models : List ModelConf) : Except Raised (List ModelConf) :=
  if startsWith "- name:" content then
    (valueText content).map fun name => models ++ [⟨some name, some ""⟩]
  else if Holds "lib:" content then
    (valueText content).bind fun lib =>
      onLast (fun model => .ok { model with lib := some lib }) models
  else .ok models

/-- A part of a bin. -/
def binEntry (part : Text) : Except Raised (Text × Int) :=
  match part.splitOn ':' with
  | [key, value] => (toInt value).map fun number => (Text.strip key, number)
  | _ => .error .valueError

/-- A field of `bin_data`. -/
def binField (entries : List (Text × Int)) (key : String) : Scalar :=
  match dictGet entries key.toList with
  | some number => .int number
  | none => .other "None"

/-- `bin_data`. -/
def binOf (content : Text) : Except Raised BinConf :=
  let inner := Text.stripWhere (fun letter => letter == '{' || letter == '}') (Text.strip content)
  ((inner.splitOn ',').mapM binEntry).map fun entries =>
    ⟨binField entries "size", binField entries "count"⟩

/-- A line in the mode of profiles. -/
def readProfiles (content : Text) (profiles : List ProfileConf) :
    Except Raised (List ProfileConf) :=
  if startsWith "- name:" content then
    (valueText content).map fun name => profiles ++ [⟨some name, []⟩]
  else if Holds "size:" content then
    (binOf content).bind fun bin =>
      onLast (fun profile => .ok { profile with bins := profile.bins ++ [bin] }) profiles
  else .ok profiles

/-! ## Files -/

/-- The mode that a line chooses. -/
def header (content : Text) : Option Mode :=
  if content = "nodes:".toList then some .nodes
  else if content = "services:".toList then some .services
  else if content = "components:".toList then some .components
  else if content = "profiles:".toList then some .profiles
  else if content = "models:".toList then some .models
  else if content = "platform:".toList then some .platform
  else none

/-- The state of the parser. -/
structure Parsing where
  data : ConfigData
  mode : Option Mode
  deriving DecidableEq, Repr

/-- A line without its indentation. -/
def readContent (state : Parsing) (indent : Nat) (content : Text) : Except Raised Parsing :=
  match header content with
  | some mode => .ok { state with mode := some mode }
  | none =>
      match state.mode with
      | some .nodes => (readNodes indent content state.data.nodes).map fun nodes =>
          { state with data := { state.data with nodes := nodes } }
      | some .components => (readComponents indent content state.data.components).map fun comps =>
          { state with data := { state.data with components := comps } }
      | some .platform => (readPlatform indent content state.data.platform).map fun services =>
          { state with data := { state.data with platform := services } }
      | some .models => (readModels content state.data.models).map fun models =>
          { state with data := { state.data with models := models } }
      | some .profiles => (readProfiles content state.data.profiles).map fun profiles =>
          { state with data := { state.data with profiles := profiles } }
      | some .services => .ok state
      | none => .ok state

/-- A line. -/
def readLine (state : Parsing) (line : Text) : Except Raised Parsing :=
  let line := line.rdropWhile Text.isSpace
  let bare := line.dropWhile Text.isSpace
  if line = [] ∨ bare.head? = some '#' then .ok state
  else readContent state (line.length - bare.length) (Text.strip line)

/-- Nothing. -/
def ConfigData.empty : ConfigData := ⟨[], [], [], [], []⟩

/-- `parse_yaml_fallback` on the lines of a file, where there is one. -/
def parseYamlFallback (file : Option (List Text)) : Except Raised ConfigData :=
  match file with
  | none => .ok .empty
  | some lines => (lines.foldlM readLine ⟨.empty, none⟩).map (·.data)

/-- The files together. -/
def ConfigData.extend (master data : ConfigData) : ConfigData where
  nodes := master.nodes ++ data.nodes
  components := master.components ++ data.components
  profiles := master.profiles ++ data.profiles
  models := master.models ++ data.models
  platform := master.platform ++ data.platform

/-- What is put together of files, one after the other. -/
def mergeFallback : List (List Text) → ConfigData → Except Raised ConfigData
  | [], master => .ok master
  | file :: files, master =>
      (parseYamlFallback (some file)).bind fun data => mergeFallback files (master.extend data)

/-! ## What is never read -/

/-- A node without threads, and services without types. -/
structure Lossy (data : ConfigData) : Prop where
  threads : ∀ node ∈ data.nodes, node.threads = []
  types : ∀ comp ∈ data.components, ∀ svc ∈ comp.provides, svc.type = none

/-- The exception of a computation that may raise is not a result. -/
theorem map_eq_ok_iff {ε α β : Type*} {first : Except ε α} {change : α → β} {result : β} :
    first.map change = .ok result ↔ ∃ value, first = .ok value ∧ change value = result := by
  cases first with
  | error failure => simp [Except.map]
  | ok value => simp [Except.map]

theorem mem_onLast {α : Type} {change : α → Except Raised α} {items items' : List α}
    (done : onLast change items = .ok items') {item : α} (member : item ∈ items') :
    item ∈ items ∨ ∃ last ∈ items, change last = .ok item := by
  unfold onLast at done
  split at done
  · cases done
  · rename_i last found
    obtain ⟨changed, made, rfl⟩ := map_eq_ok_iff.mp done
    rcases List.mem_append.mp member with old | new
    · exact .inl (List.mem_of_mem_dropLast old)
    · obtain rfl := List.mem_singleton.mp new
      exact .inr ⟨last, List.mem_of_mem_getLast? found, made⟩

theorem forall_mem_onLast {α : Type} {holds : α → Prop} {change : α → Except Raised α}
    {items items' : List α} (done : onLast change items = .ok items')
    (each : ∀ item ∈ items, holds item)
    (kept : ∀ item changed, holds item → change item = .ok changed → holds changed) :
    ∀ item ∈ items', holds item := by
  intro item member
  rcases mem_onLast done member with old | ⟨last, inside, changed⟩
  · exact each item old
  · exact kept last item (each last inside) changed

theorem readNodes_threads {indent : Nat} {content : Text} {nodes nodes' : List NodeConf}
    (done : readNodes indent content nodes = .ok nodes')
    (each : ∀ node ∈ nodes, node.threads = []) : ∀ node ∈ nodes', node.threads = [] := by
  unfold readNodes at done
  split at done
  · obtain ⟨name, -, rfl⟩ := map_eq_ok_iff.mp done
    exact List.forall_mem_append.mpr ⟨each, List.forall_mem_singleton.mpr rfl⟩
  rename_i no_name
  split at done
  · obtain ⟨path, -, done⟩ := bind_eq_ok_iff.mp done
    exact forall_mem_onLast done each fun node changed empty same => Except.ok.inj same ▸ empty
  split at done
  · obtain ⟨profile, -, done⟩ := bind_eq_ok_iff.mp done
    exact forall_mem_onLast done each fun node changed empty same => Except.ok.inj same ▸ empty
  split at done
  · obtain ⟨cycles, -, done⟩ := bind_eq_ok_iff.mp done
    exact forall_mem_onLast done each fun node changed empty same => Except.ok.inj same ▸ empty
  split at done
  · rename_i deeper
    exact absurd deeper.1 no_name
  split at done
  · obtain ⟨comps, -, done⟩ := bind_eq_ok_iff.mp done
    refine forall_mem_onLast done each fun node changed empty same => ?_
    rw [empty] at same
    cases same
  · obtain rfl := Except.ok.inj done
    exact each

/-- What a line says about a component gives no type to a service. -/
theorem componentChange_types {indent : Nat} {content : Text}
    {change : ComponentConf → ComponentConf}
    (done : componentChange indent content = .ok (some change)) {comp : ComponentConf}
    (untyped : ∀ svc ∈ comp.provides, svc.type = none) :
    ∀ svc ∈ (change comp).provides, svc.type = none := by
  unfold componentChange at done
  split at done
  · obtain ⟨id, -, same⟩ := map_eq_ok_iff.mp done
    obtain rfl := Option.some.inj same
    exact untyped
  split at done
  · obtain ⟨model, -, same⟩ := map_eq_ok_iff.mp done
    obtain rfl := Option.some.inj same
    exact untyped
  split at done
  · cases done
  split at done
  · obtain ⟨svc, -, same⟩ := map_eq_ok_iff.mp done
    obtain rfl := Option.some.inj same
    exact List.forall_mem_append.mpr ⟨untyped, List.forall_mem_singleton.mpr rfl⟩
  split at done
  · cases done
  split at done
  · obtain ⟨part, -, same⟩ := map_eq_ok_iff.mp done
    obtain rfl := Option.some.inj same
    exact untyped
  · cases done

/-- A line in the mode of components gives no type to a service. -/
theorem readComponents_types {indent : Nat} {content : Text} {comps comps' : List ComponentConf}
    (done : readComponents indent content comps = .ok comps')
    (each : ∀ comp ∈ comps, ∀ svc ∈ comp.provides, svc.type = none) :
    ∀ comp ∈ comps', ∀ svc ∈ comp.provides, svc.type = none := by
  unfold readComponents at done
  split at done
  · obtain ⟨name, -, rfl⟩ := map_eq_ok_iff.mp done
    exact List.forall_mem_append.mpr ⟨each, List.forall_mem_singleton.mpr (by simp)⟩
  · obtain ⟨said, made, done⟩ := bind_eq_ok_iff.mp done
    cases said with
    | none =>
        obtain rfl := Except.ok.inj done
        exact each
    | some change =>
        refine forall_mem_onLast done each fun comp changed untyped same => ?_
        obtain rfl := Except.ok.inj same
        exact componentChange_types made untyped

theorem readLine_lossy {state state' : Parsing} {line : Text}
    (done : readLine state line = .ok state') (lossy : Lossy state.data) : Lossy state'.data := by
  dsimp only [readLine] at done
  split at done
  · obtain rfl := Except.ok.inj done
    exact lossy
  unfold readContent at done
  split at done
  · obtain rfl := Except.ok.inj done
    exact lossy
  split at done
  · obtain ⟨nodes, read, rfl⟩ := map_eq_ok_iff.mp done
    exact ⟨readNodes_threads read lossy.threads, lossy.types⟩
  · obtain ⟨comps, read, rfl⟩ := map_eq_ok_iff.mp done
    exact ⟨lossy.threads, readComponents_types read lossy.types⟩
  · obtain ⟨services, -, rfl⟩ := map_eq_ok_iff.mp done
    exact ⟨lossy.threads, lossy.types⟩
  · obtain ⟨models, -, rfl⟩ := map_eq_ok_iff.mp done
    exact ⟨lossy.threads, lossy.types⟩
  · obtain ⟨profiles, -, rfl⟩ := map_eq_ok_iff.mp done
    exact ⟨lossy.threads, lossy.types⟩
  · obtain rfl := Except.ok.inj done
    exact lossy
  · obtain rfl := Except.ok.inj done
    exact lossy

theorem readLines_lossy {lines : List Text} {state state' : Parsing}
    (done : lines.foldlM readLine state = .ok state') (lossy : Lossy state.data) :
    Lossy state'.data := by
  induction lines generalizing state with
  | nil =>
      obtain rfl := Except.ok.inj done
      exact lossy
  | cons line lines ih =>
      obtain ⟨next, here, done⟩ := bind_eq_ok_iff.mp done
      exact ih done (readLine_lossy here lossy)

theorem lossy_empty : Lossy .empty := ⟨by simp [ConfigData.empty], by simp [ConfigData.empty]⟩

/-- Whatever a file holds, no thread and no type of a service of a component is read from it. -/
theorem parseYamlFallback_lossy {file : Option (List Text)} {data : ConfigData}
    (done : parseYamlFallback file = .ok data) : Lossy data := by
  cases file with
  | none =>
      obtain rfl := Except.ok.inj done
      exact lossy_empty
  | some lines =>
      obtain ⟨state, read, rfl⟩ := map_eq_ok_iff.mp done
      exact readLines_lossy read lossy_empty

theorem Lossy.extend {master data : ConfigData} (lossy : Lossy master) (lossy' : Lossy data) :
    Lossy (master.extend data) where
  threads := fun node member =>
    (List.mem_append.mp member).elim (lossy.threads node) (lossy'.threads node)
  types := fun comp member =>
    (List.mem_append.mp member).elim (lossy.types comp) (lossy'.types comp)

theorem mergeFallback_lossy {files : List (List Text)} {master data : ConfigData}
    (done : mergeFallback files master = .ok data) (lossy : Lossy master) : Lossy data := by
  induction files generalizing master with
  | nil =>
      obtain rfl := Except.ok.inj done
      exact lossy
  | cons file files ih =>
      obtain ⟨part, read, done⟩ := bind_eq_ok_iff.mp done
      exact ih done (lossy.extend (parseYamlFallback_lossy read))

/-- Without a YAML library no configuration is accepted, whatever its files hold. -/
theorem mergeFallback_not_accepted {files : List (List Text)} {data : ConfigData}
    (done : mergeFallback files .empty = .ok data) : ∀ checked, validateConfig data ≠ .ok checked := by
  intro checked accepted
  have wellFormed := wellFormed_of_validateConfig accepted
  obtain ⟨node, member⟩ := List.exists_mem_of_ne_nil _ wellFormed.nodes
  exact (wellFormed.eachNode node member).threads
    ((mergeFallback_lossy done lossy_empty).threads node member)

end CodexNos.Config
