import CodexNos.Config.Fallback
import CodexNos.Config.RoundTrip

/-!
# The layout of the configuration files

The files under `conf` and those of the tests are written in one layout: two spaces before an item,
four before its keys, lists of services and bins one line each in braces, names between quotes.  The
parser without a library reads a configuration in this layout as it is only if there is hardly
anything in it: no nodes, no services, no profiles, and no name with a character that it splits at.
-/

namespace CodexNos.Config

open Lib

/-! ## Lines -/

/-- A line without its indentation, and how deep it stands. -/
abbrev Line := Nat × Text

/-- A line with its indentation. -/
def indented (line : Line) : Text := List.replicate line.1 ' ' ++ line.2

/-- `key: "value"`. -/
def textField (key : String) (value : Option String) : Text :=
  key.toList ++ ':' :: ' ' :: Text.quoted (textOf value).toList

/-- `key: value`. -/
def numberField (key : String) (value : Scalar) : Text :=
  key.toList ++ ':' :: ' ' :: value.text.toList

/-- `- "name"`. -/
def nameItem (name : String) : Text := '-' :: ' ' :: Text.quoted name.toList

/-- An item in braces. -/
def inBraces (inner : Text) : Text := '-' :: ' ' :: '{' :: ' ' :: (inner ++ [' ', '}'])

/-- `- { name: "…", id: …, type: "…" }`. -/
def serviceItem (svc : ServiceConf) : Text :=
  inBraces (textField "name" svc.name ++ ", ".toList ++ numberField "id" svc.id ++ ", ".toList ++
    textField "type" svc.type)

/-- `- { size: …, count: … }`, with some more spaces in the middle. -/
def binItem (pad : BinConf → Nat) (bin : BinConf) : Text :=
  inBraces (numberField "size" bin.size ++ ',' :: (List.replicate (pad bin + 1) ' ' ++
    numberField "count" bin.count))

/-- `components: ["…", "…"]`. -/
def componentsField (names : List String) : Text :=
  "components: [".toList ++
    ", ".toList.intercalate (names.map fun name => Text.quoted name.toList) ++ [']']

/-- The lines under a key, which is left out if there are none. -/
def under (depth : Nat) (key : String) (lines : List Line) : List Line :=
  if lines = [] then [] else (depth, key.toList) :: lines

/-! ## Items -/

/-- The keys of a component after its name. -/
def componentFields (comp : ComponentConf) : List Line :=
  (4, textField "model" comp.model) :: (4, numberField "id" comp.id) ::
    (under 4 "provides:" (comp.provides.map fun svc => (6, serviceItem svc)) ++
      under 4 "requires:" (comp.requires.map fun name => (6, nameItem name)))

/-- A component. -/
def componentLines (comp : ComponentConf) : List Line :=
  (2, textField "- name" comp.name) :: componentFields comp

/-- A model. -/
def modelLines (model : ModelConf) : List Line :=
  [(2, textField "- name" model.name), (4, textField "lib" model.lib)]

/-- A profile. -/
def profileLines (pad : BinConf → Nat) (profile : ProfileConf) : List Line :=
  (2, textField "- name" profile.name) ::
    under 4 "bins:" (profile.bins.map fun bin => (6, binItem pad bin))

/-- A thread. -/
def threadLines (thread : ThreadConf) : List Line :=
  [(6, textField "- name" thread.name), (8, componentsField thread.components)]

/-- A node. -/
def nodeLines (node : NodeConf) : List Line :=
  (2, textField "- name" node.name) :: (4, textField "uds_path" node.udsPath) ::
    (node.bufferProfile.toList.map (fun profile => (4, textField "buffer_profile" (some profile))) ++
      node.busyPollCycles.toList.map (fun cycles => (4, numberField "busy_poll_cycles" cycles)) ++
      under 4 "threads:" (node.threads.flatMap threadLines))

/-- The lines of a configuration, without indentation. -/
def contentLines (pad : BinConf → Nat) (data : ConfigData) : List Line :=
  under 0 "platform:" (under 2 "provides:" (data.platform.map fun svc => (4, serviceItem svc))) ++
    under 0 "components:" (data.components.flatMap componentLines) ++
    under 0 "models:" (data.models.flatMap modelLines) ++
    under 0 "profiles:" (data.profiles.flatMap (profileLines pad)) ++
    under 0 "nodes:" (data.nodes.flatMap nodeLines)

/-- A configuration in the layout. -/
def render (pad : BinConf → Nat) (data : ConfigData) : List Text :=
  (contentLines pad data).map indented

/-! ## What can be written in the layout -/

/-- A character that stands for itself between quotes. -/
def IsQuotable (letter : Char) : Prop :=
  letter ≠ '"' ∧ letter ≠ '\\' ∧ 32 ≤ letter.toNat ∧ ¬ (127 ≤ letter.toNat ∧ letter.toNat ≤ 159) ∧
    letter.toNat ≠ 0x2028 ∧ letter.toNat ≠ 0x2029

/-- A text that can stand between quotes as it is. -/
def Quotable (text : String) : Prop := ∀ letter ∈ text.toList, IsQuotable letter

/-- A name that is given, as a text that can stand between quotes. -/
def Written (value : Option String) : Prop := ∃ text, value = some text ∧ Quotable text

/-- A configuration that can be written in the layout. -/
structure InLayout (data : ConfigData) : Prop where
  components : ∀ comp ∈ data.components, Written comp.name ∧ Written comp.model ∧ comp.id.Numeric ∧
    ∀ name ∈ comp.requires, Quotable name
  services : ∀ svc ∈ data.services, Written svc.name ∧ svc.id.Numeric ∧ Written svc.type
  models : ∀ model ∈ data.models, Written model.name ∧ Written model.lib
  profiles : ∀ profile ∈ data.profiles, Written profile.name ∧ profile.bins ≠ [] ∧
    ∀ bin ∈ profile.bins, bin.size.Numeric ∧ bin.count.Numeric
  nodes : ∀ node ∈ data.nodes, Written node.name ∧ Written node.udsPath ∧
    (∀ profile ∈ node.bufferProfile, Quotable profile) ∧
    (∀ cycles ∈ node.busyPollCycles, cycles.Numeric) ∧ node.threads ≠ [] ∧
    ∀ thread ∈ node.threads, Written thread.name ∧ ∀ name ∈ thread.components, Quotable name

/-- A text without spaces. -/
def IsBlank (line : Text) : Prop := ∀ letter ∈ line, Text.isSpace letter = true

instance (line : Text) : Decidable (IsBlank line) :=
  List.decidableBAll (fun letter => Text.isSpace letter = true) line

/-- The lines of a file with a configuration in the layout, with blank lines anywhere. -/
def Renders (lines : List Text) (pad : BinConf → Nat) (data : ConfigData) : Prop :=
  (lines.filter fun line => ¬ IsBlank line) = render pad data

/-! ## What is read back -/

/-- A name that a component requires is read back. -/
structure RequireKept (name : String) : Prop where
  noDash : '-' ∉ name.toList
  noModel : ¬ Holds "model:" name.toList
  noProvides : ¬ Holds "provides:" name.toList
  noRequires : ¬ Holds "requires:" name.toList

/-- A component is read back. -/
structure ComponentKept (comp : ComponentConf) : Prop where
  name : ':' ∉ (textOf comp.name).toList
  model : ':' ∉ (textOf comp.model).toList
  provides : comp.provides = []
  requires : ∀ name ∈ comp.requires, RequireKept name

/-- A configuration is read back. -/
structure Kept (data : ConfigData) : Prop where
  nodes : data.nodes = []
  platform : data.platform = []
  profiles : data.profiles = []
  components : ∀ comp ∈ data.components, ComponentKept comp
  models : ∀ model ∈ data.models,
    ':' ∉ (textOf model.name).toList ∧ ':' ∉ (textOf model.lib).toList

/-! ## Trimmed lines -/

/-- A line that is read as it stands. -/
structure Line.Plain (line : Line) : Prop where
  trimmed : Text.Trimmed line.2
  noComment : line.2.head? ≠ some '#'

theorem readLine_indented {state : Parsing} {line : Line} (plain : line.Plain) :
    readLine state (indented line) = readContent state line.1 line.2 := by
  have spaces : ∀ letter ∈ List.replicate line.1 ' ', Text.isSpace letter = true := by
    intro letter member
    rw [List.eq_of_mem_replicate member]
    decide
  have stripped : (indented line).rdropWhile Text.isSpace = indented line := by
    obtain ⟨rest, letter, same, kept⟩ := plain.trimmed.last
    rw [indented, same, ← List.append_assoc, List.rdropWhile_concat_neg _ _ _ (by simp [kept])]
  have bare : (indented line).dropWhile Text.isSpace = line.2 := by
    have kept := @Text.Trimmed.dropWhile_append line.2 [] plain.trimmed
    rw [List.append_nil] at kept
    rw [indented, List.dropWhile_append_of_pos spaces, kept]
  have content : Text.strip (indented line) = line.2 := by
    have padded := @Text.Trimmed.strip_padded _ line.2 [] plain.trimmed spaces (by simp)
    rwa [List.append_nil] at padded
  obtain ⟨letter, rest, same, -⟩ := plain.trimmed.first
  dsimp only [readLine]
  rw [stripped, bare, content, if_neg]
  · simp [indented]
  · rintro (empty | comment)
    · rw [indented, same] at empty
      simp at empty
    · exact plain.noComment comment

theorem readLine_blank {state : Parsing} {line : Text} (blank : IsBlank line) :
    readLine state line = .ok state := by
  have nothing : line.rdropWhile Text.isSpace = [] := List.rdropWhile_eq_nil_iff.mpr blank
  dsimp only [readLine]
  rw [nothing, if_pos (.inl rfl)]

theorem foldlM_readLine_filter (lines : List Text) (state : Parsing) :
    lines.foldlM readLine state =
      (lines.filter fun line => ¬ IsBlank line).foldlM readLine state := by
  induction lines generalizing state with
  | nil => rfl
  | cons line lines ih =>
      by_cases blank : IsBlank line
      · rw [List.foldlM_cons, readLine_blank blank, List.filter_cons_of_neg (by simpa using blank)]
        exact ih state
      · rw [List.filter_cons_of_pos (by simpa using blank), List.foldlM_cons, List.foldlM_cons]
        exact congrArg _ (funext ih)

theorem foldlM_readLine_indented {lines : List Line} (plain : ∀ line ∈ lines, line.Plain)
    (state : Parsing) :
    (lines.map indented).foldlM readLine state =
      lines.foldlM (fun state line => readContent state line.1 line.2) state := by
  induction lines generalizing state with
  | nil => rfl
  | cons line lines ih =>
      rw [List.map_cons, List.foldlM_cons, List.foldlM_cons,
        readLine_indented (plain line List.mem_cons_self)]
      exact congrArg _ (funext (ih fun later member => plain later (List.mem_cons_of_mem _ member)))

theorem Line.plain_of_ends {line : Line} {first last : Char} (head : line.2.head? = some first)
    (final : line.2.getLast? = some last) (kept : Text.isSpace first = false) (comment : first ≠ '#')
    (kept' : Text.isSpace last = false) : line.Plain where
  trimmed := by
    obtain ⟨rest, same⟩ := List.head?_eq_some_iff.mp head
    obtain ⟨rest', same'⟩ := List.getLast?_eq_some_iff.mp final
    exact ⟨⟨first, rest, same, kept⟩, ⟨rest', last, same', kept'⟩⟩
  noComment := by
    rw [head]
    simpa using comment

theorem plain_textField {depth : Nat} {key : String} {value : Option String} {first : Char}
    (head : key.toList.head? = some first) (kept : Text.isSpace first = false)
    (comment : first ≠ '#') : Line.Plain (depth, textField key value) := by
  refine Line.plain_of_ends ?_ ?_ kept comment (by decide : Text.isSpace '"' = false)
  · rw [textField, List.head?_append, head]
    rfl
  · simp [textField, Text.quoted, List.getLast?_append, List.getLast?_cons]

theorem plain_nameItem (depth : Nat) (name : String) : Line.Plain (depth, nameItem name) := by
  refine Line.plain_of_ends rfl ?_ (by decide : Text.isSpace '-' = false) (by decide)
    (by decide : Text.isSpace '"' = false)
  simp [nameItem, Text.quoted, List.getLast?_cons]

theorem plain_inBraces (depth : Nat) (inner : Text) : Line.Plain (depth, inBraces inner) := by
  refine Line.plain_of_ends rfl ?_ (by decide : Text.isSpace '-' = false) (by decide)
    (by decide : Text.isSpace '}' = false)
  simp [inBraces, List.getLast?_cons, List.getLast?_append]

theorem mem_under {depth : Nat} {key : String} {lines : List Line} {line : Line}
    (member : line ∈ under depth key lines) : line = (depth, key.toList) ∨ line ∈ lines := by
  unfold under at member
  split at member
  · cases member
  · exact List.mem_cons.mp member

/-! ## Lists of items -/

section Items

variable {α β : Type} {read : List α → Line → Except Raised (List α)}
  {amend : α → Line → Except Raised α}

theorem foldlM_cons_of_ok {step : α → β → Except Raised α} {item : β} {items : List β}
    {start next : α} (here : step start item = .ok next) :
    (item :: items).foldlM step start = items.foldlM step next := by
  rw [List.foldlM_cons, here]
  rfl

theorem foldlM_append_of_ok {step : α → β → Except Raised α} {items later : List β}
    {start next : α} (here : items.foldlM step start = .ok next) :
    (items ++ later).foldlM step start = later.foldlM step next := by
  rw [List.foldlM_append, here]
  rfl

theorem foldlM_fields {fields : List Line}
    (each : ∀ field ∈ fields, ∀ items item,
      read (items ++ [item]) field = (amend item field).map fun item => items ++ [item])
    (items : List α) (item : α) :
    fields.foldlM read (items ++ [item]) =
      (fields.foldlM amend item).map fun item => items ++ [item] := by
  induction fields generalizing item with
  | nil => rfl
  | cons field fields ih =>
      rw [List.foldlM_cons, List.foldlM_cons, each field List.mem_cons_self]
      cases amend item field with
      | error failure => rfl
      | ok item => exact ih (fun later member => each later (List.mem_cons_of_mem _ member)) item

theorem foldlM_blocks {lines : β → List Line} {result : β → Except Raised α} {blocks : List β}
    (each : ∀ block ∈ blocks, ∀ items,
      (lines block).foldlM read items = (result block).map fun item => items ++ [item])
    (items : List α) :
    (blocks.flatMap lines).foldlM read items =
      (blocks.mapM result).map fun added => items ++ added := by
  induction blocks generalizing items with
  | nil => simp [Except.map, pure, Except.pure]
  | cons block blocks ih =>
      rw [List.flatMap_cons, List.foldlM_append, each block List.mem_cons_self, List.mapM_cons]
      cases result block with
      | error failure => rfl
      | ok item =>
          have later := ih (fun later member => each later (List.mem_cons_of_mem _ member))
            (items ++ [item])
          refine later.trans ?_
          cases blocks.mapM result with
          | error failure => rfl
          | ok added =>
              exact congrArg Except.ok (List.append_assoc items [item] added)

theorem mapM_eq_ok_iff {convert : β → Except Raised α} {items : List β} {results : List α} :
    items.mapM convert = .ok results ↔ items.map convert = results.map .ok := by
  induction items generalizing results with
  | nil => cases results <;> simp [pure, Except.pure]
  | cons item items ih =>
      rw [List.mapM_cons, List.map_cons]
      constructor
      · intro done
        obtain ⟨first, converted, done⟩ := bind_eq_ok_iff.mp done
        obtain ⟨rest, later, done⟩ := bind_eq_ok_iff.mp done
        obtain rfl : first :: rest = results := Except.ok.inj done
        rw [converted, ih.mp later, List.map_cons]
      · intro same
        cases results with
        | nil => simp at same
        | cons first rest =>
            obtain ⟨converted, later⟩ := List.cons.inj same
            rw [converted, ih.mpr later]
            rfl

theorem mapM_eq_self_iff {convert : α → Except Raised α} {items : List α} :
    items.mapM convert = .ok items ↔ ∀ item ∈ items, convert item = .ok item := by
  rw [mapM_eq_ok_iff, List.map_inj_left]

theorem map_eq_self_iff {convert : α → α} {items : List α} :
    items.map convert = items ↔ ∀ item ∈ items, convert item = item := by
  conv_lhs => rw [← List.map_id items, List.map_map]
  exact List.map_inj_left

end Items

theorem onLast_concat {α : Type} (change : α → Except Raised α) (items : List α) (item : α) :
    onLast change (items ++ [item]) = (change item).map fun item => items ++ [item] := by
  rw [onLast, List.getLast?_concat, List.dropLast_concat]

/-! ## Sections -/

theorem header_eq_none {content : Text} {letter : Char} (final : content.getLast? = some letter)
    (other : letter ≠ ':') : header content = none := by
  have differs : ∀ key : Text, key.getLast? = some ':' → content ≠ key := by
    rintro key last rfl
    exact other (Option.some.inj (final.symm.trans last))
  unfold header
  rw [if_neg (differs _ (by decide)), if_neg (differs _ (by decide)), if_neg (differs _ (by decide)),
    if_neg (differs _ (by decide)), if_neg (differs _ (by decide)), if_neg (differs _ (by decide))]

section Sections

variable {α : Type} {mode : Mode} {read : List α → Line → Except Raised (List α)}
  {put : List α → ConfigData}

theorem foldlM_section
    (reads : ∀ items line, header line.2 = none → readContent ⟨put items, some mode⟩ line.1 line.2 =
      (read items line).map fun items => ⟨put items, some mode⟩)
    {lines : List Line} (plain : ∀ line ∈ lines, header line.2 = none) (items : List α) :
    lines.foldlM (fun state line => readContent state line.1 line.2) ⟨put items, some mode⟩ =
      (lines.foldlM read items).map fun items => ⟨put items, some mode⟩ := by
  induction lines generalizing items with
  | nil => rfl
  | cons line lines ih =>
      rw [List.foldlM_cons, List.foldlM_cons, reads items line (plain line List.mem_cons_self)]
      cases read items line with
      | error failure => rfl
      | ok items => exact ih (fun later member => plain later (List.mem_cons_of_mem _ member)) items

theorem foldlM_under
    (reads : ∀ items line, header line.2 = none → readContent ⟨put items, some mode⟩ line.1 line.2 =
      (read items line).map fun items => ⟨put items, some mode⟩)
    {key : String} (chosen : header key.toList = some mode) {lines : List Line}
    (plain : ∀ line ∈ lines, header line.2 = none) (items : List α) (before : Option Mode) :
    ∃ after, (under 0 key lines).foldlM (fun state line => readContent state line.1 line.2)
        ⟨put items, before⟩ =
      (lines.foldlM read items).map fun items => ⟨put items, after⟩ := by
  unfold under
  split
  · rename_i empty
    subst empty
    exact ⟨before, rfl⟩
  · refine ⟨some mode, ?_⟩
    rw [List.foldlM_cons]
    have opened : readContent ⟨put items, before⟩ 0 key.toList = .ok ⟨put items, some mode⟩ := by
      rw [readContent, chosen]
    simp only [opened]
    exact foldlM_section reads plain items

end Sections

/-! ## Names and numbers -/

/-- What is read of a name. -/
def readBack (sep : Char) (name : String) : String := String.ofList (Text.cutQuoted sep name.toList)

theorem readBack_eq_self_iff {sep : Char} {name : String} (quotable : Quotable name)
    (space : sep ≠ ' ') (quote : sep ≠ '"') : readBack sep name = name ↔ sep ∉ name.toList := by
  have plain : '"' ∉ name.toList := fun member => (quotable _ member).1 rfl
  rw [← Text.cutQuoted_eq_self_iff space quote plain, readBack]
  constructor
  · intro same
    conv_rhs => rw [← same]
    rw [String.toList_ofList]
  · intro same
    rw [same, String.ofList_toList]

theorem partAfter_append {sep : Char} {key rest : Text} (absent : sep ∉ key) :
    partAfter sep (key ++ sep :: rest) = .ok (rest.takeWhile (· ≠ sep)) := by
  rw [partAfter, Text.second_append absent]

theorem valueText_textField {key : String} (absent : ':' ∉ key.toList) (value : Option String) :
    valueText (textField key value) = .ok (readBack ':' (textOf value)) := by
  rw [valueText, textField, partAfter_append absent]
  rfl

theorem getLast?_textField (key : String) (value : Option String) :
    (textField key value).getLast? = some '"' := by
  simp [textField, Text.quoted, List.getLast?_append, List.getLast?_cons]

theorem not_mem_toString {number : Int} {letter : Char} (other : letter.isDigit = false)
    (dash : letter ≠ '-') : letter ∉ (toString number).toList := by
  intro member
  rcases Text.mem_toString member with digit | same
  · rw [other] at digit
    cases digit
  · exact dash same

theorem isSpace_of_mem_space : ∀ letter ∈ [' '], Text.isSpace letter = true := by
  intro letter member
  obtain rfl := List.mem_singleton.mp member
  decide

theorem toInt_padded (number : Int) {before after : Text}
    (spaces : ∀ letter ∈ before, Text.isSpace letter = true)
    (spaces' : ∀ letter ∈ after, Text.isSpace letter = true) :
    toInt (before ++ ((toString number).toList ++ after)) = .ok number := by
  rw [toInt, Text.toInt?_padded number spaces spaces']

theorem valueInt_numberField {key : String} (absent : ':' ∉ key.toList) (number : Int) :
    valueInt (numberField key (.int number)) = .ok number := by
  have whole : (' ' :: (toString number).toList).takeWhile (· ≠ ':') =
      ' ' :: (toString number).toList := by
    rw [List.takeWhile_eq_self_iff]
    intro letter member
    have differs : letter ≠ ':' := by
      rintro rfl
      rcases List.mem_cons.mp member with space | inside
      · exact absurd space (by decide)
      · exact not_mem_toString (by decide) (by decide) inside
    simpa using differs
  have read := @toInt_padded number [' '] [] isSpace_of_mem_space (by simp)
  rw [List.append_nil] at read
  rw [valueInt, numberField, partAfter_append absent]
  exact (congrArg toInt whole).trans read

/-! ## Components -/

section Components

variable {comp : ComponentConf}

/-- What a line makes of the last component. -/
def amendComponent (comp : ComponentConf) (line : Line) : Except Raised ComponentConf :=
  (componentChange line.1 line.2).map fun change => change.getD id comp

/-- A component as it stands after its name. -/
def namedComponent (name : Option String) : ComponentConf :=
  ⟨some (readBack ':' (textOf name)), .other "None", some "", [], []⟩

/-- What is read of a component. -/
def componentRead (comp : ComponentConf) : Except Raised ComponentConf :=
  (componentFields comp).foldlM amendComponent (namedComponent comp.name)

theorem componentFields_of_provides (nothing : comp.provides = []) :
    componentFields comp = (4, textField "model" comp.model) :: (4, numberField "id" comp.id) ::
      under 4 "requires:" (comp.requires.map fun name => (6, nameItem name)) := by
  rw [componentFields, nothing]
  rfl

theorem startsWith_nameField (name : Option String) :
    startsWith "- name:" (textField "- name" name) = true := by
  simp [startsWith, textField, List.isPrefixOf]

theorem startsWith_componentFields (nothing : comp.provides = []) {line : Line}
    (member : line ∈ componentFields comp) : startsWith "- name:" line.2 = false := by
  rw [componentFields_of_provides nothing, List.mem_cons, List.mem_cons] at member
  rcases member with rfl | rfl | required
  · simp [startsWith, textField, List.isPrefixOf]
  · simp [startsWith, numberField, List.isPrefixOf]
  · rcases mem_under required with rfl | required
    · decide
    · obtain ⟨name, -, rfl⟩ := List.mem_map.mp required
      simp [startsWith, nameItem, List.isPrefixOf, Text.quoted]

theorem readComponents_name (name : Option String) (indent : Nat) (comps : List ComponentConf) :
    readComponents indent (textField "- name" name) comps =
      .ok (comps ++ [namedComponent name]) := by
  rw [readComponents, if_pos (startsWith_nameField name), valueText_textField (by decide)]
  rfl

theorem readComponents_field {line : Line} (noName : startsWith "- name:" line.2 = false)
    (comps : List ComponentConf) (comp : ComponentConf) :
    readComponents line.1 line.2 (comps ++ [comp]) =
      (amendComponent comp line).map fun comp => comps ++ [comp] := by
  rw [readComponents, if_neg (by simp [noName]), amendComponent]
  cases componentChange line.1 line.2 with
  | error failure => rfl
  | ok said =>
      cases said with
      | none => rfl
      | some change => exact onLast_concat _ comps comp

theorem readComponents_block (nothing : comp.provides = []) (comps : List ComponentConf) :
    (componentLines comp).foldlM (fun comps line => readComponents line.1 line.2 comps) comps =
      (componentRead comp).map fun comp => comps ++ [comp] := by
  rw [componentLines, List.foldlM_cons]
  simp only [readComponents_name]
  refine foldlM_fields (fun field member comps comp => ?_) comps _
  exact readComponents_field (startsWith_componentFields nothing member) comps comp

/-! ## Fields of a component -/

theorem not_holds_model {model : Option String} (fresh : ':' ∉ (textOf model).toList) :
    ¬ Holds "id:" (textField "model" model) := by
  intro holds
  have inside : "id:".toList <:+: (textOf model).toList ++ ['"'] := by
    simpa [Holds, textField, Text.quoted, List.infix_cons_iff] using holds
  rw [Text.infix_concat_iff_of_not_mem (by decide)] at inside
  exact fresh (inside.subset (by decide))

theorem valueInt_textField {key : String} (absent : ':' ∉ key.toList) (value : Option String) :
    valueInt (textField key value) = .error .valueError := by
  obtain ⟨part, same⟩ : ∃ part, (' ' :: Text.quoted (textOf value).toList).takeWhile (· ≠ ':') =
      ' ' :: '"' :: part := ⟨_, rfl⟩
  rw [valueInt, textField, partAfter_append absent, same]
  simp only [Except.bind, toInt, Text.toInt?_quote]

theorem amendComponent_model_of_ok {model : Option String} {read : ComponentConf}
    (done : amendComponent comp (4, textField "model" model) = .ok read) :
    read = { comp with model := some (readBack ':' (textOf model)) } := by
  obtain ⟨said, changed, rfl⟩ := map_eq_ok_iff.mp done
  unfold componentChange at changed
  split at changed
  · rw [valueInt_textField (by decide)] at changed
    cases changed
  split at changed
  · rw [valueText_textField (by decide)] at changed
    obtain rfl := Except.ok.inj changed
    rfl
  · rename_i noModel
    refine absurd ?_ noModel
    simp [Holds, textField, List.infix_cons_iff]

theorem amendComponent_model {model : Option String} (fresh : ':' ∉ (textOf model).toList) :
    amendComponent comp (4, textField "model" model) =
      .ok { comp with model := some (readBack ':' (textOf model)) } := by
  have present : Holds "model:" (textField "model" model) := by
    simp [Holds, textField, List.infix_cons_iff]
  rw [amendComponent, componentChange, if_neg fun both => not_holds_model fresh both.1,
    if_pos present, valueText_textField (by decide)]
  rfl

theorem amendComponent_id (number : Int) :
    amendComponent comp (4, numberField "id" (.int number)) = .ok { comp with id := .int number } := by
  have present : Holds "id:" (numberField "id" (.int number)) := by
    simp [Holds, numberField, List.infix_cons_iff]
  rw [amendComponent, componentChange, if_pos ⟨present, rfl⟩, valueInt_numberField (by decide)]
  rfl

theorem amendComponent_requires : amendComponent comp (4, "requires:".toList) = .ok comp := by
  rw [amendComponent, componentChange, if_neg (by decide), if_neg (by decide), if_neg (by decide),
    if_neg (by decide), if_pos (by decide)]
  rfl

theorem holds_nameItem_iff {word name : String} (letters : '-' ∉ word.toList ∧ ' ' ∉ word.toList ∧
    '"' ∉ word.toList) : Holds word (nameItem name) ↔ Holds word name.toList := by
  obtain ⟨dash, space, quote⟩ := letters
  rw [Holds, nameItem, Text.quoted, Text.infix_cons_iff_of_not_mem dash,
    Text.infix_cons_iff_of_not_mem space, Text.infix_cons_iff_of_not_mem quote,
    Text.infix_concat_iff_of_not_mem quote, Holds]

theorem exists_valueText {content : Text} (colon : ':' ∈ content) :
    ∃ value, valueText content = .ok value := by
  obtain ⟨key, rest, rfl, absent⟩ := List.eq_append_cons_of_mem colon
  exact ⟨_, by rw [valueText, partAfter_append absent]; rfl⟩

theorem amendComponent_nameItem (comp : ComponentConf) (name : String) :
    ∃ model, amendComponent comp (6, nameItem name) =
      if Holds "model:" name.toList then .ok { comp with model := model }
      else if Holds "provides:" name.toList ∨ Holds "requires:" name.toList then .ok comp
      else .ok { comp with requires := comp.requires ++ [readBack '-' name] } := by
  have deep : ¬ (Holds "id:" (nameItem name) ∧ 6 = 4) := fun both => absurd both.2 (by decide)
  have noBrace : startsWith "- \x7b name:" (nameItem name) = false := by
    simp [startsWith, nameItem, List.isPrefixOf, Text.quoted]
  have dash : startsWith "- " (nameItem name) = true := by
    simp [startsWith, nameItem, List.isPrefixOf]
  have part : partAfter '-' (nameItem name) =
      .ok ((' ' :: Text.quoted name.toList).takeWhile (· ≠ '-')) :=
    @partAfter_append '-' [] _ (by simp)
  have model_iff := @holds_nameItem_iff "model:" name (by decide)
  have provides_iff := @holds_nameItem_iff "provides:" name (by decide)
  have requires_iff := @holds_nameItem_iff "requires:" name (by decide)
  unfold amendComponent componentChange
  rw [if_neg deep]
  by_cases model : Holds "model:" name.toList
  · obtain ⟨value, read⟩ := exists_valueText ((model_iff.mpr model).subset (by decide))
    refine ⟨some value, ?_⟩
    rw [if_pos (model_iff.mpr model), if_pos model, read]
    rfl
  · refine ⟨none, ?_⟩
    rw [if_neg (mt model_iff.mp model), if_neg model]
    by_cases provides : Holds "provides:" name.toList
    · rw [if_pos (provides_iff.mpr provides), if_pos (.inl provides)]
      rfl
    · rw [if_neg (mt provides_iff.mp provides), if_neg (by simp [noBrace])]
      by_cases requires : Holds "requires:" name.toList
      · rw [if_pos (requires_iff.mpr requires), if_pos (.inr requires)]
        rfl
      · rw [if_neg (mt requires_iff.mp requires), if_pos ⟨dash, (by decide : 4 < 6)⟩, part,
          if_neg (not_or.mpr ⟨provides, requires⟩)]
        rfl

theorem foldlM_nameItems {names : List String} (quotable : ∀ name ∈ names, Quotable name)
    (kept : ∀ name ∈ names, RequireKept name) (comp : ComponentConf) :
    (names.map fun name => ((6, nameItem name) : Line)).foldlM amendComponent comp =
      .ok { comp with requires := comp.requires ++ names } := by
  induction names generalizing comp with
  | nil => simp [pure, Except.pure]
  | cons name names ih =>
      have first := kept name List.mem_cons_self
      have same := (readBack_eq_self_iff (quotable name List.mem_cons_self) (by decide)
        (by decide)).mpr first.noDash
      obtain ⟨model, read⟩ := amendComponent_nameItem comp name
      rw [if_neg first.noModel, if_neg (not_or.mpr ⟨first.noProvides, first.noRequires⟩), same]
        at read
      rw [List.map_cons, List.foldlM_cons, read]
      refine (ih (fun later member => quotable later (List.mem_cons_of_mem _ member))
        (fun later member => kept later (List.mem_cons_of_mem _ member)) _).trans ?_
      simp

/-- Names add at most one each, and they are all added only if they are all kept. -/
theorem kept_of_foldlM_nameItems {names : List String}
    (quotable : ∀ name ∈ names, Quotable name) {comp read : ComponentConf}
    (done : (names.map fun name => ((6, nameItem name) : Line)).foldlM amendComponent comp =
      .ok read) :
    ∃ added, read.requires = comp.requires ++ added ∧ added.length ≤ names.length ∧
      (added = names → ∀ name ∈ names, RequireKept name) := by
  induction names generalizing comp with
  | nil =>
      obtain rfl := Except.ok.inj done
      exact ⟨[], by simp, by simp, by simp⟩
  | cons name names ih =>
      rw [List.map_cons, List.foldlM_cons] at done
      obtain ⟨next, here, done⟩ := bind_eq_ok_iff.mp done
      obtain ⟨added, same, short, all⟩ :=
        ih (fun later member => quotable later (List.mem_cons_of_mem _ member)) done
      obtain ⟨model, read_eq⟩ := amendComponent_nameItem comp name
      rw [read_eq] at here
      have dropped : next.requires = comp.requires → ∃ added, read.requires = comp.requires ++ added ∧
          added.length ≤ (name :: names).length ∧
          (added = name :: names → ∀ required ∈ name :: names, RequireKept required) := by
        intro unchanged
        refine ⟨added, by rw [same, unchanged], short.trans (Nat.le_succ _), fun whole => ?_⟩
        rw [whole, List.length_cons] at short
        omega
      split at here
      · obtain rfl := Except.ok.inj here
        exact dropped rfl
      split at here
      · obtain rfl := Except.ok.inj here
        exact dropped rfl
      · rename_i noModel others
        obtain rfl := Except.ok.inj here
        refine ⟨readBack '-' name :: added, by rw [same]; simp, by simpa using short, ?_⟩
        intro whole
        obtain ⟨first, rest⟩ := List.cons.inj whole
        have noDash := (readBack_eq_self_iff (quotable name List.mem_cons_self) (by decide)
          (by decide)).mp first
        obtain ⟨noProvides, noRequires⟩ := not_or.mp others
        exact List.forall_mem_cons.mpr ⟨⟨noDash, noModel, noProvides, noRequires⟩, all rest⟩

theorem foldlM_requires (comp : ComponentConf) (names : List String) :
    (under 4 "requires:" (names.map fun name => (6, nameItem name))).foldlM amendComponent comp =
      (names.map fun name => ((6, nameItem name) : Line)).foldlM amendComponent comp := by
  unfold under
  split
  · rename_i empty
    rw [empty]
  · rw [List.foldlM_cons, amendComponent_requires]
    rfl

/-- A component without services is read as it is exactly if its names are kept. -/
theorem componentRead_eq_self_iff (name : Written comp.name) (model : Written comp.model)
    (id : comp.id.Numeric) (quotable : ∀ name ∈ comp.requires, Quotable name)
    (nothing : comp.provides = []) : componentRead comp = .ok comp ↔ ComponentKept comp := by
  rw [componentRead, componentFields_of_provides nothing, List.foldlM_cons]
  obtain ⟨compName, compId, compModel, provides, requires⟩ := comp
  obtain ⟨nameText, rfl, nameQuotable⟩ := name
  obtain ⟨modelText, rfl, modelQuotable⟩ := model
  obtain ⟨number, rfl⟩ := id
  obtain rfl : provides = [] := nothing
  have name_iff := @readBack_eq_self_iff ':' nameText nameQuotable (by decide) (by decide)
  have model_iff := @readBack_eq_self_iff ':' modelText modelQuotable (by decide) (by decide)
  constructor
  · intro done
    obtain ⟨modelled, first, done⟩ := bind_eq_ok_iff.mp done
    obtain rfl := amendComponent_model_of_ok first
    rw [List.foldlM_cons, amendComponent_id] at done
    have done := (foldlM_requires _ requires).symm.trans done
    obtain ⟨added, same, -, all⟩ := kept_of_foldlM_nameItems quotable done
    have kept := all (by simpa [namedComponent] using same.symm)
    have whole := Except.ok.inj ((foldlM_nameItems quotable kept _).symm.trans done)
    obtain ⟨name_eq, -, model_eq, -⟩ := ComponentConf.mk.inj whole
    exact ⟨name_iff.mp (Option.some.inj name_eq), model_iff.mp (Option.some.inj model_eq), rfl, kept⟩
  · intro kept
    rw [← List.foldlM_cons]
    refine (foldlM_cons_of_ok (amendComponent_model kept.model)).trans ?_
    refine (foldlM_cons_of_ok (amendComponent_id number)).trans ?_
    refine ((foldlM_requires _ requires).trans (foldlM_nameItems quotable kept.requires _)).trans ?_
    have name_eq := name_iff.mpr kept.name
    have model_eq := model_iff.mpr kept.model
    simp [namedComponent, textOf, name_eq, model_eq]

end Components

/-! ## Models -/

/-- What is read of a model. -/
def modelRead (model : ModelConf) : ModelConf :=
  ⟨some (readBack ':' (textOf model.name)), some (readBack ':' (textOf model.lib))⟩

theorem readModels_block (model : ModelConf) (models : List ModelConf) :
    (modelLines model).foldlM (fun models line => readModels line.2 models) models =
      .ok (models ++ [modelRead model]) := by
  have named : readModels (textField "- name" model.name) models =
      .ok (models ++ [⟨some (readBack ':' (textOf model.name)), some ""⟩]) := by
    rw [readModels, if_pos (startsWith_nameField _), valueText_textField (by decide)]
    rfl
  have noName : startsWith "- name:" (textField "lib" model.lib) = false := by
    simp [startsWith, textField, List.isPrefixOf]
  have present : Holds "lib:" (textField "lib" model.lib) := by
    simp [Holds, textField, List.infix_cons_iff]
  refine (foldlM_cons_of_ok named).trans (foldlM_cons_of_ok ?_)
  rw [readModels, if_neg (by simp [noName]), if_pos present, valueText_textField (by decide)]
  exact onLast_concat _ models _

theorem modelRead_eq_self_iff {model : ModelConf} (name : Written model.name)
    (lib : Written model.lib) : modelRead model = model ↔
      ':' ∉ (textOf model.name).toList ∧ ':' ∉ (textOf model.lib).toList := by
  obtain ⟨modelName, modelLib⟩ := model
  obtain ⟨nameText, rfl, nameQuotable⟩ := name
  obtain ⟨libText, rfl, libQuotable⟩ := lib
  have name_iff := @readBack_eq_self_iff ':' nameText nameQuotable (by decide) (by decide)
  have lib_iff := @readBack_eq_self_iff ':' libText libQuotable (by decide) (by decide)
  simp [modelRead, textOf, name_iff, lib_iff]

/-! ## Profiles -/

theorem binEntry_append {key value : Text} (absent : ':' ∉ key) (absent' : ':' ∉ value) :
    binEntry (key ++ ':' :: value) =
      (toInt value).map fun number => (Text.strip key, number) := by
  rw [binEntry, List.splitOn_append_cons_self_of_not_mem absent, List.splitOn_eq_singleton absent']

/-- Of the braces around an item only the closing one is stripped. -/
theorem stripWhere_inBraces (inner : Text) :
    Text.stripWhere (fun letter => letter == '{' || letter == '}') (Text.strip (inBraces inner)) =
      '-' :: ' ' :: '{' :: ' ' :: (inner ++ [' ']) := by
  have trimmed : Text.Trimmed (inBraces inner) := (plain_inBraces 0 inner).trimmed
  have split : inBraces inner = (('-' :: ' ' :: '{' :: ' ' :: inner) ++ [' ']) ++ ['}'] := by
    simp [inBraces]
  rw [trimmed.strip_eq, Text.stripWhere, inBraces, List.dropWhile_cons_of_neg (by decide),
    ← inBraces, split, List.rdropWhile_concat_pos _ _ _ (by decide),
    List.rdropWhile_concat_neg _ _ _ (by decide)]
  rfl

/-- The number under a key, with spaces around the key and the number. -/
theorem binEntry_number {before key : Text} (number : Int) {after : Text}
    (spaces : ∀ letter ∈ before, letter = ' ') (trimmed : Text.Trimmed key) (absent : ':' ∉ key)
    (spaces' : ∀ letter ∈ after, letter = ' ') :
    binEntry ((before ++ key) ++ ':' :: ' ' :: ((toString number).toList ++ after)) =
      .ok (key, number) := by
  have blank : ∀ letter ∈ before, Text.isSpace letter = true := by
    intro letter member
    rw [spaces letter member]
    decide
  have blank' : ∀ letter ∈ after, Text.isSpace letter = true := by
    intro letter member
    rw [spaces' letter member]
    decide
  have value : toInt (' ' :: ((toString number).toList ++ after)) = .ok number :=
    @toInt_padded number [' '] after isSpace_of_mem_space blank'
  have stripped : Text.strip (before ++ key) = key := by
    simpa using @Text.Trimmed.strip_padded before key [] trimmed blank (by simp)
  have plain : ':' ∉ before ++ key := by
    rw [List.mem_append]
    rintro (space | inside)
    · exact absurd (spaces _ space) (by decide)
    · exact absent inside
  have plain' : ':' ∉ ' ' :: ((toString number).toList ++ after) := by
    rw [List.mem_cons, List.mem_append]
    rintro (space | digit | space)
    · exact absurd space (by decide)
    · exact not_mem_toString (by decide) (by decide) digit
    · exact absurd (spaces' _ space) (by decide)
  rw [binEntry_append plain plain', value, stripped]
  rfl

/-- The size of a bin is lost, because the dash and the brace become part of its key. -/
theorem binOf_binItem (pad : BinConf → Nat) (size count : Int) :
    binOf (binItem pad ⟨.int size, .int count⟩) = .ok ⟨.other "None", .int count⟩ := by
  set spaces := List.replicate (pad ⟨.int size, .int count⟩ + 1) ' ' with spaces_eq
  have blank : ∀ letter ∈ spaces, letter = ' ' := fun letter => List.eq_of_mem_replicate
  let first : Text :=
    ([] ++ ['-', ' ', '{', ' ', 's', 'i', 'z', 'e']) ++ ':' :: ' ' :: ((toString size).toList ++ [])
  let second : Text :=
    (spaces ++ ['c', 'o', 'u', 'n', 't']) ++ ':' :: ' ' :: ((toString count).toList ++ [' '])
  have inner : Text.stripWhere (fun letter => letter == '{' || letter == '}')
      (Text.strip (binItem pad ⟨.int size, .int count⟩)) = first ++ ',' :: second := by
    rw [binItem, stripWhere_inBraces]
    simp [numberField, Scalar.text, first, second, spaces_eq]
  have read : binEntry first = .ok (['-', ' ', '{', ' ', 's', 'i', 'z', 'e'], size) :=
    binEntry_number size (by simp)
      ⟨⟨'-', _, rfl, by decide⟩, ⟨['-', ' ', '{', ' ', 's', 'i', 'z'], 'e', rfl, by decide⟩⟩
      (by decide) (by simp)
  have read' : binEntry second = .ok (['c', 'o', 'u', 'n', 't'], count) :=
    binEntry_number count blank
      ⟨⟨'c', _, rfl, by decide⟩, ⟨['c', 'o', 'u', 'n'], 't', rfl, by decide⟩⟩ (by decide) (by simp)
  have noComma : ',' ∉ first := by
    have digits := @not_mem_toString size ',' (by decide) (by decide)
    simpa [first] using digits
  have noComma' : ',' ∉ second := by
    have digits := @not_mem_toString count ',' (by decide) (by decide)
    simpa [second, spaces_eq] using digits
  have entries : [first, second].mapM binEntry =
      .ok [(['-', ' ', '{', ' ', 's', 'i', 'z', 'e'], size), (['c', 'o', 'u', 'n', 't'], count)] := by
    rw [mapM_eq_ok_iff, List.map_cons, List.map_cons, read, read']
    rfl
  dsimp only [binOf]
  rw [inner, List.splitOn_append_cons_self_of_not_mem noComma, List.splitOn_eq_singleton noComma',
    entries]
  rfl

/-- What is read of a bin. -/
def binRead (bin : BinConf) : BinConf := ⟨.other "None", bin.count⟩

/-- What is read of a profile. -/
def profileRead (profile : ProfileConf) : ProfileConf :=
  ⟨some (readBack ':' (textOf profile.name)), profile.bins.map binRead⟩

theorem readProfiles_binItem (pad : BinConf → Nat) {bin : BinConf} (size : bin.size.Numeric)
    (count : bin.count.Numeric) (profiles : List ProfileConf) (profile : ProfileConf) :
    readProfiles (binItem pad bin) (profiles ++ [profile]) =
      .ok (profiles ++ [{ profile with bins := profile.bins ++ [binRead bin] }]) := by
  obtain ⟨binSize, binCount⟩ := bin
  obtain ⟨size, rfl⟩ := size
  obtain ⟨count, rfl⟩ := count
  have noName : startsWith "- name:" (binItem pad ⟨.int size, .int count⟩) = false := by
    simp [startsWith, binItem, inBraces, List.isPrefixOf]
  have present : Holds "size:" (binItem pad ⟨.int size, .int count⟩) := by
    simp [Holds, binItem, inBraces, numberField, List.infix_cons_iff]
  rw [readProfiles, if_neg (by simp [noName]), if_pos present, binOf_binItem]
  exact onLast_concat _ profiles profile

theorem foldlM_binItems (pad : BinConf → Nat) {bins : List BinConf}
    (numeric : ∀ bin ∈ bins, bin.size.Numeric ∧ bin.count.Numeric) (profiles : List ProfileConf)
    (profile : ProfileConf) :
    (bins.map fun bin => ((6, binItem pad bin) : Line)).foldlM
        (fun profiles line => readProfiles line.2 profiles) (profiles ++ [profile]) =
      .ok (profiles ++ [{ profile with bins := profile.bins ++ bins.map binRead }]) := by
  induction bins generalizing profile with
  | nil => simp [pure, Except.pure]
  | cons bin bins ih =>
      obtain ⟨size, count⟩ := numeric bin List.mem_cons_self
      rw [List.map_cons, List.foldlM_cons, readProfiles_binItem pad size count profiles profile]
      refine (ih (fun later member => numeric later (List.mem_cons_of_mem _ member)) _).trans ?_
      simp

theorem readProfiles_block (pad : BinConf → Nat) {profile : ProfileConf}
    (numeric : ∀ bin ∈ profile.bins, bin.size.Numeric ∧ bin.count.Numeric)
    (profiles : List ProfileConf) :
    (profileLines pad profile).foldlM (fun profiles line => readProfiles line.2 profiles) profiles =
      .ok (profiles ++ [profileRead profile]) := by
  have named : readProfiles (textField "- name" profile.name) profiles =
      .ok (profiles ++ [⟨some (readBack ':' (textOf profile.name)), []⟩]) := by
    rw [readProfiles, if_pos (startsWith_nameField _), valueText_textField (by decide)]
    rfl
  have skipped : ∀ profiles, readProfiles "bins:".toList profiles = .ok profiles := by
    intro profiles
    rw [readProfiles, if_neg (by decide), if_neg (by decide)]
  refine (foldlM_cons_of_ok named).trans ?_
  have bins := foldlM_binItems pad numeric profiles ⟨some (readBack ':' (textOf profile.name)), []⟩
  unfold under
  split
  · rename_i empty
    rw [empty] at bins
    exact bins
  · exact (foldlM_cons_of_ok (skipped _)).trans bins

theorem profileRead_ne_self {profile : ProfileConf} (nonempty : profile.bins ≠ [])
    (numeric : ∀ bin ∈ profile.bins, bin.size.Numeric) : profileRead profile ≠ profile := by
  intro same
  obtain ⟨bin, member⟩ := List.exists_mem_of_ne_nil _ nonempty
  have bins : profile.bins.map binRead = profile.bins := congrArg ProfileConf.bins same
  rw [← bins] at member
  obtain ⟨bin', -, rfl⟩ := List.mem_map.mp member
  obtain ⟨number, size⟩ := numeric (binRead bin') (bins ▸ member)
  cases size

/-! ## The platform -/

/-- The services of the platform are not indented far enough. -/
theorem readPlatform_lines (services : List ServiceConf) (read : List ServiceConf) :
    (under 2 "provides:" (services.map fun svc => (4, serviceItem svc))).foldlM
      (fun read line => readPlatform line.1 line.2 read) read = .ok read := by
  have each : ∀ line ∈ under 2 "provides:" (services.map fun svc => (4, serviceItem svc)),
      readPlatform line.1 line.2 read = .ok read := by
    intro line member
    rcases mem_under member with rfl | listed
    · rw [readPlatform, if_neg (by decide)]
    · obtain ⟨svc, -, rfl⟩ := List.mem_map.mp listed
      rw [readPlatform, if_neg (fun both => absurd both.2 (by decide : ¬ 4 < 4))]
  generalize under 2 "provides:" (services.map fun svc => (4, serviceItem svc)) = lines at each
  induction lines with
  | nil => rfl
  | cons line lines ih =>
      exact (foldlM_cons_of_ok (each line List.mem_cons_self)).trans
        (ih fun later member => each later (List.mem_cons_of_mem _ member))

/-! ## A whole file -/

section File

variable {data : ConfigData} {pad : BinConf → Nat}

/-- A line of a section stands for itself and chooses no mode. -/
structure Line.Ordinary (line : Line) : Prop where
  plain : line.Plain
  noHeader : header line.2 = none

theorem ordinary_of_ends {line : Line} (plain : line.Plain) {last : Char}
    (final : line.2.getLast? = some last) (other : last ≠ ':') : line.Ordinary :=
  ⟨plain, header_eq_none final other⟩

theorem ordinary_textField {depth : Nat} {key : String} {value : Option String} {first : Char}
    (head : key.toList.head? = some first) (kept : Text.isSpace first = false)
    (comment : first ≠ '#') : Line.Ordinary (depth, textField key value) :=
  ordinary_of_ends (plain_textField head kept comment) (getLast?_textField key value) (by decide)

theorem ordinary_numberField {depth : Nat} {key : String} {value : Scalar} {first : Char}
    (head : key.toList.head? = some first) (kept : Text.isSpace first = false)
    (comment : first ≠ '#') (numeric : value.Numeric) :
    Line.Ordinary (depth, numberField key value) := by
  obtain ⟨number, rfl⟩ := numeric
  obtain ⟨rest, letter, same, kept'⟩ := (Text.trimmed_toString number).last
  have written : (Scalar.int number).text.toList = rest ++ [letter] := same
  have final : (numberField key (.int number)).getLast? = some letter := by
    rw [numberField, written]
    simp [List.getLast?_append, List.getLast?_cons]
  have other : letter ≠ ':' := by
    rintro rfl
    exact @not_mem_toString number ':' (by decide) (by decide) (by rw [same]; simp)
  refine ordinary_of_ends (Line.plain_of_ends ?_ final kept comment kept') final other
  rw [numberField, List.head?_append, head]
  rfl

theorem ordinary_inBraces (depth : Nat) (inner : Text) : Line.Ordinary (depth, inBraces inner) := by
  refine ordinary_of_ends (plain_inBraces depth inner) ?_ (by decide : '}' ≠ ':')
  simp [inBraces, List.getLast?_cons, List.getLast?_append]

theorem ordinary_key {depth : Nat} {key : String} {first : Char}
    (head : key.toList.head? = some first) (final : key.toList.getLast? = some ':')
    (kept : Text.isSpace first = false) (comment : first ≠ '#') (noHeader : header key.toList = none) :
    Line.Ordinary (depth, key.toList) :=
  ⟨Line.plain_of_ends head final kept comment (by decide), noHeader⟩

theorem ordinary_under {depth : Nat} {key : String} {lines : List Line}
    (opening : Line.Ordinary (depth, key.toList)) (each : ∀ line ∈ lines, line.Ordinary) :
    ∀ line ∈ under depth key lines, line.Ordinary := by
  intro line member
  rcases mem_under member with rfl | listed
  · exact opening
  · exact each line listed

theorem ordinary_platform (services : List ServiceConf) :
    ∀ line ∈ under 2 "provides:" (services.map fun svc => ((4, serviceItem svc) : Line)),
      line.Ordinary := by
  refine ordinary_under (ordinary_key rfl rfl (by decide) (by decide) (by decide)) ?_
  intro line member
  obtain ⟨svc, -, rfl⟩ := List.mem_map.mp member
  exact ordinary_inBraces 4 _

theorem ordinary_component {comp : ComponentConf} (nothing : comp.provides = [])
    (id : comp.id.Numeric) : ∀ line ∈ componentLines comp, line.Ordinary := by
  intro line member
  rw [componentLines, componentFields_of_provides nothing, List.mem_cons, List.mem_cons,
    List.mem_cons] at member
  rcases member with rfl | rfl | rfl | required
  · exact ordinary_textField rfl (by decide) (by decide)
  · exact ordinary_textField rfl (by decide) (by decide)
  · exact ordinary_numberField rfl (by decide) (by decide) id
  · refine ordinary_under (ordinary_key rfl rfl (by decide) (by decide) (by decide)) ?_ line required
    intro line member
    obtain ⟨name, -, rfl⟩ := List.mem_map.mp member
    refine ordinary_of_ends (plain_nameItem 6 name) ?_ (by decide : '"' ≠ ':')
    simp [nameItem, Text.quoted, List.getLast?_cons]

theorem ordinary_model (model : ModelConf) : ∀ line ∈ modelLines model, line.Ordinary := by
  intro line member
  rw [modelLines, List.mem_cons, List.mem_singleton] at member
  rcases member with rfl | rfl
  · exact ordinary_textField rfl (by decide) (by decide)
  · exact ordinary_textField rfl (by decide) (by decide)

theorem ordinary_profile (pad : BinConf → Nat) (profile : ProfileConf) :
    ∀ line ∈ profileLines pad profile, line.Ordinary := by
  intro line member
  rcases List.mem_cons.mp member with rfl | listed
  · exact ordinary_textField rfl (by decide) (by decide)
  · refine ordinary_under (ordinary_key rfl rfl (by decide) (by decide) (by decide)) ?_ line listed
    intro line member
    obtain ⟨bin, -, rfl⟩ := List.mem_map.mp member
    exact ordinary_inBraces 6 _

/-- A line without its indentation is read. -/
def readStep (state : Parsing) (line : Line) : Except Raised Parsing :=
  readContent state line.1 line.2

theorem foldlM_platform (services : List ServiceConf) (before : Option Mode) :
    ∃ after, (under 0 "platform:" (under 2 "provides:"
        (services.map fun svc => (4, serviceItem svc)))).foldlM readStep ⟨.empty, before⟩ =
      .ok ⟨.empty, after⟩ := by
  obtain ⟨after, same⟩ := @foldlM_under _ .platform
    (fun services line => readPlatform line.1 line.2 services)
    (fun services => ⟨[], [], [], [], services⟩)
    (fun items line plain => by rw [readContent, plain]) "platform:" (by decide) _
    (fun line member => (ordinary_platform services line member).noHeader) [] before
  rw [readPlatform_lines] at same
  exact ⟨after, same⟩

theorem foldlM_components {comps : List ComponentConf}
    (nothing : ∀ comp ∈ comps, comp.provides = []) (ids : ∀ comp ∈ comps, comp.id.Numeric)
    (before : Option Mode) :
    ∃ after, (under 0 "components:" (comps.flatMap componentLines)).foldlM readStep
        ⟨.empty, before⟩ =
      (comps.mapM componentRead).map fun read => ⟨⟨[], read, [], [], []⟩, after⟩ := by
  have plain : ∀ line ∈ comps.flatMap componentLines, header line.2 = none := by
    intro line member
    obtain ⟨comp, inside, listed⟩ := List.mem_flatMap.mp member
    exact (ordinary_component (nothing comp inside) (ids comp inside) line listed).noHeader
  obtain ⟨after, same⟩ := @foldlM_under _ .components
    (fun comps line => readComponents line.1 line.2 comps)
    (fun comps => ⟨[], comps, [], [], []⟩)
    (fun items line plain => by rw [readContent, plain]) "components:" (by decide) _ plain [] before
  rw [foldlM_blocks fun comp member comps => readComponents_block (nothing comp member) comps] at same
  refine ⟨after, same.trans ?_⟩
  cases comps.mapM componentRead with
  | error failure => rfl
  | ok read => rfl

theorem foldlM_models (comps : List ComponentConf) (models : List ModelConf)
    (before : Option Mode) :
    ∃ after, (under 0 "models:" (models.flatMap modelLines)).foldlM readStep
        ⟨⟨[], comps, [], [], []⟩, before⟩ =
      .ok ⟨⟨[], comps, [], models.map modelRead, []⟩, after⟩ := by
  have plain : ∀ line ∈ models.flatMap modelLines, header line.2 = none := by
    intro line member
    obtain ⟨model, -, listed⟩ := List.mem_flatMap.mp member
    exact (ordinary_model model line listed).noHeader
  obtain ⟨after, same⟩ := @foldlM_under _ .models (fun models line => readModels line.2 models)
    (fun models => ⟨[], comps, [], models, []⟩)
    (fun items line plain => by rw [readContent, plain]) "models:" (by decide) _ plain [] before
  have blocks := @foldlM_blocks _ _ (fun models line => readModels line.2 models) modelLines
    (fun model => .ok (modelRead model)) models (fun model _ models => readModels_block model models)
    []
  have all : models.mapM (fun model => (.ok (modelRead model) : Except Raised ModelConf)) =
      .ok (models.map modelRead) := by
    rw [mapM_eq_ok_iff, List.map_map]
    rfl
  rw [blocks, all] at same
  exact ⟨after, same⟩

theorem foldlM_profiles (pad : BinConf → Nat) (comps : List ComponentConf) (models : List ModelConf)
    {profiles : List ProfileConf}
    (numeric : ∀ profile ∈ profiles, ∀ bin ∈ profile.bins, bin.size.Numeric ∧ bin.count.Numeric)
    (before : Option Mode) :
    ∃ after, (under 0 "profiles:" (profiles.flatMap (profileLines pad))).foldlM readStep
        ⟨⟨[], comps, [], models, []⟩, before⟩ =
      .ok ⟨⟨[], comps, profiles.map profileRead, models, []⟩, after⟩ := by
  have plain : ∀ line ∈ profiles.flatMap (profileLines pad), header line.2 = none := by
    intro line member
    obtain ⟨profile, -, listed⟩ := List.mem_flatMap.mp member
    exact (ordinary_profile pad profile line listed).noHeader
  obtain ⟨after, same⟩ := @foldlM_under _ .profiles
    (fun profiles line => readProfiles line.2 profiles)
    (fun profiles => ⟨[], comps, profiles, models, []⟩)
    (fun items line plain => by rw [readContent, plain]) "profiles:" (by decide) _ plain [] before
  have blocks := @foldlM_blocks _ _ (fun profiles line => readProfiles line.2 profiles)
    (profileLines pad) (fun profile => .ok (profileRead profile)) profiles
    (fun profile member profiles => readProfiles_block pad (numeric profile member) profiles) []
  have all : profiles.mapM (fun profile => (.ok (profileRead profile) : Except Raised ProfileConf)) =
      .ok (profiles.map profileRead) := by
    rw [mapM_eq_ok_iff, List.map_map]
    rfl
  rw [blocks, all] at same
  exact ⟨after, same⟩

/-- The lines of a file without nodes and without services of components. -/
theorem plain_contentLines (layout : InLayout data) (nodes : data.nodes = [])
    (nothing : ∀ comp ∈ data.components, comp.provides = []) :
    ∀ line ∈ contentLines pad data, line.Plain := by
  have opened : ∀ {key : String} {lines : List Line} {first : Char},
      key.toList.head? = some first → key.toList.getLast? = some ':' →
      Text.isSpace first = false → first ≠ '#' → (∀ line ∈ lines, line.Ordinary) →
      ∀ line ∈ under 0 key lines, line.Plain := by
    intro key lines first head final kept comment each line member
    rcases mem_under member with rfl | listed
    · exact Line.plain_of_ends head final kept comment (by decide)
    · exact (each line listed).plain
  rw [contentLines, nodes]
  simp only [List.forall_mem_append]
  refine ⟨⟨⟨⟨?_, ?_⟩, ?_⟩, ?_⟩, fun line member => absurd member List.not_mem_nil⟩
  · exact opened rfl rfl (by decide) (by decide) (ordinary_platform data.platform)
  · refine opened rfl rfl (by decide) (by decide) fun line member => ?_
    obtain ⟨comp, inside, listed⟩ := List.mem_flatMap.mp member
    exact ordinary_component (nothing comp inside) (layout.components comp inside).2.2.1 line listed
  · refine opened rfl rfl (by decide) (by decide) fun line member => ?_
    obtain ⟨model, -, listed⟩ := List.mem_flatMap.mp member
    exact ordinary_model model line listed
  · refine opened rfl rfl (by decide) (by decide) fun line member => ?_
    obtain ⟨profile, -, listed⟩ := List.mem_flatMap.mp member
    exact ordinary_profile pad profile line listed

/-- What is read of a file without nodes and without services of components. -/
theorem parseYamlFallback_render (layout : InLayout data) (nodes : data.nodes = [])
    (nothing : ∀ comp ∈ data.components, comp.provides = []) {lines : List Text}
    (renders : Renders lines pad data) :
    parseYamlFallback (some lines) =
      (data.components.mapM componentRead).map fun comps =>
        ⟨[], comps, data.profiles.map profileRead, data.models.map modelRead, []⟩ := by
  obtain ⟨mode₁, platform⟩ := foldlM_platform data.platform none
  obtain ⟨mode₂, components⟩ := foldlM_components nothing
    (fun comp member => (layout.components comp member).2.2.1) mode₁
  have contents : contentLines pad data =
      under 0 "platform:" (under 2 "provides:" (data.platform.map fun svc => (4, serviceItem svc))) ++
        (under 0 "components:" (data.components.flatMap componentLines) ++
          (under 0 "models:" (data.models.flatMap modelLines) ++
            under 0 "profiles:" (data.profiles.flatMap (profileLines pad)))) := by
    rw [contentLines, nodes, List.append_assoc, List.append_assoc, List.append_assoc]
    exact congrArg _ (congrArg _ (congrArg _ (List.append_nil _)))
  have skipped : parseYamlFallback (some lines) =
      ((contentLines pad data).foldlM readStep ⟨.empty, none⟩).map (·.data) := by
    rw [parseYamlFallback, foldlM_readLine_filter, renders, render,
      foldlM_readLine_indented (plain_contentLines layout nodes nothing)]
    rfl
  rw [skipped, contents, foldlM_append_of_ok platform]
  cases read : data.components.mapM componentRead with
  | error failure =>
      rw [read] at components
      rw [List.foldlM_append, components]
      rfl
  | ok comps =>
      rw [read] at components
      obtain ⟨mode₃, models⟩ := foldlM_models comps data.models mode₂
      obtain ⟨mode₄, profiles⟩ := foldlM_profiles pad comps (data.models.map modelRead)
        (fun profile member => (layout.profiles profile member).2.2) mode₃
      rw [foldlM_append_of_ok components, foldlM_append_of_ok models, profiles]
      rfl

/-- A file in the layout is read as the configuration it was written for exactly if there are no
nodes, no services and no profiles in it, and no name with a character that it is split at. -/
theorem parseYamlFallback_eq_self_iff {data : ConfigData} (layout : InLayout data)
    {pad : BinConf → Nat} {lines : List Text} (renders : Renders lines pad data) :
    parseYamlFallback (some lines) = .ok data ↔ Kept data := by
  have typed : Lossy data → data.nodes = [] ∧ ∀ comp ∈ data.components, comp.provides = [] := by
    intro lossy
    constructor
    · rw [List.eq_nil_iff_forall_not_mem]
      intro node member
      exact (layout.nodes node member).2.2.2.2.1 (lossy.threads node member)
    · intro comp member
      rw [List.eq_nil_iff_forall_not_mem]
      intro svc provided
      have listed : svc ∈ data.services :=
        List.mem_append_right _ (List.mem_flatMap.mpr ⟨comp, member, provided⟩)
      obtain ⟨type, given, -⟩ := (layout.services svc listed).2.2
      rw [lossy.types comp member svc provided] at given
      cases given
  constructor
  · intro done
    obtain ⟨nodes, nothing⟩ := typed (parseYamlFallback_lossy done)
    rw [parseYamlFallback_render layout nodes nothing renders] at done
    obtain ⟨comps, read, same⟩ := map_eq_ok_iff.mp done
    have comps_eq : comps = data.components := congrArg ConfigData.components same
    have models_eq : data.models.map modelRead = data.models := congrArg ConfigData.models same
    have profiles_eq : data.profiles.map profileRead = data.profiles :=
      congrArg ConfigData.profiles same
    rw [comps_eq] at read
    refine ⟨nodes, (congrArg ConfigData.platform same).symm, ?_, fun comp member => ?_,
      fun model member => ?_⟩
    · rw [List.eq_nil_iff_forall_not_mem]
      intro profile member
      obtain ⟨-, nonempty, numeric⟩ := layout.profiles profile member
      exact profileRead_ne_self nonempty (fun bin inside => (numeric bin inside).1)
        (map_eq_self_iff.mp profiles_eq profile member)
    · obtain ⟨name, model, id, required⟩ := layout.components comp member
      exact (componentRead_eq_self_iff name model id required (nothing comp member)).mp
        (mapM_eq_self_iff.mp read comp member)
    · obtain ⟨name, lib⟩ := layout.models model member
      exact (modelRead_eq_self_iff name lib).mp (map_eq_self_iff.mp models_eq model member)
  · intro kept
    have nothing := fun comp member => (kept.components comp member).provides
    have comps : data.components.mapM componentRead = .ok data.components := by
      rw [mapM_eq_self_iff]
      intro comp member
      obtain ⟨name, model, id, required⟩ := layout.components comp member
      exact (componentRead_eq_self_iff name model id required (nothing comp member)).mpr
        (kept.components comp member)
    have models : data.models.map modelRead = data.models := by
      rw [map_eq_self_iff]
      intro model member
      obtain ⟨name, lib⟩ := layout.models model member
      exact (modelRead_eq_self_iff name lib).mpr (kept.models model member)
    rw [parseYamlFallback_render layout kept.nodes nothing renders, comps, models, kept.profiles]
    change Except.ok (ConfigData.mk [] data.components [] data.models []) = Except.ok data
    rw [← kept.nodes, ← kept.profiles, ← kept.platform]

end File

/-! ## Files of the repository -/

instance (letter : Char) : Decidable (IsQuotable letter) :=
  inferInstanceAs (Decidable (_ ∧ _ ∧ _ ∧ _ ∧ _ ∧ _))

instance (text : String) : Decidable (Quotable text) :=
  List.decidableBAll IsQuotable text.toList

theorem written_some {text : String} (quotable : Quotable text) : Written (some text) :=
  ⟨text, rfl, quotable⟩

/-- The models of two components. -/
def twoModels : ConfigData where
  nodes := []
  components := []
  profiles := []
  models := [⟨some "Model1", some "libcomp-1.so"⟩, ⟨some "Model2", some "libcomp-2.so"⟩]
  platform := []

/-- A file of models is read as it is. -/
theorem models_are_read :
    parseYamlFallback (some (render (fun _ => 0) twoModels)) = .ok twoModels := by
  have layout : InLayout twoModels := by
    refine ⟨by simp [twoModels], by simp [twoModels, ConfigData.services], ?_, by simp [twoModels],
      by simp [twoModels]⟩
    intro model member
    simp only [twoModels, List.mem_cons, List.not_mem_nil, or_false] at member
    rcases member with rfl | rfl
    · exact ⟨written_some (by decide), written_some (by decide)⟩
    · exact ⟨written_some (by decide), written_some (by decide)⟩
  have renders : Renders (render (fun _ => 0) twoModels) (fun _ => 0) twoModels := by
    unfold Renders
    decide +kernel
  refine (parseYamlFallback_eq_self_iff layout renders).mpr
    ⟨rfl, rfl, rfl, by simp [twoModels], by decide +kernel⟩

/-- A node of the repository. -/
def procA : ConfigData where
  nodes := [⟨some "ProcA", some "/tmp/nos_proc_A.sock", some "default",
    [⟨some "Worker-1", ["Comp-1", "Comp-3", "Comp-Ping", "Comp-RemotePing"]⟩,
      ⟨some "Worker-2", ["Comp-2", "Comp-5", "Comp-Pong"]⟩], some (.int 5000)⟩]
  components := []
  profiles := []
  models := []
  platform := []

/-- The lines of its file. -/
def procAFile : List String :=
  ["nodes:",
    "  - name: \"ProcA\"",
    "    uds_path: \"/tmp/nos_proc_A.sock\"",
    "    buffer_profile: \"default\"",
    "    busy_poll_cycles: 5000",
    "    threads:",
    "      - name: \"Worker-1\"",
    "        components: [\"Comp-1\", \"Comp-3\", \"Comp-Ping\", \"Comp-RemotePing\"]",
    "      - name: \"Worker-2\"",
    "        components: [\"Comp-2\", \"Comp-5\", \"Comp-Pong\"]"]

/-- The first thread of a node becomes a node without threads, and its list of components raises. -/
theorem procA_raises :
    InLayout procA ∧ Renders (procAFile.map String.toList) (fun _ => 0) procA ∧
      parseYamlFallback (some (procAFile.map String.toList)) = .error .indexError := by
  refine ⟨⟨by simp [procA], by simp [procA, ConfigData.services], by simp [procA], by simp [procA],
    ?_⟩, ?_, by decide +kernel⟩
  · intro node member
    obtain rfl := List.mem_singleton.mp member
    refine ⟨written_some (by decide), written_some (by decide), by decide, ?_, by decide, ?_⟩
    · intro cycles given
      exact ⟨5000, (Option.some.inj given).symm⟩
    · intro thread threaded
      simp only [List.mem_cons, List.not_mem_nil, or_false] at threaded
      rcases threaded with rfl | rfl
      · exact ⟨written_some (by decide), by decide⟩
      · exact ⟨written_some (by decide), by decide⟩
  · unfold Renders
    decide +kernel

end CodexNos.Config
