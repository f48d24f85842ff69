import CodexNos.Config.Placement
import CodexNos.Lib.Text
import Mathlib

/-!
# The macros of the header

`generate_header` writes one `#define` line for each component and each service, and the compiler
reads the file again.  The names of a line are rewritten to capital letters, digits and underscores,
so different names can have one macro, and a name that begins with a digit has none.
-/

namespace CodexNos.Config

open Lib

/-! ## Reading a header -/

/-- A character of an identifier. -/
def isWord (letter : Char) : Bool := letter.isAlphanum || letter = '_'

/-- The macro and the replacement of a line.  A word that begins with a digit is no identifier. -/
def readDefine (line : Text) : Option (Text × Text) :=
  if "#define ".toList.isPrefixOf line then
    let rest := (line.drop 8).dropWhile (· = ' ')
    match rest.takeWhile isWord with
    | [] => none
    | first :: word =>
        if first.isDigit then none
        else some (first :: word, Text.strip (rest.dropWhile isWord))
  else none

/-- The text of a file, `"\n".join(lines)`. -/
def fileText (lines : List String) : Text := ['\n'].intercalate (lines.map String.toList)

/-- The macros that a file defines, with their replacements. -/
def readHeader (text : Text) : List (Text × Text) := (text.splitOn '\n').filterMap readDefine

/-- No macro is defined twice by the lines of the components and the services, and the macro of each
of them is replaced by its own number. -/
structure Unambiguous (compIds svcIds : List (String × Scalar)) : Prop where
  once : ((readHeader (fileText (defineLines compIds ++ defineLines svcIds))).map Prod.fst).Nodup
  own : ∀ entry ∈ compIds ++ svcIds,
    dictGet (readHeader (fileText (generateHeader compIds svcIds))) (toCMacro entry.1).toList =
      some entry.2.text.toList

/-- The name begins with a digit. -/
def beginsWithDigit (name : String) : Bool := (name.toList.head?.map Char.isDigit).getD false

/-- The names of all components and services. -/
def ConfigData.macroNames (data : ConfigData) : List String :=
  data.components.map (fun comp => textOf comp.name) ++
    data.services.map fun svc => textOf svc.name

/-- The names have different macros, and none of them begins with a digit. -/
structure MacrosApart (data : ConfigData) : Prop where
  distinct : (data.macroNames.map toCMacro).Nodup
  identifiers : ∀ name ∈ data.macroNames, beginsWithDigit name = false

/-! ## Lines -/

theorem splitOn_fileText {lines : List String} (nonempty : lines ≠ []) :
    (fileText lines).splitOn '\n' = lines.flatMap fun line => line.toList.splitOn '\n' := by
  induction lines with
  | nil => exact absurd rfl nonempty
  | cons line lines ih =>
      cases lines with
      | nil => simp [fileText]
      | cons next lines =>
          have unfolded : fileText (line :: next :: lines) =
              line.toList ++ '\n' :: fileText (next :: lines) := by
            simp [fileText, List.intercalate]
          rw [unfolded, List.splitOn_append_cons_self, ih (List.cons_ne_nil _ _)]
          rfl

theorem readHeader_fileText (lines : List String) :
    readHeader (fileText lines) =
      lines.flatMap fun line => (line.toList.splitOn '\n').filterMap readDefine := by
  cases lines with
  | nil => rfl
  | cons line lines =>
      rw [readHeader, splitOn_fileText (List.cons_ne_nil _ _), List.filterMap_flatMap]

theorem readHeader_append (lines later : List String) :
    readHeader (fileText (lines ++ later)) =
      readHeader (fileText lines) ++ readHeader (fileText later) := by
  simp only [readHeader_fileText, List.flatMap_append]

/-! ## Macros -/

theorem not_isDigit_of_isUpper {letter : Char} (upper : letter.isUpper = true) :
    letter.isDigit = false := by
  simp only [Char.isUpper, Char.isDigit, ge_iff_le, Char.reduceVal, decide_eq_true_eq,
    Bool.and_eq_false_iff, decide_eq_false_iff_not, UInt32.le_iff_toNat_le,
    UInt32.reduceToNat] at upper ⊢
  omega

theorem not_isDigit_of_isLower {letter : Char} (lower : letter.isLower = true) :
    letter.isDigit = false := by
  simp only [Char.isLower, Char.isDigit, ge_iff_le, Char.reduceVal, Bool.and_eq_true,
    decide_eq_true_eq, Bool.and_eq_false_iff, decide_eq_false_iff_not, UInt32.le_iff_toNat_le,
    UInt32.reduceToNat] at lower ⊢
  omega

theorem isDigit_toUpper (letter : Char) : letter.toUpper.isDigit = letter.isDigit := by
  by_cases lower : letter.isLower
  · have upper : letter.toUpper.isUpper = true := by simp [Char.isAlpha, lower]
    rw [not_isDigit_of_isUpper upper, not_isDigit_of_isLower lower]
  · rw [Char.toUpper_eq_of_not_isLower lower]

theorem toList_toCMacro (name : String) : (toCMacro name).toList =
    name.toList.map fun letter => if letter.isAlphanum then letter.toUpper else '_' :=
  String.toList_ofList

theorem isWord_of_mem_toCMacro {name : String} {letter : Char}
    (member : letter ∈ (toCMacro name).toList) : isWord letter = true := by
  rw [toList_toCMacro] at member
  obtain ⟨written, -, rfl⟩ := List.mem_map.mp member
  by_cases plain : written.isAlphanum = true
  · rw [if_pos plain]
    have kept : written.toUpper.isAlphanum = true := by
      simpa [Char.isAlphanum, isDigit_toUpper] using plain
    simp [isWord, kept]
  · rw [if_neg plain]
    rfl

theorem beginsWithDigit_toCMacro (name : String) :
    beginsWithDigit (toCMacro name) = beginsWithDigit name := by
  unfold beginsWithDigit
  rw [toList_toCMacro]
  cases name.toList with
  | nil => rfl
  | cons letter rest =>
      by_cases plain : letter.isAlphanum = true
      · simp [plain, isDigit_toUpper]
      · have other : letter.isDigit = false := by
          simp only [Char.isAlphanum, Bool.or_eq_true, not_or] at plain
          simpa using plain.2
        simp [plain, other]

/-- The macro that the line of an entry defines. -/
def defineOf (entry : String × Scalar) : Option (Text × Text) :=
  if beginsWithDigit entry.1 then none
  else some ((toCMacro entry.1).toList, entry.2.text.toList)

/-- A number is written without spaces around it, on one line. -/
theorem Scalar.Positive.trimmed {value : Scalar} (positive : value.Positive) :
    Text.Trimmed value.text.toList ∧ '\n' ∉ value.text.toList := by
  obtain ⟨number, given, above⟩ := positive
  cases value with
  | int value =>
      refine ⟨Text.trimmed_toString value, fun member => ?_⟩
      have space := Text.isSpace_of_number (Text.mem_toString member)
      exact absurd space (by decide)
  | bool value =>
      cases value with
      | true => exact ⟨⟨⟨'T', _, rfl, rfl⟩, ⟨['T', 'r', 'u'], 'e', rfl, rfl⟩⟩, by decide⟩
      | false =>
          obtain rfl := Option.some.inj given
          exact absurd above (by decide)
  | other text => simp [toInt?] at given

theorem toList_line (entry : String × Scalar) :
    (s!"#define {padded (toCMacro entry.1)} {entry.2.text}").toList =
      "#define ".toList ++ ((toCMacro entry.1).toList ++
        ' ' :: (List.replicate (20 - (toCMacro entry.1).length) ' ' ++ entry.2.text.toList)) := by
  have gap : ∀ count : Nat, List.replicate count ' ' ++ ' ' :: entry.2.text.toList =
      ' ' :: (List.replicate count ' ' ++ entry.2.text.toList) := by
    intro count
    rw [← List.singleton_append, ← List.append_assoc, ← List.replicate_succ', List.replicate_succ,
      List.cons_append]
  have parts : (s!"#define {padded (toCMacro entry.1)} {entry.2.text}").toList =
      "#define ".toList ++ (padded (toCMacro entry.1)).toList ++ " ".toList ++
        entry.2.text.toList := by
    simp only [String.toList_append, toString]
  rw [parts, padded, String.toList_append, String.toList_ofList, ← gap]
  simp

theorem readDefine_append {first : Char} {word value : Text} (count : Nat)
    (words : ∀ letter ∈ first :: word, isWord letter = true) (trimmed : Text.Trimmed value) :
    readDefine ("#define ".toList ++
      ((first :: word) ++ ' ' :: (List.replicate count ' ' ++ value))) =
        if first.isDigit then none else some (first :: word, value) := by
  have start : first ≠ ' ' := by
    rintro rfl
    exact absurd (words ' ' List.mem_cons_self) (by decide)
  have taken : ((first :: word) ++ ' ' :: (List.replicate count ' ' ++ value)).takeWhile isWord =
      first :: word := by
    rw [List.takeWhile_append_of_pos words, List.takeWhile_cons_of_neg (by decide),
      List.append_nil]
  have left : ((first :: word) ++ ' ' :: (List.replicate count ' ' ++ value)).dropWhile isWord =
      ' ' :: (List.replicate count ' ' ++ value) := by
    rw [List.dropWhile_append_of_pos words, List.dropWhile_cons_of_neg (by decide)]
  have spaces : ∀ letter ∈ ' ' :: List.replicate count ' ', Text.isSpace letter = true := by
    intro letter member
    rcases List.mem_cons.mp member with rfl | member
    · decide
    · obtain rfl := List.eq_of_mem_replicate member
      decide
  have stripped : Text.strip (' ' :: (List.replicate count ' ' ++ value)) = value := by
    simpa using @Text.Trimmed.strip_padded _ value [] trimmed spaces (by simp)
  have shown : "#define ".toList.isPrefixOf ("#define ".toList ++
      ((first :: word) ++ ' ' :: (List.replicate count ' ' ++ value))) = true :=
    List.isPrefixOf_iff_prefix.mpr (List.prefix_append _ _)
  unfold readDefine
  rw [if_pos shown, List.drop_left' (by decide)]
  have whole : ((first :: word) ++ ' ' :: (List.replicate count ' ' ++ value)).dropWhile
      (fun letter => decide (letter = ' ')) =
        (first :: word) ++ ' ' :: (List.replicate count ' ' ++ value) := by
    rw [List.cons_append]
    exact List.dropWhile_cons_of_neg (by simpa using start)
  simp only [whole, taken, left, stripped]

theorem readDefine_line {entry : String × Scalar} (nonempty : entry.1 ≠ "")
    (positive : entry.2.Positive) :
    ((s!"#define {padded (toCMacro entry.1)} {entry.2.text}").toList.splitOn '\n').filterMap
      readDefine = (defineOf entry).toList := by
  obtain ⟨trimmed, single⟩ := positive.trimmed
  have words : ∀ letter ∈ (toCMacro entry.1).toList, isWord letter = true :=
    fun letter member => isWord_of_mem_toCMacro member
  have line : '\n' ∉ (s!"#define {padded (toCMacro entry.1)} {entry.2.text}").toList := by
    rw [toList_line]
    simp only [List.mem_append, List.mem_cons, List.mem_replicate, not_or, not_and]
    refine ⟨by decide, fun member => ?_, by decide, fun _ => by decide, single⟩
    exact absurd (words _ member) (by decide)
  have named : (toCMacro entry.1).toList ≠ [] := by
    rw [toList_toCMacro, ne_eq, List.map_eq_nil_iff, String.toList_eq_nil_iff]
    exact nonempty
  obtain ⟨first, word, spelled⟩ := List.exists_cons_of_ne_nil named
  have digits : beginsWithDigit entry.1 = first.isDigit := by
    rw [← beginsWithDigit_toCMacro, beginsWithDigit, spelled]
    rfl
  rw [List.splitOn_eq_singleton line, toList_line, defineOf, digits, spelled,
    List.filterMap_cons, List.filterMap_nil, readDefine_append _ (spelled ▸ words) trimmed]
  by_cases digit : first.isDigit = true
  · simp [digit]
  · simp [digit]

/-! ## The header -/

/-- The numbers of a table are positive, and its names are not empty. -/
def Named (ids : List (String × Scalar)) : Prop :=
  ∀ entry ∈ ids, entry.1 ≠ "" ∧ entry.2.Positive

theorem readHeader_defineLines {ids : List (String × Scalar)} (named : Named ids) :
    (readHeader (fileText (defineLines ids))).Perm (ids.filterMap defineOf) := by
  have sorted := List.perm_insertionSort
    (fun entry other : String × Scalar => sortKey entry.2 ≤ sortKey other.2) ids
  have read : readHeader (fileText (defineLines ids)) = (ids.insertionSort
      fun entry other => sortKey entry.2 ≤ sortKey other.2).filterMap defineOf := by
    rw [readHeader_fileText, defineLines, List.flatMap_map, List.filterMap_eq_flatMap_toList]
    refine List.flatMap_congr fun entry member => ?_
    obtain ⟨nonempty, positive⟩ := named entry (sorted.mem_iff.mp member)
    exact readDefine_line nonempty positive
  rw [read]
  exact sorted.filterMap _

/-- The macro of the include guard. -/
def guardMacro : Text × Text := ("__NOS_IDS_H__".toList, [])

/-- The header defines the macro of its include guard and those of the two tables. -/
theorem readHeader_generateHeader (compIds svcIds : List (String × Scalar)) :
    readHeader (fileText (generateHeader compIds svcIds)) =
      guardMacro :: readHeader (fileText (defineLines compIds ++ defineLines svcIds)) := by
  have top : readHeader (fileText ["#ifndef __NOS_IDS_H__", "#define __NOS_IDS_H__", "",
      "/* Component IDs */"]) = [guardMacro] := by decide
  have middle : readHeader (fileText ["\n/* Service IDs */"]) = [] := by decide
  have bottom : readHeader (fileText ["\n#endif"]) = [] := by decide
  rw [generateHeader, readHeader_append, readHeader_append, readHeader_append, readHeader_append,
    top, middle, bottom, readHeader_append]
  simp

theorem mem_of_dictGet {κ β : Type*} [BEq κ] [LawfulBEq κ] {entries : List (κ × β)} {key : κ}
    {value : β} (found : dictGet entries key = some value) : (key, value) ∈ entries := by
  obtain ⟨before, after, whole, -⟩ := List.lookup_eq_some_iff.mp found
  rw [← List.mem_reverse, whole]
  simp

/-- The macros of two tables are unambiguous exactly if they are different, and none of the names
begins with a digit. -/
theorem unambiguous_iff {compIds svcIds : List (String × Scalar)} (named : Named compIds)
    (named' : Named svcIds) :
    Unambiguous compIds svcIds ↔
      ((compIds ++ svcIds).map fun entry => toCMacro entry.1).Nodup ∧
        ∀ entry ∈ compIds ++ svcIds, beginsWithDigit entry.1 = false := by
  have read : (readHeader (fileText (defineLines compIds ++ defineLines svcIds))).Perm
      ((compIds ++ svcIds).filterMap defineOf) := by
    rw [readHeader_append, List.filterMap_append]
    exact (readHeader_defineLines named).append (readHeader_defineLines named')
  have all_read (identifiers : ∀ entry ∈ compIds ++ svcIds, beginsWithDigit entry.1 = false) :
      ((compIds ++ svcIds).filterMap defineOf) = (compIds ++ svcIds).map fun entry =>
        ((toCMacro entry.1).toList, entry.2.text.toList) := by
    rw [← List.filterMap_eq_map]
    refine List.filterMap_congr fun entry member => ?_
    simp [defineOf, identifiers entry member]
  have keys : ∀ entries : List (String × Scalar),
      ((entries.map fun entry => ((toCMacro entry.1).toList, entry.2.text.toList)).map
        Prod.fst).Nodup ↔ (entries.map fun entry => toCMacro entry.1).Nodup := by
    intro entries
    have spelled : (entries.map fun entry => ((toCMacro entry.1).toList, entry.2.text.toList)).map
        Prod.fst = (entries.map fun entry => toCMacro entry.1).map String.toList := by
      simp only [List.map_map]
      rfl
    rw [spelled, List.nodup_map_iff fun _ _ => String.toList_inj.mp]
  constructor
  · rintro ⟨once, own⟩
    have identifiers : ∀ entry ∈ compIds ++ svcIds, beginsWithDigit entry.1 = false := by
      intro entry member
      have defined := mem_of_dictGet (own entry member)
      rw [readHeader_generateHeader, List.mem_cons] at defined
      rcases defined with guard | listed
      · have same : (toCMacro entry.1).toList = guardMacro.1 := congrArg Prod.fst guard
        rw [← beginsWithDigit_toCMacro, beginsWithDigit, same]
        decide
      · obtain ⟨other, -, defines⟩ := List.mem_filterMap.mp (read.mem_iff.mp listed)
        rw [defineOf] at defines
        split at defines
        · simp at defines
        · rename_i identifier
          have same := String.toList_inj.mp (Prod.mk.inj (Option.some.inj defines)).1
          rw [← beginsWithDigit_toCMacro, ← same, beginsWithDigit_toCMacro]
          simpa using identifier
    refine ⟨?_, identifiers⟩
    rw [← keys, ← all_read identifiers]
    exact (read.map Prod.fst).nodup_iff.mp once
  · rintro ⟨distinct, identifiers⟩
    rw [all_read identifiers] at read
    rw [← keys] at distinct
    have once := (read.map Prod.fst).nodup_iff.mpr distinct
    refine ⟨once, fun entry member => ?_⟩
    have listed : ((toCMacro entry.1).toList, entry.2.text.toList) ∈
        readHeader (fileText (defineLines compIds ++ defineLines svcIds)) :=
      read.mem_iff.mpr (List.mem_map_of_mem member)
    rw [readHeader_generateHeader, ← List.singleton_append, dictGet_append,
      (dictGet_eq_some_iff once).mpr listed, Option.some_or]

/-! ## Configurations -/

section Configurations

variable {data : ConfigData}

/-- The tables of numbers that validation hands to `generate_header`. -/
def ConfigData.compIds (data : ConfigData) : List (String × Scalar) :=
  data.components.map fun comp => (textOf comp.name, comp.id)

def ConfigData.svcIds (data : ConfigData) : List (String × Scalar) :=
  data.globalSvcMap.map fun entry => (entry.1, entry.2.id)

theorem ConfigData.map_names_ids (data : ConfigData) :
    (data.compIds ++ data.svcIds).map Prod.fst = data.macroNames := by
  have services : data.svcIds.map Prod.fst = data.services.map fun svc => textOf svc.name := by
    rw [← data.map_names_globalSvcMap, svcIds, List.map_map]
    rfl
  rw [List.map_append, services, macroNames, compIds, List.map_map]
  rfl

theorem textOf_ne_empty {names : List (Option String)} (distinct : Distinct names)
    {name : Option String} (member : name ∈ names) : textOf name ≠ "" := by
  obtain ⟨text, rfl, nonempty⟩ := distinct.given name member
  exact nonempty

theorem WellFormed.named_compIds (wellFormed : WellFormed data) : Named data.compIds := by
  intro entry member
  obtain ⟨comp, listed, rfl⟩ := List.mem_map.mp member
  exact ⟨textOf_ne_empty wellFormed.componentNames (List.mem_map_of_mem listed),
    wellFormed.componentIds comp listed⟩

theorem WellFormed.named_svcIds (wellFormed : WellFormed data) : Named data.svcIds := by
  intro entry member
  obtain ⟨service, listed, rfl⟩ := List.mem_map.mp member
  refine ⟨?_, wellFormed.positive_service listed⟩
  have key : service.1 ∈ data.services.map fun svc => textOf svc.name := by
    rw [← data.map_names_globalSvcMap]
    exact List.mem_map_of_mem listed
  obtain ⟨svc, served, same⟩ := List.mem_map.mp key
  rw [← same]
  exact textOf_ne_empty wellFormed.services.names (List.mem_map_of_mem served)

/-- An accepted configuration is resolved to these tables. -/
theorem WellFormed.exists_resolved (wellFormed : WellFormed data) {checked : Checked}
    (accepted : Config.validateConfig data = .ok checked) :
    ∃ resolved, data.validateAndResolve = .ok resolved ∧ resolved.compIds = data.compIds ∧
      resolved.svcNameToId = data.svcIds := by
  obtain ⟨nodes, resolved⟩ : ∃ nodes, data.nodes.mapM data.resolveNode = some nodes := by
    refine exists_mapM fun node member => ?_
    rw [wellFormed.resolveNode member]
    rfl
  exact ⟨_, validateAndResolve_of_mapM accepted resolved, rfl, rfl⟩

/-- The macros of an accepted configuration are unambiguous exactly if those of all components and
services are different, and none of their names begins with a digit. -/
theorem unambiguous_macros_iff {checked : Checked} (accepted : validateConfig data = .ok checked) :
    ∃ resolved, data.validateAndResolve = .ok resolved ∧
      (Unambiguous resolved.compIds resolved.svcNameToId ↔ MacrosApart data) := by
  have wellFormed := wellFormed_of_validateConfig accepted
  obtain ⟨resolved, done, compIds, svcIds⟩ := wellFormed.exists_resolved accepted
  refine ⟨resolved, done, ?_⟩
  have macros : ((data.compIds ++ data.svcIds).map fun entry => toCMacro entry.1) =
      data.macroNames.map toCMacro := by
    rw [← data.map_names_ids, List.map_map]
    rfl
  have names : (∀ entry ∈ data.compIds ++ data.svcIds, beginsWithDigit entry.1 = false) ↔
      ∀ name ∈ data.macroNames, beginsWithDigit name = false := by
    rw [← data.map_names_ids, List.forall_mem_map]
  rw [compIds, svcIds, unambiguous_iff wellFormed.named_compIds wellFormed.named_svcIds, macros,
    names]
  exact ⟨fun apart => ⟨apart.1, apart.2⟩, fun apart => ⟨apart.distinct, apart.identifiers⟩⟩

end Configurations

/-- Two components with these names. -/
def namedComponents (first second : String) : ConfigData where
  nodes := [⟨some "ProcA", some "/tmp/proc_a.sock", none, [⟨some "T", [first, second]⟩], none⟩]
  components :=
    [⟨some first, .int 1, some "M1", [], []⟩, ⟨some second, .int 2, some "M1", [], []⟩]
  profiles := [⟨some "default", [⟨.int 64, .int 8⟩]⟩]
  models := [⟨some "M1", some "libone.so"⟩]
  platform := [⟨some "SVC_LOG", .int 1, some "embedded"⟩]

/-- Two components whose names differ in one character that is no letter. -/
def dashedNames : ConfigData := namedComponents "Comp-A" "Comp_A"

/-- Both names have the macro `COMP_A`. -/
theorem dashedNames_ambiguous :
    ∃ data checked resolved, validateConfig data = .ok checked ∧
      data.validateAndResolve = .ok resolved ∧
      ¬ Unambiguous resolved.compIds resolved.svcNameToId := by
  obtain ⟨checked, accepted⟩ : ∃ checked, validateConfig dashedNames = .ok checked :=
    exists_checked (by decide +kernel)
  have wellFormed := wellFormed_of_validateConfig accepted
  obtain ⟨resolved, done, compIds, svcIds⟩ := wellFormed.exists_resolved accepted
  refine ⟨dashedNames, checked, resolved, accepted, done, ?_⟩
  rw [compIds, svcIds, unambiguous_iff wellFormed.named_compIds wellFormed.named_svcIds]
  rintro ⟨distinct, -⟩
  exact absurd distinct (by decide +kernel)

/-- Names that differ in a letter have different macros, and these names do not. -/
theorem unambiguous_namedComponents :
    (∃ resolved, (namedComponents "Comp-A" "Comp-B").validateAndResolve = .ok resolved ∧
      Unambiguous resolved.compIds resolved.svcNameToId) ∧
    ∃ resolved, dashedNames.validateAndResolve = .ok resolved ∧
      ¬ Unambiguous resolved.compIds resolved.svcNameToId := by
  constructor
  · obtain ⟨checked, accepted⟩ :
        ∃ checked, validateConfig (namedComponents "Comp-A" "Comp-B") = .ok checked :=
      exists_checked (by decide +kernel)
    obtain ⟨resolved, done, exactly⟩ := unambiguous_macros_iff accepted
    exact ⟨resolved, done, exactly.mpr ⟨by decide +kernel, by decide +kernel⟩⟩
  · obtain ⟨checked, accepted⟩ : ∃ checked, validateConfig dashedNames = .ok checked :=
      exists_checked (by decide +kernel)
    obtain ⟨resolved, done, exactly⟩ := unambiguous_macros_iff accepted
    exact ⟨resolved, done, fun clear => absurd (exactly.mp clear).distinct (by decide +kernel)⟩

end CodexNos.Config
