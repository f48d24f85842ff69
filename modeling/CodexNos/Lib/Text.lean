import Mathlib.Data.List.DropRight
import Mathlib.Tactic

/-!
# Texts

The functions on texts that a scanner working line by line is made of: stripping at both ends,
splitting at a character, reading a number, and finding a match of a pattern.

A text between quotes is read back from what follows the first separator of a line exactly if it does
not hold the separator itself.
-/

namespace CodexNos.Lib

/-- A text, character by character. -/
abbrev Text := List Char

namespace Text

/-! ## Functions -/

/-- `str.isspace`. -/
def isSpace (letter : Char) : Bool :=
  let code := letter.toNat
  (9 ≤ code && code ≤ 13) || (28 ≤ code && code ≤ 32) || code == 0x85 || code == 0xA0 ||
    code == 0x1680 || (0x2000 ≤ code && code ≤ 0x200A) || code == 0x2028 || code == 0x2029 ||
    code == 0x202F || code == 0x205F || code == 0x3000

/-- Without the characters at both ends that satisfy a test. -/
def stripWhere (drop : Char → Bool) (text : Text) : Text := (text.dropWhile drop).rdropWhile drop

/-- `str.strip`. -/
def strip (text : Text) : Text := stripWhere isSpace text

/-- Stripped of spaces, then of quotes. -/
def unquote (text : Text) : Text := stripWhere (· == '"') (strip text)

/-- A text between quotes. -/
def quoted (text : Text) : Text := '"' :: (text ++ ['"'])

/-- What is left of a quoted text that is cut off at a separator. -/
def cutQuoted (sep : Char) (text : Text) : Text :=
  unquote ((' ' :: quoted text).takeWhile (· ≠ sep))

/-- The second part of a text that is split at a character. -/
def second (sep : Char) (text : Text) : Option Text := (text.splitOn sep)[1]?

/-- The zeros of the decimal digits. -/
def zeros : List Nat :=
  [0x30, 0x660, 0x6F0, 0x7C0, 0x966, 0x9E6, 0xA66, 0xAE6, 0xB66, 0xBE6, 0xC66, 0xCE6, 0xD66, 0xDE6,
    0xE50, 0xED0, 0xF20, 0x1040, 0x1090, 0x17E0, 0x1810, 0x1946, 0x19D0, 0x1A80, 0x1A90, 0x1B50,
    0x1BB0, 0x1C40, 0x1C50, 0xA620, 0xA8D0, 0xA900, 0xA9D0, 0xA9F0, 0xAA50, 0xABF0, 0xFF10, 0x104A0,
    0x10D30, 0x11066, 0x110F0, 0x11136, 0x111D0, 0x112F0, 0x11450, 0x114D0, 0x11650, 0x116C0,
    0x11730, 0x118E0, 0x11950, 0x11C50, 0x11D50, 0x11DA0, 0x16A60, 0x16AC0, 0x16B50, 0x1D7CE,
    0x1D7D8, 0x1D7E2, 0x1D7EC, 0x1D7F6, 0x1E140, 0x1E2F0, 0x1E950, 0x1FBF0]

/-- The value of a decimal digit. -/
def digit? (letter : Char) : Option Nat :=
  (zeros.find? fun start => start ≤ letter.toNat ∧ letter.toNat < start + 10).map (letter.toNat - ·)

/-- The digits that follow a number, with single underscores between them. -/
def readDigits : Nat → Text → Option Nat
  | value, [] => some value
  | value, '_' :: letter :: rest =>
      (digit? letter).bind fun digit => readDigits (10 * value + digit) rest
  | value, letter :: rest =>
      (digit? letter).bind fun digit => readDigits (10 * value + digit) rest

/-- A number without a sign. -/
def readNat : Text → Option Nat
  | [] => none
  | letter :: rest => (digit? letter).bind fun digit => readDigits digit rest

/-- `int`. -/
def toInt? (text : Text) : Option Int :=
  match strip text with
  | '-' :: rest => (readNat rest).map fun number => -(number : Int)
  | '+' :: rest => (readNat rest).map fun number => (number : Int)
  | rest => (readNat rest).map fun number => (number : Int)

/-- The leftmost match of a pattern. -/
def search (matchHere : Text → Option Text) : Text → Option Text
  | [] => matchHere []
  | letter :: rest => (matchHere (letter :: rest)).or (search matchHere rest)

/-! ## Splitting -/

theorem head_splitOn (sep : Char) (text : Text) :
    (text.splitOn sep)[0]? = some (text.takeWhile (· ≠ sep)) := by
  induction text with
  | nil => rfl
  | cons letter rest ih =>
      rw [List.splitOn_cons_eq_if_modifyHead]
      by_cases same : letter = sep
      · simp [same]
      · simp [same, ih]

/-- What follows the first separator, up to the next one. -/
theorem second_append {sep : Char} {key rest : Text} (absent : sep ∉ key) :
    second sep (key ++ sep :: rest) = some (rest.takeWhile (· ≠ sep)) := by
  rw [second, List.splitOn_append_cons_self_of_not_mem absent, List.getElem?_cons_succ,
    head_splitOn]

/-! ## Quotes -/

theorem stripWhere_cons_of_pos {drop : Char → Bool} {letter : Char} {rest : Text}
    (dropped : drop letter = true) : stripWhere drop (letter :: rest) = stripWhere drop rest := by
  rw [stripWhere, List.dropWhile_cons_of_pos dropped, stripWhere]

/-- A text that does not begin or end with a space. -/
structure Trimmed (text : Text) : Prop where
  first : ∃ letter rest, text = letter :: rest ∧ isSpace letter = false
  last : ∃ rest letter, text = rest ++ [letter] ∧ isSpace letter = false

theorem Trimmed.dropWhile_append {text after : Text} (trimmed : Trimmed text) :
    (text ++ after).dropWhile isSpace = text ++ after := by
  obtain ⟨letter, rest, rfl, kept⟩ := trimmed.first
  exact List.dropWhile_cons_of_neg (by simp [kept])

theorem Trimmed.rdropWhile_append {text after : Text} (trimmed : Trimmed text)
    (spaces : ∀ letter ∈ after, isSpace letter = true) :
    (text ++ after).rdropWhile isSpace = text := by
  obtain ⟨rest, letter, rfl, kept⟩ := trimmed.last
  rw [List.rdropWhile, List.reverse_append,
    List.dropWhile_append_of_pos fun letter member => spaces letter (List.mem_reverse.mp member),
    List.reverse_append, List.reverse_singleton, List.singleton_append,
    List.dropWhile_cons_of_neg (by simp [kept])]
  simp

theorem Trimmed.strip_padded {before text after : Text} (trimmed : Trimmed text)
    (spaces : ∀ letter ∈ before, isSpace letter = true)
    (spaces' : ∀ letter ∈ after, isSpace letter = true) :
    strip (before ++ (text ++ after)) = text := by
  rw [strip, stripWhere, List.dropWhile_append_of_pos spaces, trimmed.dropWhile_append,
    trimmed.rdropWhile_append spaces']

theorem Trimmed.strip_eq {text : Text} (trimmed : Trimmed text) : strip text = text := by
  simpa using @Trimmed.strip_padded [] text [] trimmed (by simp) (by simp)

theorem length_stripWhere_le (drop : Char → Bool) (text : Text) :
    (stripWhere drop text).length ≤ text.length :=
  (List.rdropWhile_prefix drop _).length_le.trans (List.dropWhile_suffix drop).length_le

theorem isSpace_quote : isSpace '"' = false := by decide

theorem trimmed_quoted (text : Text) : Trimmed (quoted text) :=
  ⟨⟨'"', text ++ ['"'], rfl, isSpace_quote⟩, ⟨'"' :: text, '"', rfl, isSpace_quote⟩⟩

theorem unquote_quoted {text : Text} (plain : '"' ∉ text) : unquote (' ' :: quoted text) = text := by
  have stripped : strip (' ' :: quoted text) = quoted text := by
    rw [strip, stripWhere_cons_of_pos (by decide)]
    exact (trimmed_quoted text).strip_eq
  rw [unquote, stripped, quoted, stripWhere_cons_of_pos (by decide), stripWhere]
  cases text with
  | nil => rfl
  | cons letter rest =>
      have other : ∀ quote ∈ letter :: rest, ¬ (quote == '"') = true := by
        intro quote member same
        exact plain (beq_iff_eq.mp same ▸ member)
      have first : ¬ (letter == '"') = true := other letter List.mem_cons_self
      rw [List.cons_append, List.dropWhile_cons, if_neg first, ← List.cons_append,
        List.rdropWhile_concat_pos _ _ _ (by decide),
        List.rdropWhile_eq_self_iff]
      exact fun nonempty => other _ (List.getLast_mem nonempty)

theorem exists_strip_quote (part : Text) :
    ∃ rest, strip (' ' :: '"' :: part) = '"' :: rest ∧ rest <+: part := by
  rw [strip, stripWhere_cons_of_pos (by decide), stripWhere,
    List.dropWhile_cons_of_neg (by decide)]
  have before := List.rdropWhile_prefix isSpace ('"' :: part)
  cases found : ('"' :: part).rdropWhile isSpace with
  | nil =>
      have spaces := List.rdropWhile_eq_nil_iff.mp found '"' List.mem_cons_self
      rw [isSpace_quote] at spaces
      cases spaces
  | cons letter rest =>
      rw [found] at before
      obtain ⟨rfl, inside⟩ := List.cons_prefix_cons.mp before
      exact ⟨rest, rfl, inside⟩

/-- A quoted text that is cut off at a separator inside gets shorter. -/
theorem length_cutQuoted_lt {sep : Char} {text : Text} (held : sep ∈ text) (space : sep ≠ ' ')
    (quote : sep ≠ '"') : (cutQuoted sep text).length < text.length := by
  set part := text.takeWhile (· ≠ sep) with part_eq
  have shorter : part.length < text.length := by
    refine lt_of_le_of_ne (List.takeWhile_prefix _).length_le fun same => ?_
    have whole : part = text := (List.takeWhile_prefix _).eq_of_length same
    have kept := List.takeWhile_eq_self_iff.mp whole sep held
    simp at kept
  have taken : (' ' :: quoted text).takeWhile (· ≠ sep) = ' ' :: '"' :: part := by
    have stops : (text ++ ['"']).takeWhile (· ≠ sep) = part := by
      rw [List.takeWhile_append, if_neg]
      exact fun same => shorter.ne same
    rw [quoted, List.takeWhile_cons_of_pos (by simpa using space.symm),
      List.takeWhile_cons_of_pos (by simpa using quote.symm), stops]
  obtain ⟨rest, stripped, inside⟩ := exists_strip_quote part
  rw [cutQuoted, taken, unquote, stripped, stripWhere_cons_of_pos (by decide)]
  exact ((length_stripWhere_le _ _).trans inside.length_le).trans_lt shorter

/-- A quoted text is read back exactly if it does not hold the separator. -/
theorem cutQuoted_eq_self_iff {sep : Char} {text : Text} (space : sep ≠ ' ') (quote : sep ≠ '"')
    (plain : '"' ∉ text) : cutQuoted sep text = text ↔ sep ∉ text := by
  refine ⟨fun same held => ?_, fun fresh => ?_⟩
  · exact (length_cutQuoted_lt held space quote).ne (congrArg List.length same)
  · have whole : (' ' :: quoted text).takeWhile (· ≠ sep) = ' ' :: quoted text := by
      rw [List.takeWhile_eq_self_iff]
      intro letter member
      have listed : letter = ' ' ∨ letter = '"' ∨ letter ∈ text := by
        simp [quoted] at member
        tauto
      rcases listed with rfl | rfl | inside
      · simpa using space.symm
      · simpa using quote.symm
      · simpa using fun same : letter = sep => fresh (same ▸ inside)
    rw [cutQuoted, whole, unquote_quoted plain]

/-! ## Words -/

theorem infix_cons_iff_of_not_mem {letter : Char} {word text : Text} (absent : letter ∉ word) :
    word <:+: letter :: text ↔ word <:+: text := by
  rw [List.infix_cons_iff]
  constructor
  · rintro (here | later)
    · cases word with
      | nil => exact List.nil_infix
      | cons first rest =>
          obtain ⟨rfl, -⟩ := List.cons_prefix_cons.mp here
          exact absurd List.mem_cons_self absent
    · exact later
  · exact .inr

theorem infix_concat_iff_of_not_mem {letter : Char} {word text : Text} (absent : letter ∉ word) :
    word <:+: text ++ [letter] ↔ word <:+: text := by
  rw [← List.reverse_infix, List.reverse_append, List.reverse_singleton, List.singleton_append,
    infix_cons_iff_of_not_mem (by simpa using absent), List.reverse_infix]

/-! ## Numbers -/

theorem digit?_digitChar {digit : Nat} (small : digit < 10) :
    digit? digit.digitChar = some digit := by
  interval_cases digit <;> decide

theorem readDigits_cons {value digit : Nat} {letter : Char} {rest : Text}
    (given : digit? letter = some digit) :
    readDigits value (letter :: rest) = readDigits (10 * value + digit) rest := by
  have other : letter ≠ '_' := by
    rintro rfl
    have none_there : digit? '_' = none := by decide
    rw [none_there] at given
    cases given
  rw [readDigits.eq_3 value letter rest fun _ _ same _ => other same, given, Option.bind_some]

theorem readDigits_concat {digits : Text} {start value digit : Nat}
    (done : readDigits start digits = some value) (small : digit < 10) :
    readDigits start (digits ++ [digit.digitChar]) = some (10 * value + digit) := by
  induction start, digits using readDigits.induct with
  | case1 start =>
      obtain rfl := Option.some.inj done
      rw [List.nil_append, readDigits_cons (digit?_digitChar small), readDigits]
  | case2 start letter rest ih =>
      rw [readDigits] at done
      obtain ⟨found, here, done⟩ := Option.bind_eq_some_iff.mp done
      rw [List.cons_append, List.cons_append, readDigits, here]
      exact ih found done
  | case3 start letter rest other ih =>
      have unfolded := readDigits.eq_3 start letter rest other
      rw [unfolded] at done
      obtain ⟨found, here, done⟩ := Option.bind_eq_some_iff.mp done
      rw [List.cons_append, readDigits_cons here]
      exact ih found done

theorem readNat_toDigits (number : Nat) : readNat (Nat.toDigits 10 number) = some number := by
  induction number using Nat.strong_induction_on with
  | _ number ih =>
      by_cases small : number < 10
      · rw [Nat.toDigits_of_lt_base small, readNat, digit?_digitChar small]
        rfl
      · rw [Nat.toDigits_of_base_le (by decide) (by omega)]
        have earlier := ih (number / 10) (by omega)
        cases digits : Nat.toDigits 10 (number / 10) with
        | nil =>
            rw [digits] at earlier
            cases earlier
        | cons letter rest =>
            rw [digits, readNat] at earlier
            obtain ⟨first, given, done⟩ := Option.bind_eq_some_iff.mp earlier
            rw [List.cons_append, readNat, given, Option.bind_some,
              readDigits_concat done (Nat.mod_lt _ (by decide)), Nat.div_add_mod]

theorem toList_toString_ofNat (number : Nat) :
    (toString (Int.ofNat number)).toList = Nat.toDigits 10 number := Nat.toList_repr

theorem toList_toString_negSucc (number : Nat) :
    (toString (Int.negSucc number)).toList = '-' :: Nat.toDigits 10 (number + 1) := by
  rw [← Nat.toList_repr]
  exact String.toList_append

theorem mem_toString {number : Int} {letter : Char} (member : letter ∈ (toString number).toList) :
    letter.isDigit ∨ letter = '-' := by
  cases number with
  | ofNat number =>
      rw [toList_toString_ofNat] at member
      exact .inl (Nat.isDigit_of_mem_toDigits (by decide) (by decide) member)
  | negSucc number =>
      rw [toList_toString_negSucc, List.mem_cons] at member
      exact member.symm.imp_left (Nat.isDigit_of_mem_toDigits (by decide) (by decide))

theorem isSpace_of_number {letter : Char} (number : letter.isDigit ∨ letter = '-') :
    isSpace letter = false := by
  rcases number with digit | rfl
  · have bounds : 48 ≤ letter.toNat ∧ letter.toNat ≤ 57 := by
      simpa [Char.isDigit, UInt32.le_iff_toNat_le] using digit
    simp [isSpace]
    omega
  · decide

theorem toInt?_quote (part : Text) : toInt? (' ' :: '"' :: part) = none := by
  obtain ⟨rest, stripped, -⟩ := exists_strip_quote part
  have other : digit? '"' = none := by decide
  rw [toInt?, stripped]
  simp [readNat, other]

theorem trimmed_toString (number : Int) : Trimmed (toString number).toList := by
  have nonempty : (toString number).toList ≠ [] := by
    cases number with
    | ofNat number =>
        rw [toList_toString_ofNat]
        exact Nat.toDigits_ne_nil
    | negSucc number =>
        rw [toList_toString_negSucc]
        exact List.cons_ne_nil _ _
  have letters := fun letter (member : letter ∈ (toString number).toList) =>
    isSpace_of_number (mem_toString member)
  constructor
  · obtain ⟨letter, rest, same⟩ := List.exists_cons_of_ne_nil nonempty
    exact ⟨letter, rest, same, letters letter (same ▸ List.mem_cons_self)⟩
  · refine ⟨_, _, (List.dropLast_append_getLast nonempty).symm, letters _ (List.getLast_mem _)⟩

theorem toInt?_padded (number : Int) {before after : Text}
    (spaces : ∀ letter ∈ before, isSpace letter = true)
    (spaces' : ∀ letter ∈ after, isSpace letter = true) :
    toInt? (before ++ ((toString number).toList ++ after)) = some number := by
  rw [toInt?, (trimmed_toString number).strip_padded spaces spaces']
  cases number with
  | ofNat number =>
      have unsigned := fun letter (member : letter ∈ Nat.toDigits 10 number) =>
        Nat.isDigit_of_mem_toDigits (by decide : 0 < 10) (by decide) member
      rw [toList_toString_ofNat]
      split
      · rename_i rest same
        have digit := unsigned '-' (same ▸ List.mem_cons_self)
        exact absurd digit (by decide)
      · rename_i rest same
        have digit := unsigned '+' (same ▸ List.mem_cons_self)
        exact absurd digit (by decide)
      · rw [readNat_toDigits]
        rfl
  | negSucc number =>
      rw [toList_toString_negSucc]
      simp only [readNat_toDigits]
      rfl

end Text

end CodexNos.Lib
