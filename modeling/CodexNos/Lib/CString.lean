import Mathlib.Data.List.TakeWhile
import Mathlib.Tactic

/-!
# String literals of C

The value of a text that consists of adjacent string literals, byte by byte: lines are spliced,
escape sequences are replaced, neighbours are concatenated, and the string ends at its first zero
byte.  A text between quotes is its own value only if it has no quote, no backslash, no newline and
no zero byte, since every escape sequence is longer than what it stands for.
-/

namespace CodexNos.Lib.CString

/-- `"`. -/
def quote : UInt8 := 34

/-- `\`. -/
def backslash : UInt8 := 92

/-- The end of a line. -/
def newline : UInt8 := 10

/-- White space. -/
def isSpace (byte : UInt8) : Bool := byte = 32 || (9 ≤ byte && byte ≤ 13)

/-- The value of an octal digit. -/
def octalDigit (byte : UInt8) : Option Nat :=
  if 48 ≤ byte ∧ byte ≤ 55 then some (byte.toNat - 48) else none

/-- The value of a hexadecimal digit. -/
def hexDigit (byte : UInt8) : Option Nat :=
  if 48 ≤ byte ∧ byte ≤ 57 then some (byte.toNat - 48)
  else if 65 ≤ byte ∧ byte ≤ 70 then some (byte.toNat - 55)
  else if 97 ≤ byte ∧ byte ≤ 102 then some (byte.toNat - 87)
  else none

/-- What a backslash and one more byte stand for; a byte without a meaning stands for itself. -/
def simpleEscape (byte : UInt8) : UInt8 :=
  match byte.toNat with
  | 97 => 7
  | 98 => 8
  | 101 => 27
  | 102 => 12
  | 110 => 10
  | 114 => 13
  | 116 => 9
  | 118 => 11
  | _ => byte

/-- The bytes of a universal character name. -/
def universal (code : Nat) : Option (List UInt8) :=
  if (code < 160 ∧ code ≠ 36 ∧ code ≠ 64 ∧ code ≠ 96) ∨ ¬ code.isValidChar then none
  else some (String.utf8EncodeChar (Char.ofNat code))

/-- Where a reader is. -/
inductive Mode
  /-- Between two literals. -/
  | outside
  /-- In a literal. -/
  | inside
  /-- After a backslash. -/
  | escaped
  /-- In an octal escape sequence with room for more digits. -/
  | octal (left value : Nat)
  /-- In a hexadecimal escape sequence. -/
  | hex (value : Option Nat)
  /-- In a universal character name with digits to come. -/
  | universal (left value : Nat)
  deriving DecidableEq, Repr

/-- A byte of a literal. -/
def insideStep (byte : UInt8) : Option (List UInt8 × Mode) :=
  if byte = quote then some ([], .outside)
  else if byte = backslash then some ([], .escaped)
  else if byte = newline then none
  else some ([byte], .inside)

/-- A byte after an escape sequence of the value. -/
def afterEscape (value : Nat) (byte : UInt8) : Option (List UInt8 × Mode) :=
  (insideStep byte).map fun taken => (UInt8.ofNat value :: taken.1, taken.2)

/-- Read one byte: the bytes of the value that are complete, and where the reader is then. -/
def step : Mode → UInt8 → Option (List UInt8 × Mode)
  | .outside, byte =>
      if byte = quote then some ([], .inside)
      else if isSpace byte then some ([], .outside)
      else none
  | .inside, byte => insideStep byte
  | .escaped, byte =>
      match octalDigit byte with
      | some digit => some ([], .octal 2 digit)
      | none =>
          if byte = 120 then some ([], .hex none)
          else if byte = 117 then some ([], .universal 4 0)
          else if byte = 85 then some ([], .universal 8 0)
          else if byte = newline then none
          else some ([simpleEscape byte], .inside)
  | .octal left value, byte =>
      match left, octalDigit byte with
      | left + 1, some digit => some ([], .octal left (8 * value + digit))
      | _, _ => afterEscape value byte
  | .hex value, byte =>
      match hexDigit byte with
      | some digit => some ([], .hex (some (16 * value.getD 0 + digit)))
      | none => value.bind fun value => afterEscape value byte
  | .universal left value, byte =>
      match hexDigit byte with
      | none => none
      | some digit =>
          if left ≤ 1 then (CString.universal (16 * value + digit)).map fun out => (out, .inside)
          else some ([], .universal (left - 1) (16 * value + digit))

/-- Read a text to its end. -/
def scan : Mode → List UInt8 → Option (List UInt8)
  | mode, [] => if mode = .outside then some [] else none
  | mode, byte :: rest =>
      (step mode byte).bind fun taken => (scan taken.2 rest).map (taken.1 ++ ·)

/-- Join the lines that end with a backslash. -/
def splice : List UInt8 → List UInt8
  | [] => []
  | [byte] => [byte]
  | first :: second :: rest =>
      if first = backslash ∧ second = newline then splice rest
      else first :: splice (second :: rest)

/-- The string that a text of adjacent literals is. -/
def value (text : List UInt8) : Option (List UInt8) :=
  (scan .outside (splice text)).map fun bytes => bytes.takeWhile (· ≠ 0)

/-- A text between quotes. -/
def quoted (text : List UInt8) : List UInt8 := quote :: (text ++ [quote])

/-- Bytes that stand for themselves. -/
def Plain (text : List UInt8) : Prop :=
  ∀ byte ∈ text, byte ≠ quote ∧ byte ≠ backslash ∧ byte ≠ newline ∧ byte ≠ 0

instance (text : List UInt8) : Decidable (Plain text) := List.decidableBAll _ text

/-! ## The length of a value -/

/-- How much shorter than a text its value is at least. -/
def margin : Mode → Int
  | .outside | .octal _ _ | .hex _ => 0
  | .inside | .escaped => 1
  | .universal left _ => left - 3

theorem insideStep_length {byte : UInt8} {out : List UInt8} {next : Mode}
    (taken : insideStep byte = some (out, next)) :
    (out.length : Int) ≤ margin next := by
  unfold insideStep at taken
  split at taken
  · obtain ⟨rfl, rfl⟩ := Prod.mk.inj (Option.some.inj taken)
    simp [margin]
  · split at taken
    · obtain ⟨rfl, rfl⟩ := Prod.mk.inj (Option.some.inj taken)
      simp [margin]
    · split at taken
      · simp at taken
      · obtain ⟨rfl, rfl⟩ := Prod.mk.inj (Option.some.inj taken)
        simp [margin]

theorem afterEscape_length {value : Nat} {byte : UInt8} {out : List UInt8} {next : Mode}
    (taken : afterEscape value byte = some (out, next)) :
    (out.length : Int) ≤ margin next + 1 := by
  obtain ⟨⟨out', next'⟩, inner, same⟩ := Option.map_eq_some_iff.mp taken
  obtain ⟨rfl, rfl⟩ := Prod.mk.inj same
  have shorter := insideStep_length inner
  simp only [List.length_cons, Nat.cast_add, Nat.cast_one]
  omega

theorem universal_length {code : Nat} {out : List UInt8} (taken : universal code = some out) :
    out.length ≤ 4 := by
  unfold universal at taken
  split at taken
  · simp at taken
  · obtain rfl := Option.some.inj taken
    rw [String.length_utf8EncodeChar]
    exact Char.utf8Size_le_four _

theorem step_length {mode : Mode} {byte : UInt8} {out : List UInt8} {next : Mode}
    (taken : step mode byte = some (out, next)) :
    (out.length : Int) + margin mode ≤ margin next + 1 := by
  cases mode with
  | outside =>
      simp only [step] at taken
      split at taken
      · obtain ⟨rfl, rfl⟩ := Prod.mk.inj (Option.some.inj taken)
        simp [margin]
      · split at taken
        · obtain ⟨rfl, rfl⟩ := Prod.mk.inj (Option.some.inj taken)
          simp [margin]
        · simp at taken
  | inside =>
      have shorter := insideStep_length taken
      have one : margin .inside = 1 := rfl
      omega
  | escaped =>
      simp only [step] at taken
      split at taken
      · obtain ⟨rfl, rfl⟩ := Prod.mk.inj (Option.some.inj taken)
        simp [margin]
      · split at taken
        · obtain ⟨rfl, rfl⟩ := Prod.mk.inj (Option.some.inj taken)
          simp [margin]
        · split at taken
          · obtain ⟨rfl, rfl⟩ := Prod.mk.inj (Option.some.inj taken)
            simp [margin]
          · split at taken
            · obtain ⟨rfl, rfl⟩ := Prod.mk.inj (Option.some.inj taken)
              simp [margin]
            · split at taken
              · simp at taken
              · obtain ⟨rfl, rfl⟩ := Prod.mk.inj (Option.some.inj taken)
                simp [margin]
  | octal left value =>
      simp only [step] at taken
      split at taken
      · obtain ⟨rfl, rfl⟩ := Prod.mk.inj (Option.some.inj taken)
        simp [margin]
      · simpa [margin] using afterEscape_length taken
  | hex value =>
      simp only [step] at taken
      split at taken
      · obtain ⟨rfl, rfl⟩ := Prod.mk.inj (Option.some.inj taken)
        simp [margin]
      · obtain ⟨value, -, taken⟩ := Option.bind_eq_some_iff.mp taken
        simpa [margin] using afterEscape_length taken
  | universal left value =>
      simp only [step] at taken
      split at taken
      · simp at taken
      · split at taken
        · obtain ⟨out', encoded, same⟩ := Option.map_eq_some_iff.mp taken
          obtain ⟨rfl, rfl⟩ := Prod.mk.inj same
          have short := universal_length encoded
          simp only [margin]
          omega
        · obtain ⟨rfl, rfl⟩ := Prod.mk.inj (Option.some.inj taken)
          simp only [margin, List.length_nil]
          omega

theorem scan_length {mode : Mode} {text bytes : List UInt8} (read : scan mode text = some bytes) :
    (bytes.length : Int) + margin mode ≤ text.length := by
  induction text generalizing mode bytes with
  | nil =>
      unfold scan at read
      split at read
      · rename_i outside
        obtain rfl := Option.some.inj read
        simp [outside, margin]
      · simp at read
  | cons byte rest ih =>
      obtain ⟨⟨out, next⟩, taken, rest_read⟩ := Option.bind_eq_some_iff.mp read
      obtain ⟨later, later_read, rfl⟩ := Option.map_eq_some_iff.mp rest_read
      have shorter := step_length taken
      have shorter' := ih later_read
      simp only [List.length_append, List.length_cons, Nat.cast_add, Nat.cast_one] at *
      omega

/-! ## Plain texts -/

theorem step_inside_plain {byte : UInt8} (no_quote : byte ≠ quote) (no_escape : byte ≠ backslash)
    (no_end : byte ≠ newline) : step .inside byte = some ([byte], .inside) := by
  simp [step, insideStep, no_quote, no_escape, no_end]

theorem scan_inside_plain {text : List UInt8} (plain : Plain text) :
    scan .inside (text ++ [quote]) = some text := by
  induction text with
  | nil => rfl
  | cons byte rest ih =>
      obtain ⟨no_quote, no_escape, no_end, -⟩ := plain byte List.mem_cons_self
      have later := ih fun other member => plain other (List.mem_cons_of_mem _ member)
      rw [List.cons_append, scan, step_inside_plain no_quote no_escape no_end, Option.bind_some,
        later]
      rfl

/-- A value that is as long as it can be is the text of a literal. -/
theorem eq_of_scan_inside {text bytes : List UInt8} (read : scan .inside text = some bytes)
    (long : bytes.length + 1 = text.length) :
    text = bytes ++ [quote] ∧
      ∀ byte ∈ bytes, byte ≠ quote ∧ byte ≠ backslash ∧ byte ≠ newline := by
  induction text generalizing bytes with
  | nil => simp at long
  | cons byte rest ih =>
      obtain ⟨⟨out, next⟩, taken, rest_read⟩ := Option.bind_eq_some_iff.mp read
      obtain ⟨later, later_read, rfl⟩ := Option.map_eq_some_iff.mp rest_read
      have shorter := scan_length later_read
      simp only [step, insideStep] at taken
      simp only [List.length_append, List.length_cons] at long
      split at taken
      · rename_i closing
        obtain ⟨rfl, rfl⟩ := Prod.mk.inj (Option.some.inj taken)
        cases rest with
        | nil =>
            obtain rfl : later = [] := by
              rw [← List.length_eq_zero_iff]
              simpa using long
            exact ⟨by simp [closing], by simp⟩
        | cons second rest =>
            obtain ⟨⟨out, next⟩, taken, end_read⟩ := Option.bind_eq_some_iff.mp later_read
            obtain ⟨latest, latest_read, rfl⟩ := Option.map_eq_some_iff.mp end_read
            have shorter := scan_length latest_read
            simp only [step] at taken
            split at taken
            · obtain ⟨rfl, rfl⟩ := Prod.mk.inj (Option.some.inj taken)
              simp only [margin, List.nil_append, List.length_nil, List.length_cons] at *
              omega
            · split at taken
              · obtain ⟨rfl, rfl⟩ := Prod.mk.inj (Option.some.inj taken)
                simp only [margin, List.nil_append, List.length_nil, List.length_cons] at *
                omega
              · simp at taken
      · rename_i no_quote
        split at taken
        · obtain ⟨rfl, rfl⟩ := Prod.mk.inj (Option.some.inj taken)
          simp only [margin, List.length_nil] at *
          omega
        · rename_i no_escape
          split at taken
          · simp at taken
          · rename_i no_end
            obtain ⟨rfl, rfl⟩ := Prod.mk.inj (Option.some.inj taken)
            simp only [List.length_singleton] at long
            obtain ⟨rfl, plain⟩ := ih later_read (by omega)
            refine ⟨rfl, fun other member => ?_⟩
            rcases List.mem_cons.mp member with rfl | member
            · exact ⟨no_quote, no_escape, no_end⟩
            · exact plain other member

theorem splice_length (text : List UInt8) : (splice text).length ≤ text.length := by
  fun_induction splice text with
  | case1 => exact le_rfl
  | case2 => exact le_rfl
  | case3 first second rest joined ih =>
      simp only [List.length_cons]
      omega
  | case4 first second rest _ ih =>
      simp only [List.length_cons] at *
      omega

theorem splice_plain {text : List UInt8} (plain : ∀ byte ∈ text, byte ≠ backslash) :
    splice text = text := by
  fun_induction splice text with
  | case1 => rfl
  | case2 => rfl
  | case3 first second rest joined ih => exact absurd joined.1 (plain first List.mem_cons_self)
  | case4 first second rest _ ih =>
      rw [ih fun byte member => plain byte (List.mem_cons_of_mem _ member)]

theorem splice_quote (text : List UInt8) : splice (quote :: text) = quote :: splice text := by
  cases text with
  | nil => rfl
  | cons second rest => simp [splice, quote, backslash]

/-- A text between quotes is its own value exactly if it is plain. -/
theorem value_quoted_iff (text : List UInt8) : value (quoted text) = some text ↔ Plain text := by
  have opened : value (quoted text) =
      (scan .inside (splice (text ++ [quote]))).map fun bytes => bytes.takeWhile (· ≠ 0) := by
    rw [value, quoted, splice_quote, scan]
    simp [step]
  rw [opened]
  constructor
  · intro same
    obtain ⟨bytes, read, cut⟩ := Option.map_eq_some_iff.mp same
    have spliced := splice_length (text ++ [quote])
    have shorter := scan_length read
    have start : text <+: bytes := by
      rw [← cut]
      exact List.takeWhile_prefix _
    have shorter' := start.length_le
    simp only [List.length_append, List.length_singleton, margin] at spliced shorter
    obtain ⟨-, plain⟩ := eq_of_scan_inside read (by omega)
    obtain rfl : text = bytes := start.eq_of_length (by omega)
    intro byte member
    have nonzero : byte ≠ 0 := by
      rw [← cut] at member
      simpa using List.mem_takeWhile_imp member
    exact ⟨(plain byte member).1, (plain byte member).2.1, (plain byte member).2.2, nonzero⟩
  · intro plain
    have unspliced : splice (text ++ [quote]) = text ++ [quote] := by
      refine splice_plain fun byte member => ?_
      rcases List.mem_append.mp member with old | new
      · exact (plain byte old).2.1
      · obtain rfl := List.mem_singleton.mp new
        decide
    have kept : text.takeWhile (fun byte => decide (byte ≠ 0)) = text := by
      refine List.takeWhile_eq_self_iff.mpr fun byte member => ?_
      simpa using (plain byte member).2.2.2
    rw [unspliced, scan_inside_plain plain, Option.map_some, kept]

end CodexNos.Lib.CString
