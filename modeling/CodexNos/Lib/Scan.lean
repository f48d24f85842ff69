import CodexNos.Lib.CString
import Mathlib.Tactic

/-!
# Reading numbers and words

The conversions of `atoi` and `sscanf` that read a decimal number or a word.  Where a number does not
fit its type, or a word its array, the behaviour is not defined.  A decimal number that is written
out is read back.
-/

namespace CodexNos.Lib.Scan

/-- A decimal digit. -/
def isDigit (byte : UInt8) : Bool := 48 ≤ byte && byte ≤ 57

/-- White space. -/
def isSpace (byte : UInt8) : Bool := CString.isSpace byte

/-- The value of decimal digits. -/
def number (digits : List UInt8) : Nat :=
  digits.foldl (fun value digit => 10 * value + (digit.toNat - 48)) 0

/-- An optional sign, negative or not, and the rest. -/
def sign : List UInt8 → Bool × List UInt8
  | 45 :: rest => (true, rest)
  | 43 :: rest => (false, rest)
  | rest => (false, rest)

/-- `atoi`. -/
def atoi (text : List UInt8) : Option Int32 :=
  let (negative, rest) := sign (text.dropWhile isSpace)
  let value : Int := number (rest.takeWhile isDigit)
  let value := if negative then -value else value
  if -2 ^ 31 ≤ value ∧ value < 2 ^ 31 then some (.ofInt value) else none

/-- What a conversion does. -/
inductive Scanned
  /-- It fails, and nothing is assigned. -/
  | failed
  /-- The behaviour is not defined. -/
  | undefined
  /-- It assigns a number, and reading goes on behind it. -/
  | number (value : UInt32) (rest : List UInt8)
  deriving DecidableEq, Repr

/-- The conversion `%u`. -/
def scanUnsigned (text : List UInt8) : Scanned :=
  let (negative, rest) := sign (text.dropWhile isSpace)
  let digits := rest.takeWhile isDigit
  if digits = [] then .failed
  else if 2 ^ 32 ≤ number digits then .undefined
  else
    .number (if negative then -.ofNat (number digits) else .ofNat (number digits))
      (rest.dropWhile isDigit)

/-- The conversion `%s`: the word and the rest, if there is a word. -/
def scanWord (text : List UInt8) : Option (List UInt8 × List UInt8) :=
  let rest := text.dropWhile isSpace
  let word := rest.takeWhile (!isSpace ·)
  if word = [] then none else some (word, rest.dropWhile (!isSpace ·))

/-- A number in decimal. -/
def decimal (value : Nat) : List UInt8 :=
  if value = 0 then [48] else ((Nat.digits 10 value).map fun digit => .ofNat (48 + digit)).reverse

/-! ## Decimal numbers -/

theorem toNat_digit {digit : Nat} (small : digit < 10) :
    (UInt8.ofNat (48 + digit)).toNat = 48 + digit := by
  rw [UInt8.toNat_ofNat']
  omega

theorem number_reverse {digits : List Nat} (small : ∀ digit ∈ digits, digit < 10) :
    number (digits.map fun digit => UInt8.ofNat (48 + digit)).reverse = Nat.ofDigits 10 digits := by
  rw [number, List.foldl_reverse, List.foldr_map, Nat.ofDigits_eq_foldr]
  induction digits with
  | nil => rfl
  | cons digit digits ih =>
      rw [List.forall_mem_cons] at small
      simp only [List.foldr_cons, ih small.2, toNat_digit small.1]
      simp
      omega

theorem number_decimal (value : Nat) : number (decimal value) = value := by
  rw [decimal]
  split
  · simp_all [number]
  · rw [number_reverse fun digit => Nat.digits_lt_base (by decide), Nat.ofDigits_digits]

theorem isDigit_of_mem {value : Nat} {byte : UInt8} (member : byte ∈ decimal value) :
    isDigit byte = true := by
  rw [decimal] at member
  split at member
  · simp_all [isDigit]
  · obtain ⟨digit, inside, rfl⟩ := List.mem_map.mp (List.mem_reverse.mp member)
    have small : digit < 10 := Nat.digits_lt_base (by decide) inside
    have toNat := toNat_digit small
    simp only [isDigit, Bool.and_eq_true, decide_eq_true_eq, UInt8.le_iff_toNat_le, toNat]
    simp
    omega

theorem decimal_ne_nil (value : Nat) : decimal value ≠ [] := by
  rw [decimal]
  split
  · simp
  · rename_i positive
    simp [Nat.digits_ne_nil_iff_ne_zero.mpr positive]

theorem length_decimal_le {value count : Nat} (positive : 0 < count) (small : value < 10 ^ count) :
    (decimal value).length ≤ count := by
  rw [decimal]
  split
  · exact positive
  · rw [List.length_reverse, List.length_map]
    exact (Nat.digits_length_le_iff (by decide) value).mpr small

theorem digit_cases {byte : UInt8} (digit : isDigit byte = true) :
    isSpace byte = false ∧ byte ≠ 45 ∧ byte ≠ 43 ∧ byte ≠ 10 ∧ byte ≠ 0 := by
  simp only [isDigit, Bool.and_eq_true, decide_eq_true_eq, UInt8.le_iff_toNat_le] at digit
  obtain ⟨least, most⟩ := digit
  simp only [UInt8.reduceToNat] at least most
  simp only [isSpace, CString.isSpace, Bool.or_eq_false_iff, Bool.and_eq_false_iff,
    decide_eq_false_iff_not, UInt8.le_iff_toNat_le, ne_eq, ← UInt8.toNat_inj, UInt8.reduceToNat]
  omega

theorem takeWhile_decimal (value : Nat) {rest : List UInt8}
    (ends : ∀ byte ∈ rest.head?, isDigit byte = false) :
    (decimal value ++ rest).takeWhile isDigit = decimal value ∧
      (decimal value ++ rest).dropWhile isDigit = rest := by
  have all : ∀ byte ∈ decimal value, isDigit byte = true := fun _ => isDigit_of_mem
  rw [List.takeWhile_append_of_pos all, List.dropWhile_append_of_pos all]
  cases rest with
  | nil => simp
  | cons byte rest => simp [ends byte rfl]

theorem sign_decimal (value : Nat) (rest : List UInt8) :
    sign ((decimal value ++ rest).dropWhile isSpace) = (false, decimal value ++ rest) := by
  obtain ⟨byte, digits, same⟩ := List.exists_cons_of_ne_nil (decimal_ne_nil value)
  have member : byte ∈ decimal value := by rw [same]; exact List.mem_cons_self
  obtain ⟨space, minus, plus, -⟩ := digit_cases (isDigit_of_mem member)
  rw [same, List.cons_append, List.dropWhile_cons_of_neg (by simp [space]), sign]
  · exact fun _ equal => minus (List.cons.inj equal).1
  · exact fun _ equal => plus (List.cons.inj equal).1

theorem atoi_decimal {value : Nat} (small : value < 2 ^ 31) :
    atoi (decimal value) = some (.ofNat value) := by
  have ends : ∀ byte ∈ ([] : List UInt8).head?, isDigit byte = false := by simp
  have read := takeWhile_decimal value ends
  rw [List.append_nil] at read
  have start := sign_decimal value []
  rw [List.append_nil] at start
  simp only [atoi, start, read.1, number_decimal, Bool.false_eq_true, if_false]
  rw [if_pos (by omega)]
  rfl

theorem scanUnsigned_decimal {value : Nat} (small : value < 2 ^ 32) {rest : List UInt8}
    (ends : ∀ byte ∈ rest.head?, isDigit byte = false) :
    scanUnsigned (decimal value ++ rest) = .number (.ofNat value) rest := by
  obtain ⟨taken, left⟩ := takeWhile_decimal value ends
  simp only [scanUnsigned, sign_decimal, taken, left, number_decimal, decimal_ne_nil,
    Bool.false_eq_true, if_false, not_le.mpr small]

theorem scanUnsigned_decimal_nil {value : Nat} (small : value < 2 ^ 32) :
    scanUnsigned (decimal value) = .number (.ofNat value) [] := by
  have ends : ∀ byte ∈ ([] : List UInt8).head?, isDigit byte = false := by simp
  have read := scanUnsigned_decimal small ends
  rwa [List.append_nil] at read

theorem scanWord_append {word : List UInt8} (some_letter : word ≠ [])
    (plain : ∀ byte ∈ word, isSpace byte = false) (rest : List UInt8) :
    scanWord (word ++ 32 :: rest) = some (word, 32 :: rest) := by
  obtain ⟨byte, letters, same⟩ := List.exists_cons_of_ne_nil some_letter
  have first : isSpace byte = false := plain byte (by rw [same]; exact List.mem_cons_self)
  have start : (word ++ 32 :: rest).dropWhile isSpace = word ++ 32 :: rest := by
    rw [same, List.cons_append, List.dropWhile_cons_of_neg (by simp [first])]
  have letter : ∀ byte ∈ word, (!isSpace byte) = true := by
    intro byte member
    rw [plain byte member]
    rfl
  have blank : isSpace 32 = true := by decide
  have taken : (word ++ 32 :: rest).takeWhile (!isSpace ·) = word := by
    rw [List.takeWhile_append_of_pos letter, List.takeWhile_cons_of_neg (by simp [blank]),
      List.append_nil]
  have left : (word ++ 32 :: rest).dropWhile (!isSpace ·) = 32 :: rest := by
    rw [List.dropWhile_append_of_pos letter, List.dropWhile_cons_of_neg (by simp [blank])]
  simp only [scanWord, start, taken, left, some_letter, if_false]

theorem scanWord_decimal (value : Nat) (rest : List UInt8) :
    scanWord (decimal value ++ 32 :: rest) = some (decimal value, 32 :: rest) :=
  scanWord_append (decimal_ne_nil value) (fun _ member => (digit_cases (isDigit_of_mem member)).1)
    rest

theorem scanWord_space (text : List UInt8) : scanWord (32 :: text) = scanWord text := by
  rw [scanWord, scanWord, List.dropWhile_cons_of_pos (by decide)]

theorem scanUnsigned_nil : scanUnsigned [] = .failed := rfl

theorem scanUnsigned_space (text : List UInt8) : scanUnsigned (32 :: text) = scanUnsigned text := by
  rw [scanUnsigned, scanUnsigned, List.dropWhile_cons_of_pos (by decide)]

end CodexNos.Lib.Scan
