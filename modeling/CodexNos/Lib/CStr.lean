import Mathlib.Data.List.DropRight
import Mathlib.Data.List.TakeWhile
import Mathlib.Tactic

/-!
# Strings in character arrays

A string of C is a sequence of bytes without a zero byte.  An array holds the bytes before its first
zero byte, and the bounded copies of the C library cut what they copy.
-/

namespace CodexNos.Lib

/-- A string of C. -/
structure CStr where
  /-- Bytes before the terminator. -/
  bytes : List UInt8
  noNul : 0 ∉ bytes
  deriving DecidableEq, Repr

namespace CStr

@[ext]
theorem ext {text other : CStr} (same : text.bytes = other.bytes) : text = other := by
  cases text
  cases other
  cases same
  rfl

/-- `strlen`. -/
def strlen (text : CStr) : Nat := text.bytes.length

/-- The first bytes of a string. -/
def cut (limit : Nat) (text : CStr) : CStr where
  bytes := text.bytes.take limit
  noNul := fun member => text.noNul (List.mem_of_mem_take member)

@[simp]
theorem bytes_cut (limit : Nat) (text : CStr) : (text.cut limit).bytes = text.bytes.take limit := rfl

theorem cut_eq_self_iff {limit : Nat} {text : CStr} :
    text.cut limit = text ↔ text.strlen ≤ limit := by
  rw [CStr.ext_iff, bytes_cut, List.take_eq_self_iff]
  rfl

theorem cut_cut (limit : Nat) (text : CStr) : (text.cut limit).cut limit = text.cut limit := by
  rw [cut_eq_self_iff]
  exact List.length_take_le _ _

/-- The string that an array holds. -/
def stringAt (array : List UInt8) : CStr where
  bytes := array.takeWhile (· ≠ 0)
  noNul := fun member => by simpa using List.mem_takeWhile_imp member

/-- The empty string. -/
def empty : CStr := ⟨[], List.not_mem_nil⟩

/-- The string that a text spells: its characters are the bytes, up to a zero byte. -/
def ofText (text : String) : CStr := stringAt (text.toList.map Char.toUInt8)

/-- `strncpy`: a shorter string is filled up with zero bytes, a longer one is cut and gets no
terminator. -/
def strncpy (array : List UInt8) (text : CStr) (limit : Nat) : List UInt8 :=
  (text.bytes ++ List.replicate limit 0).take limit ++ array.drop limit

theorem length_strncpy {array : List UInt8} {limit : Nat} (bound : limit ≤ array.length)
    (text : CStr) : (strncpy array text limit).length = array.length := by
  rw [strncpy, List.length_append, List.length_take, List.length_append, List.length_replicate,
    List.length_drop, Nat.min_eq_left (Nat.le_add_left _ _), Nat.add_sub_cancel' bound]

theorem getElem?_strncpy {array : List UInt8} {limit index : Nat} (later : limit ≤ index)
    (text : CStr) : (strncpy array text limit)[index]? = array[index]? := by
  have front : ((text.bytes ++ List.replicate limit 0).take limit).length = limit := by
    simp
  rw [strncpy, List.getElem?_append_right (by omega), front, List.getElem?_drop]
  congr 1
  omega

theorem takeWhile_append_zero {bytes : List UInt8} (noNul : 0 ∉ bytes) (rest : List UInt8) :
    (bytes ++ 0 :: rest).takeWhile (· ≠ 0) = bytes := by
  rw [List.takeWhile_append_of_pos]
  · simp
  · intro byte member
    simpa using ne_of_mem_of_not_mem member noNul

/-- An array that has a zero byte behind the copied bytes holds the cut string. -/
theorem stringAt_strncpy {array : List UInt8} {limit : Nat} {rest : List UInt8}
    (zero : array.drop limit = 0 :: rest) (text : CStr) :
    stringAt (strncpy array text limit) = text.cut limit := by
  ext1
  have copied : (text.bytes ++ List.replicate limit 0).take limit =
      text.bytes.take limit ++ List.replicate (limit - text.bytes.length) 0 := by
    rw [List.take_append, List.take_replicate, Nat.min_eq_left (Nat.sub_le _ _)]
  rw [stringAt, strncpy, copied, zero, bytes_cut, List.append_assoc]
  cases filler : limit - text.bytes.length with
  | zero => exact takeWhile_append_zero (text.cut limit).noNul rest
  | succ count =>
      rw [List.replicate_succ, List.cons_append]
      exact takeWhile_append_zero (text.cut limit).noNul _

/-- An array that holds a string before its first zero byte. -/
theorem stringAt_eq {array : List UInt8} {text : CStr} (front : array.take text.strlen = text.bytes)
    (zero : array[text.strlen]? = some 0) : stringAt array = text := by
  obtain ⟨bound, first⟩ := List.getElem?_eq_some_iff.mp zero
  have split : array = text.bytes ++ 0 :: array.drop (text.strlen + 1) := by
    conv_lhs => rw [← List.take_append_drop text.strlen array, front,
      List.drop_eq_getElem_cons bound, first]
  ext1
  rw [stringAt, split]
  exact takeWhile_append_zero text.noNul _

/-! ## Pieces -/

/-- One string behind another. -/
def append (left right : CStr) : CStr where
  bytes := left.bytes ++ right.bytes
  noNul := by simp [left.noNul, right.noNul]

@[simp]
theorem bytes_append (left right : CStr) :
    (left.append right).bytes = left.bytes ++ right.bytes := rfl

@[simp]
theorem strlen_append (left right : CStr) :
    (left.append right).strlen = left.strlen + right.strlen := List.length_append

theorem append_assoc (left middle right : CStr) :
    (left.append middle).append right = left.append (middle.append right) :=
  ext (List.append_assoc _ _ _)

/-- The string of one byte. -/
def single (byte : UInt8) (nonzero : byte ≠ 0) : CStr where
  bytes := [byte]
  noNul := by simp [nonzero.symm]

/-- The string from one of its places on. -/
def advance (text : CStr) (count : Nat) : CStr where
  bytes := text.bytes.drop count
  noNul := fun member => text.noNul (List.mem_of_mem_drop member)

/-- `strncmp` finds no difference. -/
def agree (left right : CStr) (count : Nat) : Bool := left.bytes.take count = right.bytes.take count

theorem agree_iff_prefix {left right : CStr} :
    left.agree right right.strlen ↔ right.bytes <+: left.bytes := by
  have all : right.bytes.take right.strlen = right.bytes := List.take_length
  rw [agree, decide_eq_true_iff, all, List.prefix_iff_eq_take]
  exact eq_comm

/-- A string is completed by what is left of an extension. -/
theorem append_advance {text whole : CStr} (front : text.bytes <+: whole.bytes) :
    text.append (whole.advance text.strlen) = whole := by
  ext1
  exact (List.prefix_append_drop front).symm

/-! ## The last place of a byte -/

/-- A string up to the last place of a byte. -/
def upTo (byte : UInt8) (text : CStr) : CStr where
  bytes := text.bytes.rdropWhile (· ≠ byte)
  noNul := fun member => text.noNul ((List.rdropWhile_prefix _ _).subset member)

/-- What stands behind the last place of a byte. -/
def behind (byte : UInt8) (text : CStr) : CStr where
  bytes := text.bytes.rtakeWhile (· ≠ byte)
  noNul := fun member => text.noNul ((List.rtakeWhile_suffix _ _).subset member)

/-- `strrchr`: the place of the last byte of its kind. -/
def strrchr (text : CStr) (byte : UInt8) : Option Nat :=
  if (text.upTo byte).strlen = 0 then none else some ((text.upTo byte).strlen - 1)

theorem upTo_append_behind (byte : UInt8) (text : CStr) :
    (text.upTo byte).append (text.behind byte) = text := by
  ext1
  exact List.rdropWhile_append_rtakeWhile

theorem advance_upTo (byte : UInt8) (text : CStr) :
    text.advance (text.upTo byte).strlen = text.behind byte := by
  ext1
  have split : text.bytes = (text.upTo byte).bytes ++ (text.behind byte).bytes :=
    List.rdropWhile_append_rtakeWhile.symm
  calc text.bytes.drop (text.upTo byte).strlen
      = ((text.upTo byte).bytes ++ (text.behind byte).bytes).drop (text.upTo byte).strlen := by
        rw [← split]
    _ = (text.behind byte).bytes := List.drop_left

/-- A prefix that ends with a byte ends before what stands behind its last place. -/
theorem prefix_upTo_iff {byte : UInt8} {pattern : List UInt8} {text : CStr}
    (ends : pattern.getLast? = some byte) :
    pattern <+: (text.upTo byte).bytes ↔ pattern <+: text.bytes := by
  constructor
  · exact fun front => front.trans (List.rdropWhile_prefix _ _)
  · intro front
    rcases List.prefix_or_prefix_of_prefix front (List.rdropWhile_prefix _ _) with short | long
    · exact short
    · obtain ⟨rest, rfl⟩ := long
      have inside : rest <+: (text.behind byte).bytes := by
        apply (List.prefix_append_right_inj (text.upTo byte).bytes).mp
        rw [← bytes_append, upTo_append_behind]
        exact front
      cases last : rest.getLast? with
      | none =>
          rw [List.getLast?_eq_none_iff.mp last, List.append_nil]
          exact List.prefix_rfl
      | some other =>
          rw [List.getLast?_append, last, Option.some_or] at ends
          obtain rfl := Option.some.inj ends
          have member := inside.subset (List.mem_of_getLast? last)
          simpa using List.mem_rtakeWhile_imp member

/-! ## Copies -/

/-- `strcpy` to a place in an array.  There is no result if it writes outside of the array. -/
def strcpy (array : List UInt8) (offset : Nat) (text : CStr) : Option (List UInt8) :=
  if offset + text.strlen < array.length then
    some (array.take offset ++ text.bytes ++ 0 :: array.drop (offset + text.strlen + 1))
  else none

section Strcpy

variable {array copied : List UInt8} {offset : Nat} {text : CStr}

theorem strcpy_eq_none_iff :
    strcpy array offset text = none ↔ array.length ≤ offset + text.strlen := by
  simp [strcpy]

theorem length_strcpy (done : strcpy array offset text = some copied) :
    copied.length = array.length := by
  rw [strcpy, Option.ite_none_right_eq_some] at done
  obtain ⟨bound, same⟩ := done
  obtain rfl := Option.some.inj same
  unfold strlen at bound ⊢
  simp only [List.length_append, List.length_take, List.length_cons, List.length_drop]
  omega

theorem take_strcpy (done : strcpy array offset text = some copied) :
    copied.take (offset + text.strlen) = array.take offset ++ text.bytes := by
  rw [strcpy, Option.ite_none_right_eq_some] at done
  obtain ⟨bound, same⟩ := done
  obtain rfl := Option.some.inj same
  have front : (array.take offset ++ text.bytes).length = offset + text.strlen := by
    unfold strlen at bound ⊢
    rw [List.length_append, List.length_take]
    omega
  rw [← front, List.take_left]

theorem getElem?_strcpy (done : strcpy array offset text = some copied) :
    copied[offset + text.strlen]? = some 0 := by
  rw [strcpy, Option.ite_none_right_eq_some] at done
  obtain ⟨bound, same⟩ := done
  obtain rfl := Option.some.inj same
  have front : (array.take offset ++ text.bytes).length = offset + text.strlen := by
    unfold strlen at bound ⊢
    rw [List.length_append, List.length_take]
    omega
  rw [← front, List.getElem?_append_right (Nat.le_refl _), Nat.sub_self]
  rfl

theorem stringAt_strcpy {line : CStr} (held : array.take line.strlen = line.bytes)
    (done : strcpy array line.strlen text = some copied) :
    stringAt copied = line.append text := by
  apply stringAt_eq
  · rw [strlen_append, take_strcpy done, held, bytes_append]
  · rw [strlen_append]
    exact getElem?_strcpy done

/-- A string that is copied to the start of an array replaces what it held. -/
theorem stringAt_strcpy_zero (done : strcpy array 0 text = some copied) :
    stringAt copied = text := by
  have front := take_strcpy done
  have zero := getElem?_strcpy done
  rw [Nat.zero_add] at front zero
  exact stringAt_eq front zero

end Strcpy

end CStr

end CodexNos.Lib
