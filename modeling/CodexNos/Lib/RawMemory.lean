import Mathlib.Tactic

/-!
# Raw memory

Memory is a function from offsets to bytes.  It is read and written in blocks and in little-endian
words.
-/

namespace CodexNos.Lib

/-- Memory from some address on. -/
abbrev RawMemory := Nat → UInt8

namespace RawMemory

/-- The first `len` bytes. -/
def read (memory : RawMemory) (len : Nat) : List UInt8 := (List.range len).map memory

/-- Memory whose first bytes were replaced. -/
def write (memory : RawMemory) (bytes : List UInt8) : RawMemory :=
  fun offset => (bytes[offset]?).getD (memory offset)

/-- The word of some bytes at an offset, least significant byte first. -/
def word (memory : RawMemory) (offset : Nat) : Nat → Nat
  | 0 => 0
  | width + 1 => (memory offset).toNat + 256 * word memory (offset + 1) width

/-- Write a word of some bytes at an offset, least significant byte first. -/
def store (memory : RawMemory) (offset : Nat) : Nat → Nat → RawMemory
  | 0, _ => memory
  | width + 1, value =>
      store (Function.update memory offset (UInt8.ofNat value)) (offset + 1) width (value / 256)

/-! ## Blocks -/

@[simp]
theorem length_read (memory : RawMemory) (len : Nat) : (memory.read len).length = len := by
  simp [read]

theorem write_of_lt (memory : RawMemory) {bytes : List UInt8} {offset : Nat}
    (inside : offset < bytes.length) : memory.write bytes offset = bytes[offset] := by
  simp [write, inside]

theorem read_write (memory : RawMemory) {bytes : List UInt8} {len : Nat}
    (inside : len ≤ bytes.length) : (memory.write bytes).read len = bytes.take len := by
  apply List.ext_getElem
  · simp [inside]
  · intro offset left _
    have offset_lt : offset < bytes.length := by
      rw [length_read] at left
      omega
    simp [read, write, offset_lt]

/-- Copying the first bytes of a memory makes the copy read the same. -/
theorem write_read_of_lt (memory stale : RawMemory) {len offset : Nat} (inside : offset < len) :
    stale.write (memory.read len) offset = memory offset := by
  simp [write, read, inside]

theorem read_write_read (memory stale : RawMemory) (len : Nat) :
    (stale.write (memory.read len)).read len = memory.read len := by
  rw [read_write _ (by simp), List.take_of_length_le (by simp)]

/-! ## Words -/

theorem word_congr {left right : RawMemory} {offset width : Nat}
    (same : ∀ index, offset ≤ index → index < offset + width → left index = right index) :
    left.word offset width = right.word offset width := by
  induction width generalizing offset with
  | zero => rfl
  | succ width ih =>
      have first := same offset le_rfl (by omega)
      have rest := @ih (offset + 1) fun index lower upper => same index (by omega) (by omega)
      simp only [word, first, rest]

theorem store_of_lt (memory : RawMemory) {offset width value index : Nat} (before : index < offset) :
    memory.store offset width value index = memory index := by
  induction width generalizing memory offset value with
  | zero => rfl
  | succ width ih =>
      rw [store, ih _ (by omega), Function.update_of_ne (by omega)]

theorem store_of_le (memory : RawMemory) {offset width value index : Nat}
    (after : offset + width ≤ index) : memory.store offset width value index = memory index := by
  induction width generalizing memory offset value with
  | zero => rfl
  | succ width ih =>
      rw [store, ih _ (by omega), Function.update_of_ne (by omega)]

theorem word_store (memory : RawMemory) (offset width value : Nat) :
    (memory.store offset width value).word offset width = value % 256 ^ width := by
  induction width generalizing memory offset value with
  | zero => simp [word, Nat.mod_one]
  | succ width ih =>
      have first : memory.store offset (width + 1) value offset = UInt8.ofNat value := by
        rw [store, store_of_lt _ (by omega), Function.update_self]
      have rest : (memory.store offset (width + 1) value).word (offset + 1) width =
          value / 256 % 256 ^ width := by
        rw [store, ih]
      rw [word, first, rest, pow_succ', Nat.mod_mul]
      simp

theorem word_store_of_disjoint (memory : RawMemory) {offset width value other size : Nat}
    (disjoint : other + size ≤ offset ∨ offset + width ≤ other) :
    (memory.store offset width value).word other size = memory.word other size := by
  refine word_congr fun index lower upper => ?_
  rcases disjoint with before | after
  · exact store_of_lt memory (by omega)
  · exact store_of_le memory (by omega)

end RawMemory

end CodexNos.Lib
