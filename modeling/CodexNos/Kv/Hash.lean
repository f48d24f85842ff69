import CodexNos.Lib.Mixing
import Mathlib.Tactic

/-!
# The hash of a key

`murmurhash3_32` takes in a key in blocks of four bytes, the last of which may be shorter.  Two keys
that differ in one block only have different hashes, and so have two keys of up to four bytes.
-/

namespace CodexNos.Kv

open Lib Function

/-- A 32-bit word. -/
abbrev Word : Type := BitVec 32

namespace Murmur

/-! ## The source -/

/-- `c1`. -/
def c1 : Word := 0xcc9e2d51

/-- `c2`. -/
def c2 : Word := 0x1b873593

/-- A byte as a word. -/
def byteWord (byte : UInt8) : Word := byte.toBitVec.setWidth 32

/-- The word that four bytes are in memory, the first one lowest. -/
def blockWord (first second third fourth : UInt8) : Word :=
  fourth.toBitVec ++ third.toBitVec ++ second.toBitVec ++ first.toBitVec

/-- What is done to `k1` before it is combined with `h1`. -/
@[irreducible]
def scramble (k1 : Word) : Word := Mixing.rotateLeft (k1 * c1) 15 * c2

/-- What is done to `h1` after a block is combined with it. -/
@[irreducible]
def stir (h1 : Word) : Word := Mixing.rotateLeft h1 13 * 5 + 0xe6546b64

/-- One turn of the loop over the blocks. -/
def mixBlock (h1 k1 : Word) : Word := stir (h1 ^^^ scramble k1)

/-- `k1` of the bytes behind the last block. -/
def tailWord : List UInt8 → Word
  | [first, second, third] =>
      byteWord third <<< 16 ^^^ byteWord second <<< 8 ^^^ byteWord first
  | [first, second] => byteWord second <<< 8 ^^^ byteWord first
  | [first] => byteWord first
  | _ => 0

/-- Take in the bytes behind the last block. -/
def mixTail (h1 : Word) (tail : List UInt8) : Word :=
  if tail = [] then h1 else h1 ^^^ scramble (tailWord tail)

/-- Take in the rest of a key. -/
def absorb (h1 : Word) : List UInt8 → Word
  | first :: second :: third :: fourth :: rest =>
      absorb (mixBlock h1 (blockWord first second third fourth)) rest
  | tail => mixTail h1 tail

/-- The end of `murmurhash3_32`. -/
@[irreducible]
def finish (h1 : Word) (len : Nat) : Word :=
  let h1 := Mixing.xorShiftRight (h1 ^^^ .ofNat 32 len) 16
  let h1 := Mixing.xorShiftRight (h1 * 0x85ebca6b) 13
  Mixing.xorShiftRight (h1 * 0xc2b2ae35) 16

end Murmur

open Murmur

/-- `murmurhash3_32`. -/
def murmurhash3_32 (key : List UInt8) (seed : Word) : Word := finish (absorb seed key) key.length

namespace Murmur

/-! ## Each part loses nothing -/

theorem scramble_injective : Injective scramble := by
  unfold scramble
  exact (Mixing.mul_injective c2 0x56ed309b (by decide)).comp
    ((Mixing.rotateLeft_injective (by decide)).comp
      (Mixing.mul_injective c1 0xdee13bb1 (by decide)))

theorem stir_injective : Injective stir := by
  unfold stir
  exact (Mixing.add_injective 0xe6546b64).comp
    ((Mixing.mul_injective 5 0xcccccccd (by decide)).comp
      (Mixing.rotateLeft_injective (by decide)))

theorem mixBlock_injective (k1 : Word) : Injective fun h1 => mixBlock h1 k1 :=
  stir_injective.comp (Mixing.xor_injective (scramble k1))

theorem mixBlock_injective_block (h1 : Word) : Injective (mixBlock h1) :=
  fun _ _ same => scramble_injective ((BitVec.xor_right_inj h1).mp (stir_injective same))

theorem finish_injective (len : Nat) : Injective fun h1 => finish h1 len := by
  unfold finish
  exact (Mixing.xorShiftRight_injective (by decide)).comp
    ((Mixing.mul_injective 0xc2b2ae35 0x7ed1b41d (by decide)).comp
      ((Mixing.xorShiftRight_injective (by decide)).comp
        ((Mixing.mul_injective 0x85ebca6b 0xa5cb9243 (by decide)).comp
          ((Mixing.xorShiftRight_injective (by decide)).comp
            (Mixing.xor_injective (.ofNat 32 len))))))

theorem mixTail_injective (tail : List UInt8) : Injective fun h1 => mixTail h1 tail := by
  intro left right same
  simp only [mixTail] at same
  split at same
  · exact same
  · exact Mixing.xor_injective _ same

theorem blockWord_inj {first second third fourth first' second' third' fourth' : UInt8}
    (same : blockWord first second third fourth = blockWord first' second' third' fourth') :
    first = first' ∧ second = second' ∧ third = third' ∧ fourth = fourth' := by
  obtain ⟨front, sameFirst⟩ := Mixing.append_inj same
  obtain ⟨front, sameSecond⟩ := Mixing.append_inj front
  obtain ⟨sameFourth, sameThird⟩ := Mixing.append_inj front
  exact ⟨UInt8.toBitVec_inj.mp sameFirst, UInt8.toBitVec_inj.mp sameSecond,
    UInt8.toBitVec_inj.mp sameThird, UInt8.toBitVec_inj.mp sameFourth⟩

theorem tailWord_pair (first second : UInt8) :
    tailWord [first, second] = (second.toBitVec ++ first.toBitVec).setWidth 32 :=
  Mixing.shiftLeft_xor_eq_append _ _

theorem tailWord_triple (first second third : UInt8) :
    tailWord [first, second, third] =
      (third.toBitVec ++ (second.toBitVec ++ first.toBitVec)).setWidth 32 := by
  have lower := tailWord_pair first second
  simp only [tailWord] at lower ⊢
  rw [BitVec.xor_assoc, lower]
  exact Mixing.shiftLeft_xor_eq_append third.toBitVec (second.toBitVec ++ first.toBitVec)

/-- The bytes behind the last block can be read back if their number is known. -/
theorem tailWord_inj {left right : List UInt8} (length : left.length = right.length)
    (short : left.length < 4) (same : tailWord left = tailWord right) : left = right := by
  match left, right, length with
  | [], [], _ => rfl
  | [first], [first'], _ =>
      have bytes : first.toBitVec = first'.toBitVec :=
        Mixing.setWidth_injective (w := 32) (by decide) same
      rw [UInt8.toBitVec_inj.mp bytes]
  | [first, second], [first', second'], _ =>
      rw [tailWord_pair, tailWord_pair] at same
      obtain ⟨high, low⟩ := Mixing.append_inj (Mixing.setWidth_injective (by decide) same)
      rw [UInt8.toBitVec_inj.mp high, UInt8.toBitVec_inj.mp low]
  | [first, second, third], [first', second', third'], _ =>
      rw [tailWord_triple, tailWord_triple] at same
      obtain ⟨high, lower⟩ := Mixing.append_inj (Mixing.setWidth_injective (by decide) same)
      obtain ⟨middle, low⟩ := Mixing.append_inj lower
      rw [UInt8.toBitVec_inj.mp high, UInt8.toBitVec_inj.mp middle, UInt8.toBitVec_inj.mp low]
  | _ :: _ :: _ :: _ :: _, _, _ => exact absurd short (by simp)

theorem absorb_block (h1 : Word) (first second third fourth : UInt8) (rest : List UInt8) :
    absorb h1 (first :: second :: third :: fourth :: rest) =
      absorb (mixBlock h1 (blockWord first second third fourth)) rest := rfl

theorem absorb_of_length_lt (h1 : Word) :
    ∀ {tail : List UInt8}, tail.length < 4 → absorb h1 tail = mixTail h1 tail
  | [], _ => rfl
  | [_], _ => rfl
  | [_, _], _ => rfl
  | [_, _, _], _ => rfl
  | _ :: _ :: _ :: _ :: _, short => absurd short (by simp)

/-- The rest of a key keeps what the hash has taken in before. -/
theorem absorb_injective : ∀ rest : List UInt8, Injective fun h1 => absorb h1 rest
  | first :: second :: third :: fourth :: rest =>
      (absorb_injective rest).comp (mixBlock_injective (blockWord first second third fourth))
  | [] => mixTail_injective []
  | [first] => mixTail_injective [first]
  | [first, second] => mixTail_injective [first, second]
  | [first, second, third] => mixTail_injective [first, second, third]

theorem exists_absorb_append : ∀ (h1 : Word) {front : List UInt8}, front.length % 4 = 0 →
    ∃ next, ∀ rest, absorb h1 (front ++ rest) = absorb next rest
  | h1, [], _ => ⟨h1, fun _ => rfl⟩
  | h1, first :: second :: third :: fourth :: front, blocks => by
      have fewer : front.length % 4 = 0 := by
        simp only [List.length_cons] at blocks
        omega
      obtain ⟨next, later⟩ :=
        exists_absorb_append (mixBlock h1 (blockWord first second third fourth)) fewer
      refine ⟨next, fun rest => ?_⟩
      rw [List.cons_append, List.cons_append, List.cons_append, List.cons_append, absorb_block,
        later]
  | _, [_], blocks => absurd blocks (by simp)
  | _, [_, _], blocks => absurd blocks (by simp)
  | _, [_, _, _], blocks => absurd blocks (by simp)

theorem exists_of_length {block : List UInt8} (size : block.length = 4) :
    ∃ first second third fourth, block = [first, second, third, fourth] := by
  obtain ⟨first, rest, rfl⟩ := List.exists_cons_of_length_eq_add_one size
  obtain ⟨second, third, fourth, rfl⟩ := List.length_eq_three.mp (Nat.succ.inj size)
  exact ⟨first, second, third, fourth, rfl⟩

theorem absorb_block_inj {h1 : Word} {left right back : List UInt8} (size : left.length = 4)
    (size' : right.length = 4) (same : absorb h1 (left ++ back) = absorb h1 (right ++ back)) :
    left = right := by
  obtain ⟨first, second, third, fourth, rfl⟩ := exists_of_length size
  obtain ⟨first', second', third', fourth', rfl⟩ := exists_of_length size'
  have words := mixBlock_injective_block h1 (absorb_injective back same)
  obtain ⟨rfl, rfl, rfl, rfl⟩ := blockWord_inj words
  rfl

/-- A short end is told apart from another one of its length. -/
theorem absorb_tail_inj {h1 : Word} {left right : List UInt8} (length : left.length = right.length)
    (short : left.length < 4) (same : absorb h1 left = absorb h1 right) : left = right := by
  rw [absorb_of_length_lt h1 short, absorb_of_length_lt h1 (length ▸ short)] at same
  by_cases nothing : left = []
  · rw [nothing, List.length_nil] at length
    rw [nothing, List.length_eq_zero_iff.mp length.symm]
  · have nonempty : right ≠ [] := by
      rintro rfl
      exact nothing (List.length_eq_zero_iff.mp length)
    rw [mixTail, mixTail, if_neg nothing, if_neg nonempty] at same
    exact tailWord_inj length short (scramble_injective ((BitVec.xor_right_inj h1).mp same))

end Murmur

/-- Keys that differ in one block only, be it the short one at the end, have different hashes. -/
theorem murmurhash3_32_eq_iff (seed : Word) {front left right back : List UInt8}
    (blocks : front.length % 4 = 0) (length : left.length = right.length)
    (piece : left.length ≤ 4) (whole : left.length = 4 ∨ back = []) :
    murmurhash3_32 (front ++ left ++ back) seed = murmurhash3_32 (front ++ right ++ back) seed ↔
      left = right := by
  constructor
  · intro same
    have lengths : (front ++ left ++ back).length = (front ++ right ++ back).length := by
      simp only [List.length_append, length]
    rw [murmurhash3_32, murmurhash3_32, lengths] at same
    have absorbed := finish_injective _ same
    obtain ⟨next, later⟩ := exists_absorb_append seed blocks
    rw [List.append_assoc, List.append_assoc, later, later] at absorbed
    by_cases full : left.length = 4
    · exact absorb_block_inj full (length ▸ full) absorbed
    · obtain rfl := whole.resolve_left full
      rw [List.append_nil, List.append_nil] at absorbed
      exact absorb_tail_inj length (Nat.lt_of_le_of_ne piece full) absorbed
  · rintro rfl
    rfl

/-- Two counters of the fourth byte on are told apart. -/
theorem murmurhash3_32_eq_iff_counter :
    murmurhash3_32 ([67, 111, 109, 112] ++ [1, 0, 0, 0] ++ [45]) 0 =
        murmurhash3_32 ([67, 111, 109, 112] ++ [2, 0, 0, 0] ++ [45]) 0 ↔
      ([1, 0, 0, 0] : List UInt8) = [2, 0, 0, 0] :=
  murmurhash3_32_eq_iff 0 rfl rfl (by decide) (.inl rfl)

end CodexNos.Kv
