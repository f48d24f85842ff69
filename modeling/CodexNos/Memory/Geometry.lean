import CodexNos.Lib.Slots
import CodexNos.Memory.PoolInvariant
import Mathlib.Data.List.TakeWhile

/-!
# Chunks and windows

The sizes of the pool are numbers of 32 bits.  The chunks of a bin lie one after the other in the
memory of the bin as long as the memory of all of them has a size of 32 bits; the window of a buffer
lies in its chunk as long as the sum of its length and its headroom did not wrap around when it was
allocated.
-/

namespace CodexNos.Memory

open Lib.Transition

/-! ## Chunks -/

/-- The next multiple of a cache line. -/
def roundedSize (size : UInt32) : Nat := (size.toNat + 63) / 64 * 64

theorem and_mask (value : Nat) (small : value < 2 ^ 32) :
    value &&& 4294967232 = value / 64 * 64 := by
  have mask : 4294967232 = (2 ^ 26 - 1) <<< 6 := rfl
  have shifted : value / 64 * 64 = (value >>> 6) <<< 6 := by
    rw [Nat.shiftLeft_eq, Nat.shiftRight_eq_div_pow]
  rw [mask, shifted]
  refine Nat.eq_of_testBit_eq fun place => ?_
  rw [Nat.testBit_and, Nat.testBit_shiftLeft, Nat.testBit_shiftLeft, Nat.testBit_two_pow_sub_one,
    Nat.testBit_shiftRight]
  by_cases low : 6 ≤ place
  · have same : 6 + (place - 6) = place := by omega
    rw [same]
    by_cases high : place - 6 < 26
    · simp [low, high]
    · have zero : value.testBit place = false :=
        Nat.testBit_lt_two_pow (small.trans_le (Nat.pow_le_pow_right (by decide) (by omega)))
      simp [zero]
  · simp [low]

theorem toNat_alignedSize (size : UInt32) :
    (alignedSize size).toNat = (size.toNat + 63) % 2 ^ 32 / 64 * 64 := by
  have sum : size + cacheLineSize - 1 = size + 63 := by
    rw [UInt32.sub_eq_add_neg, UInt32.add_assoc]
    rfl
  have mask : ~~~(cacheLineSize - 1) = (4294967232 : UInt32) := rfl
  rw [alignedSize, sum, mask, UInt32.toNat_and, UInt32.toNat_add]
  exact and_mask _ (Nat.mod_lt _ (by decide))

/-- The rounded size fits, or rounding wraps around to zero. -/
theorem toNat_alignedSize_of_lt {size : UInt32} (fits : roundedSize size < 2 ^ 32) :
    (alignedSize size).toNat = roundedSize size := by
  have bound := size.toNat_lt
  rw [toNat_alignedSize, roundedSize]
  rw [roundedSize] at fits
  omega

/-- The bytes of a buffer in the memory of its bin. -/
def Buffer.bytes (buf : Buffer) : Set Nat :=
  Set.Ico buf.rawData.toNat (buf.rawData.toNat + buf.capacity.toNat)

/-- The size that is requested for the memory of a bin, a product of 32-bit numbers. -/
def Bin.requested (bin : Bin) : Nat := (bin.chunkSize * bin.chunkCount).toNat

/-- The chunks of a bin with a configured size. -/
structure Bin.LaidOut (bin : Bin) (size : UInt32) : Prop where
  aligned : bin.chunkSize.toNat % 64 = 0
  large : size ≤ bin.chunkSize
  disjoint : ∀ index < bin.chunkCount.toNat, ∀ other < bin.chunkCount.toNat, index ≠ other →
    Disjoint (bin.buffers index).bytes (bin.buffers other).bytes
  contained : ∀ index < bin.chunkCount.toNat, (bin.buffers index).bytes ⊆ Set.Iio bin.requested

/-- The chunks of all bins of a configuration. -/
def ChunksApart (config : List PoolDef) : Prop :=
  ∃ pool, initPool config = some pool ∧ pool.binCount = (config.take maxBins).length ∧
    ∀ index entry, (config.take maxBins)[index]? = some entry →
      (pool.bins index).LaidOut entry.chunkSize

/-- The offset of a chunk, where it does not wrap around. -/
theorem initBin_rawData {entry : PoolDef} {index : Nat}
    (fits : index * (alignedSize entry.chunkSize).toNat < 2 ^ 32) (small : index < 2 ^ 32) :
    ((initBin entry).buffers index).rawData.toNat =
      index * (alignedSize entry.chunkSize).toNat := by
  have index_eq : (UInt32.ofNat index).toNat = index := UInt32.toNat_ofNat_of_lt' small
  change (UInt32.ofNat index * alignedSize entry.chunkSize).toNat = _
  rw [UInt32.toNat_mul, index_eq]
  exact Nat.mod_eq_of_lt fits

/-- The chunks of a bin are apart if their memory has a size of 32 bits. -/
theorem initBin_laidOut {entry : PoolDef} (some_chunk : 0 < entry.chunkCount)
    (fits : roundedSize entry.chunkSize * entry.chunkCount.toNat < 2 ^ 32) :
    (initBin entry).LaidOut entry.chunkSize := by
  have positive : 0 < entry.chunkCount.toNat := UInt32.lt_iff_toNat_lt.mp some_chunk
  have rounded : roundedSize entry.chunkSize < 2 ^ 32 :=
    (Nat.le_mul_of_pos_right _ positive).trans_lt fits
  have aligned := toNat_alignedSize_of_lt rounded
  have requested : (initBin entry).requested =
      roundedSize entry.chunkSize * entry.chunkCount.toNat := by
    change (alignedSize entry.chunkSize * entry.chunkCount).toNat = _
    rw [UInt32.toNat_mul, aligned]
    exact Nat.mod_eq_of_lt fits
  have bytes : ∀ index < entry.chunkCount.toNat, ((initBin entry).buffers index).bytes =
      Lib.slot (roundedSize entry.chunkSize) index := by
    intro index inside
    have below : index * roundedSize entry.chunkSize < 2 ^ 32 := by
      refine lt_of_le_of_lt ?_ fits
      rw [Nat.mul_comm]
      exact Nat.mul_le_mul_left _ inside.le
    have offset := initBin_rawData (aligned.symm ▸ below) (inside.trans entry.chunkCount.toNat_lt)
    have capacity : ((initBin entry).buffers index).capacity.toNat = roundedSize entry.chunkSize :=
      aligned
    rw [Buffer.bytes, offset, capacity, aligned, Lib.slot, Nat.add_mul, Nat.one_mul]
  refine ⟨?_, ?_, ?_, ?_⟩
  · change (alignedSize entry.chunkSize).toNat % 64 = 0
    rw [aligned, roundedSize]
    exact Nat.mul_mod_left _ _
  · change entry.chunkSize ≤ alignedSize entry.chunkSize
    rw [UInt32.le_iff_toNat_le, aligned, roundedSize]
    omega
  · intro index inside other inside' different
    rw [bytes index inside, bytes other inside']
    exact Lib.disjoint_slot different
  · intro index inside
    rw [bytes index inside, requested, Nat.mul_comm]
    exact Lib.slot_subset inside

/-- If the memory has no size of 32 bits, rounding wraps around or some chunk is outside. -/
theorem not_initBin_laidOut {entry : PoolDef} (some_size : 0 < entry.chunkSize)
    (large : 2 ^ 32 ≤ roundedSize entry.chunkSize * entry.chunkCount.toNat) :
    ¬ (initBin entry).LaidOut entry.chunkSize := by
  intro laidOut
  have positive : 0 < entry.chunkSize.toNat := UInt32.lt_iff_toNat_lt.mp some_size
  have at_least : entry.chunkSize.toNat ≤ (alignedSize entry.chunkSize).toNat :=
    UInt32.le_iff_toNat_le.mp laidOut.large
  have aligned : (alignedSize entry.chunkSize).toNat = roundedSize entry.chunkSize := by
    have bound := entry.chunkSize.toNat_lt
    rw [toNat_alignedSize] at at_least ⊢
    rw [roundedSize]
    omega
  -- The last chunk that starts below `2 ^ 32` ends at or above it.
  let index := (2 ^ 32 - 1) / roundedSize entry.chunkSize
  have rounded : 0 < roundedSize entry.chunkSize := by omega
  have starts : index * roundedSize entry.chunkSize ≤ 2 ^ 32 - 1 := Nat.div_mul_le_self _ _
  have ends : 2 ^ 32 - 1 < (index + 1) * roundedSize entry.chunkSize :=
    Nat.lt_mul_of_div_lt (Nat.lt_succ_self _) rounded
  have inside : index < entry.chunkCount.toNat := by
    refine (Nat.div_lt_iff_lt_mul rounded).mpr ?_
    rw [Nat.mul_comm]
    omega
  have below : index * (alignedSize entry.chunkSize).toNat < 2 ^ 32 := by
    rw [aligned]
    omega
  have offset := initBin_rawData below (inside.trans entry.chunkCount.toNat_lt)
  have last : (index + 1) * roundedSize entry.chunkSize - 1 ∈
      ((initBin entry).buffers index).bytes := by
    have capacity : ((initBin entry).buffers index).capacity.toNat = roundedSize entry.chunkSize :=
      aligned
    rw [Buffer.bytes, offset, capacity, aligned, Set.mem_Ico]
    rw [Nat.add_mul, Nat.one_mul] at ends ⊢
    omega
  have contained := laidOut.contained index inside last
  have requested : (initBin entry).requested < 2 ^ 32 := UInt32.toNat_lt _
  rw [Set.mem_Iio] at contained
  omega

/-- The chunks of all bins are apart exactly if the memory of each bin has a size of 32 bits. -/
theorem chunksApart_iff {config : List PoolDef}
    (positive : ∀ entry ∈ config, 0 < entry.chunkSize ∧ 0 < entry.chunkCount) :
    ChunksApart config ↔ ∀ entry ∈ config.take maxBins,
      (entry.chunkSize.toNat + 63) / 64 * 64 * entry.chunkCount.toNat < 2 ^ 32 := by
  have usable : usableDefs config = config.take maxBins := by
    rw [usableDefs, List.takeWhile_eq_self_iff.mpr]
    exact fun entry member => decide_eq_true (positive entry member).1
  constructor
  · rintro ⟨pool, initialised, -, laidOut⟩ entry member
    obtain ⟨index, found⟩ := List.mem_iff_getElem?.mp member
    have bins := laidOut index entry found
    unfold initPool at initialised
    split at initialised
    · obtain rfl := Option.some.inj initialised
      simp only [poolOf, usable, found, Option.map_some, Option.getD_some] at bins
      by_contra large
      exact not_initBin_laidOut (positive entry (List.mem_of_mem_take member)).1
        (not_lt.mp large) bins
    · simp at initialised
  · intro fits
    have few : (usableDefs config).all fun entry => entry.chunkCount ≤ 2 ^ 31 := by
      rw [usable, List.all_eq_true]
      intro entry member
      have product := fits entry member
      have size := UInt32.lt_iff_toNat_lt.mp (positive entry (List.mem_of_mem_take member)).1
      have at_least : 64 ≤ (entry.chunkSize.toNat + 63) / 64 * 64 := by
        have zero : (0 : UInt32).toNat = 0 := rfl
        omega
      have bound := (Nat.mul_le_mul_right entry.chunkCount.toNat at_least).trans_lt product
      rw [decide_eq_true_eq, UInt32.le_iff_toNat_le]
      change entry.chunkCount.toNat ≤ 2 ^ 31
      omega
    refine ⟨poolOf config, if_pos few, by rw [poolOf, usable], fun index entry found => ?_⟩
    have member := List.mem_of_getElem? found
    simp only [poolOf, usable, found, Option.map_some, Option.getD_some]
    exact initBin_laidOut (positive entry (List.mem_of_mem_take member)).2 (fits entry member)

/-- Chunks of 100 and of 2048 bytes. -/
theorem two_bins_apart : ChunksApart [⟨100, 8⟩, ⟨2048, 4⟩] :=
  (chunksApart_iff (by decide)).mpr (by decide)

/-- 65536 chunks of 65536 bytes each are requested as no byte at all. -/
theorem four_gigabytes_overlap :
    ∃ config : List PoolDef, (∀ entry ∈ config, 0 < entry.chunkSize ∧ 0 < entry.chunkCount) ∧
      ¬ ChunksApart config := by
  refine ⟨[⟨65536, 65536⟩], by decide, ?_⟩
  rintro ⟨pool, initialised, -, laidOut⟩
  obtain rfl : poolOf [⟨65536, 65536⟩] = pool := Option.some.inj initialised
  exact not_initBin_laidOut (by decide) (by decide) (laidOut 0 ⟨65536, 65536⟩ rfl)

/-! ## Windows -/

namespace Buffer

/-- `nos_buffer_push`, with the new `data` where it succeeds. -/
def push (buf : Buffer) (size : UInt32) : Buffer × Option Int :=
  if buf.headroom < size then (buf, none)
  else
    ({ buf with
        headroom := buf.headroom - size
        data := buf.data - size.toNat
        len := buf.len + size }, some (buf.data - size.toNat))

/-- `nos_buffer_pull`, with the new `data` where it succeeds. -/
def pull (buf : Buffer) (size : UInt32) : Buffer × Option Int :=
  if buf.len < size then (buf, none)
  else
    ({ buf with
        headroom := buf.headroom + size
        data := buf.data + size.toNat
        len := buf.len - size }, some (buf.data + size.toNat))

/-- A call that moves the start of the window. -/
inductive Shift
  /-- `nos_buffer_push`. -/
  | push (size : UInt32)
  /-- `nos_buffer_pull`. -/
  | pull (size : UInt32)
  deriving DecidableEq, Repr

/-- Perform a call. -/
def shift (buf : Buffer) : Shift → Buffer
  | .push size => (buf.push size).1
  | .pull size => (buf.pull size).1

/-- The fields agree, and the window lies in the chunk. -/
structure Geometry (buf : Buffer) : Prop where
  /-- The parts make up the chunk, as natural numbers. -/
  sum : buf.headroom.toNat + buf.len.toNat + buf.tailroom.toNat = buf.capacity.toNat
  /-- The window starts after the headroom. -/
  start : buf.data = buf.headroom.toNat
  /-- The window is within the chunk. -/
  window : 0 ≤ buf.data ∧ buf.data + buf.len.toNat ≤ buf.capacity.toNat

/-- A refused call changes nothing, and each call undoes the other one. -/
structure Reversible (buf : Buffer) : Prop where
  pushRefused : ∀ size, (buf.push size).2 = none → (buf.push size).1 = buf
  pullRefused : ∀ size, (buf.pull size).2 = none → (buf.pull size).1 = buf
  pushPull : ∀ size, (buf.pull size).2.isSome → ((buf.pull size).1.push size).1 = buf
  pullPush : ∀ size, (buf.push size).2.isSome → ((buf.push size).1.pull size).1 = buf

/-- After any calls the fields agree, and the next calls are reversible. -/
def WellShaped (buf : Buffer) : Prop :=
  ∀ shifts : List Shift, (shifts.foldl shift buf).Geometry ∧ (shifts.foldl shift buf).Reversible

theorem Geometry.push {buf : Buffer} (geometry : buf.Geometry) (size : UInt32) :
    (buf.push size).1.Geometry := by
  unfold Buffer.push
  split
  · exact geometry
  · rename_i enough
    have enough' : size.toNat ≤ buf.headroom.toNat :=
      UInt32.le_iff_toNat_le.mp (UInt32.not_lt.mp enough)
    obtain ⟨sum, start, -, -⟩ := geometry
    have capacity := buf.capacity.toNat_lt
    have headroom : (buf.headroom - size).toNat = buf.headroom.toNat - size.toNat :=
      UInt32.toNat_sub_of_le _ _ (UInt32.not_lt.mp enough)
    have len : (buf.len + size).toNat = buf.len.toNat + size.toNat := by
      rw [UInt32.toNat_add]
      exact Nat.mod_eq_of_lt (by omega)
    refine ⟨?_, ?_, ?_⟩
    · simp only [headroom, len]
      omega
    · simp only [headroom, start]
      omega
    · simp only [len, start]
      omega

theorem Geometry.pull {buf : Buffer} (geometry : buf.Geometry) (size : UInt32) :
    (buf.pull size).1.Geometry := by
  unfold Buffer.pull
  split
  · exact geometry
  · rename_i enough
    have enough' : size.toNat ≤ buf.len.toNat :=
      UInt32.le_iff_toNat_le.mp (UInt32.not_lt.mp enough)
    obtain ⟨sum, start, -, -⟩ := geometry
    have capacity := buf.capacity.toNat_lt
    have len : (buf.len - size).toNat = buf.len.toNat - size.toNat :=
      UInt32.toNat_sub_of_le _ _ (UInt32.not_lt.mp enough)
    have headroom : (buf.headroom + size).toNat = buf.headroom.toNat + size.toNat := by
      rw [UInt32.toNat_add]
      exact Nat.mod_eq_of_lt (by omega)
    refine ⟨?_, ?_, ?_⟩
    · simp only [headroom, len]
      omega
    · simp only [headroom, start]
      omega
    · simp only [len, start]
      omega

theorem Geometry.reversible {buf : Buffer} (geometry : buf.Geometry) : buf.Reversible := by
  obtain ⟨sum, -, -⟩ := geometry
  have capacity := buf.capacity.toNat_lt
  refine ⟨fun size refused => ?_, fun size refused => ?_, fun size done => ?_, fun size done => ?_⟩
  · unfold Buffer.push at refused ⊢
    split at refused
    · rename_i short
      rw [if_pos short]
    · simp at refused
  · unfold Buffer.pull at refused ⊢
    split at refused
    · rename_i short
      rw [if_pos short]
    · simp at refused
  · unfold Buffer.pull at done ⊢
    split at done
    · simp at done
    · rename_i enough
      have enough' : size.toNat ≤ buf.len.toNat :=
        UInt32.le_iff_toNat_le.mp (UInt32.not_lt.mp enough)
      have room : ¬ buf.headroom + size < size := by
        rw [UInt32.not_lt, UInt32.le_iff_toNat_le, UInt32.toNat_add,
          Nat.mod_eq_of_lt (by omega)]
        omega
      rw [if_neg enough]
      simp only [Buffer.push, if_neg room]
      simp
  · unfold Buffer.push at done ⊢
    split at done
    · simp at done
    · rename_i enough
      have enough' : size.toNat ≤ buf.headroom.toNat :=
        UInt32.le_iff_toNat_le.mp (UInt32.not_lt.mp enough)
      have room : ¬ buf.len + size < size := by
        rw [UInt32.not_lt, UInt32.le_iff_toNat_le, UInt32.toNat_add,
          Nat.mod_eq_of_lt (by omega)]
        omega
      rw [if_neg enough]
      simp only [Buffer.pull, if_neg room]
      simp

theorem Geometry.wellShaped {buf : Buffer} (geometry : buf.Geometry) : buf.WellShaped := by
  intro shifts
  induction shifts generalizing buf with
  | nil => exact ⟨geometry, geometry.reversible⟩
  | cons first rest ih =>
      cases first with
      | push size => exact ih (geometry.push size)
      | pull size => exact ih (geometry.pull size)

end Buffer

/-! ## Allocated buffers -/

/-- A call on the pool. -/
inductive PoolCall
  /-- `nos_buffer_alloc`. -/
  | alloc (size headroom : UInt32)
  /-- `nos_buffer_retain`. -/
  | retain (id : BufferId)
  /-- The decrement of `nos_buffer_release`. -/
  | decrement (id : BufferId)
  /-- The locked part of `nos_buffer_release`. -/
  | putBack (id : BufferId)
  /-- A change of the reply context. -/
  | setReplyCtx (id : BufferId) (ctx : Option Nat)
  /-- `nos_buffer_push` or `nos_buffer_pull`. -/
  | shift (id : BufferId) (shift : Buffer.Shift)
  deriving DecidableEq, Repr

namespace Pool

/-- Move the window of a buffer. -/
def shiftBuffer (pool : Pool) (id : BufferId) (shift : Buffer.Shift) : Pool :=
  pool.setBin id.bin
    { pool.bins id.bin with
      buffers := Function.update (pool.bins id.bin).buffers id.index
        ((pool.buffer id).shift shift) }

/-- Perform a call; every call is possible. -/
def callStep (pool : Pool) : PoolCall → Option Pool
  | .alloc size headroom => some (pool.alloc size headroom).1
  | .retain id => some (pool.retain id)
  | .decrement id => some (pool.decrement id).1
  | .putBack id => some (pool.putBack id)
  | .setReplyCtx id ctx => some (pool.setReplyCtx id ctx)
  | .shift id shift => some (pool.shiftBuffer id shift)

/-- The capacity of each buffer is the chunk size of its bin. -/
def Sized (pool : Pool) : Prop :=
  ∀ bin index, ((pool.bins bin).buffers index).capacity = (pool.bins bin).chunkSize

theorem Sized.setBin {pool : Pool} (sized : pool.Sized) {index : Nat} {bin : Bin}
    (chunkSize : bin.chunkSize = (pool.bins index).chunkSize)
    (capacity : ∀ place, (bin.buffers place).capacity =
      ((pool.bins index).buffers place).capacity) : (pool.setBin index bin).Sized := by
  intro other place
  rcases eq_or_ne other index with rfl | different
  · rw [setBin_bins_self, capacity, chunkSize]
    exact sized other place
  · rw [setBin_bins_ne _ _ different]
    exact sized other place

theorem Sized.step {before after : Pool} (sized : before.Sized) {call : PoolCall}
    (stepped : before.callStep call = some after) : after.Sized := by
  have at_id {pool : Pool} (sized : pool.Sized) (id : BufferId) {buf : Buffer}
      (capacity : buf.capacity = (pool.buffer id).capacity) :
      (pool.setBin id.bin
        { pool.bins id.bin with
          buffers := Function.update (pool.bins id.bin).buffers id.index buf }).Sized := by
    refine sized.setBin rfl fun place => ?_
    dsimp only
    rcases eq_or_ne place id.index with rfl | different
    · rw [Function.update_self, capacity]
      rfl
    · rw [Function.update_of_ne different]
  cases call with
  | alloc size headroom =>
      obtain rfl := Option.some.inj stepped
      rcases alloc_cases before size headroom with failed | ⟨bin, index, rest, -, top, taken⟩
      · rw [failed]
        exact sized
      · rw [taken]
        refine sized.setBin (by simp [Bin.take, top]) fun place => ?_
        simp only [Bin.take, top]
        rcases eq_or_ne place index with rfl | different
        · rw [Function.update_self]
        · rw [Function.update_of_ne different]
  | retain id =>
      obtain rfl := Option.some.inj stepped
      exact at_id sized id rfl
  | decrement id =>
      obtain rfl := Option.some.inj stepped
      exact at_id sized id rfl
  | putBack id =>
      obtain rfl := Option.some.inj stepped
      refine sized.setBin rfl fun place => ?_
      simp only [Bin.putBack]
      rcases eq_or_ne place id.index with rfl | different
      · rw [Function.update_self]
      · rw [Function.update_of_ne different]
  | setReplyCtx id ctx =>
      obtain rfl := Option.some.inj stepped
      exact at_id sized id rfl
  | shift id shift =>
      obtain rfl := Option.some.inj stepped
      refine at_id sized id ?_
      cases shift with
      | push size =>
          simp only [Buffer.shift, Buffer.push]
          split <;> rfl
      | pull size =>
          simp only [Buffer.shift, Buffer.pull]
          split <;> rfl

theorem sized_of_initPool {config : List PoolDef} {pool : Pool}
    (initialised : initPool config = some pool) : pool.Sized := by
  unfold initPool at initialised
  split at initialised
  · obtain rfl := Option.some.inj initialised
    intro bin index
    simp only [poolOf]
    cases (usableDefs config)[bin]? <;> rfl
  · simp at initialised

/-- A buffer that is returned comes from a bin whose chunk size is at least the wrapped sum. -/
theorem alloc_serves {pool after : Pool} {size headroom : UInt32} {id : BufferId}
    (allocated : pool.alloc size headroom = (after, some id)) :
    size + headroom ≤ (pool.bins id.bin).chunkSize ∧
      after.buffer id =
        { pool.buffer id with
          refCnt := 1
          headroom := headroom
          data := headroom.toNat
          len := size
          tailroom := (pool.buffer id).capacity - headroom - size
          replyCtx := none } := by
  unfold alloc at allocated
  split at allocated
  · simp at allocated
  · rename_i bin found
    obtain ⟨rfl, taken⟩ := Prod.mk.inj allocated
    obtain ⟨index, top, rfl⟩ := Option.map_eq_some_iff.mp taken
    have enough := List.find?_some found
    simp only [serves, Bool.and_eq_true, decide_eq_true_eq] at enough
    obtain ⟨rest, stack⟩ := List.head?_eq_some_iff.mp top
    refine ⟨enough.1, ?_⟩
    rw [setBin_buffer]
    simp [Bin.take, stack, buffer]

end Pool

/-- A buffer that is returned by an allocation is well-shaped exactly if the sum of its length and
its headroom did not wrap around. -/
theorem allocated_wellShaped_iff {config : List PoolDef} {pool after : Pool} {size headroom : UInt32}
    {id : BufferId} (reach : Reachable Pool.callStep (initPool config = some ·) pool)
    (allocated : pool.alloc size headroom = (after, some id)) :
    (after.buffer id).WellShaped ↔ size.toNat + headroom.toNat < 2 ^ 32 := by
  have sized : pool.Sized := Reach.invariant Pool.Sized
    (fun _ initialised => Pool.sized_of_initPool initialised)
    (fun _ _ _ sized _ stepped => sized.step stepped) reach
  obtain ⟨serves, buffer_eq⟩ := Pool.alloc_serves allocated
  have capacity : (pool.buffer id).capacity = (pool.bins id.bin).chunkSize := sized id.bin id.index
  rw [← capacity] at serves
  rw [buffer_eq]
  constructor
  · intro wellShaped
    obtain ⟨sum, -, -⟩ := (wellShaped []).1
    have bound := (pool.buffer id).capacity.toNat_lt
    simp only [List.foldl_nil] at sum
    omega
  · intro fits
    have total : (size + headroom).toNat = size.toNat + headroom.toNat := by
      rw [UInt32.toNat_add]
      exact Nat.mod_eq_of_lt fits
    have room := UInt32.le_iff_toNat_le.mp serves
    rw [total] at room
    have tailroom : ((pool.buffer id).capacity - headroom - size).toNat =
        (pool.buffer id).capacity.toNat - headroom.toNat - size.toNat := by
      have first : headroom ≤ (pool.buffer id).capacity := by
        rw [UInt32.le_iff_toNat_le]
        omega
      have middle := UInt32.toNat_sub_of_le _ _ first
      rw [UInt32.toNat_sub_of_le, middle]
      rw [UInt32.le_iff_toNat_le, middle]
      omega
    refine Buffer.Geometry.wellShaped ⟨?_, rfl, ?_⟩
    · simp only [tailroom]
      omega
    · dsimp only
      omega

/-- A message of 40 bytes with a headroom of 16 bytes in a chunk of 64 bytes. -/
theorem small_buffer_wellShaped :
    ∃ after id, (poolOf [⟨64, 1⟩]).alloc 40 16 = (after, some id) ∧
      (after.buffer id).WellShaped := by
  have allocated : (poolOf [⟨64, 1⟩]).alloc 40 16 =
      (((poolOf [⟨64, 1⟩]).alloc 40 16).1, some ⟨0, 0⟩) := Prod.ext rfl (by decide)
  have reach : Reachable Pool.callStep (initPool [⟨64, 1⟩] = some ·) (poolOf [⟨64, 1⟩]) :=
    .start rfl
  exact ⟨_, _, allocated, (allocated_wellShaped_iff reach allocated).mpr (by decide)⟩

/-- The sum of `2 ^ 32 - 1` bytes and a headroom of one byte is zero, so every bin is sufficient. -/
theorem wrapped_sum_overruns :
    ∃ (config : List PoolDef) (pool after : Pool) (size headroom : UInt32) (id : BufferId),
      Reachable Pool.callStep (initPool config = some ·) pool ∧
        pool.alloc size headroom = (after, some id) ∧ ¬ (after.buffer id).WellShaped := by
  have allocated : (poolOf [⟨64, 1⟩]).alloc 4294967295 1 =
      (((poolOf [⟨64, 1⟩]).alloc 4294967295 1).1, some ⟨0, 0⟩) := Prod.ext rfl (by decide)
  refine ⟨[⟨64, 1⟩], _, _, 4294967295, 1, ⟨0, 0⟩, .start rfl, allocated, fun wellShaped => ?_⟩
  obtain ⟨sum, -, -⟩ := (wellShaped []).1
  rw [(Pool.alloc_serves allocated).2] at sum
  have bound := ((poolOf [⟨64, 1⟩]).buffer ⟨0, 0⟩).capacity.toNat_lt
  have large : (4294967295 : UInt32).toNat = 4294967295 := rfl
  have one : (1 : UInt32).toNat = 1 := rfl
  simp only [List.foldl_nil, large, one] at sum
  omega

end CodexNos.Memory
