import CodexNos.Kv.Table
import CodexNos.Lib.Slots

/-!
# The sizes of a table

`nos_kv_table_create` doubles the number of buckets until it reaches the capacity, and computes the
size of an entry in 32 bits.  An entry is found at the product of its index and this size, in 32
bits again.
-/

namespace CodexNos.Kv

/-! ## Sizes -/

/-- `sizeof(nos_kv_entry_t)`. -/
def entryHeader : UInt32 := 16

/-- The numbers of a table. -/
structure TableSizes where
  /-- `key_size`. -/
  keySize : UInt32
  /-- `max_val_size`. -/
  maxValSize : UInt32
  /-- `entry_size`. -/
  entrySize : UInt32
  /-- `capacity`. -/
  capacity : UInt32
  /-- `bucket_count`. -/
  bucketCount : UInt32
  deriving DecidableEq, Repr

/-- The loop that sizes the bucket array, for a number of turns at most. -/
def bucketLoop (capacity : UInt32) : Nat → UInt32 → Option UInt32
  | 0, _ => none
  | turns + 1, bucketCount =>
      if bucketCount < capacity then bucketLoop capacity turns (bucketCount <<< 1)
      else some bucketCount

/-- The numbers that `nos_kv_table_create` gives to a table. -/
def createSizes (turns : Nat) (keySize maxValSize capacity : UInt32) : Option TableSizes :=
  if keySize = 0 ∨ capacity = 0 then none
  else
    (bucketLoop capacity turns 1024).map fun bucketCount =>
      { keySize := keySize
        maxValSize := maxValSize
        entrySize := entryHeader + keySize + maxValSize
        capacity := capacity
        bucketCount := bucketCount }

namespace TableSizes

/-- Where `get_entry` finds an entry. -/
def entryOffset (sizes : TableSizes) (idx : UInt32) : UInt32 := idx * sizes.entrySize

/-- The number of bytes that an entry needs for itself, its key and its value. -/
def needed (sizes : TableSizes) : Nat :=
  entryHeader.toNat + sizes.keySize.toNat + sizes.maxValSize.toNat

/-- The bytes of an entry with its key and its value. -/
def entryBytes (sizes : TableSizes) (idx : UInt32) : Set Nat :=
  Set.Ico (sizes.entryOffset idx).toNat ((sizes.entryOffset idx).toNat + sizes.needed)

/-- The bytes of the entry pool, a product of `size_t`. -/
def poolBytes (sizes : TableSizes) : Nat := sizes.capacity.toNat * sizes.entrySize.toNat

/-- The entries are in the pool, and two of them have no byte in common. -/
structure EntriesApart (sizes : TableSizes) : Prop where
  contained : ∀ idx < sizes.capacity, sizes.entryBytes idx ⊆ Set.Iio sizes.poolBytes
  disjoint : ∀ idx < sizes.capacity, ∀ other < sizes.capacity, idx ≠ other →
    Disjoint (sizes.entryBytes idx) (sizes.entryBytes other)

end TableSizes

/-! ## Buckets -/

/-- The number of buckets is a power of two that is large enough, and finds a bucket for each
hash. -/
structure UsableBuckets (capacity bucketCount : UInt32) : Prop where
  power : ∃ exponent, bucketCount.toNat = 2 ^ exponent
  enough : capacity ≤ bucketCount
  least : 1024 ≤ bucketCount
  index : ∀ hash : UInt32, hash % bucketCount < bucketCount

theorem toNat_double {bucketCount : UInt32} {exponent : Nat}
    (power : bucketCount.toNat = 2 ^ exponent) (below : exponent < 31) :
    (bucketCount <<< 1).toNat = 2 ^ (exponent + 1) := by
  have fits : 2 ^ (exponent + 1) < 2 ^ 32 := Nat.pow_lt_pow_right (by decide) (by omega)
  rw [UInt32.toNat_shiftLeft, power]
  change 2 ^ exponent <<< 1 % 2 ^ 32 = _
  rw [Nat.shiftLeft_eq, ← pow_succ, Nat.mod_eq_of_lt fits]

/-- The loop ends if the capacity is no larger than the largest power of two. -/
theorem bucketLoop_ends {capacity bucketCount : UInt32} {exponent : Nat}
    (small : capacity.toNat ≤ 2 ^ 31) (power : bucketCount.toNat = 2 ^ exponent)
    (at_least : 10 ≤ exponent) (at_most : exponent ≤ 31) :
    ∃ turns count, bucketLoop capacity turns bucketCount = some count ∧
      UsableBuckets capacity count := by
  by_cases done : capacity ≤ bucketCount
  · refine ⟨1, bucketCount, if_neg (UInt32.not_lt.mpr done), ⟨exponent, power⟩, done, ?_, ?_⟩
    · rw [UInt32.le_iff_toNat_le, power]
      exact Nat.pow_le_pow_right Nat.two_pos at_least
    · intro hash
      rw [UInt32.lt_iff_toNat_lt, UInt32.toNat_mod, power]
      exact Nat.mod_lt _ (Nat.two_pow_pos exponent)
  · have larger : exponent < 31 := by
      rw [UInt32.le_iff_toNat_le, power] at done
      have less : 2 ^ exponent < 2 ^ 31 := lt_of_lt_of_le (not_le.mp done) small
      exact (Nat.pow_lt_pow_iff_right Nat.one_lt_two).mp less
    obtain ⟨turns, count, ends, usable⟩ :=
      bucketLoop_ends small (toNat_double power larger) (by omega) (by omega)
    exact ⟨turns + 1, count, by rw [bucketLoop, if_pos (UInt32.not_le.mp done), ends], usable⟩
  termination_by 31 - exponent

/-- Beyond the largest power of two the count stays below the capacity: it ends up at zero. -/
theorem bucketLoop_endless {capacity : UInt32} (large : 2 ^ 31 < capacity.toNat) (turns : Nat)
    {bucketCount : UInt32}
    (reached : bucketCount = 0 ∨ ∃ exponent ≤ 31, bucketCount.toNat = 2 ^ exponent) :
    bucketLoop capacity turns bucketCount = none := by
  induction turns generalizing bucketCount with
  | zero => rfl
  | succ turns ih =>
      have below : bucketCount < capacity := by
        rw [UInt32.lt_iff_toNat_lt]
        rcases reached with rfl | ⟨exponent, at_most, power⟩
        · exact Nat.zero_lt_of_lt large
        · rw [power]
          exact lt_of_le_of_lt (Nat.pow_le_pow_right (by decide) at_most) large
      rw [bucketLoop, if_pos below]
      refine ih ?_
      rcases reached with rfl | ⟨exponent, at_most, power⟩
      · exact .inl rfl
      · rcases Nat.lt_or_eq_of_le at_most with lower | rfl
        · exact .inr ⟨exponent + 1, lower, toNat_double power lower⟩
        · have top : bucketCount = 2147483648 := UInt32.toNat_inj.mp power
          exact .inl (by rw [top]; rfl)

/-- The loop ends with a usable number of buckets exactly if the capacity is no larger than the
largest power of two. -/
theorem bucketLoop_iff (capacity : UInt32) :
    (∃ turns count, bucketLoop capacity turns 1024 = some count ∧ UsableBuckets capacity count) ↔
      capacity.toNat ≤ 2 ^ 31 := by
  constructor
  · rintro ⟨turns, count, ends, -⟩
    by_contra large
    rw [bucketLoop_endless (not_le.mp large) turns (.inr ⟨10, by decide, rfl⟩)] at ends
    simp at ends
  · intro small
    have power : (1024 : UInt32).toNat = 2 ^ 10 := rfl
    exact bucketLoop_ends small power le_rfl (by decide)

/-- A capacity just beyond the largest power of two. -/
theorem capacity_never_reached :
    ∃ capacity : UInt32, 1 ≤ capacity ∧
      ¬ ∃ turns count, bucketLoop capacity turns 1024 = some count ∧
        UsableBuckets capacity count := by
  refine ⟨2147483649, by decide, ?_⟩
  rintro ⟨turns, count, ends, -⟩
  rw [bucketLoop_endless (by decide) turns (.inr ⟨10, by decide, rfl⟩)] at ends
  simp at ends

/-! ## Entries -/

/-- The numbers of a created table; the entry size is the number of needed bytes in 32 bits. -/
theorem createSizes_fields {turns : Nat} {keySize maxValSize capacity : UInt32}
    {sizes : TableSizes} (created : createSizes turns keySize maxValSize capacity = some sizes) :
    0 < capacity.toNat ∧ sizes.capacity = capacity ∧
      sizes.needed = 16 + keySize.toNat + maxValSize.toNat ∧
      sizes.entrySize.toNat = sizes.needed % 2 ^ 32 := by
  unfold createSizes at created
  split at created
  · simp at created
  · rename_i accepted
    obtain ⟨bucketCount, -, rfl⟩ := Option.map_eq_some_iff.mp created
    refine ⟨?_, rfl, rfl, ?_⟩
    · rw [not_or] at accepted
      exact Nat.pos_of_ne_zero fun zero => accepted.2 (UInt32.toNat_inj.mp zero)
    · change (entryHeader + keySize + maxValSize).toNat = _
      rw [UInt32.toNat_add, UInt32.toNat_add, Nat.mod_add_mod]
      rfl

namespace TableSizes

variable {sizes : TableSizes}

theorem toNat_entryOffset (size : sizes.entrySize.toNat = sizes.needed % 2 ^ 32) (idx : UInt32) :
    (sizes.entryOffset idx).toNat = idx.toNat * sizes.needed % 2 ^ 32 := by
  rw [entryOffset, UInt32.toNat_mul, size, Nat.mul_mod_mod]

/-- The entries are slots if the offset of the last one has 32 bits. -/
theorem entriesApart (size : sizes.entrySize.toNat = sizes.needed % 2 ^ 32)
    (fits : sizes.needed < 2 ^ 32) (last : (sizes.capacity.toNat - 1) * sizes.needed < 2 ^ 32) :
    sizes.EntriesApart := by
  have bytes : ∀ idx < sizes.capacity, sizes.entryBytes idx = Lib.slot sizes.needed idx.toNat := by
    intro idx inside
    have start : idx.toNat * sizes.needed ≤ (sizes.capacity.toNat - 1) * sizes.needed :=
      Lib.slot_start_le (UInt32.lt_iff_toNat_lt.mp inside)
    rw [entryBytes, toNat_entryOffset size, Nat.mod_eq_of_lt (start.trans_lt last), Lib.slot,
      Nat.succ_mul]
  constructor
  · intro idx inside
    rw [bytes idx inside, poolBytes, size, Nat.mod_eq_of_lt fits]
    exact Lib.slot_subset (UInt32.lt_iff_toNat_lt.mp inside)
  · intro idx inside other inside' different
    rw [bytes idx inside, bytes other inside']
    exact Lib.disjoint_slot fun same => different (UInt32.toNat_inj.mp same)

theorem mem_entryBytes_zero {place : Nat} : place ∈ sizes.entryBytes 0 ↔ place < sizes.needed := by
  have start : (sizes.entryOffset 0).toNat = 0 := by
    rw [entryOffset, UInt32.zero_mul]
    rfl
  rw [entryBytes, start, Set.mem_Ico, Nat.zero_add]
  exact and_iff_right (Nat.zero_le _)

/-- An entry whose offset wraps around is over the first entry. -/
theorem not_disjoint_of_wrapped (size : sizes.entrySize.toNat = sizes.needed % 2 ^ 32)
    (large : 2 ^ 32 ≤ (sizes.capacity.toNat - 1) * sizes.needed) : ¬ sizes.EntriesApart := by
  intro apart
  obtain ⟨index, not_first, inside, wrapped⟩ := Lib.exists_wrapped (by decide) large
  have index_eq : (UInt32.ofNat index).toNat = index :=
    UInt32.toNat_ofNat_of_lt' (inside.trans sizes.capacity.toNat_lt)
  have below : UInt32.ofNat index < sizes.capacity := by
    rw [UInt32.lt_iff_toNat_lt, index_eq]
    exact inside
  have start : (sizes.entryOffset (UInt32.ofNat index)).toNat < sizes.needed := by
    rw [toNat_entryOffset size, index_eq]
    exact wrapped
  have different : UInt32.ofNat index ≠ 0 := by
    intro same
    rw [same] at index_eq
    exact not_first.ne index_eq
  have first : (0 : UInt32) < sizes.capacity :=
    UInt32.lt_iff_toNat_lt.mpr (not_first.trans inside)
  have separate := apart.disjoint _ below 0 first different
  refine Set.disjoint_left.mp separate ?_ (mem_entryBytes_zero.mpr start)
  exact ⟨le_rfl, Nat.lt_add_of_pos_right (Nat.zero_lt_of_lt start)⟩

end TableSizes

/-- The entries of a created table are apart exactly if the number of bytes of an entry and the
offset of the last entry have 32 bits. -/
theorem entriesApart_iff {turns : Nat} {keySize maxValSize capacity : UInt32} {sizes : TableSizes}
    (created : createSizes turns keySize maxValSize capacity = some sizes) :
    sizes.EntriesApart ↔ 16 + keySize.toNat + maxValSize.toNat < 2 ^ 32 ∧
      (capacity.toNat - 1) * (16 + keySize.toNat + maxValSize.toNat) < 2 ^ 32 := by
  obtain ⟨some_entry, rfl, needed, size⟩ := createSizes_fields created
  rw [← needed]
  constructor
  · intro apart
    have last : (sizes.capacity.toNat - 1) * sizes.needed < 2 ^ 32 := by
      by_contra large
      exact TableSizes.not_disjoint_of_wrapped size (not_lt.mp large) apart
    refine ⟨?_, last⟩
    by_contra large
    -- A table of one entry has no room for it.
    have single : sizes.capacity.toNat = 1 := by
      by_contra several
      have two : 1 ≤ sizes.capacity.toNat - 1 := by omega
      exact large ((Nat.le_mul_of_pos_left _ two).trans_lt last)
    have first : 2 ^ 32 - 1 ∈ sizes.entryBytes 0 :=
      TableSizes.mem_entryBytes_zero.mpr (Nat.lt_of_lt_of_le (by decide) (not_lt.mp large))
    have inside := apart.contained 0 (UInt32.lt_iff_toNat_lt.mpr some_entry) first
    have bound := sizes.entrySize.toNat_lt
    rw [TableSizes.poolBytes, single, Nat.one_mul, Set.mem_Iio] at inside
    omega
  · rintro ⟨fits, last⟩
    exact TableSizes.entriesApart size fits last

/-- A table of 1024 entries of 28 bytes. -/
theorem small_entries_apart :
    ∃ sizes, createSizes 1 4 8 1024 = some sizes ∧ sizes.EntriesApart := by
  have created : createSizes 1 4 8 1024 = some ⟨4, 8, 28, 1024, 1024⟩ := rfl
  exact ⟨_, created, (entriesApart_iff created).mpr (by decide)⟩

/-- The last of 65537 entries of 65536 bytes is over the first. -/
theorem last_entry_over_first :
    ∃ keySize maxValSize capacity : UInt32, ∃ turns sizes,
      createSizes turns keySize maxValSize capacity = some sizes ∧ ¬ sizes.EntriesApart :=
  ⟨16, 65504, 65537, 8, _, rfl, TableSizes.not_disjoint_of_wrapped rfl (by decide)⟩

end CodexNos.Kv
