import CodexNos.Memory.Pool

/-!
# The pool keeps its buffers apart

A buffer of the pool is either free, or referenced, or on its way back: its last reference is
gone and the thread that released it has not yet put it back.  The reference count of a buffer is
the number of its references, as long as this number fits into the count.
-/

namespace CodexNos.Memory

open Lib.Transition

variable {θ : Type*}

namespace Pool

/-- The buffer belongs to the pool. -/
def Valid (pool : Pool) (id : BufferId) : Prop :=
  id.bin < pool.binCount ∧ id.index < (pool.bins id.bin).chunkCount.toNat

/-- The buffer is on the stack of its bin. -/
def Free (pool : Pool) (id : BufferId) : Prop := id.index ∈ (pool.bins id.bin).freeStack

instance (pool : Pool) (id : BufferId) : Decidable (pool.Valid id) := by
  unfold Valid
  infer_instance

instance (pool : Pool) (id : BufferId) : Decidable (pool.Free id) := by
  unfold Free
  infer_instance

end Pool

/-- The shape of a bin: its stack and its counters. -/
structure Bin.Tidy (bin : Bin) : Prop where
  nodup : bin.freeStack.Nodup
  inside : ∀ index ∈ bin.freeStack, index < bin.chunkCount.toNat
  used : bin.usedCount.toNat + bin.freeStack.length = bin.chunkCount.toNat
  peak : bin.usedCount ≤ bin.peakCount

/-- The pool agrees with the references to its buffers and with the buffers on their way back. -/
structure Accounted (pool : Pool) (releasing : θ → Option BufferId)
    (references : List BufferId) : Prop where
  tidy : ∀ bin < pool.binCount, (pool.bins bin).Tidy
  /-- Only buffers of the pool are referenced. -/
  referenced : ∀ id ∈ references, pool.Valid id
  /-- The number of references fits. -/
  fits : ∀ id, references.count id < 2 ^ 32
  /-- The reference count is the number of references. -/
  refCnt : ∀ id, pool.Valid id → (pool.buffer id).refCnt = BitVec.ofNat 32 (references.count id)
  /-- A buffer on its way back is a buffer of the pool without references. -/
  returning : ∀ thread id, releasing thread = some id → pool.Valid id ∧ id ∉ references
  /-- Only one thread takes a buffer back. -/
  single : ∀ thread thread' id, releasing thread = some id → releasing thread' = some id →
    thread = thread'
  /-- A buffer is free, referenced or on its way back. -/
  free : ∀ id, pool.Valid id →
    (pool.Free id ↔ id ∉ references ∧ ∀ thread, releasing thread ≠ some id)

/-! ## Bins -/

theorem Bin.Tidy.take {bin : Bin} (tidy : bin.Tidy) {index : Nat} {rest : List Nat}
    (top : bin.freeStack = index :: rest) (size headroom : UInt32) :
    (bin.take size headroom).Tidy := by
  obtain ⟨nodup, inside, used, peak⟩ := tidy
  rw [top] at nodup inside used
  have count_lt : bin.chunkCount.toNat < 2 ^ 32 := bin.chunkCount.toNat_lt
  have incremented : (bin.usedCount + 1).toNat = bin.usedCount.toNat + 1 := by
    rw [UInt32.toNat_add]
    simp only [List.length_cons] at used
    apply Nat.mod_eq_of_lt
    simp only [UInt32.toNat_one]
    omega
  constructor
  · simpa [Bin.take, top] using (List.nodup_cons.mp nodup).2
  · intro place present
    simp only [Bin.take, top] at present ⊢
    exact inside place (List.mem_cons_of_mem index present)
  · simp only [Bin.take, top, incremented]
    simp only [List.length_cons] at used
    omega
  · simp only [Bin.take, top]
    split
    · exact UInt32.le_refl _
    · exact UInt32.not_lt.mp ‹_›

theorem Bin.Tidy.putBack {bin : Bin} (tidy : bin.Tidy) {index : Nat}
    (inside : index < bin.chunkCount.toNat) (missing : index ∉ bin.freeStack) :
    (bin.putBack index).Tidy := by
  have room : bin.freeStack.length < bin.chunkCount.toNat := by
    have all_inside : (index :: bin.freeStack) ⊆ List.range bin.chunkCount.toNat := by
      intro place present
      rcases List.mem_cons.mp present with rfl | present
      · exact List.mem_range.mpr inside
      · exact List.mem_range.mpr (tidy.inside place present)
    have := (List.nodup_cons.mpr ⟨missing, tidy.nodup⟩).subperm all_inside |>.length_le
    simpa using this
  have used := tidy.used
  have decremented : (bin.usedCount - 1).toNat = bin.usedCount.toNat - 1 := by
    apply UInt32.toNat_sub_of_le
    rw [UInt32.le_iff_toNat_le, UInt32.toNat_one]
    omega
  constructor
  · exact List.nodup_cons.mpr ⟨missing, tidy.nodup⟩
  · intro place present
    rcases List.mem_cons.mp present with rfl | present
    · exact inside
    · exact tidy.inside place present
  · simp only [Bin.putBack, List.length_cons, decremented]
    omega
  · simp only [Bin.putBack]
    rw [UInt32.le_iff_toNat_le, decremented]
    have := UInt32.le_iff_toNat_le.mp tidy.peak
    omega

theorem Bin.putBack_refCnt (bin : Bin) (index place : Nat) :
    ((bin.putBack index).buffers place).refCnt = (bin.buffers place).refCnt := by
  by_cases same : place = index
  · simp [Bin.putBack, same]
  · simp [Bin.putBack, same]

theorem Bin.take_refCnt {bin : Bin} {index : Nat} {rest : List Nat}
    (top : bin.freeStack = index :: rest) (size headroom : UInt32) (place : Nat) :
    ((bin.take size headroom).buffers place).refCnt =
      if place = index then 1 else (bin.buffers place).refCnt := by
  by_cases same : place = index
  · simp [Bin.take, top, same]
  · simp [Bin.take, top, same]

theorem Bin.take_chunkCount (bin : Bin) (size headroom : UInt32) :
    (bin.take size headroom).chunkCount = bin.chunkCount := by
  cases top : bin.freeStack <;> simp [Bin.take, top]

/-! ## Changes of the pool -/

namespace Pool

@[simp]
theorem setBin_binCount (pool : Pool) (index : Nat) (bin : Bin) :
    (pool.setBin index bin).binCount = pool.binCount := rfl

@[simp]
theorem setBin_bins_self (pool : Pool) (index : Nat) (bin : Bin) :
    (pool.setBin index bin).bins index = bin := by simp [setBin]

theorem setBin_bins_ne (pool : Pool) {index other : Nat} (bin : Bin) (distinct : other ≠ index) :
    (pool.setBin index bin).bins other = pool.bins other := by simp [setBin, distinct]

theorem setBin_buffer (pool : Pool) (index : Nat) (bin : Bin) (id : BufferId) :
    (pool.setBin index bin).buffer id =
      if id.bin = index then bin.buffers id.index else pool.buffer id := by
  unfold buffer
  split
  · rename_i same
    simp [same]
  · rename_i distinct
    rw [setBin_bins_ne _ _ distinct]

theorem valid_setBin {pool : Pool} {index : Nat} {bin : Bin}
    (count : bin.chunkCount = (pool.bins index).chunkCount) (id : BufferId) :
    (pool.setBin index bin).Valid id ↔ pool.Valid id := by
  unfold Valid
  by_cases same : id.bin = index
  · simp [same, count]
  · simp [setBin_bins_ne _ _ same]

@[simp]
theorem setRefCnt_valid (pool : Pool) (id : BufferId) (count : BitVec 32) (other : BufferId) :
    (pool.setRefCnt id count).Valid other ↔ pool.Valid other := valid_setBin (by simp) other

theorem setRefCnt_bins (pool : Pool) (id : BufferId) (count : BitVec 32) (index : Nat) :
    ((pool.setRefCnt id count).bins index).freeStack = (pool.bins index).freeStack ∧
      ((pool.setRefCnt id count).bins index).chunkCount = (pool.bins index).chunkCount ∧
      ((pool.setRefCnt id count).bins index).usedCount = (pool.bins index).usedCount ∧
      ((pool.setRefCnt id count).bins index).peakCount = (pool.bins index).peakCount := by
  by_cases same : index = id.bin
  · subst same
    simp [setRefCnt]
  · simp [setRefCnt, setBin_bins_ne _ _ same]

@[simp]
theorem setRefCnt_free (pool : Pool) (id : BufferId) (count : BitVec 32) (other : BufferId) :
    (pool.setRefCnt id count).Free other ↔ pool.Free other := by
  unfold Free
  rw [(setRefCnt_bins pool id count other.bin).1]

theorem setRefCnt_tidy {pool : Pool} {id : BufferId} {count : BitVec 32} {index : Nat}
    (tidy : (pool.bins index).Tidy) : ((pool.setRefCnt id count).bins index).Tidy := by
  obtain ⟨stack_eq, count_eq, used_eq, peak_eq⟩ := setRefCnt_bins pool id count index
  obtain ⟨nodup, inside, used, peak⟩ := tidy
  constructor
  · rwa [stack_eq]
  · rwa [stack_eq, count_eq]
  · rwa [stack_eq, count_eq, used_eq]
  · rwa [used_eq, peak_eq]

theorem setRefCnt_refCnt (pool : Pool) (id : BufferId) (count : BitVec 32) (other : BufferId) :
    ((pool.setRefCnt id count).buffer other).refCnt =
      if other = id then count else (pool.buffer other).refCnt := by
  obtain ⟨bin, index⟩ := id
  obtain ⟨bin', index'⟩ := other
  rw [setRefCnt, setBin_buffer]
  by_cases same_bin : bin' = bin
  · subst same_bin
    by_cases same : index' = index
    · simp [same]
    · simp [same, buffer]
  · simp [same_bin]

theorem putBack_free (pool : Pool) (id other : BufferId) :
    (pool.putBack id).Free other ↔ other = id ∨ pool.Free other := by
  obtain ⟨bin, index⟩ := id
  obtain ⟨bin', index'⟩ := other
  unfold Free putBack
  by_cases same_bin : bin' = bin
  · subst same_bin
    simp [Bin.putBack]
  · simp [setBin_bins_ne _ _ same_bin, same_bin]

/-- An allocation fails and changes nothing, or takes the top of a stack. -/
theorem alloc_cases (pool : Pool) (size headroom : UInt32) :
    pool.alloc size headroom = (pool, none) ∨
      ∃ bin index rest, bin < pool.binCount ∧ (pool.bins bin).freeStack = index :: rest ∧
        pool.alloc size headroom =
          (pool.setBin bin ((pool.bins bin).take size headroom), some ⟨bin, index⟩) := by
  unfold alloc
  cases found : (List.range pool.binCount).find? (pool.serves (size + headroom)) with
  | none => exact .inl rfl
  | some bin =>
      have inside : bin < pool.binCount := List.mem_range.mp (List.mem_of_find?_eq_some found)
      have serves : pool.serves (size + headroom) bin = true := List.find?_some found
      cases top : (pool.bins bin).freeStack with
      | nil => simp [Pool.serves, Bin.freeTop, top] at serves
      | cons index rest => exact .inr ⟨bin, index, rest, inside, top, by simp [top]⟩

/-- Taking the top of a stack sets its reference count and no other one. -/
theorem take_refCnt {pool : Pool} {bin index : Nat} {rest : List Nat}
    (top : (pool.bins bin).freeStack = index :: rest) (size headroom : UInt32) (other : BufferId) :
    ((pool.setBin bin ((pool.bins bin).take size headroom)).buffer other).refCnt =
      if other = ⟨bin, index⟩ then 1 else (pool.buffer other).refCnt := by
  obtain ⟨bin', index'⟩ := other
  rw [setBin_buffer]
  by_cases same_bin : bin' = bin
  · subst same_bin
    simp [Bin.take_refCnt top, buffer]
  · simp [same_bin]

/-- Taking the top of a stack makes it not free and changes nothing else about who is free. -/
theorem take_free {pool : Pool} {bin index : Nat} {rest : List Nat}
    (top : (pool.bins bin).freeStack = index :: rest) (nodup : (pool.bins bin).freeStack.Nodup)
    (size headroom : UInt32) (other : BufferId) :
    (pool.setBin bin ((pool.bins bin).take size headroom)).Free other ↔
      pool.Free other ∧ other ≠ ⟨bin, index⟩ := by
  obtain ⟨bin', index'⟩ := other
  unfold Free
  by_cases same_bin : bin' = bin
  · subst same_bin
    rw [top, List.nodup_cons] at nodup
    simp only [setBin_bins_self, Bin.take, top, List.mem_cons, ne_eq, BufferId.mk.injEq, true_and]
    constructor
    · intro below
      refine ⟨.inr below, ?_⟩
      rintro rfl
      exact nodup.1 below
    · rintro ⟨same | below, distinct⟩
      · exact absurd same distinct
      · exact below
  · simp [setBin_bins_ne _ _ same_bin, same_bin]

theorem refCnt_of_alloc {pool pool' : Pool} {size headroom : UInt32} {id : BufferId}
    (alloc : pool.alloc size headroom = (pool', some id)) : (pool'.buffer id).refCnt = 1 := by
  obtain failed | ⟨bin, index, rest, -, top, result⟩ := pool.alloc_cases size headroom
  · cases failed.symm.trans alloc
  · obtain ⟨rfl, same⟩ := Prod.mk.inj (result.symm.trans alloc)
    obtain rfl := Option.some.inj same
    rw [take_refCnt top, if_pos rfl]

theorem setReplyCtx_refCnt (pool : Pool) (id : BufferId) (ctx : Option Nat) (other : BufferId) :
    ((pool.setReplyCtx id ctx).buffer other).refCnt = (pool.buffer other).refCnt := by
  obtain ⟨bin, index⟩ := id
  obtain ⟨bin', index'⟩ := other
  rw [setReplyCtx, setBin_buffer]
  by_cases same_bin : bin' = bin
  · subst same_bin
    by_cases same : index' = index
    · simp [same, buffer]
    · simp [same, buffer]
  · simp [same_bin]

end Pool

/-! ## Operations -/

namespace Accounted

variable {pool : Pool} {releasing : θ → Option BufferId} {references : List BufferId}

theorem perm (accounted : Accounted pool releasing references) {references' : List BufferId}
    (same : references.Perm references') : Accounted pool releasing references' where
  tidy := accounted.tidy
  referenced := fun id present => accounted.referenced id (same.mem_iff.mpr present)
  fits := fun id => same.count_eq id ▸ accounted.fits id
  refCnt := fun id valid => same.count_eq id ▸ accounted.refCnt id valid
  returning := by
    intro thread id returns
    rw [← same.mem_iff]
    exact accounted.returning thread id returns
  single := accounted.single
  free := by
    intro id valid
    rw [← same.mem_iff]
    exact accounted.free id valid

theorem setReplyCtx (accounted : Accounted pool releasing references) (id : BufferId)
    (ctx : Option Nat) : Accounted (pool.setReplyCtx id ctx) releasing references := by
  have bins_eq : ∀ bin, ((pool.setReplyCtx id ctx).bins bin).freeStack = (pool.bins bin).freeStack ∧
      ((pool.setReplyCtx id ctx).bins bin).chunkCount = (pool.bins bin).chunkCount ∧
      ((pool.setReplyCtx id ctx).bins bin).usedCount = (pool.bins bin).usedCount ∧
      ((pool.setReplyCtx id ctx).bins bin).peakCount = (pool.bins bin).peakCount := by
    intro bin
    by_cases same : bin = id.bin
    · subst same
      simp [Pool.setReplyCtx]
    · simp [Pool.setReplyCtx, Pool.setBin_bins_ne _ _ same]
  have valid_iff : ∀ other, (pool.setReplyCtx id ctx).Valid other ↔ pool.Valid other :=
    Pool.valid_setBin rfl
  have free_iff : ∀ other, (pool.setReplyCtx id ctx).Free other ↔ pool.Free other := by
    intro other
    rw [Pool.Free, Pool.Free, (bins_eq other.bin).1]
  have refCnt_eq : ∀ other, ((pool.setReplyCtx id ctx).buffer other).refCnt =
      (pool.buffer other).refCnt := by
    intro other
    rw [Pool.setReplyCtx, Pool.setBin_buffer]
    split
    · rename_i same_bin
      by_cases same : other.index = id.index
      · simp [same, same_bin, Pool.buffer]
      · simp [same, same_bin, Pool.buffer]
    · rfl
  constructor
  · intro bin inside
    obtain ⟨stack_eq, count_eq, used_eq, peak_eq⟩ := bins_eq bin
    obtain ⟨nodup, within, used, peak⟩ := accounted.tidy bin inside
    exact ⟨by rwa [stack_eq], by rwa [stack_eq, count_eq], by rwa [stack_eq, count_eq, used_eq],
      by rwa [used_eq, peak_eq]⟩
  · exact fun other present => (valid_iff other).mpr (accounted.referenced other present)
  · exact accounted.fits
  · intro other valid
    rw [refCnt_eq]
    exact accounted.refCnt other ((valid_iff other).mp valid)
  · intro thread other returns
    rw [valid_iff]
    exact accounted.returning thread other returns
  · exact accounted.single
  · intro other valid
    rw [free_iff]
    exact accounted.free other ((valid_iff other).mp valid)

theorem retain (accounted : Accounted pool releasing references) {id : BufferId}
    (present : id ∈ references) (room : references.count id + 1 < 2 ^ 32) :
    Accounted (pool.retain id) releasing (id :: references) where
  tidy := fun bin inside => Pool.setRefCnt_tidy (accounted.tidy bin inside)
  referenced := by
    intro other other_present
    rw [Pool.retain, Pool.setRefCnt_valid]
    rcases List.mem_cons.mp other_present with rfl | other_present
    · exact accounted.referenced _ present
    · exact accounted.referenced _ other_present
  fits := by
    intro other
    rw [List.count_cons]
    have := accounted.fits other
    split
    · rename_i same
      obtain rfl : id = other := by simpa using same
      exact room
    · exact this
  refCnt := by
    intro other valid
    rw [Pool.retain, Pool.setRefCnt_valid] at valid
    rw [Pool.retain, Pool.setRefCnt_refCnt]
    split
    · rename_i same
      subst same
      rw [accounted.refCnt other valid, List.count_cons_self, BitVec.ofNat_add]
      rfl
    · rename_i distinct
      rw [accounted.refCnt other valid, List.count_cons_of_ne (Ne.symm distinct)]
  returning := by
    intro thread other returns
    rw [Pool.retain, Pool.setRefCnt_valid]
    obtain ⟨valid, missing⟩ := accounted.returning thread other returns
    refine ⟨valid, ?_⟩
    rw [List.mem_cons, not_or]
    refine ⟨?_, missing⟩
    rintro rfl
    exact missing present
  single := accounted.single
  free := by
    intro other valid
    rw [Pool.retain, Pool.setRefCnt_valid] at valid
    rw [Pool.retain, Pool.setRefCnt_free, accounted.free other valid]
    apply and_congr_left
    intro _
    rw [List.mem_cons, not_or]
    constructor
    · intro missing
      refine ⟨?_, missing⟩
      rintro rfl
      exact missing present
    · exact And.right

/-- The decrement finds the last reference exactly if there is one. -/
theorem last_iff (accounted : Accounted pool releasing references) {id : BufferId}
    (present : id ∈ references) :
    (pool.decrement id).2 = true ↔ references.count id = 1 := by
  have fits := accounted.fits id
  rw [Pool.decrement, decide_eq_true_eq, accounted.refCnt id (accounted.referenced id present)]
  constructor
  · intro one
    have : references.count id % 2 ^ 32 = 1 := by simpa using congrArg BitVec.toNat one
    rwa [Nat.mod_eq_of_lt fits] at this
  · intro one
    rw [one]
    rfl

theorem releasing_decrement [DecidableEq θ] {releasing : θ → Option BufferId} {thread : θ}
    (idle : releasing thread = none) (id : BufferId) (last : Bool) (thread' : θ)
    (other : BufferId) :
    (if last then Function.update releasing thread (some id) else releasing) thread' = some other ↔
      releasing thread' = some other ∨ last = true ∧ thread' = thread ∧ other = id := by
  cases last with
  | false => simp
  | true =>
      by_cases same : thread' = thread
      · subst same
        simp [idle, eq_comm]
      · simp [same]

/-- A reference is given back; the last one starts the return of the buffer. -/
theorem release [DecidableEq θ] (accounted : Accounted pool releasing references) {thread : θ}
    (idle : releasing thread = none) {id : BufferId} (present : id ∈ references) :
    Accounted (pool.decrement id).1
      (if (pool.decrement id).2 then Function.update releasing thread (some id) else releasing)
      (references.erase id) := by
  have valid := accounted.referenced id present
  have count_pos : 0 < references.count id := List.count_pos_iff.mpr present
  have last_iff := accounted.last_iff present
  have not_returning : ∀ thread', releasing thread' ≠ some id :=
    fun thread' returns => (accounted.returning thread' id returns).2 present
  have returns_iff := releasing_decrement idle id (pool.decrement id).2
  constructor
  · exact fun bin inside => Pool.setRefCnt_tidy (accounted.tidy bin inside)
  · intro other other_present
    rw [Pool.decrement, Pool.setRefCnt_valid]
    exact accounted.referenced other (List.mem_of_mem_erase other_present)
  · intro other
    exact (List.erase_sublist.count_le other).trans_lt (accounted.fits other)
  · intro other other_valid
    rw [Pool.decrement, Pool.setRefCnt_valid] at other_valid
    rw [Pool.decrement, Pool.setRefCnt_refCnt]
    split
    · rename_i same
      subst same
      obtain ⟨fewer, count_eq⟩ := Nat.exists_eq_add_one_of_ne_zero count_pos.ne'
      rw [accounted.refCnt other valid, List.count_erase_self, count_eq, BitVec.ofNat_add]
      exact BitVec.add_sub_cancel _ _
    · rename_i distinct
      rw [accounted.refCnt other other_valid, List.count_erase_of_ne distinct]
  · intro thread' other returns
    rw [Pool.decrement, Pool.setRefCnt_valid]
    rcases (returns_iff thread' other).mp returns with returned | ⟨last, -, rfl⟩
    · obtain ⟨other_valid, missing⟩ := accounted.returning thread' other returned
      exact ⟨other_valid, fun kept => missing (List.mem_of_mem_erase kept)⟩
    · refine ⟨valid, ?_⟩
      rw [← List.count_eq_zero, List.count_erase_self, last_iff.mp last]
  · intro thread' thread'' other returns returns'
    rcases (returns_iff thread' other).mp returns with returned | ⟨-, at_thread, rfl⟩
    · rcases (returns_iff thread'' other).mp returns' with returned' | ⟨-, -, rfl⟩
      · exact accounted.single thread' thread'' other returned returned'
      · exact absurd returned (not_returning thread')
    · rcases (returns_iff thread'' other).mp returns' with returned' | ⟨-, at_thread', -⟩
      · exact absurd returned' (not_returning thread'')
      · exact at_thread.trans at_thread'.symm
  · intro other other_valid
    rw [Pool.decrement, Pool.setRefCnt_valid] at other_valid
    rw [Pool.decrement, Pool.setRefCnt_free, accounted.free other other_valid]
    by_cases same : other = id
    · subst same
      constructor
      · exact fun free => absurd present free.1
      · rintro ⟨missing, not_returned⟩
        have one : references.count other = 1 := by
          have none_left : (references.erase other).count other = 0 := List.count_eq_zero.mpr missing
          rw [List.count_erase_self] at none_left
          omega
        exact absurd ((returns_iff thread other).mpr (.inr ⟨last_iff.mpr one, rfl, rfl⟩))
          (not_returned thread)
    · rw [List.mem_erase_of_ne same]
      apply and_congr_right
      intro _
      apply forall_congr'
      intro thread'
      rw [ne_eq, ne_eq, not_iff_not]
      constructor
      · exact fun returned => (returns_iff thread' other).mpr (.inl returned)
      · intro returns
        rcases (returns_iff thread' other).mp returns with returned | ⟨-, -, eq⟩
        · exact returned
        · exact absurd eq same

theorem putBack [DecidableEq θ] (accounted : Accounted pool releasing references) {thread : θ}
    {id : BufferId} (returns : releasing thread = some id) :
    Accounted (pool.putBack id) (Function.update releasing thread none) references := by
  obtain ⟨valid, missing⟩ := accounted.returning thread id returns
  have not_free : ¬ pool.Free id := fun free => ((accounted.free id valid).mp free).2 thread returns
  have valid_iff : ∀ other, (pool.putBack id).Valid other ↔ pool.Valid other :=
    Pool.valid_setBin rfl
  constructor
  · intro bin inside
    by_cases same : bin = id.bin
    · subst same
      rw [Pool.putBack, Pool.setBin_bins_self]
      exact (accounted.tidy id.bin valid.1).putBack valid.2 not_free
    · rw [Pool.putBack, Pool.setBin_bins_ne _ _ same]
      exact accounted.tidy bin inside
  · exact fun other present => (valid_iff other).mpr (accounted.referenced other present)
  · exact accounted.fits
  · intro other other_valid
    rw [← accounted.refCnt other ((valid_iff other).mp other_valid), Pool.putBack,
      Pool.setBin_buffer]
    split
    · rename_i same
      rw [Bin.putBack_refCnt, ← same]
      rfl
    · rfl
  · intro thread' other returned
    rw [valid_iff]
    by_cases same : thread' = thread
    · simp [same] at returned
    · exact accounted.returning thread' other (by simpa [same] using returned)
  · intro thread' thread'' other returned returned'
    by_cases same : thread' = thread
    · simp [same] at returned
    · by_cases same' : thread'' = thread
      · simp [same'] at returned'
      · exact accounted.single thread' thread'' other (by simpa [same] using returned)
          (by simpa [same'] using returned')
  · intro other other_valid
    rw [Pool.putBack_free, accounted.free other ((valid_iff other).mp other_valid)]
    constructor
    · rintro (rfl | ⟨absent, not_returning⟩)
      · refine ⟨missing, ?_⟩
        intro thread' returned
        by_cases same : thread' = thread
        · simp [same] at returned
        · exact same (accounted.single thread' thread other (by simpa [same] using returned) returns)
      · refine ⟨absent, ?_⟩
        intro thread' returned
        by_cases same : thread' = thread
        · simp [same] at returned
        · exact not_returning thread' (by simpa [same] using returned)
    · rintro ⟨absent, not_returning⟩
      by_cases same_id : other = id
      · exact .inl same_id
      · refine .inr ⟨absent, ?_⟩
        intro thread' returned
        by_cases same : thread' = thread
        · subst same
          exact same_id (Option.some.inj (returned.symm.trans returns))
        · exact not_returning thread' (by simpa [same] using returned)

/-- A successful allocation makes the first reference to a free buffer. -/
theorem alloc (accounted : Accounted pool releasing references) {size headroom : UInt32}
    {id : BufferId} {pool' : Pool} (allocated : pool.alloc size headroom = (pool', some id)) :
    pool.Valid id ∧ pool.Free id ∧ Accounted pool' releasing (id :: references) := by
  obtain failed | ⟨bin, index, rest, inside, top, result⟩ := pool.alloc_cases size headroom
  · rw [failed] at allocated
    cases allocated
  · rw [result] at allocated
    obtain ⟨rfl, rfl⟩ : pool.setBin bin ((pool.bins bin).take size headroom) = pool' ∧
        (⟨bin, index⟩ : BufferId) = id := by
      simpa using allocated
    have tidy := accounted.tidy bin inside
    have valid : pool.Valid ⟨bin, index⟩ := ⟨inside, tidy.inside index (by simp [top])⟩
    have free : pool.Free ⟨bin, index⟩ := by simp [Pool.Free, top]
    obtain ⟨missing, not_returning⟩ := (accounted.free _ valid).mp free
    have valid_iff := Pool.valid_setBin ((pool.bins bin).take_chunkCount size headroom)
    refine ⟨valid, free, ?_⟩
    constructor
    · intro other other_inside
      by_cases same : other = bin
      · subst same
        rw [Pool.setBin_bins_self]
        exact tidy.take top size headroom
      · rw [Pool.setBin_bins_ne _ _ same]
        exact accounted.tidy other other_inside
    · intro other present
      rw [valid_iff]
      rcases List.mem_cons.mp present with rfl | present
      · exact valid
      · exact accounted.referenced other present
    · intro other
      rw [List.count_cons]
      have fits := accounted.fits other
      split
      · rename_i same
        obtain rfl : (⟨bin, index⟩ : BufferId) = other := by simpa using same
        rw [List.count_eq_zero.mpr missing]
        decide
      · exact fits
    · intro other other_valid
      rw [Pool.take_refCnt top]
      split
      · rename_i same
        rw [same, List.count_cons_self, List.count_eq_zero.mpr missing]
        rfl
      · rename_i distinct
        rw [accounted.refCnt other ((valid_iff other).mp other_valid),
          List.count_cons_of_ne (Ne.symm distinct)]
    · intro thread other returned
      rw [valid_iff]
      obtain ⟨other_valid, absent⟩ := accounted.returning thread other returned
      refine ⟨other_valid, ?_⟩
      rw [List.mem_cons, not_or]
      refine ⟨?_, absent⟩
      rintro rfl
      exact not_returning thread returned
    · exact accounted.single
    · intro other other_valid
      rw [Pool.take_free top tidy.nodup, accounted.free other ((valid_iff other).mp other_valid),
        List.mem_cons, not_or]
      tauto

theorem alloc_none {size headroom : UInt32} (failed : (pool.alloc size headroom).2 = none) :
    (pool.alloc size headroom).1 = pool := by
  obtain result | ⟨bin, index, rest, -, -, result⟩ := pool.alloc_cases size headroom
  · rw [result]
  · simp [result] at failed

end Accounted

/-! ## The system -/

namespace PoolSystem

/-- The buffers that are referenced. -/
def referenced (sys : PoolSystem θ) : List BufferId := sys.references.map Prod.snd

/-- A retain leaves the number of references to its buffer below the range of the count. -/
def FewReferences (sys : PoolSystem θ) : PoolOp θ → Prop
  | .retain _ id => sys.referenced.count id + 1 < 2 ^ 32
  | _ => True

instance (sys : PoolSystem θ) (op : PoolOp θ) : Decidable (sys.FewReferences op) := by
  unfold FewReferences
  split <;> infer_instance

/-- What the pool promises to its users. -/
structure Consistent (sys : PoolSystem θ) : Prop where
  /-- A stack has no repeated index. -/
  nodup : ∀ bin < sys.pool.binCount, (sys.pool.bins bin).freeStack.Nodup
  /-- A stack stays within the bin. -/
  inside : ∀ bin < sys.pool.binCount, ∀ index ∈ (sys.pool.bins bin).freeStack,
    index < (sys.pool.bins bin).chunkCount.toNat
  /-- A buffer is on the stack exactly if its count is zero and nobody is putting it back. -/
  free : ∀ id, sys.pool.Valid id →
    (sys.pool.Free id ↔
      (sys.pool.buffer id).refCnt = 0 ∧ ∀ thread, sys.releasing thread ≠ some id)
  /-- The counters agree. -/
  used : ∀ bin < sys.pool.binCount,
    ((sys.pool.bins bin).usedCount.toNat : Int) + ((sys.pool.bins bin).freeTop + 1) =
      (sys.pool.bins bin).chunkCount.toNat
  /-- The peak is a peak. -/
  peak : ∀ bin < sys.pool.binCount, (sys.pool.bins bin).usedCount ≤ (sys.pool.bins bin).peakCount
  /-- No allocation returns a referenced buffer. -/
  alloc : ∀ size headroom id, (sys.pool.alloc size headroom).2 = some id →
    ∀ thread, (thread, id) ∉ sys.references

/-- The pool agrees with the holders. -/
def Kept (sys : PoolSystem θ) : Prop := Accounted sys.pool sys.releasing sys.referenced

theorem Kept.consistent {sys : PoolSystem θ} (kept : sys.Kept) : sys.Consistent where
  nodup := fun bin inside => (kept.tidy bin inside).nodup
  inside := fun bin inside => (kept.tidy bin inside).inside
  free := by
    intro id valid
    rw [kept.free id valid, kept.refCnt id valid]
    apply and_congr_left
    intro _
    have fits := kept.fits id
    rw [← List.count_eq_zero]
    constructor
    · intro none_left
      rw [none_left]
      rfl
    · intro zero
      have : sys.referenced.count id % 2 ^ 32 = 0 := by simpa using congrArg BitVec.toNat zero
      rwa [Nat.mod_eq_of_lt fits] at this
  used := by
    intro bin inside
    have := (kept.tidy bin inside).used
    unfold Bin.freeTop
    omega
  peak := fun bin inside => (kept.tidy bin inside).peak
  alloc := by
    intro size headroom id allocated thread present
    obtain ⟨valid, free, -⟩ :=
      Accounted.alloc kept (show sys.pool.alloc size headroom =
        ((sys.pool.alloc size headroom).1, some id) from Prod.ext rfl allocated)
    exact ((kept.free id valid).mp free).1 (List.mem_map_of_mem (f := Prod.snd) present)

/-! ## Runs -/

theorem initBin_tidy (config : PoolDef) : (initBin config).Tidy where
  nodup := List.nodup_reverse.mpr List.nodup_range
  inside := by simp [initBin]
  used := by simp [initBin]
  peak := UInt32.le_refl _

theorem kept_of_initial {config : List PoolDef} {sys : PoolSystem θ}
    (initial : sys.Initial config) : sys.Kept := by
  have no_references : sys.referenced = [] := by simp [referenced, initial.references]
  have pool_eq := initial.pool
  simp only [initPool, Option.ite_none_right_eq_some, Option.some.injEq] at pool_eq
  have bin_eq : ∀ bin < sys.pool.binCount, ∃ entry, sys.pool.bins bin = initBin entry := by
    intro bin inside
    rw [← pool_eq.2, poolOf] at inside ⊢
    dsimp only at inside ⊢
    exact ⟨(usableDefs config)[bin], by rw [List.getElem?_eq_getElem inside]; rfl⟩
  unfold Kept
  rw [no_references]
  constructor
  · intro bin inside
    obtain ⟨entry, bin_eq⟩ := bin_eq bin inside
    rw [bin_eq]
    exact initBin_tidy entry
  · simp
  · simp
  · intro id valid
    obtain ⟨entry, bin_eq⟩ := bin_eq id.bin valid.1
    simp [Pool.buffer, bin_eq, initBin]
  · simp [initial.releasing]
  · simp [initial.releasing]
  · intro id valid
    obtain ⟨entry, bin_eq⟩ := bin_eq id.bin valid.1
    have below := valid.2
    rw [bin_eq] at below
    simpa [Pool.Free, bin_eq, initBin, initial.releasing] using below

variable [DecidableEq θ]

/-- A step that keeps the number of references in range keeps the pool in order. -/
theorem Kept.step {before after : PoolSystem θ} {op : PoolOp θ} (kept : before.Kept)
    (few : before.FewReferences op) (stepped : before.step op = some after) : after.Kept := by
  unfold Kept at kept ⊢
  cases op with
  | alloc thread size headroom =>
      simp only [PoolSystem.step, Option.ite_none_right_eq_some, Option.some.injEq] at stepped
      obtain ⟨-, rfl⟩ := stepped
      cases allocated : (before.pool.alloc size headroom).2 with
      | none => simpa [referenced, Accounted.alloc_none allocated] using kept
      | some id =>
          obtain ⟨-, -, kept'⟩ :=
            Accounted.alloc kept (show before.pool.alloc size headroom =
              ((before.pool.alloc size headroom).1, some id) from Prod.ext rfl allocated)
          simpa [referenced] using kept'
  | retain thread id =>
      simp only [PoolSystem.step, Option.ite_none_right_eq_some, Option.some.injEq] at stepped
      obtain ⟨⟨-, present⟩, rfl⟩ := stepped
      exact Accounted.retain kept (List.mem_map_of_mem (f := Prod.snd) present) few
  | give thread receiver id =>
      simp only [PoolSystem.step, Option.ite_none_right_eq_some, Option.some.injEq] at stepped
      obtain ⟨⟨-, present⟩, rfl⟩ := stepped
      exact Accounted.perm kept ((List.perm_cons_erase present).map Prod.snd)
  | release thread id =>
      simp only [PoolSystem.step, Option.ite_none_right_eq_some, Option.some.injEq] at stepped
      obtain ⟨⟨idle, present⟩, rfl⟩ := stepped
      have referenced_id : id ∈ before.referenced := List.mem_map_of_mem (f := Prod.snd) present
      have same : (before.referenced.erase id).Perm
          ((before.references.erase (thread, id)).map Prod.snd) :=
        ((List.perm_cons_erase referenced_id).symm.trans
          ((List.perm_cons_erase present).map Prod.snd)).cons_inv
      exact (Accounted.release kept idle referenced_id).perm same
  | putBack thread =>
      simp only [PoolSystem.step] at stepped
      split at stepped
      · rename_i id returns
        obtain rfl := Option.some.inj stepped
        exact Accounted.putBack kept returns
      · cases stepped

/-- As long as no buffer gets as many references as its count can hold, every reachable state of
the pool is consistent. -/
theorem consistent_of_reach {config : List PoolDef} {sys : PoolSystem θ}
    (reach : Reach step FewReferences (Initial config) sys) : sys.Consistent :=
  Kept.consistent <|
    Reach.invariant Kept (fun _ initial => kept_of_initial initial)
      (fun _ _ _ kept few stepped => kept.step few stepped) reach

/-- One bin of two chunks. -/
def twoChunks : List PoolDef := [⟨64, 2⟩]

/-- A buffer that is shared by two holders returns to the pool when both have released it. -/
theorem shared_buffer_returns :
    ∃ sys : PoolSystem Bool, sys.Consistent ∧ (sys.pool.bins 0).freeStack = [1, 0] ∧
      (sys.pool.bins 0).peakCount = 1 := by
  have execution :
      (runGuarded step FewReferences (fresh twoChunks)
          [.alloc false 40 8, .retain false ⟨0, 1⟩, .give false true ⟨0, 1⟩,
            .release false ⟨0, 1⟩, .release true ⟨0, 1⟩, .putBack true]).map
        (fun sys : PoolSystem Bool =>
          ((sys.pool.bins 0).freeStack, (sys.pool.bins 0).peakCount)) = some ([1, 0], 1) := by
    decide +kernel
  obtain ⟨sys, ran, view⟩ := Option.map_eq_some_iff.mp execution
  obtain ⟨stack, peak⟩ :
      (sys.pool.bins 0).freeStack = [1, 0] ∧ (sys.pool.bins 0).peakCount = 1 := by
    simpa using view
  have reach : Reach step FewReferences (Initial twoChunks) sys :=
    reach_of_runGuarded (.start (fresh_initial (by decide))) ran
  exact ⟨sys, consistent_of_reach reach, stack, peak⟩

/-- Repeated retains add to the count of their buffer and change nothing else that matters. -/
theorem run_retain (count : Nat) (before : PoolSystem θ) (thread : θ) (id : BufferId)
    (idle : before.releasing thread = none) (present : (thread, id) ∈ before.references) :
    ∃ after, run step before (List.replicate count (.retain thread id)) = some after ∧
      after.releasing = before.releasing ∧
      (after.pool.buffer id).refCnt = (before.pool.buffer id).refCnt + BitVec.ofNat 32 count ∧
      (after.pool.Valid id ↔ before.pool.Valid id) ∧
      (after.pool.Free id ↔ before.pool.Free id) := by
  induction count generalizing before with
  | zero => exact ⟨before, rfl, rfl, by simp, Iff.rfl, Iff.rfl⟩
  | succ count ih =>
      let next : PoolSystem θ :=
        { before with
          pool := before.pool.retain id
          references := (thread, id) :: before.references }
      have stepped : before.step (.retain thread id) = some next := if_pos ⟨idle, present⟩
      obtain ⟨after, ran, releasing, refCnt, valid, free⟩ :=
        ih next idle (List.mem_cons_of_mem _ present)
      refine ⟨after, ?_, releasing, ?_, ?_, ?_⟩
      · rw [List.replicate_succ, run_cons, stepped]
        exact ran
      · rw [refCnt]
        simp only [next, Pool.retain, Pool.setRefCnt_refCnt, if_true]
        rw [BitVec.add_assoc, BitVec.ofNat_add, BitVec.add_comm 1]
        rfl
      · simpa [next, Pool.retain] using valid
      · simpa [next, Pool.retain] using free

/-- The count of a buffer with `2 ^ 32` references reads zero. -/
theorem wrapped_count_reads_zero :
    ∃ sys : PoolSystem Unit, Reachable step (Initial twoChunks) sys ∧
      sys.pool.Valid ⟨0, 1⟩ ∧ (sys.pool.buffer ⟨0, 1⟩).refCnt = 0 ∧
      (∀ thread, sys.releasing thread ≠ some ⟨0, 1⟩) ∧ ¬ sys.pool.Free ⟨0, 1⟩ ∧
      ¬ sys.Consistent := by
  let first : PoolSystem Unit :=
    { pool := ((poolOf twoChunks).alloc 40 8).1
      releasing := fun _ => none
      references := [((), ⟨0, 1⟩)] }
  have allocated : (fresh twoChunks : PoolSystem Unit).step (.alloc () 40 8) = some first := rfl
  obtain ⟨sys, ran, releasing, refCnt, valid, free⟩ :=
    run_retain (2 ^ 32 - 1) first () ⟨0, 1⟩ rfl (by simp [first])
  have reach : Reachable step (Initial twoChunks) sys :=
    reachable_of_run (.step (.start (fresh_initial (by decide))) trivial allocated) ran
  have valid' : sys.pool.Valid ⟨0, 1⟩ := valid.mpr (by decide)
  have zero : (sys.pool.buffer ⟨0, 1⟩).refCnt = 0 := by
    rw [refCnt]
    decide
  have idle : ∀ thread, sys.releasing thread ≠ some ⟨0, 1⟩ := by simp [releasing, first]
  have not_free : ¬ sys.pool.Free ⟨0, 1⟩ := by
    rw [free]
    decide
  refine ⟨sys, reach, valid', zero, idle, not_free, ?_⟩
  exact fun consistent => not_free ((consistent.free _ valid').mpr ⟨zero, idle⟩)

end PoolSystem

end CodexNos.Memory
