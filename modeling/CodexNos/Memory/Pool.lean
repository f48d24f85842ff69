import CodexNos.Lib.Transition
import Mathlib.Data.UInt

/-!
# The buffer pool

The pool has bins of chunks of one size each.  A bin keeps the indices of its free buffers on a
stack.  An allocation takes a buffer of the first bin that is large enough and has one; retaining
and releasing change the reference count of a buffer without the lock, and the last release puts
the buffer back onto the stack of its bin under the lock.
-/

namespace CodexNos.Memory

/-- `nos_buffer_pool_def_t`. -/
structure PoolDef where
  /-- Size of a chunk. -/
  chunkSize : UInt32
  /-- Number of chunks. -/
  chunkCount : UInt32
  deriving DecidableEq, Repr

/-- `MAX_BINS`. -/
def maxBins : Nat := 8

/-- `CACHE_LINE_SIZE`. -/
def cacheLineSize : UInt32 := 64

/-- A buffer, by its bin and its index in the bin. -/
structure BufferId where
  /-- `bin_idx`. -/
  bin : Nat
  /-- `pool_idx`. -/
  index : Nat
  deriving DecidableEq, Repr

/-- `nos_buffer_t`. -/
structure Buffer where
  /-- `raw_data`, as an offset into the memory of the bin. -/
  rawData : UInt32
  /-- `data`, as an offset from `raw_data`. -/
  data : Int
  /-- `capacity`. -/
  capacity : UInt32
  /-- `len`. -/
  len : UInt32
  /-- `headroom`. -/
  headroom : UInt32
  /-- `tailroom`. -/
  tailroom : UInt32
  /-- `ref_cnt`, an atomic `int`, which wraps around. -/
  refCnt : BitVec 32
  /-- `reply_ctx`. -/
  replyCtx : Option Nat
  deriving DecidableEq, Repr

/-- `nos_buffer_bin_t`. -/
structure Bin where
  /-- `chunk_size`. -/
  chunkSize : UInt32
  /-- `chunk_count`. -/
  chunkCount : UInt32
  /-- `buffers`. -/
  buffers : Nat → Buffer
  /-- `free_stack` up to `free_top`, the top first. -/
  freeStack : List Nat
  /-- `used_count`. -/
  usedCount : UInt32
  /-- `peak_count`. -/
  peakCount : UInt32

/-- The pool: `g_bins` and `g_bin_count`. -/
structure Pool where
  /-- `g_bin_count`. -/
  binCount : Nat
  /-- `g_bins`. -/
  bins : Nat → Bin

/-- `free_top`. -/
def Bin.freeTop (bin : Bin) : Int := bin.freeStack.length - 1

/-! ## Initialisation -/

/-- The chunk size of a bin: the next multiple of a cache line. -/
def alignedSize (size : UInt32) : UInt32 := (size + cacheLineSize - 1) &&& ~~~(cacheLineSize - 1)

/-- A bin before its first use. -/
def emptyBin : Bin where
  chunkSize := 0
  chunkCount := 0
  buffers := fun _ => ⟨0, 0, 0, 0, 0, 0, 0, none⟩
  freeStack := []
  usedCount := 0
  peakCount := 0

/-- Initialisation of one bin.  All its buffers are pushed onto the stack in order. -/
def initBin (config : PoolDef) : Bin where
  chunkSize := alignedSize config.chunkSize
  chunkCount := config.chunkCount
  buffers := fun index =>
    { rawData := UInt32.ofNat index * alignedSize config.chunkSize
      data := 0
      capacity := alignedSize config.chunkSize
      len := 0
      headroom := 0
      tailroom := alignedSize config.chunkSize
      refCnt := 0
      replyCtx := none }
  freeStack := (List.range config.chunkCount.toNat).reverse
  usedCount := 0
  peakCount := 0

/-- The entries of a configuration that become bins. -/
def usableDefs (config : List PoolDef) : List PoolDef :=
  (config.takeWhile fun entry => 0 < entry.chunkSize).take maxBins

/-- The pool of a configuration. -/
def poolOf (config : List PoolDef) : Pool where
  binCount := (usableDefs config).length
  bins := fun index => ((usableDefs config)[index]?.map initBin).getD emptyBin

/-- `nos_buffer_init_pool`.  The result is undefined if `free_top`, an `int`, overflows. -/
def initPool (config : List PoolDef) : Option Pool :=
  if (usableDefs config).all fun entry => entry.chunkCount ≤ 2 ^ 31 then some (poolOf config)
  else none

/-! ## Allocation and release -/

/-- Take the top of the stack and prepare the buffer. -/
def Bin.take (bin : Bin) (size headroom : UInt32) : Bin :=
  match bin.freeStack with
  | [] => bin
  | index :: rest =>
      { bin with
        freeStack := rest
        buffers := Function.update bin.buffers index
          { bin.buffers index with
            refCnt := 1
            headroom := headroom
            data := headroom.toNat
            len := size
            tailroom := (bin.buffers index).capacity - headroom - size
            replyCtx := none }
        usedCount := bin.usedCount + 1
        peakCount :=
          if bin.peakCount < bin.usedCount + 1 then bin.usedCount + 1 else bin.peakCount }

/-- Push a buffer onto the stack and reset it. -/
def Bin.putBack (bin : Bin) (index : Nat) : Bin :=
  { bin with
    freeStack := index :: bin.freeStack
    buffers := Function.update bin.buffers index
      { bin.buffers index with
        data := 0
        len := 0
        headroom := 0
        tailroom := (bin.buffers index).capacity
        replyCtx := none }
    usedCount := bin.usedCount - 1 }

namespace Pool

/-- A buffer of the pool. -/
def buffer (pool : Pool) (id : BufferId) : Buffer := (pool.bins id.bin).buffers id.index

/-- Change a bin. -/
def setBin (pool : Pool) (index : Nat) (bin : Bin) : Pool :=
  { pool with bins := Function.update pool.bins index bin }

/-- Set a reference count. -/
def setRefCnt (pool : Pool) (id : BufferId) (count : BitVec 32) : Pool :=
  pool.setBin id.bin
    { pool.bins id.bin with
      buffers := Function.update (pool.bins id.bin).buffers id.index
        { pool.buffer id with refCnt := count } }

/-- Set the reply context of a buffer. -/
def setReplyCtx (pool : Pool) (id : BufferId) (ctx : Option Nat) : Pool :=
  pool.setBin id.bin
    { pool.bins id.bin with
      buffers := Function.update (pool.bins id.bin).buffers id.index
        { pool.buffer id with replyCtx := ctx } }

/-- A bin can serve an allocation. -/
def serves (pool : Pool) (total : UInt32) (index : Nat) : Bool :=
  total ≤ (pool.bins index).chunkSize && 0 ≤ (pool.bins index).freeTop

/-- `nos_buffer_alloc`. -/
def alloc (pool : Pool) (size headroom : UInt32) : Pool × Option BufferId :=
  match (List.range pool.binCount).find? (pool.serves (size + headroom)) with
  | none => (pool, none)
  | some index =>
      (pool.setBin index ((pool.bins index).take size headroom),
        (pool.bins index).freeStack.head?.map fun place => ⟨index, place⟩)

/-- `nos_buffer_retain`. -/
def retain (pool : Pool) (id : BufferId) : Pool :=
  pool.setRefCnt id ((pool.buffer id).refCnt + 1)

/-- `nos_buffer_release` up to the decrement; whether the buffer is to be put back. -/
def decrement (pool : Pool) (id : BufferId) : Pool × Bool :=
  (pool.setRefCnt id ((pool.buffer id).refCnt - 1), (pool.buffer id).refCnt = 1)

/-- The locked part of `nos_buffer_release`. -/
def putBack (pool : Pool) (id : BufferId) : Pool :=
  pool.setBin id.bin ((pool.bins id.bin).putBack id.index)

end Pool

/-! ## Holders of references -/

/-- The pool and the threads that hold references to its buffers. -/
structure PoolSystem (θ : Type*) where
  /-- The pool. -/
  pool : Pool
  /-- A buffer that a thread has released last and not yet put back. -/
  releasing : θ → Option BufferId
  /-- The references and their holders. -/
  references : List (θ × BufferId)

/-- A step of a holder. -/
inductive PoolOp (θ : Type*)
  /-- `nos_buffer_alloc`. -/
  | alloc (thread : θ) (size headroom : UInt32)
  /-- `nos_buffer_retain`. -/
  | retain (thread : θ) (id : BufferId)
  /-- Hand a reference to another holder. -/
  | give (thread receiver : θ) (id : BufferId)
  /-- The decrement of `nos_buffer_release`. -/
  | release (thread : θ) (id : BufferId)
  /-- The locked part of `nos_buffer_release`. -/
  | putBack (thread : θ)

namespace PoolSystem

variable {θ : Type*} [DecidableEq θ]

/-- Perform one step. -/
def step (sys : PoolSystem θ) : PoolOp θ → Option (PoolSystem θ)
  | .alloc thread size headroom =>
      if sys.releasing thread = none then
        some
          { sys with
            pool := (sys.pool.alloc size headroom).1
            references :=
              ((sys.pool.alloc size headroom).2.map fun id => (thread, id)).toList ++
                sys.references }
      else none
  | .retain thread id =>
      if sys.releasing thread = none ∧ (thread, id) ∈ sys.references then
        some { sys with pool := sys.pool.retain id, references := (thread, id) :: sys.references }
      else none
  | .give thread receiver id =>
      if sys.releasing thread = none ∧ (thread, id) ∈ sys.references then
        some { sys with references := (receiver, id) :: sys.references.erase (thread, id) }
      else none
  | .release thread id =>
      if sys.releasing thread = none ∧ (thread, id) ∈ sys.references then
        some
          { pool := (sys.pool.decrement id).1
            releasing :=
              if (sys.pool.decrement id).2 then Function.update sys.releasing thread (some id)
              else sys.releasing
            references := sys.references.erase (thread, id) }
      else none
  | .putBack thread =>
      match sys.releasing thread with
      | some id =>
          some
            { sys with
              pool := sys.pool.putBack id
              releasing := Function.update sys.releasing thread none }
      | none => none

/-- The pool has just been initialised and nobody holds a reference. -/
structure Initial (config : List PoolDef) (sys : PoolSystem θ) : Prop where
  pool : initPool config = some sys.pool
  releasing : ∀ thread, sys.releasing thread = none
  references : sys.references = []

/-- The system with a fresh pool. -/
def fresh (config : List PoolDef) : PoolSystem θ where
  pool := poolOf config
  releasing := fun _ => none
  references := []

omit [DecidableEq θ] in
theorem fresh_initial {config : List PoolDef}
    (fits : (usableDefs config).all fun entry => entry.chunkCount ≤ 2 ^ 31) :
    (fresh config : PoolSystem θ).Initial config where
  pool := if_pos fits
  releasing := fun _ => rfl
  references := rfl

end PoolSystem

end CodexNos.Memory
