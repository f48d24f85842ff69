import CodexNos.Kv.Tables
import CodexNos.Lib.Blocks

/-!
# The memory of the key-value engine

The engine allocates the four blocks of a table, a node for each subscription, a handle for each
pointer that it hands out and, while subscribers are called, an array of their addresses.  The
subscriptions of an entry are a list in memory that `sub_list` points to.  `nos_kv_db_deinit` frees
what is left.

An access of a block that is not allocated, or holds something else, is a fault.  Memory for a new
block is always found.  A second engine keeps the subscriptions of an entry as a list and has no
memory.
-/

namespace CodexNos.Kv

open Lib Lib.Blocks

variable {K : Type*}

/-! ## Calls -/

/-- The fixed blocks of a table. -/
inductive Part
  /-- The table itself. -/
  | table
  /-- `buckets`. -/
  | buckets
  /-- `pool_mem`. -/
  | poolMem
  /-- `free_stack`. -/
  | freeStack
  deriving DecidableEq, Repr

/-- What a block holds that is not a subscription. -/
inductive Content
  /-- A part of a table. -/
  | part (index : Nat) (part : Part)
  /-- The lock of a bucket (`nos_kv_lock_handle_t`). -/
  | handle (index bucket : Nat)
  /-- The addresses of the subscriptions to call. -/
  | subs (addrs : List Nat)
  deriving DecidableEq, Repr

/-- The memory of the engine. -/
abbrev Heap := Memory (Block Sub Content)

/-- Why a call does not return. -/
inductive Stop
  /-- It waits for a lock for ever. -/
  | stuck (cause : Stuck)
  /-- The caller has no such table or pointer. -/
  | misuse
  /-- It accesses memory that is not allocated. -/
  | fault
  deriving DecidableEq, Repr

/-- The calls on one table. -/
inductive TableCall (K : Type*)
  | put (key : K) (val : Option (List UInt8)) (valLen : Nat)
  | get (key : K) (bufLen : Nat)
  | getPtr (key : K)
  | del (key : K)
  | subscribe (key : K) (sub : Sub)
  | unsubscribe (key : K) (sub : Sub)
  deriving DecidableEq, Repr

/-- The call on the table alone. -/
def TableCall.kvOp : TableCall K → KvOp K
  | .put key val valLen => .put key val valLen
  | .get key bufLen => .get key bufLen
  | .getPtr key => .getPtr key
  | .del key => .del key
  | .subscribe key sub => .subscribe key sub
  | .unsubscribe key sub => .unsubscribe key sub

/-- What `nos_kv_table_create` is asked for. -/
structure NewTable (K : Type*) where
  /-- `name`. -/
  name : CStr
  /-- The sizes and the hash. -/
  schema : Schema K
  bucketCount_pos : 0 < schema.bucketCount

/-- The calls of the engine.  A pointer is given by its place among those handed out. -/
inductive EngineCall (K : Type*)
  /-- `nos_kv_table_create`. -/
  | create (new : NewTable K)
  /-- A call on a table of `g_tables`. -/
  | call (index : Nat) (call : TableCall K)
  /-- `nos_kv_release_ptr`; the caller forgets the pointer. -/
  | releasePtr (place : Nat)
  /-- `nos_kv_db_deinit`. -/
  | deinit

/-- What a call returns. -/
inductive EngineReply (K : Type*)
  /-- A table, absent for a null pointer. -/
  | table (index : Option Nat)
  /-- The answer of a table. -/
  | reply (reply : Reply K)
  /-- Nothing. -/
  | done

/-! ## The engine -/

/-- A table of `g_tables`.  Where its subscriptions begin is kept by the engine. -/
structure OpenTable (K : Type*) where
  /-- The bytes of `name`. -/
  name : List UInt8
  /-- What was fixed when it was created. -/
  schema : Schema K
  /-- Buckets, entries and the stack of unused slots. -/
  table : Table K
  /-- The addresses of its blocks. -/
  part : Part → Nat

/-- The engine. -/
structure Engine (K : Type*) where
  /-- `g_tables`, up to `g_table_count`. -/
  tables : List (OpenTable K)
  /-- `sub_list` of the entries of a table. -/
  subList : Nat → Nat → Option Nat
  /-- The allocated blocks. -/
  memory : Heap
  /-- The pointers that were handed out, absent once they are released. -/
  handles : List (Option Nat)

namespace Engine

/-- An engine without tables. -/
def start : Engine K where
  tables := []
  subList _ _ := none
  memory := ∅
  handles := []

/-- As many turns as a walk can take. -/
def fuel (engine : Engine K) : Nat := engine.memory.keys.card

/-- Write a table. -/
def setTable (engine : Engine K) (index : Nat) (opened : OpenTable K) (table : Table K) :
    Engine K :=
  { engine with tables := engine.tables.set index { opened with table := table } }

/-- Write the `sub_list` of an entry. -/
def setSubList (engine : Engine K) (index idx : Nat) (head : Option Nat) : Engine K :=
  { engine with
    subList := Function.update engine.subList index
      (Function.update (engine.subList index) idx head) }

/-- Allocate a block with its contents. -/
def alloc (allocator : Allocator (Block Sub Content)) (memory : Heap)
    (content : Block Sub Content) : Nat × Heap :=
  (allocator.place memory, memory.insert (allocator.place memory) content)

/-- Free a block that holds this. -/
def freeBlock (memory : Heap) (addr : Nat) (content : Content) : Except Stop Heap :=
  if memory.lookup addr = some (.other content) then .ok (memory.erase addr) else .error .fault

/-- The blocks of a table are allocated. -/
def holdsParts (memory : Heap) (index : Nat) (opened : OpenTable K) : Bool :=
  [Part.table, .buckets, .poolMem, .freeStack].all fun part =>
    memory.lookup (opened.part part) = some (.other (.part index part))

/-- `nos_kv_table_create`. -/
def nosKvTableCreate (allocator : Allocator (Block Sub Content)) (engine : Engine K)
    (new : NewTable K) : Engine K × Option Nat :=
  if new.schema.capacity = 0 then (engine, none)
  else
    match engine.tables.findIdx? fun opened => CStr.stringAt opened.name = new.name with
    | some index => (engine, some index)
    | none =>
        if maxTables ≤ engine.tables.length then (engine, none)
        else
          let index := engine.tables.length
          let (table, memory) := alloc allocator engine.memory (.other (.part index .table))
          let (buckets, memory) := alloc allocator memory (.other (.part index .buckets))
          let (poolMem, memory) := alloc allocator memory (.other (.part index .poolMem))
          let (freeStack, memory) := alloc allocator memory (.other (.part index .freeStack))
          ({ engine with
              tables := engine.tables ++
                [{ name := CStr.strncpy emptyName new.name 31
                   schema := new.schema
                   table := Kv.nosKvTableCreate new.schema
                   part := fun
                     | .table => table
                     | .buckets => buckets
                     | .poolMem => poolMem
                     | .freeStack => freeStack }]
              subList := Function.update engine.subList index fun _ => none
              memory := memory },
            some index)

/-- Free the subscriptions of the entries of a chain. -/
def freeChain (subList : Nat → Option Nat) (table : Table K) :
    Nat → Heap → Option Nat → Except Stop Heap
  | _, memory, none => .ok memory
  | 0, _, some _ => .error (.stuck .diverges)
  | fuel + 1, memory, some idx =>
      match freeAll memory.keys.card memory (subList idx) with
      | none => .error .fault
      | some memory => freeChain subList table fuel memory (table.nextIdx idx)

/-- Free the subscriptions of the entries of some buckets. -/
def freeBuckets (subList : Nat → Option Nat) (opened : OpenTable K) :
    List Nat → Heap → Except Stop Heap
  | [], memory => .ok memory
  | bucket :: buckets, memory =>
      if (opened.table.buckets bucket).readers ≠ 0 then .error (.stuck .blocked)
      else
        match freeChain subList opened.table opened.schema.capacity memory
          (opened.table.buckets bucket).firstIdx with
        | .error stop => .error stop
        | .ok memory => freeBuckets subList opened buckets memory

/-- Free the blocks of a table. -/
def freeParts (index : Nat) (opened : OpenTable K) (memory : Heap) : Except Stop Heap :=
  [Part.buckets, .poolMem, .freeStack, .table].foldlM
    (fun memory part => freeBlock memory (opened.part part) (.part index part)) memory

/-- Free the tables from an index on. -/
def freeTables (subList : Nat → Nat → Option Nat) :
    Nat → List (OpenTable K) → Heap → Except Stop Heap
  | _, [], memory => .ok memory
  | index, opened :: tables, memory =>
      if holdsParts memory index opened then
        match freeBuckets (subList index) opened (List.range opened.schema.bucketCount) memory with
        | .error stop => .error stop
        | .ok memory =>
            match freeParts index opened memory with
            | .error stop => .error stop
            | .ok memory => freeTables subList (index + 1) tables memory
      else .error .fault

/-- `nos_kv_db_deinit`. -/
def nosKvDbDeinit (engine : Engine K) : Except Stop (Engine K) :=
  (freeTables engine.subList 0 engine.tables engine.memory).map fun memory =>
    { engine with tables := [], memory := memory }

variable [DecidableEq K]

/-- `nos_kv_put`. -/
def nosKvPut (allocator : Allocator (Block Sub Content)) (engine : Engine K) (index : Nat)
    (opened : OpenTable K) (key : K) (val : Option (List UInt8)) (valLen : Nat) :
    Except Stop (Engine K × Reply K) :=
  let bucket := opened.schema.bucketOf key
  if opened.schema.maxValSize < valLen then .ok (engine, .ofStatus .err)
  else if (opened.table.buckets bucket).readers ≠ 0 then .error (.stuck .blocked)
  else
    match opened.table.findSlot opened.schema key with
    | none => .error (.stuck .diverges)
    | some (some idx) =>
        let updated :=
          engine.setTable index opened (opened.table.updateSlot idx key val valLen).1
        match collect engine.memory engine.fuel (engine.subList index idx) with
        | none => .error .fault
        | some [] => .ok (updated, .ofStatus .ok)
        | some (first :: rest) =>
            let subs := first :: rest
            let (array, memory) := alloc allocator engine.memory (.other (.subs subs))
            match subs.mapM (itemOf memory) with
            | none => .error .fault
            | some called =>
                (freeBlock memory array (.subs subs)).map fun memory =>
                  ({ updated with memory := memory },
                    { status := .ok
                      value := none
                      notified := called.map fun sub => ⟨sub, key, val, valLen⟩ })
    | some none =>
        if opened.table.freeTop < 0 then .ok (engine, .ofStatus .errBusy)
        else
          let newIdx := opened.table.freeStack opened.table.freeTop.toNat
          let inserted :=
            engine.setTable index opened (opened.table.insertSlot bucket key val valLen)
          .ok (inserted.setSubList index newIdx none, .ofStatus .ok)

/-- `nos_kv_get_ptr`. -/
def nosKvGetPtr (allocator : Allocator (Block Sub Content)) (engine : Engine K) (index : Nat)
    (opened : OpenTable K) (key : K) : Except Stop (Engine K × Reply K) :=
  let bucket := opened.schema.bucketOf key
  match opened.table.findSlot opened.schema key with
  | none => .error (.stuck .diverges)
  | some none => .ok ({ engine with handles := engine.handles ++ [none] }, .ofStatus .err)
  | some (some idx) =>
      let (handle, memory) := alloc allocator engine.memory (.other (.handle index bucket))
      let locked := engine.setTable index opened
        (opened.table.setReaders bucket ((opened.table.buckets bucket).readers + 1))
      .ok
        ({ locked with memory := memory, handles := engine.handles ++ [some handle] },
          { status := .ok
            value := some (opened.table.contents idx, (opened.table.pool idx).valLen)
            notified := [] })

/-- `nos_kv_del`. -/
def nosKvDel (engine : Engine K) (index : Nat) (opened : OpenTable K) (key : K) :
    Except Stop (Engine K × Reply K) :=
  let bucket := opened.schema.bucketOf key
  if (opened.table.buckets bucket).readers ≠ 0 then .error (.stuck .blocked)
  else
    match Chain.searchPrev opened.table.nextIdx (opened.table.hasKey key) opened.schema.capacity
      none (opened.table.buckets bucket).firstIdx with
    | none => .error (.stuck .diverges)
    | some none => .ok (engine, .ofStatus .err)
    | some (some (prev, idx)) =>
        match freeAll engine.fuel engine.memory (engine.subList index idx) with
        | none => .error .fault
        | some memory =>
            let unlinked := (engine.setTable index opened
              (opened.table.unlinkSlot bucket prev idx)).setSubList index idx none
            .ok ({ unlinked with memory := memory }, .ofStatus .ok)

/-- `nos_kv_subscribe`. -/
def nosKvSubscribe (allocator : Allocator (Block Sub Content)) (engine : Engine K) (index : Nat)
    (opened : OpenTable K) (key : K) (sub : Sub) : Except Stop (Engine K × Reply K) :=
  if (opened.table.buckets (opened.schema.bucketOf key)).readers ≠ 0 then .error (.stuck .blocked)
  else
    match opened.table.findSlot opened.schema key with
    | none => .error (.stuck .diverges)
    | some none => .ok (engine, .ofStatus .err)
    | some (some idx) =>
        let head := engine.subList index idx
        match find engine.memory (fun item => item = sub) engine.fuel head with
        | none => .error .fault
        | some (some _) => .ok (engine, .ofStatus .ok)
        | some none =>
            let (node, memory) := alloc allocator engine.memory (.node sub head)
            .ok
              ({ engine.setSubList index idx (some node) with memory := memory }, .ofStatus .ok)

/-- `nos_kv_unsubscribe`. -/
def nosKvUnsubscribe (engine : Engine K) (index : Nat) (opened : OpenTable K) (key : K)
    (sub : Sub) : Except Stop (Engine K × Reply K) :=
  if (opened.table.buckets (opened.schema.bucketOf key)).readers ≠ 0 then .error (.stuck .blocked)
  else
    match opened.table.findSlot opened.schema key with
    | none => .error (.stuck .diverges)
    | some none => .ok (engine, .ofStatus .err)
    | some (some idx) =>
        match findPrev engine.memory (fun item => item = sub) engine.fuel none
          (engine.subList index idx) with
        | none => .error .fault
        | some none => .ok (engine, .ofStatus .err)
        | some (some (prev, node, next)) =>
            match unlink engine.memory prev node next with
            | none => .error .fault
            | some memory =>
                let head := if prev = none then next else engine.subList index idx
                .ok ({ engine.setSubList index idx head with memory := memory }, .ofStatus .ok)

/-- A call on a table. -/
def call (allocator : Allocator (Block Sub Content)) (engine : Engine K) (index : Nat)
    (call : TableCall K) : Except Stop (Engine K × Reply K) :=
  match engine.tables[index]? with
  | none => .error .misuse
  | some opened =>
      if holdsParts engine.memory index opened then
        match call with
        | .put key val valLen => engine.nosKvPut allocator index opened key val valLen
        | .get key bufLen =>
            match Kv.nosKvGet opened.schema opened.table key bufLen with
            | .error cause => .error (.stuck cause)
            | .ok (_, reply) => .ok (engine, reply)
        | .getPtr key => engine.nosKvGetPtr allocator index opened key
        | .del key => engine.nosKvDel index opened key
        | .subscribe key sub => engine.nosKvSubscribe allocator index opened key sub
        | .unsubscribe key sub => engine.nosKvUnsubscribe index opened key sub
      else .error .fault

/-- `nos_kv_release_ptr`. -/
def nosKvReleasePtr (engine : Engine K) (place : Nat) : Except Stop (Engine K × Reply K) :=
  match engine.handles[place]? with
  | none => .error .misuse
  | some none => .ok (engine, .ofStatus .ok)
  | some (some handle) =>
      match engine.memory.lookup handle with
      | some (.other (.handle index bucket)) =>
          match engine.tables[index]? with
          | none => .error .fault
          | some opened =>
              if holdsParts engine.memory index opened then
                match Kv.nosKvReleasePtr opened.table (some bucket) with
                | .error cause => .error (.stuck cause)
                | .ok (table, reply) =>
                    .ok
                      ({ engine.setTable index opened table with
                          memory := engine.memory.erase handle
                          handles := engine.handles.set place none },
                        reply)
              else .error .fault
      | _ => .error .fault

/-- Perform one call. -/
def step (allocator : Allocator (Block Sub Content)) (engine : Engine K) :
    EngineCall K → Except Stop (Engine K × EngineReply K)
  | .create new =>
      let created := engine.nosKvTableCreate allocator new
      .ok (created.1, .table created.2)
  | .call index call =>
      (engine.call allocator index call).map fun called => (called.1, .reply called.2)
  | .releasePtr place =>
      (engine.nosKvReleasePtr place).map fun called => (called.1, .reply called.2)
  | .deinit => engine.nosKvDbDeinit.map fun engine => (engine, .done)

end Engine

/-! ## The engine without memory -/

/-- A table with the subscriptions of its entries. -/
structure PlainTable (K : Type*) where
  /-- The bytes of `name`. -/
  name : List UInt8
  /-- What was fixed when it was created. -/
  schema : Schema K
  /-- The table. -/
  table : Table K

/-- Tables, and the buckets that are locked for the pointers handed out. -/
structure PlainEngine (K : Type*) where
  /-- The tables. -/
  tables : List (PlainTable K)
  /-- Table and bucket of each pointer, absent once it is released. -/
  handles : List (Option (Nat × Nat))

/-- The number of blocks of a table: its parts and the subscriptions of its entries. -/
def PlainTable.blockCount (opened : PlainTable K) : Nat :=
  4 + ((List.range opened.schema.capacity).map fun idx =>
    (opened.table.pool idx).subList.length).sum

namespace PlainEngine

/-- An engine without tables. -/
def start : PlainEngine K := ⟨[], []⟩

/-- Create or open a table. -/
def create (plain : PlainEngine K) (new : NewTable K) : PlainEngine K × Option Nat :=
  if new.schema.capacity = 0 then (plain, none)
  else
    match plain.tables.findIdx? fun opened => CStr.stringAt opened.name = new.name with
    | some index => (plain, some index)
    | none =>
        if maxTables ≤ plain.tables.length then (plain, none)
        else
          ({ plain with
              tables := plain.tables ++
                [⟨CStr.strncpy emptyName new.name 31, new.schema,
                  Kv.nosKvTableCreate new.schema⟩] },
            some plain.tables.length)

/-- A bucket of a table is locked. -/
def locked (plain : PlainEngine K) : Bool :=
  plain.tables.any fun opened =>
    (List.range opened.schema.bucketCount).any fun bucket =>
      (opened.table.buckets bucket).readers ≠ 0

/-- The bucket that a call leaves locked for a pointer. -/
def handleOf (index : Nat) (schema : Schema K) (reply : Reply K) :
    TableCall K → List (Option (Nat × Nat))
  | .getPtr key =>
      [if reply.status = .ok then some (index, schema.bucketOf key) else none]
  | _ => []

/-- The number of blocks that the tables and the pointers need. -/
def blockCount (plain : PlainEngine K) : Nat :=
  (plain.tables.map PlainTable.blockCount).sum + plain.handles.countP Option.isSome

variable [DecidableEq K]

/-- A call on a table. -/
def call (plain : PlainEngine K) (index : Nat) (call : TableCall K) :
    Except Stop (PlainEngine K × Reply K) :=
  match plain.tables[index]? with
  | none => .error .misuse
  | some opened =>
      match Kv.step opened.schema opened.table call.kvOp with
      | .error cause => .error (.stuck cause)
      | .ok (table, reply) =>
          .ok
            ({ tables := plain.tables.set index { opened with table := table }
               handles := plain.handles ++ handleOf index opened.schema reply call },
              reply)

/-- Release a pointer. -/
def releasePtr (plain : PlainEngine K) (place : Nat) : Except Stop (PlainEngine K × Reply K) :=
  match plain.handles[place]? with
  | none => .error .misuse
  | some none => .ok (plain, .ofStatus .ok)
  | some (some (index, bucket)) =>
      match plain.tables[index]? with
      | none => .error .misuse
      | some opened =>
          match Kv.step opened.schema opened.table (.releasePtr (some bucket)) with
          | .error cause => .error (.stuck cause)
          | .ok (table, reply) =>
              .ok
                ({ tables := plain.tables.set index { opened with table := table }
                   handles := plain.handles.set place none },
                  reply)

/-- Perform one call. -/
def step (plain : PlainEngine K) : EngineCall K → Except Stop (PlainEngine K × EngineReply K)
  | .create new =>
      let created := plain.create new
      .ok (created.1, .table created.2)
  | .call index call => (plain.call index call).map fun called => (called.1, .reply called.2)
  | .releasePtr place => (plain.releasePtr place).map fun called => (called.1, .reply called.2)
  | .deinit =>
      if plain.locked then .error (.stuck .blocked) else .ok ({ plain with tables := [] }, .done)

end PlainEngine

/-! ## Runs -/

/-- Perform the calls in order and collect what they return. -/
def runEngine {σ : Type*} (step : σ → EngineCall K → Except Stop (σ × EngineReply K)) :
    σ → List (EngineCall K) → Except Stop (σ × List (EngineReply K))
  | state, [] => .ok (state, [])
  | state, op :: ops =>
      match step state op with
      | .error stop => .error stop
      | .ok (next, reply) =>
          (runEngine step next ops).map fun (last, replies) => (last, reply :: replies)

end CodexNos.Kv
