import CodexNos.Types
import CodexNos.Lib.Chain

/-!
# The in-memory key-value table

A table keeps its entries in a pool of `capacity` slots.  The entries whose keys hash to one bucket
are chained by slot index, and the unused slots are on a stack.  A key is a string of `key_size`
bytes, and only its equality and its hash matter here.  Every bucket has a reader-writer lock: a
pointer handed out by `nos_kv_get_ptr` holds it for reading until it is released.

A call that waits for a lock that the caller itself keeps has no result, and neither has a walk
along a chain that does not end.
-/

namespace CodexNos.Kv

open Lib

variable {K : Type*}

/-- A subscription of a key (`nos_kv_sub_t`): callback address and argument. -/
structure Sub where
  /-- Callback address. -/
  notify : Nat
  /-- Argument handed to the callback. -/
  arg : Nat
  deriving DecidableEq, Repr

/-- One call of a subscriber. -/
structure Notification (K : Type*) where
  /-- Subscription that is called. -/
  sub : Sub
  /-- Key that was written. -/
  key : K
  /-- Value handed to the put, absent when null. -/
  val : Option (List UInt8)
  /-- Length handed to the put. -/
  valLen : Nat
  deriving DecidableEq, Repr

/-- A pool slot (`nos_kv_entry_t` with its key and value bytes). -/
structure Entry (K : Type*) where
  /-- Next slot of the collision chain, absent for `KV_INVALID_IDX`. -/
  nextIdx : Option Nat
  /-- Number of valid value bytes. -/
  valLen : Nat
  /-- Subscriptions, newest first. -/
  subList : List Sub
  /-- Key bytes. -/
  key : K
  /-- Value area of `max_val_size` bytes. -/
  value : List UInt8
  deriving DecidableEq, Repr

/-- A hash bucket (`nos_kv_bucket_t`). -/
structure Bucket where
  /-- First slot of the chain. -/
  firstIdx : Option Nat
  /-- Outstanding read locks. -/
  readers : Nat
  deriving DecidableEq, Repr

/-- What `nos_kv_table_create` fixes for the life of a table. -/
structure Schema (K : Type*) where
  /-- Hash of a key. -/
  hash : K → Nat
  /-- The key whose bytes are all zero. -/
  zeroKey : K
  /-- Size of the value area of a slot. -/
  maxValSize : Nat
  /-- Number of pool slots. -/
  capacity : Nat
  /-- Number of buckets. -/
  bucketCount : Nat
  /-- Capacities are 32-bit. -/
  capacity_lt : capacity < 2 ^ 32

theorem two_lt_limit : 2 < 2 ^ 32 := by decide

/-- Bucket of a key. -/
def Schema.bucketOf (schema : Schema K) (key : K) : Nat :=
  schema.hash key % schema.bucketCount

/-- The mutable part of `struct nos_kv_table`. -/
structure Table (K : Type*) where
  /-- Hash buckets. -/
  buckets : Nat → Bucket
  /-- Entry pool. -/
  pool : Nat → Entry K
  /-- Stack of unused slots. -/
  freeStack : Nat → Nat
  /-- Top of the stack, `-1` when it is empty. -/
  freeTop : Int
  /-- Number of used slots, a 32-bit counter. -/
  usedCount : Nat

/-- Increment of a 32-bit counter. -/
def uint32Inc (count : Nat) : Nat := (count + 1) % 2 ^ 32

/-- Decrement of a 32-bit counter. -/
def uint32Dec (count : Nat) : Nat := if count = 0 then 2 ^ 32 - 1 else count - 1

namespace Table

/-- Link of a slot. -/
def nextIdx (table : Table K) (idx : Nat) : Option Nat := (table.pool idx).nextIdx

/-- Key of a slot. -/
def key (table : Table K) (idx : Nat) : K := (table.pool idx).key

/-- Valid value bytes of a slot. -/
def contents (table : Table K) (idx : Nat) : List UInt8 :=
  (table.pool idx).value.take (table.pool idx).valLen

/-- Slots on the stack of unused slots, bottom first. -/
def free (table : Table K) : List Nat :=
  (List.range (table.freeTop + 1).toNat).map table.freeStack

/-- Replace one slot. -/
def setEntry (table : Table K) (idx : Nat) (entry : Entry K) : Table K :=
  { table with pool := Function.update table.pool idx entry }

/-- Replace the chain start of one bucket. -/
def setFirst (table : Table K) (bucket : Nat) (first : Option Nat) : Table K :=
  { table with
    buckets := Function.update table.buckets bucket
      { table.buckets bucket with firstIdx := first } }

/-- Replace the reader count of one bucket. -/
def setReaders (table : Table K) (bucket : Nat) (readers : Nat) : Table K :=
  { table with
    buckets := Function.update table.buckets bucket
      { table.buckets bucket with readers := readers } }

/-- Replace the link of one slot. -/
def setNext (table : Table K) (idx : Nat) (next : Option Nat) : Table K :=
  table.setEntry idx { table.pool idx with nextIdx := next }

end Table

/-- A new table: empty chains, a cleared pool and every slot on the stack. -/
def nosKvTableCreate (schema : Schema K) : Table K where
  buckets _ := { firstIdx := none, readers := 0 }
  pool _ :=
    { nextIdx := some 0
      valLen := 0
      subList := []
      key := schema.zeroKey
      value := List.replicate schema.maxValSize 0 }
  freeStack idx := idx
  freeTop := schema.capacity - 1
  usedCount := 0

/-- Copy the first `len` bytes of `src` over `dst`. -/
def memcpy (dst src : List UInt8) (len : Nat) : List UInt8 :=
  src.take len ++ dst.drop len

/-- The value area after a put, which leaves it alone when the value is null. -/
def storeValue (area : List UInt8) (val : Option (List UInt8)) (valLen : Nat) : List UInt8 :=
  match val with
  | some bytes => memcpy area bytes valLen
  | none => area

/-- Why a call does not return. -/
inductive Stuck
  /-- It waits for a bucket lock that an unreleased pointer holds. -/
  | blocked
  /-- It releases a lock that is not held. -/
  | notHeld
  /-- The walk along a chain does not end. -/
  | diverges
  deriving DecidableEq, Repr

/-- What a call returns. -/
structure Reply (K : Type*) where
  /-- Status of the call. -/
  status : Status
  /-- Bytes copied out or pointed to, and the length reported with them. -/
  value : Option (List UInt8 × Nat)
  /-- Subscribers called, in order. -/
  notified : List (Notification K)
  deriving DecidableEq, Repr

/-- A reply that is only a status. -/
def Reply.ofStatus (status : Status) : Reply K where
  status := status
  value := none
  notified := []

variable [DecidableEq K]

/-- Whether a slot has the key. -/
def Table.hasKey (table : Table K) (key : K) (idx : Nat) : Bool := table.key idx = key

/-- Walk the chain of a key's bucket to the slot of the key. -/
def Table.findSlot (schema : Schema K) (table : Table K) (key : K) : Option (Option Nat) :=
  Chain.search table.nextIdx (table.hasKey key) schema.capacity
    (table.buckets (schema.bucketOf key)).firstIdx

/-- Overwrite the value of a slot and call its subscribers. -/
def Table.updateSlot (table : Table K) (idx : Nat) (key : K) (val : Option (List UInt8))
    (valLen : Nat) : Table K × Reply K :=
  let entry := table.pool idx
  (table.setEntry idx
      { entry with value := storeValue entry.value val valLen, valLen := valLen },
    { status := .ok
      value := none
      notified := entry.subList.map fun sub => ⟨sub, key, val, valLen⟩ })

/-- Take a slot off the stack and put it at the front of a chain. -/
def Table.insertSlot (table : Table K) (bucket : Nat) (key : K) (val : Option (List UInt8))
    (valLen : Nat) : Table K :=
  let newIdx := table.freeStack table.freeTop.toNat
  let entry := table.pool newIdx
  let filled : Entry K :=
    { nextIdx := (table.buckets bucket).firstIdx
      valLen := valLen
      subList := []
      key := key
      value := storeValue entry.value val valLen }
  { (table.setEntry newIdx filled).setFirst bucket (some newIdx) with
    freeTop := table.freeTop - 1
    usedCount := uint32Inc table.usedCount }

/-- Write or update a record (`nos_kv_put`). -/
def nosKvPut (schema : Schema K) (table : Table K) (key : K) (val : Option (List UInt8))
    (valLen : Nat) : Except Stuck (Table K × Reply K) :=
  if schema.maxValSize < valLen then .ok (table, .ofStatus .err)
  else if (table.buckets (schema.bucketOf key)).readers ≠ 0 then .error .blocked
  else
    match table.findSlot schema key with
    | none => .error .diverges
    | some (some idx) => .ok (table.updateSlot idx key val valLen)
    | some none =>
        if table.freeTop < 0 then .ok (table, .ofStatus .errBusy)
        else .ok (table.insertSlot (schema.bucketOf key) key val valLen, .ofStatus .ok)

/-- Copy a record out (`nos_kv_get`); `bufLen` is the caller's buffer length. -/
def nosKvGet (schema : Schema K) (table : Table K) (key : K) (bufLen : Nat) :
    Except Stuck (Table K × Reply K) :=
  match table.findSlot schema key with
  | none => .error .diverges
  | some none => .ok (table, .ofStatus .err)
  | some (some idx) =>
      let entry := table.pool idx
      let copyLen := if bufLen < entry.valLen then bufLen else entry.valLen
      .ok (table,
        { status := .ok
          value := some (memcpy [] entry.value copyLen, entry.valLen)
          notified := [] })

/-- Point into a record (`nos_kv_get_ptr`); the bucket stays locked for reading. -/
def nosKvGetPtr (schema : Schema K) (table : Table K) (key : K) :
    Except Stuck (Table K × Reply K) :=
  let bucket := schema.bucketOf key
  match table.findSlot schema key with
  | none => .error .diverges
  | some none => .ok (table, .ofStatus .err)
  | some (some idx) =>
      .ok (table.setReaders bucket ((table.buckets bucket).readers + 1),
        { status := .ok
          value := some (table.contents idx, (table.pool idx).valLen)
          notified := [] })

/-- Release the lock of a pointer (`nos_kv_release_ptr`); a handle is the locked bucket. -/
def nosKvReleasePtr (table : Table K) (handle : Option Nat) :
    Except Stuck (Table K × Reply K) :=
  match handle with
  | none => .ok (table, .ofStatus .ok)
  | some bucket =>
      if (table.buckets bucket).readers = 0 then .error .notHeld
      else .ok (table.setReaders bucket ((table.buckets bucket).readers - 1), .ofStatus .ok)

/-- Write the link before a slot: the chain start, or the link of the slot before it. -/
def Table.relink (table : Table K) (bucket : Nat) (prev next : Option Nat) : Table K :=
  match prev with
  | none => table.setFirst bucket next
  | some prevIdx => table.setNext prevIdx next

/-- Take a slot off its chain and push it on the stack. -/
def Table.unlinkSlot (table : Table K) (bucket : Nat) (prev : Option Nat) (idx : Nat) : Table K :=
  let unlinked := table.relink bucket prev (table.nextIdx idx)
  { unlinked.setEntry idx { unlinked.pool idx with subList := [] } with
    freeStack := Function.update table.freeStack (table.freeTop + 1).toNat idx
    freeTop := table.freeTop + 1
    usedCount := uint32Dec table.usedCount }

/-- Delete a record (`nos_kv_del`). -/
def nosKvDel (schema : Schema K) (table : Table K) (key : K) : Except Stuck (Table K × Reply K) :=
  let bucket := schema.bucketOf key
  if (table.buckets bucket).readers ≠ 0 then .error .blocked
  else
    match Chain.searchPrev table.nextIdx (table.hasKey key) schema.capacity none
      (table.buckets bucket).firstIdx with
    | none => .error .diverges
    | some none => .ok (table, .ofStatus .err)
    | some (some (prev, idx)) => .ok (table.unlinkSlot bucket prev idx, .ofStatus .ok)

/-- Add a subscription to a present key (`nos_kv_subscribe`). -/
def nosKvSubscribe (schema : Schema K) (table : Table K) (key : K) (sub : Sub) :
    Except Stuck (Table K × Reply K) :=
  if (table.buckets (schema.bucketOf key)).readers ≠ 0 then .error .blocked
  else
    match table.findSlot schema key with
    | none => .error .diverges
    | some none => .ok (table, .ofStatus .err)
    | some (some idx) =>
        let entry := table.pool idx
        if sub ∈ entry.subList then .ok (table, .ofStatus .ok)
        else .ok (table.setEntry idx { entry with subList := sub :: entry.subList }, .ofStatus .ok)

/-- Remove a subscription of a present key (`nos_kv_unsubscribe`). -/
def nosKvUnsubscribe (schema : Schema K) (table : Table K) (key : K) (sub : Sub) :
    Except Stuck (Table K × Reply K) :=
  if (table.buckets (schema.bucketOf key)).readers ≠ 0 then .error .blocked
  else
    match table.findSlot schema key with
    | none => .error .diverges
    | some none => .ok (table, .ofStatus .err)
    | some (some idx) =>
        let entry := table.pool idx
        if sub ∈ entry.subList then
          .ok (table.setEntry idx { entry with subList := entry.subList.erase sub }, .ofStatus .ok)
        else .ok (table, .ofStatus .err)

/-- The calls on a table. -/
inductive KvOp (K : Type*)
  | put (key : K) (val : Option (List UInt8)) (valLen : Nat)
  | get (key : K) (bufLen : Nat)
  | getPtr (key : K)
  | releasePtr (handle : Option Nat)
  | del (key : K)
  | subscribe (key : K) (sub : Sub)
  | unsubscribe (key : K) (sub : Sub)
  deriving DecidableEq, Repr

/-- Perform one call. -/
def step (schema : Schema K) (table : Table K) : KvOp K → Except Stuck (Table K × Reply K)
  | .put key val valLen => nosKvPut schema table key val valLen
  | .get key bufLen => nosKvGet schema table key bufLen
  | .getPtr key => nosKvGetPtr schema table key
  | .releasePtr handle => nosKvReleasePtr table handle
  | .del key => nosKvDel schema table key
  | .subscribe key sub => nosKvSubscribe schema table key sub
  | .unsubscribe key sub => nosKvUnsubscribe schema table key sub

/-- Perform the calls in order and collect their replies. -/
def runOps (schema : Schema K) : Table K → List (KvOp K) → Except Stuck (Table K × List (Reply K))
  | table, [] => .ok (table, [])
  | table, op :: ops =>
      match step schema table op with
      | .error stuck => .error stuck
      | .ok (next, reply) =>
          match runOps schema next ops with
          | .error stuck => .error stuck
          | .ok (last, replies) => .ok (last, reply :: replies)

end CodexNos.Kv
