import CodexNos.Components.Handlers

/-!
# A handler with its messages

A handler that is called with a message reads it and fills in buffers that it allocates.  The desk of
a handler is the memory that it works on, and it keeps the messages that were handed over.
-/

namespace CodexNos.Components

open Lib Memory Messaging

/-- A message in memory. -/
structure Parcel where
  /-- The envelope. -/
  header : Header
  /-- The bytes behind the envelope. -/
  payload : RawMemory

/-- What the surroundings contribute to one call of a handler. -/
structure Luck where
  /-- What the chunk of an allocated buffer holds, absent if there is no buffer. -/
  chunk : Option Parcel
  /-- What sending and replying return. -/
  status : Status

/-- The allocation succeeds, and so does the transport. -/
def Luck.good (luck : Luck) : Prop := luck.chunk.isSome ∧ luck.status = .ok

/-- What is handed over of a message. -/
def Luck.taken (luck : Luck) (parcel : Parcel) : List Parcel :=
  if luck.status = .ok then [parcel] else []

/-- The memory of a handler. -/
structure Desk where
  /-- The messages in the buffers. -/
  parcels : BufferId → Parcel
  /-- The sizes of the chunks. -/
  room : BufferId → Nat
  /-- The correlation id and the requester of the reply context of the message. -/
  context : Option (UInt32 × UInt32)
  /-- What the surroundings contribute. -/
  luck : Luck
  /-- What was handed over, oldest first. -/
  sent : List Parcel

namespace Desk

/-- The buffer of the message. -/
def inbox : BufferId := ⟨0, 0⟩

/-- The buffer of an allocation. -/
def draft : BufferId := ⟨0, 1⟩

/-- The desk for a message. -/
def receive (parcel : Parcel) (context : Option (UInt32 × UInt32)) (luck : Luck) : Desk where
  parcels := fun _ => parcel
  room := fun _ => headerSize + parcel.header.payloadLen.toNat
  context := context
  luck := luck
  sent := []

/-- The desk of code that was not called with a message. -/
def idle (luck : Luck) : Desk := receive ⟨⟨0, 0, 0, 0, 0, 0, 0, 0, 0⟩, fun _ => 0⟩ none luck

/-- The first bytes of the payload are in the chunk of a buffer. -/
def inChunk (desk : Desk) (buf : BufferId) (len : Nat) : Bool := headerSize + len ≤ desk.room buf

/-- Change the message in a buffer. -/
def change (desk : Desk) (buf : BufferId) (parcel : Parcel) : Desk :=
  { desk with parcels := Function.update desk.parcels buf parcel }

/-- Hand a message over. -/
def hand (desk : Desk) (parcel : Parcel) : Desk :=
  { desk with sent := desk.sent ++ desk.luck.taken parcel }

/-- Answer a call.  There is no answer to an access outside of a buffer. -/
def perform (desk : Desk) : (input : Call) → Option (Desk × Answer input)
  | .bufferAlloc size _ =>
      match desk.luck.chunk with
      | none => some (desk, none)
      | some stale =>
          some ({ desk.change draft stale with
            room := Function.update desk.room draft size.toNat }, some draft)
  | .bufferRelease _ => some (desk, ())
  | .envelope buf => some (desk, (desk.parcels buf).header)
  | .payloadWord buf index =>
      if desk.inChunk buf (4 * (index + 1)) then
        some (desk, (.ofNat ((desk.parcels buf).payload.word (4 * index) 4) : UInt32))
      else none
  | .assign buf fields =>
      some (desk.change buf { desk.parcels buf with header := fields (desk.parcels buf).header }, ())
  | .putWord buf index word =>
      if desk.inChunk buf (4 * (index + 1)) then
        some (desk.change buf
          { desk.parcels buf with
            payload := (desk.parcels buf).payload.store (4 * index) 4 word.toNat }, ())
      else none
  | .memset buf value len =>
      if desk.inChunk buf len.toNat then
        some (desk.change buf
          { desk.parcels buf with
            payload := (desk.parcels buf).payload.write (List.replicate len.toNat value) }, ())
      else none
  | .memcpy buf source len =>
      if desk.inChunk buf len.toNat ∧ desk.inChunk source len.toNat then
        some (desk.change buf
          { desk.parcels buf with
            payload :=
              (desk.parcels buf).payload.write ((desk.parcels source).payload.read len.toNat) }, ())
      else none
  | .getReplyCtx _ => some (desk, desk.context.map fun _ => 0)
  | .serviceMsgSend buf => some (desk.hand (desk.parcels buf), desk.luck.status)
  | .serviceReply none _ => some (desk, Status.err)
  | .serviceReply (some _) buf =>
      desk.context.map fun context =>
        let reply :=
          { desk.parcels buf with
            header := (desk.parcels buf).header.asReply context.1 context.2 }
        ((desk.change buf reply).hand reply, desk.luck.status)
  | .kvPut _ _ _ => some (desk, desk.luck.status)
  | .log => some (desk, ())
  | .nullAccess => none

/-- Run a handler. -/
def run {α : Type} (desk : Desk) (handler : Handler α) : Option (Desk × α) :=
  Calls.interpret perform desk handler

/-! ## Effects -/

variable {desk : Desk}

@[simp]
theorem sent_idle (luck : Luck) : (idle luck).sent = [] := rfl

@[simp]
theorem luck_idle (luck : Luck) : (idle luck).luck = luck := rfl

@[simp]
theorem sent_receive (parcel : Parcel) (context : Option (UInt32 × UInt32)) (luck : Luck) :
    (receive parcel context luck).sent = [] := rfl

@[simp]
theorem luck_receive (parcel : Parcel) (context : Option (UInt32 × UInt32)) (luck : Luck) :
    (receive parcel context luck).luck = luck := rfl

@[simp]
theorem parcels_receive (parcel : Parcel) (context : Option (UInt32 × UInt32)) (luck : Luck)
    (buf : BufferId) : (receive parcel context luck).parcels buf = parcel := rfl

@[simp]
theorem sent_hand (parcel : Parcel) :
    (desk.hand parcel).sent = desk.sent ++ desk.luck.taken parcel := rfl

@[simp]
theorem run_pure {α : Type} (result : α) : desk.run (pure result) = some (desk, result) := rfl

@[simp]
theorem run_bind {α β : Type} (first : Handler α) (second : α → Handler β) :
    desk.run (first >>= second) =
      (desk.run first).bind fun done => done.1.run (second done.2) :=
  Calls.interpret_bind first second

@[simp]
theorem run_map {α β : Type} (convert : α → β) (handler : Handler α) :
    desk.run (convert <$> handler) = (desk.run handler).map fun done => (done.1, convert done.2) :=
  Calls.interpret_map convert handler

@[simp]
theorem run_logLines (count : Nat) : desk.run (logLines count) = some (desk, ()) := by
  induction count with
  | zero => rfl
  | succ count ih => exact ih

@[simp]
theorem run_envelope (buf : BufferId) :
    desk.run (envelope buf) = some (desk, (desk.parcels buf).header) := rfl

@[simp]
theorem run_assign (buf : BufferId) (fields : Header → Header) :
    desk.run (assign buf fields) =
      some (desk.change buf
        { desk.parcels buf with header := fields (desk.parcels buf).header }, ()) := rfl

@[simp]
theorem run_bufferRelease (buf : BufferId) : desk.run (bufferRelease buf) = some (desk, ()) := rfl

@[simp]
theorem run_serviceMsgSend (buf : BufferId) :
    desk.run (serviceMsgSend buf) = some (desk.hand (desk.parcels buf), desk.luck.status) := rfl

theorem run_payloadWord {buf : BufferId} {index : Nat} (inside : desk.inChunk buf (4 * (index + 1))) :
    desk.run (payloadWord buf index) =
      some (desk, .ofNat ((desk.parcels buf).payload.word (4 * index) 4)) := by
  change ((if desk.inChunk buf (4 * (index + 1)) then
    some (desk, (.ofNat ((desk.parcels buf).payload.word (4 * index) 4) : UInt32)) else none).bind
      _) = _
  rw [if_pos inside]
  rfl

/-- The desk with an allocated buffer. -/
def allocated (desk : Desk) (size : UInt32) (parcel : Parcel) : Desk :=
  { desk.change draft parcel with room := Function.update desk.room draft size.toNat }

@[simp]
theorem parcels_allocated (size : UInt32) (parcel : Parcel) :
    (desk.allocated size parcel).parcels draft = parcel := by
  simp [allocated, change]

@[simp]
theorem change_allocated (size : UInt32) (parcel other : Parcel) :
    (desk.allocated size parcel).change draft other = desk.allocated size other := by
  simp [allocated, change]

@[simp]
theorem sent_allocated (size : UInt32) (parcel : Parcel) :
    (desk.allocated size parcel).sent = desk.sent := rfl

@[simp]
theorem luck_allocated (size : UInt32) (parcel : Parcel) :
    (desk.allocated size parcel).luck = desk.luck := rfl

theorem inChunk_allocated {size : UInt32} {parcel : Parcel} {len : Nat} :
    (desk.allocated size parcel).inChunk draft len ↔ headerSize + len ≤ size.toNat := by
  simp [allocated, inChunk]

theorem run_putWord {size : UInt32} {parcel : Parcel} {index : Nat} (word : UInt32)
    (inside : headerSize + 4 * (index + 1) ≤ size.toNat) :
    (desk.allocated size parcel).run (putWord draft index word) =
      some (desk.allocated size
        { parcel with payload := parcel.payload.store (4 * index) 4 word.toNat }, ()) := by
  change ((desk.allocated size parcel).perform (.putWord draft index word)).bind _ = _
  rw [perform, if_pos (inChunk_allocated.mpr inside), parcels_allocated, change_allocated]
  rfl

theorem run_memset {size : UInt32} {parcel : Parcel} (value : UInt8) {len : UInt32}
    (inside : headerSize + len.toNat ≤ size.toNat) :
    (desk.allocated size parcel).run (memset draft value len) =
      some (desk.allocated size
        { parcel with payload := parcel.payload.write (List.replicate len.toNat value) }, ()) := by
  change ((desk.allocated size parcel).perform (.memset draft value len)).bind _ = _
  rw [perform, if_pos (inChunk_allocated.mpr inside), parcels_allocated, change_allocated]
  rfl

theorem run_memset_of_lt {size : UInt32} {parcel : Parcel} (value : UInt8) {len : UInt32}
    (outside : size.toNat < headerSize + len.toNat) :
    (desk.allocated size parcel).run (memset draft value len) = none := by
  change ((desk.allocated size parcel).perform (.memset draft value len)).bind _ = _
  rw [perform, if_neg (fun inside => absurd (inChunk_allocated.mp inside) (by omega))]
  rfl

theorem run_memcpy {size : UInt32} {parcel : Parcel} {len : UInt32}
    (inside : headerSize + len.toNat ≤ size.toNat) (given : desk.inChunk inbox len.toNat) :
    (desk.allocated size parcel).run (memcpy draft inbox len) =
      some (desk.allocated size
        { parcel with
          payload := parcel.payload.write ((desk.parcels inbox).payload.read len.toNat) }, ()) := by
  have different : inbox ≠ draft := by decide
  have kept : (desk.allocated size parcel).parcels inbox = desk.parcels inbox :=
    Function.update_of_ne different parcel desk.parcels
  have given' : (desk.allocated size parcel).inChunk inbox len.toNat := by
    simpa [inChunk, allocated, different] using given
  change ((desk.allocated size parcel).perform (.memcpy draft inbox len)).bind _ = _
  rw [perform, if_pos ⟨inChunk_allocated.mpr inside, given'⟩, parcels_allocated,
    change_allocated, kept]
  rfl

theorem run_reply {size : UInt32} {parcel : Parcel} {context : UInt32 × UInt32}
    (asked : desk.context = some context) :
    (desk.allocated size parcel).run (getReplyCtx inbox >>= fun ctx => serviceReply ctx draft) =
      some ((desk.allocated size
        { parcel with header := parcel.header.asReply context.1 context.2 }).hand
          { parcel with header := parcel.header.asReply context.1 context.2 },
        desk.luck.status) := by
  have found : (desk.allocated size parcel).context = some context := asked
  have read : (desk.allocated size parcel).run (getReplyCtx inbox) =
      some (desk.allocated size parcel, some 0) := by
    change some (desk.allocated size parcel,
      (desk.allocated size parcel).context.map fun _ => 0) = _
    rw [found]
    rfl
  rw [run_bind, read, Option.bind_some]
  change ((desk.allocated size parcel).perform (.serviceReply (some 0) draft)).bind _ = _
  rw [perform, found, Option.map_some, Option.bind_some, parcels_allocated]
  dsimp only
  rw [change_allocated]
  rfl

theorem run_bufferAlloc_of_none (size headroom : UInt32) (none : desk.luck.chunk = none) :
    desk.run (bufferAlloc size headroom) = some (desk, Option.none) := by
  change (desk.perform (.bufferAlloc size headroom)).bind _ = _
  rw [perform, none]
  rfl

theorem run_bufferAlloc_of_some {stale : Parcel} (size headroom : UInt32)
    (got : desk.luck.chunk = some stale) :
    desk.run (bufferAlloc size headroom) = some (desk.allocated size stale, some draft) := by
  change (desk.perform (.bufferAlloc size headroom)).bind _ = _
  rw [perform, got]
  rfl

theorem run_sendMessage_of_none {size : UInt32} {fields : Header → Header}
    {payload : BufferId → Handler Unit} {hand : BufferId → Handler Status}
    (none : desk.luck.chunk = none) :
    desk.run (sendMessage size fields payload hand) = some (desk, ()) := by
  rw [sendMessage, run_bind, run_bufferAlloc_of_none size 0 none]
  rfl

theorem run_sendMessage_of_fault {size : UInt32} {fields : Header → Header}
    {payload : BufferId → Handler Unit} {hand : BufferId → Handler Status} {stale : Parcel}
    (got : desk.luck.chunk = some stale)
    (fault : (desk.allocated size ⟨fields stale.header, stale.payload⟩).run (payload draft) =
      none) :
    desk.run (sendMessage size fields payload hand) = none := by
  rw [sendMessage, run_bind, run_bufferAlloc_of_some size 0 got, Option.bind_some]
  dsimp only
  rw [run_bind, run_assign, parcels_allocated, change_allocated, Option.bind_some]
  dsimp only
  rw [run_bind, fault, Option.bind_none]

theorem run_sendMessage {size : UInt32} {fields : Header → Header}
    {payload : BufferId → Handler Unit} {hand : BufferId → Handler Status} {stale : Parcel}
    (got : desk.luck.chunk = some stale) (fill : RawMemory → RawMemory)
    (filled : (desk.allocated size ⟨fields stale.header, stale.payload⟩).run (payload draft) =
      some (desk.allocated size ⟨fields stale.header, fill stale.payload⟩, ())) :
    desk.run (sendMessage size fields payload hand) =
      ((desk.allocated size ⟨fields stale.header, fill stale.payload⟩).run (hand draft)).map
        fun done => (done.1, ()) := by
  rw [sendMessage, run_bind, run_bufferAlloc_of_some size 0 got, Option.bind_some]
  dsimp only
  rw [run_bind, run_assign, parcels_allocated, change_allocated, Option.bind_some]
  dsimp only
  rw [run_bind, filled, Option.bind_some]
  dsimp only
  rw [run_bind, Option.map_eq_bind]
  rfl

end Desk

end CodexNos.Components
