import CodexNos.Lib.Transition

/-!
# A ring in shared memory

One producer writes messages into the slots of a ring and one consumer drains them.  The producer
fills the slot at `tail`, marks it ready and moves `tail`; the consumer takes the slot at `head`,
hands it to the callback, clears the mark and moves `head`, and then reads the length of the slot
once more for its statistics.

Each access of the shared memory is a step, and so is the copy of each byte.  The statistics are
natural numbers.
-/

namespace CodexNos.Ipc

/-- `NOS_SHM_SLOT_COUNT`. -/
def slotCount : Nat := 256

/-- `NOS_SHM_SLOT_SIZE`. -/
def slotSize : Nat := 8192

/-- `nos_shm_slot_t`. -/
structure ShmSlot where
  /-- `ready`. -/
  ready : Bool
  /-- `len`. -/
  len : Nat
  /-- `data`. -/
  data : Nat → UInt8

/-- `nos_shm_ring_t`. -/
structure ShmRing where
  /-- `head`. -/
  head : Nat
  /-- `tail`. -/
  tail : Nat
  /-- The slots. -/
  slots : Nat → ShmSlot

/-- Where the producer is in `nos_shm_channel_write`. -/
inductive WritePoint
  /-- Not in the function. -/
  | idle
  /-- Read `head`. -/
  | loadHead (data : List UInt8)
  /-- Read `tail` and compare; `seen` messages were drained when `head` was read. -/
  | loadTail (data : List UInt8) (head seen : Nat)
  /-- The ring is full: count it. -/
  | countFull (seen : Nat)
  /-- The ring is full: count the fallback. -/
  | countFallback (seen : Nat)
  /-- Copy the next byte. -/
  | copy (data : List UInt8) (tail index : Nat)
  /-- Write the length. -/
  | setLen (data : List UInt8) (tail : Nat)
  /-- Mark the slot ready. -/
  | setReady (data : List UInt8) (tail : Nat)
  /-- Move `tail`. -/
  | publish (data : List UInt8) (tail : Nat)
  /-- Count the packet. -/
  | countPacket (data : List UInt8)
  /-- Count the bytes. -/
  | countBytes (data : List UInt8)
  deriving DecidableEq, Repr

/-- Where the consumer is in `nos_shm_channel_drain`. -/
inductive DrainPoint
  /-- Not in the function. -/
  | idle
  /-- Read `head`. -/
  | loadHead
  /-- Read `tail` and compare. -/
  | loadTail (head : Nat)
  /-- Test the mark of the slot. -/
  | testReady (head : Nat)
  /-- Read the length for the callback. -/
  | loadLen (head : Nat)
  /-- The callback reads the next byte. -/
  | read (head len index : Nat) (bytes : List UInt8)
  /-- Clear the mark. -/
  | clearReady (head : Nat)
  /-- Move `head`. -/
  | advance (head : Nat)
  /-- Count the packet. -/
  | countPacket (head : Nat)
  /-- Read the length again for the statistics. -/
  | reloadLen (head : Nat)
  /-- Count the bytes. -/
  | countBytes (len : Nat)
  deriving DecidableEq, Repr

/-- The ring with its producer and its consumer. -/
structure ShmLink where
  /-- The ring. -/
  ring : ShmRing
  /-- `g_shm_tx_packets`. -/
  txPackets : Nat
  /-- `g_shm_tx_bytes`. -/
  txBytes : Nat
  /-- `g_shm_ring_full`. -/
  ringFull : Nat
  /-- `g_shm_fallback_uds`. -/
  fallbackUds : Nat
  /-- `g_shm_rx_packets`. -/
  rxPackets : Nat
  /-- `g_shm_rx_bytes`. -/
  rxBytes : Nat
  /-- Producer. -/
  producer : WritePoint
  /-- Consumer. -/
  consumer : DrainPoint
  /-- `drained`, the result of the consumer. -/
  drained : Nat
  /-- Messages whose write has moved `tail`, oldest first. -/
  written : List (List UInt8)
  /-- Messages whose write has returned `NOS_OK`, oldest first. -/
  returned : List (List UInt8)
  /-- For each write that returned `NOS_ERR_BUSY`, the numbers of messages that were written and
  that were drained when it read `head`. -/
  refused : List (Nat × Nat)
  /-- Messages passed to the callback, oldest first. -/
  delivered : List (List UInt8)
  /-- Number of slots handed back so far. -/
  released : Nat

/-- A step of the producer or of the consumer. -/
inductive ShmOp
  /-- Call `nos_shm_channel_write`. -/
  | write (data : List UInt8)
  /-- Next step of the producer. -/
  | produce
  /-- Call `nos_shm_channel_drain`. -/
  | drain
  /-- Next step of the consumer. -/
  | consume
  deriving DecidableEq, Repr

namespace ShmRing

/-- Change a slot. -/
def setSlot (ring : ShmRing) (index : Nat) (slot : ShmSlot) : ShmRing :=
  { ring with slots := Function.update ring.slots index slot }

end ShmRing

namespace ShmLink

/-- Next step of the producer. -/
def produce (link : ShmLink) : Option ShmLink :=
  match link.producer with
  | .idle => none
  | .loadHead data =>
      some { link with producer := .loadTail data link.ring.head link.released }
  | .loadTail data head seen =>
      if (link.ring.tail + 1) % slotCount = head then some { link with producer := .countFull seen }
      else some { link with producer := .copy data link.ring.tail 0 }
  | .countFull seen =>
      some { link with ringFull := link.ringFull + 1, producer := .countFallback seen }
  | .countFallback seen =>
      some
        { link with
          fallbackUds := link.fallbackUds + 1
          refused := link.refused ++ [(link.written.length, seen)]
          producer := .idle }
  | .copy data tail index =>
      match data[index]? with
      | some byte =>
          let slot := link.ring.slots tail
          some
            { link with
              ring := link.ring.setSlot tail
                { slot with data := Function.update slot.data index byte }
              producer := .copy data tail (index + 1) }
      | none => some { link with producer := .setLen data tail }
  | .setLen data tail =>
      some
        { link with
          ring := link.ring.setSlot tail { link.ring.slots tail with len := data.length }
          producer := .setReady data tail }
  | .setReady data tail =>
      some
        { link with
          ring := link.ring.setSlot tail { link.ring.slots tail with ready := true }
          producer := .publish data tail }
  | .publish data tail =>
      some
        { link with
          ring := { link.ring with tail := (tail + 1) % slotCount }
          written := link.written ++ [data]
          producer := .countPacket data }
  | .countPacket data =>
      some { link with txPackets := link.txPackets + 1, producer := .countBytes data }
  | .countBytes data =>
      some
        { link with
          txBytes := link.txBytes + data.length
          returned := link.returned ++ [data]
          producer := .idle }

/-- Next step of the consumer. -/
def consume (link : ShmLink) : Option ShmLink :=
  match link.consumer with
  | .idle => none
  | .loadHead => some { link with consumer := .loadTail link.ring.head }
  | .loadTail head =>
      some { link with consumer := if head = link.ring.tail then .idle else .testReady head }
  | .testReady head =>
      some { link with consumer := if (link.ring.slots head).ready then .loadLen head else .idle }
  | .loadLen head => some { link with consumer := .read head (link.ring.slots head).len 0 [] }
  | .read head len index bytes =>
      if index < len then
        some
          { link with
            consumer := .read head len (index + 1) (bytes ++ [(link.ring.slots head).data index]) }
      else some { link with delivered := link.delivered ++ [bytes], consumer := .clearReady head }
  | .clearReady head =>
      some
        { link with
          ring := link.ring.setSlot head { link.ring.slots head with ready := false }
          consumer := .advance head }
  | .advance head =>
      some
        { link with
          ring := { link.ring with head := (head + 1) % slotCount }
          released := link.released + 1
          consumer := .countPacket head }
  | .countPacket head =>
      some { link with rxPackets := link.rxPackets + 1, consumer := .reloadLen head }
  | .reloadLen head => some { link with consumer := .countBytes (link.ring.slots head).len }
  | .countBytes len =>
      some
        { link with
          rxBytes := link.rxBytes + len
          drained := link.drained + 1
          consumer := .loadHead }

/-- Perform one step.  A write of an unsuitable length is rejected at once. -/
def step (link : ShmLink) : ShmOp → Option ShmLink
  | .write data =>
      if link.producer = .idle then
        if data.length = 0 ∨ slotSize < data.length then some link
        else some { link with producer := .loadHead data }
      else none
  | .produce => link.produce
  | .drain =>
      if link.consumer = .idle then some { link with drained := 0, consumer := .loadHead } else none
  | .consume => link.consume

/-- A link after `ring_init`, before the first call. -/
structure Initial (link : ShmLink) : Prop where
  head : link.ring.head = 0
  tail : link.ring.tail = 0
  slots : ∀ index, (link.ring.slots index).ready = false ∧ (link.ring.slots index).len = 0
  producer : link.producer = .idle
  consumer : link.consumer = .idle
  rxPackets : link.rxPackets = 0
  rxBytes : link.rxBytes = 0
  written : link.written = []
  returned : link.returned = []
  refused : link.refused = []
  delivered : link.delivered = []
  released : link.released = 0

/-- A link with cleared counters. -/
def fresh : ShmLink where
  ring := { head := 0, tail := 0, slots := fun _ => ⟨false, 0, fun _ => 0⟩ }
  txPackets := 0
  txBytes := 0
  ringFull := 0
  fallbackUds := 0
  rxPackets := 0
  rxBytes := 0
  producer := .idle
  consumer := .idle
  drained := 0
  written := []
  returned := []
  refused := []
  delivered := []
  released := 0

theorem fresh_initial : fresh.Initial :=
  ⟨rfl, rfl, fun _ => ⟨rfl, rfl⟩, rfl, rfl, rfl, rfl, rfl, rfl, rfl, rfl, rfl⟩

end ShmLink

end CodexNos.Ipc
