import CodexNos.Ipc.ShmRing

/-!
# The shared-memory ring is first in, first out

Messages are numbered by their writes.  The slots hold the messages from the number of slots handed
back up to the number of writes, fewer than there are slots.  The producer works on the slot behind
them, and one slot is always left between this one and the slots that hold messages; it is the slot
that the consumer has handed back last and whose length it still reads.
-/

namespace CodexNos.Ipc

open Lib.Transition

/-- A slot holds a message. -/
structure ShmSlot.Holds (slot : ShmSlot) (data : List UInt8) : Prop where
  len : slot.len = data.length
  bytes : ∀ index byte, data[index]? = some byte → slot.data index = byte

/-- The messages in the ring. -/
structure Window (ring : ShmRing) (released : Nat) (written : List (List UInt8))
    (consumer : DrainPoint) : Prop where
  head : ring.head = released % slotCount
  tail : ring.tail = written.length % slotCount
  order : released ≤ written.length
  /-- One slot is left. -/
  room : written.length < released + slotCount
  holds : ∀ place data, released ≤ place → written[place]? = some data →
    (ring.slots (place % slotCount)).Holds data
  /-- The slots that hold messages are ready, but the one that is being handed back. -/
  ready : ∀ place, released ≤ place → place < written.length →
    (ring.slots (place % slotCount)).ready = true ∨
      place = released ∧ ∃ head, consumer = .advance head

/-- The slot behind the messages is free for the producer. -/
def Claimed (released : Nat) (written : List (List UInt8)) (tail : Nat) : Prop :=
  tail = written.length % slotCount ∧ written.length + 1 < released + slotCount

/-- What the producer relies on. -/
def WriterOk (ring : ShmRing) (released : Nat) (written : List (List UInt8)) : WritePoint → Prop
  | .idle | .loadHead _ | .countPacket _ | .countBytes _ => True
  | .loadTail _ head seen =>
      head = seen % slotCount ∧ seen ≤ released ∧ seen ≤ written.length ∧
        written.length < seen + slotCount
  | .countFull seen | .countFallback seen => written.length + 1 = seen + slotCount
  | .copy data tail index =>
      Claimed released written tail ∧
        ∀ place < index, ∀ byte, data[place]? = some byte → (ring.slots tail).data place = byte
  | .setLen data tail =>
      Claimed released written tail ∧
        ∀ place byte, data[place]? = some byte → (ring.slots tail).data place = byte
  | .setReady data tail => Claimed released written tail ∧ (ring.slots tail).Holds data
  | .publish data tail =>
      Claimed released written tail ∧ (ring.slots tail).Holds data ∧
        (ring.slots tail).ready = true

/-- A write that has moved `tail` and has not yet returned. -/
def WritePoint.published : WritePoint → List (List UInt8)
  | .countPacket data | .countBytes data => [data]
  | _ => []

/-- What the consumer relies on. -/
def ReaderOk (ring : ShmRing) (released : Nat) (written : List (List UInt8)) : DrainPoint → Prop
  | .idle | .loadHead => True
  | .loadTail head => head = released % slotCount
  | .testReady head | .loadLen head | .clearReady head | .advance head =>
      head = released % slotCount ∧ released < written.length
  | .read head len index bytes =>
      head = released % slotCount ∧ index ≤ len ∧
        ∃ data, written[released]? = some data ∧ len = data.length ∧ bytes = data.take index
  | .countPacket head | .reloadLen head =>
      ∃ before data, released = before + 1 ∧ head = before % slotCount ∧
        written[before]? = some data ∧ (ring.slots head).len = data.length
  | .countBytes len =>
      ∃ before data, released = before + 1 ∧ written[before]? = some data ∧ len = data.length

namespace DrainPoint

/-- A message was passed to the callback and its slot is not yet handed back. -/
def passed : DrainPoint → Nat
  | .clearReady _ | .advance _ => 1
  | _ => 0

/-- A slot was handed back and the packet is not yet counted. -/
def uncountedPacket : DrainPoint → Nat
  | .countPacket _ => 1
  | _ => 0

/-- A slot was handed back and its bytes are not yet counted. -/
def uncountedBytes : DrainPoint → Nat
  | .countPacket _ | .reloadLen _ | .countBytes _ => 1
  | _ => 0

end DrainPoint

/-- The number of bytes of some messages. -/
def totalLength (messages : List (List UInt8)) : Nat := (messages.map List.length).sum

/-- What was delivered and counted. -/
structure Ledger (written delivered : List (List UInt8)) (released rxPackets rxBytes : Nat)
    (consumer : DrainPoint) : Prop where
  delivered : delivered = written.take (released + consumer.passed)
  packets : rxPackets + consumer.uncountedPacket = released
  bytes : ∃ counted, counted + consumer.uncountedBytes = released ∧
    rxBytes = totalLength (written.take counted)

/-- The invariant of the link. -/
structure ShmLink.Sound (link : ShmLink) : Prop where
  window : Window link.ring link.released link.written link.consumer
  writer : WriterOk link.ring link.released link.written link.producer
  reader : ReaderOk link.ring link.released link.written link.consumer
  ledger : Ledger link.written link.delivered link.released link.rxPackets link.rxBytes
    link.consumer
  returned : link.written = link.returned ++ link.producer.published
  refused : ∀ entry ∈ link.refused, entry.1 + 1 = entry.2 + slotCount

/-! ## Slots -/

/-- The slot of a message is not the one the producer works on. -/
theorem Claimed.ne_place {released tail place : Nat} {written : List (List UInt8)}
    (claimed : Claimed released written tail) (from_released : released ≤ place)
    (inside : place < written.length) : place % slotCount ≠ tail := by
  obtain ⟨rfl, room⟩ := claimed
  unfold slotCount at room ⊢
  omega

/-- The slot handed back last is not the one the producer works on. -/
theorem Claimed.ne_before {released tail before : Nat} {written : List (List UInt8)}
    (claimed : Claimed released written tail) (handed_back : released = before + 1)
    (order : released ≤ written.length) : before % slotCount ≠ tail := by
  obtain ⟨rfl, room⟩ := claimed
  unfold slotCount at room ⊢
  omega

@[simp]
theorem ShmRing.setSlot_slots_self (ring : ShmRing) (index : Nat) (slot : ShmSlot) :
    (ring.setSlot index slot).slots index = slot := by simp [setSlot]

theorem ShmRing.setSlot_slots_ne (ring : ShmRing) {index other : Nat} (slot : ShmSlot)
    (distinct : other ≠ index) : (ring.setSlot index slot).slots other = ring.slots other := by
  simp [setSlot, distinct]

/-- Writing to the slot of the producer leaves the messages alone. -/
theorem Window.setSlot {ring : ShmRing} {released tail : Nat} {written : List (List UInt8)}
    {consumer : DrainPoint} (window : Window ring released written consumer)
    (claimed : Claimed released written tail) (slot : ShmSlot) :
    Window (ring.setSlot tail slot) released written consumer where
  head := window.head
  tail := window.tail
  order := window.order
  room := window.room
  holds := by
    intro place data from_released found
    have inside : place < written.length := (List.getElem?_eq_some_iff.mp found).1
    rw [ShmRing.setSlot_slots_ne _ _ (claimed.ne_place from_released inside)]
    exact window.holds place data from_released found
  ready := by
    intro place from_released inside
    rw [ShmRing.setSlot_slots_ne _ _ (claimed.ne_place from_released inside)]
    exact window.ready place from_released inside

/-- Writing to the slot of the producer does not disturb the consumer. -/
theorem ReaderOk.setSlot {ring : ShmRing} {released tail : Nat} {written : List (List UInt8)}
    {consumer : DrainPoint} (reader : ReaderOk ring released written consumer)
    (claimed : Claimed released written tail) (order : released ≤ written.length)
    (slot : ShmSlot) : ReaderOk (ring.setSlot tail slot) released written consumer := by
  have late : ∀ head, (∃ before data, released = before + 1 ∧ head = before % slotCount ∧
        written[before]? = some data ∧ (ring.slots head).len = data.length) →
      ∃ before data, released = before + 1 ∧ head = before % slotCount ∧
        written[before]? = some data ∧ ((ring.setSlot tail slot).slots head).len =
          data.length := by
    rintro head ⟨before, data, handed_back, rfl, found, len⟩
    refine ⟨before, data, handed_back, rfl, found, ?_⟩
    rw [ShmRing.setSlot_slots_ne _ _ (claimed.ne_before handed_back order)]
    exact len
  cases consumer with
  | countPacket head => exact late head reader
  | reloadLen head => exact late head reader
  | idle => trivial
  | loadHead => trivial
  | loadTail head => exact reader
  | testReady head => exact reader
  | loadLen head => exact reader
  | read head len index bytes => exact reader
  | clearReady head => exact reader
  | advance head => exact reader
  | countBytes len => exact reader

/-! ## Publishing -/

/-- The slot of the producer becomes the last one that holds a message. -/
theorem Window.publish {ring : ShmRing} {released tail : Nat} {written : List (List UInt8)}
    {consumer : DrainPoint} {data : List UInt8} (window : Window ring released written consumer)
    (claimed : Claimed released written tail) (holds : (ring.slots tail).Holds data)
    (ready : (ring.slots tail).ready = true) :
    Window { ring with tail := (tail + 1) % slotCount } released (written ++ [data]) consumer := by
  obtain ⟨tail_eq, room⟩ := claimed
  constructor
  · exact window.head
  · simp [tail_eq, Nat.add_mod]
  · rw [List.length_append]
    exact window.order.trans (Nat.le_add_right ..)
  · simpa using room
  · intro place other from_released found
    rcases Nat.lt_or_ge place written.length with before | behind
    · rw [List.getElem?_append_left before] at found
      exact window.holds place other from_released found
    · rw [List.getElem?_append_right behind, List.getElem?_singleton] at found
      split at found
      · obtain rfl := Option.some.inj found
        obtain rfl : place = written.length := by omega
        rw [← tail_eq]
        exact holds
      · cases found
  · intro place from_released inside
    rw [List.length_append, List.length_singleton] at inside
    obtain before | rfl : place < written.length ∨ place = written.length := by omega
    · exact window.ready place from_released before
    · rw [← tail_eq]
      exact .inl ready

theorem ReaderOk.publish {ring : ShmRing} {released : Nat} {written : List (List UInt8)}
    {consumer : DrainPoint} (reader : ReaderOk ring released written consumer) (data : List UInt8)
    (tail : Nat) : ReaderOk { ring with tail := tail } released (written ++ [data]) consumer := by
  have kept : ∀ (place : Nat) (other : List UInt8), written[place]? = some other →
      (written ++ [data])[place]? = some other := by
    intro place other found
    rw [List.getElem?_append_left (List.getElem?_eq_some_iff.mp found).1]
    exact found
  have further : ∀ head, head = released % slotCount ∧ released < written.length →
      head = released % slotCount ∧ released < (written ++ [data]).length := by
    rintro head ⟨head_eq, inside⟩
    refine ⟨head_eq, ?_⟩
    rw [List.length_append]
    omega
  cases consumer with
  | idle => trivial
  | loadHead => trivial
  | loadTail head => exact reader
  | testReady head => exact further head reader
  | loadLen head => exact further head reader
  | clearReady head => exact further head reader
  | advance head => exact further head reader
  | read head len index bytes =>
      obtain ⟨head_eq, index_le, message, found, rest⟩ := reader
      exact ⟨head_eq, index_le, message, kept _ _ found, rest⟩
  | countPacket head =>
      obtain ⟨before, message, handed_back, head_eq, found, len⟩ := reader
      exact ⟨before, message, handed_back, head_eq, kept _ _ found, len⟩
  | reloadLen head =>
      obtain ⟨before, message, handed_back, head_eq, found, len⟩ := reader
      exact ⟨before, message, handed_back, head_eq, kept _ _ found, len⟩
  | countBytes len =>
      obtain ⟨before, message, handed_back, found, len_eq⟩ := reader
      exact ⟨before, message, handed_back, kept _ _ found, len_eq⟩

theorem ReaderOk.passed_le {ring : ShmRing} {released : Nat} {written : List (List UInt8)}
    {consumer : DrainPoint} (reader : ReaderOk ring released written consumer)
    (order : released ≤ written.length) : released + consumer.passed ≤ written.length := by
  cases consumer with
  | clearReady head => exact reader.2
  | advance head => exact reader.2
  | idle => exact order
  | loadHead => exact order
  | loadTail head => exact order
  | testReady head => exact order
  | loadLen head => exact order
  | read head len index bytes => exact order
  | countPacket head => exact order
  | reloadLen head => exact order
  | countBytes len => exact order

/-- A further message changes nothing that was delivered or counted. -/
theorem Ledger.publish {written delivered : List (List UInt8)} {released rxPackets rxBytes : Nat}
    {consumer : DrainPoint}
    (ledger : Ledger written delivered released rxPackets rxBytes consumer)
    (passed_le : released + consumer.passed ≤ written.length) (data : List UInt8) :
    Ledger (written ++ [data]) delivered released rxPackets rxBytes consumer := by
  obtain ⟨delivered_eq, packets, counted, counted_eq, bytes⟩ := ledger
  refine ⟨?_, packets, counted, counted_eq, ?_⟩
  · rw [List.take_append_of_le_length passed_le]
    exact delivered_eq
  · rw [List.take_append_of_le_length (by omega)]
    exact bytes

namespace ShmLink

/-! ## Steps of the producer -/

theorem Sound.produce {before after : ShmLink} (sound : before.Sound)
    (stepped : before.produce = some after) : after.Sound := by
  obtain ⟨window, writer, reader, ledger, returned, refused⟩ := sound
  cases point_eq : before.producer with
  | idle => simp [ShmLink.produce, point_eq] at stepped
  | loadHead data =>
      simp only [ShmLink.produce, point_eq, Option.some.injEq] at stepped
      subst stepped
      rw [point_eq] at returned
      exact ⟨window, ⟨window.head, Nat.le_refl _, window.order, window.room⟩, reader, ledger,
        returned, refused⟩
  | loadTail data head seen =>
      rw [point_eq] at writer returned
      obtain ⟨head_eq, seen_le, from_seen, room⟩ := writer
      have full_iff : (before.written.length % slotCount + 1) % slotCount = head ↔
          before.written.length + 1 = seen + slotCount := by
        unfold slotCount at *
        omega
      simp only [ShmLink.produce, point_eq, window.tail] at stepped
      split at stepped
      · rename_i full
        obtain rfl := Option.some.inj stepped
        exact ⟨window, full_iff.mp full, reader, ledger, returned, refused⟩
      · rename_i free
        obtain rfl := Option.some.inj stepped
        have claimed : before.written.length + 1 < before.released + slotCount := by
          have := mt full_iff.mpr free
          omega
        exact ⟨window, ⟨⟨rfl, claimed⟩, by simp⟩, reader, ledger, returned, refused⟩
  | countFull seen =>
      simp only [ShmLink.produce, point_eq, Option.some.injEq] at stepped
      subst stepped
      rw [point_eq] at writer returned
      exact ⟨window, writer, reader, ledger, returned, refused⟩
  | countFallback seen =>
      simp only [ShmLink.produce, point_eq, Option.some.injEq] at stepped
      subst stepped
      rw [point_eq] at writer returned
      refine ⟨window, trivial, reader, ledger, returned, ?_⟩
      intro entry present
      rcases List.mem_append.mp present with old | new
      · exact refused entry old
      · obtain rfl := List.mem_singleton.mp new
        exact writer
  | copy data tail index =>
      rw [point_eq] at writer returned
      obtain ⟨claimed, copied⟩ := writer
      simp only [ShmLink.produce, point_eq] at stepped
      split at stepped
      · rename_i byte found
        obtain rfl := Option.some.inj stepped
        refine ⟨window.setSlot claimed _, ⟨claimed, ?_⟩,
          reader.setSlot claimed window.order _, ledger, returned, refused⟩
        intro place place_lt other other_found
        dsimp only
        rw [ShmRing.setSlot_slots_self]
        obtain before_index | rfl : place < index ∨ place = index := by omega
        · simpa [Nat.ne_of_lt before_index] using copied place before_index other other_found
        · simpa using Option.some.inj (found.symm.trans other_found)
      · rename_i at_end
        obtain rfl := Option.some.inj stepped
        refine ⟨window, ⟨claimed, ?_⟩, reader, ledger, returned, refused⟩
        intro place byte found
        have inside : place < data.length := (List.getElem?_eq_some_iff.mp found).1
        have := List.getElem?_eq_none_iff.mp at_end
        exact copied place (by omega) byte found
  | setLen data tail =>
      simp only [ShmLink.produce, point_eq, Option.some.injEq] at stepped
      subst stepped
      rw [point_eq] at writer returned
      obtain ⟨claimed, copied⟩ := writer
      refine ⟨window.setSlot claimed _, ⟨claimed, ?_⟩, reader.setSlot claimed window.order _,
        ledger, returned, refused⟩
      dsimp only
      rw [ShmRing.setSlot_slots_self]
      exact ⟨rfl, copied⟩
  | setReady data tail =>
      simp only [ShmLink.produce, point_eq, Option.some.injEq] at stepped
      subst stepped
      rw [point_eq] at writer returned
      obtain ⟨claimed, holds⟩ := writer
      refine ⟨window.setSlot claimed _, ⟨claimed, ?_, ?_⟩,
        reader.setSlot claimed window.order _, ledger, returned, refused⟩
      · dsimp only
        rw [ShmRing.setSlot_slots_self]
        exact ⟨holds.len, holds.bytes⟩
      · dsimp only
        rw [ShmRing.setSlot_slots_self]
  | publish data tail =>
      simp only [ShmLink.produce, point_eq, Option.some.injEq] at stepped
      subst stepped
      rw [point_eq] at writer returned
      obtain ⟨claimed, holds, ready⟩ := writer
      refine ⟨window.publish claimed holds ready, trivial, reader.publish data _,
        ledger.publish (reader.passed_le window.order) data, ?_, refused⟩
      simpa [WritePoint.published] using returned
  | countPacket data =>
      simp only [ShmLink.produce, point_eq, Option.some.injEq] at stepped
      subst stepped
      rw [point_eq] at returned
      exact ⟨window, trivial, reader, ledger, returned, refused⟩
  | countBytes data =>
      simp only [ShmLink.produce, point_eq, Option.some.injEq] at stepped
      subst stepped
      rw [point_eq] at returned
      refine ⟨window, trivial, reader, ledger, ?_, refused⟩
      simpa [WritePoint.published] using returned

end ShmLink

/-! ## What the consumer changes -/

/-- The consumer moves on from a point at which no slot is being handed back. -/
theorem Window.move {ring : ShmRing} {released : Nat} {written : List (List UInt8)}
    {consumer consumer' : DrainPoint} (window : Window ring released written consumer)
    (not_advancing : ∀ head, consumer ≠ .advance head) :
    Window ring released written consumer' where
  head := window.head
  tail := window.tail
  order := window.order
  room := window.room
  holds := window.holds
  ready := by
    intro place from_released inside
    rcases window.ready place from_released inside with ready | ⟨-, head, advancing⟩
    · exact .inl ready
    · exact absurd advancing (not_advancing head)

theorem Window.head_ready {ring : ShmRing} {released : Nat} {written : List (List UInt8)}
    {consumer : DrainPoint} (window : Window ring released written consumer)
    (not_advancing : ∀ head, consumer ≠ .advance head) (inside : released < written.length) :
    (ring.slots (released % slotCount)).ready = true := by
  rcases window.ready released (Nat.le_refl _) inside with ready | ⟨-, head, advancing⟩
  · exact ready
  · exact absurd advancing (not_advancing head)

theorem Window.clearReady {ring : ShmRing} {released head : Nat} {written : List (List UInt8)}
    (window : Window ring released written (.clearReady head))
    (head_eq : head = released % slotCount) :
    Window (ring.setSlot head { ring.slots head with ready := false }) released written
      (.advance head) := by
  refine ⟨window.head, window.tail, window.order, window.room, ?_, ?_⟩
  · intro place data from_released found
    have holds := window.holds place data from_released found
    by_cases same : place % slotCount = head
    · rw [same] at holds ⊢
      rw [ShmRing.setSlot_slots_self]
      exact ⟨holds.len, holds.bytes⟩
    · rw [ShmRing.setSlot_slots_ne _ _ same]
      exact holds
  · intro place from_released inside
    by_cases first : place = released
    · exact .inr ⟨first, head, rfl⟩
    · have distinct : place % slotCount ≠ head := by
        have room := window.room
        rw [head_eq]
        unfold slotCount at room ⊢
        omega
      rw [ShmRing.setSlot_slots_ne _ _ distinct]
      rcases window.ready place from_released inside with ready | ⟨same, -⟩
      · exact .inl ready
      · exact absurd same first

theorem Window.advance {ring : ShmRing} {released head : Nat} {written : List (List UInt8)}
    (window : Window ring released written (.advance head))
    (head_eq : head = released % slotCount) (inside : released < written.length) :
    Window { ring with head := (head + 1) % slotCount } (released + 1) written
      (.countPacket head) where
  head := by simp [head_eq, Nat.add_mod]
  tail := window.tail
  order := inside
  room := by
    have := window.room
    omega
  holds := fun place data from_released found => window.holds place data (by omega) found
  ready := by
    intro place from_released place_lt
    rcases window.ready place (by omega) place_lt with ready | ⟨rfl, -⟩
    · exact .inl ready
    · omega

/-- Writing to a slot that holds a message does not disturb the producer. -/
theorem WriterOk.setSlot {ring : ShmRing} {released : Nat} {written : List (List UInt8)}
    {producer : WritePoint} (writer : WriterOk ring released written producer)
    (inside : released < written.length) (slot : ShmSlot) :
    WriterOk (ring.setSlot (released % slotCount) slot) released written producer := by
  have same_slot : ∀ tail, Claimed released written tail →
      (ring.setSlot (released % slotCount) slot).slots tail = ring.slots tail := by
    intro tail claimed
    exact ShmRing.setSlot_slots_ne _ _ (claimed.ne_place (Nat.le_refl _) inside).symm
  cases producer with
  | idle => trivial
  | loadHead data => trivial
  | countPacket data => trivial
  | countBytes data => trivial
  | loadTail data head seen => exact writer
  | countFull seen => exact writer
  | countFallback seen => exact writer
  | copy data tail index =>
      simp only [WriterOk, same_slot tail writer.1]
      exact writer
  | setLen data tail =>
      simp only [WriterOk, same_slot tail writer.1]
      exact writer
  | setReady data tail =>
      simp only [WriterOk, same_slot tail writer.1]
      exact writer
  | publish data tail =>
      simp only [WriterOk, same_slot tail writer.1]
      exact writer

theorem WriterOk.advance {ring : ShmRing} {released : Nat} {written : List (List UInt8)}
    {producer : WritePoint} (writer : WriterOk ring released written producer) (head : Nat) :
    WriterOk { ring with head := head } (released + 1) written producer := by
  have further : ∀ tail, Claimed released written tail → Claimed (released + 1) written tail :=
    fun tail claimed => ⟨claimed.1, by have := claimed.2; omega⟩
  cases producer with
  | idle => trivial
  | loadHead data => trivial
  | countPacket data => trivial
  | countBytes data => trivial
  | loadTail data head' seen => exact ⟨writer.1, by have := writer.2.1; omega, writer.2.2⟩
  | countFull seen => exact writer
  | countFallback seen => exact writer
  | copy data tail index => exact ⟨further tail writer.1, writer.2⟩
  | setLen data tail => exact ⟨further tail writer.1, writer.2⟩
  | setReady data tail => exact ⟨further tail writer.1, writer.2⟩
  | publish data tail => exact ⟨further tail writer.1, writer.2⟩

theorem Ledger.move {written delivered : List (List UInt8)} {released rxPackets rxBytes : Nat}
    {consumer consumer' : DrainPoint}
    (ledger : Ledger written delivered released rxPackets rxBytes consumer)
    (passed : consumer'.passed = consumer.passed)
    (packet : consumer'.uncountedPacket = consumer.uncountedPacket)
    (bytes : consumer'.uncountedBytes = consumer.uncountedBytes) :
    Ledger written delivered released rxPackets rxBytes consumer' where
  delivered := passed ▸ ledger.delivered
  packets := packet ▸ ledger.packets
  bytes := bytes ▸ ledger.bytes

theorem take_succ_of_getElem? {messages : List (List UInt8)} {place : Nat} {data : List UInt8}
    (found : messages[place]? = some data) :
    messages.take (place + 1) = messages.take place ++ [data] := by
  rw [List.take_add_one, found]
  rfl

namespace ShmLink

/-! ## Steps of the consumer -/

theorem Sound.consume {before after : ShmLink} (sound : before.Sound)
    (stepped : before.consume = some after) : after.Sound := by
  obtain ⟨window, writer, reader, ledger, returned, refused⟩ := sound
  cases point_eq : before.consumer with
  | idle => simp [ShmLink.consume, point_eq] at stepped
  | loadHead =>
      simp only [ShmLink.consume, point_eq, Option.some.injEq] at stepped
      subst stepped
      rw [point_eq] at window ledger
      exact ⟨window.move (by simp), writer, window.head, ledger.move rfl rfl rfl, returned, refused⟩
  | loadTail head =>
      simp only [ShmLink.consume, point_eq, Option.some.injEq] at stepped
      subst stepped
      rw [point_eq] at window reader ledger
      obtain rfl : head = before.released % slotCount := reader
      by_cases empty : before.released % slotCount = before.ring.tail
      · simp only [empty, if_true]
        exact ⟨window.move (by simp), writer, trivial, ledger.move rfl rfl rfl, returned, refused⟩
      · simp only [empty, if_false]
        have inside : before.released < before.written.length := by
          have order := window.order
          rw [window.tail] at empty
          rcases Nat.eq_or_lt_of_le order with same | inside
          · exact absurd (by rw [same]) empty
          · exact inside
        exact ⟨window.move (by simp), writer, ⟨rfl, inside⟩, ledger.move rfl rfl rfl, returned,
          refused⟩
  | testReady head =>
      simp only [ShmLink.consume, point_eq, Option.some.injEq] at stepped
      subst stepped
      rw [point_eq] at window reader ledger
      obtain ⟨rfl, inside⟩ := reader
      rw [if_pos (window.head_ready (by simp) inside)]
      exact ⟨window.move (by simp), writer, ⟨rfl, inside⟩, ledger.move rfl rfl rfl, returned,
        refused⟩
  | loadLen head =>
      simp only [ShmLink.consume, point_eq, Option.some.injEq] at stepped
      subst stepped
      rw [point_eq] at window reader ledger
      obtain ⟨rfl, inside⟩ := reader
      have found := List.getElem?_eq_getElem inside
      have holds := window.holds _ _ (Nat.le_refl _) found
      exact ⟨window.move (by simp), writer,
        ⟨rfl, Nat.zero_le _, _, found, holds.len, by simp⟩, ledger.move rfl rfl rfl, returned,
        refused⟩
  | read head len index bytes =>
      rw [point_eq] at window reader ledger
      obtain ⟨rfl, index_le, data, found, rfl, rfl⟩ := reader
      have inside : before.released < before.written.length :=
        (List.getElem?_eq_some_iff.mp found).1
      have holds := window.holds _ _ (Nat.le_refl _) found
      simp only [ShmLink.consume, point_eq] at stepped
      split at stepped
      · rename_i more
        obtain rfl := Option.some.inj stepped
        have next_byte := List.getElem?_eq_getElem more
        refine ⟨window.move (by simp), writer, ⟨rfl, more, data, found, rfl, ?_⟩,
          ledger.move rfl rfl rfl, returned, refused⟩
        rw [holds.bytes index _ next_byte, List.take_add_one, next_byte]
        rfl
      · obtain rfl := Option.some.inj stepped
        obtain rfl : index = data.length := by omega
        refine ⟨window.move (by simp), writer, ⟨rfl, inside⟩, ?_, returned, refused⟩
        obtain ⟨delivered, packets, counted⟩ := ledger
        refine ⟨?_, packets, counted⟩
        change before.delivered ++ [data.take data.length] =
          before.written.take (before.released + 1)
        rw [take_succ_of_getElem? found, List.take_length, delivered]
        rfl
  | clearReady head =>
      simp only [ShmLink.consume, point_eq, Option.some.injEq] at stepped
      subst stepped
      rw [point_eq] at window reader ledger
      obtain ⟨rfl, inside⟩ := reader
      exact ⟨window.clearReady rfl, writer.setSlot inside _, ⟨rfl, inside⟩,
        ledger.move rfl rfl rfl, returned, refused⟩
  | advance head =>
      simp only [ShmLink.consume, point_eq, Option.some.injEq] at stepped
      subst stepped
      rw [point_eq] at window reader ledger
      obtain ⟨rfl, inside⟩ := reader
      have found := List.getElem?_eq_getElem inside
      have holds := window.holds _ _ (Nat.le_refl _) found
      refine ⟨window.advance rfl inside, writer.advance _,
        ⟨before.released, _, rfl, rfl, found, holds.len⟩, ?_, returned, refused⟩
      obtain ⟨delivered, packets, counted, counted_eq, bytes⟩ := ledger
      refine ⟨delivered, ?_, counted, ?_, bytes⟩
      · simpa [DrainPoint.uncountedPacket] using packets
      · simpa [DrainPoint.uncountedBytes] using counted_eq
  | countPacket head =>
      simp only [ShmLink.consume, point_eq, Option.some.injEq] at stepped
      subst stepped
      rw [point_eq] at window reader ledger
      exact ⟨window.move (by simp), writer, reader,
        ⟨ledger.delivered, ledger.packets, ledger.bytes⟩, returned, refused⟩
  | reloadLen head =>
      simp only [ShmLink.consume, point_eq, Option.some.injEq] at stepped
      subst stepped
      rw [point_eq] at window reader ledger
      obtain ⟨previous, data, handed_back, -, found, len⟩ := reader
      exact ⟨window.move (by simp), writer, ⟨previous, data, handed_back, found, len⟩,
        ledger.move rfl rfl rfl, returned, refused⟩
  | countBytes len =>
      simp only [ShmLink.consume, point_eq, Option.some.injEq] at stepped
      subst stepped
      rw [point_eq] at window reader ledger
      obtain ⟨previous, data, handed_back, found, rfl⟩ := reader
      obtain ⟨delivered, packets, counted, counted_eq, bytes⟩ := ledger
      refine ⟨window.move (by simp), writer, trivial, ⟨delivered, packets, before.released, rfl, ?_⟩,
        returned, refused⟩
      obtain rfl : counted = previous := by
        simp only [DrainPoint.uncountedBytes] at counted_eq
        omega
      rw [handed_back, take_succ_of_getElem? found, bytes]
      simp [totalLength]

/-! ## Runs -/

theorem sound_of_initial {link : ShmLink} (initial : link.Initial) : link.Sound := by
  obtain ⟨head, tail, -, producer, consumer, rxPackets, rxBytes, written, returned, refused,
    delivered, released⟩ := initial
  constructor
  · rw [consumer, written, released]
    exact ⟨by simp [head], by simp [tail], Nat.le_refl _, by decide, by simp, by simp⟩
  · rw [producer]
    trivial
  · rw [consumer]
    trivial
  · rw [consumer, written, released, delivered, rxPackets, rxBytes]
    exact ⟨rfl, rfl, 0, rfl, rfl⟩
  · rw [written, returned, producer]
    rfl
  · simp [refused]

theorem Sound.step {before after : ShmLink} {op : ShmOp} (sound : before.Sound)
    (stepped : before.step op = some after) : after.Sound := by
  cases op with
  | write data =>
      simp only [ShmLink.step, Option.ite_none_right_eq_some] at stepped
      obtain ⟨idle, stepped⟩ := stepped
      split at stepped
      · obtain rfl := Option.some.inj stepped
        exact sound
      · obtain rfl := Option.some.inj stepped
        obtain ⟨window, writer, reader, ledger, returned, refused⟩ := sound
        rw [idle] at returned
        exact ⟨window, trivial, reader, ledger, returned, refused⟩
  | produce => exact sound.produce stepped
  | drain =>
      simp only [ShmLink.step, Option.ite_none_right_eq_some, Option.some.injEq] at stepped
      obtain ⟨idle, rfl⟩ := stepped
      obtain ⟨window, writer, reader, ledger, returned, refused⟩ := sound
      rw [idle] at window ledger
      exact ⟨window.move (by simp), writer, trivial, ledger.move rfl rfl rfl, returned, refused⟩
  | consume => exact sound.consume stepped

theorem sound_of_reachable {link : ShmLink} (reach : Reachable step Initial link) : link.Sound :=
  Reach.invariant Sound (fun _ initial => sound_of_initial initial)
    (fun _ _ _ sound _ stepped => sound.step stepped) reach

end ShmLink

/-- The producer has not yet found room. -/
def WritePoint.Asking : WritePoint → Prop
  | .loadHead _ | .loadTail _ _ _ | .countFull _ | .countFallback _ => True
  | _ => False

/-- The consumer has counted all that it has passed to the callback. -/
def DrainPoint.Settled (consumer : DrainPoint) : Prop :=
  consumer.passed = 0 ∧ consumer.uncountedPacket = 0 ∧ consumer.uncountedBytes = 0

namespace ShmLink

/-- What the consumer passed to the callback is a prefix of what the producer wrote. -/
theorem Sound.delivered_prefix {link : ShmLink} (sound : link.Sound) :
    link.delivered <+: link.returned ++ link.producer.published := by
  rw [← sound.returned, sound.ledger.delivered]
  exact List.take_prefix ..

theorem Sound.length_delivered {link : ShmLink} (sound : link.Sound) :
    link.delivered.length = link.released + link.consumer.passed := by
  rw [sound.ledger.delivered, List.length_take]
  exact Nat.min_eq_left (sound.reader.passed_le sound.window.order)

/-- When the consumer has settled its accounts, they agree with what it passed to the callback. -/
theorem Sound.settled {link : ShmLink} (sound : link.Sound) (settled : link.consumer.Settled) :
    link.rxPackets = link.delivered.length ∧ link.rxBytes = totalLength link.delivered := by
  obtain ⟨passed, packet, bytes_counted⟩ := settled
  obtain ⟨delivered, packets, counted, counted_eq, bytes⟩ := sound.ledger
  constructor
  · rw [sound.length_delivered]
    omega
  · rw [bytes, delivered, passed]
    congr 2
    omega

/-- A write that has not found room leaves the ring alone. -/
theorem ring_of_asking {before after : ShmLink} (asking : before.producer.Asking)
    (stepped : before.produce = some after) : after.ring = before.ring := by
  unfold ShmLink.produce at stepped
  cases point_eq : before.producer with
  | loadHead data =>
      simp only [point_eq, Option.some.injEq] at stepped
      subst stepped
      rfl
  | loadTail data head seen =>
      simp only [point_eq] at stepped
      split at stepped <;> exact Option.some.inj stepped ▸ rfl
  | countFull seen =>
      simp only [point_eq, Option.some.injEq] at stepped
      subst stepped
      rfl
  | countFallback seen =>
      simp only [point_eq, Option.some.injEq] at stepped
      subst stepped
      rfl
  | _ => simp [point_eq, WritePoint.Asking] at asking

/-- The ring is first in, first out.  The messages passed to the callback are a prefix of those
whose write has returned `NOS_OK` or is about to, having moved `tail`.  A write is refused only if
all slots but one hold messages by the head that it read, and until then it leaves the ring alone.
The test of the mark never fails.  The statistics are those of the messages passed on. -/
theorem delivered_in_order {link : ShmLink} (reach : Reachable step Initial link) :
    link.delivered <+: link.returned ++ link.producer.published ∧
      (∀ written seen, (written, seen) ∈ link.refused → written = seen + 255) ∧
      (∀ next, link.producer.Asking → link.step .produce = some next → next.ring = link.ring) ∧
      (∀ head, link.consumer = .testReady head → (link.ring.slots head).ready = true) ∧
      (link.consumer.Settled →
        link.rxPackets = link.delivered.length ∧ link.rxBytes = totalLength link.delivered) := by
  have sound := sound_of_reachable reach
  refine ⟨sound.delivered_prefix, ?_, fun next => ring_of_asking, ?_, sound.settled⟩
  · intro written seen refused
    have := sound.refused _ refused
    unfold slotCount at this
    omega
  · intro head testing
    have reader := sound.reader
    have window := sound.window
    rw [testing] at reader window
    obtain ⟨rfl, inside⟩ := reader
    exact window.head_ready (by simp) inside

/-- A message of two bytes is drained while one of one byte is written. -/
theorem two_messages_pass :
    ∃ link : ShmLink, link.delivered = [[3, 4], [5]] ∧ link.rxPackets = link.delivered.length ∧
      link.rxBytes = totalLength link.delivered := by
  have execution :
      (run step fresh
          ([.write [3, 4]] ++ List.replicate 10 .produce ++ [.write [5], .drain] ++
            (List.replicate 9 [.consume, .produce]).flatten ++ List.replicate 16 .consume)).map
        (fun link => (link.delivered, link.consumer)) = some ([[3, 4], [5]], .idle) := by
    decide +kernel
  obtain ⟨link, ran, view⟩ := Option.map_eq_some_iff.mp execution
  obtain ⟨delivered, idle⟩ := Prod.mk.inj view
  have reach : Reachable step Initial link := reachable_of_run (.start fresh_initial) ran
  obtain ⟨-, -, -, -, settled⟩ := delivered_in_order reach
  obtain ⟨packets, bytes⟩ := settled (by rw [idle]; exact ⟨rfl, rfl, rfl⟩)
  exact ⟨link, delivered, packets, bytes⟩

end ShmLink

end CodexNos.Ipc
