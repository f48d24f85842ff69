import CodexNos.Ipc.Connection
import CodexNos.Ipc.ShmRing
import CodexNos.Messaging.Envelope

/-!
# Receiving a message

Data from another node arrives as a packet of the socket or as a slot of the shared memory.  A
packet is looked at before it is taken out of the socket, into memory that was not cleared; a slot
is handed to `ipc_deliver_rx_data` as it is.  The buffers that the pool hands out are arguments.
-/

namespace CodexNos.Ipc

open Lib Messaging

/-- A message for `nos_service_msg_send`. -/
structure Inbound where
  /-- Header and payload. -/
  bytes : List UInt8
  /-- `ipc_generation`, `corr_id` and `requester_component` of the context for the reply. -/
  reply : Option (UInt32 × UInt32 × UInt32)
  deriving DecidableEq, Repr

/-- What becomes of the data that arrived. -/
inductive Verdict
  /-- Goes to `nos_service_msg_send`. -/
  | delivered (message : Inbound)
  /-- Goes to `ipc_handle_ctrl_msg`. -/
  | control (header : Header)
  /-- Is thrown away. -/
  | rejected
  /-- Is left, and the link is dropped. -/
  | dropsLink
  deriving DecidableEq, Repr

/-- The message for `nos_service_msg_send`, if there is one. -/
def Verdict.message? : Verdict → Option Inbound
  | .delivered message => some message
  | _ => none

/-- `ipc_deliver_rx_data`, with the generation of the connection and the memory of the buffer. -/
def deliverRxData (data : RawMemory) (len : Nat) (generation : Option UInt32)
    (buf : Option RawMemory) : Verdict :=
  if len < headerSize then .rejected
  else
    let header := Header.ofMemory data
    if maxPayloadLen < header.payloadLen then .rejected
    else if len ≠ header.fullLen then .rejected
    else
      match buf with
      | none => .rejected
      | some memory =>
          .delivered
            { bytes := (memory.write (RawMemory.read data header.fullLen)).read header.fullLen
              reply := generation.map fun current => (current, header.seq, header.srcComponent) }

/-- What the code finds in memory that it did not clear. -/
structure Uncleared where
  /-- `header_tmp`. -/
  headerTmp : RawMemory
  /-- The buffer for the packet. -/
  packetBuf : Option RawMemory
  /-- The buffer for the message. -/
  messageBuf : Option RawMemory

/-- `nos_ipc_recv_handler` on a packet of the socket. -/
def recvHandler (packet : List UInt8) (generation : Option UInt32) (found : Uncleared) : Verdict :=
  if packet.length = 0 then .dropsLink
  else
    let peeked := Header.ofMemory (found.headerTmp.write (packet.take headerSize))
    if peeked.magic ≠ nosIpcMagic then .dropsLink
    else if maxPayloadLen < peeked.payloadLen then .rejected
    else
      match found.packetBuf with
      | none => .rejected
      | some memory =>
          let received := packet.take peeked.fullLen
          if received.length = peeked.fullLen then
            let data := memory.write received
            if (Header.ofMemory data).isCtrl then .control (.ofMemory data)
            else deliverRxData data received.length generation found.messageBuf
          else .rejected

namespace ShmSlot

/-- The slot after `nos_shm_channel_write`, if there is room. -/
def channelWrite (slot : ShmSlot) (data : RawMemory) (len : Nat) : Option ShmSlot :=
  if len = 0 ∨ slotSize < len then none
  else some { ready := true, len := len, data := RawMemory.write slot.data (data.read len) }

/-- What `nos_shm_channel_drain` hands to `ipc_shm_drain_cb`. -/
def drain (slot : ShmSlot) (generation : Option UInt32) (found : Uncleared) : Option Verdict :=
  if slot.ready then some (deliverRxData slot.data slot.len generation found.messageBuf) else none

end ShmSlot

/-- Memory that holds some bytes and is otherwise empty. -/
def holding (bytes : List UInt8) : RawMemory := RawMemory.write (fun _ => 0) bytes

/-- The header of some bytes; what is missing is zero. -/
def headerOf (bytes : List UInt8) : Header := .ofMemory (holding bytes)

/-! ## What is delivered -/

/-- The message that `ipc_deliver_rx_data` makes of the bytes. -/
def inbound (bytes : List UInt8) (generation : Option UInt32) : Inbound where
  bytes := bytes
  reply := generation.map fun current =>
    (current, (headerOf bytes).seq, (headerOf bytes).srcComponent)

/-- The header of bytes that are long enough does not depend on what the memory held. -/
theorem ofMemory_write {bytes : List UInt8} (long : headerSize ≤ bytes.length)
    (memory : RawMemory) : Header.ofMemory (memory.write bytes) = headerOf bytes := by
  refine Header.ofMemory_congr fun offset small => ?_
  rw [holding, RawMemory.write_of_lt _ (small.trans_le long),
    RawMemory.write_of_lt _ (small.trans_le long)]

theorem headerOf_take {bytes : List UInt8} {len : Nat} (long : headerSize ≤ len)
    (enough : len ≤ bytes.length) :
    headerOf (bytes.take len) = headerOf bytes := by
  refine Header.ofMemory_congr fun offset small => ?_
  have inside : offset < (bytes.take len).length := by
    rw [List.length_take_of_le enough]
    exact small.trans_le long
  rw [holding, holding, RawMemory.write_of_lt _ inside,
    RawMemory.write_of_lt _ (by omega), List.getElem_take]

/-- Delivered are the data whose length is that of the message in them, if it is not too long. -/
theorem deliverRxData_write {bytes : List UInt8} (long : headerSize ≤ bytes.length)
    (memory buf : RawMemory) (generation : Option UInt32) :
    deliverRxData (memory.write bytes) bytes.length generation (some buf) =
      if (headerOf bytes).payloadLen ≤ maxPayloadLen ∧
          bytes.length = (headerOf bytes).fullLen then
        .delivered (inbound bytes generation)
      else .rejected := by
  have header_eq := ofMemory_write long memory
  rw [deliverRxData, if_neg (by omega)]
  simp only [header_eq]
  by_cases large : maxPayloadLen < (headerOf bytes).payloadLen
  · rw [if_pos large, if_neg fun fits => absurd fits.1 (UInt32.not_le.mpr large)]
  · by_cases exact_len : bytes.length = (headerOf bytes).fullLen
    · rw [if_neg large, if_neg (not_not.mpr exact_len), if_pos ⟨UInt32.not_lt.mp large, exact_len⟩]
      have copied : RawMemory.read (memory.write bytes) bytes.length = bytes := by
        rw [RawMemory.read_write _ le_rfl, List.take_length]
      rw [← exact_len, RawMemory.read_write_read, copied, inbound]
    · rw [if_neg large, if_pos exact_len, if_neg fun fits => exact_len fits.2]

theorem deliverRxData_of_short {data : RawMemory} {len : Nat} (short : len < headerSize)
    (generation : Option UInt32) (buf : Option RawMemory) :
    deliverRxData data len generation buf = .rejected :=
  if_pos short

/-- A packet that is shorter than a header is not delivered, whatever the rest of the header was
taken to be. -/
theorem recvHandler_of_short {packet : List UInt8} (short : packet.length < headerSize)
    (generation : Option UInt32) (found : Uncleared) :
    (recvHandler packet generation found).message? = none := by
  rw [recvHandler]
  split
  · rfl
  · dsimp only
    split
    · rfl
    · split
      · rfl
      · split
        · rfl
        · rw [if_neg]
          · rfl
          · have header_le := Header.headerSize_le_fullLen
              (.ofMemory (found.headerTmp.write (packet.take headerSize)))
            rw [List.length_take]
            omega

theorem recvHandler_of_long {packet : List UInt8} (long : headerSize ≤ packet.length)
    (generation : Option UInt32) (headerTmp packetBuf messageBuf : RawMemory) :
    recvHandler packet generation ⟨headerTmp, some packetBuf, some messageBuf⟩ =
      let header := headerOf packet
      if header.magic ≠ nosIpcMagic then .dropsLink
      else if maxPayloadLen < header.payloadLen ∨ packet.length < header.fullLen then .rejected
      else if header.isCtrl then .control header
      else .delivered (inbound (packet.take header.fullLen) generation) := by
  have peeked : Header.ofMemory (headerTmp.write (packet.take headerSize)) =
      headerOf packet := by
    rw [ofMemory_write (by rw [List.length_take_of_le long]),
      headerOf_take le_rfl long]
  rw [recvHandler, if_neg (by have : headerSize = 32 := rfl; omega)]
  simp only [peeked]
  set header := headerOf packet with header_eq
  by_cases magic : header.magic ≠ nosIpcMagic
  · rw [if_pos magic, if_pos magic]
  · rw [if_neg magic, if_neg magic]
    by_cases large : maxPayloadLen < header.payloadLen
    · rw [if_pos large, if_pos (.inl large)]
    · rw [if_neg large]
      by_cases short : packet.length < header.fullLen
      · have truncated : (packet.take header.fullLen).length ≠ header.fullLen := by
          rw [List.length_take]
          omega
        have refused : maxPayloadLen < header.payloadLen ∨ packet.length < header.fullLen :=
          .inr short
        rw [if_neg truncated, if_pos refused]
      · have enough := not_lt.mp short
        have accepted : ¬ (maxPayloadLen < header.payloadLen ∨ packet.length < header.fullLen) :=
          not_or.mpr ⟨large, short⟩
        have length_eq : (packet.take header.fullLen).length = header.fullLen :=
          List.length_take_of_le enough
        have header_le := header.headerSize_le_fullLen
        have same : headerOf (packet.take header.fullLen) = header :=
          headerOf_take header_le enough
        have written : Header.ofMemory (packetBuf.write (packet.take header.fullLen)) = header := by
          rw [ofMemory_write (by rw [length_eq]; exact header_le), same]
        have fits : header.payloadLen ≤ maxPayloadLen ∧
            (packet.take header.fullLen).length = header.fullLen :=
          ⟨UInt32.not_lt.mp large, length_eq⟩
        rw [if_pos length_eq, if_neg accepted, written,
          deliverRxData_write (by rw [length_eq]; exact header_le), same, if_pos fits]

end CodexNos.Ipc
