import CodexNos.Ipc.Transports

/-!
# Packets of the socket

A connection receives over a socket that keeps packets apart.  The handler looks at the header of
the packet at the head, takes the packet out with a buffer of the size that the header announces, and
passes it on; the socket throws away what the buffer has no room for.
-/

namespace CodexNos.Ipc

open Lib Messaging

/-! ## The socket -/

/-- The receiving end of a socket. -/
structure SeqPacket where
  /-- Packets, oldest first. -/
  packets : List (List UInt8)
  /-- The other end is closed. -/
  closed : Bool
  deriving DecidableEq, Repr

namespace SeqPacket

/-- `recv` with `MSG_PEEK`, if there is a packet or there will be none. -/
def peek (socket : SeqPacket) (size : Nat) : Option (List UInt8) :=
  match socket.packets with
  | packet :: _ => some (packet.take size)
  | [] => if socket.closed then some [] else none

/-- `recv`. -/
def recv (socket : SeqPacket) (size : Nat) : SeqPacket × Option (List UInt8) :=
  ({ socket with packets := socket.packets.tail }, socket.peek size)

variable {socket : SeqPacket} {packet : List UInt8} {others : List (List UInt8)}

theorem peek_of_cons (head : socket.packets = packet :: others) (size : Nat) :
    socket.peek size = some (packet.take size) := by
  rw [peek, head]

theorem packets_recv_of_cons (head : socket.packets = packet :: others) (size : Nat) :
    (socket.recv size).1.packets = others := by
  rw [recv, head, List.tail_cons]

theorem getD_recv_of_cons (head : socket.packets = packet :: others) (size : Nat) :
    ((socket.recv size).2).getD [] = packet.take size := by
  rw [recv, peek_of_cons head, Option.getD_some]

end SeqPacket

/-! ## The handler -/

/-- `NOS_IPC_CTRL_SHM_SETUP`. -/
def ctrlShmSetup : UInt32 := 0x53484D31

/-- `NOS_IPC_CTRL_SHM_NOTIFY`. -/
def ctrlShmNotify : UInt32 := 0x53484D32

/-- `NOS_SHM_NAME_MAX`. -/
def shmNameMax : Nat := 64

/-- `sizeof(nos_ipc_shm_setup_t)`. -/
def setupSize : UInt32 := 96

/-- A string in memory, in an array of some size. -/
def textAt (data : RawMemory) (start size : Nat) : CStr :=
  .stringAt ((List.range size).map fun index => data (start + index))

/-- A connection with what it receives. -/
structure RxEnd (β : Type*) where
  /-- Connection. -/
  conn : Conn β
  /-- Socket of the connection. -/
  socket : SeqPacket
  /-- Slots of the ring from `head` to `tail`. -/
  ring : List ShmSlot
  /-- `rx_packets` of the connection. -/
  rxPackets : Nat
  /-- `rx_bytes` of the connection. -/
  rxBytes : Nat
  /-- `rx_errors` of the connection. -/
  rxErrors : Nat
  /-- `rx_packets` of the node. -/
  nodeRxPackets : Nat
  /-- `rx_bytes` of the node. -/
  nodeRxBytes : Nat
  /-- `rx_errors` of the node. -/
  nodeRxErrors : Nat
  /-- `buffer_alloc_fails` of the node. -/
  bufferAllocFails : Nat
  /-- Messages made of packets that went to `nos_service_msg_send`, oldest first. -/
  fromSocket : List Inbound
  /-- Messages made of slots that went to `nos_service_msg_send`, oldest first. -/
  fromRing : List Inbound

namespace RxEnd

variable {β : Type*}

/-- Count data that are in error. -/
def countError (rx : RxEnd β) : RxEnd β :=
  { rx with nodeRxErrors := rx.nodeRxErrors + 1, rxErrors := rx.rxErrors + 1 }

/-- Count data for which there was no buffer. -/
def countNoBuffer (rx : RxEnd β) : RxEnd β :=
  { rx with bufferAllocFails := rx.bufferAllocFails + 1, rxErrors := rx.rxErrors + 1 }

/-- Count a message. -/
def countMessage (rx : RxEnd β) (len : Nat) : RxEnd β :=
  { rx with
    rxPackets := rx.rxPackets + 1
    rxBytes := rx.rxBytes + len
    nodeRxPackets := rx.nodeRxPackets + 1
    nodeRxBytes := rx.nodeRxBytes + len }

/-- `recv` without a buffer. -/
def discard (rx : RxEnd β) : RxEnd β := { rx with socket := (rx.socket.recv 0).1 }

/-- `ipc_deliver_rx_data`, with the message that goes to `nos_service_msg_send`. -/
def ipcDeliverRxData (rx : RxEnd β) (data : RawMemory) (len : Nat) (buf : Option RawMemory) :
    RxEnd β × Option Inbound :=
  if len < headerSize then (rx, none)
  else
    let header := Header.ofMemory data
    if maxPayloadLen < header.payloadLen then (rx.countError, none)
    else if len ≠ header.fullLen then (rx.countError, none)
    else
      match buf with
      | none => (rx.countNoBuffer, none)
      | some memory =>
          (rx.countMessage header.fullLen, some
            { bytes := (memory.write (RawMemory.read data header.fullLen)).read header.fullLen
              reply := some (rx.conn.generation, header.seq, header.srcComponent) })

/-- `ipc_shm_drain_cb` on a slot, which is then handed back. -/
def takeSlot (rx : RxEnd β) (slot : ShmSlot) (buf : Option RawMemory) : RxEnd β :=
  let delivered := rx.ipcDeliverRxData slot.data slot.len buf
  { delivered.1 with
    ring := rx.ring.tail
    fromRing := rx.fromRing ++ delivered.2.toList }

/-- The turns of `nos_shm_channel_drain`, with the buffers for them. -/
def drainSlots (bufs : Nat → Option RawMemory) : Nat → List ShmSlot → RxEnd β → RxEnd β
  | _, [], rx => rx
  | turn, slot :: slots, rx =>
      if slot.ready then drainSlots bufs (turn + 1) slots (rx.takeSlot slot (bufs turn)) else rx

/-- `ipc_handle_ctrl_msg`; whether the channel can be opened. -/
def ipcHandleCtrlMsg (rx : RxEnd β) (data : RawMemory) (opened : Bool)
    (bufs : Nat → Option RawMemory) : RxEnd β :=
  let header := Header.ofMemory data
  if header.msgCode = ctrlShmSetup ∧ setupSize ≤ header.payloadLen then
    let peerNode := textAt data (headerSize + shmNameMax) 32
    { rx with conn := rx.conn.handleSetup peerNode (textAt data headerSize shmNameMax) opened }
  else if header.msgCode = ctrlShmNotify ∧ rx.conn.shm then drainSlots bufs 0 rx.ring rx
  else rx

/-- The part of `nos_ipc_recv_handler` that takes a packet out of the socket. -/
def receiveInto (rx : RxEnd β) (memory : RawMemory) (fullLen : Nat) (messageBuf : Option RawMemory)
    (opened : Bool) (bufs : Nat → Option RawMemory) : RxEnd β :=
  let taken := { rx with socket := (rx.socket.recv fullLen).1 }
  let received := ((rx.socket.recv fullLen).2).getD []
  if received.length = fullLen then
    let data := memory.write received
    if (Header.ofMemory data).isCtrl then taken.ipcHandleCtrlMsg data opened bufs
    else
      let delivered := taken.ipcDeliverRxData data received.length messageBuf
      { delivered.1 with fromSocket := rx.fromSocket ++ delivered.2.toList }
  else taken.countError

/-- `nos_ipc_recv_handler`. -/
def nosIpcRecvHandler (rx : RxEnd β) (found : Uncleared) (opened : Bool)
    (bufs : Nat → Option RawMemory) : RxEnd β :=
  match rx.socket.peek headerSize with
  | none => rx
  | some peeked =>
      if peeked.length = 0 then { rx with conn := rx.conn.markDisconnected }
      else
        let header := Header.ofMemory (found.headerTmp.write peeked)
        if header.magic ≠ nosIpcMagic then
          { rx with rxErrors := rx.rxErrors + 1, conn := rx.conn.markDisconnected }
        else if maxPayloadLen < header.payloadLen then rx.countError.discard
        else
          match found.packetBuf with
          | none => rx.countNoBuffer.discard
          | some memory =>
              rx.receiveInto memory header.fullLen found.messageBuf opened bufs

/-! ## One packet -/

/-- The link and what came out of its socket are the same. -/
structure SameLink (before after : RxEnd β) : Prop where
  fd : after.conn.fd = before.conn.fd
  state : after.conn.state = before.conn.state
  socket : after.socket = before.socket
  fromSocket : after.fromSocket = before.fromSocket

theorem SameLink.rfl {rx : RxEnd β} : SameLink rx rx := ⟨.refl _, .refl _, .refl _, .refl _⟩

theorem SameLink.trans {first second third : RxEnd β} (left : SameLink first second)
    (right : SameLink second third) : SameLink first third where
  fd := right.fd.trans left.fd
  state := right.state.trans left.state
  socket := right.socket.trans left.socket
  fromSocket := right.fromSocket.trans left.fromSocket

theorem ipcDeliverRxData_cases (rx : RxEnd β) (data : RawMemory) (len : Nat)
    (buf : Option RawMemory) :
    (rx.ipcDeliverRxData data len buf).1 = rx ∨
      (rx.ipcDeliverRxData data len buf).1 = rx.countError ∨
      (rx.ipcDeliverRxData data len buf).1 = rx.countNoBuffer ∨
      ∃ size, (rx.ipcDeliverRxData data len buf).1 = rx.countMessage size := by
  unfold ipcDeliverRxData
  dsimp only
  split
  · exact .inl rfl
  · split
    · exact .inr (.inl rfl)
    · split
      · exact .inr (.inl rfl)
      · cases buf with
        | none => exact .inr (.inr (.inl rfl))
        | some memory => exact .inr (.inr (.inr ⟨_, rfl⟩))

theorem ipcDeliverRxData_sameLink (rx : RxEnd β) (data : RawMemory) (len : Nat)
    (buf : Option RawMemory) : SameLink rx (rx.ipcDeliverRxData data len buf).1 := by
  rcases rx.ipcDeliverRxData_cases data len buf with same | same | same | ⟨size, same⟩ <;>
    rw [same]
  exacts [.rfl, ⟨rfl, rfl, rfl, rfl⟩, ⟨rfl, rfl, rfl, rfl⟩, ⟨rfl, rfl, rfl, rfl⟩]

theorem ipcDeliverRxData_fromRing (rx : RxEnd β) (data : RawMemory) (len : Nat)
    (buf : Option RawMemory) : (rx.ipcDeliverRxData data len buf).1.fromRing = rx.fromRing := by
  rcases rx.ipcDeliverRxData_cases data len buf with same | same | same | ⟨size, same⟩ <;>
    rw [same] <;> rfl

theorem ipcDeliverRxData_message (rx : RxEnd β) (data : RawMemory) (len : Nat)
    (buf : Option RawMemory) : (rx.ipcDeliverRxData data len buf).2 =
      (deliverRxData data len (some rx.conn.generation) buf).message? := by
  unfold ipcDeliverRxData deliverRxData
  dsimp only
  split
  · rfl
  · split
    · rfl
    · split
      · rfl
      · cases buf with
        | none => rfl
        | some memory => rfl

theorem takeSlot_sameLink (rx : RxEnd β) (slot : ShmSlot) (buf : Option RawMemory) :
    SameLink rx (rx.takeSlot slot buf) := by
  obtain ⟨fd, state, socket, fromSocket⟩ := rx.ipcDeliverRxData_sameLink slot.data slot.len buf
  exact ⟨fd, state, socket, fromSocket⟩

theorem drainSlots_sameLink (bufs : Nat → Option RawMemory) (slots : List ShmSlot) :
    ∀ (turn : Nat) (rx : RxEnd β), SameLink rx (drainSlots bufs turn slots rx) := by
  induction slots with
  | nil => exact fun _ _ => .rfl
  | cons slot slots ih =>
      intro turn rx
      unfold drainSlots
      split
      · exact (rx.takeSlot_sameLink slot (bufs turn)).trans (ih _ _)
      · exact .rfl

theorem ipcHandleCtrlMsg_sameLink (rx : RxEnd β) (data : RawMemory) (opened : Bool)
    (bufs : Nat → Option RawMemory) : SameLink rx (rx.ipcHandleCtrlMsg data opened bufs) := by
  unfold ipcHandleCtrlMsg
  dsimp only
  split
  · exact ⟨rfl, rfl, rfl, rfl⟩
  · split
    · exact drainSlots_sameLink bufs _ _ _
    · exact .rfl

/-- The header that the handler takes a packet to have. -/
def peekedHeader (packet : List UInt8) (found : Uncleared) : Header :=
  .ofMemory (found.headerTmp.write (packet.take headerSize))

/-- Exactly the packet at the head is gone, and the connection is as before. -/
structure TakesOne (before after : RxEnd β) (others : List (List UInt8)) : Prop where
  packets : after.socket.packets = others
  fd : after.conn.fd = before.conn.fd
  state : after.conn.state = before.conn.state

/-- The verdict on a packet that is taken out of the socket. -/
def takenVerdict (packet : List UInt8) (generation : Option UInt32) (memory : RawMemory)
    (fullLen : Nat) (messageBuf : Option RawMemory) : Verdict :=
  if (packet.take fullLen).length = fullLen then
    if (Header.ofMemory (memory.write (packet.take fullLen))).isCtrl then
      .control (.ofMemory (memory.write (packet.take fullLen)))
    else
      deliverRxData (memory.write (packet.take fullLen)) (packet.take fullLen).length generation
        messageBuf
  else .rejected

theorem receiveInto_spec {rx : RxEnd β} {packet : List UInt8} {others : List (List UInt8)}
    (head : rx.socket.packets = packet :: others) (memory : RawMemory) (fullLen : Nat)
    (messageBuf : Option RawMemory) (opened : Bool) (bufs : Nat → Option RawMemory) :
    (rx.receiveInto memory fullLen messageBuf opened bufs).fromSocket = rx.fromSocket ++
        (takenVerdict packet (some rx.conn.generation) memory fullLen messageBuf).message?.toList ∧
      TakesOne rx (rx.receiveInto memory fullLen messageBuf opened bufs) others := by
  have rest := SeqPacket.packets_recv_of_cons head fullLen
  unfold receiveInto takenVerdict
  simp only [SeqPacket.getD_recv_of_cons head]
  generalize packet.take fullLen = bytes
  split
  · split
    · have same := ipcHandleCtrlMsg_sameLink { rx with socket := (rx.socket.recv fullLen).1 }
        (memory.write bytes) opened bufs
      refine ⟨same.fromSocket.trans (List.append_nil _).symm, ?_, same.fd, same.state⟩
      rw [same.socket]
      exact rest
    · have same := ipcDeliverRxData_sameLink { rx with socket := (rx.socket.recv fullLen).1 }
        (memory.write bytes) bytes.length messageBuf
      refine ⟨?_, ?_, same.fd, same.state⟩
      · rw [ipcDeliverRxData_message]
      · change (ipcDeliverRxData _ _ _ _).1.socket.packets = others
        rw [same.socket]
        exact rest
  · exact ⟨(List.append_nil _).symm, rest, rfl, rfl⟩

/-- A packet tells that there are messages in the ring. -/
structure Notifies (packet : List UInt8) : Prop where
  ctrl : (headerOf packet).isCtrl = true
  code : (headerOf packet).msgCode = ctrlShmNotify

theorem receiveInto_fromRing {rx : RxEnd β} {packet : List UInt8} {others : List (List UInt8)}
    (head : rx.socket.packets = packet :: others) (quiet : ¬ Notifies packet) (memory : RawMemory)
    {fullLen : Nat} (large : headerSize ≤ fullLen) (messageBuf : Option RawMemory) (opened : Bool)
    (bufs : Nat → Option RawMemory) :
    (rx.receiveInto memory fullLen messageBuf opened bufs).fromRing = rx.fromRing := by
  unfold receiveInto
  simp only [SeqPacket.getD_recv_of_cons head]
  split
  · rename_i whole
    have enough : fullLen ≤ packet.length := by
      rw [List.length_take] at whole
      omega
    have header : Header.ofMemory (memory.write (packet.take fullLen)) = headerOf packet := by
      rw [ofMemory_write (by rw [whole]; exact large), headerOf_take large enough]
    split
    · rename_i ctrl
      rw [header] at ctrl
      unfold ipcHandleCtrlMsg
      simp only [header]
      split
      · rfl
      · rw [if_neg fun told => quiet ⟨ctrl, told.1⟩]
    · exact ipcDeliverRxData_fromRing _ _ _ _
  · rfl

/-- What the handler does with the packet at the head: messages are those of the verdict, the packet
is taken, and the connection is closed if the magic is wrong. -/
theorem nosIpcRecvHandler_spec {rx : RxEnd β} {packet : List UInt8} {others : List (List UInt8)}
    (head : rx.socket.packets = packet :: others) (nonempty : packet ≠ []) (found : Uncleared)
    (opened : Bool) (bufs : Nat → Option RawMemory) :
    (rx.nosIpcRecvHandler found opened bufs).fromSocket =
        rx.fromSocket ++ (recvHandler packet (some rx.conn.generation) found).message?.toList ∧
      if (peekedHeader packet found).magic = nosIpcMagic then
        TakesOne rx (rx.nosIpcRecvHandler found opened bufs) others
      else
        (rx.nosIpcRecvHandler found opened bufs).conn.fd = none ∧
          (rx.nosIpcRecvHandler found opened bufs).conn.state = .disconnected := by
  have some_byte : packet.length ≠ 0 := fun zero => nonempty (List.eq_nil_of_length_eq_zero zero)
  have some_peeked : (packet.take headerSize).length ≠ 0 := by
    have large : 0 < headerSize := by decide
    rw [List.length_take]
    omega
  have rest := SeqPacket.packets_recv_of_cons head 0
  unfold nosIpcRecvHandler recvHandler
  rw [SeqPacket.peek_of_cons head, if_neg some_byte]
  simp only [if_neg some_peeked]
  unfold peekedHeader
  generalize Header.ofMemory (found.headerTmp.write (packet.take headerSize)) = header
  by_cases magic : header.magic = nosIpcMagic
  · rw [if_neg (not_not.mpr magic), if_neg (not_not.mpr magic), if_pos magic]
    by_cases large : maxPayloadLen < header.payloadLen
    · rw [if_pos large, if_pos large]
      exact ⟨(List.append_nil _).symm, rest, rfl, rfl⟩
    · rw [if_neg large, if_neg large]
      cases found.packetBuf with
      | none => exact ⟨(List.append_nil _).symm, rest, rfl, rfl⟩
      | some memory => exact receiveInto_spec head memory _ _ opened bufs
  · rw [if_pos magic, if_pos magic, if_neg magic]
    exact ⟨(List.append_nil _).symm, rfl, rfl⟩

theorem nosIpcRecvHandler_fromRing {rx : RxEnd β} {packet : List UInt8}
    {others : List (List UInt8)} (head : rx.socket.packets = packet :: others)
    (quiet : ¬ Notifies packet) (found : Uncleared) (opened : Bool)
    (bufs : Nat → Option RawMemory) :
    (rx.nosIpcRecvHandler found opened bufs).fromRing = rx.fromRing := by
  unfold nosIpcRecvHandler
  rw [SeqPacket.peek_of_cons head]
  dsimp only
  split
  · rfl
  · split
    · rfl
    · split
      · rfl
      · cases found.packetBuf with
        | none => rfl
        | some memory =>
            exact receiveInto_fromRing head quiet memory (Header.headerSize_le_fullLen _)
              found.messageBuf opened bufs

end RxEnd

/-! ## The format -/

/-- A packet has the header of a plain message that is not too long. -/
structure HeaderInOrder (packet : List UInt8) : Prop where
  long : headerSize ≤ packet.length
  magic : (headerOf packet).magic = nosIpcMagic
  payload : (headerOf packet).payloadLen ≤ maxPayloadLen
  plain : (headerOf packet).isCtrl = false

/-- A packet is a plain message. -/
structure WellFormed (packet : List UInt8) : Prop extends HeaderInOrder packet where
  whole : packet.length = (headerOf packet).fullLen

/-- The buffers for a message are available. -/
def Uncleared.HasBuffers (found : Uncleared) : Prop :=
  found.packetBuf.isSome ∧ found.messageBuf.isSome

theorem deliverRxData_none (data : RawMemory) (len : Nat) (generation : Option UInt32) :
    (deliverRxData data len generation none).message? = none := by
  unfold deliverRxData
  dsimp only
  split
  · rfl
  · split
    · rfl
    · split <;> rfl

theorem recvHandler_of_no_buffers {found : Uncleared} (missing : ¬ found.HasBuffers)
    (packet : List UInt8) (generation : Option UInt32) :
    (recvHandler packet generation found).message? = none := by
  unfold recvHandler
  dsimp only
  split
  · rfl
  · split
    · rfl
    · split
      · rfl
      · obtain ⟨headerTmp, packetBuf, messageBuf⟩ := found
        cases packetBuf with
        | none => rfl
        | some memory =>
            cases messageBuf with
            | none =>
                dsimp only
                split
                · split
                  · rfl
                  · exact deliverRxData_none _ _ _
                · rfl
            | some other => exact absurd ⟨rfl, rfl⟩ missing

/-- A message is made of a packet with a header in order that holds at least the message. -/
theorem message?_eq_some_iff {packet : List UInt8} {generation : Option UInt32} {found : Uncleared}
    {message : Inbound} : (recvHandler packet generation found).message? = some message ↔
      HeaderInOrder packet ∧ (headerOf packet).fullLen ≤ packet.length ∧ found.HasBuffers ∧
        inbound (packet.take (headerOf packet).fullLen) generation = message := by
  by_cases long : headerSize ≤ packet.length
  · by_cases available : found.HasBuffers
    · obtain ⟨headerTmp, packetBuf, messageBuf⟩ := found
      obtain ⟨packetMemory, rfl⟩ := Option.isSome_iff_exists.mp available.1
      obtain ⟨messageMemory, rfl⟩ := Option.isSome_iff_exists.mp available.2
      rw [recvHandler_of_long long]
      dsimp only
      split
      · rename_i magic
        exact ⟨fun no => absurd no (by simp [Verdict.message?]),
          fun held => absurd held.1.magic magic⟩
      · rename_i magic
        split
        · rename_i refused
          refine ⟨fun no => absurd no (by simp [Verdict.message?]), fun held => ?_⟩
          rcases refused with large | short
          · exact absurd held.1.payload (UInt32.not_le.mpr large)
          · exact absurd held.2.1 (not_le.mpr short)
        · rename_i accepted
          rw [not_or, UInt32.not_lt, not_lt] at accepted
          split
          · rename_i ctrl
            refine ⟨fun no => absurd no (by simp [Verdict.message?]), fun held => ?_⟩
            rw [held.1.plain] at ctrl
            exact absurd ctrl Bool.false_ne_true
          · rename_i plain
            rw [Bool.not_eq_true] at plain
            constructor
            · intro found
              exact ⟨⟨long, not_not.mp magic, accepted.1, plain⟩, accepted.2, available,
                Option.some.inj found⟩
            · exact fun held => congrArg some held.2.2.2
    · rw [recvHandler_of_no_buffers available]
      exact ⟨fun no => absurd no (by simp), fun held => absurd held.2.2.1 available⟩
  · rw [recvHandler_of_short (not_le.mp long)]
    exact ⟨fun no => absurd no (by simp), fun held => absurd held.1.long long⟩

/-- What a parser of packets does with the packet at the head: it passes on exactly the plain
messages, it takes one packet, and it closes the connection if the magic is wrong.  Messages of the
ring are passed on only for a notification. -/
structure ParsesExactly {β : Type*} (before after : RxEnd β) (packet : List UInt8)
    (others : List (List UInt8)) (found : Uncleared) : Prop where
  passes : (∃ message, after.fromSocket = before.fromSocket ++ [message]) ↔
    WellFormed packet ∧ found.HasBuffers
  same : ∀ message, after.fromSocket = before.fromSocket ++ [message] → message.bytes = packet
  nothing : ¬ (WellFormed packet ∧ found.HasBuffers) → after.fromSocket = before.fromSocket
  quiet : ¬ RxEnd.Notifies packet → after.fromRing = before.fromRing
  takes : (RxEnd.peekedHeader packet found).magic = nosIpcMagic → before.TakesOne after others
  closes : (RxEnd.peekedHeader packet found).magic ≠ nosIpcMagic →
    after.conn.fd = none ∧ after.conn.state = .disconnected

section

variable {β : Type*} {rx : RxEnd β} {packet : List UInt8} {others : List (List UInt8)}

/-- A packet with bytes behind the message is passed on without them. -/
theorem not_parsesExactly_of_trailing (head : rx.socket.packets = packet :: others)
    (nonempty : packet ≠ []) {found : Uncleared} (opened : Bool) (bufs : Nat → Option RawMemory)
    (order : HeaderInOrder packet) (available : found.HasBuffers)
    (trailing : (headerOf packet).fullLen < packet.length) :
    ¬ ParsesExactly rx (rx.nosIpcRecvHandler found opened bufs) packet others found := by
  intro exactly
  have passed := (rx.nosIpcRecvHandler_spec head nonempty found opened bufs).1
  rw [message?_eq_some_iff.mpr ⟨order, trailing.le, available, rfl⟩] at passed
  have same := congrArg List.length (exactly.same _ passed)
  rw [inbound, List.length_take_of_le trailing.le] at same
  exact trailing.ne same

/-- The handler parses a packet exactly if no bytes follow the message in it, or if it is refused
for its header or for want of buffers. -/
theorem parsesExactly_iff (head : rx.socket.packets = packet :: others) (nonempty : packet ≠ [])
    (found : Uncleared) (opened : Bool) (bufs : Nat → Option RawMemory) :
    ParsesExactly rx (rx.nosIpcRecvHandler found opened bufs) packet others found ↔
      (HeaderInOrder packet → found.HasBuffers →
        packet.length ≤ (headerOf packet).fullLen) := by
  constructor
  · intro exactly order available
    by_contra trailing
    exact not_parsesExactly_of_trailing head nonempty opened bufs order available
      (not_le.mp trailing) exactly
  · intro fits
    obtain ⟨passed, link⟩ := rx.nosIpcRecvHandler_spec head nonempty found opened bufs
    have verdict : ∀ message, (rx.nosIpcRecvHandler found opened bufs).fromSocket =
        rx.fromSocket ++ [message] ↔
          (recvHandler packet (some rx.conn.generation) found).message? = some message := by
      intro message
      rw [passed, List.append_cancel_left_eq]
      cases (recvHandler packet (some rx.conn.generation) found).message? with
      | none => simp
      | some other => simp
    have whole : HeaderInOrder packet → found.HasBuffers →
        (headerOf packet).fullLen ≤ packet.length →
          packet.length = (headerOf packet).fullLen :=
      fun order available enough => le_antisymm (fits order available) enough
    refine ⟨⟨?_, ?_⟩, ?_, ?_, ?_, ?_, ?_⟩
    · rintro ⟨message, same⟩
      obtain ⟨order, enough, available, -⟩ :=
        message?_eq_some_iff.mp ((verdict message).mp same)
      exact ⟨⟨order, whole order available enough⟩, available⟩
    · rintro ⟨formed, available⟩
      exact ⟨_, (verdict _).mpr (message?_eq_some_iff.mpr
        ⟨formed.toHeaderInOrder, formed.whole.ge, available, rfl⟩)⟩
    · intro message same
      obtain ⟨order, enough, available, rfl⟩ :=
        message?_eq_some_iff.mp ((verdict message).mp same)
      rw [inbound, ← whole order available enough, List.take_length]
    · intro refused
      have none_made : (recvHandler packet (some rx.conn.generation) found).message? = none := by
        rw [Option.eq_none_iff_forall_ne_some]
        intro message made
        obtain ⟨order, enough, available, -⟩ := message?_eq_some_iff.mp made
        exact refused ⟨⟨order, whole order available enough⟩, available⟩
      rw [passed, none_made]
      exact List.append_nil _
    · exact fun quiet => RxEnd.nosIpcRecvHandler_fromRing head quiet found opened bufs
    · intro magic
      rw [if_pos magic] at link
      exact link
    · intro magic
      rw [if_neg magic] at link
      exact link

end

/-- A connection that has received a packet. -/
def received (packet : List UInt8) : RxEnd Nat where
  conn := Conn.passive (ConnRun.emptyQueue 0) 7
  socket := ⟨[packet], false⟩
  ring := []
  rxPackets := 0
  rxBytes := 0
  rxErrors := 0
  nodeRxPackets := 0
  nodeRxBytes := 0
  nodeRxErrors := 0
  bufferAllocFails := 0
  fromSocket := []
  fromRing := []

/-- Memory that was cleared after all. -/
def cleared : Uncleared := ⟨fun _ => 0, some fun _ => 0, some fun _ => 0⟩

/-- A message without a payload is passed on. -/
theorem emptyMessage_parsed : ParsesExactly (received emptyMessage)
    ((received emptyMessage).nosIpcRecvHandler cleared false fun _ => none) emptyMessage []
    cleared :=
  (parsesExactly_iff rfl (by decide) cleared false fun _ => none).mpr fun _ _ => by decide

/-- A message with a byte behind it is passed on without the byte. -/
theorem byte_behind_lost :
    ∃ (rx : RxEnd Nat) (packet : List UInt8) (others : List (List UInt8)) (found : Uncleared),
      rx.socket.packets = packet :: others ∧ packet ≠ [] ∧
        ¬ ParsesExactly rx (rx.nosIpcRecvHandler found false fun _ => none) packet others
          found := by
  refine ⟨received (emptyMessage ++ [1]), emptyMessage ++ [1], [], cleared, rfl, by decide, ?_⟩
  exact not_parsesExactly_of_trailing rfl (by decide) false (fun _ => none)
    ⟨by decide, by decide, by decide, by decide⟩ ⟨rfl, rfl⟩ (by decide)

end CodexNos.Ipc
