import CodexNos.Ipc.Receive

/-!
# The two transports

The socket and the shared memory carry the same bytes to code that was written twice.  They agree
on some bytes exactly if the bytes are rejected by both or are one message with the right magic.
What a node sends to another one is delivered there exactly if its payload is within the limit of
the receiver, which the sender does not know.
-/

namespace CodexNos.Ipc

open Lib Messaging

/-- What becomes of bytes in a slot of the shared memory. -/
def throughShm (slot : ShmSlot) (bytes : List UInt8) (generation : Option UInt32)
    (found : Uncleared) : Option Inbound :=
  ((slot.channelWrite (holding bytes) bytes.length).bind fun written =>
    written.drain generation found).bind Verdict.message?

/-- What becomes of bytes in a packet of the socket. -/
def throughSocket (bytes : List UInt8) (generation : Option UInt32) (found : Uncleared) :
    Option Inbound :=
  (recvHandler bytes generation found).message?

@[simp]
theorem read_holding (bytes : List UInt8) :
    RawMemory.read (holding bytes) bytes.length = bytes := by
  rw [holding, RawMemory.read_write _ le_rfl, List.take_length]

theorem drain_channelWrite (slot : ShmSlot) (data : RawMemory) {len : Nat} (pos : 1 ≤ len)
    (fits : len ≤ slotSize) (generation : Option UInt32) (found : Uncleared) :
    ((slot.channelWrite data len).bind fun written => written.drain generation found) =
      some (deliverRxData (RawMemory.write slot.data (data.read len)) len generation
        found.messageBuf) := by
  rw [ShmSlot.channelWrite, if_neg (by omega)]
  rfl

/-- The shared memory delivers one message of the right length. -/
theorem throughShm_eq (slot : ShmSlot) {bytes : List UInt8} (nonempty : 1 ≤ bytes.length)
    (fits : bytes.length ≤ slotSize) (generation : Option UInt32)
    (headerTmp messageBuf : RawMemory) (packetBuf : Option RawMemory) :
    throughShm slot bytes generation ⟨headerTmp, packetBuf, some messageBuf⟩ =
      if headerSize ≤ bytes.length ∧ (headerOf bytes).payloadLen ≤ maxPayloadLen ∧
          bytes.length = (headerOf bytes).fullLen then
        some (inbound bytes generation)
      else none := by
  rw [throughShm, drain_channelWrite slot _ nonempty fits, read_holding, Option.bind_some]
  by_cases long : headerSize ≤ bytes.length
  · rw [deliverRxData_write long]
    by_cases exact_one : (headerOf bytes).payloadLen ≤ maxPayloadLen ∧
        bytes.length = (headerOf bytes).fullLen
    · rw [if_pos exact_one, if_pos ⟨long, exact_one⟩]
      rfl
    · rw [if_neg exact_one, if_neg fun accepted => exact_one accepted.2]
      rfl
  · rw [deliverRxData_of_short (not_le.mp long), if_neg fun accepted => long accepted.1]
    rfl

/-- The socket delivers the message at the start of the packet. -/
theorem throughSocket_eq {bytes : List UInt8} (plain : (headerOf bytes).isCtrl = false)
    (generation : Option UInt32) (headerTmp packetBuf messageBuf : RawMemory) :
    throughSocket bytes generation ⟨headerTmp, some packetBuf, some messageBuf⟩ =
      if headerSize ≤ bytes.length ∧ (headerOf bytes).payloadLen ≤ maxPayloadLen ∧
          (headerOf bytes).fullLen ≤ bytes.length ∧ (headerOf bytes).magic = nosIpcMagic then
        some (inbound (bytes.take (headerOf bytes).fullLen) generation)
      else none := by
  by_cases long : headerSize ≤ bytes.length
  · rw [throughSocket, recvHandler_of_long long]
    change Verdict.message? (if (headerOf bytes).magic ≠ nosIpcMagic then _ else
      if maxPayloadLen < (headerOf bytes).payloadLen ∨ bytes.length < (headerOf bytes).fullLen
      then _ else if (headerOf bytes).isCtrl then _ else _) = _
    by_cases magic : (headerOf bytes).magic = nosIpcMagic
    · rw [if_neg (not_not.mpr magic)]
      by_cases refused : maxPayloadLen < (headerOf bytes).payloadLen ∨
          bytes.length < (headerOf bytes).fullLen
      · rw [if_pos refused, if_neg]
        · rfl
        · rintro ⟨-, small, enough, -⟩
          rcases refused with large | short
          · exact absurd small (UInt32.not_le.mpr large)
          · omega
      · obtain ⟨small, enough⟩ := not_or.mp refused
        rw [if_neg refused, if_neg (by simp [plain]),
          if_pos ⟨long, UInt32.not_lt.mp small, not_lt.mp enough, magic⟩]
        rfl
    · rw [if_pos magic, if_neg fun accepted => magic accepted.2.2.2]
      rfl
  · rw [throughSocket, recvHandler_of_short (not_le.mp long),
      if_neg fun accepted => long accepted.1]

/-- The bytes are no message, or they are exactly one and begin with the magic, or they are more than
one and do not. -/
def SameForBoth (bytes : List UInt8) : Prop :=
  headerSize ≤ bytes.length → (headerOf bytes).payloadLen ≤ maxPayloadLen →
    (headerOf bytes).fullLen ≤ bytes.length →
      ((headerOf bytes).magic = nosIpcMagic ↔ bytes.length = (headerOf bytes).fullLen)

instance (bytes : List UInt8) : Decidable (SameForBoth bytes) :=
  inferInstanceAs (Decidable (_ → _ → _ → _))

/-- Both transports make the same of some bytes exactly if the magic decides like the length. -/
theorem throughSocket_eq_throughShm_iff (slot : ShmSlot) {bytes : List UInt8}
    (nonempty : 1 ≤ bytes.length) (fits : bytes.length ≤ slotSize)
    (plain : (headerOf bytes).isCtrl = false) (generation : Option UInt32)
    (headerTmp packetBuf messageBuf : RawMemory) :
    throughSocket bytes generation ⟨headerTmp, some packetBuf, some messageBuf⟩ =
        throughShm slot bytes generation ⟨headerTmp, some packetBuf, some messageBuf⟩ ↔
      SameForBoth bytes := by
  rw [throughSocket_eq plain, throughShm_eq slot nonempty fits, SameForBoth]
  by_cases long : headerSize ≤ bytes.length
  · by_cases small : (headerOf bytes).payloadLen ≤ maxPayloadLen
    · by_cases enough : (headerOf bytes).fullLen ≤ bytes.length
      · by_cases exact_len : bytes.length = (headerOf bytes).fullLen
        · by_cases magic : (headerOf bytes).magic = nosIpcMagic <;>
            simp [long, small, ← exact_len, magic]
        · by_cases magic : (headerOf bytes).magic = nosIpcMagic <;>
            simp [long, small, enough, exact_len, magic]
      · have shorter : bytes.length ≠ (headerOf bytes).fullLen := by omega
        simp [long, small, enough, shorter]
    · simp [long, small]
  · simp [long]

/-- A slot that was never written. -/
def clearSlot : ShmSlot := ⟨false, 0, fun _ => 0⟩

/-- An empty message: the magic in front, and otherwise zeros. -/
def emptyMessage : List UInt8 := [0x4F, 0x4E] ++ List.replicate 30 0

/-- An empty message is delivered by both transports. -/
theorem emptyMessage_throughBoth :
    throughSocket emptyMessage (some 1) ⟨fun _ => 0, some fun _ => 0, some fun _ => 0⟩ =
      throughShm clearSlot emptyMessage (some 1)
        ⟨fun _ => 0, some fun _ => 0, some fun _ => 0⟩ :=
  (throughSocket_eq_throughShm_iff clearSlot (by decide) (by decide) (by decide +kernel) (some 1)
    (fun _ => 0) (fun _ => 0) (fun _ => 0)).mpr (by decide +kernel)

/-- The shared memory delivers zeros, which the socket does not. -/
theorem zeros_throughShm_only :
    ¬ ∀ (slot : ShmSlot) (bytes : List UInt8) (generation : Option UInt32)
        (headerTmp packetBuf messageBuf : RawMemory),
      1 ≤ bytes.length → bytes.length ≤ slotSize → (headerOf bytes).isCtrl = false →
        throughSocket bytes generation ⟨headerTmp, some packetBuf, some messageBuf⟩ =
          throughShm slot bytes generation ⟨headerTmp, some packetBuf, some messageBuf⟩ := by
  intro same
  have zeros := same clearSlot (List.replicate 32 0) (some 1) (fun _ => 0) (fun _ => 0)
    (fun _ => 0) (by decide) (by decide) (by decide +kernel)
  revert zeros
  decide +kernel

/-! ## From node to node -/

/-- A buffer with a message that does not reach beyond it. -/
structure Message where
  /-- `data`. -/
  data : RawMemory
  /-- `len`. -/
  len : Nat
  /-- The message ends within the buffer. -/
  inside : (Header.ofMemory data).fullLen ≤ len

namespace Message

/-- The header. -/
def header (message : Message) : Header := .ofMemory message.data

/-- Header and payload. -/
def bytes (message : Message) : List UInt8 := message.data.read message.header.fullLen

/-- What the transmission reads of the message. -/
def wire (message : Message) : Wire := ⟨message.header.isCtrl, message.header.fullLen⟩

@[simp]
theorem length_bytes (message : Message) : message.bytes.length = message.header.fullLen :=
  RawMemory.length_read _ _

@[simp]
theorem headerOf_bytes (message : Message) : headerOf message.bytes = message.header :=
  Header.ofMemory_congr fun _ small =>
    RawMemory.write_read_of_lt _ _ (small.trans_le message.header.headerSize_le_fullLen)

end Message

/-- `nos_service_msg_send` accepts the message for another node, and after some steps of the
connection `nos_ipc_process_tx` transmits it. -/
structure Forwarding (message : Message) where
  /-- The tables of the node. -/
  tables : Tables
  /-- `remote_node`. -/
  nodeName : String
  /-- `remote_uds_path`. -/
  udsPath : String
  /-- The message goes to the other node. -/
  routed : tables.route message.header = some (.remoteNode nodeName udsPath)
  /-- The connection before. -/
  before : ConnRun Message
  /-- The node name for a new channel. -/
  localNode : Option CStr
  /-- The clock. -/
  now : Nat
  /-- What an attempt to connect comes to. -/
  outcome : ConnectOutcome
  /-- The message is accepted. -/
  accepted : (before.conn.sendEnqueue message localNode now outcome).2 = .ok
  /-- What happens to the connection then. -/
  ops : List (ConnOp Message)
  /-- The connection when the message has its turn. -/
  turn : ConnRun Message
  /-- The steps lead there. -/
  course : Transition.run ConnRun.step
    (before.accept (before.conn.sendEnqueue message localNode now outcome) ⟨message, none⟩) ops =
      some turn
  /-- `nos_shm_channel_write` returns `NOS_OK`. -/
  written : Bool
  /-- What `send` returns. -/
  sent : SendResult
  /-- The connection afterwards. -/
  after : Conn Message
  /-- What the round did. -/
  effect : TxEffect Message
  /-- The round of `nos_ipc_process_tx`. -/
  round : turn.conn.txNext message.wire written sent = some (after, effect)
  /-- It transmits the message. -/
  transmits : effect = .shm message ∨ effect = .socket message

/-- What the other node makes of a transmission. -/
def TxEffect.arrival (slot : ShmSlot) (generation : Option UInt32) (found : Uncleared) :
    TxEffect Message → Option Inbound
  | .shm message =>
      ((slot.channelWrite message.data message.header.fullLen).bind fun written =>
        written.drain generation found).bind Verdict.message?
  | .socket message => throughSocket message.bytes generation found
  | .blocked | .broken => none

namespace Conn

variable {β : Type*}

theorem fullLen_le_of_shm {before after : Conn β} {wire : Wire} {written : Bool}
    {sent : SendResult} {item : β}
    (round : before.txNext wire written sent = some (after, .shm item)) :
    wire.fullLen ≤ shmSlotSize := by
  unfold txNext at round
  split at round
  · cases round
  · dsimp only at round
    split at round
    · rename_i shm
      simp only [viaShm, Bool.and_eq_true, decide_eq_true_eq] at shm
      exact shm.1.2
    · split at round <;> cases round

end Conn

/-- A slot with a message is handed over like the bytes of the message. -/
theorem throughShm_bytes (slot : ShmSlot) (message : Message) (generation : Option UInt32)
    (found : Uncleared) :
    (TxEffect.shm message).arrival slot generation found =
      throughShm slot message.bytes generation found := by
  have same : (holding message.bytes).read message.header.fullLen = message.bytes := by
    rw [← message.length_bytes, read_holding]
  rw [TxEffect.arrival, throughShm, ShmSlot.channelWrite, ShmSlot.channelWrite,
    message.length_bytes, same, Message.bytes]

/-- A transmitted message with the magic arrives exactly if its payload is within the limit. -/
theorem arrival_eq {message : Message} {effect : TxEffect Message}
    (magic : message.header.magic = nosIpcMagic) (plain : message.header.isCtrl = false)
    (transmits : effect = .shm message ∧ message.header.fullLen ≤ slotSize ∨
      effect = .socket message)
    (slot : ShmSlot) (generation : Option UInt32) (headerTmp packetBuf messageBuf : RawMemory) :
    effect.arrival slot generation ⟨headerTmp, some packetBuf, some messageBuf⟩ =
      if message.header.payloadLen ≤ maxPayloadLen then some (inbound message.bytes generation)
      else none := by
  have header_le := message.header.headerSize_le_fullLen
  rcases transmits with ⟨rfl, fits⟩ | rfl
  · have nonempty : 1 ≤ message.bytes.length := by
      rw [message.length_bytes]
      exact le_trans (by decide) header_le
    rw [throughShm_bytes, throughShm_eq slot nonempty (message.length_bytes ▸ fits)]
    simp [header_le]
  · have whole : message.bytes.take message.header.fullLen = message.bytes :=
      List.take_of_length_le message.length_bytes.le
    have plain_bytes : (headerOf message.bytes).isCtrl = false := by
      rw [message.headerOf_bytes, plain]
    rw [TxEffect.arrival, throughSocket_eq plain_bytes]
    simp [header_le, magic, whole]

/-- What the other node makes of a message that was transmitted. -/
theorem Forwarding.arrival_eq {message : Message} (forwarding : Forwarding message)
    (magic : message.header.magic = nosIpcMagic) (plain : message.header.isCtrl = false)
    (slot : ShmSlot) (generation : Option UInt32) (headerTmp packetBuf messageBuf : RawMemory) :
    forwarding.effect.arrival slot generation ⟨headerTmp, some packetBuf, some messageBuf⟩ =
      if message.header.payloadLen ≤ maxPayloadLen then some (inbound message.bytes generation)
      else none := by
  refine Ipc.arrival_eq magic plain (forwarding.transmits.imp_left fun shm => ⟨shm, ?_⟩) _ _ _ _ _
  have round := forwarding.round
  rw [shm] at round
  exact Conn.fullLen_le_of_shm round

/-- A message that a node accepted and transmitted is delivered on the other one, byte for byte,
exactly if its payload is within the limit of the receiver. -/
theorem Forwarding.delivered_iff {message : Message} (forwarding : Forwarding message)
    (magic : message.header.magic = nosIpcMagic) (plain : message.header.isCtrl = false)
    (slot : ShmSlot) (generation : Option UInt32) (headerTmp packetBuf messageBuf : RawMemory) :
    (forwarding.effect.arrival slot generation
        ⟨headerTmp, some packetBuf, some messageBuf⟩).map Inbound.bytes = some message.bytes ↔
      message.header.payloadLen ≤ maxPayloadLen := by
  rw [forwarding.arrival_eq magic plain]
  split <;> simp_all [inbound]

/-- A node that finds service 5 on another one. -/
def remoteTables : Tables where
  registry := [⟨5, none, none, "b", "/tmp/b.sock", true⟩]
  loaded := []
  component := fun _ => ⟨0, .loaded, false⟩
  nodeDef := none

/-- A message for service 5 whose payload has a length of two bytes, least significant first. -/
def messageFor (low high : UInt8) : RawMemory :=
  holding ([0x4F, 0x4E, 0, 0, 5] ++ List.replicate 23 0 ++ [low, high, 0, 0])

/-- The largest message that is delivered. -/
def largestMessage : Message := ⟨messageFor 0x00 0x10, 8192, by decide +kernel⟩

/-- A message with a payload of 5000 bytes. -/
def largeMessage : Message := ⟨messageFor 0x88 0x13, 8192, by decide +kernel⟩

/-- A connection that was made for its first message, with a channel, and begins to transmit. -/
def firstTurn (message : Message) : ConnRun Message :=
  let start := ConnRun.fresh message (some (.ofText "b")) (.ofText "/tmp/b.sock")
  { start.accept (start.conn.sendEnqueue message (some (.ofText "a")) 0 (.connected 7 true))
      ⟨message, none⟩ with
    sending := true }

theorem txNext_firstTurn {message : Message} (plain : message.wire.ctrl = false)
    (fits : message.wire.fullLen ≤ shmSlotSize) :
    ∃ after, (firstTurn message).conn.txNext message.wire true .complete =
      some (after, .shm message) := by
  have shm : (firstTurn message).conn.viaShm message.wire true = true := by
    simp only [Conn.viaShm, plain, fits]
    rfl
  exact ⟨_, by rw [Conn.txNext, shm]; rfl⟩

/-- The first message of a connection goes through the shared memory. -/
theorem exists_forwarding {message : Message} (plain : message.wire.ctrl = false)
    (fits : message.wire.fullLen ≤ shmSlotSize)
    (routed : remoteTables.route message.header = some (.remoteNode "b" "/tmp/b.sock")) :
    Nonempty (Forwarding message) := by
  obtain ⟨after, round⟩ := txNext_firstTurn plain fits
  exact ⟨
    { tables := remoteTables
      nodeName := "b"
      udsPath := "/tmp/b.sock"
      routed := routed
      before := .fresh message (some (.ofText "b")) (.ofText "/tmp/b.sock")
      localNode := some (.ofText "a")
      now := 0
      outcome := .connected 7 true
      accepted := rfl
      ops := [.processTx]
      turn := firstTurn message
      course := rfl
      written := true
      sent := .complete
      after := after
      effect := .shm message
      round := round
      transmits := .inl rfl }⟩

/-- The largest message that may be sent is delivered. -/
theorem largestMessage_delivered :
    ∃ forwarding : Forwarding largestMessage,
      (forwarding.effect.arrival clearSlot (some 1)
        ⟨fun _ => 0, some fun _ => 0, some fun _ => 0⟩).map Inbound.bytes =
          some largestMessage.bytes := by
  obtain ⟨forwarding⟩ := @exists_forwarding largestMessage (by decide +kernel)
    (by decide +kernel) (by decide +kernel)
  exact ⟨forwarding, (forwarding.delivered_iff (by decide +kernel) (by decide +kernel) clearSlot
    (some 1) (fun _ => 0) (fun _ => 0) (fun _ => 0)).mpr (by decide +kernel)⟩

/-- A payload of 5000 bytes is accepted and transmitted, and thrown away by the receiver. -/
theorem largeMessage_lost :
    ¬ ∀ (message : Message) (forwarding : Forwarding message),
      message.header.magic = nosIpcMagic → message.header.isCtrl = false →
        ∀ (slot : ShmSlot) (generation : Option UInt32)
          (headerTmp packetBuf messageBuf : RawMemory),
        (forwarding.effect.arrival slot generation
          ⟨headerTmp, some packetBuf, some messageBuf⟩).map Inbound.bytes = some message.bytes := by
  intro delivers
  have magic : largeMessage.header.magic = nosIpcMagic := by decide +kernel
  have plain : largeMessage.header.isCtrl = false := by decide +kernel
  have large : ¬ largeMessage.header.payloadLen ≤ maxPayloadLen := by decide +kernel
  obtain ⟨forwarding⟩ := @exists_forwarding largeMessage (by decide +kernel)
    (by decide +kernel) (by decide +kernel)
  have arrived := delivers largeMessage forwarding magic plain clearSlot (some 1) (fun _ => 0)
    (fun _ => 0) (fun _ => 0)
  rw [forwarding.arrival_eq magic plain, if_neg large] at arrived
  cases arrived

end CodexNos.Ipc
