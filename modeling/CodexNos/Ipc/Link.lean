import CodexNos.Types
import CodexNos.Lib.Transition

/-!
# One direction of an inter-process connection

The sender drains its transmit queue into a ring in shared memory and sends a `NOTIFY` packet for
each message it puts there; when the ring refuses a message it goes into the socket itself.  The
receiver handles the packets of the socket in order; a `NOTIFY` makes it empty the ring.  The sender
uses the ring from the moment it has created it; the receiver attaches to it when it handles the
`SETUP` packet.

The results of the system calls are in the labels: whether a packet fits into the socket, whether
the receiver can open the ring, and whether a receive buffer is available.  The link does not fail.
-/

namespace CodexNos.Ipc

/-- What a packet with the `IPC_CTRL` flag asks for. -/
inductive Ctrl
  /-- `NOS_IPC_CTRL_SHM_SETUP` with a complete payload. -/
  | setup
  /-- `NOS_IPC_CTRL_SHM_NOTIFY`. -/
  | notify
  /-- Anything else. -/
  | other
  deriving DecidableEq, Repr

/-- A queued message: its place in the order of the accepted messages and what the link reads of its
header. -/
structure Msg where
  /-- Place in the enqueue order. -/
  number : Nat
  /-- Payload length. -/
  payloadLen : Nat
  /-- Code of a message that carries the `IPC_CTRL` flag. -/
  ctrl : Option Ctrl
  deriving DecidableEq, Repr

/-- A packet in the socket. -/
inductive Packet
  | ctrl (code : Ctrl)
  | data (msg : Msg)
  deriving DecidableEq, Repr

namespace Msg

/-- Header and payload fit into a slot (`NOS_SHM_SLOT_SIZE`). -/
def fitsSlot (msg : Msg) : Bool := 32 + msg.payloadLen ≤ 8192

/-- The receiver takes payloads up to `NOS_IPC_MAX_PAYLOAD_LEN`. -/
def fitsPayload (msg : Msg) : Bool := msg.payloadLen ≤ 4096

/-- The packet of a message.  A control packet that is too long is discarded unread. -/
def packet (msg : Msg) : Packet :=
  match msg.ctrl with
  | some code => .ctrl (if msg.fitsPayload then code else .other)
  | none => .data msg

end Msg

/-- Messages that a ring of `NOS_SHM_SLOT_COUNT` slots can hold. -/
def ringLimit : Nat := 255

/-- Messages that a transmit queue of `TX_QUEUE_SIZE` places can hold. -/
def txLimit : Nat := 1023

/-- Where the sender is in `nos_ipc_process_tx`. -/
inductive SenderPoint
  /-- Not in the function. -/
  | idle
  /-- At the loop test. -/
  | loop
  /-- The ring has room: fill the slot and publish it. -/
  | writing
  /-- Published: send the `NOTIFY`. -/
  | notifying
  /-- The ring was refused or is not used: send the message itself. -/
  | sending
  deriving DecidableEq, Repr

/-- Sender, receiver and what is between them. -/
structure Link where
  /-- The sender has connected. -/
  connected : Bool
  /-- The sender has a shared-memory channel. -/
  shm : Bool
  /-- Transmit queue, head first. -/
  txQueue : List Msg
  /-- Number of messages accepted so far. -/
  accepted : Nat
  /-- Sender. -/
  sender : SenderPoint
  /-- Undrained messages of the ring, oldest first. -/
  ring : List Msg
  /-- Packets in the socket, oldest first. -/
  socket : List Packet
  /-- The receiver has attached to the ring. -/
  attached : Bool
  /-- The receiver is emptying the ring. -/
  draining : Bool
  /-- Messages handed to `nos_service_msg_send`, oldest first. -/
  delivered : List Msg
  deriving DecidableEq, Repr

/-- A step of the link. -/
inductive LinkOp
  /-- Connect; whether the channel could be created and whether the `SETUP` packet was sent. -/
  | connect (created sent : Bool)
  /-- Queue a message. -/
  | enqueue (payloadLen : Nat) (ctrl : Option Ctrl)
  /-- Enter `nos_ipc_process_tx`. -/
  | processTx
  /-- Loop test and ring test for the head of the queue. -/
  | next
  /-- Publish the head of the queue in the ring. -/
  | publish
  /-- Send a `NOTIFY`; whether it fits into the socket. -/
  | notify (sent : Bool)
  /-- Send the head of the queue; whether it fits into the socket. -/
  | send (sent : Bool)
  /-- Handle a packet; whether a buffer is available and whether the ring can be opened. -/
  | recv (buffer opened : Bool)
  /-- Take the next message of the ring; whether a buffer is available. -/
  | drain (buffer : Bool)
  deriving DecidableEq, Repr

namespace Link

/-- Deliver a message if the receiver accepts it (`ipc_deliver_rx_data`). -/
def deliver (link : Link) (msg : Msg) (buffer : Bool) : Link :=
  if msg.fitsPayload && buffer then { link with delivered := link.delivered ++ [msg] } else link

/-- Handle a control packet (`ipc_handle_ctrl_msg`). -/
def handleCtrl (link : Link) (code : Ctrl) (opened : Bool) : Link :=
  match code with
  | .setup => { link with attached := link.attached || opened }
  | .notify => { link with draining := link.attached }
  | .other => link

/-- Handle one packet (`nos_ipc_recv_handler`).  Without a buffer the packet is discarded. -/
def handle (link : Link) (packet : Packet) (buffer opened : Bool) : Link :=
  match packet with
  | .ctrl code => if buffer then link.handleCtrl code opened else link
  | .data msg => link.deliver msg buffer

/-- The ring takes the message: it is no control message, there is a channel, it fits a slot, and a
slot is free (`nos_shm_channel_write`). -/
def takesRing (link : Link) (msg : Msg) : Bool :=
  msg.ctrl.isNone && link.shm && msg.fitsSlot && link.ring.length < ringLimit

/-- Perform one step. -/
def step (link : Link) : LinkOp → Option Link
  | .connect created sent =>
      if link.connected then none
      else some
        { link with
          connected := true
          shm := created
          socket := link.socket ++ if created && sent then [.ctrl .setup] else [] }
  | .enqueue payloadLen ctrl =>
      if link.sender = .idle then
        if link.txQueue.length = txLimit then some link
        else some
          { link with
            txQueue := link.txQueue ++ [⟨link.accepted, payloadLen, ctrl⟩]
            accepted := link.accepted + 1 }
      else none
  | .processTx =>
      if link.connected && link.sender = .idle then some { link with sender := .loop } else none
  | .next =>
      if link.sender = .loop then
        match link.txQueue with
        | [] => some { link with sender := .idle }
        | msg :: _ =>
            some { link with sender := if link.takesRing msg then .writing else .sending }
      else none
  | .publish =>
      match link.sender, link.txQueue with
      | .writing, msg :: _ => some { link with ring := link.ring ++ [msg], sender := .notifying }
      | _, _ => none
  | .notify sent =>
      match link.sender, link.txQueue with
      | .notifying, _ :: rest =>
          some
            { link with
              socket := link.socket ++ if sent then [.ctrl .notify] else []
              txQueue := rest
              sender := .loop }
      | _, _ => none
  | .send sent =>
      match link.sender, link.txQueue with
      | .sending, msg :: rest =>
          if sent then
            some { link with socket := link.socket ++ [msg.packet], txQueue := rest, sender := .loop }
          else some { link with sender := .idle }
      | _, _ => none
  | .recv buffer opened =>
      match link.draining, link.socket with
      | false, packet :: rest => some ({ link with socket := rest }.handle packet buffer opened)
      | _, _ => none
  | .drain buffer =>
      match link.draining, link.ring with
      | true, [] => some { link with draining := false }
      | true, msg :: rest => some ({ link with ring := rest }.deliver msg buffer)
      | _, _ => none

/-! ## Frames -/

theorem deliver_frame (link : Link) (msg : Msg) (buffer : Bool) :
    link.deliver msg buffer = { link with delivered := (link.deliver msg buffer).delivered } := by
  unfold deliver
  split <;> rfl

theorem handle_frame (link : Link) (packet : Packet) (buffer opened : Bool) :
    link.handle packet buffer opened =
      { link with
        attached := (link.handle packet buffer opened).attached
        draining := (link.handle packet buffer opened).draining
        delivered := (link.handle packet buffer opened).delivered } := by
  cases packet with
  | data msg =>
      simp only [handle, deliver]
      split <;> rfl
  | ctrl code =>
      cases buffer with
      | false => rfl
      | true => cases code <;> rfl

/-- A control packet without a buffer, or a `SETUP` for a ring that does not open, has no effect. -/
theorem handle_without_effect {code : Ctrl} {buffer opened : Bool}
    (ineffective : (buffer && (code != .setup || opened)) = false) (link : Link) :
    link.handle (.ctrl code) buffer opened = link := by
  cases buffer with
  | false => rfl
  | true =>
      obtain ⟨rfl, rfl⟩ : code = .setup ∧ opened = false := by simpa using ineffective
      simp [handle, handleCtrl]

theorem accepted_step {link after : Link} {op : LinkOp}
    (other : ∀ payloadLen ctrl, op ≠ .enqueue payloadLen ctrl)
    (stepped : link.step op = some after) : after.accepted = link.accepted := by
  cases op with
  | enqueue payloadLen ctrl => exact absurd rfl (other payloadLen ctrl)
  | connect created sent => grind [step]
  | processTx => grind [step]
  | next => grind [step]
  | publish => grind [step]
  | notify sent => grind [step]
  | send sent => grind [step]
  | recv buffer opened => grind [step, handle_frame]
  | drain buffer => grind [step, deliver_frame]

theorem unconnected_step {link after : Link} {op : LinkOp}
    (unconnected : link.connected = false → link.ring = [] ∧ link.sender = .idle)
    (stepped : link.step op = some after) :
    after.connected = false → after.ring = [] ∧ after.sender = .idle := by
  cases op with
  | connect created sent => grind [step]
  | enqueue payloadLen ctrl => grind [step]
  | processTx => grind [step]
  | next => grind [step]
  | publish => grind [step]
  | notify sent => grind [step]
  | send sent => grind [step]
  | recv buffer opened => grind [step, handle_frame]
  | drain buffer => grind [step, deliver_frame]

/-- Steps of the sender that concern neither the ring nor a `NOTIFY`. -/
def plain : LinkOp → Bool
  | .connect _ _ | .enqueue _ _ | .processTx | .next | .send _ => true
  | .publish | .notify _ | .recv _ _ | .drain _ => false

theorem plain_step {link after : Link} {op : LinkOp} (sending : plain op = true)
    (stepped : link.step op = some after) :
    link.socket <+: after.socket ∧ after.ring = link.ring ∧
      after.draining = link.draining ∧ after.attached = link.attached ∧
      (link.sender = .notifying → after.sender = .notifying) := by
  cases op with
  | publish => simp [plain] at sending
  | notify sent => simp [plain] at sending
  | recv buffer opened => simp [plain] at sending
  | drain buffer => simp [plain] at sending
  | connect created sent => grind [step, List.prefix_refl, List.prefix_append]
  | enqueue payloadLen ctrl => grind [step, List.prefix_refl, List.prefix_append]
  | processTx => grind [step, List.prefix_refl, List.prefix_append]
  | next => grind [step, List.prefix_refl, List.prefix_append]
  | send sent => grind [step, List.prefix_refl, List.prefix_append]

/-- Nothing sent and nothing received. -/
def Initial (link : Link) : Prop :=
  link.connected = false ∧ link.shm = false ∧ link.txQueue = [] ∧ link.accepted = 0 ∧
    link.sender = .idle ∧ link.ring = [] ∧ link.socket = [] ∧ link.attached = false ∧
    link.draining = false ∧ link.delivered = []

/-- An unconnected link without messages. -/
def fresh : Link where
  connected := false
  shm := false
  txQueue := []
  accepted := 0
  sender := .idle
  ring := []
  socket := []
  attached := false
  draining := false
  delivered := []

theorem fresh_initial : fresh.Initial := ⟨rfl, rfl, rfl, rfl, rfl, rfl, rfl, rfl, rfl, rfl⟩

/-! ## What is still to come out of the socket -/

/-- Messages among the packets of a socket. -/
def dataOf : List Packet → List Msg
  | [] => []
  | .data msg :: rest => msg :: dataOf rest
  | .ctrl _ :: rest => dataOf rest

/-- The receiver is attached to the ring or has a `SETUP` packet to come. -/
def alive (attached : Bool) (socket : List Packet) : Bool :=
  attached || socket.contains (.ctrl .setup)

theorem alive_append (attached : Bool) (socket packets : List Packet) :
    alive attached (socket ++ packets) =
      (alive attached socket || packets.contains (.ctrl .setup)) := by
  simp [alive, Bool.or_assoc]

/-- Messages that come out of the socket before the next `NOTIFY` that finds the receiver attached,
if the ring opens. -/
def ahead : Bool → List Packet → List Msg
  | _, [] => []
  | attached, .data msg :: rest => msg :: ahead attached rest
  | true, .ctrl .notify :: _ => []
  | false, .ctrl .notify :: rest => ahead false rest
  | _, .ctrl .setup :: rest => ahead true rest
  | attached, .ctrl .other :: rest => ahead attached rest

/-- Messages that come out of the socket behind that `NOTIFY`. -/
def behind : Bool → List Packet → List Msg
  | _, [] => []
  | attached, .data _ :: rest => behind attached rest
  | true, .ctrl .notify :: rest => dataOf rest
  | false, .ctrl .notify :: rest => behind false rest
  | _, .ctrl .setup :: rest => behind true rest
  | attached, .ctrl .other :: rest => behind attached rest

/-- There is such a `NOTIFY`. -/
def wakes : Bool → List Packet → Bool
  | _, [] => false
  | attached, .data _ :: rest => wakes attached rest
  | true, .ctrl .notify :: _ => true
  | false, .ctrl .notify :: rest => wakes false rest
  | _, .ctrl .setup :: rest => wakes true rest
  | attached, .ctrl .other :: rest => wakes attached rest

end Link

end CodexNos.Ipc
