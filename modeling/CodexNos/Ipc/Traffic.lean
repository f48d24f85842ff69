import CodexNos.Ipc.ConnPool
import CodexNos.Ipc.Packets

/-!
# Traffic counters

The node counts the messages and bytes that it sends and receives, and so does each of its
connections.  A message that is received is counted by both, whether it comes out of the socket or
out of the ring, and so is a message that is sent through the socket; a message that goes into the
shared memory is counted by the connection alone.
-/

namespace CodexNos.Ipc

open Lib

variable {β : Type*}

/-! ## The layer -/

/-- `nos_ipc_stats_t`. -/
structure NodeStats where
  /-- `tx_packets`. -/
  txPackets : Nat
  /-- `rx_packets`. -/
  rxPackets : Nat
  /-- `tx_bytes`. -/
  txBytes : Nat
  /-- `rx_bytes`. -/
  rxBytes : Nat
  /-- `tx_errors`. -/
  txErrors : Nat
  /-- `rx_errors`. -/
  rxErrors : Nat
  /-- `dropped_full`. -/
  droppedFull : Nat
  /-- `buffer_alloc_fails`. -/
  bufferAllocFails : Nat
  deriving DecidableEq, Repr

/-- A connection of the layer. -/
structure IpcEnd (β : Type*) where
  /-- The connection with what it receives. -/
  rx : RxEnd β
  /-- A thread is in the loop of `nos_ipc_process_tx` and holds the lock. -/
  sending : Bool

/-- The connections and the counters of the node. -/
structure IpcLayer (β : Type*) where
  /-- `g_remote_conns`, up to `g_remote_conn_count`. -/
  ends : List (IpcEnd β)
  /-- `g_node_ctx.stats`. -/
  stats : NodeStats

namespace NodeStats

/-- All counters are zero. -/
def zero : NodeStats := ⟨0, 0, 0, 0, 0, 0, 0, 0⟩

/-- Hand the counters to a connection that receives. -/
def handTo (stats : NodeStats) (rx : RxEnd β) : RxEnd β :=
  { rx with
    nodeRxPackets := stats.rxPackets
    nodeRxBytes := stats.rxBytes
    nodeRxErrors := stats.rxErrors
    bufferAllocFails := stats.bufferAllocFails }

/-- Take the counters back. -/
def takeFrom (stats : NodeStats) (rx : RxEnd β) : NodeStats :=
  { stats with
    rxPackets := rx.nodeRxPackets
    rxBytes := rx.nodeRxBytes
    rxErrors := rx.nodeRxErrors
    bufferAllocFails := rx.bufferAllocFails }

/-- Count a round of `nos_ipc_process_tx`. -/
def countTx (stats : NodeStats) (wire : Wire) : TxEffect β → NodeStats
  | .socket _ =>
      { stats with txPackets := stats.txPackets + 1, txBytes := stats.txBytes + wire.fullLen }
  | .broken => { stats with txErrors := stats.txErrors + 1 }
  | .shm _ | .blocked => stats

/-- Count a message that finds the queue full. -/
def countDrop (stats : NodeStats) (status : Status) : NodeStats :=
  if status = .errBusy then { stats with droppedFull := stats.droppedFull + 1 } else stats

end NodeStats

namespace IpcEnd

/-- A connection that has received nothing. -/
def ofConn (conn : Conn β) : IpcEnd β where
  rx :=
    { conn := conn
      socket := ⟨[], false⟩
      ring := []
      rxPackets := 0
      rxBytes := 0
      rxErrors := 0
      nodeRxPackets := 0
      nodeRxBytes := 0
      nodeRxErrors := 0
      bufferAllocFails := 0
      fromSocket := []
      fromRing := [] }
  sending := false

/-- Change the connection. -/
def withConn (link : IpcEnd β) (conn : Conn β) : IpcEnd β :=
  { link with rx := { link.rx with conn := conn } }

end IpcEnd

/-- A step of the layer. -/
inductive IpcOp (β : Type*)
  /-- `get_or_create_conn`. -/
  | getOrCreate (ring : Ring β txQueueSize) (nodeName : Option CStr) (udsPath : CStr)
  /-- `create_passive_conn`. -/
  | accept (ring : Ring β txQueueSize) (fd : Nat)
  /-- The other end changes the socket and the ring of a connection. -/
  | remote (index : Nat) (socket : SeqPacket) (slots : List ShmSlot)
  /-- `nos_ipc_send_enqueue` up to the release of the lock. -/
  | enqueue (index : Nat) (item : β) (localNode : Option CStr) (now : Nat)
      (outcome : ConnectOutcome)
  /-- `nos_ipc_send_reply` up to the release of the lock. -/
  | reply (index : Nat) (generation : UInt32) (item : β)
  /-- Enter `nos_ipc_process_tx`. -/
  | processTx (index : Nat)
  /-- Next round of `nos_ipc_process_tx`. -/
  | next (index : Nat) (wire : Wire) (written : Bool) (sent : SendResult)
  /-- `nos_ipc_recv_handler`. -/
  | receive (index : Nat) (found : Uncleared) (opened : Bool) (bufs : Nat → Option RawMemory)

namespace IpcLayer

/-- No connection. -/
def empty : IpcLayer β := { ends := [], stats := .zero }

/-- Add a connection while there is a slot. -/
def addConn (layer : IpcLayer β) (conn : Conn β) : IpcLayer β :=
  if maxRemoteConns ≤ layer.ends.length then layer
  else { layer with ends := layer.ends ++ [.ofConn conn] }

/-- Replace a connection and the counters of the node. -/
def put (layer : IpcLayer β) (index : Nat) (link : IpcEnd β) (stats : NodeStats) : IpcLayer β :=
  { ends := layer.ends.set index link, stats := stats }

/-- What a step makes of the connection it works on, and of the counters of the node. -/
def onEnd (stats : NodeStats) (link : IpcEnd β) : IpcOp β → Option (IpcEnd β × NodeStats)
  | .remote _ socket slots =>
      some ({ link with rx := { link.rx with socket := socket, ring := slots } }, stats)
  | .enqueue _ item localNode now outcome =>
      if link.sending then none
      else
        let result := link.rx.conn.sendEnqueue item localNode now outcome
        some (link.withConn result.1, stats.countDrop result.2)
  | .reply _ generation item =>
      if link.sending then none
      else
        let result := link.rx.conn.sendReply generation item
        some (link.withConn result.1, stats.countDrop result.2)
  | .processTx _ =>
      if link.sending then none
      else
        some ({ link with sending := link.rx.conn.state = .connected && link.rx.conn.fd.isSome },
          stats)
  | .next _ wire written sent =>
      if link.sending then
        match link.rx.conn.txNext wire written sent with
        | none => some ({ link with sending := false }, stats)
        | some (conn, effect) =>
            let link := link.withConn conn
            match effect with
            | .shm _ | .socket _ => some (link, stats.countTx wire effect)
            | .blocked | .broken => some ({ link with sending := false }, stats.countTx wire effect)
      else none
  | .receive _ found opened bufs =>
      let rx := (stats.handTo link.rx).nosIpcRecvHandler found opened bufs
      some ({ link with rx := rx }, stats.takeFrom rx)
  | .getOrCreate _ _ _ | .accept _ _ => none

/-- The connection that a step works on. -/
def target : IpcOp β → Option Nat
  | .getOrCreate _ _ _ | .accept _ _ => none
  | .remote index _ _ | .enqueue index _ _ _ _ | .reply index _ _ | .processTx index
  | .next index _ _ _ | .receive index _ _ _ => some index

/-- Execute one step. -/
def step (layer : IpcLayer β) (op : IpcOp β) : Option (IpcLayer β) :=
  match op with
  | .getOrCreate ring nodeName udsPath =>
      if layer.ends.any fun link => link.rx.conn.udsPath = udsPath then some layer
      else some (layer.addConn (.outgoing ring nodeName udsPath))
  | .accept ring fd => some (layer.addConn (.passive ring fd))
  | op =>
      (target op).bind fun index =>
        layer.ends[index]?.bind fun link =>
          (onEnd layer.stats link op).map fun result => layer.put index result.1 result.2

end IpcLayer

/-! ## Sums -/

/-- Messages and bytes, sent and received, as counted in 64 bits. -/
abbrev Traffic := ZMod (2 ^ 64) × ZMod (2 ^ 64) × ZMod (2 ^ 64) × ZMod (2 ^ 64)

/-- What the node has counted. -/
def NodeStats.traffic (stats : NodeStats) : Traffic :=
  (stats.txPackets, stats.txBytes, stats.rxPackets, stats.rxBytes)

/-- What a connection has counted. -/
def IpcEnd.traffic (link : IpcEnd β) : Traffic :=
  (link.rx.conn.txPackets, link.rx.conn.txBytes, link.rx.rxPackets, link.rx.rxBytes)

namespace IpcLayer

/-- The counters of the node are the sums of those of its connections. -/
def AddsUp (layer : IpcLayer β) : Prop :=
  layer.stats.traffic = (layer.ends.map IpcEnd.traffic).sum

/-- The message at the head of the queue does not go into the shared memory. -/
def NotThroughShm (layer : IpcLayer β) : IpcOp β → Prop
  | .next index wire written _ =>
      ∀ link, layer.ends[index]? = some link → link.rx.conn.txQueue.pop?.isSome →
        link.rx.conn.viaShm wire written = false
  | _ => True

instance (layer : IpcLayer β) (op : IpcOp β) : Decidable (layer.NotThroughShm op) := by
  unfold NotThroughShm
  split
  · exact inferInstanceAs (Decidable (∀ link ∈ layer.ends[_]?, _ → _))
  · infer_instance

end IpcLayer

theorem sum_set_add {α : Type*} [AddCommGroup α] {counts : List α} {index : Nat} {count : α}
    (found : counts[index]? = some count) (more : α) :
    (counts.set index (count + more)).sum = counts.sum + more := by
  obtain ⟨inside, here⟩ := List.getElem?_eq_some_iff.mp found
  rw [List.sum_set', dif_pos inside, here, neg_add_cancel_left]

namespace IpcLayer

variable {layer : IpcLayer β} {link link' : IpcEnd β} {stats : NodeStats} {index : Nat}

theorem AddsUp.txPackets (adds : layer.AddsUp) : (layer.stats.txPackets : ZMod (2 ^ 64)) =
    ((layer.ends.map fun link => link.rx.conn.txPackets).sum : Nat) := by
  have packets := congrArg (AddMonoidHom.fst (ZMod (2 ^ 64)) _) adds
  rw [map_list_sum, List.map_map] at packets
  rw [Nat.cast_list_sum, List.map_map]
  exact packets

/-- A change of one connection keeps the sums exactly if the node counts the same. -/
theorem AddsUp.put_iff (adds : layer.AddsUp) (found : layer.ends[index]? = some link)
    {counted more : Traffic} (node : stats.traffic = layer.stats.traffic + counted)
    (conn : link'.traffic = link.traffic + more) :
    (layer.put index link' stats).AddsUp ↔ counted = more := by
  have here : (layer.ends.map IpcEnd.traffic)[index]? = some link.traffic := by
    rw [List.getElem?_map, found]
    rfl
  have sums : ((layer.ends.set index link').map IpcEnd.traffic).sum =
      (layer.ends.map IpcEnd.traffic).sum + more := by
    rw [List.map_set, conn, sum_set_add here]
  rw [AddsUp] at adds
  change stats.traffic = ((layer.ends.set index link').map IpcEnd.traffic).sum ↔ _
  rw [sums, node, adds, add_right_inj]

theorem AddsUp.put_same (adds : layer.AddsUp) (found : layer.ends[index]? = some link)
    (node : stats.traffic = layer.stats.traffic) (conn : link'.traffic = link.traffic) :
    (layer.put index link' stats).AddsUp :=
  (adds.put_iff found (node.trans (add_zero _).symm) (conn.trans (add_zero _).symm)).mpr rfl

theorem AddsUp.addConn (adds : layer.AddsUp) {conn : Conn β} (packets : conn.txPackets = 0)
    (bytes : conn.txBytes = 0) : (layer.addConn conn).AddsUp := by
  unfold IpcLayer.addConn
  split
  · exact adds
  · have nothing : (IpcEnd.ofConn conn).traffic = 0 := by
      simp [IpcEnd.traffic, IpcEnd.ofConn, packets, bytes]
    change layer.stats.traffic = ((layer.ends ++ [IpcEnd.ofConn conn]).map IpcEnd.traffic).sum
    rw [List.map_append, List.sum_append, List.map_singleton, List.sum_singleton, nothing, add_zero]
    exact adds

end IpcLayer

/-! ## Receiving -/

/-- The connection and the node have counted the same. -/
structure CountsAlike (before after : RxEnd β) : Prop where
  sent : after.conn.txPackets = before.conn.txPackets ∧ after.conn.txBytes = before.conn.txBytes
  received : ∃ packets bytes, after.rxPackets = before.rxPackets + packets ∧
    after.nodeRxPackets = before.nodeRxPackets + packets ∧
    after.rxBytes = before.rxBytes + bytes ∧ after.nodeRxBytes = before.nodeRxBytes + bytes

namespace CountsAlike

theorem of_same {before after : RxEnd β}
    (sent : after.conn.txPackets = before.conn.txPackets ∧
      after.conn.txBytes = before.conn.txBytes)
    (received : after.rxPackets = before.rxPackets ∧ after.rxBytes = before.rxBytes)
    (node : after.nodeRxPackets = before.nodeRxPackets ∧
      after.nodeRxBytes = before.nodeRxBytes) : CountsAlike before after :=
  ⟨sent, 0, 0, received.1, node.1, received.2, node.2⟩

theorem refl (rx : RxEnd β) : CountsAlike rx rx := of_same ⟨rfl, rfl⟩ ⟨rfl, rfl⟩ ⟨rfl, rfl⟩

theorem trans {first second third : RxEnd β} (left : CountsAlike first second)
    (right : CountsAlike second third) : CountsAlike first third := by
  obtain ⟨⟨sent, sentBytes⟩, packets, bytes, conn, node, connBytes, nodeBytes⟩ := left
  obtain ⟨⟨sent', sentBytes'⟩, packets', bytes', conn', node', connBytes', nodeBytes'⟩ := right
  refine ⟨⟨sent'.trans sent, sentBytes'.trans sentBytes⟩, packets + packets', bytes + bytes',
    ?_, ?_, ?_, ?_⟩
  · rw [conn', conn, Nat.add_assoc]
  · rw [node', node, Nat.add_assoc]
  · rw [connBytes', connBytes, Nat.add_assoc]
  · rw [nodeBytes', nodeBytes, Nat.add_assoc]

end CountsAlike

namespace RxEnd

variable (rx : RxEnd β)

theorem countsAlike_countError : CountsAlike rx rx.countError :=
  .of_same ⟨rfl, rfl⟩ ⟨rfl, rfl⟩ ⟨rfl, rfl⟩

theorem countsAlike_countNoBuffer : CountsAlike rx rx.countNoBuffer :=
  .of_same ⟨rfl, rfl⟩ ⟨rfl, rfl⟩ ⟨rfl, rfl⟩

theorem countsAlike_countMessage (len : Nat) : CountsAlike rx (rx.countMessage len) :=
  ⟨⟨rfl, rfl⟩, 1, len, rfl, rfl, rfl, rfl⟩

theorem countsAlike_discard : CountsAlike rx rx.discard :=
  .of_same ⟨rfl, rfl⟩ ⟨rfl, rfl⟩ ⟨rfl, rfl⟩

theorem ipcDeliverRxData_countsAlike (data : RawMemory) (len : Nat) (buf : Option RawMemory) :
    CountsAlike rx (rx.ipcDeliverRxData data len buf).1 := by
  rcases rx.ipcDeliverRxData_cases data len buf with same | same | same | ⟨size, same⟩
  · rw [same]
    exact .refl rx
  · rw [same]
    exact rx.countsAlike_countError
  · rw [same]
    exact rx.countsAlike_countNoBuffer
  · rw [same]
    exact rx.countsAlike_countMessage size

theorem takeSlot_countsAlike (slot : ShmSlot) (buf : Option RawMemory) :
    CountsAlike rx (rx.takeSlot slot buf) := by
  obtain ⟨sent, received⟩ := rx.ipcDeliverRxData_countsAlike slot.data slot.len buf
  exact ⟨sent, received⟩

theorem drainSlots_countsAlike (bufs : Nat → Option RawMemory) (slots : List ShmSlot) :
    ∀ (turn : Nat) (rx : RxEnd β), CountsAlike rx (drainSlots bufs turn slots rx) := by
  induction slots with
  | nil => exact fun _ rx => .refl rx
  | cons slot slots ih =>
      intro turn rx
      unfold drainSlots
      split
      · exact (rx.takeSlot_countsAlike slot (bufs turn)).trans (ih _ _)
      · exact .refl rx

theorem ipcHandleCtrlMsg_countsAlike (data : RawMemory) (opened : Bool)
    (bufs : Nat → Option RawMemory) : CountsAlike rx (rx.ipcHandleCtrlMsg data opened bufs) := by
  unfold ipcHandleCtrlMsg
  dsimp only
  split
  · exact .of_same ⟨rfl, rfl⟩ ⟨rfl, rfl⟩ ⟨rfl, rfl⟩
  · split
    · exact drainSlots_countsAlike bufs _ _ _
    · exact .refl rx

theorem receiveInto_countsAlike (memory : RawMemory) (fullLen : Nat)
    (messageBuf : Option RawMemory) (opened : Bool) (bufs : Nat → Option RawMemory) :
    CountsAlike rx (rx.receiveInto memory fullLen messageBuf opened bufs) := by
  have taken : CountsAlike rx { rx with socket := (rx.socket.recv fullLen).1 } :=
    .of_same ⟨rfl, rfl⟩ ⟨rfl, rfl⟩ ⟨rfl, rfl⟩
  unfold receiveInto
  dsimp only
  split
  · split
    · exact taken.trans (ipcHandleCtrlMsg_countsAlike _ _ _ _)
    · obtain ⟨sent, received⟩ := taken.trans (ipcDeliverRxData_countsAlike _ _ _ messageBuf)
      exact ⟨sent, received⟩
  · exact taken.trans (countsAlike_countError _)

/-- Whatever arrives, the connection and the node count the same messages and bytes. -/
theorem nosIpcRecvHandler_countsAlike (found : Uncleared) (opened : Bool)
    (bufs : Nat → Option RawMemory) :
    CountsAlike rx (rx.nosIpcRecvHandler found opened bufs) := by
  unfold nosIpcRecvHandler
  split
  · exact .refl rx
  · split
    · exact .of_same ⟨rfl, rfl⟩ ⟨rfl, rfl⟩ ⟨rfl, rfl⟩
    · dsimp only
      split
      · exact .of_same ⟨rfl, rfl⟩ ⟨rfl, rfl⟩ ⟨rfl, rfl⟩
      · split
        · exact rx.countsAlike_countError.trans (countsAlike_discard _)
        · split
          · exact rx.countsAlike_countNoBuffer.trans (countsAlike_discard _)
          · exact rx.receiveInto_countsAlike _ _ _ _ _

end RxEnd

/-! ## Sending -/

/-- The counters of what was sent are left alone. -/
def SameSent (before after : Conn β) : Prop :=
  after.txPackets = before.txPackets ∧ after.txBytes = before.txBytes

namespace Conn

variable (conn : Conn β)

theorem setupShm_sameSent (localNode : Option CStr) (created : Bool) :
    SameSent conn (conn.setupShm localNode created) := by
  unfold setupShm
  split
  · split
    · exact ⟨rfl, rfl⟩
    · exact ⟨rfl, rfl⟩
  · exact ⟨rfl, rfl⟩

theorem tryConnect_sameSent (localNode : Option CStr) (now : Nat) (outcome : ConnectOutcome) :
    SameSent conn (conn.tryConnect localNode now outcome) := by
  unfold tryConnect
  split
  · exact ⟨rfl, rfl⟩
  · cases outcome with
    | failed clock => exact ⟨rfl, rfl⟩
    | connected fd created => exact setupShm_sameSent _ localNode created

theorem sendEnqueue_sameSent (item : β) (localNode : Option CStr) (now : Nat)
    (outcome : ConnectOutcome) :
    SameSent conn (conn.sendEnqueue item localNode now outcome).1 := by
  unfold sendEnqueue
  split
  · exact ⟨rfl, rfl⟩
  · split
    · exact tryConnect_sameSent _ localNode now outcome
    · exact ⟨rfl, rfl⟩

theorem sendReply_sameSent (generation : UInt32) (item : β) :
    SameSent conn (conn.sendReply generation item).1 := by
  unfold sendReply
  split
  · exact ⟨rfl, rfl⟩
  · split
    · exact ⟨rfl, rfl⟩
    · exact ⟨rfl, rfl⟩

/-- A round of `nos_ipc_process_tx`: a message that is sent is counted, the others are not, and it is
sent through the shared memory if that takes it. -/
theorem txNext_cases {wire : Wire} {written : Bool} {sent : SendResult} {after : Conn β}
    {effect : TxEffect β} (taken : conn.txNext wire written sent = some (after, effect)) :
    conn.txQueue.pop?.isSome ∧
      ((conn.viaShm wire written = true ∧ (∃ item, effect = .shm item) ∧
          after.txPackets = conn.txPackets + 1 ∧ after.txBytes = conn.txBytes + wire.fullLen) ∨
        (conn.viaShm wire written = false ∧ (∃ item, effect = .socket item) ∧
          after.txPackets = conn.txPackets + 1 ∧ after.txBytes = conn.txBytes + wire.fullLen) ∨
        (conn.viaShm wire written = false ∧ (effect = .blocked ∨ effect = .broken) ∧
          SameSent conn after)) := by
  unfold txNext at taken
  cases popped : conn.txQueue.pop? with
  | none =>
      rw [popped] at taken
      simp at taken
  | some head =>
      rw [popped] at taken
      simp only at taken
      refine ⟨rfl, ?_⟩
      split at taken
      · rename_i through
        obtain ⟨rfl, rfl⟩ := Prod.mk.inj (Option.some.inj taken)
        exact .inl ⟨through, ⟨_, rfl⟩, rfl, rfl⟩
      · rename_i through
        have through : conn.viaShm wire written = false := by simpa using through
        split at taken
        · obtain ⟨rfl, rfl⟩ := Prod.mk.inj (Option.some.inj taken)
          exact .inr (.inl ⟨through, ⟨_, rfl⟩, rfl, rfl⟩)
        · obtain ⟨rfl, rfl⟩ := Prod.mk.inj (Option.some.inj taken)
          exact .inr (.inr ⟨through, .inl rfl, rfl, rfl⟩)
        · obtain ⟨rfl, rfl⟩ := Prod.mk.inj (Option.some.inj taken)
          exact .inr (.inr ⟨through, .inr rfl, rfl, rfl⟩)

/-- A round that comes to nothing has not written into the shared memory. -/
theorem not_viaShm_of_txNext {wire : Wire} {written : Bool} {sent : SendResult}
    (waiting : conn.txQueue.pop?.isSome) (taken : conn.txNext wire written sent = none) :
    conn.viaShm wire written = false := by
  unfold txNext at taken
  obtain ⟨head, popped⟩ := Option.isSome_iff_exists.mp waiting
  rw [popped] at taken
  simp only at taken
  split at taken
  · simp at taken
  · rename_i through
    simpa using through

end Conn

/-! ## Steps -/

namespace IpcLayer

variable {layer after : IpcLayer β} {index : Nat} {link link' : IpcEnd β} {stats : NodeStats}

theorem traffic_withConn {conn : Conn β} (same : SameSent link.rx.conn conn) :
    (link.withConn conn).traffic = link.traffic := by
  simp only [IpcEnd.traffic, IpcEnd.withConn, same.1, same.2]

theorem traffic_countDrop (stats : NodeStats) (status : Status) :
    (stats.countDrop status).traffic = stats.traffic := by
  unfold NodeStats.countDrop
  split
  · rfl
  · rfl

theorem AddsUp.receive (adds : layer.AddsUp) (found : layer.ends[index]? = some link)
    {rx : RxEnd β} (alike : CountsAlike (layer.stats.handTo link.rx) rx) :
    (layer.put index { link with rx := rx } (layer.stats.takeFrom rx)).AddsUp := by
  obtain ⟨⟨sent, sentBytes⟩, packets, bytes, conn, node, connBytes, nodeBytes⟩ := alike
  have sent : rx.conn.txPackets = link.rx.conn.txPackets := sent
  have sentBytes : rx.conn.txBytes = link.rx.conn.txBytes := sentBytes
  have conn : rx.rxPackets = link.rx.rxPackets + packets := conn
  have node : rx.nodeRxPackets = layer.stats.rxPackets + packets := node
  have connBytes : rx.rxBytes = link.rx.rxBytes + bytes := connBytes
  have nodeBytes : rx.nodeRxBytes = layer.stats.rxBytes + bytes := nodeBytes
  have counted : (layer.stats.takeFrom rx).traffic =
      layer.stats.traffic + (0, 0, (packets : ZMod (2 ^ 64)), (bytes : ZMod (2 ^ 64))) := by
    simp [NodeStats.traffic, NodeStats.takeFrom, node, nodeBytes]
  have more : ({ link with rx := rx } : IpcEnd β).traffic =
      link.traffic + (0, 0, (packets : ZMod (2 ^ 64)), (bytes : ZMod (2 ^ 64))) := by
    simp [IpcEnd.traffic, sent, sentBytes, conn, connBytes]
  exact (adds.put_iff found counted more).mpr rfl

theorem zero_ne_one_packet : (0 : ZMod (2 ^ 64)) ≠ 1 := by
  intro same
  have one : ((1 : Nat) : ZMod (2 ^ 64)) = 0 := by rw [Nat.cast_one, ← same]
  rw [ZMod.natCast_eq_zero_iff] at one
  exact absurd one (by decide)

theorem one_message_ne_zero (bytes : Nat) : (0 : Traffic) ≠ (1, (bytes : ZMod (2 ^ 64)), 0, 0) :=
  fun same => zero_ne_one_packet (congrArg Prod.fst same)

/-- A round of `nos_ipc_process_tx` keeps the sums exactly if no message goes into the shared
memory. -/
theorem AddsUp.next_iff (adds : layer.AddsUp) (found : layer.ends[index]? = some link) {wire : Wire}
    {written : Bool} {sent : SendResult} {conn : Conn β} {effect : TxEffect β}
    (taken : link.rx.conn.txNext wire written sent = some (conn, effect)) (sending : Bool) :
    (layer.put index { link.withConn conn with sending := sending }
      (layer.stats.countTx wire effect)).AddsUp ↔ link.rx.conn.viaShm wire written = false := by
  obtain ⟨-, ⟨through, ⟨item, rfl⟩, packets, bytes⟩ | ⟨through, ⟨item, rfl⟩, packets, bytes⟩ |
    ⟨through, either, same⟩⟩ := link.rx.conn.txNext_cases taken
  · have more : ({ link.withConn conn with sending := sending } : IpcEnd β).traffic =
        link.traffic + (1, (wire.fullLen : ZMod (2 ^ 64)), 0, 0) := by
      simp [IpcEnd.traffic, IpcEnd.withConn, packets, bytes]
    have counted : (layer.stats.countTx wire (.shm item)).traffic = layer.stats.traffic + 0 :=
      (add_zero _).symm
    rw [adds.put_iff found counted more, through]
    exact iff_of_false (one_message_ne_zero _) (by decide)
  · have more : ({ link.withConn conn with sending := sending } : IpcEnd β).traffic =
        link.traffic + (1, (wire.fullLen : ZMod (2 ^ 64)), 0, 0) := by
      simp [IpcEnd.traffic, IpcEnd.withConn, packets, bytes]
    have counted : (layer.stats.countTx wire (.socket item)).traffic =
        layer.stats.traffic + (1, (wire.fullLen : ZMod (2 ^ 64)), 0, 0) := by
      simp [NodeStats.traffic, NodeStats.countTx]
    exact iff_of_true ((adds.put_iff found counted more).mpr rfl) through
  · refine iff_of_true (adds.put_same found ?_ (traffic_withConn same)) through
    rcases either with rfl | rfl
    · rfl
    · rfl

theorem step_on_end {op : IpcOp β} (targeted : target op = some index)
    (stepped : layer.step op = some after) :
    ∃ link result, layer.ends[index]? = some link ∧ onEnd layer.stats link op = some result ∧
      after = layer.put index result.1 result.2 := by
  have unfolded : layer.step op = (target op).bind fun index =>
      layer.ends[index]?.bind fun link =>
        (onEnd layer.stats link op).map fun result => layer.put index result.1 result.2 := by
    cases op with
    | getOrCreate ring nodeName udsPath => simp [target] at targeted
    | accept ring fd => simp [target] at targeted
    | _ => rfl
  rw [unfolded, targeted, Option.bind_some] at stepped
  obtain ⟨link, found, stepped⟩ := Option.bind_eq_some_iff.mp stepped
  obtain ⟨result, done, rfl⟩ := Option.map_eq_some_iff.mp stepped
  exact ⟨link, result, found, done, rfl⟩

/-- A step keeps the sums exactly if it sends no message through the shared memory. -/
theorem addsUp_step_iff {op : IpcOp β} (adds : layer.AddsUp) (stepped : layer.step op = some after) :
    after.AddsUp ↔ layer.NotThroughShm op := by
  cases op with
  | getOrCreate ring nodeName udsPath =>
      refine iff_of_true ?_ trivial
      simp only [step] at stepped
      split at stepped
      · obtain rfl := Option.some.inj stepped
        exact adds
      · obtain rfl := Option.some.inj stepped
        exact adds.addConn rfl rfl
  | accept ring fd =>
      refine iff_of_true ?_ trivial
      obtain rfl := Option.some.inj stepped
      exact adds.addConn rfl rfl
  | remote index socket slots =>
      refine iff_of_true ?_ trivial
      obtain ⟨link, _, found, done, rfl⟩ := step_on_end rfl stepped
      obtain rfl := Option.some.inj done
      exact adds.put_same found rfl rfl
  | enqueue index item localNode now outcome =>
      refine iff_of_true ?_ trivial
      obtain ⟨link, _, found, done, rfl⟩ := step_on_end rfl stepped
      obtain ⟨-, done⟩ := Option.ite_none_left_eq_some.mp done
      obtain rfl := Option.some.inj done
      exact adds.put_same found (traffic_countDrop _ _)
        (traffic_withConn (link.rx.conn.sendEnqueue_sameSent item localNode now outcome))
  | reply index generation item =>
      refine iff_of_true ?_ trivial
      obtain ⟨link, _, found, done, rfl⟩ := step_on_end rfl stepped
      obtain ⟨-, done⟩ := Option.ite_none_left_eq_some.mp done
      obtain rfl := Option.some.inj done
      exact adds.put_same found (traffic_countDrop _ _)
        (traffic_withConn (link.rx.conn.sendReply_sameSent generation item))
  | processTx index =>
      refine iff_of_true ?_ trivial
      obtain ⟨link, _, found, done, rfl⟩ := step_on_end rfl stepped
      obtain ⟨-, done⟩ := Option.ite_none_left_eq_some.mp done
      obtain rfl := Option.some.inj done
      exact adds.put_same found rfl rfl
  | receive index found opened bufs =>
      refine iff_of_true ?_ trivial
      obtain ⟨link, _, here, done, rfl⟩ := step_on_end rfl stepped
      obtain rfl := Option.some.inj done
      exact adds.receive here (RxEnd.nosIpcRecvHandler_countsAlike _ found opened bufs)
  | next index wire written sent =>
      obtain ⟨link, _, found, done, rfl⟩ := step_on_end rfl stepped
      obtain ⟨-, done⟩ := Option.ite_none_right_eq_some.mp done
      have only : layer.NotThroughShm (.next index wire written sent) ↔
          (link.rx.conn.txQueue.pop?.isSome → link.rx.conn.viaShm wire written = false) := by
        constructor
        · intro guarded
          exact guarded link found
        · intro guarded link' found'
          obtain rfl : link = link' := Option.some.inj (found.symm.trans found')
          exact guarded
      rw [only]
      cases taken : link.rx.conn.txNext wire written sent with
      | none =>
          rw [taken] at done
          obtain rfl := Option.some.inj done
          exact iff_of_true (adds.put_same found rfl rfl)
            fun waiting => link.rx.conn.not_viaShm_of_txNext waiting taken
      | some result =>
          obtain ⟨conn, effect⟩ := result
          rw [taken] at done
          obtain ⟨waiting, -⟩ := link.rx.conn.txNext_cases taken
          rw [forall_prop_of_true waiting]
          have either := fun sending => adds.next_iff found taken sending
          cases effect with
          | shm item =>
              obtain rfl := Option.some.inj done
              exact either link.sending
          | socket item =>
              obtain rfl := Option.some.inj done
              exact either link.sending
          | blocked =>
              obtain rfl := Option.some.inj done
              exact either false
          | broken =>
              obtain rfl := Option.some.inj done
              exact either false

/-- Along a run of the layer the counters of the node are the sums of those of its connections if and
only if no message is sent through the shared memory. -/
theorem addsUp_along_run_iff {ops : List (IpcOp β)}
    (execution : Transition.run step empty ops = some after) :
    Transition.Visits step AddsUp empty ops ↔ Transition.Guarded step NotThroughShm empty ops :=
  Transition.visits_iff_guarded (fun _ => True) (fun _ _ _ _ _ => trivial)
    (fun _ _ _ _ adds stepped => addsUp_step_iff adds stepped) trivial rfl execution

/-- A node sends one message of 40 bytes to a node that it shares memory with. -/
def oneShmMessage : List (IpcOp Nat) :=
  [.getOrCreate (ConnRun.emptyQueue 0) (some (.ofText "ProcB")) (.ofText "/tmp/proc_b.sock"),
    .enqueue 0 5 (some (.ofText "ProcA")) 0 (.connected 9 true), .processTx 0,
    .next 0 ⟨false, 40⟩ true .complete]

/-- The connection has counted the message, and the node has not. -/
theorem oneShmMessage_not_counted :
    ∃ ops after, Transition.run step (empty : IpcLayer Nat) ops = some after ∧
      after.stats.txPackets = 0 ∧ (after.ends.map fun link => link.rx.conn.txPackets) = [1] ∧
      ¬ Transition.Visits step AddsUp (empty : IpcLayer Nat) ops := by
  obtain ⟨after, execution, node, conns⟩ : ∃ after,
      Transition.run step (empty : IpcLayer Nat) oneShmMessage = some after ∧
      after.stats.txPackets = 0 ∧ (after.ends.map fun link => link.rx.conn.txPackets) = [1] :=
    ⟨_, rfl, rfl, rfl⟩
  refine ⟨oneShmMessage, after, execution, node, conns, ?_⟩
  intro visited
  have packets := (visited.last execution).txPackets
  rw [node, conns, List.sum_singleton, Nat.cast_zero, Nat.cast_one] at packets
  exact zero_ne_one_packet packets

/-- The same message to a node without a channel. -/
def oneSocketMessage : List (IpcOp Nat) :=
  [.getOrCreate (ConnRun.emptyQueue 0) (some (.ofText "ProcB")) (.ofText "/tmp/proc_b.sock"),
    .enqueue 0 5 (some (.ofText "ProcA")) 0 (.connected 9 false), .processTx 0,
    .next 0 ⟨false, 40⟩ true .complete]

/-- Both have counted it. -/
theorem addsUp_along_oneSocketMessage :
    ∃ after, Transition.run step (empty : IpcLayer Nat) oneSocketMessage = some after ∧
      after.stats.txPackets = 1 ∧
      Transition.Visits step AddsUp (empty : IpcLayer Nat) oneSocketMessage := by
  have counted : (Transition.runGuarded step NotThroughShm (empty : IpcLayer Nat)
      oneSocketMessage).map (fun after => after.stats.txPackets) = some 1 := by decide +kernel
  obtain ⟨after, execution, packets⟩ := Option.map_eq_some_iff.mp counted
  obtain ⟨ran, guarded⟩ := Transition.guarded_of_runGuarded execution
  exact ⟨after, ran, packets, (addsUp_along_run_iff ran).mpr guarded⟩

end IpcLayer

end CodexNos.Ipc
