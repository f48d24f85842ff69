import CodexNos.Lib.CStr
import CodexNos.Lib.Ring
import CodexNos.Lib.Transition
import CodexNos.Types

/-!
# Connections and their transmit queues

A connection keeps the buffers that wait for transmission in a ring.  Buffers enter it through
`nos_ipc_send_enqueue` and `nos_ipc_send_reply`; `nos_ipc_process_tx` works on it from the head,
through shared memory or through the socket, until it is empty, the socket is full or the link
fails.  The results of the system calls are arguments.
-/

namespace CodexNos.Ipc

open Lib

/-- `nos_ipc_conn_state_t`. -/
inductive ConnState
  | disconnected
  | connecting
  | connected
  | backoff
  deriving DecidableEq, Repr

/-- `TX_QUEUE_SIZE`. -/
def txQueueSize : Nat := 1024

theorem txQueueSize_pos : 0 < txQueueSize := by decide

/-- `IPC_RETRY_INITIAL_MS`. -/
def retryInitialMs : Nat := 100

/-- `IPC_RETRY_MAX_MS`. -/
def retryMaxMs : Nat := 5000

/-- `NOS_SHM_SLOT_SIZE`. -/
def shmSlotSize : Nat := 8192

/-- A connection (`nos_ipc_conn_t`) whose queue holds items of type `β`. -/
structure Conn (β : Type*) where
  /-- `uds_path`. -/
  udsPath : CStr
  /-- `fd`, if not negative. -/
  fd : Option Nat
  /-- `tx_queue` with `head` and `tail`. -/
  txQueue : Ring β txQueueSize
  /-- `is_connected`. -/
  isConnected : Bool
  /-- `state`. -/
  state : ConnState
  /-- `next_retry_ms`. -/
  nextRetryMs : Nat
  /-- `retry_delay_ms`. -/
  retryDelayMs : Nat
  /-- `connect_fail_count`. -/
  connectFailCount : Nat
  /-- `tx_packets`. -/
  txPackets : Nat
  /-- `tx_bytes`. -/
  txBytes : Nat
  /-- `tx_errors`. -/
  txErrors : Nat
  /-- `dropped_full`. -/
  droppedFull : Nat
  /-- `generation`. -/
  generation : UInt32
  /-- `is_passive`. -/
  isPassive : Bool
  /-- `remote_node`. -/
  remoteNode : CStr
  /-- `shm_name`. -/
  shmName : CStr
  /-- `shm` is attached. -/
  shm : Bool

/-- What the transmission reads of a message. -/
structure Wire where
  /-- The message carries the `IPC_CTRL` flag. -/
  ctrl : Bool
  /-- Size of header and payload. -/
  fullLen : Nat
  deriving DecidableEq, Repr

/-- The outcome of `socket` and `connect`. -/
inductive ConnectOutcome
  /-- One of them fails; the clock after it. -/
  | failed (clock : Nat)
  /-- The connection is made with this descriptor; whether the channel can be created. -/
  | connected (fd : Nat) (created : Bool)
  deriving DecidableEq, Repr

/-- The outcome of `send`. -/
inductive SendResult
  /-- The whole message is sent. -/
  | complete
  /-- The socket is full. -/
  | again
  /-- Anything else. -/
  | failed
  deriving DecidableEq, Repr

/-- What one round of `nos_ipc_process_tx` did. -/
inductive TxEffect (β : Type*)
  /-- Wrote the item into the shared memory. -/
  | shm (item : β)
  /-- Sent the item through the socket. -/
  | socket (item : β)
  /-- Found the socket full. -/
  | blocked
  /-- Found the link broken. -/
  | broken
  deriving DecidableEq, Repr

/-- `ipc_make_shm_name`: `/nos_shm_%s_%s` in 64 bytes. -/
def makeShmName (localNode remoteNode : CStr) : CStr :=
  ((((CStr.ofText "/nos_shm_").append localNode).append (.ofText "_")).append remoteNode).cut 63

namespace Conn

variable {β : Type*}

/-- `ipc_queue_len`. -/
def queueLen (conn : Conn β) : Nat := conn.txQueue.length

/-- `nos_ipc_mark_disconnected`. -/
def markDisconnected (conn : Conn β) : Conn β :=
  { conn with
    fd := none
    shm := false
    isConnected := false
    state := .disconnected
    generation := conn.generation + 1 }

/-- `nos_ipc_mark_connect_failed`, with its reading of the clock. -/
def markConnectFailed (conn : Conn β) (clock : Nat) : Conn β :=
  let delay := if conn.retryDelayMs ≠ 0 then conn.retryDelayMs else retryInitialMs
  { conn with
    connectFailCount := conn.connectFailCount + 1
    retryDelayMs := if retryMaxMs / 2 ≤ delay then retryMaxMs else delay * 2
    nextRetryMs := clock + delay
    state := .backoff
    isConnected := false }

/-- Give the connection a shared-memory channel, unless it has one or does not know its peer. -/
def setupShm (conn : Conn β) (localNode : Option CStr) (created : Bool) : Conn β :=
  match localNode with
  | some localName =>
      if !conn.shm && conn.remoteNode ≠ .empty then
        { conn with shmName := makeShmName localName conn.remoteNode, shm := created }
      else conn
  | none => conn

/-- `nos_ipc_try_connect_locked`. -/
def tryConnect (conn : Conn β) (localNode : Option CStr) (now : Nat)
    (outcome : ConnectOutcome) : Conn β :=
  if conn.state = .backoff ∧ now < conn.nextRetryMs then conn
  else
    let connecting := { conn with state := .connecting }
    match outcome with
    | .failed clock => connecting.markConnectFailed clock
    | .connected fd created =>
        { connecting with
          fd := some fd
          isConnected := true
          state := .connected
          generation := conn.generation + 1
          retryDelayMs := retryInitialMs
          nextRetryMs := 0
          connectFailCount := 0 }.setupShm localNode created

/-- The locked part of `nos_ipc_send_enqueue`. -/
def sendEnqueue (conn : Conn β) (item : β) (localNode : Option CStr) (now : Nat)
    (outcome : ConnectOutcome) : Conn β × Status :=
  match conn.txQueue.push? item with
  | none => ({ conn with droppedFull := conn.droppedFull + 1 }, .errBusy)
  | some txQueue =>
      if conn.fd = none ∨ conn.state ≠ .connected then
        ({ conn with txQueue := txQueue }.tryConnect localNode now outcome, .ok)
      else ({ conn with txQueue := txQueue }, .ok)

/-- The locked part of `nos_ipc_send_reply`. -/
def sendReply (conn : Conn β) (generation : UInt32) (item : β) : Conn β × Status :=
  if conn.state ≠ .connected ∨ conn.fd = none ∨ conn.generation ≠ generation then (conn, .err)
  else
    match conn.txQueue.push? item with
    | none => ({ conn with droppedFull := conn.droppedFull + 1 }, .errBusy)
    | some txQueue => ({ conn with txQueue := txQueue }, .ok)

/-- The item at the head goes into the shared memory. -/
def viaShm (conn : Conn β) (wire : Wire) (written : Bool) : Bool :=
  !wire.ctrl && conn.shm && wire.fullLen ≤ shmSlotSize && written

/-- One round of `nos_ipc_process_tx`, if the queue is not empty: what the head looks like, whether
the shared memory takes it, and what `send` says, which fails on a closed descriptor. -/
def txNext (conn : Conn β) (wire : Wire) (written : Bool) (sent : SendResult) :
    Option (Conn β × TxEffect β) :=
  match conn.txQueue.pop? with
  | none => none
  | some (item, txQueue) =>
      let advanced : Conn β :=
        { conn with
          txQueue := txQueue
          txPackets := conn.txPackets + 1
          txBytes := conn.txBytes + wire.fullLen }
      if conn.viaShm wire written then some (advanced, .shm item)
      else
        match if conn.fd = none then .failed else sent with
        | .complete => some (advanced, .socket item)
        | .again => some (conn, .blocked)
        | .failed => some ({ conn with txErrors := conn.txErrors + 1 }.markDisconnected, .broken)

/-- `ipc_handle_ctrl_msg` on a `SETUP` message; whether the channel can be opened. -/
def handleSetup (conn : Conn β) (peerNode shmName : CStr) (opened : Bool) : Conn β :=
  { conn with
    remoteNode := peerNode.cut 31
    shmName := shmName.cut 63
    shm := conn.shm || opened }

/-- A connection of `get_or_create_conn`.  The name of the peer may be missing. -/
def outgoing (ring : Ring β txQueueSize) (nodeName : Option CStr) (udsPath : CStr) :
    Conn β where
  udsPath := udsPath.cut 107
  fd := none
  txQueue := ring
  isConnected := false
  state := .disconnected
  nextRetryMs := 0
  retryDelayMs := retryInitialMs
  connectFailCount := 0
  txPackets := 0
  txBytes := 0
  txErrors := 0
  droppedFull := 0
  generation := 1
  isPassive := false
  remoteNode := (nodeName.map (·.cut 31)).getD .empty
  shmName := .empty
  shm := false

/-- A connection of `create_passive_conn`. -/
def passive (ring : Ring β txQueueSize) (fd : Nat) : Conn β where
  udsPath := .ofText ("passive:" ++ toString fd)
  fd := some fd
  txQueue := ring
  isConnected := true
  state := .connected
  nextRetryMs := 0
  retryDelayMs := retryInitialMs
  connectFailCount := 0
  txPackets := 0
  txBytes := 0
  txErrors := 0
  droppedFull := 0
  generation := 1
  isPassive := true
  remoteNode := .empty
  shmName := .empty
  shm := false

end Conn

/-! ## Runs of one connection -/

/-- An accepted item. -/
structure Accepted (β : Type*) where
  /-- The item. -/
  item : β
  /-- The generation that a reply was accepted for. -/
  replyTo : Option UInt32
  deriving DecidableEq, Repr

/-- A transmitted item. -/
structure Transmitted (β : Type*) where
  /-- The item. -/
  item : β
  /-- The generation of the connection at the transmission. -/
  generation : UInt32
  deriving DecidableEq, Repr

/-- A connection with its history. -/
structure ConnRun (β : Type*) where
  /-- The connection. -/
  conn : Conn β
  /-- A thread is in the loop of `nos_ipc_process_tx` and holds the lock. -/
  sending : Bool
  /-- Items accepted with `NOS_OK`, oldest first. -/
  accepted : List (Accepted β)
  /-- Items transmitted, oldest first. -/
  transmitted : List (Transmitted β)

/-- A step of a connection. -/
inductive ConnOp (β : Type*)
  /-- `nos_ipc_send_enqueue` up to the release of the lock. -/
  | enqueue (item : β) (localNode : Option CStr) (now : Nat) (outcome : ConnectOutcome)
  /-- `nos_ipc_send_reply` up to the release of the lock. -/
  | reply (generation : UInt32) (item : β)
  /-- Enter `nos_ipc_process_tx`. -/
  | processTx
  /-- Next round of `nos_ipc_process_tx`. -/
  | next (wire : Wire) (written : Bool) (sent : SendResult)
  /-- The receive handler finds the link closed or its data invalid. -/
  | disconnect
  /-- The receive handler gets a `SETUP` message. -/
  | setup (peerNode shmName : CStr) (opened : Bool)

namespace ConnRun

variable {β : Type*}

/-- Record an accepted item. -/
def accept (run : ConnRun β) (result : Conn β × Status) (entry : Accepted β) : ConnRun β :=
  { run with
    conn := result.1
    accepted := if result.2 = .ok then run.accepted ++ [entry] else run.accepted }

/-- Record the effect of a round. -/
def record (run : ConnRun β) (conn : Conn β) : TxEffect β → ConnRun β
  | .shm item | .socket item =>
      { run with
        conn := conn
        transmitted := run.transmitted ++ [⟨item, run.conn.generation⟩] }
  | .blocked | .broken => { run with conn := conn, sending := false }

/-- Perform one step. -/
def step (run : ConnRun β) : ConnOp β → Option (ConnRun β)
  | .enqueue item localNode now outcome =>
      if run.sending then none
      else some (run.accept (run.conn.sendEnqueue item localNode now outcome) ⟨item, none⟩)
  | .reply generation item =>
      if run.sending then none
      else some (run.accept (run.conn.sendReply generation item) ⟨item, some generation⟩)
  | .processTx =>
      if run.sending then none
      else some { run with sending := run.conn.state = .connected && run.conn.fd.isSome }
  | .next wire written sent =>
      if run.sending then
        match run.conn.txNext wire written sent with
        | none => some { run with sending := false }
        | some (conn, effect) => some (run.record conn effect)
      else none
  | .disconnect => some { run with conn := run.conn.markDisconnected }
  | .setup peerNode shmName opened =>
      some { run with conn := run.conn.handleSetup peerNode shmName opened }

/-- The connection has just been created. -/
structure Initial (run : ConnRun β) : Prop where
  conn : (∃ ring nodeName udsPath, run.conn = .outgoing ring nodeName udsPath) ∨
    ∃ ring fd, run.conn = .passive ring fd
  empty : run.conn.txQueue.contents = []
  sending : run.sending = false
  accepted : run.accepted = []
  transmitted : run.transmitted = []

/-- An empty transmit queue. -/
def emptyQueue (item : β) : Ring β txQueueSize := Ring.empty item txQueueSize_pos

/-- A connection to a path on which nothing was sent yet. -/
def fresh (item : β) (nodeName : Option CStr) (udsPath : CStr) : ConnRun β where
  conn := .outgoing (emptyQueue item) nodeName udsPath
  sending := false
  accepted := []
  transmitted := []

theorem fresh_initial (item : β) (nodeName : Option CStr) (udsPath : CStr) :
    (fresh item nodeName udsPath).Initial where
  conn := .inl ⟨_, _, _, rfl⟩
  empty := Ring.contents_empty item _
  sending := rfl
  accepted := rfl
  transmitted := rfl

/-- A connection that was just accepted. -/
def freshPassive (item : β) (fd : Nat) : ConnRun β where
  conn := .passive (emptyQueue item) fd
  sending := false
  accepted := []
  transmitted := []

theorem freshPassive_initial (item : β) (fd : Nat) : (freshPassive item fd).Initial where
  conn := .inr ⟨_, _, rfl⟩
  empty := Ring.contents_empty item _
  sending := rfl
  accepted := rfl
  transmitted := rfl

end ConnRun

end CodexNos.Ipc
