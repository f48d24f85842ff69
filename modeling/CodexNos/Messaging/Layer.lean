import CodexNos.Ipc.ConnPool
import CodexNos.Memory.Pool
import CodexNos.Messaging.Routing

/-!
# The messaging layer of a node

Messages are buffers of the pool.  They travel through the message queues of the threads and the
transmit queues of the connections; threads take them out, hand them to components, send them to
other nodes and receive new ones.  Each place that holds a buffer holds a reference to it.

A step is one critical section, one access to a reference count or the writing of a header; a round
of `nos_ipc_process_tx` releases its buffer and advances the head under one lock.  The locks of the
connections are not modelled, so that the runs of the model include those in which the rounds of one
thread on a connection are interleaved with those of another.
-/

namespace CodexNos.Messaging

open Lib Memory Ipc

/-- A message on its arrival over a connection. -/
structure Arrival where
  /-- Its place among the messages that its sender has transmitted. -/
  number : Nat
  /-- Its header. -/
  header : Header
  deriving DecidableEq, Repr

/-- An entry of a message queue. -/
structure Posted where
  /-- The buffer. -/
  buffer : BufferId
  /-- The message has come in over a connection and was not sent by a component of this node. -/
  arrival : Option Arrival
  deriving DecidableEq, Repr

/-- An entry of a transmit queue. -/
structure Outgoing where
  /-- The buffer. -/
  buffer : BufferId
  /-- The request that it was accepted as a reply to. -/
  answers : Option Arrival
  deriving DecidableEq, Repr

/-- A message as it is transmitted. -/
structure Parcel where
  /-- Its header. -/
  header : Header
  /-- The request that it was accepted as a reply to. -/
  answers : Option Arrival
  deriving DecidableEq, Repr

/-- `nos_scheduler_drop_messages_for_provider` in progress. -/
structure Purge where
  /-- `provider`. -/
  provider : CompRef
  /-- `new_queue` with `new_head` and `new_tail`. -/
  kept : Ring Posted maxQueueSize

/-- The message queue of a thread. -/
structure MsgQueue where
  /-- `msg_queue` with `head` and `tail`. -/
  ring : Ring Posted maxQueueSize
  /-- A purge, which holds `queue_lock`. -/
  purge : Option Purge
  /-- The thread has been deinitialised. -/
  freed : Bool

/-- A reply context (`nos_reply_ctx_s`). -/
structure ReplyCtx where
  /-- `ref_cnt`. -/
  refCnt : UInt32
  /-- `ipc_conn`. -/
  ipcConn : Nat
  /-- `ipc_generation`. -/
  ipcGeneration : UInt32
  /-- `corr_id`. -/
  corrId : UInt32
  /-- `requester_component`. -/
  requesterComponent : UInt32
  /-- The request that the context was made for. -/
  request : Arrival
  deriving DecidableEq, Repr

/-- A function of the layer that a thread is in, with the buffer that it holds. -/
inductive Frame
  /-- `process_thread_messages` has taken a message. -/
  | dequeued (posted : Posted)
  /-- `process_thread_messages` is in `on_msg` of a component. -/
  | onMsg (posted : Posted) (comp : CompRef)
  /-- `process_thread_messages` is about to release the message. -/
  | dispatched (posted : Posted)
  /-- `nos_ipc_recv_handler` has received a message. -/
  | received (id : BufferId)
  /-- `ipc_deliver_rx_data` is about to send the message. -/
  | delivering (id : BufferId) (arrival : Arrival)
  /-- `ipc_deliver_rx_data` is about to release the message. -/
  | delivered (id : BufferId)
  /-- `nos_ipc_process_tx` is in its loop. -/
  | transmitting (conn : Nat)
  /-- `nos_scheduler_drop_messages_for_provider` is in its loop. -/
  | purging (queue : ThreadRef)
  /-- `nos_service_reply` has written the header and is about to call `nos_ipc_send_reply`. -/
  | replying (ctx : ReplyCtx) (id : BufferId)
  deriving DecidableEq, Repr

/-- The buffer that a function holds.  `nos_service_reply` uses the one of its caller. -/
def Frame.buffers : Frame → List BufferId
  | .dequeued posted | .onMsg posted _ | .dispatched posted => [posted.buffer]
  | .received id | .delivering id _ | .delivered id => [id]
  | .transmitting _ | .purging _ | .replying _ _ => []

/-- A thread of the process. -/
structure Actor where
  /-- The functions that it is in, the innermost first. -/
  frames : List Frame
  /-- The references that its components and other callers hold. -/
  held : List BufferId
  deriving DecidableEq, Repr

namespace Actor

/-- The thread runs code outside of the layer. -/
def mayCall (actor : Actor) : Bool :=
  match actor.frames with
  | [] | .onMsg _ _ :: _ => true
  | _ => false

/-- The buffer of an `on_msg`. -/
def onMsgBuffer : Frame → Option BufferId
  | .onMsg posted _ => some posted.buffer
  | _ => none

/-- Code outside of the layer can use the buffer. -/
def has (actor : Actor) (id : BufferId) : Bool :=
  id ∈ actor.held || id ∈ actor.frames.filterMap onMsgBuffer

/-- The thread is in `nos_service_reply`. -/
def replies (actor : Actor) : Bool :=
  match actor.frames with
  | .replying _ _ :: _ => true
  | _ => false

/-- Enter a function. -/
def push (actor : Actor) (frame : Frame) : Actor := { actor with frames := frame :: actor.frames }

end Actor

/-- The messaging layer. -/
structure Layer where
  /-- The buffer pool. -/
  pool : Pool
  /-- A buffer that a thread has released last and not yet put back. -/
  releasing : Nat → Option BufferId
  /-- The headers at the begin of the data of the buffers. -/
  headers : BufferId → Header
  /-- The reply contexts. -/
  contexts : Nat → Option ReplyCtx
  /-- The tables for routing. -/
  tables : Tables
  /-- The message queues of the threads with a scheduler. -/
  queues : List MsgQueue
  /-- The connections. -/
  conns : ConnPool Outgoing
  /-- The threads of the process. -/
  actors : List Actor
  /-- The messages transmitted so far, oldest first. -/
  transmitted : List Parcel

/-- A step of the layer. -/
inductive LayerOp
  /-- The tables change. -/
  | configure (tables : Tables)
  /-- `nos_buffer_alloc` by a caller. -/
  | alloc (thread : Nat) (size headroom : UInt32)
  /-- `nos_buffer_retain` by a caller. -/
  | retain (thread : Nat) (id : BufferId)
  /-- `nos_buffer_release` by a caller, up to the decrement. -/
  | release (thread : Nat) (id : BufferId)
  /-- Hand a reference to another thread. -/
  | give (thread receiver : Nat) (id : BufferId)
  /-- Write a header. -/
  | write (thread : Nat) (id : BufferId) (header : Header)
  /-- `nos_service_msg_send` by a caller. -/
  | send (thread : Nat) (id : BufferId) (now : Nat) (outcome : ConnectOutcome)
  /-- `nos_service_reply` by a caller, up to its call of `nos_ipc_send_reply`. -/
  | reply (thread : Nat) (ctx : Option Nat) (id : BufferId)
  /-- `nos_service_reply` calls `nos_ipc_send_reply`. -/
  | sendReply (thread : Nat)
  /-- `nos_reply_ctx_retain` by a caller. -/
  | retainCtx (ctx : Nat)
  /-- `nos_reply_ctx_release` by a caller. -/
  | releaseCtx (ctx : Nat)
  /-- Enter `nos_ipc_process_tx`. -/
  | processTx (thread conn : Nat)
  /-- Next round of `nos_ipc_process_tx`. -/
  | txRound (thread : Nat) (written : Bool) (sent : SendResult)
  /-- `process_thread_messages` takes a message. -/
  | dequeue (thread : Nat) (queue : ThreadRef)
  /-- `process_thread_messages` looks for the component and calls it. -/
  | dispatch (thread : Nat)
  /-- `on_msg` returns. -/
  | returned (thread : Nat)
  /-- A function of the layer releases its buffer, up to the decrement. -/
  | finish (thread : Nat)
  /-- `nos_ipc_recv_handler` receives a message. -/
  | receive (thread : Nat) (size : UInt32) (header : Header)
  /-- `ipc_deliver_rx_data` up to its call of `nos_service_msg_send`; the context if there is memory
  for one. -/
  | deliver (thread : Nat) (conn : Option Nat) (arrival : Arrival) (len : Nat) (ctx : Option Nat)
  /-- `ipc_deliver_rx_data` calls `nos_service_msg_send`. -/
  | deliverSend (thread : Nat) (now : Nat) (outcome : ConnectOutcome)
  /-- Enter `nos_scheduler_drop_messages_for_provider`; whether there is memory for it. -/
  | startPurge (thread : Nat) (queue : ThreadRef) (provider : CompRef) (allocated : Bool)
  /-- Next round of `nos_scheduler_drop_messages_for_provider`. -/
  | purgeRound (thread : Nat)
  /-- Next round of `nos_scheduler_deinit_thread`. -/
  | discard (thread : Nat) (queue : ThreadRef)
  /-- A connection is accepted. -/
  | accept (fd : Nat)
  /-- The receive handler finds a link closed or its data invalid. -/
  | disconnect (conn : Nat)
  /-- The receive handler gets a `SETUP` message. -/
  | setup (conn : Nat) (peerNode shmName : CStr) (opened : Bool)
  /-- The locked part of `nos_buffer_release`. -/
  | putBack (thread : Nat)

/-- The message that a step delivers. -/
def LayerOp.arrival : LayerOp → Option Arrival
  | .deliver _ _ arrival _ _ => some arrival
  | _ => none

namespace Layer

/-- The queue of a new connection. -/
def emptyTx : Ring Outgoing txQueueSize := Ring.empty ⟨⟨0, 0⟩, none⟩ txQueueSize_pos

/-- The cleared `new_queue`. -/
def emptyKept : Ring Posted maxQueueSize := Ring.empty ⟨⟨0, 0⟩, none⟩ maxQueueSize_pos

/-! ## Functions -/

/-- `nos_transport_local_send`.  There is no result if the lock is taken or the queue is freed. -/
def localSend (layer : Layer) (posted : Posted) (target : Option ThreadRef) :
    Option (Layer × Status) :=
  match target with
  | none => some (layer, .err)
  | some thread =>
      match layer.queues[thread]? with
      | none => none
      | some queue =>
          if queue.purge.isSome || queue.freed then none
          else
            match queue.ring.push? posted with
            | none => some (layer, .errBusy)
            | some ring =>
                some
                  ({ layer with
                      pool := layer.pool.retain posted.buffer
                      queues := layer.queues.set thread { queue with ring := ring } }, .ok)

/-- Store a connection after a call and count the reference of its queue if it has taken the
buffer. -/
def storeConn (layer : Layer) (index : Nat) (id : BufferId) (result : Conn Outgoing × Status) :
    Layer :=
  { layer with
    pool := if result.2 = .ok then layer.pool.retain id else layer.pool
    conns := ⟨layer.conns.conns.set index result.1⟩ }

/-- `nos_ipc_send_enqueue` up to the release of the lock. -/
def sendEnqueue (layer : Layer) (item : Outgoing) (nodeName udsPath : CStr) (now : Nat)
    (outcome : ConnectOutcome) : Layer × Status :=
  let (conns, index) := layer.conns.getOrCreate emptyTx (some nodeName) udsPath
  match index.bind fun index => conns.conns[index]?.map fun conn => (index, conn) with
  | none => (layer, .err)
  | some (index, conn) =>
      let localNode := layer.tables.nodeDef.map fun nodeDef => CStr.ofText nodeDef.1
      let result := conn.sendEnqueue item localNode now outcome
      ({ layer with conns := conns }.storeConn index item.buffer result, result.2)

/-- `nos_service_msg_send` up to its call of `nos_ipc_process_tx`. -/
def serviceMsgSend (layer : Layer) (id : BufferId) (arrival : Option Arrival) (now : Nat)
    (outcome : ConnectOutcome) : Option (Layer × Status) :=
  match layer.tables.route (layer.headers id) with
  | none => some (layer, .err)
  | some (.localThread target) => layer.localSend ⟨id, arrival⟩ target
  | some (.remoteNode nodeName udsPath) =>
      some (layer.sendEnqueue ⟨id, none⟩ (.ofText nodeName) (.ofText udsPath) now outcome)

/-- `nos_service_reply` up to its call of `nos_ipc_send_reply`.  Nothing is locked. -/
def serviceReply (layer : Layer) (ctx : ReplyCtx) (id : BufferId) : Layer :=
  { layer with
    headers := Function.update layer.headers id
      ((layer.headers id).asReply ctx.corrId ctx.requesterComponent) }

/-- `nos_ipc_send_reply` up to the release of the lock. -/
def sendReply (layer : Layer) (ctx : ReplyCtx) (id : BufferId) : Option (Layer × Status) :=
  (layer.conns.conns[ctx.ipcConn]?).map fun conn =>
    let result := conn.sendReply ctx.ipcGeneration ⟨id, some ctx.request⟩
    (layer.storeConn ctx.ipcConn id result, result.2)

/-- `nos_reply_ctx_release`. -/
def releaseCtx (layer : Layer) (ctx : Nat) : Layer :=
  { layer with
    contexts := Function.update layer.contexts ctx <|
      (layer.contexts ctx).bind fun entry =>
        if entry.refCnt = 1 then none else some { entry with refCnt := entry.refCnt - 1 } }

/-- `nos_buffer_release` up to the decrement. -/
def decrement (layer : Layer) (thread : Nat) (id : BufferId) : Layer :=
  { layer with
    pool := (layer.pool.decrement id).1
    releasing :=
      if (layer.pool.decrement id).2 then Function.update layer.releasing thread (some id)
      else layer.releasing }

/-- The locked part of `nos_buffer_release`. -/
def putBack (layer : Layer) (thread : Nat) (id : BufferId) : Layer :=
  let returned :=
    { layer with
      pool := layer.pool.putBack id
      releasing := Function.update layer.releasing thread none }
  match (layer.pool.buffer id).replyCtx with
  | some ctx => returned.releaseCtx ctx
  | none => returned

/-- What `nos_ipc_process_tx` reads of a message. -/
def wire (layer : Layer) (item : Outgoing) : Wire :=
  ⟨(layer.headers item.buffer).isCtrl, (layer.headers item.buffer).fullLen⟩

/-- Change a thread. -/
def setActor (layer : Layer) (thread : Nat) (actor : Actor) : Layer :=
  { layer with actors := layer.actors.set thread actor }

/-- Change a queue. -/
def setQueue (layer : Layer) (index : ThreadRef) (queue : MsgQueue) : Layer :=
  { layer with queues := layer.queues.set index queue }

/-- A thread that runs code outside of the layer. -/
def caller (layer : Layer) (thread : Nat) : Option Actor :=
  (layer.actors[thread]?).filter fun actor => layer.releasing thread = none && actor.mayCall

/-- A thread in a function of the layer, and that function. -/
def inFrame (layer : Layer) (thread : Nat) : Option (Actor × Frame × List Frame) :=
  ((layer.actors[thread]?).filter fun _ => layer.releasing thread = none).bind fun actor =>
    actor.frames.head?.map fun frame => (actor, frame, actor.frames.tail)

/-- A queue whose lock is free. -/
def openQueue (layer : Layer) (index : ThreadRef) : Option MsgQueue :=
  (layer.queues[index]?).filter fun queue => queue.purge.isNone && !queue.freed

/-! ## Steps -/

/-- A caller does something. -/
def call (layer : Layer) (thread : Nat) (allowed : Actor → Bool) (effect : Actor → Option Layer) :
    Option Layer :=
  ((layer.caller thread).filter allowed).bind effect

/-- Record a transmission. -/
def record (layer : Layer) (parcel : Parcel) : Layer :=
  { layer with transmitted := layer.transmitted ++ [parcel] }

/-- Next round of `nos_ipc_process_tx`. -/
def txRound (layer : Layer) (thread index : Nat) (left : Actor) (written : Bool)
    (sent : SendResult) : Option Layer :=
  (layer.conns.conns[index]?).map fun conn =>
    match conn.txQueue.pop? with
    | none => layer.setActor thread left
    | some (item, _) =>
        match conn.txNext (layer.wire item) written sent with
        | none => layer.setActor thread left
        | some (conn', effect) =>
            let stored : Layer := { layer with conns := ⟨layer.conns.conns.set index conn'⟩ }
            match effect with
            | .shm item | .socket item =>
                (stored.record ⟨layer.headers item.buffer, item.answers⟩).decrement thread item.buffer
            | .blocked | .broken => stored.setActor thread left

/-- `ipc_deliver_rx_data` up to its call of `nos_service_msg_send`. -/
def deliver (layer : Layer) (thread : Nat) (actor : Actor) (conn : Option Nat) (arrival : Arrival)
    (len : Nat) (ctx : Option Nat) : Option Layer :=
  if len < headerSize ∨ maxPayloadLen < arrival.header.payloadLen ∨ len ≠ arrival.header.fullLen then
    some layer
  else
    match layer.pool.alloc (UInt32.ofNat arrival.header.fullLen) 0 with
    | (_, none) => some layer
    | (pool, some id) =>
        let filled :=
          { layer with
            pool := pool
            headers := Function.update layer.headers id arrival.header }.setActor thread
              (actor.push (.delivering id arrival))
        match conn, ctx with
        | some index, some ctx =>
            match layer.conns.conns[index]?, layer.contexts ctx with
            | some conn, none =>
                some
                  { filled with
                    pool := pool.setReplyCtx id (some ctx)
                    contexts := Function.update layer.contexts ctx
                      (some ⟨1, index, conn.generation, arrival.header.seq,
                        arrival.header.srcComponent, arrival⟩) }
            | _, _ => none
        | _, _ => some filled

/-- Next round of `nos_scheduler_drop_messages_for_provider`. -/
def purgeRound (layer : Layer) (thread : Nat) (left : Actor) (index : ThreadRef) (queue : MsgQueue)
    (purge : Purge) : Layer :=
  match queue.ring.pop? with
  | none =>
      (layer.setQueue index { queue with ring := purge.kept, purge := none }).setActor thread left
  | some (posted, ring) =>
      if layer.tables.targetsProvider purge.provider (layer.headers posted.buffer) then
        (layer.setQueue index { queue with ring := ring }).decrement thread posted.buffer
      else
        layer.setQueue index
          { queue with ring := ring, purge := some { purge with kept := purge.kept.put posted } }

/-- Perform one step. -/
def step (layer : Layer) : LayerOp → Option Layer
  | .configure tables => some { layer with tables := tables }
  | .alloc thread size headroom =>
      layer.call thread (fun _ => true) fun actor =>
        match layer.pool.alloc size headroom with
        | (_, none) => some layer
        | (pool, some id) =>
            some ({ layer with pool := pool }.setActor thread
              { actor with held := id :: actor.held })
  | .retain thread id =>
      layer.call thread (·.has id) fun actor =>
        some ({ layer with pool := layer.pool.retain id }.setActor thread
          { actor with held := id :: actor.held })
  | .release thread id =>
      layer.call thread (id ∈ ·.held) fun actor =>
        some ((layer.setActor thread { actor with held := actor.held.erase id }).decrement thread id)
  | .give thread receiver id =>
      layer.call thread (id ∈ ·.held) fun actor =>
        let given := layer.setActor thread { actor with held := actor.held.erase id }
        (given.actors[receiver]?).map fun taker =>
          given.setActor receiver { taker with held := id :: taker.held }
  | .write thread id header =>
      layer.call thread (·.has id) fun _ =>
        some { layer with headers := Function.update layer.headers id header }
  | .send thread id now outcome =>
      layer.call thread (·.has id) fun _ =>
        (layer.serviceMsgSend id none now outcome).map Prod.fst
  | .reply thread ctx id =>
      layer.call thread (·.has id) fun actor =>
        match ctx with
        | none => some layer
        | some ctx =>
            (layer.contexts ctx).map fun entry =>
              (layer.serviceReply entry id).setActor thread (actor.push (.replying entry id))
  | .sendReply thread =>
      (layer.inFrame thread).bind fun
        | (actor, .replying entry id, rest) =>
            ((layer.setActor thread { actor with frames := rest }).sendReply entry id).map Prod.fst
        | _ => none
  | .retainCtx ctx =>
      (layer.contexts ctx).map fun entry =>
        { layer with
          contexts := Function.update layer.contexts ctx
            (some { entry with refCnt := entry.refCnt + 1 }) }
  | .releaseCtx ctx => if (layer.contexts ctx).isSome then some (layer.releaseCtx ctx) else none
  | .processTx thread index =>
      match layer.actors[thread]?, layer.conns.conns[index]? with
      | some actor, some conn =>
          if layer.releasing thread = none ∧ ¬ actor.replies then
            if conn.state = .connected ∧ conn.fd.isSome then
              some (layer.setActor thread (actor.push (.transmitting index)))
            else some layer
          else none
      | _, _ => none
  | .txRound thread written sent =>
      (layer.inFrame thread).bind fun
        | (actor, .transmitting index, rest) =>
            layer.txRound thread index { actor with frames := rest } written sent
        | _ => none
  | .dequeue thread index =>
      layer.call thread (fun _ => true) fun actor =>
        (layer.openQueue index).bind fun queue =>
          queue.ring.pop?.map fun (posted, ring) =>
            (layer.setQueue index { queue with ring := ring }).setActor thread
              (actor.push (.dequeued posted))
  | .dispatch thread =>
      (layer.inFrame thread).bind fun
        | (actor, .dequeued posted, rest) =>
            match layer.tables.dispatchTarget (layer.headers posted.buffer) with
            | some comp =>
                some (layer.setActor thread { actor with frames := .onMsg posted comp :: rest })
            | none =>
                some (layer.setActor thread { actor with frames := .dispatched posted :: rest })
        | _ => none
  | .returned thread =>
      (layer.inFrame thread).bind fun
        | (actor, .onMsg posted _, rest) =>
            some (layer.setActor thread { actor with frames := .dispatched posted :: rest })
        | _ => none
  | .finish thread =>
      (layer.inFrame thread).bind fun
        | (actor, .dispatched posted, rest) =>
            some ((layer.setActor thread { actor with frames := rest }).decrement thread
              posted.buffer)
        | (actor, .received id, rest) | (actor, .delivered id, rest) =>
            some ((layer.setActor thread { actor with frames := rest }).decrement thread id)
        | _ => none
  | .receive thread size header =>
      layer.call thread (fun _ => true) fun actor =>
        match layer.pool.alloc size 0 with
        | (_, none) => some layer
        | (pool, some id) =>
            some
              ({ layer with
                  pool := pool
                  headers := Function.update layer.headers id header }.setActor thread
                (actor.push (.received id)))
  | .deliver thread conn arrival len ctx =>
      (layer.inFrame thread).bind fun
        | (actor, .received _, _) => layer.deliver thread actor conn arrival len ctx
        | _ => none
  | .deliverSend thread now outcome =>
      (layer.inFrame thread).bind fun
        | (actor, .delivering id arrival, rest) =>
            (layer.serviceMsgSend id (some arrival) now outcome).map fun result =>
              result.1.setActor thread { actor with frames := .delivered id :: rest }
        | _ => none
  | .startPurge thread index provider allocated =>
      layer.call thread (fun _ => true) fun actor =>
        (layer.openQueue index).map fun queue =>
          if allocated then
            (layer.setQueue index { queue with purge := some ⟨provider, emptyKept⟩ }).setActor thread
              (actor.push (.purging index))
          else layer
  | .purgeRound thread =>
      (layer.inFrame thread).bind fun
        | (actor, .purging index, rest) =>
            (layer.queues[index]?).bind fun queue =>
              queue.purge.map fun purge =>
                layer.purgeRound thread { actor with frames := rest } index queue purge
        | _ => none
  | .discard thread index =>
      layer.call thread (fun _ => true) fun _ =>
        (layer.openQueue index).map fun queue =>
          match queue.ring.pop? with
          | none => layer.setQueue index { queue with freed := true }
          | some (posted, ring) =>
              (layer.setQueue index { queue with ring := ring }).decrement thread posted.buffer
  | .accept fd => some { layer with conns := (layer.conns.createPassive emptyTx fd).1 }
  | .disconnect index => some { layer with conns := layer.conns.markDisconnected index }
  | .setup index peerNode shmName opened =>
      (layer.conns.conns[index]?).map fun conn =>
        { layer with
          conns := ⟨layer.conns.conns.set index (conn.handleSetup peerNode shmName opened)⟩ }
  | .putBack thread => (layer.releasing thread).map fun id => layer.putBack thread id

/-- A node at its start: nothing is queued and nobody holds a buffer. -/
structure Initial (config : List PoolDef) (layer : Layer) : Prop where
  pool : initPool config = some layer.pool
  releasing : ∀ thread, layer.releasing thread = none
  contexts : ∀ ctx, layer.contexts ctx = none
  queues : ∀ queue ∈ layer.queues, queue.ring.contents = [] ∧ queue.purge = none
  conns : layer.conns.conns = []
  actors : ∀ actor ∈ layer.actors, actor = ⟨[], []⟩
  transmitted : layer.transmitted = []

/-- A node with threads that have not done anything. -/
def fresh (config : List PoolDef) (tables : Tables) (header : Header) (threads : Nat) : Layer where
  pool := poolOf config
  releasing := fun _ => none
  headers := fun _ => header
  contexts := fun _ => none
  tables := tables
  queues := List.replicate threads ⟨emptyKept, none, false⟩
  conns := ⟨[]⟩
  actors := List.replicate threads ⟨[], []⟩
  transmitted := []

theorem fresh_initial {config : List PoolDef} (tables : Tables) (header : Header) (threads : Nat)
    (fits : (usableDefs config).all fun entry => entry.chunkCount ≤ 2 ^ 31) :
    (fresh config tables header threads).Initial config where
  pool := if_pos fits
  releasing := fun _ => rfl
  contexts := fun _ => rfl
  queues := by
    intro queue present
    obtain rfl := List.eq_of_mem_replicate present
    exact ⟨Ring.contents_empty _ _, rfl⟩
  conns := rfl
  actors := fun _ present => List.eq_of_mem_replicate present
  transmitted := rfl

end Layer

end CodexNos.Messaging
