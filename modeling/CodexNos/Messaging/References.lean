import CodexNos.Ipc.TxOrder
import CodexNos.Memory.PoolInvariant
import CodexNos.Messaging.Layer

/-!
# References of the messaging layer

Every place of the messaging layer that holds a buffer holds one reference to it.  The functions of
the layer move, make and give back references together with the buffers, so that the pool stays in
balance with them.
-/

namespace CodexNos.Messaging

open Lib Lib.Transition Memory Ipc

/-! ## Counting -/

/-- Replacing a member of a list replaces what it holds. -/
theorem count_flatMap_set {α β : Type*} [DecidableEq β] (holds : α → List β) {members : List α}
    {index : Nat} {member : α} (found : members[index]? = some member) (member' : α) (item : β) :
    ((members.set index member').flatMap holds).count item + (holds member).count item =
      (members.flatMap holds).count item + (holds member').count item := by
  induction members generalizing index with
  | nil => simp at found
  | cons first members ih =>
      cases index with
      | zero =>
          obtain rfl : first = member := by simpa using found
          simp only [List.set_cons_zero, List.flatMap_cons, List.count_append]
          omega
      | succ index =>
          have rest := ih (by simpa using found)
          simp only [List.set_cons_succ, List.flatMap_cons, List.count_append]
          omega

/-- The messages in a queue, those that a purge has kept included. -/
def MsgQueue.posted (queue : MsgQueue) : List Posted :=
  queue.ring.contents ++ (queue.purge.map fun purge => purge.kept.contents).getD []

/-- The buffers in a queue. -/
def MsgQueue.buffers (queue : MsgQueue) : List BufferId := queue.posted.map Posted.buffer

/-- The buffers in the transmit queue of a connection. -/
def txBuffers (conn : Conn Outgoing) : List BufferId :=
  conn.txQueue.contents.map Outgoing.buffer

/-- The buffers that a thread is working on. -/
def Actor.working (actor : Actor) : List BufferId := actor.frames.flatMap Frame.buffers

/-- The buffers that a thread holds. -/
def Actor.buffers (actor : Actor) : List BufferId := actor.working ++ actor.held

theorem Actor.has_iff {actor : Actor} {id : BufferId} :
    actor.has id = true ↔ id ∈ actor.held ∨ id ∈ actor.frames.filterMap Actor.onMsgBuffer := by
  simp only [Actor.has, Bool.or_eq_true, decide_eq_true_eq]

namespace Layer

/-- Occurrences of a buffer in the message queues. -/
def inMsgQueues (layer : Layer) (id : BufferId) : Nat :=
  (layer.queues.flatMap MsgQueue.buffers).count id

/-- Occurrences of a buffer in the transmit queues. -/
def inTxQueues (layer : Layer) (id : BufferId) : Nat :=
  (layer.conns.conns.flatMap txBuffers).count id

/-- Occurrences of a buffer in the hands of the functions of the layer. -/
def inWork (layer : Layer) (id : BufferId) : Nat :=
  (layer.actors.flatMap Actor.working).count id

/-- References to a buffer that callers hold. -/
def heldByCallers (layer : Layer) (id : BufferId) : Nat :=
  (layer.actors.flatMap Actor.held).count id

/-- All references. -/
def references (layer : Layer) : List BufferId :=
  layer.queues.flatMap MsgQueue.buffers ++ layer.conns.conns.flatMap txBuffers ++
    layer.actors.flatMap Actor.buffers

theorem count_references (layer : Layer) (id : BufferId) :
    layer.references.count id =
      layer.inMsgQueues id + layer.inTxQueues id + layer.inWork id + layer.heldByCallers id := by
  have split : (layer.actors.flatMap Actor.buffers).count id =
      layer.inWork id + layer.heldByCallers id := by
    unfold inWork heldByCallers
    induction layer.actors with
    | nil => rfl
    | cons actor actors ih =>
        simp only [List.flatMap_cons, List.count_append, Actor.buffers] at ih ⊢
        omega
  simp only [references, List.count_append, split, inMsgQueues, inTxQueues]
  omega

theorem count_setQueue {layer : Layer} {index : ThreadRef} {queue : MsgQueue}
    (found : layer.queues[index]? = some queue) (queue' : MsgQueue) (id : BufferId) :
    (layer.setQueue index queue').references.count id + queue.buffers.count id =
      layer.references.count id + queue'.buffers.count id := by
  have changed := count_flatMap_set MsgQueue.buffers found queue' id
  simp only [references, setQueue, List.count_append]
  omega

theorem count_setActor (layer : Layer) {thread : Nat} {actor : Actor}
    (found : layer.actors[thread]? = some actor) (actor' : Actor) (id : BufferId) :
    (layer.setActor thread actor').references.count id + actor.buffers.count id =
      layer.references.count id + actor'.buffers.count id := by
  have changed := count_flatMap_set Actor.buffers found actor' id
  simp only [references, setActor, List.count_append]
  omega

theorem getElem?_setActor {layer : Layer} {thread : Nat} {actor : Actor}
    (found : layer.actors[thread]? = some actor) (actor' : Actor) :
    (layer.setActor thread actor').actors[thread]? = some actor' :=
  List.getElem?_set_self (List.getElem?_eq_some_iff.mp found).1

theorem count_setConn {layer : Layer} {index : Nat} {conn : Conn Outgoing}
    (found : layer.conns.conns[index]? = some conn) (conn' : Conn Outgoing) (id : BufferId) :
    ({ layer with conns := ⟨layer.conns.conns.set index conn'⟩ } : Layer).references.count id +
        (txBuffers conn).count id =
      layer.references.count id + (txBuffers conn').count id := by
  have changed := count_flatMap_set txBuffers found conn' id
  simp only [references, List.count_append]
  omega

/-! ## The balance -/

/-- The pool agrees with the references of the layer. -/
def Balanced (layer : Layer) : Prop := Accounted layer.pool layer.releasing layer.references

/-- A purge keeps no more messages than its queue has had. -/
def Roomy (layer : Layer) : Prop :=
  ∀ queue ∈ layer.queues, ∀ purge, queue.purge = some purge →
    queue.ring.contents.length + purge.kept.contents.length < maxQueueSize

section Moves

variable {before after : Layer} {thread : Nat} {id : BufferId}

theorem Balanced.moved (balanced : before.Balanced) (pool : after.pool = before.pool)
    (releasing : after.releasing = before.releasing)
    (same : ∀ other, after.references.count other = before.references.count other) :
    after.Balanced := by
  unfold Balanced
  rw [pool, releasing]
  exact Accounted.perm balanced (List.perm_iff_count.mpr fun other => (same other).symm)

theorem Balanced.retained (balanced : before.Balanced) (present : id ∈ before.references)
    (room : before.references.count id + 1 < 2 ^ 32) (pool : after.pool = before.pool.retain id)
    (releasing : after.releasing = before.releasing)
    (taken : ∀ other, after.references.count other = (id :: before.references).count other) :
    after.Balanced := by
  unfold Balanced
  rw [pool, releasing]
  exact (Accounted.retain balanced present room).perm
    (List.perm_iff_count.mpr fun other => (taken other).symm)

theorem Balanced.allocated (balanced : before.Balanced) {size headroom : UInt32}
    (alloc : before.pool.alloc size headroom = (after.pool, some id))
    (releasing : after.releasing = before.releasing)
    (taken : ∀ other, after.references.count other = (id :: before.references).count other) :
    after.Balanced := by
  unfold Balanced
  rw [releasing]
  exact (Accounted.alloc balanced alloc).2.2.perm
    (List.perm_iff_count.mpr fun other => (taken other).symm)

theorem Balanced.decrement (balanced : before.Balanced) (pool : after.pool = before.pool)
    (releasing : after.releasing = before.releasing) (idle : before.releasing thread = none)
    (left : ∀ other, before.references.count other = (id :: after.references).count other) :
    (after.decrement thread id).Balanced := by
  have same : before.references.Perm (id :: after.references) := List.perm_iff_count.mpr left
  have present : id ∈ before.references := same.mem_iff.mpr List.mem_cons_self
  have released := (Accounted.release balanced idle present).perm
    ((List.perm_cons_erase present).symm.trans same).cons_inv
  unfold Balanced Layer.decrement
  rw [pool, releasing]
  exact released

end Moves

/-! ## Threads and queues -/

theorem cases_of_call {layer after : Layer} {thread : Nat} {allowed : Actor → Bool}
    {effect : Actor → Option Layer} (called : layer.call thread allowed effect = some after) :
    ∃ actor, layer.actors[thread]? = some actor ∧ layer.releasing thread = none ∧
      allowed actor = true ∧ effect actor = some after := by
  obtain ⟨actor, found, made⟩ := Option.bind_eq_some_iff.mp called
  obtain ⟨found, permitted⟩ := Option.filter_eq_some_iff.mp found
  obtain ⟨found, ready⟩ := Option.filter_eq_some_iff.mp found
  simp only [Bool.and_eq_true, decide_eq_true_eq] at ready
  exact ⟨actor, found, ready.1, permitted, made⟩

theorem mayCall_of_call {layer after : Layer} {thread : Nat} {allowed : Actor → Bool}
    {effect : Actor → Option Layer} (called : layer.call thread allowed effect = some after)
    {actor : Actor} (found : layer.actors[thread]? = some actor) : actor.mayCall = true := by
  obtain ⟨actor', found', -⟩ := Option.bind_eq_some_iff.mp called
  obtain ⟨found', -⟩ := Option.filter_eq_some_iff.mp found'
  obtain ⟨found', ready⟩ := Option.filter_eq_some_iff.mp found'
  obtain rfl := Option.some.inj (found.symm.trans found')
  simp only [Bool.and_eq_true, decide_eq_true_eq] at ready
  exact ready.2

theorem call_eq {layer : Layer} {thread : Nat} {allowed : Actor → Bool}
    {effect : Actor → Option Layer} {actor : Actor} (found : layer.actors[thread]? = some actor)
    (idle : layer.releasing thread = none) (ready : actor.mayCall = true)
    (permitted : allowed actor = true) : layer.call thread allowed effect = effect actor := by
  have chosen : (layer.caller thread).filter allowed = some actor := by
    rw [caller, found, Option.filter_some_pos (by simp [idle, ready]),
      Option.filter_some_pos permitted]
  rw [call, chosen, Option.bind_some]

theorem cases_of_inFrame {layer : Layer} {thread : Nat} {actor : Actor} {frame : Frame}
    {rest : List Frame} (entered : layer.inFrame thread = some (actor, frame, rest)) :
    layer.actors[thread]? = some actor ∧ layer.releasing thread = none ∧
      actor.frames = frame :: rest := by
  obtain ⟨actor', found, top⟩ := Option.bind_eq_some_iff.mp entered
  obtain ⟨found, ready⟩ := Option.filter_eq_some_iff.mp found
  obtain ⟨frame', head, same⟩ := Option.map_eq_some_iff.mp top
  simp only [Prod.mk.injEq] at same
  obtain ⟨rfl, rfl, rfl⟩ := same
  refine ⟨found, by simpa using ready, ?_⟩
  cases frames : actor'.frames with
  | nil => simp [frames] at head
  | cons first others => simpa [frames, eq_comm] using head

theorem cases_of_openQueue {layer : Layer} {index : ThreadRef} {queue : MsgQueue}
    (opened : layer.openQueue index = some queue) :
    layer.queues[index]? = some queue ∧ queue.purge = none := by
  obtain ⟨found, ready⟩ := Option.filter_eq_some_iff.mp opened
  simp only [Bool.and_eq_true, Option.isNone_iff_eq_none] at ready
  exact ⟨found, ready.1⟩

theorem mem_references_of_has {layer : Layer} {thread : Nat} {actor : Actor} {id : BufferId}
    (found : layer.actors[thread]? = some actor) (usable : actor.has id = true) :
    id ∈ layer.references := by
  have present : id ∈ actor.buffers := by
    rcases Actor.has_iff.mp usable with held | framed
    · exact List.mem_append_right _ held
    · obtain ⟨frame, inside, named⟩ := List.mem_filterMap.mp framed
      refine List.mem_append_left _ (List.mem_flatMap.mpr ⟨frame, inside, ?_⟩)
      cases frame <;> simp_all [Actor.onMsgBuffer, Frame.buffers]
  exact List.mem_append_right _
    (List.mem_flatMap.mpr ⟨actor, List.mem_of_getElem? found, present⟩)

theorem count_buffers_of_frames {actor : Actor} {frame : Frame} {rest : List Frame}
    (frames : actor.frames = frame :: rest) (id : BufferId) :
    actor.buffers.count id =
      frame.buffers.count id + (rest.flatMap Frame.buffers).count id + actor.held.count id := by
  simp [Actor.buffers, Actor.working, frames, Nat.add_assoc]

theorem mem_references_of_frame {layer : Layer} {thread : Nat} {actor : Actor} {frame : Frame}
    {rest : List Frame} {id : BufferId} (found : layer.actors[thread]? = some actor)
    (frames : actor.frames = frame :: rest) (inside : id ∈ frame.buffers) :
    id ∈ layer.references := by
  refine List.mem_append_right _
    (List.mem_flatMap.mpr ⟨actor, List.mem_of_getElem? found, List.mem_append_left _ ?_⟩)
  exact List.mem_flatMap.mpr ⟨frame, by simp [frames], inside⟩

theorem Roomy.setQueue {layer : Layer} (roomy : layer.Roomy) {index : ThreadRef} {queue : MsgQueue}
    (room : ∀ purge, queue.purge = some purge →
      queue.ring.contents.length + purge.kept.contents.length < maxQueueSize) :
    (layer.setQueue index queue).Roomy := by
  intro other present
  rcases List.mem_or_eq_of_mem_set present with present | rfl
  · exact roomy other present
  · exact room

/-! ## Sending -/

/-- A state with consistent references. -/
structure Kept (layer : Layer) : Prop where
  balanced : layer.Balanced
  roomy : layer.Roomy

/-- What sending leaves alone. -/
structure SameThreads (before after : Layer) : Prop where
  actors : after.actors = before.actors
  releasing : after.releasing = before.releasing
  headers : after.headers = before.headers

theorem SameThreads.refl (layer : Layer) : SameThreads layer layer := ⟨rfl, rfl, rfl⟩

variable {before after : Layer} {id : BufferId} {status : Status}

/-- A local send changes nothing, or counts a reference and appends the message to a queue. -/
theorem cases_of_localSend {posted : Posted} {target : Option ThreadRef}
    (sent : before.localSend posted target = some (after, status)) :
    after = before ∨
      ∃ index queue ring, before.queues[index]? = some queue ∧ queue.purge = none ∧
        queue.ring.push? posted = some ring ∧
        after = { before.setQueue index { queue with ring := ring } with
          pool := before.pool.retain posted.buffer } := by
  cases target with
  | none =>
      obtain ⟨same, -⟩ : before = after ∧ Status.err = status := by simpa [Layer.localSend] using sent
      exact .inl same.symm
  | some index =>
      simp only [Layer.localSend] at sent
      split at sent
      · cases sent
      · rename_i queue found
        split at sent
        · cases sent
        · rename_i closed
          split at sent
          · obtain ⟨same, -⟩ : before = after ∧ Status.errBusy = status := by simpa using sent
            exact .inl same.symm
          · rename_i ring pushed
            simp only [Option.some.injEq, Prod.mk.injEq] at sent
            simp only [Bool.or_eq_true, not_or, Bool.not_eq_true, Option.isSome_eq_false_iff,
              Option.isNone_iff_eq_none] at closed
            exact .inr ⟨index, queue, ring, found, closed.1, pushed, sent.1.symm⟩

theorem posted_of_push? {queue : MsgQueue} (no_purge : queue.purge = none) {posted : Posted}
    {ring : Ring Posted maxQueueSize} (pushed : queue.ring.push? posted = some ring) :
    ({ queue with ring := ring } : MsgQueue).posted = queue.posted ++ [posted] := by
  simp [MsgQueue.posted, no_purge, Ring.contents_push? pushed]

/-- A call for a connection changes nothing, or stores what the connection does. -/
theorem cases_of_sendEnqueue (layer : Layer) (item : Outgoing) (nodeName udsPath : CStr) (now : Nat)
    (outcome : ConnectOutcome) :
    (layer.sendEnqueue item nodeName udsPath now outcome).1 = layer ∨
      ∃ (conns : ConnPool Outgoing) (index : Nat) (conn : Conn Outgoing) (localNode : Option CStr),
        conns = (layer.conns.getOrCreate emptyTx (some nodeName) udsPath).1 ∧
        conns.conns[index]? = some conn ∧
        (layer.sendEnqueue item nodeName udsPath now outcome).1 =
          { layer with conns := conns }.storeConn index item.buffer
            (conn.sendEnqueue item localNode now outcome) := by
  unfold Layer.sendEnqueue
  dsimp only
  split
  · exact .inl rfl
  · rename_i index conn chosen
    obtain ⟨index', -, found⟩ := Option.bind_eq_some_iff.mp chosen
    obtain ⟨conn', conn_found, same⟩ := Option.map_eq_some_iff.mp found
    obtain ⟨rfl, rfl⟩ := Prod.mk.inj same
    exact .inr ⟨_, index', conn', _, rfl, conn_found, rfl⟩

/-- A message stays here, goes to a thread of this node or to a connection. -/
theorem cases_of_serviceMsgSend {arrival : Option Arrival} {now : Nat} {outcome : ConnectOutcome}
    (sent : before.serviceMsgSend id arrival now outcome = some (after, status)) :
    after = before ∨ (∃ target, before.localSend ⟨id, arrival⟩ target = some (after, status)) ∨
      ∃ nodeName udsPath,
        after = (before.sendEnqueue ⟨id, none⟩ nodeName udsPath now outcome).1 := by
  simp only [Layer.serviceMsgSend] at sent
  split at sent
  · obtain ⟨same, -⟩ : before = after ∧ Status.err = status := by simpa using sent
    exact .inl same.symm
  · exact .inr (.inl ⟨_, sent⟩)
  · exact .inr (.inr ⟨_, _, (congrArg Prod.fst (Option.some.inj sent)).symm⟩)

theorem sameThreads_serviceMsgSend {arrival : Option Arrival} {now : Nat} {outcome : ConnectOutcome}
    (sent : before.serviceMsgSend id arrival now outcome = some (after, status)) :
    SameThreads before after := by
  obtain rfl | ⟨target, sent⟩ | ⟨nodeName, udsPath, rfl⟩ := cases_of_serviceMsgSend sent
  · exact .refl _
  · obtain rfl | ⟨_, _, _, -, -, -, rfl⟩ := cases_of_localSend sent
    · exact .refl _
    · exact ⟨rfl, rfl, rfl⟩
  · obtain same | ⟨_, _, _, _, -, -, same⟩ :=
      cases_of_sendEnqueue before ⟨id, none⟩ nodeName udsPath now outcome
    · rw [same]
      exact .refl _
    · rw [same]
      exact ⟨rfl, rfl, rfl⟩

theorem Kept.localSend (kept : before.Kept) {posted : Posted} {target : Option ThreadRef}
    (present : posted.buffer ∈ before.references)
    (room : before.references.count posted.buffer + 1 < 2 ^ 32)
    (sent : before.localSend posted target = some (after, status)) : after.Kept := by
  obtain rfl | ⟨index, queue, ring, found, no_purge, pushed, rfl⟩ := cases_of_localSend sent
  · exact kept
  · constructor
    · refine kept.balanced.retained present room rfl rfl ?_
      intro other
      have changed := count_setQueue found { queue with ring := ring } other
      rw [MsgQueue.buffers, MsgQueue.buffers, posted_of_push? no_purge pushed, List.map_append,
        List.map_singleton, List.count_append, List.count_singleton] at changed
      rw [List.count_cons]
      change (before.setQueue index { queue with ring := ring }).references.count other = _
      omega
    · exact kept.roomy.setQueue (by simp [no_purge])

/-- A call that may put a buffer into the queue of a connection. -/
theorem Kept.storeConn (kept : before.Kept) {index : Nat} {conn : Conn Outgoing}
    (found : before.conns.conns[index]? = some conn) {item : Outgoing}
    {result : Conn Outgoing × Status} (present : item.buffer ∈ before.references)
    (room : before.references.count item.buffer + 1 < 2 ^ 32)
    (queued : conn.Queued result.1 item result.2) :
    (before.storeConn index item.buffer result).Kept := by
  refine ⟨?_, kept.roomy⟩
  by_cases ok : result.2 = .ok
  · refine kept.balanced.retained present room (by simp [Layer.storeConn, ok]) rfl ?_
    intro other
    have appended : txBuffers result.1 = txBuffers conn ++ [item.buffer] := by
      simp [txBuffers, queued.accepted ok]
    have changed := count_setConn found result.1 other
    rw [appended, List.count_append, List.count_singleton] at changed
    rw [List.count_cons]
    change ({ before with conns := ⟨before.conns.conns.set index result.1⟩ } : Layer).references.count
      other = _
    omega
  · refine kept.balanced.moved (by simp [Layer.storeConn, ok]) rfl ?_
    intro other
    have unchanged : txBuffers result.1 = txBuffers conn := by rw [txBuffers, queued.refused ok]; rfl
    have changed := count_setConn found result.1 other
    rw [unchanged] at changed
    change ({ before with conns := ⟨before.conns.conns.set index result.1⟩ } : Layer).references.count
      other = _
    omega

theorem references_getOrCreate (layer : Layer) (nodeName : Option CStr) (udsPath : CStr) :
    ({ layer with conns := (layer.conns.getOrCreate emptyTx nodeName udsPath).1 } : Layer).references =
      layer.references := by
  have empty : ∀ nodeName udsPath, txBuffers (.outgoing emptyTx nodeName udsPath) = [] := by
    intro nodeName udsPath
    simp [txBuffers, Conn.outgoing, emptyTx]
  unfold references ConnPool.getOrCreate
  split
  · rfl
  · split
    · rfl
    · simp [empty]

theorem Kept.sendEnqueue (kept : before.Kept) {item : Outgoing} {nodeName udsPath : CStr}
    {now : Nat} {outcome : ConnectOutcome} (present : item.buffer ∈ before.references)
    (room : before.references.count item.buffer + 1 < 2 ^ 32) :
    (before.sendEnqueue item nodeName udsPath now outcome).1.Kept := by
  obtain same | ⟨_, index, conn, localNode, rfl, conn_found, same⟩ :=
    cases_of_sendEnqueue before item nodeName udsPath now outcome
  · rw [same]
    exact kept
  · have same_references := references_getOrCreate before (some nodeName) udsPath
    have created :
        ({ before with conns := (before.conns.getOrCreate emptyTx (some nodeName) udsPath).1 } :
          Layer).Kept :=
      ⟨kept.balanced.moved rfl rfl fun other => by rw [same_references], kept.roomy⟩
    rw [← same_references] at present room
    rw [same]
    exact created.storeConn conn_found present room (Conn.sendEnqueue_queued ..)

theorem Kept.serviceMsgSend (kept : before.Kept) {arrival : Option Arrival} {now : Nat}
    {outcome : ConnectOutcome} (present : id ∈ before.references)
    (room : before.references.count id + 1 < 2 ^ 32)
    (sent : before.serviceMsgSend id arrival now outcome = some (after, status)) : after.Kept := by
  obtain rfl | ⟨target, sent⟩ | ⟨nodeName, udsPath, rfl⟩ := cases_of_serviceMsgSend sent
  · exact kept
  · exact kept.localSend present room sent
  · exact kept.sendEnqueue present room

theorem Kept.sendReply (kept : before.Kept) {ctx : ReplyCtx} (present : id ∈ before.references)
    (room : before.references.count id + 1 < 2 ^ 32)
    (sent : before.sendReply ctx id = some (after, status)) : after.Kept := by
  obtain ⟨conn, found, same⟩ := Option.map_eq_some_iff.mp sent
  obtain ⟨rfl, -⟩ := Prod.mk.inj same
  exact kept.storeConn found present room
    (Conn.sendReply_queued conn ctx.ipcGeneration ⟨id, some ctx.request⟩)

/-! ## Taking messages out -/

variable {thread : Nat}

theorem Kept.decrement {layer : Layer} (kept : before.Kept) (roomy : layer.Roomy)
    (pool : layer.pool = before.pool) (releasing : layer.releasing = before.releasing)
    (idle : before.releasing thread = none)
    (left : ∀ other, before.references.count other = (id :: layer.references).count other) :
    (layer.decrement thread id).Kept :=
  ⟨kept.balanced.decrement pool releasing idle left, roomy⟩

theorem Kept.putBack (kept : before.Kept) (returns : before.releasing thread = some id) :
    (before.putBack thread id).Kept := by
  have returned := Accounted.putBack kept.balanced returns
  unfold Layer.putBack
  dsimp only
  split
  · exact ⟨returned, kept.roomy⟩
  · exact ⟨returned, kept.roomy⟩

theorem Kept.leave (kept : before.Kept) (layer : Layer) {actor : Actor} {frame : Frame}
    {rest : List Frame} (found : layer.actors[thread]? = some actor)
    (frames : actor.frames = frame :: rest) (nothing : frame.buffers = [])
    (pool : layer.pool = before.pool) (releasing : layer.releasing = before.releasing)
    (roomy : layer.Roomy)
    (same : ∀ other, layer.references.count other = before.references.count other) :
    (layer.setActor thread { actor with frames := rest }).Kept := by
  refine ⟨kept.balanced.moved pool releasing ?_, roomy⟩
  intro other
  have changed := count_setActor _ found { actor with frames := rest } other
  rw [count_buffers_of_frames frames, nothing] at changed
  simp only [Actor.buffers, Actor.working, List.count_append, List.count_nil] at changed
  have := same other
  omega

/-- `nos_ipc_process_tx` has nothing to do, or a thread enters its loop. -/
theorem cases_of_processTx {index : Nat}
    (stepped : before.step (.processTx thread index) = some after) :
    after = before ∨ ∃ actor, before.actors[thread]? = some actor ∧ actor.replies = false ∧
      after = before.setActor thread (actor.push (.transmitting index)) := by
  simp only [Layer.step] at stepped
  split at stepped
  · rename_i actor conn found _
    simp only [Option.ite_none_right_eq_some] at stepped
    obtain ⟨⟨-, outside⟩, made⟩ := stepped
    split at made
    · exact .inr ⟨actor, found, by simpa using outside, (Option.some.inj made).symm⟩
    · exact .inl (Option.some.inj made).symm
  · cases stepped

/-- A round of `nos_ipc_process_tx` leaves the loop, with or without a change of the connection, or
transmits and releases the first message of the queue. -/
theorem cases_of_txRound {index : Nat} {left : Actor} {written : Bool} {sent : SendResult}
    (made : before.txRound thread index left written sent = some after) :
    after = before.setActor thread left ∨
      (∃ conn conn', before.conns.conns[index]? = some conn ∧ conn'.txQueue = conn.txQueue ∧
        after =
          { before with conns := ⟨before.conns.conns.set index conn'⟩ }.setActor thread left) ∨
      ∃ conn conn' item, before.conns.conns[index]? = some conn ∧
        conn.txQueue.contents = item :: conn'.txQueue.contents ∧
        after = ({ before with conns := ⟨before.conns.conns.set index conn'⟩ }.record
          ⟨before.headers item.buffer, item.answers⟩).decrement thread item.buffer := by
  obtain ⟨conn, found, rfl⟩ := Option.map_eq_some_iff.mp made
  split
  · exact .inl rfl
  · split
    · exact .inl rfl
    · rename_i conn' effect round
      have contents := Conn.txNext_contents round
      cases effect with
      | shm item | socket item => exact .inr (.inr ⟨conn, conn', item, found, contents, rfl⟩)
      | blocked | broken => exact .inr (.inl ⟨conn, conn', found, contents, rfl⟩)

theorem Kept.txRound (kept : before.Kept) {index : Nat} {actor : Actor} {rest : List Frame}
    {written : Bool} {sent : SendResult} (found : before.actors[thread]? = some actor)
    (idle : before.releasing thread = none)
    (frames : actor.frames = .transmitting index :: rest)
    (made : before.txRound thread index { actor with frames := rest } written sent = some after) :
    after.Kept := by
  obtain rfl | ⟨conn, conn', there, same, rfl⟩ | ⟨conn, conn', item, there, contents, rfl⟩ :=
    cases_of_txRound made
  · exact kept.leave before found frames rfl rfl rfl kept.roomy fun _ => rfl
  · refine kept.leave { before with conns := ⟨before.conns.conns.set index conn'⟩ }
      found frames rfl rfl rfl kept.roomy ?_
    intro other
    have changed := count_setConn there conn' other
    simp only [txBuffers, same] at changed
    omega
  · refine kept.decrement kept.roomy rfl rfl idle ?_
    intro other
    have changed := count_setConn there conn' other
    simp only [txBuffers, contents, List.map_cons, List.count_cons] at changed
    rw [List.count_cons]
    change _ =
      ({ before with conns := ⟨before.conns.conns.set index conn'⟩ } : Layer).references.count other +
        _
    omega

theorem posted_of_pop? {queue : MsgQueue} {posted : Posted} {ring : Ring Posted maxQueueSize}
    (popped : queue.ring.pop? = some (posted, ring)) :
    queue.posted = posted :: ({ queue with ring := ring } : MsgQueue).posted := by
  simp [MsgQueue.posted, Ring.contents_pop? popped]

theorem buffers_of_pop? {queue : MsgQueue} {posted : Posted} {ring : Ring Posted maxQueueSize}
    (popped : queue.ring.pop? = some (posted, ring)) :
    queue.buffers = posted.buffer :: ({ queue with ring := ring } : MsgQueue).buffers := by
  rw [MsgQueue.buffers, posted_of_pop? popped]
  rfl

/-- The end of a purge puts the messages that it has kept into the queue. -/
theorem posted_of_finished {queue : MsgQueue} {purge : Purge} (purging : queue.purge = some purge)
    (popped : queue.ring.pop? = none) :
    ({ queue with ring := purge.kept, purge := none } : MsgQueue).posted = queue.posted := by
  simp [MsgQueue.posted, purging, (Ring.pop?_eq_none_iff _).mp popped]

theorem Roomy.setQueue_pop {layer : Layer} (roomy : layer.Roomy) {index : ThreadRef}
    {queue : MsgQueue} (found : layer.queues[index]? = some queue) {posted : Posted}
    {ring : Ring Posted maxQueueSize} (popped : queue.ring.pop? = some (posted, ring)) :
    (layer.setQueue index { queue with ring := ring }).Roomy := by
  apply roomy.setQueue
  intro purge purging
  have room := roomy queue (List.mem_of_getElem? found) purge purging
  rw [Ring.contents_pop? popped, List.length_cons] at room
  dsimp only
  omega

theorem Kept.discarded (kept : before.Kept) (idle : before.releasing thread = none)
    {index : ThreadRef} {queue : MsgQueue} (found : before.queues[index]? = some queue)
    {posted : Posted} {ring : Ring Posted maxQueueSize}
    (popped : queue.ring.pop? = some (posted, ring)) :
    ((before.setQueue index { queue with ring := ring }).decrement thread posted.buffer).Kept := by
  refine kept.decrement (kept.roomy.setQueue_pop found popped) rfl rfl idle ?_
  intro other
  have changed := count_setQueue found { queue with ring := ring } other
  rw [buffers_of_pop? popped, List.count_cons] at changed
  rw [List.count_cons]
  omega

theorem Kept.contents_put (kept : before.Kept) {index : ThreadRef} {queue : MsgQueue}
    {purge : Purge} (found : before.queues[index]? = some queue) (purging : queue.purge = some purge)
    {posted : Posted} {ring : Ring Posted maxQueueSize}
    (popped : queue.ring.pop? = some (posted, ring)) :
    (purge.kept.put posted).contents = purge.kept.contents ++ [posted] := by
  have room := kept.roomy queue (List.mem_of_getElem? found) purge purging
  rw [Ring.contents_pop? popped, List.length_cons] at room
  exact Ring.contents_put (by omega) posted

theorem Kept.posted_of_put (kept : before.Kept) {index : ThreadRef} {queue : MsgQueue}
    {purge : Purge} (found : before.queues[index]? = some queue) (purging : queue.purge = some purge)
    {posted : Posted} {ring : Ring Posted maxQueueSize}
    (popped : queue.ring.pop? = some (posted, ring)) :
    ({ queue with ring := ring, purge := some { purge with kept := purge.kept.put posted } } :
      MsgQueue).posted.Perm queue.posted := by
  simp only [MsgQueue.posted, purging, Option.map_some, Option.getD_some,
    kept.contents_put found purging popped, Ring.contents_pop? popped, List.cons_append,
    ← List.append_assoc]
  exact List.perm_append_singleton _ _

theorem Kept.purgeRound (kept : before.Kept) {index : ThreadRef} {actor : Actor}
    {rest : List Frame} {queue : MsgQueue} {purge : Purge}
    (found : before.actors[thread]? = some actor) (idle : before.releasing thread = none)
    (frames : actor.frames = .purging index :: rest)
    (queue_found : before.queues[index]? = some queue) (purging : queue.purge = some purge) :
    (before.purgeRound thread { actor with frames := rest } index queue purge).Kept := by
  unfold Layer.purgeRound
  split
  · rename_i popped
    let finished : MsgQueue := { queue with ring := purge.kept, purge := none }
    have unchanged : finished.buffers = queue.buffers :=
      congrArg (List.map Posted.buffer) (posted_of_finished purging popped)
    refine kept.leave (before.setQueue index finished) found frames rfl rfl rfl
      (kept.roomy.setQueue (by simp [finished])) ?_
    intro other
    have changed := count_setQueue queue_found finished other
    rw [unchanged] at changed
    omega
  · rename_i posted ring popped
    split
    · exact kept.discarded idle queue_found popped
    · let keeping : MsgQueue :=
        { queue with ring := ring, purge := some { purge with kept := purge.kept.put posted } }
      have unchanged : keeping.buffers.Perm queue.buffers :=
        (kept.posted_of_put queue_found purging popped).map Posted.buffer
      have put := kept.contents_put queue_found purging popped
      have room := kept.roomy queue (List.mem_of_getElem? queue_found) purge purging
      rw [Ring.contents_pop? popped, List.length_cons] at room
      constructor
      · refine kept.balanced.moved rfl rfl ?_
        intro other
        have changed := count_setQueue queue_found keeping other
        rw [unchanged.count_eq] at changed
        change (before.setQueue index keeping).references.count other = _
        omega
      · apply kept.roomy.setQueue
        intro purge' same
        obtain rfl : { purge with kept := purge.kept.put posted } = purge' := Option.some.inj same
        rw [put, List.length_append, List.length_singleton]
        dsimp only
        omega

/-! ## Receiving -/

theorem Kept.allocated (kept : before.Kept) {pool : Pool} {size headroom : UInt32}
    (alloc : before.pool.alloc size headroom = (pool, some id)) {actor : Actor}
    (found : before.actors[thread]? = some actor) (actor' : Actor)
    (more : ∀ other, actor'.buffers.count other = (id :: actor.buffers).count other)
    (headers : BufferId → Header) :
    ({ before with pool := pool, headers := headers }.setActor thread actor').Kept := by
  refine ⟨kept.balanced.allocated alloc rfl ?_, kept.roomy⟩
  intro other
  have changed := count_setActor _ found actor' other
  have more := more other
  rw [List.count_cons] at more ⊢
  change (before.setActor thread actor').references.count other = _
  omega

/-- A new buffer is not referenced before its allocation. -/
theorem Kept.fresh (kept : before.Kept) {pool : Pool} {size headroom : UInt32}
    (alloc : before.pool.alloc size headroom = (pool, some id)) : id ∉ before.references := by
  obtain ⟨valid, free, -⟩ := Accounted.alloc kept.balanced alloc
  exact ((kept.balanced.free id valid).mp free).1

theorem count_buffers_push (actor : Actor) (frame : Frame) (id : BufferId) :
    (actor.push frame).buffers.count id = frame.buffers.count id + actor.buffers.count id := by
  simp [Actor.push, Actor.buffers, Actor.working]

/-- `ipc_deliver_rx_data` has filled a buffer of the pool with a message. -/
def filled (layer : Layer) (thread : Nat) (actor : Actor) (arrival : Arrival) (pool : Pool)
    (id : BufferId) : Layer :=
  { layer with
    pool := pool
    headers := Function.update layer.headers id arrival.header }.setActor thread
      (actor.push (.delivering id arrival))

/-- A delivery leaves the layer alone, or allocates a buffer for the message, with or without a
context. -/
theorem cases_of_deliver {actor : Actor} {conn : Option Nat} {arrival : Arrival} {len : Nat}
    {ctx : Option Nat}
    (delivered : before.deliver thread actor conn arrival len ctx = some after) :
    after = before ∨
      ∃ pool id, before.pool.alloc (UInt32.ofNat arrival.header.fullLen) 0 = (pool, some id) ∧
        (after = before.filled thread actor arrival pool id ∨
          ∃ (ctx index : Nat) (target : Conn Outgoing),
            after =
              { before.filled thread actor arrival pool id with
                pool := pool.setReplyCtx id (some ctx)
                contexts := Function.update before.contexts ctx
                  (some ⟨1, index, target.generation, arrival.header.seq,
                    arrival.header.srcComponent, arrival⟩) }) := by
  simp only [Layer.deliver] at delivered
  split at delivered
  · exact .inl (Option.some.inj delivered).symm
  · split at delivered
    · exact .inl (Option.some.inj delivered).symm
    · rename_i pool id alloc
      refine .inr ⟨pool, id, alloc, ?_⟩
      split at delivered
      · rename_i index ctx
        split at delivered
        · rename_i target _ _
          exact .inr ⟨ctx, index, target, (Option.some.inj delivered).symm⟩
        · cases delivered
      · exact .inl (Option.some.inj delivered).symm

theorem Kept.deliver (kept : before.Kept) {actor : Actor} {conn : Option Nat} {arrival : Arrival}
    {len : Nat} {ctx : Option Nat} (found : before.actors[thread]? = some actor)
    (delivered : before.deliver thread actor conn arrival len ctx = some after) : after.Kept := by
  obtain rfl | ⟨pool, id, alloc, made⟩ := cases_of_deliver delivered
  · exact kept
  · have more : ∀ other, (actor.push (.delivering id arrival)).buffers.count other =
        (id :: actor.buffers).count other := by
      intro other
      rw [count_buffers_push, List.count_cons, Frame.buffers, List.count_singleton]
      omega
    have filled : (before.filled thread actor arrival pool id).Kept :=
      kept.allocated alloc found (actor.push (.delivering id arrival)) more
        (Function.update before.headers id arrival.header)
    obtain rfl | ⟨ctx, index, target, rfl⟩ := made
    · exact filled
    · exact ⟨Accounted.setReplyCtx filled.balanced id _, filled.roomy⟩

end Layer

end CodexNos.Messaging
