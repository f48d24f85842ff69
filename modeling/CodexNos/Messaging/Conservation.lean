import CodexNos.Messaging.Threads

/-!
# References are conserved

In every run of the messaging layer the reference count of a buffer is the number of the places that
hold it, as long as this number fits into the count.
-/

namespace CodexNos.Messaging

open Lib Lib.Transition Memory Ipc

namespace Layer

variable {before after : Layer} {id : BufferId} {thread : Nat}

/-! ## Runs -/

/-- The buffer that a step may retain. -/
def retainTarget (layer : Layer) : LayerOp → Option BufferId
  | .retain _ id | .send _ id _ _ => some id
  | .sendReply thread =>
      (layer.inFrame thread).bind fun
        | (_, .replying _ id, _) => some id
        | _ => none
  | .deliverSend thread _ _ =>
      (layer.inFrame thread).bind fun
        | (_, .delivering id _, _) => some id
        | _ => none
  | _ => none

/-- A step leaves the number of references to a buffer that it retains below the range of the
count. -/
def FewReferences (layer : Layer) (op : LayerOp) : Prop :=
  ∀ id ∈ layer.retainTarget op, layer.references.count id + 1 < 2 ^ 32

instance (layer : Layer) (op : LayerOp) : Decidable (layer.FewReferences op) := by
  unfold FewReferences
  infer_instance

/-- A thread changes what it holds by a move between its function and its caller. -/
theorem Kept.sameBuffers (kept : before.Kept) {actor actor' : Actor}
    (found : before.actors[thread]? = some actor)
    (same : ∀ other, actor'.buffers.count other = actor.buffers.count other) :
    (before.setActor thread actor').Kept := by
  refine ⟨kept.balanced.moved rfl rfl ?_, kept.roomy⟩
  intro other
  have changed := count_setActor _ found actor' other
  have := same other
  omega

/-- A caller or a function of the layer gives back a reference. -/
theorem Kept.released (kept : before.Kept) {actor actor' : Actor}
    (found : before.actors[thread]? = some actor) (idle : before.releasing thread = none)
    (fewer : ∀ other, actor.buffers.count other = (id :: actor'.buffers).count other) :
    ((before.setActor thread actor').decrement thread id).Kept := by
  refine kept.decrement kept.roomy rfl rfl idle ?_
  intro other
  have changed := count_setActor _ found actor' other
  have fewer := fewer other
  rw [List.count_cons] at fewer ⊢
  omega

theorem count_held_cons (actor : Actor) (id other : BufferId) :
    ({ actor with held := id :: actor.held } : Actor).buffers.count other =
      (id :: actor.buffers).count other := by
  simp only [Actor.buffers, Actor.working, List.count_append, List.count_cons]
  omega

theorem count_held_erase {actor : Actor} (present : id ∈ actor.held) (other : BufferId) :
    actor.buffers.count other =
      (id :: ({ actor with held := actor.held.erase id } : Actor).buffers).count other := by
  have same := (List.perm_cons_erase present).count_eq other
  simp only [Actor.buffers, Actor.working, List.count_append, List.count_cons] at same ⊢
  omega

/-- A step that keeps the number of references in range keeps the balance. -/
theorem Kept.step {op : LayerOp} (kept : before.Kept) (ready : before.Ready)
    (few : before.FewReferences op) (stepped : before.step op = some after) : after.Kept := by
  cases op with
  | configure tables =>
      obtain rfl := Option.some.inj stepped
      exact ⟨kept.balanced, kept.roomy⟩
  | alloc thread size headroom =>
      obtain ⟨actor, found, -, -, made⟩ := cases_of_call stepped
      split at made
      · obtain rfl := Option.some.inj made
        exact kept
      · rename_i pool id alloc
        obtain rfl := Option.some.inj made
        exact kept.allocated alloc found _ (count_held_cons actor id) before.headers
  | retain thread id =>
      obtain ⟨actor, found, -, usable, made⟩ := cases_of_call stepped
      obtain rfl := Option.some.inj made
      refine ⟨kept.balanced.retained (mem_references_of_has found usable) (few id rfl) rfl rfl ?_,
        kept.roomy⟩
      intro other
      have changed := count_setActor _ found { actor with held := id :: actor.held } other
      rw [count_held_cons, List.count_cons] at changed
      rw [List.count_cons]
      change (before.setActor thread { actor with held := id :: actor.held }).references.count
        other = _
      omega
  | release thread id =>
      obtain ⟨actor, found, idle, present, made⟩ := cases_of_call stepped
      obtain rfl := Option.some.inj made
      exact kept.released found idle (count_held_erase (by simpa using present))
  | give thread receiver id =>
      obtain ⟨actor, found, -, present, made⟩ := cases_of_call stepped
      obtain ⟨taker, taker_found, rfl⟩ := Option.map_eq_some_iff.mp made
      refine ⟨kept.balanced.moved rfl rfl ?_, kept.roomy⟩
      intro other
      have given := count_setActor _ found { actor with held := actor.held.erase id } other
      have taken := count_setActor _ taker_found { taker with held := id :: taker.held } other
      rw [count_held_erase (by simpa using present), List.count_cons] at given
      rw [count_held_cons, List.count_cons] at taken
      change ((before.setActor thread { actor with held := actor.held.erase id }).setActor receiver
        { taker with held := id :: taker.held }).references.count other = _
      omega
  | write thread id header =>
      obtain ⟨actor, -, -, -, made⟩ := cases_of_call stepped
      obtain rfl := Option.some.inj made
      exact ⟨kept.balanced, kept.roomy⟩
  | send thread id now outcome =>
      obtain ⟨actor, found, -, usable, made⟩ := cases_of_call stepped
      obtain ⟨⟨_, status⟩, sent, rfl⟩ := Option.map_eq_some_iff.mp made
      exact kept.serviceMsgSend (mem_references_of_has found usable) (few id rfl) sent
  | reply thread ctx id =>
      obtain ⟨actor, found, -, -, made⟩ := cases_of_call stepped
      split at made
      · obtain rfl := Option.some.inj made
        exact kept
      · obtain ⟨entry, -, rfl⟩ := Option.map_eq_some_iff.mp made
        have kept' : (before.serviceReply entry id).Kept := ⟨kept.balanced, kept.roomy⟩
        exact kept'.sameBuffers found fun other => by
          simp [count_buffers_push, Frame.buffers]
  | sendReply thread =>
      obtain ⟨actor, ctx, id, rest, status, found, entered, frames, sent⟩ :=
        cases_of_sendReply stepped
      have left := kept.leave before found frames rfl rfl rfl kept.roomy fun _ => rfl
      have usable := (ready actor (List.mem_of_getElem? found)).has_of_frames frames
      have present : id ∈ (before.setActor thread { actor with frames := rest }).references :=
        mem_references_of_has (getElem?_setActor found _) usable
      refine left.sendReply present ?_ sent
      have changed := count_setActor before found { actor with frames := rest } id
      rw [count_buffers_of_frames frames, Frame.buffers] at changed
      simp only [Actor.buffers, Actor.working, List.count_append, List.count_nil] at changed
      have room := few id (by simp [retainTarget, entered])
      omega
  | retainCtx ctx =>
      obtain ⟨entry, -, rfl⟩ := Option.map_eq_some_iff.mp stepped
      exact ⟨kept.balanced, kept.roomy⟩
  | releaseCtx ctx =>
      simp only [Layer.step, Option.ite_none_right_eq_some, Option.some.injEq] at stepped
      obtain ⟨-, rfl⟩ := stepped
      exact ⟨kept.balanced, kept.roomy⟩
  | processTx thread index =>
      obtain rfl | ⟨actor, found, -, rfl⟩ := cases_of_processTx stepped
      · exact kept
      · exact kept.sameBuffers found fun other => by simp [count_buffers_push, Frame.buffers]
  | txRound thread written sent =>
      obtain ⟨⟨actor, frame, rest⟩, entered, made⟩ := Option.bind_eq_some_iff.mp stepped
      obtain ⟨found, idle, frames⟩ := cases_of_inFrame entered
      cases frame with
      | transmitting index => exact kept.txRound found idle frames made
      | _ => cases made
  | dequeue thread index =>
      obtain ⟨actor, found, -, -, made⟩ := cases_of_call stepped
      obtain ⟨queue, opened, made⟩ := Option.bind_eq_some_iff.mp made
      obtain ⟨⟨posted, ring⟩, popped, rfl⟩ := Option.map_eq_some_iff.mp made
      obtain ⟨queue_found, -⟩ := cases_of_openQueue opened
      refine ⟨kept.balanced.moved rfl rfl ?_, kept.roomy.setQueue_pop queue_found popped⟩
      intro other
      have taken := count_setQueue queue_found { queue with ring := ring } other
      have pushed := count_setActor (before.setQueue index { queue with ring := ring })
        found (actor.push (.dequeued posted)) other
      rw [buffers_of_pop? popped, List.count_cons] at taken
      rw [count_buffers_push, Frame.buffers, List.count_singleton] at pushed
      dsimp only
      omega
  | dispatch thread =>
      obtain ⟨⟨actor, frame, rest⟩, entered, made⟩ := Option.bind_eq_some_iff.mp stepped
      obtain ⟨found, -, frames⟩ := cases_of_inFrame entered
      cases frame with
      | dequeued posted =>
          have same : ∀ frame : Frame, frame.buffers = [posted.buffer] →
              (before.setActor thread { actor with frames := frame :: rest }).Kept := by
            intro frame holds
            refine kept.sameBuffers found fun other => ?_
            rw [count_buffers_of_frames frames, count_buffers_of_frames rfl, holds]
            rfl
          simp only at made
          split at made
          · obtain rfl := Option.some.inj made
            exact same _ rfl
          · obtain rfl := Option.some.inj made
            exact same _ rfl
      | _ => cases made
  | returned thread =>
      obtain ⟨⟨actor, frame, rest⟩, entered, made⟩ := Option.bind_eq_some_iff.mp stepped
      obtain ⟨found, -, frames⟩ := cases_of_inFrame entered
      cases frame with
      | onMsg posted comp =>
          obtain rfl := Option.some.inj made
          refine kept.sameBuffers found fun other => ?_
          rw [count_buffers_of_frames frames, count_buffers_of_frames rfl]
          rfl
      | _ => cases made
  | finish thread =>
      obtain ⟨⟨actor, frame, rest⟩, entered, made⟩ := Option.bind_eq_some_iff.mp stepped
      obtain ⟨found, idle, frames⟩ := cases_of_inFrame entered
      have fewer : ∀ id, frame.buffers = [id] → ∀ other, actor.buffers.count other =
          (id :: ({ actor with frames := rest } : Actor).buffers).count other := by
        intro id holds other
        rw [count_buffers_of_frames frames, holds]
        simp only [Actor.buffers, Actor.working, List.count_append, List.count_cons, List.count_nil]
        omega
      cases frame with
      | dispatched posted =>
          obtain rfl := Option.some.inj made
          exact kept.released found idle (fewer _ rfl)
      | received id =>
          obtain rfl := Option.some.inj made
          exact kept.released found idle (fewer _ rfl)
      | delivered id =>
          obtain rfl := Option.some.inj made
          exact kept.released found idle (fewer _ rfl)
      | _ => cases made
  | receive thread size header =>
      obtain ⟨actor, found, -, -, made⟩ := cases_of_call stepped
      split at made
      · obtain rfl := Option.some.inj made
        exact kept
      · rename_i pool id alloc
        obtain rfl := Option.some.inj made
        refine kept.allocated alloc found _ ?_ _
        intro other
        rw [count_buffers_push, List.count_cons, Frame.buffers, List.count_singleton]
        omega
  | deliver thread conn arrival len ctx =>
      obtain ⟨⟨actor, frame, rest⟩, entered, made⟩ := Option.bind_eq_some_iff.mp stepped
      obtain ⟨found, -, -⟩ := cases_of_inFrame entered
      cases frame with
      | received id => exact kept.deliver found made
      | _ => cases made
  | deliverSend thread now outcome =>
      obtain ⟨⟨actor, frame, rest⟩, entered, made⟩ := Option.bind_eq_some_iff.mp stepped
      obtain ⟨found, -, frames⟩ := cases_of_inFrame entered
      cases frame with
      | delivering id arrival =>
          obtain ⟨⟨sent, status⟩, sends, rfl⟩ := Option.map_eq_some_iff.mp made
          have present := mem_references_of_frame found frames (List.mem_singleton_self id)
          have room := few id (by simp [retainTarget, entered])
          have same := sameThreads_serviceMsgSend sends
          have kept' := kept.serviceMsgSend present room sends
          refine kept'.sameBuffers (same.actors ▸ found) fun other => ?_
          rw [count_buffers_of_frames frames, count_buffers_of_frames rfl]
          rfl
      | _ => cases made
  | startPurge thread index provider allocated =>
      obtain ⟨actor, found, -, -, made⟩ := cases_of_call stepped
      obtain ⟨queue, opened, rfl⟩ := Option.map_eq_some_iff.mp made
      obtain ⟨queue_found, no_purge⟩ := cases_of_openQueue opened
      cases allocated with
      | false => exact kept
      | true =>
          have empty : emptyKept.contents = [] := Ring.contents_empty _ _
          constructor
          · refine kept.balanced.moved rfl rfl ?_
            intro other
            let purging : MsgQueue := { queue with purge := some ⟨provider, emptyKept⟩ }
            have taken := count_setQueue queue_found purging other
            have pushed := count_setActor (before.setQueue index purging)
              found (actor.push (.purging index)) other
            have same : purging.buffers = queue.buffers := by
              simp [purging, MsgQueue.buffers, MsgQueue.posted, no_purge, empty]
            rw [same] at taken
            rw [count_buffers_push, Frame.buffers, List.count_nil] at pushed
            change ((before.setQueue index purging).setActor thread
              (actor.push (.purging index))).references.count other = _
            omega
          · apply kept.roomy.setQueue
            intro purge same
            obtain rfl : (⟨provider, emptyKept⟩ : Purge) = purge := Option.some.inj same
            rw [empty, Ring.length_contents]
            exact queue.ring.length_lt
  | purgeRound thread =>
      obtain ⟨⟨actor, frame, rest⟩, entered, made⟩ := Option.bind_eq_some_iff.mp stepped
      obtain ⟨found, idle, frames⟩ := cases_of_inFrame entered
      cases frame with
      | purging index =>
          obtain ⟨queue, queue_found, made⟩ := Option.bind_eq_some_iff.mp made
          obtain ⟨purge, purging, rfl⟩ := Option.map_eq_some_iff.mp made
          exact kept.purgeRound found idle frames queue_found purging
      | _ => cases made
  | discard thread index =>
      obtain ⟨actor, found, idle, -, made⟩ := cases_of_call stepped
      obtain ⟨queue, opened, rfl⟩ := Option.map_eq_some_iff.mp made
      obtain ⟨queue_found, no_purge⟩ := cases_of_openQueue opened
      split
      · constructor
        · refine kept.balanced.moved rfl rfl ?_
          intro other
          have changed := count_setQueue queue_found { queue with freed := true } other
          change _ + queue.buffers.count other = _ + queue.buffers.count other at changed
          omega
        · exact kept.roomy.setQueue (by simp [no_purge])
      · rename_i posted ring popped
        exact kept.discarded idle queue_found popped
  | accept fd =>
      obtain rfl := Option.some.inj stepped
      refine ⟨kept.balanced.moved rfl rfl ?_, kept.roomy⟩
      intro other
      have empty : txBuffers (.passive emptyTx fd) = [] := by
        simp [txBuffers, Conn.passive, emptyTx]
      unfold references ConnPool.createPassive
      split
      · rfl
      · simp [empty]
  | disconnect index =>
      obtain rfl := Option.some.inj stepped
      refine ⟨kept.balanced.moved rfl rfl ?_, kept.roomy⟩
      intro other
      cases found : before.conns.conns[index]? with
      | none =>
          simp only [references, ConnPool.markDisconnected, List.modify_eq_set_getElem?, found]
          rfl
      | some conn =>
          have changed := count_setConn found conn.markDisconnected other
          have same : txBuffers conn.markDisconnected = txBuffers conn := rfl
          rw [same] at changed
          simp only [ConnPool.markDisconnected, List.modify_eq_set_getElem?, found]
          change ({ before with conns := ⟨before.conns.conns.set index conn.markDisconnected⟩ } :
            Layer).references.count other = _
          omega
  | setup index peerNode shmName opened =>
      obtain ⟨conn, found, rfl⟩ := Option.map_eq_some_iff.mp stepped
      refine ⟨kept.balanced.moved rfl rfl ?_, kept.roomy⟩
      intro other
      have changed := count_setConn found (conn.handleSetup peerNode shmName opened) other
      have same : txBuffers (conn.handleSetup peerNode shmName opened) = txBuffers conn := rfl
      rw [same] at changed
      omega
  | putBack thread =>
      obtain ⟨id, returns, rfl⟩ := Option.map_eq_some_iff.mp stepped
      exact kept.putBack returns

theorem kept_of_initial {config : List PoolDef} {layer : Layer} (initial : layer.Initial config) :
    layer.Kept := by
  have no_references : layer.references = [] := by
    have queues : layer.queues.flatMap MsgQueue.buffers = [] := by
      rw [List.flatMap_eq_nil_iff]
      intro queue present
      obtain ⟨empty, no_purge⟩ := initial.queues queue present
      simp [MsgQueue.buffers, MsgQueue.posted, empty, no_purge]
    have actors : layer.actors.flatMap Actor.buffers = [] := by
      rw [List.flatMap_eq_nil_iff]
      intro actor present
      rw [initial.actors actor present]
      rfl
    simp [references, queues, actors, initial.conns]
  constructor
  · have fresh : (⟨layer.pool, layer.releasing, []⟩ : PoolSystem Nat).Initial config :=
      ⟨initial.pool, initial.releasing, rfl⟩
    unfold Balanced
    rw [no_references]
    exact PoolSystem.kept_of_initial fresh
  · intro queue present purge purging
    rw [(initial.queues queue present).2] at purging
    cases purging

/-- The references to a buffer. -/
def occurrences (layer : Layer) (id : BufferId) : Nat :=
  layer.inMsgQueues id + layer.inTxQueues id + layer.inWork id + layer.heldByCallers id

/-- No reference is lost, none is given back twice. -/
structure Conserved (layer : Layer) : Prop where
  /-- The reference count is the number of places that hold the buffer. -/
  refCnt : ∀ id, layer.pool.Valid id →
    (layer.pool.buffer id).refCnt.toNat = layer.occurrences id
  /-- A buffer that some place holds is neither free nor on its way back. -/
  inUse : ∀ id, layer.occurrences id ≠ 0 →
    layer.pool.Valid id ∧ ¬ layer.pool.Free id ∧ ∀ thread, layer.releasing thread ≠ some id
  /-- A buffer that no place holds is free or on its way back. -/
  reclaimed : ∀ id, layer.pool.Valid id → layer.occurrences id = 0 →
    layer.pool.Free id ∨ ∃ thread, layer.releasing thread = some id

theorem Kept.conserved {layer : Layer} (kept : layer.Kept) : layer.Conserved where
  refCnt := by
    intro id valid
    have fits := kept.balanced.fits id
    rw [kept.balanced.refCnt id valid, BitVec.toNat_ofNat, Nat.mod_eq_of_lt fits, count_references]
    rfl
  inUse := by
    intro id some_left
    have present : id ∈ layer.references := by
      rw [← List.count_pos_iff, count_references]
      exact Nat.pos_of_ne_zero some_left
    have valid := kept.balanced.referenced id present
    refine ⟨valid, fun free => ((kept.balanced.free id valid).mp free).1 present, ?_⟩
    exact fun thread returns => (kept.balanced.returning thread id returns).2 present
  reclaimed := by
    intro id valid none_left
    have missing : id ∉ layer.references := by
      rw [← List.count_eq_zero, count_references]
      exact none_left
    by_contra lost
    rw [not_or, not_exists] at lost
    exact lost.1 ((kept.balanced.free id valid).mpr ⟨missing, lost.2⟩)

/-- As long as no buffer gets as many references as its count can hold, references are conserved in
every reachable state of the layer. -/
theorem conserved_of_reach {config : List PoolDef} {layer : Layer}
    (reach : Reach Layer.step FewReferences (Initial config) layer) : layer.Conserved := by
  have sound : layer.Kept ∧ layer.Ready :=
    Reach.invariant (fun layer => layer.Kept ∧ layer.Ready)
      (fun _ initial => ⟨kept_of_initial initial, ready_of_initial initial⟩)
      (fun _ _ _ sound few stepped => ⟨sound.1.step sound.2 few stepped, sound.2.step stepped⟩)
      reach
  exact sound.1.conserved

/-- A node without components. -/
def noTables : Tables := ⟨[], [], fun _ => ⟨0, .loaded, false⟩, none⟩

/-- A node that provides one service on its first thread. -/
def oneService : Tables :=
  ⟨[⟨7, some 0, some 0, "", "", false⟩], [⟨some 0, some 0⟩], fun _ => ⟨1, .active, true⟩, none⟩

/-- A request for the service. -/
def oneRequest : Header := ⟨0x4E4F, 1, 7, 2, 0, 0, 5, 1, 0⟩

/-- A request in the queue of its provider while its sender keeps a reference. -/
theorem queued_request_conserved :
    ∃ layer : Layer, layer.Conserved ∧ layer.inMsgQueues ⟨0, 1⟩ = 1 ∧
      layer.heldByCallers ⟨0, 1⟩ = 1 ∧ (layer.pool.buffer ⟨0, 1⟩).refCnt = 2 := by
  have execution :
      (runGuarded Layer.step FewReferences (fresh PoolSystem.twoChunks oneService oneRequest 2)
          [.alloc 1 32 0, .write 1 ⟨0, 1⟩ oneRequest, .send 1 ⟨0, 1⟩ 0 (.failed 0)]).map
        (fun layer => (layer.inMsgQueues ⟨0, 1⟩, layer.heldByCallers ⟨0, 1⟩,
          (layer.pool.buffer ⟨0, 1⟩).refCnt)) = some (1, 1, 2) := by
    decide +kernel
  obtain ⟨layer, ran, view⟩ := Option.map_eq_some_iff.mp execution
  obtain ⟨queued, view⟩ := Prod.mk.inj view
  obtain ⟨held, refCnt⟩ := Prod.mk.inj view
  have reach : Reach Layer.step FewReferences (Initial PoolSystem.twoChunks) layer :=
    reach_of_runGuarded (.start (fresh_initial _ _ _ (by decide))) ran
  exact ⟨layer, conserved_of_reach reach, queued, held, refCnt⟩

theorem run_retain (count held : Nat) (before : Layer) (id : BufferId)
    (idle : before.releasing 0 = none)
    (actors : before.actors = [⟨[], List.replicate (held + 1) id⟩]) :
    ∃ after, run Layer.step before (List.replicate count (.retain 0 id)) = some after ∧
      after.actors = [⟨[], List.replicate (held + count + 1) id⟩] ∧
      (after.pool.buffer id).refCnt = (before.pool.buffer id).refCnt + BitVec.ofNat 32 count ∧
      (after.pool.Valid id ↔ before.pool.Valid id) := by
  induction count generalizing before held with
  | zero => exact ⟨before, rfl, actors, by simp, Iff.rfl⟩
  | succ count ih =>
      let next : Layer :=
        { before with
          pool := before.pool.retain id
          actors := [⟨[], List.replicate (held + 1 + 1) id⟩] }
      have stepped : before.step (.retain 0 id) = some next := by
        have usable : (⟨[], List.replicate (held + 1) id⟩ : Actor).has id = true := by
          simp [Actor.has]
        have found : before.actors[0]? = some ⟨[], List.replicate (held + 1) id⟩ := by simp [actors]
        rw [Layer.step, call_eq found idle rfl usable]
        simp [setActor, next, actors, List.replicate_succ]
      obtain ⟨after, ran, actors', refCnt, valid⟩ := ih (held + 1) next idle rfl
      refine ⟨after, ?_, ?_, ?_, ?_⟩
      · rw [List.replicate_succ, run_cons, stepped]
        exact ran
      · rw [actors']
        congr 3
        omega
      · rw [refCnt]
        simp only [next, Pool.retain, Pool.setRefCnt_refCnt, if_true]
        rw [BitVec.add_assoc, BitVec.ofNat_add, BitVec.add_comm 1]
        rfl
      · simpa [next, Pool.retain] using valid

/-- The count of a buffer that a caller retains often enough reads zero. -/
theorem retained_count_wraps :
    ∃ layer : Layer, Reachable Layer.step (Initial PoolSystem.twoChunks) layer ∧
      layer.pool.Valid ⟨0, 1⟩ ∧ (layer.pool.buffer ⟨0, 1⟩).refCnt = 0 ∧
      2 ^ 32 ≤ layer.occurrences ⟨0, 1⟩ ∧ ¬ layer.Conserved := by
  let start : Layer := fresh PoolSystem.twoChunks noTables oneRequest 1
  let first : Layer :=
    { start with
      pool := (start.pool.alloc 32 0).1
      actors := [⟨[], [⟨0, 1⟩]⟩] }
  have allocated : start.step (.alloc 0 32 0) = some first := rfl
  obtain ⟨layer, ran, actors, refCnt, valid⟩ := run_retain (2 ^ 32 - 1) 0 first ⟨0, 1⟩ rfl rfl
  have reach : Reachable Layer.step (Initial PoolSystem.twoChunks) layer :=
    reachable_of_run (.step (.start (fresh_initial _ _ _ (by decide))) trivial allocated) ran
  have valid' : layer.pool.Valid ⟨0, 1⟩ := valid.mpr (by decide)
  have zero : (layer.pool.buffer ⟨0, 1⟩).refCnt = 0 := by
    rw [refCnt]
    decide
  have many : 2 ^ 32 ≤ layer.occurrences ⟨0, 1⟩ := by
    have held : layer.heldByCallers ⟨0, 1⟩ = 2 ^ 32 := by
      rw [heldByCallers, actors, List.flatMap_singleton, List.count_replicate_self]
      omega
    unfold occurrences
    omega
  refine ⟨layer, reach, valid', zero, many, ?_⟩
  intro conserved
  have counted := conserved.refCnt _ valid'
  rw [zero] at counted
  have : (0 : BitVec 32).toNat = 0 := rfl
  omega

end Layer

end CodexNos.Messaging
