import CodexNos.Messaging.Conservation

/-!
# Replies carry the correlation of their request

A reply context remembers the sequence number and the sender of the request it was made for, and
`nos_service_reply` writes both into the reply.  A reply shares its buffer with whoever else holds
it until it is transmitted, so it keeps what was written as long as nobody writes into the buffer.
-/

namespace CodexNos.Messaging

open Lib Lib.Transition Memory Ipc

/-- The header is that of a reply to the request. -/
structure Answers (header : Header) (request : Arrival) : Prop where
  reply : header.flags &&& replyFlag ≠ 0
  seq : header.seq = request.header.seq
  requester : header.dstComponent = request.header.srcComponent

/-- The context belongs to its request. -/
structure ReplyCtx.Faithful (ctx : ReplyCtx) : Prop where
  corrId : ctx.corrId = ctx.request.header.seq
  requester : ctx.requesterComponent = ctx.request.header.srcComponent

theorem ReplyCtx.Faithful.answers {ctx : ReplyCtx} (faithful : ctx.Faithful) (header : Header) :
    Answers (header.asReply ctx.corrId ctx.requesterComponent) ctx.request where
  reply := by
    rw [Header.flags_asReply]
    decide
  seq := faithful.corrId
  requester := faithful.requester

namespace Layer

/-- No accepted reply waits in the buffer for its transmission. -/
def NoReplyIn (layer : Layer) (id : BufferId) : Prop :=
  ∀ conn ∈ layer.conns.conns, ∀ item ∈ conn.txQueue.contents, item.buffer = id → item.answers = none

/-- No thread is in `nos_service_reply` with the buffer. -/
def NoReplyWith (layer : Layer) (id : BufferId) : Prop :=
  ∀ actor ∈ layer.actors, ∀ frame ∈ actor.frames, frame.replyBuffer ≠ some id

/-- A component does not write into a buffer in which an accepted reply waits, or with which another
thread is in `nos_service_reply`. -/
def KeepsReplies (layer : Layer) (op : LayerOp) : Prop :=
  ∀ id ∈ writeTarget op, layer.NoReplyIn id ∧ layer.NoReplyWith id

instance (layer : Layer) (op : LayerOp) : Decidable (layer.KeepsReplies op) := by
  unfold KeepsReplies NoReplyIn NoReplyWith
  infer_instance

/-- A claim about every message of a list that was accepted as a reply. -/
def AllAnswer (headers : BufferId → Header) (genuine : Arrival → Prop) (items : List Outgoing) :
    Prop :=
  ∀ item ∈ items, ∀ request, item.answers = some request →
    Answers (headers item.buffer) request ∧ genuine request

/-- Contexts, waiting replies and transmitted replies belong to genuine requests. -/
structure Answering (genuine : Arrival → Prop) (layer : Layer) : Prop where
  contexts : ∀ ctx entry, layer.contexts ctx = some entry → entry.Faithful ∧ genuine entry.request
  queued : ∀ conn ∈ layer.conns.conns, AllAnswer layer.headers genuine conn.txQueue.contents
  transmitted : ∀ parcel ∈ layer.transmitted, ∀ request, parcel.answers = some request →
    Answers parcel.header request ∧ genuine request

variable {before after : Layer} {id : BufferId} {status : Status} {genuine : Arrival → Prop}

theorem Answering.mono (answering : before.Answering genuine) {genuine' : Arrival → Prop}
    (wider : ∀ request, genuine request → genuine' request) : before.Answering genuine' where
  contexts := fun ctx entry present =>
    (answering.contexts ctx entry present).imp_right (wider _)
  queued := fun conn present item inside request answers =>
    (answering.queued conn present item inside request answers).imp_right (wider _)
  transmitted := fun parcel present request answers =>
    (answering.transmitted parcel present request answers).imp_right (wider _)

/-- The replies in progress belong to genuine requests. -/
def Promised (genuine : Arrival → Prop) (layer : Layer) : Prop :=
  ∀ actor ∈ layer.actors, ∀ ctx id, .replying ctx id ∈ actor.frames →
    Answers (layer.headers id) ctx.request ∧ genuine ctx.request

theorem Promised.mono (promised : before.Promised genuine) {genuine' : Arrival → Prop}
    (wider : ∀ request, genuine request → genuine' request) : before.Promised genuine' :=
  fun actor present ctx id inside => (promised actor present ctx id inside).imp_right (wider _)

/-- What moving messages inside the node leaves alone. -/
structure SameReplies (before after : Layer) : Prop where
  contexts : after.contexts = before.contexts
  conns : after.conns = before.conns
  headers : after.headers = before.headers
  transmitted : after.transmitted = before.transmitted

theorem SameReplies.refl (layer : Layer) : SameReplies layer layer := ⟨rfl, rfl, rfl, rfl⟩

theorem Answering.same (answering : before.Answering genuine) (same : SameReplies before after) :
    after.Answering genuine where
  contexts := by
    rw [same.contexts]
    exact answering.contexts
  queued := by
    rw [same.conns, same.headers]
    exact answering.queued
  transmitted := by
    rw [same.transmitted]
    exact answering.transmitted

/-! ## Connections -/

theorem queued_set {conns : List (Conn Outgoing)} {headers : BufferId → Header}
    (queued : ∀ conn ∈ conns, AllAnswer headers genuine conn.txQueue.contents) {index : Nat}
    {conn' : Conn Outgoing} (answer : AllAnswer headers genuine conn'.txQueue.contents) :
    ∀ conn ∈ conns.set index conn', AllAnswer headers genuine conn.txQueue.contents := by
  intro conn present
  rcases List.mem_or_eq_of_mem_set present with present | rfl
  · exact queued conn present
  · exact answer

/-- The contents of the queue after a call that may put an item into it. -/
theorem allAnswer_of_queued {headers : BufferId → Header} {conn conn' : Conn Outgoing}
    {item : Outgoing} (answer : AllAnswer headers genuine conn.txQueue.contents)
    (queued : conn.Queued conn' item status) (new : AllAnswer headers genuine [item]) :
    AllAnswer headers genuine conn'.txQueue.contents := by
  by_cases ok : status = .ok
  · rw [queued.accepted ok]
    intro other present
    rcases List.mem_append.mp present with present | present
    · exact answer other present
    · exact new other present
  · rw [queued.refused ok]
    exact answer

theorem allAnswer_request (headers : BufferId → Header) (id : BufferId) :
    AllAnswer headers genuine [⟨id, none⟩] := by
  intro item present request answers
  obtain rfl := List.mem_singleton.mp present
  cases answers

theorem Answering.sendEnqueue (answering : before.Answering genuine) {nodeName udsPath : CStr}
    {now : Nat} {outcome : ConnectOutcome} :
    (before.sendEnqueue ⟨id, none⟩ nodeName udsPath now outcome).1.Answering genuine := by
  obtain same | ⟨_, index, conn, localNode, rfl, conn_found, same⟩ :=
    cases_of_sendEnqueue before ⟨id, none⟩ nodeName udsPath now outcome
  · rw [same]
    exact answering
  · have created : ∀ conn ∈ (before.conns.getOrCreate emptyTx (some nodeName) udsPath).1.conns,
        AllAnswer before.headers genuine conn.txQueue.contents := by
      unfold ConnPool.getOrCreate
      split
      · exact answering.queued
      · split
        · exact answering.queued
        · intro conn present
          rcases List.mem_append.mp present with present | present
          · exact answering.queued conn present
          · obtain rfl := List.mem_singleton.mp present
            have empty : emptyTx.contents = [] := Ring.contents_empty _ _
            simp [AllAnswer, Conn.outgoing, empty]
    rw [same]
    refine ⟨answering.contexts, ?_, answering.transmitted⟩
    exact queued_set created (allAnswer_of_queued (created _ (List.mem_of_getElem? conn_found))
      (Conn.sendEnqueue_queued ..) (allAnswer_request _ id))

theorem sameReplies_localSend {posted : Posted} {target : Option ThreadRef}
    (sent : before.localSend posted target = some (after, status)) : SameReplies before after := by
  obtain rfl | ⟨index, queue, ring, -, -, -, rfl⟩ := cases_of_localSend sent
  · exact .refl _
  · exact ⟨rfl, rfl, rfl, rfl⟩

theorem Answering.serviceMsgSend (answering : before.Answering genuine) {arrival : Option Arrival}
    {now : Nat} {outcome : ConnectOutcome}
    (sent : before.serviceMsgSend id arrival now outcome = some (after, status)) :
    after.Answering genuine := by
  obtain rfl | ⟨target, sent⟩ | ⟨nodeName, udsPath, rfl⟩ := cases_of_serviceMsgSend sent
  · exact answering
  · exact answering.same (sameReplies_localSend sent)
  · exact answering.sendEnqueue

/-- Writing into a buffer in which no reply waits changes no waiting reply. -/
theorem queued_update (answering : before.Answering genuine) (unused : before.NoReplyIn id)
    (header : Header) :
    ∀ conn ∈ before.conns.conns,
      AllAnswer (Function.update before.headers id header) genuine conn.txQueue.contents := by
  intro conn present item inside request answers
  have distinct : item.buffer ≠ id := by
    intro same
    rw [unused conn present item inside same] at answers
    cases answers
  rw [Function.update_of_ne distinct]
  exact answering.queued conn present item inside request answers

theorem Answering.serviceReply (answering : before.Answering genuine) (ctx : ReplyCtx)
    (unused : before.NoReplyIn id) : (before.serviceReply ctx id).Answering genuine :=
  ⟨answering.contexts, queued_update answering unused _, answering.transmitted⟩

theorem Answering.sendReply (answering : before.Answering genuine) {ctx : ReplyCtx}
    (promised : Answers (before.headers id) ctx.request ∧ genuine ctx.request)
    (sent : before.sendReply ctx id = some (after, status)) : after.Answering genuine := by
  obtain ⟨conn, found, same⟩ := Option.map_eq_some_iff.mp sent
  obtain ⟨rfl, -⟩ := Prod.mk.inj same
  have new : AllAnswer before.headers genuine [⟨id, some ctx.request⟩] := by
    intro item present request answers
    obtain rfl := List.mem_singleton.mp present
    obtain rfl : ctx.request = request := Option.some.inj answers
    exact promised
  refine ⟨answering.contexts, ?_, answering.transmitted⟩
  exact queued_set answering.queued
    (allAnswer_of_queued (answering.queued conn (List.mem_of_getElem? found))
      (Conn.sendReply_queued ..) new)

theorem Answering.txRound (answering : before.Answering genuine) {thread index : Nat} {left : Actor}
    {written : Bool} {sent : SendResult}
    (made : before.txRound thread index left written sent = some after) :
    after.Answering genuine := by
  obtain rfl | ⟨conn, conn', found, same, rfl⟩ | ⟨conn, conn', item, found, contents, rfl⟩ :=
    cases_of_txRound made
  · exact answering.same ⟨rfl, rfl, rfl, rfl⟩
  · have answer := answering.queued conn (List.mem_of_getElem? found)
    refine ⟨answering.contexts, ?_, answering.transmitted⟩
    exact queued_set answering.queued (by rw [same]; exact answer)
  · have answer := answering.queued conn (List.mem_of_getElem? found)
    rw [contents] at answer
    refine ⟨answering.contexts, ?_, ?_⟩
    · exact queued_set answering.queued fun other present =>
        answer other (List.mem_cons_of_mem _ present)
    · intro parcel present request answers
      rcases List.mem_append.mp present with present | present
      · exact answering.transmitted parcel present request answers
      · obtain rfl := List.mem_singleton.mp present
        exact answer item List.mem_cons_self request answers

/-! ## Steps -/

theorem noReplyIn_of_not_mem (missing : id ∉ before.references) : before.NoReplyIn id := by
  intro conn present item inside same
  refine absurd ?_ missing
  refine List.mem_append_left _ (List.mem_append_right _ ?_)
  exact List.mem_flatMap.mpr ⟨conn, present, List.mem_map.mpr ⟨item, inside, same⟩⟩

theorem Answering.releaseCtx (answering : before.Answering genuine) (ctx : Nat) :
    (before.releaseCtx ctx).Answering genuine := by
  refine ⟨?_, answering.queued, answering.transmitted⟩
  intro other entry present
  by_cases same : other = ctx
  · subst same
    simp only [Layer.releaseCtx, Function.update_self] at present
    obtain ⟨old, old_present, left⟩ := Option.bind_eq_some_iff.mp present
    obtain ⟨faithful, request⟩ := answering.contexts other old old_present
    split at left
    · cases left
    · obtain rfl := Option.some.inj left
      exact ⟨⟨faithful.corrId, faithful.requester⟩, request⟩
  · simp only [Layer.releaseCtx, Function.update_of_ne same] at present
    exact answering.contexts other entry present

theorem Answering.deliver (answering : before.Answering genuine) (kept : before.Kept) {thread : Nat}
    {actor : Actor} {conn : Option Nat} {arrival : Arrival} {len : Nat} {ctx : Option Nat}
    (arrives : genuine arrival)
    (delivered : before.deliver thread actor conn arrival len ctx = some after) :
    after.Answering genuine := by
  obtain rfl | ⟨pool, id, alloc, made⟩ := cases_of_deliver delivered
  · exact answering
  · have queued := queued_update answering (noReplyIn_of_not_mem (kept.fresh alloc)) arrival.header
    obtain rfl | ⟨ctx, index, target, rfl⟩ := made
    · exact ⟨answering.contexts, queued, answering.transmitted⟩
    · refine ⟨?_, queued, answering.transmitted⟩
      intro other entry present
      by_cases same : other = ctx
      · subst same
        simp only [Function.update_self, Option.some.injEq] at present
        subst present
        exact ⟨⟨rfl, rfl⟩, arrives⟩
      · simp only [Function.update_of_ne same] at present
        exact answering.contexts other entry present

theorem Answering.step {op : LayerOp} (answering : before.Answering genuine) (kept : before.Kept)
    (promised : before.Promised genuine) (keeps : before.KeepsReplies op)
    (arrives : ∀ arrival ∈ op.arrival, genuine arrival)
    (stepped : before.step op = some after) : after.Answering genuine := by
  cases op with
  | configure tables =>
      obtain rfl := Option.some.inj stepped
      exact answering.same ⟨rfl, rfl, rfl, rfl⟩
  | alloc thread size headroom =>
      obtain ⟨actor, -, -, -, made⟩ := cases_of_call stepped
      split at made
      · obtain rfl := Option.some.inj made
        exact answering
      · obtain rfl := Option.some.inj made
        exact answering.same ⟨rfl, rfl, rfl, rfl⟩
  | retain thread id =>
      obtain ⟨actor, -, -, -, made⟩ := cases_of_call stepped
      obtain rfl := Option.some.inj made
      exact answering.same ⟨rfl, rfl, rfl, rfl⟩
  | release thread id =>
      obtain ⟨actor, -, -, -, made⟩ := cases_of_call stepped
      obtain rfl := Option.some.inj made
      exact answering.same ⟨rfl, rfl, rfl, rfl⟩
  | give thread receiver id =>
      obtain ⟨actor, -, -, -, made⟩ := cases_of_call stepped
      obtain ⟨taker, -, rfl⟩ := Option.map_eq_some_iff.mp made
      exact answering.same ⟨rfl, rfl, rfl, rfl⟩
  | write thread id header =>
      obtain ⟨actor, -, -, -, made⟩ := cases_of_call stepped
      obtain rfl := Option.some.inj made
      exact ⟨answering.contexts, queued_update answering (keeps id rfl).1 header,
        answering.transmitted⟩
  | send thread id now outcome =>
      obtain ⟨actor, -, -, -, made⟩ := cases_of_call stepped
      obtain ⟨⟨_, status⟩, sent, rfl⟩ := Option.map_eq_some_iff.mp made
      exact answering.serviceMsgSend sent
  | reply thread ctx id =>
      obtain ⟨actor, -, -, -, made⟩ := cases_of_call stepped
      cases ctx with
      | none =>
          obtain rfl := Option.some.inj made
          exact answering
      | some ctx =>
          obtain ⟨entry, -, rfl⟩ := Option.map_eq_some_iff.mp made
          exact (answering.serviceReply entry (keeps id rfl).1).same ⟨rfl, rfl, rfl, rfl⟩
  | sendReply thread =>
      obtain ⟨actor, ctx, id, rest, status, found, -, frames, sent⟩ := cases_of_sendReply stepped
      have left : (before.setActor thread { actor with frames := rest }).Answering genuine :=
        answering.same ⟨rfl, rfl, rfl, rfl⟩
      refine left.sendReply ?_ sent
      exact promised actor (List.mem_of_getElem? found) ctx id (by simp [frames])
  | retainCtx ctx =>
      obtain ⟨entry, present, rfl⟩ := Option.map_eq_some_iff.mp stepped
      refine ⟨?_, answering.queued, answering.transmitted⟩
      intro other entry' present'
      by_cases same : other = ctx
      · subst same
        simp only [Function.update_self, Option.some.injEq] at present'
        subst present'
        obtain ⟨faithful, request⟩ := answering.contexts other entry present
        exact ⟨⟨faithful.corrId, faithful.requester⟩, request⟩
      · simp only [Function.update_of_ne same] at present'
        exact answering.contexts other entry' present'
  | releaseCtx ctx =>
      simp only [Layer.step, Option.ite_none_right_eq_some, Option.some.injEq] at stepped
      obtain ⟨-, rfl⟩ := stepped
      exact answering.releaseCtx ctx
  | processTx thread index =>
      obtain rfl | ⟨actor, -, -, rfl⟩ := cases_of_processTx stepped
      · exact answering
      · exact answering.same ⟨rfl, rfl, rfl, rfl⟩
  | txRound thread written sent =>
      obtain ⟨⟨actor, frame, rest⟩, -, made⟩ := Option.bind_eq_some_iff.mp stepped
      cases frame with
      | transmitting index => exact answering.txRound made
      | _ => cases made
  | dequeue thread index =>
      obtain ⟨actor, -, -, -, made⟩ := cases_of_call stepped
      obtain ⟨queue, -, made⟩ := Option.bind_eq_some_iff.mp made
      obtain ⟨⟨posted, ring⟩, -, rfl⟩ := Option.map_eq_some_iff.mp made
      exact answering.same ⟨rfl, rfl, rfl, rfl⟩
  | dispatch thread =>
      obtain ⟨⟨actor, frame, rest⟩, -, made⟩ := Option.bind_eq_some_iff.mp stepped
      cases frame with
      | dequeued posted =>
          simp only at made
          split at made
          · obtain rfl := Option.some.inj made
            exact answering.same ⟨rfl, rfl, rfl, rfl⟩
          · obtain rfl := Option.some.inj made
            exact answering.same ⟨rfl, rfl, rfl, rfl⟩
      | _ => cases made
  | returned thread =>
      obtain ⟨⟨actor, frame, rest⟩, -, made⟩ := Option.bind_eq_some_iff.mp stepped
      cases frame with
      | onMsg posted comp =>
          obtain rfl := Option.some.inj made
          exact answering.same ⟨rfl, rfl, rfl, rfl⟩
      | _ => cases made
  | finish thread =>
      obtain ⟨⟨actor, frame, rest⟩, -, made⟩ := Option.bind_eq_some_iff.mp stepped
      cases frame with
      | dispatched posted | received id | delivered id =>
          obtain rfl := Option.some.inj made
          exact answering.same ⟨rfl, rfl, rfl, rfl⟩
      | _ => cases made
  | receive thread size header =>
      obtain ⟨actor, -, -, -, made⟩ := cases_of_call stepped
      split at made
      · obtain rfl := Option.some.inj made
        exact answering
      · rename_i pool id alloc
        obtain rfl := Option.some.inj made
        exact ⟨answering.contexts,
          queued_update answering (noReplyIn_of_not_mem (kept.fresh alloc)) header,
          answering.transmitted⟩
  | deliver thread conn arrival len ctx =>
      obtain ⟨⟨actor, frame, rest⟩, -, made⟩ := Option.bind_eq_some_iff.mp stepped
      cases frame with
      | received id => exact answering.deliver kept (arrives arrival rfl) made
      | _ => cases made
  | deliverSend thread now outcome =>
      obtain ⟨⟨actor, frame, rest⟩, -, made⟩ := Option.bind_eq_some_iff.mp stepped
      cases frame with
      | delivering id arrival =>
          obtain ⟨⟨sent, status⟩, sends, rfl⟩ := Option.map_eq_some_iff.mp made
          exact (answering.serviceMsgSend sends).same ⟨rfl, rfl, rfl, rfl⟩
      | _ => cases made
  | startPurge thread index provider allocated =>
      obtain ⟨actor, -, -, -, made⟩ := cases_of_call stepped
      obtain ⟨queue, -, rfl⟩ := Option.map_eq_some_iff.mp made
      cases allocated with
      | false => exact answering
      | true => exact answering.same ⟨rfl, rfl, rfl, rfl⟩
  | purgeRound thread =>
      obtain ⟨⟨actor, frame, rest⟩, -, made⟩ := Option.bind_eq_some_iff.mp stepped
      cases frame with
      | purging index =>
          obtain ⟨queue, -, made⟩ := Option.bind_eq_some_iff.mp made
          obtain ⟨purge, -, rfl⟩ := Option.map_eq_some_iff.mp made
          unfold Layer.purgeRound
          split
          · exact answering.same ⟨rfl, rfl, rfl, rfl⟩
          · split
            · exact answering.same ⟨rfl, rfl, rfl, rfl⟩
            · exact answering.same ⟨rfl, rfl, rfl, rfl⟩
      | _ => cases made
  | discard thread index =>
      obtain ⟨actor, -, -, -, made⟩ := cases_of_call stepped
      obtain ⟨queue, -, rfl⟩ := Option.map_eq_some_iff.mp made
      split
      · exact answering.same ⟨rfl, rfl, rfl, rfl⟩
      · exact answering.same ⟨rfl, rfl, rfl, rfl⟩
  | accept fd =>
      obtain rfl := Option.some.inj stepped
      refine ⟨answering.contexts, ?_, answering.transmitted⟩
      intro conn present
      simp only [ConnPool.createPassive] at present
      split at present
      · exact answering.queued conn present
      · rcases List.mem_append.mp present with present | present
        · exact answering.queued conn present
        · obtain rfl := List.mem_singleton.mp present
          have empty : emptyTx.contents = [] := Ring.contents_empty _ _
          simp [AllAnswer, Conn.passive, empty]
  | disconnect index =>
      obtain rfl := Option.some.inj stepped
      refine ⟨answering.contexts, ?_, answering.transmitted⟩
      cases found : before.conns.conns[index]? with
      | none =>
          simp only [ConnPool.markDisconnected, List.modify_eq_set_getElem?, found]
          exact answering.queued
      | some conn =>
          simp only [ConnPool.markDisconnected, List.modify_eq_set_getElem?, found]
          exact queued_set answering.queued
            (answering.queued conn (List.mem_of_getElem? found))
  | setup index peerNode shmName opened =>
      obtain ⟨conn, found, rfl⟩ := Option.map_eq_some_iff.mp stepped
      refine ⟨answering.contexts, ?_, answering.transmitted⟩
      exact queued_set answering.queued (answering.queued conn (List.mem_of_getElem? found))
  | putBack thread =>
      obtain ⟨id, -, rfl⟩ := Option.map_eq_some_iff.mp stepped
      unfold Layer.putBack
      dsimp only
      split
      · refine Answering.releaseCtx ?_ _
        exact answering.same ⟨rfl, rfl, rfl, rfl⟩
      · exact answering.same ⟨rfl, rfl, rfl, rfl⟩

/-- A step leaves alone the headers of the replies in progress. -/
theorem header_of_replying {op : LayerOp} (kept : before.Kept) (ready : before.Ready)
    (keeps : before.KeepsReplies op) (stepped : before.step op = some after) {actor : Actor}
    (present : actor ∈ before.actors) {ctx : ReplyCtx} (inside : .replying ctx id ∈ actor.frames) :
    after.headers id = before.headers id := by
  cases (evolves_of_step stepped).headers with
  | nothing same => rw [same]
  | written other header target headers =>
      have distinct : id ≠ other := by
        rintro rfl
        exact (keeps id target).2 actor present _ inside rfl
      rw [headers, Function.update_of_ne distinct]
  | fresh other header size headroom pool alloc headers =>
      have distinct : id ≠ other := by
        rintro rfl
        exact kept.fresh alloc (ready.mem_references present inside rfl)
      rw [headers, Function.update_of_ne distinct]

theorem Promised.step {op : LayerOp} (promised : before.Promised genuine)
    (answering : before.Answering genuine) (kept : before.Kept) (ready : before.Ready)
    (keeps : before.KeepsReplies op) (stepped : before.step op = some after) :
    after.Promised genuine := by
  intro actor' present' ctx id inside'
  obtain ⟨thread, found'⟩ := List.getElem?_of_mem present'
  obtain ⟨actor, found, becomes⟩ := (evolves_of_step stepped).thread thread actor' found'
  have present := List.mem_of_getElem? found
  have old : .replying ctx id ∈ actor.frames →
      Answers (after.headers id) ctx.request ∧ genuine ctx.request := by
    intro inside
    rw [header_of_replying kept ready keeps stepped present inside]
    exact promised actor present ctx id inside
  cases becomes with
  | same | holds held changes outside | gets new changes => exact old inside'
  | enters frame plain outside =>
      rcases List.mem_cons.mp inside' with rfl | inside
      · cases plain
      · exact old inside
  | delivers new arrival fresh outside =>
      rcases List.mem_cons.mp inside' with same | inside
      · cases same
      · exact old inside
  | replies index entry new live written usable outside =>
      rcases List.mem_cons.mp inside' with same | inside
      · obtain ⟨rfl, rfl⟩ := Frame.replying.inj same
        obtain ⟨faithful, request⟩ := answering.contexts index ctx live
        rw [written]
        exact ⟨faithful.answers _, request⟩
      · exact old inside
  | goesOn frame frame' rest frames plain =>
      rcases List.mem_cons.mp inside' with rfl | inside
      · cases plain
      · exact old (by rw [frames]; exact List.mem_cons_of_mem _ inside)
  | leaves frame rest frames =>
      exact old (by rw [frames]; exact List.mem_cons_of_mem _ inside')

theorem promised_of_initial {config : List PoolDef} {layer : Layer}
    (initial : layer.Initial config) (genuine : Arrival → Prop) : layer.Promised genuine := by
  intro actor present ctx id inside
  rw [initial.actors actor present] at inside
  cases inside

theorem answering_of_initial {config : List PoolDef} {layer : Layer}
    (initial : layer.Initial config) (genuine : Arrival → Prop) : layer.Answering genuine where
  contexts := by simp [initial.contexts]
  queued := by simp [initial.conns]
  transmitted := by simp [initial.transmitted]

end Layer

end CodexNos.Messaging
