import CodexNos.Messaging.Arrivals
import CodexNos.Messaging.Replies

/-!
# Requests and replies of two nodes

One node sends requests, the other one provides the service and replies in any order.  The
connections between them may lose, repeat and reorder messages, but deliver only what was
transmitted.  A reply that comes in belongs to the request whose context was used, whatever else
its provider has written into it.
-/

namespace CodexNos.Messaging

open Lib Lib.Transition Memory Ipc

/-! ## Transmission -/

namespace Layer

variable {before after : Layer} {id : BufferId} {status : Status}

theorem transmitted_serviceMsgSend {arrival : Option Arrival} {now : Nat} {outcome : ConnectOutcome}
    (sent : before.serviceMsgSend id arrival now outcome = some (after, status)) :
    after.transmitted = before.transmitted := by
  obtain rfl | ⟨target, sent⟩ | ⟨nodeName, udsPath, rfl⟩ := cases_of_serviceMsgSend sent
  · rfl
  · exact (sameReplies_localSend sent).transmitted
  · obtain same | ⟨_, _, _, _, -, -, same⟩ :=
      cases_of_sendEnqueue before ⟨id, none⟩ nodeName udsPath now outcome
    · rw [same]
    · rw [same]
      rfl

theorem transmitted_txRound {thread index : Nat} {left : Actor} {written : Bool}
    {sent : SendResult} (made : before.txRound thread index left written sent = some after) :
    before.transmitted <+: after.transmitted := by
  obtain rfl | ⟨conn, conn', -, -, rfl⟩ | ⟨conn, conn', item, -, -, rfl⟩ := cases_of_txRound made
  · exact List.prefix_rfl
  · exact List.prefix_rfl
  · exact List.prefix_append _ _

theorem transmitted_of_step {op : LayerOp} (stepped : before.step op = some after) :
    before.transmitted <+: after.transmitted := by
  cases op with
  | configure tables =>
      obtain rfl := Option.some.inj stepped
      exact List.prefix_rfl
  | alloc thread size headroom =>
      obtain ⟨actor, -, -, -, made⟩ := cases_of_call stepped
      split at made <;> obtain rfl := Option.some.inj made <;> exact List.prefix_rfl
  | retain thread id | release thread id | write thread id header =>
      obtain ⟨actor, -, -, -, made⟩ := cases_of_call stepped
      obtain rfl := Option.some.inj made
      exact List.prefix_rfl
  | give thread receiver id =>
      obtain ⟨actor, -, -, -, made⟩ := cases_of_call stepped
      obtain ⟨taker, -, rfl⟩ := Option.map_eq_some_iff.mp made
      exact List.prefix_rfl
  | send thread id now outcome =>
      obtain ⟨actor, -, -, -, made⟩ := cases_of_call stepped
      obtain ⟨⟨_, status⟩, sent, rfl⟩ := Option.map_eq_some_iff.mp made
      rw [transmitted_serviceMsgSend sent]
  | reply thread ctx id =>
      obtain ⟨actor, -, -, -, made⟩ := cases_of_call stepped
      split at made
      · obtain rfl := Option.some.inj made
        exact List.prefix_rfl
      · obtain ⟨entry, -, rfl⟩ := Option.map_eq_some_iff.mp made
        exact List.prefix_rfl
  | sendReply thread =>
      obtain ⟨actor, ctx, id, rest, status, -, -, -, sent⟩ := cases_of_sendReply stepped
      obtain ⟨conn, -, same⟩ := Option.map_eq_some_iff.mp sent
      obtain ⟨rfl, -⟩ := Prod.mk.inj same
      exact List.prefix_rfl
  | retainCtx ctx =>
      obtain ⟨entry, -, rfl⟩ := Option.map_eq_some_iff.mp stepped
      exact List.prefix_rfl
  | releaseCtx ctx =>
      simp only [Layer.step, Option.ite_none_right_eq_some, Option.some.injEq] at stepped
      obtain ⟨-, rfl⟩ := stepped
      exact List.prefix_rfl
  | processTx thread index =>
      obtain rfl | ⟨actor, -, -, rfl⟩ := cases_of_processTx stepped
      · exact List.prefix_rfl
      · exact List.prefix_rfl
  | txRound thread written sent =>
      obtain ⟨⟨actor, frame, rest⟩, -, made⟩ := Option.bind_eq_some_iff.mp stepped
      cases frame with
      | transmitting index => exact transmitted_txRound made
      | _ => cases made
  | dequeue thread index =>
      obtain ⟨actor, -, -, -, made⟩ := cases_of_call stepped
      obtain ⟨queue, -, made⟩ := Option.bind_eq_some_iff.mp made
      obtain ⟨⟨posted, ring⟩, -, rfl⟩ := Option.map_eq_some_iff.mp made
      exact List.prefix_rfl
  | dispatch thread =>
      obtain ⟨⟨actor, frame, rest⟩, -, made⟩ := Option.bind_eq_some_iff.mp stepped
      cases frame with
      | dequeued posted =>
          simp only at made
          split at made <;> obtain rfl := Option.some.inj made <;> exact List.prefix_rfl
      | _ => cases made
  | returned thread =>
      obtain ⟨⟨actor, frame, rest⟩, -, made⟩ := Option.bind_eq_some_iff.mp stepped
      cases frame with
      | onMsg posted comp =>
          obtain rfl := Option.some.inj made
          exact List.prefix_rfl
      | _ => cases made
  | finish thread =>
      obtain ⟨⟨actor, frame, rest⟩, -, made⟩ := Option.bind_eq_some_iff.mp stepped
      cases frame with
      | dispatched posted | received id | delivered id =>
          obtain rfl := Option.some.inj made
          exact List.prefix_rfl
      | _ => cases made
  | receive thread size header =>
      obtain ⟨actor, -, -, -, made⟩ := cases_of_call stepped
      split at made <;> obtain rfl := Option.some.inj made <;> exact List.prefix_rfl
  | deliver thread conn arrival len ctx =>
      obtain ⟨⟨actor, frame, rest⟩, -, made⟩ := Option.bind_eq_some_iff.mp stepped
      cases frame with
      | received id =>
          obtain rfl | ⟨pool, id, -, rfl | ⟨ctx, index, target, rfl⟩⟩ := cases_of_deliver made
          · exact List.prefix_rfl
          · exact List.prefix_rfl
          · exact List.prefix_rfl
      | _ => cases made
  | deliverSend thread now outcome =>
      obtain ⟨⟨actor, frame, rest⟩, -, made⟩ := Option.bind_eq_some_iff.mp stepped
      cases frame with
      | delivering id arrival =>
          obtain ⟨⟨sent, status⟩, sends, rfl⟩ := Option.map_eq_some_iff.mp made
          change before.transmitted <+: sent.transmitted
          rw [transmitted_serviceMsgSend sends]
      | _ => cases made
  | startPurge thread index provider allocated =>
      obtain ⟨actor, -, -, -, made⟩ := cases_of_call stepped
      obtain ⟨queue, -, rfl⟩ := Option.map_eq_some_iff.mp made
      cases allocated <;> exact List.prefix_rfl
  | purgeRound thread =>
      obtain ⟨⟨actor, frame, rest⟩, -, made⟩ := Option.bind_eq_some_iff.mp stepped
      cases frame with
      | purging index =>
          obtain ⟨queue, -, made⟩ := Option.bind_eq_some_iff.mp made
          obtain ⟨purge, -, rfl⟩ := Option.map_eq_some_iff.mp made
          unfold Layer.purgeRound
          split
          · exact List.prefix_rfl
          · split <;> exact List.prefix_rfl
      | _ => cases made
  | discard thread index =>
      obtain ⟨actor, -, -, -, made⟩ := cases_of_call stepped
      obtain ⟨queue, -, rfl⟩ := Option.map_eq_some_iff.mp made
      split <;> exact List.prefix_rfl
  | accept fd | disconnect index =>
      obtain rfl := Option.some.inj stepped
      exact List.prefix_rfl
  | setup index peerNode shmName opened =>
      obtain ⟨conn, -, rfl⟩ := Option.map_eq_some_iff.mp stepped
      exact List.prefix_rfl
  | putBack thread =>
      obtain ⟨id, -, rfl⟩ := Option.map_eq_some_iff.mp stepped
      unfold Layer.putBack
      dsimp only
      split <;> exact List.prefix_rfl

/-- The layer has transmitted the message. -/
def HasSent (layer : Layer) (arrival : Arrival) : Prop :=
  (layer.transmitted[arrival.number]?).map Parcel.header = some arrival.header

instance (layer : Layer) (arrival : Arrival) : Decidable (layer.HasSent arrival) := by
  unfold HasSent
  infer_instance

theorem HasSent.step {op : LayerOp} {arrival : Arrival} (sent : before.HasSent arrival)
    (stepped : before.step op = some after) : after.HasSent arrival := by
  obtain ⟨parcel, found, header⟩ := Option.map_eq_some_iff.mp sent
  obtain ⟨later, extended⟩ := transmitted_of_step stepped
  refine Option.map_eq_some_iff.mpr ⟨parcel, ?_, header⟩
  rw [← extended, List.getElem?_append_left (List.getElem?_eq_some_iff.mp found).1, found]

end Layer

/-! ## Two nodes -/

/-- Two nodes that talk to each other. -/
structure TwoNodes where
  /-- The node of the requesters. -/
  a : Layer
  /-- The node of the provider. -/
  b : Layer

/-- A step of one of the nodes. -/
inductive NodeOp
  | a (op : LayerOp)
  | b (op : LayerOp)

namespace TwoNodes

/-- Perform one step.  A node receives only what the other one has transmitted. -/
def step (nodes : TwoNodes) : NodeOp → Option TwoNodes
  | .a op =>
      if op.arrival.all fun arrival => decide (nodes.b.HasSent arrival) then
        (nodes.a.step op).map fun a => { nodes with a := a }
      else none
  | .b op =>
      if op.arrival.all fun arrival => decide (nodes.a.HasSent arrival) then
        (nodes.b.step op).map fun b => { nodes with b := b }
      else none

/-- Both nodes at their start. -/
structure Initial (config : List PoolDef) (nodes : TwoNodes) : Prop where
  a : nodes.a.Initial config
  b : nodes.b.Initial config

/-- Reference counts stay in range, and the provider does not write into a buffer in which an
accepted reply still waits for its transmission, or with which a thread is in
`nos_service_reply`. -/
def Careful (nodes : TwoNodes) : NodeOp → Prop
  | .a op => nodes.a.FewReferences op
  | .b op => nodes.b.FewReferences op ∧ nodes.b.KeepsReplies op

instance (nodes : TwoNodes) (op : NodeOp) : Decidable (nodes.Careful op) := by
  cases op <;> unfold Careful <;> infer_instance

/-- Both routing decisions lead to the component. -/
structure GoesTo (tables : Tables) (header : Header) (requester : UInt32) : Prop where
  /-- `nos_service_msg_send` chooses the owner thread of a loaded component with the id. -/
  thread : ∀ route, tables.route header = some route →
    ∃ info ∈ tables.loaded, ∃ comp, info.comp = some comp ∧
      (tables.component comp).id = requester ∧ route = .localThread info.ownerThread
  /-- `process_thread_messages` chooses a component with the id. -/
  comp : ∀ comp, tables.dispatchTarget header = some comp → (tables.component comp).id = requester

/-- Every reply to a request that is being delivered, is queued or is about to be dispatched on the
node of its requester carries the sequence number of the request and goes to its requester. -/
def Correlated (nodes : TwoNodes) : Prop :=
  ∀ number request, nodes.a.transmitted[number]? = some request → request.header.srcComponent ≠ 0 →
    ∀ posted ∈ nodes.a.carried, ∀ arrival, posted.arrival = some arrival →
      ∀ reply, nodes.b.transmitted[arrival.number]? = some reply →
        reply.answers.map Arrival.number = some number →
        (nodes.a.headers posted.buffer).seq = request.header.seq ∧
          GoesTo nodes.a.tables (nodes.a.headers posted.buffer) request.header.srcComponent

theorem goesTo_of_reply (tables : Tables) {header : Header} (reply : header.flags &&& replyFlag ≠ 0)
    (named : header.dstComponent ≠ 0) : GoesTo tables header header.dstComponent where
  thread := by
    intro route chosen
    rw [tables.route_of_toRequester (by simp [Header.toRequester, reply, named])] at chosen
    obtain ⟨info, found, rfl⟩ := Option.map_eq_some_iff.mp chosen
    obtain ⟨present, comp, comp_eq, id_eq⟩ := Tables.id_of_findLoaded found
    exact ⟨info, present, comp, comp_eq, id_eq, rfl⟩
  comp := fun _ chosen =>
    Tables.id_of_dispatchTarget (by simp [Header.toRequester, reply, named]) chosen

/-- Both layers are in order, and what each has got from the other is genuine. -/
structure Sound (nodes : TwoNodes) : Prop where
  a : nodes.a.Kept
  b : nodes.b.Kept
  readyA : nodes.a.Ready
  readyB : nodes.b.Ready
  promised : nodes.b.Promised nodes.a.HasSent
  answering : nodes.b.Answering nodes.a.HasSent
  arriving : nodes.a.Arriving nodes.b.HasSent

theorem Sound.correlated {nodes : TwoNodes} (sound : nodes.Sound) : nodes.Correlated := by
  intro number request sent named posted present arrival tagged reply replied answered
  obtain ⟨header_eq, arrived⟩ := sound.arriving.headers posted present arrival tagged
  obtain ⟨parcel, found, same_header⟩ := Option.map_eq_some_iff.mp arrived
  obtain rfl : reply = parcel := Option.some.inj (replied.symm.trans found)
  obtain ⟨origin, answers, rfl⟩ := Option.map_eq_some_iff.mp answered
  obtain ⟨answers_origin, origin_sent⟩ :=
    sound.answering.transmitted reply (List.mem_of_getElem? found) origin answers
  obtain ⟨parcel', found', same_request⟩ := Option.map_eq_some_iff.mp origin_sent
  obtain rfl : request = parcel' := Option.some.inj (sent.symm.trans found')
  rw [header_eq, ← same_header, same_request]
  rw [same_request, ← answers_origin.requester] at named
  refine ⟨answers_origin.seq, ?_⟩
  rw [← answers_origin.requester]
  exact goesTo_of_reply _ answers_origin.reply named

theorem sound_of_initial {config : List PoolDef} {nodes : TwoNodes}
    (initial : nodes.Initial config) : nodes.Sound where
  a := Layer.kept_of_initial initial.a
  b := Layer.kept_of_initial initial.b
  readyA := Layer.ready_of_initial initial.a
  readyB := Layer.ready_of_initial initial.b
  promised := Layer.promised_of_initial initial.b _
  answering := Layer.answering_of_initial initial.b _
  arriving := Layer.arriving_of_initial initial.a _

theorem Sound.step {before after : TwoNodes} {op : NodeOp} (sound : before.Sound)
    (careful : before.Careful op) (stepped : before.step op = some after) : after.Sound := by
  cases op with
  | a op =>
      simp only [TwoNodes.step, Option.ite_none_right_eq_some] at stepped
      obtain ⟨received, made⟩ := stepped
      obtain ⟨layer, moved, rfl⟩ := Option.map_eq_some_iff.mp made
      have arrives : ∀ arrival ∈ op.arrival, before.b.HasSent arrival := by
        intro arrival present
        simpa [Option.mem_def.mp present] using received
      exact
        { a := sound.a.step sound.readyA careful moved
          b := sound.b
          readyA := sound.readyA.step moved
          readyB := sound.readyB
          promised := sound.promised.mono fun _ sent => sent.step moved
          answering := sound.answering.mono fun _ sent => sent.step moved
          arriving := sound.arriving.step sound.a arrives moved }
  | b op =>
      simp only [TwoNodes.step, Option.ite_none_right_eq_some] at stepped
      obtain ⟨received, made⟩ := stepped
      obtain ⟨layer, moved, rfl⟩ := Option.map_eq_some_iff.mp made
      have arrives : ∀ arrival ∈ op.arrival, before.a.HasSent arrival := by
        intro arrival present
        simpa [Option.mem_def.mp present] using received
      exact
        { a := sound.a
          b := sound.b.step sound.readyB careful.1 moved
          readyA := sound.readyA
          readyB := sound.readyB.step moved
          promised := sound.promised.step sound.answering sound.b sound.readyB careful.2 moved
          answering := sound.answering.step sound.b sound.promised careful.2 arrives moved
          arriving := Intact.mono sound.arriving fun _ sent => sent.step moved }

/-- If the provider leaves its accepted replies alone until they are transmitted, replies are
correlated with their requests in every reachable state. -/
theorem correlated_of_reach {config : List PoolDef} {nodes : TwoNodes}
    (reach : Reach step Careful (Initial config) nodes) : nodes.Correlated :=
  Sound.correlated <|
    Reach.invariant Sound (fun _ initial => sound_of_initial initial)
      (fun _ _ _ sound careful stepped => sound.step careful stepped) reach

/-! ## Two runs -/

/-- Chunks for a few messages. -/
def fewChunks : List PoolDef := [⟨64, 6⟩]

/-- A requester with the component 3 that knows where the service 7 is. -/
def requesterTables : Tables :=
  ⟨[⟨7, none, none, "b", "/tmp/b", true⟩], [⟨some 0, some 0⟩], fun _ => ⟨3, .active, true⟩, none⟩

/-- A request of the component 3 for the service 7. -/
def requestOf (seq : UInt32) : Header := ⟨0x4E4F, 1, 7, 3, 0, 0, seq, 1, 0⟩

/-- Both nodes, with one thread each. -/
def freshPair : TwoNodes where
  a := Layer.fresh fewChunks requesterTables (requestOf 0) 1
  b := Layer.fresh fewChunks Layer.oneService (requestOf 0) 1

theorem freshPair_initial : freshPair.Initial fewChunks where
  a := Layer.fresh_initial _ _ _ (by decide)
  b := Layer.fresh_initial _ _ _ (by decide)

/-- The requester writes a request into a buffer and transmits it. -/
def request (id : BufferId) (seq : UInt32) : List NodeOp :=
  [.a (.alloc 0 32 0), .a (.write 0 id (requestOf seq)),
    .a (.send 0 id 0 (.connected 4 false)), .a (.processTx 0 0), .a (.txRound 0 false .complete),
    .a (.txRound 0 false .complete)]

/-- The provider takes in a request and keeps its reply context. -/
def takeIn (number ctx : Nat) (seq : UInt32) : List NodeOp :=
  [.b (.receive 0 32 (requestOf seq)),
    .b (.deliver 0 (some 0) ⟨number, requestOf seq⟩ 32 (some ctx)),
    .b (.deliverSend 0 0 (.failed 0)), .b (.finish 0), .b (.finish 0), .b (.putBack 0),
    .b (.dequeue 0 0), .b (.dispatch 0), .b (.retainCtx ctx), .b (.returned 0), .b (.finish 0),
    .b (.putBack 0)]

/-- Two requests are on the provider. -/
def twoRequests : List NodeOp :=
  request ⟨0, 5⟩ 10 ++ request ⟨0, 4⟩ 11 ++ [.b (.accept 9)] ++ takeIn 0 0 10 ++ takeIn 1 1 11

/-- The provider transmits what it has queued. -/
def transmitTwo : List NodeOp :=
  [.b (.processTx 0 0), .b (.txRound 0 false .complete), .b (.txRound 0 false .complete)]

/-- The first transmitted message comes in on the node of the requester. -/
def comesIn (header : Header) : List NodeOp :=
  [.a (.receive 0 32 header), .a (.deliver 0 (some 0) ⟨0, header⟩ 32 none)]

/-- The provider replies to the second request first. -/
def outOfOrder : List NodeOp :=
  twoRequests ++
    [.b (.alloc 0 32 0), .b (.alloc 0 32 0), .b (.reply 0 (some 1) ⟨0, 5⟩), .b (.sendReply 0),
      .b (.reply 0 (some 0) ⟨0, 4⟩), .b (.sendReply 0)] ++
    transmitTwo ++ comesIn ((requestOf 11).asReply 11 3)

/-- The reply to the second request, transmitted first, is on its way to the requester. -/
theorem outOfOrder_correlated :
    ∃ nodes : TwoNodes, nodes.Correlated ∧
      nodes.a.transmitted.map (fun parcel => parcel.header.seq) = [10, 11] ∧
      ∃ posted ∈ nodes.a.carried, posted.arrival.isSome ∧
        (nodes.a.headers posted.buffer).seq = 11 ∧
        nodes.a.tables.route (nodes.a.headers posted.buffer) = some (.localThread (some 0)) := by
  have execution : (runGuarded step Careful freshPair outOfOrder).map (fun nodes =>
      (nodes.a.transmitted.map fun parcel => parcel.header.seq,
        nodes.a.carried.any fun posted => posted.arrival.isSome &&
          (nodes.a.headers posted.buffer).seq = 11 &&
          nodes.a.tables.route (nodes.a.headers posted.buffer) = some (.localThread (some 0)))) =
      some ([10, 11], true) := by
    decide +kernel
  obtain ⟨nodes, ran, view⟩ := Option.map_eq_some_iff.mp execution
  obtain ⟨sent, carried⟩ := Prod.mk.inj view
  obtain ⟨posted, present, there⟩ := List.any_eq_true.mp carried
  simp only [Bool.and_eq_true, decide_eq_true_eq] at there
  have reach : Reach step Careful (Initial fewChunks) nodes :=
    reach_of_runGuarded (.start freshPair_initial) ran
  exact ⟨nodes, correlated_of_reach reach, sent, posted, present, there.1.1, there.1.2, there.2⟩

/-- The provider replies to both requests in the same buffer. -/
def sharedReply : List NodeOp :=
  twoRequests ++
    [.b (.alloc 0 32 0), .b (.reply 0 (some 0) ⟨0, 5⟩), .b (.sendReply 0),
      .b (.reply 0 (some 1) ⟨0, 5⟩), .b (.sendReply 0)] ++
    transmitTwo ++ comesIn ((requestOf 11).asReply 11 3)

/-- A reply to the first request that still waits when its buffer is used for the reply to the second
one is transmitted with the sequence number of the second one. -/
theorem sharedReply_not_correlated :
    ∃ nodes : TwoNodes, Reachable step (Initial fewChunks) nodes ∧
      nodes.a.transmitted[0]? = some ⟨requestOf 10, none⟩ ∧
      nodes.b.transmitted[0]? =
        some ⟨(requestOf 11).asReply 11 3, some ⟨0, requestOf 10⟩⟩ ∧
      ¬ nodes.Correlated := by
  have execution : (run step freshPair sharedReply).map (fun nodes =>
      (nodes.a.transmitted[0]?, nodes.b.transmitted[0]?, nodes.a.carried.head?,
        (nodes.a.headers ⟨0, 2⟩).seq)) =
      some (some ⟨requestOf 10, none⟩,
        some ⟨(requestOf 11).asReply 11 3, some ⟨0, requestOf 10⟩⟩,
        some ⟨⟨0, 2⟩, some ⟨0, (requestOf 11).asReply 11 3⟩⟩, 11) := by
    decide +kernel
  obtain ⟨nodes, ran, view⟩ := Option.map_eq_some_iff.mp execution
  simp only [Prod.mk.injEq] at view
  obtain ⟨requested, replied, carried, seq⟩ := view
  refine ⟨nodes, reachable_of_run (.start freshPair_initial) ran, requested, replied, ?_⟩
  intro correlated
  have same := (correlated 0 _ requested (by decide) _ (List.mem_of_head? carried) _ rfl _ replied
    rfl).1
  rw [seq] at same
  exact absurd same (by decide)

end TwoNodes

end CodexNos.Messaging
