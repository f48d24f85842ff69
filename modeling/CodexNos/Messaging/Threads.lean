import CodexNos.Messaging.References

/-!
# What a step does to the threads

A step of the messaging layer moves one thread: the thread enters a function, leaves one or goes on
to another one, or changes what it holds, and at most one other thread gets a reference.  At most
one header is written.  It follows that a thread in `nos_service_reply` keeps the buffer that it
replies with.
-/

namespace CodexNos.Messaging

open Lib Lib.Transition Memory Ipc

/-- The buffer that `nos_service_reply` uses. -/
def Frame.replyBuffer : Frame → Option BufferId
  | .replying _ id => some id
  | _ => none

/-- A function other than a delivery that has filled its buffer and `nos_service_reply`. -/
def Frame.plain : Frame → Bool
  | .delivering _ _ | .replying _ _ => false
  | _ => true

namespace Layer

/-- The step changes what a caller holds. -/
def changesHeld : LayerOp → Bool
  | .alloc _ _ _ | .retain _ _ | .release _ _ | .give _ _ _ => true
  | _ => false

/-- The buffer whose header a component writes, itself or through `nos_service_reply`. -/
def writeTarget : LayerOp → Option BufferId
  | .write _ id _ | .reply _ (some _) id => some id
  | _ => none

variable {before after : Layer} {op : LayerOp} {id : BufferId} {status : Status} {thread : Nat}
  {actor actor' : Actor}

/-! ## Moves of a thread -/

/-- What becomes of a thread in a step. -/
inductive Becomes (before after : Layer) (op : LayerOp) (actor : Actor) : Actor → Prop
  /-- Nothing happens to it. -/
  | same : Becomes before after op actor actor
  /-- Its code outside of the layer gets or gives back references. -/
  | holds (held : List BufferId) (changes : changesHeld op = true) (ready : actor.mayCall = true) :
      Becomes before after op actor { actor with held := held }
  /-- Another thread hands it a reference. -/
  | gets (id : BufferId) (changes : changesHeld op = true) :
      Becomes before after op actor { actor with held := id :: actor.held }
  /-- It enters a function. -/
  | enters (frame : Frame) (plain : frame.plain = true) (ready : actor.replies = false) :
      Becomes before after op actor (actor.push frame)
  /-- It has filled a new buffer with a message that has come in. -/
  | delivers (id : BufferId) (arrival : Arrival) (fresh : (after.pool.buffer id).refCnt = 1)
      (ready : actor.replies = false) :
      Becomes before after op actor (actor.push (.delivering id arrival))
  /-- It has written the header of a reply. -/
  | replies (index : Nat) (ctx : ReplyCtx) (id : BufferId)
      (live : before.contexts index = some ctx)
      (written : after.headers id = (before.headers id).asReply ctx.corrId ctx.requesterComponent)
      (usable : actor.has id = true) (ready : actor.replies = false) :
      Becomes before after op actor (actor.push (.replying ctx id))
  /-- It goes from one function to another. -/
  | goesOn (frame frame' : Frame) (rest : List Frame) (frames : actor.frames = frame :: rest)
      (plain : frame'.plain = true) :
      Becomes before after op actor { actor with frames := frame' :: rest }
  /-- It leaves a function. -/
  | leaves (frame : Frame) (rest : List Frame) (frames : actor.frames = frame :: rest) :
      Becomes before after op actor { actor with frames := rest }

/-- What a step writes into the headers. -/
inductive Rewrites (before after : Layer) (op : LayerOp) : Prop
  /-- Nothing. -/
  | nothing (same : after.headers = before.headers)
  /-- A component writes a header. -/
  | written (id : BufferId) (header : Header) (target : writeTarget op = some id)
      (headers : after.headers = Function.update before.headers id header)
  /-- A new buffer gets a header. -/
  | fresh (id : BufferId) (header : Header) (size headroom : UInt32) (pool : Pool)
      (alloc : before.pool.alloc size headroom = (pool, some id))
      (headers : after.headers = Function.update before.headers id header)

/-- What a step does to threads and headers. -/
structure Evolves (before after : Layer) (op : LayerOp) : Prop where
  length : after.actors.length = before.actors.length
  thread : ∀ (thread : Nat) (actor' : Actor), after.actors[thread]? = some actor' →
    ∃ actor, before.actors[thread]? = some actor ∧ Becomes before after op actor actor'
  headers : Rewrites before after op

theorem replies_of_mayCall (ready : actor.mayCall = true) : actor.replies = false := by
  obtain ⟨frames, held⟩ := actor
  cases frames with
  | nil => rfl
  | cons frame rest => cases frame <;> first | rfl | cases ready

theorem replies_of_frames {frame : Frame} {rest : List Frame}
    (frames : actor.frames = frame :: rest) (silent : frame.replyBuffer = none) :
    actor.replies = false := by
  obtain ⟨frames', held⟩ := actor
  obtain rfl : frames' = frame :: rest := frames
  cases frame with
  | replying ctx id => cases silent
  | _ => rfl

theorem replyBuffer_of_plain {frame : Frame} (plain : frame.plain = true) :
    frame.replyBuffer = none := by
  cases frame with
  | replying ctx id => cases plain
  | _ => rfl

namespace Evolves

theorem of_actors (actors : after.actors = before.actors) (headers : Rewrites before after op) :
    Evolves before after op where
  length := congrArg List.length actors
  thread := fun _ actor' found => ⟨actor', actors ▸ found, .same⟩
  headers := headers

/-- Nothing happens to threads and headers. -/
theorem of_same (actors : after.actors = before.actors) (headers : after.headers = before.headers) :
    Evolves before after op := .of_actors actors (.nothing headers)

theorem of_set (found : before.actors[thread]? = some actor)
    (actors : after.actors = before.actors.set thread actor')
    (becomes : Becomes before after op actor actor') (headers : Rewrites before after op) :
    Evolves before after op where
  length := by rw [actors, List.length_set]
  thread := by
    intro thread' actor'' found'
    rw [actors, List.getElem?_set] at found'
    split at found'
    · rename_i same
      split at found'
      · obtain rfl := Option.some.inj found'
        exact ⟨actor, same ▸ found, becomes⟩
      · cases found'
    · exact ⟨actor'', found', .same⟩
  headers := headers

theorem leaves {frame : Frame} {rest : List Frame} (found : before.actors[thread]? = some actor)
    (frames : actor.frames = frame :: rest)
    (actors : after.actors = before.actors.set thread { actor with frames := rest })
    (headers : after.headers = before.headers) : Evolves before after op :=
  .of_set found actors (.leaves frame rest frames) (.nothing headers)

theorem goesOn {frame frame' : Frame} {rest : List Frame}
    (found : before.actors[thread]? = some actor) (frames : actor.frames = frame :: rest)
    (plain : frame'.plain = true)
    (actors : after.actors = before.actors.set thread { actor with frames := frame' :: rest })
    (headers : after.headers = before.headers) : Evolves before after op :=
  .of_set found actors (.goesOn frame frame' rest frames plain) (.nothing headers)

theorem enters {frame : Frame} (found : before.actors[thread]? = some actor)
    (plain : frame.plain = true) (ready : actor.replies = false)
    (actors : after.actors = before.actors.set thread (actor.push frame))
    (headers : Rewrites before after op) : Evolves before after op :=
  .of_set found actors (.enters frame plain ready) headers

end Evolves

/-! ## Steps -/

theorem sameThreads_sendReply {ctx : ReplyCtx}
    (sent : before.sendReply ctx id = some (after, status)) : SameThreads before after := by
  obtain ⟨conn, -, same⟩ := Option.map_eq_some_iff.mp sent
  obtain ⟨rfl, -⟩ := Prod.mk.inj same
  exact ⟨rfl, rfl, rfl⟩

/-- A delivery goes on with the message that it has filled. -/
theorem cases_of_deliverSend {now : Nat} {outcome : ConnectOutcome}
    (stepped : before.step (.deliverSend thread now outcome) = some after) :
    ∃ actor id arrival rest, before.actors[thread]? = some actor ∧
      before.inFrame thread = some (actor, .delivering id arrival, rest) ∧
      actor.frames = .delivering id arrival :: rest ∧
      after.actors = before.actors.set thread { actor with frames := .delivered id :: rest } ∧
      after.headers = before.headers := by
  obtain ⟨⟨actor, frame, rest⟩, entered, made⟩ := Option.bind_eq_some_iff.mp stepped
  obtain ⟨found, -, frames⟩ := cases_of_inFrame entered
  cases frame with
  | delivering id arrival =>
      obtain ⟨⟨sent, status⟩, sends, rfl⟩ := Option.map_eq_some_iff.mp made
      have same := sameThreads_serviceMsgSend sends
      refine ⟨actor, id, arrival, rest, found, entered, frames, ?_, same.headers⟩
      change sent.actors.set thread _ = _
      rw [same.actors]
  | _ => cases made

/-- `nos_service_reply` calls `nos_ipc_send_reply` with its buffer. -/
theorem cases_of_sendReply (stepped : before.step (.sendReply thread) = some after) :
    ∃ actor ctx id rest status, before.actors[thread]? = some actor ∧
      before.inFrame thread = some (actor, .replying ctx id, rest) ∧
      actor.frames = .replying ctx id :: rest ∧
      (before.setActor thread { actor with frames := rest }).sendReply ctx id =
        some (after, status) := by
  obtain ⟨⟨actor, frame, rest⟩, entered, made⟩ := Option.bind_eq_some_iff.mp stepped
  obtain ⟨found, -, frames⟩ := cases_of_inFrame entered
  cases frame with
  | replying ctx id =>
      obtain ⟨⟨_, status⟩, sent, rfl⟩ := Option.map_eq_some_iff.mp made
      exact ⟨actor, ctx, id, rest, status, found, entered, frames, sent⟩
  | _ => cases made

/-- A thread hands a reference to another one, or to itself. -/
theorem Evolves.gives {receiver : Nat} {taker : Actor} (changes : changesHeld op = true)
    (found : before.actors[thread]? = some actor) (ready : actor.mayCall = true)
    {held : List BufferId}
    (taker_found : (before.setActor thread { actor with held := held }).actors[receiver]? =
      some taker)
    (actors : after.actors = ((before.setActor thread { actor with held := held }).setActor receiver
      { taker with held := id :: taker.held }).actors)
    (headers : after.headers = before.headers) : Evolves before after op where
  length := by
    rw [actors]
    simp [setActor]
  thread := by
    intro thread' actor' found'
    have given : ∀ {other : Nat} {actor'' : Actor},
        (before.setActor thread { actor with held := held }).actors[other]? = some actor'' →
          ∃ actor, before.actors[other]? = some actor ∧ (actor'' = actor ∨
            actor.mayCall = true ∧ actor'' = { actor with held := held }) := by
      intro other actor'' found''
      rw [setActor, List.getElem?_set] at found''
      split at found''
      · rename_i same
        split at found''
        · obtain rfl := Option.some.inj found''
          exact ⟨actor, same ▸ found, .inr ⟨ready, rfl⟩⟩
        · cases found''
      · exact ⟨actor'', found'', .inl rfl⟩
    rw [actors, setActor, List.getElem?_set] at found'
    split at found'
    · rename_i same
      split at found'
      · obtain rfl := Option.some.inj found'
        obtain ⟨old, old_found, rfl | ⟨ready', rfl⟩⟩ := given taker_found
        · exact ⟨_, same ▸ old_found, .gets id changes⟩
        · exact ⟨old, same ▸ old_found, .holds _ changes ready'⟩
      · cases found'
    · obtain ⟨old, old_found, rfl | ⟨ready', rfl⟩⟩ := given found'
      · exact ⟨_, old_found, .same⟩
      · exact ⟨old, old_found, .holds _ changes ready'⟩
  headers := .nothing headers

/-- What any step does to threads and headers. -/
theorem evolves_of_step (stepped : before.step op = some after) : Evolves before after op := by
  cases op with
  | configure tables =>
      obtain rfl := Option.some.inj stepped
      exact .of_same rfl rfl
  | alloc thread size headroom =>
      obtain ⟨actor, found, -, -, made⟩ := cases_of_call stepped
      split at made
      · obtain rfl := Option.some.inj made
        exact .of_same rfl rfl
      · obtain rfl := Option.some.inj made
        exact .of_set found rfl (.holds _ rfl (mayCall_of_call stepped found)) (.nothing rfl)
  | retain thread id =>
      obtain ⟨actor, found, -, -, made⟩ := cases_of_call stepped
      obtain rfl := Option.some.inj made
      exact .of_set found rfl (.holds _ rfl (mayCall_of_call stepped found)) (.nothing rfl)
  | release thread id =>
      obtain ⟨actor, found, -, -, made⟩ := cases_of_call stepped
      obtain rfl := Option.some.inj made
      exact .of_set found rfl (.holds _ rfl (mayCall_of_call stepped found)) (.nothing rfl)
  | give thread receiver id =>
      obtain ⟨actor, found, -, -, made⟩ := cases_of_call stepped
      obtain ⟨taker, taker_found, rfl⟩ := Option.map_eq_some_iff.mp made
      exact .gives rfl found (mayCall_of_call stepped found) taker_found rfl rfl
  | write thread id header =>
      obtain ⟨actor, -, -, -, made⟩ := cases_of_call stepped
      obtain rfl := Option.some.inj made
      exact .of_actors rfl (.written id header rfl rfl)
  | send thread id now outcome =>
      obtain ⟨actor, -, -, -, made⟩ := cases_of_call stepped
      obtain ⟨⟨_, status⟩, sent, rfl⟩ := Option.map_eq_some_iff.mp made
      have same := sameThreads_serviceMsgSend sent
      exact .of_same same.actors same.headers
  | reply thread ctx id =>
      obtain ⟨actor, found, -, usable, made⟩ := cases_of_call stepped
      have ready := replies_of_mayCall (mayCall_of_call stepped found)
      cases ctx with
      | none =>
          obtain rfl := Option.some.inj made
          exact .of_same rfl rfl
      | some ctx =>
          obtain ⟨entry, live, rfl⟩ := Option.map_eq_some_iff.mp made
          exact .of_set found rfl
            (.replies ctx entry id live (Function.update_self ..) usable ready)
            (.written id _ rfl rfl)
  | sendReply thread =>
      obtain ⟨actor, ctx, id, rest, status, found, -, frames, sent⟩ := cases_of_sendReply stepped
      have same := sameThreads_sendReply sent
      exact .leaves found frames same.actors same.headers
  | retainCtx ctx =>
      obtain ⟨entry, -, rfl⟩ := Option.map_eq_some_iff.mp stepped
      exact .of_same rfl rfl
  | releaseCtx ctx =>
      simp only [Layer.step, Option.ite_none_right_eq_some, Option.some.injEq] at stepped
      obtain ⟨-, rfl⟩ := stepped
      exact .of_same rfl rfl
  | processTx thread index =>
      obtain rfl | ⟨actor, found, outside, rfl⟩ := cases_of_processTx stepped
      · exact .of_same rfl rfl
      · exact .enters found rfl outside rfl (.nothing rfl)
  | txRound thread written sent =>
      obtain ⟨⟨actor, frame, rest⟩, entered, made⟩ := Option.bind_eq_some_iff.mp stepped
      obtain ⟨found, -, frames⟩ := cases_of_inFrame entered
      cases frame with
      | transmitting index =>
          obtain rfl | ⟨conn, conn', -, -, rfl⟩ | ⟨conn, conn', item, -, -, rfl⟩ :=
            cases_of_txRound made
          · exact .leaves found frames rfl rfl
          · exact .leaves found frames rfl rfl
          · exact .of_same rfl rfl
      | _ => cases made
  | dequeue thread index =>
      obtain ⟨actor, found, -, -, made⟩ := cases_of_call stepped
      obtain ⟨queue, -, made⟩ := Option.bind_eq_some_iff.mp made
      obtain ⟨⟨posted, ring⟩, -, rfl⟩ := Option.map_eq_some_iff.mp made
      have ready := replies_of_mayCall (mayCall_of_call stepped found)
      exact .enters found rfl ready rfl (.nothing rfl)
  | dispatch thread =>
      obtain ⟨⟨actor, frame, rest⟩, entered, made⟩ := Option.bind_eq_some_iff.mp stepped
      obtain ⟨found, -, frames⟩ := cases_of_inFrame entered
      cases frame with
      | dequeued posted =>
          simp only at made
          split at made
          · obtain rfl := Option.some.inj made
            exact .goesOn found frames rfl rfl rfl
          · obtain rfl := Option.some.inj made
            exact .goesOn found frames rfl rfl rfl
      | _ => cases made
  | returned thread =>
      obtain ⟨⟨actor, frame, rest⟩, entered, made⟩ := Option.bind_eq_some_iff.mp stepped
      obtain ⟨found, -, frames⟩ := cases_of_inFrame entered
      cases frame with
      | onMsg posted comp =>
          obtain rfl := Option.some.inj made
          exact .goesOn found frames rfl rfl rfl
      | _ => cases made
  | finish thread =>
      obtain ⟨⟨actor, frame, rest⟩, entered, made⟩ := Option.bind_eq_some_iff.mp stepped
      obtain ⟨found, -, frames⟩ := cases_of_inFrame entered
      cases frame with
      | dispatched posted | received id | delivered id =>
          obtain rfl := Option.some.inj made
          exact .leaves found frames rfl rfl
      | _ => cases made
  | receive thread size header =>
      obtain ⟨actor, found, -, -, made⟩ := cases_of_call stepped
      split at made
      · obtain rfl := Option.some.inj made
        exact .of_same rfl rfl
      · rename_i pool id alloc
        obtain rfl := Option.some.inj made
        have ready := replies_of_mayCall (mayCall_of_call stepped found)
        exact .enters found rfl ready rfl (.fresh id header size 0 pool alloc rfl)
  | deliver thread conn arrival len ctx =>
      obtain ⟨⟨actor, frame, rest⟩, entered, made⟩ := Option.bind_eq_some_iff.mp stepped
      obtain ⟨found, -, frames⟩ := cases_of_inFrame entered
      cases frame with
      | received id =>
          have outside := replies_of_frames frames rfl
          obtain rfl | ⟨pool, id, alloc, rfl | ⟨ctx, index, target, rfl⟩⟩ := cases_of_deliver made
          · exact .of_same rfl rfl
          · exact .of_set found rfl (.delivers id arrival (Pool.refCnt_of_alloc alloc) outside)
              (.fresh id _ _ 0 pool alloc rfl)
          · have same := Pool.setReplyCtx_refCnt pool id (some ctx) id
            have fresh := same.trans (Pool.refCnt_of_alloc alloc)
            exact .of_set found rfl (.delivers id arrival fresh outside)
              (.fresh id _ _ 0 pool alloc rfl)
      | _ => cases made
  | deliverSend thread now outcome =>
      obtain ⟨actor, id, arrival, rest, found, -, frames, actors, headers⟩ :=
        cases_of_deliverSend stepped
      exact .goesOn found frames rfl actors headers
  | startPurge thread index provider allocated =>
      obtain ⟨actor, found, -, -, made⟩ := cases_of_call stepped
      obtain ⟨queue, -, rfl⟩ := Option.map_eq_some_iff.mp made
      have ready := replies_of_mayCall (mayCall_of_call stepped found)
      cases allocated with
      | false => exact .of_same rfl rfl
      | true => exact .enters found rfl ready rfl (.nothing rfl)
  | purgeRound thread =>
      obtain ⟨⟨actor, frame, rest⟩, entered, made⟩ := Option.bind_eq_some_iff.mp stepped
      obtain ⟨found, -, frames⟩ := cases_of_inFrame entered
      cases frame with
      | purging index =>
          obtain ⟨queue, -, made⟩ := Option.bind_eq_some_iff.mp made
          obtain ⟨purge, -, rfl⟩ := Option.map_eq_some_iff.mp made
          unfold Layer.purgeRound
          split
          · exact .leaves found frames rfl rfl
          · split
            · exact .of_same rfl rfl
            · exact .of_same rfl rfl
      | _ => cases made
  | discard thread index =>
      obtain ⟨actor, -, -, -, made⟩ := cases_of_call stepped
      obtain ⟨queue, -, rfl⟩ := Option.map_eq_some_iff.mp made
      split
      · exact .of_same rfl rfl
      · exact .of_same rfl rfl
  | accept fd =>
      obtain rfl := Option.some.inj stepped
      exact .of_same rfl rfl
  | disconnect index =>
      obtain rfl := Option.some.inj stepped
      exact .of_same rfl rfl
  | setup index peerNode shmName opened =>
      obtain ⟨conn, -, rfl⟩ := Option.map_eq_some_iff.mp stepped
      exact .of_same rfl rfl
  | putBack thread =>
      obtain ⟨id, -, rfl⟩ := Option.map_eq_some_iff.mp stepped
      unfold Layer.putBack
      dsimp only
      split
      · exact .of_same rfl rfl
      · exact .of_same rfl rfl

/-! ## The buffer of a reply -/

end Layer

/-- A thread in `nos_service_reply` can use the buffer that it replies with, and is in no other
function meanwhile. -/
structure Actor.Ready (actor : Actor) : Prop where
  top : ∀ frame ∈ actor.frames.tail, frame.replyBuffer = none
  usable : ∀ frame ∈ actor.frames.head?, ∀ id, frame.replyBuffer = some id → actor.has id = true

namespace Actor.Ready

variable {actor : Actor}

theorem silent (ready : actor.Ready) (outside : actor.replies = false) :
    ∀ frame ∈ actor.frames, frame.replyBuffer = none := by
  intro frame inside
  obtain ⟨frames, held⟩ := actor
  cases frames with
  | nil => cases inside
  | cons first rest =>
      rcases List.mem_cons.mp inside with rfl | inside
      · cases frame with
        | replying ctx id => cases outside
        | _ => rfl
      · exact ready.top frame inside

theorem of_silent (silent : ∀ frame ∈ actor.frames, frame.replyBuffer = none) : actor.Ready where
  top := fun frame inside => silent frame (List.mem_of_mem_tail inside)
  usable := by
    intro frame first id named
    rw [silent frame (List.mem_of_mem_head? first)] at named
    cases named

theorem push (ready : actor.Ready) (outside : actor.replies = false) {frame : Frame}
    (usable : ∀ id, frame.replyBuffer = some id → actor.has id = true) :
    (actor.push frame).Ready where
  top := ready.silent outside
  usable := by
    intro first same id named
    obtain rfl : frame = first := Option.some.inj same
    rcases has_iff.mp (usable id named) with held | framed
    · exact has_iff.mpr (.inl held)
    · obtain ⟨other, inside, same⟩ := List.mem_filterMap.mp framed
      exact has_iff.mpr (.inr (List.mem_filterMap.mpr ⟨other, List.mem_cons_of_mem _ inside, same⟩))

theorem becomes {before after : Layer} {op : LayerOp} {actor' : Actor} (ready : actor.Ready)
    (becomes : Layer.Becomes before after op actor actor') : actor'.Ready := by
  cases becomes with
  | same => exact ready
  | holds held changes outside =>
      exact of_silent (ready.silent (Layer.replies_of_mayCall outside))
  | gets id changes =>
      refine ⟨ready.top, fun frame first other named => ?_⟩
      have had := has_iff.mp (ready.usable frame first other named)
      exact has_iff.mpr (had.imp_left (List.mem_cons_of_mem _))
  | enters frame plain outside =>
      refine ready.push outside fun id named => ?_
      rw [Layer.replyBuffer_of_plain plain] at named
      cases named
  | delivers id arrival fresh outside =>
      exact ready.push outside fun _ named => by cases named
  | replies index ctx id live written usable outside =>
      refine ready.push outside fun other named => ?_
      obtain rfl : id = other := Option.some.inj named
      exact usable
  | goesOn frame frame' rest frames plain =>
      refine of_silent fun other inside => ?_
      rcases List.mem_cons.mp inside with rfl | inside
      · exact Layer.replyBuffer_of_plain plain
      · exact ready.top other (by rw [frames]; exact inside)
  | leaves frame rest frames =>
      exact of_silent fun other inside => ready.top other (by rw [frames]; exact inside)

/-- The caller of `nos_service_reply` can use the buffer. -/
theorem has_of_frames (ready : actor.Ready) {ctx : ReplyCtx} {id : BufferId} {rest : List Frame}
    (frames : actor.frames = .replying ctx id :: rest) :
    ({ actor with frames := rest } : Actor).has id = true := by
  have had := ready.usable (.replying ctx id) (by simp [frames]) id rfl
  simpa [Actor.has, frames, Actor.onMsgBuffer] using had

end Actor.Ready

namespace Layer

variable {before after : Layer} {op : LayerOp} {id : BufferId} {thread : Nat} {actor : Actor}

/-- Every reply in progress has its buffer. -/
def Ready (layer : Layer) : Prop := ∀ actor ∈ layer.actors, actor.Ready

theorem Ready.step (ready : before.Ready) (stepped : before.step op = some after) :
    after.Ready := by
  intro actor' present
  obtain ⟨thread, found'⟩ := List.getElem?_of_mem present
  obtain ⟨actor, found, becomes⟩ := (evolves_of_step stepped).thread thread actor' found'
  exact (ready actor (List.mem_of_getElem? found)).becomes becomes

theorem ready_of_initial {config : List PoolDef} {layer : Layer}
    (initial : layer.Initial config) : layer.Ready := by
  intro actor present
  obtain rfl := initial.actors actor present
  exact .of_silent (by simp)

/-- The buffer of a reply in progress is referenced. -/
theorem Ready.mem_references {layer : Layer} (ready : layer.Ready) {actor : Actor}
    (present : actor ∈ layer.actors) {frame : Frame} (inside : frame ∈ actor.frames)
    (named : frame.replyBuffer = some id) : id ∈ layer.references := by
  obtain ⟨thread, found⟩ := List.getElem?_of_mem present
  obtain ⟨frames, held⟩ := actor
  cases frames with
  | nil => cases inside
  | cons first rest =>
      rcases List.mem_cons.mp inside with rfl | inside
      · exact mem_references_of_has found ((ready _ present).usable frame rfl id named)
      · rw [(ready _ present).top frame inside] at named
        cases named

end Layer

end CodexNos.Messaging
