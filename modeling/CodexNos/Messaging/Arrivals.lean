import CodexNos.Messaging.Conservation

/-!
# A message on its way to a component is not touched

Between its arrival over a connection and its dispatch a message is held by the layer alone: no
component can use its buffer, so its header stays what it was on its arrival.
-/

namespace CodexNos.Messaging

open Lib Lib.Transition Memory Ipc

/-! ## Carried messages -/

/-- The messages that a function carries to a component, or has handed to one. -/
def Frame.carried : Frame → List Posted
  | .dequeued posted => [posted]
  | .delivering id arrival => [⟨id, some arrival⟩]
  | .onMsg posted _ => [⟨posted.buffer, none⟩]
  | .dispatched _ | .received _ | .delivered _ | .transmitting _ | .purging _ | .replying _ _ => []

/-- The messages that a thread carries. -/
def Actor.carried (actor : Actor) : List Posted :=
  actor.frames.flatMap Frame.carried ++ actor.held.map fun id => ⟨id, none⟩

/-- The messages that a layer carries. -/
def Layer.carried (layer : Layer) : List Posted :=
  layer.queues.flatMap MsgQueue.posted ++ layer.actors.flatMap Actor.carried

/-- Every message that has come in is genuine, has its header and is carried once. -/
structure Intact (headers : BufferId → Header) (genuine : Arrival → Prop) (carried : List Posted) :
    Prop where
  headers : ∀ posted ∈ carried, ∀ arrival, posted.arrival = some arrival →
    headers posted.buffer = arrival.header ∧ genuine arrival
  apart : ∀ posted ∈ carried, posted.arrival ≠ none →
    (carried.map Posted.buffer).count posted.buffer = 1

namespace Intact

variable {headers : BufferId → Header} {genuine : Arrival → Prop} {carried : List Posted}
  {posted : Posted} {id : BufferId}

theorem mono (intact : Intact headers genuine carried) {genuine' : Arrival → Prop}
    (wider : ∀ arrival, genuine arrival → genuine' arrival) : Intact headers genuine' carried where
  headers := fun posted present arrival tagged =>
    (intact.headers posted present arrival tagged).imp_right (wider arrival)
  apart := intact.apart

theorem perm (intact : Intact headers genuine carried) {carried' : List Posted}
    (same : carried.Perm carried') : Intact headers genuine carried' where
  headers := fun posted present => intact.headers posted (same.mem_iff.mpr present)
  apart := by
    intro posted present tagged
    rw [← (same.map Posted.buffer).count_eq]
    exact intact.apart posted (same.mem_iff.mpr present) tagged

/-- A message that has come in shares its buffer with no other message. -/
theorem ne_of_mem (intact : Intact headers genuine carried) {other : Posted}
    (present : posted ∈ carried) (tagged : posted.arrival ≠ none) (other_present : other ∈ carried)
    (distinct : other ≠ posted) : other.buffer ≠ posted.buffer := by
  intro same
  have once := intact.apart posted present tagged
  rw [((List.perm_cons_erase present).map Posted.buffer).count_eq, List.map_cons,
    List.count_cons_self] at once
  have missing : posted.buffer ∉ (carried.erase posted).map Posted.buffer :=
    List.count_eq_zero.mp (by omega)
  exact missing (List.mem_map.mpr
    ⟨other, (List.mem_erase_of_ne distinct).mpr other_present, same⟩)

theorem ne_of_untagged (intact : Intact headers genuine carried) (present : posted ∈ carried)
    (tagged : posted.arrival ≠ none) (held : ⟨id, none⟩ ∈ carried) : posted.buffer ≠ id := by
  have distinct : (⟨id, none⟩ : Posted) ≠ posted := by
    rintro rfl
    exact tagged rfl
  exact (intact.ne_of_mem present tagged held distinct).symm

theorem remove (intact : Intact headers genuine (posted :: carried)) :
    Intact headers genuine carried where
  headers := fun other present => intact.headers other (List.mem_cons_of_mem _ present)
  apart := by
    intro other present tagged
    have once := intact.apart other (List.mem_cons_of_mem _ present) tagged
    have some_left : 0 < (carried.map Posted.buffer).count other.buffer :=
      List.count_pos_iff.mpr (List.mem_map_of_mem present)
    rw [List.map_cons, List.count_cons] at once
    omega

theorem untag (intact : Intact headers genuine (posted :: carried)) :
    Intact headers genuine (⟨posted.buffer, none⟩ :: carried) where
  headers := by
    intro other present arrival tagged
    rcases List.mem_cons.mp present with rfl | present
    · cases tagged
    · exact intact.headers other (List.mem_cons_of_mem _ present) arrival tagged
  apart := by
    intro other present tagged
    rcases List.mem_cons.mp present with rfl | present
    · exact absurd rfl tagged
    · exact intact.apart other (List.mem_cons_of_mem _ present) tagged

/-- A component makes a further reference to a message that it has. -/
theorem copy (intact : Intact headers genuine carried) (held : ⟨id, none⟩ ∈ carried) :
    Intact headers genuine (⟨id, none⟩ :: carried) where
  headers := by
    intro other present arrival tagged
    rcases List.mem_cons.mp present with rfl | present
    · cases tagged
    · exact intact.headers other present arrival tagged
  apart := by
    intro other present tagged
    rcases List.mem_cons.mp present with rfl | present
    · exact absurd rfl tagged
    · have distinct := intact.ne_of_untagged present tagged held
      rw [List.map_cons, List.count_cons_of_ne distinct.symm]
      exact intact.apart other present tagged

theorem write (intact : Intact headers genuine carried)
    (unused : ∀ posted ∈ carried, posted.arrival ≠ none → posted.buffer ≠ id) (header : Header) :
    Intact (Function.update headers id header) genuine carried where
  headers := by
    intro posted present arrival tagged
    rw [Function.update_of_ne (unused posted present (by simp [tagged]))]
    exact intact.headers posted present arrival tagged
  apart := intact.apart

theorem fresh (intact : Intact headers genuine carried)
    (missing : id ∉ carried.map Posted.buffer) {arrival : Option Arrival} {header : Header}
    (written : ∀ entry, arrival = some entry → header = entry.header ∧ genuine entry) :
    Intact (Function.update headers id header) genuine (⟨id, arrival⟩ :: carried) where
  headers := by
    intro other present entry tagged
    rcases List.mem_cons.mp present with rfl | present
    · rw [Function.update_self]
      exact written entry tagged
    · have distinct : other.buffer ≠ id := fun same => missing (List.mem_map.mpr ⟨other, present, same⟩)
      rw [Function.update_of_ne distinct]
      exact intact.headers other present entry tagged
  apart := by
    intro other present tagged
    rcases List.mem_cons.mp present with rfl | present
    · rw [List.map_cons, List.count_cons_self, List.count_eq_zero.mpr missing]
    · have distinct : other.buffer ≠ id := fun same => missing (List.mem_map.mpr ⟨other, present, same⟩)
      rw [List.map_cons, List.count_cons_of_ne distinct.symm]
      exact intact.apart other present tagged

end Intact

namespace Layer

variable {before after : Layer} {id : BufferId} {status : Status} {thread : Nat}
  {genuine : Arrival → Prop}

/-- Every message that has come in is intact. -/
def Arriving (genuine : Arrival → Prop) (layer : Layer) : Prop :=
  Intact layer.headers genuine layer.carried

theorem carried_setQueue {layer : Layer} {index : ThreadRef} {queue : MsgQueue}
    (found : layer.queues[index]? = some queue) (queue' : MsgQueue) (item : Posted) :
    (layer.setQueue index queue').carried.count item + queue.posted.count item =
      layer.carried.count item + queue'.posted.count item := by
  have changed := count_flatMap_set MsgQueue.posted found queue' item
  simp only [carried, setQueue, List.count_append]
  omega

theorem carried_setActor (layer : Layer) {actor : Actor}
    (found : layer.actors[thread]? = some actor) (actor' : Actor) (item : Posted) :
    (layer.setActor thread actor').carried.count item + actor.carried.count item =
      layer.carried.count item + actor'.carried.count item := by
  have changed := count_flatMap_set Actor.carried found actor' item
  simp only [carried, setActor, List.count_append]
  omega

theorem count_carried_of_frames {actor : Actor} {frame : Frame} {rest : List Frame}
    (frames : actor.frames = frame :: rest) (item : Posted) :
    actor.carried.count item = frame.carried.count item +
      ({ actor with frames := rest } : Actor).carried.count item := by
  simp [Actor.carried, frames]

theorem count_carried_frames (actor : Actor) (frame : Frame) (rest : List Frame) (item : Posted) :
    ({ actor with frames := frame :: rest } : Actor).carried.count item =
      frame.carried.count item + ({ actor with frames := rest } : Actor).carried.count item :=
  count_carried_of_frames rfl item

theorem count_carried_push (actor : Actor) (frame : Frame) (item : Posted) :
    (actor.push frame).carried.count item = frame.carried.count item + actor.carried.count item :=
  count_carried_of_frames rfl item

theorem count_carried_cons (actor : Actor) (id : BufferId) (item : Posted) :
    ({ actor with held := id :: actor.held } : Actor).carried.count item =
      (⟨id, none⟩ :: actor.carried).count item := by
  simp only [Actor.carried, List.map_cons, List.count_append, List.count_cons]
  omega

theorem count_carried_erase {actor : Actor} (present : id ∈ actor.held) (item : Posted) :
    actor.carried.count item =
      (⟨id, none⟩ :: ({ actor with held := actor.held.erase id } : Actor).carried).count item := by
  have same := ((List.perm_cons_erase present).map fun id => (⟨id, none⟩ : Posted)).count_eq item
  simp only [Actor.carried, List.map_cons, List.count_append, List.count_cons] at same ⊢
  omega

theorem mem_carried_of_has {layer : Layer} {actor : Actor}
    (found : layer.actors[thread]? = some actor) (usable : actor.has id = true) :
    ⟨id, none⟩ ∈ layer.carried := by
  have present : ⟨id, none⟩ ∈ actor.carried := by
    rcases Actor.has_iff.mp usable with held | framed
    · exact List.mem_append_right _ (List.mem_map.mpr ⟨id, held, rfl⟩)
    · obtain ⟨frame, inside, named⟩ := List.mem_filterMap.mp framed
      refine List.mem_append_left _ (List.mem_flatMap.mpr ⟨frame, inside, ?_⟩)
      cases frame <;> simp_all [Actor.onMsgBuffer, Frame.carried]
  exact List.mem_append_right _
    (List.mem_flatMap.mpr ⟨actor, List.mem_of_getElem? found, present⟩)

theorem buffer_mem_references {layer : Layer} {posted : Posted} (present : posted ∈ layer.carried) :
    posted.buffer ∈ layer.references := by
  rcases List.mem_append.mp present with queued | carried
  · obtain ⟨queue, queue_present, inside⟩ := List.mem_flatMap.mp queued
    exact List.mem_append_left _ (List.mem_append_left _
      (List.mem_flatMap.mpr ⟨queue, queue_present, List.mem_map_of_mem inside⟩))
  · obtain ⟨actor, actor_present, inside⟩ := List.mem_flatMap.mp carried
    refine List.mem_append_right _ (List.mem_flatMap.mpr ⟨actor, actor_present, ?_⟩)
    rcases List.mem_append.mp inside with framed | held
    · obtain ⟨frame, frame_present, inside⟩ := List.mem_flatMap.mp framed
      refine List.mem_append_left _ (List.mem_flatMap.mpr ⟨frame, frame_present, ?_⟩)
      cases frame <;> simp_all [Frame.carried, Frame.buffers]
    · obtain ⟨id, kept_id, rfl⟩ := List.mem_map.mp held
      exact List.mem_append_right actor.working kept_id

theorem Kept.not_carried (kept : before.Kept) {pool : Pool} {size headroom : UInt32}
    (alloc : before.pool.alloc size headroom = (pool, some id)) :
    id ∉ before.carried.map Posted.buffer := by
  intro carried
  obtain ⟨posted, present, rfl⟩ := List.mem_map.mp carried
  exact kept.fresh alloc (buffer_mem_references present)

/-! ## Moves -/

theorem Arriving.moved (arriving : before.Arriving genuine) (headers : after.headers = before.headers)
    (same : ∀ item, after.carried.count item = before.carried.count item) :
    after.Arriving genuine := by
  unfold Arriving
  rw [headers]
  exact Intact.perm arriving (List.perm_iff_count.mpr fun item => (same item).symm)

theorem Arriving.removed (arriving : before.Arriving genuine) (posted : Posted)
    (headers : after.headers = before.headers)
    (fewer : ∀ item, before.carried.count item = (posted :: after.carried).count item) :
    after.Arriving genuine := by
  unfold Arriving
  rw [headers]
  exact (Intact.perm arriving (List.perm_iff_count.mpr fewer)).remove

theorem Arriving.copied (arriving : before.Arriving genuine) (held : ⟨id, none⟩ ∈ before.carried)
    (headers : after.headers = before.headers)
    (more : ∀ item, after.carried.count item = (⟨id, none⟩ :: before.carried).count item) :
    after.Arriving genuine := by
  unfold Arriving
  rw [headers]
  exact (Intact.copy arriving held).perm (List.perm_iff_count.mpr fun item => (more item).symm)

/-- A thread leaves a function and drops what it carries. -/
theorem Arriving.left (arriving : before.Arriving genuine) {actor : Actor} {frame : Frame}
    {rest : List Frame} (found : before.actors[thread]? = some actor)
    (frames : actor.frames = frame :: rest) (nothing : frame.carried = []) :
    (before.setActor thread { actor with frames := rest }).Arriving genuine := by
  refine arriving.moved rfl ?_
  intro item
  have changed := carried_setActor _ found { actor with frames := rest } item
  rw [count_carried_of_frames frames, nothing, List.count_nil] at changed
  omega

/-! ## Sending and receiving -/

/-- A send leaves the threads and the headers alone and carries at most one more message. -/
structure Sends (before after : Layer) (posted : Posted) : Prop where
  headers : after.headers = before.headers
  actors : after.actors = before.actors
  carried : (∀ item, after.carried.count item = before.carried.count item) ∨
    ∀ item, after.carried.count item = (posted :: before.carried).count item

theorem sends_localSend {posted : Posted} {target : Option ThreadRef}
    (sent : before.localSend posted target = some (after, status)) : Sends before after posted := by
  obtain rfl | ⟨index, queue, ring, found, no_purge, pushed, rfl⟩ := cases_of_localSend sent
  · exact ⟨rfl, rfl, .inl fun _ => rfl⟩
  · refine ⟨rfl, rfl, .inr ?_⟩
    intro item
    have changed := carried_setQueue found { queue with ring := ring } item
    rw [posted_of_push? no_purge pushed, List.count_append, List.count_singleton] at changed
    rw [List.count_cons]
    change (before.setQueue index { queue with ring := ring }).carried.count item = _
    omega

theorem sends_serviceMsgSend {arrival : Option Arrival} {now : Nat} {outcome : ConnectOutcome}
    (sent : before.serviceMsgSend id arrival now outcome = some (after, status)) :
    Sends before after ⟨id, arrival⟩ := by
  obtain rfl | ⟨target, sent⟩ | ⟨nodeName, udsPath, rfl⟩ := cases_of_serviceMsgSend sent
  · exact ⟨rfl, rfl, .inl fun _ => rfl⟩
  · exact sends_localSend sent
  · obtain same | ⟨_, _, _, _, -, -, same⟩ :=
      cases_of_sendEnqueue before ⟨id, none⟩ nodeName udsPath now outcome
    · rw [same]
      exact ⟨rfl, rfl, .inl fun _ => rfl⟩
    · rw [same]
      exact ⟨rfl, rfl, .inl fun _ => rfl⟩

theorem Arriving.sent (arriving : before.Arriving genuine) (held : ⟨id, none⟩ ∈ before.carried)
    (sends : Sends before after ⟨id, none⟩) : after.Arriving genuine := by
  rcases sends.carried with same | more
  · exact arriving.moved sends.headers same
  · exact arriving.copied held sends.headers more

/-- `ipc_deliver_rx_data` sends the message that it carries. -/
theorem Arriving.deliverSend (arriving : before.Arriving genuine) {actor : Actor}
    {rest : List Frame} {arrival : Arrival} (found : before.actors[thread]? = some actor)
    (frames : actor.frames = .delivering id arrival :: rest)
    (sends : Sends before after ⟨id, some arrival⟩) :
    (after.setActor thread { actor with frames := .delivered id :: rest }).Arriving genuine := by
  have changed : ∀ item,
      (after.setActor thread { actor with frames := .delivered id :: rest }).carried.count item +
          [⟨id, some arrival⟩].count item = after.carried.count item := by
    intro item
    have changed := carried_setActor after (sends.actors ▸ found)
      { actor with frames := .delivered id :: rest } item
    rw [count_carried_of_frames frames, count_carried_frames] at changed
    simp only [Frame.carried, List.count_nil] at changed
    omega
  rcases sends.carried with same | more
  · refine arriving.removed ⟨id, some arrival⟩ sends.headers ?_
    intro item
    have := same item
    have := changed item
    rw [List.count_singleton] at this
    rw [List.count_cons]
    omega
  · refine arriving.moved sends.headers ?_
    intro item
    have more := more item
    have := changed item
    rw [List.count_singleton] at this
    rw [List.count_cons] at more
    omega

theorem Arriving.arrived (arriving : before.Arriving genuine) (kept : before.Kept) {pool : Pool}
    {size headroom : UInt32} (alloc : before.pool.alloc size headroom = (pool, some id))
    {arrival : Option Arrival} {header : Header}
    (written : ∀ entry, arrival = some entry → header = entry.header ∧ genuine entry)
    (headers : after.headers = Function.update before.headers id header)
    (more : ∀ item, after.carried.count item = (⟨id, arrival⟩ :: before.carried).count item) :
    after.Arriving genuine := by
  unfold Arriving
  rw [headers]
  exact (Intact.fresh arriving (kept.not_carried alloc) written).perm
    (List.perm_iff_count.mpr fun item => (more item).symm)

theorem Arriving.deliver (arriving : before.Arriving genuine) (kept : before.Kept) {actor : Actor}
    {conn : Option Nat} {arrival : Arrival} {len : Nat} {ctx : Option Nat}
    (found : before.actors[thread]? = some actor) (arrives : genuine arrival)
    (delivered : before.deliver thread actor conn arrival len ctx = some after) :
    after.Arriving genuine := by
  obtain rfl | ⟨pool, id, alloc, made⟩ := cases_of_deliver delivered
  · exact arriving
  · have written : ∀ entry, some arrival = some entry →
        arrival.header = entry.header ∧ genuine entry := by
      rintro entry ⟨⟩
      exact ⟨rfl, arrives⟩
    have more : ∀ item,
        (before.setActor thread (actor.push (.delivering id arrival))).carried.count item =
          (⟨id, some arrival⟩ :: before.carried).count item := by
      intro item
      have changed := carried_setActor before found (actor.push (.delivering id arrival)) item
      rw [count_carried_push, Frame.carried, List.count_singleton] at changed
      rw [List.count_cons]
      omega
    obtain rfl | ⟨ctx, index, target, rfl⟩ := made
    · exact arriving.arrived kept alloc written rfl more
    · exact arriving.arrived kept alloc written rfl more

/-! ## Steps -/

theorem Arriving.written (arriving : before.Arriving genuine) (held : ⟨id, none⟩ ∈ before.carried)
    (header : Header) (headers : after.headers = Function.update before.headers id header)
    (carried : after.carried = before.carried) : after.Arriving genuine := by
  unfold Arriving
  rw [headers, carried]
  exact Intact.write arriving
    (fun _ present tagged => Intact.ne_of_untagged arriving present tagged held) header

theorem Arriving.entered (arriving : before.Arriving genuine) {actor : Actor}
    (found : before.actors[thread]? = some actor) {frame : Frame} (nothing : frame.carried = []) :
    (before.setActor thread (actor.push frame)).Arriving genuine := by
  refine arriving.moved rfl ?_
  intro item
  have changed := carried_setActor _ found (actor.push frame) item
  rw [count_carried_push, nothing, List.count_nil] at changed
  omega

/-- A thread that carries a message enters the next phase of a function. -/
theorem Arriving.dropped (arriving : before.Arriving genuine) {actor : Actor} {frame frame' : Frame}
    {rest : List Frame} (found : before.actors[thread]? = some actor)
    (frames : actor.frames = frame :: rest) {posted : Posted} (carries : frame.carried = [posted])
    (nothing : frame'.carried = []) :
    (before.setActor thread { actor with frames := frame' :: rest }).Arriving genuine := by
  refine arriving.removed posted rfl ?_
  intro item
  have changed := carried_setActor _ found { actor with frames := frame' :: rest } item
  rw [count_carried_of_frames frames, count_carried_frames, carries, nothing, List.count_nil,
    List.count_singleton] at changed
  rw [List.count_cons]
  omega

theorem Arriving.handed (arriving : before.Arriving genuine) {actor : Actor} {posted : Posted}
    {rest : List Frame} (found : before.actors[thread]? = some actor)
    (frames : actor.frames = .dequeued posted :: rest) (comp : CompRef) :
    (before.setActor thread { actor with frames := .onMsg posted comp :: rest }).Arriving genuine := by
  let idle : Layer := before.setActor thread { actor with frames := rest }
  have without : ∀ item, before.carried.count item = (posted :: idle.carried).count item := by
    intro item
    have changed := carried_setActor _ found { actor with frames := rest } item
    rw [count_carried_of_frames frames, Frame.carried, List.count_singleton] at changed
    rw [List.count_cons]
    dsimp only [idle]
    omega
  have handed : ∀ item,
      (before.setActor thread { actor with frames := .onMsg posted comp :: rest }).carried.count item =
        (⟨posted.buffer, none⟩ :: idle.carried).count item := by
    intro item
    have dropped := carried_setActor _ found { actor with frames := rest } item
    have changed :=
      carried_setActor _ found { actor with frames := .onMsg posted comp :: rest } item
    rw [count_carried_frames, Frame.carried, List.count_singleton] at changed
    rw [List.count_cons]
    dsimp only [idle]
    omega
  exact (Intact.perm arriving (List.perm_iff_count.mpr without)).untag.perm
    (List.perm_iff_count.mpr fun item => (handed item).symm)

theorem Arriving.txRound (arriving : before.Arriving genuine) {index : Nat} {actor : Actor}
    {rest : List Frame} {written : Bool} {sent : SendResult}
    (found : before.actors[thread]? = some actor)
    (frames : actor.frames = .transmitting index :: rest)
    (made : before.txRound thread index { actor with frames := rest } written sent = some after) :
    after.Arriving genuine := by
  have leave := arriving.left found frames rfl
  obtain rfl | ⟨conn, conn', -, -, rfl⟩ | ⟨conn, conn', item, -, -, rfl⟩ := cases_of_txRound made
  · exact leave
  · exact leave
  · exact arriving

theorem Arriving.discarded (arriving : before.Arriving genuine) {index : ThreadRef}
    {queue : MsgQueue} (found : before.queues[index]? = some queue) {posted : Posted}
    {ring : Ring Posted maxQueueSize} (popped : queue.ring.pop? = some (posted, ring)) :
    (before.setQueue index { queue with ring := ring }).Arriving genuine := by
  refine arriving.removed posted rfl ?_
  intro item
  have changed := carried_setQueue found { queue with ring := ring } item
  rw [posted_of_pop? popped, List.count_cons] at changed
  rw [List.count_cons]
  omega

theorem Arriving.purgeRound (arriving : before.Arriving genuine) (kept : before.Kept)
    {index : ThreadRef} {actor : Actor} {rest : List Frame} {queue : MsgQueue} {purge : Purge}
    (found : before.actors[thread]? = some actor) (frames : actor.frames = .purging index :: rest)
    (queue_found : before.queues[index]? = some queue) (purging : queue.purge = some purge) :
    (before.purgeRound thread { actor with frames := rest } index queue purge).Arriving genuine := by
  unfold Layer.purgeRound
  split
  · rename_i popped
    let finished : MsgQueue := { queue with ring := purge.kept, purge := none }
    have unchanged : finished.posted = queue.posted := posted_of_finished purging popped
    have same : (before.setQueue index finished).Arriving genuine := by
      refine arriving.moved rfl ?_
      intro item
      have changed := carried_setQueue queue_found finished item
      rw [unchanged] at changed
      omega
    exact same.left found frames rfl
  · rename_i posted ring popped
    split
    · exact arriving.discarded queue_found popped
    · refine arriving.moved rfl ?_
      intro item
      have changed := carried_setQueue queue_found
        { queue with ring := ring, purge := some { purge with kept := purge.kept.put posted } } item
      rw [(kept.posted_of_put queue_found purging popped).count_eq] at changed
      omega

theorem Arriving.step {op : LayerOp} (arriving : before.Arriving genuine) (kept : before.Kept)
    (arrives : ∀ arrival ∈ op.arrival, genuine arrival) (stepped : before.step op = some after) :
    after.Arriving genuine := by
  cases op with
  | configure tables =>
      obtain rfl := Option.some.inj stepped
      exact arriving
  | alloc thread size headroom =>
      obtain ⟨actor, found, -, -, made⟩ := cases_of_call stepped
      split at made
      · obtain rfl := Option.some.inj made
        exact arriving
      · rename_i pool id alloc
        obtain rfl := Option.some.inj made
        have untagged : ∀ entry, (none : Option Arrival) = some entry →
            before.headers id = entry.header ∧ genuine entry := by simp
        refine arriving.arrived kept alloc untagged
          (Function.update_eq_self id before.headers).symm ?_
        intro item
        have changed := carried_setActor before found { actor with held := id :: actor.held } item
        rw [count_carried_cons, List.count_cons] at changed
        rw [List.count_cons]
        change (before.setActor thread { actor with held := id :: actor.held }).carried.count item = _
        omega
  | retain thread id =>
      obtain ⟨actor, found, -, usable, made⟩ := cases_of_call stepped
      obtain rfl := Option.some.inj made
      refine arriving.copied (mem_carried_of_has found usable) rfl ?_
      intro item
      have changed := carried_setActor before found { actor with held := id :: actor.held } item
      rw [count_carried_cons, List.count_cons] at changed
      rw [List.count_cons]
      change (before.setActor thread { actor with held := id :: actor.held }).carried.count item = _
      omega
  | release thread id =>
      obtain ⟨actor, found, -, present, made⟩ := cases_of_call stepped
      obtain rfl := Option.some.inj made
      refine arriving.removed ⟨id, none⟩ rfl ?_
      intro item
      have changed := carried_setActor before found { actor with held := actor.held.erase id } item
      rw [count_carried_erase (by simpa using present), List.count_cons] at changed
      rw [List.count_cons]
      change _ = (before.setActor thread { actor with held := actor.held.erase id }).carried.count
        item + _
      omega
  | give thread receiver id =>
      obtain ⟨actor, found, -, present, made⟩ := cases_of_call stepped
      obtain ⟨taker, taker_found, rfl⟩ := Option.map_eq_some_iff.mp made
      refine arriving.moved rfl ?_
      intro item
      have given := carried_setActor before found { actor with held := actor.held.erase id } item
      have taken := carried_setActor _ taker_found { taker with held := id :: taker.held } item
      rw [count_carried_erase (by simpa using present), List.count_cons] at given
      rw [count_carried_cons, List.count_cons] at taken
      change ((before.setActor thread { actor with held := actor.held.erase id }).setActor receiver
        { taker with held := id :: taker.held }).carried.count item = _
      omega
  | write thread id header =>
      obtain ⟨actor, found, -, usable, made⟩ := cases_of_call stepped
      obtain rfl := Option.some.inj made
      exact arriving.written (mem_carried_of_has found usable) header rfl rfl
  | send thread id now outcome =>
      obtain ⟨actor, found, -, usable, made⟩ := cases_of_call stepped
      obtain ⟨⟨_, status⟩, sent, rfl⟩ := Option.map_eq_some_iff.mp made
      exact arriving.sent (mem_carried_of_has found usable) (sends_serviceMsgSend sent)
  | reply thread ctx id =>
      obtain ⟨actor, found, -, usable, made⟩ := cases_of_call stepped
      cases ctx with
      | none =>
          obtain rfl := Option.some.inj made
          exact arriving
      | some ctx =>
          obtain ⟨entry, -, rfl⟩ := Option.map_eq_some_iff.mp made
          have written : (before.serviceReply entry id).Arriving genuine :=
            arriving.written (mem_carried_of_has found usable) _ rfl rfl
          exact written.entered found rfl
  | sendReply thread =>
      obtain ⟨actor, ctx, id, rest, status, found, -, frames, sent⟩ := cases_of_sendReply stepped
      obtain ⟨conn, -, same⟩ := Option.map_eq_some_iff.mp sent
      obtain ⟨rfl, -⟩ := Prod.mk.inj same
      exact arriving.left found frames rfl
  | retainCtx ctx =>
      obtain ⟨entry, -, rfl⟩ := Option.map_eq_some_iff.mp stepped
      exact arriving
  | releaseCtx ctx =>
      simp only [Layer.step, Option.ite_none_right_eq_some, Option.some.injEq] at stepped
      obtain ⟨-, rfl⟩ := stepped
      exact arriving
  | processTx thread index =>
      obtain rfl | ⟨actor, found, -, rfl⟩ := cases_of_processTx stepped
      · exact arriving
      · exact arriving.entered found rfl
  | txRound thread written sent =>
      obtain ⟨⟨actor, frame, rest⟩, entered, made⟩ := Option.bind_eq_some_iff.mp stepped
      obtain ⟨found, -, frames⟩ := cases_of_inFrame entered
      cases frame with
      | transmitting index => exact arriving.txRound found frames made
      | _ => cases made
  | dequeue thread index =>
      obtain ⟨actor, found, -, -, made⟩ := cases_of_call stepped
      obtain ⟨queue, opened, made⟩ := Option.bind_eq_some_iff.mp made
      obtain ⟨⟨posted, ring⟩, popped, rfl⟩ := Option.map_eq_some_iff.mp made
      obtain ⟨queue_found, -⟩ := cases_of_openQueue opened
      refine arriving.moved rfl ?_
      intro item
      have taken := carried_setQueue queue_found { queue with ring := ring } item
      have pushed := carried_setActor (before.setQueue index { queue with ring := ring })
        found (actor.push (.dequeued posted)) item
      rw [posted_of_pop? popped, List.count_cons] at taken
      rw [count_carried_push, Frame.carried, List.count_singleton] at pushed
      dsimp only
      omega
  | dispatch thread =>
      obtain ⟨⟨actor, frame, rest⟩, entered, made⟩ := Option.bind_eq_some_iff.mp stepped
      obtain ⟨found, -, frames⟩ := cases_of_inFrame entered
      cases frame with
      | dequeued posted =>
          simp only at made
          split at made
          · obtain rfl := Option.some.inj made
            exact arriving.handed found frames _
          · obtain rfl := Option.some.inj made
            exact arriving.dropped found frames rfl rfl
      | _ => cases made
  | returned thread =>
      obtain ⟨⟨actor, frame, rest⟩, entered, made⟩ := Option.bind_eq_some_iff.mp stepped
      obtain ⟨found, -, frames⟩ := cases_of_inFrame entered
      cases frame with
      | onMsg posted comp =>
          obtain rfl := Option.some.inj made
          exact arriving.dropped found frames rfl rfl
      | _ => cases made
  | finish thread =>
      obtain ⟨⟨actor, frame, rest⟩, entered, made⟩ := Option.bind_eq_some_iff.mp stepped
      obtain ⟨found, -, frames⟩ := cases_of_inFrame entered
      cases frame with
      | dispatched posted | received id | delivered id =>
          obtain rfl := Option.some.inj made
          exact arriving.left found frames rfl
      | _ => cases made
  | receive thread size header =>
      obtain ⟨actor, found, -, -, made⟩ := cases_of_call stepped
      split at made
      · obtain rfl := Option.some.inj made
        exact arriving
      · rename_i pool id alloc
        obtain rfl := Option.some.inj made
        have entered := arriving.entered found (show (Frame.received id).carried = [] from rfl)
        refine Intact.write entered ?_ header
        intro posted present _ same
        have carried : posted.buffer ∈ before.carried.map Posted.buffer := by
          have unchanged : (before.setActor thread (actor.push (.received id))).carried.Perm
              before.carried := by
            refine List.perm_iff_count.mpr fun item => ?_
            have changed := carried_setActor before found (actor.push (.received id)) item
            rw [count_carried_push, Frame.carried, List.count_nil] at changed
            omega
          exact List.mem_map_of_mem (unchanged.mem_iff.mp present)
        exact kept.not_carried alloc (same ▸ carried)
  | deliver thread conn arrival len ctx =>
      obtain ⟨⟨actor, frame, rest⟩, entered, made⟩ := Option.bind_eq_some_iff.mp stepped
      obtain ⟨found, -, -⟩ := cases_of_inFrame entered
      cases frame with
      | received id => exact arriving.deliver kept found (arrives arrival rfl) made
      | _ => cases made
  | deliverSend thread now outcome =>
      obtain ⟨⟨actor, frame, rest⟩, entered, made⟩ := Option.bind_eq_some_iff.mp stepped
      obtain ⟨found, -, frames⟩ := cases_of_inFrame entered
      cases frame with
      | delivering id arrival =>
          obtain ⟨⟨sent, status⟩, sends, rfl⟩ := Option.map_eq_some_iff.mp made
          exact arriving.deliverSend found frames (sends_serviceMsgSend sends)
      | _ => cases made
  | startPurge thread index provider allocated =>
      obtain ⟨actor, found, -, -, made⟩ := cases_of_call stepped
      obtain ⟨queue, opened, rfl⟩ := Option.map_eq_some_iff.mp made
      obtain ⟨queue_found, no_purge⟩ := cases_of_openQueue opened
      cases allocated with
      | false => exact arriving
      | true =>
          let purging : MsgQueue := { queue with purge := some ⟨provider, emptyKept⟩ }
          have unchanged : purging.posted = queue.posted := by
            have empty : emptyKept.contents = [] := Ring.contents_empty _ _
            simp [purging, MsgQueue.posted, no_purge, empty]
          have same : (before.setQueue index purging).Arriving genuine := by
            refine arriving.moved rfl ?_
            intro item
            have changed := carried_setQueue queue_found purging item
            rw [unchanged] at changed
            omega
          exact same.entered found rfl
  | purgeRound thread =>
      obtain ⟨⟨actor, frame, rest⟩, entered, made⟩ := Option.bind_eq_some_iff.mp stepped
      obtain ⟨found, -, frames⟩ := cases_of_inFrame entered
      cases frame with
      | purging index =>
          obtain ⟨queue, queue_found, made⟩ := Option.bind_eq_some_iff.mp made
          obtain ⟨purge, purging, rfl⟩ := Option.map_eq_some_iff.mp made
          exact arriving.purgeRound kept found frames queue_found purging
      | _ => cases made
  | discard thread index =>
      obtain ⟨actor, -, -, -, made⟩ := cases_of_call stepped
      obtain ⟨queue, opened, rfl⟩ := Option.map_eq_some_iff.mp made
      obtain ⟨queue_found, -⟩ := cases_of_openQueue opened
      split
      · refine arriving.moved rfl ?_
        intro item
        have changed := carried_setQueue queue_found { queue with freed := true } item
        change _ + queue.posted.count item = _ + queue.posted.count item at changed
        omega
      · rename_i posted ring popped
        exact arriving.discarded queue_found popped
  | accept fd =>
      obtain rfl := Option.some.inj stepped
      exact arriving
  | disconnect index =>
      obtain rfl := Option.some.inj stepped
      exact arriving
  | setup index peerNode shmName opened =>
      obtain ⟨conn, -, rfl⟩ := Option.map_eq_some_iff.mp stepped
      exact arriving
  | putBack thread =>
      obtain ⟨id, -, rfl⟩ := Option.map_eq_some_iff.mp stepped
      unfold Layer.putBack
      dsimp only
      split
      · exact arriving
      · exact arriving

theorem arriving_of_initial {config : List PoolDef} {layer : Layer}
    (initial : layer.Initial config) (genuine : Arrival → Prop) : layer.Arriving genuine := by
  have nothing : layer.carried = [] := by
    have queues : layer.queues.flatMap MsgQueue.posted = [] := by
      rw [List.flatMap_eq_nil_iff]
      intro queue present
      obtain ⟨empty, no_purge⟩ := initial.queues queue present
      simp [MsgQueue.posted, empty, no_purge]
    have actors : layer.actors.flatMap Actor.carried = [] := by
      rw [List.flatMap_eq_nil_iff]
      intro actor present
      rw [initial.actors actor present]
      rfl
    rw [carried, queues, actors, List.append_nil]
  unfold Arriving
  rw [nothing]
  exact ⟨by simp, by simp⟩

end Layer

end CodexNos.Messaging
