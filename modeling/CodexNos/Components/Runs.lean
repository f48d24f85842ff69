import CodexNos.Components.Balance
import CodexNos.Messaging.Effects

/-!
# Runs of a node with its components

The threads of a node run the handlers of its components and the commands of its command line on
the messaging layer, call by call and interleaved with everything else that the node does.  As long
as no handler leaks, a thread that runs none holds no reference, and the pool is full again whenever
nothing is queued.
-/

namespace CodexNos.Components

open Lib Lib.Transition Memory Messaging Ipc

/-- What the surroundings contribute to a call. -/
structure Env where
  /-- The time. -/
  now : Nat
  /-- The outcome of a connection attempt. -/
  outcome : ConnectOutcome
  /-- The word that is read from a payload. -/
  word : UInt32
  /-- The result of the key-value store. -/
  stored : Status

/-! ## Calls on the layer -/

namespace Call

/-- The step of the layer that a call takes, or its last one. -/
def op (layer : Layer) (thread : Nat) (env : Env) : Call → Option LayerOp
  | .bufferAlloc size headroom => some (.alloc thread size headroom)
  | .bufferRelease buf => some (.release thread buf)
  | .assign buf fields => some (.write thread buf (fields (layer.headers buf)))
  | .serviceMsgSend buf => some (.send thread buf env.now env.outcome)
  | .serviceReply none buf => some (.reply thread none buf)
  | .serviceReply (some _) _ => some (.sendReply thread)
  | _ => none

/-- The thread is outside of the layer, or in `nos_service_reply` if this is the call. -/
def ready (layer : Layer) (thread : Nat) : Call → Bool
  | .serviceReply (some _) buf =>
      (layer.inFrame thread).any fun (_, frame, _) => frame.replyBuffer = some buf
  | _ => (layer.caller thread).isSome

/-- The step with which a call begins that takes two of them. -/
def begins (layer : Layer) (thread : Nat) : Call → Option LayerOp
  | .serviceReply (some ctx) buf =>
      if ready layer thread (.serviceReply (some ctx) buf) then none
      else some (.reply thread (some ctx) buf)
  | _ => none

/-- The first bytes of the payload are in the chunk of a buffer. -/
def inChunk (layer : Layer) (buf : BufferId) (len : Nat) : Bool :=
  headerSize + len ≤ (layer.pool.buffer buf).capacity.toNat

/-- What a call returns.  There is no result if it accesses memory outside of its buffer. -/
def answer (layer : Layer) (thread : Nat) (env : Env) : (input : Call) → Option (Answer input)
  | .bufferAlloc size headroom => some (layer.pool.alloc size headroom).2
  | .bufferRelease _ => some ()
  | .envelope buf => some (layer.headers buf)
  | .payloadWord _ _ => some env.word
  | .assign _ _ => some ()
  | .putWord buf index _ => if inChunk layer buf (4 * (index + 1)) then some () else none
  | .memset buf _ len => if inChunk layer buf len.toNat then some () else none
  | .memcpy buf source len =>
      if inChunk layer buf len.toNat ∧ inChunk layer source len.toNat then some () else none
  | .getReplyCtx buf => some (layer.pool.buffer buf).replyCtx
  | .serviceMsgSend buf => (layer.serviceMsgSend buf none env.now env.outcome).map Prod.snd
  | .serviceReply none _ => some Status.err
  | .serviceReply (some _) _ =>
      (layer.inFrame thread).bind fun
        | (_, .replying entry id, _) => (layer.sendReply entry id).map Prod.snd
        | _ => none
  | .kvPut _ _ _ => some env.stored
  | .log => some ()
  | .nullAccess => none

/-- Make a call, or the last step of it. -/
def perform (layer : Layer) (thread : Nat) (env : Env) (input : Call) :
    Option (Layer × Answer input) :=
  if input.ready layer thread then
    (input.answer layer thread env).bind fun answer =>
      ((input.op layer thread env).elim (some layer) layer.step).map fun after => (after, answer)
  else none

end Call

/-! ## The node -/

/-- A component of the node. -/
structure Instance where
  /-- `name`. -/
  name : List UInt8
  /-- Its code and private data. -/
  shipped : Shipped

/-- A handler or command in progress. -/
structure Task where
  /-- Where it was entered. -/
  entry : Entry
  /-- The calls that it has made. -/
  events : List Event
  /-- What it still has to do. -/
  rest : Handler (Option Shipped)

/-- A node with its components. -/
structure Host where
  /-- The service ids. -/
  ids : ServiceIds
  /-- The messaging layer. -/
  layer : Layer
  /-- The components. -/
  comps : CompRef → Instance
  /-- What the threads run outside of the layer. -/
  tasks : Nat → Option Task

/-- The thread of a function of the node that is not a call of other code. -/
def ownThread : LayerOp → Option Nat
  | .processTx thread _ | .txRound thread _ _ | .dequeue thread _ | .finish thread
  | .receive thread _ _ | .deliver thread _ _ _ _ | .deliverSend thread _ _
  | .startPurge thread _ _ _ | .purgeRound thread | .discard thread _ | .putBack thread =>
      some thread
  | _ => none

/-- The step is a function of the node and not a call of other code. -/
def isOwn : LayerOp → Bool
  | .configure _ | .accept _ | .disconnect _ | .setup _ _ _ _ => true
  | op => (ownThread op).isSome

/-- The function is called by sending and releasing. -/
def withinCall : LayerOp → Bool
  | .processTx _ _ | .txRound _ _ _ | .putBack _ => true
  | _ => false

/-- A step of a node. -/
inductive HostOp
  /-- A function of the node. -/
  | own (op : LayerOp)
  /-- `process_thread_messages` looks for the component and calls it. -/
  | dispatch (thread : Nat)
  /-- The timer of the first component calls `heartbeat_callback`. -/
  | expire (thread : Nat) (comp : CompRef)
  /-- The command line runs a command. -/
  | command (thread : Nat) (command : Command)
  /-- A handler makes its next call, or the first or the second step of it. -/
  | call (thread : Nat) (env : Env)
  /-- A handler returns. -/
  | leave (thread : Nat)

namespace Host

/-- What a handler sees of its instance. -/
def self (host : Host) (comp : CompRef) : Self :=
  ⟨(host.layer.tables.component comp).id, (host.comps comp).name⟩

/-- The function that a thread is in. -/
def topFrame (layer : Layer) (thread : Nat) : Option Frame :=
  (layer.actors[thread]?).bind fun actor => actor.frames.head?

/-- A thread enters a handler. -/
def enter (host : Host) (thread : Nat) (entry : Entry) : Host :=
  { host with
    tasks := Function.update host.tasks thread (some ⟨entry, [], entry.program host.ids⟩) }

/-- A thread is between its messages. -/
def idle (host : Host) (thread : Nat) : Bool :=
  (host.tasks thread).isNone &&
    (host.layer.caller thread).any fun actor => actor.frames.isEmpty

/-- A function of the node may run. -/
def permits (host : Host) (op : LayerOp) : Bool :=
  isOwn op && (withinCall op || (ownThread op).all fun thread => (host.tasks thread).isNone)

/-- The private data that a handler leaves. -/
def store (host : Host) : Entry → Option Shipped → CompRef → Instance
  | .message comp _ _ _, some shipped =>
      Function.update host.comps comp { host.comps comp with shipped := shipped }
  | _, _ => host.comps

/-- Return from an entry point. -/
def exit (host : Host) (thread : Nat) : Entry → Option Layer
  | .message _ _ _ _ => host.layer.step (.returned thread)
  | _ => (host.layer.caller thread).map fun _ => host.layer

/-- Perform one step. -/
def step (host : Host) : HostOp → Option Host
  | .own op =>
      if host.permits op then (host.layer.step op).map fun layer => { host with layer := layer }
      else none
  | .dispatch thread =>
      if (host.tasks thread).isSome then none
      else
        (host.layer.step (.dispatch thread)).map fun layer =>
          let dispatched := { host with layer := layer }
          match topFrame layer thread with
          | some (.onMsg posted comp) =>
              dispatched.enter thread
                (.message comp (dispatched.self comp) posted.buffer (host.comps comp).shipped)
          | _ => dispatched
  | .expire thread comp =>
      if host.idle thread ∧ (host.comps comp).shipped = .model1 then
        some (host.enter thread (.heartbeat (host.self comp)))
      else none
  | .command thread command =>
      if host.idle thread then some (host.enter thread (.command command)) else none
  | .call thread env =>
      (host.tasks thread).bind fun task =>
        match task.rest with
        | .done _ => none
        | .call input next =>
            match input.begins host.layer thread with
            | some op => (host.layer.step op).map fun layer => { host with layer := layer }
            | none =>
                (input.perform host.layer thread env).map fun (layer, answer) =>
                  { host with
                    layer := layer
                    tasks :=
                      Function.update host.tasks thread
                        (some ⟨task.entry, task.events ++ [⟨input, answer⟩], next answer⟩) }
  | .leave thread =>
      (host.tasks thread).bind fun task =>
        match task.rest with
        | .call _ _ => none
        | .done result =>
            (host.exit thread task.entry).map fun layer =>
              { host with
                layer := layer
                comps := host.store task.entry result
                tasks := Function.update host.tasks thread none }

/-- A node at its start. -/
structure Initial (config : List PoolDef) (host : Host) : Prop where
  layer : host.layer.Initial config
  tasks : ∀ thread, host.tasks thread = none

/-- Nothing is queued and no thread is in a function. -/
structure Quiet (host : Host) : Prop where
  queues : ∀ queue ∈ host.layer.queues, queue.posted = []
  conns : ∀ conn ∈ host.layer.conns.conns, conn.txQueue.contents = []
  actors : ∀ actor ∈ host.layer.actors, actor.frames = []
  releasing : ∀ thread, host.layer.releasing thread = none
  tasks : ∀ thread, host.tasks thread = none

/-- A thread that runs no handler holds no reference, and the pool is full when nothing is
queued. -/
structure Balanced (host : Host) : Prop where
  held : ∀ thread actor, host.tasks thread = none → host.layer.actors[thread]? = some actor →
    actor.held = []
  used : host.Quiet → ∀ bin < host.layer.pool.binCount, (host.layer.pool.bins bin).usedCount = 0

/-- No handler returns that has kept a reference. -/
def NoLeak (host : Host) : HostOp → Prop
  | .leave thread => ∀ task ∈ host.tasks thread, ¬ task.entry.Leaks task.events
  | _ => True

instance (host : Host) (op : HostOp) : Decidable (host.NoLeak op) := by
  unfold NoLeak
  split <;> infer_instance

/-- What the handler of a thread holds. -/
def holding (host : Host) (thread : Nat) : List BufferId :=
  heldAfter (((host.tasks thread).map Task.events).getD [])

/-- What the handler of a thread has not handed to anyone. -/
def unshared (host : Host) (thread : Nat) : List BufferId :=
  freshAfter (((host.tasks thread).map Task.events).getD [])

end Host

/-! ## Handlers and the layer -/

/-- The layer agrees with what the threads hold, and nobody else has their new buffers. -/
structure Fits (layer : Layer) (holding unshared : Nat → List BufferId) : Prop where
  kept : layer.Kept
  ready : layer.Ready
  held : ∀ (thread : Nat) (actor : Actor), layer.actors[thread]? = some actor →
    actor.held = holding thread
  running : ∀ thread, holding thread ≠ [] → thread < layer.actors.length
  within : ∀ thread id, (unshared thread).count id ≤ (holding thread).count id
  unshared : ∀ thread, ∀ id ∈ unshared thread, layer.references.count id ≤ 1
  delivering : ∀ (thread : Nat) (actor : Actor) (id : BufferId) (arrival : Arrival),
    layer.actors[thread]? = some actor → Frame.delivering id arrival ∈ actor.frames →
      layer.references.count id ≤ 1

namespace Fits

variable {layer after : Layer} {holding unshared unshared' : Nat → List BufferId}
  {thread : Nat} {id : BufferId} {op : LayerOp}

theorem mem_holding (fits : Fits layer holding unshared) (fresh : id ∈ unshared thread) :
    id ∈ holding thread :=
  List.count_pos_iff.mp ((List.count_pos_iff.mpr fresh).trans_le (fits.within thread id))

theorem holder (fits : Fits layer holding unshared) (fresh : id ∈ unshared thread) :
    ∃ actor, layer.actors[thread]? = some actor ∧ id ∈ actor.held := by
  have inside := fits.mem_holding fresh
  have bound := fits.running thread (List.ne_nil_of_mem inside)
  have found : layer.actors[thread]? = some layer.actors[thread] := List.getElem?_eq_getElem bound
  exact ⟨_, found, fits.held thread _ found ▸ inside⟩

theorem mem_references (fits : Fits layer holding unshared) (fresh : id ∈ unshared thread) :
    id ∈ layer.references := by
  obtain ⟨actor, found, inside⟩ := fits.holder fresh
  have counted := List.count_pos_iff.mpr (List.mem_append_right actor.working inside)
  exact List.count_pos_iff.mp (counted.trans_le (Layer.count_buffers_le found id))

theorem apart (fits : Fits layer holding unshared) (fresh : id ∈ unshared thread)
    {thread' : Nat} {actor' : Actor} (found' : layer.actors[thread']? = some actor')
    (inside : id ∈ actor'.buffers) : thread = thread' := by
  by_contra distinct
  obtain ⟨actor, found, held⟩ := fits.holder fresh
  have mine := List.count_pos_iff.mpr (List.mem_append_right actor.working held)
  have other := List.count_pos_iff.mpr inside
  have both := Layer.count_buffers_add_le found found' distinct id
  have single := fits.unshared thread id fresh
  unfold Actor.buffers at both other
  omega

theorem mem_working_of_delivering {actor : Actor} {arrival : Arrival}
    (inside : Frame.delivering id arrival ∈ actor.frames) : id ∈ actor.working :=
  List.mem_flatMap.mpr ⟨_, inside, List.mem_singleton_self id⟩

theorem not_delivering (fits : Fits layer holding unshared) (fresh : id ∈ unshared thread)
    {thread' : Nat} {actor' : Actor} {arrival : Arrival}
    (found' : layer.actors[thread']? = some actor')
    (inside : Frame.delivering id arrival ∈ actor'.frames) : False := by
  have working := mem_working_of_delivering inside
  obtain rfl := fits.apart fresh found' (List.mem_append_left _ working)
  have held : id ∈ actor'.held := fits.held thread actor' found' ▸ fits.mem_holding fresh
  have once := List.count_pos_iff.mpr working
  have twice := List.count_pos_iff.mpr held
  have all := Layer.count_buffers_le found' id
  have single := fits.unshared thread id fresh
  rw [Actor.buffers, List.count_append] at all
  omega

/-- A step keeps the balance of the references if it retains only buffers with one reference. -/
theorem kept_step (fits : Fits layer holding unshared) (stepped : layer.step op = some after)
    (single : ∀ id, layer.retainTarget op = some id → layer.references.count id ≤ 1) :
    after.Kept := by
  refine fits.kept.step fits.ready ?_ stepped
  intro id target
  have := single id target
  omega

theorem mem_references_of_delivering {actor : Actor} {arrival : Arrival}
    (found : layer.actors[thread]? = some actor)
    (inside : Frame.delivering id arrival ∈ actor.frames) : id ∈ layer.references := by
  have working := mem_working_of_delivering inside
  have counted := List.count_pos_iff.mpr (List.mem_append_left actor.held working)
  exact List.count_pos_iff.mp (counted.trans_le (Layer.count_buffers_le found id))

theorem moved (fits : Fits layer holding unshared) (stepped : layer.step op = some after)
    (same : Layer.SameHeld layer after)
    (fewer : ∀ thread id, (unshared' thread).count id ≤ (unshared thread).count id)
    (mine : ∀ id, layer.retainTarget op = some id → ∃ thread, id ∈ unshared thread)
    (gone : ∀ id, layer.retainTarget op = some id → ∀ thread, id ∉ unshared' thread) :
    Fits after holding unshared' := by
  have kept' : after.Kept := by
    refine fits.kept_step stepped fun id target => ?_
    obtain ⟨thread, fresh⟩ := mine id target
    exact fits.unshared thread id fresh
  refine ⟨kept', fits.ready.step stepped, ?_, ?_, ?_, ?_, ?_⟩
  · intro thread actor' found'
    obtain ⟨actor, found, held, -⟩ := same.thread thread actor' found'
    rw [held, fits.held thread actor found]
  · intro thread nonempty
    rw [same.length]
    exact fits.running thread nonempty
  · intro thread id
    exact (fewer thread id).trans (fits.within thread id)
  · intro thread id fresh'
    have fresh : id ∈ unshared thread :=
      List.count_pos_iff.mp ((List.count_pos_iff.mpr fresh').trans_le (fewer thread id))
    exact Layer.count_le_one_of_step fits.kept kept' stepped (fits.mem_references fresh)
      (fits.unshared thread id fresh) fun target => gone id target thread fresh'
  · intro thread actor' id arrival found' inside'
    obtain ⟨actor, found, -, frames⟩ := same.thread thread actor' found'
    rcases frames id arrival inside' with inside | new
    · refine Layer.count_le_one_of_step fits.kept kept' stepped
        (mem_references_of_delivering found inside)
        (fits.delivering thread actor id arrival found inside) fun target => ?_
      obtain ⟨thread', fresh⟩ := mine id target
      exact fits.not_delivering fresh found inside
    · exact kept'.count_le_one new

theorem deliverSend (fits : Fits layer holding unshared) {now : Nat} {outcome : ConnectOutcome}
    (stepped : layer.step (.deliverSend thread now outcome) = some after) :
    Fits after holding unshared := by
  obtain ⟨actor, id, arrival, rest, found, entered, frames, actors, -⟩ :=
    Layer.cases_of_deliverSend stepped
  have target : layer.retainTarget (.deliverSend thread now outcome) = some id := by
    simp [Layer.retainTarget, entered]
  have inside : Frame.delivering id arrival ∈ actor.frames := frames ▸ List.mem_cons_self
  have single := fits.delivering thread actor id arrival found inside
  have kept' : after.Kept := by
    refine fits.kept_step stepped fun other target' => ?_
    obtain rfl : id = other := Option.some.inj (target.symm.trans target')
    exact single
  have same : Layer.SameHeld layer after := Layer.sameHeld_of_step rfl stepped
  -- The sent message is in no other delivery, nor is it new to a handler.
  have once : ∀ (thread' : Nat) (actor' : Actor) (arrival' : Arrival),
      after.actors[thread']? = some actor' → Frame.delivering id arrival' ∉ actor'.frames := by
    intro thread' actor' arrival' found' inside'
    rw [actors, List.getElem?_set] at found'
    have mine := Layer.count_buffers_le found id
    rw [Layer.count_buffers_of_frames frames, Frame.buffers, List.count_singleton_self] at mine
    split at found'
    · split at found'
      · obtain rfl := Option.some.inj found'
        rcases List.mem_cons.mp inside' with other | inside'
        · cases other
        · have twice := List.count_pos_iff.mpr
            (List.mem_flatMap.mpr ⟨_, inside', List.mem_singleton_self id⟩ :
              id ∈ rest.flatMap Frame.buffers)
          omega
      · cases found'
    · rename_i distinct
      have both := Layer.count_buffers_add_le found found' distinct id
      have twice := List.count_pos_iff.mpr
        (List.mem_append_left actor'.held (mem_working_of_delivering inside'))
      rw [Layer.count_buffers_of_frames frames, Frame.buffers, List.count_singleton_self] at both
      unfold Actor.buffers at both
      omega
  refine ⟨kept', fits.ready.step stepped, ?_, ?_, fits.within, ?_, ?_⟩
  · intro thread' actor' found'
    obtain ⟨actor, found, held, -⟩ := same.thread thread' actor' found'
    rw [held, fits.held thread' actor found]
  · intro thread' nonempty
    rw [same.length]
    exact fits.running thread' nonempty
  · intro thread' other fresh
    refine Layer.count_le_one_of_step fits.kept kept' stepped (fits.mem_references fresh)
      (fits.unshared thread' other fresh) fun target' => ?_
    obtain rfl : id = other := Option.some.inj (target.symm.trans target')
    exact fits.not_delivering fresh found inside
  · intro thread' actor' other arrival' found' inside'
    obtain ⟨actor, found, -, delivered⟩ := same.thread thread' actor' found'
    rcases delivered other arrival' inside' with inside | new
    · refine Layer.count_le_one_of_step fits.kept kept' stepped
        (mem_references_of_delivering found inside)
        (fits.delivering thread' actor other arrival' found inside) fun target' => ?_
      obtain rfl : id = other := Option.some.inj (target.symm.trans target')
      exact once thread' actor' arrival' found' inside'
    · exact kept'.count_le_one new

theorem changed (fits : Fits layer holding unshared) (stepped : layer.step op = some after)
    (target : layer.retainTarget op = none) {actor : Actor} {held fresh : List BufferId}
    (found : layer.actors[thread]? = some actor)
    (actors : after.actors = layer.actors.set thread { actor with held := held })
    (within : ∀ id, fresh.count id ≤ held.count id)
    (new : ∀ id ∈ fresh, id ∈ unshared thread ∨ (after.pool.buffer id).refCnt = 1) :
    Fits after (Function.update holding thread held) (Function.update unshared thread fresh) := by
  have kept' : after.Kept := fits.kept_step stepped fun id target' => by simp [target] at target'
  have stays {thread' : Nat} {id : BufferId} (inside : id ∈ unshared thread') :
      after.references.count id ≤ 1 :=
    Layer.count_le_one_of_step fits.kept kept' stepped (fits.mem_references inside)
      (fits.unshared thread' id inside) (by simp [target])
  have bound : thread < layer.actors.length := (List.getElem?_eq_some_iff.mp found).1
  refine ⟨kept', fits.ready.step stepped, ?_, ?_, ?_, ?_, ?_⟩
  · intro thread' actor' found'
    rw [actors, List.getElem?_set] at found'
    split at found'
    · rename_i same
      subst same
      obtain rfl := Option.some.inj found'
      rw [Function.update_self]
    · rename_i distinct
      rw [Function.update_of_ne (Ne.symm distinct), fits.held thread' actor' found']
  · intro thread' nonempty
    rw [actors, List.length_set]
    by_cases same : thread' = thread
    · exact same ▸ bound
    · rw [Function.update_of_ne same] at nonempty
      exact fits.running thread' nonempty
  · intro thread' id
    by_cases same : thread' = thread
    · subst same
      rw [Function.update_self, Function.update_self]
      exact within id
    · rw [Function.update_of_ne same, Function.update_of_ne same]
      exact fits.within thread' id
  · intro thread' id inside
    by_cases same : thread' = thread
    · subst same
      rw [Function.update_self] at inside
      rcases new id inside with old | one
      · exact stays old
      · exact kept'.count_le_one one
    · rw [Function.update_of_ne same] at inside
      exact stays inside
  · intro thread' actor' id arrival found' inside'
    have before : ∃ actor : Actor, layer.actors[thread']? = some actor ∧
        Frame.delivering id arrival ∈ actor.frames := by
      rw [actors, List.getElem?_set] at found'
      split at found'
      · rename_i same
        subst same
        obtain rfl := Option.some.inj found'
        exact ⟨actor, found, inside'⟩
      · exact ⟨actor', found', inside'⟩
    obtain ⟨actor, found, inside⟩ := before
    exact Layer.count_le_one_of_step fits.kept kept' stepped
      (mem_references_of_delivering found inside)
      (fits.delivering thread' actor id arrival found inside) (by simp [target])

/-- A step that retains nothing and changes nothing of what callers hold. -/
theorem plain (fits : Fits layer holding unshared) (stepped : layer.step op = some after)
    (same : Layer.changesHeld op = false) (target : layer.retainTarget op = none) :
    Fits after holding unshared := by
  refine fits.moved stepped (Layer.sameHeld_of_step same stepped) ?_ ?_ ?_
  · exact fun _ _ => Nat.le_refl _
  · exact fun _ target' => by simp [target] at target'
  · exact fun _ target' => by simp [target] at target'

theorem own (fits : Fits layer holding unshared) (owned : isOwn op)
    (stepped : layer.step op = some after) : Fits after holding unshared := by
  cases op with
  | deliverSend thread now outcome => exact fits.deliverSend stepped
  | alloc _ _ _ => cases owned
  | retain _ _ => cases owned
  | release _ _ => cases owned
  | give _ _ _ => cases owned
  | write _ _ _ => cases owned
  | send _ _ _ _ => cases owned
  | reply _ _ _ => cases owned
  | sendReply _ => cases owned
  | _ => exact fits.plain stepped rfl rfl

theorem update_self (fits : Fits layer holding unshared) :
    Fits layer (Function.update holding thread (holding thread))
      (Function.update unshared thread (unshared thread)) := by
  rwa [Function.update_eq_self, Function.update_eq_self]

theorem handed (fits : Fits layer holding unshared) (stepped : layer.step op = some after)
    (same : Layer.changesHeld op = false)
    (target : ∀ other, layer.retainTarget op = some other → id = other)
    (fresh : id ∈ unshared thread) :
    Fits after (Function.update holding thread (holding thread))
      (Function.update unshared thread ((unshared thread).erase id)) := by
  rw [Function.update_eq_self]
  refine fits.moved stepped (Layer.sameHeld_of_step same stepped) ?_ ?_ ?_
  · intro thread' other
    by_cases mine : thread' = thread
    · subst mine
      rw [Function.update_self]
      exact List.erase_sublist.count_le other
    · rw [Function.update_of_ne mine]
  · intro other target'
    obtain rfl := target other target'
    exact ⟨thread, fresh⟩
  · intro other target' thread' inside
    obtain rfl := target other target'
    by_cases mine : thread' = thread
    · subst mine
      rw [Function.update_self] at inside
      obtain ⟨actor, found, held⟩ := fits.holder fresh
      have left := List.count_pos_iff.mpr inside
      rw [List.count_erase_self] at left
      have most := fits.within thread' id
      have all := Layer.count_buffers_le found id
      rw [Actor.buffers, List.count_append, fits.held thread' actor found] at all
      have single := fits.unshared thread' id fresh
      omega
    · rw [Function.update_of_ne mine] at inside
      obtain ⟨actor, found, held⟩ := fits.holder inside
      exact mine (fits.apart fresh found (List.mem_append_right _ held)).symm

/-- `nos_service_reply` writes the header. -/
theorem begun (fits : Fits layer holding unshared) {input : Call}
    (begun : input.begins layer thread = some op) (stepped : layer.step op = some after) :
    Fits after holding unshared := by
  unfold Call.begins at begun
  split at begun
  · split at begun
    · cases begun
    · obtain rfl := Option.some.inj begun
      exact fits.plain stepped rfl rfl
  · cases begun

theorem perform (fits : Fits layer holding unshared) {past : List Event} {input : Call}
    {env : Env} {answer : Answer input} (fresh : freshAfter past = unshared thread)
    (allowed : Allowed past input)
    (performed : input.perform layer thread env = some (after, answer)) :
    Fits after (Function.update holding thread (hold (holding thread) ⟨input, answer⟩))
      (Function.update unshared thread (keep (unshared thread) ⟨input, answer⟩)) := by
  obtain ⟨called, performed⟩ := (Option.ite_none_right_eq_some.mp performed)
  obtain ⟨answer', answered, performed⟩ := Option.bind_eq_some_iff.mp performed
  obtain ⟨after', stepped, same⟩ := Option.map_eq_some_iff.mp performed
  obtain ⟨rfl, rfl⟩ := Prod.mk.inj same
  cases input with
  | bufferAlloc size headroom =>
      obtain rfl := Option.some.inj answered
      have stepped : layer.step (.alloc thread size headroom) = some after' := stepped
      obtain ⟨actor, found, -, -, made⟩ := Layer.cases_of_call stepped
      split at made
      · rename_i failed
        obtain rfl := Option.some.inj made
        rw [failed]
        exact fits.update_self
      · rename_i pool id alloc
        obtain rfl := Option.some.inj made
        rw [alloc]
        have mine := fits.held thread actor found
        refine fits.changed stepped rfl found (by rw [← mine]; rfl) ?_ ?_
        · intro other
          simp only [keep, hold, List.count_append]
          exact Nat.add_le_add_left (fits.within thread other) _
        · intro other inside
          rcases List.mem_cons.mp inside with rfl | old
          · exact .inr (Pool.refCnt_of_alloc alloc)
          · exact .inl old
  | bufferRelease buf =>
      have stepped : layer.step (.release thread buf) = some after' := stepped
      obtain ⟨actor, found, -, -, made⟩ := Layer.cases_of_call stepped
      obtain rfl := Option.some.inj made
      have mine := fits.held thread actor found
      refine fits.changed stepped rfl found (by rw [← mine]; rfl) ?_ ?_
      · intro other
        exact count_erase_le_count_erase (fits.within thread other) buf
      · intro other inside
        exact .inl (List.mem_of_mem_erase inside)
  | serviceMsgSend buf =>
      have stepped : layer.step (.send thread buf env.now env.outcome) = some after' := stepped
      refine fits.handed stepped rfl (fun other target => ?_) (fresh ▸ allowed)
      exact Option.some.inj target
  | serviceReply ctx buf =>
      cases ctx with
      | none =>
          have stepped : layer.step (.reply thread none buf) = some after' := stepped
          exact fits.handed stepped rfl (fun _ target => by cases target) (fresh ▸ allowed)
      | some ctx =>
          have stepped : layer.step (.sendReply thread) = some after' := stepped
          refine fits.handed stepped rfl (fun other target => ?_) (fresh ▸ allowed)
          -- The thread is in the call that the handler makes.
          obtain ⟨⟨actor, frame, rest⟩, entered, named⟩ := (Option.any_eq_true _ _).mp called
          cases frame with
          | replying entry id =>
              obtain rfl : id = buf := by simpa [Frame.replyBuffer] using named
              simpa [Layer.retainTarget, entered] using target
          | _ => simp [Frame.replyBuffer] at named
  | assign buf fields =>
      have stepped : layer.step (.write thread buf (fields (layer.headers buf))) = some after' :=
        stepped
      exact fits.update_self.plain stepped rfl rfl
  | _ =>
      obtain rfl := Option.some.inj stepped
      exact fits.update_self

end Fits

/-! ## Runs -/

namespace Host

variable {host after : Host} {thread : Nat}

/-- The handlers keep to their specification, and the layer agrees with what they hold. -/
structure Sound (host : Host) : Prop where
  fits : Fits host.layer host.holding host.unshared
  program : ∀ thread task, host.tasks thread = some task →
    Calls.Meets Allowed (fun events _ => heldAfter events = [] ↔ ¬ task.entry.Leaks events)
      task.events task.rest

theorem holding_of_task {task : Task} (running : host.tasks thread = some task) :
    host.holding thread = heldAfter task.events := by simp [holding, running]

theorem unshared_of_task {task : Task} (running : host.tasks thread = some task) :
    host.unshared thread = freshAfter task.events := by simp [unshared, running]

theorem holding_of_none (free : host.tasks thread = none) : host.holding thread = [] := by
  simp [holding, free]

theorem unshared_of_none (free : host.tasks thread = none) : host.unshared thread = [] := by
  simp [unshared, free]

theorem holding_update {host' : Host} {task : Option Task}
    (tasks : host'.tasks = Function.update host.tasks thread task) :
    host'.holding =
      Function.update host.holding thread (heldAfter ((task.map Task.events).getD [])) := by
  funext thread'
  unfold holding
  rw [tasks]
  exact Function.apply_update (fun _ task => heldAfter ((Option.map Task.events task).getD []))
    host.tasks thread task thread'

theorem unshared_update {host' : Host} {task : Option Task}
    (tasks : host'.tasks = Function.update host.tasks thread task) :
    host'.unshared =
      Function.update host.unshared thread (freshAfter ((task.map Task.events).getD [])) := by
  funext thread'
  unfold unshared
  rw [tasks]
  exact Function.apply_update (fun _ task => freshAfter ((Option.map Task.events task).getD []))
    host.tasks thread task thread'

/-- The tasks of the other threads stay, and that of one thread keeps to its specification. -/
theorem program_update (sound : host.Sound) {task : Option Task}
    (program : ∀ task' ∈ task, Calls.Meets Allowed
      (fun events _ => heldAfter events = [] ↔ ¬ task'.entry.Leaks events) task'.events task'.rest)
    {thread' : Nat} {task' : Task}
    (running : Function.update host.tasks thread task thread' = some task') :
    Calls.Meets Allowed (fun events _ => heldAfter events = [] ↔ ¬ task'.entry.Leaks events)
      task'.events task'.rest := by
  by_cases same : thread' = thread
  · subst same
    rw [Function.update_self] at running
    exact program task' running
  · rw [Function.update_of_ne same] at running
    exact sound.program thread' task' running

theorem Sound.enter (sound : host.Sound) (free : host.tasks thread = none) (entry : Entry) :
    (host.enter thread entry).Sound where
  fits := by
    have held : (host.enter thread entry).holding = host.holding := by
      rw [holding_update rfl]
      exact Function.update_eq_self_iff.mpr (holding_of_none free).symm
    have fresh : (host.enter thread entry).unshared = host.unshared := by
      rw [unshared_update rfl]
      exact Function.update_eq_self_iff.mpr (unshared_of_none free).symm
    rw [held, fresh]
    exact sound.fits
  program := fun _ _ running => program_update sound
    (fun task' new => by
      obtain rfl := Option.some.inj new
      exact meets_program host.ids entry) running

theorem Sound.call (sound : host.Sound) {env : Env}
    (stepped : host.step (.call thread env) = some after) : after.Sound := by
  obtain ⟨task, running, made⟩ := Option.bind_eq_some_iff.mp stepped
  have program := sound.program thread task running
  cases rest : task.rest with
  | done result => simp [rest] at made
  | call input next =>
      simp only [rest] at made
      rw [rest] at program
      split at made
      · rename_i op begun
        obtain ⟨layer, written, rfl⟩ := Option.map_eq_some_iff.mp made
        exact ⟨sound.fits.begun begun written, sound.program⟩
      · obtain ⟨⟨layer, answer⟩, performed, rfl⟩ := Option.map_eq_some_iff.mp made
        have fits := sound.fits.perform (unshared_of_task running).symm program.1 performed
        refine ⟨?_, ?_⟩
        · rw [holding_update rfl, unshared_update rfl]
          dsimp only [Option.map_some, Option.getD_some]
          rw [heldAfter_snoc, freshAfter_snoc, ← holding_of_task running,
            ← unshared_of_task running]
          exact fits
        · intro thread' task' running'
          refine program_update sound ?_ running'
          intro task'' new
          obtain rfl := Option.some.inj new
          exact program.2 answer

/-- Returning from a handler changes nothing of what callers hold. -/
theorem fits_exit (sound : host.Sound) {entry : Entry} {layer : Layer}
    (left : host.exit thread entry = some layer) :
    Fits layer host.holding host.unshared := by
  cases entry with
  | message comp self buf shipped =>
      have left : host.layer.step (.returned thread) = some layer := left
      exact sound.fits.plain left rfl rfl
  | heartbeat self =>
      obtain ⟨actor, -, rfl⟩ := Option.map_eq_some_iff.mp left
      exact sound.fits
  | command command =>
      obtain ⟨actor, -, rfl⟩ := Option.map_eq_some_iff.mp left
      exact sound.fits

theorem cases_of_leave (sound : host.Sound) (stepped : host.step (.leave thread) = some after) :
    ∃ task, host.tasks thread = some task ∧
      (host.holding thread = [] ↔ ¬ task.entry.Leaks task.events) ∧
      Fits after.layer host.holding host.unshared ∧
      after.tasks = Function.update host.tasks thread none := by
  obtain ⟨task, running, made⟩ := Option.bind_eq_some_iff.mp stepped
  have program := sound.program thread task running
  cases rest : task.rest with
  | call input next => simp [rest] at made
  | done result =>
      simp only [rest] at made
      rw [rest] at program
      obtain ⟨layer, left, rfl⟩ := Option.map_eq_some_iff.mp made
      exact ⟨task, running, holding_of_task running ▸ program, fits_exit sound left, rfl⟩

/-- A step without a leak keeps the handlers and the layer in agreement. -/
theorem Sound.step (sound : host.Sound) {op : HostOp} (allowed : host.NoLeak op)
    (stepped : host.step op = some after) : after.Sound := by
  cases op with
  | own op =>
      simp only [Host.step, Option.ite_none_right_eq_some] at stepped
      obtain ⟨permitted, made⟩ := stepped
      obtain ⟨layer, stepped, rfl⟩ := Option.map_eq_some_iff.mp made
      simp only [permits, Bool.and_eq_true] at permitted
      exact ⟨sound.fits.own permitted.1 stepped, sound.program⟩
  | dispatch thread =>
      simp only [Host.step, Option.ite_none_left_eq_some] at stepped
      obtain ⟨free, made⟩ := stepped
      obtain ⟨layer, stepped, rfl⟩ := Option.map_eq_some_iff.mp made
      have dispatched : ({ host with layer := layer } : Host).Sound :=
        ⟨sound.fits.plain stepped rfl rfl, sound.program⟩
      split
      · exact dispatched.enter (by simpa using free) _
      · exact dispatched
  | expire thread comp =>
      simp only [Host.step, Option.ite_none_right_eq_some, Option.some.injEq, idle,
        Bool.and_eq_true, Option.isNone_iff_eq_none] at stepped
      obtain ⟨⟨⟨free, -⟩, -⟩, rfl⟩ := stepped
      exact sound.enter free _
  | command thread command =>
      simp only [Host.step, Option.ite_none_right_eq_some, Option.some.injEq, idle,
        Bool.and_eq_true, Option.isNone_iff_eq_none] at stepped
      obtain ⟨⟨free, -⟩, rfl⟩ := stepped
      exact sound.enter free _
  | call thread env => exact sound.call stepped
  | leave thread =>
      obtain ⟨task, running, kept, fits, tasks⟩ := cases_of_leave sound stepped
      have nothing : host.holding thread = [] := kept.mpr (allowed task running)
      have none_fresh : host.unshared thread = [] := by
        rw [List.eq_nil_iff_forall_not_mem]
        intro id inside
        have held := sound.fits.mem_holding inside
        simp [nothing] at held
      refine ⟨?_, ?_⟩
      · rw [holding_update tasks, unshared_update tasks]
        dsimp only [Option.map_none, Option.getD_none]
        rw [heldAfter_nil, freshAfter_nil, Function.update_eq_self_iff.mpr nothing.symm,
          Function.update_eq_self_iff.mpr none_fresh.symm]
        exact fits
      · intro thread' task' running'
        rw [tasks] at running'
        exact program_update sound (fun _ missing => by cases missing) running'

/-- A handler that returns without references has not leaked. -/
theorem noLeak_of_balanced (sound : host.Sound) {op : HostOp}
    (stepped : host.step op = some after) (balanced : after.Balanced) : host.NoLeak op := by
  cases op with
  | leave thread =>
      obtain ⟨task, running, kept, fits, tasks⟩ := cases_of_leave sound stepped
      intro task' running'
      obtain rfl : task = task' := Option.some.inj (running.symm.trans running')
      refine kept.mp ?_
      by_contra some_left
      have bound := fits.running thread some_left
      have found : after.layer.actors[thread]? = some after.layer.actors[thread] :=
        List.getElem?_eq_getElem bound
      have free : after.tasks thread = none := by rw [tasks, Function.update_self]
      exact some_left ((fits.held thread _ found).symm.trans (balanced.held thread _ free found))
  | _ => trivial

theorem Sound.references_of_quiet (sound : host.Sound) (quiet : host.Quiet) :
    host.layer.references = [] := by
  have queues : host.layer.queues.flatMap MsgQueue.buffers = [] := by
    rw [List.flatMap_eq_nil_iff]
    intro queue present
    rw [MsgQueue.buffers, quiet.queues queue present, List.map_nil]
  have conns : host.layer.conns.conns.flatMap txBuffers = [] := by
    rw [List.flatMap_eq_nil_iff]
    intro conn present
    rw [txBuffers, quiet.conns conn present, List.map_nil]
  have actors : host.layer.actors.flatMap Actor.buffers = [] := by
    rw [List.flatMap_eq_nil_iff]
    intro actor present
    obtain ⟨thread, found⟩ := List.mem_iff_getElem?.mp present
    rw [Actor.buffers, Actor.working, quiet.actors actor present, sound.fits.held thread actor found,
      holding_of_none (quiet.tasks thread)]
    rfl
  rw [Layer.references, queues, conns, actors]
  rfl

/-- The pool is full if nothing is referenced and nothing is on its way back. -/
theorem usedCount_eq_zero {layer : Layer} (kept : layer.Kept) (nothing : layer.references = [])
    (released : ∀ thread, layer.releasing thread = none) {bin : Nat}
    (inside : bin < layer.pool.binCount) : (layer.pool.bins bin).usedCount = 0 := by
  have tidy := kept.balanced.tidy bin inside
  have all_free : List.range (layer.pool.bins bin).chunkCount.toNat ⊆
      (layer.pool.bins bin).freeStack := by
    intro index present
    have valid : layer.pool.Valid ⟨bin, index⟩ := ⟨inside, List.mem_range.mp present⟩
    refine (kept.balanced.free ⟨bin, index⟩ valid).mpr ⟨?_, fun thread => ?_⟩
    · simp [nothing]
    · simp [released thread]
  have long := (List.nodup_range.subperm all_free).length_le
  rw [List.length_range] at long
  have used := tidy.used
  exact UInt32.toNat_inj.mp (by rw [UInt32.toNat_zero]; omega)

theorem Sound.balanced (sound : host.Sound) : host.Balanced where
  held := fun thread actor free found =>
    (sound.fits.held thread actor found).trans (holding_of_none free)
  used := fun quiet _ inside =>
    usedCount_eq_zero sound.fits.kept (sound.references_of_quiet quiet) quiet.releasing inside

theorem sound_of_initial {config : List PoolDef} (initial : host.Initial config) :
    host.Sound where
  fits := by
    have free (thread : Nat) := initial.tasks thread
    refine ⟨Layer.kept_of_initial initial.layer, Layer.ready_of_initial initial.layer,
      ?_, ?_, ?_, ?_, ?_⟩
    · intro thread actor found
      rw [initial.layer.actors actor (List.mem_of_getElem? found), holding_of_none (free thread)]
    · intro thread nonempty
      exact absurd (holding_of_none (free thread)) nonempty
    · intro thread id
      rw [unshared_of_none (free thread)]
      exact Nat.zero_le _
    · intro thread id inside
      rw [unshared_of_none (free thread)] at inside
      cases inside
    · intro thread actor id arrival found inside
      rw [initial.layer.actors actor (List.mem_of_getElem? found)] at inside
      cases inside
  program := fun thread task running => by
    rw [initial.tasks thread] at running
    cases running

/-- In every course of an entry point it returns with no reference exactly if it has not leaked; and
along a run of a node threads without handler hold nothing and the pool is full whenever nothing is
queued if and only if no handler returns that has leaked. -/
theorem handlers_balanced_iff {config : List PoolDef} (initial : host.Initial config)
    {ops : List HostOp} (execution : Transition.run step host ops = some after) :
    (∀ entry events result, Calls.Follows (Entry.program host.ids entry) events (.done result) →
      (heldAfter events = [] ↔ ¬ entry.Leaks events)) ∧
    (Transition.Visits step Balanced host ops ↔ Transition.Guarded step NoLeak host ops) :=
  ⟨fun entry _ _ course => (meets_program host.ids entry).result course,
    Transition.visits_iff_guarded_of_invariant (fun _ sound => sound.balanced)
      (fun _ _ _ sound allowed stepped => sound.step allowed stepped)
      (fun _ _ _ sound stepped balanced => noLeak_of_balanced sound stepped balanced)
      (sound_of_initial initial) execution⟩

/-- A node that provides the service 204 with the fourth component, on its first thread. -/
def dataProc : Host where
  ids := ⟨101, 102⟩
  layer := Layer.fresh PoolSystem.twoChunks
    ⟨[⟨204, some 0, some 0, "", "", false⟩], [⟨some 0, some 0⟩], fun _ => ⟨4, .active, true⟩, none⟩
    ⟨0x4E4F, 1, 0, 0, 0, 0, 0, 0, 0⟩ 2
  comps := fun _ => ⟨[], .model4 (some ⟨0⟩)⟩
  tasks := fun _ => none

theorem dataProc_initial : dataProc.Initial PoolSystem.twoChunks where
  layer := Layer.fresh_initial _ _ _ (by decide)
  tasks := fun _ => rfl

/-- A message with code 1001 for the service. -/
def managementMessage : Header := ⟨0x4E4F, 1, 204, 1, 0, 1001, 1, 0, 0⟩

/-- Nothing unusual happens. -/
def calm : Env := ⟨0, .failed 0, 0, .ok⟩

/-- The message comes in over a link and is handled, and everything that is queued is taken out. -/
def oneManagementMessage : List HostOp :=
  [.own (.receive 1 32 managementMessage),
    .own (.deliver 1 none ⟨0, managementMessage⟩ 32 none), .own (.deliverSend 1 0 (.failed 0)),
    .own (.finish 1), .own (.finish 1), .own (.putBack 1), .own (.dequeue 0 0), .dispatch 0,
    .call 0 calm, .call 0 calm, .call 0 calm, .call 0 calm, .call 0 calm, .call 0 calm, .leave 0,
    .own (.finish 0), .own (.putBack 0)]

/-- The handler has returned, and the buffer of its reply is lost. -/
theorem oneManagementMessage_run :
    ∃ after, Transition.run step dataProc oneManagementMessage = some after ∧
      after.tasks 0 = none ∧ after.layer.actors = [⟨[], [⟨0, 1⟩]⟩, ⟨[], []⟩] ∧
      (after.layer.pool.bins 0).usedCount = 1 := by
  have execution :
      (Transition.run step dataProc oneManagementMessage).map
        (fun after => ((after.tasks 0).isNone, after.layer.actors,
          (after.layer.pool.bins 0).usedCount)) =
        some (true, [⟨[], [⟨0, 1⟩]⟩, ⟨[], []⟩], 1) := by
    decide +kernel
  obtain ⟨after, ran, view⟩ := Option.map_eq_some_iff.mp execution
  obtain ⟨free, view⟩ := Prod.mk.inj view
  obtain ⟨actors, used⟩ := Prod.mk.inj view
  exact ⟨after, ran, Option.isNone_iff_eq_none.mp free, actors, used⟩

/-- The pool has lost a buffer to the component. -/
theorem oneManagementMessage_leaks :
    ∃ after, Transition.run step dataProc oneManagementMessage = some after ∧
      (after.layer.pool.bins 0).usedCount = 1 ∧
      ¬ Transition.Visits step Balanced dataProc oneManagementMessage := by
  obtain ⟨after, ran, free, actors, used⟩ := oneManagementMessage_run
  refine ⟨after, ran, used, fun visited => ?_⟩
  have held := (visited.last ran).held 0 ⟨[], [⟨0, 1⟩]⟩ free (by rw [actors]; rfl)
  cases held

/-- A message with another code comes in and is handled without a reply. -/
def oneOtherMessage : List HostOp :=
  [.own (.receive 1 32 { managementMessage with msgCode := 7 }),
    .own (.deliver 1 none ⟨0, { managementMessage with msgCode := 7 }⟩ 32 none),
    .own (.deliverSend 1 0 (.failed 0)), .own (.finish 1), .own (.finish 1), .own (.putBack 1),
    .own (.dequeue 0 0), .dispatch 0, .call 0 calm, .call 0 calm, .leave 0, .own (.finish 0),
    .own (.putBack 0)]

/-- The pool has its buffer back. -/
theorem handlers_balanced_oneOtherMessage :
    ∃ after, Transition.run step dataProc oneOtherMessage = some after ∧
      (after.layer.pool.bins 0).usedCount = 0 ∧
      Transition.Visits step Balanced dataProc oneOtherMessage := by
  have clean : (Transition.runGuarded step NoLeak dataProc oneOtherMessage).map
      (fun after => (after.layer.pool.bins 0).usedCount) = some 0 := by decide +kernel
  obtain ⟨after, execution, used⟩ := Option.map_eq_some_iff.mp clean
  obtain ⟨ran, guarded⟩ := Transition.guarded_of_runGuarded execution
  obtain ⟨-, balanced⟩ := handlers_balanced_iff dataProc_initial ran
  exact ⟨after, ran, used, balanced.mpr guarded⟩

end Host

end CodexNos.Components
