import CodexNos.Messaging.Conservation

/-!
# What a step leaves alone

A step of the messaging layer changes few counts: it counts up at most the buffer that it retains.
Other than by allocating, retaining, releasing and giving away, no step changes what a caller holds.
-/

namespace CodexNos.Memory.Pool

/-! ## Counts of the pool -/

/-- Each count is left alone or decremented, but for one buffer and those that were free. -/
def Steady (pool pool' : Pool) (target : Option BufferId) : Prop :=
  ∀ id, (pool'.buffer id).refCnt = (pool.buffer id).refCnt ∨
    (pool'.buffer id).refCnt = (pool.buffer id).refCnt - 1 ∨ target = some id ∨ pool.Free id

theorem Steady.refl (pool : Pool) (target : Option BufferId) : Steady pool pool target :=
  fun _ => .inl rfl

theorem steady_retain (pool : Pool) (id : BufferId) : Steady pool (pool.retain id) (some id) := by
  intro other
  by_cases same : other = id
  · exact .inr (.inr (.inl (congrArg some same.symm)))
  · exact .inl (by rw [retain, setRefCnt_refCnt, if_neg same])

theorem steady_decrement (pool : Pool) (id : BufferId) (target : Option BufferId) :
    Steady pool (pool.decrement id).1 target := by
  intro other
  by_cases same : other = id
  · exact .inr (.inl (by rw [decrement, setRefCnt_refCnt, if_pos same, same]))
  · exact .inl (by rw [decrement, setRefCnt_refCnt, if_neg same])

theorem steady_putBack (pool : Pool) (id : BufferId) (target : Option BufferId) :
    Steady pool (pool.putBack id) target := by
  intro other
  refine .inl ?_
  rw [putBack, setBin_buffer]
  split
  · rename_i same
    rw [Bin.putBack_refCnt, buffer, same]
  · rfl

theorem steady_alloc {pool pool' : Pool} {size headroom : UInt32} {answer : Option BufferId}
    (alloc : pool.alloc size headroom = (pool', answer)) (target : Option BufferId) :
    Steady pool pool' target := by
  obtain failed | ⟨bin, index, rest, -, top, result⟩ := pool.alloc_cases size headroom
  · obtain ⟨rfl, -⟩ := Prod.mk.inj (failed.symm.trans alloc)
    exact .refl pool target
  · obtain ⟨rfl, -⟩ := Prod.mk.inj (result.symm.trans alloc)
    intro other
    rw [take_refCnt top]
    split
    · rename_i same
      exact .inr (.inr (.inr (by simp [Free, same, top])))
    · exact .inl rfl

end CodexNos.Memory.Pool

namespace CodexNos.Messaging

open Lib Lib.Transition Memory Ipc

namespace Layer

variable {before after : Layer} {id : BufferId} {status : Status} {thread : Nat}

/-! ## Counts of the layer -/

theorem steady_localSend {posted : Posted} {target : Option ThreadRef}
    (sent : before.localSend posted target = some (after, status)) :
    Pool.Steady before.pool after.pool (some posted.buffer) := by
  obtain rfl | ⟨_, _, _, -, -, -, rfl⟩ := cases_of_localSend sent
  · exact .refl _ _
  · exact Pool.steady_retain _ _

theorem steady_storeConn (layer : Layer) (index : Nat) (id : BufferId)
    (result : Conn Outgoing × Status) :
    Pool.Steady layer.pool (layer.storeConn index id result).pool (some id) := by
  unfold storeConn
  dsimp only
  split
  · exact Pool.steady_retain _ _
  · exact .refl _ _

theorem steady_sendEnqueue (layer : Layer) (item : Outgoing) (nodeName udsPath : CStr) (now : Nat)
    (outcome : ConnectOutcome) :
    Pool.Steady layer.pool (layer.sendEnqueue item nodeName udsPath now outcome).1.pool
      (some item.buffer) := by
  obtain same | ⟨_, index, _, _, -, -, same⟩ :=
    cases_of_sendEnqueue layer item nodeName udsPath now outcome
  · rw [same]
    exact .refl _ _
  · rw [same]
    exact steady_storeConn _ index _ _

theorem steady_serviceMsgSend {arrival : Option Arrival} {now : Nat} {outcome : ConnectOutcome}
    (sent : before.serviceMsgSend id arrival now outcome = some (after, status)) :
    Pool.Steady before.pool after.pool (some id) := by
  obtain rfl | ⟨target, sent⟩ | ⟨nodeName, udsPath, rfl⟩ := cases_of_serviceMsgSend sent
  · exact .refl _ _
  · exact steady_localSend sent
  · exact steady_sendEnqueue _ _ _ _ _ _

theorem steady_sendReply {ctx : ReplyCtx}
    (sent : before.sendReply ctx id = some (after, status)) :
    Pool.Steady before.pool after.pool (some id) := by
  obtain ⟨conn, -, same⟩ := Option.map_eq_some_iff.mp sent
  obtain ⟨rfl, -⟩ := Prod.mk.inj same
  exact steady_storeConn _ ctx.ipcConn _ _

theorem steady_deliver {actor : Actor} {conn : Option Nat} {arrival : Arrival} {len : Nat}
    {ctx : Option Nat}
    (delivered : before.deliver thread actor conn arrival len ctx = some after) :
    Pool.Steady before.pool after.pool none := by
  obtain rfl | ⟨pool, id, alloc, rfl | ⟨ctx, index, target, rfl⟩⟩ := cases_of_deliver delivered
  · exact .refl _ _
  · exact Pool.steady_alloc alloc none
  · intro other
    have same := Pool.setReplyCtx_refCnt pool id (some ctx) other
    exact same ▸ Pool.steady_alloc alloc none other

/-- A step counts up no buffer but the one that it retains and new ones. -/
theorem steady_of_step {op : LayerOp} (stepped : before.step op = some after) :
    Pool.Steady before.pool after.pool (before.retainTarget op) := by
  cases op with
  | configure tables =>
      obtain rfl := Option.some.inj stepped
      exact .refl _ _
  | alloc thread size headroom =>
      obtain ⟨actor, -, -, -, made⟩ := cases_of_call stepped
      split at made
      · obtain rfl := Option.some.inj made
        exact .refl _ _
      · rename_i alloc
        obtain rfl := Option.some.inj made
        exact Pool.steady_alloc alloc _
  | retain thread id =>
      obtain ⟨actor, -, -, -, made⟩ := cases_of_call stepped
      obtain rfl := Option.some.inj made
      exact Pool.steady_retain _ _
  | release thread id =>
      obtain ⟨actor, -, -, -, made⟩ := cases_of_call stepped
      obtain rfl := Option.some.inj made
      exact Pool.steady_decrement _ _ _
  | give thread receiver id =>
      obtain ⟨actor, -, -, -, made⟩ := cases_of_call stepped
      obtain ⟨taker, -, rfl⟩ := Option.map_eq_some_iff.mp made
      exact .refl _ _
  | write thread id header =>
      obtain ⟨actor, -, -, -, made⟩ := cases_of_call stepped
      obtain rfl := Option.some.inj made
      exact .refl _ _
  | send thread id now outcome =>
      obtain ⟨actor, -, -, -, made⟩ := cases_of_call stepped
      obtain ⟨⟨_, status⟩, sent, rfl⟩ := Option.map_eq_some_iff.mp made
      exact steady_serviceMsgSend sent
  | reply thread ctx id =>
      obtain ⟨actor, -, -, -, made⟩ := cases_of_call stepped
      split at made
      · obtain rfl := Option.some.inj made
        exact .refl _ _
      · obtain ⟨entry, -, rfl⟩ := Option.map_eq_some_iff.mp made
        exact .refl _ _
  | sendReply thread =>
      obtain ⟨actor, ctx, id, rest, status, -, entered, -, sent⟩ := cases_of_sendReply stepped
      have target : before.retainTarget (.sendReply thread) = some id := by
        simp [retainTarget, entered]
      rw [target]
      have steady := steady_sendReply sent
      exact steady
  | retainCtx ctx =>
      obtain ⟨entry, -, rfl⟩ := Option.map_eq_some_iff.mp stepped
      exact .refl _ _
  | releaseCtx ctx =>
      simp only [Layer.step, Option.ite_none_right_eq_some, Option.some.injEq] at stepped
      obtain ⟨-, rfl⟩ := stepped
      exact .refl _ _
  | processTx thread index =>
      obtain rfl | ⟨actor, -, -, rfl⟩ := cases_of_processTx stepped
      · exact .refl _ _
      · exact .refl _ _
  | txRound thread written sent =>
      obtain ⟨⟨actor, frame, rest⟩, -, made⟩ := Option.bind_eq_some_iff.mp stepped
      cases frame with
      | transmitting index =>
          obtain rfl | ⟨conn, conn', -, -, rfl⟩ | ⟨conn, conn', item, -, -, rfl⟩ :=
            cases_of_txRound made
          · exact .refl _ _
          · exact .refl _ _
          · exact Pool.steady_decrement _ _ _
      | _ => cases made
  | dequeue thread index =>
      obtain ⟨actor, -, -, -, made⟩ := cases_of_call stepped
      obtain ⟨queue, -, made⟩ := Option.bind_eq_some_iff.mp made
      obtain ⟨⟨posted, ring⟩, -, rfl⟩ := Option.map_eq_some_iff.mp made
      exact .refl _ _
  | dispatch thread =>
      obtain ⟨⟨actor, frame, rest⟩, -, made⟩ := Option.bind_eq_some_iff.mp stepped
      cases frame with
      | dequeued posted =>
          simp only at made
          split at made
          · obtain rfl := Option.some.inj made
            exact .refl _ _
          · obtain rfl := Option.some.inj made
            exact .refl _ _
      | _ => cases made
  | returned thread =>
      obtain ⟨⟨actor, frame, rest⟩, -, made⟩ := Option.bind_eq_some_iff.mp stepped
      cases frame with
      | onMsg posted comp =>
          obtain rfl := Option.some.inj made
          exact .refl _ _
      | _ => cases made
  | finish thread =>
      obtain ⟨⟨actor, frame, rest⟩, -, made⟩ := Option.bind_eq_some_iff.mp stepped
      cases frame with
      | dispatched posted =>
          obtain rfl := Option.some.inj made
          exact Pool.steady_decrement _ _ _
      | received id =>
          obtain rfl := Option.some.inj made
          exact Pool.steady_decrement _ _ _
      | delivered id =>
          obtain rfl := Option.some.inj made
          exact Pool.steady_decrement _ _ _
      | _ => cases made
  | receive thread size header =>
      obtain ⟨actor, -, -, -, made⟩ := cases_of_call stepped
      split at made
      · obtain rfl := Option.some.inj made
        exact .refl _ _
      · rename_i alloc
        obtain rfl := Option.some.inj made
        exact Pool.steady_alloc alloc _
  | deliver thread conn arrival len ctx =>
      obtain ⟨⟨actor, frame, rest⟩, -, made⟩ := Option.bind_eq_some_iff.mp stepped
      cases frame with
      | received id => exact steady_deliver made
      | _ => cases made
  | deliverSend thread now outcome =>
      obtain ⟨⟨actor, frame, rest⟩, entered, made⟩ := Option.bind_eq_some_iff.mp stepped
      cases frame with
      | delivering id arrival =>
          obtain ⟨⟨sent, status⟩, sends, rfl⟩ := Option.map_eq_some_iff.mp made
          have target : before.retainTarget (.deliverSend thread now outcome) = some id := by
            simp [retainTarget, entered]
          rw [target]
          have steady := steady_serviceMsgSend sends
          exact steady
      | _ => cases made
  | startPurge thread index provider allocated =>
      obtain ⟨actor, -, -, -, made⟩ := cases_of_call stepped
      obtain ⟨queue, -, rfl⟩ := Option.map_eq_some_iff.mp made
      cases allocated with
      | false => exact .refl _ _
      | true => exact .refl _ _
  | purgeRound thread =>
      obtain ⟨⟨actor, frame, rest⟩, -, made⟩ := Option.bind_eq_some_iff.mp stepped
      cases frame with
      | purging index =>
          obtain ⟨queue, -, made⟩ := Option.bind_eq_some_iff.mp made
          obtain ⟨purge, -, rfl⟩ := Option.map_eq_some_iff.mp made
          unfold Layer.purgeRound
          split
          · exact .refl _ _
          · split
            · exact Pool.steady_decrement _ _ _
            · exact .refl _ _
      | _ => cases made
  | discard thread index =>
      obtain ⟨actor, -, -, -, made⟩ := cases_of_call stepped
      obtain ⟨queue, -, rfl⟩ := Option.map_eq_some_iff.mp made
      split
      · exact .refl _ _
      · exact Pool.steady_decrement _ _ _
  | accept fd =>
      obtain rfl := Option.some.inj stepped
      exact .refl _ _
  | disconnect index =>
      obtain rfl := Option.some.inj stepped
      exact .refl _ _
  | setup index peerNode shmName opened =>
      obtain ⟨conn, -, rfl⟩ := Option.map_eq_some_iff.mp stepped
      exact .refl _ _
  | putBack thread =>
      obtain ⟨id, -, rfl⟩ := Option.map_eq_some_iff.mp stepped
      unfold Layer.putBack
      dsimp only
      split
      · exact Pool.steady_putBack _ _ _
      · exact Pool.steady_putBack _ _ _

/-- A buffer with one reference does not get more by a step that does not retain it. -/
theorem count_le_one_of_step {op : LayerOp} (kept : before.Kept) (kept' : after.Kept)
    (stepped : before.step op = some after) (present : id ∈ before.references)
    (single : before.references.count id ≤ 1) (other : before.retainTarget op ≠ some id) :
    after.references.count id ≤ 1 := by
  by_cases missing : id ∈ after.references
  · have valid := kept.balanced.referenced id present
    have valid' := kept'.balanced.referenced id missing
    have not_free : ¬ before.pool.Free id :=
      fun free => ((kept.balanced.free id valid).mp free).1 present
    have one : before.references.count id = 1 :=
      Nat.le_antisymm single (List.count_pos_iff.mpr present)
    have counted := kept.balanced.refCnt id valid
    have counted' := kept'.balanced.refCnt id valid'
    have fits' := kept'.balanced.fits id
    rw [one] at counted
    have toNat : after.references.count id = (after.pool.buffer id).refCnt.toNat := by
      rw [counted', BitVec.toNat_ofNat, Nat.mod_eq_of_lt fits']
    rw [toNat]
    rcases steady_of_step stepped id with same | less | target | free
    · rw [same, counted]
      decide
    · rw [less, counted]
      decide
    · exact absurd target other
    · exact absurd free not_free
  · rw [List.count_eq_zero.mpr missing]
    exact Nat.zero_le 1

theorem Kept.count_le_one {layer : Layer} (kept : layer.Kept)
    (one : (layer.pool.buffer id).refCnt = 1) : layer.references.count id ≤ 1 := by
  by_cases present : id ∈ layer.references
  · have counted := kept.balanced.refCnt id (kept.balanced.referenced id present)
    have toNat := congrArg BitVec.toNat (counted.symm.trans one)
    rw [BitVec.toNat_ofNat, Nat.mod_eq_of_lt (kept.balanced.fits id)] at toNat
    exact Nat.le_of_eq toNat
  · rw [List.count_eq_zero.mpr present]
    exact Nat.zero_le 1

/-! ## What callers hold -/

/-- No caller gets or loses a reference, and a message in delivery was so before or is new. -/
structure SameHeld (before after : Layer) : Prop where
  length : after.actors.length = before.actors.length
  thread : ∀ (thread : Nat) (actor' : Actor), after.actors[thread]? = some actor' →
    ∃ actor : Actor, before.actors[thread]? = some actor ∧ actor'.held = actor.held ∧
      ∀ id arrival, Frame.delivering id arrival ∈ actor'.frames →
        Frame.delivering id arrival ∈ actor.frames ∨ (after.pool.buffer id).refCnt = 1

/-- A step that does not change what callers hold leaves it alone. -/
theorem sameHeld_of_step {op : LayerOp} (other : changesHeld op = false)
    (stepped : before.step op = some after) : SameHeld before after := by
  have evolves := evolves_of_step stepped
  refine ⟨evolves.length, fun thread actor' found' => ?_⟩
  obtain ⟨actor, found, becomes⟩ := evolves.thread thread actor' found'
  refine ⟨actor, found, ?_⟩
  cases becomes with
  | same => exact ⟨rfl, fun _ _ => .inl⟩
  | holds held changes ready => simp [other] at changes
  | gets id changes => simp [other] at changes
  | enters frame plain ready =>
      refine ⟨rfl, fun id arrival inside => .inl ?_⟩
      rcases List.mem_cons.mp inside with rfl | inside
      · cases plain
      · exact inside
  | delivers new arrival fresh ready =>
      refine ⟨rfl, fun id arrival' inside => ?_⟩
      rcases List.mem_cons.mp inside with same | inside
      · obtain ⟨rfl, rfl⟩ := Frame.delivering.inj same
        exact .inr fresh
      · exact .inl inside
  | replies index ctx new live written usable ready =>
      refine ⟨rfl, fun id arrival inside => .inl ?_⟩
      rcases List.mem_cons.mp inside with same | inside
      · cases same
      · exact inside
  | goesOn frame frame' rest frames plain =>
      refine ⟨rfl, fun id arrival inside => .inl ?_⟩
      rcases List.mem_cons.mp inside with rfl | inside
      · cases plain
      · exact frames ▸ List.mem_cons_of_mem _ inside
  | leaves frame rest frames =>
      exact ⟨rfl, fun id arrival inside => .inl (frames ▸ List.mem_cons_of_mem _ inside)⟩

/-! ## Places of a reference -/

theorem count_buffers_le {layer : Layer} {actor : Actor}
    (found : layer.actors[thread]? = some actor) (id : BufferId) :
    actor.buffers.count id ≤ layer.references.count id := by
  have emptied := count_setActor layer found ⟨[], []⟩ id
  have nothing : (⟨[], []⟩ : Actor).buffers.count id = 0 := rfl
  omega

theorem count_buffers_add_le {layer : Layer} {actor actor' : Actor} {thread' : Nat}
    (found : layer.actors[thread]? = some actor) (found' : layer.actors[thread']? = some actor')
    (distinct : thread ≠ thread') (id : BufferId) :
    actor.buffers.count id + actor'.buffers.count id ≤ layer.references.count id := by
  have emptied := count_setActor layer found ⟨[], []⟩ id
  have nothing : (⟨[], []⟩ : Actor).buffers.count id = 0 := rfl
  have other : (layer.setActor thread ⟨[], []⟩).actors[thread']? = some actor' := by
    rw [setActor, List.getElem?_set_ne distinct, found']
  have rest := count_buffers_le other id
  omega

end Layer

end CodexNos.Messaging
