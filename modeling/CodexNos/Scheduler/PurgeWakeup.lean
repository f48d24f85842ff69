import CodexNos.Lib.Ring
import CodexNos.Scheduler.Wakeup

/-!
# Purging while the loop goes to sleep

A purge holds `queue_lock`, but the loop reads `head` and `tail` without it.  The purge first moves
`head` up to `tail`, so that the queue looks empty, then sets `head` to zero and `tail` behind the
messages that stay, and it writes no `notify_fd`.  A loop that takes its last look at the queue in
between goes to sleep on messages about which nobody will wake it.
-/

namespace CodexNos.Scheduler

open Lib Lib.Transition

/-- Where a purge is. -/
inductive PurgePoint
  /-- In its loop over the messages. -/
  | sorting
  /-- The array is copied back: write `head`. -/
  | writeHead
  /-- Write `tail`. -/
  | writeTail
  /-- Release the lock. -/
  | unlock
  deriving DecidableEq, Repr

/-- `nos_scheduler_drop_messages_for_provider` in progress. -/
structure Purge where
  /-- The messages that the provider would get. -/
  target : BufRef → Bool
  /-- `new_queue`. -/
  newQueue : Nat → BufRef
  /-- `new_tail`. -/
  newTail : Nat
  /-- Where it is. -/
  point : PurgePoint

/-- A scheduler thread, the threads that publish work to it and a purge. -/
structure PurgedLoop (θ : Type*) where
  /-- The scheduler thread and its callers. -/
  loop : RunLoop θ
  /-- A purge, which holds `queue_lock`. -/
  purge : Option Purge

/-- A step of a thread. -/
inductive PurgeOp (θ : Type*)
  /-- The scheduler thread or a caller. -/
  | other (op : LoopOp θ)
  /-- Begin a purge. -/
  | start (target : BufRef → Bool)
  /-- Next write of the purge. -/
  | next

namespace PurgedLoop

variable {θ : Type*}

/-- The step takes `queue_lock`. -/
def NeedsLock (loop : RunLoop θ) : LoopOp θ → Bool
  | .send _ _ => true
  | .advance _ _ =>
      match loop.point with
      | .drain _ => true
      | _ => false
  | _ => false

/-- Next write of a purge.  A purge that ends its loop also copies the array back. -/
def purgeStep (loop : RunLoop θ) (purge : Purge) : PurgedLoop θ :=
  match purge.point with
  | .sorting =>
      if loop.head = loop.tail then
        { loop := { loop with msgQueue := purge.newQueue }
          purge := some { purge with point := .writeHead } }
      else
        let buf := loop.msgQueue loop.head
        { loop := { loop with head := (loop.head + 1) % maxQueueSize }
          purge :=
            if purge.target buf then some purge
            else
              some
                { purge with
                  newQueue := Function.update purge.newQueue purge.newTail buf
                  newTail := (purge.newTail + 1) % maxQueueSize } }
  | .writeHead =>
      { loop := { loop with head := 0 }, purge := some { purge with point := .writeTail } }
  | .writeTail =>
      { loop := { loop with tail := purge.newTail }
        purge := some { purge with point := .unlock } }
  | .unlock => { loop := loop, purge := none }

variable [DecidableEq θ]

/-- Perform one step. -/
def step (pollCycles : Nat) (state : PurgedLoop θ) : PurgeOp θ → Option (PurgedLoop θ)
  | .other op =>
      if state.purge.isSome && NeedsLock state.loop op then none
      else (state.loop.step pollCycles op).map fun loop => { state with loop := loop }
  | .start target =>
      match state.purge with
      | some _ => none
      | none => some { state with purge := some ⟨target, fun _ => 0, 0, .sorting⟩ }
  | .next => state.purge.map (purgeStep state.loop)

omit [DecidableEq θ]

/-- The loop is just called, and no other thread is in a call or purges. -/
structure Initial (state : PurgedLoop θ) : Prop where
  loop : state.loop.Initial
  head_lt : state.loop.head < maxQueueSize
  tail_lt : state.loop.tail < maxQueueSize
  purge : state.purge = none

/-! ## Messages that stay -/

/-- The queue of a thread, where its indices are in range. -/
def ring (loop : RunLoop θ)
    (inside : loop.head < maxQueueSize ∧ loop.tail < maxQueueSize) : Ring BufRef maxQueueSize where
  slots := loop.msgQueue
  head := loop.head
  tail := loop.tail
  head_lt := inside.1
  tail_lt := inside.2

/-- The messages in the queue of a thread. -/
def queued (loop : RunLoop θ) : List BufRef :=
  if inside : loop.head < maxQueueSize ∧ loop.tail < maxQueueSize then (ring loop inside).contents
  else []

/-- There will be messages in the queue when the purge is done. -/
def Keeps (state : PurgedLoop θ) : Prop :=
  match state.purge with
  | none => state.loop.head ≠ state.loop.tail
  | some purge =>
      match purge.point with
      | .sorting => purge.newTail ≠ 0 ∨ ∃ buf ∈ queued state.loop, purge.target buf = false
      | .writeHead | .writeTail => purge.newTail ≠ 0
      | .unlock => state.loop.head ≠ state.loop.tail

instance (state : PurgedLoop θ) : Decidable state.Keeps := by
  unfold Keeps
  split
  · infer_instance
  · split <;> infer_instance

/-- A last look at the queue that finds no messages is right: there are none, and a purge in
progress keeps none. -/
def LooksRight (state : PurgedLoop θ) : PurgeOp θ → Prop
  | .other (.advance _ _) =>
      state.loop.point = .loadTail .retest state.loop.tail → ¬ state.Keeps
  | _ => True

instance (state : PurgedLoop θ) (op : PurgeOp θ) : Decidable (state.LooksRight op) := by
  unfold LooksRight
  split <;> infer_instance

theorem queued_eq {loop : RunLoop θ}
    (inside : loop.head < maxQueueSize ∧ loop.tail < maxQueueSize) :
    queued loop = (ring loop inside).contents := dif_pos inside

theorem queued_eq_nil {loop : RunLoop θ} (no_messages : loop.head = loop.tail) :
    queued loop = [] := by
  unfold queued
  split
  · rename_i inside
    exact (Ring.pop?_eq_none_iff _).mp (if_pos no_messages)
  · rfl

theorem queued_eq_cons {loop : RunLoop θ}
    (inside : loop.head < maxQueueSize ∧ loop.tail < maxQueueSize)
    (messages : loop.head ≠ loop.tail) :
    queued loop = loop.msgQueue loop.head ::
      queued { loop with head := (loop.head + 1) % maxQueueSize } := by
  have inside' : (loop.head + 1) % maxQueueSize < maxQueueSize ∧ loop.tail < maxQueueSize :=
    ⟨Nat.mod_lt _ (by decide), inside.2⟩
  rw [queued_eq inside, queued, dif_pos inside']
  exact Ring.contents_pop? (if_neg messages)

theorem length_queued_lt {loop : RunLoop θ} : (queued loop).length < maxQueueSize := by
  unfold queued
  split
  · rw [Ring.length_contents]
    exact Ring.length_lt _
  · decide

end PurgedLoop

/-! ## Steps of the loop and its callers -/

namespace RunLoop

variable {θ : Type*} {pollCycles : Nat}

/-- The loop announces its sleep, and up to its end moves only itself and the reported events. -/
theorem advance_announced {before after : RunLoop θ} {startOk : Bool} {ready : List Event}
    (stepped : before.advance pollCycles startOk ready = some after)
    (announced : Announced after.point) :
    (before.point = .sleep ∧
      after = { before with isSleeping := true, point := .loadHead .retest }) ∨
    Announced before.point ∧
      after = { before with point := after.point, pending := after.pending } ∧
      (Committed after.point →
        before.point = .retestStop ∨ before.point = .loadTail .retest before.tail) := by
  cases point_eq : before.point with
  | startLock path =>
      simp only [advance, point_eq, Option.some.injEq] at stepped
      subst stepped
      cases announced
  | startEach path index =>
      simp only [advance, point_eq] at stepped
      split at stepped
      · obtain rfl := Option.some.inj stepped
        cases path <;> cases announced
      · obtain rfl := Option.some.inj stepped
        cases announced
  | test =>
      simp only [advance, point_eq, Option.some.injEq] at stepped
      subst stepped
      dsimp only at announced
      split at announced
      · cases announced
      · exact absurd announced (announced_spinFrom _)
  | loadHead use =>
      simp only [advance, point_eq, Option.some.injEq] at stepped
      subst stepped
      cases use with
      | spin left => cases announced
      | busy => cases announced
      | retest => exact .inr ⟨trivial, rfl, by simp [Committed]⟩
  | loadTail use head =>
      simp only [advance, point_eq, Option.some.injEq] at stepped
      subst stepped
      cases empty : head == before.tail with
      | true =>
          rw [empty] at announced
          cases use with
          | spin left => exact absurd announced (announced_spinFrom _)
          | busy => cases announced
          | retest => exact .inr ⟨trivial, rfl, fun _ => .inr (by rw [eq_of_beq empty])⟩
      | false =>
          rw [empty] at announced
          cases use with
          | spin left => cases announced
          | busy => cases announced
          | retest => exact .inr ⟨trivial, rfl, by simp [afterTest, Committed]⟩
  | drain path =>
      simp only [advance, point_eq] at stepped
      split at stepped
      · obtain rfl := Option.some.inj stepped
        cases path <;> cases announced
      · obtain rfl := Option.some.inj stepped
        cases announced
  | timers path =>
      simp only [advance, point_eq, Option.some.injEq] at stepped
      subst stepped
      cases path <;> cases announced
  | poll =>
      simp only [advance, point_eq, Option.ite_none_right_eq_some, Option.some.injEq] at stepped
      obtain ⟨-, rfl⟩ := stepped
      cases announced
  | sleep =>
      simp only [advance, point_eq, Option.some.injEq] at stepped
      exact .inl ⟨rfl, stepped.symm⟩
  | retestStop =>
      simp only [advance, point_eq, Option.some.injEq] at stepped
      subst stepped
      exact .inr ⟨trivial, rfl, fun _ => .inl rfl⟩
  | retreat =>
      simp only [advance, point_eq, Option.some.injEq] at stepped
      subst stepped
      cases announced
  | blocked =>
      simp only [advance, point_eq, Option.ite_none_right_eq_some, Option.some.injEq] at stepped
      obtain ⟨-, rfl⟩ := stepped
      exact .inr ⟨trivial, rfl, by simp [Committed]⟩
  | wake =>
      simp only [advance, point_eq, Option.some.injEq] at stepped
      subst stepped
      cases announced
  | events path =>
      simp only [advance, point_eq, Option.some.injEq] at stepped
      subst stepped
      unfold handleEvent at announced
      split at announced
      · cases announced
      · simp [point_eq, Announced] at announced
      · dsimp only at announced
        split at announced <;> cases announced
  | terminated => simp [advance, point_eq] at stepped

/-- Only `process_thread_messages` moves an index of the queue, and only `head`. -/
theorem advance_queue {before after : RunLoop θ} {startOk : Bool} {ready : List Event}
    (stepped : before.advance pollCycles startOk ready = some after) :
    after.msgQueue = before.msgQueue ∧ after.tail = before.tail ∧
      (after.head = before.head ∨
        after.head = (before.head + 1) % maxQueueSize ∧ ∃ path, before.point = .drain path) := by
  unfold advance at stepped
  split at stepped
  case h_6 path point_eq =>
    split at stepped
    · obtain rfl := Option.some.inj stepped
      exact ⟨rfl, rfl, .inl rfl⟩
    · obtain rfl := Option.some.inj stepped
      exact ⟨rfl, rfl, .inr ⟨rfl, path, point_eq⟩⟩
  case h_2 =>
    split at stepped <;>
      · obtain rfl := Option.some.inj stepped
        exact ⟨rfl, rfl, .inl rfl⟩
  case h_8 =>
    obtain ⟨-, unmoved⟩ := Option.ite_none_right_eq_some.mp stepped
    obtain rfl := Option.some.inj unmoved
    exact ⟨rfl, rfl, .inl rfl⟩
  case h_12 =>
    obtain ⟨-, unmoved⟩ := Option.ite_none_right_eq_some.mp stepped
    obtain rfl := Option.some.inj unmoved
    exact ⟨rfl, rfl, .inl rfl⟩
  case h_14 =>
    obtain rfl := Option.some.inj stepped
    unfold handleEvent
    split <;> exact ⟨rfl, rfl, .inl rfl⟩
  case h_15 => cases stepped
  all_goals
    obtain rfl := Option.some.inj stepped
    exact ⟨rfl, rfl, .inl rfl⟩

end RunLoop

namespace PurgedLoop

variable {θ : Type*}

/-- What makes the handshake work where every last look is right. -/
structure Watchful (state : PurgedLoop θ) : Prop where
  /-- The announcement stands. -/
  announced : RunLoop.Announced state.loop.point → state.loop.isSleeping = true
  /-- The first index is in range. -/
  head_lt : state.loop.head < maxQueueSize
  /-- The second index is in range. -/
  tail_lt : state.loop.tail < maxQueueSize
  /-- A purge has room in its array. -/
  newTail_lt : ∀ purge, state.purge = some purge → purge.newTail < maxQueueSize
  /-- A purge has room in its array for all messages. -/
  room : ∀ purge, state.purge = some purge → purge.point = .sorting →
    purge.newTail + (queued state.loop).length < maxQueueSize
  /-- Before it writes `tail`, a purge has set `head` to zero. -/
  rebased : ∀ purge, state.purge = some purge → purge.point = .writeTail → state.loop.head = 0
  /-- Messages that stay are noticed. -/
  noticed : RunLoop.Committed state.loop.point → state.Keeps → state.loop.Alerted

theorem watchful_of_initial {state : PurgedLoop θ} (initial : state.Initial) : state.Watchful where
  announced := by simp [initial.loop.point, RunLoop.Announced]
  head_lt := initial.head_lt
  tail_lt := initial.tail_lt
  newTail_lt := by simp [initial.purge]
  room := by simp [initial.purge]
  rebased := by simp [initial.purge]
  noticed := by simp [initial.loop.point, RunLoop.Committed]

/-- A write of a purge does not change whether messages stay. -/
theorem Watchful.purgeStep {state : PurgedLoop θ} {purge : Purge} (watchful : state.Watchful)
    (purging : state.purge = some purge) : (purgeStep state.loop purge).Watchful := by
  obtain ⟨announced, head_lt, tail_lt, newTail_lt, room, rebased, noticed⟩ := watchful
  have newTail_lt := newTail_lt purge purging
  unfold Keeps at noticed
  rw [purging] at noticed
  dsimp only at noticed
  unfold PurgedLoop.purgeStep
  cases point_eq : purge.point with
  | sorting =>
      have room := room purge purging point_eq
      rw [point_eq] at noticed
      dsimp only at noticed ⊢
      split
      · constructor
        case announced => exact announced
        case head_lt => exact head_lt
        case tail_lt => exact tail_lt
        case newTail_lt => simpa using newTail_lt
        case room => simp
        case rebased => simp
        case noticed => exact fun committed keeps => noticed committed (.inl keeps)
      · rename_i messages
        have split := queued_eq_cons ⟨head_lt, tail_lt⟩ messages
        have length_eq := congrArg List.length split
        rw [List.length_cons] at length_eq
        cases targeted : purge.target (state.loop.msgQueue state.loop.head) with
        | true =>
            constructor
            case announced => exact announced
            case head_lt => exact Nat.mod_lt _ (by decide)
            case tail_lt => exact tail_lt
            case newTail_lt => simpa using newTail_lt
            case room =>
              rintro _ ⟨⟩ -
              dsimp only
              omega
            case rebased => simp [point_eq]
            case noticed =>
              intro committed keeps
              refine noticed committed ?_
              simp only [Keeps, if_true, point_eq] at keeps
              obtain kept | ⟨buf, member, stays⟩ := keeps
              · exact .inl kept
              · exact .inr ⟨buf, split ▸ List.mem_cons_of_mem _ member, stays⟩
        | false =>
            have next_eq : (purge.newTail + 1) % maxQueueSize = purge.newTail + 1 :=
              Nat.mod_eq_of_lt (by omega)
            constructor
            case announced => exact announced
            case head_lt => exact Nat.mod_lt _ (by decide)
            case tail_lt => exact tail_lt
            case newTail_lt =>
              rintro _ ⟨⟩
              exact Nat.mod_lt _ (by decide)
            case room =>
              rintro _ ⟨⟩ -
              dsimp only
              omega
            case rebased => simp
            case noticed =>
              intro committed _
              refine noticed committed (.inr ⟨_, ?_, targeted⟩)
              rw [split]
              exact List.mem_cons_self
  | writeHead =>
      rw [point_eq] at noticed
      constructor
      case announced => exact announced
      case head_lt => exact Nat.zero_lt_of_lt head_lt
      case tail_lt => exact tail_lt
      case newTail_lt => simpa using newTail_lt
      case room => simp
      case rebased => simp
      case noticed => exact noticed
  | writeTail =>
      rw [point_eq] at noticed
      have head_eq := rebased purge purging point_eq
      constructor
      case announced => exact announced
      case head_lt => exact head_lt
      case tail_lt => exact newTail_lt
      case newTail_lt => simpa using newTail_lt
      case room => simp
      case rebased => simp
      case noticed =>
        intro committed keeps
        refine noticed committed ?_
        simp only [Keeps, head_eq] at keeps
        exact keeps.symm
  | unlock =>
      rw [point_eq] at noticed
      constructor
      case announced => exact announced
      case head_lt => exact head_lt
      case tail_lt => exact tail_lt
      case newTail_lt => simp
      case room => simp
      case rebased => simp
      case noticed => exact noticed

theorem Watchful.start {state : PurgedLoop θ} (watchful : state.Watchful)
    (idle : state.purge = none) (target : BufRef → Bool) :
    ({ state with purge := some ⟨target, fun _ => 0, 0, .sorting⟩ } : PurgedLoop θ).Watchful where
  announced := watchful.announced
  head_lt := watchful.head_lt
  tail_lt := watchful.tail_lt
  newTail_lt := by
    rintro _ ⟨⟩
    exact Nat.zero_lt_of_lt watchful.head_lt
  room := by
    rintro _ ⟨⟩ -
    rw [Nat.zero_add]
    exact length_queued_lt
  rebased := by
    rintro _ ⟨⟩ ⟨⟩
  noticed := by
    intro committed keeps
    refine watchful.noticed committed ?_
    simp only [Keeps, idle]
    obtain kept | ⟨buf, member, -⟩ := keeps
    · exact absurd rfl kept
    · intro no_messages
      have none_queued : queued state.loop = [] := queued_eq_nil no_messages
      rw [none_queued] at member
      cases member

/-- A step of the loop or of a caller that leaves the queue alone. -/
theorem Watchful.sameQueue {state : PurgedLoop θ} {loop : RunLoop θ} (watchful : state.Watchful)
    (announced : RunLoop.Announced loop.point → loop.isSleeping = true)
    (msgQueue_eq : loop.msgQueue = state.loop.msgQueue) (head_eq : loop.head = state.loop.head)
    (tail_eq : loop.tail = state.loop.tail)
    (noticed : RunLoop.Committed loop.point → state.Keeps → loop.Alerted) :
    ({ state with loop := loop } : PurgedLoop θ).Watchful := by
  have queued_same : queued loop = queued state.loop := by
    unfold queued ring
    simp only [msgQueue_eq, head_eq, tail_eq]
  constructor
  case announced => exact announced
  case head_lt => exact head_eq ▸ watchful.head_lt
  case tail_lt => exact tail_eq ▸ watchful.tail_lt
  case newTail_lt => exact watchful.newTail_lt
  case room =>
    intro purge purging sorting
    rw [queued_same]
    exact watchful.room purge purging sorting
  case rebased =>
    intro purge purging writing
    exact head_eq.trans (watchful.rebased purge purging writing)
  case noticed =>
    intro committed keeps
    refine noticed committed ?_
    unfold Keeps at keeps ⊢
    dsimp only at keeps
    rwa [queued_same, head_eq, tail_eq] at keeps

/-- A step of the loop whose last look, if it takes one, is right. -/
theorem Watchful.advance {pollCycles : Nat} {state : PurgedLoop θ} {loop : RunLoop θ} {startOk : Bool}
    {ready : List Event} (watchful : state.Watchful)
    (right : state.LooksRight (.other (.advance startOk ready)))
    (locked : state.purge.isSome = true → NeedsLock state.loop (.advance startOk ready) = false)
    (stepped : state.loop.advance pollCycles startOk ready = some loop) :
    ({ state with loop := loop } : PurgedLoop θ).Watchful := by
  obtain ⟨msgQueue_eq, tail_eq, head_eq | ⟨head_eq, path, draining⟩⟩ :=
    RunLoop.advance_queue stepped
  · refine watchful.sameQueue ?_ msgQueue_eq head_eq tail_eq ?_
    · intro announced
      obtain ⟨-, moved⟩ | ⟨before, moved, -⟩ := RunLoop.advance_announced stepped announced
      · rw [moved]
      · rw [moved]
        exact watchful.announced before
    · intro committed keeps
      obtain ⟨-, moved⟩ | ⟨-, moved, last⟩ :=
        RunLoop.advance_announced stepped (RunLoop.announced_of_committed committed)
      · rw [moved] at committed
        cases committed
      · rw [moved]
        obtain retest | looked := last committed
        · exact watchful.noticed (by simp [retest, RunLoop.Committed]) keeps
        · exact absurd keeps (right looked)
  · have unannounced : ¬ RunLoop.Announced loop.point := by
      intro announced
      obtain ⟨sleep, -⟩ | ⟨before, -⟩ := RunLoop.advance_announced stepped announced
      · cases draining.symm.trans sleep
      · simp [draining, RunLoop.Announced] at before
    have idle : state.purge = none := by
      by_contra purging
      have needed := locked (Option.isSome_iff_ne_none.mpr purging)
      simp [NeedsLock, draining] at needed
    constructor
    case announced => exact fun announced => absurd announced unannounced
    case head_lt =>
      rw [head_eq]
      exact Nat.mod_lt _ (by decide)
    case tail_lt => exact tail_eq ▸ watchful.tail_lt
    case newTail_lt => simp [idle]
    case room => simp [idle]
    case rebased => simp [idle]
    case noticed =>
      exact fun committed => absurd (RunLoop.announced_of_committed committed) unannounced

variable [DecidableEq θ] {pollCycles : Nat}

theorem Watchful.caller {state : PurgedLoop θ} {loop : RunLoop θ} {op : LoopOp θ}
    (watchful : state.Watchful) (caller_op : ∀ startOk ready, op ≠ .advance startOk ready)
    (locked : state.purge.isSome = true → NeedsLock state.loop op = false)
    (stepped : state.loop.step pollCycles op = some loop) :
    ({ state with loop := loop } : PurgedLoop θ).Watchful := by
  obtain ⟨point_eq, -, sleeping_eq⟩ := RunLoop.frame_of_caller caller_op stepped
  have announced (after : RunLoop.Announced loop.point) : loop.isSleeping = true := by
    rw [sleeping_eq]
    exact watchful.announced (point_eq ▸ after)
  obtain ⟨msgQueue_eq, head_eq, tail_eq⟩ | ⟨⟨thread, buf, rfl, owes⟩, head_eq, tail_eq⟩ :=
    RunLoop.caller_queue caller_op stepped
  · refine watchful.sameQueue announced msgQueue_eq head_eq tail_eq ?_
    intro committed keeps
    rw [point_eq] at committed
    exact (watchful.noticed committed keeps).caller_step
      (watchful.announced (RunLoop.announced_of_committed committed)) caller_op stepped
  · have idle : state.purge = none := by
      by_contra purging
      have needed := locked (Option.isSome_iff_ne_none.mpr purging)
      simp [NeedsLock] at needed
    constructor
    case announced => exact announced
    case head_lt => exact head_eq ▸ watchful.head_lt
    case tail_lt =>
      rw [tail_eq]
      exact Nat.mod_lt _ (by decide)
    case newTail_lt => simp [idle]
    case room => simp [idle]
    case rebased => simp [idle]
    case noticed => exact fun _ _ => .inr ⟨thread, owes⟩

theorem Watchful.step {before after : PurgedLoop θ} {op : PurgeOp θ} (watchful : before.Watchful)
    (right : before.LooksRight op) (stepped : before.step pollCycles op = some after) :
    after.Watchful := by
  cases op with
  | other op =>
      simp only [PurgedLoop.step, Option.ite_none_left_eq_some, Option.map_eq_some_iff,
        Bool.and_eq_true, not_and, Bool.not_eq_true] at stepped
      obtain ⟨locked, loop, loop_stepped, rfl⟩ := stepped
      cases op with
      | advance startOk ready => exact watchful.advance right locked loop_stepped
      | send thread buf => exact watchful.caller (by simp) locked loop_stepped
      | loadSleeping thread => exact watchful.caller (by simp) locked loop_stepped
      | stop thread => exact watchful.caller (by simp) locked loop_stepped
      | register thread member => exact watchful.caller (by simp) locked loop_stepped
      | writeNotify thread => exact watchful.caller (by simp) locked loop_stepped
  | start target =>
      simp only [PurgedLoop.step] at stepped
      split at stepped
      · cases stepped
      · rename_i idle
        obtain rfl := Option.some.inj stepped
        exact watchful.start idle target
  | next =>
      obtain ⟨purge, purging, rfl⟩ := Option.map_eq_some_iff.mp stepped
      exact watchful.purgeStep purging

/-- In a run in which every last look at the queue is right, a loop that waits while messages are in
its queue, after all purges and without an outstanding notice, has a readable `notify_fd`. -/
theorem readable_of_survivors {state : PurgedLoop θ}
    (reach : Reach (step pollCycles) LooksRight Initial state)
    (blocked : state.loop.point = .blocked) (finished : state.purge = none)
    (quiet : ∀ thread, ¬ state.loop.Owes thread)
    (survivors : state.loop.head ≠ state.loop.tail) : state.loop.counter ≠ 0 := by
  have watchful : state.Watchful :=
    Reach.invariant Watchful (fun _ initial => watchful_of_initial initial)
      (fun _ _ _ watchful right stepped => watchful.step right stepped) reach
  have keeps : state.Keeps := by
    unfold Keeps
    rw [finished]
    exact survivors
  obtain readable | ⟨thread, owes⟩ := watchful.noticed (by simp [blocked, RunLoop.Committed]) keeps
  · exact readable
  · exact absurd owes (quiet thread)

/-- A thread after `nos_scheduler_init_thread`. -/
def fresh : PurgedLoop Unit := ⟨RunLoop.fresh, none⟩

theorem fresh_initial : fresh.Initial where
  loop := RunLoop.fresh_initial
  head_lt := by decide
  tail_lt := by decide
  purge := rfl

/-- Next step of the loop, which gets no events. -/
def loopOp : PurgeOp Unit := .other (.advance true [])

/-- The loop sleeps when a message comes and a purge keeps it. -/
def keptWhileAsleep : List (PurgeOp Unit) :=
  List.replicate 11 loopOp ++
    [.other (.send () 7), .other (.loadSleeping ()), .other (.writeNotify ()),
      .start fun _ => false, .next, .next, .next, .next, .next]

/-- Then the message is noticed. -/
theorem kept_message_readable :
    ∃ state : PurgedLoop Unit, state.loop.point = .blocked ∧ state.loop.head ≠ state.loop.tail ∧
      state.loop.counter ≠ 0 := by
  have execution :
      (runGuarded (step 1) LooksRight fresh keptWhileAsleep).map
        (fun state => (state.loop.point, state.loop.head, state.loop.tail, state.purge.isNone,
          state.loop.caller ())) = some (.blocked, 0, 1, true, .idle) := by
    decide +kernel
  obtain ⟨state, ran, view⟩ := Option.map_eq_some_iff.mp execution
  obtain ⟨blocked, head_eq, tail_eq, finished, idle⟩ :
      state.loop.point = .blocked ∧ state.loop.head = 0 ∧ state.loop.tail = 1 ∧
        state.purge = none ∧ state.loop.caller () = .idle := by
    simpa using view
  have survivors : state.loop.head ≠ state.loop.tail := by omega
  exact ⟨state, blocked, survivors,
    readable_of_survivors (reach_of_runGuarded (.start fresh_initial) ran) blocked finished
      (fun _ => by simp [RunLoop.Owes, idle]) survivors⟩

/-- The loop is about to sleep when a message comes without a notice; a purge that keeps the message
moves `head` up to `tail` just when the loop looks. -/
def keptWhileFallingAsleep : List (PurgeOp Unit) :=
  List.replicate 7 loopOp ++
    [.other (.send () 7), .other (.loadSleeping ()), .start fun _ => false, .next] ++
    List.replicate 4 loopOp ++ [.next, .next, .next, .next]

/-- Then nobody will wake the loop. -/
theorem kept_message_stranded :
    ∃ state : PurgedLoop Unit, Reachable (step 1) Initial state ∧
      state.loop.point = .blocked ∧ state.purge = none ∧
      (∀ thread, ¬ state.loop.Owes thread) ∧ state.loop.head ≠ state.loop.tail ∧
      state.loop.counter = 0 := by
  have execution :
      (run (step 1) fresh keptWhileFallingAsleep).map
        (fun state => (state.loop.point, state.loop.head, state.loop.tail, state.purge.isNone,
          state.loop.caller (), state.loop.counter)) = some (.blocked, 0, 1, true, .idle, 0) := by
    decide +kernel
  obtain ⟨state, ran, view⟩ := Option.map_eq_some_iff.mp execution
  obtain ⟨blocked, head_eq, tail_eq, finished, idle, unreadable⟩ :
      state.loop.point = .blocked ∧ state.loop.head = 0 ∧ state.loop.tail = 1 ∧
        state.purge = none ∧ state.loop.caller () = .idle ∧ state.loop.counter = 0 := by
    simpa using view
  exact ⟨state, reachable_of_run (.start fresh_initial) ran, blocked, finished,
    fun _ => by simp [RunLoop.Owes, idle], by omega, unreadable⟩

end PurgedLoop

end CodexNos.Scheduler
