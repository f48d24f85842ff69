import CodexNos.Lib.Ring
import CodexNos.Memory.Pool
import CodexNos.Messaging.Routing

/-!
# The message queue of a thread

Senders put messages into the queue of a thread and the thread takes them out.  A purge moves all
messages that stay into a scratch array, from its first place on, and copies the array back; a
thread that is deinitialised releases what it still has.  Read from the first to the last, the
queue is a list of bounded length, wherever its two indices stand.

A step is one critical section.  References to the buffers and the wake-up of the thread are left
out.
-/

namespace CodexNos.Messaging

open Lib Memory

/-! ## The queue -/

/-- The message queue of a thread (`nos_thread_t`). -/
structure ThreadQueue where
  /-- `msg_queue` with `head` and `tail`. -/
  ring : Ring BufferId maxQueueSize
  /-- The thread has been deinitialised, and `msg_queue` with it. -/
  freed : Bool

/-- A critical section under `queue_lock`. -/
inductive QueueOp
  /-- `nos_transport_local_send`. -/
  | localSend (buf : BufferId)
  /-- `process_thread_messages` takes a message. -/
  | dequeue
  /-- `nos_scheduler_drop_messages_for_provider`, with the tables and the headers of the buffers at
  that time; whether there is memory for the scratch array. -/
  | dropMessages (tables : Tables) (headers : BufferId → Header) (provider : Option CompRef)
      (allocated : Bool)
  /-- `nos_scheduler_deinit_thread`. -/
  | deinit

/-- What a critical section gives its function. -/
inductive QueueResult
  /-- The result of a send. -/
  | sent (status : Status)
  /-- The message taken. -/
  | taken (buf : Option BufferId)
  /-- The messages released, the first one first. -/
  | released (bufs : List BufferId)
  deriving DecidableEq, Repr

/-- The test of a purge on a header. -/
def targets (tables : Tables) (provider : Option CompRef) (header : Header) : Bool :=
  provider.any fun comp => tables.targetsProvider comp header

namespace ThreadQueue

/-- The cleared `new_queue`. -/
def newQueue : Ring BufferId maxQueueSize := Ring.empty ⟨0, 0⟩ (by decide)

/-- `nos_transport_local_send`. -/
def localSend (queue : ThreadQueue) (buf : BufferId) : ThreadQueue × Status :=
  match queue.ring.push? buf with
  | none => (queue, .errBusy)
  | some ring => ({ queue with ring := ring }, .ok)

/-- `process_thread_messages` takes a message. -/
def dequeue (queue : ThreadQueue) : ThreadQueue × Option BufferId :=
  match queue.ring.pop? with
  | none => (queue, none)
  | some (buf, ring) => ({ queue with ring := ring }, some buf)

/-- A round of a purge: release the message or move it into `new_queue`. -/
def purgeRound (target : BufferId → Bool) (state : Ring BufferId maxQueueSize × List BufferId)
    (buf : BufferId) : Ring BufferId maxQueueSize × List BufferId :=
  if target buf then (state.1, state.2 ++ [buf]) else (state.1.put buf, state.2)

/-- `nos_scheduler_drop_messages_for_provider`, with the messages that it releases. -/
def dropMessages (queue : ThreadQueue) (tables : Tables) (headers : BufferId → Header)
    (provider : Option CompRef) (allocated : Bool) : Option (ThreadQueue × List BufferId) :=
  match provider, allocated with
  | none, _ => some (queue, [])
  | some _, false => some (queue, [])
  | some comp, true =>
      let target := fun buf => tables.targetsProvider comp (headers buf)
      (queue.ring.drain (purgeRound target) maxQueueSize (newQueue, [])).map fun drained =>
        ({ queue with ring := drained.1.1 }, drained.1.2)

/-- The critical section of `nos_scheduler_deinit_thread`, with the messages that it releases. -/
def deinit (queue : ThreadQueue) : Option (ThreadQueue × List BufferId) :=
  (queue.ring.drain (fun released buf => released ++ [buf]) maxQueueSize []).map fun drained =>
    (⟨drained.2, true⟩, drained.1)

/-- One critical section.  A queue that has been freed allows none. -/
def step (queue : ThreadQueue) (op : QueueOp) : Option (ThreadQueue × QueueResult) :=
  if queue.freed then none
  else
    match op with
    | .localSend buf =>
        let (queue', status) := queue.localSend buf
        some (queue', .sent status)
    | .dequeue =>
        let (queue', buf) := queue.dequeue
        some (queue', .taken buf)
    | .dropMessages tables headers provider allocated =>
        (queue.dropMessages tables headers provider allocated).map fun (queue', bufs) =>
          (queue', .released bufs)
    | .deinit => queue.deinit.map fun (queue', bufs) => (queue', .released bufs)

/-- Critical sections in order, with their results. -/
def run : ThreadQueue → List QueueOp → Option (ThreadQueue × List QueueResult)
  | queue, [] => some (queue, [])
  | queue, op :: ops =>
      (queue.step op).bind fun (queue', result) =>
        (queue'.run ops).map fun (final, results) => (final, result :: results)

end ThreadQueue

/-! ## Bounded lists -/

/-- What the queue is for: a list of at most `1023` messages. -/
@[ext]
structure Fifo where
  /-- The messages, the first one first. -/
  items : List BufferId
  /-- They fit. -/
  length_le : items.length ≤ 1023
  /-- The list is no longer in use. -/
  closed : Bool

namespace Fifo

/-- A send appends, unless the list is full. -/
def send (fifo : Fifo) (buf : BufferId) : Fifo × Status :=
  if full : fifo.items.length = 1023 then (fifo, .errBusy)
  else
    ({ fifo with
        items := fifo.items ++ [buf]
        length_le := by
          have := fifo.length_le
          rw [List.length_append, List.length_singleton]
          omega }, .ok)

/-- The thread takes the first message. -/
def take (fifo : Fifo) : Fifo × Option BufferId :=
  ({ fifo with
      items := fifo.items.tail
      length_le := by
        rw [List.length_tail]
        exact (Nat.sub_le _ _).trans fifo.length_le }, fifo.items.head?)

/-- A purge removes the messages that it targets. -/
def purge (fifo : Fifo) (target : BufferId → Bool) : Fifo × List BufferId :=
  ({ fifo with
      items := fifo.items.filter fun buf => !target buf
      length_le := (List.length_filter_le _ _).trans fifo.length_le }, fifo.items.filter target)

/-- Deinitialisation empties the list. -/
def close (fifo : Fifo) : Fifo × List BufferId := (⟨[], Nat.zero_le _, true⟩, fifo.items)

/-- One step on the list.  A purge without memory for its scratch array does nothing. -/
def step (fifo : Fifo) (op : QueueOp) : Option (Fifo × QueueResult) :=
  if fifo.closed then none
  else
    match op with
    | .localSend buf => some ((fifo.send buf).1, .sent (fifo.send buf).2)
    | .dequeue => some (fifo.take.1, .taken fifo.take.2)
    | .dropMessages tables headers provider allocated =>
        if allocated then
          let purged := fifo.purge fun buf => targets tables provider (headers buf)
          some (purged.1, .released purged.2)
        else some (fifo, .released [])
    | .deinit => some (fifo.close.1, .released fifo.close.2)

/-- Steps in order, with their results. -/
def run : Fifo → List QueueOp → Option (Fifo × List QueueResult)
  | fifo, [] => some (fifo, [])
  | fifo, op :: ops =>
      (fifo.step op).bind fun (fifo', result) =>
        (fifo'.run ops).map fun (final, results) => (final, result :: results)

end Fifo

/-! ## Refinement -/

namespace ThreadQueue

theorem length_contents_lt (queue : ThreadQueue) :
    queue.ring.contents.length < maxQueueSize := by
  rw [Ring.length_contents]
  exact queue.ring.length_lt

/-- The list that a queue stands for. -/
def fifo (queue : ThreadQueue) : Fifo where
  items := queue.ring.contents
  length_le := Nat.le_of_lt_succ queue.length_contents_lt
  closed := queue.freed

theorem localSend_fifo (queue : ThreadQueue) (buf : BufferId) :
    queue.fifo.send buf = ((queue.localSend buf).1.fifo, (queue.localSend buf).2) := by
  unfold localSend
  cases pushed : queue.ring.push? buf with
  | none =>
      have full : queue.fifo.items.length = 1023 := (Ring.push?_eq_none_iff _ _).mp pushed
      simp [Fifo.send, full]
  | some ring =>
      have appended := Ring.contents_push? pushed
      have room : queue.ring.contents.length ≠ 1023 := by
        intro full
        have := (Ring.push?_eq_none_iff queue.ring buf).mpr full
        simp [pushed] at this
      rw [Fifo.send, dif_neg (show queue.fifo.items.length ≠ 1023 from room)]
      simp [fifo, appended]

theorem dequeue_fifo (queue : ThreadQueue) :
    queue.fifo.take = (queue.dequeue.1.fifo, queue.dequeue.2) := by
  unfold dequeue
  cases popped : queue.ring.pop? with
  | none =>
      have no_items := (Ring.pop?_eq_none_iff _).mp popped
      simp [Fifo.take, fifo, no_items]
  | some taken =>
      obtain ⟨buf, ring⟩ := taken
      have split := Ring.contents_pop? popped
      simp [Fifo.take, fifo, split]

/-- The rounds of a purge sort the messages into those that stay and those that go. -/
theorem foldl_purgeRound (target : BufferId → Bool) (bufs : List BufferId)
    {kept : Ring BufferId maxQueueSize}
    (room : kept.contents.length + bufs.length < maxQueueSize) (released : List BufferId) :
    ∃ kept', bufs.foldl (purgeRound target) (kept, released) =
        (kept', released ++ bufs.filter target) ∧
      kept'.contents = kept.contents ++ bufs.filter fun buf => !target buf := by
  induction bufs generalizing kept released with
  | nil => exact ⟨kept, by simp, by simp⟩
  | cons buf bufs ih =>
      rw [List.length_cons] at room
      cases targeted : target buf with
      | true =>
          obtain ⟨kept', folded, contents⟩ :=
            @ih kept (by omega) (released ++ [buf])
          exact ⟨kept', by simp [purgeRound, targeted, folded], by simp [targeted, contents]⟩
      | false =>
          have appended : (kept.put buf).contents = kept.contents ++ [buf] :=
            Ring.contents_put (by omega) buf
          obtain ⟨kept', folded, contents⟩ :=
            @ih (kept.put buf)
              (by rw [appended, List.length_append, List.length_singleton]; omega) released
          exact
            ⟨kept', by simp [purgeRound, targeted, folded],
              by simp [targeted, contents, appended]⟩

/-- A purge with memory for its scratch array ends, keeps the messages that it does not target in
order and releases the others. -/
theorem dropMessages_eq (queue : ThreadQueue) (tables : Tables) (headers : BufferId → Header)
    (provider : CompRef) :
    ∃ ring, queue.dropMessages tables headers (some provider) true =
        some ({ queue with ring := ring },
          queue.ring.contents.filter fun buf => tables.targetsProvider provider (headers buf)) ∧
      ring.contents =
        queue.ring.contents.filter fun buf => !tables.targetsProvider provider (headers buf) := by
  let target := fun buf => tables.targetsProvider provider (headers buf)
  obtain ⟨rest, drained, -⟩ :=
    Ring.drain_eq (purgeRound target) queue.length_contents_lt (newQueue, [])
  obtain ⟨kept, folded, contents⟩ :=
    @foldl_purgeRound target queue.ring.contents newQueue
      (by simpa [newQueue] using queue.length_contents_lt) []
  refine ⟨kept, ?_, by simpa [newQueue] using contents⟩
  simp [dropMessages, target, drained, folded]

/-- Tables of a node whose component at address `1` provides service `100`. -/
def servingTables : Tables where
  registry := [⟨100, some 1, some 1, "", "", false⟩]
  loaded := []
  component _ := ⟨7, .active, true⟩
  nodeDef := none

/-- A header to service `100`. -/
def servedHeader : Header := ⟨0x4E4F, 1, 100, 0, 0, 0, 0, 0, 0⟩

/-- A queue with one message. -/
def oneMessage : ThreadQueue := ((⟨newQueue, false⟩ : ThreadQueue).localSend ⟨0, 0⟩).1

/-- A purge without memory for its scratch array leaves a message that it targets. -/
theorem drop_without_memory :
    oneMessage.dropMessages servingTables (fun _ => servedHeader) (some 1) false =
        some (oneMessage, []) ∧
      oneMessage.ring.contents ≠
        oneMessage.ring.contents.filter fun _ => !servingTables.targetsProvider 1 servedHeader := by
  refine ⟨rfl, ?_⟩
  decide +kernel

theorem deinit_eq (queue : ThreadQueue) :
    ∃ ring, queue.deinit = some (⟨ring, true⟩, queue.ring.contents) ∧ ring.contents = [] := by
  obtain ⟨rest, drained, no_items⟩ :=
    Ring.drain_eq (fun released buf => released ++ [buf]) queue.length_contents_lt []
  have all : queue.ring.contents.foldl (fun released buf => released ++ [buf]) [] =
      queue.ring.contents := by
    rw [List.foldl_append_eq_append, ← List.flatMap_def, List.flatMap_singleton', List.nil_append]
  exact ⟨rest, by simp [deinit, drained, all], no_items⟩

theorem step_fifo (queue : ThreadQueue) (op : QueueOp) :
    queue.fifo.step op = (queue.step op).map fun (queue', result) => (queue'.fifo, result) := by
  unfold step Fifo.step
  change (if queue.freed then none else _) = _
  cases freed : queue.freed with
  | true => rfl
  | false =>
      cases op with
      | localSend buf => simp [localSend_fifo]
      | dequeue => simp [dequeue_fifo]
      | dropMessages tables headers provider allocated =>
          cases allocated with
          | false => cases provider <;> rfl
          | true =>
              cases provider with
              | none => simp [dropMessages, Fifo.purge, targets, fifo]
              | some comp =>
                  obtain ⟨ring, dropped, contents⟩ := queue.dropMessages_eq tables headers comp
                  simp [dropped, Fifo.purge, targets, fifo, contents]
      | deinit =>
          obtain ⟨ring, drained, no_items⟩ := queue.deinit_eq
          simp [drained, Fifo.close, fifo, no_items]

/-- The queue is a list of at most `1023` messages: from every position of its indices and over all
critical sections, a send appends its message or finds `1023` messages and changes nothing, the
thread takes the first message, a purge that gets its scratch array leaves the messages that it does
not target in order and one that gets none changes nothing, and deinitialisation leaves none. -/
theorem run_fifo (queue : ThreadQueue) (ops : List QueueOp) :
    queue.fifo.run ops = (queue.run ops).map fun (final, results) => (final.fifo, results) := by
  induction ops generalizing queue with
  | nil => rfl
  | cons op ops ih =>
      rw [Fifo.run, run, step_fifo]
      cases stepped : queue.step op with
      | none => rfl
      | some taken => simp [ih, Function.comp_def]

end ThreadQueue

end CodexNos.Messaging
