import CodexNos.Ipc.Connection

/-!
# The transmit queue is first in, first out

Whatever the link does, the items accepted so far are the items transmitted so far followed by the
items in the queue.  A call is refused for lack of room exactly if the queue holds all the items it
can, and a refused call leaves the queue alone.
-/

namespace CodexNos.Ipc

open Lib Lib.Transition

variable {β : Type*}

/-- Items that the transmit queue can hold. -/
def txQueueLimit : Nat := txQueueSize - 1

namespace Conn

/-! ## The queue and the link -/

@[simp]
theorem markDisconnected_txQueue (conn : Conn β) :
    conn.markDisconnected.txQueue = conn.txQueue := rfl

@[simp]
theorem markConnectFailed_txQueue (conn : Conn β) (clock : Nat) :
    (conn.markConnectFailed clock).txQueue = conn.txQueue := rfl

@[simp]
theorem setupShm_txQueue (conn : Conn β) (localNode : Option CStr) (created : Bool) :
    (conn.setupShm localNode created).txQueue = conn.txQueue := by
  cases localNode with
  | none => rfl
  | some localName =>
      simp only [setupShm]
      split <;> rfl

@[simp]
theorem tryConnect_txQueue (conn : Conn β) (localNode : Option CStr) (now : Nat)
    (outcome : ConnectOutcome) :
    (conn.tryConnect localNode now outcome).txQueue = conn.txQueue := by
  unfold tryConnect
  split
  · rfl
  · cases outcome with
    | failed clock => rfl
    | connected fd created => simp

/-! ## Entering the queue -/

/-- The queue after a call that puts an item into it. -/
structure Queued (before after : Conn β) (item : β) (status : Status) : Prop where
  /-- An accepted item is the last one. -/
  accepted : status = .ok → after.txQueue.contents = before.txQueue.contents ++ [item]
  /-- A refused call leaves the queue alone. -/
  refused : status ≠ .ok → after.txQueue = before.txQueue

theorem sendEnqueue_queued (conn : Conn β) (item : β) (localNode : Option CStr) (now : Nat)
    (outcome : ConnectOutcome) :
    conn.Queued (conn.sendEnqueue item localNode now outcome).1 item
      (conn.sendEnqueue item localNode now outcome).2 := by
  cases pushed : conn.txQueue.push? item with
  | none =>
      simp only [sendEnqueue, pushed]
      exact ⟨by simp, fun _ => rfl⟩
  | some txQueue =>
      have appended := Ring.contents_push? pushed
      simp only [sendEnqueue, pushed]
      split
      · exact ⟨fun _ => by rw [tryConnect_txQueue]; exact appended, by simp⟩
      · exact ⟨fun _ => appended, by simp⟩

theorem sendReply_queued (conn : Conn β) (generation : UInt32) (item : β) :
    conn.Queued (conn.sendReply generation item).1 item (conn.sendReply generation item).2 := by
  unfold sendReply
  split
  · exact ⟨by simp, fun _ => rfl⟩
  · cases pushed : conn.txQueue.push? item with
    | none => exact ⟨by simp, fun _ => rfl⟩
    | some txQueue => exact ⟨fun _ => Ring.contents_push? pushed, by simp⟩

/-- `nos_ipc_send_enqueue` reports a full queue exactly if the queue is full. -/
theorem sendEnqueue_busy_iff (conn : Conn β) (item : β) (localNode : Option CStr) (now : Nat)
    (outcome : ConnectOutcome) :
    (conn.sendEnqueue item localNode now outcome).2 = .errBusy ↔
      conn.txQueue.contents.length = txQueueLimit := by
  unfold txQueueLimit
  rw [← Ring.push?_eq_none_iff conn.txQueue item]
  cases pushed : conn.txQueue.push? item with
  | none => simp [sendEnqueue, pushed]
  | some txQueue =>
      simp only [sendEnqueue, pushed]
      split <;> simp

/-- The incarnation that a reply is for is still up. -/
def Up (conn : Conn β) (generation : UInt32) : Prop :=
  conn.state = .connected ∧ conn.fd ≠ none ∧ conn.generation = generation

/-- `nos_ipc_send_reply` reports a full queue exactly if its incarnation is up and the queue is
full. -/
theorem sendReply_busy_iff (conn : Conn β) (generation : UInt32) (item : β) :
    (conn.sendReply generation item).2 = .errBusy ↔
      conn.Up generation ∧ conn.txQueue.contents.length = txQueueLimit := by
  unfold txQueueLimit Up
  rw [← Ring.push?_eq_none_iff conn.txQueue item]
  unfold sendReply
  split
  · rename_i down
    simp only [reduceCtorEq, false_iff]
    tauto
  · rename_i up
    push Not at up
    cases pushed : conn.txQueue.push? item with
    | none => simp [up]
    | some txQueue => simp

/-! ## Leaving the queue -/

/-- A round takes the first item off the queue if it transmits it, and nothing otherwise. -/
theorem txNext_contents {before after : Conn β} {wire : Wire} {written : Bool} {sent : SendResult}
    {effect : TxEffect β} (sent_one : before.txNext wire written sent = some (after, effect)) :
    match effect with
    | .shm item | .socket item => before.txQueue.contents = item :: after.txQueue.contents
    | .blocked | .broken => after.txQueue = before.txQueue := by
  unfold txNext at sent_one
  split at sent_one
  · cases sent_one
  · rename_i item txQueue popped
    have taken := Ring.contents_pop? popped
    dsimp only at sent_one
    split at sent_one
    · obtain ⟨rfl, rfl⟩ := Prod.mk.inj (Option.some.inj sent_one)
      exact taken
    · split at sent_one
      · obtain ⟨rfl, rfl⟩ := Prod.mk.inj (Option.some.inj sent_one)
        exact taken
      · obtain ⟨rfl, rfl⟩ := Prod.mk.inj (Option.some.inj sent_one)
        rfl
      · obtain ⟨rfl, rfl⟩ := Prod.mk.inj (Option.some.inj sent_one)
        rfl

end Conn

namespace ConnRun

/-- Accepted is what is transmitted and what is queued, in order. -/
def InOrder (run : ConnRun β) : Prop :=
  run.accepted.map Accepted.item =
    run.transmitted.map Transmitted.item ++ run.conn.txQueue.contents

theorem InOrder.accept {run : ConnRun β} (in_order : run.InOrder) {result : Conn β × Status}
    {entry : Accepted β} (queued : run.conn.Queued result.1 entry.item result.2) :
    (run.accept result entry).InOrder := by
  unfold InOrder at in_order ⊢
  by_cases ok : result.2 = .ok
  · simp [ConnRun.accept, ok, queued.accepted ok, in_order]
  · simp [ConnRun.accept, ok, queued.refused ok, in_order]

theorem InOrder.step {before after : ConnRun β} {op : ConnOp β} (in_order : before.InOrder)
    (stepped : before.step op = some after) : after.InOrder := by
  cases op with
  | enqueue item localNode now outcome =>
      simp only [ConnRun.step, Option.ite_none_left_eq_some, Option.some.injEq] at stepped
      obtain ⟨-, rfl⟩ := stepped
      exact in_order.accept (Conn.sendEnqueue_queued ..)
  | reply generation item =>
      simp only [ConnRun.step, Option.ite_none_left_eq_some, Option.some.injEq] at stepped
      obtain ⟨-, rfl⟩ := stepped
      exact in_order.accept (Conn.sendReply_queued ..)
  | processTx =>
      simp only [ConnRun.step, Option.ite_none_left_eq_some, Option.some.injEq] at stepped
      obtain ⟨-, rfl⟩ := stepped
      exact in_order
  | next wire written sent =>
      simp only [ConnRun.step, Option.ite_none_right_eq_some] at stepped
      obtain ⟨-, stepped⟩ := stepped
      split at stepped
      · obtain rfl := Option.some.inj stepped
        exact in_order
      · rename_i conn effect sent_one
        obtain rfl := Option.some.inj stepped
        have taken := Conn.txNext_contents sent_one
        unfold InOrder at in_order ⊢
        cases effect with
        | shm item => simp [record, in_order, taken]
        | socket item => simp [record, in_order, taken]
        | blocked => simp [record, in_order, taken]
        | broken => simp [record, in_order, taken]
  | disconnect =>
      obtain rfl := Option.some.inj stepped
      exact in_order
  | setup peerNode shmName opened =>
      obtain rfl := Option.some.inj stepped
      exact in_order

theorem inOrder_of_initial {run : ConnRun β} (initial : run.Initial) : run.InOrder := by
  simp [InOrder, initial.accepted, initial.transmitted, initial.empty]

/-- In every reachable state of a connection the accepted items are the transmitted ones followed by
the queued ones.  Both calls refuse an item for lack of room exactly if the queue is full, a reply
only after it has found its incarnation up, and a refused call leaves the queue alone. -/
theorem accepted_eq_transmitted_append_queued {run : ConnRun β}
    (reach : Reachable step Initial run) :
    run.accepted.map Accepted.item =
        run.transmitted.map Transmitted.item ++ run.conn.txQueue.contents ∧
      (∀ item localNode now outcome,
        ((run.conn.sendEnqueue item localNode now outcome).2 = .errBusy ↔
          run.conn.txQueue.contents.length = txQueueLimit) ∧
        ((run.conn.sendEnqueue item localNode now outcome).2 ≠ .ok →
          (run.conn.sendEnqueue item localNode now outcome).1.txQueue = run.conn.txQueue)) ∧
      ∀ generation item,
        ((run.conn.sendReply generation item).2 = .errBusy ↔
          run.conn.Up generation ∧ run.conn.txQueue.contents.length = txQueueLimit) ∧
        ((run.conn.sendReply generation item).2 ≠ .ok →
          (run.conn.sendReply generation item).1.txQueue = run.conn.txQueue) := by
  refine ⟨?_, ?_, ?_⟩
  · exact Reach.invariant InOrder (fun _ initial => inOrder_of_initial initial)
      (fun _ _ _ in_order _ stepped => in_order.step stepped) reach
  · intro item localNode now outcome
    exact ⟨Conn.sendEnqueue_busy_iff .., (Conn.sendEnqueue_queued ..).refused⟩
  · intro generation item
    exact ⟨Conn.sendReply_busy_iff .., (Conn.sendReply_queued ..).refused⟩

/-- Two items leave the queue in order, one through the shared memory and one through the socket,
and a third one stays. -/
theorem three_items_in_order :
    ∃ run : ConnRun Nat, run.transmitted.map Transmitted.item = [1, 2] ∧
      run.accepted.map Accepted.item =
        run.transmitted.map Transmitted.item ++ run.conn.txQueue.contents := by
  have execution :
      (Transition.run step (fresh 0 (some (.ofText "peer")) (.ofText "/tmp/peer"))
          [.enqueue 1 (some (.ofText "here")) 0 (.connected 5 true), .enqueue 2 none 0 (.failed 0),
            .enqueue 3 none 0 (.failed 0), .processTx, .next ⟨false, 40⟩ true .again,
            .next ⟨false, 40⟩ false .complete, .next ⟨false, 40⟩ false .again]).map
        (fun run => run.transmitted.map Transmitted.item) = some [1, 2] := by
    decide +kernel
  obtain ⟨run, ran, view⟩ := Option.map_eq_some_iff.mp execution
  exact ⟨run, view,
    (accepted_eq_transmitted_append_queued
      (reachable_of_run (.start (fresh_initial 0 (some (.ofText "peer")) (.ofText "/tmp/peer"))) ran)).1⟩

/-- Calls on a connection that cannot be made fill its queue. -/
theorem run_enqueue (count : Nat) (before : ConnRun Nat) (idle : before.sending = false)
    (down : before.conn.fd = none)
    (room : before.conn.txQueue.contents.length + count ≤ txQueueLimit) :
    ∃ after,
      Transition.run step before (List.replicate count (.enqueue 0 none 0 (.failed 0))) =
        some after ∧
      after.conn.fd = none ∧
      after.conn.txQueue.contents.length = before.conn.txQueue.contents.length + count := by
  induction count generalizing before with
  | zero => exact ⟨before, rfl, down, rfl⟩
  | succ count ih =>
      cases pushed : before.conn.txQueue.push? 0 with
      | none =>
          have full := (Ring.push?_eq_none_iff before.conn.txQueue 0).mp pushed
          unfold txQueueLimit at room
          omega
      | some txQueue =>
          let next := before.accept (before.conn.sendEnqueue 0 none 0 (.failed 0)) ⟨0, none⟩
          have stepped : before.step (.enqueue 0 none 0 (.failed 0)) = some next := by
            simp [step, idle, next]
          have appended := Ring.contents_push? pushed
          have queue_eq : next.conn.txQueue = txQueue := by
            simp [next, accept, Conn.sendEnqueue, pushed, down]
          have next_down : next.conn.fd = none := by
            simp only [next, accept, Conn.sendEnqueue, pushed, down, true_or, if_true,
              Conn.tryConnect]
            split <;> rfl
          have length_eq : next.conn.txQueue.contents.length =
              before.conn.txQueue.contents.length + 1 := by
            rw [queue_eq, appended, List.length_append, List.length_singleton]
          obtain ⟨after, ran, after_down, length_after⟩ := ih next idle next_down (by omega)
          refine ⟨after, ?_, after_down, by omega⟩
          rw [List.replicate_succ, Transition.run_cons, stepped]
          exact ran

/-- A reply on a connection that is down is refused as an error although the queue is full. -/
theorem full_queue_without_busy :
    ∃ run : ConnRun Nat, Reachable step Initial run ∧
      run.conn.txQueue.contents.length = txQueueLimit ∧
      (run.conn.sendReply 1 0).2 = .err := by
  obtain ⟨run, ran, down, full⟩ :=
    run_enqueue txQueueLimit (fresh 0 (some (.ofText "peer")) (.ofText "/tmp/peer")) rfl rfl (by decide)
  refine ⟨run, reachable_of_run (.start (fresh_initial _ _ _)) ran, ?_, ?_⟩
  · rw [full]
    decide
  · simp [Conn.sendReply, down]

end ConnRun

end CodexNos.Ipc
