import CodexNos.Ipc.TxOrder

/-!
# Replies and the incarnations of a connection

A reply is accepted for one incarnation of its connection, which ends with a disconnection.  The
queue survives a disconnection, so a reply that is then still queued outlives its incarnation.  The
replies of a run keep to their incarnations exactly if no link is marked disconnected while a
reply is queued.
-/

namespace CodexNos.Ipc

open Lib Lib.Transition

variable {β : Type*}

namespace Conn

/-- A round of `nos_ipc_process_tx` is going to find the link broken. -/
def LinkFails (conn : Conn β) (wire : Wire) (written : Bool) (sent : SendResult) : Prop :=
  conn.txQueue.contents ≠ [] ∧ conn.viaShm wire written = false ∧
    (conn.fd = none ∨ sent = .failed)

theorem not_up_markDisconnected (conn : Conn β) (generation : UInt32) :
    ¬ conn.markDisconnected.Up generation := by
  simp [Up, markDisconnected]

/-- A round keeps the incarnation, or it fails and ends it. -/
theorem txNext_link {before after : Conn β} {wire : Wire} {written : Bool} {sent : SendResult}
    {effect : TxEffect β} (sent_one : before.txNext wire written sent = some (after, effect)) :
    ¬ before.LinkFails wire written sent ∧ effect ≠ .broken ∧
        (∀ generation, after.Up generation ↔ before.Up generation) ∨
      before.LinkFails wire written sent ∧ effect = .broken ∧
        ∀ generation, ¬ after.Up generation := by
  unfold txNext at sent_one
  split at sent_one
  · cases sent_one
  · rename_i item txQueue popped
    have taken := Ring.contents_pop? popped
    dsimp only at sent_one
    split at sent_one
    · rename_i shm
      obtain ⟨rfl, rfl⟩ := Prod.mk.inj (Option.some.inj sent_one)
      exact .inl ⟨by simp [LinkFails, shm], by simp, fun _ => Iff.rfl⟩
    · rename_i socket
      split at sent_one
      · rename_i complete
        obtain ⟨rfl, rfl⟩ := Prod.mk.inj (Option.some.inj sent_one)
        refine .inl ⟨?_, by simp, fun _ => Iff.rfl⟩
        rintro ⟨-, -, closed | rfl⟩
        · simp [closed] at complete
        · simp at complete
      · rename_i again
        obtain ⟨rfl, rfl⟩ := Prod.mk.inj (Option.some.inj sent_one)
        refine .inl ⟨?_, by simp, fun _ => Iff.rfl⟩
        rintro ⟨-, -, closed | rfl⟩
        · simp [closed] at again
        · simp at again
      · rename_i failed
        obtain ⟨rfl, rfl⟩ := Prod.mk.inj (Option.some.inj sent_one)
        refine .inr ⟨⟨by simp [taken], by simpa using socket, ?_⟩, rfl, ?_⟩
        · split at failed
          · exact .inl ‹_›
          · exact .inr failed
        · exact fun generation => not_up_markDisconnected _ generation

theorem txNext_eq_none_iff {conn : Conn β} {wire : Wire} {written : Bool} {sent : SendResult} :
    conn.txNext wire written sent = none ↔ conn.txQueue.contents = [] := by
  rw [← Ring.pop?_eq_none_iff]
  unfold txNext
  split
  · simp_all
  · rename_i popped
    simp only [popped, reduceCtorEq, iff_false]
    split
    · simp
    · split <;> simp

end Conn

namespace ConnRun

/-- The accepted items that are still queued. -/
def waiting (run : ConnRun β) : List (Accepted β) := run.accepted.drop run.transmitted.length

/-- No reply is queued. -/
def NoReplyQueued (run : ConnRun β) : Prop := ∀ entry ∈ run.waiting, entry.replyTo = none

/-- The link is not marked disconnected while a reply is queued. -/
def KeepsReplies (run : ConnRun β) : ConnOp β → Prop
  | .disconnect => run.NoReplyQueued
  | .next wire written sent =>
      run.sending = true → run.conn.LinkFails wire written sent → run.NoReplyQueued
  | _ => True

/-- The transmitted replies were transmitted by their incarnations.  By the order of the queue, the
item transmitted at some place is the one accepted at that place. -/
def SentInTime (run : ConnRun β) : Prop :=
  ∀ (place : Nat) (entry : Accepted β) (sent : Transmitted β), run.accepted[place]? = some entry →
    run.transmitted[place]? = some sent → ∀ generation, entry.replyTo = some generation →
      sent.generation = generation

/-- The incarnations of the queued replies are up. -/
def QueuedInTime (run : ConnRun β) : Prop :=
  ∀ entry ∈ run.waiting, ∀ generation, entry.replyTo = some generation → run.conn.Up generation

/-- The replies keep to their incarnations. -/
structure RepliesInTime (run : ConnRun β) : Prop where
  /-- What was accepted is what was transmitted and what is queued. -/
  in_order : run.InOrder
  /-- A reply was transmitted by its incarnation. -/
  sent : run.SentInTime
  /-- The incarnation of a queued reply has not ended. -/
  queued : run.QueuedInTime

theorem InOrder.length_le {run : ConnRun β} (in_order : run.InOrder) :
    run.transmitted.length ≤ run.accepted.length := by
  have := congrArg List.length in_order
  simp only [List.length_map, List.length_append] at this
  omega

theorem repliesInTime_iff_of_down {run : ConnRun β} (in_order : run.InOrder)
    (sent : run.SentInTime) (down : ∀ generation, ¬ run.conn.Up generation) :
    run.RepliesInTime ↔ run.NoReplyQueued := by
  constructor
  · intro in_time entry waiting
    cases reply : entry.replyTo with
    | none => rfl
    | some generation => exact absurd (in_time.queued entry waiting generation reply) (down _)
  · intro no_reply
    refine ⟨in_order, sent, ?_⟩
    intro entry waiting generation reply
    rw [no_reply entry waiting] at reply
    cases reply

/-! ## Steps -/

/-- Accepting an item keeps the replies in time, if it keeps the incarnations of those queued and a
new reply is for an incarnation that is up. -/
theorem RepliesInTime.accept {run : ConnRun β} (in_time : run.RepliesInTime)
    {result : Conn β × Status} {entry : Accepted β}
    (queued : run.conn.Queued result.1 entry.item result.2)
    (up : ∀ generation, run.conn.Up generation → result.1.Up generation)
    (new : result.2 = .ok → ∀ generation, entry.replyTo = some generation →
      result.1.Up generation) :
    (run.accept result entry).RepliesInTime := by
  have length_le := in_time.in_order.length_le
  refine ⟨in_time.in_order.accept queued, ?_, ?_⟩
  · intro place other sent found transmitted
    have place_lt : place < run.accepted.length :=
      lt_of_lt_of_le (List.getElem?_eq_some_iff.mp transmitted).1 length_le
    refine in_time.sent place other sent ?_ transmitted
    rw [← found]
    simp only [ConnRun.accept]
    split
    · rw [List.getElem?_append_left place_lt]
    · rfl
  · intro other waiting generation reply
    have old : other ∈ run.waiting → result.1.Up generation :=
      fun waiting => up generation (in_time.queued other waiting generation reply)
    simp only [ConnRun.waiting, ConnRun.accept] at waiting
    split at waiting
    · rename_i ok
      rw [List.drop_append_of_le_length length_le, List.mem_append,
        List.mem_singleton] at waiting
      rcases waiting with waiting | rfl
      · exact old waiting
      · exact new ok generation reply
    · exact old waiting

/-- An enqueued item leaves an incarnation that is up alone. -/
theorem up_sendEnqueue {conn : Conn β} {generation : UInt32} (up : conn.Up generation) (item : β)
    (localNode : Option CStr) (now : Nat) (outcome : ConnectOutcome) :
    (conn.sendEnqueue item localNode now outcome).1.Up generation := by
  obtain ⟨connected, opened, same⟩ := up
  unfold Conn.sendEnqueue
  split
  · exact ⟨connected, opened, same⟩
  · rw [if_neg (by simp [connected, opened])]
    exact ⟨connected, opened, same⟩

theorem up_sendReply {conn : Conn β} {generation : UInt32} (up : conn.Up generation)
    (asked : UInt32) (item : β) : (conn.sendReply asked item).1.Up generation := by
  unfold Conn.sendReply
  split
  · exact up
  · split
    · exact up
    · exact up

theorem up_of_sendReply {conn : Conn β} {generation : UInt32} {item : β}
    (ok : (conn.sendReply generation item).2 = .ok) :
    (conn.sendReply generation item).1.Up generation := by
  apply up_sendReply
  unfold Conn.sendReply at ok
  split at ok
  · cases ok
  · rename_i up
    push Not at up
    exact up

theorem RepliesInTime.record {run : ConnRun β} (in_time : run.RepliesInTime) {conn : Conn β}
    {wire : Wire} {written : Bool} {sent : SendResult} {effect : TxEffect β}
    (sent_one : run.conn.txNext wire written sent = some (conn, effect))
    (in_order : (run.record conn effect).InOrder)
    (up : ∀ generation, conn.Up generation ↔ run.conn.Up generation) :
    (run.record conn effect).RepliesInTime := by
  have head_in_time : ∀ item, run.conn.txQueue.contents = item :: conn.txQueue.contents →
      ({ run with
          conn := conn
          transmitted := run.transmitted ++ [⟨item, run.conn.generation⟩] } :
        ConnRun β).SentInTime ∧
      ({ run with
          conn := conn
          transmitted := run.transmitted ++ [⟨item, run.conn.generation⟩] } :
        ConnRun β).QueuedInTime := by
    intro item _
    constructor
    · intro place entry sent found transmitted generation reply
      dsimp only at found transmitted
      rcases Nat.lt_or_ge place run.transmitted.length with before | behind
      · rw [List.getElem?_append_left before] at transmitted
        exact in_time.sent place entry sent found transmitted generation reply
      · rw [List.getElem?_append_right behind, List.getElem?_singleton] at transmitted
        split at transmitted
        · obtain rfl := Option.some.inj transmitted
          have waiting : entry ∈ run.waiting := by
            refine List.mem_of_getElem? (i := place - run.transmitted.length) ?_
            rw [waiting, List.getElem?_drop, ← found]
            congr 1
            omega
          exact (in_time.queued entry waiting generation reply).2.2
        · cases transmitted
    · intro entry waiting generation reply
      rw [up]
      refine in_time.queued entry ?_ generation reply
      simp only [ConnRun.waiting, List.length_append, List.length_singleton] at waiting
      rw [← List.drop_drop] at waiting
      exact List.mem_of_mem_drop waiting
  have taken := Conn.txNext_contents sent_one
  cases effect with
  | shm item => exact ⟨in_order, (head_in_time item taken).1, (head_in_time item taken).2⟩
  | socket item => exact ⟨in_order, (head_in_time item taken).1, (head_in_time item taken).2⟩
  | blocked =>
      exact ⟨in_order, in_time.sent, fun entry waiting generation reply =>
        (up generation).mpr (in_time.queued entry waiting generation reply)⟩
  | broken =>
      exact ⟨in_order, in_time.sent, fun entry waiting generation reply =>
        (up generation).mpr (in_time.queued entry waiting generation reply)⟩

/-- A step keeps the replies in time exactly if it does not mark the link disconnected while a
reply is queued. -/
theorem repliesInTime_step_iff {before after : ConnRun β} {op : ConnOp β}
    (in_time : before.RepliesInTime) (stepped : before.step op = some after) :
    after.RepliesInTime ↔ before.KeepsReplies op := by
  have in_order : after.InOrder := in_time.in_order.step stepped
  cases op with
  | enqueue item localNode now outcome =>
      simp only [ConnRun.step, Option.ite_none_left_eq_some, Option.some.injEq] at stepped
      obtain ⟨-, rfl⟩ := stepped
      exact iff_of_true
        (in_time.accept (Conn.sendEnqueue_queued ..) (fun _ up => up_sendEnqueue up ..) (by simp))
        trivial
  | reply generation item =>
      simp only [ConnRun.step, Option.ite_none_left_eq_some, Option.some.injEq] at stepped
      obtain ⟨-, rfl⟩ := stepped
      refine iff_of_true
        (in_time.accept (Conn.sendReply_queued ..) (fun _ up => up_sendReply up ..) ?_) trivial
      rintro ok asked same
      obtain rfl : generation = asked := Option.some.inj same
      exact up_of_sendReply ok
  | processTx =>
      simp only [ConnRun.step, Option.ite_none_left_eq_some, Option.some.injEq] at stepped
      obtain ⟨-, rfl⟩ := stepped
      exact iff_of_true ⟨in_order, in_time.sent, in_time.queued⟩ trivial
  | next wire written sent =>
      simp only [ConnRun.step, Option.ite_none_right_eq_some] at stepped
      obtain ⟨sending, stepped⟩ := stepped
      split at stepped
      · rename_i empty
        obtain rfl := Option.some.inj stepped
        refine iff_of_true ⟨in_order, in_time.sent, in_time.queued⟩ ?_
        exact fun _ fails => absurd (Conn.txNext_eq_none_iff.mp empty) fails.1
      · rename_i conn effect sent_one
        obtain rfl := Option.some.inj stepped
        rcases Conn.txNext_link sent_one with ⟨works, -, up⟩ | ⟨fails, rfl, down⟩
        · exact iff_of_true (in_time.record sent_one in_order up)
            fun _ fails => absurd fails works
        · rw [repliesInTime_iff_of_down in_order in_time.sent down]
          exact ⟨fun no_reply _ _ => no_reply, fun keeps => keeps sending fails⟩
  | disconnect =>
      obtain rfl := Option.some.inj stepped
      exact repliesInTime_iff_of_down in_order in_time.sent
        (Conn.not_up_markDisconnected before.conn)
  | setup peerNode shmName opened =>
      obtain rfl := Option.some.inj stepped
      exact iff_of_true ⟨in_order, in_time.sent, in_time.queued⟩ trivial

/-! ## Runs -/

theorem repliesInTime_of_initial {run : ConnRun β} (initial : run.Initial) :
    run.RepliesInTime where
  in_order := inOrder_of_initial initial
  sent := by simp [SentInTime, initial.accepted]
  queued := by simp [QueuedInTime, waiting, initial.accepted]

/-- All along a run of a new connection the replies keep to their incarnations exactly if no step
of the run marks the link disconnected while a reply is queued. -/
theorem visits_repliesInTime_iff {before after : ConnRun β} {labels : List (ConnOp β)}
    (initial : before.Initial) (execution : Transition.run step before labels = some after) :
    Visits step RepliesInTime before labels ↔ Guarded step KeepsReplies before labels :=
  visits_iff_guarded (fun _ => True) (fun _ _ _ _ _ => trivial)
    (fun _ _ _ _ in_time stepped => repliesInTime_step_iff in_time stepped) trivial
    (repliesInTime_of_initial initial) execution

instance (run : ConnRun β) : Decidable run.NoReplyQueued := by
  unfold NoReplyQueued
  infer_instance

instance [DecidableEq β] (conn : Conn β) (wire : Wire) (written : Bool) (sent : SendResult) :
    Decidable (conn.LinkFails wire written sent) := by
  unfold Conn.LinkFails
  infer_instance

instance [DecidableEq β] (run : ConnRun β) (op : ConnOp β) : Decidable (run.KeepsReplies op) := by
  unfold KeepsReplies
  split <;> infer_instance

/-- A reply is transmitted before the peer closes the connection. -/
def promptReply : List (ConnOp Nat) :=
  [.reply 1 8, .processTx, .next ⟨false, 40⟩ false .complete, .next ⟨false, 40⟩ false .complete,
    .disconnect]

/-- A prompt reply keeps to its incarnation. -/
theorem prompt_reply_in_time : Visits step RepliesInTime (freshPassive 0 7) promptReply := by
  have executes : (runGuarded step KeepsReplies (freshPassive 0 7) promptReply).isSome = true := by
    decide +kernel
  obtain ⟨run, execution⟩ := Option.isSome_iff_exists.mp executes
  obtain ⟨ran, guarded⟩ := guarded_of_runGuarded execution
  exact (visits_repliesInTime_iff (freshPassive_initial 0 7) ran).mpr guarded

/-- The socket is full when a reply is accepted; the link is closed and made anew, and then the
reply goes to the new peer. -/
theorem stale_reply_transmitted :
    ∃ run : ConnRun Nat, Reachable step Initial run ∧ run.accepted[1]? = some ⟨8, some 2⟩ ∧
      run.transmitted[1]? = some ⟨8, 4⟩ ∧ ¬ run.RepliesInTime := by
  have execution :
      (Transition.run step (fresh 0 (some (.ofText "peer")) (.ofText "/tmp/peer"))
          [.enqueue 7 none 0 (.connected 5 false), .processTx, .next ⟨false, 40⟩ false .complete,
            .next ⟨false, 40⟩ false .complete, .reply 2 8, .processTx,
            .next ⟨false, 40⟩ false .again, .disconnect, .enqueue 9 none 0 (.connected 6 false),
            .processTx, .next ⟨false, 40⟩ false .complete]).map
        (fun run => (run.accepted[1]?, run.transmitted[1]?)) =
      some (some ⟨8, some 2⟩, some ⟨8, 4⟩) := by
    decide +kernel
  obtain ⟨run, ran, view⟩ := Option.map_eq_some_iff.mp execution
  obtain ⟨accepted, transmitted⟩ := Prod.mk.inj view
  refine ⟨run, reachable_of_run (.start (fresh_initial _ _ _)) ran, accepted, transmitted, ?_⟩
  intro in_time
  exact absurd (in_time.sent 1 _ _ accepted transmitted 2 rfl) (by decide)

end ConnRun

end CodexNos.Ipc
