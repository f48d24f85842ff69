import CodexNos.Ipc.Incarnations

/-!
# Attempts to connect

A message for a node without a connection makes `nos_ipc_send_enqueue` connect.  After a failure the
connection waits: each failure in a row doubles the time up to a limit, and a success starts over.
-/

namespace CodexNos.Ipc

open Lib Lib.Transition

variable {β : Type*}

/-! ## Attempts -/

namespace Conn

/-- `nos_ipc_send_enqueue` calls `nos_ipc_try_connect_locked`. -/
def asks (conn : Conn β) (item : β) : Bool :=
  (conn.txQueue.push? item).isSome && (conn.fd.isNone || conn.state ≠ .connected)

/-- `nos_ipc_try_connect_locked` does nothing yet. -/
def tooEarly (conn : Conn β) (now : Nat) : Bool := conn.state = .backoff && now < conn.nextRetryMs

/-- `nos_ipc_send_enqueue` goes on to `socket` and `connect`. -/
def attempts (conn : Conn β) (item : β) (now : Nat) : Bool := conn.asks item && !conn.tooEarly now

/-- `nos_ipc_send_enqueue` waits for a later attempt. -/
def refused (conn : Conn β) (item : β) (now : Nat) : Bool := conn.asks item && conn.tooEarly now

/-- The numbers of the backoff are the same, and the connection is where it was or has lost its
link. -/
structure SameRetry (before after : Conn β) : Prop where
  delay : after.retryDelayMs = before.retryDelayMs
  next : after.nextRetryMs = before.nextRetryMs
  count : after.connectFailCount = before.connectFailCount
  state : after.state = before.state ∨ before.state = .connected ∧ after.state = .disconnected

theorem SameRetry.rfl {conn : Conn β} : SameRetry conn conn :=
  ⟨.refl _, .refl _, .refl _, .inl (.refl _)⟩

theorem SameRetry.trans {first second third : Conn β} (left : SameRetry first second)
    (right : SameRetry second third) : SameRetry first third where
  delay := right.delay.trans left.delay
  next := right.next.trans left.next
  count := right.count.trans left.count
  state := by
    rcases left.state with same | ⟨connected, lost⟩
    · rw [← same]
      exact right.state
    · rcases right.state with same | ⟨connected', -⟩
      · exact .inr ⟨connected, same.trans lost⟩
      · rw [lost] at connected'
        cases connected'

theorem SameRetry.backoff {before after : Conn β} (same : SameRetry before after)
    (waiting : before.state = .backoff) : after.state = .backoff := by
  rcases same.state with kept | ⟨connected, -⟩
  · exact kept.trans waiting
  · rw [waiting] at connected
    cases connected

theorem sendEnqueue_of_not_attempts {conn : Conn β} {item : β} {now : Nat}
    (idle : conn.attempts item now = false) (localNode : Option CStr)
    (outcome : ConnectOutcome) :
    SameRetry conn (conn.sendEnqueue item localNode now outcome).1 := by
  unfold sendEnqueue
  cases pushed : conn.txQueue.push? item with
  | none => exact ⟨rfl, rfl, rfl, .inl rfl⟩
  | some txQueue =>
      dsimp only
      split
      · rename_i down
        have early : conn.state = .backoff ∧ now < conn.nextRetryMs := by
          simpa [attempts, asks, tooEarly, pushed, down] using idle
        rw [tryConnect, if_pos early]
        exact ⟨rfl, rfl, rfl, .inl rfl⟩
      · exact ⟨rfl, rfl, rfl, .inl rfl⟩

/-- A call that attempts to connect tries with the item in the queue. -/
theorem sendEnqueue_of_attempts {conn : Conn β} {item : β} {now : Nat}
    (attempt : conn.attempts item now = true) (localNode : Option CStr)
    (outcome : ConnectOutcome) :
    ∃ txQueue, conn.txQueue.push? item = some txQueue ∧
      ¬ (conn.state = .backoff ∧ now < conn.nextRetryMs) ∧
      conn.sendEnqueue item localNode now outcome =
        ({ conn with txQueue := txQueue }.tryConnect localNode now outcome, .ok) := by
  rw [attempts, asks, Bool.and_eq_true, Bool.and_eq_true, Bool.or_eq_true,
    decide_eq_true_eq, Option.isNone_iff_eq_none, Option.isSome_iff_exists] at attempt
  obtain ⟨⟨⟨txQueue, pushed⟩, down⟩, late⟩ := attempt
  have not_early : ¬ (conn.state = .backoff ∧ now < conn.nextRetryMs) := by
    rintro ⟨waiting, early⟩
    simp [tooEarly, waiting, early] at late
  refine ⟨txQueue, pushed, not_early, ?_⟩
  rw [sendEnqueue, pushed]
  exact if_pos down

/-- A call that waits has put its message into the queue. -/
theorem sendEnqueue_of_refused {conn : Conn β} {item : β} {now : Nat}
    (waits : conn.refused item now = true) (localNode : Option CStr) (outcome : ConnectOutcome) :
    (conn.sendEnqueue item localNode now outcome).2 = .ok ∧
      (conn.sendEnqueue item localNode now outcome).1.txQueue.contents =
        conn.txQueue.contents ++ [item] := by
  rw [refused, asks, Bool.and_eq_true, Bool.and_eq_true, Bool.or_eq_true, decide_eq_true_eq,
    Option.isNone_iff_eq_none, Option.isSome_iff_exists, tooEarly, Bool.and_eq_true,
    decide_eq_true_eq, decide_eq_true_eq] at waits
  obtain ⟨⟨⟨txQueue, pushed⟩, down⟩, early⟩ := waits
  rw [sendEnqueue, pushed]
  dsimp only
  rw [if_pos down, tryConnect, if_pos early]
  exact ⟨rfl, Ring.contents_push? pushed⟩

theorem setupShm_sameRetry (conn : Conn β) (localNode : Option CStr) (created : Bool) :
    SameRetry conn (conn.setupShm localNode created) := by
  unfold setupShm
  split
  · split <;> exact ⟨rfl, rfl, rfl, .inl rfl⟩
  · exact .rfl

/-- A round of `nos_ipc_process_tx` may find that the link is lost. -/
theorem txNext_sameRetry {before after : Conn β} (connected : before.state = .connected)
    {wire : Wire} {written : Bool} {sent : SendResult} {effect : TxEffect β}
    (round : before.txNext wire written sent = some (after, effect)) :
    SameRetry before after ∧ (effect ≠ .broken → after.state = .connected) := by
  unfold txNext at round
  split at round
  · cases round
  · dsimp only at round
    split at round
    · obtain ⟨rfl, rfl⟩ := Prod.mk.inj (Option.some.inj round)
      exact ⟨⟨rfl, rfl, rfl, .inl rfl⟩, fun _ => connected⟩
    · split at round
      · obtain ⟨rfl, rfl⟩ := Prod.mk.inj (Option.some.inj round)
        exact ⟨⟨rfl, rfl, rfl, .inl rfl⟩, fun _ => connected⟩
      · obtain ⟨rfl, rfl⟩ := Prod.mk.inj (Option.some.inj round)
        exact ⟨.rfl, fun _ => connected⟩
      · obtain ⟨rfl, rfl⟩ := Prod.mk.inj (Option.some.inj round)
        exact ⟨⟨rfl, rfl, rfl, .inr ⟨connected, rfl⟩⟩, fun works => absurd rfl works⟩

end Conn

namespace Tracked

open Conn

theorem txRounds_sameRetry {link : Tracked β} (connected : link.conn.state = .connected)
    (answers : Nat → TxAnswer) (fuel : Nat) :
    SameRetry link.conn (txRounds answers fuel link).conn := by
  induction fuel generalizing link with
  | zero => exact .rfl
  | succ fuel ih =>
      simp only [txRounds]
      split
      · exact .rfl
      · rename_i conn item round
        obtain ⟨same, up⟩ := txNext_sameRetry connected round
        have connected' : (link.become conn).conn.state = .connected := up (by simp)
        exact same.trans (ih connected')
      · rename_i conn item round
        obtain ⟨same, up⟩ := txNext_sameRetry connected round
        have connected' : (link.become conn).conn.state = .connected := up (by simp)
        exact same.trans (ih connected')
      · rename_i conn round
        exact (txNext_sameRetry connected round).1
      · rename_i conn round
        exact (txNext_sameRetry connected round).1

theorem processTx_sameRetry (link : Tracked β) (answers : Nat → TxAnswer) :
    SameRetry link.conn (link.processTx answers).conn := by
  unfold processTx
  split
  · exact .rfl
  · rename_i up
    push Not at up
    exact txRounds_sameRetry up.1 answers _

/-- The transmission after `nos_ipc_send_enqueue` has put the message into the queue. -/
theorem sendEnqueue_sameRetry (link : Tracked β) (item : β) (localNode : Option CStr)
    (now : Nat) (outcome : ConnectOutcome) (answers : Nat → TxAnswer) :
    SameRetry (link.conn.sendEnqueue item localNode now outcome).1
      (link.sendEnqueue item localNode now outcome answers).conn := by
  unfold sendEnqueue
  dsimp only
  split
  · exact (link.become _).processTx_sameRetry answers
  · exact .rfl

theorem sendReply_sameRetry (link : Tracked β) (generation : UInt32) (item : β)
    (answers : Nat → TxAnswer) :
    SameRetry link.conn (link.sendReply generation item answers).conn := by
  have queued : SameRetry link.conn (link.conn.sendReply generation item).1 := by
    unfold Conn.sendReply
    split
    · exact .rfl
    · split <;> exact ⟨rfl, rfl, rfl, .inl rfl⟩
  unfold sendReply
  dsimp only
  split
  · exact queued.trans ((link.become _).processTx_sameRetry answers)
  · exact queued

theorem eventHandler_sameRetry (link : Tracked β) (answers : Nat → TxAnswer)
    (received : Received) :
    SameRetry link.conn (link.eventHandler answers received).conn := by
  have sent := link.processTx_sameRetry answers
  unfold eventHandler
  dsimp only
  split
  · exact sent
  · rename_i up
    push Not at up
    cases received with
    | nothing => exact sent
    | closed => exact sent.trans ⟨rfl, rfl, rfl, .inr ⟨up.1, rfl⟩⟩
    | badMagic => exact sent.trans ⟨rfl, rfl, rfl, .inr ⟨up.1, rfl⟩⟩
    | packet => exact sent
    | setup peerNode shmName opened => exact sent.trans ⟨rfl, rfl, rfl, .inl rfl⟩

end Tracked

/-! ## Runs -/

/-- The time to wait after a failed attempt, for the number of failures in a row before it. -/
def backoffMs (earlier : Nat) : Nat := min (retryInitialMs * 2 ^ earlier) retryMaxMs

/-- A connection with the times of its attempts. -/
structure RetryRun (β : Type*) where
  /-- Connection. -/
  link : Tracked β
  /-- The last reading of the clock. -/
  clock : Nat
  /-- The times recorded by the failed attempts since the last success, latest first. -/
  failures : List Nat
  /-- For each failed attempt so far, the time before which there must be no other. -/
  deadlines : List Nat

/-- A call on a connection. -/
inductive RetryOp (β : Type*)
  /-- `nos_ipc_send_enqueue`. -/
  | enqueue (item : β) (localNode : Option CStr) (now : Nat) (outcome : ConnectOutcome)
      (answers : Nat → TxAnswer)
  /-- `nos_ipc_send_reply`. -/
  | reply (generation : UInt32) (item : β) (answers : Nat → TxAnswer)
  /-- `nos_ipc_event_handler`. -/
  | event (answers : Nat → TxAnswer) (received : Received)

namespace RetryRun

/-- Record an attempt. -/
def record (run : RetryRun β) (now : Nat) : ConnectOutcome → RetryRun β
  | .failed clock =>
      { run with
        clock := clock
        failures := clock :: run.failures
        deadlines := (clock + backoffMs run.failures.length) :: run.deadlines }
  | .connected _ _ => { run with clock := now, failures := [] }

/-- Perform a call; the clock does not go backwards. -/
def step (run : RetryRun β) : RetryOp β → Option (RetryRun β)
  | .enqueue item localNode now outcome answers =>
      if now < run.clock then none
      else
        let link := run.link.sendEnqueue item localNode now outcome answers
        if run.link.conn.attempts item now then
          match outcome with
          | .failed clock =>
              if clock < now then none else some { run.record now outcome with link := link }
          | .connected _ _ => some { run.record now outcome with link := link }
        else some { run with link := link, clock := now }
  | .reply generation item answers =>
      some { run with link := run.link.sendReply generation item answers }
  | .event answers received => some { run with link := run.link.eventHandler answers received }

/-- A connection of `get_or_create_conn` before its first message. -/
def start (ring : Ring β txQueueSize) (nodeName : Option CStr) (udsPath : CStr)
    (clock : Nat) : RetryRun β where
  link := ⟨.outgoing ring nodeName udsPath, []⟩
  clock := clock
  failures := []
  deadlines := []

/-- What the backoff promises of a call of `nos_ipc_send_enqueue`. -/
structure BacksOff (run : RetryRun β) (item : β) (localNode : Option CStr) (now : Nat)
    (outcome : ConnectOutcome) (answers : Nat → TxAnswer) : Prop where
  not_before : run.link.conn.attempts item now = true →
    ∀ deadline ∈ run.deadlines, deadline ≤ now
  then_first : ∀ recorded earlier, run.failures = recorded :: earlier →
    recorded + backoffMs earlier.length ≤ now → run.link.conn.attempts item now = true
  counts : run.link.conn.connectFailCount = run.failures.length
  resets : run.link.conn.attempts item now = true →
    ∀ fd created, outcome = .connected fd created →
      (run.link.sendEnqueue item localNode now outcome answers).conn.connectFailCount = 0
  queues : run.link.conn.refused item now = true →
    (run.link.conn.sendEnqueue item localNode now outcome).2 = .ok ∧
      (run.link.conn.sendEnqueue item localNode now outcome).1.txQueue.contents =
        run.link.conn.txQueue.contents ++ [item]

/-- The promise for each call. -/
def Obeys (run : RetryRun β) : RetryOp β → Prop
  | .enqueue item localNode now outcome answers => run.BacksOff item localNode now outcome answers
  | _ => True

/-- A call after the time of the backoff finds room in the queue. -/
def FindsRoom (run : RetryRun β) : RetryOp β → Prop
  | .enqueue _ _ now _ _ => ∀ recorded earlier, run.failures = recorded :: earlier →
      recorded + backoffMs earlier.length ≤ now → run.link.conn.queueLen + 1 < txQueueSize
  | _ => True

/-! ## The invariant -/

/-- The numbers of the backoff are those of the failures. -/
structure Timed (run : RetryRun β) : Prop where
  count : run.link.conn.connectFailCount = run.failures.length
  delay : run.link.conn.retryDelayMs = backoffMs run.failures.length
  idle : run.failures = [] → run.link.conn.state ≠ .backoff
  waiting : ∀ recorded earlier, run.failures = recorded :: earlier →
    run.link.conn.state = .backoff ∧
      run.link.conn.nextRetryMs = recorded + backoffMs earlier.length
  past : ∀ deadline ∈ run.deadlines, deadline ≤ run.clock ∨
    run.link.conn.state = .backoff ∧ deadline ≤ run.link.conn.nextRetryMs

theorem start_timed (ring : Ring β txQueueSize) (nodeName : Option CStr) (udsPath : CStr)
    (clock : Nat) : (start ring nodeName udsPath clock).Timed where
  count := rfl
  delay := rfl
  idle := fun _ => by simp [start, Conn.outgoing]
  waiting := fun _ _ none_failed => by cases none_failed
  past := fun _ member => by cases member

theorem backoffMs_succ (earlier : Nat) :
    backoffMs (earlier + 1) =
      if retryMaxMs / 2 ≤ backoffMs earlier then retryMaxMs else backoffMs earlier * 2 := by
  unfold backoffMs retryInitialMs retryMaxMs
  rw [pow_succ]
  split <;> omega

theorem backoffMs_ne_zero (earlier : Nat) : backoffMs earlier ≠ 0 := by
  have positive : 0 < 2 ^ earlier := Nat.two_pow_pos earlier
  unfold backoffMs retryInitialMs retryMaxMs
  omega

theorem Timed.of_sameRetry {run : RetryRun β} (timed : run.Timed) {link : Tracked β} {clock : Nat}
    (same : run.link.conn.SameRetry link.conn) (later : run.clock ≤ clock) :
    ({ run with link := link, clock := clock } : RetryRun β).Timed where
  count := same.count.trans timed.count
  delay := same.delay.trans timed.delay
  idle := by
    intro none_failed
    rcases same.state with kept | ⟨-, lost⟩
    · rw [kept]
      exact timed.idle none_failed
    · rw [lost]
      simp
  waiting := by
    intro recorded earlier failed
    obtain ⟨backoff, next⟩ := timed.waiting recorded earlier failed
    exact ⟨same.backoff backoff, same.next.trans next⟩
  past := by
    intro deadline member
    rcases timed.past deadline member with elapsed | ⟨backoff, before⟩
    · exact .inl (elapsed.trans later)
    · exact .inr ⟨same.backoff backoff, before.trans_eq same.next.symm⟩

theorem Timed.not_before {run : RetryRun β} (timed : run.Timed) {item : β} {now : Nat}
    (later : run.clock ≤ now) (attempt : run.link.conn.attempts item now = true) :
    ∀ deadline ∈ run.deadlines, deadline ≤ now := by
  intro deadline member
  obtain ⟨-, -, late, -⟩ := Conn.sendEnqueue_of_attempts attempt none (.failed now)
  rcases timed.past deadline member with elapsed | ⟨backoff, before⟩
  · exact elapsed.trans later
  · exact before.trans (not_lt.mp fun early => late ⟨backoff, early⟩)

/-- A call after the time of the last failure attempts to connect if there is room. -/
theorem Timed.attempts_iff {run : RetryRun β} (timed : run.Timed) {item : β} {now recorded : Nat}
    {earlier : List Nat} (failed : run.failures = recorded :: earlier)
    (elapsed : recorded + backoffMs earlier.length ≤ now) :
    run.link.conn.attempts item now = true ↔ run.link.conn.queueLen + 1 < txQueueSize := by
  obtain ⟨backoff, next⟩ := timed.waiting recorded earlier failed
  have down : run.link.conn.state ≠ .connected := by
    rw [backoff]
    simp
  have late : run.link.conn.tooEarly now = false := by
    rw [Conn.tooEarly, next, Bool.and_eq_false_iff]
    exact .inr (decide_eq_false (not_lt.mpr elapsed))
  have room : (run.link.conn.txQueue.push? item).isSome = true ↔
      run.link.conn.queueLen + 1 < txQueueSize := by
    have bound := run.link.conn.txQueue.length_lt
    rw [← Option.ne_none_iff_isSome, Ne, Ring.push?_eq_none_iff, Ring.length_contents,
      Conn.queueLen]
    omega
  rw [← room, Conn.attempts, Conn.asks, late, decide_eq_true down]
  simp

/-- After a failed attempt the connection waits for the next time in the row. -/
theorem Timed.failed {run : RetryRun β} (timed : run.Timed) {item : β} {now clock : Nat}
    (later : run.clock ≤ now) (ends : now ≤ clock)
    (attempt : run.link.conn.attempts item now = true) (localNode : Option CStr)
    (answers : Nat → TxAnswer) :
    ({ run.record now (.failed clock) with
        link := run.link.sendEnqueue item localNode now (.failed clock) answers } :
      RetryRun β).Timed := by
  have before := timed.not_before later attempt
  have same := run.link.sendEnqueue_sameRetry item localNode now (.failed clock) answers
  obtain ⟨txQueue, -, late, sent⟩ :=
    Conn.sendEnqueue_of_attempts attempt localNode (.failed clock)
  rw [sent, Conn.tryConnect, if_neg late] at same
  have waited : run.link.conn.retryDelayMs ≠ 0 := by
    rw [timed.delay]
    exact backoffMs_ne_zero _
  simp only [Conn.markConnectFailed, if_pos waited] at same
  have waiting : (run.link.sendEnqueue item localNode now (.failed clock) answers).conn.state =
      .backoff := same.backoff rfl
  have next : (run.link.sendEnqueue item localNode now (.failed clock) answers).conn.nextRetryMs =
      clock + backoffMs run.failures.length := by
    rw [same.next, timed.delay]
  constructor
  · rw [same.count, timed.count]
    rfl
  · rw [same.delay, timed.delay]
    exact (backoffMs_succ run.failures.length).symm
  · intro none_failed
    cases none_failed
  · intro recorded earlier failed
    obtain ⟨rfl, rfl⟩ := List.cons.inj failed
    exact ⟨waiting, next⟩
  · intro deadline member
    rcases List.mem_cons.mp member with rfl | old
    · exact .inr ⟨waiting, next.ge⟩
    · exact .inl ((before deadline old).trans ends)

theorem Timed.connected {run : RetryRun β} (timed : run.Timed) {item : β} {now fd : Nat}
    {created : Bool} (later : run.clock ≤ now)
    (attempt : run.link.conn.attempts item now = true) (localNode : Option CStr)
    (answers : Nat → TxAnswer) :
    ({ run.record now (.connected fd created) with
        link := run.link.sendEnqueue item localNode now (.connected fd created) answers } :
      RetryRun β).Timed := by
  have before := timed.not_before later attempt
  have same := run.link.sendEnqueue_sameRetry item localNode now (.connected fd created) answers
  obtain ⟨txQueue, -, late, sent⟩ :=
    Conn.sendEnqueue_of_attempts attempt localNode (.connected fd created)
  rw [sent, Conn.tryConnect, if_neg late] at same
  have fresh := (Conn.setupShm_sameRetry _ localNode created).trans same
  constructor
  · exact fresh.count
  · exact fresh.delay
  · intro _
    rcases fresh.state with kept | ⟨-, lost⟩
    · rw [kept]
      simp
    · rw [lost]
      simp
  · intro recorded earlier failed
    cases failed
  · exact fun deadline member => .inl (before deadline member)

theorem Timed.step {run after : RetryRun β} {op : RetryOp β} (timed : run.Timed)
    (stepped : run.step op = some after) : after.Timed := by
  cases op with
  | enqueue item localNode now outcome answers =>
      simp only [RetryRun.step] at stepped
      split at stepped
      · cases stepped
      · rename_i later
        rw [not_lt] at later
        split at stepped
        · rename_i attempt
          cases outcome with
          | failed clock =>
              dsimp only at stepped
              split at stepped
              · cases stepped
              · rename_i ends
                obtain rfl := Option.some.inj stepped
                exact timed.failed later (not_lt.mp ends) attempt localNode answers
          | connected fd created =>
              obtain rfl := Option.some.inj stepped
              exact timed.connected later attempt localNode answers
        · rename_i idle
          obtain rfl := Option.some.inj stepped
          have queued := Conn.sendEnqueue_of_not_attempts (Bool.eq_false_of_not_eq_true idle)
            localNode outcome
          exact timed.of_sameRetry
            (queued.trans (run.link.sendEnqueue_sameRetry item localNode now outcome answers)) later
  | reply generation item answers =>
      obtain rfl := Option.some.inj stepped
      exact timed.of_sameRetry (run.link.sendReply_sameRetry generation item answers) le_rfl
  | event answers received =>
      obtain rfl := Option.some.inj stepped
      exact timed.of_sameRetry (run.link.eventHandler_sameRetry answers received) le_rfl

/-- A call obeys the backoff exactly if it finds room when the time has come. -/
theorem Timed.obeys_iff {run after : RetryRun β} {op : RetryOp β} (timed : run.Timed)
    (stepped : run.step op = some after) : run.Obeys op ↔ run.FindsRoom op := by
  cases op with
  | enqueue item localNode now outcome answers =>
      have later : run.clock ≤ now := by
        by_contra early
        simp [RetryRun.step, not_le.mp early] at stepped
      constructor
      · intro obeys recorded earlier failed elapsed
        have attempt := obeys.then_first recorded earlier failed elapsed
        exact (timed.attempts_iff failed elapsed).mp attempt
      · intro room
        refine ⟨timed.not_before later, ?_, timed.count, ?_, ?_⟩
        · intro recorded earlier failed elapsed
          exact (timed.attempts_iff failed elapsed).mpr (room recorded earlier failed elapsed)
        · rintro attempt fd created rfl
          exact (timed.connected later attempt localNode answers).count
        · exact fun waits => Conn.sendEnqueue_of_refused waits localNode outcome
  | reply generation item answers => exact Iff.rfl
  | event answers received => exact Iff.rfl

/-- A run obeys the backoff exactly if each call after the time of a failed attempt finds room in
the queue. -/
theorem run_obeys_iff {ring : Ring β txQueueSize} {nodeName : Option CStr} {udsPath : CStr}
    {clock : Nat} {ops : List (RetryOp β)} {last : RetryRun β}
    (ran : Transition.run step (start ring nodeName udsPath clock) ops = some last) :
    Guarded step Obeys (start ring nodeName udsPath clock) ops ↔
      Guarded step FindsRoom (start ring nodeName udsPath clock) ops :=
  guarded_iff_of_invariant (fun _ _ _ timed stepped => timed.step stepped)
    (fun _ _ _ timed stepped => timed.obeys_iff stepped)
    (start_timed ring nodeName udsPath clock) ran

/-! ## A full queue -/

/-- The connection waits for its next attempt. -/
structure Waits (run : RetryRun β) (deadline : Nat) : Prop where
  state : run.link.conn.state = .backoff
  next : run.link.conn.nextRetryMs = deadline

theorem Waits.fill {run : RetryRun β} {deadline now : Nat} (waits : run.Waits deadline)
    (early : now < deadline) (later : run.clock ≤ now) (item : β) (answers : Nat → TxAnswer)
    (count : Nat) (room : run.link.conn.queueLen + count < txQueueSize) :
    ∃ last, Transition.run step run
        (List.replicate count (.enqueue item none now (.failed now) answers)) = some last ∧
      last.Waits deadline ∧ last.clock ≤ max run.clock now ∧ last.failures = run.failures ∧
      last.link.conn.queueLen = run.link.conn.queueLen + count := by
  induction count generalizing run with
  | zero => exact ⟨run, rfl, waits, le_max_left _ _, rfl, rfl⟩
  | succ count ih =>
      have tooEarly : run.link.conn.tooEarly now = true := by
        simp [Conn.tooEarly, waits.state, waits.next, early]
      have asks : run.link.conn.asks item = true := by
        have some_room : run.link.conn.txQueue.push? item ≠ none := by
          rw [Ne, Ring.push?_eq_none_iff, Ring.length_contents]
          rw [Conn.queueLen] at room
          omega
        simp [Conn.asks, waits.state, Option.isSome_iff_ne_none.mpr some_room]
      have idle : run.link.conn.attempts item now = false := by
        simp [Conn.attempts, tooEarly]
      have refused : run.link.conn.refused item now = true := by
        simp [Conn.refused, asks, tooEarly]
      have same := Conn.sendEnqueue_of_not_attempts idle none (.failed now)
      have kept := same.backoff waits.state
      have queued := congrArg List.length (Conn.sendEnqueue_of_refused refused none (.failed now)).2
      have sent : run.link.sendEnqueue item none now (.failed now) answers =
          run.link.become (run.link.conn.sendEnqueue item none now (.failed now)).1 := by
        rw [Tracked.sendEnqueue]
        exact if_neg fun up => by simp [kept] at up
      let next : RetryRun β :=
        { run with
          link := run.link.become (run.link.conn.sendEnqueue item none now (.failed now)).1
          clock := now }
      have stepped : run.step (.enqueue item none now (.failed now) answers) = some next := by
        simp only [RetryRun.step]
        rw [if_neg (not_lt.mpr later), idle, sent]
        rfl
      have length : next.link.conn.queueLen = run.link.conn.queueLen + 1 := by
        rw [List.length_append, Ring.length_contents, Ring.length_contents] at queued
        exact queued
      obtain ⟨last, ran, waits', clock, failures, filled⟩ :=
        @ih next ⟨kept, same.next.trans waits.next⟩ le_rfl (by omega)
      refine ⟨last, ?_, waits', ?_, failures, ?_⟩
      · rw [List.replicate_succ, Transition.run_cons, stepped]
        exact ran
      · exact clock.trans (by simp [next])
      · rw [filled, length]
        omega

/-- A connection that is in the backoff with a full queue. -/
structure Stuck (run : RetryRun β) : Prop where
  state : run.link.conn.state = .backoff
  full : run.link.conn.queueLen + 1 = txQueueSize

theorem Stuck.push?_eq_none {run : RetryRun β} (stuck : run.Stuck) (item : β) :
    run.link.conn.txQueue.push? item = none := by
  have full := stuck.full
  rw [Conn.queueLen] at full
  rw [Ring.push?_eq_none_iff, Ring.length_contents]
  omega

theorem Stuck.not_attempts {run : RetryRun β} (stuck : run.Stuck) (item : β) (now : Nat) :
    run.link.conn.attempts item now = false := by
  simp [Conn.attempts, Conn.asks, stuck.push?_eq_none item]

/-! ## Two connections -/

/-- No message is transmitted. -/
def silent : Nat → TxAnswer := fun _ => ⟨⟨false, 32⟩, false, .again⟩

/-- A connection to another node before its first message. -/
def unconnected : RetryRun Nat :=
  start (ConnRun.emptyQueue 0) (some (.ofText "B")) (.ofText "/tmp/nos_proc_B.sock") 0

/-- A message after the first failure makes the connection. -/
theorem second_attempt_obeys :
    Guarded step Obeys unconnected
      [.enqueue 1 none 0 (.failed 0) silent, .enqueue 2 none 100 (.connected 7 false) silent] := by
  have ran : ∃ last, Transition.run step unconnected
      [.enqueue 1 none 0 (.failed 0) silent, .enqueue 2 none 100 (.connected 7 false) silent] =
        some last := ⟨_, rfl⟩
  obtain ⟨last, ran⟩ := ran
  refine (run_obeys_iff ran).mpr ⟨?_, ?_⟩
  · intro recorded earlier failed
    cases failed
  · intro next stepped
    obtain rfl := Option.some.inj stepped
    exact ⟨fun _ _ _ _ => by decide, fun _ _ => trivial⟩

/-- A call that finds the queue full when its time has come makes no attempt. -/
theorem full_queue_not_attempted :
    ∃ (ops : List (RetryOp Nat)) (last : RetryRun Nat),
      Transition.run step unconnected ops = some last ∧ ¬ Guarded step Obeys unconnected ops := by
  obtain ⟨failed, stepped, waits, clock, failures, empty⟩ : ∃ failed : RetryRun Nat,
      step unconnected (.enqueue 0 none 0 (.failed 0) silent) = some failed ∧
        failed.Waits 100 ∧ failed.clock = 0 ∧ failed.failures = [0] ∧
        failed.link.conn.queueLen = 1 := ⟨_, rfl, ⟨rfl, rfl⟩, rfl, rfl, rfl⟩
  obtain ⟨full, ran, waits', clock', failures', filled⟩ :=
    waits.fill (by decide : 1 < 100) (by omega) 0 silent 1022 (by rw [empty]; decide)
  have stuck : full.Stuck := ⟨waits'.state, by rw [filled, empty]; rfl⟩
  have late : ¬ 100 < full.clock := by
    rw [clock] at clock'
    have small : max 0 1 = 1 := rfl
    omega
  obtain ⟨last, ended⟩ : ∃ last,
      step full (.enqueue 0 none 100 (.failed 100) silent) = some last := by
    simp only [step, if_neg late, stuck.not_attempts 0 100]
    exact ⟨_, rfl⟩
  refine ⟨.enqueue 0 none 0 (.failed 0) silent ::
    (List.replicate 1022 (.enqueue 0 none 1 (.failed 1) silent) ++
      [.enqueue 0 none 100 (.failed 100) silent]), last, ?_, ?_⟩
  · rw [Transition.run_cons, stepped, Option.bind_some, Transition.run_append ran,
      Transition.run_cons, ended]
    rfl
  · intro guarded
    have obeys := ((guarded.2 failed stepped).of_append ran).1
    have attempt := obeys.then_first 0 [] (failures'.trans failures) (by decide)
    rw [stuck.not_attempts 0 100] at attempt
    cases attempt

end RetryRun

end CodexNos.Ipc
