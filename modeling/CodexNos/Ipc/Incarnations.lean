import CodexNos.Ipc.ConnPool
import CodexNos.Ipc.TxOrder

/-!
# The incarnations of a connection

The calls on the connection pool, each one atomic.  A connection keeps a record of its link: one
entry whenever it comes up or goes down, with the generation after the change.  The five fields
that describe the link agree between calls, and every change moves the connection to the next
generation, so the generations of different incarnations differ until the counter has wrapped.
-/

namespace CodexNos.Ipc

open Lib Lib.Transition

variable {β : Type*}

/-! ## Calls on one connection -/

/-- A change of the link. -/
structure LinkChange where
  /-- The link came up. -/
  up : Bool
  /-- The generation after the change. -/
  generation : UInt32
  deriving DecidableEq, Repr

/-- A connection with the record of its link. -/
structure Tracked (β : Type*) where
  /-- The connection. -/
  conn : Conn β
  /-- The changes of the link since the creation, oldest first. -/
  changes : List LinkChange

/-- What a round of `nos_ipc_process_tx` finds: the head of the queue, whether the shared memory
takes it, and the answer of `send`. -/
structure TxAnswer where
  /-- What the transmission reads of the item. -/
  wire : Wire
  /-- `nos_shm_channel_write` returns `NOS_OK`. -/
  written : Bool
  /-- The answer of `send`. -/
  sent : SendResult
  deriving DecidableEq, Repr

/-- What `nos_ipc_recv_handler` finds. -/
inductive Received
  /-- Nothing to read. -/
  | nothing
  /-- The link is closed or broken. -/
  | closed
  /-- A packet that does not start with the magic number. -/
  | badMagic
  /-- A packet that is too large, of the wrong length or without a buffer, a control message of
  another kind, or data; messages that the data makes the node send are calls of their own. -/
  | packet
  /-- A `SETUP` message; whether the channel can be opened. -/
  | setup (peerNode shmName : CStr) (opened : Bool)
  deriving DecidableEq, Repr

/-- What happens to the link between two states of the connection. -/
def linkChange (before after : Conn β) : List LinkChange :=
  if before.state = .connected ↔ after.state = .connected then []
  else [⟨after.state = .connected, after.generation⟩]

namespace Tracked

/-- The connection gets into another state. -/
def become (link : Tracked β) (after : Conn β) : Tracked β where
  conn := after
  changes := link.changes ++ linkChange link.conn after

/-- The loop of `nos_ipc_process_tx`.  Each round that goes on takes an item from the queue, so the
number of queued items tells the rounds apart. -/
def txRounds (answers : Nat → TxAnswer) : Nat → Tracked β → Tracked β
  | 0, link => link
  | fuel + 1, link =>
      let answer := answers link.conn.queueLen
      match link.conn.txNext answer.wire answer.written answer.sent with
      | none => link
      | some (conn, .shm _) => txRounds answers fuel (link.become conn)
      | some (conn, .socket _) => txRounds answers fuel (link.become conn)
      | some (conn, .blocked) => link.become conn
      | some (conn, .broken) => link.become conn

/-- `nos_ipc_process_tx`. -/
def processTx (link : Tracked β) (answers : Nat → TxAnswer) : Tracked β :=
  if link.conn.state ≠ .connected ∨ link.conn.fd = none then link
  else txRounds answers (link.conn.queueLen + 1) link

/-- `nos_ipc_send_enqueue` once it has its connection. -/
def sendEnqueue (link : Tracked β) (item : β) (localNode : Option CStr) (now : Nat)
    (outcome : ConnectOutcome) (answers : Nat → TxAnswer) : Tracked β :=
  let result := link.conn.sendEnqueue item localNode now outcome
  let queued := link.become result.1
  if result.2 = .ok ∧ result.1.state = .connected then queued.processTx answers else queued

/-- `nos_ipc_send_reply`. -/
def sendReply (link : Tracked β) (generation : UInt32) (item : β) (answers : Nat → TxAnswer) :
    Tracked β :=
  let result := link.conn.sendReply generation item
  let queued := link.become result.1
  if result.2 = .ok then queued.processTx answers else queued

/-- `nos_ipc_recv_handler`. -/
def recvHandler (link : Tracked β) : Received → Tracked β
  | .nothing => link
  | .closed => link.become link.conn.markDisconnected
  | .badMagic => link.become link.conn.markDisconnected
  | .packet => link
  | .setup peerNode shmName opened => link.become (link.conn.handleSetup peerNode shmName opened)

/-- `nos_ipc_event_handler`. -/
def eventHandler (link : Tracked β) (answers : Nat → TxAnswer) (received : Received) :
    Tracked β :=
  let sent := link.processTx answers
  if sent.conn.state ≠ .connected ∨ sent.conn.fd = none then sent else sent.recvHandler received

end Tracked

/-! ## Calls on the pool -/

/-- The pool with the records of its connections. -/
structure LinkTable (β : Type*) where
  /-- The pool. -/
  pool : ConnPool β
  /-- The changes of the link of each connection. -/
  changes : Nat → List LinkChange

/-- A call on the pool. -/
inductive PoolCall (β : Type*)
  /-- A connection is accepted. -/
  | accept (fd : Nat)
  /-- `nos_ipc_send_enqueue`. -/
  | send (nodeName : Option CStr) (udsPath : CStr) (item : β) (localNode : Option CStr)
      (now : Nat) (outcome : ConnectOutcome) (answers : Nat → TxAnswer)
  /-- `nos_ipc_send_reply` on a connection. -/
  | reply (index : Nat) (generation : UInt32) (item : β) (answers : Nat → TxAnswer)
  /-- `nos_ipc_event_handler` on a connection. -/
  | event (index : Nat) (answers : Nat → TxAnswer) (received : Received)

namespace LinkTable

/-- A connection of the pool with its record. -/
def link? (table : LinkTable β) (index : Nat) : Option (Tracked β) :=
  table.pool.conns[index]?.map fun conn => ⟨conn, table.changes index⟩

/-- A call on one connection. -/
def on (table : LinkTable β) (index : Nat) (call : Tracked β → Tracked β) :
    Option (LinkTable β) :=
  (table.link? index).map fun link =>
    { pool := ⟨table.pool.conns.set index (call link).conn⟩
      changes := Function.update table.changes index (call link).changes }

/-- Perform one call; a new connection has an empty queue. -/
def step (ring : Ring β txQueueSize) (table : LinkTable β) : PoolCall β → Option (LinkTable β)
  | .accept fd => some { table with pool := (table.pool.createPassive ring fd).1 }
  | .send nodeName udsPath item localNode now outcome answers =>
      match table.pool.getOrCreate ring nodeName udsPath with
      | (pool, none) => some { table with pool := pool }
      | (pool, some index) =>
          { table with pool := pool }.on index fun link =>
            link.sendEnqueue item localNode now outcome answers
  | .reply index generation item answers =>
      table.on index fun link => link.sendReply generation item answers
  | .event index answers received =>
      table.on index fun link => link.eventHandler answers received

/-- No connection has been created. -/
def fresh : LinkTable β := ⟨⟨[]⟩, fun _ => []⟩

end LinkTable

/-! ## The fields of a connection agree -/

namespace Conn

/-- The fields that describe the link say the same. -/
structure Agrees (conn : Conn β) : Prop where
  /-- A connected connection, and no other, has a descriptor. -/
  fd : conn.state = .connected ↔ conn.fd ≠ none
  /-- A connected connection, and no other, has its flag set. -/
  flag : conn.state = .connected ↔ conn.isConnected = true
  /-- Only a connected connection has a channel. -/
  shm : conn.shm = true → conn.state = .connected
  /-- No connection is on its way. -/
  settled : conn.state ≠ .connecting
  /-- The delay is at least the first one. -/
  delay_ge : retryInitialMs ≤ conn.retryDelayMs
  /-- The delay is at most the largest one. -/
  delay_le : conn.retryDelayMs ≤ retryMaxMs

theorem retryInitialMs_le : retryInitialMs ≤ retryMaxMs := by decide

theorem agrees_outgoing (ring : Ring β txQueueSize) (nodeName : Option CStr)
    (udsPath : CStr) : (outgoing ring nodeName udsPath).Agrees where
  fd := by simp [outgoing]
  flag := by simp [outgoing]
  shm := by simp [outgoing]
  settled := by simp [outgoing]
  delay_ge := le_refl retryInitialMs
  delay_le := retryInitialMs_le

theorem agrees_passive (ring : Ring β txQueueSize) (fd : Nat) : (passive ring fd).Agrees where
  fd := by simp [passive]
  flag := by simp [passive]
  shm := by simp [passive]
  settled := by simp [passive]
  delay_ge := le_refl retryInitialMs
  delay_le := retryInitialMs_le

/-- What a function does to a connection: the fields agree again, and the generation has moved on
if the link has changed. -/
structure Moves (before after : Conn β) : Prop where
  /-- The fields agree. -/
  agrees : after.Agrees
  /-- The generation counts the changes of the link. -/
  generation :
    after.generation = before.generation + UInt32.ofNat (linkChange before after).length

theorem Agrees.congr {before after : Conn β} (agrees : before.Agrees)
    (fd : after.fd = before.fd) (flag : after.isConnected = before.isConnected)
    (state : after.state = before.state) (shm : after.shm = before.shm)
    (delay : after.retryDelayMs = before.retryDelayMs) : after.Agrees where
  fd := by rw [fd, state]; exact agrees.fd
  flag := by rw [flag, state]; exact agrees.flag
  shm := by rw [shm, state]; exact agrees.shm
  settled := by rw [state]; exact agrees.settled
  delay_ge := by rw [delay]; exact agrees.delay_ge
  delay_le := by rw [delay]; exact agrees.delay_le

theorem Agrees.moves {before after : Conn β} (agrees : before.Agrees)
    (fd : after.fd = before.fd) (flag : after.isConnected = before.isConnected)
    (state : after.state = before.state) (shm : after.shm = before.shm)
    (delay : after.retryDelayMs = before.retryDelayMs)
    (generation : after.generation = before.generation) : Moves before after where
  agrees := agrees.congr fd flag state shm delay
  generation := by simp [linkChange, state, generation]

theorem Agrees.moves_of_change {before after : Conn β} (agrees : after.Agrees)
    (changes : ¬ (before.state = .connected ↔ after.state = .connected))
    (generation : after.generation = before.generation + 1) : Moves before after where
  agrees := agrees
  generation := by simp [linkChange, changes, generation]

theorem moves_markDisconnected {conn : Conn β} (agrees : conn.Agrees)
    (connected : conn.state = .connected) : Moves conn conn.markDisconnected := by
  refine Agrees.moves_of_change ?_ (by simp [markDisconnected, connected]) rfl
  exact ⟨by simp [markDisconnected], by simp [markDisconnected], by simp [markDisconnected],
    by simp [markDisconnected], agrees.delay_ge, agrees.delay_le⟩

theorem delay_markConnectFailed {conn : Conn β} (delay_ge : retryInitialMs ≤ conn.retryDelayMs)
    (clock : Nat) :
    retryInitialMs ≤ (conn.markConnectFailed clock).retryDelayMs ∧
      (conn.markConnectFailed clock).retryDelayMs ≤ retryMaxMs := by
  have nonzero : conn.retryDelayMs ≠ 0 := by
    unfold retryInitialMs at delay_ge
    omega
  simp only [markConnectFailed, if_pos nonzero]
  unfold retryInitialMs retryMaxMs at *
  split <;> omega

/-- A failed attempt leaves a connection without a link. -/
theorem moves_markConnectFailed {conn : Conn β} (agrees : conn.Agrees)
    (down : conn.state ≠ .connected) (clock : Nat) :
    Moves conn ({ conn with state := .connecting }.markConnectFailed clock) := by
  have closed : conn.fd = none := by
    by_contra opened
    exact down (agrees.fd.mpr opened)
  have detached : ¬ conn.shm = true := fun attached => down (agrees.shm attached)
  have delay := @delay_markConnectFailed _ { conn with state := .connecting } agrees.delay_ge clock
  constructor
  · exact ⟨by simp [markConnectFailed, closed], by simp [markConnectFailed],
      fun attached => absurd attached detached, by simp [markConnectFailed], delay.1, delay.2⟩
  · simp [linkChange, markConnectFailed, down]

theorem setupShm_state (conn : Conn β) (localNode : Option CStr) (created : Bool) :
    (conn.setupShm localNode created).state = conn.state := by
  unfold setupShm
  split
  · split <;> rfl
  · rfl

theorem setupShm_generation (conn : Conn β) (localNode : Option CStr) (created : Bool) :
    (conn.setupShm localNode created).generation = conn.generation := by
  unfold setupShm
  split
  · split <;> rfl
  · rfl

theorem agrees_setupShm {conn : Conn β} (agrees : conn.Agrees)
    (connected : conn.state = .connected) (localNode : Option CStr) (created : Bool) :
    (conn.setupShm localNode created).Agrees := by
  unfold setupShm
  split
  · split
    · exact ⟨agrees.fd, agrees.flag, fun _ => connected, agrees.settled, agrees.delay_ge,
        agrees.delay_le⟩
    · exact agrees
  · exact agrees

theorem moves_tryConnect {conn : Conn β} (agrees : conn.Agrees)
    (down : conn.state ≠ .connected) (localNode : Option CStr) (now : Nat)
    (outcome : ConnectOutcome) : Moves conn (conn.tryConnect localNode now outcome) := by
  unfold tryConnect
  split
  · exact agrees.moves rfl rfl rfl rfl rfl rfl
  · cases outcome with
    | failed clock => exact moves_markConnectFailed agrees down clock
    | connected fd created =>
        refine Agrees.moves_of_change (agrees_setupShm ?_ rfl localNode created) ?_ ?_
        · exact ⟨by simp, by simp, fun _ => rfl, by simp, le_refl retryInitialMs,
          retryInitialMs_le⟩
        · simp [setupShm_state, down]
        · rw [setupShm_generation]

theorem moves_sendEnqueue {conn : Conn β} (agrees : conn.Agrees) (item : β)
    (localNode : Option CStr) (now : Nat) (outcome : ConnectOutcome) :
    Moves conn (conn.sendEnqueue item localNode now outcome).1 := by
  unfold sendEnqueue
  split
  · exact agrees.moves rfl rfl rfl rfl rfl rfl
  · rename_i txQueue pushed
    have queued : ({ conn with txQueue := txQueue } : Conn β).Agrees :=
      agrees.congr rfl rfl rfl rfl rfl
    split
    · rename_i reconnect
      have down : conn.state ≠ .connected := by
        rcases reconnect with closed | down
        · exact fun connected => agrees.fd.mp connected closed
        · exact down
      have moved := moves_tryConnect queued down localNode now outcome
      exact ⟨moved.agrees, moved.generation⟩
    · exact agrees.moves rfl rfl rfl rfl rfl rfl

theorem moves_sendReply {conn : Conn β} (agrees : conn.Agrees) (generation : UInt32) (item : β) :
    Moves conn (conn.sendReply generation item).1 := by
  unfold sendReply
  split
  · exact agrees.moves rfl rfl rfl rfl rfl rfl
  · split
    · exact agrees.moves rfl rfl rfl rfl rfl rfl
    · exact agrees.moves rfl rfl rfl rfl rfl rfl

/-- A round of `nos_ipc_process_tx` keeps the link of a connected connection or breaks it. -/
theorem moves_txNext {before after : Conn β} (agrees : before.Agrees)
    (connected : before.state = .connected) {wire : Wire} {written : Bool} {sent : SendResult}
    {effect : TxEffect β} (round : before.txNext wire written sent = some (after, effect)) :
    Moves before after ∧ (effect ≠ .broken → after.state = .connected) := by
  unfold txNext at round
  split at round
  · cases round
  · dsimp only at round
    have advances {after : Conn β} (fd : after.fd = before.fd)
        (flag : after.isConnected = before.isConnected) (state : after.state = before.state)
        (shm : after.shm = before.shm) (delay : after.retryDelayMs = before.retryDelayMs)
        (generation : after.generation = before.generation) :
        Moves before after ∧ (effect ≠ .broken → after.state = .connected) :=
      ⟨agrees.moves fd flag state shm delay generation, fun _ => state.trans connected⟩
    split at round
    · obtain ⟨rfl, rfl⟩ := Prod.mk.inj (Option.some.inj round)
      exact advances rfl rfl rfl rfl rfl rfl
    · split at round
      · obtain ⟨rfl, rfl⟩ := Prod.mk.inj (Option.some.inj round)
        exact advances rfl rfl rfl rfl rfl rfl
      · obtain ⟨rfl, rfl⟩ := Prod.mk.inj (Option.some.inj round)
        exact advances rfl rfl rfl rfl rfl rfl
      · obtain ⟨rfl, rfl⟩ := Prod.mk.inj (Option.some.inj round)
        have counted : ({ before with txErrors := before.txErrors + 1 } : Conn β).Agrees :=
          agrees.congr rfl rfl rfl rfl rfl
        have moved := moves_markDisconnected counted connected
        exact ⟨⟨moved.agrees, moved.generation⟩, fun works => absurd rfl works⟩

theorem moves_handleSetup {conn : Conn β} (agrees : conn.Agrees)
    (connected : conn.state = .connected) (peerNode shmName : CStr) (opened : Bool) :
    Moves conn (conn.handleSetup peerNode shmName opened) where
  agrees := ⟨agrees.fd, agrees.flag, fun _ => connected, agrees.settled, agrees.delay_ge,
    agrees.delay_le⟩
  generation := by simp [linkChange, handleSetup]

end Conn

/-! ## The record of the link -/

namespace Tracked

/-- The generation at the creation and after each change of the link. -/
def generations (link : Tracked β) : List UInt32 := 1 :: link.changes.map LinkChange.generation

/-- The fields agree, and the record of the link tells its changes one by one. -/
structure Recorded (link : Tracked β) : Prop where
  /-- The fields that describe the link agree. -/
  agrees : link.conn.Agrees
  /-- Each change moved the connection to the next generation. -/
  numbered : link.generations =
    (List.range (link.changes.length + 1)).map fun number => 1 + UInt32.ofNat number
  /-- The connection is at the generation after the last change. -/
  current : link.conn.generation = 1 + UInt32.ofNat link.changes.length
  /-- The link is as the last change left it. -/
  latest : ∀ change, link.changes.getLast? = some change →
    (change.up = true ↔ link.conn.state = .connected)
  /-- The link came up and went down by turns. -/
  alternate : (link.changes.map LinkChange.up).IsChain (· ≠ ·)

theorem Recorded.become {link : Tracked β} (recorded : link.Recorded) {after : Conn β}
    (moved : link.conn.Moves after) : (link.become after).Recorded := by
  have generation := moved.generation
  by_cases same : link.conn.state = .connected ↔ after.state = .connected
  · have unchanged : linkChange link.conn after = [] := if_pos same
    have changes_eq : (link.become after).changes = link.changes := by
      simp [Tracked.become, unchanged]
    simp only [unchanged, List.length_nil] at generation
    refine ⟨moved.agrees, ?_, ?_, ?_, ?_⟩
    · simpa only [generations, changes_eq] using recorded.numbered
    · rw [changes_eq, ← recorded.current]
      simpa [Tracked.become] using generation
    · intro change last
      rw [changes_eq] at last
      exact (recorded.latest change last).trans same
    · simpa only [changes_eq] using recorded.alternate
  · have changed : linkChange link.conn after =
        [⟨after.state = .connected, after.generation⟩] := if_neg same
    have changes_eq : (link.become after).changes =
        link.changes ++ [⟨after.state = .connected, after.generation⟩] := by
      simp [Tracked.become, changed]
    have next : after.generation = 1 + UInt32.ofNat (link.changes.length + 1) := by
      rw [generation, changed, recorded.current, List.length_singleton, UInt32.ofNat_add,
        UInt32.add_assoc]
    refine ⟨moved.agrees, ?_, ?_, ?_, ?_⟩
    · have numbered := recorded.numbered
      simp only [generations] at numbered ⊢
      rw [changes_eq, List.map_append, ← List.cons_append, numbered, List.length_append,
        List.length_singleton, List.range_succ (n := link.changes.length + 1), List.map_append]
      simp [next]
    · rw [changes_eq, List.length_append, List.length_singleton]
      exact next
    · intro change last
      rw [changes_eq, List.getLast?_append] at last
      obtain rfl : _ = change := by simpa using last
      simp [Tracked.become]
    · rw [changes_eq, List.map_append, List.isChain_append]
      refine ⟨recorded.alternate, by simp, ?_⟩
      intro before last_before later first_later
      obtain ⟨change, last, rfl⟩ : ∃ change, link.changes.getLast? = some change ∧
          change.up = before := by
        simpa [List.getLast?_map] using last_before
      obtain rfl : decide (after.state = .connected) = later := by simpa using first_later
      have latest := recorded.latest change last
      intro equal
      apply same
      rw [← latest, equal, decide_eq_true_iff]

theorem Recorded.txRounds {link : Tracked β} (recorded : link.Recorded)
    (connected : link.conn.state = .connected) (answers : Nat → TxAnswer) (fuel : Nat) :
    (txRounds answers fuel link).Recorded := by
  induction fuel generalizing link with
  | zero => exact recorded
  | succ fuel ih =>
      simp only [Tracked.txRounds]
      split
      · exact recorded
      · rename_i conn item round
        have moved := Conn.moves_txNext recorded.agrees connected round
        exact ih (recorded.become moved.1) (moved.2 (by simp))
      · rename_i conn item round
        have moved := Conn.moves_txNext recorded.agrees connected round
        exact ih (recorded.become moved.1) (moved.2 (by simp))
      · rename_i conn round
        exact recorded.become (Conn.moves_txNext recorded.agrees connected round).1
      · rename_i conn round
        exact recorded.become (Conn.moves_txNext recorded.agrees connected round).1

theorem Recorded.processTx {link : Tracked β} (recorded : link.Recorded)
    (answers : Nat → TxAnswer) : (link.processTx answers).Recorded := by
  unfold Tracked.processTx
  split
  · exact recorded
  · rename_i up
    push Not at up
    exact recorded.txRounds up.1 answers _

theorem Recorded.sendEnqueue {link : Tracked β} (recorded : link.Recorded) (item : β)
    (localNode : Option CStr) (now : Nat) (outcome : ConnectOutcome)
    (answers : Nat → TxAnswer) :
    (link.sendEnqueue item localNode now outcome answers).Recorded := by
  have queued := recorded.become
    (Conn.moves_sendEnqueue recorded.agrees item localNode now outcome)
  unfold Tracked.sendEnqueue
  dsimp only
  split
  · exact queued.processTx answers
  · exact queued

theorem Recorded.sendReply {link : Tracked β} (recorded : link.Recorded) (generation : UInt32)
    (item : β) (answers : Nat → TxAnswer) :
    (link.sendReply generation item answers).Recorded := by
  have queued := recorded.become (Conn.moves_sendReply recorded.agrees generation item)
  unfold Tracked.sendReply
  dsimp only
  split
  · exact queued.processTx answers
  · exact queued

theorem Recorded.recvHandler {link : Tracked β} (recorded : link.Recorded)
    (connected : link.conn.state = .connected) (received : Received) :
    (link.recvHandler received).Recorded := by
  cases received with
  | nothing => exact recorded
  | closed => exact recorded.become (Conn.moves_markDisconnected recorded.agrees connected)
  | badMagic => exact recorded.become (Conn.moves_markDisconnected recorded.agrees connected)
  | packet => exact recorded
  | setup peerNode shmName opened =>
      exact recorded.become (Conn.moves_handleSetup recorded.agrees connected ..)

theorem Recorded.eventHandler {link : Tracked β} (recorded : link.Recorded)
    (answers : Nat → TxAnswer) (received : Received) :
    (link.eventHandler answers received).Recorded := by
  have sent := recorded.processTx answers
  unfold Tracked.eventHandler
  dsimp only
  split
  · exact sent
  · rename_i up
    push Not at up
    exact sent.recvHandler up.1 received

theorem recorded_of_created {conn : Conn β} (agrees : conn.Agrees)
    (generation : conn.generation = 1) : (⟨conn, []⟩ : Tracked β).Recorded where
  agrees := agrees
  numbered := by simp [generations]
  current := by simpa using generation
  latest := by simp
  alternate := by simp

/-- What holds of a connection between calls. -/
structure Sound (link : Tracked β) : Prop where
  /-- The fields that describe the link agree. -/
  agrees : link.conn.Agrees
  /-- The connection is at the last generation of the record. -/
  current : link.generations.getLast? = some link.conn.generation
  /-- The link is as the last change left it. -/
  latest : ∀ change, link.changes.getLast? = some change →
    (change.up = true ↔ link.conn.state = .connected)
  /-- The link came up and went down by turns. -/
  alternate : (link.changes.map LinkChange.up).IsChain (· ≠ ·)
  /-- Every change of the link changes the generation. -/
  changed : link.generations.IsChain (· ≠ ·)
  /-- Before the counter wraps, no generation comes twice. -/
  apart : link.changes.length < 2 ^ 32 → link.generations.Nodup

theorem Recorded.sound {link : Tracked β} (recorded : link.Recorded) : link.Sound where
  agrees := recorded.agrees
  current := by
    rw [recorded.numbered, List.range_succ, recorded.current]
    simp
  latest := recorded.latest
  alternate := recorded.alternate
  changed := by
    rw [recorded.numbered, List.isChain_iff_getElem]
    intro place inside
    simp only [List.getElem_map, List.getElem_range, UInt32.ofNat_add, ne_eq,
      UInt32.add_right_inj]
    intro equal
    simp at equal
  apart := by
    intro few
    have size : UInt32.size = 2 ^ 32 := rfl
    rw [recorded.numbered]
    refine List.Nodup.map_on ?_ List.nodup_range
    intro first first_lt second second_lt equal
    rw [List.mem_range] at first_lt second_lt
    have same := congrArg UInt32.toNat ((UInt32.add_right_inj 1).mp equal)
    rwa [UInt32.toNat_ofNat_of_lt' (by omega), UInt32.toNat_ofNat_of_lt' (by omega)] at same

end Tracked

/-! ## Runs -/

namespace LinkTable

/-- The connections of the pool are recorded, and nothing else is. -/
structure Recorded (table : LinkTable β) : Prop where
  /-- The connections are recorded. -/
  links : ∀ index link, table.link? index = some link → link.Recorded
  /-- The records of slots that are not handed out are empty. -/
  ahead : ∀ index, table.pool.conns.length ≤ index → table.changes index = []

theorem recorded_fresh : (fresh : LinkTable β).Recorded where
  links := by simp [fresh, link?]
  ahead := fun _ _ => rfl

theorem Recorded.on {before after : LinkTable β} (recorded : before.Recorded) {index : Nat}
    {call : Tracked β → Tracked β} (keep : ∀ link, link.Recorded → (call link).Recorded)
    (called : before.on index call = some after) : after.Recorded := by
  obtain ⟨link, found, rfl⟩ := Option.map_eq_some_iff.mp called
  have inside : index < before.pool.conns.length := by
    by_contra outside
    simp [link?, List.getElem?_eq_none (not_lt.mp outside)] at found
  constructor
  · intro place other found_other
    by_cases same : place = index
    · subst same
      obtain rfl : call link = other := by simpa [link?, inside] using found_other
      exact keep link (recorded.links place link found)
    · refine recorded.links place other ?_
      simpa [link?, List.getElem?_set_ne (Ne.symm same), same] using found_other
  · intro place outside
    rw [List.length_set] at outside
    have other : place ≠ index := by omega
    exact (Function.update_of_ne other _ _).trans (recorded.ahead place outside)

theorem Recorded.create {table : LinkTable β} (recorded : table.Recorded) {conn : Conn β}
    (agrees : conn.Agrees) (generation : conn.generation = 1) :
    ({ table with pool := ⟨table.pool.conns ++ [conn]⟩ } : LinkTable β).Recorded := by
  constructor
  · intro index link found
    obtain ⟨other, at_index, rfl⟩ := Option.map_eq_some_iff.mp found
    dsimp only at at_index
    rcases Nat.lt_or_ge index table.pool.conns.length with old | new
    · rw [List.getElem?_append_left old] at at_index
      exact recorded.links index _ (Option.map_eq_some_iff.mpr ⟨other, at_index, rfl⟩)
    · rw [List.getElem?_append_right new, List.getElem?_singleton] at at_index
      obtain ⟨-, same⟩ := Option.ite_none_right_eq_some.mp at_index
      obtain rfl := Option.some.inj same
      rw [recorded.ahead index new]
      exact Tracked.recorded_of_created agrees generation
  · intro index outside
    rw [List.length_append] at outside
    exact recorded.ahead index (by omega)

theorem Recorded.step {ring : Ring β txQueueSize} {before after : LinkTable β} {op : PoolCall β}
    (recorded : before.Recorded) (stepped : before.step ring op = some after) :
    after.Recorded := by
  cases op with
  | accept fd =>
      obtain rfl := Option.some.inj stepped
      unfold ConnPool.createPassive
      split
      · exact recorded
      · exact recorded.create (Conn.agrees_passive ring fd) rfl
  | send nodeName udsPath item localNode now outcome answers =>
      have created : ({ before with
          pool := (before.pool.getOrCreate ring nodeName udsPath).1 } : LinkTable β).Recorded := by
        unfold ConnPool.getOrCreate
        split
        · exact recorded
        · split
          · exact recorded
          · exact recorded.create (Conn.agrees_outgoing ring nodeName udsPath) rfl
      simp only [LinkTable.step] at stepped
      split at stepped
      · rename_i pool none_left
        rw [none_left] at created
        obtain rfl := Option.some.inj stepped
        exact created
      · rename_i pool index found
        rw [found] at created
        exact created.on (fun _ kept => kept.sendEnqueue item localNode now outcome answers)
          stepped
  | reply index generation item answers =>
      exact recorded.on (fun _ kept => kept.sendReply generation item answers) stepped
  | event index answers received =>
      exact recorded.on (fun _ kept => kept.eventHandler answers received) stepped

/-- Between any two calls of any run, every connection of the pool is sound. -/
theorem linkSound_of_reachable {ring : Ring β txQueueSize} {table : LinkTable β}
    (reached : Reachable (step ring) (· = fresh) table) (index : Nat) (link : Tracked β)
    (found : table.link? index = some link) : link.Sound := by
  have recorded : table.Recorded :=
    reached.invariant Recorded (fun _ initial => initial ▸ recorded_fresh)
      (fun _ _ _ kept _ stepped => kept.step stepped)
  exact (recorded.links index link found).sound

/-- An empty queue of numbers. -/
def noNumbers : Ring Nat txQueueSize := ConnRun.emptyQueue 0

/-- The head of the queue is sent through the socket. -/
def sendsAll : Nat → TxAnswer := fun _ => ⟨⟨false, 40⟩, false, .complete⟩

/-- A node connects, its peer closes the link, a new attempt fails, and a later one succeeds. -/
def reconnects : List (PoolCall Nat) :=
  [.send (some (.ofText "peer")) (.ofText "/tmp/peer") 7 (some (.ofText "node")) 0
      (.connected 5 true) sendsAll,
    .event 0 sendsAll .closed,
    .send (some (.ofText "peer")) (.ofText "/tmp/peer") 8 (some (.ofText "node")) 10
      (.failed 10) sendsAll,
    .send (some (.ofText "peer")) (.ofText "/tmp/peer") 9 (some (.ofText "node")) 110
      (.connected 6 true) sendsAll]

/-- Three changes, and three generations after the first one. -/
theorem reconnects_sound :
    ∃ table link, Transition.run (step noNumbers) fresh reconnects = some table ∧
      table.link? 0 = some link ∧ link.generations = [1, 2, 3, 4] ∧ link.Sound := by
  have executes : ((Transition.run (step noNumbers) fresh reconnects).bind
      fun table => (table.link? 0).map Tracked.generations) = some [1, 2, 3, 4] := by
    decide +kernel
  obtain ⟨table, ran, view⟩ := Option.bind_eq_some_iff.mp executes
  obtain ⟨link, found, generations⟩ := Option.map_eq_some_iff.mp view
  exact ⟨table, link, ran, found, generations,
    linkSound_of_reachable (reachable_of_run (.start rfl) ran) 0 link found⟩

end LinkTable

end CodexNos.Ipc
