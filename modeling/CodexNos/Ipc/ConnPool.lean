import CodexNos.Ipc.Connection

/-!
# The connection pool

Outgoing and passive connections take their slots from one array that only grows.  A slot is never
handed out again, so the pool refuses a connection as soon as all slots have been asked for since
the start, however many connections are live.
-/

namespace CodexNos.Ipc

open Lib Lib.Transition

variable {β : Type*}

/-- `MAX_REMOTE_CONNS`. -/
def maxRemoteConns : Nat := 16

/-- The connection pool: `g_remote_conns` up to `g_remote_conn_count`. -/
structure ConnPool (β : Type*) where
  /-- The slots handed out, oldest first. -/
  conns : List (Conn β)

namespace ConnPool

/-- `get_or_create_conn`: the index of the connection. -/
def getOrCreate (pool : ConnPool β) (ring : Ring β txQueueSize) (nodeName : Option CStr)
    (udsPath : CStr) : ConnPool β × Option Nat :=
  match pool.conns.findIdx? fun conn => conn.udsPath = udsPath with
  | some index => (pool, some index)
  | none =>
      if maxRemoteConns ≤ pool.conns.length then (pool, none)
      else (⟨pool.conns ++ [.outgoing ring nodeName udsPath]⟩, some pool.conns.length)

/-- `create_passive_conn`: the index of the connection. -/
def createPassive (pool : ConnPool β) (ring : Ring β txQueueSize) (fd : Nat) :
    ConnPool β × Option Nat :=
  if maxRemoteConns ≤ pool.conns.length then (pool, none)
  else (⟨pool.conns ++ [.passive ring fd]⟩, some pool.conns.length)

/-- `nos_ipc_mark_disconnected` on a connection of the pool. -/
def markDisconnected (pool : ConnPool β) (index : Nat) : ConnPool β :=
  ⟨pool.conns.modify index Conn.markDisconnected⟩

/-- The paths in the slots. -/
def paths (pool : ConnPool β) : List CStr := pool.conns.map Conn.udsPath

/-- The passive connections that are not marked disconnected. -/
def livePassive (pool : ConnPool β) : Nat :=
  pool.conns.countP fun conn => conn.isPassive && conn.state = .connected

end ConnPool

/-- The pool and its history. -/
structure PoolRun (β : Type*) where
  /-- The pool. -/
  pool : ConnPool β
  /-- The different paths to which messages were sent. -/
  destinations : List CStr
  /-- A call has returned `NULL`. -/
  refused : Bool

/-- A call on the pool. -/
inductive PoolOp
  /-- A connection is accepted. -/
  | accept (fd : Nat)
  /-- A message is sent to a path. -/
  | send (nodeName : Option CStr) (udsPath : CStr)
  /-- A connection is closed by its peer or violates the protocol. -/
  | disconnect (index : Nat)
  deriving DecidableEq, Repr

namespace PoolRun

/-- Record the answer of a call. -/
def record (run : PoolRun β) (result : ConnPool β × Option Nat) : PoolRun β :=
  { run with pool := result.1, refused := run.refused || result.2.isNone }

/-- Perform one call; a new connection has an empty queue. -/
def step (ring : Ring β txQueueSize) (run : PoolRun β) : PoolOp → Option (PoolRun β)
  | .accept fd => some (run.record (run.pool.createPassive ring fd))
  | .send nodeName udsPath =>
      some
        { run.record (run.pool.getOrCreate ring nodeName udsPath) with
          destinations :=
            if udsPath ∈ run.destinations then run.destinations
            else run.destinations ++ [udsPath] }
  | .disconnect index =>
      if index < run.pool.conns.length then
        some { run with pool := run.pool.markDisconnected index }
      else none

/-- No slot has been handed out. -/
def fresh : PoolRun β := ⟨⟨[]⟩, [], false⟩

/-- The connections that are live: a passive one until it is marked disconnected, and an outgoing
one for each path. -/
def live (run : PoolRun β) : Nat := run.pool.livePassive + run.destinations.length

/-- Fewer connections are live than the pool has slots. -/
def FewLive (run : PoolRun β) : Prop := run.live < maxRemoteConns

end PoolRun

/-- The number of slots that a history asks for: one for each accepted connection, and one for each
message to a path that is in no slot. -/
def slotsAsked : List CStr → List PoolOp → Nat
  | _, [] => 0
  | paths, .accept fd :: ops => slotsAsked (paths ++ [.ofText ("passive:" ++ toString fd)]) ops + 1
  | paths, .send _ udsPath :: ops =>
      if udsPath ∈ paths then slotsAsked paths ops
      else slotsAsked (paths ++ [udsPath.cut 107]) ops + 1
  | paths, .disconnect _ :: ops => slotsAsked paths ops

namespace PoolRun

variable {ring : Ring β txQueueSize}

theorem refused_of_run {before after : PoolRun β} {ops : List PoolOp}
    (execution : Transition.run (step ring) before ops = some after)
    (refused : before.refused = true) : after.refused = true := by
  induction ops generalizing before with
  | nil =>
      obtain rfl : before = after := Option.some.inj execution
      exact refused
  | cons op ops ih =>
      obtain ⟨next, stepped, rest⟩ := Option.bind_eq_some_iff.mp execution
      apply ih rest
      cases op with
      | accept fd =>
          obtain rfl := Option.some.inj stepped
          simp [record, refused]
      | send nodeName udsPath =>
          obtain rfl := Option.some.inj stepped
          simp [record, refused]
      | disconnect index =>
          simp only [step, Option.ite_none_right_eq_some, Option.some.injEq] at stepped
          obtain ⟨-, rfl⟩ := stepped
          exact refused

theorem paths_markDisconnected (pool : ConnPool β) (index : Nat) :
    (pool.markDisconnected index).paths = pool.paths := by
  apply List.ext_getElem?
  intro place
  simp only [ConnPool.paths, ConnPool.markDisconnected, List.getElem?_map, List.getElem?_modify]
  split
  · cases pool.conns[place]? <;> rfl
  · simp

/-- A run is never refused exactly if it asks for no more slots than are left. -/
theorem refused_iff_of_run {before after : PoolRun β} {ops : List PoolOp}
    (execution : Transition.run (step ring) before ops = some after)
    (accepted : before.refused = false) (fits : before.pool.conns.length ≤ maxRemoteConns) :
    after.refused = false ↔
      before.pool.conns.length + slotsAsked before.pool.paths ops ≤ maxRemoteConns := by
  induction ops generalizing before with
  | nil =>
      obtain rfl : before = after := Option.some.inj execution
      simpa [slotsAsked, accepted] using fits
  | cons op ops ih =>
      obtain ⟨next, stepped, rest⟩ := Option.bind_eq_some_iff.mp execution
      cases op with
      | accept fd =>
          obtain rfl := Option.some.inj stepped
          simp only [slotsAsked]
          by_cases full : maxRemoteConns ≤ before.pool.conns.length
          · rw [ConnPool.createPassive, if_pos full] at rest
            rw [refused_of_run rest (by simp [record])]
            simp only [Bool.true_eq_false, false_iff]
            omega
          · rw [ConnPool.createPassive, if_neg full] at rest
            rw [ih rest (by simp [record, accepted]) (by simp [record]; omega)]
            simp only [record, ConnPool.paths, List.length_append, List.length_singleton,
              List.map_append, List.map_singleton, Conn.passive]
            omega
      | send nodeName udsPath =>
          obtain rfl := Option.some.inj stepped
          cases found : before.pool.conns.findIdx? fun conn => conn.udsPath = udsPath with
          | some index =>
              have known : udsPath ∈ before.pool.paths := by
                obtain ⟨inside, same, -⟩ := List.findIdx?_eq_some_iff_getElem.mp found
                exact List.mem_map.mpr ⟨_, List.getElem_mem inside, by simpa using same⟩
              simp only [ConnPool.getOrCreate, found] at rest
              simp only [slotsAsked, known, if_true]
              rw [ih rest (by simp [record, accepted]) fits]
              rfl
          | none =>
              have unknown : udsPath ∉ before.pool.paths := by
                intro known
                obtain ⟨conn, present, same⟩ := List.mem_map.mp known
                simpa [same] using List.findIdx?_eq_none_iff.mp found conn present
              simp only [ConnPool.getOrCreate, found] at rest
              simp only [slotsAsked, unknown, if_false]
              by_cases full : maxRemoteConns ≤ before.pool.conns.length
              · rw [if_pos full] at rest
                rw [refused_of_run rest (by simp [record])]
                simp only [Bool.true_eq_false, false_iff]
                omega
              · rw [if_neg full] at rest
                rw [ih rest (by simp [record, accepted]) (by simp [record]; omega)]
                simp only [record, ConnPool.paths, List.length_append, List.length_singleton,
                  List.map_append, List.map_singleton, Conn.outgoing]
                omega
      | disconnect index =>
          simp only [step, Option.ite_none_right_eq_some, Option.some.injEq] at stepped
          obtain ⟨-, rfl⟩ := stepped
          have length_eq : (before.pool.markDisconnected index).conns.length =
              before.pool.conns.length := by simp [ConnPool.markDisconnected]
          rw [ih rest accepted (length_eq.trans_le fits), length_eq, paths_markDisconnected]
          rfl

/-- If fewer connections are always live than the pool has slots, no call is refused: this holds of a
history exactly if, in the same case, the history asks for no more slots than the pool has. -/
theorem refused_iff_slotsAsked {after : PoolRun β} {ops : List PoolOp}
    (execution : Transition.run (step ring) fresh ops = some after) :
    (Visits (step ring) FewLive fresh ops → after.refused = false) ↔
      (Visits (step ring) FewLive fresh ops → slotsAsked [] ops ≤ maxRemoteConns) := by
  have exact_condition := refused_iff_of_run execution rfl (Nat.zero_le _)
  simp only [fresh, ConnPool.paths, List.length_nil, List.map_nil, Nat.zero_add] at exact_condition
  exact imp_congr_right fun _ => exact_condition

/-- An empty queue. -/
def emptyRing : Ring Nat txQueueSize := ConnRun.emptyQueue 0

instance (run : PoolRun β) : Decidable run.FewLive := by
  unfold FewLive
  infer_instance

/-- A peer that connects and disconnects, and a message to a node. -/
def oneOfEach : List PoolOp :=
  [.accept 7, .disconnect 0, .send (some (.ofText "peer")) (.ofText "/tmp/peer")]

/-- Two slots are asked for and none is refused. -/
theorem one_of_each_accepted :
    ∃ after : PoolRun Nat, Transition.run (step emptyRing) fresh oneOfEach = some after ∧
      after.refused = false := by
  have executes : (runGuarded (step emptyRing) (fun run _ => FewLive run) fresh oneOfEach).map
      (fun run => run.live) = some 1 := by
    decide +kernel
  obtain ⟨after, guarded, live⟩ := Option.map_eq_some_iff.mp executes
  have few : Visits (step emptyRing) FewLive fresh oneOfEach :=
    visits_of_runGuarded guarded (by simp [FewLive, live, maxRemoteConns])
  have ran := (guarded_of_runGuarded guarded).1
  exact ⟨after, ran, (refused_iff_slotsAsked ran).mpr (fun _ => by decide +kernel) few⟩

/-- A peer that connects and disconnects sixteen times and connects again. -/
def reconnectingPeer : List PoolOp :=
  (List.range maxRemoteConns).flatMap (fun index => [.accept 7, .disconnect index]) ++ [.accept 7]

/-- A pool without live connections refuses the seventeenth connection of a peer. -/
theorem reconnecting_peer_refused :
    ∃ after : PoolRun Nat, Transition.run (step emptyRing) fresh reconnectingPeer = some after ∧
      Visits (step emptyRing) FewLive fresh reconnectingPeer ∧ after.live = 0 ∧
      after.refused = true := by
  have executes :
      (runGuarded (step emptyRing) (fun run _ => FewLive run) fresh reconnectingPeer).map
        (fun run => (run.live, run.refused)) = some (0, true) := by
    decide +kernel
  obtain ⟨after, guarded, view⟩ := Option.map_eq_some_iff.mp executes
  obtain ⟨live, refused⟩ := Prod.mk.inj view
  have few : Visits (step emptyRing) FewLive fresh reconnectingPeer :=
    visits_of_runGuarded guarded (by simp [FewLive, live, maxRemoteConns])
  exact ⟨after, (guarded_of_runGuarded guarded).1, few, live, refused⟩

end PoolRun

end CodexNos.Ipc
