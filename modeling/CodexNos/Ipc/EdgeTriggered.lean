import CodexNos.Lib.Transition

/-!
# The edge-triggered receive handler

A connection's socket is registered with `EPOLLET`: an arriving packet makes an edge, `epoll_wait`
reports the edge once, and the report runs the event handler once.  The handler first works on the
transmit queue and then receives one packet.  So each report takes at most one packet off the
socket, and two packets that arrive before one report leave the second behind until a further edge.
-/

namespace CodexNos.Ipc

open Lib.Transition

/-- What the receive handler reads of a packet. -/
structure Incoming where
  /-- The header carries `NOS_IPC_MAGIC`. -/
  magicOk : Bool
  /-- Payload length of the header. -/
  payloadLen : Nat
  /-- Bytes of the packet behind the header. -/
  dataLen : Nat
  deriving DecidableEq, Repr

/-- Where the thread is in `nos_ipc_event_handler`. -/
inductive HandlerPoint
  /-- Not in the handler. -/
  | idle
  /-- In `nos_ipc_process_tx`. -/
  | transmit
  /-- Before the receive with `MSG_PEEK`. -/
  | peek
  /-- Before the receive that throws the packet away. -/
  | discard
  /-- Before the receive into the buffer. -/
  | receive
  deriving DecidableEq, Repr

/-- A connection and the receiving end of its socket. -/
structure Endpoint where
  /-- The state of the connection is `NOS_IPC_CONNECTED`. -/
  connected : Bool
  /-- Packets in the socket, oldest first. -/
  fifo : List Incoming
  /-- An edge that `epoll_wait` has not reported. -/
  edge : Bool
  /-- Event handler. -/
  handler : HandlerPoint
  /-- Packets passed on as control or data messages, oldest first. -/
  handled : List Incoming
  /-- `rx_errors` of the connection. -/
  rxErrors : Nat
  /-- `buffer_alloc_fails` of the node. -/
  bufferAllocFails : Nat
  deriving DecidableEq, Repr

/-- A step of the connection, the kernel or the peer. -/
inductive EndpointOp
  /-- A packet arrives. -/
  | arrive (packet : Incoming)
  /-- The socket becomes writable or the peer hangs up. -/
  | signal
  /-- `epoll_wait` reports the edge. -/
  | report
  /-- `nos_ipc_process_tx`; whether the link failed. -/
  | processTx (failed : Bool)
  /-- Look at the next packet; whether the peer has closed and whether a buffer is available. -/
  | peek (closed buffer : Bool)
  /-- Take the packet off the socket. -/
  | take
  /-- Another thread finds the link broken. -/
  | disconnect
  deriving DecidableEq, Repr

namespace Endpoint

/-- The part of `nos_ipc_recv_handler` before the packet is taken. -/
def recvHandler (endpoint : Endpoint) (closed buffer : Bool) : Endpoint :=
  match endpoint.fifo with
  | [] => { endpoint with connected := endpoint.connected && !closed, handler := .idle }
  | packet :: _ =>
      if !packet.magicOk then
        { endpoint with
          rxErrors := endpoint.rxErrors + 1
          connected := false
          handler := .idle }
      else if 4096 < packet.payloadLen then
        { endpoint with rxErrors := endpoint.rxErrors + 1, handler := .discard }
      else if !buffer then
        { endpoint with
          bufferAllocFails := endpoint.bufferAllocFails + 1
          rxErrors := endpoint.rxErrors + 1
          handler := .discard }
      else { endpoint with handler := .receive }

/-- Perform one step. -/
def step (endpoint : Endpoint) : EndpointOp → Option Endpoint
  | .arrive packet =>
      if endpoint.connected then
        some { endpoint with fifo := endpoint.fifo ++ [packet], edge := true }
      else none
  | .signal => if endpoint.connected then some { endpoint with edge := true } else none
  | .report =>
      if endpoint.edge && endpoint.handler = .idle then
        some { endpoint with edge := false, handler := .transmit }
      else none
  | .processTx failed =>
      if endpoint.handler = .transmit then
        let connected := endpoint.connected && !failed
        some
          { endpoint with
            connected := connected
            handler := if connected then .peek else .idle }
      else none
  | .peek closed buffer =>
      if endpoint.handler = .peek then
        if endpoint.connected then some (endpoint.recvHandler closed buffer)
        else some { endpoint with handler := .idle }
      else none
  | .take =>
      match endpoint.handler, endpoint.fifo with
      | .discard, _ :: rest => some { endpoint with fifo := rest, handler := .idle }
      | .receive, packet :: rest =>
          if packet.payloadLen ≤ packet.dataLen then
            some
              { endpoint with
                fifo := rest
                handled := endpoint.handled ++ [packet]
                handler := .idle }
          else
            some
              { endpoint with
                fifo := rest
                rxErrors := endpoint.rxErrors + 1
                handler := .idle }
      | _, _ => none
  | .disconnect => some { endpoint with connected := false }

/-- Just registered. -/
def Initial (endpoint : Endpoint) : Prop :=
  endpoint.connected = true ∧ endpoint.fifo = [] ∧ endpoint.handler = .idle

/-- Connected, no edge to report and no handler running. -/
def Settled (endpoint : Endpoint) : Prop :=
  endpoint.connected = true ∧ endpoint.edge = false ∧ endpoint.handler = .idle

instance (endpoint : Endpoint) : Decidable endpoint.Settled := by
  unfold Settled
  infer_instance

/-- Packets that the running handler can still take. -/
def due (endpoint : Endpoint) : Nat := if endpoint.handler = .idle then 0 else 1

/-- A packet arrives only when the running handler takes all packets that are there. -/
def InTurn (endpoint : Endpoint) : EndpointOp → Prop
  | .arrive _ => endpoint.fifo.length ≤ endpoint.due
  | _ => True

instance (endpoint : Endpoint) (op : EndpointOp) : Decidable (endpoint.InTurn op) := by
  unfold InTurn
  split <;> infer_instance

/-- Every packet has a handler run to come. -/
def Covered (endpoint : Endpoint) : Prop :=
  endpoint.connected = true → endpoint.fifo.length ≤ endpoint.edge.toNat + endpoint.due

theorem covered_of_initial {endpoint : Endpoint} (start : endpoint.Initial) :
    endpoint.Covered := by
  intro _
  simp [start.2.1]

theorem Covered.arrive {endpoint after : Endpoint} {packet : Incoming}
    (allowed : endpoint.InTurn (.arrive packet))
    (stepped : endpoint.step (.arrive packet) = some after) : after.Covered := by
  simp only [step] at stepped
  split at stepped
  · obtain rfl := Option.some.inj stepped
    intro _
    simp only [InTurn, due] at allowed
    simp only [due, List.length_append, List.length_singleton, Bool.toNat_true]
    omega
  · simp at stepped

theorem Covered.report {endpoint after : Endpoint} (covered : endpoint.Covered)
    (stepped : endpoint.step .report = some after) : after.Covered := by
  simp only [step] at stepped
  split at stepped
  · rename_i reported
    obtain ⟨edge, idle⟩ : endpoint.edge = true ∧ endpoint.handler = .idle := by simpa using reported
    obtain rfl := Option.some.inj stepped
    intro connected
    have once := covered connected
    simpa [due, edge, idle] using once
  · simp at stepped

/-- The handler goes on only while it still has a packet to take. -/
theorem Covered.peek {endpoint after : Endpoint} {closed buffer : Bool} (covered : endpoint.Covered)
    (stepped : endpoint.step (.peek closed buffer) = some after) : after.Covered := by
  simp only [step] at stepped
  split at stepped
  · rename_i peeking
    split at stepped
    · rename_i connected
      obtain rfl := Option.some.inj stepped
      have once := covered connected
      simp only [due, peeking, reduceCtorEq, if_false] at once
      cases arrived : endpoint.fifo with
      | nil => simp [Covered, recvHandler, arrived]
      | cons packet rest =>
          simp only [arrived] at once
          simp only [Covered, recvHandler, arrived]
          split
          · simp
          · split
            · simpa [due] using fun _ => once
            · split
              · simpa [due] using fun _ => once
              · simpa [due] using fun _ => once
    · rename_i broken
      obtain rfl := Option.some.inj stepped
      exact fun connected => absurd connected broken
  · simp at stepped

theorem Covered.take {endpoint after : Endpoint} (covered : endpoint.Covered)
    (stepped : endpoint.step .take = some after) : after.Covered := by
  intro connected
  have taken : endpoint.connected = true ∧ endpoint.due = 1 ∧ after.edge = endpoint.edge ∧
      endpoint.fifo.length = after.fifo.length + 1 := by
    simp only [step] at stepped
    split at stepped
    · rename_i packet rest point arrived
      obtain rfl := Option.some.inj stepped
      simp_all [due]
    · rename_i packet rest point arrived
      split at stepped
      · obtain rfl := Option.some.inj stepped
        simp_all [due]
      · obtain rfl := Option.some.inj stepped
        simp_all [due]
    · simp at stepped
  obtain ⟨before, one, edge, length⟩ := taken
  have once := covered before
  rw [edge]
  omega

theorem Covered.step {endpoint after : Endpoint} {op : EndpointOp} (covered : endpoint.Covered)
    (allowed : endpoint.InTurn op) (stepped : endpoint.step op = some after) : after.Covered := by
  cases op with
  | arrive packet => exact Covered.arrive allowed stepped
  | report => exact covered.report stepped
  | peek closed buffer => exact covered.peek stepped
  | take => exact covered.take stepped
  | signal =>
      simp only [Endpoint.step] at stepped
      split at stepped
      · obtain rfl := Option.some.inj stepped
        intro connected
        have once := covered connected
        have bit : endpoint.edge.toNat ≤ 1 := Bool.toNat_le _
        simp only [due, Bool.toNat_true] at once ⊢
        omega
      · simp at stepped
  | processTx failed =>
      simp only [Endpoint.step] at stepped
      split at stepped
      · rename_i transmitting
        obtain rfl := Option.some.inj stepped
        intro connected
        have stays : (endpoint.connected && !failed) = true := connected
        have once := covered (by simp_all)
        simpa [due, transmitting, stays] using once
      · simp at stepped
  | disconnect =>
      obtain rfl := Option.some.inj stepped
      intro connected
      simp at connected

/-- If packets only arrive in turn, nothing is left behind in a settled connection. -/
theorem fifo_empty_of_settled {endpoint : Endpoint} (reached : Reach step InTurn Initial endpoint)
    (settled : endpoint.Settled) : endpoint.fifo = [] := by
  have covered : endpoint.Covered :=
    Reach.invariant Covered (fun _ start => covered_of_initial start)
      (fun _ _ _ covered allowed stepped => covered.step allowed stepped) reached
  obtain ⟨connected, edge, idle⟩ := settled
  have once := covered connected
  simpa [due, edge, idle] using once

/-- A registered connection without traffic. -/
def registered : Endpoint where
  connected := true
  fifo := []
  edge := false
  handler := .idle
  handled := []
  rxErrors := 0
  bufferAllocFails := 0

theorem registered_initial : registered.Initial := ⟨rfl, rfl, rfl⟩

/-- A well-formed packet without payload. -/
def emptyPacket : Incoming := ⟨true, 0, 0⟩

/-- A report and the handler run for it. -/
def handlerRun : List EndpointOp := [.report, .processTx false, .peek false true, .take]

/-- Packets that arrive one report apart are both handled. -/
theorem alternating_packets_handled :
    ∃ endpoint, Reach step InTurn Initial endpoint ∧ endpoint.Settled ∧
      endpoint.handled.length = 2 ∧ endpoint.fifo = [] := by
  have ends : (runGuarded step InTurn registered
      (.arrive emptyPacket :: handlerRun ++ .arrive emptyPacket :: handlerRun)).map
        (fun endpoint => decide (endpoint.Settled ∧ endpoint.handled.length = 2)) = some true := by
    decide +kernel
  obtain ⟨endpoint, execution, holds⟩ := Option.map_eq_some_iff.mp ends
  obtain ⟨settled, count⟩ := of_decide_eq_true holds
  have reached := reach_of_runGuarded (.start registered_initial) execution
  exact ⟨endpoint, reached, settled, count, fifo_empty_of_settled reached settled⟩

/-- Two packets arrive before one report: the second stays in the socket. -/
theorem coalesced_packet_left_behind :
    ∃ endpoint, Reachable step Initial endpoint ∧ endpoint.Settled ∧ endpoint.fifo ≠ [] := by
  have ends : (run step registered
      ([.arrive emptyPacket, .arrive emptyPacket] ++ handlerRun)).map
        (fun endpoint => decide (endpoint.Settled ∧ endpoint.fifo ≠ [])) = some true := by
    decide +kernel
  obtain ⟨endpoint, execution, holds⟩ := Option.map_eq_some_iff.mp ends
  exact ⟨endpoint, reachable_of_run (.start registered_initial) execution, of_decide_eq_true holds⟩

end Endpoint

end CodexNos.Ipc
