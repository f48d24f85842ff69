import CodexNos.Ipc.Link

/-!
# Delivery order on a connection

Messages that are on their way are ordered by when they will come out: what is in the socket ahead
of the next `NOTIFY`, then the ring, then the rest of the socket.  As long as every step appends to
that order, the receiver delivers in the order of the enqueue calls.  A message that falls back to
the socket behind a `NOTIFY` is overtaken by whatever the ring takes before that `NOTIFY` is handled.
-/

namespace CodexNos.Ipc

open Lib.Transition

namespace Link

/-! ## The order in which packets come out -/

@[simp]
theorem dataOf_append (socket packets : List Packet) :
    dataOf (socket ++ packets) = dataOf socket ++ dataOf packets := by
  induction socket with
  | nil => rfl
  | cons packet rest ih =>
      cases packet with
      | data msg => simp [dataOf, ih]
      | ctrl code => simp [dataOf, ih]

/-- The next `NOTIFY` splits the messages of the socket. -/
theorem ahead_append_behind (attached : Bool) (socket : List Packet) :
    ahead attached socket ++ behind attached socket = dataOf socket := by
  induction socket generalizing attached with
  | nil => rfl
  | cons packet rest ih =>
      cases packet with
      | data msg => simp [ahead, behind, dataOf, ih]
      | ctrl code =>
          cases code with
          | setup => simp [ahead, behind, dataOf, ih]
          | other => simp [ahead, behind, dataOf, ih]
          | notify =>
              cases attached with
              | true => simp [ahead, behind, dataOf]
              | false => simp [ahead, behind, dataOf, ih]

theorem behind_eq_nil {attached : Bool} {socket : List Packet}
    (silent : wakes attached socket = false) : behind attached socket = [] := by
  induction socket generalizing attached with
  | nil => rfl
  | cons packet rest ih =>
      cases packet with
      | data msg => simpa [behind] using ih silent
      | ctrl code =>
          cases code with
          | setup => simpa [behind] using ih (by simpa [wakes] using silent)
          | other => simpa [behind] using ih (by simpa [wakes] using silent)
          | notify =>
              cases attached with
              | true => simp [wakes] at silent
              | false => simpa [behind] using ih (by simpa [wakes] using silent)

/-- A packet at the end goes behind the `NOTIFY` if there is one. -/
theorem ahead_concat_of_wakes {attached : Bool} {socket : List Packet}
    (woken : wakes attached socket = true) (packet : Packet) :
    ahead attached (socket ++ [packet]) = ahead attached socket ∧
      behind attached (socket ++ [packet]) = behind attached socket ++ dataOf [packet] := by
  induction socket generalizing attached with
  | nil => simp [wakes] at woken
  | cons first rest ih =>
      cases first with
      | data msg =>
          have later := ih (by simpa [wakes] using woken)
          simpa [ahead, behind] using later
      | ctrl code =>
          cases code with
          | setup =>
              have later := ih (by simpa [wakes] using woken)
              simpa [ahead, behind] using later
          | other =>
              have later := ih (by simpa [wakes] using woken)
              simpa [ahead, behind] using later
          | notify =>
              cases attached with
              | true => simp [ahead, behind]
              | false =>
                  have later := ih (by simpa [wakes] using woken)
                  simpa [ahead, behind] using later

theorem ahead_concat_of_silent {attached : Bool} {socket : List Packet}
    (silent : wakes attached socket = false) (packet : Packet) :
    ahead attached (socket ++ [packet]) = ahead attached socket ++ dataOf [packet] ∧
      behind attached (socket ++ [packet]) = [] := by
  induction socket generalizing attached with
  | nil =>
      cases packet with
      | data msg => simp [ahead, behind, dataOf]
      | ctrl code => cases code <;> cases attached <;> simp [ahead, behind, dataOf]
  | cons first rest ih =>
      cases first with
      | data msg =>
          have later := ih (by simpa [wakes] using silent)
          simpa [ahead, behind] using later
      | ctrl code =>
          cases code with
          | setup =>
              have later := ih (by simpa [wakes] using silent)
              simpa [ahead, behind] using later
          | other =>
              have later := ih (by simpa [wakes] using silent)
              simpa [ahead, behind] using later
          | notify =>
              cases attached with
              | true => simp [wakes] at silent
              | false =>
                  have later := ih (by simpa [wakes] using silent)
                  simpa [ahead, behind] using later

/-! ## Messages on their way -/

/-- Messages in the ring and in the socket, in the order in which they come out.  A ring that the
receiver has not attached to and has no `SETUP` for is lost. -/
def pending (draining attached : Bool) (ring : List Msg) (socket : List Packet) : List Msg :=
  if draining then ring ++ dataOf socket
  else if alive attached socket then ahead attached socket ++ ring ++ behind attached socket
  else dataOf socket

/-- Messages of the transmit queue that are not yet in the ring. -/
def unsent (sender : SenderPoint) (txQueue : List Msg) : List Msg :=
  if sender = .notifying then txQueue.tail else txQueue

/-- Every accepted message that was or can be delivered, in the order of delivery. -/
def course (link : Link) : List Msg :=
  link.delivered ++ pending link.draining link.attached link.ring link.socket ++
    unsent link.sender link.txQueue

/-- The step only appends to the order in which messages come out.
* A message goes into the ring only when no message in the socket comes out behind the ring.
* A message goes into the socket only when the ring comes out before it, or is empty or lost.
* A `SETUP` does not revive a lost ring that has messages.
* A control packet that has no effect does not let messages of the socket overtake the ring. -/
def Appends (link : Link) : LinkOp → Prop
  | .publish =>
      if link.draining then dataOf link.socket = [] else behind link.attached link.socket = []
  | .send true =>
      match link.txQueue with
      | [] => True
      | msg :: _ =>
          match msg.packet with
          | .data _ =>
              link.draining ∨ link.ring = [] ∨ ¬ alive link.attached link.socket ∨
                wakes link.attached link.socket
          | .ctrl .setup => link.ring = [] ∨ alive link.attached link.socket
          | .ctrl _ => True
  | .recv buffer opened =>
      match link.socket with
      | .ctrl code :: rest =>
          (buffer && (code != .setup || opened)) ∨ link.ring = [] ∨ ¬ alive link.attached rest ∨
            ahead link.attached rest = ahead link.attached (.ctrl code :: rest)
      | _ => True
  | _ => True

instance (link : Link) : (op : LinkOp) → Decidable (link.Appends op)
  | .publish => by
      dsimp only [Appends]
      infer_instance
  | .send true => by
      dsimp only [Appends]
      match link.txQueue with
      | [] => exact isTrue trivial
      | msg :: _ =>
          dsimp only
          match msg.packet with
          | .data _ | .ctrl .setup => infer_instance
          | .ctrl .notify | .ctrl .other => exact isTrue trivial
  | .recv _ _ => by
      dsimp only [Appends]
      match link.socket with
      | .ctrl _ :: _ => infer_instance
      | .data _ :: _ | [] => exact isTrue trivial
  | .connect .. | .enqueue .. | .processTx | .next | .notify _ | .send false | .drain _ =>
      isTrue trivial

/-- Without a ring to come the messages of the socket are all that comes. -/
theorem pending_nil (draining attached : Bool) (socket : List Packet) :
    pending draining attached [] socket = dataOf socket := by
  unfold pending
  split
  · simp
  · split
    · simp [ahead_append_behind]
    · rfl

theorem pending_publish {draining attached : Bool} {socket : List Packet}
    (last : if draining then dataOf socket = [] else behind attached socket = [])
    (ring : List Msg) (msg : Msg) :
    (pending draining attached (ring ++ [msg]) socket).Sublist
      (pending draining attached ring socket ++ [msg]) := by
  cases draining with
  | true =>
      have none_left : dataOf socket = [] := by simpa using last
      simp [pending, none_left]
  | false =>
      have none_behind : behind attached socket = [] := by simpa using last
      cases living : alive attached socket with
      | true => simp [pending, living, none_behind]
      | false => simp [pending, living]

/-- A packet at the end of the socket brings its message last. -/
theorem pending_concat {draining attached : Bool} {ring : List Msg} {socket : List Packet}
    {packet : Packet}
    (last : draining = true ∨ ring = [] ∨ alive attached socket = false ∨
      wakes attached socket = true ∨ dataOf [packet] = [])
    (kept : packet ≠ .ctrl .setup ∨ ring = [] ∨ alive attached socket = true) :
    pending draining attached ring (socket ++ [packet]) =
      pending draining attached ring socket ++ dataOf [packet] := by
  by_cases empty : ring = []
  · rw [empty, pending_nil, pending_nil, dataOf_append]
  simp only [empty, false_or] at last kept
  cases draining with
  | true => simp [pending]
  | false =>
      cases living : alive attached socket with
      | false =>
          have no_setup : packet ≠ .ctrl .setup := by simpa [living] using kept
          simp [pending, living, alive_append, no_setup.symm]
      | true =>
          cases woken : wakes attached socket with
          | true =>
              obtain ⟨front, back⟩ := ahead_concat_of_wakes woken packet
              simp [pending, living, alive_append, front, back]
          | false =>
              have silent : dataOf [packet] = [] := by simpa [living, woken] using last
              obtain ⟨front, back⟩ := ahead_concat_of_silent woken packet
              simp [pending, living, alive_append, front, back, silent, behind_eq_nil woken]

/-- A delivered or discarded message leaves the front of the order. -/
theorem course_deliver (link next : Link) {msg : Msg}
    (first : pending link.draining link.attached link.ring link.socket =
      msg :: pending next.draining next.attached next.ring next.socket)
    (delivered_eq : next.delivered = link.delivered)
    (unsent_eq : unsent next.sender next.txQueue = unsent link.sender link.txQueue)
    (buffer : Bool) : (next.deliver msg buffer).course.Sublist link.course := by
  unfold deliver
  split
  · simp [course, first, delivered_eq, unsent_eq]
  · simp only [course, first, delivered_eq, unsent_eq]
    exact ((List.sublist_cons_self _ _).append_left _).append_right _

theorem course_sublist {link next : Link}
    (fewer : (pending next.draining next.attached next.ring next.socket).Sublist
      (pending link.draining link.attached link.ring link.socket))
    (delivered_eq : next.delivered = link.delivered)
    (unsent_le : (unsent next.sender next.txQueue).Sublist (unsent link.sender link.txQueue)) :
    next.course.Sublist link.course := by
  rw [course, course, delivered_eq]
  exact (fewer.append_left _).append unsent_le

theorem course_drain {link after : Link} {buffer : Bool}
    (stepped : link.step (.drain buffer) = some after) : after.course.Sublist link.course := by
  simp only [step] at stepped
  split at stepped
  · rename_i draining empty
    obtain rfl := Option.some.inj stepped
    simp [course, empty, pending_nil]
  · rename_i msg rest draining full
    obtain rfl := Option.some.inj stepped
    refine course_deliver link { link with ring := rest } ?_ rfl rfl buffer
    simp [pending, draining, full]
  · simp at stepped

theorem dataOf_sublist_pending (attached : Bool) (ring : List Msg) (socket : List Packet) :
    (dataOf socket).Sublist (pending false attached ring socket) := by
  cases living : alive attached socket with
  | true =>
      rw [← ahead_append_behind attached socket]
      simp only [pending, living, Bool.false_eq_true, if_false, if_true]
      exact (List.sublist_append_left _ _).append_right _
  | false => simp [pending, living]

theorem pending_skip {attached : Bool} {code : Ctrl} {rest : List Packet} {ring : List Msg}
    (harmless : ring = [] ∨ ¬ alive attached rest ∨
      ahead attached rest = ahead attached (.ctrl code :: rest)) :
    (pending false attached ring rest).Sublist (pending false attached ring (.ctrl code :: rest)) := by
  have whole : dataOf (.ctrl code :: rest) = dataOf rest := rfl
  cases living : alive attached rest with
  | false =>
      have lost : pending false attached ring rest = dataOf rest := by simp [pending, living]
      rw [lost, ← whole]
      exact dataOf_sublist_pending attached ring _
  | true =>
      have living' : alive attached (.ctrl code :: rest) := by
        simp only [alive, Bool.or_eq_true, List.contains_cons] at living ⊢
        exact living.imp_right Or.inr
      obtain rfl | dead | same := harmless
      · rw [pending_nil, pending_nil, whole]
      · exact absurd living dead
      · have cut := (ahead_append_behind attached rest).trans
          (ahead_append_behind attached (.ctrl code :: rest)).symm
        rw [same] at cut
        simp [pending, living, living', same, List.append_cancel_left cut]

/-- A control packet that has its effect changes nothing about the order. -/
theorem pending_handleCtrl {code : Ctrl} {opened : Bool}
    (effective : code ≠ .setup ∨ opened = true) (attached : Bool) (ring : List Msg)
    (rest : List Packet) :
    pending (code = .notify && attached) (attached || (code = .setup && opened)) ring rest =
      pending false attached ring (.ctrl code :: rest) := by
  cases code with
  | setup =>
      obtain rfl : opened = true := by simpa using effective
      simp [pending, alive, ahead, behind]
  | notify =>
      cases attached with
      | true => simp [pending, alive, ahead, behind]
      | false => simp [pending, alive, ahead, behind, dataOf]
  | other => simp [pending, alive, ahead, behind, dataOf]

theorem course_recv {link after : Link} {buffer opened : Bool}
    (allowed : link.Appends (.recv buffer opened))
    (stepped : link.step (.recv buffer opened) = some after) : after.course.Sublist link.course := by
  simp only [step] at stepped
  split at stepped
  · rename_i packet rest idle arrived
    obtain rfl := Option.some.inj stepped
    cases packet with
    | data msg =>
        refine course_deliver link { link with socket := rest } ?_ rfl rfl buffer
        have living : alive link.attached (.data msg :: rest) = alive link.attached rest := by
          simp [alive]
        simp only [idle, arrived, pending, living, ahead, behind, dataOf, Bool.false_eq_true,
          if_false, List.cons_append]
        split
        · rfl
        · rfl
    | ctrl code =>
        simp only [Appends, arrived] at allowed
        cases effective : buffer && (code != .setup || opened) with
        | false =>
            have skipped := pending_skip (allowed.resolve_left (by simp [effective]))
            rw [handle_without_effect effective]
            refine course_sublist ?_ rfl (.refl _)
            simpa [idle, arrived] using skipped
        | true =>
            obtain ⟨rfl, acts⟩ : buffer = true ∧ (code ≠ .setup ∨ opened = true) := by
              simpa using effective
            have handled : { link with socket := rest }.handle (.ctrl code) true opened =
                { link with
                  socket := rest
                  draining := code = .notify && link.attached
                  attached := link.attached || (code = .setup && opened) } := by
              cases code <;> simp [handle, handleCtrl, idle]
            rw [handled]
            refine course_sublist ?_ rfl (.refl _)
            rw [pending_handleCtrl acts link.attached link.ring rest, idle, arrived]
  · simp at stepped

theorem course_publish {link after : Link} (allowed : link.Appends .publish)
    (stepped : link.step .publish = some after) : after.course.Sublist link.course := by
  simp only [step] at stepped
  split at stepped
  · rename_i msg rest writing queue
    obtain rfl := Option.some.inj stepped
    have last := pending_publish allowed link.ring msg
    have before : unsent link.sender link.txQueue = [msg] ++ rest := by
      simp [unsent, writing, queue]
    have later : unsent .notifying link.txQueue = rest := by simp [unsent, queue]
    rw [course, course, before, later, ← List.append_assoc (_ ++ _) [msg] rest,
      List.append_assoc link.delivered _ [msg]]
    exact (last.append_left _).append_right _
  · simp at stepped

theorem course_notify {link after : Link} {sent : Bool}
    (stepped : link.step (.notify sent) = some after) : after.course.Sublist link.course := by
  simp only [step] at stepped
  split at stepped
  · rename_i msg rest notifying queue
    obtain rfl := Option.some.inj stepped
    refine course_sublist ?_ rfl ?_
    · cases sent with
      | true =>
          have same : pending link.draining link.attached link.ring
                (link.socket ++ [.ctrl .notify]) =
              pending link.draining link.attached link.ring link.socket ++ [] :=
            pending_concat (by simp [dataOf]) (by simp)
          simp [same]
      | false => simp
    · simp [unsent, notifying, queue]
  · simp at stepped

theorem dataOf_packet_sublist (msg : Msg) : (dataOf [msg.packet]).Sublist [msg] := by
  cases kind : msg.ctrl with
  | none => simp [Msg.packet, kind, dataOf]
  | some code => simp [Msg.packet, kind, dataOf]

theorem pending_send {link : Link} {msg : Msg} {rest : List Msg}
    (queue : link.txQueue = msg :: rest) (allowed : link.Appends (.send true)) :
    pending link.draining link.attached link.ring (link.socket ++ [msg.packet]) =
      pending link.draining link.attached link.ring link.socket ++ dataOf [msg.packet] := by
  simp only [Appends, queue] at allowed
  refine pending_concat ?_ ?_
  · split at allowed
    · simp only [Bool.not_eq_true] at allowed
      tauto
    · rename_i setup
      simp [setup, dataOf]
    · rename_i code other kind
      simp [kind, dataOf]
  · split at allowed
    · rename_i data
      simp [data]
    · exact Or.inr allowed
    · rename_i code other kind
      left
      rw [kind]
      exact fun same => other (Packet.ctrl.inj same)

theorem course_send {link after : Link} {sent : Bool} (allowed : link.Appends (.send sent))
    (stepped : link.step (.send sent) = some after) : after.course.Sublist link.course := by
  simp only [step] at stepped
  split at stepped
  · rename_i msg rest sending queue
    cases sent with
    | false =>
        obtain rfl := Option.some.inj stepped
        refine course_sublist (.refl _) rfl ?_
        simp [unsent, sending]
    | true =>
        obtain rfl := Option.some.inj stepped
        have before : unsent link.sender link.txQueue = [msg] ++ rest := by
          simp [unsent, sending, queue]
        have later : unsent .loop rest = rest := rfl
        rw [course, course, before, later, pending_send queue allowed,
          ← List.append_assoc (_ ++ _) [msg] rest, ← List.append_assoc link.delivered]
        exact ((dataOf_packet_sublist msg).append_left _).append_right _
  · simp at stepped

theorem course_connect {link after : Link} {created sent : Bool} (empty : link.ring = [])
    (stepped : link.step (.connect created sent) = some after) :
    after.course.Sublist link.course := by
  simp only [step] at stepped
  split at stepped
  · simp at stepped
  · obtain rfl := Option.some.inj stepped
    refine course_sublist ?_ rfl (.refl _)
    rw [empty, pending_nil, pending_nil, dataOf_append]
    split
    · simp [dataOf]
    · simp [dataOf]

theorem course_next {link after : Link} (stepped : link.step .next = some after) :
    after.course.Sublist link.course := by
  simp only [step] at stepped
  split at stepped
  · rename_i loop
    split at stepped
    · rename_i empty
      obtain rfl := Option.some.inj stepped
      refine course_sublist (.refl _) rfl ?_
      simp [unsent, empty]
    · rename_i msg rest queue
      obtain rfl := Option.some.inj stepped
      refine course_sublist (.refl _) rfl ?_
      cases link.takesRing msg with
      | true => simp [unsent, loop]
      | false => simp [unsent, loop]
  · simp at stepped

theorem course_processTx {link after : Link} (stepped : link.step .processTx = some after) :
    after.course.Sublist link.course := by
  simp only [step] at stepped
  split at stepped
  · rename_i ready
    obtain rfl := Option.some.inj stepped
    have idle : link.sender = .idle := by simp_all
    refine course_sublist (.refl _) rfl ?_
    simp [unsent, idle]
  · simp at stepped

/-- What a step does to the course and to the number of accepted messages. -/
def Extends (link after : Link) : Prop :=
  (after.course.Sublist link.course ∧ after.accepted = link.accepted) ∨
    ∃ msg : Msg, msg.number = link.accepted ∧ after.course = link.course ++ [msg] ∧
      after.accepted = link.accepted + 1

theorem extends_enqueue {link after : Link} {payloadLen : Nat} {ctrl : Option Ctrl}
    (stepped : link.step (.enqueue payloadLen ctrl) = some after) : link.Extends after := by
  simp only [step] at stepped
  split at stepped
  · rename_i idle
    split at stepped
    · obtain rfl := Option.some.inj stepped
      exact Or.inl ⟨.refl _, rfl⟩
    · obtain rfl := Option.some.inj stepped
      refine Or.inr ⟨⟨link.accepted, payloadLen, ctrl⟩, rfl, ?_, rfl⟩
      simp [course, unsent, idle]
  · simp at stepped

theorem extends_step {link after : Link} {op : LinkOp}
    (unconnected : link.connected = false → link.ring = [])
    (allowed : link.Appends op) (stepped : link.step op = some after) : link.Extends after := by
  by_cases other : ∀ payloadLen ctrl, op ≠ .enqueue payloadLen ctrl
  · refine Or.inl ⟨?_, accepted_step other stepped⟩
    cases op with
    | enqueue payloadLen ctrl => exact absurd rfl (other payloadLen ctrl)
    | connect created sent =>
        have first : link.connected = false := by
          by_contra again
          simp [step, again] at stepped
        exact course_connect (unconnected first) stepped
    | processTx => exact course_processTx stepped
    | next => exact course_next stepped
    | publish => exact course_publish allowed stepped
    | notify sent => exact course_notify stepped
    | send sent => exact course_send allowed stepped
    | recv buffer opened => exact course_recv allowed stepped
    | drain buffer => exact course_drain stepped
  · push Not at other
    obtain ⟨payloadLen, ctrl, rfl⟩ := other
    exact extends_enqueue stepped

/-! ## Delivery in the order of the enqueue calls -/

/-- Ordered by place in the enqueue order. -/
def InOrder (msgs : List Msg) : Prop := msgs.Pairwise fun first second => first.number < second.number

instance (msgs : List Msg) : Decidable (InOrder msgs) :=
  inferInstanceAs (Decidable (msgs.Pairwise _))

/-- What holds of the link in every allowed run. -/
structure CourseOk (link : Link) : Prop where
  /-- The course is in the order of the enqueue calls. -/
  inOrder : InOrder link.course
  /-- Its messages are accepted messages. -/
  accepted : ∀ msg ∈ link.course, msg.number < link.accepted
  /-- Nothing is sent before the sender has connected. -/
  unconnected : link.connected = false → link.ring = [] ∧ link.sender = .idle

theorem courseOk_of_initial {link : Link} (start : link.Initial) : CourseOk link := by
  obtain ⟨-, -, queue, -, idle, ring, socket, -, -, delivered⟩ := start
  have empty : link.course = [] := by
    simp [course, ring, socket, delivered, queue, pending_nil, dataOf, unsent]
  exact ⟨by simp [InOrder, empty], by simp [empty], fun _ => ⟨ring, idle⟩⟩

theorem inOrder_of_extends {link after : Link} (ok : CourseOk link) (grown : link.Extends after) :
    InOrder after.course ∧ ∀ msg ∈ after.course, msg.number < after.accepted := by
  rcases grown with ⟨fewer, same⟩ | ⟨msg, number, more, count⟩
  · refine ⟨ok.inOrder.sublist fewer, fun msg member => ?_⟩
    rw [same]
    exact ok.accepted msg (fewer.subset member)
  · constructor
    · rw [InOrder, more, List.pairwise_append]
      refine ⟨ok.inOrder, List.pairwise_singleton _ _, fun first member second last => ?_⟩
      obtain rfl := List.mem_singleton.mp last
      rw [number]
      exact ok.accepted first member
    · intro other member
      rw [more, List.mem_append, List.mem_singleton] at member
      rcases member with old | rfl
      · have := ok.accepted other old
        omega
      · omega

theorem CourseOk.step {link after : Link} {op : LinkOp} (ok : CourseOk link)
    (allowed : link.Appends op) (stepped : link.step op = some after) : CourseOk after := by
  have grown := extends_step (fun first => (ok.unconnected first).1) allowed stepped
  obtain ⟨inOrder, accepted⟩ := inOrder_of_extends ok grown
  exact ⟨inOrder, accepted, unconnected_step ok.unconnected stepped⟩

/-- In a run whose steps all append, the receiver delivers in the order of the enqueue calls. -/
theorem delivered_inOrder {link : Link} (reached : Reach step Appends Initial link) :
    InOrder link.delivered := by
  have ok : CourseOk link :=
    Reach.invariant CourseOk (fun _ initial => courseOk_of_initial initial)
      (fun _ _ _ ok allowed stepped => ok.step allowed stepped) reached
  have front : link.delivered.Sublist link.course := by
    rw [course, List.append_assoc]
    exact List.sublist_append_left _ _
  exact ok.inOrder.sublist front

/-- Put one message into the ring. -/
def putRing : List LinkOp := [.enqueue 8 none, .processTx, .next, .publish, .notify true, .next]

/-- The ring fills up, a message falls back to the socket, and the receiver takes everything. -/
def besideRing : List LinkOp :=
  (List.replicate 255 putRing).flatten ++ [.enqueue 8 none, .processTx, .next, .send true, .next,
    .recv true true] ++ List.replicate 256 (.drain true) ++
    (List.replicate 254 [.recv true true, .drain true]).flatten ++ [.recv true true]

theorem besideRing_inOrder :
    ∃ link, Reach step Appends Initial link ∧ link.delivered.length = 256 ∧
      InOrder link.delivered := by
  have sent : (runGuarded step Appends fresh
      ([.connect true true, .recv true true] ++ besideRing)).map
        (fun link => link.delivered.length) = some 256 := by decide +kernel
  obtain ⟨link, execution, count⟩ := Option.map_eq_some_iff.mp sent
  have reached := reach_of_runGuarded (.start fresh_initial) execution
  exact ⟨link, reached, count, delivered_inOrder reached⟩

/-! ## A message that falls back to the socket is overtaken -/

/-- The first messages of eight bytes. -/
def numbered (count : Nat) : List Msg := (List.range count).map fun number => ⟨number, 8, none⟩

/-- The sender has put that many messages into the ring, and the receiver has not run. -/
def filled (count : Nat) : Link :=
  { fresh with
    connected := true
    shm := true
    accepted := count
    ring := numbered count
    socket := .ctrl .setup :: List.replicate count (.ctrl .notify) }

theorem run_putRing {count : Nat} (room : count < ringLimit) :
    run step (filled count) putRing = some (filled (count + 1)) := by
  simp [putRing, filled, fresh, step, takesRing, room, Msg.fitsSlot, txLimit, numbered,
    List.range_succ, List.replicate_succ']

theorem run_fill {count : Nat} (room : count ≤ ringLimit) :
    run step (filled 0) (List.replicate count putRing).flatten = some (filled count) := by
  induction count with
  | zero => rfl
  | succ count ih =>
      rw [List.replicate_succ', List.flatten_append, run_append (ih (by omega)), List.flatten_singleton]
      exact run_putRing room

theorem run_drain {msgs : List Msg} (small : ∀ msg ∈ msgs, msg.fitsPayload) (link : Link) :
    run step { link with ring := msgs, draining := true }
        (List.replicate (msgs.length + 1) (.drain true)) =
      some { link with ring := [], draining := false, delivered := link.delivered ++ msgs } := by
  induction msgs generalizing link with
  | nil => simp [step]
  | cons msg msgs ih =>
      have rest := ih (fun other member => small other (List.mem_cons_of_mem _ member))
        { link with delivered := link.delivered ++ [msg] }
      have fits : msg.fitsPayload = true := small msg List.mem_cons_self
      rw [List.length_cons, List.replicate_succ, run_cons]
      simpa [step, deliver, fits] using rest

theorem run_stale {count : Nat} {rest : List Packet} {link : Link}
    (packets : link.socket = List.replicate count (.ctrl .notify) ++ rest)
    (empty : link.ring = []) (attached : link.attached = true) (waiting : link.draining = false) :
    run step link (List.replicate count [.recv true true, .drain true]).flatten =
      some { link with socket := rest } := by
  induction count generalizing link with
  | zero =>
      obtain rfl : link.socket = rest := by simpa using packets
      rfl
  | succ count ih =>
      have later := @ih { link with socket := List.replicate count (.ctrl .notify) ++ rest }
        rfl empty attached waiting
      rw [List.replicate_succ, List.cons_append] at packets
      simpa [List.replicate_succ, step, handle, handleCtrl, packets, empty, attached, waiting]
        using later

/-- The ring is empty; a message waits in the socket behind `stale` `NOTIFY` packets. -/
def drained (stale : Nat) : Link :=
  { filled (stale + 1) with
    accepted := stale + 2
    ring := []
    socket := List.replicate stale (.ctrl .notify) ++ [.data ⟨stale + 1, 8, none⟩]
    attached := true
    delivered := numbered (stale + 1) }

/-- The full ring refuses a message, and the receiver starts to empty the ring. -/
theorem run_fallback {stale : Nat} (full : stale + 1 = ringLimit) :
    run step (filled (stale + 1))
        [.enqueue 8 none, .processTx, .next, .send true, .next, .recv true true, .recv true true] =
      some
        { drained stale with
          ring := numbered (stale + 1)
          draining := true
          delivered := [] } := by
  have refused : ¬ stale + 1 < ringLimit := by omega
  simp [filled, drained, fresh, step, takesRing, numbered, refused, txLimit, Msg.packet, handle,
    handleCtrl, List.replicate_succ]

/-- The next message has gone through the ring; the other one still waits. -/
def overtaken (stale : Nat) : Link :=
  { drained (stale + 1) with
    accepted := stale + 4
    socket := List.replicate stale (.ctrl .notify) ++ [.data ⟨stale + 2, 8, none⟩, .ctrl .notify]
    delivered := numbered (stale + 2) ++ [⟨stale + 3, 8, none⟩] }

theorem run_overtake (stale : Nat) :
    run step (drained (stale + 1)) (putRing ++ [.recv true true, .drain true, .drain true]) =
      some (overtaken stale) := by
  simp [putRing, filled, drained, overtaken, fresh, step, takesRing, Msg.fitsSlot, txLimit, handle,
    handleCtrl, List.replicate_succ, ringLimit, deliver, Msg.fitsPayload]

/-- The receiver handles the other `NOTIFY` packets and at last the message. -/
theorem run_late (stale : Nat) :
    run step (overtaken stale)
        ((List.replicate stale [.recv true true, .drain true]).flatten ++ [.recv true true]) =
      some
        { overtaken stale with
          socket := [.ctrl .notify]
          delivered := numbered (stale + 2) ++ [⟨stale + 3, 8, none⟩, ⟨stale + 2, 8, none⟩] } := by
  have handled := run_stale (show (overtaken stale).socket = _ from rfl) rfl rfl rfl
  rw [run_append handled]
  simp [step, overtaken, drained, filled, fresh, handle, deliver, Msg.fitsPayload]

/-- The ring fills up, the next message falls back to the socket behind the `NOTIFY` packets, the
receiver empties the ring at the first of them, and the last message goes into the ring before the
receiver handles the second. -/
theorem fallback_overtaken :
    ∃ link, Reachable step Initial link ∧ ¬ InOrder link.delivered := by
  have small : ∀ msg ∈ numbered 255, msg.fitsPayload := by
    intro msg member
    obtain ⟨number, -, rfl⟩ := List.mem_map.mp member
    rfl
  have connecting : Reachable step Initial (filled 0) :=
    .step (.start fresh_initial) trivial (show step fresh (.connect true true) = _ from rfl)
  have full := reachable_of_run connecting (run_fill (le_refl ringLimit))
  have refused := reachable_of_run full (run_fallback rfl)
  have emptied := reachable_of_run refused (run_drain small { drained 254 with delivered := [] })
  have passed := reachable_of_run emptied (run_overtake 253)
  have late := reachable_of_run passed (run_late 253)
  refine ⟨_, late, ?_⟩
  simp [InOrder, List.pairwise_append]

end Link

end CodexNos.Ipc
