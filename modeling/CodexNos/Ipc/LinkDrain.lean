import CodexNos.Ipc.Link

/-!
# Messages left in the ring

A ring with messages in it must have a wakeup on its way: the receiver is emptying it, a `NOTIFY`
that will find the receiver attached is in the socket, or the sender is about to send one.  The
sender takes no notice of a `NOTIFY` that does not fit into the socket or of a receiver that could
not attach, so a wakeup can be lost and its messages stay.
-/

namespace CodexNos.Ipc

open Lib.Transition

namespace Link

/-! ## Wakeups in the socket -/

theorem wakes_append {attached : Bool} {socket : List Packet} (woken : wakes attached socket = true)
    (packets : List Packet) : wakes attached (socket ++ packets) = true := by
  induction socket generalizing attached with
  | nil => simp [wakes] at woken
  | cons packet rest ih =>
      cases packet with
      | data msg => simpa [wakes] using ih (by simpa [wakes] using woken)
      | ctrl code =>
          cases code with
          | setup => simpa [wakes] using ih (by simpa [wakes] using woken)
          | other => simpa [wakes] using ih (by simpa [wakes] using woken)
          | notify =>
              cases attached with
              | true => simp [wakes]
              | false => simpa [wakes] using ih (by simpa [wakes] using woken)

/-- A `NOTIFY` behind everything else wakes the receiver if it is attached by then. -/
theorem wakes_concat_notify {attached : Bool} {socket : List Packet}
    (living : alive attached socket = true) :
    wakes attached (socket ++ [.ctrl .notify]) = true := by
  induction socket generalizing attached with
  | nil =>
      obtain rfl : attached = true := by simpa [alive] using living
      rfl
  | cons packet rest ih =>
      cases packet with
      | data msg => simpa [wakes] using ih (by simpa [alive] using living)
      | ctrl code =>
          cases code with
          | setup => simpa [wakes] using ih (by simp [alive])
          | other => simpa [wakes] using ih (by simpa [alive] using living)
          | notify =>
              cases attached with
              | true => simp [wakes]
              | false => simpa [wakes] using ih (by simpa [alive] using living)

/-! ## No wakeup is lost -/

/-- A ring with messages has a wakeup on its way. -/
def Woken (link : Link) : Prop :=
  link.ring = [] ∨ link.draining = true ∨ wakes link.attached link.socket = true ∨
    (link.sender = .notifying ∧ alive link.attached link.socket = true)

/-- The step loses no wakeup that the ring needs.
* A message goes into the ring only when the receiver is attached or has a `SETUP` to come.
* A `NOTIFY` fails to be sent only when another wakeup is on its way.
* A control packet fails to have its effect only when another wakeup is on its way. -/
def KeepsWakeup (link : Link) : LinkOp → Prop
  | .publish => alive link.attached link.socket = true
  | .notify false =>
      link.ring = [] ∨ link.draining = true ∨ wakes link.attached link.socket = true
  | .recv buffer opened =>
      match link.socket with
      | .ctrl code :: rest =>
          (buffer && (code != .setup || opened)) ∨ link.ring = [] ∨
            wakes link.attached rest = true ∨
            (link.sender = .notifying ∧ alive link.attached rest = true)
      | _ => True
  | _ => True

instance (link : Link) : (op : LinkOp) → Decidable (link.KeepsWakeup op)
  | .publish => inferInstanceAs (Decidable (_ = true))
  | .notify false => inferInstanceAs (Decidable (_ = [] ∨ _ = true ∨ _ = true))
  | .recv _ _ => by
      dsimp only [KeepsWakeup]
      match link.socket with
      | .ctrl _ :: _ => infer_instance
      | .data _ :: _ | [] => exact isTrue trivial
  | .connect .. | .enqueue .. | .processTx | .next | .notify true | .send _ | .drain _ =>
      isTrue trivial

theorem Woken.append {link after : Link} (woken : link.Woken)
    (more : link.socket <+: after.socket) (ring_eq : after.ring = link.ring)
    (draining_eq : after.draining = link.draining) (attached_eq : after.attached = link.attached)
    (notifies : link.sender = .notifying → after.sender = .notifying) : after.Woken := by
  obtain ⟨packets, socket_eq⟩ := more
  rcases woken with empty | draining | wakeup | ⟨notifying, living⟩
  · exact Or.inl (ring_eq.trans empty)
  · exact Or.inr (Or.inl (draining_eq.trans draining))
  · refine Or.inr (Or.inr (Or.inl ?_))
    rw [attached_eq, ← socket_eq]
    exact wakes_append wakeup packets
  · refine Or.inr (Or.inr (Or.inr ⟨notifies notifying, ?_⟩))
    rw [attached_eq, ← socket_eq, alive_append, living, Bool.true_or]

theorem Woken.publish {link after : Link} (allowed : link.KeepsWakeup .publish)
    (stepped : link.step .publish = some after) : after.Woken := by
  simp only [step] at stepped
  split at stepped
  · obtain rfl := Option.some.inj stepped
    exact Or.inr (Or.inr (Or.inr ⟨rfl, allowed⟩))
  · simp at stepped

theorem Woken.notify {link after : Link} {sent : Bool} (woken : link.Woken)
    (allowed : link.KeepsWakeup (.notify sent)) (stepped : link.step (.notify sent) = some after) :
    after.Woken := by
  simp only [step] at stepped
  split at stepped
  · obtain rfl := Option.some.inj stepped
    cases sent with
    | true =>
        rcases woken with empty | draining | wakeup | ⟨-, living⟩
        · exact Or.inl empty
        · exact Or.inr (Or.inl draining)
        · exact Or.inr (Or.inr (Or.inl (wakes_append wakeup _)))
        · exact Or.inr (Or.inr (Or.inl (wakes_concat_notify living)))
    | false =>
        rcases allowed with empty | draining | wakeup
        · exact Or.inl empty
        · exact Or.inr (Or.inl draining)
        · exact Or.inr (Or.inr (Or.inl (wakes_append wakeup _)))
  · simp at stepped

theorem woken_deliver {link : Link} {msg : Msg} {buffer : Bool} :
    (link.deliver msg buffer).Woken ↔ link.Woken := by
  unfold deliver
  split <;> rfl

/-- A control packet that has its effect passes the wakeup on. -/
theorem Woken.handleCtrl {link : Link} {code : Ctrl} {rest : List Packet} (woken : link.Woken)
    (waiting : link.draining = false) (arrived : link.socket = .ctrl code :: rest) {opened : Bool}
    (effective : code ≠ .setup ∨ opened = true) :
    (Link.handleCtrl { link with socket := rest } code opened).Woken := by
  simp only [Woken, waiting, arrived, Bool.false_eq_true, false_or] at woken
  cases code with
  | setup =>
      obtain rfl : opened = true := by simpa using effective
      rcases woken with empty | wakeup | ⟨notifying, -⟩
      · exact Or.inl empty
      · exact Or.inr (Or.inr (Or.inl (by simpa [Link.handleCtrl, wakes] using wakeup)))
      · exact Or.inr (Or.inr (Or.inr ⟨notifying, by simp [Link.handleCtrl, alive]⟩))
  | notify =>
      cases attached : link.attached with
      | true => exact Or.inr (Or.inl rfl)
      | false => simpa [Woken, Link.handleCtrl, wakes, alive, attached] using woken
  | other => simpa [Woken, Link.handleCtrl, wakes, alive, waiting] using woken

theorem Woken.recv {link after : Link} {buffer opened : Bool} (woken : link.Woken)
    (allowed : link.KeepsWakeup (.recv buffer opened))
    (stepped : link.step (.recv buffer opened) = some after) : after.Woken := by
  simp only [step] at stepped
  split at stepped
  · rename_i packet rest waiting arrived
    obtain rfl := Option.some.inj stepped
    cases packet with
    | data msg =>
        rw [Link.handle, woken_deliver]
        simpa [Woken, waiting, arrived, wakes, alive] using woken
    | ctrl code =>
        simp only [KeepsWakeup, arrived] at allowed
        cases effective : buffer && (code != .setup || opened) with
        | true =>
            obtain ⟨rfl, acts⟩ : buffer = true ∧ (code ≠ .setup ∨ opened = true) := by
              simpa using effective
            exact woken.handleCtrl waiting arrived acts
        | false =>
            rw [handle_without_effect effective]
            simpa [Woken, effective, waiting] using allowed
  · simp at stepped

theorem Woken.drain {link after : Link} {buffer : Bool}
    (stepped : link.step (.drain buffer) = some after) : after.Woken := by
  simp only [step] at stepped
  split at stepped
  · rename_i draining empty
    obtain rfl := Option.some.inj stepped
    exact Or.inl empty
  · rename_i msg rest draining full
    obtain rfl := Option.some.inj stepped
    rw [woken_deliver]
    exact Or.inr (Or.inl draining)
  · simp at stepped

theorem Woken.step {link after : Link} {op : LinkOp} (woken : link.Woken)
    (allowed : link.KeepsWakeup op) (stepped : link.step op = some after) : after.Woken := by
  cases sending : plain op with
  | true =>
      obtain ⟨more, ring_eq, draining_eq, attached_eq, notifies⟩ := plain_step sending stepped
      exact woken.append more ring_eq draining_eq attached_eq notifies
  | false =>
      cases op with
      | publish => exact Woken.publish allowed stepped
      | notify sent => exact woken.notify allowed stepped
      | recv buffer opened => exact woken.recv allowed stepped
      | drain buffer => exact Woken.drain stepped
      | connect created sent => simp [plain] at sending
      | enqueue payloadLen ctrl => simp [plain] at sending
      | processTx => simp [plain] at sending
      | next => simp [plain] at sending
      | send sent => simp [plain] at sending

/-! ## Nothing stays in the ring -/

/-- The transmit queue and the socket are empty and neither side is in the middle of anything. -/
def Quiescent (link : Link) : Prop :=
  link.txQueue = [] ∧ link.sender = .idle ∧ link.draining = false ∧ link.socket = []

instance (link : Link) : Decidable link.Quiescent := by
  unfold Quiescent
  infer_instance

/-- In a run that loses no wakeup the ring of every quiescent state is empty. -/
theorem ring_empty_of_quiescent {link : Link} (reached : Reach step KeepsWakeup Initial link)
    (quiescent : link.Quiescent) : link.ring = [] := by
  have woken : link.Woken :=
    Reach.invariant Woken (fun _ initial => Or.inl initial.2.2.2.2.2.1)
      (fun _ _ _ woken allowed stepped => woken.step allowed stepped) reached
  obtain ⟨-, idle, waiting, silent⟩ := quiescent
  simpa [Woken, idle, waiting, silent, wakes] using woken

/-- Steps that send one message through the ring, the receiver's left out. -/
def sendOne : List LinkOp :=
  [.connect true true, .enqueue 8 none, .processTx, .next, .publish, .notify true, .next]

/-- The receiver attaches and empties the ring. -/
theorem sendOne_leaves_ring_empty :
    ∃ link, Reach step KeepsWakeup Initial link ∧ link.Quiescent ∧ link.delivered.length = 1 ∧
      link.ring = [] := by
  have ends : (runGuarded step KeepsWakeup fresh
      (sendOne ++ [.recv true true, .recv true true, .drain true, .drain true])).map
        (fun link => decide (link.Quiescent ∧ link.delivered.length = 1)) = some true := by
    decide +kernel
  obtain ⟨link, execution, holds⟩ := Option.map_eq_some_iff.mp ends
  obtain ⟨quiescent, count⟩ := of_decide_eq_true holds
  have reached := reach_of_runGuarded (.start fresh_initial) execution
  exact ⟨link, reached, quiescent, count, ring_empty_of_quiescent reached quiescent⟩

/-- The receiver cannot open the ring: it ignores the `NOTIFY`, and the message stays. -/
theorem unopened_ring_strands_message :
    ∃ link, Reachable step Initial link ∧ link.Quiescent ∧ link.ring ≠ [] := by
  have ends : (run step fresh (sendOne ++ [.recv true false, .recv true true])).map
      (fun link => decide (link.Quiescent ∧ link.ring ≠ [])) = some true := by decide +kernel
  obtain ⟨link, execution, holds⟩ := Option.map_eq_some_iff.mp ends
  exact ⟨link, reachable_of_run (.start fresh_initial) execution, of_decide_eq_true holds⟩

end Link

end CodexNos.Ipc
