import CodexNos.Components.Handlers

/-!
# What the handlers hold

A reference that a handler has got from an allocation stays with it until it releases the buffer;
sending the buffer and replying with it take references of their own.  Each handler but one gives
back all that it has got, whatever its calls return.
-/

namespace CodexNos.Components

open Lib Memory Messaging

/-! ## Accounting -/

/-- The references of a handler after a call. -/
def hold (held : List BufferId) : Event → List BufferId
  | ⟨.bufferAlloc _ _, answer⟩ => Option.toList answer ++ held
  | ⟨.bufferRelease buf, _⟩ => held.erase buf
  | _ => held

/-- The references of a handler after its calls. -/
def heldAfter (events : List Event) : List BufferId := events.foldl hold []

/-- The buffers of a handler that it has not handed to anyone, after a call. -/
def keep (fresh : List BufferId) : Event → List BufferId
  | ⟨.bufferAlloc _ _, answer⟩ => Option.toList answer ++ fresh
  | ⟨.bufferRelease buf, _⟩ | ⟨.serviceMsgSend buf, _⟩ | ⟨.serviceReply _ buf, _⟩ => fresh.erase buf
  | _ => fresh

/-- The buffers of a handler that it has not handed to anyone, after its calls. -/
def freshAfter (events : List Event) : List BufferId := events.foldl keep []

/-- A handler may send what nobody else has got, and release what it holds. -/
def Allowed (past : List Event) : Call → Prop
  | .serviceMsgSend buf | .serviceReply _ buf => buf ∈ freshAfter past
  | .bufferRelease buf => buf ∈ heldAfter past
  | _ => True

@[simp]
theorem heldAfter_nil : heldAfter [] = [] := rfl

@[simp]
theorem freshAfter_nil : freshAfter [] = [] := rfl

@[simp]
theorem heldAfter_append (past events : List Event) :
    heldAfter (past ++ events) = events.foldl hold (heldAfter past) := List.foldl_append

@[simp]
theorem freshAfter_append (past events : List Event) :
    freshAfter (past ++ events) = events.foldl keep (freshAfter past) := List.foldl_append

theorem heldAfter_snoc (past : List Event) (event : Event) :
    heldAfter (past ++ [event]) = hold (heldAfter past) event := heldAfter_append past [event]

theorem freshAfter_snoc (past : List Event) (event : Event) :
    freshAfter (past ++ [event]) = keep (freshAfter past) event := freshAfter_append past [event]

theorem count_erase_le_count_erase {left right : List BufferId} {id : BufferId}
    (fewer : left.count id ≤ right.count id) (buf : BufferId) :
    (left.erase buf).count id ≤ (right.erase buf).count id := by
  rw [List.count_erase, List.count_erase]
  exact Nat.sub_le_sub_right fewer _

/-! ## Handlers that give back what they get -/

/-- A program that starts and ends without references. -/
def Neutral {α : Type} (program : Handler α) : Prop :=
  ∀ past, heldAfter past = [] →
    Calls.Meets Allowed (fun past _ => heldAfter past = []) past program

/-- A program that neither gets nor hands over a buffer. -/
def Inert {α : Type} (program : Handler α) : Prop :=
  ∀ past, Calls.Meets Allowed
    (fun later _ => heldAfter later = heldAfter past ∧ freshAfter later = freshAfter past) past
    program

/-- A program that hands a buffer to someone and keeps its reference. -/
def Hands {α : Type} (buf : BufferId) (program : Handler α) : Prop :=
  ∀ past, buf ∈ freshAfter past →
    Calls.Meets Allowed (fun later _ => heldAfter later = heldAfter past) past program

section Rules

variable {α β : Type} {first program other : Handler α} {second : α → Handler β}

theorem Inert.neutral (inert : Inert program) : Neutral program :=
  fun past nothing => (inert past).weaken fun _ _ same => same.1.trans nothing

theorem neutral_pure (result : α) : Neutral (pure result) := fun _ nothing => nothing

theorem Neutral.bind (neutral : Neutral first) (later : ∀ result, Neutral (second result)) :
    Neutral (first >>= second) := by
  intro past nothing
  rw [Calls.meets_bind]
  exact (neutral past nothing).weaken fun past result nothing => later result past nothing

theorem Neutral.map (neutral : Neutral program) (convert : α → β) :
    Neutral (convert <$> program) :=
  neutral.bind fun result => neutral_pure (convert result)

theorem Neutral.ite {condition : Prop} {_ : Decidable condition} (neutral : Neutral program)
    (neutral' : Neutral other) : Neutral (if condition then program else other) := by
  split
  · exact neutral
  · exact neutral'

theorem inert_pure (result : α) : Inert (pure result) := fun _ => ⟨rfl, rfl⟩

theorem Inert.ite {condition : Prop} {_ : Decidable condition} (inert : Inert program)
    (inert' : Inert other) : Inert (if condition then program else other) := by
  split
  · exact inert
  · exact inert'

theorem Inert.bind (inert : Inert first) (later : ∀ result, Inert (second result)) :
    Inert (first >>= second) := by
  intro past
  rw [Calls.meets_bind]
  refine (inert past).weaken fun between result same => ?_
  refine (later result between).weaken fun after _ same' => ?_
  exact ⟨same'.1.trans same.1, same'.2.trans same.2⟩

theorem Inert.forM {γ : Type} (items : List γ) {visit : γ → Handler Unit}
    (inert : ∀ item, Inert (visit item)) : Inert (items.forM visit) := by
  induction items with
  | nil => exact inert_pure ()
  | cons item items ih => exact (inert item).bind fun _ => ih

end Rules

/-! ## Calls -/

/-- A call that neither gets nor hands over a buffer. -/
def Call.plain : Call → Bool
  | .bufferAlloc _ _ | .bufferRelease _ | .serviceMsgSend _ | .serviceReply _ _ => false
  | _ => true

theorem allowed_of_plain {input : Call} (plain : input.plain) (past : List Event) :
    Allowed past input := by
  cases input with
  | bufferRelease _ => simp [Call.plain] at plain
  | serviceMsgSend _ => simp [Call.plain] at plain
  | serviceReply _ _ => simp [Call.plain] at plain
  | _ => trivial

theorem plain_call {input : Call} (plain : input.plain) (answer : Answer input) (past : List Event) :
    heldAfter (past ++ [⟨input, answer⟩]) = heldAfter past ∧
      freshAfter (past ++ [⟨input, answer⟩]) = freshAfter past := by
  rw [heldAfter_snoc, freshAfter_snoc]
  cases input with
  | bufferAlloc _ _ => simp [Call.plain] at plain
  | bufferRelease _ => simp [Call.plain] at plain
  | serviceMsgSend _ => simp [Call.plain] at plain
  | serviceReply _ _ => simp [Call.plain] at plain
  | _ => exact ⟨rfl, rfl⟩

theorem Inert.call {α : Type} {input : Call} (plain : input.plain) {next : Answer input → Handler α}
    (later : ∀ answer, Inert (next answer)) : Inert (.call input next) := by
  intro past
  refine ⟨allowed_of_plain plain past, fun answer => ?_⟩
  obtain ⟨held, fresh⟩ := plain_call plain answer past
  refine (later answer _).weaken fun after _ same => ?_
  exact ⟨same.1.trans held, same.2.trans fresh⟩

theorem inert_envelope (buf : BufferId) : Inert (envelope buf) := .call rfl inert_pure

theorem inert_payloadWord (buf : BufferId) (index : Nat) : Inert (payloadWord buf index) :=
  .call rfl inert_pure

theorem inert_putWord (buf : BufferId) (index : Nat) (word : UInt32) :
    Inert (putWord buf index word) :=
  .call rfl inert_pure

theorem inert_memset (buf : BufferId) (value : UInt8) (len : UInt32) :
    Inert (memset buf value len) :=
  .call rfl inert_pure

theorem inert_memcpy (buf source : BufferId) (len : UInt32) : Inert (memcpy buf source len) :=
  .call rfl inert_pure

theorem inert_wordOr (buf : BufferId) (msg : Header) (least : UInt32) (index : Nat)
    (default : UInt32) : Inert (wordOr buf msg least index default) :=
  .ite (inert_payloadWord buf index) (inert_pure default)

theorem inert_getReplyCtx (buf : BufferId) : Inert (getReplyCtx buf) := .call rfl inert_pure

theorem inert_kvPut (table : Nat) (key : KvKey) (value : Int32) : Inert (kvPut table key value) :=
  .call rfl inert_pure

theorem inert_logLines (count : Nat) : Inert (logLines count) := by
  induction count with
  | zero => exact inert_pure ()
  | succ count ih => exact .call rfl fun _ => ih

theorem inert_assign (buf : BufferId) (fields : Header → Header) : Inert (assign buf fields) :=
  .call rfl inert_pure

theorem neutral_nullAccess {α : Type} : Neutral (nullAccess : Handler α) :=
  fun _ _ => ⟨trivial, fun never => Empty.elim never⟩

theorem hands_serviceMsgSend (buf : BufferId) : Hands buf (serviceMsgSend buf) :=
  fun past fresh => ⟨fresh, fun _ => heldAfter_snoc past _⟩

theorem hands_serviceReply (ctx : Option Nat) (buf : BufferId) : Hands buf (serviceReply ctx buf) :=
  fun past fresh => ⟨fresh, fun _ => heldAfter_snoc past _⟩

theorem meets_bufferRelease {past : List Event} {buf : BufferId} (held : heldAfter past = [buf]) :
    Calls.Meets Allowed (fun later _ => heldAfter later = []) past (bufferRelease buf) := by
  refine ⟨?_, fun answer => ?_⟩
  · change buf ∈ heldAfter past
    simp [held]
  · change heldAfter (past ++ [⟨.bufferRelease buf, answer⟩]) = []
    rw [heldAfter_snoc, held]
    simp [hold]

/-- A message that is handed over and released leaves nothing behind. -/
theorem neutral_sendMessage {size : UInt32} {fields : Header → Header}
    {payload : BufferId → Handler Unit} {hand : BufferId → Handler Status}
    (inert : ∀ buf, Inert (payload buf)) (hands : ∀ buf, Hands buf (hand buf)) :
    Neutral (sendMessage size fields payload hand) := by
  intro past nothing
  rw [sendMessage, Calls.meets_bind]
  refine ⟨trivial, fun answer => ?_⟩
  cases answer with
  | none => exact (heldAfter_snoc past _).trans nothing
  | some buf =>
      have held : heldAfter (past ++ [⟨.bufferAlloc size 0, some buf⟩]) = [buf] := by
        rw [heldAfter_snoc, nothing]
        rfl
      have fresh : buf ∈ freshAfter (past ++ [⟨.bufferAlloc size 0, some buf⟩]) := by
        rw [freshAfter_snoc]
        exact List.mem_cons_self
      change Calls.Meets Allowed _ _ (assign buf fields >>= fun _ => payload buf >>= fun _ =>
        hand buf >>= fun _ => bufferRelease buf)
      rw [Calls.meets_bind]
      refine ((inert_assign buf fields) _).weaken fun assigned _ same => ?_
      rw [Calls.meets_bind]
      refine (inert buf assigned).weaken fun filled _ same' => ?_
      rw [Calls.meets_bind]
      have fresh : buf ∈ freshAfter filled := by rwa [same'.2, same.2]
      refine (hands buf filled fresh).weaken fun handed _ kept => ?_
      have held : heldAfter handed = [buf] := by rw [kept, same'.1, same.1, held]
      exact meets_bufferRelease held

/-! ## The handlers -/

namespace Model1

theorem neutral_heartbeatCallback (ids : ServiceIds) (self : Self) :
    Neutral (heartbeatCallback ids self) :=
  (inert_logLines 1).neutral.bind fun _ =>
    neutral_sendMessage (fun _ => inert_pure ()) hands_serviceMsgSend

theorem neutral_compOnMsg (ids : ServiceIds) (self : Self) (buf : BufferId) :
    Neutral (compOnMsg ids self buf) := by
  refine (inert_envelope buf).neutral.bind fun msg => (inert_logLines 1).neutral.bind fun _ => ?_
  refine .ite ((inert_logLines 1).neutral.bind fun _ => ?_) (neutral_pure ())
  exact neutral_sendMessage (fun _ => inert_pure ()) hands_serviceMsgSend

end Model1

namespace Model2

theorem inert_putInto (table : Option Nat) (key : KvKey) (value : Int32) :
    Inert (putInto table key value) := by
  cases table with
  | none => exact inert_pure ()
  | some table => exact (inert_kvPut table key value).bind fun _ => inert_pure ()

theorem neutral_compOnMsg (self : Self) (ctx : Option Ctx) : Neutral (compOnMsg self ctx) := by
  cases ctx with
  | none => exact neutral_pure none
  | some ctx =>
      apply Inert.neutral
      refine (inert_putInto _ _ _).bind fun _ => (inert_putInto _ _ _).bind fun _ => ?_
      exact (inert_logLines 1).bind fun _ => inert_pure _

end Model2

namespace Model3

theorem neutral_compOnMsg (buf : BufferId) : Neutral (compOnMsg buf) := by
  refine (inert_envelope buf).neutral.bind fun msg => Inert.neutral ?_
  refine .ite ?_ (inert_pure ())
  refine (inert_wordOr buf msg 4 0 2000).bind fun count => (inert_logLines 1).bind fun _ =>
    (inert_logLines count.toNat).bind fun _ => ?_
  exact inert_logLines 1

end Model3

namespace Ping

theorem neutral_sendPing (self : Self) : Neutral (sendPing self) :=
  neutral_sendMessage (fun _ => inert_pure ()) hands_serviceMsgSend

theorem neutral_startTest (self : Self) (buf : BufferId) (msg : Header) (ctx : Option Ctx) :
    Neutral (startTest self buf msg ctx) := by
  cases ctx with
  | none => exact neutral_nullAccess
  | some ctx =>
      refine (inert_wordOr buf msg 4 0 100000).neutral.bind fun _ => ?_
      refine (inert_logLines 1).neutral.bind fun _ => (neutral_sendPing self).bind fun _ => ?_
      exact neutral_pure _

theorem neutral_pong (self : Self) (ctx : Option Ctx) : Neutral (pong self ctx) := by
  cases ctx with
  | none => exact neutral_nullAccess
  | some ctx =>
      exact Neutral.bind (.ite (neutral_sendPing self) (inert_logLines 3).neutral)
        fun _ => neutral_pure _

theorem neutral_compOnMsg (self : Self) (buf : BufferId) (ctx : Option Ctx) :
    Neutral (compOnMsg self buf ctx) := by
  refine (inert_envelope buf).neutral.bind fun msg => ?_
  exact .ite (neutral_startTest self buf msg ctx) (.ite (neutral_pong self ctx) (neutral_pure ctx))

end Ping

theorem Pong.neutral_compOnMsg (self : Self) (reqBuf : BufferId) :
    Neutral (Pong.compOnMsg self reqBuf) := by
  refine (inert_envelope reqBuf).neutral.bind fun msg => .ite ?_ (neutral_pure ())
  exact neutral_sendMessage (fun _ => inert_pure ()) hands_serviceMsgSend

namespace RemotePing

theorem neutral_sendPing (self : Self) (ctx : Option Ctx) : Neutral (sendPing self ctx) :=
  neutral_sendMessage (fun buf => .ite (inert_memset buf 0xA5 _) (inert_pure ()))
    hands_serviceMsgSend

theorem neutral_startOneTest (self : Self) (ctx : Ctx) (payloadSize : UInt32) :
    Neutral (startOneTest self ctx payloadSize) :=
  (inert_logLines 1).neutral.bind fun _ => (neutral_sendPing self _).bind fun _ => neutral_pure _

theorem neutral_startTest (self : Self) (buf : BufferId) (msg : Header) (ctx : Option Ctx) :
    Neutral (startTest self buf msg ctx) := by
  cases ctx with
  | none => exact neutral_nullAccess
  | some ctx =>
      refine (inert_wordOr buf msg 4 0 100000).neutral.bind fun _ => ?_
      refine (inert_wordOr buf msg 8 1 0).neutral.bind fun _ => ?_
      refine .ite ?_ ((neutral_startOneTest self _ _).map some)
      exact (inert_logLines 1).neutral.bind fun _ => (neutral_startOneTest self _ _).map some

theorem neutral_finishTest (self : Self) (ctx : Ctx) : Neutral (finishTest self ctx) :=
  (inert_logLines 5).neutral.bind fun _ => .ite (neutral_startOneTest self _ _) (neutral_pure _)

theorem neutral_pong (self : Self) (ctx : Option Ctx) : Neutral (pong self ctx) := by
  cases ctx with
  | none => exact neutral_nullAccess
  | some ctx =>
      refine (Inert.neutral (.ite (inert_logLines 1) (inert_pure ()))).bind fun _ => .ite ?_ ?_
      · exact (neutral_sendPing self _).bind fun _ => neutral_pure _
      · exact (neutral_finishTest self _).map some

theorem neutral_compOnMsg (self : Self) (buf : BufferId) (ctx : Option Ctx) :
    Neutral (compOnMsg self buf ctx) := by
  refine (inert_envelope buf).neutral.bind fun msg => ?_
  exact .ite (neutral_startTest self buf msg ctx) (.ite (neutral_pong self ctx) (neutral_pure ctx))

end RemotePing

theorem RemotePong.hands_reply (reqBuf buf : BufferId) :
    Hands buf (getReplyCtx reqBuf >>= fun ctx => serviceReply ctx buf) := by
  intro past fresh
  rw [Calls.meets_bind]
  refine (inert_getReplyCtx reqBuf past).weaken fun later ctx same => ?_
  refine (hands_serviceReply ctx buf later ?_).weaken fun _ _ kept => kept.trans same.1
  rwa [same.2]

theorem RemotePong.neutral_compOnMsg (self : Self) (reqBuf : BufferId) :
    Neutral (RemotePong.compOnMsg self reqBuf) := by
  refine (inert_envelope reqBuf).neutral.bind fun msg => .ite ?_ (neutral_pure ())
  exact neutral_sendMessage (fun buf => .ite (inert_memcpy buf reqBuf _) (inert_pure ()))
    (RemotePong.hands_reply reqBuf)

theorem Cli.neutral_request (service msgCode : UInt32) (words : List UInt32) :
    Neutral (Cli.request service msgCode words) := by
  refine neutral_sendMessage (fun buf => ?_) hands_serviceMsgSend
  exact Inert.forM _ fun word => inert_putWord buf word.2 word.1

/-! ## The handler that keeps a reference -/

/-- The code of the message that a call has read. -/
def codeOf : Event → Option UInt32
  | ⟨.envelope _, msg⟩ => some (Header.msgCode msg)
  | _ => none

/-- The buffer that a call has got. -/
def bufferOf : Event → List BufferId
  | ⟨.bufferAlloc _ _, answer⟩ => Option.toList answer
  | _ => []

/-- A handler was asked by a message with code 1001. -/
def asked (events : List Event) : Bool := events.any fun event => codeOf event = some 1001

/-- A handler has got a buffer. -/
def served (events : List Event) : Bool := events.any fun event => bufferOf event ≠ []

/-- `on_msg` of the fourth component was asked and has got a buffer for the reply. -/
def Entry.Leaks : Entry → List Event → Prop
  | .message _ _ _ (.model4 _), events => asked events ∧ served events
  | _, _ => False

instance (entry : Entry) (events : List Event) : Decidable (entry.Leaks events) := by
  unfold Entry.Leaks
  split <;> infer_instance

@[simp]
theorem asked_append (past events : List Event) :
    asked (past ++ events) = (asked past || asked events) := List.any_append

@[simp]
theorem asked_cons (event : Event) (events : List Event) :
    asked (event :: events) = (decide (codeOf event = some 1001) || asked events) := rfl

@[simp]
theorem asked_nil : asked [] = false := rfl

@[simp]
theorem served_append (past events : List Event) :
    served (past ++ events) = (served past || served events) := List.any_append

@[simp]
theorem served_cons (event : Event) (events : List Event) :
    served (event :: events) = (decide (bufferOf event ≠ []) || served events) := rfl

@[simp]
theorem served_nil : served [] = false := rfl

section Single

variable {past : List Event}

theorem meets_envelope {returned : List Event → Header → Prop} (buf : BufferId) :
    Calls.Meets Allowed returned past (envelope buf) ↔
      ∀ msg, returned (past ++ [⟨.envelope buf, msg⟩]) msg :=
  ⟨fun meets => meets.2, fun meets => ⟨trivial, meets⟩⟩

theorem meets_logLine {returned : List Event → Unit → Prop} :
    Calls.Meets Allowed returned past (logLines 1) ↔ returned (past ++ [⟨.log, ()⟩]) () := by
  constructor
  · intro meets
    exact meets.2 ()
  · intro meets
    exact ⟨trivial, fun _ => meets⟩

theorem meets_bufferAlloc {returned : List Event → Option BufferId → Prop} (size headroom : UInt32) :
    Calls.Meets Allowed returned past (bufferAlloc size headroom) ↔
      ∀ answer, returned (past ++ [⟨.bufferAlloc size headroom, answer⟩]) answer :=
  ⟨fun meets => meets.2, fun meets => ⟨trivial, meets⟩⟩

theorem meets_assign {returned : List Event → Unit → Prop} (buf : BufferId)
    (fields : Header → Header) :
    Calls.Meets Allowed returned past (assign buf fields) ↔
      returned (past ++ [⟨.assign buf fields, ()⟩]) () := by
  constructor
  · intro meets
    exact meets.2 ()
  · intro meets
    exact ⟨trivial, fun _ => meets⟩

theorem meets_serviceMsgSend {returned : List Event → Status → Prop} (buf : BufferId) :
    Calls.Meets Allowed returned past (serviceMsgSend buf) ↔
      buf ∈ freshAfter past ∧ ∀ answer, returned (past ++ [⟨.serviceMsgSend buf, answer⟩]) answer :=
  Iff.rfl

end Single

theorem Model4.meets_autoReply (ids : ServiceIds) (self : Self) (msg : Header) {past : List Event}
    (nothing : heldAfter past = []) (unserved : served past = false)
    (code : asked past = decide (msg.msgCode = 1001)) :
    Calls.Meets Allowed (fun events _ => heldAfter events = [] ↔ ¬ (asked events ∧ served events))
      past (autoReply ids self msg) := by
  unfold autoReply
  split
  · rename_i request
    simp only [Calls.meets_bind, meets_logLine, meets_bufferAlloc, List.append_assoc]
    intro answer
    cases answer with
    | none =>
        rw [Calls.meets_pure]
        simp [nothing, hold, bufferOf, unserved]
    | some buf =>
        simp only [Calls.meets_bind, meets_assign, meets_serviceMsgSend, Calls.meets_pure]
        refine ⟨?_, fun status => ?_⟩
        · simp [keep]
        · simp [hold, bufferOf, code, request]
  · rw [Calls.meets_pure]
    simp [nothing, unserved]

/-- `on_msg` in `model_4.c` gives everything back unless it was asked and has got a buffer. -/
theorem Model4.meets_compOnMsg (ids : ServiceIds) (self : Self) (buf : BufferId) (ctx : Option Ctx) :
    Calls.Meets Allowed (fun events _ => heldAfter events = [] ↔ ¬ (asked events ∧ served events))
      [] (compOnMsg ids self buf ctx) := by
  cases ctx with
  | none => exact ⟨trivial, fun never => Empty.elim never⟩
  | some ctx =>
      simp only [compOnMsg, Calls.meets_bind, meets_envelope, meets_logLine, Calls.meets_pure]
      intro msg
      exact meets_autoReply ids self msg rfl rfl (by simp [codeOf])

/-- An entry point returns with no references exactly if it does not leak. -/
theorem meets_program (ids : ServiceIds) (entry : Entry) :
    Calls.Meets Allowed (fun events _ => heldAfter events = [] ↔ ¬ entry.Leaks events) []
      (entry.program ids) := by
  have neutral {program : Handler (Option Shipped)} (balanced : Neutral program)
      (harmless : ∀ events, ¬ entry.Leaks events) :
      Calls.Meets Allowed (fun events _ => heldAfter events = [] ↔ ¬ entry.Leaks events) []
        program :=
    (balanced [] rfl).weaken fun events _ nothing => iff_of_true nothing (harmless events)
  cases entry with
  | message comp self buf shipped =>
      cases shipped with
      | model1 => exact neutral (((Model1.neutral_compOnMsg _ _ _).map _).map _) fun _ => id
      | model2 ctx => exact neutral (((Model2.neutral_compOnMsg _ _).map _).map _) fun _ => id
      | model3 => exact neutral (((Model3.neutral_compOnMsg _).map _).map _) fun _ => id
      | model4 ctx =>
          refine (Calls.meets_map _ _).mpr ((Calls.meets_map _ _).mpr ?_)
          exact Model4.meets_compOnMsg ids self buf ctx
      | ping ctx => exact neutral (((Ping.neutral_compOnMsg _ _ _).map _).map _) fun _ => id
      | pong => exact neutral (((Pong.neutral_compOnMsg _ _).map _).map _) fun _ => id
      | remotePing ctx =>
          exact neutral (((RemotePing.neutral_compOnMsg _ _ _).map _).map _) fun _ => id
      | remotePong => exact neutral (((RemotePong.neutral_compOnMsg _ _).map _).map _) fun _ => id
  | heartbeat self => exact neutral ((Model1.neutral_heartbeatCallback _ _).map _) fun _ => id
  | command command =>
      cases command with
      | logSpam count => exact neutral ((Cli.neutral_request _ _ _).map _) fun _ => id
      | perfStart count => exact neutral ((Cli.neutral_request _ _ _).map _) fun _ => id
      | perfRemoteStart count payloadSize sweep =>
          exact neutral ((Cli.neutral_request _ _ _).map _) fun _ => id

end CodexNos.Components
