import CodexNos.Components.RemotePerf

/-!
# Components without prompts

Any number of components of any nodes handle each other's messages.  Messages arrive in any order, at
any component, and may be lost.  A handler hands over at most one message, and the message that it
hands over counts for less than the one that it was called with: so only heartbeats and commands
bring further messages, and without them every run of the components comes to an end.
-/

namespace CodexNos.Components

open Lib Memory Messaging

/-- The components of all nodes and the messages between them. -/
structure Network where
  /-- The components with their private data. -/
  comps : List (Self × Shipped)
  /-- The messages under way. -/
  flying : List Parcel

/-- What happens without a prompt. -/
inductive Move
  /-- A message arrives at a component. -/
  | deliver (index comp : Nat) (context : Option (UInt32 × UInt32)) (luck : Luck)
  /-- A message is lost. -/
  | lose (index : Nat)

/-- A prompt from a timer or a user. -/
inductive Prompt
  /-- The timer of a component expires. -/
  | heartbeat (comp : Nat) (luck : Luck)
  /-- A command is given. -/
  | command (command : Command) (luck : Luck)
  /-- A component is loaded again. -/
  | reload (comp : Nat) (shipped : Shipped)

namespace Network

/-- The messages that a handler leaves are under way. -/
def launch {α : Type} (net : Network) (ran : Option (Desk × α)) : Option Network :=
  ran.map fun done => { net with flying := net.flying ++ done.1.sent }

/-- Make a move. -/
def move (ids : ServiceIds) (net : Network) : Move → Option Network
  | .deliver index comp context luck =>
      net.flying[index]?.bind fun parcel =>
        net.comps[comp]?.bind fun loaded =>
          ((Desk.receive parcel context luck).run
            (loaded.2.onMsg ids loaded.1 Desk.inbox)).map fun done =>
              { comps := net.comps.set comp (loaded.1, done.2)
                flying := net.flying.eraseIdx index ++ done.1.sent }
  | .lose index =>
      net.flying[index]?.map fun _ => { net with flying := net.flying.eraseIdx index }

/-- Follow a prompt. -/
def follow (ids : ServiceIds) (net : Network) : Prompt → Option Network
  | .heartbeat comp luck =>
      net.comps[comp]?.bind fun loaded =>
        net.launch ((Desk.idle luck).run (Entry.program ids (.heartbeat loaded.1)))
  | .command command luck => net.launch ((Desk.idle luck).run (Entry.program ids (.command command)))
  | .reload comp shipped =>
      net.comps[comp]?.map fun loaded =>
        { net with comps := net.comps.set comp (loaded.1, shipped) }

/-- Perform one step. -/
def step (ids : ServiceIds) (net : Network) : Move ⊕ Prompt → Option Network
  | .inl move => net.move ids move
  | .inr prompt => net.follow ids prompt

end Network

/-! ## What handlers send -/

/-- A handler hands nothing over. -/
def Silent {α : Type} (handler : Handler α) : Prop :=
  ∀ (desk : Desk) (done : Desk × α), desk.run handler = some done → done.1.sent = desk.sent

/-- A handler hands over at most one message, with this code. -/
def Sends {α : Type} (code : UInt32) (handler : Handler α) : Prop :=
  ∀ (desk : Desk) (done : Desk × α), desk.run handler = some done →
    done.1.sent = desk.sent ∨
      ∃ parcel, done.1.sent = desk.sent ++ [parcel] ∧ parcel.header.msgCode = code

/-- Code that fills in a payload leaves the envelope. -/
def Fills (payload : BufferId → Handler Unit) : Prop :=
  ∀ (desk : Desk) (done : Desk × Unit), desk.run (payload Desk.draft) = some done →
    done.1.sent = desk.sent ∧
      (done.1.parcels Desk.draft).header = (desk.parcels Desk.draft).header

/-- Code that hands a message over leaves its code. -/
def HandsOver {α : Type} (hand : BufferId → Handler α) : Prop :=
  ∀ (desk : Desk) (done : Desk × α), desk.run (hand Desk.draft) = some done →
    done.1.sent = desk.sent ∨
      ∃ parcel, done.1.sent = desk.sent ++ [parcel] ∧
        parcel.header.msgCode = (desk.parcels Desk.draft).header.msgCode

section Handlers

variable {α β : Type} {code : UInt32}

theorem Silent.sends {handler : Handler α} (silent : Silent handler) : Sends code handler :=
  fun desk done ran => .inl (silent desk done ran)

theorem silent_pure (result : α) : Silent (pure result : Handler α) := by
  intro desk done ran
  obtain rfl := Option.some.inj ran
  rfl

theorem Silent.bind {first : Handler α} {second : α → Handler β} (silent : Silent first)
    (later : ∀ result, Silent (second result)) : Silent (first >>= second) := by
  intro desk done ran
  rw [Desk.run_bind] at ran
  obtain ⟨between, ran_first, ran_second⟩ := Option.bind_eq_some_iff.mp ran
  rw [later _ _ _ ran_second, silent _ _ ran_first]

theorem Silent.bind_sends {first : Handler α} {second : α → Handler β} (silent : Silent first)
    (later : ∀ result, Sends code (second result)) : Sends code (first >>= second) := by
  intro desk done ran
  rw [Desk.run_bind] at ran
  obtain ⟨between, ran_first, ran_second⟩ := Option.bind_eq_some_iff.mp ran
  rw [← silent _ _ ran_first]
  exact later _ _ _ ran_second

theorem Sends.bind {first : Handler α} {second : α → Handler β} (sends : Sends code first)
    (later : ∀ result, Silent (second result)) : Sends code (first >>= second) := by
  intro desk done ran
  rw [Desk.run_bind] at ran
  obtain ⟨between, ran_first, ran_second⟩ := Option.bind_eq_some_iff.mp ran
  rw [later _ _ _ ran_second]
  exact sends _ _ ran_first

theorem silent_logLines (count : Nat) : Silent (logLines count) := by
  intro desk done ran
  rw [Desk.run_logLines] at ran
  obtain rfl := Option.some.inj ran
  rfl

theorem silent_bufferRelease (buf : BufferId) : Silent (bufferRelease buf) := by
  intro desk done ran
  obtain rfl := Option.some.inj ran
  rfl

theorem silent_payloadWord (buf : BufferId) (index : Nat) : Silent (payloadWord buf index) := by
  intro desk done ran
  obtain ⟨answered, performed, rest⟩ := Option.bind_eq_some_iff.mp ran
  obtain rfl := Option.some.inj rest
  unfold Desk.perform at performed
  dsimp only at performed
  split at performed
  · obtain rfl := Option.some.inj performed
    rfl
  · cases performed

theorem silent_kvPut (table : Nat) (key : KvKey) (value : Int32) :
    Silent (kvPut table key value) := by
  intro desk done ran
  obtain rfl := Option.some.inj ran
  rfl

theorem silent_nullAccess : Silent (nullAccess : Handler α) := by
  intro desk done ran
  cases ran

theorem silent_wordOr (buf : BufferId) (msg : Header) (least : UInt32) (index : Nat)
    (default : UInt32) : Silent (wordOr buf msg least index default) := by
  unfold wordOr
  split
  · exact silent_payloadWord buf index
  · exact silent_pure default

theorem fills_noPayload : Fills noPayload := by
  intro desk done ran
  obtain rfl := Option.some.inj ran
  exact ⟨rfl, rfl⟩

/-- Code that rewrites the payload of the buffer if it has room. -/
theorem fills_of_run {payload : BufferId → Handler Unit} (fits : Desk → Prop) [DecidablePred fits]
    (memory : Desk → RawMemory)
    (runs : ∀ desk : Desk, desk.run (payload Desk.draft) =
      if fits desk then
        some (desk.change Desk.draft
          { desk.parcels Desk.draft with payload := memory desk }, ())
      else none) :
    Fills payload := by
  intro desk done ran
  rw [runs] at ran
  split at ran
  · obtain rfl := Option.some.inj ran
    exact ⟨rfl, by simp [Desk.change]⟩
  · cases ran

theorem fills_memset (value : UInt8) (len : UInt32) : Fills fun buf => memset buf value len := by
  refine fills_of_run (fun desk => desk.inChunk Desk.draft len.toNat)
    (fun desk => (desk.parcels Desk.draft).payload.write (List.replicate len.toNat value))
    fun desk => ?_
  change Option.bind (if _ then _ else _) _ = _
  split <;> rfl

theorem fills_memcpy (source : BufferId) (len : UInt32) :
    Fills fun buf => memcpy buf source len := by
  refine fills_of_run (fun desk =>
    desk.inChunk Desk.draft len.toNat ∧ desk.inChunk source len.toNat)
    (fun desk =>
      (desk.parcels Desk.draft).payload.write ((desk.parcels source).payload.read len.toNat))
    fun desk => ?_
  change Option.bind (if _ then _ else _) _ = _
  split <;> rfl

theorem fills_putWord (index : Nat) (word : UInt32) : Fills fun buf => putWord buf index word := by
  refine fills_of_run (fun desk => desk.inChunk Desk.draft (4 * (index + 1)))
    (fun desk => (desk.parcels Desk.draft).payload.store (4 * index) 4 word.toNat) fun desk => ?_
  change Option.bind (if _ then _ else _) _ = _
  split <;> rfl

theorem fills_putWords (words : List (UInt32 × Nat)) :
    Fills fun buf => words.forM fun word => putWord buf word.2 word.1 := by
  induction words with
  | nil => exact fills_noPayload
  | cons word words ih =>
      intro desk done ran
      change desk.run (putWord Desk.draft word.2 word.1 >>= fun _ =>
        words.forM fun word => putWord Desk.draft word.2 word.1) = _ at ran
      rw [Desk.run_bind] at ran
      obtain ⟨between, ran_first, ran_rest⟩ := Option.bind_eq_some_iff.mp ran
      obtain ⟨sent, header⟩ := fills_putWord word.2 word.1 desk between ran_first
      obtain ⟨sent', header'⟩ := ih between.1 done ran_rest
      exact ⟨sent'.trans sent, header'.trans header⟩

theorem handsOver_serviceMsgSend : HandsOver serviceMsgSend := by
  intro desk done ran
  obtain rfl := Option.some.inj ran
  rw [Desk.sent_hand, Luck.taken]
  split
  · exact .inr ⟨_, rfl, rfl⟩
  · exact .inl (List.append_nil _)

theorem handsOver_serviceReply (reqBuf : BufferId) :
    HandsOver fun buf => getReplyCtx reqBuf >>= fun ctx => serviceReply ctx buf := by
  intro desk done ran
  rw [Desk.run_bind] at ran
  obtain ⟨between, read, replied⟩ := Option.bind_eq_some_iff.mp ran
  obtain rfl := Option.some.inj read
  dsimp only at replied
  cases asked : desk.context with
  | none =>
      rw [asked] at replied
      obtain rfl := Option.some.inj replied
      exact .inl rfl
  | some context =>
      rw [asked] at replied
      obtain ⟨answered, performed, rest⟩ := Option.bind_eq_some_iff.mp replied
      obtain rfl := Option.some.inj rest
      unfold Desk.perform at performed
      dsimp only [Option.map_some] at performed
      rw [asked] at performed
      obtain rfl := Option.some.inj performed
      rw [Desk.sent_hand, Luck.taken]
      split
      · exact .inr ⟨_, rfl, rfl⟩
      · exact .inl (List.append_nil _)

theorem HandsOver.fill {payload : BufferId → Handler Unit} {hand : BufferId → Handler α}
    (fills : Fills payload) (hands : HandsOver hand) :
    HandsOver fun buf => payload buf >>= fun _ => hand buf := by
  intro desk done ran
  rw [Desk.run_bind] at ran
  obtain ⟨filled, ran_fill, ran_hand⟩ := Option.bind_eq_some_iff.mp ran
  obtain ⟨sent, header⟩ := fills _ _ ran_fill
  rw [← sent, ← header]
  exact hands _ _ ran_hand

theorem HandsOver.bind {hand : BufferId → Handler α} {rest : BufferId → α → Handler β}
    (hands : HandsOver hand) (later : ∀ buf result, Silent (rest buf result)) :
    HandsOver fun buf => hand buf >>= rest buf := by
  intro desk done ran
  rw [Desk.run_bind] at ran
  obtain ⟨handed, ran_hand, ran_rest⟩ := Option.bind_eq_some_iff.mp ran
  rw [later _ _ _ _ ran_rest]
  exact hands _ _ ran_hand

/-- A buffer is allocated, gets a code and is handed over. -/
theorem sends_bufferAlloc {size : UInt32} {fields : Header → Header}
    {hand : BufferId → Handler Unit} (hands : HandsOver hand)
    (coded : ∀ header, (fields header).msgCode = code) :
    Sends code (bufferAlloc size 0 >>= fun
      | none => pure ()
      | some buf => assign buf fields >>= fun _ => hand buf) := by
  intro desk done ran
  rw [Desk.run_bind] at ran
  cases got : desk.luck.chunk with
  | none =>
      rw [Desk.run_bufferAlloc_of_none size 0 got] at ran
      obtain rfl := Option.some.inj ran
      exact .inl rfl
  | some stale =>
      rw [Desk.run_bufferAlloc_of_some size 0 got, Option.bind_some] at ran
      dsimp only at ran
      rw [Desk.run_bind, Desk.run_assign, Desk.parcels_allocated, Desk.change_allocated,
        Option.bind_some] at ran
      rcases hands _ _ ran with nothing | ⟨parcel, something, same⟩
      · exact .inl nothing
      · refine .inr ⟨parcel, something, same.trans ?_⟩
        rw [Desk.parcels_allocated]
        exact coded _

theorem sends_sendMessage {size : UInt32} {fields : Header → Header}
    {payload : BufferId → Handler Unit} {hand : BufferId → Handler Status}
    (fills : Fills payload) (hands : HandsOver hand)
    (coded : ∀ header, (fields header).msgCode = code) :
    Sends code (sendMessage size fields payload hand) :=
  sends_bufferAlloc (.fill fills (hands.bind fun buf _ => silent_bufferRelease buf)) coded

end Handlers

/-! ## Loads -/

/-- How much may follow from a message, by its code. -/
def weight (code : UInt32) : Nat :=
  if code = 3001 then 2 ^ 37 else if code = 2001 then 2 else if code = 2002 ∨ code = 1001 then 1
  else 0

/-- How many more answers a component follows with a ping. -/
def Shipped.remaining : Shipped → Nat
  | .ping (some ctx) => ctx.targetCount.toNat - (ctx.currentCount + 1).toNat
  | .remotePing (some ctx) =>
      (ctx.sweepCount.toNat - (ctx.sweepIndex + 1).toNat) * (ctx.targetCount.toNat + 1) +
        (ctx.targetCount.toNat - (ctx.currentCount + 1).toNat)
  | _ => 0

/-- A handler that hands a message over leaves less than it was given. -/
def Shrinks {α : Type} (load : Nat) (left : α → Nat) (handler : Handler α) : Prop :=
  ∀ (desk : Desk) (done : Desk × α), desk.run handler = some done →
    done.1.sent = desk.sent ∨
      ∃ parcel, done.1.sent = desk.sent ++ [parcel] ∧
        weight parcel.header.msgCode + 2 * left done.2 < load

section Loads

variable {α β : Type} {code : UInt32} {load : Nat} {left : α → Nat}

theorem Silent.shrinks {handler : Handler α} (silent : Silent handler) :
    Shrinks load left handler := fun desk done ran => .inl (silent desk done ran)

theorem Silent.bind_shrinks {first : Handler β} {second : β → Handler α} (silent : Silent first)
    (later : ∀ result, Shrinks load left (second result)) :
    Shrinks load left (first >>= second) := by
  intro desk done ran
  rw [Desk.run_bind] at ran
  obtain ⟨between, ran_first, ran_second⟩ := Option.bind_eq_some_iff.mp ran
  rw [← silent _ _ ran_first]
  exact later _ _ _ ran_second

theorem Shrinks.mono {handler : Handler α} {more : Nat} (shrinks : Shrinks load left handler)
    (le : load ≤ more) : Shrinks more left handler := by
  intro desk done ran
  rcases shrinks desk done ran with nothing | ⟨parcel, something, light⟩
  · exact .inl nothing
  · exact .inr ⟨parcel, something, light.trans_le le⟩

theorem Shrinks.map {handler : Handler β} {convert : β → α}
    (shrinks : Shrinks load (fun result => left (convert result)) handler) :
    Shrinks load left (convert <$> handler) := by
  intro desk done ran
  rw [Desk.run_map] at ran
  obtain ⟨first, ran_first, rfl⟩ := Option.map_eq_some_iff.mp ran
  exact shrinks _ _ ran_first

theorem Sends.shrinks {first : Handler β} {result : α} (sends : Sends code first)
    (light : weight code + 2 * left result < load) :
    Shrinks load left (first >>= fun _ => pure result) := by
  intro desk done ran
  rw [Desk.run_bind] at ran
  obtain ⟨between, ran_first, ran_second⟩ := Option.bind_eq_some_iff.mp ran
  obtain rfl := Option.some.inj ran_second
  rcases sends _ _ ran_first with nothing | ⟨parcel, something, rfl⟩
  · exact .inl nothing
  · exact .inr ⟨parcel, something, light⟩

theorem shrinks_of_sends (code : UInt32) {handler : Handler α} (sends : Sends code handler)
    (light : ∀ result, weight code + 2 * left result < load) : Shrinks load left handler := by
  intro desk done ran
  rcases sends _ _ ran with nothing | ⟨parcel, something, rfl⟩
  · exact .inl nothing
  · exact .inr ⟨parcel, something, light _⟩

end Loads

/-! ## Handlers of the components -/

variable {ids : ServiceIds} {self : Self} {buf : BufferId} {msg : Header}

theorem silent_putInto (table : Option Nat) (key : KvKey) (value : Int32) :
    Silent (Model2.putInto table key value) := by
  cases table with
  | none => exact silent_pure ()
  | some table => exact (silent_kvPut table key value).bind fun _ => silent_pure ()

theorem silent_model2 (ctx : Option Model2.Ctx) : Silent (Model2.compOnMsg self ctx) := by
  cases ctx with
  | none => exact silent_pure none
  | some ctx =>
      exact (silent_putInto _ _ _).bind fun _ => (silent_putInto _ _ _).bind fun _ =>
        (silent_logLines 1).bind fun _ => silent_pure _

theorem sends_autoReply (msg : Header) : Sends 1002 (Model4.autoReply ids self msg) := by
  unfold Model4.autoReply
  split
  · refine (silent_logLines 1).bind_sends fun _ =>
      sends_bufferAlloc (handsOver_serviceMsgSend.bind fun _ _ => silent_pure ()) fun _ => ?_
    rfl
  · exact (silent_pure ()).sends

theorem sends_pingSendPing : Sends 2001 (Ping.sendPing self) :=
  sends_sendMessage fills_noPayload handsOver_serviceMsgSend fun _ => rfl

theorem sends_remotePingSendPing (ctx : Option RemotePing.Ctx) :
    Sends 2001 (RemotePing.sendPing self ctx) := by
  refine sends_sendMessage ?_ handsOver_serviceMsgSend fun _ => rfl
  split
  · exact fills_memset _ _
  · exact fills_noPayload

theorem toNat_succ_of_lt {count target : UInt32} (less : count < target) :
    (count + 1).toNat = count.toNat + 1 := by
  have upper := target.toNat_lt
  rw [UInt32.lt_iff_toNat_lt] at less
  rw [UInt32.toNat_add]
  exact Nat.mod_eq_of_lt (by simp; omega)

theorem shrinks_pingPong (ctx : Option Ping.Ctx) :
    Shrinks (1 + 2 * (Shipped.ping ctx).remaining) (fun ctx => (Shipped.ping ctx).remaining)
      (Ping.pong self ctx) := by
  cases ctx with
  | none => exact silent_nullAccess.shrinks
  | some ctx =>
      simp only [Ping.pong]
      unfold Ping.pingOrReport
      split
      · rename_i more
        refine sends_pingSendPing.shrinks ?_
        have next := toNat_succ_of_lt more
        rw [UInt32.lt_iff_toNat_lt] at more
        dsimp only at more next
        change 2 + 2 * (ctx.targetCount.toNat - (ctx.currentCount + 1 + 1).toNat) <
          1 + 2 * (ctx.targetCount.toNat - (ctx.currentCount + 1).toNat)
        omega
      · exact ((silent_logLines 3).bind fun _ => silent_pure _).shrinks

theorem shrinks_pingStartTest (ctx : Option Ping.Ctx) :
    Shrinks (2 ^ 37) (fun ctx => (Shipped.ping ctx).remaining)
      (Ping.startTest self buf msg ctx) := by
  cases ctx with
  | none => exact silent_nullAccess.shrinks
  | some ctx =>
      refine (silent_wordOr _ _ _ _ _).bind_shrinks fun target =>
        (silent_logLines 1).bind_shrinks fun _ => sends_pingSendPing.shrinks ?_
      have upper := target.toNat_lt
      change 2 + 2 * (target.toNat - (0 + 1 : UInt32).toNat) < 2 ^ 37
      omega

theorem shrinks_startOneTest {load : Nat} {ctx : RemotePing.Ctx} {size : UInt32}
    (light : 2 + 2 * (Shipped.remotePing
      (some { ctx with payloadSize := size, currentCount := 0 })).remaining < load) :
    Shrinks load (fun ctx => (Shipped.remotePing (some ctx)).remaining)
      (RemotePing.startOneTest self ctx size) :=
  (silent_logLines 1).bind_shrinks fun _ => (sends_remotePingSendPing _).shrinks light

theorem shrinks_remotePingStartTest (ctx : Option RemotePing.Ctx) :
    Shrinks (2 ^ 37) (fun ctx => (Shipped.remotePing ctx).remaining)
      (RemotePing.startTest self buf msg ctx) := by
  cases ctx with
  | none => exact silent_nullAccess.shrinks
  | some ctx =>
      refine (silent_wordOr _ _ _ _ _).bind_shrinks fun target =>
        (silent_wordOr _ _ _ _ _).bind_shrinks fun requested => ?_
      have upper := target.toNat_lt
      split
      · refine (silent_logLines 1).bind_shrinks fun _ => Shrinks.map ?_
        refine shrinks_startOneTest ?_
        change 2 + 2 * ((8 - 1) * (target.toNat + 1) + (target.toNat - 1)) < 2 ^ 37
        omega
      · refine Shrinks.map ?_
        refine shrinks_startOneTest ?_
        change 2 + 2 * ((0 - 1) * (target.toNat + 1) + (target.toNat - 1)) < 2 ^ 37
        omega

theorem shrinks_remotePingPong (ctx : Option RemotePing.Ctx) :
    Shrinks (1 + 2 * (Shipped.remotePing ctx).remaining)
      (fun ctx => (Shipped.remotePing ctx).remaining) (RemotePing.pong self ctx) := by
  cases ctx with
  | none => exact silent_nullAccess.shrinks
  | some ctx =>
      simp only [RemotePing.pong]
      refine Silent.bind_shrinks ?_ fun _ => ?_
      · unfold RemotePing.progress
        split
        · exact silent_logLines 1
        · exact silent_pure ()
      split
      · rename_i more
        refine (sends_remotePingSendPing _).shrinks ?_
        have next := toNat_succ_of_lt more
        rw [UInt32.lt_iff_toNat_lt] at more
        change 2 + 2 * ((ctx.sweepCount.toNat - (ctx.sweepIndex + 1).toNat) *
            (ctx.targetCount.toNat + 1) +
              (ctx.targetCount.toNat - (ctx.currentCount + 1 + 1).toNat)) <
          1 + 2 * ((ctx.sweepCount.toNat - (ctx.sweepIndex + 1).toNat) *
            (ctx.targetCount.toNat + 1) +
              (ctx.targetCount.toNat - (ctx.currentCount + 1).toNat))
        omega
      · rename_i full
        refine Shrinks.map ?_
        unfold RemotePing.finishTest
        refine (silent_logLines 5).bind_shrinks fun _ => ?_
        dsimp only
        split
        · rename_i swept
          refine shrinks_startOneTest ?_
          have next := toNat_succ_of_lt swept.2
          have less := UInt32.lt_iff_toNat_lt.mp swept.2
          obtain ⟨rest, sweeps⟩ := Nat.exists_eq_add_of_lt less
          have before : ctx.sweepCount.toNat - (ctx.sweepIndex + 1).toNat = rest + 1 := by omega
          have after : ctx.sweepCount.toNat - (ctx.sweepIndex + 1 + 1).toNat = rest := by omega
          change 2 + 2 * ((ctx.sweepCount.toNat - (ctx.sweepIndex + 1 + 1).toNat) *
              (ctx.targetCount.toNat + 1) + (ctx.targetCount.toNat - 1)) <
            1 + 2 * ((ctx.sweepCount.toNat - (ctx.sweepIndex + 1).toNat) *
              (ctx.targetCount.toNat + 1) + (ctx.targetCount.toNat - (ctx.currentCount + 1).toNat))
          rw [before, after, Nat.add_one_mul rest]
          omega
        · exact (silent_pure _).shrinks

theorem shrinks_onMsg (shipped : Shipped) (parcel : Parcel) (context : Option (UInt32 × UInt32))
    (luck : Luck) {done : Desk × Shipped}
    (ran : (Desk.receive parcel context luck).run (shipped.onMsg ids self Desk.inbox) =
      some done) :
    done.1.sent = [] ∨ ∃ reply, done.1.sent = [reply] ∧
      weight reply.header.msgCode + 2 * done.2.remaining <
        weight parcel.header.msgCode + 2 * shipped.remaining := by
  have enter {α : Type} (convert : α → Shipped) (rest : Header → Handler α)
      (shrinks : Shrinks (weight parcel.header.msgCode + 2 * shipped.remaining)
        (fun result => (convert result).remaining) (rest parcel.header))
      (ran : (Desk.receive parcel context luck).run
        (convert <$> (envelope Desk.inbox >>= rest)) = some done) :
      done.1.sent = [] ∨ ∃ reply, done.1.sent = [reply] ∧
        weight reply.header.msgCode + 2 * done.2.remaining <
          weight parcel.header.msgCode + 2 * shipped.remaining := by
    rw [Desk.run_map, Desk.run_bind, Desk.run_envelope, Option.bind_some] at ran
    obtain ⟨result, handled, rfl⟩ := Option.map_eq_some_iff.mp ran
    exact shrinks _ _ handled
  cases shipped with
  | model1 =>
      refine enter _ _ ?_ ran
      refine (silent_logLines 1).bind_shrinks fun _ => ?_
      split
      · rename_i asked
        refine (silent_logLines 1).bind_shrinks fun _ => ?_
        refine shrinks_of_sends 1002
          (sends_sendMessage fills_noPayload handsOver_serviceMsgSend fun _ => ?_) fun _ => ?_
        · rfl
        · rw [asked]
          decide
      · exact (silent_pure _).shrinks
  | model2 ctx =>
      rw [Shipped.onMsg, Desk.run_map] at ran
      obtain ⟨result, handled, rfl⟩ := Option.map_eq_some_iff.mp ran
      exact .inl (silent_model2 ctx _ _ handled)
  | model3 =>
      refine enter _ _ (Silent.shrinks ?_) ran
      split
      · exact (silent_wordOr _ _ _ _ _).bind fun _ => (silent_logLines _).bind fun _ =>
          (silent_logLines _).bind fun _ => silent_logLines _
      · exact silent_pure _
  | model4 ctx =>
      cases ctx with
      | none => cases ran
      | some ctx =>
          refine enter _ _ ?_ ran
          refine (silent_logLines 1).bind_shrinks fun _ => ?_
          by_cases asked : parcel.header.msgCode = 1001
          · refine (sends_autoReply _).shrinks ?_
            rw [asked]
            change weight 1002 + 2 * 0 < weight 1001 + 2 * 0
            decide
          · rw [Model4.autoReply, if_neg asked]
            exact ((silent_pure ()).bind fun _ => silent_pure _).shrinks
  | ping ctx =>
      refine enter _ _ ?_ ran
      split
      · rename_i start
        rw [start]
        exact (shrinks_pingStartTest ctx).mono (Nat.le_add_right _ _)
      · split
        · rename_i answer
          rw [answer]
          exact shrinks_pingPong ctx
        · exact (silent_pure _).shrinks
  | pong =>
      refine enter _ _ ?_ ran
      split
      · rename_i asked
        rw [asked]
        refine shrinks_of_sends 2002
          (sends_sendMessage fills_noPayload handsOver_serviceMsgSend fun _ => ?_) fun _ => ?_
        · rfl
        · decide
      · exact (silent_pure _).shrinks
  | remotePing ctx =>
      refine enter _ _ ?_ ran
      split
      · rename_i start
        rw [start]
        exact (shrinks_remotePingStartTest ctx).mono (Nat.le_add_right _ _)
      · split
        · rename_i answer
          rw [answer]
          exact shrinks_remotePingPong ctx
        · exact (silent_pure _).shrinks
  | remotePong =>
      refine enter _ _ ?_ ran
      split
      · rename_i asked
        rw [asked]
        refine shrinks_of_sends 2002 (sends_sendMessage ?_ (handsOver_serviceReply _) fun _ => ?_)
          fun _ => ?_
        · split
          · exact fills_memcpy _ _
          · exact fills_noPayload
        · rfl
        · decide
      · exact (silent_pure _).shrinks

/-! ## Prompts -/

theorem Sends.map {α β : Type} {code : UInt32} {handler : Handler β} (sends : Sends code handler)
    (convert : β → α) : Sends code (convert <$> handler) := by
  intro desk done ran
  rw [Desk.run_map] at ran
  obtain ⟨first, ran_first, rfl⟩ := Option.map_eq_some_iff.mp ran
  exact sends _ _ ran_first

theorem sends_heartbeatCallback : Sends 1001 (Model1.heartbeatCallback ids self) := by
  refine (silent_logLines 1).bind_sends fun _ =>
    sends_sendMessage fills_noPayload handsOver_serviceMsgSend fun _ => ?_
  rfl

theorem sends_request (service code : UInt32) (words : List UInt32) :
    Sends code (Cli.request service code words) :=
  sends_sendMessage (fills_putWords _) handsOver_serviceMsgSend fun _ => rfl

theorem sends_command (command : Command) :
    ∃ code, Sends code (Entry.program ids (.command command)) := by
  cases command with
  | logSpam count => exact ⟨3002, (sends_request _ _ _).map _⟩
  | perfStart count => exact ⟨3001, (sends_request _ _ _).map _⟩
  | perfRemoteStart count payloadSize sweep => exact ⟨3001, (sends_request _ _ _).map _⟩

theorem Sends.length_le {α : Type} {code : UInt32} {handler : Handler α} {luck : Luck}
    {done : Desk × α} (sends : Sends code handler)
    (ran : (Desk.idle luck).run handler = some done) : done.1.sent.length ≤ 1 := by
  rcases sends _ _ ran with nothing | ⟨parcel, something, _⟩
  · rw [nothing]
    exact Nat.zero_le 1
  · rw [something]
    exact le_rfl

/-! ## Runs -/

/-- A prompt that may bring a message. -/
def Prompt.speaks : Prompt → Bool
  | .heartbeat _ _ | .command _ _ => true
  | .reload _ _ => false

/-- A step that may bring a message. -/
def speaks : Move ⊕ Prompt → Bool
  | .inl _ => false
  | .inr prompt => prompt.speaks

namespace Network

variable {net after : Network}

/-- What may follow from the messages and what the components may still do. -/
def load (net : Network) : Nat :=
  (net.flying.map fun parcel => weight parcel.header.msgCode).sum +
    2 * (net.comps.map fun loaded => loaded.2.remaining).sum

theorem sum_map_set {α : Type*} (measure : α → Nat) {items : List α} {index : Nat}
    (inside : index < items.length) (item : α) :
    ((items.set index item).map measure).sum + measure items[index] =
      (items.map measure).sum + measure item := by
  have changed := ((List.set_perm_cons_eraseIdx inside item).map measure).sum_eq
  have same := ((List.getElem_cons_eraseIdx_perm inside).map measure).sum_eq
  rw [List.map_cons, List.sum_cons] at changed same
  omega

theorem sum_map_eraseIdx {α : Type*} (measure : α → Nat) {items : List α} {index : Nat}
    (inside : index < items.length) :
    ((items.eraseIdx index).map measure).sum + measure items[index] = (items.map measure).sum := by
  have same := ((List.getElem_cons_eraseIdx_perm inside).map measure).sum_eq
  rw [List.map_cons, List.sum_cons] at same
  omega

/-- A move leaves fewer messages, or as many and a smaller load. -/
theorem move_decreases {move : Move} (moved : net.move ids move = some after) :
    after.flying.length < net.flying.length ∨
      after.flying.length = net.flying.length ∧ after.load < net.load := by
  cases move with
  | lose index =>
      obtain ⟨parcel, found, rfl⟩ := Option.map_eq_some_iff.mp moved
      obtain ⟨inside, _⟩ := List.getElem?_eq_some_iff.mp found
      left
      rw [List.length_eraseIdx_of_lt inside]
      omega
  | deliver index comp context luck =>
      obtain ⟨parcel, found, moved⟩ := Option.bind_eq_some_iff.mp moved
      obtain ⟨⟨self, shipped⟩, located, moved⟩ := Option.bind_eq_some_iff.mp moved
      obtain ⟨done, ran, rfl⟩ := Option.map_eq_some_iff.mp moved
      obtain ⟨inside, rfl⟩ := List.getElem?_eq_some_iff.mp found
      obtain ⟨present, place⟩ := List.getElem?_eq_some_iff.mp located
      have rest := List.length_eraseIdx_of_lt inside
      rcases shrinks_onMsg _ _ _ _ ran with nothing | ⟨reply, something, light⟩
      · left
        rw [nothing, List.append_nil, rest]
        omega
      · right
        have messages := sum_map_eraseIdx (fun parcel => weight parcel.header.msgCode) inside
        have comps := sum_map_set (fun loaded : Self × Shipped => loaded.2.remaining) present
          (self, done.2)
        rw [place] at comps
        dsimp only at comps light
        rw [something]
        constructor
        · rw [List.length_append, List.length_singleton, rest]
          omega
        · simp only [load, List.map_append, List.sum_append, List.map_cons, List.map_nil,
            List.sum_singleton]
          omega

/-- A step brings at most one message, and only a heartbeat or a command brings one. -/
theorem length_flying_of_step {op : Move ⊕ Prompt} (stepped : net.step ids op = some after) :
    after.flying.length ≤ net.flying.length + if speaks op then 1 else 0 := by
  cases op with
  | inl move =>
      rcases move_decreases stepped with fewer | ⟨same, _⟩
      · omega
      · omega
  | inr prompt =>
      cases prompt with
      | heartbeat comp luck =>
          obtain ⟨found, located, launched⟩ := Option.bind_eq_some_iff.mp stepped
          obtain ⟨done, ran, rfl⟩ := Option.map_eq_some_iff.mp launched
          have short := (sends_heartbeatCallback.map fun _ => none).length_le ran
          simp [speaks, Prompt.speaks]
          omega
      | command command luck =>
          obtain ⟨done, ran, rfl⟩ := Option.map_eq_some_iff.mp stepped
          obtain ⟨code, sends⟩ := sends_command command
          have short := sends.length_le ran
          simp [speaks, Prompt.speaks]
          omega
      | reload comp shipped =>
          obtain ⟨found, located, rfl⟩ := Option.map_eq_some_iff.mp stepped
          exact Nat.le_add_right _ _

/-- In every run there are at most as many messages under way as at its start and as there were
heartbeats and commands. -/
theorem length_flying_le {ops : List (Move ⊕ Prompt)}
    (execution : Transition.run (Network.step ids) net ops = some after) :
    after.flying.length ≤ net.flying.length + ops.countP speaks := by
  induction ops generalizing net with
  | nil =>
      obtain rfl := Option.some.inj execution
      exact Nat.le_add_right _ _
  | cons op ops ih =>
      obtain ⟨next, stepped, rest⟩ := Option.bind_eq_some_iff.mp execution
      have first := length_flying_of_step stepped
      have later := ih rest
      rw [List.countP_cons]
      omega

theorem length_flying_le_heartbeat :
    ∃ after, Transition.run (Network.step ⟨1, 2⟩) ⟨[(⟨1, []⟩, .model1)], []⟩
        [.inr (.heartbeat 0 Bench.clear), .inl (.deliver 0 0 none Bench.clear)] = some after ∧
      after.flying.length ≤ 1 := by
  have execution : ∃ after, Transition.run (Network.step ⟨1, 2⟩) ⟨[(⟨1, []⟩, .model1)], []⟩
      [.inr (.heartbeat 0 Bench.clear), .inl (.deliver 0 0 none Bench.clear)] = some after :=
    ⟨_, rfl⟩
  obtain ⟨after, execution⟩ := execution
  exact ⟨after, execution, length_flying_le execution⟩

/-- The components do not keep each other busy: without heartbeats and commands no run goes on for
ever. -/
theorem exists_not_move (ids : ServiceIds) (nets : Nat → Network) (moves : Nat → Move) :
    ∃ turn, (nets turn).move ids (moves turn) ≠ some (nets (turn + 1)) := by
  by_contra endless
  simp only [ne_eq, not_exists, not_not] at endless
  let rank (net : Network) : Nat ×ₗ Nat := toLex (net.flying.length, net.load)
  obtain ⟨turn, stuck⟩ := WellFounded.not_rel_apply_succ (r := (· < ·)) fun turn => rank (nets turn)
  refine stuck ?_
  rw [Prod.Lex.lt_iff]
  exact move_decreases (endless turn)

end Network

end CodexNos.Components
