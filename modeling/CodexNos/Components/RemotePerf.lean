import CodexNos.Components.Desk
import CodexNos.Lib.Transition
import Mathlib.Data.List.GetD

/-!
# The test between two nodes

The command `perf remote` makes the component `remote_ping` of one node exchange messages with the
component `remote_pong` of another one.  There is never more than one message under way, and the
pings are sent in the order of a plan: for each payload size the numbers from one up to the number
of rounds.  Whatever is lost or refused, nothing else is sent; if nothing is, the whole plan is.
-/

namespace CodexNos.Components

open Lib Memory Messaging

/-! ## Two nodes -/

/-- The components of a test. -/
structure Pair where
  /-- The instance of `remote_ping.c`. -/
  ping : Self
  /-- The instance of `remote_pong.c`. -/
  pong : Self

/-- A component of a test. -/
inductive Side
  | ping
  | pong
  deriving DecidableEq, Repr

/-- Where a message goes.  The other node refuses a message with a longer payload. -/
def Pair.route (pair : Pair) (header : Header) : Option Side :=
  if header.toRequester then
    if header.dstComponent = pair.ping.id ∧ header.payloadLen ≤ maxPayloadLen then some .ping
    else none
  else if header.dstService = 113 then some .ping
  else if header.dstService = 114 ∧ header.payloadLen ≤ maxPayloadLen then some .pong
  else none

/-- The state of a test. -/
structure Bench where
  /-- The private data of `remote_ping`. -/
  ctx : RemotePing.Ctx
  /-- The messages under way. -/
  flying : List Parcel
  /-- Number and payload size of the pings that were sent, oldest first. -/
  pings : List (UInt32 × UInt32)

/-- A step of a test. -/
inductive BenchOp
  /-- A message arrives. -/
  | deliver (index : Nat) (luck : Luck)
  /-- A message is lost. -/
  | lose (index : Nat)

namespace Bench

/-- The number and the payload size of a ping. -/
def summary (parcel : Parcel) : UInt32 × UInt32 := (parcel.header.seq, parcel.header.payloadLen)

/-- The command `perf remote`. -/
def command (bench : Bench) (count payloadSize : UInt32) (sweep : Bool) (luck : Luck) :
    Option Bench :=
  ((Desk.idle luck).run (Cli.doPerfRemoteStart count payloadSize sweep)).map fun done =>
    { bench with flying := bench.flying ++ done.1.sent }

/-- A component handles a message. -/
def handle (pair : Pair) (bench : Bench) (parcel : Parcel) (luck : Luck) : Side → Option Bench
  | .ping =>
      ((Desk.receive parcel none luck).run
        (RemotePing.compOnMsg pair.ping Desk.inbox (some bench.ctx))).bind fun done =>
          done.2.map fun ctx =>
            { ctx := ctx
              flying := bench.flying ++ done.1.sent
              pings := bench.pings ++ done.1.sent.map summary }
  | .pong =>
      ((Desk.receive parcel (some (parcel.header.seq, parcel.header.srcComponent)) luck).run
        (RemotePong.compOnMsg pair.pong Desk.inbox)).map fun done =>
          { bench with flying := bench.flying ++ done.1.sent }

/-- Perform one step. -/
def step (pair : Pair) (bench : Bench) : BenchOp → Option Bench
  | .deliver index luck =>
      bench.flying[index]?.bind fun parcel =>
        let rest := { bench with flying := bench.flying.eraseIdx index }
        match pair.route parcel.header with
        | none => some rest
        | some side => rest.handle pair parcel luck side
  | .lose index =>
      bench.flying[index]?.map fun _ => { bench with flying := bench.flying.eraseIdx index }

/-! ## The plan -/

/-- How many pings are sent for each payload size. -/
def rounds (count : UInt32) : UInt32 := if count = 0 then 10000 else count

/-- The payload sizes of a test. -/
def sizes (payloadSize : UInt32) (sweep : Bool) : List UInt32 :=
  if sweep ∨ payloadSize = 0xFFFFFFFF then RemotePing.defaults else [payloadSize]

/-- The pings of a test, by number and payload size. -/
def plan (target : UInt32) (sizes : List UInt32) : List (UInt32 × UInt32) :=
  sizes.flatMap fun size => (List.range target.toNat).map fun turn => (.ofNat (turn + 1), size)

/-! ## The first message -/

/-- A message that starts a test. -/
structure IsStart (target requested : UInt32) (parcel : Parcel) : Prop where
  service : parcel.header.dstService = 113
  code : parcel.header.msgCode = 3001
  length : parcel.header.payloadLen = 8
  first : (.ofNat (parcel.payload.word 0 4) : UInt32) = target
  second : (.ofNat (parcel.payload.word 4 4) : UInt32) = requested

/-- The second word of a message for a test. -/
def requested (payloadSize : UInt32) (sweep : Bool) : UInt32 :=
  if sweep then 0xFFFFFFFF else payloadSize

variable {pair : Pair} {bench after : Bench} {luck : Luck}

theorem ofNat_word_store (payload : RawMemory) (offset : Nat) (word : UInt32) :
    UInt32.ofNat ((payload.store offset 4 word.toNat).word offset 4) = word := by
  have inside : word.toNat % 256 ^ 4 = word.toNat := Nat.mod_eq_of_lt word.toNat_lt
  rw [RawMemory.word_store, inside, UInt32.ofNat_toNat]

/-- The message of the command. -/
def startParcel (target requested : UInt32) (stale : Parcel) : Parcel where
  header :=
    { stale.header with
      magic := nosIpcMagic, dstService := 113, msgCode := 3001, payloadLen := 8 }
  payload := (stale.payload.store 0 4 target.toNat).store 4 4 requested.toNat

theorem isStart_startParcel (target requested : UInt32) (stale : Parcel) :
    IsStart target requested (startParcel target requested stale) where
  service := rfl
  code := rfl
  length := rfl
  first := by
    have kept : ((stale.payload.store 0 4 target.toNat).store 4 4 requested.toNat).word 0 4 =
        (stale.payload.store 0 4 target.toNat).word 0 4 :=
      RawMemory.word_store_of_disjoint _ (.inl le_rfl)
    exact (congrArg UInt32.ofNat kept).trans (ofNat_word_store _ 0 target)
  second := ofNat_word_store _ 4 requested

theorem command_of_none {count payloadSize : UInt32} {sweep : Bool} (none : luck.chunk = none) :
    bench.command count payloadSize sweep luck = some bench := by
  rw [command, Cli.doPerfRemoteStart, Cli.request, Desk.run_sendMessage_of_none none]
  simp

theorem run_words (desk : Desk) {size : UInt32} (parcel : Parcel) (first second : UInt32)
    (inside : headerSize + 8 ≤ size.toNat) :
    (desk.allocated size parcel).run
        ([first, second].zipIdx.forM fun word => putWord Desk.draft word.2 word.1) =
      some (desk.allocated size
        { parcel with
          payload := (parcel.payload.store 0 4 first.toNat).store 4 4 second.toNat }, ()) := by
  change (desk.allocated size parcel).run
    (putWord Desk.draft 0 first >>= fun _ => putWord Desk.draft 1 second >>= pure) = _
  rw [Desk.run_bind, Desk.run_putWord first (by omega), Option.bind_some, Desk.run_bind,
    Desk.run_putWord second inside]
  rfl

theorem command_of_some {count payloadSize : UInt32} {sweep : Bool} {stale : Parcel}
    (got : luck.chunk = some stale) :
    bench.command count payloadSize sweep luck =
      some { bench with
        flying := bench.flying ++
          luck.taken (startParcel (rounds count) (requested payloadSize sweep) stale) } := by
  rw [command, Cli.doPerfRemoteStart, Cli.request, Desk.run_sendMessage got
    fun payload => (payload.store 0 4 (rounds count).toNat).store 4 4
      (requested payloadSize sweep).toNat]
  · simp [startParcel]
  · exact run_words _ _ _ _ (show 40 ≤ (40 : UInt32).toNat by decide)

/-! ## Pings -/

/-- The ping of `send_ping`. -/
def pingParcel (self : Self) (ctx : RemotePing.Ctx) (stale : Parcel) : Parcel where
  header :=
    { stale.header with
      magic := nosIpcMagic, version := 1, dstService := 114, srcComponent := self.id,
      msgCode := 2001, seq := ctx.currentCount + 1, flags := 1, payloadLen := ctx.payloadSize }
  payload := stale.payload.write (List.replicate ctx.payloadSize.toNat 0xA5)

/-- A ping with the data of the sender. -/
structure IsPing (sender : Self) (ctx : RemotePing.Ctx) (parcel : Parcel) : Prop where
  service : parcel.header.dstService = 114
  source : parcel.header.srcComponent = sender.id
  code : parcel.header.msgCode = 2001
  number : parcel.header.seq = ctx.currentCount + 1
  flags : parcel.header.flags = 1
  length : parcel.header.payloadLen = ctx.payloadSize

theorem isPing_pingParcel (self : Self) (ctx : RemotePing.Ctx) (stale : Parcel) :
    IsPing self ctx (pingParcel self ctx stale) := ⟨rfl, rfl, rfl, rfl, rfl, rfl⟩

variable {desk : Desk} {self : Self} {ctx : RemotePing.Ctx}

theorem toNat_envelopeSize_add (len : UInt32) :
    (envelopeSize + len).toNat = (headerSize + len.toNat) % 2 ^ 32 := by
  rw [UInt32.toNat_add]
  rfl

theorem run_sendPing_of_none (none : desk.luck.chunk = none) :
    desk.run (RemotePing.sendPing self (some ctx)) = some (desk, ()) := by
  rw [RemotePing.sendPing, Desk.run_sendMessage_of_none none]

theorem run_sendPing (desk : Desk) {stale : Parcel} (got : desk.luck.chunk = some stale)
    (fits : headerSize + ctx.payloadSize.toNat < 2 ^ 32) :
    desk.run (RemotePing.sendPing self (some ctx)) =
      some ((desk.allocated (envelopeSize + ctx.payloadSize) (pingParcel self ctx stale)).hand
        (pingParcel self ctx stale), ()) := by
  have size : (envelopeSize + ctx.payloadSize).toNat = headerSize + ctx.payloadSize.toNat := by
    rw [toNat_envelopeSize_add, Nat.mod_eq_of_lt fits]
  rw [RemotePing.sendPing]
  dsimp only [Option.map_some, Option.getD_some]
  rw [Desk.run_sendMessage got
    fun payload => payload.write (List.replicate ctx.payloadSize.toNat 0xA5)]
  · rw [Desk.run_serviceMsgSend, Desk.parcels_allocated]
    rfl
  · split
    · exact Desk.run_memset 0xA5 size.ge
    · rename_i empty
      have zero : ctx.payloadSize = 0 := by simpa using empty
      rw [zero]
      rfl

/-- The payload of a message whose size wraps around is not in its buffer. -/
theorem run_sendPing_of_wrap (desk : Desk) {stale : Parcel} (got : desk.luck.chunk = some stale)
    (wraps : 2 ^ 32 ≤ headerSize + ctx.payloadSize.toNat) :
    desk.run (RemotePing.sendPing self (some ctx)) = none := by
  have upper := ctx.payloadSize.toNat_lt
  have header : headerSize = 32 := rfl
  have positive : 0 < ctx.payloadSize := by
    rw [UInt32.lt_iff_toNat_lt, UInt32.toNat_zero]
    omega
  rw [RemotePing.sendPing]
  dsimp only [Option.map_some, Option.getD_some]
  rw [Desk.run_sendMessage_of_fault got]
  rw [if_pos positive]
  apply Desk.run_memset_of_lt
  rw [toNat_envelopeSize_add]
  omega

/-! ## Turns -/

/-- The data of `remote_ping` after some answers, counted over all payload sizes. -/
structure Underway (target : UInt32) (sizes : List UInt32) (turn : Nat) (ctx : RemotePing.Ctx) :
    Prop where
  rounds : ctx.targetCount = target
  count : ctx.currentCount.toNat = turn % target.toNat
  size : sizes[turn / target.toNat]? = some ctx.payloadSize
  sweep :
    (sizes = RemotePing.defaults ∧ ctx.sweepCount = 8 ∧ ctx.sweepSizes = RemotePing.defaults ∧
      ctx.sweepIndex.toNat = turn / target.toNat) ∨
    (sizes.length = 1 ∧ ctx.sweepCount = 0)

/-- The data at the start of a test. -/
def started (ctx : RemotePing.Ctx) (target requested : UInt32) : RemotePing.Ctx :=
  if requested = 0xFFFFFFFF then
    { targetCount := target, currentCount := 0, payloadSize := 32, sweepCount := 8,
      sweepIndex := 0, sweepSizes := RemotePing.defaults }
  else
    { ctx with
      targetCount := target, currentCount := 0, payloadSize := requested, sweepCount := 0,
      sweepIndex := 0 }

theorem underway_started (ctx : RemotePing.Ctx) (target payloadSize : UInt32) (sweep : Bool) :
    Underway target (sizes payloadSize sweep) 0 (started ctx target (requested payloadSize sweep)) := by
  unfold started sizes requested
  cases sweep with
  | true => exact ⟨rfl, by simp, by simp [RemotePing.defaults], .inl ⟨by simp, rfl, rfl, by simp⟩⟩
  | false =>
      by_cases swept : payloadSize = 0xFFFFFFFF
      · simp only [swept, if_true, or_true, Bool.false_eq_true, if_false]
        exact ⟨rfl, by simp, by simp [RemotePing.defaults], .inl ⟨rfl, rfl, rfl, by simp⟩⟩
      · simp only [swept, if_false, or_false, Bool.false_eq_true]
        exact ⟨rfl, by simp, by simp, .inr ⟨rfl, rfl⟩⟩

theorem run_startOneTest (size : UInt32) :
    desk.run (RemotePing.startOneTest self ctx size) =
      (desk.run (RemotePing.sendPing self
        (some { ctx with payloadSize := size, currentCount := 0 }))).map
          fun done => (done.1, { ctx with payloadSize := size, currentCount := 0 }) := by
  rw [RemotePing.startOneTest, Desk.run_bind, Desk.run_logLines, Option.bind_some]
  dsimp only
  rw [Desk.run_bind, Option.map_eq_bind]
  rfl

theorem run_start {target requested : UInt32} {parcel : Parcel}
    (start : IsStart target requested parcel) :
    (Desk.receive parcel none luck).run
        (RemotePing.compOnMsg self Desk.inbox (some ctx)) =
      ((Desk.receive parcel none luck).run
        (RemotePing.sendPing self (some (started ctx target requested)))).map
          fun done => (done.1, some (started ctx target requested)) := by
  have room (index : Nat) (inside : 4 * (index + 1) ≤ 8) :
      (Desk.receive parcel none luck).inChunk Desk.inbox (4 * (index + 1)) := by
    simpa [Desk.inChunk, Desk.receive, start.length] using inside
  have first : (Desk.receive parcel none luck).run (payloadWord Desk.inbox 0) =
      some (Desk.receive parcel none luck, target) := by
    rw [Desk.run_payloadWord (room 0 (by decide)), ← start.first]
    rfl
  have second : (Desk.receive parcel none luck).run (payloadWord Desk.inbox 1) =
      some (Desk.receive parcel none luck, requested) := by
    rw [Desk.run_payloadWord (room 1 (by decide)), ← start.second]
    rfl
  rw [RemotePing.compOnMsg, Desk.run_bind, Desk.run_envelope, Option.bind_some]
  dsimp only
  rw [Desk.parcels_receive, if_pos start.code, RemotePing.startTest, Desk.run_bind, wordOr,
    if_pos (by rw [start.length]; decide), first, Option.bind_some]
  dsimp only
  rw [Desk.run_bind, wordOr, if_pos (by rw [start.length]; decide), second, Option.bind_some]
  dsimp only
  unfold started
  split
  · rw [Desk.run_bind, Desk.run_logLines, Option.bind_some]
    dsimp only
    rw [Desk.run_map, run_startOneTest, Option.map_map]
    rfl
  · rw [Desk.run_map, run_startOneTest, Option.map_map]
    rfl

theorem run_progress : desk.run (RemotePing.progress ctx) = some (desk, ()) := by
  unfold RemotePing.progress
  split
  · exact Desk.run_logLines 1
  · rfl

theorem succ_turn_of_lt {turn target : Nat} (within : turn % target + 1 < target) :
    (turn + 1) / target = turn / target ∧ (turn + 1) % target = turn % target + 1 := by
  have split : turn + 1 = turn % target + 1 + target * (turn / target) := by
    rw [Nat.add_right_comm, Nat.mod_add_div]
  constructor
  · rw [split, Nat.add_mul_div_left _ _ (by omega), Nat.div_eq_of_lt within, Nat.zero_add]
  · rw [split, Nat.add_mul_mod_self_left, Nat.mod_eq_of_lt within]

theorem succ_turn_of_eq {turn target : Nat} (last : turn % target + 1 = target) :
    (turn + 1) / target = turn / target + 1 ∧ (turn + 1) % target = 0 := by
  have split : turn + 1 = target * (turn / target + 1) := by
    have := Nat.mod_add_div turn target
    rw [Nat.mul_succ]
    omega
  constructor
  · rw [split, Nat.mul_div_cancel_left _ (by omega)]
  · rw [split, Nat.mul_mod_right]

theorem Underway.toNat_succ {target : UInt32} {sizes : List UInt32} {turn : Nat}
    (underway : Underway target sizes turn ctx) (positive : 0 < target) :
    (ctx.currentCount + 1).toNat = turn % target.toNat + 1 := by
  have upper := target.toNat_lt
  have bound := Nat.mod_lt turn (UInt32.lt_iff_toNat_lt.mp positive)
  rw [UInt32.toNat_add, underway.count]
  exact Nat.mod_eq_of_lt (by simp; omega)

/-- The answer to a ping before the last one is followed by the next one. -/
theorem run_pong_of_lt (self : Self) (desk : Desk) {target : UInt32} {sizes : List UInt32} {turn : Nat}
    (underway : Underway target sizes turn ctx) (positive : 0 < target)
    (more : turn + 1 < target.toNat * sizes.length) :
    ∃ next, Underway target sizes (turn + 1) next ∧
      desk.run (RemotePing.pong self (some ctx)) =
        (desk.run (RemotePing.sendPing self (some next))).map fun done => (done.1, some next) := by
  have count := underway.toNat_succ positive
  have bound := Nat.mod_lt turn (UInt32.lt_iff_toNat_lt.mp positive)
  have rounds := underway.rounds
  rw [RemotePing.pong, Desk.run_bind, run_progress, Option.bind_some]
  dsimp only
  by_cases within : turn % target.toNat + 1 < target.toNat
  · obtain ⟨same, later⟩ := succ_turn_of_lt within
    refine ⟨{ ctx with currentCount := ctx.currentCount + 1 }, ?_, ?_⟩
    · exact
      { rounds := rounds
        count := count.trans later.symm
        size := same ▸ underway.size
        sweep := same ▸ underway.sweep }
    · rw [if_pos (by rw [UInt32.lt_iff_toNat_lt, count, rounds]; exact within), Desk.run_bind,
        Option.map_eq_bind]
      rfl
  · obtain ⟨other, zero⟩ := succ_turn_of_eq (Nat.le_antisymm bound (Nat.not_lt.mp within))
    have inside : turn / target.toNat + 1 < sizes.length := by
      rw [← other]
      exact Nat.div_lt_of_lt_mul more
    rcases underway.sweep with ⟨rfl, number, swept, index⟩ | ⟨single, _⟩
    · have small : turn / target.toNat + 1 < 8 := inside
      have succ : (ctx.sweepIndex + 1).toNat = turn / target.toNat + 1 := by
        rw [UInt32.toNat_add, index]
        exact Nat.mod_eq_of_lt (small.trans (by decide))
      have size : RemotePing.defaults[turn / target.toNat + 1]? =
          some (ctx.sweepSizes.getD (ctx.sweepIndex + 1).toNat 0) := by
        rw [swept, succ, List.getD_eq_getElem _ _ inside, List.getElem?_eq_getElem inside]
      refine ⟨{ ctx with
        currentCount := 0, sweepIndex := ctx.sweepIndex + 1,
        payloadSize := ctx.sweepSizes.getD (ctx.sweepIndex + 1).toNat 0 }, ?_, ?_⟩
      · exact
        { rounds := rounds
          count := zero.symm
          size := other ▸ size
          sweep := .inl ⟨rfl, number, swept, other ▸ succ⟩ }
      · rw [if_neg (by rw [UInt32.lt_iff_toNat_lt, count, rounds]; exact within), Desk.run_map,
          RemotePing.finishTest, Desk.run_bind, Desk.run_logLines, Option.bind_some]
        dsimp only
        rw [if_pos ⟨by rw [number]; decide,
          by rw [UInt32.lt_iff_toNat_lt, number, succ]; exact small⟩, run_startOneTest,
          Option.map_map]
        rfl
    · rw [single] at inside
      exact absurd inside (Nat.not_lt.mpr (Nat.le_add_left 1 _))

theorem run_pong_of_eq (self : Self) (desk : Desk) {target : UInt32} {sizes : List UInt32} {turn : Nat}
    (underway : Underway target sizes turn ctx) (positive : 0 < target)
    (last : turn + 1 = target.toNat * sizes.length) :
    ∃ next, desk.run (RemotePing.pong self (some ctx)) = some (desk, some next) := by
  have count := underway.toNat_succ positive
  have nonzero : 0 < target.toNat := UInt32.lt_iff_toNat_lt.mp positive
  have full : turn % target.toNat + 1 = target.toNat := by
    by_contra short
    have within : turn % target.toNat + 1 < target.toNat :=
      lt_of_le_of_ne (Nat.mod_lt turn nonzero) short
    have residue := (succ_turn_of_lt within).2
    rw [last, Nat.mul_mod_right] at residue
    exact absurd residue.symm (Nat.succ_ne_zero _)
  have ended : turn / target.toNat + 1 = sizes.length := by
    rw [← (succ_turn_of_eq full).1, last, Nat.mul_div_cancel_left _ nonzero]
  rw [RemotePing.pong, Desk.run_bind, run_progress, Option.bind_some]
  dsimp only
  rw [if_neg (by rw [UInt32.lt_iff_toNat_lt, count, underway.rounds, full]; exact lt_irrefl _),
    Desk.run_map, RemotePing.finishTest, Desk.run_bind, Desk.run_logLines, Option.bind_some]
  dsimp only
  rw [if_neg]
  · exact ⟨_, rfl⟩
  · rintro ⟨swept, more⟩
    rcases underway.sweep with ⟨rfl, number, _, index⟩ | ⟨_, none⟩
    · rw [UInt32.lt_iff_toNat_lt, number, UInt32.toNat_add, index] at more
      have eight : turn / target.toNat + 1 = 8 := ended
      change (turn / target.toNat + 1) % 2 ^ 32 < 8 at more
      rw [eight] at more
      exact absurd more (by decide)
    · rw [none] at swept
      exact absurd swept (by decide)

/-! ## Answers -/

/-- The answer of `remote_pong` to a ping. -/
def pongParcel (self : Self) (ping stale : Parcel) : Parcel where
  header :=
    ({ stale.header with
      magic := nosIpcMagic, version := 1, dstService := 0, srcComponent := self.id, msgCode := 2002,
      seq := ping.header.seq, flags := 0, payloadLen := ping.header.payloadLen } : Header).asReply
      ping.header.seq ping.header.srcComponent
  payload := stale.payload.write (ping.payload.read ping.header.payloadLen.toNat)

/-- An answer for a component. -/
structure IsPong (requester : UInt32) (ping parcel : Parcel) : Prop where
  reply : parcel.header.flags = replyFlag
  requester : parcel.header.dstComponent = requester
  service : parcel.header.dstService = 0
  code : parcel.header.msgCode = 2002
  length : parcel.header.payloadLen = ping.header.payloadLen

theorem isPong_pongParcel {ping : Parcel} (stale : Parcel) (sent : IsPing self ctx ping)
    (answerer : Self) : IsPong self.id ping (pongParcel answerer ping stale) :=
  ⟨by simp [pongParcel, Header.asReply], sent.source, rfl, rfl, rfl⟩

theorem run_remotePong_of_none (self : Self) (parcel : Parcel)
    (context : Option (UInt32 × UInt32)) (none : luck.chunk = none) :
    ∃ after, (Desk.receive parcel context luck).run (RemotePong.compOnMsg self Desk.inbox) =
      some (after, ()) ∧ after.sent = [] := by
  rw [RemotePong.compOnMsg, Desk.run_bind, Desk.run_envelope, Option.bind_some]
  dsimp only
  split
  · rw [Desk.run_sendMessage_of_none none]
    exact ⟨_, rfl, rfl⟩
  · exact ⟨_, rfl, rfl⟩

theorem run_remotePong (self : Self) {ping stale : Parcel} (code : ping.header.msgCode = 2001)
    (short : ping.header.payloadLen ≤ maxPayloadLen) (got : luck.chunk = some stale) :
    ∃ after, (Desk.receive ping (some (ping.header.seq, ping.header.srcComponent)) luck).run
        (RemotePong.compOnMsg self Desk.inbox) = some (after, ()) ∧
      after.sent = luck.taken (pongParcel self ping stale) := by
  have small : ping.header.payloadLen.toNat ≤ 4096 := UInt32.le_iff_toNat_le.mp short
  have size : (envelopeSize + ping.header.payloadLen).toNat =
      headerSize + ping.header.payloadLen.toNat := by
    rw [toNat_envelopeSize_add, Nat.mod_eq_of_lt]
    have : headerSize = 32 := rfl
    omega
  rw [RemotePong.compOnMsg, Desk.run_bind, Desk.run_envelope, Option.bind_some]
  dsimp only
  rw [Desk.parcels_receive, if_pos code, Desk.run_sendMessage got
    fun payload => payload.write (ping.payload.read ping.header.payloadLen.toNat)]
  · rw [Desk.run_reply rfl]
    exact ⟨_, rfl, rfl⟩
  · split
    · exact Desk.run_memcpy size.ge (by simp [Desk.inChunk, Desk.receive])
    · rename_i empty
      have zero : ping.header.payloadLen = 0 := by simpa using empty
      rw [zero]
      rfl

/-! ## Steps -/

/-- The state after `remote_ping` has tried to send a ping. -/
def pinged (self : Self) (bench : Bench) (ctx : RemotePing.Ctx) (luck : Luck) : Option Bench :=
  match luck.chunk with
  | none => some { bench with ctx := ctx }
  | some stale =>
      if headerSize + ctx.payloadSize.toNat < 2 ^ 32 then
        some
          { ctx := ctx
            flying := bench.flying ++ luck.taken (pingParcel self ctx stale)
            pings := bench.pings ++ (luck.taken (pingParcel self ctx stale)).map summary }
      else none

theorem handle_ping (rest : Bench) {parcel : Parcel} {next : RemotePing.Ctx}
    (handled : (Desk.receive parcel none luck).run
        (RemotePing.compOnMsg pair.ping Desk.inbox (some rest.ctx)) =
      ((Desk.receive parcel none luck).run
        (RemotePing.sendPing pair.ping (some next))).map fun done => (done.1, some next)) :
    rest.handle pair parcel luck .ping = pinged pair.ping rest next luck := by
  rw [handle, handled, pinged]
  cases got : luck.chunk with
  | none =>
      rw [run_sendPing_of_none got]
      simp
  | some stale =>
      dsimp only
      split
      · rename_i fits
        rw [run_sendPing (Desk.receive parcel none luck) got fits]
        simp
      · rename_i wraps
        rw [run_sendPing_of_wrap (Desk.receive parcel none luck) got
          (Nat.not_lt.mp wraps)]
        rfl

/-! ## Phases -/

variable {target : UInt32} {sizes : List UInt32} {turn : Nat}

theorem length_plan (target : UInt32) (sizes : List UInt32) :
    (plan target sizes).length = target.toNat * sizes.length := by
  simp [plan, List.length_flatMap, Nat.mul_comm]

theorem getElem?_plan (positive : 0 < target) :
    (plan target sizes)[turn]? =
      sizes[turn / target.toNat]?.map fun size => (.ofNat (turn % target.toNat + 1), size) := by
  have nonzero : 0 < target.toNat := UInt32.lt_iff_toNat_lt.mp positive
  induction sizes generalizing turn with
  | nil => rfl
  | cons size sizes ih =>
      change ((List.range target.toNat).map _ ++ plan target sizes)[turn]? = _
      rcases Nat.lt_or_ge turn target.toNat with first | later
      · rw [List.getElem?_append_left (by simpa using first), Nat.div_eq_of_lt first,
          Nat.mod_eq_of_lt first]
        simp [first]
      · obtain ⟨rest, rfl⟩ := Nat.exists_eq_add_of_le later
        rw [List.getElem?_append_right (by simp), List.length_map, List.length_range,
          Nat.add_sub_cancel_left, ih, Nat.add_div_left _ nonzero, Nat.add_mod_left,
          List.getElem?_cons_succ]

theorem Underway.getElem?_plan (underway : Underway target sizes turn ctx)
    (positive : 0 < target) :
    (plan target sizes)[turn]? = some (ctx.currentCount + 1, ctx.payloadSize) := by
  rw [Bench.getElem?_plan positive, underway.size, ← underway.toNat_succ positive,
    UInt32.ofNat_toNat]
  rfl

theorem Underway.take_plan (underway : Underway target sizes turn ctx) (positive : 0 < target) :
    (plan target sizes).take (turn + 1) =
      (plan target sizes).take turn ++ [(ctx.currentCount + 1, ctx.payloadSize)] := by
  rw [List.take_add_one, underway.getElem?_plan positive]
  rfl

/-- Some ping or its answer is under way. -/
structure Flight (target : UInt32) (sizes : List UInt32) (turn : Nat) (parcel : Parcel)
    (bench : Bench) : Prop where
  underway : Underway target sizes turn bench.ctx
  flying : bench.flying = [parcel]
  pings : bench.pings = (plan target sizes).take (turn + 1)

/-- What holds between two steps of a test. -/
inductive Phase (pair : Pair) (target requested : UInt32) (sizes : List UInt32) (bench : Bench) :
    Prop
  /-- Nothing happens any more. -/
  | ended (flying : bench.flying = []) (pings : bench.pings <+: plan target sizes)
  /-- The message that starts the test is under way. -/
  | start (parcel : Parcel) (started : IsStart target requested parcel)
      (flying : bench.flying = [parcel]) (pings : bench.pings = [])
  /-- A ping is under way. -/
  | ping (turn : Nat) (parcel : Parcel) (flight : Flight target sizes turn parcel bench)
      (sent : IsPing pair.ping bench.ctx parcel)
  /-- An answer is under way. -/
  | pong (turn : Nat) (ping parcel : Parcel) (flight : Flight target sizes turn parcel bench)
      (sent : IsPing pair.ping bench.ctx ping) (answer : IsPong pair.ping.id ping parcel)

variable {requested : UInt32}

/-- There is at most one message under way, and the pings follow the plan. -/
theorem Phase.spec (phase : Phase pair target requested sizes bench) :
    bench.flying.length ≤ 1 ∧ bench.pings <+: plan target sizes := by
  cases phase with
  | ended flying pings => exact ⟨by simp [flying], pings⟩
  | start parcel started flying pings => exact ⟨by simp [flying], by simp [pings]⟩
  | ping turn parcel flight sent =>
      exact ⟨by simp [flight.flying], flight.pings ▸ List.take_prefix _ _⟩
  | pong turn ping parcel flight sent answer =>
      exact ⟨by simp [flight.flying], flight.pings ▸ List.take_prefix _ _⟩

theorem Phase.erased (phase : Phase pair target requested sizes bench) {index : Nat}
    (inside : index < bench.flying.length) : bench.flying.eraseIdx index = [] := by
  have short := phase.spec.1
  obtain rfl : index = 0 := by omega
  rw [List.eq_nil_iff_length_eq_zero, List.length_eraseIdx_of_lt inside]
  omega

theorem flight_of_pinged {next : RemotePing.Ctx} (underway : Underway target sizes turn next)
    (positive : 0 < target) (flying : bench.flying = [])
    (pings : bench.pings = (plan target sizes).take turn) (parcel : Parcel)
    (counted : summary parcel = (next.currentCount + 1, next.payloadSize)) :
    Flight target sizes turn parcel
      { ctx := next
        flying := bench.flying ++ [parcel]
        pings := bench.pings ++ [parcel].map summary } where
  underway := underway
  flying := by simp [flying]
  pings := by
    rw [underway.take_plan positive, pings, ← counted]
    rfl

theorem phase_of_pinged {next : RemotePing.Ctx} (underway : Underway target sizes turn next)
    (positive : 0 < target) (flying : bench.flying = [])
    (pings : bench.pings = (plan target sizes).take turn)
    (done : pinged pair.ping bench next luck = some after) :
    Phase pair target requested sizes after := by
  unfold pinged at done
  cases got : luck.chunk with
  | none =>
      rw [got] at done
      obtain rfl := Option.some.inj done
      exact .ended flying (pings ▸ List.take_prefix _ _)
  | some stale =>
      rw [got] at done
      dsimp only at done
      split at done
      · obtain rfl := Option.some.inj done
        unfold Luck.taken
        split
        · exact .ping turn _ (flight_of_pinged underway positive flying pings _ rfl)
            (isPing_pingParcel _ _ _)
        · exact .ended (by simp [flying]) (by simp [pings, List.take_prefix])
      · cases done

/-- With a buffer and a working transport the ping is sent. -/
theorem pinged_of_good (self : Self) {next : RemotePing.Ctx}
    (underway : Underway target sizes turn next) (positive : 0 < target)
    (flying : bench.flying = []) (pings : bench.pings = (plan target sizes).take turn)
    (short : next.payloadSize ≤ maxPayloadLen) (good : luck.good) :
    ∃ after parcel, pinged self bench next luck = some after ∧
      Flight target sizes turn parcel after ∧ IsPing self after.ctx parcel := by
  obtain ⟨available, status⟩ := good
  obtain ⟨stale, got⟩ := Option.isSome_iff_exists.mp available
  have small : next.payloadSize.toNat ≤ 4096 := UInt32.le_iff_toNat_le.mp short
  have fits : headerSize + next.payloadSize.toNat < 2 ^ 32 := by
    have : headerSize = 32 := rfl
    omega
  unfold pinged Luck.taken
  rw [got]
  dsimp only
  rw [if_pos fits, if_pos status]
  exact ⟨_, _, rfl, flight_of_pinged underway positive flying pings _ rfl,
    isPing_pingParcel _ _ _⟩

theorem IsStart.route {parcel : Parcel} (start : IsStart target requested parcel) :
    pair.route parcel.header = none ∨ pair.route parcel.header = some .ping := by
  unfold Pair.route
  rw [if_pos start.service]
  split
  · split <;> simp
  · simp

theorem IsPing.toRequester {parcel : Parcel} (sent : IsPing self ctx parcel) :
    parcel.header.toRequester = false := by
  rw [Header.toRequester, sent.flags]
  rfl

theorem IsPing.route {parcel : Parcel} (sent : IsPing self ctx parcel) (pair : Pair) :
    pair.route parcel.header = none ∨
      pair.route parcel.header = some .pong ∧ parcel.header.payloadLen ≤ maxPayloadLen := by
  unfold Pair.route
  rw [sent.toRequester, sent.service]
  by_cases short : parcel.header.payloadLen ≤ maxPayloadLen
  · simp [short]
  · simp [short]

theorem IsPong.route {ping parcel : Parcel} (answer : IsPong pair.ping.id ping parcel) :
    pair.route parcel.header = none ∨ pair.route parcel.header = some .ping := by
  unfold Pair.route
  rw [answer.service]
  split
  · split <;> simp
  · simp

theorem run_pong {parcel : Parcel} (code : parcel.header.msgCode = 2002) :
    (Desk.receive parcel none luck).run (RemotePing.compOnMsg self Desk.inbox (some ctx)) =
      (Desk.receive parcel none luck).run (RemotePing.pong self (some ctx)) := by
  rw [RemotePing.compOnMsg, Desk.run_bind, Desk.run_envelope, Option.bind_some]
  dsimp only
  rw [Desk.parcels_receive, code]
  rfl

theorem Underway.lt_length (underway : Underway target sizes turn ctx) (positive : 0 < target) :
    turn < target.toNat * sizes.length := by
  obtain ⟨inside, _⟩ := List.getElem?_eq_some_iff.mp underway.size
  exact (Nat.div_lt_iff_lt_mul (UInt32.lt_iff_toNat_lt.mp positive)).mp inside |>.trans_eq
    (Nat.mul_comm _ _)

theorem eq_of_getElem?_singleton {α : Type*} {first other : α} {index : Nat}
    (found : [first][index]? = some other) : other = first := by
  obtain ⟨inside, rfl⟩ := List.getElem?_eq_some_iff.mp found
  simp

theorem phase_of_start (bench : Bench) {payloadSize : UInt32} {sweep : Bool} {parcel : Parcel}
    (start : IsStart target (Bench.requested payloadSize sweep) parcel) (positive : 0 < target)
    (flying : bench.flying = []) (pings : bench.pings = [])
    (done : bench.handle pair parcel luck .ping = some after) :
    Phase pair target (Bench.requested payloadSize sweep) (Bench.sizes payloadSize sweep)
      after := by
  rw [handle_ping _ (run_start start)] at done
  exact phase_of_pinged (underway_started _ _ _ _) positive flying pings done

theorem phase_of_ping (rest : Bench) {parcel : Parcel}
    (underway : Underway target sizes turn rest.ctx) (sent : IsPing pair.ping rest.ctx parcel)
    (short : parcel.header.payloadLen ≤ maxPayloadLen) (flying : rest.flying = [])
    (pings : rest.pings = (plan target sizes).take (turn + 1))
    (done : rest.handle pair parcel luck .pong = some after) :
    Phase pair target requested sizes after := by
  cases got : luck.chunk with
  | none =>
      obtain ⟨desk, ran, none⟩ := run_remotePong_of_none pair.pong parcel
        (some (parcel.header.seq, parcel.header.srcComponent)) got
      rw [handle, ran] at done
      obtain rfl := Option.some.inj done
      exact .ended (by simp [flying, none]) (pings ▸ List.take_prefix _ _)
  | some stale =>
      obtain ⟨desk, ran, handed⟩ := run_remotePong pair.pong sent.code short got
      rw [handle, ran] at done
      obtain rfl := Option.some.inj done
      unfold Luck.taken at handed
      split at handed
      · exact .pong turn parcel _ ⟨underway, by simp [flying, handed], pings⟩ sent
          (isPong_pongParcel stale sent pair.pong)
      · exact .ended (by simp [flying, handed]) (pings ▸ List.take_prefix _ _)

theorem phase_of_pong (rest : Bench) {parcel : Parcel}
    (underway : Underway target sizes turn rest.ctx) (code : parcel.header.msgCode = 2002)
    (positive : 0 < target) (flying : rest.flying = [])
    (pings : rest.pings = (plan target sizes).take (turn + 1))
    (done : rest.handle pair parcel luck .ping = some after) :
    Phase pair target requested sizes after := by
  rcases Nat.lt_or_ge (turn + 1) (target.toNat * sizes.length) with more | least
  · obtain ⟨next, later, ran⟩ := run_pong_of_lt pair.ping
      (Desk.receive parcel none luck) underway positive more
    rw [handle_ping _ ((run_pong code).trans ran)] at done
    exact phase_of_pinged later positive flying pings done
  · obtain ⟨next, ran⟩ := run_pong_of_eq pair.ping
      (Desk.receive parcel none luck) underway positive
      (Nat.le_antisymm (underway.lt_length positive) least)
    rw [handle, run_pong code, ran] at done
    obtain rfl := Option.some.inj done
    exact .ended (by simp [flying]) (by simp [pings, List.take_prefix])

theorem phase_of_step {payloadSize : UInt32} {sweep : Bool} {op : BenchOp}
    (phase : Phase pair target (Bench.requested payloadSize sweep) (Bench.sizes payloadSize sweep)
      bench)
    (positive : 0 < target) (stepped : bench.step pair op = some after) :
    Phase pair target (Bench.requested payloadSize sweep) (Bench.sizes payloadSize sweep)
      after := by
  cases op with
  | lose index =>
      obtain ⟨parcel, found, rfl⟩ := Option.map_eq_some_iff.mp stepped
      obtain ⟨inside, _⟩ := List.getElem?_eq_some_iff.mp found
      exact .ended (phase.erased inside) phase.spec.2
  | deliver index luck =>
      obtain ⟨arrived, found, stepped⟩ := Option.bind_eq_some_iff.mp stepped
      obtain ⟨inside, _⟩ := List.getElem?_eq_some_iff.mp found
      let rest : Bench := { bench with flying := bench.flying.eraseIdx index }
      have empty : rest.flying = [] := phase.erased inside
      have dropped (nowhere : pair.route arrived.header = none) :
          Phase pair target (Bench.requested payloadSize sweep)
            (Bench.sizes payloadSize sweep) after := by
        rw [nowhere] at stepped
        obtain rfl := Option.some.inj stepped
        exact .ended empty phase.spec.2
      cases phase with
      | ended flying pings => simp [flying] at inside
      | start parcel started flying pings =>
          rw [flying] at found
          obtain rfl := eq_of_getElem?_singleton found
          rcases started.route with nowhere | routed
          · exact dropped nowhere
          · rw [routed] at stepped
            exact phase_of_start rest started positive empty pings stepped
      | ping turn parcel flight sent =>
          rw [flight.flying] at found
          obtain rfl := eq_of_getElem?_singleton found
          rcases sent.route pair with nowhere | ⟨routed, short⟩
          · exact dropped nowhere
          · rw [routed] at stepped
            exact phase_of_ping rest flight.underway sent short empty flight.pings stepped
      | pong turn ping parcel flight sent answer =>
          rw [flight.flying] at found
          obtain rfl := eq_of_getElem?_singleton found
          rcases answer.route with nowhere | routed
          · exact dropped nowhere
          · rw [routed] at stepped
            exact phase_of_pong rest flight.underway answer.code positive empty flight.pings
              stepped

theorem rounds_pos (count : UInt32) : 0 < rounds count := by
  unfold rounds
  split
  · decide
  · rename_i nonzero
    exact UInt32.pos_iff_ne_zero.mpr nonzero

theorem phase_of_command {count payloadSize : UInt32} {sweep : Bool} (idle : bench.flying = [])
    (fresh : bench.pings = [])
    (commanded : bench.command count payloadSize sweep luck = some after) :
    Phase pair (rounds count) (Bench.requested payloadSize sweep) (Bench.sizes payloadSize sweep)
      after := by
  cases got : luck.chunk with
  | none =>
      rw [command_of_none got] at commanded
      obtain rfl := Option.some.inj commanded
      exact .ended idle (by simp [fresh])
  | some stale =>
      rw [command_of_some got] at commanded
      obtain rfl := Option.some.inj commanded
      unfold Luck.taken
      split
      · exact .start _ (isStart_startParcel _ _ stale) (by simp [idle]) fresh
      · exact .ended (by simp [idle]) (by simp [fresh])

/-- Whatever is lost, refused or without a buffer, there is never more than one message of the test
under way, and the pings are the first ones of the plan in their order. -/
theorem pings_prefix_plan {started : Bench} {count payloadSize : UInt32} {sweep : Bool}
    {ops : List BenchOp} (idle : bench.flying = []) (fresh : bench.pings = [])
    (commanded : bench.command count payloadSize sweep luck = some started)
    (execution : Transition.run (Bench.step pair) started ops = some after) :
    after.flying.length ≤ 1 ∧
      after.pings <+: plan (rounds count) (Bench.sizes payloadSize sweep) := by
  have reach : Transition.Reachable (Bench.step pair) (· = started) after :=
    Transition.reachable_of_run (.start rfl) execution
  refine (reach.invariant (Phase pair (rounds count) (Bench.requested payloadSize sweep)
    (Bench.sizes payloadSize sweep)) ?_ ?_).spec
  · rintro _ rfl
    exact phase_of_command idle fresh commanded
  · intro before op later phase _ stepped
    exact phase_of_step phase (rounds_pos count) stepped

/-- A cleared buffer. -/
def blank : Parcel := ⟨⟨0, 0, 0, 0, 0, 0, 0, 0, 0⟩, fun _ => 0⟩

/-- A cleared buffer and a working transport. -/
def clear : Luck := ⟨some blank, .ok⟩

/-- A component for each side. -/
def trial : Pair := ⟨⟨3, []⟩, ⟨4, []⟩⟩

/-- Before any test. -/
def fresh : Bench := ⟨⟨0, 0, 0, 0, 0, []⟩, [], []⟩

/-- After the command. -/
def begun : Bench :=
  { fresh with flying := [startParcel (rounds 1) (Bench.requested 64 false) blank] }

theorem command_fresh : fresh.command 1 64 false clear = some begun := command_of_some rfl

/-! ## Without losses -/

theorem step_deliver {parcel : Parcel} {side : Side} (flying : bench.flying = [parcel])
    (routed : pair.route parcel.header = some side) :
    bench.step pair (.deliver 0 luck) = { bench with flying := [] }.handle pair parcel luck side := by
  rw [step, flying, List.getElem?_cons_zero, Option.bind_some, routed]
  rfl

theorem pings_prefix_plan_loss :
    ∃ after,
      Transition.run (step trial) begun [.deliver 0 clear, .lose 0] = some after ∧
      after.flying.length ≤ 1 ∧ after.pings <+: plan (rounds 1) (Bench.sizes 64 false) := by
  have first : step trial begun (.deliver 0 clear) =
      pinged trial.ping { begun with flying := [] } (started begun.ctx (rounds 1) 64) clear := by
    rw [step_deliver rfl rfl]
    exact handle_ping { begun with flying := [] } (run_start (isStart_startParcel _ _ blank))
  have execution : ∃ after,
      Transition.run (step trial) begun [.deliver 0 clear, .lose 0] = some after := by
    rw [Transition.run_cons, first]
    exact ⟨_, rfl⟩
  obtain ⟨after, execution⟩ := execution
  exact ⟨after, execution, pings_prefix_plan rfl rfl command_fresh execution⟩

theorem IsPing.route_of_le {parcel : Parcel} (sent : IsPing self ctx parcel) (pair : Pair)
    (short : ctx.payloadSize ≤ maxPayloadLen) : pair.route parcel.header = some .pong := by
  unfold Pair.route
  rw [sent.toRequester, sent.service, sent.length]
  simp [short]

theorem IsPong.route_of_le {ping parcel : Parcel} (answer : IsPong pair.ping.id ping parcel)
    (known : pair.ping.id ≠ 0) (short : ping.header.payloadLen ≤ maxPayloadLen) :
    pair.route parcel.header = some .ping := by
  unfold Pair.route Header.toRequester
  rw [answer.reply, answer.requester, answer.length]
  simp [known, short, replyFlag]

theorem step_of_ping {parcel : Parcel} (flight : Flight target sizes turn parcel bench)
    (sent : IsPing pair.ping bench.ctx parcel) (short : bench.ctx.payloadSize ≤ maxPayloadLen)
    (good : luck.good) :
    ∃ after answer, bench.step pair (.deliver 0 luck) = some after ∧ after.ctx = bench.ctx ∧
      Flight target sizes turn answer after ∧ IsPong pair.ping.id parcel answer := by
  obtain ⟨available, status⟩ := good
  obtain ⟨stale, got⟩ := Option.isSome_iff_exists.mp available
  obtain ⟨desk, ran, handed⟩ := run_remotePong pair.pong sent.code (sent.length ▸ short) got
  rw [Luck.taken, if_pos status] at handed
  rw [step_deliver flight.flying (sent.route_of_le pair short), handle, ran]
  exact ⟨_, _, rfl, rfl, ⟨flight.underway, by simp [handed], flight.pings⟩,
    isPong_pongParcel stale sent pair.pong⟩

theorem step_of_pong {ping parcel : Parcel} (flight : Flight target sizes turn parcel bench)
    (sent : IsPing pair.ping bench.ctx ping) (answer : IsPong pair.ping.id ping parcel)
    (known : pair.ping.id ≠ 0) (short : ∀ size ∈ sizes, size ≤ maxPayloadLen)
    (positive : 0 < target) (more : turn + 1 < target.toNat * sizes.length) (good : luck.good) :
    ∃ after next, bench.step pair (.deliver 0 luck) = some after ∧
      Flight target sizes (turn + 1) next after ∧ IsPing pair.ping after.ctx next := by
  have short_ping : ping.header.payloadLen ≤ maxPayloadLen := by
    rw [sent.length]
    exact short _ (List.mem_of_getElem? flight.underway.size)
  obtain ⟨next, later, ran⟩ := run_pong_of_lt pair.ping
    (Desk.receive parcel none luck) flight.underway positive more
  rw [step_deliver flight.flying (answer.route_of_le known short_ping),
    handle_ping { bench with flying := [] } ((run_pong answer.code).trans ran)]
  exact pinged_of_good pair.ping later positive rfl flight.pings
    (short _ (List.mem_of_getElem? later.size)) good

theorem step_of_last_pong (luck : Luck) {ping parcel : Parcel}
    (flight : Flight target sizes turn parcel bench)
    (sent : IsPing pair.ping bench.ctx ping) (answer : IsPong pair.ping.id ping parcel)
    (known : pair.ping.id ≠ 0) (short : ∀ size ∈ sizes, size ≤ maxPayloadLen)
    (positive : 0 < target) (last : turn + 1 = target.toNat * sizes.length) :
    ∃ after, bench.step pair (.deliver 0 luck) = some after ∧ after.flying = [] ∧
      after.pings = plan target sizes := by
  have short_ping : ping.header.payloadLen ≤ maxPayloadLen := by
    rw [sent.length]
    exact short _ (List.mem_of_getElem? flight.underway.size)
  obtain ⟨next, ran⟩ := run_pong_of_eq pair.ping
    (Desk.receive parcel none luck) flight.underway positive last
  rw [step_deliver flight.flying (answer.route_of_le known short_ping), handle,
    run_pong answer.code, ran]
  refine ⟨_, rfl, by simp, ?_⟩
  have all : (plan target sizes).take (turn + 1) = plan target sizes :=
    List.take_of_length_le (by rw [length_plan, last])
  simp [flight.pings, all]

/-- A message arrives, there is a buffer for the next one and the transport takes it. -/
def Smooth (op : BenchOp) : Prop := ∃ luck : Luck, op = .deliver 0 luck ∧ luck.good

/-- From a ping on, two messages for each ping that is left end the test. -/
theorem run_of_ping {parcel : Parcel} (known : pair.ping.id ≠ 0)
    (short : ∀ size ∈ sizes, size ≤ maxPayloadLen) (positive : 0 < target) (left : Nat)
    (flight : Flight target sizes turn parcel bench)
    (sent : IsPing pair.ping bench.ctx parcel)
    (rest : turn + 1 + left = target.toNat * sizes.length)
    {ops : List BenchOp} (count : ops.length = 2 * (left + 1)) (smooth : ∀ op ∈ ops, Smooth op) :
    ∃ after, Transition.run (Bench.step pair) bench ops = some after ∧ after.flying = [] ∧
      after.pings = plan target sizes := by
  induction left generalizing bench turn parcel ops with
  | zero =>
      obtain ⟨first, second, rfl⟩ := List.length_eq_two.mp count
      obtain ⟨luck, rfl, good⟩ := smooth _ List.mem_cons_self
      obtain ⟨luck', rfl, _⟩ := smooth _ (List.mem_cons_of_mem _ List.mem_cons_self)
      obtain ⟨between, answer, answered, kept, later, replied⟩ := step_of_ping flight sent
        (short _ (List.mem_of_getElem? flight.underway.size)) good
      obtain ⟨after, ended, empty, pings⟩ := step_of_last_pong luck' later
        (kept ▸ sent) replied known short positive rest
      refine ⟨after, ?_, empty, pings⟩
      rw [Transition.run_cons, answered, Option.bind_some, Transition.run_cons, ended]
      rfl
  | succ left ih =>
      obtain ⟨first, ops, rfl⟩ := List.exists_of_length_succ _ count
      obtain ⟨second, ops, rfl⟩ := List.exists_of_length_succ _ (Nat.succ.inj count)
      obtain ⟨luck, rfl, good⟩ := smooth _ List.mem_cons_self
      obtain ⟨luck', rfl, good'⟩ := smooth _ (List.mem_cons_of_mem _ List.mem_cons_self)
      obtain ⟨between, answer, answered, kept, later, replied⟩ := step_of_ping flight sent
        (short _ (List.mem_of_getElem? flight.underway.size)) good
      obtain ⟨after, next, continued, following, following_sent⟩ := step_of_pong later
        (kept ▸ sent) replied known short positive (by omega) good'
      obtain ⟨final, ran, done⟩ := ih following following_sent (by omega)
        (Nat.succ.inj (Nat.succ.inj count))
        fun op mem => smooth op (List.mem_cons_of_mem _ (List.mem_cons_of_mem _ mem))
      refine ⟨final, ?_, done⟩
      rw [Transition.run_cons, answered, Option.bind_some, Transition.run_cons, continued]
      exact ran

/-- If nothing is lost, refused or without a buffer, every ping of the plan is sent and answered, and
nothing is left under way. -/
theorem run_eq_plan {count payloadSize : UInt32} {sweep : Bool} {stale : Parcel}
    {ops : List BenchOp} (idle : bench.flying = []) (fresh : bench.pings = [])
    (got : luck.chunk = some stale) (direct : stale.header.flags = 0) (taken : luck.status = .ok)
    (known : pair.ping.id ≠ 0)
    (short : ∀ size ∈ Bench.sizes payloadSize sweep, size ≤ maxPayloadLen)
    (length : ops.length =
      1 + 2 * (plan (rounds count) (Bench.sizes payloadSize sweep)).length)
    (smooth : ∀ op ∈ ops, Smooth op) :
    ∃ started after, bench.command count payloadSize sweep luck = some started ∧
      Transition.run (Bench.step pair) started ops = some after ∧ after.flying = [] ∧
      after.pings = plan (rounds count) (Bench.sizes payloadSize sweep) := by
  have positive := rounds_pos count
  let parcel := startParcel (rounds count) (Bench.requested payloadSize sweep) stale
  have start : IsStart (rounds count) (Bench.requested payloadSize sweep) parcel :=
    isStart_startParcel _ _ stale
  have routed : pair.route parcel.header = some .ping := by
    have flags : parcel.header.flags = 0 := direct
    unfold Pair.route Header.toRequester
    rw [flags, start.service]
    rfl
  obtain ⟨first, ops, rfl⟩ := List.exists_of_length_succ _ (length.trans (Nat.add_comm 1 _))
  obtain ⟨luck', rfl, good⟩ := smooth _ List.mem_cons_self
  have underway := underway_started bench.ctx (rounds count) payloadSize sweep
  let rest : Bench := { bench with flying := [] }
  have nothing : rest.flying = [] := rfl
  obtain ⟨between, ping, continued, flight, sent⟩ := pinged_of_good pair.ping underway positive
    nothing fresh (short _ (List.mem_of_getElem? underway.size)) good
  have nonempty := underway.lt_length positive
  rw [length_plan] at length
  obtain ⟨left, number⟩ := Nat.exists_eq_add_of_lt nonempty
  obtain ⟨after, ran, empty, pings⟩ := run_of_ping known short positive left flight sent
    (by omega) (show ops.length = 2 * (left + 1) by simp only [List.length_cons] at length; omega)
    fun op mem => smooth op (List.mem_cons_of_mem _ mem)
  refine ⟨_, after, command_of_some got, ?_, empty, pings⟩
  have flying : bench.flying ++ luck.taken parcel = [parcel] := by
    rw [idle, Luck.taken, if_pos taken]
    rfl
  rw [Transition.run_cons, step_deliver flying routed, handle_ping _ (run_start start), continued]
  exact ran

/-- A sweep with two pings of each size. -/
theorem run_eq_plan_sweep :
    ∃ started after, fresh.command 2 0 true clear = some started ∧
      Transition.run (step trial) started (List.replicate 33 (.deliver 0 clear)) = some after ∧
      after.flying = [] ∧ after.pings = plan (rounds 2) (Bench.sizes 0 true) := by
  refine run_eq_plan rfl rfl (show clear.chunk = some blank from rfl) rfl rfl (by decide) ?_ ?_ ?_
  · have short : ∀ size ∈ RemotePing.defaults, size.toNat ≤ 4096 := by
      simp [RemotePing.defaults]
    exact fun size mem => UInt32.le_iff_toNat_le.mpr (short size mem)
  · rw [length_plan]
    rfl
  · exact fun op mem => ⟨clear, List.eq_of_mem_replicate mem, rfl, rfl⟩

end Bench

end CodexNos.Components
