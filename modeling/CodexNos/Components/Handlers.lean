import CodexNos.Lib.Calls
import CodexNos.Memory.Pool
import CodexNos.Messaging.Envelope

/-!
# The handlers of the components

The `on_msg` of each component, the timer callback of the first one and the commands of the command
line that send messages, as programs that call the messaging layer.  Of the outcomes of these calls
nothing is assumed.
-/

namespace CodexNos.Components

open Lib Memory Messaging

/-- A key of a table of the key-value store. -/
inductive KvKey
  /-- A name in a cleared array of 32 bytes. -/
  | name (bytes : List UInt8)
  /-- A counter. -/
  | counter (value : Int32)
  deriving DecidableEq, Repr

/-- A call of a handler. -/
inductive Call
  /-- `nos_buffer_alloc`. -/
  | bufferAlloc (size headroom : UInt32)
  /-- `nos_buffer_release`. -/
  | bufferRelease (buf : BufferId)
  /-- Read the envelope of a message. -/
  | envelope (buf : BufferId)
  /-- Read a word of the payload of a message. -/
  | payloadWord (buf : BufferId) (index : Nat)
  /-- Assign fields of the envelope. -/
  | assign (buf : BufferId) (fields : Header → Header)
  /-- Write a word of the payload. -/
  | putWord (buf : BufferId) (index : Nat) (word : UInt32)
  /-- `memset` of the payload. -/
  | memset (buf : BufferId) (value : UInt8) (len : UInt32)
  /-- `memcpy` between payloads. -/
  | memcpy (buf source : BufferId) (len : UInt32)
  /-- `nos_service_get_reply_ctx`. -/
  | getReplyCtx (buf : BufferId)
  /-- `nos_service_msg_send`. -/
  | serviceMsgSend (buf : BufferId)
  /-- `nos_service_reply`. -/
  | serviceReply (ctx : Option Nat) (buf : BufferId)
  /-- `nos_kv_put_auto`. -/
  | kvPut (table : Nat) (key : KvKey) (value : Int32)
  /-- A line of the log. -/
  | log
  /-- An access through a null pointer. -/
  | nullAccess

/-- What a call returns. -/
def Answer : Call → Type
  | .bufferAlloc _ _ => Option BufferId
  | .envelope _ => Header
  | .payloadWord _ _ => UInt32
  | .getReplyCtx _ => Option Nat
  | .serviceMsgSend _ | .serviceReply _ _ | .kvPut _ _ _ => Status
  | .nullAccess => Empty
  | _ => Unit

/-- Code of a component or of the command line. -/
abbrev Handler (α : Type) : Type := Calls Call Answer α

/-- A call with what it has returned. -/
abbrev Event : Type := Calls.Event Answer

/-- What a handler sees of the instance that it runs for. -/
structure Self where
  /-- `id`. -/
  id : UInt32
  /-- `name`. -/
  name : List UInt8
  deriving DecidableEq, Repr

/-- The service ids of `nos_ids.h`. -/
structure ServiceIds where
  /-- `SVC_MGMT`. -/
  svcMgmt : UInt32
  /-- `SVC_ROUTING_V4`. -/
  svcRoutingV4 : UInt32
  deriving DecidableEq, Repr

/-- `sizeof(nos_service_msg_t)`, as the size of an allocation. -/
def envelopeSize : UInt32 := .ofNat headerSize

/-! ## Calls -/

/-- `nos_buffer_alloc`. -/
def bufferAlloc (size headroom : UInt32) : Handler (Option BufferId) :=
  .call (.bufferAlloc size headroom) .done

/-- `nos_buffer_release`. -/
def bufferRelease (buf : BufferId) : Handler Unit := .call (.bufferRelease buf) .done

/-- Read the envelope of a message. -/
def envelope (buf : BufferId) : Handler Header := .call (.envelope buf) .done

/-- Read a word of the payload of a message. -/
def payloadWord (buf : BufferId) (index : Nat) : Handler UInt32 :=
  .call (.payloadWord buf index) .done

/-- Assign fields of the envelope. -/
def assign (buf : BufferId) (fields : Header → Header) : Handler Unit :=
  .call (.assign buf fields) .done

/-- Write a word of the payload. -/
def putWord (buf : BufferId) (index : Nat) (word : UInt32) : Handler Unit :=
  .call (.putWord buf index word) .done

/-- `memset` of the payload. -/
def memset (buf : BufferId) (value : UInt8) (len : UInt32) : Handler Unit :=
  .call (.memset buf value len) .done

/-- `memcpy` between payloads. -/
def memcpy (buf source : BufferId) (len : UInt32) : Handler Unit :=
  .call (.memcpy buf source len) .done

/-- `nos_service_get_reply_ctx`. -/
def getReplyCtx (buf : BufferId) : Handler (Option Nat) := .call (.getReplyCtx buf) .done

/-- `nos_service_msg_send`. -/
def serviceMsgSend (buf : BufferId) : Handler Status := .call (.serviceMsgSend buf) .done

/-- `nos_service_reply`. -/
def serviceReply (ctx : Option Nat) (buf : BufferId) : Handler Status :=
  .call (.serviceReply ctx buf) .done

/-- `nos_kv_put_auto`. -/
def kvPut (table : Nat) (key : KvKey) (value : Int32) : Handler Status :=
  .call (.kvPut table key value) .done

/-- Some lines of the log. -/
def logLines : Nat → Handler Unit
  | 0 => pure ()
  | count + 1 => .call .log fun _ => logLines count

/-- The process has accessed memory through a null pointer. -/
def nullAccess {α : Type} : Handler α := .call .nullAccess Empty.elim

/-- Allocate a message, fill it in, hand it over and release it. -/
def sendMessage (size : UInt32) (fields : Header → Header) (payload : BufferId → Handler Unit)
    (hand : BufferId → Handler Status) : Handler Unit := do
  match ← bufferAlloc size 0 with
  | none => pure ()
  | some buf =>
      assign buf fields
      payload buf
      let _ ← hand buf
      bufferRelease buf

/-- A word of the payload of a message if the payload is that long, else a default. -/
def wordOr (buf : BufferId) (msg : Header) (least : UInt32) (index : Nat) (default : UInt32) :
    Handler UInt32 :=
  if least ≤ msg.payloadLen then payloadWord buf index else pure default

/-- A message without payload. -/
def noPayload (_ : BufferId) : Handler Unit := pure ()

/-! ## `model_1.c` -/

namespace Model1

/-- `heartbeat_callback`. -/
def heartbeatCallback (ids : ServiceIds) (self : Self) : Handler Unit := do
  logLines 1
  sendMessage envelopeSize
    (fun hb =>
      { hb with
        magic := nosIpcMagic, dstService := ids.svcRoutingV4, srcComponent := self.id,
        msgCode := 1001, payloadLen := 0 })
    noPayload serviceMsgSend

/-- `comp_on_msg`. -/
def compOnMsg (ids : ServiceIds) (self : Self) (buf : BufferId) : Handler Unit := do
  let msg ← envelope buf
  logLines 1
  if msg.msgCode = 1001 then
    logLines 1
    sendMessage (envelopeSize + 32)
      (fun rsp =>
        { rsp with
          magic := nosIpcMagic, dstService := ids.svcMgmt, srcComponent := self.id,
          msgCode := 1002 })
      noPayload serviceMsgSend

end Model1

/-! ## `model_2.c` -/

namespace Model2

/-- `comp_ctx_t`. -/
structure Ctx where
  /-- `state_table`. -/
  stateTable : Option Nat
  /-- `test_table`. -/
  testTable : Option Nat
  /-- `local_counter`. -/
  localCounter : Int32
  deriving DecidableEq, Repr

/-- The key of a name: its first 31 bytes and zeros. -/
def nameKey (name : List UInt8) : KvKey :=
  .name (name.take 31 ++ List.replicate (32 - min 31 name.length) 0)

/-- `nos_kv_put_auto`, if there is the table. -/
def putInto (table : Option Nat) (key : KvKey) (value : Int32) : Handler Unit :=
  match table with
  | none => pure ()
  | some table => do
      let _ ← kvPut table key value

/-- `comp_on_msg`. -/
def compOnMsg (self : Self) : Option Ctx → Handler (Option Ctx)
  | none => pure none
  | some ctx => do
      let counter := ctx.localCounter + 1
      putInto ctx.stateTable (nameKey self.name) counter
      putInto ctx.testTable (.counter counter) counter
      logLines 1
      pure (some { ctx with localCounter := counter })

end Model2

/-! ## `model_3.c` -/

namespace Model3

/-- `comp_on_msg`. -/
def compOnMsg (buf : BufferId) : Handler Unit := do
  let msg ← envelope buf
  if msg.msgCode = 3002 then
    let logCount ← wordOr buf msg 4 0 2000
    logLines 1
    logLines logCount.toNat
    logLines 1

end Model3

/-! ## `model_4.c` -/

namespace Model4

/-- `comp_ctx_t`. -/
structure Ctx where
  /-- `counter`. -/
  counter : Int32
  deriving DecidableEq, Repr

/-- The reply to a request.  The reference of the allocation stays with the component. -/
def autoReply (ids : ServiceIds) (self : Self) (msg : Header) : Handler Unit :=
  if msg.msgCode = 1001 then do
    logLines 1
    match ← bufferAlloc (envelopeSize + 32) 0 with
    | none => pure ()
    | some buf =>
        assign buf fun rsp =>
          { rsp with
            magic := nosIpcMagic, dstService := ids.svcMgmt, srcComponent := self.id,
            msgCode := 1002 }
        let _ ← serviceMsgSend buf
  else pure ()

/-- `comp_on_msg`. -/
def compOnMsg (ids : ServiceIds) (self : Self) (buf : BufferId) :
    Option Ctx → Handler (Option Ctx)
  | none => nullAccess
  | some ctx => do
      let msg ← envelope buf
      logLines 1
      autoReply ids self msg
      pure (some { ctx with counter := ctx.counter + 1 })

end Model4

/-! ## `ping.c` -/

namespace Ping

/-- `ping_ctx_t`. -/
structure Ctx where
  /-- `target_count`. -/
  targetCount : UInt32
  /-- `current_count`. -/
  currentCount : UInt32
  deriving DecidableEq, Repr

/-- `send_ping`. -/
def sendPing (self : Self) : Handler Unit :=
  sendMessage envelopeSize
    (fun msg =>
      { msg with
        magic := nosIpcMagic, dstService := 112, srcComponent := self.id, msgCode := 2001,
        payloadLen := 0 })
    noPayload serviceMsgSend

/-- The start of a test. -/
def startTest (self : Self) (buf : BufferId) (msg : Header) : Option Ctx → Handler (Option Ctx)
  | none => nullAccess
  | some _ => do
      let targetCount ← wordOr buf msg 4 0 100000
      logLines 1
      sendPing self
      pure (some ⟨targetCount, 0⟩)

/-- The next ping, or the report on the test. -/
def pingOrReport (self : Self) (ctx : Ctx) : Handler Unit :=
  if ctx.currentCount < ctx.targetCount then sendPing self else logLines 3

/-- The answer to a ping. -/
def pong (self : Self) : Option Ctx → Handler (Option Ctx)
  | none => nullAccess
  | some ctx => do
      let ctx := { ctx with currentCount := ctx.currentCount + 1 }
      pingOrReport self ctx
      pure (some ctx)

/-- `comp_on_msg`. -/
def compOnMsg (self : Self) (buf : BufferId) (ctx : Option Ctx) : Handler (Option Ctx) := do
  let msg ← envelope buf
  if msg.msgCode = 3001 then startTest self buf msg ctx
  else if msg.msgCode = 2002 then pong self ctx
  else pure ctx

end Ping

/-! ## `pong.c` -/

namespace Pong

/-- `comp_on_msg`. -/
def compOnMsg (self : Self) (reqBuf : BufferId) : Handler Unit := do
  let msg ← envelope reqBuf
  if msg.msgCode = 2001 then
    sendMessage envelopeSize
      (fun pong =>
        { pong with
          magic := nosIpcMagic, dstService := 111, srcComponent := self.id, msgCode := 2002,
          payloadLen := 0 })
      noPayload serviceMsgSend

end Pong

/-! ## `remote_ping.c` -/

namespace RemotePing

/-- `rping_ctx_t`. -/
structure Ctx where
  /-- `target_count`. -/
  targetCount : UInt32
  /-- `current_count`. -/
  currentCount : UInt32
  /-- `payload_size`. -/
  payloadSize : UInt32
  /-- `sweep_count`. -/
  sweepCount : UInt32
  /-- `sweep_index`. -/
  sweepIndex : UInt32
  /-- `sweep_sizes`. -/
  sweepSizes : List UInt32
  deriving DecidableEq, Repr

/-- `send_ping`. -/
def sendPing (self : Self) (ctx : Option Ctx) : Handler Unit :=
  let payloadSize := (ctx.map Ctx.payloadSize).getD 0
  sendMessage (envelopeSize + payloadSize)
    (fun msg =>
      { msg with
        magic := nosIpcMagic, version := 1, dstService := 114, srcComponent := self.id,
        msgCode := 2001, seq := (ctx.map fun ctx => ctx.currentCount + 1).getD 0,
        flags := 1, payloadLen := payloadSize })
    (fun buf => if 0 < payloadSize then memset buf 0xA5 payloadSize else pure ())
    serviceMsgSend

/-- `start_one_test`. -/
def startOneTest (self : Self) (ctx : Ctx) (payloadSize : UInt32) : Handler Ctx := do
  let ctx := { ctx with payloadSize := payloadSize, currentCount := 0 }
  logLines 1
  sendPing self (some ctx)
  pure ctx

/-- `defaults`, the payload sizes of a sweep. -/
def defaults : List UInt32 := [32, 64, 128, 256, 512, 1024, 2048, 4096]

/-- The start of a test. -/
def startTest (self : Self) (buf : BufferId) (msg : Header) : Option Ctx → Handler (Option Ctx)
  | none => nullAccess
  | some ctx => do
      let targetCount ← wordOr buf msg 4 0 100000
      let requestedPayload ← wordOr buf msg 8 1 0
      if requestedPayload = 0xFFFFFFFF then
        let ctx :=
          { ctx with
            targetCount := targetCount, sweepCount := .ofNat defaults.length, sweepIndex := 0,
            sweepSizes := defaults }
        logLines 1
        some <$> startOneTest self ctx (ctx.sweepSizes.getD ctx.sweepIndex.toNat 0)
      else
        some <$> startOneTest self
          { ctx with targetCount := targetCount, sweepCount := 0, sweepIndex := 0 } requestedPayload

/-- The end of a test. -/
def finishTest (self : Self) (ctx : Ctx) : Handler Ctx := do
  logLines 5
  if 0 < ctx.sweepCount ∧ ctx.sweepIndex + 1 < ctx.sweepCount then
    let ctx := { ctx with sweepIndex := ctx.sweepIndex + 1 }
    startOneTest self ctx (ctx.sweepSizes.getD ctx.sweepIndex.toNat 0)
  else pure { ctx with sweepCount := 0, sweepIndex := 0 }

/-- A line for every thousand answers. -/
def progress (ctx : Ctx) : Handler Unit :=
  if ctx.currentCount % 1000 = 0 then logLines 1 else pure ()

/-- The answer to a ping. -/
def pong (self : Self) : Option Ctx → Handler (Option Ctx)
  | none => nullAccess
  | some ctx => do
      let ctx := { ctx with currentCount := ctx.currentCount + 1 }
      progress ctx
      if ctx.currentCount < ctx.targetCount then
        sendPing self (some ctx)
        pure (some ctx)
      else some <$> finishTest self ctx

/-- `comp_on_msg`. -/
def compOnMsg (self : Self) (buf : BufferId) (ctx : Option Ctx) : Handler (Option Ctx) := do
  let msg ← envelope buf
  if msg.msgCode = 3001 then startTest self buf msg ctx
  else if msg.msgCode = 2002 then pong self ctx
  else pure ctx

end RemotePing

/-! ## `remote_pong.c` -/

namespace RemotePong

/-- `comp_on_msg`. -/
def compOnMsg (self : Self) (reqBuf : BufferId) : Handler Unit := do
  let msg ← envelope reqBuf
  if msg.msgCode = 2001 then
    sendMessage (envelopeSize + msg.payloadLen)
      (fun pong =>
        { pong with
          magic := nosIpcMagic, version := 1, dstService := 0, srcComponent := self.id,
          msgCode := 2002, seq := msg.seq, flags := 0, payloadLen := msg.payloadLen })
      (fun buf =>
        if 0 < msg.payloadLen then memcpy buf reqBuf msg.payloadLen else pure ())
      (fun buf => do
        let ctx ← getReplyCtx reqBuf
        serviceReply ctx buf)

end RemotePong

/-! ## `nos_cli.c` -/

namespace Cli

/-- A message with some words of payload for a component that runs tests. -/
def request (service msgCode : UInt32) (words : List UInt32) : Handler Unit :=
  sendMessage (envelopeSize + 4 * .ofNat words.length)
    (fun msg =>
      { msg with
        magic := nosIpcMagic, dstService := service, msgCode := msgCode,
        payloadLen := 4 * .ofNat words.length })
    (fun buf => words.zipIdx.forM fun word => putWord buf word.2 word.1)
    serviceMsgSend

/-- `do_log` for `spam`, with the number that it has read. -/
def doLogSpam (count : UInt32) : Handler Unit := request 110 3002 [count]

/-- `do_perf_start`, with the number that it has read. -/
def doPerfStart (count : UInt32) : Handler Unit :=
  request 111 3001 [if count = 0 then 10000 else count]

/-- `do_perf_remote_start`, with the numbers that it has read. -/
def doPerfRemoteStart (count payloadSize : UInt32) (sweep : Bool) : Handler Unit :=
  request 113 3001
    [if count = 0 then 10000 else count, if sweep then 0xFFFFFFFF else payloadSize]

end Cli

/-! ## Entry points -/

/-- A component with its private data. -/
inductive Shipped
  | model1
  | model2 (ctx : Option Model2.Ctx)
  | model3
  | model4 (ctx : Option Model4.Ctx)
  | ping (ctx : Option Ping.Ctx)
  | pong
  | remotePing (ctx : Option RemotePing.Ctx)
  | remotePong
  deriving DecidableEq, Repr

/-- `on_msg`. -/
def Shipped.onMsg (ids : ServiceIds) (self : Self) (buf : BufferId) : Shipped → Handler Shipped
  | .model1 => (fun _ => .model1) <$> Model1.compOnMsg ids self buf
  | .model2 ctx => .model2 <$> Model2.compOnMsg self ctx
  | .model3 => (fun _ => .model3) <$> Model3.compOnMsg buf
  | .model4 ctx => .model4 <$> Model4.compOnMsg ids self buf ctx
  | .ping ctx => .ping <$> Ping.compOnMsg self buf ctx
  | .pong => (fun _ => .pong) <$> Pong.compOnMsg self buf
  | .remotePing ctx => .remotePing <$> RemotePing.compOnMsg self buf ctx
  | .remotePong => (fun _ => .remotePong) <$> RemotePong.compOnMsg self buf

/-- A command of the command line that sends a message. -/
inductive Command
  | logSpam (count : UInt32)
  | perfStart (count : UInt32)
  | perfRemoteStart (count payloadSize : UInt32) (sweep : Bool)
  deriving DecidableEq, Repr

/-- What a thread runs outside of the messaging layer. -/
inductive Entry
  /-- `on_msg` of a component. -/
  | message (comp : CompRef) (self : Self) (buf : BufferId) (shipped : Shipped)
  /-- The timer callback of the first component. -/
  | heartbeat (self : Self)
  /-- A command. -/
  | command (command : Command)
  deriving DecidableEq, Repr

/-- The program of an entry point, with the private data that it leaves. -/
def Entry.program (ids : ServiceIds) : Entry → Handler (Option Shipped)
  | .message _ self buf shipped => some <$> shipped.onMsg ids self buf
  | .heartbeat self => (fun _ => none) <$> Model1.heartbeatCallback ids self
  | .command (.logSpam count) => (fun _ => none) <$> Cli.doLogSpam count
  | .command (.perfStart count) => (fun _ => none) <$> Cli.doPerfStart count
  | .command (.perfRemoteStart count payloadSize sweep) =>
      (fun _ => none) <$> Cli.doPerfRemoteStart count payloadSize sweep

end CodexNos.Components
