import CodexNos.Ipc.Receive

/-!
# Messages built in recycled chunks

The pool does not clear a chunk, and the commands of the shell and the example component assign
only some fields of the envelope that they send.  What they leave is from the previous life of the
chunk: the flags and the requester, which decide between a reply and a service, and for one of them
the length of the payload.  A control flag that is left decides neither; it is another node that
takes the message for a control message.
-/

namespace CodexNos.Messaging

open Lib

/-! ## The two branches -/

/-- The branch that `nos_service_msg_send` and `process_thread_messages` take. -/
inductive Branch
  /-- A reply to a component. -/
  | reply (component : UInt32)
  /-- A message for the provider of a service. -/
  | provider (serviceId : UInt32)
  deriving DecidableEq, Repr

/-- The branch for a header. -/
def Header.branch (header : Header) : Branch :=
  if header.toRequester then .reply header.dstComponent else .provider header.dstService

namespace Tables

/-- Where `nos_service_msg_send` puts a message, by the branch. -/
def routeOf (tables : Tables) : Branch → Option Route
  | .reply component => (tables.findLoaded component).map fun info => .localThread info.ownerThread
  | .provider serviceId =>
      (tables.findService serviceId).map fun entry =>
        if entry.isRemote then .remoteNode entry.remoteNode entry.remoteUdsPath
        else .localThread entry.localThread

/-- To which component `process_thread_messages` hands a message, by the branch. -/
def targetOf (tables : Tables) : Branch → Option CompRef
  | .reply component =>
      ((tables.findLoaded component).bind LoadedInfo.comp).filter tables.receives
  | .provider serviceId =>
      ((tables.findService serviceId).bind ServiceEntry.localProvider).filter tables.receives

theorem route_eq_routeOf (tables : Tables) (header : Header) :
    tables.route header = tables.routeOf header.branch := by
  unfold route Header.branch
  split <;> rfl

theorem dispatchTarget_eq_targetOf (tables : Tables) (header : Header) :
    tables.dispatchTarget header = tables.targetOf header.branch := by
  unfold dispatchTarget Header.branch
  split <;> rfl

/-- The service is on another node. -/
def isRemote (tables : Tables) (serviceId : UInt32) : Bool :=
  (tables.findService serviceId).any ServiceEntry.isRemote

end Tables

/-! ## Building a message -/

/-- Assign some fields. -/
def assignFields (fields : List (Field × UInt32)) (chunk : RawMemory) : RawMemory :=
  fields.foldl (fun memory entry => entry.1.assign memory entry.2.toNat) chunk

/-- Write words behind the envelope. -/
def writePayload : List UInt32 → Nat → RawMemory → RawMemory
  | [], _, chunk => chunk
  | value :: rest, offset, chunk =>
      writePayload rest (offset + 4) (chunk.store offset 4 value.toNat)

/-- Assign some fields and write the payload. -/
def buildMsg (fields : List (Field × UInt32)) (payload : List UInt32) (chunk : RawMemory) :
    RawMemory :=
  writePayload payload headerSize (assignFields fields chunk)

/-- The fields that `do_log` assigns for `spam`, `do_perf_start` and `do_perf_remote_start`. -/
def commandFields (dstService msgCode payloadLen : UInt32) : List (Field × UInt32) :=
  [(.magic, nosIpcMagic.toUInt32), (.dstService, dstService), (.msgCode, msgCode),
    (.payloadLen, payloadLen)]

/-- The message of `do_log` for `spam`, with the number that `atoi` finds. -/
def doLogSpam (args : Option UInt32) : RawMemory → RawMemory :=
  buildMsg (commandFields 110 3002 4) [args.getD 2000]

/-- The number of rounds of a performance test. -/
def perfCount (args : Option UInt32) : UInt32 :=
  let count := args.getD 10000
  if count = 0 then 10000 else count

/-- The message of `do_perf_start`, with the number that `atoi` finds. -/
def doPerfStart (args : Option UInt32) : RawMemory → RawMemory :=
  buildMsg (commandFields 111 3001 4) [perfCount args]

/-- The message of `do_perf_remote_start`, with the numbers that `sscanf` finds. -/
def doPerfRemoteStart (sweep : Bool) (count payloadSize : Option UInt32) : RawMemory → RawMemory :=
  buildMsg (commandFields 113 3001 8)
    [perfCount count, if sweep then 0xFFFFFFFF else payloadSize.getD 0]

/-- The message of `heartbeat_callback`; `svcRoutingV4` is the generated `SVC_ROUTING_V4`. -/
def heartbeatCallback (svcRoutingV4 id : UInt32) : RawMemory → RawMemory :=
  buildMsg [(.magic, nosIpcMagic.toUInt32), (.dstService, svcRoutingV4), (.srcComponent, id),
    (.msgCode, 1001), (.payloadLen, 0)] []

/-- The message of `comp_on_msg` for a heartbeat; `svcMgmt` is the generated `SVC_MGMT`.  The
length of its payload is not assigned. -/
def replyToHeartbeat (svcMgmt id : UInt32) : RawMemory → RawMemory :=
  buildMsg [(.magic, nosIpcMagic.toUInt32), (.dstService, svcMgmt), (.srcComponent, id),
    (.msgCode, 1002)] []

/-- A sender and its arguments. -/
inductive Sender
  /-- `do_log` for `spam`. -/
  | logSpam (args : Option UInt32)
  /-- `do_perf_start`. -/
  | perfStart (args : Option UInt32)
  /-- `do_perf_remote_start`. -/
  | perfRemoteStart (sweep : Bool) (count payloadSize : Option UInt32)
  /-- `heartbeat_callback` of `model_1`. -/
  | heartbeat (svcRoutingV4 id : UInt32)
  /-- `comp_on_msg` of `model_1`. -/
  | heartbeatReply (svcMgmt id : UInt32)
  deriving DecidableEq, Repr

namespace Sender

/-- What the sender makes of a chunk. -/
def build : Sender → RawMemory → RawMemory
  | logSpam args => doLogSpam args
  | perfStart args => doPerfStart args
  | perfRemoteStart sweep count payloadSize => doPerfRemoteStart sweep count payloadSize
  | heartbeat svcRoutingV4 id => heartbeatCallback svcRoutingV4 id
  | heartbeatReply svcMgmt id => replyToHeartbeat svcMgmt id

/-- The service that the sender sets. -/
def dstService : Sender → UInt32
  | logSpam _ => 110
  | perfStart _ => 111
  | perfRemoteStart .. => 113
  | heartbeat svcRoutingV4 _ => svcRoutingV4
  | heartbeatReply svcMgmt _ => svcMgmt

/-- The header of the message built in a chunk. -/
def header (sender : Sender) (chunk : RawMemory) : Header := .ofMemory (sender.build chunk)

/-- The length of the payload that the sender sets, if it sets one. -/
def payloadLen? : Sender → Option UInt32
  | logSpam _ | perfStart _ => some 4
  | perfRemoteStart .. => some 8
  | heartbeat .. => some 0
  | heartbeatReply .. => none

end Sender

/-! ## What a built message keeps of the chunk -/

theorem read_writePayload (field : Field) (payload : List UInt32) {offset : Nat}
    (behind : headerSize ≤ offset) (chunk : RawMemory) :
    field.read (writePayload payload offset chunk) = field.read chunk := by
  induction payload generalizing offset chunk with
  | nil => rfl
  | cons value rest ih =>
      rw [writePayload, ih (by omega)]
      exact RawMemory.word_store_of_disjoint chunk (.inl (field.end_le.trans behind))

theorem read_assignFields_of_notMem {field : Field} {fields : List (Field × UInt32)}
    (absent : field ∉ fields.map Prod.fst) (chunk : RawMemory) :
    field.read (assignFields fields chunk) = field.read chunk := by
  induction fields generalizing chunk with
  | nil => rfl
  | cons entry rest ih =>
      rw [List.map_cons, List.mem_cons, not_or] at absent
      rw [assignFields, List.foldl_cons]
      exact (ih absent.2 _).trans (Field.read_assign_of_ne chunk _ absent.1)

theorem read_assignFields_of_mem {field : Field} {value : UInt32} {fields : List (Field × UInt32)}
    (once : (fields.map Prod.fst).Nodup) (assigned : (field, value) ∈ fields) (chunk : RawMemory) :
    field.read (assignFields fields chunk) = value.toNat % 256 ^ field.width := by
  induction fields generalizing chunk with
  | nil => cases assigned
  | cons entry rest ih =>
      rw [List.map_cons, List.nodup_cons] at once
      rw [assignFields, List.foldl_cons]
      rcases List.mem_cons.mp assigned with rfl | later
      · exact (read_assignFields_of_notMem once.1 _).trans (Field.read_assign_self field chunk _)
      · exact ih once.2 later _

theorem read_buildMsg (field : Field) (fields : List (Field × UInt32)) (payload : List UInt32)
    (chunk : RawMemory) :
    field.read (buildMsg fields payload chunk) = field.read (assignFields fields chunk) :=
  read_writePayload field payload le_rfl _

namespace Sender

/-- The assigned fields. -/
def fields : Sender → List (Field × UInt32)
  | logSpam _ => commandFields 110 3002 4
  | perfStart _ => commandFields 111 3001 4
  | perfRemoteStart .. => commandFields 113 3001 8
  | heartbeat svcRoutingV4 id =>
      [(.magic, nosIpcMagic.toUInt32), (.dstService, svcRoutingV4), (.srcComponent, id),
        (.msgCode, 1001), (.payloadLen, 0)]
  | heartbeatReply svcMgmt id =>
      [(.magic, nosIpcMagic.toUInt32), (.dstService, svcMgmt), (.srcComponent, id),
        (.msgCode, 1002)]

theorem read_build (sender : Sender) (field : Field) (chunk : RawMemory) :
    field.read (sender.build chunk) = field.read (assignFields sender.fields chunk) := by
  cases sender <;> exact read_buildMsg field _ _ chunk

theorem nodup_fields (sender : Sender) : (sender.fields.map Prod.fst).Nodup := by
  cases sender <;> simp [fields, commandFields]

/-- A field that the sender does not assign is from the previous life. -/
theorem read_build_of_notMem (sender : Sender) {field : Field}
    (absent : field ∉ sender.fields.map Prod.fst) (chunk : RawMemory) :
    field.read (sender.build chunk) = field.read chunk := by
  rw [sender.read_build, read_assignFields_of_notMem absent]

theorem flags_header (sender : Sender) (chunk : RawMemory) :
    (sender.header chunk).flags = (Header.ofMemory chunk).flags := by
  have absent : Field.flags ∉ sender.fields.map Prod.fst := by
    cases sender <;> simp [fields, commandFields]
  exact congrArg UInt32.ofNat (sender.read_build_of_notMem absent chunk)

theorem dstComponent_header (sender : Sender) (chunk : RawMemory) :
    (sender.header chunk).dstComponent = (Header.ofMemory chunk).dstComponent := by
  have absent : Field.dstComponent ∉ sender.fields.map Prod.fst := by
    cases sender <;> simp [fields, commandFields]
  exact congrArg UInt32.ofNat (sender.read_build_of_notMem absent chunk)

/-- Whether the message is a reply is left from the previous life. -/
theorem toRequester_header (sender : Sender) (chunk : RawMemory) :
    (sender.header chunk).toRequester = (Header.ofMemory chunk).toRequester := by
  rw [Header.toRequester, Header.toRequester, sender.flags_header, sender.dstComponent_header]

/-- Whether the message is a control message is left from the previous life. -/
theorem isCtrl_header (sender : Sender) (chunk : RawMemory) :
    (sender.header chunk).isCtrl = (Header.ofMemory chunk).isCtrl := by
  rw [Header.isCtrl, Header.isCtrl, sender.flags_header]

theorem dstService_header (sender : Sender) (chunk : RawMemory) :
    (sender.header chunk).dstService = sender.dstService := by
  have assigned : (Field.dstService, sender.dstService) ∈ sender.fields := by
    cases sender <;> simp [fields, commandFields, dstService]
  have read_eq := read_assignFields_of_mem sender.nodup_fields assigned chunk
  change UInt32.ofNat (Field.dstService.read (sender.build chunk)) = _
  rw [sender.read_build, read_eq]
  simp [Field.width]

/-- The length of the payload is the one that the sender sets, or that of the previous life. -/
theorem payloadLen_header (sender : Sender) (chunk : RawMemory) :
    (sender.header chunk).payloadLen =
      sender.payloadLen?.getD (Header.ofMemory chunk).payloadLen := by
  cases known : sender.payloadLen? with
  | none =>
      have absent : Field.payloadLen ∉ sender.fields.map Prod.fst := by
        cases sender <;> simp_all [payloadLen?, fields]
      change UInt32.ofNat (Field.payloadLen.read (sender.build chunk)) = _
      rw [sender.read_build, read_assignFields_of_notMem absent]
      rfl
  | some value =>
      have assigned : (Field.payloadLen, value) ∈ sender.fields := by
        cases sender <;> simp_all [payloadLen?, fields, commandFields]
      change UInt32.ofNat (Field.payloadLen.read (sender.build chunk)) = _
      rw [sender.read_build, read_assignFields_of_mem sender.nodup_fields assigned]
      simp [Field.width]

theorem branch_header_eq_provider_iff (sender : Sender) (chunk : RawMemory) :
    (sender.header chunk).branch = .provider sender.dstService ↔
      (Header.ofMemory chunk).toRequester = false := by
  rw [Header.branch, sender.toRequester_header, sender.dstService_header]
  split <;> simp_all

/-- Two messages of a sender are for the provider of its service, and as long as each other if it is
on another node. -/
structure SameTreatment (sender : Sender) (tables : Tables) (first second : RawMemory) : Prop where
  /-- Neither is treated as a reply. -/
  provider : ∀ chunk ∈ [first, second], (sender.header chunk).branch = .provider sender.dstService
  /-- The same number of bytes is transmitted. -/
  length : tables.isRemote sender.dstService →
    (sender.header first).fullLen = (sender.header second).fullLen

/-- Two messages of a sender are treated the same exactly if the chunks were not left as replies and,
where the sender does not set the length, the lengths left in them are the same. -/
theorem sameTreatment_iff (sender : Sender) (tables : Tables) (first second : RawMemory) :
    sender.SameTreatment tables first second ↔
      (∀ chunk ∈ [first, second], (Header.ofMemory chunk).toRequester = false) ∧
        (sender.payloadLen? = none → tables.isRemote sender.dstService →
          (Header.ofMemory first).payloadLen = (Header.ofMemory second).payloadLen) := by
  have lengths : (sender.header first).fullLen = (sender.header second).fullLen ↔
      (sender.payloadLen? = none →
        (Header.ofMemory first).payloadLen = (Header.ofMemory second).payloadLen) := by
    simp only [Header.fullLen, sender.payloadLen_header, add_right_inj, UInt32.toNat_inj]
    cases sender.payloadLen? <;> simp
  have branches : (∀ chunk ∈ [first, second],
      (sender.header chunk).branch = .provider sender.dstService) ↔
        ∀ chunk ∈ [first, second], (Header.ofMemory chunk).toRequester = false :=
    forall₂_congr fun chunk _ => sender.branch_header_eq_provider_iff chunk
  constructor
  · rintro ⟨provider, length⟩
    exact ⟨branches.mp provider, fun unset remote => lengths.mp (length remote) unset⟩
  · rintro ⟨plain, same⟩
    exact ⟨branches.mpr plain, fun remote => lengths.mpr fun unset => same unset remote⟩

/-- Messages that are treated the same go to the provider of the service, by both functions. -/
theorem SameTreatment.routed {sender : Sender} {tables : Tables} {first second : RawMemory}
    (same : sender.SameTreatment tables first second) :
    ∀ chunk ∈ [first, second],
      tables.route (sender.header chunk) = tables.routeOf (.provider sender.dstService) ∧
        tables.dispatchTarget (sender.header chunk) =
          tables.targetOf (.provider sender.dstService) := by
  intro chunk either
  rw [tables.route_eq_routeOf, tables.dispatchTarget_eq_targetOf, same.provider chunk either]
  exact ⟨rfl, rfl⟩

/-- With a control flag that is left, a message for another node is sent through the socket, and the
node that receives it delivers it to nobody. -/
theorem undelivered_of_isCtrl (sender : Sender) {chunk : RawMemory}
    (left : (Header.ofMemory chunk).isCtrl = true) :
    (∀ (conn : Ipc.Conn RawMemory) (written : Bool),
        conn.viaShm ⟨(sender.header chunk).isCtrl, (sender.header chunk).fullLen⟩ written = false) ∧
      ∀ generation headerTmp packetBuf messageBuf,
        (Ipc.recvHandler ((sender.build chunk).read (sender.header chunk).fullLen) generation
          ⟨headerTmp, some packetBuf, some messageBuf⟩).message? = none := by
  have ctrl : (sender.header chunk).isCtrl = true := by rw [sender.isCtrl_header, left]
  refine ⟨fun conn written => by simp [Ipc.Conn.viaShm, ctrl], ?_⟩
  intro generation headerTmp packetBuf messageBuf
  have header_le := (sender.header chunk).headerSize_le_fullLen
  have long : headerSize ≤ ((sender.build chunk).read (sender.header chunk).fullLen).length := by
    rw [RawMemory.length_read]
    exact header_le
  have header_eq : Ipc.headerOf ((sender.build chunk).read (sender.header chunk).fullLen) =
      sender.header chunk :=
    Header.ofMemory_congr fun _ small =>
      RawMemory.write_read_of_lt _ _ (small.trans_le header_le)
  rw [Ipc.recvHandler_of_long long, header_eq]
  simp only [ctrl, if_true]
  split
  · rfl
  · split <;> rfl

end Sender

/-! ## Chunks that carried a reply -/

/-- `nos_service_reply` on the memory of the reply. -/
def serviceReply (corrId requester : UInt32) (chunk : RawMemory) : RawMemory :=
  assignFields
    [(.flags, .ofNat (Field.flags.read chunk) ||| replyFlag), (.seq, corrId),
      (.dstComponent, requester)] chunk

theorem read_serviceReply_of_notMem (corrId requester : UInt32) (chunk : RawMemory) {field : Field}
    (other : field ∉ [Field.flags, .seq, .dstComponent]) :
    field.read (serviceReply corrId requester chunk) = field.read chunk :=
  read_assignFields_of_notMem other chunk

theorem read_serviceReply_of_mem (corrId requester : UInt32) (chunk : RawMemory) {field : Field}
    {value : UInt32}
    (assigned : (field, value) ∈ [(Field.flags, .ofNat (Field.flags.read chunk) ||| replyFlag),
      (.seq, corrId), (.dstComponent, requester)]) :
    UInt32.ofNat (field.read (serviceReply corrId requester chunk)) = value := by
  have width : field.width = 4 := by
    simp only [List.mem_cons, Prod.mk.injEq, List.not_mem_nil, or_false] at assigned
    rcases assigned with ⟨rfl, -⟩ | ⟨rfl, -⟩ | ⟨rfl, -⟩ <;> rfl
  have read_eq : field.read (serviceReply corrId requester chunk) = value.toNat % 256 ^ field.width :=
    read_assignFields_of_mem (by simp) assigned chunk
  rw [read_eq, width]
  simp

theorem ofMemory_serviceReply (corrId requester : UInt32) (chunk : RawMemory) :
    Header.ofMemory (serviceReply corrId requester chunk) =
      (Header.ofMemory chunk).asReply corrId requester := by
  have kept := @read_serviceReply_of_notMem corrId requester chunk
  have assigned := @read_serviceReply_of_mem corrId requester chunk
  rw [Header.ofMemory, @kept .magic (by decide), @kept .version (by decide),
    @kept .dstService (by decide), @kept .srcComponent (by decide),
    @assigned .dstComponent requester (by simp), @kept .msgCode (by decide),
    @assigned .seq corrId (by simp),
    @assigned .flags (.ofNat (Field.flags.read chunk) ||| replyFlag) (by simp),
    @kept .payloadLen (by decide)]
  rfl

/-- In a chunk that carried a reply, every sender builds a message that is treated as a reply to the
same requester. -/
theorem Sender.branch_header_of_serviceReply (sender : Sender) (corrId : UInt32)
    {requester : UInt32} (asked : requester ≠ 0) (chunk : RawMemory) :
    (sender.header (serviceReply corrId requester chunk)).branch = .reply requester := by
  have reply : (sender.header (serviceReply corrId requester chunk)).toRequester = true := by
    rw [sender.toRequester_header, ofMemory_serviceReply, Header.toRequester,
      Header.flags_asReply]
    simp [Header.asReply, replyFlag, asked]
  rw [Header.branch, if_pos reply, sender.dstComponent_header, ofMemory_serviceReply]
  rfl

/-- The message of `do_perf_start` goes to component 2 if its chunk carried a reply to it. -/
theorem perfStart_treated_as_reply :
    ¬ ∀ (sender : Sender) (tables : Tables) (first second : RawMemory),
      sender.SameTreatment tables first second := by
  intro same
  have treated := same (.perfStart none) ⟨[], [], fun _ => ⟨0, .loaded, false⟩, none⟩
    (fun _ => 0) (serviceReply 7 2 (replyToHeartbeat 101 1 fun _ => 0))
  have branch := treated.provider _ (List.mem_cons_of_mem _ List.mem_cons_self)
  rw [Sender.branch_header_of_serviceReply _ _ (by decide)] at branch
  cases branch

end CodexNos.Messaging
