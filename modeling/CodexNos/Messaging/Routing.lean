import CodexNos.Types
import Mathlib.Tactic

/-!
# Routing of messages

A message is routed twice.  `nos_service_msg_send` chooses the thread or the node to which it goes;
`process_thread_messages` chooses the component that gets it.  Both read the header of the message,
the table of loaded components and the service registry.
-/

namespace CodexNos.Messaging

/-- The envelope of a message (`nos_service_msg_t`). -/
structure Header where
  /-- `magic`. -/
  magic : UInt16
  /-- `version`. -/
  version : UInt16
  /-- `dst_service`. -/
  dstService : UInt32
  /-- `src_component`. -/
  srcComponent : UInt32
  /-- `dst_component`. -/
  dstComponent : UInt32
  /-- `msg_code`. -/
  msgCode : UInt32
  /-- `seq`. -/
  seq : UInt32
  /-- `flags`. -/
  flags : UInt32
  /-- `payload_len`. -/
  payloadLen : UInt32
  deriving DecidableEq, Repr

/-- `sizeof(nos_service_msg_t)`. -/
def headerSize : Nat := 32

/-- `NOS_IPC_MAX_PAYLOAD_LEN`. -/
def maxPayloadLen : UInt32 := 4096

/-- `NOS_MSG_F_REPLY`. -/
def replyFlag : UInt32 := 0x00000002

/-- `NOS_MSG_F_IPC_CTRL`. -/
def ctrlFlag : UInt32 := 0x80000000

namespace Header

/-- The message goes back to the component that asked. -/
def toRequester (header : Header) : Bool := header.flags &&& replyFlag ≠ 0 && header.dstComponent ≠ 0

/-- `ipc_is_ctrl_msg`. -/
def isCtrl (header : Header) : Bool := header.flags &&& ctrlFlag ≠ 0

/-- Size of header and payload. -/
def fullLen (header : Header) : Nat := headerSize + header.payloadLen.toNat

/-- The header after `nos_service_reply`. -/
def asReply (header : Header) (corrId requester : UInt32) : Header :=
  { header with flags := header.flags ||| replyFlag, seq := corrId, dstComponent := requester }

end Header

/-- What routing reads of a component instance (`nos_component_t`). -/
structure Component where
  /-- `id`. -/
  id : UInt32
  /-- `status`. -/
  status : CompStatus
  /-- There is an `on_msg`. -/
  onMsg : Bool
  deriving DecidableEq, Repr

/-- An entry of the service registry (`service_entry_t`); the characters of a name are its bytes. -/
structure ServiceEntry where
  /-- `service_id`. -/
  serviceId : UInt32
  /-- `local_provider`. -/
  localProvider : Option CompRef
  /-- `local_thread`. -/
  localThread : Option ThreadRef
  /-- `remote_node`. -/
  remoteNode : String
  /-- `remote_uds_path`. -/
  remoteUdsPath : String
  /-- `is_remote`. -/
  isRemote : Bool
  deriving DecidableEq, Repr

/-- An entry of the table of loaded components (`loaded_comp_info_t`). -/
structure LoadedInfo where
  /-- `comp`. -/
  comp : Option CompRef
  /-- `owner_thread`. -/
  ownerThread : Option ThreadRef
  deriving DecidableEq, Repr

/-- A service of the manifest (`nos_service_def_t`). -/
structure ServiceDef where
  /-- `service_id`. -/
  serviceId : UInt32
  /-- `node_name`. -/
  nodeName : String
  /-- `provider_comp_id`. -/
  providerCompId : UInt32
  deriving DecidableEq, Repr

/-- The tables that routing reads. -/
structure Tables where
  /-- The service registry. -/
  registry : List ServiceEntry
  /-- The loaded components. -/
  loaded : List LoadedInfo
  /-- The component instances. -/
  component : CompRef → Component
  /-- Name of the node and services of its manifest. -/
  nodeDef : Option (String × List ServiceDef)

/-- Where `nos_service_msg_send` puts a message. -/
inductive Route
  /-- Into the queue of a thread, unless it is `NULL`. -/
  | localThread (thread : Option ThreadRef)
  /-- To another node. -/
  | remoteNode (nodeName udsPath : String)
  deriving DecidableEq, Repr

namespace Tables

/-- `find_service_entry`. -/
def findService (tables : Tables) (serviceId : UInt32) : Option ServiceEntry :=
  tables.registry.find? fun entry => entry.serviceId = serviceId

/-- `find_loaded_component_info`. -/
def findLoaded (tables : Tables) (compId : UInt32) : Option LoadedInfo :=
  tables.loaded.find? fun info => info.comp.any fun comp => (tables.component comp).id = compId

/-- The choice of `nos_service_msg_send`. -/
def route (tables : Tables) (header : Header) : Option Route :=
  if header.toRequester then
    (tables.findLoaded header.dstComponent).map fun info => .localThread info.ownerThread
  else
    (tables.findService header.dstService).map fun entry =>
      if entry.isRemote then .remoteNode entry.remoteNode entry.remoteUdsPath
      else .localThread entry.localThread

/-- The component is active and takes messages. -/
def receives (tables : Tables) (comp : CompRef) : Bool :=
  (tables.component comp).status = .active && (tables.component comp).onMsg

/-- The choice of `process_thread_messages`. -/
def dispatchTarget (tables : Tables) (header : Header) : Option CompRef :=
  if header.toRequester then
    ((tables.findLoaded header.dstComponent).bind LoadedInfo.comp).filter tables.receives
  else
    ((tables.findService header.dstService).bind ServiceEntry.localProvider).filter tables.receives

/-- The test of `nos_scheduler_drop_messages_for_provider`. -/
def targetsProvider (tables : Tables) (provider : CompRef) (header : Header) : Bool :=
  ((tables.findService header.dstService).any fun entry =>
    !entry.isRemote && entry.localProvider = some provider) ||
  tables.nodeDef.any fun node =>
    node.2.any fun svc =>
      svc.serviceId = header.dstService &&
        svc.providerCompId = (tables.component provider).id && svc.nodeName = node.1

/-! ## Replies -/

theorem route_of_toRequester (tables : Tables) {header : Header} (reply : header.toRequester) :
    tables.route header =
      (tables.findLoaded header.dstComponent).map fun info => .localThread info.ownerThread :=
  if_pos reply

theorem id_of_findLoaded {tables : Tables} {compId : UInt32} {info : LoadedInfo}
    (found : tables.findLoaded compId = some info) :
    info ∈ tables.loaded ∧ ∃ comp, info.comp = some comp ∧ (tables.component comp).id = compId := by
  have matched := List.find?_some found
  refine ⟨List.mem_of_find?_eq_some found, ?_⟩
  simpa [Option.any_eq_true] using matched

/-- A reply is dispatched only to a loaded component with the id of the requester. -/
theorem id_of_dispatchTarget {tables : Tables} {header : Header} (reply : header.toRequester)
    {comp : CompRef} (target : tables.dispatchTarget header = some comp) :
    (tables.component comp).id = header.dstComponent := by
  rw [dispatchTarget, if_pos reply, Option.filter_eq_some_iff] at target
  obtain ⟨info, found, comp_eq⟩ := Option.bind_eq_some_iff.mp target.1
  obtain ⟨-, other, other_eq, id_eq⟩ := id_of_findLoaded found
  obtain rfl : comp = other := Option.some.inj (comp_eq.symm.trans other_eq)
  exact id_eq

end Tables

@[simp]
theorem Header.flags_asReply (header : Header) (corrId requester : UInt32) :
    (header.asReply corrId requester).flags &&& replyFlag = replyFlag := by
  apply UInt32.toBitVec_inj.mp
  ext i
  simp only [asReply, UInt32.toBitVec_and, UInt32.toBitVec_or, BitVec.getElem_and,
    BitVec.getElem_or]
  cases header.flags.toBitVec[i] <;> simp

end CodexNos.Messaging
