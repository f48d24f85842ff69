import CodexNos.Lib.RawMemory
import CodexNos.Messaging.Routing

/-!
# The envelope in memory

A message starts with its envelope, whose fields stand at fixed offsets.  Assigning a field changes
the bytes of this field and no others.
-/

namespace CodexNos.Messaging

open Lib

/-- `NOS_IPC_MAGIC`. -/
def nosIpcMagic : UInt16 := 0x4E4F

/-- A field of `nos_service_msg_t`. -/
inductive Field
  | magic
  | version
  | dstService
  | srcComponent
  | dstComponent
  | msgCode
  | seq
  | flags
  | payloadLen
  deriving DecidableEq, Repr

namespace Field

/-- Where the field starts. -/
def offset : Field → Nat
  | magic => 0
  | version => 2
  | dstService => 4
  | srcComponent => 8
  | dstComponent => 12
  | msgCode => 16
  | seq => 20
  | flags => 24
  | payloadLen => 28

/-- Number of bytes. -/
def width : Field → Nat
  | magic | version => 2
  | _ => 4

/-- Value of the field. -/
def read (field : Field) (memory : RawMemory) : Nat := memory.word field.offset field.width

/-- Assign the field. -/
def assign (field : Field) (memory : RawMemory) (value : Nat) : RawMemory :=
  memory.store field.offset field.width value

theorem end_le (field : Field) : field.offset + field.width ≤ headerSize := by
  cases field <;> decide

theorem disjoint {field other : Field} (different : field ≠ other) :
    field.offset + field.width ≤ other.offset ∨ other.offset + other.width ≤ field.offset := by
  revert different
  cases field <;> cases other <;> decide

@[simp]
theorem read_assign_self (field : Field) (memory : RawMemory) (value : Nat) :
    field.read (field.assign memory value) = value % 256 ^ field.width :=
  RawMemory.word_store memory _ _ value

@[simp]
theorem read_assign_of_ne {field other : Field} (memory : RawMemory) (value : Nat)
    (different : other ≠ field) : other.read (field.assign memory value) = other.read memory :=
  RawMemory.word_store_of_disjoint memory (disjoint different)

theorem read_congr (field : Field) {left right : RawMemory}
    (same : ∀ offset < headerSize, left offset = right offset) :
    field.read left = field.read right :=
  RawMemory.word_congr fun index _ upper => same index (upper.trans_le field.end_le)

end Field

namespace Header

/-- The envelope at the start of a memory. -/
def ofMemory (memory : RawMemory) : Header where
  magic := .ofNat (Field.magic.read memory)
  version := .ofNat (Field.version.read memory)
  dstService := .ofNat (Field.dstService.read memory)
  srcComponent := .ofNat (Field.srcComponent.read memory)
  dstComponent := .ofNat (Field.dstComponent.read memory)
  msgCode := .ofNat (Field.msgCode.read memory)
  seq := .ofNat (Field.seq.read memory)
  flags := .ofNat (Field.flags.read memory)
  payloadLen := .ofNat (Field.payloadLen.read memory)

theorem ofMemory_congr {left right : RawMemory}
    (same : ∀ offset < headerSize, left offset = right offset) :
    ofMemory left = ofMemory right := by
  simp only [ofMemory, fun field : Field => field.read_congr same]

theorem headerSize_le_fullLen (header : Header) : headerSize ≤ header.fullLen :=
  Nat.le_add_right _ _

end Header

end CodexNos.Messaging
