import CodexNos.Log.Ring

/-!
# Calls of the log and the slots they write

The log at the level of its single accesses.  A call that passes the filter is a number in a list
of calls and goes its own way: it reserves a place, compares and swaps the state of the slot, and
either counts a drop or writes level, component and text one after the other and publishes them.
The consumer reads the fields of a ready slot one after the other, prints them and releases the
slot.  Any number of calls may be under way.
-/

namespace CodexNos.Log

open Lib Lib.Transition

/-- `LOG_MSG_MAX`. -/
def logMsgMax : Nat := 256

/-- What `vsnprintf` leaves of a text in the array of a slot. -/
def formatted (text : List UInt8) : List UInt8 := text.take (logMsgMax - 1)

/-- The fields of a slot, or the arguments of a call. -/
structure Record where
  /-- `level`. -/
  level : Level
  /-- `comp_id`. -/
  compId : Nat
  /-- `message`, without its terminator. -/
  message : List UInt8
  deriving DecidableEq, Repr

/-- A slot of the ring, with a note of its use. -/
structure Cell where
  /-- `ready`. -/
  state : SlotState
  /-- The fields. -/
  record : Record
  /-- The call that claimed the slot last. -/
  author : Nat
  /-- The record has been printed. -/
  shown : Bool
  deriving DecidableEq, Repr

/-- The fields that a call has written. -/
inductive Progress
  | claimed
  | level
  | compId
  | message
  deriving DecidableEq, Repr

/-- Where a call is in `nos_log_impl`. -/
inductive CallPhase
  /-- Has passed the filter. -/
  | passed
  /-- Has reserved a place. -/
  | reserved (idx : Nat)
  /-- Its compare and swap has failed. -/
  | refused
  /-- Has counted a drop. -/
  | dropped
  /-- Is writing the slot. -/
  | writing (idx : Nat) (progress : Progress)
  /-- Has published the slot. -/
  | published (idx : Nat)
  deriving DecidableEq, Repr

/-- The call has neither claimed a slot nor counted a drop. -/
def CallPhase.undecided : CallPhase → Bool
  | .passed => true
  | .reserved _ => true
  | .refused => true
  | .dropped => false
  | .writing _ _ => false
  | .published _ => false

/-- A call that has passed the filter. -/
structure LogCall where
  /-- Its level, component and text. -/
  args : Record
  /-- Where it is. -/
  phase : CallPhase
  deriving DecidableEq, Repr

/-- What a call publishes: its level, its component, and the part of its text that fits. -/
def LogCall.record (call : LogCall) : Record :=
  { call.args with message := formatted call.args.message }

/-- Where the consumer is in `nos_log_consumer_thread`. -/
inductive ReaderPoint
  /-- Loop test: read `keep_running`. -/
  | test
  /-- Loop test, second part: read the state of the slot. -/
  | testReady
  /-- Read the state of the slot in the loop body. -/
  | check
  /-- Read the component. -/
  | compId
  /-- Read the level. -/
  | level (compId : Nat)
  /-- Read the text and print. -/
  | message (compId : Nat) (level : Level)
  /-- Release the slot. -/
  | release
  /-- Go to the next slot. -/
  | advance
  /-- Left the loop. -/
  | exited
  deriving DecidableEq, Repr

/-- A printed record. -/
structure Printed where
  /-- The call that claimed the slot. -/
  call : Nat
  /-- What is printed. -/
  record : Record
  deriving DecidableEq, Repr

/-- The log context with the calls under way. -/
structure Journal where
  /-- Filter levels. -/
  filter : Filter
  /-- `ring`. -/
  ring : Nat → Cell
  /-- `write_idx`. -/
  writeIdx : UInt32
  /-- `read_idx`. -/
  readIdx : UInt32
  /-- `dropped_count`. -/
  droppedCount : UInt64
  /-- `keep_running`. -/
  keepRunning : Bool
  /-- The calls that have passed the filter, oldest first. -/
  calls : List LogCall
  /-- Consumer. -/
  reader : ReaderPoint
  /-- Printed records, oldest first. -/
  printed : List Printed

/-- A step of a call, of the consumer, or of the rest of the program. -/
inductive JournalOp
  /-- Set the filter levels. -/
  | setFilter (filter : Filter)
  /-- Call `nos_log_impl`, up to the filter. -/
  | call (level : Level) (compId : Nat) (text : List UInt8)
  /-- Next access of a call. -/
  | next (number : Nat)
  /-- Next access of the consumer. -/
  | read
  /-- Clear `keep_running`. -/
  | stop

namespace Journal

/-- The index of the slot of a counter. -/
def slotOf (counter : UInt32) : Nat := counter.toNat % bufferSize

/-- Write to a slot. -/
def setCell (journal : Journal) (idx : Nat) (cell : Cell) : Journal :=
  { journal with ring := Function.update journal.ring idx cell }

/-- Move a call. -/
def setPhase (journal : Journal) (number : Nat) (call : LogCall) (phase : CallPhase) : Journal :=
  { journal with calls := journal.calls.set number { call with phase := phase } }

/-- A field of a slot is written. -/
def writeField (cell : Cell) (args : Record) : Progress → Option (Cell × Progress)
  | .claimed => some ({ cell with record := { cell.record with level := args.level } }, .level)
  | .level => some ({ cell with record := { cell.record with compId := args.compId } }, .compId)
  | .compId =>
      some
        ({ cell with record := { cell.record with message := formatted args.message } }, .message)
  | .message => none

/-- Next access of a call. -/
def next (journal : Journal) (number : Nat) (call : LogCall) : Option Journal :=
  match call.phase with
  | .passed =>
      some
        { journal.setPhase number call (.reserved (slotOf journal.writeIdx)) with
          writeIdx := journal.writeIdx + 1 }
  | .reserved idx =>
      let cell := journal.ring idx
      if cell.state = .empty then
        some
          ((journal.setPhase number call (.writing idx .claimed)).setCell idx
            { cell with state := .writing, author := number, shown := false })
      else some (journal.setPhase number call .refused)
  | .refused =>
      some
        { journal.setPhase number call .dropped with
          droppedCount := journal.droppedCount + 1 }
  | .dropped => none
  | .writing idx progress =>
      match writeField (journal.ring idx) call.args progress with
      | some (cell, progress) =>
          some ((journal.setPhase number call (.writing idx progress)).setCell idx cell)
      | none =>
          some
            ((journal.setPhase number call (.published idx)).setCell idx
              { journal.ring idx with state := .ready })
  | .published _ => none

/-- The slot that the consumer looks at. -/
def current (journal : Journal) : Cell := journal.ring (slotOf journal.readIdx)

/-- Next access of the consumer. -/
def read (journal : Journal) : Option Journal :=
  match journal.reader with
  | .test => some { journal with reader := if journal.keepRunning then .check else .testReady }
  | .testReady =>
      some { journal with reader := if journal.current.state = .ready then .check else .exited }
  | .check =>
      some { journal with reader := if journal.current.state = .ready then .compId else .test }
  | .compId => some { journal with reader := .level journal.current.record.compId }
  | .level compId => some { journal with reader := .message compId journal.current.record.level }
  | .message compId level =>
      some
        { journal.setCell (slotOf journal.readIdx) { journal.current with shown := true } with
          printed := journal.printed ++
            [⟨journal.current.author, ⟨level, compId, journal.current.record.message⟩⟩]
          reader := .release }
  | .release =>
      some
        { journal.setCell (slotOf journal.readIdx) { journal.current with state := .empty } with
          reader := .advance }
  | .advance => some { journal with readIdx := journal.readIdx + 1, reader := .test }
  | .exited => none

/-- Perform one step. -/
def step (journal : Journal) : JournalOp → Option Journal
  | .setFilter filter => some { journal with filter := filter }
  | .call level compId text =>
      if journal.filter.passes level compId then
        some { journal with calls := journal.calls ++ [⟨⟨level, compId, text⟩, .passed⟩] }
      else some journal
  | .next number => journal.calls[number]?.bind (journal.next number)
  | .read => journal.read
  | .stop => some { journal with keepRunning := false }

/-- Just initialised (`nos_log_init`). -/
structure Initial (journal : Journal) : Prop where
  empty : ∀ idx, (journal.ring idx).state = .empty
  writeIdx : journal.writeIdx = 0
  readIdx : journal.readIdx = 0
  droppedCount : journal.droppedCount = 0
  calls : journal.calls = []
  reader : journal.reader = .test
  printed : journal.printed = []

/-! ## What there is of calls, slots and records -/

/-- The calls that have passed the filter and have neither claimed a slot nor counted a drop. -/
def undecided (journal : Journal) : Nat := journal.calls.countP fun call => call.phase.undecided

/-- The calls that have counted a drop. -/
def drops (journal : Journal) : Nat := journal.calls.countP fun call => call.phase = .dropped

/-- The slots of a kind. -/
def cells (journal : Journal) (kind : Cell → Bool) : Nat :=
  (List.range bufferSize).countP fun idx => kind (journal.ring idx)

/-- The slots that are being written. -/
def writing (journal : Journal) : Nat := journal.cells fun cell => cell.state = .writing

/-- The slots with a published record that is not yet printed. -/
def ready (journal : Journal) : Nat := journal.cells fun cell => cell.state = .ready && !cell.shown

end Journal

end CodexNos.Log
