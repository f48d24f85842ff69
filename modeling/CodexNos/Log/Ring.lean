import CodexNos.Lib.Transition

/-!
# The log ring

Producers reserve a place with an atomic addition to `write_idx`, claim the slot of that place by
comparing and swapping its state, fill it and publish it; a producer that finds its slot in use
counts a drop.  One consumer prints the slot at `read_idx`, releases it and goes to the next one.
`nos_log_deinit` clears `keep_running` and joins the consumer.

Every access of a shared atomic variable is a step.  The number of a record is its place in the
order of the reservations.
-/

namespace CodexNos.Log

/-- `nos_log_level_t`. -/
inductive Level
  | debug
  | info
  | warn
  | error
  deriving DecidableEq, Repr

/-- Value of a level. -/
def Level.value : Level → Nat
  | .debug => 0
  | .info => 1
  | .warn => 2
  | .error => 3

/-- The filter levels: the global one and those of registered components. -/
structure Filter where
  /-- `global_filter_level`. -/
  globalLevel : Level
  /-- `filter_level` of a registered component. -/
  compLevel : Nat → Option Level

/-- Whether a call passes the level filter. -/
def Filter.passes (filter : Filter) (level : Level) (compId : Nat) : Bool :=
  let filterLevel :=
    if 0 < compId && compId < 256 then (filter.compLevel compId).getD filter.globalLevel
    else filter.globalLevel
  filterLevel.value ≤ level.value

/-- A log record. -/
structure Entry where
  /-- Place in the order of the reservations. -/
  number : Nat
  /-- Level. -/
  level : Level
  /-- Component. -/
  compId : Nat
  /-- Formatted text. -/
  message : String
  deriving DecidableEq, Repr

/-- The three states of a slot. -/
inductive SlotState
  | empty
  | writing
  | ready
  deriving DecidableEq, Repr

/-- A slot of the ring (`nos_log_entry_t`). -/
structure Slot where
  /-- Its state. -/
  state : SlotState
  /-- Its contents. -/
  entry : Entry
  deriving DecidableEq, Repr

/-- `LOG_BUFFER_SIZE`. -/
def bufferSize : Nat := 1024

/-- Where a producer is in `nos_log_impl`. -/
inductive ProducerPoint
  /-- Not in the function. -/
  | idle
  /-- Has reserved a place: claim its slot. -/
  | reserved (idx : Nat) (entry : Entry)
  /-- Has claimed the slot: fill it. -/
  | writing (idx : Nat) (entry : Entry)
  /-- Has filled the slot: publish it. -/
  | filled (idx : Nat) (entry : Entry)
  deriving DecidableEq, Repr

/-- Where the consumer is in `nos_log_consumer_thread`. -/
inductive ConsumerPoint
  /-- Loop test: read `keep_running`. -/
  | test
  /-- Loop test, second part: read the state of the slot. -/
  | testReady
  /-- Read the state of the slot in the loop body. -/
  | check
  /-- Print the slot. -/
  | print
  /-- Release the slot. -/
  | clear
  /-- Go to the next slot. -/
  | advance
  /-- Left the loop. -/
  | exited
  deriving DecidableEq, Repr

/-- Where the thread is that runs `nos_log_deinit`. -/
inductive DeinitPoint
  /-- Not called. -/
  | idle
  /-- Has cleared `keep_running`: join the consumer. -/
  | joining
  /-- Returned. -/
  | returned
  deriving DecidableEq, Repr

/-- The log context and its threads. -/
structure LogRing (θ : Type*) where
  /-- Filter levels. -/
  filter : Filter
  /-- The slots. -/
  ring : Nat → Slot
  /-- `write_idx`, a 32-bit counter. -/
  writeIdx : Nat
  /-- `read_idx`, a 32-bit counter. -/
  readIdx : Nat
  /-- `dropped_count`. -/
  droppedCount : Nat
  /-- `keep_running`. -/
  keepRunning : Bool
  /-- Producers. -/
  producer : θ → ProducerPoint
  /-- Consumer. -/
  consumer : ConsumerPoint
  /-- `nos_log_deinit`. -/
  deinit : DeinitPoint
  /-- Number of reservations so far. -/
  reserved : Nat
  /-- Number of releases so far. -/
  released : Nat
  /-- Records whose slot was claimed, oldest first. -/
  accepted : List Entry
  /-- Printed records, oldest first. -/
  printed : List Entry

/-- A step of a producer, the consumer or the thread that shuts down. -/
inductive LogOp (θ : Type*)
  /-- Set the filter levels. -/
  | setFilter (filter : Filter)
  /-- Call `nos_log_impl` and reserve a place. -/
  | call (thread : θ) (level : Level) (compId : Nat) (message : String)
  /-- Claim the slot or count a drop. -/
  | claim (thread : θ)
  /-- Fill the slot. -/
  | fill (thread : θ)
  /-- Publish the slot. -/
  | publish (thread : θ)
  /-- Next access of the consumer. -/
  | consume
  /-- Clear `keep_running`. -/
  | stop
  /-- The consumer is joined. -/
  | join

namespace LogRing

variable {θ : Type*}

/-- The slot that the consumer looks at. -/
def current (log : LogRing θ) : Slot := log.ring (log.readIdx % bufferSize)

/-- Next access of the consumer. -/
def consume (log : LogRing θ) : Option (LogRing θ) :=
  match log.consumer with
  | .test => some { log with consumer := if log.keepRunning then .check else .testReady }
  | .testReady =>
      some { log with consumer := if log.current.state = .ready then .check else .exited }
  | .check => some { log with consumer := if log.current.state = .ready then .print else .test }
  | .print => some { log with printed := log.printed ++ [log.current.entry], consumer := .clear }
  | .clear =>
      some
        { log with
          ring := Function.update log.ring (log.readIdx % bufferSize)
            { log.current with state := .empty }
          released := log.released + 1
          consumer := .advance }
  | .advance => some { log with readIdx := (log.readIdx + 1) % 2 ^ 32, consumer := .test }
  | .exited => none

variable [DecidableEq θ]

/-- Move a producer. -/
def setProducer (log : LogRing θ) (thread : θ) (point : ProducerPoint) : LogRing θ :=
  { log with producer := Function.update log.producer thread point }

/-- Perform one step. -/
def step (log : LogRing θ) : LogOp θ → Option (LogRing θ)
  | .setFilter filter => some { log with filter := filter }
  | .call thread level compId message =>
      match log.producer thread with
      | .idle =>
          if log.filter.passes level compId then
            some
              { log.setProducer thread
                  (.reserved (log.writeIdx % bufferSize) ⟨log.reserved, level, compId, message⟩) with
                writeIdx := (log.writeIdx + 1) % 2 ^ 32
                reserved := log.reserved + 1 }
          else some log
      | _ => none
  | .claim thread =>
      match log.producer thread with
      | .reserved idx entry =>
          if (log.ring idx).state = .empty then
            some
              { log.setProducer thread (.writing idx entry) with
                ring := Function.update log.ring idx { log.ring idx with state := .writing }
                accepted := log.accepted ++ [entry] }
          else some { log.setProducer thread .idle with droppedCount := log.droppedCount + 1 }
      | _ => none
  | .fill thread =>
      match log.producer thread with
      | .writing idx entry =>
          some
            { log.setProducer thread (.filled idx entry) with
              ring := Function.update log.ring idx { log.ring idx with entry := entry } }
      | _ => none
  | .publish thread =>
      match log.producer thread with
      | .filled idx _ =>
          some
            { log.setProducer thread .idle with
              ring := Function.update log.ring idx { log.ring idx with state := .ready } }
      | _ => none
  | .consume => log.consume
  | .stop =>
      if log.deinit = .idle then some { log with keepRunning := false, deinit := .joining } else none
  | .join =>
      if log.deinit = .joining && log.consumer = .exited then some { log with deinit := .returned }
      else none

/-- Just initialised (`nos_log_init`). -/
structure Initial (log : LogRing θ) : Prop where
  empty : ∀ idx, (log.ring idx).state = .empty
  writeIdx : log.writeIdx = 0
  readIdx : log.readIdx = 0
  idle : ∀ thread, log.producer thread = .idle
  consumer : log.consumer = .test
  deinit : log.deinit = .idle
  reserved : log.reserved = 0
  released : log.released = 0
  accepted : log.accepted = []
  printed : log.printed = []

end LogRing

end CodexNos.Log
