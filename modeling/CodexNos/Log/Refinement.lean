import CodexNos.Log.Accounting

/-!
# Two levels of the log

The log at the level of its single accesses follows the log ring.  A call that tests the filter or
writes one field of its slot leaves the ring alone; it fills the slot of the ring when it publishes
it, and the consumer prints there with the last field that it reads.  The filter may change between
the test of a call and its reservation, so the filter of the ring is one that passes every call.
-/

namespace CodexNos.Log

open Lib Lib.Transition

variable {text : List UInt8 → String}

/-! ## Corresponding states -/

/-- What is said of a record: its level, its component, and its text as it is read. -/
def Record.content (text : List UInt8 → String) (record : Record) : Level × Nat × String :=
  (record.level, record.compId, text record.message)

/-- What is said of an entry of the ring. -/
def Entry.content (entry : Entry) : Level × Nat × String :=
  (entry.level, entry.compId, entry.message)

/-- The entry that a call puts into the ring. -/
def LogCall.entry (text : List UInt8 → String) (call : LogCall) (number : Nat) : Entry where
  number := number
  level := call.args.level
  compId := call.args.compId
  message := text (formatted call.args.message)

theorem LogCall.content_entry (call : LogCall) (number : Nat) :
    (call.entry text number).content = call.record.content text := rfl

/-- Where a producer of the ring is when the call of its number is somewhere. -/
def Stands (text : List UInt8 → String) (call? : Option LogCall) (point : ProducerPoint) : Prop :=
  match call? with
  | none => point = .idle
  | some call =>
      match call.phase with
      | .reserved idx => ∃ number, point = .reserved idx (call.entry text number)
      | .writing idx _ => ∃ number, point = .writing idx (call.entry text number)
      | _ => point = .idle

/-- Where the consumer of the ring is. -/
def ReaderPoint.stands : ReaderPoint → ConsumerPoint
  | .test => .test
  | .testReady => .testReady
  | .check => .check
  | .compId | .level _ | .message _ _ => .print
  | .release => .clear
  | .advance => .advance
  | .exited => .exited

/-- A state of the journal and a state of the ring. -/
structure Follows (text : List UInt8 → String) (journal : Journal) (log : LogRing Nat) : Prop where
  /-- The slots are in the same states. -/
  states : ∀ idx, (log.ring idx).state = (journal.ring idx).state
  /-- The ready slots have the same contents. -/
  entries : ∀ idx, (journal.ring idx).state = .ready →
    (log.ring idx).entry.content = (journal.ring idx).record.content text
  /-- `write_idx`. -/
  writeIdx : log.writeIdx = journal.writeIdx.toNat
  /-- `read_idx`. -/
  readIdx : log.readIdx = journal.readIdx.toNat
  /-- `keep_running`. -/
  keepRunning : log.keepRunning = journal.keepRunning
  /-- It has been cleared once the ring is shut down. -/
  stopped : log.deinit = .idle ∨ log.keepRunning = false
  /-- The calls. -/
  producers : ∀ number, Stands text journal.calls[number]? (log.producer number)
  /-- The consumer. -/
  consumer : log.consumer = journal.reader.stands
  /-- The printed records. -/
  printed : log.printed.map Entry.content = journal.printed.map (·.record.content text)

/-- A step of the journal is some steps of the ring. -/
def Followed (text : List UInt8 → String) (log : LogRing Nat) (after : Journal) : Prop :=
  ∃ ops log', run LogRing.step log ops = some log' ∧ Follows text after log'

namespace Follows

variable {journal : Journal} {log : LogRing Nat}

theorem slot (follows : Follows text journal log) :
    log.readIdx % bufferSize = Journal.slotOf journal.readIdx := by
  rw [follows.readIdx, Journal.slotOf]

theorem current_state (follows : Follows text journal log) :
    log.current.state = journal.current.state := by
  rw [LogRing.current, follows.slot, Journal.current, follows.states]

theorem producers_set (follows : Follows text journal log) {number : Nat} {call : LogCall}
    (found : journal.calls[number]? = some call) {phase : CallPhase} {point : ProducerPoint}
    (stands : Stands text (some { call with phase := phase }) point) (other : Nat) :
    Stands text (journal.calls.set number { call with phase := phase })[other]?
      (Function.update log.producer number point other) := by
  have inside : number < journal.calls.length := (List.getElem?_eq_some_iff.mp found).1
  by_cases same : other = number
  · subst same
    rw [List.getElem?_set_self inside, Function.update_self]
    exact stands
  · rw [List.getElem?_set_ne (Ne.symm same), Function.update_of_ne same]
    exact follows.producers other

theorem producers_of_same (follows : Follows text journal log) {number : Nat} {call : LogCall}
    (found : journal.calls[number]? = some call) {phase : CallPhase}
    (stands : Stands text (some { call with phase := phase }) (log.producer number))
    (other : Nat) :
    Stands text (journal.calls.set number { call with phase := phase })[other]?
      (log.producer other) := by
  have moved := follows.producers_set found stands other
  rwa [Function.update_eq_self] at moved

/-! ## Steps of a call -/

/-- A new call has not yet done anything that the ring knows of. -/
theorem call (follows : Follows text journal log) (args : Record) :
    Follows text { journal with calls := journal.calls ++ [⟨args, .passed⟩] } log := by
  refine { follows with producers := fun number => ?_ }
  have before := follows.producers number
  rcases Nat.lt_trichotomy number journal.calls.length with inside | rfl | outside
  · rwa [List.getElem?_append_left inside]
  · rw [List.getElem?_eq_none le_rfl] at before
    rw [List.getElem?_concat_length]
    exact before
  · rw [List.getElem?_eq_none outside.le] at before
    rw [List.getElem?_eq_none (by rw [List.length_append, List.length_singleton]; omega)]
    exact before

/-- A filter that passes every call. -/
def passAll : Filter := ⟨.debug, fun _ => none⟩

theorem passes_passAll (level : Level) (compId : Nat) : passAll.passes level compId = true := by
  simp [Filter.passes, passAll, Level.value]

theorem reserve (follows : Follows text journal log) {number : Nat} {call : LogCall}
    (found : journal.calls[number]? = some call) (phase : call.phase = .passed) :
    Followed text log
      { journal.setPhase number call (.reserved (Journal.slotOf journal.writeIdx)) with
        writeIdx := journal.writeIdx + 1 } := by
  have idle : log.producer number = .idle := by
    simpa [Stands, found, phase] using follows.producers number
  have place : log.writeIdx % bufferSize = Journal.slotOf journal.writeIdx := by
    rw [follows.writeIdx, Journal.slotOf]
  refine ⟨[.setFilter passAll,
    .call number call.args.level call.args.compId (text (formatted call.args.message))], _,
    by simp [LogRing.step, idle, passes_passAll]; rfl, ?_⟩
  refine { follows with writeIdx := ?_, producers := ?_ }
  · simp [follows.writeIdx, UInt32.toNat_add]
  · refine follows.producers_set found ⟨log.reserved, ?_⟩
    rw [← place]
    rfl

theorem claim (follows : Follows text journal log) {number : Nat} {call : LogCall}
    (found : journal.calls[number]? = some call) {idx : Nat} (phase : call.phase = .reserved idx)
    (empty : (journal.ring idx).state = .empty) :
    Followed text log
      ((journal.setPhase number call (.writing idx .claimed)).setCell idx
        { journal.ring idx with state := .writing, author := number, shown := false }) := by
  obtain ⟨place, reserved⟩ :
      ∃ place, log.producer number = .reserved idx (call.entry text place) := by
    simpa [Stands, found, phase] using follows.producers number
  have free : (log.ring idx).state = .empty := (follows.states idx).trans empty
  refine ⟨[.claim number], _, by simp [LogRing.step, reserved, free]; rfl, ?_⟩
  refine { follows with
    states := fun other => ?_
    entries := fun other ready => ?_
    producers := follows.producers_set found ⟨place, rfl⟩ }
  · by_cases same : other = idx
    · subst same
      simp [Journal.setCell]
    · simpa [Journal.setCell, Journal.setPhase, same] using follows.states other
  · by_cases same : other = idx
    · subst same
      simp [Journal.setCell] at ready
    · simp only [Journal.setCell, Function.update_of_ne same] at ready ⊢
      exact follows.entries other ready

theorem refuse (follows : Follows text journal log) {number : Nat} {call : LogCall}
    (found : journal.calls[number]? = some call) {idx : Nat} (phase : call.phase = .reserved idx)
    (taken : (journal.ring idx).state ≠ .empty) :
    Followed text log (journal.setPhase number call .refused) := by
  obtain ⟨place, reserved⟩ :
      ∃ place, log.producer number = .reserved idx (call.entry text place) := by
    simpa [Stands, found, phase] using follows.producers number
  have used : (log.ring idx).state ≠ .empty := by rwa [follows.states idx]
  have idle : Stands text (some { call with phase := .refused }) .idle := rfl
  refine ⟨[.claim number], _, by simp [LogRing.step, reserved, used]; rfl, ?_⟩
  exact { follows with producers := follows.producers_set found idle }

theorem write (follows : Follows text journal log) {number : Nat} {call : LogCall}
    (found : journal.calls[number]? = some call) {idx : Nat} {progress later : Progress}
    (phase : call.phase = .writing idx progress) (state : (journal.ring idx).state = .writing)
    {cell : Cell} (kept : cell.state = .writing) :
    Follows text ((journal.setPhase number call (.writing idx later)).setCell idx cell) log := by
  have producer := follows.producers number
  simp only [Stands, found, phase] at producer
  refine { follows with
    states := fun other => ?_
    entries := fun other ready => ?_
    producers := follows.producers_of_same found producer }
  · by_cases same : other = idx
    · subst same
      simp [Journal.setCell, kept, follows.states other, state]
    · simpa [Journal.setCell, Journal.setPhase, same] using follows.states other
  · by_cases same : other = idx
    · subst same
      simp [Journal.setCell, kept] at ready
    · simp only [Journal.setCell, Function.update_of_ne same] at ready ⊢
      exact follows.entries other ready

/-- A call publishes its slot, which it fills in the ring at that time. -/
theorem publish (follows : Follows text journal log) {number : Nat} {call : LogCall}
    (found : journal.calls[number]? = some call) {idx : Nat}
    (phase : call.phase = .writing idx .message)
    (written : (journal.ring idx).record = call.record) :
    Followed text log
      ((journal.setPhase number call (.published idx)).setCell idx
        { journal.ring idx with state := .ready }) := by
  obtain ⟨place, writing⟩ :
      ∃ place, log.producer number = .writing idx (call.entry text place) := by
    simpa [Stands, found, phase] using follows.producers number
  have idle : Stands text (some { call with phase := .published idx }) .idle := rfl
  refine ⟨[.fill number, .publish number], _,
    by simp [LogRing.step, LogRing.setProducer, writing]; rfl, ?_⟩
  refine { follows with
    states := fun other => ?_
    entries := fun other ready => ?_
    producers := ?_ }
  · by_cases same : other = idx
    · subst same
      simp [Journal.setCell]
    · simpa [Journal.setCell, Journal.setPhase, same] using follows.states other
  · by_cases same : other = idx
    · subst same
      simp [Journal.setCell, written, LogCall.content_entry]
    · simp only [Journal.setCell, Function.update_of_ne same] at ready ⊢
      exact follows.entries other ready
  · simpa [Journal.setCell, Journal.setPhase] using follows.producers_set found idle

theorem next (follows : Follows text journal log) (placed : journal.Placed) {number : Nat}
    {call : LogCall} (found : journal.calls[number]? = some call) {after : Journal}
    (stepped : journal.next number call = some after) : Followed text log after := by
  have at_slot := placed.calls number call found
  unfold Journal.CallPlaced at at_slot
  unfold Journal.next at stepped
  cases phase : call.phase with
  | passed =>
      simp only [phase, Option.some.injEq] at stepped
      exact stepped ▸ follows.reserve found phase
  | reserved idx =>
      simp only [phase] at stepped
      split at stepped
      · rename_i empty
        obtain rfl := Option.some.inj stepped
        exact follows.claim found phase empty
      · rename_i taken
        obtain rfl := Option.some.inj stepped
        exact follows.refuse found phase taken
  | refused =>
      simp only [phase, Option.some.injEq] at stepped
      subst stepped
      have idle := follows.producers number
      simp only [Stands, found, phase] at idle
      exact ⟨[], log, rfl, { follows with producers := follows.producers_of_same found idle }⟩
  | dropped => simp [phase] at stepped
  | writing idx progress =>
      simp only [phase] at at_slot stepped
      obtain ⟨-, state, -, -, written⟩ := at_slot
      cases progress with
      | message =>
          simp only [Journal.writeField, Option.some.injEq] at stepped
          exact stepped ▸ follows.publish found phase written
      | claimed | level | compId =>
          simp only [Journal.writeField, Option.some.injEq] at stepped
          exact ⟨[], log, rfl, stepped ▸ follows.write found phase state state⟩
  | published idx => simp [phase] at stepped

/-! ## Steps of the consumer -/

theorem setReader (follows : Follows text journal log) {reader : ReaderPoint}
    {consumer : ConsumerPoint} (moved : log.consume = some { log with consumer := consumer })
    (stands : consumer = reader.stands) :
    Followed text log { journal with reader := reader } := by
  refine ⟨[.consume], { log with consumer := consumer }, ?_, ?_⟩
  · rw [run_cons, LogRing.step, moved]
    rfl
  · exact { follows with consumer := stands }

/-- The consumer prints a slot whose fields it has read. -/
theorem print (follows : Follows text journal log) (consumer : log.consumer = .print)
    (state : journal.current.state = .ready) :
    Followed text log
      { journal.setCell (Journal.slotOf journal.readIdx) { journal.current with shown := true } with
        printed := journal.printed ++ [⟨journal.current.author, journal.current.record⟩]
        reader := .release } := by
  have entry : log.current.entry.content = journal.current.record.content text := by
    rw [LogRing.current, follows.slot]
    exact follows.entries _ state
  refine ⟨[.consume], _, by simp [LogRing.step, LogRing.consume, consumer]; rfl, ?_⟩
  refine { follows with
    states := fun other => ?_
    entries := fun other ready => ?_
    consumer := rfl
    printed := by simp [follows.printed, entry] }
  · by_cases same : other = Journal.slotOf journal.readIdx
    · subst same
      simpa [Journal.setCell, Journal.current] using follows.states _
    · simpa [Journal.setCell, same] using follows.states other
  · by_cases same : other = Journal.slotOf journal.readIdx
    · subst same
      simpa [Journal.setCell, Journal.current] using follows.entries _ state
    · simp only [Journal.setCell, Function.update_of_ne same] at ready ⊢
      exact follows.entries other ready

theorem release (follows : Follows text journal log) (consumer : log.consumer = .clear) :
    Followed text log
      { journal.setCell (Journal.slotOf journal.readIdx)
          { journal.current with state := .empty } with
        reader := .advance } := by
  refine ⟨[.consume], _, by simp [LogRing.step, LogRing.consume, consumer]; rfl, ?_⟩
  refine { follows with
    states := fun other => ?_
    entries := fun other ready => ?_
    consumer := rfl }
  · rw [follows.slot]
    by_cases same : other = Journal.slotOf journal.readIdx
    · subst same
      simp [Journal.setCell]
    · simpa [Journal.setCell, same] using follows.states other
  · rw [follows.slot]
    by_cases same : other = Journal.slotOf journal.readIdx
    · subst same
      simp [Journal.setCell] at ready
    · simp only [Journal.setCell, Function.update_of_ne same] at ready ⊢
      exact follows.entries other ready

theorem read (follows : Follows text journal log) (placed : journal.Placed) {after : Journal}
    (stepped : journal.read = some after) : Followed text log after := by
  have reader := placed.reader
  have consumer := follows.consumer
  unfold Journal.ReaderPlaced at reader
  unfold Journal.read at stepped
  cases point : journal.reader with
  | test =>
      simp only [point, Option.some.injEq] at stepped
      subst stepped
      refine follows.setReader
        (by simp [LogRing.consume, consumer, point, ReaderPoint.stands]; rfl) ?_
      rw [follows.keepRunning]
      split <;> rfl
  | testReady =>
      simp only [point, Option.some.injEq] at stepped
      subst stepped
      refine follows.setReader
        (by simp [LogRing.consume, consumer, point, ReaderPoint.stands]; rfl) ?_
      rw [follows.current_state]
      split <;> rfl
  | check =>
      simp only [point, Option.some.injEq] at stepped
      subst stepped
      refine follows.setReader
        (by simp [LogRing.consume, consumer, point, ReaderPoint.stands]; rfl) ?_
      rw [follows.current_state]
      split <;> rfl
  | compId | level compId =>
      simp only [point, Option.some.injEq] at stepped
      subst stepped
      exact ⟨[], log, rfl, { follows with consumer := by rw [consumer, point]; rfl }⟩
  | message compId level =>
      simp only [point, Option.some.injEq] at reader stepped
      obtain ⟨state, -, rfl, rfl⟩ := reader
      exact stepped ▸ follows.print (by rw [consumer, point]; rfl) state
  | release =>
      simp only [point, Option.some.injEq] at stepped
      exact stepped ▸ follows.release (by rw [consumer, point]; rfl)
  | advance =>
      simp only [point, Option.some.injEq] at stepped
      subst stepped
      refine ⟨[.consume], { log with readIdx := (log.readIdx + 1) % 2 ^ 32, consumer := .test },
        ?_, ?_⟩
      · simp [LogRing.step, LogRing.consume, consumer, point, ReaderPoint.stands]
      · have moved : (log.readIdx + 1) % 2 ^ 32 = (journal.readIdx + 1).toNat := by
          simp [follows.readIdx, UInt32.toNat_add]
        exact { follows with readIdx := moved, consumer := rfl }
  | exited => simp [point] at stepped

/-! ## Runs -/

theorem step (follows : Follows text journal log) (placed : journal.Placed) {op : JournalOp}
    {after : Journal} (stepped : journal.step op = some after) : Followed text log after := by
  cases op with
  | setFilter filter =>
      obtain rfl := Option.some.inj stepped
      exact ⟨[], log, rfl, { follows with }⟩
  | call level compId message =>
      simp only [Journal.step] at stepped
      split at stepped
      · obtain rfl := Option.some.inj stepped
        exact ⟨[], log, rfl, follows.call _⟩
      · obtain rfl := Option.some.inj stepped
        exact ⟨[], log, rfl, follows⟩
  | next number =>
      obtain ⟨call, found, stepped⟩ := Option.bind_eq_some_iff.mp stepped
      exact follows.next placed found stepped
  | read => exact follows.read placed stepped
  | stop =>
      obtain rfl := Option.some.inj stepped
      rcases follows.stopped with idle | cleared
      · refine ⟨[.stop], { log with keepRunning := false, deinit := .joining }, ?_, ?_⟩
        · simp [LogRing.step, idle]
        · exact { follows with keepRunning := rfl, stopped := .inr rfl }
      · exact ⟨[], log, rfl, { follows with keepRunning := cleared }⟩

end Follows

/-- The ring just initialised. -/
def LogRing.fresh (keepRunning : Bool) : LogRing Nat where
  filter := Follows.passAll
  ring := fun _ => ⟨.empty, ⟨0, .debug, 0, ""⟩⟩
  writeIdx := 0
  readIdx := 0
  droppedCount := 0
  keepRunning := keepRunning
  producer := fun _ => .idle
  consumer := .test
  deinit := .idle
  reserved := 0
  released := 0
  accepted := []
  printed := []

theorem LogRing.fresh_initial (keepRunning : Bool) : (fresh keepRunning).Initial where
  empty := fun _ => rfl
  writeIdx := rfl
  readIdx := rfl
  idle := fun _ => rfl
  consumer := rfl
  deinit := rfl
  reserved := rfl
  released := rfl
  accepted := rfl
  printed := rfl

theorem follows_of_initial {journal : Journal} (initial : journal.Initial) :
    Follows text journal (LogRing.fresh journal.keepRunning) where
  states idx := (initial.empty idx).symm
  entries idx ready := by simp [initial.empty idx] at ready
  writeIdx := by simp [LogRing.fresh, initial.writeIdx]
  readIdx := by simp [LogRing.fresh, initial.readIdx]
  keepRunning := rfl
  stopped := .inl rfl
  producers number := by simp [initial.calls, Stands, LogRing.fresh]
  consumer := by simp [LogRing.fresh, initial.reader, ReaderPoint.stands]
  printed := by simp [LogRing.fresh, initial.printed]

/-- Whatever order the accesses of the log come in, the ring can be in the same state by its own
larger steps, and has printed the same. -/
theorem follows_of_reachable {journal : Journal}
    (reached : Reachable Journal.step Journal.Initial journal) (text : List UInt8 → String) :
    ∃ log, Reachable LogRing.step LogRing.Initial log ∧ Follows text journal log := by
  apply reached.follows
  · intro journal initial
    exact ⟨.fresh journal.keepRunning, LogRing.fresh_initial _, follows_of_initial initial⟩
  · intro before op after log earlier follows stepped
    have placed : before.Placed :=
      earlier.invariant Journal.Placed (fun _ => Journal.placed_of_initial)
        fun _ _ _ placed _ stepped => placed.step stepped
    exact follows.step placed stepped

end CodexNos.Log
