import CodexNos.Log.Calls

/-!
# Every call is accounted for

A slot that is being written belongs to one call, and a ready slot holds what one call published
until it is printed.  So the calls that have passed the filter are those under way, those that
counted a drop, those that are writing, those whose record is ready and those whose record has been
printed, whatever the order of the steps and however often the indices wrap.
-/

namespace CodexNos.Log

open Lib Lib.Transition

/-! ## Calls, slots and the consumer fit together -/

/-- The fields that a call has written hold its values. -/
def Progress.Written (progress : Progress) (record args : Record) : Prop :=
  match progress with
  | .claimed => True
  | .level => record.level = args.level
  | .compId => record.level = args.level ∧ record.compId = args.compId
  | .message => record = { args with message := formatted args.message }

/-- The slot holds the published record of a call, and it is not yet printed. -/
structure Cell.Holds (cell : Cell) (number : Nat) (call : LogCall) : Prop where
  state : cell.state = .ready
  shown : cell.shown = false
  author : cell.author = number
  record : cell.record = call.record

namespace Journal

/-- The calls whose records have been printed. -/
def shownCalls (journal : Journal) : List Nat := journal.printed.map Printed.call

/-- A call and the slot of its place. -/
def CallPlaced (journal : Journal) (number : Nat) (call : LogCall) : Prop :=
  match call.phase with
  | .passed | .refused | .dropped => True
  | .reserved idx => idx < bufferSize
  | .writing idx progress =>
      idx < bufferSize ∧ (journal.ring idx).state = .writing ∧
        (journal.ring idx).author = number ∧ (journal.ring idx).shown = false ∧
        progress.Written (journal.ring idx).record call.args
  | .published idx =>
      number ∈ journal.shownCalls ∨ idx < bufferSize ∧ (journal.ring idx).Holds number call

/-- A slot and the call that claimed it last. -/
structure CellPlaced (journal : Journal) (idx : Nat) : Prop where
  /-- A slot that is being written has a call that writes it. -/
  writing : (journal.ring idx).state = .writing →
    ∃ call progress, journal.calls[(journal.ring idx).author]? = some call ∧
      call.phase = .writing idx progress
  /-- A ready slot has a call that published it. -/
  ready : (journal.ring idx).state = .ready → (journal.ring idx).shown = false →
    ∃ call, journal.calls[(journal.ring idx).author]? = some call ∧
      call.phase = .published idx ∧ (journal.ring idx).record = call.record ∧
      (journal.ring idx).author ∉ journal.shownCalls
  /-- A ready slot has been printed only if it is about to be released. -/
  shown : (journal.ring idx).state = .ready → (journal.ring idx).shown = true →
    journal.reader = .release ∧ idx = slotOf journal.readIdx

/-- The consumer and its slot. -/
def ReaderPlaced (journal : Journal) : Prop :=
  match journal.reader with
  | .test | .testReady | .check | .advance | .exited => True
  | .compId => journal.current.state = .ready ∧ journal.current.shown = false
  | .level compId =>
      journal.current.state = .ready ∧ journal.current.shown = false ∧
        compId = journal.current.record.compId
  | .message compId level =>
      journal.current.state = .ready ∧ journal.current.shown = false ∧
        compId = journal.current.record.compId ∧ level = journal.current.record.level
  | .release => journal.current.state = .ready ∧ journal.current.shown = true

/-- Calls, slots, the consumer and the printed records fit together. -/
structure Placed (journal : Journal) : Prop where
  /-- The calls and their slots. -/
  calls : ∀ number call, journal.calls[number]? = some call → journal.CallPlaced number call
  /-- The slots and their calls. -/
  cells : ∀ idx, journal.CellPlaced idx
  /-- The consumer. -/
  reader : journal.ReaderPlaced
  /-- A printed record is what its call published. -/
  printed : ∀ entry ∈ journal.printed, ∃ call idx, journal.calls[entry.call]? = some call ∧
    call.phase = .published idx ∧ entry.record = call.record
  /-- No call is printed twice. -/
  once : journal.shownCalls.Nodup

theorem slotOf_lt (counter : UInt32) : slotOf counter < bufferSize := Nat.mod_lt _ (by decide)

theorem placed_of_initial {journal : Journal} (initial : journal.Initial) : journal.Placed where
  calls := by simp [initial.calls]
  cells idx := ⟨by simp [initial.empty idx], by simp [initial.empty idx],
    by simp [initial.empty idx]⟩
  reader := by simp [ReaderPlaced, initial.reader]
  printed := by simp [initial.printed]
  once := by simp [shownCalls, initial.printed]

/-! ## Steps of a call -/

/-- The slots that a step changes are not ready and are written by no other call. -/
structure Touches (before after : Journal) (number : Nat) (touched : Nat → Prop) : Prop where
  /-- The other slots stay as they are. -/
  same : ∀ idx, ¬ touched idx → after.ring idx = before.ring idx
  /-- No ready slot is changed. -/
  unready : ∀ idx, touched idx → (before.ring idx).state ≠ .ready
  /-- No slot is changed that another call writes. -/
  own : ∀ idx, touched idx → (before.ring idx).state = .writing →
    (before.ring idx).author = number

theorem ReaderPlaced.of_touches {before after : Journal} {number : Nat} {touched : Nat → Prop}
    (placed : before.ReaderPlaced) (touches : Touches before after number touched)
    (reader : after.reader = before.reader) (readIdx : after.readIdx = before.readIdx) :
    after.ReaderPlaced := by
  have same (ready : before.current.state = .ready) : after.current = before.current := by
    unfold current
    rw [readIdx]
    exact touches.same _ fun hit => touches.unready _ hit ready
  unfold ReaderPlaced at placed ⊢
  rw [reader]
  cases point : before.reader with
  | test => trivial
  | testReady => trivial
  | check => trivial
  | compId =>
      simp only [point] at placed
      rw [same placed.1]
      exact placed
  | level compId =>
      simp only [point] at placed
      rw [same placed.1]
      exact placed
  | message compId level =>
      simp only [point] at placed
      rw [same placed.1]
      exact placed
  | release =>
      simp only [point] at placed
      rw [same placed.1]
      exact placed
  | advance => trivial
  | exited => trivial

theorem Placed.move {before after : Journal} (placed : before.Placed) {number : Nat}
    {call : LogCall} {phase : CallPhase} {touched : Nat → Prop}
    (found : before.calls[number]? = some call)
    (calls : after.calls = before.calls.set number { call with phase := phase })
    (printed : after.printed = before.printed) (reader : after.reader = before.reader)
    (readIdx : after.readIdx = before.readIdx)
    (touches : Touches before after number touched)
    (unpublished : ∀ idx, call.phase ≠ .published idx)
    (leaves : ∀ idx progress, call.phase = .writing idx progress → touched idx)
    (self : after.CallPlaced number { call with phase := phase })
    (cells : ∀ idx, touched idx → after.CellPlaced idx) : after.Placed := by
  have inside : number < before.calls.length := (List.getElem?_eq_some_iff.mp found).1
  have shown : after.shownCalls = before.shownCalls := by simp [shownCalls, printed]
  have other {place : Nat} (different : place ≠ number) :
      after.calls[place]? = before.calls[place]? := by
    rw [calls, List.getElem?_set_ne (Ne.symm different)]
  have at_number : after.calls[number]? = some { call with phase := phase } := by
    rw [calls, List.getElem?_set_self inside]
  constructor
  · intro place placed_call at_place
    by_cases different : place = number
    · subst different
      rw [at_number] at at_place
      obtain rfl := Option.some.inj at_place
      exact self
    · rw [other different] at at_place
      have before_placed := placed.calls place placed_call at_place
      unfold CallPlaced at before_placed ⊢
      split at before_placed
      · trivial
      · trivial
      · trivial
      · exact before_placed
      · obtain ⟨inside, state, author, fields⟩ := before_placed
        rw [touches.same _ fun hit => different (author.symm.trans (touches.own _ hit state))]
        exact ⟨inside, state, author, fields⟩
      · rcases before_placed with old | ⟨inside, holds⟩
        · exact .inl (shown ▸ old)
        · have same := touches.same _ fun hit => touches.unready _ hit holds.state
          exact .inr ⟨inside, same.symm ▸ holds⟩
  · intro idx
    by_cases hit : touched idx
    · exact cells idx hit
    · have same := touches.same idx hit
      constructor
      · rw [same]
        intro state
        obtain ⟨author, progress, at_author, phase⟩ := (placed.cells idx).writing state
        have different : (before.ring idx).author ≠ number := by
          intro equal
          rw [equal, found] at at_author
          obtain rfl := Option.some.inj at_author
          exact hit (leaves idx progress phase)
        exact ⟨author, progress, (other different).trans at_author, phase⟩
      · rw [same]
        intro state fresh
        obtain ⟨author, at_author, phase, record, new⟩ := (placed.cells idx).ready state fresh
        have different : (before.ring idx).author ≠ number := by
          intro equal
          rw [equal, found] at at_author
          obtain rfl := Option.some.inj at_author
          exact unpublished idx phase
        exact ⟨author, (other different).trans at_author, phase, record, shown ▸ new⟩
      · rw [same, reader, readIdx]
        exact (placed.cells idx).shown
  · exact placed.reader.of_touches touches reader readIdx
  · intro entry present
    rw [printed] at present
    obtain ⟨author, idx, at_author, phase, record⟩ := placed.printed entry present
    have different : entry.call ≠ number := by
      intro equal
      rw [equal, found] at at_author
      obtain rfl := Option.some.inj at_author
      exact unpublished idx phase
    exact ⟨author, idx, (other different).trans at_author, phase, record⟩
  · rw [shown]
    exact placed.once

theorem touches_none {before after : Journal} (number : Nat) (ring : after.ring = before.ring) :
    Touches before after number (fun _ => False) where
  same idx _ := by rw [ring]
  unready := fun _ hit => hit.elim
  own := fun _ hit => hit.elim

theorem touches_one {before after : Journal} {number idx : Nat} {cell : Cell}
    (ring : after.ring = Function.update before.ring idx cell)
    (unready : (before.ring idx).state ≠ .ready)
    (own : (before.ring idx).state = .writing → (before.ring idx).author = number) :
    Touches before after number (· = idx) where
  same other different := by rw [ring, Function.update_of_ne different]
  unready := by rintro _ rfl; exact unready
  own := by rintro _ rfl; exact own

theorem Placed.moveAside {before after : Journal} (placed : before.Placed) {number : Nat}
    {call : LogCall} {phase : CallPhase} (found : before.calls[number]? = some call)
    (calls : after.calls = before.calls.set number { call with phase := phase })
    (printed : after.printed = before.printed) (reader : after.reader = before.reader)
    (readIdx : after.readIdx = before.readIdx) (ring : after.ring = before.ring)
    (unpublished : ∀ idx, call.phase ≠ .published idx)
    (unwriting : ∀ idx progress, call.phase ≠ .writing idx progress)
    (self : after.CallPlaced number { call with phase := phase }) : after.Placed :=
  placed.move found calls printed reader readIdx (touches_none number ring) unpublished
    (fun idx progress writes => unwriting idx progress writes) self (fun _ hit => hit.elim)

theorem Placed.moveCell {before after : Journal} (placed : before.Placed) {number idx : Nat}
    {call : LogCall} {phase : CallPhase} {cell : Cell}
    (found : before.calls[number]? = some call)
    (calls : after.calls = before.calls.set number { call with phase := phase })
    (printed : after.printed = before.printed) (reader : after.reader = before.reader)
    (readIdx : after.readIdx = before.readIdx)
    (ring : after.ring = Function.update before.ring idx cell)
    (unready : (before.ring idx).state ≠ .ready)
    (own : (before.ring idx).state = .writing → (before.ring idx).author = number)
    (unpublished : ∀ idx, call.phase ≠ .published idx)
    (leaves : ∀ place progress, call.phase = .writing place progress → place = idx)
    (self : after.CallPlaced number { call with phase := phase })
    (cellPlaced : after.CellPlaced idx) : after.Placed :=
  placed.move found calls printed reader readIdx (touches_one ring unready own) unpublished leaves
    self (fun _ hit => hit ▸ cellPlaced)

theorem Placed.not_mem_shownCalls {journal : Journal} (placed : journal.Placed) {number : Nat}
    {call : LogCall} (found : journal.calls[number]? = some call)
    (unpublished : ∀ idx, call.phase ≠ .published idx) : number ∉ journal.shownCalls := by
  intro shown
  obtain ⟨entry, present, rfl⟩ := List.mem_map.mp shown
  obtain ⟨author, idx, at_author, phase, -⟩ := placed.printed entry present
  rw [found] at at_author
  obtain rfl := Option.some.inj at_author
  exact unpublished idx phase

/-- A field that is written, and those that were written before it, hold the values of the
call. -/
theorem written_writeField {progress progress' : Progress} {cell cell' : Cell}
    {args : Record} (written : progress.Written cell.record args)
    (wrote : writeField cell args progress = some (cell', progress')) :
    progress'.Written cell'.record args ∧ cell'.state = cell.state ∧
      cell'.author = cell.author ∧ cell'.shown = cell.shown := by
  cases progress with
  | claimed =>
      obtain ⟨rfl, rfl⟩ := Prod.mk.inj (Option.some.inj wrote)
      exact ⟨rfl, rfl, rfl, rfl⟩
  | level =>
      obtain ⟨rfl, rfl⟩ := Prod.mk.inj (Option.some.inj wrote)
      exact ⟨⟨written, rfl⟩, rfl, rfl, rfl⟩
  | compId =>
      obtain ⟨rfl, rfl⟩ := Prod.mk.inj (Option.some.inj wrote)
      obtain ⟨level, compId⟩ := written
      exact ⟨by simp [Progress.Written, level, compId], rfl, rfl, rfl⟩
  | message => cases wrote

theorem Placed.fill {journal : Journal} (placed : journal.Placed) {number idx : Nat}
    {call : LogCall} {progress progress' : Progress} {cell : Cell}
    (found : journal.calls[number]? = some call) (phase : call.phase = .writing idx progress)
    (wrote : writeField (journal.ring idx) call.args progress = some (cell, progress')) :
    ((journal.setPhase number call (.writing idx progress')).setCell idx cell).Placed := by
  have inside : number < journal.calls.length := (List.getElem?_eq_some_iff.mp found).1
  have before := placed.calls number call found
  simp only [CallPlaced, phase] at before
  obtain ⟨idx_lt, state, author, shown, written⟩ := before
  obtain ⟨written', state', author', shown'⟩ := written_writeField written wrote
  refine placed.moveCell found rfl rfl rfl rfl rfl (by simp [state]) (fun _ => author)
    (by simp [phase]) (by simp [phase]) ?_ ?_
  · simp only [CallPlaced, setCell, Function.update_self]
    exact ⟨idx_lt, state'.trans state, author'.trans author, shown'.trans shown, written'⟩
  · constructor
    · intro _
      refine ⟨{ call with phase := .writing idx progress' }, progress', ?_, rfl⟩
      simp [setCell, setPhase, author', author, inside]
    · intro ready
      simp [setCell, state', state] at ready
    · intro ready
      simp [setCell, state', state] at ready

theorem Placed.claim {journal : Journal} (placed : journal.Placed) {number idx : Nat}
    {call : LogCall} (found : journal.calls[number]? = some call)
    (phase : call.phase = .reserved idx) (empty : (journal.ring idx).state = .empty) :
    ((journal.setPhase number call (.writing idx .claimed)).setCell idx
      { journal.ring idx with state := .writing, author := number, shown := false }).Placed := by
  have inside : number < journal.calls.length := (List.getElem?_eq_some_iff.mp found).1
  have idx_lt := placed.calls number call found
  simp only [CallPlaced, phase] at idx_lt
  refine placed.moveCell found rfl rfl rfl rfl rfl (by simp [empty]) (by simp [empty])
    (by simp [phase]) (by simp [phase]) ?_ ?_
  · simp only [CallPlaced, setCell, Function.update_self]
    exact ⟨idx_lt, trivial, trivial, trivial, trivial⟩
  · constructor
    · intro _
      refine ⟨{ call with phase := .writing idx .claimed }, .claimed, ?_, rfl⟩
      simp [setCell, setPhase, inside]
    · intro ready
      simp [setCell] at ready
    · intro ready
      simp [setCell] at ready

theorem Placed.publish {journal : Journal} (placed : journal.Placed) {number idx : Nat}
    {call : LogCall} (found : journal.calls[number]? = some call)
    (phase : call.phase = .writing idx .message) :
    ((journal.setPhase number call (.published idx)).setCell idx
      { journal.ring idx with state := .ready }).Placed := by
  have inside : number < journal.calls.length := (List.getElem?_eq_some_iff.mp found).1
  have new := placed.not_mem_shownCalls found (by simp [phase])
  have before := placed.calls number call found
  simp only [CallPlaced, phase] at before
  obtain ⟨idx_lt, state, author, shown, record⟩ := before
  refine placed.moveCell found rfl rfl rfl rfl rfl (by simp [state]) (fun _ => author)
    (by simp [phase]) (by simp [phase]) ?_ ?_
  · simp only [CallPlaced, setCell, Function.update_self]
    exact .inr ⟨idx_lt, ⟨rfl, shown, author, record⟩⟩
  · constructor
    · intro writing
      simp [setCell] at writing
    · intro _ _
      simp only [setCell, Function.update_self]
      refine ⟨{ call with phase := .published idx }, ?_, rfl, record, author.symm ▸ new⟩
      simp [setPhase, author, inside]
    · intro _ printed
      simp [setCell, shown] at printed

theorem Placed.next {before after : Journal} (placed : before.Placed) {number : Nat}
    {call : LogCall} (found : before.calls[number]? = some call)
    (stepped : before.next number call = some after) : after.Placed := by
  unfold Journal.next at stepped
  split at stepped
  · rename_i phase
    obtain rfl := Option.some.inj stepped
    exact placed.moveAside found rfl rfl rfl rfl rfl (by simp [phase]) (by simp [phase])
      (slotOf_lt before.writeIdx)
  · rename_i idx phase
    dsimp only at stepped
    split at stepped
    · rename_i empty
      obtain rfl := Option.some.inj stepped
      exact placed.claim found phase empty
    · obtain rfl := Option.some.inj stepped
      exact placed.moveAside found rfl rfl rfl rfl rfl (by simp [phase]) (by simp [phase]) trivial
  · rename_i phase
    obtain rfl := Option.some.inj stepped
    exact placed.moveAside found rfl rfl rfl rfl rfl (by simp [phase]) (by simp [phase]) trivial
  · cases stepped
  · rename_i idx progress phase
    split at stepped
    · rename_i cell progress' wrote
      obtain rfl := Option.some.inj stepped
      exact placed.fill found phase wrote
    · rename_i done
      obtain rfl := Option.some.inj stepped
      cases progress with
      | claimed => cases done
      | level => cases done
      | compId => cases done
      | message => exact placed.publish found phase
  · cases stepped

/-! ## Steps of the consumer -/

theorem Placed.setReader {journal : Journal} (placed : journal.Placed) (reader : ReaderPoint)
    (unreleased : journal.reader ≠ .release)
    (at_reader : ({ journal with reader := reader } : Journal).ReaderPlaced) :
    ({ journal with reader := reader } : Journal).Placed where
  calls := placed.calls
  cells idx := ⟨(placed.cells idx).writing, (placed.cells idx).ready,
    fun ready shown => absurd ((placed.cells idx).shown ready shown).1 unreleased⟩
  reader := at_reader
  printed := placed.printed
  once := placed.once

theorem Placed.print {journal : Journal} (placed : journal.Placed)
    (unreleased : journal.reader ≠ .release)
    (state : journal.current.state = .ready) (fresh : journal.current.shown = false) :
    ({ journal.setCell (slotOf journal.readIdx) { journal.current with shown := true } with
        printed := journal.printed ++ [⟨journal.current.author, journal.current.record⟩]
        reader := .release } : Journal).Placed := by
  obtain ⟨author, at_author, phase, record, new⟩ :=
    (placed.cells (slotOf journal.readIdx)).ready state fresh
  have shown_eq : (journal.printed ++
      [(⟨journal.current.author, journal.current.record⟩ : Printed)]).map Printed.call =
        journal.shownCalls ++ [journal.current.author] := by simp [shownCalls]
  have other {idx : Nat} (different : idx ≠ slotOf journal.readIdx) :
      Function.update journal.ring (slotOf journal.readIdx)
        { journal.current with shown := true } idx = journal.ring idx :=
    Function.update_of_ne different ..
  constructor
  · intro number call found
    have before := placed.calls number call found
    unfold CallPlaced at before ⊢
    split at before
    · trivial
    · trivial
    · trivial
    · exact before
    · obtain ⟨idx_lt, writing, rest⟩ := before
      simp only [setCell]
      rw [other (by rintro rfl; rw [current, writing] at state; cases state)]
      exact ⟨idx_lt, writing, rest⟩
    · rename_i idx published
      simp only [setCell, shownCalls, shown_eq, List.mem_append, List.mem_singleton]
      rcases before with old | ⟨idx_lt, holds⟩
      · exact .inl (.inl old)
      · by_cases same : idx = slotOf journal.readIdx
        · subst same
          exact .inl (.inr holds.author.symm)
        · exact .inr ⟨idx_lt, (other same).symm ▸ holds⟩
  · intro idx
    by_cases same : idx = slotOf journal.readIdx
    · subst same
      constructor
      · intro writing
        simp [setCell, state] at writing
      · intro _ unshown
        simp [setCell] at unshown
      · exact fun _ _ => ⟨rfl, rfl⟩
    · constructor
      · simp only [setCell, other same]
        exact (placed.cells idx).writing
      · simp only [setCell, other same, shownCalls, shown_eq, List.mem_append,
          List.mem_singleton, not_or]
        intro ready unshown
        obtain ⟨call, found, published, held, absent⟩ := (placed.cells idx).ready ready unshown
        refine ⟨call, found, published, held, absent, ?_⟩
        intro equal
        rw [equal, current, at_author] at found
        obtain rfl := Option.some.inj found
        rw [phase] at published
        exact same (CallPhase.published.inj published).symm
      · simp only [setCell, other same]
        exact fun ready printed =>
          absurd ((placed.cells idx).shown ready printed).1 unreleased
  · simpa [ReaderPlaced, current, setCell] using state
  · intro entry present
    rcases List.mem_append.mp present with old | last
    · exact placed.printed entry old
    · obtain rfl := List.mem_singleton.mp last
      exact ⟨author, _, at_author, phase, record⟩
  · simp only [shownCalls, shown_eq]
    exact List.concat_eq_append ▸ (List.nodup_concat _ _).mpr ⟨new, placed.once⟩

theorem Placed.release {journal : Journal} (placed : journal.Placed)
    (state : journal.current.state = .ready) (shown : journal.current.shown = true) :
    ({ journal.setCell (slotOf journal.readIdx) { journal.current with state := .empty } with
        reader := .advance } : Journal).Placed := by
  have other {idx : Nat} (different : idx ≠ slotOf journal.readIdx) :
      Function.update journal.ring (slotOf journal.readIdx)
        { journal.current with state := .empty } idx = journal.ring idx :=
    Function.update_of_ne different ..
  constructor
  · intro number call found
    have before := placed.calls number call found
    unfold CallPlaced at before ⊢
    split at before
    · trivial
    · trivial
    · trivial
    · exact before
    · obtain ⟨idx_lt, writing, rest⟩ := before
      simp only [setCell]
      rw [other (by rintro rfl; rw [current, writing] at state; cases state)]
      exact ⟨idx_lt, writing, rest⟩
    · rename_i idx published
      rcases before with old | ⟨idx_lt, holds⟩
      · exact .inl old
      · simp only [setCell]
        rw [other (by rintro rfl; rw [current, holds.shown] at shown; cases shown)]
        exact .inr ⟨idx_lt, holds⟩
  · intro idx
    by_cases same : idx = slotOf journal.readIdx
    · subst same
      exact ⟨by simp [setCell], by simp [setCell], by simp [setCell]⟩
    · constructor
      · simp only [setCell, other same]
        exact (placed.cells idx).writing
      · simp only [setCell, other same]
        exact (placed.cells idx).ready
      · simp only [setCell, other same]
        exact fun ready printed => absurd ((placed.cells idx).shown ready printed).2 same
  · trivial
  · exact placed.printed
  · exact placed.once

theorem Placed.read {before after : Journal} (placed : before.Placed)
    (stepped : before.read = some after) : after.Placed := by
  have reader := placed.reader
  unfold ReaderPlaced at reader
  unfold Journal.read at stepped
  cases point : before.reader with
  | test =>
      simp only [point] at stepped
      obtain rfl := Option.some.inj stepped
      refine placed.setReader _ (by simp [point]) ?_
      cases before.keepRunning <;> trivial
  | testReady =>
      simp only [point] at stepped
      obtain rfl := Option.some.inj stepped
      refine placed.setReader _ (by simp [point]) ?_
      by_cases ready : before.current.state = .ready <;> simp [ReaderPlaced, ready]
  | check =>
      simp only [point] at stepped
      obtain rfl := Option.some.inj stepped
      refine placed.setReader _ (by simp [point]) ?_
      by_cases ready : before.current.state = .ready
      · have unshown : before.current.shown = false := by
          by_contra shown
          have released := (placed.cells _).shown ready (Bool.not_eq_false _ ▸ shown)
          exact absurd released.1 (by simp [point])
        rw [if_pos ready]
        exact ⟨ready, unshown⟩
      · rw [if_neg ready]
        trivial
  | compId =>
      simp only [point] at stepped reader
      obtain rfl := Option.some.inj stepped
      exact placed.setReader _ (by simp [point]) ⟨reader.1, reader.2, rfl⟩
  | level compId =>
      simp only [point] at stepped reader
      obtain rfl := Option.some.inj stepped
      exact placed.setReader _ (by simp [point]) ⟨reader.1, reader.2.1, reader.2.2, rfl⟩
  | message compId level =>
      simp only [point] at stepped reader
      obtain rfl := Option.some.inj stepped
      obtain ⟨ready, unshown, rfl, rfl⟩ := reader
      exact placed.print (by simp [point]) ready unshown
  | release =>
      simp only [point] at stepped reader
      obtain rfl := Option.some.inj stepped
      exact placed.release reader.1 reader.2
  | advance =>
      simp only [point] at stepped
      obtain rfl := Option.some.inj stepped
      refine ⟨placed.calls, fun idx => ⟨(placed.cells idx).writing, (placed.cells idx).ready, ?_⟩,
        trivial, placed.printed, placed.once⟩
      intro ready shown
      exact absurd ((placed.cells idx).shown ready shown).1 (by simp [point])
  | exited =>
      simp only [point] at stepped
      cases stepped

/-! ## The other steps -/

theorem Placed.call {journal : Journal} (placed : journal.Placed) (args : Record) :
    ({ journal with calls := journal.calls ++ [⟨args, .passed⟩] } : Journal).Placed := by
  have old {number : Nat} {call : LogCall} (found : journal.calls[number]? = some call) :
      (journal.calls ++ [⟨args, .passed⟩])[number]? = some call := by
    rw [List.getElem?_append_left (List.getElem?_eq_some_iff.mp found).1, found]
  constructor
  · intro number call found
    rcases Nat.lt_or_ge number journal.calls.length with inside | outside
    · rw [List.getElem?_append_left inside] at found
      exact placed.calls number call found
    · rw [List.getElem?_append_right outside, List.getElem?_singleton] at found
      obtain ⟨-, same⟩ := Option.ite_none_right_eq_some.mp found
      obtain rfl := Option.some.inj same
      trivial
  · intro idx
    constructor
    · intro state
      obtain ⟨author, progress, found, phase⟩ := (placed.cells idx).writing state
      exact ⟨author, progress, old found, phase⟩
    · intro state unshown
      obtain ⟨author, found, rest⟩ := (placed.cells idx).ready state unshown
      exact ⟨author, old found, rest⟩
    · exact (placed.cells idx).shown
  · exact placed.reader
  · intro entry present
    obtain ⟨author, idx, found, rest⟩ := placed.printed entry present
    exact ⟨author, idx, old found, rest⟩
  · exact placed.once

theorem Placed.of_same {before after : Journal} (placed : before.Placed)
    (ring : after.ring = before.ring) (calls : after.calls = before.calls)
    (reader : after.reader = before.reader) (readIdx : after.readIdx = before.readIdx)
    (printed : after.printed = before.printed) : after.Placed := by
  obtain ⟨filter, _, writeIdx, _, droppedCount, keepRunning, _, _, _⟩ := after
  obtain rfl := ring
  obtain rfl := calls
  obtain rfl := reader
  obtain rfl := readIdx
  obtain rfl := printed
  exact ⟨placed.calls, fun idx => ⟨(placed.cells idx).writing, (placed.cells idx).ready,
    (placed.cells idx).shown⟩, placed.reader, placed.printed, placed.once⟩

theorem Placed.step {before after : Journal} (placed : before.Placed) {op : JournalOp}
    (stepped : before.step op = some after) : after.Placed := by
  cases op with
  | setFilter filter =>
      obtain rfl := Option.some.inj stepped
      exact placed.of_same rfl rfl rfl rfl rfl
  | call level compId text =>
      simp only [Journal.step] at stepped
      split at stepped
      · obtain rfl := Option.some.inj stepped
        exact placed.call ⟨level, compId, text⟩
      · obtain rfl := Option.some.inj stepped
        exact placed
  | next number =>
      obtain ⟨call, found, moved⟩ := Option.bind_eq_some_iff.mp stepped
      exact placed.next found moved
  | read => exact placed.read stepped
  | stop =>
      obtain rfl := Option.some.inj stepped
      exact placed.of_same rfl rfl rfl rfl rfl

/-! ## Counting -/

/-- Counting the values of a function that is changed at one place. -/
theorem countP_range_update {α : Type*} (kind : α → Bool) (values : Nat → α) {size idx : Nat}
    (inside : idx < size) (value : α) :
    (List.range size).countP (fun place => kind (Function.update values idx value place)) +
        (if kind (values idx) then 1 else 0) =
      (List.range size).countP (fun place => kind (values place)) +
        if kind value then 1 else 0 := by
  induction size with
  | zero => omega
  | succ size ih =>
      simp only [List.range_succ, List.countP_append, List.countP_singleton]
      by_cases last : idx = size
      · subst last
        have below : (List.range idx).countP
            (fun place => kind (Function.update values idx value place)) =
              (List.range idx).countP fun place => kind (values place) := by
          apply List.countP_congr
          intro place place_lt
          rw [Function.update_of_ne (List.mem_range.mp place_lt).ne]
        rw [below, Function.update_self]
        omega
      · have counted := ih (by omega)
        rw [Function.update_of_ne (Ne.symm last)]
        omega

/-- Writing to a slot takes it out of the kinds it was of and into those it is of. -/
theorem cells_update (journal : Journal) {idx : Nat} (inside : idx < bufferSize) (cell : Cell)
    (kind : Cell → Bool) {after : Journal}
    (ring : after.ring = Function.update journal.ring idx cell) :
    after.cells kind + (if kind (journal.ring idx) then 1 else 0) =
      journal.cells kind + if kind cell then 1 else 0 := by
  unfold cells
  rw [ring]
  exact countP_range_update kind journal.ring inside cell

/-- Moving a call takes it out of the kinds it was of and into those it is of. -/
theorem countP_setPhase {journal : Journal} {number : Nat} {call : LogCall}
    (found : journal.calls[number]? = some call) (phase : CallPhase) (kind : LogCall → Bool)
    {after : Journal} (calls : after.calls = journal.calls.set number { call with phase := phase }) :
    after.calls.countP kind + (if kind call then 1 else 0) =
      journal.calls.countP kind + if kind { call with phase := phase } then 1 else 0 := by
  obtain ⟨inside, same⟩ := List.getElem?_eq_some_iff.mp found
  have counted := @List.countP_set _ kind journal.calls number { call with phase := phase } inside
  rw [same] at counted
  have present : (if kind call then 1 else 0) ≤ journal.calls.countP kind := by
    split
    · rename_i holds
      exact List.countP_pos_iff.mpr ⟨call, same ▸ List.getElem_mem inside, holds⟩
    · exact Nat.zero_le _
  rw [calls, counted]
  omega

/-- The calls that have passed the filter are all accounted for. -/
structure Balanced (journal : Journal) : Prop where
  /-- The counter counts the calls that were dropped. -/
  drops : journal.droppedCount = UInt64.ofNat journal.drops
  /-- A call is undecided, dropped, writing, ready or printed. -/
  total : journal.calls.length =
    journal.undecided + journal.drops + journal.writing + journal.ready + journal.printed.length

theorem balanced_of_initial {journal : Journal} (initial : journal.Initial) :
    journal.Balanced where
  drops := by simp [Journal.drops, initial.calls, initial.droppedCount]
  total := by
    have none_of (kind : Cell → Bool) (needs : ∀ cell, kind cell = true → cell.state ≠ .empty) :
        journal.cells kind = 0 := by
      unfold cells
      rw [List.countP_eq_zero]
      intro idx _ holds
      exact needs _ holds (initial.empty idx)
    simp only [undecided, Journal.drops, writing, ready, initial.calls, initial.printed,
      List.countP_nil, List.length_nil]
    rw [none_of _ (by simp_all), none_of _ (by simp_all)]

/-- What a move of a call does to the undecided calls and to the dropped ones. -/
theorem counts_setPhase {before after : Journal} {number : Nat} {call : LogCall}
    (found : before.calls[number]? = some call) {phase : CallPhase}
    (calls : after.calls = before.calls.set number { call with phase := phase }) :
    after.undecided + (if call.phase.undecided then 1 else 0) =
        before.undecided + (if phase.undecided then 1 else 0) ∧
      after.drops + (if call.phase = .dropped then 1 else 0) =
        before.drops + (if phase = .dropped then 1 else 0) ∧
      after.calls.length = before.calls.length := by
  refine ⟨countP_setPhase found phase (fun call => call.phase.undecided) calls, ?_, ?_⟩
  · have counted := countP_setPhase found phase (fun call => call.phase = .dropped) calls
    simp only [decide_eq_true_eq] at counted
    exact counted
  · rw [calls, List.length_set]

/-- What writing to a slot does to the slots in writing and to the ready ones. -/
theorem counts_setCell {before after : Journal} {idx : Nat} (inside : idx < bufferSize)
    {cell : Cell} (ring : after.ring = Function.update before.ring idx cell) :
    after.writing + (if (before.ring idx).state = .writing then 1 else 0) =
        before.writing + (if cell.state = .writing then 1 else 0) ∧
      after.ready + (if (before.ring idx).state = .ready && !(before.ring idx).shown then 1 else 0) =
        before.ready + (if cell.state = .ready && !cell.shown then 1 else 0) := by
  refine ⟨?_, cells_update before inside cell (fun cell => cell.state = .ready && !cell.shown) ring⟩
  have counted := cells_update before inside cell (fun cell => cell.state = .writing) ring
  simp only [decide_eq_true_eq] at counted
  exact counted

theorem counts_of_same {before after : Journal} (ring : after.ring = before.ring) :
    after.writing = before.writing ∧ after.ready = before.ready := by
  simp only [writing, Journal.ready, cells, ring, and_self]

/-- A call that moves leaves one kind and enters another. -/
theorem Balanced.move {before after : Journal} (balanced : before.Balanced) {number : Nat}
    {call : LogCall} (found : before.calls[number]? = some call) {phase : CallPhase}
    (calls : after.calls = before.calls.set number { call with phase := phase })
    (printed : after.printed = before.printed) (undropped : call.phase ≠ .dropped)
    (counter : after.droppedCount = before.droppedCount + if phase = .dropped then 1 else 0)
    (slots : after.writing + after.ready + (if phase.undecided then 1 else 0) +
        (if phase = .dropped then 1 else 0) =
      before.writing + before.ready + if call.phase.undecided then 1 else 0) :
    after.Balanced := by
  obtain ⟨drops, total⟩ := balanced
  obtain ⟨undecided_eq, drops_eq, length_eq⟩ := counts_setPhase found calls
  rw [if_neg undropped] at drops_eq
  constructor
  · have drops_eq : after.drops = before.drops + if phase = .dropped then 1 else 0 := drops_eq
    rw [counter, drops, drops_eq]
    split
    · rw [UInt64.ofNat_add]
      rfl
    · simp
  · rw [length_eq, total, printed]
    omega

theorem Balanced.moveAside {before after : Journal} (balanced : before.Balanced) {number : Nat}
    {call : LogCall} (found : before.calls[number]? = some call) {phase : CallPhase}
    (calls : after.calls = before.calls.set number { call with phase := phase })
    (printed : after.printed = before.printed) (ring : after.ring = before.ring)
    (undropped : call.phase ≠ .dropped)
    (counter : after.droppedCount = before.droppedCount + if phase = .dropped then 1 else 0)
    (kinds : (if phase.undecided then 1 else 0) + (if phase = .dropped then 1 else 0) =
      if call.phase.undecided then 1 else 0) : after.Balanced := by
  obtain ⟨writing_eq, ready_eq⟩ := counts_of_same ring
  refine balanced.move found calls printed undropped counter ?_
  rw [writing_eq, ready_eq]
  omega

theorem Balanced.moveCell {before after : Journal} (balanced : before.Balanced) {number : Nat}
    {call : LogCall} (found : before.calls[number]? = some call) {phase : CallPhase}
    (calls : after.calls = before.calls.set number { call with phase := phase })
    (printed : after.printed = before.printed) {idx : Nat} (inside : idx < bufferSize)
    {cell : Cell} (ring : after.ring = Function.update before.ring idx cell)
    (undropped : call.phase ≠ .dropped) (decided : phase.undecided = false ∧ phase ≠ .dropped)
    (counter : after.droppedCount = before.droppedCount)
    (kinds : (if cell.state = .writing then 1 else 0) +
        (if cell.state = .ready && !cell.shown then 1 else 0) =
      (if (before.ring idx).state = .writing then 1 else 0) +
        (if (before.ring idx).state = .ready && !(before.ring idx).shown then 1 else 0) +
        if call.phase.undecided then 1 else 0) : after.Balanced := by
  obtain ⟨writing_eq, ready_eq⟩ := counts_setCell inside ring
  refine balanced.move found calls printed undropped ?_ ?_
  · rw [if_neg decided.2]
    simpa using counter
  · rw [if_neg decided.2, decided.1]
    simp only [Bool.false_eq_true, if_false]
    omega

theorem Balanced.next {before after : Journal} (balanced : before.Balanced)
    (placed : before.Placed) {number : Nat} {call : LogCall}
    (found : before.calls[number]? = some call)
    (stepped : before.next number call = some after) : after.Balanced := by
  have call_placed := placed.calls number call found
  unfold CallPlaced at call_placed
  unfold Journal.next at stepped
  cases phase : call.phase with
  | passed =>
      simp only [phase] at stepped
      obtain rfl := Option.some.inj stepped
      exact balanced.moveAside found rfl rfl rfl (by simp [phase]) (by simp [setPhase])
        (by simp [CallPhase.undecided, phase])
  | reserved idx =>
      simp only [phase] at stepped call_placed
      split at stepped
      · rename_i empty
        obtain rfl := Option.some.inj stepped
        exact balanced.moveCell found rfl rfl call_placed rfl (by simp [phase])
          ⟨rfl, by simp⟩ rfl (by simp [CallPhase.undecided, phase, empty])
      · obtain rfl := Option.some.inj stepped
        exact balanced.moveAside found rfl rfl rfl (by simp [phase]) (by simp [setPhase])
          (by simp [CallPhase.undecided, phase])
  | refused =>
      simp only [phase] at stepped
      obtain rfl := Option.some.inj stepped
      exact balanced.moveAside found rfl rfl rfl (by simp [phase]) (by simp)
        (by simp [CallPhase.undecided, phase])
  | dropped =>
      simp only [phase] at stepped
      cases stepped
  | writing idx progress =>
      simp only [phase] at stepped call_placed
      obtain ⟨inside, state, author, shown, written⟩ := call_placed
      split at stepped
      · rename_i cell progress' wrote
        obtain rfl := Option.some.inj stepped
        obtain ⟨-, state', -, -⟩ := written_writeField written wrote
        exact balanced.moveCell found rfl rfl inside rfl (by simp [phase]) ⟨rfl, by simp⟩ rfl
          (by simp [CallPhase.undecided, phase, state', state])
      · obtain rfl := Option.some.inj stepped
        exact balanced.moveCell found rfl rfl inside rfl (by simp [phase]) ⟨rfl, by simp⟩ rfl
          (by simp [CallPhase.undecided, phase, state, shown])
  | published idx =>
      simp only [phase] at stepped
      cases stepped

theorem Balanced.of_same {before after : Journal} (balanced : before.Balanced)
    (ring : after.ring = before.ring) (calls : after.calls = before.calls)
    (printed : after.printed = before.printed)
    (counter : after.droppedCount = before.droppedCount) : after.Balanced := by
  obtain ⟨drops, total⟩ := balanced
  obtain ⟨writing_eq, ready_eq⟩ := counts_of_same ring
  constructor
  · rw [counter, drops, Journal.drops, Journal.drops, calls]
  · rw [calls, writing_eq, ready_eq, printed, total, undecided, undecided, Journal.drops,
      Journal.drops, calls]

theorem Balanced.readCell {before after : Journal} (balanced : before.Balanced)
    {cell : Cell} (ring : after.ring = Function.update before.ring (slotOf before.readIdx) cell)
    (calls : after.calls = before.calls) (counter : after.droppedCount = before.droppedCount)
    (state : before.current.state = .ready) (unwriting : cell.state ≠ .writing)
    (kinds : after.printed.length + (if cell.state = .ready && !cell.shown then 1 else 0) =
      before.printed.length + if !before.current.shown then 1 else 0) : after.Balanced := by
  obtain ⟨drops, total⟩ := balanced
  obtain ⟨writing_eq, ready_eq⟩ := counts_setCell (slotOf_lt before.readIdx) ring
  unfold current at state kinds
  rw [state] at writing_eq ready_eq
  rw [if_neg unwriting, if_neg (by simp)] at writing_eq
  simp only [decide_true, Bool.true_and] at ready_eq
  constructor
  · rw [counter, drops, Journal.drops, Journal.drops, calls]
  · have undecided_eq : after.undecided = before.undecided := by
      rw [undecided, undecided, calls]
    have drops_eq : after.drops = before.drops := by rw [Journal.drops, Journal.drops, calls]
    rw [calls, total, undecided_eq, drops_eq]
    omega

theorem Balanced.read {before after : Journal} (balanced : before.Balanced)
    (placed : before.Placed) (stepped : before.read = some after) : after.Balanced := by
  have reader := placed.reader
  unfold ReaderPlaced at reader
  unfold Journal.read at stepped
  cases point : before.reader with
  | test =>
      simp only [point] at stepped
      obtain rfl := Option.some.inj stepped
      exact balanced.of_same rfl rfl rfl rfl
  | testReady =>
      simp only [point] at stepped
      obtain rfl := Option.some.inj stepped
      exact balanced.of_same rfl rfl rfl rfl
  | check =>
      simp only [point] at stepped
      obtain rfl := Option.some.inj stepped
      exact balanced.of_same rfl rfl rfl rfl
  | compId =>
      simp only [point] at stepped
      obtain rfl := Option.some.inj stepped
      exact balanced.of_same rfl rfl rfl rfl
  | level compId =>
      simp only [point] at stepped
      obtain rfl := Option.some.inj stepped
      exact balanced.of_same rfl rfl rfl rfl
  | message compId level =>
      simp only [point] at stepped reader
      obtain rfl := Option.some.inj stepped
      exact balanced.readCell rfl rfl rfl reader.1 (by simp [reader.1]) (by simp [reader.2.1])
  | release =>
      simp only [point] at stepped reader
      obtain rfl := Option.some.inj stepped
      exact balanced.readCell rfl rfl rfl reader.1 (by simp) (by simp [reader.2, setCell])
  | advance =>
      simp only [point] at stepped
      obtain rfl := Option.some.inj stepped
      exact balanced.of_same rfl rfl rfl rfl
  | exited =>
      simp only [point] at stepped
      cases stepped

theorem Balanced.step {before after : Journal} (balanced : before.Balanced)
    (placed : before.Placed) {op : JournalOp} (stepped : before.step op = some after) :
    after.Balanced := by
  cases op with
  | setFilter filter =>
      obtain rfl := Option.some.inj stepped
      exact balanced.of_same rfl rfl rfl rfl
  | call level compId text =>
      simp only [Journal.step] at stepped
      split at stepped
      · obtain rfl := Option.some.inj stepped
        obtain ⟨drops, total⟩ := balanced
        obtain ⟨writing_eq, ready_eq⟩ := @counts_of_same before
          { before with calls := before.calls ++ [⟨⟨level, compId, text⟩, .passed⟩] } rfl
        constructor
        · simpa [Journal.drops, List.countP_append] using drops
        · rw [writing_eq, ready_eq]
          have passed : CallPhase.passed.undecided = true := rfl
          simp only [undecided, Journal.drops, List.countP_append, List.length_append,
            List.length_singleton, List.countP_singleton, passed] at total ⊢
          simp only [reduceCtorEq, decide_false, Bool.false_eq_true, if_false, if_true]
          omega
      · obtain rfl := Option.some.inj stepped
        exact balanced
  | next number =>
      obtain ⟨call, found, moved⟩ := Option.bind_eq_some_iff.mp stepped
      exact balanced.next placed found moved
  | read => exact balanced.read placed stepped
  | stop =>
      obtain rfl := Option.some.inj stepped
      exact balanced.of_same rfl rfl rfl rfl

/-! ## Runs -/

/-- What holds of the log whatever has happened. -/
structure Accounted (journal : Journal) : Prop where
  /-- At most one call is writing a slot. -/
  exclusive : ∀ (idx number number' : Nat) (call call' : LogCall) (progress progress' : Progress),
    journal.calls[number]? = some call → call.phase = .writing idx progress →
    journal.calls[number']? = some call' → call'.phase = .writing idx progress' →
    number = number'
  /-- A published slot that is not yet printed stays as it is, except for its being printed. -/
  kept : ∀ op after, journal.step op = some after → ∀ idx, (journal.ring idx).state = .ready →
    (journal.ring idx).shown = false →
      after.ring idx = { journal.ring idx with shown := (after.ring idx).shown }
  /-- A published call has been printed, or its slot holds what it published. -/
  published : ∀ number call idx, journal.calls[number]? = some call →
    call.phase = .published idx →
      number ∈ journal.shownCalls ∨ (journal.ring idx).Holds number call
  /-- No other slot holds a record of a call. -/
  single : ∀ number call idx place, journal.calls[number]? = some call →
    call.phase = .published idx → (journal.ring place).Holds number call →
      place = idx ∧ number ∉ journal.shownCalls
  /-- What is printed is what a call published: its level, its component, and the part of its text
  that fits. -/
  printed : ∀ entry ∈ journal.printed, ∃ call idx, journal.calls[entry.call]? = some call ∧
    call.phase = .published idx ∧
      entry.record = ⟨call.args.level, call.args.compId, formatted call.args.message⟩
  /-- No record is printed twice. -/
  once : (journal.printed.map Printed.call).Nodup
  /-- The counter counts the calls that were dropped. -/
  drops : journal.droppedCount = UInt64.ofNat journal.drops
  /-- A call that has passed the filter is undecided, dropped, writing, ready or printed. -/
  total : journal.calls.length =
    journal.undecided + journal.drops + journal.writing + journal.ready + journal.printed.length

/-- A ready slot that is not printed is left alone by the calls. -/
theorem Placed.next_ready {before after : Journal} (placed : before.Placed) {number : Nat}
    {call : LogCall} (found : before.calls[number]? = some call)
    (stepped : before.next number call = some after) {idx : Nat}
    (ready : (before.ring idx).state = .ready) : after.ring idx = before.ring idx := by
  have call_placed := placed.calls number call found
  unfold CallPlaced at call_placed
  unfold Journal.next at stepped
  split at stepped
  · obtain rfl := Option.some.inj stepped
    rfl
  · rename_i place phase
    dsimp only at stepped
    split at stepped
    · rename_i empty
      obtain rfl := Option.some.inj stepped
      exact Function.update_of_ne (by rintro rfl; simp [empty] at ready) ..
    · obtain rfl := Option.some.inj stepped
      rfl
  · obtain rfl := Option.some.inj stepped
    rfl
  · cases stepped
  · rename_i place progress phase
    simp only [phase] at call_placed
    have different : idx ≠ place := by
      rintro rfl
      simp [call_placed.2.1] at ready
    split at stepped
    · obtain rfl := Option.some.inj stepped
      exact Function.update_of_ne different ..
    · obtain rfl := Option.some.inj stepped
      exact Function.update_of_ne different ..
  · cases stepped

theorem Placed.read_ready {before after : Journal} (placed : before.Placed)
    (stepped : before.read = some after) {idx : Nat}
    (ready : (before.ring idx).state = .ready) (unshown : (before.ring idx).shown = false) :
    after.ring idx = { before.ring idx with shown := (after.ring idx).shown } := by
  have reader := placed.reader
  unfold ReaderPlaced at reader
  unfold Journal.read at stepped
  split at stepped
  · obtain rfl := Option.some.inj stepped
    rfl
  · obtain rfl := Option.some.inj stepped
    rfl
  · obtain rfl := Option.some.inj stepped
    rfl
  · obtain rfl := Option.some.inj stepped
    rfl
  · obtain rfl := Option.some.inj stepped
    rfl
  · obtain rfl := Option.some.inj stepped
    by_cases same : idx = slotOf before.readIdx
    · subst same
      simp [setCell, current]
    · simp [setCell, same]
  · rename_i point
    simp only [point] at reader
    obtain rfl := Option.some.inj stepped
    have different : idx ≠ slotOf before.readIdx := by
      rintro rfl
      simp [current, unshown] at reader
    simp [setCell, different]
  · obtain rfl := Option.some.inj stepped
    rfl
  · cases stepped

theorem Placed.accounted {journal : Journal} (placed : journal.Placed)
    (balanced : journal.Balanced) : journal.Accounted where
  exclusive := by
    intro idx number number' call call' progress progress' found phase found' phase'
    have first := placed.calls number call found
    have second := placed.calls number' call' found'
    simp only [CallPlaced, phase] at first
    simp only [CallPlaced, phase'] at second
    exact first.2.2.1.symm.trans second.2.2.1
  kept := by
    intro op after stepped idx ready unshown
    cases op with
    | setFilter filter =>
        obtain rfl := Option.some.inj stepped
        rfl
    | call level compId text =>
        simp only [Journal.step] at stepped
        split at stepped
        · obtain rfl := Option.some.inj stepped
          rfl
        · obtain rfl := Option.some.inj stepped
          rfl
    | next number =>
        obtain ⟨call, found, moved⟩ := Option.bind_eq_some_iff.mp stepped
        rw [placed.next_ready found moved ready]
    | read => exact placed.read_ready stepped ready unshown
    | stop =>
        obtain rfl := Option.some.inj stepped
        rfl
  published := by
    intro number call idx found phase
    have call_placed := placed.calls number call found
    simp only [CallPlaced, phase] at call_placed
    exact call_placed.imp_right And.right
  single := by
    intro number call idx place found phase holds
    obtain ⟨author, at_author, phase', -, absent⟩ :=
      (placed.cells place).ready holds.state holds.shown
    rw [holds.author] at at_author absent
    rw [found] at at_author
    obtain rfl := Option.some.inj at_author
    exact ⟨CallPhase.published.inj (phase'.symm.trans phase), absent⟩
  printed := placed.printed
  once := placed.once
  drops := balanced.drops
  total := balanced.total

/-- In every state of every run the calls of the log are accounted for. -/
theorem accounted_of_reachable {journal : Journal} (reached : Reachable step Initial journal) :
    journal.Accounted := by
  have kept : journal.Placed ∧ journal.Balanced :=
    reached.invariant (fun journal => journal.Placed ∧ journal.Balanced)
      (fun _ initial => ⟨placed_of_initial initial, balanced_of_initial initial⟩)
      (fun _ _ _ kept _ stepped => ⟨kept.1.step stepped, kept.2.step kept.1 stepped⟩)
  exact kept.1.accounted kept.2

/-- A log on which nothing has happened yet. -/
def fresh : Journal where
  filter := ⟨.debug, fun _ => none⟩
  ring := fun _ => ⟨.empty, ⟨.debug, 0, []⟩, 0, false⟩
  writeIdx := 0
  readIdx := 0
  droppedCount := 0
  keepRunning := true
  calls := []
  reader := .test
  printed := []

theorem fresh_initial : fresh.Initial := ⟨fun _ => rfl, rfl, rfl, rfl, rfl, rfl, rfl⟩

/-- A call that goes all the way and is printed. -/
def callAndPrint (text : List UInt8) : List JournalOp :=
  .call .info 5 text :: List.replicate 6 (.next 0) ++ List.replicate 6 .read

/-- The call is printed and accounted for. -/
theorem callAndPrint_accounted :
    ∃ journal, run step fresh (callAndPrint [104, 105]) = some journal ∧
      journal.printed = [⟨0, ⟨.info, 5, [104, 105]⟩⟩] ∧ journal.Accounted := by
  have executes : (run step fresh (callAndPrint [104, 105])).map (fun journal => journal.printed) =
      some [⟨0, ⟨.info, 5, [104, 105]⟩⟩] := by
    decide +kernel
  obtain ⟨journal, ran, printed⟩ := Option.map_eq_some_iff.mp executes
  exact ⟨journal, ran, printed,
    accounted_of_reachable (reachable_of_run (.start fresh_initial) ran)⟩

/-- A call on its way to its slot is neither dropped nor writing nor ready nor printed, and a call
with a text of three hundred bytes is not printed with its text. -/
theorem underway_and_cut :
    (∃ journal, Reachable step Initial journal ∧
      journal.calls.length ≠
        journal.drops + journal.writing + journal.ready + journal.printed.length) ∧
    ∃ journal, Reachable step Initial journal ∧ ∃ entry ∈ journal.printed, ∃ call,
      journal.calls[entry.call]? = some call ∧ entry.record.message ≠ call.args.message := by
  constructor
  · have executes : (run step fresh [.call .info 5 [104, 105], .next 0]).map (fun journal =>
        (journal.calls.length,
          journal.drops + journal.writing + journal.ready + journal.printed.length)) =
        some (1, 0) := by
      decide +kernel
    obtain ⟨journal, ran, counts⟩ := Option.map_eq_some_iff.mp executes
    obtain ⟨calls, rest⟩ := Prod.mk.inj counts
    exact ⟨journal, reachable_of_run (.start fresh_initial) ran, by rw [calls, rest]; decide⟩
  · have executes : (run step fresh (callAndPrint (List.replicate 300 120))).map (fun journal =>
        (journal.printed[0]?.map fun entry => (entry.call, entry.record.message.length),
          journal.calls[0]?.map fun call => call.args.message.length)) =
        some (some (0, 255), some 300) := by
      decide +kernel
    obtain ⟨journal, ran, view⟩ := Option.map_eq_some_iff.mp executes
    obtain ⟨first, second⟩ := Prod.mk.inj view
    obtain ⟨entry, at_first, lengths⟩ := Option.map_eq_some_iff.mp first
    obtain ⟨number, shorter⟩ := Prod.mk.inj lengths
    obtain ⟨call, at_call, longer⟩ := Option.map_eq_some_iff.mp second
    refine ⟨journal, reachable_of_run (.start fresh_initial) ran, entry,
      List.mem_of_getElem? at_first, call, number ▸ at_call, ?_⟩
    intro same
    rw [same, longer] at shorter
    omega

end Journal

end CodexNos.Log
