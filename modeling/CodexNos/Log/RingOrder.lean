import CodexNos.Log.Ring

/-!
# Order and progress of the log ring

While every producer claims its slot less than one ring ahead of the consumer, no claim fails, and
every place between the consumer and the newest reservation is either held by a producer or ready.
Then the consumer never waits in front of a ready slot and prints in the order of the reservations.
A record that is dropped leaves a place that nobody fills: the consumer stops there, and what is
published behind it stays.
-/

namespace CodexNos.Log

open Lib.Transition

/-- Slot and record of a producer that has reserved a place. -/
def ProducerPoint.holds? : ProducerPoint → Option (Nat × Entry)
  | .idle => none
  | .reserved idx entry | .writing idx entry | .filled idx entry => some (idx, entry)

/-- Slot and record of a producer that has claimed its slot. -/
def ProducerPoint.claims? : ProducerPoint → Option (Nat × Entry)
  | .idle | .reserved _ _ => none
  | .writing idx entry | .filled idx entry => some (idx, entry)

theorem ProducerPoint.holds?_of_claims? {point : ProducerPoint} {idx : Nat} {entry : Entry}
    (claims : point.claims? = some (idx, entry)) : point.holds? = some (idx, entry) := by
  cases point with
  | idle => simp [claims?] at claims
  | reserved idx' entry' => simp [claims?] at claims
  | writing idx' entry' => exact claims
  | filled idx' entry' => exact claims

namespace LogRing

variable {θ : Type*}

/-- The places from the consumer to the newest reservation, and who has them. -/
structure Tickets (ring : Nat → Slot) (producer : θ → ProducerPoint) (reserved released : Nat) :
    Prop where
  /-- A producer holds a place that is reserved and not released. -/
  held : ∀ thread idx entry, (producer thread).holds? = some (idx, entry) →
    idx = entry.number % bufferSize ∧ released ≤ entry.number ∧ entry.number < reserved
  /-- No two producers hold the same place. -/
  apart : ∀ first second idx idx' entry entry',
    (producer first).holds? = some (idx, entry) → (producer second).holds? = some (idx', entry') →
      entry.number = entry'.number → first = second
  /-- A claimed slot is in the writing state and less than a ring ahead of the consumer. -/
  claimed : ∀ thread idx entry, (producer thread).claims? = some (idx, entry) →
    entry.number < released + bufferSize ∧ (ring idx).state = .writing
  /-- A filled slot has the record of its producer. -/
  stored : ∀ thread idx entry, producer thread = .filled idx entry → (ring idx).entry = entry
  /-- A slot in the writing state is claimed. -/
  writing : ∀ idx, (ring idx).state = .writing →
    ∃ thread entry, (producer thread).claims? = some (idx, entry)
  /-- A ready slot has a place that is reserved, not released and not held. -/
  ready : ∀ idx, (ring idx).state = .ready →
    idx = (ring idx).entry.number % bufferSize ∧ released ≤ (ring idx).entry.number ∧
      (ring idx).entry.number < reserved ∧ (ring idx).entry.number < released + bufferSize ∧
      ∀ thread idx' entry, (producer thread).holds? = some (idx', entry) →
        entry.number ≠ (ring idx).entry.number
  /-- A place that is reserved and not released is held or ready. -/
  live : ∀ number, released ≤ number → number < reserved →
    (∃ thread idx entry, (producer thread).holds? = some (idx, entry) ∧ entry.number = number) ∨
      (ring (number % bufferSize)).state = .ready ∧
        (ring (number % bufferSize)).entry.number = number

namespace Tickets

variable {ring : Nat → Slot} {producer : θ → ProducerPoint} {reserved released : Nat}

theorem start (empty : ∀ idx, (ring idx).state = .empty) (idle : ∀ thread, producer thread = .idle) :
    Tickets ring producer 0 0 where
  held := by simp [idle, ProducerPoint.holds?]
  apart := by simp [idle, ProducerPoint.holds?]
  claimed := by simp [idle, ProducerPoint.claims?]
  stored := by simp [idle]
  writing := by simp [empty]
  ready := by simp [empty]
  live := by simp

/-- A slot less than a ring ahead of the consumer is empty when its place is only reserved. -/
theorem empty_of_reserved (tickets : Tickets ring producer reserved released) {thread : θ}
    {idx : Nat} {entry : Entry} (point : producer thread = .reserved idx entry)
    (near : entry.number < released + bufferSize) : (ring idx).state = .empty := by
  have holds : (producer thread).holds? = some (idx, entry) := by simp [point, ProducerPoint.holds?]
  obtain ⟨idx_eq, low, -⟩ := tickets.held thread idx entry holds
  have same (number : Nat) (slot : idx = number % bufferSize) (above : released ≤ number)
      (below : number < released + bufferSize) : entry.number = number := by
    simp only [bufferSize] at *
    omega
  cases state : (ring idx).state with
  | empty => rfl
  | writing =>
      obtain ⟨other, entry', claims⟩ := tickets.writing idx state
      have holds' := ProducerPoint.holds?_of_claims? claims
      obtain ⟨idx_eq', low', -⟩ := tickets.held other idx entry' holds'
      have near' := (tickets.claimed other idx entry' claims).1
      have number_eq := same entry'.number idx_eq' low' near'
      obtain rfl := tickets.apart thread other idx idx entry entry' holds holds' number_eq
      simp [point, ProducerPoint.claims?] at claims
  | ready =>
      obtain ⟨idx_eq', low', -, near', free⟩ := tickets.ready idx state
      exact absurd (same _ idx_eq' low' near') (free thread idx entry holds)

theorem claims_inj (tickets : Tickets ring producer reserved released) {first second : θ}
    {idx : Nat} {entry entry' : Entry} (claims : (producer first).claims? = some (idx, entry))
    (claims' : (producer second).claims? = some (idx, entry')) : first = second := by
  have holds := ProducerPoint.holds?_of_claims? claims
  have holds' := ProducerPoint.holds?_of_claims? claims'
  refine tickets.apart first second idx idx entry entry' holds holds' ?_
  have place := tickets.held first idx entry holds
  have place' := tickets.held second idx entry' holds'
  have near := (tickets.claimed first idx entry claims).1
  have near' := (tickets.claimed second idx entry' claims').1
  simp only [bufferSize] at *
  omega

/-- The slot at the consumer, when it is ready, has the oldest place. -/
theorem front_number (tickets : Tickets ring producer reserved released)
    (front : (ring (released % bufferSize)).state = .ready) :
    (ring (released % bufferSize)).entry.number = released := by
  have place := tickets.ready _ front
  simp only [bufferSize] at *
  omega

theorem clear (tickets : Tickets ring producer reserved released)
    (front : (ring (released % bufferSize)).state = .ready) :
    Tickets
      (Function.update ring (released % bufferSize)
        { ring (released % bufferSize) with state := .empty })
      producer reserved (released + 1) := by
  have number_eq := tickets.front_number front
  obtain ⟨held, apart, claimed, stored, writing, ready, live⟩ := tickets
  have free := (ready _ front).2.2.2.2
  rw [number_eq] at free
  refine ⟨?_, apart, ?_, ?_, fun slot state => ?_, fun slot state => ?_, fun number low high => ?_⟩
  · grind
  · grind
  · grind
  · refine writing slot ?_
    grind
  · have elsewhere : slot ≠ released % bufferSize := by
      rintro rfl
      simp at state
    rw [Function.update_of_ne elsewhere] at state ⊢
    obtain ⟨place, low, high, near, free'⟩ := ready slot state
    have later : (ring slot).entry.number ≠ released := by
      intro same
      rw [same] at place
      exact elsewhere place
    exact ⟨place, by omega, high, by omega, free'⟩
  · refine (live number (by omega) high).imp_right ?_
    rintro ⟨state, number_eq'⟩
    have elsewhere : number % bufferSize ≠ released % bufferSize := by
      intro same
      rw [same, number_eq] at number_eq'
      omega
    rw [Function.update_of_ne elsewhere]
    exact ⟨state, number_eq'⟩

variable [DecidableEq θ]

/-- A producer that moves but keeps its place changes nobody's place. -/
theorem holds_update {thread : θ} {point : ProducerPoint}
    (same : point.holds? = (producer thread).holds?) (other : θ) :
    (Function.update producer thread point other).holds? = (producer other).holds? := by
  rcases eq_or_ne other thread with rfl | moved
  · rw [Function.update_self, same]
  · rw [Function.update_of_ne moved]

theorem reserve (tickets : Tickets ring producer reserved released) {thread : θ}
    (idle : producer thread = .idle) {entry : Entry} (number_eq : entry.number = reserved)
    (order : released ≤ reserved) :
    Tickets ring (Function.update producer thread (.reserved (reserved % bufferSize) entry))
      (reserved + 1) released := by
  obtain ⟨held, apart, claimed, stored, writing, ready, live⟩ := tickets
  refine ⟨?_, ?_, ?_, ?_, fun idx state => ?_, ?_, fun number low high => ?_⟩
  · grind [ProducerPoint.holds?]
  · grind [ProducerPoint.holds?]
  · grind [ProducerPoint.claims?]
  · grind
  · obtain ⟨other, entry', claims⟩ := writing idx state
    have moved : other ≠ thread := by
      rintro rfl
      simp [idle, ProducerPoint.claims?] at claims
    exact ⟨other, entry', by rwa [Function.update_of_ne moved]⟩
  · grind [ProducerPoint.holds?]
  · rcases Nat.lt_succ_iff_lt_or_eq.mp high with old | rfl
    · refine (live number low old).imp_left ?_
      rintro ⟨other, idx, entry', holds, same⟩
      have moved : other ≠ thread := by
        rintro rfl
        simp [idle, ProducerPoint.holds?] at holds
      exact ⟨other, idx, entry', by rwa [Function.update_of_ne moved], same⟩
    · exact Or.inl ⟨thread, _, entry, by rw [Function.update_self]; rfl, number_eq⟩

theorem claim (tickets : Tickets ring producer reserved released) {thread : θ} {idx : Nat}
    {entry : Entry} (point : producer thread = .reserved idx entry)
    (near : entry.number < released + bufferSize) :
    Tickets (Function.update ring idx { ring idx with state := .writing })
      (Function.update producer thread (.writing idx entry)) reserved released := by
  have empty := tickets.empty_of_reserved point near
  have same : (ProducerPoint.writing idx entry).holds? = (producer thread).holds? := by
    rw [point]
    rfl
  obtain ⟨held, apart, claimed, stored, writing, ready, live⟩ := tickets
  refine ⟨?_, ?_, ?_, ?_, fun slot state => ?_, ?_, fun number low high => ?_⟩
  · simpa only [holds_update same] using held
  · simpa only [holds_update same] using apart
  · grind [ProducerPoint.claims?]
  · grind
  · rcases eq_or_ne slot idx with rfl | elsewhere
    · exact ⟨thread, entry, by rw [Function.update_self]; rfl⟩
    · rw [Function.update_of_ne elsewhere] at state
      obtain ⟨other, entry', claims⟩ := writing slot state
      have moved : other ≠ thread := by
        rintro rfl
        simp [point, ProducerPoint.claims?] at claims
      exact ⟨other, entry', by rwa [Function.update_of_ne moved]⟩
  · simp only [holds_update same]
    grind
  · simp only [holds_update same]
    refine (live number low high).imp_right ?_
    rintro ⟨state, number_eq⟩
    have elsewhere : number % bufferSize ≠ idx := by
      rintro rfl
      simp [empty] at state
    rw [Function.update_of_ne elsewhere]
    exact ⟨state, number_eq⟩

theorem fill (tickets : Tickets ring producer reserved released) {thread : θ} {idx : Nat}
    {entry : Entry} (point : producer thread = .writing idx entry) :
    Tickets (Function.update ring idx { ring idx with entry := entry })
      (Function.update producer thread (.filled idx entry)) reserved released := by
  have claims : (producer thread).claims? = some (idx, entry) := by
    rw [point]
    rfl
  have same : (ProducerPoint.filled idx entry).holds? = (producer thread).holds? := by
    rw [point]
    rfl
  have inj {other : θ} {entry' : Entry} (claims' : (producer other).claims? = some (idx, entry')) :
      thread = other := tickets.claims_inj claims claims'
  obtain ⟨held, apart, claimed, stored, writing, ready, live⟩ := tickets
  have locked := (claimed thread idx entry claims).2
  refine ⟨?_, ?_, ?_, fun other slot entry' filled => ?_, fun slot state => ?_, ?_,
    fun number low high => ?_⟩
  · simpa only [holds_update same] using held
  · simpa only [holds_update same] using apart
  · grind [ProducerPoint.claims?]
  · rcases eq_or_ne other thread with rfl | moved
    · obtain ⟨rfl, rfl⟩ : idx = slot ∧ entry = entry' := by simpa using filled
      rw [Function.update_self]
    · rw [Function.update_of_ne moved] at filled
      have elsewhere : slot ≠ idx := by
        rintro rfl
        exact moved (inj (by rw [filled]; rfl)).symm
      rw [Function.update_of_ne elsewhere]
      exact stored other slot entry' filled
  · have state' : (ring slot).state = .writing := by grind
    obtain ⟨other, entry', claims'⟩ := writing slot state'
    rcases eq_or_ne other thread with rfl | moved
    · refine ⟨other, entry', ?_⟩
      rw [Function.update_self, ← claims', claims]
      rfl
    · exact ⟨other, entry', by rwa [Function.update_of_ne moved]⟩
  · simp only [holds_update same]
    grind
  · simp only [holds_update same]
    refine (live number low high).imp_right ?_
    rintro ⟨state, number_eq⟩
    have elsewhere : number % bufferSize ≠ idx := by
      rintro rfl
      simp [locked] at state
    rw [Function.update_of_ne elsewhere]
    exact ⟨state, number_eq⟩

theorem publish (tickets : Tickets ring producer reserved released) {thread : θ} {idx : Nat}
    {entry : Entry} (point : producer thread = .filled idx entry) :
    Tickets (Function.update ring idx { ring idx with state := .ready })
      (Function.update producer thread .idle) reserved released := by
  have claims : (producer thread).claims? = some (idx, entry) := by
    rw [point]
    rfl
  have holds := ProducerPoint.holds?_of_claims? claims
  have inj {other : θ} {entry' : Entry} (claims' : (producer other).claims? = some (idx, entry')) :
      thread = other := tickets.claims_inj claims claims'
  obtain ⟨held, apart, claimed, stored, writing, ready, live⟩ := tickets
  have kept := stored thread idx entry point
  obtain ⟨place, low', high'⟩ := held thread idx entry holds
  have locked := claimed thread idx entry claims
  have gone {other : θ} {point' : ProducerPoint} (active : point' ≠ .idle)
      (moved : Function.update producer thread .idle other = point') :
      other ≠ thread ∧ producer other = point' := by grind
  refine ⟨?_, ?_, fun other slot entry' claims' => ?_, fun other slot entry' filled => ?_,
    fun slot state => ?_, fun slot state => ?_, fun number low high => ?_⟩
  · grind [ProducerPoint.holds?]
  · grind [ProducerPoint.holds?]
  · have moved : other ≠ thread := by
      rintro rfl
      simp [ProducerPoint.claims?] at claims'
    rw [Function.update_of_ne moved] at claims'
    have elsewhere : slot ≠ idx := by
      rintro rfl
      exact moved (inj claims').symm
    rw [Function.update_of_ne elsewhere]
    exact claimed other slot entry' claims'
  · obtain ⟨moved, filled⟩ := gone (by simp) filled
    have elsewhere : slot ≠ idx := by
      rintro rfl
      exact moved (inj (by rw [filled]; rfl)).symm
    rw [Function.update_of_ne elsewhere]
    exact stored other slot entry' filled
  · have elsewhere : slot ≠ idx := by
      rintro rfl
      simp at state
    rw [Function.update_of_ne elsewhere] at state
    obtain ⟨other, entry', claims'⟩ := writing slot state
    have moved : other ≠ thread := by
      rintro rfl
      simp_all
    exact ⟨other, entry', by rwa [Function.update_of_ne moved]⟩
  · have others (number : Nat) (free : ∀ other ≠ thread, ∀ idx' entry',
          (producer other).holds? = some (idx', entry') → entry'.number ≠ number) :
        ∀ other idx' entry', (Function.update producer thread .idle other).holds? =
          some (idx', entry') → entry'.number ≠ number := by
      grind [ProducerPoint.holds?]
    rcases eq_or_ne slot idx with rfl | elsewhere
    · rw [Function.update_self]
      simp only [kept]
      refine ⟨place, low', high', locked.1, others _ fun other moved idx' entry' holds' same => ?_⟩
      exact moved (apart other thread idx' slot entry' entry holds' holds same)
    · rw [Function.update_of_ne elsewhere] at state ⊢
      obtain ⟨place', low', high', near', free⟩ := ready slot state
      exact ⟨place', low', high', near', others _ fun other _ => free other⟩
  · rcases live number low high with ⟨other, idx', entry', holds', rfl⟩ | ⟨state, number_eq⟩
    · rcases eq_or_ne other thread with rfl | moved
      · obtain ⟨rfl, rfl⟩ : idx = idx' ∧ entry = entry' := by simpa [holds] using holds'
        right
        rw [← place, Function.update_self]
        exact ⟨rfl, congrArg Entry.number kept⟩
      · exact Or.inl ⟨other, idx', entry', by rwa [Function.update_of_ne moved], rfl⟩
    · right
      have elsewhere : number % bufferSize ≠ idx := by
        rintro rfl
        simp [locked.2] at state
      rw [Function.update_of_ne elsewhere]
      exact ⟨state, number_eq⟩

end Tickets

/-! ## The whole log -/

/-- What holds in every run that stays in step. -/
structure Steady (log : LogRing θ) : Prop where
  tickets : Tickets log.ring log.producer log.reserved log.released
  order : log.released ≤ log.reserved
  writeIdx_eq : log.writeIdx = log.reserved % 2 ^ 32
  /-- The consumer is at the oldest place; it moves on after the release. -/
  readIdx_eq : (log.readIdx + if log.consumer = .advance then 1 else 0) % 2 ^ 32 =
    log.released % 2 ^ 32
  /-- It has printed what it has released; it prints before the release. -/
  printed_eq : log.printed.map Entry.number =
    List.range (log.released + if log.consumer = .clear then 1 else 0)
  /-- What it prints or releases is ready. -/
  front : log.consumer = .print ∨ log.consumer = .clear → log.current.state = .ready
  /-- What it releases is printed. -/
  shown : log.consumer = .clear → log.current.entry ∈ log.printed
  /-- An accepted record is printed, or in a slot that is claimed or ready. -/
  kept : ∀ entry ∈ log.accepted, entry ∈ log.printed ∨
    (∃ thread idx, (log.producer thread).claims? = some (idx, entry)) ∨
      ∃ idx, log.ring idx = ⟨.ready, entry⟩
  /-- The consumer leaves when nothing is left. -/
  exited : log.consumer = .exited → log.reserved = log.released
  /-- The function returns when the consumer has left. -/
  joined : log.deinit = .returned → log.consumer = .exited

/-- Every producer claims its slot less than one ring ahead of the consumer; the consumer leaves
only when no producer is active, and no producer comes after that. -/
def InStep (log : LogRing θ) : LogOp θ → Prop
  | .call _ level compId _ => log.filter.passes level compId → log.consumer ≠ .exited
  | .claim thread =>
      match log.producer thread with
      | .reserved _ entry => entry.number < log.released + bufferSize
      | _ => True
  | .consume =>
      log.consumer = .testReady ∧ log.current.state ≠ .ready → ∀ thread, log.producer thread = .idle
  | _ => True

theorem steady_of_initial {log : LogRing θ} (start : log.Initial) : log.Steady where
  tickets := by
    rw [start.reserved, start.released]
    exact Tickets.start start.empty start.idle
  order := by simp [start.released]
  writeIdx_eq := by simp [start.writeIdx, start.reserved]
  readIdx_eq := by simp [start.readIdx, start.released, start.consumer]
  printed_eq := by simp [start.printed, start.released, start.consumer]
  front := by simp [start.consumer]
  shown := by simp [start.consumer]
  kept := by simp [start.accepted]
  exited := by simp [start.consumer]
  joined := by simp [start.deinit]

namespace Steady

variable {log : LogRing θ}

/-- Between two moves the consumer looks at the slot of the oldest place. -/
theorem readIdx_mod (steady : log.Steady) (settled : log.consumer ≠ .advance) :
    log.readIdx % bufferSize = log.released % bufferSize := by
  have same := steady.readIdx_eq
  rw [if_neg settled] at same
  simp only [bufferSize]
  omega

theorem produce (steady : log.Steady) {ring : Nat → Slot} {producer : θ → ProducerPoint}
    {reserved writeIdx : Nat} {accepted : List Entry}
    (tickets : Tickets ring producer reserved log.released) (order : log.released ≤ reserved)
    (writeIdx_eq : writeIdx = reserved % 2 ^ 32)
    (frame : ∀ idx, (log.ring idx).state = .ready → ring idx = log.ring idx)
    (kept : ∀ entry ∈ accepted, entry ∈ log.printed ∨
      (∃ thread idx, (producer thread).claims? = some (idx, entry)) ∨
        ∃ idx, ring idx = ⟨.ready, entry⟩)
    (exited : log.consumer = .exited → reserved = log.released) :
    Steady
      { log with
        ring := ring
        producer := producer
        reserved := reserved
        writeIdx := writeIdx
        accepted := accepted } where
  tickets := tickets
  order := order
  writeIdx_eq := writeIdx_eq
  readIdx_eq := steady.readIdx_eq
  printed_eq := steady.printed_eq
  front := by
    intro point
    have ready := steady.front point
    simp only [current] at ready ⊢
    rwa [frame _ ready]
  shown := by
    intro point
    have ready := steady.front (Or.inr point)
    have entry_mem := steady.shown point
    simp only [current] at ready entry_mem ⊢
    rwa [frame _ ready]
  kept := kept
  exited := exited
  joined := steady.joined

/-- When no producer is active, something reserved and not released is ready in front. -/
theorem current_ready (steady : log.Steady) (settled : log.consumer ≠ .advance)
    (idle : ∀ thread, log.producer thread = .idle) (left : log.released < log.reserved) :
    log.current.state = .ready := by
  rw [current, steady.readIdx_mod settled]
  rcases steady.tickets.live log.released (le_refl _) left with ⟨thread, idx, entry, holds, -⟩ | ready
  · simp [idle, ProducerPoint.holds?] at holds
  · exact ready.1

theorem turn (steady : log.Steady) {point : ConsumerPoint}
    (before : log.consumer = .test ∨ log.consumer = .testReady ∨ log.consumer = .check)
    (after : point ≠ .advance ∧ point ≠ .clear)
    (front : point = .print → log.current.state = .ready)
    (exited : point = .exited → log.reserved = log.released) :
    Steady { log with consumer := point } where
  tickets := steady.tickets
  order := steady.order
  writeIdx_eq := steady.writeIdx_eq
  readIdx_eq := by
    have same := steady.readIdx_eq
    rcases before with at_test | at_testReady | at_check
    · simpa [at_test, after] using same
    · simpa [at_testReady, after] using same
    · simpa [at_check, after] using same
  printed_eq := by
    have same := steady.printed_eq
    rcases before with at_test | at_testReady | at_check
    · simpa [at_test, after] using same
    · simpa [at_testReady, after] using same
    · simpa [at_check, after] using same
  front := fun target => front (target.resolve_right after.2)
  shown := fun target => absurd target after.2
  kept := steady.kept
  exited := exited
  joined := by
    intro returned
    have := steady.joined returned
    simp_all

theorem print (steady : log.Steady) (point : log.consumer = .print) :
    Steady { log with printed := log.printed ++ [log.current.entry], consumer := .clear } where
  tickets := steady.tickets
  order := steady.order
  writeIdx_eq := steady.writeIdx_eq
  readIdx_eq := by simpa [point] using steady.readIdx_eq
  printed_eq := by
    have ready := steady.front (Or.inl point)
    have number_eq : log.current.entry.number = log.released := by
      rw [current, steady.readIdx_mod (by simp [point])] at ready ⊢
      exact steady.tickets.front_number ready
    have same := steady.printed_eq
    simp only [point, reduceCtorEq, if_false, Nat.add_zero] at same
    simp [same, number_eq, List.range_succ]
  front := fun _ => steady.front (Or.inl point)
  shown := fun _ => by simp [current]
  kept := by
    intro entry member
    exact (steady.kept entry member).imp_left fun shown => List.mem_append_left _ shown
  exited := by simp
  joined := by
    intro returned
    have := steady.joined returned
    simp_all

theorem clear (steady : log.Steady) (point : log.consumer = .clear) :
    Steady
      { log with
        ring := Function.update log.ring (log.readIdx % bufferSize)
          { log.current with state := .empty }
        released := log.released + 1
        consumer := .advance } := by
  have ready := steady.front (Or.inr point)
  have shown := steady.shown point
  have place := steady.readIdx_mod (by simp [point])
  rw [current, place] at ready shown
  have left := (steady.tickets.ready _ ready).2.2.1
  rw [steady.tickets.front_number ready] at left
  simp only [current, place]
  exact {
    tickets := steady.tickets.clear ready
    order := left
    writeIdx_eq := steady.writeIdx_eq
    readIdx_eq := by
      have same := steady.readIdx_eq
      simp only [point, reduceCtorEq, if_false, if_true] at same ⊢
      omega
    printed_eq := by simpa [point] using steady.printed_eq
    front := by simp
    shown := by simp
    kept := by
      intro entry member
      rcases steady.kept entry member with printed | claimed | ⟨idx, slot⟩
      · exact Or.inl printed
      · exact Or.inr (Or.inl claimed)
      · rcases eq_or_ne idx (log.released % bufferSize) with rfl | elsewhere
        · left
          rwa [slot] at shown
        · exact Or.inr (Or.inr ⟨idx, (Function.update_of_ne elsewhere _ _).trans slot⟩)
    exited := by simp
    joined := by
      intro returned
      have := steady.joined returned
      simp_all }

theorem advance (steady : log.Steady) (point : log.consumer = .advance) :
    Steady { log with readIdx := (log.readIdx + 1) % 2 ^ 32, consumer := .test } where
  tickets := steady.tickets
  order := steady.order
  writeIdx_eq := steady.writeIdx_eq
  readIdx_eq := by simpa [point] using steady.readIdx_eq
  printed_eq := by simpa [point] using steady.printed_eq
  front := by simp
  shown := by simp
  kept := steady.kept
  exited := by simp
  joined := by
    intro returned
    have := steady.joined returned
    simp_all

theorem consume (steady : log.Steady)
    (allowed : log.consumer = .testReady ∧ log.current.state ≠ .ready →
      ∀ thread, log.producer thread = .idle) {after : LogRing θ}
    (stepped : log.consume = some after) : after.Steady := by
  simp only [LogRing.consume] at stepped
  split at stepped
  · rename_i point
    obtain rfl := Option.some.inj stepped
    refine steady.turn (Or.inl point) ?_ ?_ ?_
    · split <;> simp
    · split <;> simp
    · split <;> simp
  · rename_i point
    obtain rfl := Option.some.inj stepped
    refine steady.turn (Or.inr (Or.inl point)) ?_ ?_ ?_
    · split <;> simp
    · split <;> simp
    · split
      · simp
      · rename_i waiting
        intro _
        by_contra different
        have left : log.released < log.reserved := lt_of_le_of_ne steady.order (Ne.symm different)
        exact waiting (steady.current_ready (by simp [point]) (allowed ⟨point, waiting⟩) left)
  · rename_i point
    obtain rfl := Option.some.inj stepped
    refine steady.turn (Or.inr (Or.inr point)) ?_ ?_ ?_
    · split <;> simp
    · split
      · rename_i ready
        exact fun _ => ready
      · simp
    · split <;> simp
  · rename_i point
    obtain rfl := Option.some.inj stepped
    exact steady.print point
  · rename_i point
    obtain rfl := Option.some.inj stepped
    exact steady.clear point
  · rename_i point
    obtain rfl := Option.some.inj stepped
    exact steady.advance point
  · simp at stepped

section Producer

variable [DecidableEq θ]

theorem call (steady : log.Steady) {thread : θ} {level : Level} {compId : Nat} {message : String}
    (allowed : log.InStep (.call thread level compId message)) {after : LogRing θ}
    (stepped : log.step (.call thread level compId message) = some after) : after.Steady := by
  simp only [step, setProducer] at stepped
  split at stepped
  · rename_i idle
    split at stepped
    · rename_i passes
      obtain rfl := Option.some.inj stepped
      have place : log.writeIdx % bufferSize = log.reserved % bufferSize := by
        have := steady.writeIdx_eq
        simp only [bufferSize]
        omega
      rw [place]
      refine steady.produce (steady.tickets.reserve idle rfl steady.order)
        (Nat.le_succ_of_le steady.order) ?_ (fun _ _ => rfl) (fun entry member => ?_)
        (fun left => absurd left (allowed passes))
      · have := steady.writeIdx_eq
        omega
      · refine (steady.kept entry member).imp_right (Or.imp_left ?_)
        rintro ⟨other, idx, claims⟩
        have moved : other ≠ thread := by
          rintro rfl
          simp [idle, ProducerPoint.claims?] at claims
        exact ⟨other, idx, by rwa [Function.update_of_ne moved]⟩
    · obtain rfl := Option.some.inj stepped
      exact steady
  · simp at stepped

theorem claim (steady : log.Steady) {thread : θ} (allowed : log.InStep (.claim thread))
    {after : LogRing θ} (stepped : log.step (.claim thread) = some after) : after.Steady := by
  simp only [step, setProducer] at stepped
  split at stepped
  · rename_i idx entry point
    have near : entry.number < log.released + bufferSize := by simpa [InStep, point] using allowed
    have empty := steady.tickets.empty_of_reserved point near
    rw [if_pos empty] at stepped
    obtain rfl := Option.some.inj stepped
    have frame (slot : Nat) (ready : (log.ring slot).state = .ready) :
        Function.update log.ring idx { log.ring idx with state := .writing } slot =
          log.ring slot := by
      refine Function.update_of_ne ?_ _ _
      rintro rfl
      simp [empty] at ready
    refine steady.produce (steady.tickets.claim point near) steady.order steady.writeIdx_eq frame
      (fun other member => ?_) steady.exited
    rcases List.mem_append.mp member with old | new
    · refine (steady.kept other old).imp_right (Or.imp ?_ ?_)
      · rintro ⟨owner, slot, claims⟩
        have moved : owner ≠ thread := by
          rintro rfl
          simp [point, ProducerPoint.claims?] at claims
        exact ⟨owner, slot, by rwa [Function.update_of_ne moved]⟩
      · rintro ⟨slot, ready⟩
        exact ⟨slot, by rw [frame slot (by rw [ready]), ready]⟩
    · obtain rfl := List.mem_singleton.mp new
      exact Or.inr (Or.inl ⟨thread, idx, by rw [Function.update_self]; rfl⟩)
  · simp at stepped

theorem fill (steady : log.Steady) {thread : θ} {after : LogRing θ}
    (stepped : log.step (.fill thread) = some after) : after.Steady := by
  simp only [step, setProducer] at stepped
  split at stepped
  · rename_i idx entry point
    obtain rfl := Option.some.inj stepped
    have claims : (log.producer thread).claims? = some (idx, entry) := by
      rw [point]
      rfl
    have locked := (steady.tickets.claimed thread idx entry claims).2
    have frame (slot : Nat) (ready : (log.ring slot).state = .ready) :
        Function.update log.ring idx { log.ring idx with entry := entry } slot =
          log.ring slot := by
      refine Function.update_of_ne ?_ _ _
      rintro rfl
      simp [locked] at ready
    refine steady.produce (steady.tickets.fill point) steady.order steady.writeIdx_eq frame
      (fun other member => ?_) steady.exited
    refine (steady.kept other member).imp_right (Or.imp ?_ ?_)
    · rintro ⟨owner, slot, claims'⟩
      refine ⟨owner, slot, ?_⟩
      rcases eq_or_ne owner thread with rfl | moved
      · rw [Function.update_self, ← claims', claims]
        rfl
      · rwa [Function.update_of_ne moved]
    · rintro ⟨slot, ready⟩
      exact ⟨slot, by rw [frame slot (by rw [ready]), ready]⟩
  · simp at stepped

theorem publish (steady : log.Steady) {thread : θ} {after : LogRing θ}
    (stepped : log.step (.publish thread) = some after) : after.Steady := by
  simp only [step, setProducer] at stepped
  split at stepped
  · rename_i idx entry point
    obtain rfl := Option.some.inj stepped
    have claims : (log.producer thread).claims? = some (idx, entry) := by
      rw [point]
      rfl
    have locked := (steady.tickets.claimed thread idx entry claims).2
    have stored := steady.tickets.stored thread idx entry point
    have frame (slot : Nat) (ready : (log.ring slot).state = .ready) :
        Function.update log.ring idx { log.ring idx with state := .ready } slot =
          log.ring slot := by
      refine Function.update_of_ne ?_ _ _
      rintro rfl
      simp [locked] at ready
    refine steady.produce (steady.tickets.publish point) steady.order steady.writeIdx_eq frame
      (fun other member => ?_) steady.exited
    rcases steady.kept other member with shown | ⟨owner, slot, claims'⟩ | ⟨slot, ready⟩
    · exact Or.inl shown
    · right
      rcases eq_or_ne owner thread with rfl | moved
      · obtain ⟨rfl, rfl⟩ : idx = slot ∧ entry = other := by simpa [claims] using claims'
        exact Or.inr ⟨idx, by rw [Function.update_self, stored]⟩
      · exact Or.inl ⟨owner, slot, by rwa [Function.update_of_ne moved]⟩
    · exact Or.inr (Or.inr ⟨slot, by rw [frame slot (by rw [ready]), ready]⟩)
  · simp at stepped

theorem step (steady : log.Steady) {op : LogOp θ} (allowed : log.InStep op) {after : LogRing θ}
    (stepped : log.step op = some after) : after.Steady := by
  cases op with
  | setFilter filter =>
      obtain rfl := Option.some.inj stepped
      exact { steady with }
  | call thread level compId message => exact steady.call allowed stepped
  | claim thread => exact steady.claim allowed stepped
  | fill thread => exact steady.fill stepped
  | publish thread => exact steady.publish stepped
  | consume => exact steady.consume allowed stepped
  | stop =>
      simp only [LogRing.step] at stepped
      split at stepped
      · obtain rfl := Option.some.inj stepped
        exact { steady with joined := by simp }
      · simp at stepped
  | join =>
      simp only [LogRing.step] at stepped
      split at stepped
      · rename_i joined
        obtain rfl := Option.some.inj stepped
        have left : log.consumer = .exited := by simp_all
        exact { steady with joined := fun _ => left }
      · simp at stepped

end Producer

end Steady

/-! ## Order and progress -/

/-- Order, progress and completeness of the log. -/
structure Orderly (log : LogRing θ) : Prop where
  /-- The consumer never waits while a slot is ready and no producer is active. -/
  progress : (∀ thread, log.producer thread = .idle) → log.consumer = .test →
    (∃ idx < bufferSize, (log.ring idx).state = .ready) → log.current.state = .ready
  /-- Records are printed in the order of the reservations. -/
  inOrder : log.printed.Pairwise fun first second => first.number < second.number
  /-- When `nos_log_deinit` has returned and no producer is active, all accepted records are
  printed. -/
  complete : log.deinit = .returned → (∀ thread, log.producer thread = .idle) →
    ∀ entry ∈ log.accepted, entry ∈ log.printed

theorem Steady.orderly {log : LogRing θ} (steady : log.Steady) : log.Orderly where
  progress := by
    rintro idle point ⟨idx, -, ready⟩
    obtain ⟨-, low, high, -⟩ := steady.tickets.ready idx ready
    exact steady.current_ready (by simp [point]) idle (lt_of_le_of_lt low high)
  inOrder := by
    have sorted : (log.printed.map Entry.number).Pairwise (· < ·) := by
      rw [steady.printed_eq]
      exact List.pairwise_lt_range
    exact List.pairwise_map.mp sorted
  complete := by
    intro returned idle entry member
    have nothing_left := steady.exited (steady.joined returned)
    rcases steady.kept entry member with printed | ⟨thread, idx, claims⟩ | ⟨idx, slot⟩
    · exact printed
    · simp [idle, ProducerPoint.claims?] at claims
    · obtain ⟨-, low, high, -⟩ := steady.tickets.ready idx (by rw [slot])
      omega

/-- A run that stays in step keeps order and progress. -/
theorem orderly_of_inStep [DecidableEq θ] {log : LogRing θ}
    (reached : Reach step InStep Initial log) : log.Orderly := by
  have steady : log.Steady :=
    Reach.invariant Steady (fun _ start => steady_of_initial start)
      (fun _ _ _ steady allowed stepped => steady.step allowed stepped) reached
  exact steady.orderly

instance [Fintype θ] (log : LogRing θ) (op : LogOp θ) : Decidable (log.InStep op) := by
  unfold InStep
  repeat' split
  all_goals infer_instance

/-- A record of the given place. -/
def record (number : Nat) : Entry := ⟨number, .error, 0, "event"⟩

/-- The slots from `first` to `count` are ready. -/
def window (first count : Nat) : Nat → Slot := fun idx =>
  ⟨if first ≤ idx ∧ idx < count then .ready else .empty, record idx⟩

/-- Places from `first` to `count` are published, those before are printed. -/
def batch (first count : Nat) : LogRing Unit where
  filter := ⟨.debug, fun _ => none⟩
  ring := window first count
  writeIdx := count
  readIdx := first
  droppedCount := 0
  keepRunning := true
  producer := fun _ => .idle
  consumer := .test
  deinit := .idle
  reserved := count
  released := first
  accepted := (List.range count).map record
  printed := (List.range first).map record

theorem batch_initial : (batch 0 0).Initial := by
  constructor <;> simp [batch, window]

/-- One whole call. -/
def logOne : List (LogOp Unit) := [.call () .error 0 "event", .claim (), .fill (), .publish ()]

/-- Two calls and an orderly shutdown. -/
theorem shutdown_prints_all :
    ∃ log : LogRing Unit, Reach step InStep Initial log ∧ log.deinit = .returned ∧
      log.printed.length = 2 ∧ log.Orderly := by
  have ends : (runGuarded step InStep (batch 0 0)
      (logOne ++ logOne ++ .stop :: List.replicate 14 .consume ++ [.join])).map
        (fun log => decide (log.deinit = .returned ∧ log.printed.length = 2)) = some true := by
    decide +kernel
  obtain ⟨log, execution, holds⟩ := Option.map_eq_some_iff.mp ends
  obtain ⟨returned, count⟩ := of_decide_eq_true holds
  have reached := reach_of_runGuarded (.start batch_initial) execution
  exact ⟨log, reached, returned, count, orderly_of_inStep reached⟩

/-! ## A dropped record stops the consumer -/

theorem window_publish (count : Nat) :
    Function.update (window 0 count) count ⟨.ready, record count⟩ = window 0 (count + 1) := by
  funext idx
  rcases eq_or_ne idx count with rfl | other
  · simp [window]
  · have same : idx < count ↔ idx < count + 1 := by omega
    simp [window, Function.update_of_ne other, same]

theorem window_clear {first count : Nat} :
    Function.update (window first count) first ⟨.empty, record first⟩ =
      window (first + 1) count := by
  funext idx
  rcases eq_or_ne idx first with rfl | other
  · simp [window]
  · have same : first ≤ idx ↔ first + 1 ≤ idx := by omega
    simp [window, Function.update_of_ne other, same]

theorem run_logOne {count : Nat} (room : count < bufferSize) :
    run step (batch 0 count) logOne = some (batch 0 (count + 1)) := by
  have place : count % bufferSize = count := Nat.mod_eq_of_lt room
  have wrap : (count + 1) % 4294967296 = count + 1 := by
    simp only [bufferSize] at room
    omega
  have empty : window 0 count count = ⟨.empty, record count⟩ := by simp [window]
  have published := window_publish count
  rw [record] at empty published
  simp [logOne, step, setProducer, batch, Filter.passes, Level.value, place, wrap, List.range_succ,
    empty, published, record]

theorem run_fill {count : Nat} (room : count ≤ bufferSize) :
    run step (batch 0 0) (List.replicate count logOne).flatten = some (batch 0 count) := by
  induction count with
  | zero => rfl
  | succ count ih =>
      rw [List.replicate_succ', List.flatten_append, run_append (ih (by omega)),
        List.flatten_singleton]
      exact run_logOne room

/-- The ring was full and one record was dropped; the consumer has printed the first places. -/
def dropped (first : Nat) : LogRing Unit :=
  { batch first bufferSize with
    writeIdx := bufferSize + 1
    reserved := bufferSize + 1
    droppedCount := 1 }

theorem run_drop :
    run step (batch 0 bufferSize) [.call () .error 0 "event", .claim ()] = some (dropped 0) := by
  simp [step, setProducer, batch, dropped, window, Filter.passes, Level.value, bufferSize]

theorem run_print {first : Nat} (left : first < bufferSize) :
    run step (dropped first) (List.replicate 5 .consume) = some (dropped (first + 1)) := by
  have place : first % bufferSize = first := Nat.mod_eq_of_lt left
  have wrap : (first + 1) % 4294967296 = first + 1 := by
    simp only [bufferSize] at left
    omega
  have ready : window first bufferSize first = ⟨.ready, record first⟩ := by simp [window, left]
  simp [step, consume, current, dropped, batch, List.replicate_succ, place, ready, wrap,
    List.range_succ, window_clear]

theorem run_printAll {first : Nat} (left : first ≤ bufferSize) :
    run step (dropped 0) (List.replicate first (List.replicate 5 .consume)).flatten =
      some (dropped first) := by
  induction first with
  | zero => rfl
  | succ first ih =>
      rw [List.replicate_succ', List.flatten_append, run_append (ih (by omega)),
        List.flatten_singleton]
      exact run_print left

/-- The ring overflows once and is emptied: the next record is published and never printed. -/
theorem overflow_stops_consumer :
    ∃ log : LogRing Unit, Reachable step Initial log ∧ ¬ log.Orderly := by
  have full := reachable_of_run (.start batch_initial) (run_fill (le_refl bufferSize))
  have overflown := reachable_of_run full run_drop
  have emptied := reachable_of_run overflown (run_printAll (le_refl bufferSize))
  have again : (run step (dropped bufferSize) logOne).map (fun log =>
      ((log.ring 1).state, log.current.state, log.producer (), log.consumer)) =
        some (.ready, .empty, .idle, .test) := by
    decide +kernel
  obtain ⟨log, execution, ends⟩ := Option.map_eq_some_iff.mp again
  refine ⟨log, reachable_of_run emptied execution, fun orderly => ?_⟩
  simp only [Prod.mk.injEq] at ends
  obtain ⟨ready, waiting, idle, point⟩ := ends
  have front := orderly.progress (fun _ => idle) point ⟨1, by decide, ready⟩
  rw [waiting] at front
  simp at front

end LogRing

end CodexNos.Log
