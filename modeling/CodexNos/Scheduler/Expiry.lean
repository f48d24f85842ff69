import CodexNos.Scheduler.Membership

/-!
# Due timers

The expiry loop takes the earliest timer out of the heap as long as it is due, and puts a periodic
timer of an active component back with a later deadline.
-/

namespace CodexNos.Scheduler

open Lib Lib.Transition

namespace TimerSys

/-! ## One turn of the loop -/

/-- A heap of distinct timers. -/
structure Sound (sys : TimerSys) (thread : ThreadRef) : Prop where
  ordered : BinaryHeap.Ordered sys.expireAt (sys.nodes thread)
  distinct : (sys.nodes thread).toList.Nodup
  allocated : ∀ ref ∈ sys.nodes thread, (sys.timer ref).isSome = true
  fits : (sys.nodes thread).size ≤ (sys.thread thread).capacity

/-- The earliest timer has been taken out of a heap. -/
structure Popped (sys : TimerSys) (thread : ThreadRef) (now : Nat) (ref : TimerRef)
    (popped : TimerSys) : Prop where
  member : ref ∈ sys.nodes thread
  due : sys.expireAt ref ≤ now
  least : ∀ other ∈ sys.nodes thread, sys.expireAt ref ≤ sys.expireAt other
  mem_iff : ∀ other, other ∈ popped.nodes thread ↔ other ∈ sys.nodes thread ∧ other ≠ ref
  timer : popped.timer = Function.update sys.timer ref
    ((sys.timer ref).map fun timer => { timer with isRunning := false })
  size : (popped.nodes thread).size + 1 = (sys.nodes thread).size
  capacity : (popped.thread thread).capacity = (sys.thread thread).capacity
  status : popped.status = sys.status
  sound : popped.Sound thread

variable {sys popped : TimerSys} {thread : ThreadRef} {now : Nat} {ref : TimerRef}

theorem Sound.popDue (sound : sys.Sound thread)
    (due : sys.popDue thread now = some (ref, popped)) : Popped sys thread now ref popped := by
  obtain ⟨ordered, distinct, allocated, fits⟩ := sound
  unfold TimerSys.popDue at due
  split at due
  · rename_i bound
    split at due
    · simp at due
    · rename_i expired
      obtain ⟨rfl, rfl⟩ := Prod.mk.inj (Option.some.inj due)
      have mem_iff (other : TimerRef) :
          other ∈ (sys.removeNode thread 0 bound).nodes thread ↔
            other ∈ sys.nodes thread ∧ other ≠ (sys.nodes thread)[0] := by
        rw [removeNode_nodes]
        exact BinaryHeap.mem_removeAt_siftDown _ bound distinct other
      have size : ((sys.removeNode thread 0 bound).nodes thread).size + 1 =
          (sys.nodes thread).size := by
        rw [removeNode_nodes, BinaryHeap.siftDown_size, BinaryHeap.removeAt_size]
        omega
      have capacity : ((sys.removeNode thread 0 bound).thread thread).capacity =
          (sys.thread thread).capacity := by
        simp [removeNode, heapifyDown, TimerSys.setNodes]
      refine
        { member := Array.getElem_mem bound
          due := Nat.not_lt.mp expired
          least := fun other member => ?_
          mem_iff := mem_iff
          timer := rfl
          size := size
          capacity := capacity
          status := rfl
          sound := ⟨?_, ?_, fun other member => ?_, ?_⟩ }
      · obtain ⟨index, inside, rfl⟩ := Array.getElem_of_mem member
        exact ordered.root_le index inside
      · have kept : BinaryHeap.Ordered sys.expireAt
            ((sys.removeNode thread 0 bound).nodes thread) := by
          rw [removeNode_nodes]
          exact (ordered.removeAt_siftDown_iff bound).mpr (by simp)
        refine kept.congr_key fun other member => ?_
        refine expireAt_congr (setTimer_other _ _ ?_)
        exact ((mem_iff other).mp member).2
      · change ((sys.removeNode thread 0 bound).nodes thread).toList.Nodup
        rw [removeNode_nodes]
        exact BinaryHeap.nodup_removeAt_siftDown _ bound distinct
      · obtain ⟨old, different⟩ := (mem_iff other).mp member
        rw [setTimer_other _ _ different]
        exact allocated other old
      · change ((sys.removeNode thread 0 bound).nodes thread).size ≤
          ((sys.removeNode thread 0 bound).thread thread).capacity
        rw [capacity]
        omega
  · simp at due

theorem Sound.none_due (sound : sys.Sound thread) (none_popped : sys.popDue thread now = none) :
    ∀ other ∈ sys.nodes thread, now < sys.expireAt other := by
  intro other member
  obtain ⟨index, inside, rfl⟩ := Array.getElem_of_mem member
  have bound : 0 < (sys.nodes thread).size := Nat.zero_lt_of_lt inside
  unfold TimerSys.popDue at none_popped
  rw [dif_pos bound] at none_popped
  split at none_popped
  · rename_i later
    exact Nat.lt_of_lt_of_le later (sound.ordered.root_le index inside)
  · simp at none_popped

/-- A timer has been put back into a heap. -/
structure Rearmed (sys : TimerSys) (thread : ThreadRef) (ref : TimerRef) (timer : Timer)
    (now : Nat) (after : TimerSys) : Prop where
  mem_iff : ∀ other, other ∈ after.nodes thread ↔ other ∈ sys.nodes thread ∨ other = ref
  timer : after.timer = Function.update sys.timer ref
    (some { timer with expireAtMs := (now + timer.intervalMs) % 2 ^ 64, isRunning := true })
  status : after.status = sys.status
  sound : after.Sound thread

theorem Sound.rearm (sound : sys.Sound thread) (now : Nat) (timer : Timer)
    (absent : ref ∉ sys.nodes thread)
    (room : (sys.nodes thread).size < (sys.thread thread).capacity) :
    Rearmed sys thread ref timer now (sys.rearm thread ref timer now) := by
  obtain ⟨ordered, distinct, allocated, fits⟩ := sound
  unfold TimerSys.rearm
  rw [if_neg (Nat.not_le.mpr room)]
  refine
    { mem_iff := mem_insertTimer sys thread ref _
      timer := rfl
      status := rfl
      sound := ⟨?_, ?_, fun other member => ?_, ?_⟩ }
  · rw [insertTimer_nodes]
    refine BinaryHeap.Ordered.push_siftUp (ordered.congr_key fun other member => ?_) ref
    refine expireAt_congr (setTimer_other _ _ ?_)
    rintro rfl
    exact absent member
  · rw [insertTimer_nodes, (BinaryHeap.siftUp_perm _ _ _).toList.nodup_iff, Array.toList_push,
      List.nodup_append_comm]
    exact List.nodup_cons.mpr ⟨by simpa using absent, distinct⟩
  · rw [insertTimer_timer]
    rcases (mem_insertTimer sys thread ref _ other).mp member with old | rfl
    · rcases eq_or_ne other ref with rfl | different
      · rw [setTimer_self]
        rfl
      · rw [setTimer_other _ _ different]
        exact allocated other old
    · rw [setTimer_self]
      rfl
  · rw [insertTimer_nodes, BinaryHeap.siftUp_size, Array.size_push]
    simpa [insertTimer, heapifyUp, TimerSys.setNodes] using room

/-! ## What a turn leaves alone -/

/-- The timer is put back when it has fired. -/
def rearms (sys : TimerSys) (ref : TimerRef) : Bool :=
  (sys.timer ref).any fun timer => timer.isPeriodic && sys.ownerActive timer

/-- The callback of the timer is called when it fires. -/
def calls (sys : TimerSys) (ref : TimerRef) : Bool :=
  (sys.timer ref).any fun timer => sys.ownerActive timer && timer.callback.isSome

/-- The interval of a timer. -/
def interval (sys : TimerSys) (ref : TimerRef) : Nat := ((sys.timer ref).map (·.intervalMs)).getD 0

/-- The timers differ in their deadlines and in whether they run only. -/
structure Alike (sys after : TimerSys) : Prop where
  status : after.status = sys.status
  rearms : after.rearms = sys.rearms
  calls : after.calls = sys.calls
  interval : after.interval = sys.interval

theorem Alike.trans {first second third : TimerSys} (before : Alike first second)
    (after : Alike second third) : Alike first third :=
  ⟨after.status.trans before.status, after.rearms.trans before.rearms,
    after.calls.trans before.calls, after.interval.trans before.interval⟩

theorem alike_update {after : TimerSys} {timer : Timer} (found : sys.timer ref = some timer)
    (status : after.status = sys.status) (expireAtMs : Nat) (isRunning : Bool)
    (changed : after.timer = Function.update sys.timer ref
      (some { timer with expireAtMs := expireAtMs, isRunning := isRunning })) :
    Alike sys after := by
  have active (timer : Timer) : after.ownerActive timer = sys.ownerActive timer := by
    rw [ownerActive, ownerActive, status]
  refine ⟨status, funext fun other => ?_, funext fun other => ?_, funext fun other => ?_⟩
  · rcases eq_or_ne other ref with rfl | different
    · simp [rearms, changed, found, ownerActive, status]
    · simp [rearms, changed, different, active]
  · rcases eq_or_ne other ref with rfl | different
    · simp [calls, changed, found, ownerActive, status]
    · simp [calls, changed, different, active]
  · rcases eq_or_ne other ref with rfl | different
    · simp [interval, changed, found]
    · simp [interval, changed, different]

/-- A turn of the expiry loop, with the reading at which it put the timer back. -/
structure Turned (sys : TimerSys) (thread : ThreadRef) (ref : TimerRef) (rearmed : Option Nat)
    (after : TimerSys) : Prop where
  alike : Alike sys after
  other : ∀ other, other ≠ ref → after.timer other = sys.timer other
  mem_iff : ∀ other, other ∈ after.nodes thread ↔
    other ∈ sys.nodes thread ∧ (other = ref → sys.rearms ref = true)
  deadline : sys.rearms ref = true → ∃ reading, rearmed = some reading ∧
    after.expireAt ref = (reading + sys.interval ref) % 2 ^ 64
  sound : after.Sound thread

theorem Popped.exists_timer (pop : Popped sys thread now ref popped) (sound : sys.Sound thread) :
    ∃ timer, sys.timer ref = some timer ∧
      popped.timer ref = some { timer with isRunning := false } ∧ Alike sys popped := by
  obtain ⟨timer, found⟩ := Option.isSome_iff_exists.mp (sound.allocated ref pop.member)
  have changed := pop.timer
  rw [found, Option.map_some] at changed
  refine ⟨timer, found, ?_, alike_update found pop.status timer.expireAtMs false changed⟩
  rw [changed, Function.update_self]

theorem Popped.calls_eq (pop : Popped sys thread now ref popped) (sound : sys.Sound thread)
    {timer : Timer} (found : popped.timer ref = some timer) :
    sys.calls ref = (popped.ownerActive timer && timer.callback.isSome) := by
  obtain ⟨-, -, -, alike⟩ := pop.exists_timer sound
  rw [← alike.calls, calls, found, Option.any_some]

theorem Popped.turned (pop : Popped sys thread now ref popped) (sound : sys.Sound thread)
    {timer : Timer} (found : popped.timer ref = some timer)
    (once : (timer.isPeriodic && popped.ownerActive timer) = false) :
    Turned sys thread ref none popped := by
  obtain ⟨-, -, -, alike⟩ := pop.exists_timer sound
  have not_again : sys.rearms ref = false := by
    rw [← alike.rearms, rearms, found, Option.any_some, once]
  refine
    { alike := alike
      other := fun other different => ?_
      mem_iff := fun other => ?_
      deadline := fun again => by simp [not_again] at again
      sound := pop.sound }
  · rw [pop.timer, Function.update_of_ne different]
  · rw [pop.mem_iff, not_again]
    simp

/-- A periodic timer of an active component is put back. -/
theorem Popped.turned_rearm (pop : Popped sys thread now ref popped) (sound : sys.Sound thread)
    {timer : Timer} (found : popped.timer ref = some timer)
    (again : (timer.isPeriodic && popped.ownerActive timer) = true) (reading : Nat) :
    Turned sys thread ref (some reading) (popped.rearm thread ref timer reading) := by
  obtain ⟨-, -, -, alike⟩ := pop.exists_timer sound
  have absent : ref ∉ popped.nodes thread := fun member => ((pop.mem_iff ref).mp member).2 rfl
  have room : (popped.nodes thread).size < (popped.thread thread).capacity := by
    have := pop.size
    have := sound.fits
    rw [pop.capacity]
    omega
  have back := pop.sound.rearm reading timer absent room
  have rearms_ref : sys.rearms ref = true := by
    rw [← alike.rearms, rearms, found, Option.any_some, again]
  refine
    { alike := alike.trans (alike_update found back.status _ _ back.timer)
      other := fun other different => ?_
      mem_iff := fun other => ?_
      deadline := fun _ => ⟨reading, rfl, ?_⟩
      sound := back.sound }
  · rw [back.timer, Function.update_of_ne different, pop.timer, Function.update_of_ne different]
  · rw [back.mem_iff, pop.mem_iff]
    constructor
    · rintro (⟨old, -⟩ | rfl)
      · exact ⟨old, fun _ => rearms_ref⟩
      · exact ⟨pop.member, fun _ => rearms_ref⟩
    · rintro ⟨old, -⟩
      rcases eq_or_ne other ref with rfl | different
      · exact .inr rfl
      · exact .inl ⟨old, different⟩
  · have same : timer.intervalMs = sys.interval ref := by
      rw [← alike.interval, interval, found, Option.map_some, Option.getD_some]
    have found' := (congrFun back.timer ref).trans (Function.update_self ref _ _)
    rw [expireAt_of_timer found', same]

/-! ## The loop -/

/-- The turn took out the earliest timer, and this timer was due. -/
structure Turn.Earliest (turn : Turn) (thread : ThreadRef) : Prop where
  member : turn.ref ∈ turn.before.nodes thread
  due : turn.before.expireAt turn.ref ≤ turn.now
  least : ∀ other ∈ turn.before.nodes thread,
    turn.before.expireAt turn.ref ≤ turn.before.expireAt other

/-- What a call of `process_timers` that returned has done. -/
structure FiresDue (sys : TimerSys) (thread : ThreadRef) (expiry : Expiry) : Prop where
  /-- Each turn took the earliest timer, which was due. -/
  earliest : ∀ turn ∈ expiry.turns, turn.Earliest thread
  /-- Each turn called the callback if there is one and the component is active. -/
  fired : expiry.fired = (expiry.turns.map Turn.ref).filter sys.calls
  /-- At the last reading no timer of the heap was due. -/
  later : ∃ last, expiry.last = some last ∧
    ∀ ref ∈ expiry.sys.nodes thread, last < expiry.sys.expireAt ref
  /-- The heap is ordered. -/
  ordered : BinaryHeap.Ordered expiry.sys.expireAt (expiry.sys.nodes thread)
  /-- No timer is twice in the heap. -/
  distinct : (expiry.sys.nodes thread).toList.Nodup
  /-- The heap has the timers that were not taken out and those that were put back. -/
  remaining : ∀ ref, ref ∈ expiry.sys.nodes thread ↔
    (ref ∈ sys.nodes thread ∧ ref ∉ expiry.turns.map Turn.ref) ∨
      (ref ∈ expiry.turns.map Turn.ref ∧ sys.rearms ref = true)
  /-- A timer that was not taken out is as before. -/
  untouched : ∀ ref, ref ∉ expiry.turns.map Turn.ref → expiry.sys.timer ref = sys.timer ref
  /-- A timer that was put back has the deadline that its last turn gave it. -/
  deadline : ∀ earlier turn afterwards, expiry.turns = earlier ++ turn :: afterwards →
    turn.ref ∉ afterwards.map Turn.ref → sys.rearms turn.ref = true →
      ∃ reading, turn.rearmed = some reading ∧
        expiry.sys.expireAt turn.ref = (reading + sys.interval turn.ref) % 2 ^ 64

theorem firesDue_nil (sound : sys.Sound thread) (none_popped : sys.popDue thread now = none) :
    FiresDue sys thread ⟨sys, [], [], some now⟩ where
  earliest := by simp
  fired := by simp
  later := ⟨now, rfl, sound.none_due none_popped⟩
  ordered := sound.ordered
  distinct := sound.distinct
  remaining := by simp
  untouched := by simp
  deadline := by simp

theorem FiresDue.cons {after : TimerSys} {rearmed : Option Nat} {expiry : Expiry}
    (fires : FiresDue after thread expiry) (pop : Popped sys thread now ref popped)
    (turned : Turned sys thread ref rearmed after) :
    FiresDue sys thread (expiry.after ⟨sys, now, ref, rearmed⟩
      (if sys.calls ref then [ref] else [])) where
  earliest := by
    intro turn member
    rcases List.mem_cons.mp member with rfl | member
    · exact ⟨pop.member, pop.due, pop.least⟩
    · exact fires.earliest turn member
  fired := by
    rw [Expiry.after_fired, Expiry.after_turns, List.map_cons, List.filter_cons, fires.fired,
      turned.alike.calls]
    split <;> simp_all
  later := fires.later
  ordered := fires.ordered
  distinct := fires.distinct
  remaining := by
    intro other
    rw [Expiry.after_sys, Expiry.after_turns, fires.remaining, turned.mem_iff, turned.alike.rearms,
      List.map_cons, List.mem_cons]
    rcases eq_or_ne other ref with rfl | different
    · simp only [pop.member, true_and, forall_const, true_or, not_true_eq_false, and_false,
        false_or]
      constructor
      · rintro (⟨again, -⟩ | ⟨-, again⟩)
        · exact again
        · exact again
      · intro again
        by_cases later : other ∈ expiry.turns.map Turn.ref
        · exact .inr ⟨later, again⟩
        · exact .inl ⟨again, later⟩
    · simp [different]
  untouched := by
    intro other absent
    obtain ⟨different, absent⟩ := List.ne_and_not_mem_of_not_mem_cons absent
    rw [Expiry.after_sys, fires.untouched other absent, turned.other other different]
  deadline := by
    intro earlier turn afterwards split absent again
    rcases List.cons_eq_append_iff.mp split with ⟨rfl, first⟩ | ⟨rest, rfl, tail⟩
    · obtain ⟨rfl, rfl⟩ := List.cons.inj first
      obtain ⟨reading, rfl, deadline⟩ := turned.deadline again
      refine ⟨reading, rfl, ?_⟩
      rw [← deadline]
      exact expireAt_congr (fires.untouched ref absent)
    · rw [← turned.alike.interval]
      rw [← turned.alike.rearms] at again
      exact fires.deadline rest turn afterwards tail absent again

/-- A call of `process_timers` that returns fires the due timers in the order of their deadlines. -/
theorem processTimers_firesDue {readings : List Nat} (sound : sys.Sound thread)
    (returned : (sys.processTimers thread readings).returned = true) :
    FiresDue sys thread (sys.processTimers thread readings) := by
  induction sys, readings using processTimers.induct thread with
  | case1 sys => simp [processTimers, Expiry.returned] at returned
  | case2 sys now readings none_popped =>
      simp only [processTimers, none_popped]
      exact firesDue_nil sound none_popped
  | case3 sys now readings ref popped due missing =>
      simp [processTimers, due, missing, Expiry.returned] at returned
  | case4 sys now ref popped due timer found active again =>
      simp only [processTimers, due, found] at returned
      rw [if_pos again] at returned
      simp [Expiry.returned] at returned
  | case5 sys now ref popped due timer found active again rearmed readings ih =>
      have pop := sound.popDue due
      have turned := pop.turned_rearm sound found again rearmed
      rw [processTimers] at returned ⊢
      simp only [due, found] at returned ⊢
      rw [if_pos again] at returned ⊢
      have fires := (ih turned.sound returned).cons pop turned
      rwa [pop.calls_eq sound found] at fires
  | case6 sys now readings ref popped due timer found active once ih =>
      have pop := sound.popDue due
      have turned := pop.turned sound found (Bool.eq_false_of_not_eq_true once)
      rw [processTimers] at returned ⊢
      simp only [due, found] at returned ⊢
      rw [if_neg once] at returned ⊢
      have fires := (ih turned.sound returned).cons pop turned
      rwa [pop.calls_eq sound found] at fires

/-! ## Heaps that are built by calls -/

/-- Every heap that is built by calls which keep the order is an ordered heap of timers. -/
theorem sound_of_reach (reach : Reach step StepKeepsOrder Initial sys) (thread : ThreadRef) :
    sys.Sound thread := by
  obtain ⟨linked, ordered, fits⟩ : sys.Linked ∧ sys.HeapOrdered ∧ sys.Fits := by
    refine Reach.invariant (fun sys => sys.Linked ∧ sys.HeapOrdered ∧ sys.Fits) ?_ ?_ reach
    · exact fun sys initial => ⟨initial.linked, initial.heapOrdered, Initial.fits initial⟩
    · rintro before op after ⟨linked, ordered, fits⟩ keeps stepped
      obtain ⟨linked', ordered'⟩ := step_linked_ordered linked stepped
      exact ⟨linked', (ordered' ordered).mpr keeps, fits.step linked stepped⟩
  refine ⟨ordered thread, linked.distinct thread, fun ref member => ?_, fits thread⟩
  obtain ⟨timer, found, -, -⟩ := linked.armed thread ref member
  rw [found]
  rfl

/-! ## Whether the loop returns -/

/-- The loop returns if the clock keeps to one reading. -/
def Returns (sys : TimerSys) (thread : ThreadRef) (now : Nat) : Prop :=
  ∃ count, (sys.processTimers thread (List.replicate count now)).returned = true

/-- A due timer that is due again as soon as it is put back. -/
structure DueAgain (sys : TimerSys) (thread : ThreadRef) (now : Nat) (ref : TimerRef) : Prop where
  member : ref ∈ sys.nodes thread
  due : sys.expireAt ref ≤ now
  rearms : sys.rearms ref = true
  again : (now + sys.interval ref) % 2 ^ 64 ≤ now

theorem Turned.dueAgain {after : TimerSys} {rearmed : Option Nat} {stuck : TimerRef}
    (turned : Turned sys thread ref rearmed after)
    (at_now : ∀ reading, rearmed = some reading → reading = now)
    (due : sys.DueAgain thread now stuck) : after.DueAgain thread now stuck where
  member := (turned.mem_iff stuck).mpr ⟨due.member, fun same => same ▸ due.rearms⟩
  due := by
    rcases eq_or_ne stuck ref with rfl | different
    · obtain ⟨reading, put, deadline⟩ := turned.deadline due.rearms
      rw [deadline, at_now reading put]
      exact due.again
    · rw [expireAt_congr (turned.other stuck different)]
      exact due.due
  rearms := by
    rw [turned.alike.rearms]
    exact due.rearms
  again := by
    rw [turned.alike.interval]
    exact due.again

theorem DueAgain.never_returns {readings : List Nat} {stuck : TimerRef}
    (due_again : sys.DueAgain thread now stuck) (sound : sys.Sound thread)
    (constant : ∀ reading ∈ readings, reading = now) :
    (sys.processTimers thread readings).returned = false := by
  induction sys, readings using processTimers.induct thread with
  | case1 sys => rfl
  | case2 sys reading readings none_popped =>
      obtain rfl := constant reading List.mem_cons_self
      have later := sound.none_due none_popped stuck due_again.member
      exact absurd due_again.due (Nat.not_le.mpr later)
  | case3 sys reading readings ref popped due missing =>
      simp [processTimers, due, missing, Expiry.returned]
  | case4 sys reading ref popped due timer found active again =>
      simp only [processTimers, due, found]
      rw [if_pos again]
      rfl
  | case5 sys reading ref popped due timer found active again rearmed readings ih =>
      obtain rfl := constant reading List.mem_cons_self
      obtain rfl := constant rearmed (List.mem_cons_of_mem _ List.mem_cons_self)
      have turned := (sound.popDue due).turned_rearm sound found again rearmed
      rw [processTimers]
      simp only [due, found]
      rw [if_pos again]
      refine ih (turned.dueAgain (by simp) due_again) turned.sound fun other member => ?_
      exact constant other (List.mem_cons_of_mem _ (List.mem_cons_of_mem _ member))
  | case6 sys reading readings ref popped due timer found active once ih =>
      obtain rfl := constant reading List.mem_cons_self
      have turned := (sound.popDue due).turned sound found (Bool.eq_false_of_not_eq_true once)
      rw [processTimers]
      simp only [due, found]
      rw [if_neg once]
      refine ih (turned.dueAgain (by simp) due_again) turned.sound fun other member => ?_
      exact constant other (List.mem_cons_of_mem _ member)

/-- The timers of a heap that are due. -/
def dueTimers (sys : TimerSys) (thread : ThreadRef) (now : Nat) : Finset TimerRef :=
  (sys.nodes thread).toList.toFinset.filter fun ref => sys.expireAt ref ≤ now

/-- One turn, after which its timer is not due, and the rest of the loop. -/
theorem Popped.returns (pop : Popped sys thread now ref popped) (sound : sys.Sound thread)
    (due : sys.popDue thread now = some (ref, popped))
    (later : sys.rearms ref = true → now < (now + sys.interval ref) % 2 ^ 64) :
    ∃ rearmed after, Turned sys thread ref rearmed after ∧
      after.dueTimers thread now = (sys.dueTimers thread now).erase ref ∧
      (after.Returns thread now → sys.Returns thread now) := by
  have due_eq {rearmed : Option Nat} {after : TimerSys}
      (turned : Turned sys thread ref rearmed after)
      (at_now : ∀ reading, rearmed = some reading → reading = now) :
      after.dueTimers thread now = (sys.dueTimers thread now).erase ref := by
    ext other
    simp only [dueTimers, Finset.mem_filter, List.mem_toFinset, Array.mem_toList_iff,
      Finset.mem_erase, turned.mem_iff]
    rcases eq_or_ne other ref with rfl | different
    · simp only [ne_eq, not_true_eq_false, false_and, iff_false, not_and, forall_const]
      rintro ⟨-, again⟩
      obtain ⟨reading, put, deadline⟩ := turned.deadline again
      rw [deadline, at_now reading put]
      exact Nat.not_le.mpr (later again)
    · rw [expireAt_congr (turned.other other different)]
      simp [different]
  obtain ⟨timer, found⟩ : ∃ timer, popped.timer ref = some timer := by
    obtain ⟨timer, -, found, -⟩ := pop.exists_timer sound
    exact ⟨_, found⟩
  cases again : (timer.isPeriodic && popped.ownerActive timer) with
  | true =>
      have turned := pop.turned_rearm sound found again now
      refine ⟨_, _, turned, due_eq turned (by simp), ?_⟩
      rintro ⟨count, returned⟩
      refine ⟨count + 2, ?_⟩
      rw [List.replicate_succ, List.replicate_succ, processTimers]
      simpa only [due, found, again, if_true, Expiry.after_returned] using returned
  | false =>
      have turned := pop.turned sound found again
      refine ⟨_, _, turned, due_eq turned (by simp), ?_⟩
      rintro ⟨count, returned⟩
      refine ⟨count + 1, ?_⟩
      rw [List.replicate_succ, processTimers]
      simpa only [due, found, again, Bool.false_eq_true, if_false, Expiry.after_returned] using
        returned

/-- Where every due timer gets a later deadline, the loop returns: each turn leaves one timer less
that is due. -/
theorem Sound.returns (sound : sys.Sound thread)
    (later : ∀ ref ∈ sys.nodes thread, sys.expireAt ref ≤ now → sys.rearms ref = true →
      now < (now + sys.interval ref) % 2 ^ 64) : sys.Returns thread now := by
  induction some_due : (sys.dueTimers thread now).card using Nat.strong_induction_on
    generalizing sys with
  | _ count ih =>
  cases due : sys.popDue thread now with
  | none => exact ⟨1, by simp [processTimers, due, Expiry.returned]⟩
  | some taken =>
      obtain ⟨ref, popped⟩ := taken
      have pop := sound.popDue due
      have is_due : ref ∈ sys.dueTimers thread now := by
        simp [dueTimers, pop.member, pop.due]
      obtain ⟨rearmed, after, turned, due_eq, back⟩ :=
        pop.returns sound due (later ref pop.member pop.due)
      have fewer : (after.dueTimers thread now).card < count := by
        rw [due_eq, ← some_due]
        exact Finset.card_erase_lt_of_mem is_due
      refine back (ih _ fewer turned.sound (fun other member other_due again => ?_) rfl)
      have still : other ∈ (sys.dueTimers thread now).erase ref := by
        rw [← due_eq]
        simp [dueTimers, member, other_due]
      rw [turned.alike.rearms] at again
      rw [turned.alike.interval]
      refine later other ((turned.mem_iff other).mp member).1 ?_ again
      exact (Finset.mem_filter.mp (Finset.mem_of_mem_erase still)).2

/-- The loop returns exactly if no timer is due again as soon as it is put back. -/
theorem returns_iff (reach : Reach step StepKeepsOrder Initial sys) (thread : ThreadRef)
    (now : Nat) :
    sys.Returns thread now ↔
      ∀ ref ∈ sys.nodes thread, sys.expireAt ref ≤ now → sys.rearms ref = true →
        now < (now + sys.interval ref) % 2 ^ 64 := by
  have sound := sound_of_reach reach thread
  constructor
  · rintro ⟨count, returned⟩ ref member due again
    by_contra stuck
    have due_again : sys.DueAgain thread now ref := ⟨member, due, again, Nat.not_lt.mp stuck⟩
    rw [due_again.never_returns sound fun reading => List.eq_of_mem_replicate] at returned
    exact Bool.false_ne_true returned
  · exact sound.returns

theorem exists_oneTimer (intervalMs : Nat) (isPeriodic : Bool) :
    ∃ sys : TimerSys, Reach step StepKeepsOrder Initial sys ∧ sys.nodes 0 = #[1] ∧
      sys.expireAt 1 = (0 + intervalMs) % 2 ^ 64 ∧ sys.interval 1 = intervalMs ∧
      sys.rearms 1 = isPeriodic ∧ sys.calls 1 = true := by
  let idle : Timer := ⟨0, 0, false, some 0, 0, false, none, none⟩
  let armed : Timer :=
    ⟨(0 + intervalMs) % 2 ^ 64, intervalMs, isPeriodic, some 0, 0, true, some 7, some 0⟩
  let created : TimerSys := exampleSys.setTimer 1 (some idle)
  let started : TimerSys := created.insertTimer 0 1 armed
  have create : exampleSys.step (.create 1 (some 0) 0) = some created := rfl
  have start : created.step (.start 7 (some 1) intervalMs isPeriodic 0) = some started := rfl
  have found : started.timer 1 = some armed := setTimer_self created 1 (some armed)
  have reach : Reach step StepKeepsOrder Initial created :=
    .step (.start exampleSys_initial) (by exact trivial) create
  refine ⟨started, .step reach (by exact trivial) start, ?_, ?_, ?_, ?_, ?_⟩
  · rw [insertTimer_nodes, BinaryHeap.siftUp]
    rfl
  · rw [expireAt_of_timer found]
  · rw [interval, found]
    rfl
  · rw [rearms, found]
    exact Bool.and_true isPeriodic
  · rw [calls, found]
    rfl

/-- A periodic timer of ten milliseconds that is due is called once and put back. -/
theorem periodic_timer_fires :
    ∃ sys : TimerSys, sys.nodes 0 = #[1] ∧ sys.expireAt 1 = 10 ∧
      (sys.processTimers 0 [12, 12, 12]).fired = [1] ∧
      (sys.processTimers 0 [12, 12, 12]).sys.expireAt 1 = 22 ∧
      FiresDue sys 0 (sys.processTimers 0 [12, 12, 12]) := by
  obtain ⟨sys, reach, nodes, deadline, interval, rearms, calls⟩ := exists_oneTimer 10 true
  have sound := sound_of_reach reach 0
  have member : 1 ∈ sys.nodes 0 := by simp [nodes]
  obtain ⟨popped, due⟩ : ∃ popped, sys.popDue 0 12 = some (1, popped) := by
    cases due : sys.popDue 0 12 with
    | none =>
        have later := sound.none_due due 1 member
        simp [deadline] at later
    | some taken =>
        obtain ⟨ref, popped⟩ := taken
        obtain rfl : ref = 1 := by simpa [nodes] using (sound.popDue due).member
        exact ⟨popped, rfl⟩
  have pop := sound.popDue due
  obtain ⟨timer, -, found, alike⟩ := pop.exists_timer sound
  have again := congrFun alike.rearms 1
  rw [rearms, TimerSys.rearms, found, Option.any_some] at again
  have turned := pop.turned_rearm sound found again 12
  obtain ⟨reading, put, later⟩ := turned.deadline rearms
  obtain rfl := Option.some.inj put
  rw [interval] at later
  have nothing_left : (popped.rearm 0 1 { timer with isRunning := false } 12).popDue 0 12 =
      none := by
    cases due' : (popped.rearm 0 1 { timer with isRunning := false } 12).popDue 0 12 with
    | none => rfl
    | some taken =>
        obtain ⟨ref, popped'⟩ := taken
        have pop' := turned.sound.popDue due'
        obtain rfl : ref = 1 := by simpa [nodes] using ((turned.mem_iff ref).mp pop'.member).1
        have expired := pop'.due
        rw [later] at expired
        exact absurd expired (by decide)
  have ran : sys.processTimers 0 [12, 12, 12] =
      ⟨popped.rearm 0 1 { timer with isRunning := false } 12, [1], [⟨sys, 12, 1, some 12⟩],
        some 12⟩ := by
    have called := pop.calls_eq sound found
    rw [calls] at called
    rw [processTimers]
    simp only [due, found]
    rw [if_pos again, if_pos called.symm, processTimers]
    simp only [nothing_left, Expiry.after, List.append_nil]
  refine ⟨sys, nodes, deadline, by rw [ran], by rw [ran]; exact later, ?_⟩
  exact processTimers_firesDue sound (by rw [ran]; rfl)

/-- The loop returns with a periodic timer of ten milliseconds. -/
theorem periodic_timer_returns :
    ∃ sys : TimerSys, sys.nodes 0 = #[1] ∧ sys.rearms 1 = true ∧ sys.Returns 0 12 := by
  obtain ⟨sys, reach, nodes, -, interval, rearms, -⟩ := exists_oneTimer 10 true
  refine ⟨sys, nodes, rearms, (returns_iff reach 0 12).mpr fun ref member _ _ => ?_⟩
  obtain rfl : ref = 1 := by simpa [nodes] using member
  rw [interval]
  decide

/-- A periodic timer without an interval is due again at once. -/
theorem zero_interval_never_returns :
    ∃ (sys : TimerSys) (now : Nat), Reach step StepKeepsOrder Initial sys ∧
      ¬ sys.Returns 0 now := by
  obtain ⟨sys, reach, nodes, deadline, interval, rearms, -⟩ := exists_oneTimer 0 true
  refine ⟨sys, 0, reach, fun ⟨count, returned⟩ => ?_⟩
  have due_again : sys.DueAgain 0 0 1 :=
    ⟨by simp [nodes], by simp [deadline], rearms, by simp [interval]⟩
  rw [due_again.never_returns (sound_of_reach reach 0) fun reading => List.eq_of_mem_replicate]
    at returned
  exact Bool.false_ne_true returned

/-! ## How long the thread sleeps -/

/-- Conversion of a number to `int`. -/
def toInt (value : Nat) : Int := (BitVec.ofNat 32 value).toInt

/-- The timeout that `nos_scheduler_run_loop` passes to `epoll_wait`. -/
def pollTimeout (sys : TimerSys) (thread : ThreadRef) (now : Nat) : Int :=
  if bound : 0 < (sys.nodes thread).size then
    if sys.expireAt (sys.nodes thread)[0] ≤ now then 0
    else toInt (sys.expireAt (sys.nodes thread)[0] - now)
  else -1

/-- The thread does not sleep past a deadline. -/
def WakesInTime (sys : TimerSys) (thread : ThreadRef) (now : Nat) : Prop :=
  if ∃ ref ∈ sys.nodes thread, sys.expireAt ref ≤ now then sys.pollTimeout thread now = 0
  else 0 ≤ sys.pollTimeout thread now ∧
    ∀ ref ∈ sys.nodes thread, now + sys.pollTimeout thread now ≤ sys.expireAt ref

/-- A conversion is not negative exactly if the lower half of the numbers is meant, and then it does
not exceed the number. -/
theorem toInt_nonneg_iff {value : Nat} : 0 ≤ toInt value ↔ value % 2 ^ 32 < 2 ^ 31 := by
  rw [toInt, BitVec.toInt_eq_toNat_cond, BitVec.toNat_ofNat]
  split <;> omega

theorem toInt_le (value : Nat) : toInt value ≤ value := by
  rw [toInt, BitVec.toInt_eq_toNat_cond, BitVec.toNat_ofNat]
  have := Nat.mod_le value (2 ^ 32)
  split <;> omega

/-- The thread does not sleep past a deadline exactly if the earliest deadline has passed, or its
distance counts as a positive `int`. -/
theorem wakesInTime_iff (reach : Reach step StepKeepsOrder Initial sys) (thread : ThreadRef)
    (now : Nat) (nonempty : sys.nodes thread ≠ #[]) :
    sys.WakesInTime thread now ↔
      ∃ ref ∈ sys.nodes thread,
        (∀ other ∈ sys.nodes thread, sys.expireAt ref ≤ sys.expireAt other) ∧
        (sys.expireAt ref ≤ now ∨ (sys.expireAt ref - now) % 2 ^ 32 < 2 ^ 31) := by
  have bound : 0 < (sys.nodes thread).size := Array.size_pos_iff.mpr nonempty
  have root_mem : (sys.nodes thread)[0] ∈ sys.nodes thread := Array.getElem_mem bound
  have root_le : ∀ other ∈ sys.nodes thread,
      sys.expireAt (sys.nodes thread)[0] ≤ sys.expireAt other := by
    intro other member
    obtain ⟨index, inside, rfl⟩ := Array.getElem_of_mem member
    exact (sound_of_reach reach thread).ordered.root_le index inside
  have timeout_eq : sys.pollTimeout thread now =
      if sys.expireAt (sys.nodes thread)[0] ≤ now then 0
      else toInt (sys.expireAt (sys.nodes thread)[0] - now) := dif_pos bound
  rw [WakesInTime, timeout_eq]
  by_cases passed : sys.expireAt (sys.nodes thread)[0] ≤ now
  · rw [if_pos ⟨_, root_mem, passed⟩, if_pos passed]
    exact ⟨fun _ => ⟨_, root_mem, root_le, .inl passed⟩, fun _ => rfl⟩
  · have none_due : ¬ ∃ ref ∈ sys.nodes thread, sys.expireAt ref ≤ now :=
      fun ⟨ref, member, due⟩ => passed ((root_le ref member).trans due)
    rw [if_neg none_due, if_neg passed, toInt_nonneg_iff]
    constructor
    · rintro ⟨positive, -⟩
      exact ⟨_, root_mem, root_le, .inr positive⟩
    · rintro ⟨ref, member, least, due | positive⟩
      · exact absurd ⟨ref, member, due⟩ none_due
      · have same := Nat.le_antisymm (least _ root_mem) (root_le ref member)
        rw [same] at positive
        refine ⟨positive, fun other member' => ?_⟩
        have at_most := toInt_le (sys.expireAt (sys.nodes thread)[0] - now)
        have later := root_le other member'
        omega

/-- A timer of ten seconds wakes the thread in time. -/
theorem ten_seconds_wake :
    ∃ sys : TimerSys, sys.expireAt 1 = 10000 ∧ sys.WakesInTime 0 2000 := by
  obtain ⟨sys, reach, nodes, deadline, -, -⟩ := exists_oneTimer 10000 false
  have deadline' : sys.expireAt 1 = 10000 := deadline
  refine ⟨sys, deadline', (wakesInTime_iff reach 0 2000 (by simp [nodes])).mpr ?_⟩
  exact ⟨1, by simp [nodes], by simp [nodes], .inr (by rw [deadline']; decide)⟩

/-- With a timer of 30 days alone the thread sleeps until something else happens. -/
theorem thirty_days_sleep :
    ∃ (sys : TimerSys) (now : Nat), Reach step StepKeepsOrder Initial sys ∧
      sys.nodes 0 ≠ #[] ∧ ¬ sys.WakesInTime 0 now := by
  obtain ⟨sys, reach, nodes, deadline, -, -⟩ := exists_oneTimer 2592000000 false
  have deadline' : sys.expireAt 1 = 2592000000 := deadline
  refine ⟨sys, 0, reach, by simp [nodes], fun in_time => ?_⟩
  have timeout : sys.pollTimeout 0 0 = -1702967296 := by
    simp only [pollTimeout, nodes]
    rw [dif_pos (by decide)]
    simp only [List.getElem_toArray, List.getElem_cons_zero, deadline']
    decide
  have none_due : ¬ ∃ ref ∈ sys.nodes 0, sys.expireAt ref ≤ 0 := by
    simp [nodes, deadline']
  rw [WakesInTime, if_neg none_due, timeout] at in_time
  exact absurd in_time.1 (by decide)

end TimerSys

end CodexNos.Scheduler
