import CodexNos.Scheduler.Firing
import CodexNos.Scheduler.TimerHeap

/-!
# Which timers are in the heaps

Between the stretches of `process_timers`, heaps and timer objects are linked as long as no thread
puts back a timer that was started again during its callback.  `nos_timer_start` tests `is_running`;
the code that puts a fired timer back does not.
-/

namespace CodexNos.Scheduler

open Lib Lib.Transition

namespace FiringSys

/-- What the heaps hold. -/
structure Membership (state : FiringSys) : Prop where
  /-- No timer is twice in a heap. -/
  distinct : ∀ thread, (state.sys.nodes thread).toList.Nodup
  /-- No timer is in two heaps. -/
  once : ∀ ref thread other, ref ∈ state.sys.nodes thread → ref ∈ state.sys.nodes other →
    thread = other
  /-- A timer runs when it is in the heap of its thread, and only then. -/
  running_iff : ∀ ref timer, state.sys.timer ref = some timer →
    (timer.isRunning = true ↔
      ∃ thread, timer.ownerThread = some thread ∧ ref ∈ state.sys.nodes thread)
  /-- Every heap fits. -/
  fits : ∀ thread, (state.sys.nodes thread).size ≤ (state.sys.thread thread).capacity

/-- Heaps and objects are linked, and the heaps fit. -/
structure Tidy (state : FiringSys) : Prop where
  linked : state.sys.Linked
  fits : ∀ thread, (state.sys.nodes thread).size ≤ (state.sys.thread thread).capacity

theorem Tidy.membership {state : FiringSys} (tidy : state.Tidy) : state.Membership where
  distinct := tidy.linked.distinct
  once := by
    intro ref thread other member member'
    obtain ⟨timer, found, -, home⟩ := tidy.linked.armed thread ref member
    exact Option.some.inj (home.symm.trans (tidy.linked.node_thread found member').2)
  running_iff := by
    intro ref timer found
    constructor
    · exact tidy.linked.running ref timer found
    · rintro ⟨thread, -, member⟩
      exact (tidy.linked.node_thread found member).1
  fits := tidy.fits

/-- When the thread is about to put a timer back, the timer is not running and still belongs to the
thread. -/
def rearmsIdle (state : FiringSys) (thread : ThreadRef) : Bool :=
  (state.firing thread).all fun firing =>
    (state.sys.timer firing.ref).all fun timer =>
      !(timer.isPeriodic && state.sys.ownerActive timer) ||
        !timer.isRunning &&
          (timer.ownerThread = some thread ||
            (state.sys.thread thread).capacity ≤ (state.sys.nodes thread).size)

/-- No thread puts back a timer that was started again since it was taken out. -/
def NotRestarted (state : FiringSys) : FiringOp → Prop
  | .rearm thread _ => state.rearmsIdle thread = true
  | _ => True

instance (state : FiringSys) (op : FiringOp) : Decidable (state.NotRestarted op) := by
  cases op with
  | rearm thread now => exact inferInstanceAs (Decidable (_ = true))
  | call | pop | invoke => exact inferInstanceAs (Decidable True)

end FiringSys

/-! ## Sizes of the heaps -/

namespace TimerSys

variable {sys after : TimerSys}

/-- Every heap fits into its array. -/
def Fits (sys : TimerSys) : Prop :=
  ∀ thread, (sys.nodes thread).size ≤ (sys.thread thread).capacity

theorem Initial.fits (initial : sys.Initial) : sys.Fits := by
  intro thread
  simp [TimerSys.nodes, (initial.1 thread).1]

theorem Fits.setTimer (fits : sys.Fits) (ref : TimerRef) (timer : Option Timer) :
    (sys.setTimer ref timer).Fits := fits

theorem Fits.setNodes (fits : sys.Fits) {thread : ThreadRef} {nodes : Array TimerRef}
    (small : nodes.size ≤ (sys.thread thread).capacity) : (sys.setNodes thread nodes).Fits := by
  intro place
  rcases eq_or_ne place thread with rfl | different
  · rw [setNodes_nodes]
    simpa [TimerSys.setNodes] using small
  · rw [setNodes_nodes_other _ _ different]
    simpa [TimerSys.setNodes, different] using fits place

theorem Fits.insertTimer (fits : sys.Fits) {thread : ThreadRef} (ref : TimerRef) (timer : Timer)
    (room : (sys.nodes thread).size < (sys.thread thread).capacity) :
    (sys.insertTimer thread ref timer).Fits := by
  have pushed : ((sys.setTimer ref (some timer)).setNodes thread
      ((sys.nodes thread).push ref)).Fits :=
    (fits.setTimer ref (some timer)).setNodes (by simpa using room)
  refine pushed.setNodes ?_
  rw [BinaryHeap.siftUp_size]
  exact pushed thread

theorem Fits.removeNode (fits : sys.Fits) {thread : ThreadRef} {index : Nat}
    (inside : index < (sys.nodes thread).size) : (sys.removeNode thread index inside).Fits := by
  have removed : (sys.setNodes thread
      (BinaryHeap.removeAt (sys.nodes thread) index inside)).Fits := by
    refine fits.setNodes ?_
    rw [BinaryHeap.removeAt_size]
    exact (Nat.sub_le _ 1).trans (fits thread)
  refine removed.setNodes ?_
  rw [BinaryHeap.siftDown_size]
  exact removed thread

theorem Fits.cancel (fits : sys.Fits) (thread : ThreadRef) (owner : CompRef) :
    (sys.nosSchedulerCancelTimersByOwner thread owner).Fits := by
  intro place
  rcases eq_or_ne place thread with rfl | different
  · obtain ⟨kept, kept_eq, nodes_eq⟩ := cancel_nodes sys place owner
    have shorter := (cancelScan_sublist owner sys (sys.nodes place).toList).length_le
    rw [← kept_eq, Array.length_toList, Array.length_toList] at shorter
    rw [nodes_eq, (BinaryHeap.rebuild_perm _ _ _).size_eq]
    refine shorter.trans ((fits place).trans (le_of_eq ?_))
    simp [nosSchedulerCancelTimersByOwner, cancelScan_released, TimerSys.setNodes]
  · rw [cancel_nodes_other sys owner different]
    refine (fits place).trans (le_of_eq ?_)
    simp [nosSchedulerCancelTimersByOwner, cancelScan_released, TimerSys.setNodes, different]

theorem Fits.rearm (fits : sys.Fits) (thread : ThreadRef) (ref : TimerRef) (timer : Timer)
    (now : Nat) : (sys.rearm thread ref timer now).Fits := by
  unfold TimerSys.rearm
  split
  · exact fits
  · rename_i room
    exact fits.insertTimer ref _ (Nat.lt_of_not_le room)

theorem Removed.fits {ref : TimerRef} (removed : Removed sys ref after) (fits : sys.Fits) :
    after.Fits := by
  cases removed with
  | outside timer absent idle => exact fits
  | unchanged absent => exact fits
  | inside thread index bound node timer idle => exact (fits.removeNode bound).setTimer ref timer

theorem Fits.popDue (fits : sys.Fits) {thread : ThreadRef} {now : Nat} {ref : TimerRef}
    (due : sys.popDue thread now = some (ref, after)) : after.Fits := by
  unfold TimerSys.popDue at due
  split at due
  · rename_i bound
    split at due
    · simp at due
    · obtain ⟨rfl, rfl⟩ := Prod.mk.inj (Option.some.inj due)
      exact (fits.removeNode bound).setTimer _ _
  · simp at due

theorem Fits.processTimers (fits : sys.Fits) (thread : ThreadRef) (readings : List Nat) :
    (sys.processTimers thread readings).sys.Fits := by
  induction sys, readings using processTimers.induct thread with
  | case1 sys => exact fits
  | case2 sys now readings none_popped =>
      simp only [TimerSys.processTimers, none_popped]
      exact fits
  | case3 sys now readings ref popped due missing =>
      simp only [TimerSys.processTimers, due, missing]
      exact fits.popDue due
  | case4 sys now ref popped due timer found active again =>
      simp only [TimerSys.processTimers, due, found]
      rw [if_pos again]
      exact fits.popDue due
  | case5 sys now ref popped due timer found active again rearmed readings ih =>
      rw [TimerSys.processTimers]
      simp only [due, found]
      rw [if_pos again]
      exact ih ((fits.popDue due).rearm thread ref timer rearmed)
  | case6 sys now readings ref popped due timer found active once ih =>
      rw [TimerSys.processTimers]
      simp only [due, found]
      rw [if_neg once]
      exact ih (fits.popDue due)

theorem Fits.step (fits : sys.Fits) (linked : sys.Linked) {op : TimerOp}
    (stepped : sys.step op = some after) : after.Fits := by
  cases op with
  | create ref callback arg =>
      obtain ⟨-, timer, -, -, rfl⟩ := nosTimerCreate_cases stepped
      exact fits
  | start self ref intervalMs isPeriodic now =>
      obtain ⟨⟨_, status⟩, started, rfl⟩ := Option.map_eq_some_iff.mp stepped
      cases nosTimerStart_result started with
      | refused => exact fits
      | armed _ _ _ room => exact fits.insertTimer _ _ room
  | stop self ref =>
      obtain ⟨⟨_, status⟩, stopped, rfl⟩ := Option.map_eq_some_iff.mp stepped
      cases ref with
      | none =>
          obtain ⟨rfl, rfl⟩ := Prod.mk.inj (Option.some.inj stopped)
          exact fits
      | some ref => exact (linked.nosTimerStop_removed stopped).fits fits
  | delete ref =>
      cases ref with
      | none =>
          obtain rfl := Option.some.inj stepped
          exact fits
      | some ref => exact (linked.nosTimerDelete_removed stepped).fits fits
  | cancelByOwner thread owner =>
      obtain rfl := Option.some.inj stepped
      exact fits.cancel thread owner
  | process thread readings =>
      obtain rfl := Option.some.inj stepped
      exact fits.processTimers thread readings
  | setStatus comp status =>
      obtain rfl := Option.some.inj stepped
      exact fits
  | setComponents thread components =>
      obtain rfl := Option.some.inj stepped
      intro place
      rw [setComponents_nodes]
      refine (fits place).trans (le_of_eq ?_)
      rcases eq_or_ne place thread with rfl | different
      · simp
      · simp [different]

end TimerSys

/-! ## The steps -/

namespace FiringSys

variable {state after : FiringSys}

/-- A call is the operation on heaps and objects, and an event. -/
theorem call_cases {op : TimerSys.TimerOp} (called : state.call op = some after) :
    state.sys.step op = some after.sys ∧ after.firing = state.firing ∧
      ∀ thread readings, op ≠ .process thread readings := by
  have plain {op : TimerSys.TimerOp} (single : ∀ thread readings, op ≠ .process thread readings)
      (mapped : (state.sys.step op).map (fun sys => { state with sys := sys }) = some after) :
      state.sys.step op = some after.sys ∧ after.firing = state.firing ∧
        ∀ thread readings, op ≠ .process thread readings := by
    obtain ⟨sys, stepped, rfl⟩ := Option.map_eq_some_iff.mp mapped
    exact ⟨stepped, rfl, single⟩
  cases op with
  | start self ref intervalMs isPeriodic now =>
      cases ref with
      | none => exact plain (by simp) called
      | some ref =>
          obtain ⟨⟨sys, status⟩, started, rfl⟩ := Option.map_eq_some_iff.mp called
          exact ⟨Option.map_eq_some_iff.mpr ⟨_, started, rfl⟩, rfl, by simp⟩
  | stop self ref =>
      cases ref with
      | none => exact plain (by simp) called
      | some ref =>
          obtain ⟨⟨sys, status⟩, stopped, rfl⟩ := Option.map_eq_some_iff.mp called
          exact ⟨Option.map_eq_some_iff.mpr ⟨_, stopped, rfl⟩, rfl, by simp⟩
  | delete ref =>
      cases ref with
      | none => exact plain (by simp) called
      | some ref =>
          change (if state.isFiring ref then none else _) = some after at called
          split at called
          · simp at called
          · obtain ⟨sys, deleted, rfl⟩ := Option.map_eq_some_iff.mp called
            exact ⟨deleted, rfl, by simp⟩
  | process thread readings => simp [FiringSys.call] at called
  | create | cancelByOwner | setStatus | setComponents => exact plain (by simp) called

theorem Tidy.call (tidy : state.Tidy) {op : TimerSys.TimerOp}
    (called : state.call op = some after) : after.Tidy := by
  obtain ⟨stepped, -, -⟩ := call_cases called
  have fits : state.sys.Fits := tidy.fits
  exact ⟨(TimerSys.step_linked_ordered tidy.linked stepped).1, fits.step tidy.linked stepped⟩

theorem Tidy.pop (tidy : state.Tidy) {thread : ThreadRef} {now : Nat}
    (popped : state.pop thread now = some after) : after.Tidy := by
  unfold FiringSys.pop at popped
  split at popped
  · simp at popped
  · split at popped
    · obtain rfl := Option.some.inj popped
      exact tidy
    · rename_i due
      obtain rfl := Option.some.inj popped
      have fits : state.sys.Fits := tidy.fits
      exact ⟨(tidy.linked.popDue due).1, fits.popDue due⟩

/-- The test and the callback leave heaps and objects alone. -/
theorem invoke_cases {thread : ThreadRef} (invoked : state.invoke thread = some after) :
    ∃ ref timer, state.firing thread = some ⟨ref, false⟩ ∧ state.sys.timer ref = some timer ∧
      after.sys = state.sys ∧
      after.firing = Function.update state.firing thread (some ⟨ref, true⟩) ∧
      (after.history = state.history ∨
        state.sys.ownerActive timer = true ∧ after.history = .invoke ref :: state.history) := by
  unfold FiringSys.invoke at invoked
  split at invoked
  · rename_i ref firing
    obtain ⟨timer, found, rfl⟩ := Option.map_eq_some_iff.mp invoked
    refine ⟨ref, timer, firing, found, ?_⟩
    split
    · rename_i test
      rw [Bool.and_eq_true] at test
      exact ⟨rfl, rfl, Or.inr ⟨test.1, rfl⟩⟩
    · exact ⟨rfl, rfl, Or.inl rfl⟩
  · simp at invoked

theorem rearm_cases {thread : ThreadRef} {now : Nat} (rearmed : state.rearm thread now = some after) :
    ∃ ref timer, state.firing thread = some ⟨ref, true⟩ ∧ state.sys.timer ref = some timer ∧
      after.firing = Function.update state.firing thread none ∧ after.history = state.history ∧
      ((timer.isPeriodic && state.sys.ownerActive timer) = false ∧ after.sys = state.sys ∨
        (timer.isPeriodic && state.sys.ownerActive timer) = true ∧
          after.sys = state.sys.rearm thread ref timer now) := by
  unfold FiringSys.rearm at rearmed
  split at rearmed
  · rename_i ref firing
    obtain ⟨timer, found, rfl⟩ := Option.map_eq_some_iff.mp rearmed
    refine ⟨ref, timer, firing, found, ?_⟩
    split
    · rename_i again
      exact ⟨rfl, rfl, Or.inr ⟨again, rfl⟩⟩
    · rename_i once
      exact ⟨rfl, rfl, Or.inl ⟨by simpa using once, rfl⟩⟩
  · simp at rearmed

theorem Tidy.of_sys {other : FiringSys} (tidy : state.Tidy) (same : other.sys = state.sys) :
    other.Tidy := by
  constructor
  · rw [same]
    exact tidy.linked
  · rw [same]
    exact tidy.fits

theorem rearmsIdle_iff {thread : ThreadRef} {firing : Firing} {timer : Timer}
    (fired : state.firing thread = some firing) (found : state.sys.timer firing.ref = some timer)
    (again : (timer.isPeriodic && state.sys.ownerActive timer) = true) :
    state.rearmsIdle thread = true ↔ timer.isRunning = false ∧
      (timer.ownerThread = some thread ∨
        (state.sys.thread thread).capacity ≤ (state.sys.nodes thread).size) := by
  rw [rearmsIdle, fired, Option.all_some, found, Option.all_some, again]
  simp

/-- Putting back an idle timer of the thread keeps heaps and objects linked. -/
theorem Tidy.rearm (tidy : state.Tidy) {thread : ThreadRef} {now : Nat}
    (idle : state.rearmsIdle thread = true) (rearmed : state.rearm thread now = some after) :
    after.Tidy := by
  obtain ⟨ref, timer, fired, found, -, -, ⟨once, same⟩ | ⟨again, changed⟩⟩ := rearm_cases rearmed
  · exact tidy.of_sys same
  · obtain ⟨stopped, place⟩ := (rearmsIdle_iff fired found again).mp idle
    have absent := tidy.linked.not_mem_of_stopped found stopped
    have fits : state.sys.Fits := tidy.fits
    constructor
    · rw [changed]
      rcases place with home | full
      · exact (TimerSys.rearm_keeps now absent home).linked tidy.linked
      · rw [TimerSys.rearm, if_pos full]
        exact tidy.linked.setTimer_idle _ absent (by simp)
    · rw [changed]
      exact fits.rearm thread ref timer now

theorem Tidy.rearmsIdle_of_membership (tidy : state.Tidy) {thread : ThreadRef} {now : Nat}
    (rearmed : state.rearm thread now = some after) (kept : after.Membership) :
    state.rearmsIdle thread = true := by
  obtain ⟨ref, timer, fired, found, -, -, ⟨once, same⟩ | ⟨again, changed⟩⟩ := rearm_cases rearmed
  · rw [rearmsIdle, fired, Option.all_some, found, Option.all_some, once]
    rfl
  · rw [rearmsIdle_iff fired found again]
    rw [TimerSys.rearm] at changed
    cases running : timer.isRunning with
    | true =>
        exfalso
        obtain ⟨home, home_eq, member⟩ := tidy.linked.running ref timer found running
        split at changed
        · have object := (congrArg (fun sys : TimerSys => sys.timer ref) changed).trans
            (TimerSys.setTimer_self _ _ _)
          have member' : ref ∈ after.sys.nodes home := by
            rw [changed]
            exact member
          have marked := (kept.running_iff ref _ object).mpr ⟨home, home_eq, member'⟩
          simp at marked
        · have inserted : ref ∈ after.sys.nodes thread := by
            rw [changed]
            exact (TimerSys.mem_insertTimer _ _ _ _ _).mpr (Or.inr rfl)
          rcases eq_or_ne home thread with rfl | different
          · have distinct := kept.distinct home
            rw [changed, TimerSys.insertTimer_nodes,
              (BinaryHeap.siftUp_perm _ _ _).toList.nodup_iff, Array.toList_push] at distinct
            exact List.disjoint_of_nodup_append distinct (Array.mem_toList_iff.mpr member)
              (List.mem_singleton_self ref)
          · have member' : ref ∈ after.sys.nodes home := by
              rw [changed, TimerSys.insertTimer_nodes_other _ _ _ different]
              exact member
            exact different (kept.once ref home thread member' inserted)
    | false =>
        refine ⟨rfl, ?_⟩
        by_contra outside
        obtain ⟨foreign, room⟩ := not_or.mp outside
        rw [if_neg room] at changed
        have object := (congrArg (fun sys : TimerSys => sys.timer ref) changed).trans
          (TimerSys.setTimer_self _ _ _)
        obtain ⟨home, home_eq, member⟩ := (kept.running_iff ref _ object).mp rfl
        have different : home ≠ thread := by
          rintro rfl
          exact foreign home_eq
        rw [changed, TimerSys.insertTimer_nodes_other _ _ _ different] at member
        exact tidy.linked.not_mem_of_stopped found running home member

theorem Tidy.step (tidy : state.Tidy) {op : FiringOp} (calm : state.NotRestarted op)
    (stepped : state.step op = some after) : after.Tidy := by
  cases op with
  | call op => exact tidy.call stepped
  | pop thread now =>
      obtain ⟨-, popped⟩ := Option.ite_none_right_eq_some.mp stepped
      exact tidy.pop popped
  | invoke thread =>
      obtain ⟨-, invoked⟩ := Option.ite_none_right_eq_some.mp stepped
      obtain ⟨ref, timer, -, -, same, -⟩ := invoke_cases invoked
      exact tidy.of_sys same
  | rearm thread now =>
      obtain ⟨-, rearmed⟩ := Option.ite_none_right_eq_some.mp stepped
      exact tidy.rearm calm rearmed

theorem Initial.tidy (initial : state.Initial) : state.Tidy where
  linked := initial.fresh.linked
  fits := initial.fresh.fits

/-- Along a run from freshly initialised threads, the heaps hold the running timers of their
threads, each once, exactly when no thread puts back a timer that was started again since it was
taken out. -/
theorem membership_along_run_iff (initial : state.Initial) {ops : List FiringOp}
    (execution : run FiringSys.step state ops = some after) :
    Visits FiringSys.step Membership state ops ↔
      Guarded FiringSys.step NotRestarted state ops := by
  refine visits_iff_guarded_of_invariant (fun _ tidy => tidy.membership)
    (fun _ _ _ tidy calm stepped => tidy.step calm stepped) ?_ initial.tidy execution
  intro before op next tidy stepped kept
  cases op with
  | rearm thread now =>
      obtain ⟨-, rearmed⟩ := Option.ite_none_right_eq_some.mp stepped
      exact tidy.rearmsIdle_of_membership rearmed kept
  | call | pop | invoke => trivial

/-- One thread with one active component, which fires nothing. -/
def quietThread : FiringSys where
  sys := TimerSys.exampleSys
  firing _ := none
  history := []

theorem quietThread_initial : quietThread.Initial :=
  ⟨TimerSys.exampleSys_initial, fun _ => rfl, rfl⟩

/-- A timer fires, and its callback starts it again. -/
def restarted (isPeriodic : Bool) : List FiringOp :=
  [.call (.create 1 (some 0) 0), .call (.start 7 (some 1) 10 true 0), .pop 0 10, .invoke 0,
    .call (.start 7 (some 1) 10 isPeriodic 10), .rearm 0 10]

/-- A timer whose callback starts it once more is in the heap once. -/
theorem membership_along_restarted_iff :
    ∃ after, run FiringSys.step quietThread (restarted false) = some after ∧
      (Visits FiringSys.step Membership quietThread (restarted false) ↔
        Guarded FiringSys.step NotRestarted quietThread (restarted false)) := by
  obtain ⟨after, execution⟩ :
      ∃ after, run FiringSys.step quietThread (restarted false) = some after :=
    Option.isSome_iff_exists.mp (by decide +kernel)
  exact ⟨after, execution, membership_along_run_iff quietThread_initial execution⟩

/-- A timer whose callback starts it as a periodic one is in the heap twice. -/
theorem restarted_timer_twice :
    ∃ state ops after, FiringSys.Initial state ∧ run FiringSys.step state ops = some after ∧
      ¬ after.Membership := by
  have execution :
      (run FiringSys.step quietThread (restarted true)).map (fun after => after.sys.nodes 0) =
        some #[1, 1] := by
    decide +kernel
  obtain ⟨after, ran, heap⟩ := Option.map_eq_some_iff.mp execution
  refine ⟨quietThread, _, after, quietThread_initial, ran, ?_⟩
  intro membership
  have distinct := membership.distinct 0
  simp [heap] at distinct

end FiringSys

end CodexNos.Scheduler
