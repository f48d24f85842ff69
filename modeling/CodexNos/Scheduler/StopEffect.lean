import CodexNos.Scheduler.Membership

/-!
# Stopping a timer

`nos_timer_stop` looks for the timer in its heap.  While `process_timers` fires a timer it is in no
heap, so a call then fails, and a periodic timer is put back all the same.  Every other call takes
effect: the callback is not called again before the next successful `nos_timer_start`.
-/

namespace CodexNos.Scheduler

open Lib Lib.Transition

/-! ## Histories -/

/-- Between a stop of a timer and a later call of its callback the timer was started. -/
def StopEffective (history : List TimerEvent) : Prop :=
  ∀ later between earlier ref,
    history = later ++ .invoke ref :: (between ++ .stop ref :: earlier) → .start ref ∈ between

/-- The timer was stopped and not started since. -/
def StopPending (history : List TimerEvent) (ref : TimerRef) : Prop :=
  ∃ between earlier, history = between ++ .stop ref :: earlier ∧ .start ref ∉ between

/-- A later event leaves the stop pending unless it is a start of the timer. -/
theorem StopPending.of_cons {event : TimerEvent} {history : List TimerEvent} {ref : TimerRef}
    (pending : StopPending (event :: history) ref) :
    event ≠ .start ref ∧ (event = .stop ref ∨ StopPending history ref) := by
  obtain ⟨between, earlier, split, unstarted⟩ := pending
  cases between with
  | nil =>
      obtain ⟨rfl, rfl⟩ := List.cons.inj split
      exact ⟨by simp, Or.inl rfl⟩
  | cons first between =>
      obtain ⟨rfl, rfl⟩ := List.cons.inj split
      obtain ⟨different, unstarted⟩ := not_or.mp (mt List.mem_cons.mpr unstarted)
      exact ⟨Ne.symm different, Or.inr ⟨between, earlier, rfl, unstarted⟩⟩

/-- Only calling the callback can make a stop ineffective. -/
theorem StopEffective.cons {history : List TimerEvent} (effective : StopEffective history)
    {event : TimerEvent} (allowed : ∀ ref, event = .invoke ref → ¬ StopPending history ref) :
    StopEffective (event :: history) := by
  intro later between earlier ref split
  cases later with
  | nil =>
      obtain ⟨rfl, rfl⟩ := List.cons.inj split
      by_contra unstarted
      exact allowed ref rfl ⟨between, earlier, rfl, unstarted⟩
  | cons first later =>
      obtain ⟨rfl, rfl⟩ := List.cons.inj split
      exact effective later between earlier ref rfl

/-! ## What the calls do to a timer object -/

namespace TimerSys

variable {sys after : TimerSys}

/-- A stop leaves the object without owner, unless the timer was not running. -/
theorem Linked.nosTimerStop_timer (linked : sys.Linked) {self : CompRef} {ref : TimerRef}
    {status : Status} (stopped : sys.nosTimerStop self (some ref) = some (after, status))
    {timer : Timer} (found : after.timer ref = some timer) :
    timer.owner = none ∨ sys.timer ref = some timer ∧ timer.isRunning = false := by
  unfold nosTimerStop at stopped
  cases known : sys.timer ref with
  | none => simp [known] at stopped
  | some object =>
      simp only [known] at stopped
      cases running : object.isRunning with
      | false =>
          obtain rfl : sys = after := by
            split at stopped <;> simp_all
          obtain rfl : object = timer := Option.some.inj (known.symm.trans found)
          exact Or.inr ⟨rfl, running⟩
      | true =>
          obtain ⟨thread, owner, member⟩ := linked.running ref object known running
          have chosen : (object.ownerThread <|> sys.findThreadOfComponent self) = some thread := by
            rw [owner]
            rfl
          simp only [chosen, running, if_true] at stopped
          split at stopped
          · obtain ⟨rfl, rfl⟩ := Prod.mk.inj (Option.some.inj stopped)
            rw [setTimer_self] at found
            obtain rfl := Option.some.inj found
            exact Or.inl rfl
          · rename_i missing
            exact absurd member (Array.finIdxOf?_eq_none_iff.mp missing)

theorem nosTimerDelete_timer {ref : TimerRef} (deleted : sys.nosTimerDelete (some ref) = some after) :
    after.timer ref = none := by
  unfold nosTimerDelete at deleted
  cases known : sys.timer ref with
  | none => simp [known] at deleted
  | some timer =>
      simp only [known] at deleted
      split at deleted
      · split at deleted
        · obtain rfl := Option.some.inj deleted
          exact setTimer_self _ _ _
        · obtain rfl := Option.some.inj deleted
          exact setTimer_self _ _ _
      · obtain rfl := Option.some.inj deleted
        exact setTimer_self _ _ _

theorem Removed.timer_other {ref other : TimerRef} (removed : Removed sys ref after)
    (different : other ≠ ref) : after.timer other = sys.timer other := by
  cases removed with
  | outside timer absent idle => exact setTimer_other _ _ different
  | unchanged absent => rfl
  | inside thread index bound node timer idle => exact setTimer_other _ _ different

/-- After an operation an object is as before, or has no owner, or was started. -/
theorem step_timer (linked : sys.Linked) {op : TimerOp}
    (single : ∀ thread readings, op ≠ .process thread readings)
    (stepped : sys.step op = some after) {ref : TimerRef} {timer : Timer}
    (found : after.timer ref = some timer) :
    sys.timer ref = some timer ∨ timer.owner = none ∨
      ∃ self intervalMs isPeriodic now, op = .start self (some ref) intervalMs isPeriodic now ∧
        sys.nosTimerStart self (some ref) intervalMs isPeriodic now = some (after, .ok) := by
  cases op with
  | create other callback arg =>
      obtain ⟨-, fresh, -, ownerless, rfl⟩ := nosTimerCreate_cases stepped
      rcases eq_or_ne ref other with rfl | different
      · obtain rfl : fresh = timer := by simpa using found
        exact Or.inr (Or.inl ownerless)
      · exact Or.inl ((setTimer_other _ _ different).symm.trans found)
  | start self other intervalMs isPeriodic now =>
      obtain ⟨⟨_, status⟩, started, rfl⟩ := Option.map_eq_some_iff.mp stepped
      cases nosTimerStart_result started with
      | refused => exact Or.inl found
      | @armed thread other old armed =>
          rcases eq_or_ne ref other with rfl | different
          · exact Or.inr (Or.inr ⟨self, intervalMs, isPeriodic, now, rfl, started⟩)
          · exact Or.inl ((setTimer_other _ _ different).symm.trans found)
  | stop self other =>
      obtain ⟨⟨_, status⟩, stopped, rfl⟩ := Option.map_eq_some_iff.mp stepped
      cases other with
      | none =>
          obtain ⟨rfl, rfl⟩ := Prod.mk.inj (Option.some.inj stopped)
          exact Or.inl found
      | some other =>
          rcases eq_or_ne ref other with rfl | different
          · rcases linked.nosTimerStop_timer stopped found with ownerless | ⟨same, -⟩
            · exact Or.inr (Or.inl ownerless)
            · exact Or.inl same
          · have removed := linked.nosTimerStop_removed stopped
            exact Or.inl ((removed.timer_other different).symm.trans found)
  | delete other =>
      cases other with
      | none =>
          obtain rfl := Option.some.inj stepped
          exact Or.inl found
      | some other =>
          rcases eq_or_ne ref other with rfl | different
          · rw [nosTimerDelete_timer stepped] at found
            simp at found
          · have removed := linked.nosTimerDelete_removed stepped
            exact Or.inl ((removed.timer_other different).symm.trans found)
  | cancelByOwner thread owner =>
      obtain rfl := Option.some.inj stepped
      rw [cancel_timer] at found
      split at found
      · obtain ⟨object, -, rfl⟩ := Option.map_eq_some_iff.mp found
        exact Or.inr (Or.inl rfl)
      · exact Or.inl found
  | process thread readings => exact absurd rfl (single thread readings)
  | setStatus comp status =>
      obtain rfl := Option.some.inj stepped
      exact Or.inl found
  | setComponents thread components =>
      obtain rfl := Option.some.inj stepped
      exact Or.inl found

theorem Removed.threadCount {ref : TimerRef} (removed : Removed sys ref after) :
    after.threadCount = sys.threadCount := by
  cases removed with
  | outside | unchanged | inside => rfl

theorem step_threadCount (linked : sys.Linked) {op : TimerOp}
    (single : ∀ thread readings, op ≠ .process thread readings)
    (stepped : sys.step op = some after) : after.threadCount = sys.threadCount := by
  cases op with
  | create ref callback arg =>
      obtain ⟨-, timer, -, -, rfl⟩ := nosTimerCreate_cases stepped
      rfl
  | start self ref intervalMs isPeriodic now =>
      obtain ⟨⟨_, status⟩, started, rfl⟩ := Option.map_eq_some_iff.mp stepped
      cases nosTimerStart_result started with
      | refused | armed => rfl
  | stop self ref =>
      obtain ⟨⟨_, status⟩, stopped, rfl⟩ := Option.map_eq_some_iff.mp stepped
      cases ref with
      | none =>
          obtain ⟨rfl, rfl⟩ := Prod.mk.inj (Option.some.inj stopped)
          rfl
      | some ref => exact (linked.nosTimerStop_removed stopped).threadCount
  | delete ref =>
      cases ref with
      | none =>
          obtain rfl := Option.some.inj stepped
          rfl
      | some ref => exact (linked.nosTimerDelete_removed stepped).threadCount
  | process thread readings => exact absurd rfl (single thread readings)
  | cancelByOwner thread owner =>
      obtain rfl := Option.some.inj stepped
      exact TimerSys.cancel_threadCount sys thread owner
  | setStatus | setComponents =>
      obtain rfl := Option.some.inj stepped
      rfl

theorem popDue_threadCount {thread : ThreadRef} {now : Nat} {ref : TimerRef}
    (due : sys.popDue thread now = some (ref, after)) : after.threadCount = sys.threadCount := by
  unfold TimerSys.popDue at due
  split at due
  · split at due
    · simp at due
    · obtain ⟨rfl, rfl⟩ := Prod.mk.inj (Option.some.inj due)
      rfl
  · simp at due

theorem rearm_threadCount (sys : TimerSys) (thread : ThreadRef) (ref : TimerRef) (timer : Timer)
    (now : Nat) : (sys.rearm thread ref timer now).threadCount = sys.threadCount := by
  unfold TimerSys.rearm
  split <;> rfl

end TimerSys

/-! ## Stopped timers stay silent -/

namespace FiringSys

variable {state after : FiringSys}

/-- The callback of the timer is not called unless the timer is started: it has no owner, or it is
in no heap and no thread will call it or put it back. -/
def Silent (state : FiringSys) (ref : TimerRef) : Prop :=
  ∀ timer, state.sys.timer ref = some timer →
    timer.owner = none ∨ timer.isRunning = false ∧
      ∀ thread < state.sys.threadCount, ∀ firing, state.firing thread = some firing →
        firing.ref = ref → firing.called = true ∧ timer.isPeriodic = false

/-- No thread fires the timer, except one that has called its callback and will not put it back. -/
def notFiring (state : FiringSys) (ref : TimerRef) : Bool :=
  (List.range state.sys.threadCount).all fun thread =>
    (state.firing thread).all fun firing =>
      firing.ref ≠ ref ||
        firing.called && (state.sys.timer ref).all fun timer => !timer.isPeriodic

/-- A timer is not stopped while a thread fires it, and not started while a thread will put it
back. -/
def StopsInTime (state : FiringSys) : FiringOp → Prop
  | .call (.stop _ (some ref)) => state.notFiring ref = true
  | op => state.NotRestarted op

instance (state : FiringSys) (op : FiringOp) : Decidable (state.StopsInTime op) := by
  unfold StopsInTime
  split
  · exact inferInstance
  · exact inferInstance

/-- Every stop has been heeded so far. -/
structure Heeded (state : FiringSys) : Prop where
  tidy : state.Tidy
  effective : StopEffective state.history
  silent : ∀ ref, StopPending state.history ref → state.Silent ref

theorem Silent.of_timer {ref : TimerRef} (silent : state.Silent ref)
    (firing : after.firing = state.firing)
    (threads : after.sys.threadCount = state.sys.threadCount)
    (timers : ∀ timer, after.sys.timer ref = some timer →
      state.sys.timer ref = some timer ∨ timer.owner = none) : after.Silent ref := by
  intro timer found
  rcases timers timer found with same | ownerless
  · rw [firing, threads]
    exact silent timer same
  · exact Or.inl ownerless

/-- A step without event that leaves every object as it is or without owner. -/
theorem Heeded.of_timers (heeded : state.Heeded) (tidy : after.Tidy)
    (history : after.history = state.history) (firing : after.firing = state.firing)
    (threads : after.sys.threadCount = state.sys.threadCount)
    (timers : ∀ ref timer, after.sys.timer ref = some timer →
      state.sys.timer ref = some timer ∨ timer.owner = none) : after.Heeded where
  tidy := tidy
  effective := history ▸ heeded.effective
  silent := by
    intro ref pending
    rw [history] at pending
    exact (heeded.silent ref pending).of_timer firing threads (timers ref)

/-- A call that neither starts nor stops a timer is no event. -/
theorem call_history {op : TimerSys.TimerOp} (called : state.call op = some after)
    (unstarted : ∀ self ref intervalMs isPeriodic now,
      op ≠ .start self (some ref) intervalMs isPeriodic now)
    (unstopped : ∀ self ref, op ≠ .stop self (some ref)) : after.history = state.history := by
  have plain (op : TimerSys.TimerOp)
      (mapped : (state.sys.step op).map (fun sys => { state with sys := sys }) = some after) :
      after.history = state.history := by
    obtain ⟨sys, -, rfl⟩ := Option.map_eq_some_iff.mp mapped
    rfl
  cases op with
  | start self ref intervalMs isPeriodic now =>
      cases ref with
      | none => exact plain (.start self none intervalMs isPeriodic now) called
      | some ref => exact absurd rfl (unstarted self ref intervalMs isPeriodic now)
  | stop self ref =>
      cases ref with
      | none => exact plain (.stop self none) called
      | some ref => exact absurd rfl (unstopped self ref)
  | delete ref =>
      cases ref with
      | none => exact plain (.delete none) called
      | some ref =>
          change (if state.isFiring ref then none else _) = some after at called
          split at called
          · simp at called
          · exact plain (.delete (some ref)) called
  | process thread readings => simp [FiringSys.call] at called
  | create ref callback arg => exact plain (.create ref callback arg) called
  | cancelByOwner thread owner => exact plain (.cancelByOwner thread owner) called
  | setStatus comp status => exact plain (.setStatus comp status) called
  | setComponents thread comps => exact plain (.setComponents thread comps) called

theorem Heeded.start (heeded : state.Heeded) {self : CompRef} {ref : TimerRef}
    {intervalMs now : Nat} {isPeriodic : Bool}
    (called : state.call (.start self (some ref) intervalMs isPeriodic now) = some after) :
    after.Heeded := by
  obtain ⟨stepped, firing, single⟩ := call_cases called
  have timers := @TimerSys.step_timer _ _ heeded.tidy.linked _ single stepped
  have threads := TimerSys.step_threadCount heeded.tidy.linked single stepped
  have tidy := heeded.tidy.call called
  obtain ⟨⟨sys, status⟩, started, rfl⟩ := Option.map_eq_some_iff.mp called
  by_cases succeeded : status = .ok
  · refine ⟨tidy, ?_, ?_⟩
    · rw [if_pos succeeded]
      exact heeded.effective.cons (by simp)
    · intro other pending
      rw [if_pos succeeded] at pending
      obtain ⟨different, stopped | before⟩ := pending.of_cons
      · simp at stopped
      · refine (heeded.silent other before).of_timer rfl threads ?_
        intro timer found
        rcases timers found with same | ownerless | ⟨_, _, _, _, op_eq, -⟩
        · exact Or.inl same
        · exact Or.inr ownerless
        · simp only [TimerSys.TimerOp.start.injEq, Option.some.injEq] at op_eq
          exact absurd (congrArg TimerEvent.start op_eq.2.1) different
  · refine heeded.of_timers tidy (if_neg succeeded) rfl threads ?_
    intro other timer found
    rcases timers found with same | ownerless | ⟨_, _, _, _, op_eq, started'⟩
    · exact Or.inl same
    · exact Or.inr ownerless
    · obtain ⟨rfl, rfl, rfl, rfl, rfl⟩ : _ ∧ _ ∧ _ ∧ _ ∧ _ := by simpa using op_eq
      exact absurd (Prod.mk.inj (Option.some.inj (started.symm.trans started'))).2 succeeded

theorem Heeded.stop (heeded : state.Heeded) {self : CompRef} {ref : TimerRef}
    (inTime : state.notFiring ref = true) (called : state.call (.stop self (some ref)) = some after) :
    after.Heeded := by
  obtain ⟨stepped, firing, single⟩ := call_cases called
  have timers := @TimerSys.step_timer _ _ heeded.tidy.linked _ single stepped
  have threads := TimerSys.step_threadCount heeded.tidy.linked single stepped
  have tidy := heeded.tidy.call called
  obtain ⟨⟨sys, status⟩, stopped, rfl⟩ := Option.map_eq_some_iff.mp called
  refine ⟨tidy, heeded.effective.cons (by simp), ?_⟩
  intro other pending
  rcases eq_or_ne other ref with rfl | different
  · intro timer found
    rcases heeded.tidy.linked.nosTimerStop_timer stopped found with ownerless | ⟨same, idle⟩
    · exact Or.inl ownerless
    · refine Or.inr ⟨idle, ?_⟩
      intro thread exists_thread fired active mine
      rw [threads] at exists_thread
      have entry := List.all_eq_true.mp inTime thread (List.mem_range.mpr exists_thread)
      change state.firing thread = some fired at active
      rw [active, Option.all_some, same] at entry
      simpa [mine] using entry
  · obtain ⟨-, stop_eq | before⟩ := pending.of_cons
    · simp only [TimerEvent.stop.injEq] at stop_eq
      exact absurd stop_eq.symm different
    · refine (heeded.silent other before).of_timer rfl threads ?_
      intro timer found
      rcases timers found with same | ownerless | ⟨_, _, _, _, op_eq, -⟩
      · exact Or.inl same
      · exact Or.inr ownerless
      · simp at op_eq

theorem Heeded.call (heeded : state.Heeded) {op : TimerSys.TimerOp}
    (inTime : state.StopsInTime (.call op)) (called : state.call op = some after) :
    after.Heeded := by
  have plain (unstarted : ∀ self ref intervalMs isPeriodic now,
        op ≠ .start self (some ref) intervalMs isPeriodic now)
      (unstopped : ∀ self ref, op ≠ .stop self (some ref)) : after.Heeded := by
    obtain ⟨stepped, firing, single⟩ := call_cases called
    refine heeded.of_timers (heeded.tidy.call called) (call_history called unstarted unstopped)
      firing (TimerSys.step_threadCount heeded.tidy.linked single stepped) ?_
    intro ref timer found
    rcases TimerSys.step_timer heeded.tidy.linked single stepped found with
      same | ownerless | ⟨self, intervalMs, isPeriodic, now, op_eq, -⟩
    · exact Or.inl same
    · exact Or.inr ownerless
    · exact absurd op_eq (unstarted self ref intervalMs isPeriodic now)
  cases op with
  | start self ref intervalMs isPeriodic now =>
      cases ref with
      | none => exact plain (by simp) (by simp)
      | some ref => exact heeded.start called
  | stop self ref =>
      cases ref with
      | none => exact plain (by simp) (by simp)
      | some ref => exact heeded.stop inTime called
  | create | delete | cancelByOwner | process | setStatus | setComponents =>
      exact plain (by simp) (by simp)

theorem Heeded.pop (heeded : state.Heeded) {thread : ThreadRef} {now : Nat}
    (popped : state.pop thread now = some after) : after.Heeded := by
  have tidy := heeded.tidy.pop popped
  unfold FiringSys.pop at popped
  split at popped
  · simp at popped
  · rename_i idle
    split at popped
    · obtain rfl := Option.some.inj popped
      exact heeded
    · rename_i ref sys due
      obtain rfl := Option.some.inj popped
      obtain ⟨member, timer_eq, -⟩ := TimerSys.popDue_cases due
      refine ⟨tidy, heeded.effective, ?_⟩
      intro other pending timer found
      have silent := heeded.silent other pending
      change sys.timer other = some timer at found
      rw [timer_eq] at found
      rcases eq_or_ne other ref with rfl | different
      · rw [TimerSys.setTimer_self] at found
        obtain ⟨object, known, rfl⟩ := Option.map_eq_some_iff.mp found
        rcases silent object known with ownerless | ⟨stopped, -⟩
        · exact Or.inl ownerless
        · exact absurd member (heeded.tidy.linked.not_mem_of_stopped known stopped thread)
      · rw [TimerSys.setTimer_other _ _ different] at found
        refine (silent timer found).imp_right ?_
        rintro ⟨stopped, rest⟩
        refine ⟨stopped, ?_⟩
        intro place exists_place firing fired mine
        replace exists_place : place < state.sys.threadCount :=
          TimerSys.popDue_threadCount due ▸ exists_place
        rcases eq_or_ne place thread with rfl | elsewhere
        · obtain rfl : (⟨ref, false⟩ : Firing) = firing := by simpa [setFiring] using fired
          exact absurd mine.symm different
        · exact rest place exists_place firing (by simpa [setFiring, elsewhere] using fired) mine

theorem Heeded.invoke (heeded : state.Heeded) {thread : ThreadRef}
    (exists_thread : thread < state.sys.threadCount)
    (invoked : state.invoke thread = some after) : after.Heeded := by
  obtain ⟨ref, timer, fired, found, same, firing, history⟩ := invoke_cases invoked
  have uncalled (pending : StopPending state.history ref) : timer.owner = none := by
    rcases heeded.silent ref pending timer found with ownerless | ⟨-, rest⟩
    · exact ownerless
    · simpa using (rest thread exists_thread _ fired rfl).1
  have pending_iff (other : TimerRef) (pending : StopPending after.history other) :
      StopPending state.history other := by
    rcases history with kept | ⟨-, event⟩
    · rwa [kept] at pending
    · rw [event] at pending
      simpa using pending.of_cons.2
  refine ⟨heeded.tidy.of_sys same, ?_, ?_⟩
  · rcases history with kept | ⟨active, event⟩
    · rw [kept]
      exact heeded.effective
    · rw [event]
      refine heeded.effective.cons ?_
      intro other other_eq pending
      obtain rfl : ref = other := TimerEvent.invoke.inj other_eq
      simp [TimerSys.ownerActive, uncalled pending] at active
  · intro other pending object known
    rw [same] at known
    refine (heeded.silent other (pending_iff other pending) object known).imp_right ?_
    rintro ⟨stopped, rest⟩
    refine ⟨stopped, ?_⟩
    intro place exists_place entry entered mine
    rw [same] at exists_place
    rw [firing] at entered
    rcases eq_or_ne place thread with rfl | elsewhere
    · obtain rfl : (⟨ref, true⟩ : Firing) = entry := by simpa using entered
      exact ⟨rfl, (rest place exists_place _ fired mine).2⟩
    · exact rest place exists_place entry (by simpa [elsewhere] using entered) mine

theorem Heeded.rearm (heeded : state.Heeded) {thread : ThreadRef} {now : Nat}
    (exists_thread : thread < state.sys.threadCount) (idle : state.rearmsIdle thread = true)
    (rearmed : state.rearm thread now = some after) :
    after.Heeded := by
  obtain ⟨ref, timer, fired, found, firing, history, changes⟩ := rearm_cases rearmed
  refine ⟨heeded.tidy.rearm idle rearmed, history ▸ heeded.effective, ?_⟩
  intro other pending object known
  rw [history] at pending
  have silent := heeded.silent other pending
  have before : state.sys.timer other = some object := by
    rcases changes with ⟨-, same⟩ | ⟨again, changed⟩
    · rwa [same] at known
    · have different : other ≠ ref := by
        rintro rfl
        rw [Bool.and_eq_true] at again
        rcases silent timer found with ownerless | ⟨-, rest⟩
        · simp [TimerSys.ownerActive, ownerless] at again
        · simp [(rest thread exists_thread _ fired rfl).2] at again
      rw [changed, TimerSys.rearm] at known
      split at known
      · rwa [TimerSys.setTimer_other _ _ different] at known
      · rwa [TimerSys.insertTimer_timer, TimerSys.setTimer_other _ _ different] at known
  refine (silent object before).imp_right ?_
  rintro ⟨stopped, rest⟩
  refine ⟨stopped, ?_⟩
  intro place exists_place entry entered mine
  have threads : after.sys.threadCount = state.sys.threadCount := by
    rcases changes with ⟨-, same⟩ | ⟨-, changed⟩
    · rw [same]
    · rw [changed, TimerSys.rearm_threadCount]
  rw [threads] at exists_place
  rw [firing] at entered
  rcases eq_or_ne place thread with rfl | elsewhere
  · simp at entered
  · exact rest place exists_place entry (by simpa [elsewhere] using entered) mine

theorem Heeded.step (heeded : state.Heeded) {op : FiringOp} (inTime : state.StopsInTime op)
    (stepped : state.step op = some after) : after.Heeded := by
  cases op with
  | call op => exact heeded.call inTime stepped
  | pop thread now =>
      obtain ⟨-, popped⟩ := Option.ite_none_right_eq_some.mp stepped
      exact heeded.pop popped
  | invoke thread =>
      obtain ⟨exists_thread, invoked⟩ := Option.ite_none_right_eq_some.mp stepped
      exact heeded.invoke exists_thread invoked
  | rearm thread now =>
      obtain ⟨exists_thread, rearmed⟩ := Option.ite_none_right_eq_some.mp stepped
      exact heeded.rearm exists_thread inTime rearmed

theorem Initial.heeded (initial : state.Initial) : state.Heeded where
  tidy := initial.tidy
  effective := by
    intro later between earlier ref split
    simp [initial.history] at split
  silent := by
    rintro ref ⟨between, earlier, split, -⟩
    simp [initial.history] at split

/-- When no timer is stopped while a thread fires it, nor put back after it was started again, a
stopped timer is not called before its next start. -/
theorem stopEffective_of_reach
    (reach : Reach FiringSys.step StopsInTime Initial state) : StopEffective state.history :=
  Heeded.effective <|
    Reach.invariant Heeded (fun _ initial => initial.heeded)
      (fun _ _ _ heeded inTime stepped => heeded.step inTime stepped) reach

/-- Two periodic timers are due, and the callback of the first one stops the second. -/
def stopOther : List FiringOp :=
  [.call (.create 1 (some 0) 0), .call (.create 2 (some 0) 0), .call (.start 7 (some 1) 10 true 0),
    .call (.start 7 (some 2) 10 true 0), .pop 0 10, .invoke 0, .call (.stop 7 (some 2)),
    .rearm 0 10, .pop 0 20, .invoke 0]

/-- The callback of a periodic timer stops its own timer. -/
def stopItself : List FiringOp :=
  [.call (.create 1 (some 0) 0), .call (.start 7 (some 1) 10 true 0), .pop 0 10, .invoke 0,
    .call (.stop 7 (some 1)), .rearm 0 10, .pop 0 20, .invoke 0]

/-- Only the first timer is called again. -/
theorem stopOther_effective :
    ∃ state : FiringSys, StopEffective state.history ∧
      state.history = [.invoke 1, .stop 2, .invoke 1, .start 2, .start 1] := by
  have execution :
      (runGuarded FiringSys.step StopsInTime quietThread stopOther).map FiringSys.history =
        some [.invoke 1, .stop 2, .invoke 1, .start 2, .start 1] := by
    decide +kernel
  obtain ⟨state, ran, history⟩ := Option.map_eq_some_iff.mp execution
  have reach : Reach FiringSys.step StopsInTime Initial state :=
    reach_of_runGuarded (.start quietThread_initial) ran
  exact ⟨state, stopEffective_of_reach reach, history⟩

/-- The timer that was stopped in its own callback is called again. -/
theorem stopItself_not_effective :
    ∃ state : FiringSys, Reachable FiringSys.step Initial state ∧
      ¬ StopEffective state.history := by
  have execution :
      (run FiringSys.step quietThread stopItself).map FiringSys.history =
        some [.invoke 1, .stop 1, .invoke 1, .start 1] := by
    decide +kernel
  obtain ⟨state, ran, history⟩ := Option.map_eq_some_iff.mp execution
  refine ⟨state, reachable_of_run (.start quietThread_initial) ran, ?_⟩
  intro effective
  have started := effective [] [] [.invoke 1, .start 1] 1 history
  simp at started

end FiringSys

end CodexNos.Scheduler
