import CodexNos.Node.BookkeepingSafety
import CodexNos.Node.CallbackSteps

/-!
# The order of the callbacks

As long as `process_timers` puts back no timer that its callback has armed again, every instance is
initialised, started, served and stopped in this order, and stopped exactly once.  A timer that is
put back all the same may be in the heaps of two threads; then it can outlive the instance that it
was armed for, and its callback is called for an instance that was stopped and freed.
-/

namespace CodexNos.Node

open Lib Lib.Transition Messaging Scheduler
open NodeState (Call Turn)

namespace Lives

variable {before after : Lives}

/-! ## Start-up -/

/-- Histories in order while no timer was made. -/
structure Opening (lives : Lives) : Prop where
  tracked : lives.Tracked
  timers : ∀ ref, lives.node.sys.timer ref = none

theorem opening_blank (manifest : Manifest) : (blank manifest).Opening where
  tracked := by
    refine ⟨?_, ?_, ?_, ?_, fun _ _ => rfl, ?_⟩
    · intro comp alive
      simp [Alive, blank, NodeState.blank] at alive
    · intro comp _ alive
      simp [Alive, blank, NodeState.blank] at alive
    · intro comp alive
      simp [Alive, blank, NodeState.blank] at alive
    · intro instanceNo made
      exact absurd made (Nat.not_lt_zero _)
    · intro ref timer _ found
      simp [blank, NodeState.blank] at found
  timers _ := rfl

theorem Opening.of_same (opening : before.Opening) {node : NodeState}
    (same : SameInstances before.node node) : (before.withNode node).Opening :=
  ⟨same.tracked opening.tracked, fun ref => (congrFun same.timer ref).trans (opening.timers ref)⟩

theorem Opening.nodeLoadComponentStaged (opening : before.Opening) {id : UInt32} {name : String}
    {staging : Staging} {result : Option CompRef}
    (staged : before.nodeLoadComponentStaged id name staging = some (after, result)) :
    after.Opening ∧
      before.node.nodeLoadComponentStaged id name staging.outcome = some (after.node, result) ∧
      ∀ comp, result = some comp → after.Alive comp := by
  have unowned : ∀ comp, ¬ before.Alive comp → ∀ ref timer,
      before.node.sys.timer ref = some timer → timer.isRunning = true →
        timer.owner ≠ some comp := by
    intro comp _ ref timer found
    simp [opening.timers ref] at found
  obtain ⟨tracked, -, node, -, new⟩ := opening.tracked.stage unowned staged
  refine ⟨⟨tracked, fun ref => ?_⟩, node, fun comp same => (new comp same).2.1⟩
  rcases NodeState.nodeLoadComponentStaged_cases node with
    ⟨-, same⟩ | ⟨comp, inst, -, -, -, same⟩
  · rw [same]
    exact opening.timers ref
  · rw [same]
    exact opening.timers ref

theorem Opening.nodeInitComponent (opening : before.Opening) {thread : ThreadRef}
    {compDef : CompDef} {staging : Staging}
    (done : before.nodeInitComponent thread compDef staging = some after) :
    after.Opening ∧
      before.node.nodeInitComponent thread compDef staging.outcome = some after.node := by
  unfold Lives.nodeInitComponent at done
  unfold NodeState.nodeInitComponent
  split at done
  · simp at done
  · rename_i failed loading
    obtain rfl := Option.some.inj done
    obtain ⟨opening', node, -⟩ := opening.nodeLoadComponentStaged loading
    rw [node]
    exact ⟨opening', rfl⟩
  · rename_i staged comp loading
    obtain ⟨opening', node, alive⟩ := opening.nodeLoadComponentStaged loading
    rw [node]
    dsimp only
    split at done
    · rename_i full
      obtain rfl := Option.some.inj done
      rw [if_pos full]
      exact ⟨⟨opening'.tracked.destroy (alive comp rfl), opening'.timers⟩, rfl⟩
    · rename_i room
      rw [if_neg room]
      have same := sameInstances_register staged.node thread comp
      generalize staged.node.nosSchedulerRegisterComponent thread comp = taken at same done
      obtain ⟨registered, status⟩ := taken
      cases status with
      | ok =>
          obtain rfl := Option.some.inj done
          exact ⟨opening'.of_same ⟨same.instances, same.status, same.timer⟩, rfl⟩
      | err | errNomem | errNotFound | errBusy | errTimeout =>
          obtain rfl := Option.some.inj done
          have unchanged := opening'.of_same same
          exact ⟨⟨unchanged.tracked.destroy (same.alive (alive comp rfl)), unchanged.timers⟩, rfl⟩

theorem Opening.nodeInitThread (opening : before.Opening) {thread : ThreadRef}
    {comps : List CompDef} {stagings : List Staging}
    (done : Lives.nodeInitThread thread comps stagings before = some after) :
    after.Opening ∧
      NodeState.nodeInitThread thread comps (stagings.map Staging.outcome) before.node =
        some after.node := by
  induction comps generalizing before stagings with
  | nil =>
      obtain rfl := Option.some.inj done
      exact ⟨opening, rfl⟩
  | cons compDef comps ih =>
      cases stagings with
      | nil => simp [Lives.nodeInitThread] at done
      | cons staging stagings =>
          obtain ⟨next, loaded, done⟩ := Option.bind_eq_some_iff.mp done
          obtain ⟨opening', node⟩ := opening.nodeInitComponent loaded
          obtain ⟨opening'', rest⟩ := ih opening' done
          exact ⟨opening'', Option.bind_eq_some_iff.mpr ⟨next.node, node, rest⟩⟩

theorem Opening.nodeInitThreads (opening : before.Opening) {threads : List ThreadDef}
    {stagings : List (List Staging)}
    (done : Lives.nodeInitThreads threads stagings before = some after) :
    after.Opening ∧
      NodeState.nodeInitThreads threads (stagings.map (·.map Staging.outcome)) before.node =
        some after.node := by
  induction threads generalizing before stagings with
  | nil =>
      obtain rfl := Option.some.inj done
      exact ⟨opening, rfl⟩
  | cons threadDef threads ih =>
      cases stagings with
      | nil => simp [Lives.nodeInitThreads] at done
      | cons stagings later =>
          obtain ⟨filled, loaded, done⟩ := Option.bind_eq_some_iff.mp done
          obtain ⟨opening', node⟩ := opening.nodeInitThread loaded
          have next : SameInstances filled.node
              { filled.node with
                sys := { filled.node.sys with threadCount := filled.node.sys.threadCount + 1 } } :=
            ⟨rfl, rfl, rfl⟩
          obtain ⟨opening'', rest⟩ := ih (opening'.of_same next) done
          exact ⟨opening'', Option.bind_eq_some_iff.mpr ⟨filled.node, node, rest⟩⟩

theorem Booted.inOrder {lives : Lives} (booted : lives.Booted) : lives.InOrder := by
  obtain ⟨manifest, stagings, started⟩ := booted
  obtain ⟨loaded, loading, rfl⟩ := Option.map_eq_some_iff.mp started
  obtain ⟨opening, node⟩ := (opening_blank manifest).nodeInitThreads loading
  refine ⟨?_, ?_⟩
  · exact NodeState.Booted.sound ⟨manifest, _, Option.map_eq_some_iff.mpr ⟨_, node, rfl⟩⟩
  · exact (sameInstances_setupRouting loaded.node manifest.name).tracked opening.tracked

/-! ## Runs -/

/-- No timer callback leaves the timer that it was called for running and periodic. -/
def NoSelfRestart (lives : Lives) : LifeStep → Prop
  | .processTimers thread turns => NodeState.restartFree thread turns lives.node = true
  | _ => True

instance (lives : Lives) (taken : LifeStep) : Decidable (lives.NoSelfRestart taken) := by
  cases taken with
  | processTimers thread turns => exact inferInstanceAs (Decidable (_ = true))
  | call | processMessages | startPending | unload | reload | shutdown =>
      exact inferInstanceAs (Decidable True)

/-- Histories in order, and sound structures until the end. -/
structure Kept (lives : Lives) : Prop where
  /-- The histories are in order. -/
  tracked : lives.Tracked
  /-- The structures agree. -/
  sound : lives.ended = false → lives.node.Sound

theorem InOrder.alive_of_component (inOrder : before.InOrder) {thread : ThreadRef} {comp : CompRef}
    (member : comp ∈ before.node.components thread) : before.Alive comp := by
  obtain ⟨entry, listed, rfl, -⟩ :=
    NodeState.mem_hosted.mp ((inOrder.sound.listed.hosted thread).mem_iff.mp member)
  exact inOrder.alive listed

theorem Kept.step (kept : before.Kept) {taken : LifeStep} (calm : before.NoSelfRestart taken)
    (stepped : before.step taken = some after) : after.Kept := by
  unfold Lives.step at stepped
  split at stepped
  · simp at stepped
  · rename_i running
    have inOrder : before.InOrder := ⟨kept.sound (by simpa using running), kept.tracked⟩
    have next (done : after.InOrder) : after.Kept := ⟨done.tracked, fun _ => done.sound⟩
    cases taken with
    | call made => exact next (inOrder.call stepped)
    | processMessages thread made => exact next (inOrder.processThreadMessages stepped)
    | startPending thread runs =>
        exact next (inOrder.startPendingComponents
          (fun _ member => inOrder.alive_of_component member) stepped)
    | processTimers thread turns => exact next (inOrder.processTimers calm stepped)
    | unload name =>
        obtain rfl := Option.some.inj stepped
        exact next (inOrder.nodeUnloadComponent name)
    | reload name staging => exact next (inOrder.nodeReloadComponent stepped)
    | shutdown =>
        obtain rfl := Option.some.inj stepped
        exact ⟨inOrder.shutdown, by simp [Lives.shutdown]⟩

/-- As long as no timer callback restarts its own timer as a periodic one, every instance keeps the
order of its callbacks, on every path from its export to its end. -/
theorem orderly_of_reach {lives : Lives} (reach : Reach Lives.step NoSelfRestart Booted lives) :
    ∀ instanceNo < lives.count, Orderly (lives.set instanceNo) (lives.history instanceNo) :=
  have kept := Reach.invariant Kept
    (fun _ booted => ⟨booted.inOrder.tracked, fun _ => booted.inOrder.sound⟩)
    (fun _ _ _ kept calm stepped => kept.step calm stepped) reach
  fun _ made => kept.tracked.orderly made

/-- An instance with all callbacks. -/
def allCallbacks : Callbacks := ⟨true, true, true, true⟩

/-- Both components of `twoWorkers` load and start, and the first one arms a timer. -/
def armedLives (isPeriodic : Bool) : List LifeStep :=
  [.startPending 1 [([], true)], .startPending 2 [([], true)],
    .call (.createTimer 5 (some 0) 0), .call (.startTimer 10 (some 5) 10 isPeriodic 0)]

/-- A component with a periodic timer is reloaded twice, and the second `start` fails. -/
theorem reloaded_orderly :
    ∃ lives : Lives, (∀ instanceNo < lives.count,
        Orderly (lives.set instanceNo) (lives.history instanceNo)) ∧
      lives.history 0 = [.init true, .start true, .timer, .stop, .freed] ∧
      lives.history 2 = [.init true, .start false, .stop, .freed] := by
  have execution :
      ((boot NodeState.twoWorkers [[.ready 10 allCallbacks], [.ready 20 allCallbacks]]).bind
        fun lives =>
          (runGuarded Lives.step NoSelfRestart lives
            (armedLives true ++
              [.processTimers 1 [⟨10, [], 11⟩, ⟨11, [], 0⟩], .reload "a" (.ready 30 allCallbacks),
                .startPending 1 [([], false)], .reload "a" (.ready 10 allCallbacks),
                .shutdown])).map
            fun lives => (lives.history 0, lives.history 2)) =
        some ([.init true, .start true, .timer, .stop, .freed],
          [.init true, .start false, .stop, .freed]) := by
    decide +kernel
  obtain ⟨started, booted, ran⟩ := Option.bind_eq_some_iff.mp execution
  obtain ⟨lives, ran, view⟩ := Option.map_eq_some_iff.mp ran
  obtain ⟨first, third⟩ := Prod.mk.inj view
  have reach : Reach Lives.step NoSelfRestart Booted lives :=
    reach_of_runGuarded (.start ⟨NodeState.twoWorkers, _, booted⟩) ran
  exact ⟨lives, orderly_of_reach reach, first, third⟩

/-- The components of both workers start one timer again and again from its callback, until it is in
both heaps.  When the second component is unloaded, only the node in its own heap is cancelled; the
callback of the other one is called after the component was stopped and freed. -/
theorem timer_after_free :
    ∃ lives : Lives, Reachable Lives.step Booted lives ∧ 1 < lives.count ∧
      ¬ Orderly (lives.set 1) (lives.history 1) := by
  have execution :
      ((boot NodeState.twoWorkers [[.ready 10 allCallbacks], [.ready 20 allCallbacks]]).bind
        fun lives =>
          (run Lives.step lives
            (armedLives true ++
              [.processTimers 1 [⟨10, [.startTimer 20 (some 5) 10 true 10], 11⟩, ⟨11, [], 0⟩],
                .processTimers 2 [⟨21, [.startTimer 20 (some 5) 10 false 21], 21⟩, ⟨22, [], 0⟩],
                .processTimers 2 [⟨31, [], 31⟩, ⟨32, [], 0⟩], .unload "b",
                .reload "a" (.ready 20 allCallbacks), .startPending 1 [([], true)],
                .processTimers 1 [⟨40, [], 40⟩, ⟨40, [], 40⟩]])).map
            fun lives => (lives.count, lives.history 1)) =
        some (3, [.init true, .start true, .timer, .timer, .stop, .freed, .timer]) := by
    decide +kernel
  obtain ⟨started, booted, ran⟩ := Option.bind_eq_some_iff.mp execution
  obtain ⟨lives, ran, view⟩ := Option.map_eq_some_iff.mp ran
  obtain ⟨count, history⟩ := Prod.mk.inj view
  refine ⟨lives, reachable_of_run (.start ⟨NodeState.twoWorkers, _, booted⟩) ran, by omega, ?_⟩
  intro orderly
  have last := orderly.freed_last
  rw [history] at last
  simp at last

end Lives

end CodexNos.Node
