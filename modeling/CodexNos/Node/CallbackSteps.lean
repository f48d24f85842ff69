import CodexNos.Node.Tracking

/-!
# What the functions of a node keep of the histories

A component that makes calls starts no callback, and a timer that it starts is armed for its own
instance.  With sound structures a message or a timer reaches an active instance, and an instance
that leaves the node is stopped, unless it was stopped before, and freed.
-/

namespace CodexNos.Node

open Lib Messaging Scheduler
open NodeState (Call Turn)

namespace Lives

variable {before after : Lives}

/-! ## Calls of components -/

/-- The instances and their histories are the same. -/
structure Calm (before after : Lives) : Prop where
  count : after.count = before.count
  set : after.set = before.set
  number : after.number = before.number
  history : after.history = before.history
  status : after.node.sys.status = before.node.sys.status
  quiet : NodeState.Quiet before.node after.node

theorem Calm.refl (lives : Lives) : Calm lives lives :=
  ⟨rfl, rfl, rfl, rfl, rfl, .refl _⟩

theorem Calm.trans {middle : Lives} (first : Calm before middle) (second : Calm middle after) :
    Calm before after where
  count := second.count.trans first.count
  set := second.set.trans first.set
  number := second.number.trans first.number
  history := second.history.trans first.history
  status := second.status.trans first.status
  quiet := first.quiet.trans second.quiet

theorem Tracked.of_calm (tracked : before.Tracked) (calm : Calm before after)
    (armed : after.ArmedWell) : after.Tracked :=
  tracked.of_same calm.count calm.set calm.number calm.history calm.quiet.instances calm.status armed

theorem node_of_call {made : Call} (called : before.call made = some after) :
    before.node.call made = some after.node := by
  obtain ⟨node, done, rfl⟩ := Option.map_eq_some_iff.mp called
  exact done

theorem calm_of_call {made : Call} (called : before.call made = some after) : Calm before after := by
  have quiet := NodeState.call_quiet (node_of_call called)
  obtain ⟨node, done, rfl⟩ := Option.map_eq_some_iff.mp called
  refine ⟨rfl, rfl, rfl, rfl, ?_, quiet⟩
  change node.sys.status = _
  cases made with
  | createTimer ref callback arg =>
      obtain ⟨sys, created, rfl⟩ := Option.map_eq_some_iff.mp done
      obtain ⟨-, timer, -, -, rfl⟩ := TimerSys.nosTimerCreate_cases created
      rfl
  | startTimer self ref intervalMs isPeriodic now =>
      obtain ⟨⟨sys, status⟩, started, rfl⟩ := Option.map_eq_some_iff.mp done
      cases TimerSys.nosTimerStart_result started with
      | refused => rfl
      | armed => rfl
  | send header =>
      obtain rfl := Option.some.inj done
      rw [NodeState.nosServiceMsgSend_sys]

/-- The timer is as it was and armed for the instance, or it runs again. -/
def Pending (lives : Lives) (ref : TimerRef) (timer : Timer) (instanceNo : Nat) : Prop :=
  ∃ object, lives.node.sys.timer ref = some object ∧
    (object = timer ∧ lives.armedFor ref = instanceNo ∨ object.isRunning = true)

theorem armed_of_call (armed : before.ArmedWell) {made : Call}
    (called : before.call made = some after) :
    after.ArmedWell ∧ ∀ ref timer instanceNo, before.Pending ref timer instanceNo →
      after.Pending ref timer instanceNo := by
  obtain ⟨node, done, rfl⟩ := Option.map_eq_some_iff.mp called
  cases made with
  | createTimer ref callback arg =>
      obtain ⟨sys, created, rfl⟩ := Option.map_eq_some_iff.mp done
      obtain ⟨missing, timer, idle, -, rfl⟩ := TimerSys.nosTimerCreate_cases created
      constructor
      · refine armed.of_fewer rfl rfl fun other object found running => ?_
        rcases eq_or_ne other ref with rfl | different
        · obtain rfl : timer = object := by simpa [withNode] using found
          simp [idle] at running
        · exact (TimerSys.setTimer_other _ _ different).symm.trans found
      · rintro other old instanceNo ⟨object, found, same⟩
        have different : other ≠ ref := by
          rintro rfl
          simp [missing] at found
        exact ⟨object, (TimerSys.setTimer_other _ _ different).trans found, same⟩
  | startTimer self ref intervalMs isPeriodic now =>
      obtain ⟨⟨sys, status⟩, started, rfl⟩ := Option.map_eq_some_iff.mp done
      cases TimerSys.nosTimerStart_result started with
      | refused =>
          have kept : before.armedAfter (.startTimer self ref intervalMs isPeriodic now) =
              before.armedFor := by
            cases ref with
            | none => rfl
            | some ref => simp [armedAfter, started]
          constructor
          · exact armed.of_fewer kept rfl fun _ _ found _ => found
          · rintro other old instanceNo ⟨object, found, same⟩
            refine ⟨object, found, same.imp_left fun idle => ⟨idle.1, ?_⟩⟩
            exact (congrFun kept other).trans idle.2
      | @armed thread ref timer object located found idle room running owner home =>
          have changed : before.armedAfter (.startTimer self (some ref) intervalMs isPeriodic now) =
              Function.update before.armedFor ref (before.number self) := by
            simp [armedAfter, started]
          have others {other : TimerRef} (different : other ≠ ref) :
              (before.node.sys.insertTimer thread ref object).timer other =
                before.node.sys.timer other := by
            rw [TimerSys.insertTimer_timer, TimerSys.setTimer_other _ _ different]
          constructor
          · intro other timer' comp found' running' owner'
            change (before.node.sys.insertTimer thread ref object).timer other = _ at found'
            refine (congrFun changed other).trans ?_
            rcases eq_or_ne other ref with rfl | different
            · rw [TimerSys.insertTimer_timer, TimerSys.setTimer_self] at found'
              obtain rfl := Option.some.inj found'
              obtain rfl : self = comp := Option.some.inj (owner.symm.trans owner')
              exact Function.update_self _ _ _
            · rw [others different] at found'
              rw [Function.update_of_ne different]
              exact armed other timer' comp found' running' owner'
          · rintro other old instanceNo ⟨object', found', same⟩
            rcases eq_or_ne other ref with rfl | different
            · refine ⟨object, ?_, .inr running⟩
              change (before.node.sys.insertTimer thread other object).timer other = _
              rw [TimerSys.insertTimer_timer, TimerSys.setTimer_self]
            · refine ⟨object', (others different).trans found', same.imp_left fun idle =>
                ⟨idle.1, ?_⟩⟩
              refine (congrFun changed other).trans ?_
              rw [Function.update_of_ne different]
              exact idle.2
  | send header =>
      obtain rfl := Option.some.inj done
      have same := NodeState.nosServiceMsgSend_sys before.node header
      constructor
      · exact armed.of_fewer rfl rfl fun ref timer found _ => same ▸ found
      · rintro ref timer instanceNo ⟨object, found, kept⟩
        refine ⟨object, ?_, kept⟩
        change (before.node.nosServiceMsgSend header).sys.timer ref = some object
        rw [same, found]

theorem node_of_calls {made : List Call} (called : before.calls made = some after) :
    before.node.calls made = some after.node := by
  induction made generalizing before with
  | nil =>
      obtain rfl := Option.some.inj called
      rfl
  | cons first rest ih =>
      obtain ⟨next, step, called⟩ := Option.bind_eq_some_iff.mp called
      exact Option.bind_eq_some_iff.mpr ⟨next.node, node_of_call step, ih called⟩

theorem calm_of_calls {made : List Call} (called : before.calls made = some after) :
    Calm before after := by
  induction made generalizing before with
  | nil =>
      obtain rfl := Option.some.inj called
      exact .refl before
  | cons first rest ih =>
      obtain ⟨next, step, called⟩ := Option.bind_eq_some_iff.mp called
      exact (calm_of_call step).trans (ih called)

theorem armed_of_calls (armed : before.ArmedWell) {made : List Call}
    (called : before.calls made = some after) :
    after.ArmedWell ∧ ∀ ref timer instanceNo, before.Pending ref timer instanceNo →
      after.Pending ref timer instanceNo := by
  induction made generalizing before with
  | nil =>
      obtain rfl := Option.some.inj called
      exact ⟨armed, fun _ _ _ pending => pending⟩
  | cons first rest ih =>
      obtain ⟨next, step, called⟩ := Option.bind_eq_some_iff.mp called
      obtain ⟨armed', kept⟩ := armed_of_call armed step
      obtain ⟨armed'', kept'⟩ := ih armed' called
      exact ⟨armed'', fun ref timer instanceNo pending =>
        kept' ref timer instanceNo (kept ref timer instanceNo pending)⟩

/-- Sound structures and histories in order. -/
structure InOrder (lives : Lives) : Prop where
  /-- The structures agree. -/
  sound : lives.node.Sound
  /-- The histories are in order. -/
  tracked : lives.Tracked

theorem InOrder.call (inOrder : before.InOrder) {made : Call}
    (called : before.call made = some after) : after.InOrder :=
  ⟨inOrder.sound.call (node_of_call called),
    inOrder.tracked.of_calm (calm_of_call called) (armed_of_call inOrder.tracked.armed called).1⟩

theorem InOrder.calls (inOrder : before.InOrder) {made : List Call}
    (called : before.calls made = some after) : after.InOrder :=
  ⟨inOrder.sound.calls (node_of_calls called),
    inOrder.tracked.of_calm (calm_of_calls called) (armed_of_calls inOrder.tracked.armed called).1⟩

/-! ## Messages, timers and pending components -/

theorem InOrder.alive (inOrder : before.InOrder) {entry : LoadedComp}
    (member : entry ∈ before.node.loaded) : before.Alive entry.comp :=
  inOrder.sound.listed.allocated entry member

theorem Tracked.serve (tracked : before.Tracked) {comp : CompRef} (alive : before.Alive comp)
    (active : before.status comp = .active) {event : LifeEvent} (service : event.isService) :
    (before.recordAt comp [event]).Tracked := by
  refine tracked.touch alive (touches_recordAt before comp [event]) tracked.armed ?_ ?_
  · intro present
    have underway := tracked.underway comp alive
    rw [active] at underway
    obtain ⟨served, services, same⟩ := underway
    change Underway _ (before.status comp) _
    rw [active]
    refine ⟨served ++ [event], ?_, ?_⟩
    · intro other member
      rcases List.mem_append.mp member with old | new
      · exact services other old
      · obtain rfl := List.mem_singleton.mp new
        exact service
    · rw [same, List.append_assoc]
  · exact fun dead => absurd alive dead

theorem InOrder.serve (inOrder : before.InOrder) {entry : LoadedComp}
    (member : entry ∈ before.node.loaded) (active : before.status entry.comp = .active)
    {event : LifeEvent} (service : event.isService) :
    (before.recordAt entry.comp [event]).InOrder :=
  ⟨inOrder.sound, inOrder.tracked.serve (inOrder.alive member) active service⟩

theorem loaded_of_dispatchTarget {node : NodeState} (sound : node.Sound) {header : Header}
    {comp : CompRef} (target : node.tables.dispatchTarget header = some comp) :
    (∃ entry ∈ node.loaded, entry.comp = comp) ∧ node.sys.status comp = .active := by
  unfold Tables.dispatchTarget at target
  split at target
  · obtain ⟨found, receives⟩ := Option.filter_eq_some_iff.mp target
    obtain ⟨info, located, comp_eq⟩ := Option.bind_eq_some_iff.mp found
    obtain ⟨entry, member, rfl⟩ := List.mem_map.mp (List.mem_of_find?_eq_some located)
    simp only [Tables.receives, Bool.and_eq_true, decide_eq_true_eq] at receives
    exact ⟨⟨entry, member, Option.some.inj comp_eq⟩, receives.1⟩
  · obtain ⟨found, receives⟩ := Option.filter_eq_some_iff.mp target
    obtain ⟨entry, located, comp_eq⟩ := Option.bind_eq_some_iff.mp found
    simp only [Tables.receives, Bool.and_eq_true, decide_eq_true_eq] at receives
    rcases sound.registered.backed entry (List.mem_of_find?_eq_some located) with
      ⟨missing, -⟩ | ⟨info, member, provider, -⟩
    · simp [missing] at comp_eq
    · exact ⟨⟨info, member, Option.some.inj (provider.symm.trans comp_eq)⟩, receives.1⟩

theorem InOrder.processThreadMessages (inOrder : before.InOrder) {thread : ThreadRef}
    {made : List (List Call)}
    (processed : Lives.processThreadMessages thread made before = some after) : after.InOrder := by
  induction made generalizing before with
  | nil =>
      unfold Lives.processThreadMessages at processed
      split at processed
      · obtain rfl := Option.some.inj processed
        exact inOrder
      · simp at processed
  | cons first later ih =>
      unfold Lives.processThreadMessages at processed
      split at processed
      · obtain rfl := Option.some.inj processed
        exact inOrder
      · rename_i header rest _
        dsimp only at processed
        have taken : InOrder (before.withNode
            { before.node with queue := Function.update before.node.queue thread rest }) :=
          ⟨inOrder.sound.withQueue _, inOrder.tracked.of_same rfl rfl rfl rfl rfl rfl
            inOrder.tracked.armed⟩
        split at processed
        · rename_i comp target
          obtain ⟨next, called, rest_processed⟩ := Option.bind_eq_some_iff.mp processed
          obtain ⟨⟨entry, member, rfl⟩, active⟩ := loaded_of_dispatchTarget taken.sound target
          exact ih ((taken.serve member active rfl).calls called) rest_processed
        · exact ih taken processed

theorem touches_setStatus (lives : Lives) (comp : CompRef) (status : CompStatus) :
    Touches lives (lives.withNode (lives.node.setStatus comp status)) comp [] :=
  touches_withNode lives comp (fun _ _ => rfl) fun _ different =>
    Function.update_of_ne different _ _

theorem Calm.touches (calm : Calm before after) (comp : CompRef) : Touches before after comp [] where
  count := calm.count
  set := calm.set
  number := calm.number
  history := by simp [calm.history]
  instances other _ := congrFun calm.quiet.instances other
  status other _ := congrFun calm.status other

/-- A pending component becomes active, or it has failed to start. -/
theorem Tracked.start (tracked : before.Tracked) {comp : CompRef} (alive : before.Alive comp)
    (pending : before.status comp = .inited) {events : List LifeEvent} {status : CompStatus}
    (touches : Touches before after comp events) (armed : after.ArmedWell)
    (present : after.Alive comp) (reached : after.status comp = status)
    (course : Underway (before.callbacks comp) status ((before.callbacks comp).inited ++ events)) :
    after.Tracked := by
  have inited := tracked.underway comp alive
  rw [pending] at inited
  refine tracked.touch alive touches armed (fun _ => ?_) fun dead => absurd present dead
  rw [reached, show before.history (before.number comp) = _ from inited]
  exact course

theorem InOrder.startPendingComponents (inOrder : before.InOrder) {comps : List CompRef}
    (alive : ∀ comp ∈ comps, before.Alive comp) {runs : List (List Call × Bool)}
    (started : Lives.startPendingComponents comps runs before = some after) : after.InOrder := by
  induction comps generalizing before runs with
  | nil =>
      obtain rfl := Option.some.inj started
      exact inOrder
  | cons comp comps ih =>
      have others : ∀ other ∈ comps, before.Alive other := fun other member =>
        alive other (List.mem_cons_of_mem _ member)
      have here := alive comp List.mem_cons_self
      unfold Lives.startPendingComponents at started
      split at started
      · rename_i pending
        cases runs with
        | nil => simp at started
        | cons run runs =>
            obtain ⟨made, ok⟩ := run
            dsimp only at started
            split at started
            · rename_i start
              obtain ⟨next, called, started⟩ := Option.bind_eq_some_iff.mp started
              have calm := calm_of_calls called
              have ran := node_of_calls called
              have sound : next.node.Sound := NodeState.Sound.calls inOrder.sound ran
              have armed_here : (before.recordAt comp [.start ok]).ArmedWell := inOrder.tracked.armed
              have armed := (armed_of_calls armed_here called).1
              have kept (other : CompRef) (present : before.Alive other) : next.Alive other :=
                (congrArg Option.isSome (congrFun calm.quiet.instances other)).trans present
              have touches := ((touches_recordAt before comp [.start ok]).trans
                (calm.touches comp)).trans
                (touches_setStatus next comp (if ok then .active else .error))
              have tracked := inOrder.tracked.start here pending touches armed (kept comp here)
                (Function.update_self _ _ _) (by
                  cases ok with
                  | true => exact ⟨[], by simp, by simp [Callbacks.started, start]⟩
                  | false => exact ⟨start, by simp⟩)
              exact ih ⟨sound.setStatus _ _, tracked⟩ (fun other member =>
                kept other (others other member)) started
            · rename_i absent
              split at started
              · have touches := touches_setStatus before comp .active
                have tracked := inOrder.tracked.start here pending touches inOrder.tracked.armed here
                  (Function.update_self _ _ _) ⟨[], by simp, by simp [Callbacks.started, absent]⟩
                exact ih ⟨inOrder.sound.setStatus _ _, tracked⟩ others started
              · simp at started
      · exact ih inOrder others started

/-- The root that is taken out was armed for the instance of its owner. -/
theorem InOrder.popDue (inOrder : before.InOrder) {thread : ThreadRef} {now : Nat} {ref : TimerRef}
    {popped : TimerSys} (due : before.node.sys.popDue thread now = some (ref, popped)) :
    InOrder (before.withNode { before.node with sys := popped }) ∧
      ∃ timer, popped.timer ref = some timer ∧ timer.isRunning = false ∧
        ∃ info ∈ before.node.loaded, timer.owner = some info.comp ∧ info.ownerThread = thread ∧
          timer.ownerThread = some thread ∧ before.armedFor ref = before.number info.comp := by
  obtain ⟨sound, timer, found, idle, info, listed, owner, place, home⟩ := inOrder.sound.popDue due
  obtain ⟨member, timer_eq, -⟩ := TimerSys.popDue_cases due
  have status_eq : popped.status = before.node.sys.status := by
    unfold TimerSys.popDue at due
    split at due
    · split at due
      · simp at due
      · obtain ⟨rfl, rfl⟩ := Prod.mk.inj (Option.some.inj due)
        rfl
    · simp at due
  obtain ⟨old, old_found, running, -⟩ := inOrder.sound.attended.linked.armed thread ref member
  have same_owner : old.owner = timer.owner := by
    rw [timer_eq, TimerSys.setTimer_self, old_found] at found
    obtain rfl := Option.some.inj found
    rfl
  refine ⟨⟨sound, ?_⟩, timer, found, idle, info, listed, owner, place, home, ?_⟩
  · refine inOrder.tracked.of_same rfl rfl rfl rfl rfl status_eq ?_
    refine inOrder.tracked.armed.of_fewer rfl rfl fun other object found' running' => ?_
    change popped.timer other = some object at found'
    rcases eq_or_ne other ref with rfl | different
    · obtain rfl : timer = object := Option.some.inj (found.symm.trans found')
      simp [idle] at running'
    · rwa [timer_eq, TimerSys.setTimer_other _ _ different] at found'
  · exact inOrder.tracked.armed ref old info.comp old_found running (same_owner.trans owner)

/-- The callback of a timer that was armed for the instance of its owner. -/
theorem InOrder.fireTimer (inOrder : before.InOrder) {ref : TimerRef} {timer : Timer}
    (found : before.node.sys.timer ref = some timer) {info : LoadedComp}
    (listed : info ∈ before.node.loaded) (owner : timer.owner = some info.comp)
    (armedFor : before.armedFor ref = before.number info.comp) {made : List Call}
    (fired : before.fireTimer ref made = some after) :
    after.InOrder ∧ NodeState.fireTimer before.node ref made = some after.node ∧
      after.Pending ref timer (before.number info.comp) ∧ after.number = before.number := by
  have pending : before.Pending ref timer (before.number info.comp) :=
    ⟨timer, found, .inl ⟨rfl, armedFor⟩⟩
  simp only [Lives.fireTimer, found] at fired
  simp only [NodeState.fireTimer, found]
  split at fired
  · rename_i active
    have status : before.status info.comp = .active := by
      simp only [TimerSys.ownerActive, owner, Option.any_some, Bool.and_eq_true,
        decide_eq_true_eq] at active
      exact active.1
    rw [armedFor] at fired
    have served : (before.recordAt info.comp [.timer]).InOrder :=
      inOrder.serve listed status rfl
    have ran := node_of_calls fired
    refine ⟨served.calls fired, ?_, (armed_of_calls served.tracked.armed fired).2 ref timer _ pending,
      (calm_of_calls fired).number⟩
    rw [if_pos active]
    exact ran
  · rename_i quiet
    obtain rfl := Option.some.inj fired
    refine ⟨inOrder, ?_, pending, rfl⟩
    rw [if_neg quiet]

/-- Putting back a timer keeps it armed for the instance of its owner. -/
theorem InOrder.rearmTimer (inOrder : before.InOrder) {thread : ThreadRef} {ref : TimerRef}
    {timer : Timer} {now : Nat} {info : LoadedComp} {node : NodeState}
    (found : before.node.sys.timer ref = some timer) (owner : timer.owner = some info.comp)
    (armedFor : before.armedFor ref = before.number info.comp) (sound : node.Sound)
    (rearmed : before.node.rearmTimer thread ref now = some node) :
    (before.withNode node).InOrder := by
  rw [NodeState.rearmTimer, found, Option.map_some] at rearmed
  obtain rfl := Option.some.inj rearmed
  refine ⟨sound, ?_⟩
  split
  · have status_eq : (before.node.sys.rearm thread ref timer now).status =
        before.node.sys.status := by
      unfold TimerSys.rearm
      dsimp only
      split <;> rfl
    refine inOrder.tracked.of_same rfl rfl rfl rfl rfl status_eq ?_
    intro other object comp found' running' owner'
    change (before.node.sys.rearm thread ref timer now).timer other = some object at found'
    change before.armedFor other = before.number comp
    unfold TimerSys.rearm at found'
    dsimp only at found'
    rcases eq_or_ne other ref with rfl | different
    · have same_owner : object.owner = timer.owner := by
        split at found'
        · rw [TimerSys.setTimer_self] at found'
          obtain rfl := Option.some.inj found'
          rfl
        · rw [TimerSys.insertTimer_timer, TimerSys.setTimer_self] at found'
          obtain rfl := Option.some.inj found'
          rfl
      obtain rfl : info.comp = comp :=
        Option.some.inj (owner.symm.trans (same_owner.symm.trans owner'))
      exact armedFor
    · refine inOrder.tracked.armed other object comp ?_ running' owner'
      split at found'
      · rwa [TimerSys.setTimer_other _ _ different] at found'
      · rwa [TimerSys.insertTimer_timer, TimerSys.setTimer_other _ _ different] at found'
  · exact inOrder.tracked

theorem InOrder.processTimers (inOrder : before.InOrder) {thread : ThreadRef} {turns : List Turn}
    (free : NodeState.restartFree thread turns before.node = true)
    (processed : Lives.processTimers thread turns before = some after) : after.InOrder := by
  induction turns generalizing before with
  | nil => simp [Lives.processTimers] at processed
  | cons turn turns ih =>
      unfold Lives.processTimers at processed
      unfold NodeState.restartFree at free
      split at processed
      · obtain rfl := Option.some.inj processed
        exact inOrder
      · rename_i ref popped due
        obtain ⟨fired, fires, processed⟩ := Option.bind_eq_some_iff.mp processed
        obtain ⟨rearmed, rearms, processed⟩ := Option.bind_eq_some_iff.mp processed
        obtain ⟨taken, timer, found, idle, info, listed, owner, place, home, armedFor⟩ :=
          inOrder.popDue due
        obtain ⟨served, fires', ⟨object, found', same⟩, number⟩ :=
          taken.fireTimer found listed owner armedFor fires
        change NodeState.fireTimer { before.node with sys := popped } ref turn.made = _ at fires'
        simp only [due, fires', rearms, Bool.and_eq_true, Bool.not_eq_true'] at free
        obtain ⟨calm, free⟩ := free
        obtain ⟨-, quiet, -⟩ := taken.sound.fireTimer found fires'
        refine ih ?_ free processed
        rcases same with ⟨rfl, armedFor'⟩ | running
        · have sound := served.sound.rearmTimer found' idle (quiet.loaded.symm ▸ listed) owner place
            home rearms
          exact served.rearmTimer found' owner (armedFor'.trans (congrFun number.symm _)) sound rearms
        · have once : (object.isPeriodic && fired.node.sys.ownerActive object) = false := by
            simpa [NodeState.runsAgain, found', running] using calm
          rw [NodeState.rearmTimer, found', Option.map_some, once] at rearms
          obtain rfl := Option.some.inj rearms
          exact served

/-! ## The end of an instance -/

/-- The instances and the timer objects are the same. -/
structure SameInstances (before after : NodeState) : Prop where
  instances : after.instances = before.instances
  status : after.sys.status = before.sys.status
  timer : after.sys.timer = before.sys.timer

theorem SameInstances.refl (node : NodeState) : SameInstances node node := ⟨rfl, rfl, rfl⟩

theorem SameInstances.trans {first second third : NodeState} (left : SameInstances first second)
    (right : SameInstances second third) : SameInstances first third :=
  ⟨right.instances.trans left.instances, right.status.trans left.status,
    right.timer.trans left.timer⟩

theorem sameInstances_register (node : NodeState) (thread : ThreadRef) (comp : CompRef) :
    SameInstances node (node.nosSchedulerRegisterComponent thread comp).1 := by
  unfold NodeState.nosSchedulerRegisterComponent
  split <;> exact ⟨rfl, rfl, rfl⟩

theorem sameInstances_unregister (node : NodeState) (thread : ThreadRef) (comp : CompRef) :
    SameInstances node (node.nosSchedulerUnregisterComponent thread comp).1 := by
  unfold NodeState.nosSchedulerUnregisterComponent
  split <;> exact ⟨rfl, rfl, rfl⟩

theorem sameInstances_fillEntry (node : NodeState) (serviceId : UInt32)
    (fill : ServiceEntry → ServiceEntry) : SameInstances node (node.fillEntry serviceId fill).1 := by
  unfold NodeState.fillEntry
  split
  · exact ⟨rfl, rfl, rfl⟩
  · split <;> exact ⟨rfl, rfl, rfl⟩

theorem sameInstances_foldl {α : Type*} {turn : NodeState → α → NodeState}
    (keeps : ∀ node item, SameInstances node (turn node item)) (items : List α) (node : NodeState) :
    SameInstances node (items.foldl turn node) := by
  induction items generalizing node with
  | nil => exact .refl node
  | cons item items ih => exact (keeps node item).trans (ih (turn node item))

theorem sameInstances_bind (node : NodeState) (providerId : UInt32) (provider : CompRef)
    (thread : ThreadRef) :
    SameInstances node (node.nodeRegisterLocalProviders providerId provider thread) :=
  sameInstances_foldl (fun node _ => sameInstances_fillEntry node _ _) _ node

theorem sameInstances_unbind (node : NodeState) (providerId : UInt32) :
    SameInstances node (node.nodeUnregisterLocalProviders providerId) := by
  refine sameInstances_foldl (fun node svc => ?_) _ node
  unfold NodeState.nosServiceUnregisterProvider
  split <;> exact ⟨rfl, rfl, rfl⟩

theorem sameInstances_setupRouting (node : NodeState) (name : String) :
    SameInstances node (node.nodeSetupRouting name) := by
  refine sameInstances_foldl (fun node svc => ?_) _ node
  unfold NodeState.nodeSetupService
  split
  · split
    · exact sameInstances_fillEntry node _ _
    · exact .refl node
  · split
    · split
      · exact .refl node
      · exact sameInstances_fillEntry node _ _
    · exact .refl node

theorem SameInstances.touches {lives : Lives} {node : NodeState}
    (same : SameInstances lives.node node) (comp : CompRef) :
    Touches lives (lives.withNode node) comp [] :=
  touches_withNode lives comp (fun other _ => congrFun same.instances other) fun other _ =>
    congrFun same.status other

theorem SameInstances.tracked {lives : Lives} {node : NodeState}
    (same : SameInstances lives.node node) (tracked : lives.Tracked) :
    (lives.withNode node).Tracked :=
  tracked.of_same rfl rfl rfl rfl same.instances same.status
    (tracked.armed.of_fewer rfl rfl fun ref _ found _ =>
      (congrFun same.timer ref).symm.trans found)

theorem SameInstances.alive {lives : Lives} {node : NodeState}
    (same : SameInstances lives.node node) {comp : CompRef} (alive : lives.Alive comp) :
    (lives.withNode node).Alive comp :=
  (congrArg Option.isSome (congrFun same.instances comp)).trans alive

/-- Cancelling the timers of an owner starts none of them. -/
theorem cancel_fewer {sys : TimerSys} {thread : ThreadRef} {owner : CompRef} {ref : TimerRef}
    {timer : Timer}
    (found : (sys.nosSchedulerCancelTimersByOwner thread owner).timer ref = some timer)
    (running : timer.isRunning = true) : sys.timer ref = some timer := by
  rw [TimerSys.cancel_timer] at found
  split at found
  · obtain ⟨old, -, rfl⟩ := Option.map_eq_some_iff.mp found
    simp [TimerSys.disarm] at running
  · exact found

theorem touches_stop (lives : Lives) (entry : LoadedComp) :
    Touches lives (lives.nodeStopComponentInstance entry) entry.comp
      (stopEvents (lives.callbacks entry.comp) (lives.status entry.comp)) := by
  have marked : Touches lives (lives.withNode (lives.node.nodeStopComponentInstance entry))
      entry.comp [] := by
    refine touches_withNode lives entry.comp (fun _ _ => rfl) fun other different => ?_
    change (TimerSys.nosSchedulerCancelTimersByOwner _ _ _).status other = _
    rw [TimerSys.cancel_status]
    exact Function.update_of_ne different _ _
  exact marked.trans (touches_recordAt _ entry.comp _)

theorem armed_stop {lives : Lives} (armed : lives.ArmedWell) (entry : LoadedComp) :
    (lives.nodeStopComponentInstance entry).ArmedWell := by
  refine armed.of_fewer rfl rfl fun ref timer found running => ?_
  change (TimerSys.nosSchedulerCancelTimersByOwner _ _ _).timer ref = some timer at found
  have kept := cancel_fewer found running
  exact kept

theorem status_stop (lives : Lives) (entry : LoadedComp) :
    (lives.nodeStopComponentInstance entry).status entry.comp = .stopped := by
  change (TimerSys.nosSchedulerCancelTimersByOwner _ _ _).status entry.comp = _
  rw [TimerSys.cancel_status]
  exact Function.update_self _ _ _

theorem touches_destroy (lives : Lives) (comp : CompRef) :
    Touches lives (lives.nodeDestroyLoadedComponent comp) comp
      (stopEvents (lives.callbacks comp) (lives.status comp) ++ [.freed]) :=
  (touches_withNode lives comp (fun _ different => Function.update_of_ne different _ _)
    fun _ different => Function.update_of_ne different _ _).trans
    (touches_recordAt (lives.withNode (lives.node.nodeDestroyLoadedComponent comp)) comp _)

theorem stopEvents_append_freed {set : Callbacks} {status : CompStatus} (running : status ≠ .stopped) :
    stopEvents set status ++ [.freed] = set.ended := by
  simp [stopEvents, running, Callbacks.ended]

theorem Tracked.finish (tracked : before.Tracked) {comp : CompRef} (alive : before.Alive comp)
    {events : List LifeEvent} (touches : Touches before after comp events)
    (ended : before.status comp ≠ .stopped → events = (before.callbacks comp).ended)
    (dead : ¬ after.Alive comp) (armed : after.ArmedWell) : after.Tracked := by
  have underway := tracked.underway comp alive
  have running : before.status comp ≠ .stopped := by
    intro stopped
    rw [stopped] at underway
    exact underway
  refine tracked.touch alive touches armed (fun present => absurd present dead) fun _ => ?_
  rw [ended running]
  exact .later underway

/-- A new instance that is not used is stopped and freed. -/
theorem Tracked.destroy (tracked : before.Tracked) {comp : CompRef} (alive : before.Alive comp) :
    (before.nodeDestroyLoadedComponent comp).Tracked := by
  refine tracked.finish alive (touches_destroy before comp) stopEvents_append_freed ?_ tracked.armed
  simp [Alive, nodeDestroyLoadedComponent, NodeState.nodeDestroyLoadedComponent, recordAt, record,
    withNode]

/-! ## Loading, unloading and reloading -/

/-- A load leaves the node as it was, or makes a new instance. -/
theorem Tracked.stage (tracked : before.Tracked) {id : UInt32} {name : String} {staging : Staging}
    {result : Option CompRef}
    (unowned : ∀ comp, ¬ before.Alive comp → ∀ ref timer, before.node.sys.timer ref = some timer →
      timer.isRunning = true → timer.owner ≠ some comp)
    (staged : before.nodeLoadComponentStaged id name staging = some (after, result)) :
    after.Tracked ∧ after.ended = before.ended ∧
      before.node.nodeLoadComponentStaged id name staging.outcome = some (after.node, result) ∧
      after.armedFor = before.armedFor ∧
      ∀ comp, result = some comp → ¬ before.Alive comp ∧ after.Alive comp ∧
        ∀ other ≠ comp, after.node.instances other = before.node.instances other := by
  cases staging with
  | missing =>
      obtain ⟨rfl, rfl⟩ := Prod.mk.inj (Option.some.inj staged)
      exact ⟨tracked, rfl, rfl, rfl, by simp⟩
  | exportFailed set =>
      obtain ⟨rfl, rfl⟩ := Prod.mk.inj (Option.some.inj staged)
      rw [stopEvents_append_freed (by decide)]
      exact ⟨tracked.stillborn .exportFailed, rfl, rfl, rfl, by simp⟩
  | initFailed set =>
      simp only [nodeLoadComponentStaged] at staged
      split at staged
      · rename_i init
        obtain ⟨rfl, rfl⟩ := Prod.mk.inj (Option.some.inj staged)
        rw [stopEvents_append_freed (by decide)]
        exact ⟨tracked.stillborn (.initFailed init), rfl, rfl, rfl, by simp⟩
      · simp at staged
  | ready comp set =>
      simp only [nodeLoadComponentStaged] at staged
      split at staged
      · rename_i node comp' loading
        obtain ⟨rfl, rfl⟩ := Prod.mk.inj (Option.some.inj staged)
        simp only [NodeState.nodeLoadComponentStaged] at loading
        split at loading
        · simp at loading
        · rename_i free
          obtain ⟨rfl, same⟩ := Prod.mk.inj (Option.some.inj loading)
          obtain rfl : comp = comp' := Option.some.inj same
          have dead : ¬ before.Alive comp := by simp [Alive, free]
          have others : ∀ other ≠ comp, Function.update before.node.instances comp
              (some ⟨id, name, set.onMsg⟩) other = before.node.instances other :=
            fun _ different => Function.update_of_ne different _ _
          have unborn : before.history before.count = [] := tracked.unborn _ le_rfl
          have made : Function.update before.node.instances comp
              (some ⟨id, name, set.onMsg⟩) comp = some ⟨id, name, set.onMsg⟩ :=
            Function.update_self _ _ _
          have alive := congrArg Option.isSome made
          refine ⟨tracked.birth dead alive rfl rfl rfl ?_ others ?_
            (Function.update_self _ _ _) ?_, rfl, ?_, rfl, ?_⟩
          · change Function.update before.history before.count
              (before.history before.count ++ set.inited) = _
            rw [unborn, List.nil_append]
          · exact fun _ different => Function.update_of_ne different _ _
          · intro ref timer other found running owner
            have different : other ≠ comp := by
              rintro rfl
              exact unowned other dead ref timer found running owner
            change before.armedFor ref = Function.update before.number comp before.count other
            rw [Function.update_of_ne different]
            exact tracked.armed ref timer other found running owner
          · simp only [Staging.outcome, NodeState.nodeLoadComponentStaged, free]
            rfl
          · rintro other same'
            obtain rfl : comp = other := Option.some.inj same'
            exact ⟨dead, alive, others⟩
      · simp at staged

theorem InOrder.unowned (inOrder : before.InOrder) : ∀ comp, ¬ before.Alive comp →
    ∀ ref timer, before.node.sys.timer ref = some timer → timer.isRunning = true →
      timer.owner ≠ some comp := by
  intro comp dead ref timer found running owner
  obtain ⟨info, member, owner', -⟩ := inOrder.sound.attended.owned ref timer found running
  obtain rfl : info.comp = comp := Option.some.inj (owner'.symm.trans owner)
  exact dead (inOrder.alive member)

theorem Tracked.stop_free (tracked : before.Tracked) {entry : LoadedComp}
    (alive : before.Alive entry.comp) {unbound : NodeState}
    (kept : SameInstances before.node unbound)
    (freed : Touches ((before.withNode unbound).nodeStopComponentInstance entry) after entry.comp
      [.freed])
    (dead : ¬ after.Alive entry.comp)
    (armedFor : after.armedFor = before.armedFor)
    (timers : after.node.sys.timer =
      ((before.withNode unbound).nodeStopComponentInstance entry).node.sys.timer) :
    after.Tracked := by
  have touches :=
    ((kept.touches entry.comp).trans (touches_stop (before.withNode unbound) entry)).trans freed
  have same : (before.withNode unbound).status entry.comp = before.status entry.comp :=
    congrFun kept.status entry.comp
  rw [same, List.nil_append] at touches
  have armed : (before.withNode unbound).ArmedWell :=
    tracked.armed.of_fewer rfl rfl fun ref timer found _ =>
      (congrFun kept.timer ref).symm.trans found
  refine tracked.finish alive touches stopEvents_append_freed dead ?_
  refine (armed_stop armed entry).of_fewer armedFor freed.number fun ref timer found _ => ?_
  rw [← timers]
  exact found

theorem node_nodeUnloadComponent (lives : Lives) (name : String) :
    (lives.nodeUnloadComponent name).node = (lives.node.nodeUnloadComponent name).1 := by
  unfold Lives.nodeUnloadComponent NodeState.nodeUnloadComponent
  cases lives.node.loaded.findFinIdx? (lives.node.isNamed name) with
  | none => rfl
  | some index => rfl

theorem InOrder.nodeUnloadComponent (inOrder : before.InOrder) (name : String) :
    (before.nodeUnloadComponent name).InOrder := by
  refine ⟨?_, ?_⟩
  · rw [node_nodeUnloadComponent]
    exact inOrder.sound.nodeUnloadComponent name
  unfold Lives.nodeUnloadComponent
  cases before.node.loaded.findFinIdx? (before.node.isNamed name) with
  | none => exact inOrder.tracked
  | some index =>
      have member : before.node.loaded[index] ∈ before.node.loaded := List.getElem_mem index.isLt
      dsimp only
      generalize before.node.loaded[index] = entry at member ⊢
      have kept := (sameInstances_unregister before.node entry.ownerThread entry.comp).trans
        (sameInstances_unbind _
          ((before.node.nosSchedulerUnregisterComponent entry.ownerThread entry.comp).1.idOf
            entry.comp))
      generalize NodeState.nodeUnregisterLocalProviders _ _ = unbound at kept ⊢
      have destroyed := touches_destroy ((before.withNode unbound).nodeStopComponentInstance entry)
        entry.comp
      rw [status_stop] at destroyed
      refine inOrder.tracked.stop_free (inOrder.alive member) kept (destroyed.trans ?_) ?_ rfl rfl
      · exact touches_withNode _ _ (fun _ _ => rfl) fun _ _ => rfl
      · simp [Alive, nodeDestroyLoadedComponent, NodeState.nodeDestroyLoadedComponent, recordAt,
          record, withNode]

theorem node_nodeSwapComponent (lives : Lives) (index : Nat) (entry : LoadedComp) (id : UInt32)
    (comp : CompRef) :
    (lives.nodeSwapComponent index entry id comp).node =
      (lives.node.nodeSwapComponent index entry id comp).1 := by
  unfold Lives.nodeSwapComponent NodeState.nodeSwapComponent
  generalize lives.node.nosSchedulerRegisterComponent entry.ownerThread comp = taken
  obtain ⟨registered, status⟩ := taken
  cases status <;> rfl

theorem node_nodeReloadComponent {lives reloaded : Lives} {name : String} {staging : Staging}
    (outcome : ∀ id staged result, lives.nodeLoadComponentStaged id name staging =
      some (staged, result) →
        lives.node.nodeLoadComponentStaged id name staging.outcome = some (staged.node, result))
    (done : lives.nodeReloadComponent name staging = some reloaded) :
    ∃ status, lives.node.nodeReloadComponent name staging.outcome =
      some (reloaded.node, status) := by
  unfold Lives.nodeReloadComponent at done
  unfold NodeState.nodeReloadComponent
  cases found : lives.node.loaded.findFinIdx? (lives.node.isNamed name) with
  | none =>
      simp only [found, Option.some.injEq] at done
      exact ⟨_, by rw [← done]⟩
  | some index =>
      simp only [found] at done
      simp only
      split at done
      · simp at done
      · rename_i failed loading
        obtain rfl := Option.some.inj done
        rw [outcome _ _ _ loading]
        exact ⟨_, rfl⟩
      · rename_i staged comp loading
        rw [outcome _ _ _ loading]
        simp only
        generalize staged.node.nosSchedulerUnregisterComponent lives.node.loaded[index].ownerThread
          lives.node.loaded[index].comp = taken at done
        obtain ⟨unlisted, status⟩ := taken
        cases status with
        | ok =>
            obtain rfl := Option.some.inj done
            rw [node_nodeSwapComponent]
            exact ⟨_, rfl⟩
        | err | errNomem | errNotFound | errBusy | errTimeout =>
            obtain rfl := Option.some.inj done
            exact ⟨_, rfl⟩

/-- Putting a new instance in the place of the old one keeps the histories in order. -/
theorem Tracked.nodeSwapComponent (tracked : before.Tracked) {index : Nat} {entry : LoadedComp}
    {id : UInt32} {comp : CompRef} (alive : before.Alive entry.comp) (new : before.Alive comp) :
    (before.nodeSwapComponent index entry id comp).Tracked := by
  have listed := sameInstances_register before.node entry.ownerThread comp
  unfold Lives.nodeSwapComponent
  generalize before.node.nosSchedulerRegisterComponent entry.ownerThread comp = taken at listed ⊢
  obtain ⟨registered, status⟩ := taken
  cases status with
  | ok =>
      dsimp only at listed ⊢
      have replaced : SameInstances before.node
          { registered with loaded := registered.loaded.set index { entry with comp := comp } } :=
        ⟨listed.instances, listed.status, listed.timer⟩
      have kept := replaced.trans (sameInstances_bind _ id comp entry.ownerThread)
      generalize NodeState.nodeRegisterLocalProviders _ _ _ _ = bound at kept ⊢
      generalize stop_eq : (before.withNode bound).nodeStopComponentInstance entry = stopped
      have gone : Touches stopped
          (stopped.withNode
            { stopped.node with
              instances := Function.update stopped.node.instances entry.comp none })
          entry.comp [] :=
        touches_withNode _ _ (fun _ different => Function.update_of_ne different _ _)
          fun _ _ => rfl
      have freed := gone.trans (touches_recordAt _ entry.comp [.freed])
      subst stop_eq
      refine tracked.stop_free alive kept freed ?_ rfl rfl
      simp [Alive, recordAt, record, withNode]
  | err | errNomem | errNotFound | errBusy | errTimeout =>
      dsimp only at listed ⊢
      have kept := listed.trans (sameInstances_register registered entry.ownerThread entry.comp)
      exact (kept.tracked tracked).destroy (kept.alive new)

theorem InOrder.nodeReloadComponent (inOrder : before.InOrder) {name : String} {staging : Staging}
    (done : before.nodeReloadComponent name staging = some after) : after.InOrder := by
  have stage := fun id staged result => @Tracked.stage before staged inOrder.tracked id name staging
    result inOrder.unowned
  constructor
  · obtain ⟨status, reloaded⟩ := node_nodeReloadComponent
      (fun id staged result loading => (stage id staged result loading).2.2.1) done
    rcases inOrder.sound.nodeReloadComponent reloaded with ⟨-, same⟩ | ⟨-, sound⟩
    · exact same ▸ inOrder.sound
    · exact sound
  · unfold Lives.nodeReloadComponent at done
    split at done
    · obtain rfl := Option.some.inj done
      exact inOrder.tracked
    · rename_i index found
      have member : before.node.loaded[index] ∈ before.node.loaded := List.getElem_mem index.isLt
      dsimp only at done
      generalize before.node.loaded[index] = entry at member done
      split at done
      · simp at done
      · rename_i failed loading
        obtain rfl := Option.some.inj done
        exact (stage _ _ _ loading).1
      · rename_i staged comp loading
        obtain ⟨tracked, -, -, armedFor, new⟩ := stage _ _ _ loading
        obtain ⟨dead, alive, others⟩ := new comp rfl
        have old_ne : entry.comp ≠ comp := by
          intro same
          exact dead (same ▸ inOrder.alive member)
        have old_alive : staged.Alive entry.comp := by
          rw [Alive, others _ old_ne]
          exact inOrder.alive member
        have kept := sameInstances_unregister staged.node entry.ownerThread entry.comp
        generalize staged.node.nosSchedulerUnregisterComponent entry.ownerThread entry.comp =
          taken at kept done
        obtain ⟨unlisted, status⟩ := taken
        cases status with
        | ok =>
            obtain rfl := Option.some.inj done
            exact (kept.tracked tracked).nodeSwapComponent (kept.alive old_alive) (kept.alive alive)
        | err | errNomem | errNotFound | errBusy | errTimeout =>
            obtain rfl := Option.some.inj done
            exact (kept.tracked tracked).destroy (kept.alive alive)

/-! ## The end -/

theorem touches_shutdownComponent (lives : Lives) (entry : LoadedComp) :
    Touches lives (lives.shutdownComponent entry) entry.comp
      (lives.callbacks entry.comp).ended := by
  have gone : Touches lives
      (lives.withNode
        { lives.node with
          instances := Function.update lives.node.instances entry.comp none })
      entry.comp [] :=
    touches_withNode _ _ (fun _ different => Function.update_of_ne different _ _) fun _ _ => rfl
  exact gone.trans (touches_recordAt _ entry.comp _)

theorem Tracked.shutdownComponents (tracked : before.Tracked) {entries : List LoadedComp}
    (distinct : (entries.map (·.comp)).Nodup) (alive : ∀ entry ∈ entries, before.Alive entry.comp) :
    (entries.foldl shutdownComponent before).Tracked := by
  induction entries generalizing before with
  | nil => exact tracked
  | cons entry entries ih =>
      rw [List.map_cons, List.nodup_cons] at distinct
      have touches := touches_shutdownComponent before entry
      refine ih ?_ distinct.2 fun other member => ?_
      · refine tracked.finish (alive entry List.mem_cons_self) touches (fun _ => rfl) ?_ tracked.armed
        simp [Alive, shutdownComponent, recordAt, record, withNode]
      · have different : other.comp ≠ entry.comp := fun same =>
          distinct.1 (same ▸ List.mem_map_of_mem member)
        rw [Alive, touches.instances _ different]
        exact alive other (List.mem_cons_of_mem _ member)

theorem InOrder.shutdown (inOrder : before.InOrder) : before.shutdown.Tracked := by
  have distinct : (before.node.loaded.reverse.map (·.comp)).Nodup := by
    rw [List.map_reverse, List.nodup_reverse]
    exact inOrder.sound.listed.distinct
  have ended := inOrder.tracked.shutdownComponents distinct fun entry member =>
    inOrder.alive (List.mem_reverse.mp member)
  exact ended.of_same rfl rfl rfl rfl rfl rfl ended.armed

end Lives

end CodexNos.Node
