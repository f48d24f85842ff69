import CodexNos.Node.Registrations

/-!
# Sound structures of a node

The structures of a node are sound when the component lists are the ones the table of loaded
components describes, the registry names loaded providers, and the running timers have loaded owners.
Every call keeps them sound, with one exception that the turns of `process_timers` have to avoid: a
callback that leaves its own timer running and periodic.
-/

namespace CodexNos.Node

open Lib Messaging Scheduler

namespace NodeState

/-- Components that the table puts on a thread. -/
def hosted (loaded : List LoadedComp) (thread : ThreadRef) : List CompRef :=
  (loaded.filter fun entry => entry.ownerThread = thread).map (·.comp)

/-- The table of loaded components and the component lists agree. -/
structure Listed (node : NodeState) : Prop where
  /-- Loaded instances are allocated. -/
  allocated : ∀ entry ∈ node.loaded, (node.instances entry.comp).isSome
  /-- No instance is loaded twice. -/
  distinct : (node.loaded.map (·.comp)).Nodup
  /-- The list of a thread has what the table puts there. -/
  hosted : ∀ thread, (node.components thread).Perm (hosted node.loaded thread)
  /-- The list of a thread fits. -/
  room : ∀ thread, (node.components thread).length ≤ maxCompPerThread

/-- A registry entry has no provider, or a loaded one that provides its service. -/
def Backed (node : NodeState) (entry : ServiceEntry) : Prop :=
  (entry.localProvider = none ∧ entry.localThread = none) ∨
    ∃ info ∈ node.loaded,
      entry.localProvider = some info.comp ∧ entry.localThread = some info.ownerThread ∧
        ∃ svc ∈ node.manifest.localServices (node.idOf info.comp), svc.serviceId = entry.serviceId

/-- The service registry names loaded providers. -/
structure Registered (node : NodeState) : Prop where
  /-- One entry for each service. -/
  unique : UniqueServices node.registry
  /-- Each entry is backed. -/
  backed : ∀ entry ∈ node.registry, node.Backed entry

/-- The timer heaps name loaded owners. -/
structure Attended (node : NodeState) : Prop where
  /-- Heaps and timer objects are linked. -/
  linked : node.sys.Linked
  /-- A running timer has a loaded owner on its thread. -/
  owned : ∀ ref timer, node.sys.timer ref = some timer → timer.isRunning = true →
    ∃ info ∈ node.loaded,
      timer.owner = some info.comp ∧ timer.ownerThread = some info.ownerThread

/-- The four structures agree. -/
structure Sound (node : NodeState) : Prop where
  /-- Table and component lists. -/
  listed : node.Listed
  /-- Service registry. -/
  registered : node.Registered
  /-- Timer heaps. -/
  attended : node.Attended

/-! ## The table of loaded components -/

theorem mem_hosted {loaded : List LoadedComp} {thread : ThreadRef} {comp : CompRef} :
    comp ∈ hosted loaded thread ↔
      ∃ entry ∈ loaded, entry.comp = comp ∧ entry.ownerThread = thread := by
  simp only [hosted, List.mem_map, List.mem_filter, decide_eq_true_eq]
  constructor
  · rintro ⟨entry, ⟨member, same⟩, rfl⟩
    exact ⟨entry, member, rfl, same⟩
  · rintro ⟨entry, member, rfl, same⟩
    exact ⟨entry, ⟨member, same⟩, rfl⟩

theorem hosted_perm {loaded other : List LoadedComp} (perm : loaded.Perm other)
    (thread : ThreadRef) : (hosted loaded thread).Perm (hosted other thread) :=
  (perm.filter _).map _

theorem hosted_cons_self (entry : LoadedComp) (loaded : List LoadedComp) :
    hosted (entry :: loaded) entry.ownerThread = entry.comp :: hosted loaded entry.ownerThread := by
  simp [hosted]

theorem hosted_cons_other (entry : LoadedComp) (loaded : List LoadedComp) {thread : ThreadRef}
    (different : entry.ownerThread ≠ thread) :
    hosted (entry :: loaded) thread = hosted loaded thread := by
  simp [hosted, different]

theorem hosted_nodup {loaded : List LoadedComp} (distinct : (loaded.map (·.comp)).Nodup)
    (thread : ThreadRef) : (hosted loaded thread).Nodup :=
  distinct.sublist (List.filter_sublist.map _)

section Listed

variable {node : NodeState}

theorem Listed.mem_components (listed : node.Listed) {entry : LoadedComp}
    (member : entry ∈ node.loaded) : entry.comp ∈ node.components entry.ownerThread :=
  (listed.hosted entry.ownerThread).mem_iff.mpr (mem_hosted.mpr ⟨entry, member, rfl, rfl⟩)

theorem Listed.findThreadOfComponent (listed : node.Listed) {self : CompRef} {thread : ThreadRef}
    (located : node.sys.findThreadOfComponent self = some thread) :
    ∃ entry ∈ node.loaded, entry.comp = self ∧ entry.ownerThread = thread := by
  have member := List.find?_some located
  simp only [decide_eq_true_eq] at member
  exact mem_hosted.mp ((listed.hosted thread).mem_iff.mp member)

end Listed

/-! ## Changes of timers and queues only -/

/-- Table, component lists and registry are the same. -/
structure Quiet (before after : NodeState) : Prop where
  manifest : after.manifest = before.manifest
  instances : after.instances = before.instances
  loaded : after.loaded = before.loaded
  registry : after.registry = before.registry
  components : ∀ thread, after.components thread = before.components thread

theorem Quiet.refl (node : NodeState) : Quiet node node := ⟨rfl, rfl, rfl, rfl, fun _ => rfl⟩

theorem Quiet.trans {before middle after : NodeState} (first : Quiet before middle)
    (second : Quiet middle after) : Quiet before after where
  manifest := second.manifest.trans first.manifest
  instances := second.instances.trans first.instances
  loaded := second.loaded.trans first.loaded
  registry := second.registry.trans first.registry
  components thread := (second.components thread).trans (first.components thread)

theorem Quiet.listed {before after : NodeState} (quiet : Quiet before after)
    (listed : before.Listed) : after.Listed where
  allocated := by
    rw [quiet.loaded, quiet.instances]
    exact listed.allocated
  distinct := by
    rw [quiet.loaded]
    exact listed.distinct
  hosted thread := by
    rw [quiet.loaded, quiet.components thread]
    exact listed.hosted thread
  room thread := by
    rw [quiet.components thread]
    exact listed.room thread

theorem Quiet.registered {before after : NodeState} (quiet : Quiet before after)
    (registered : before.Registered) : after.Registered where
  unique := by
    rw [quiet.registry]
    exact registered.unique
  backed := by
    intro entry member
    rw [quiet.registry] at member
    have sameId (comp : CompRef) : after.idOf comp = before.idOf comp := by
      rw [idOf, quiet.instances, ← idOf]
    unfold Backed
    simp only [quiet.loaded, quiet.manifest, sameId]
    exact registered.backed entry member

/-- Where only timers and queues change, only the timers are to be checked. -/
theorem Sound.of_quiet {before after : NodeState} (sound : before.Sound)
    (quiet : Quiet before after) (attended : after.Attended) : after.Sound :=
  ⟨quiet.listed sound.listed, quiet.registered sound.registered, attended⟩

/-! ## Calls of components -/

theorem nosServiceMsgSend_sys (node : NodeState) (header : Header) :
    (node.nosServiceMsgSend header).sys = node.sys := by
  unfold nosServiceMsgSend
  split
  · split <;> rfl
  · rfl

theorem nosServiceMsgSend_quiet (node : NodeState) (header : Header) :
    Quiet node (node.nosServiceMsgSend header) := by
  unfold nosServiceMsgSend
  split
  · split
    · exact Quiet.refl node
    · exact ⟨rfl, rfl, rfl, rfl, fun _ => rfl⟩
  · exact Quiet.refl node

theorem call_quiet {before after : NodeState} {made : Call} (called : before.call made = some after) :
    Quiet before after := by
  cases made with
  | createTimer ref callback arg =>
      obtain ⟨sys, created, rfl⟩ := Option.map_eq_some_iff.mp called
      obtain ⟨-, timer, -, -, rfl⟩ := TimerSys.nosTimerCreate_cases created
      exact ⟨rfl, rfl, rfl, rfl, fun _ => rfl⟩
  | startTimer self ref intervalMs isPeriodic now =>
      obtain ⟨⟨sys, status⟩, started, rfl⟩ := Option.map_eq_some_iff.mp called
      cases TimerSys.nosTimerStart_result started with
      | refused => exact Quiet.refl before
      | armed => exact ⟨rfl, rfl, rfl, rfl, fun place => TimerSys.insertTimer_components _ _ place _ _⟩
  | send header =>
      obtain rfl := Option.some.inj called
      exact nosServiceMsgSend_quiet before header

theorem Sound.call_attended {before after : NodeState} (sound : before.Sound) {made : Call}
    (called : before.call made = some after) : after.Attended := by
  cases made with
  | createTimer ref callback arg =>
      obtain ⟨sys, created, rfl⟩ := Option.map_eq_some_iff.mp called
      refine ⟨(TimerSys.nosTimerCreate_keeps created).linked sound.attended.linked, ?_⟩
      obtain ⟨-, timer, idle, -, rfl⟩ := TimerSys.nosTimerCreate_cases created
      intro other object found running
      rcases eq_or_ne other ref with rfl | different
      · obtain rfl : timer = object := by simpa using found
        exact absurd running (by simp [idle])
      · exact sound.attended.owned other object (by
          rwa [TimerSys.setTimer_other _ _ different] at found) running
  | startTimer self ref intervalMs isPeriodic now =>
      obtain ⟨⟨sys, status⟩, started, rfl⟩ := Option.map_eq_some_iff.mp called
      refine ⟨(TimerSys.nosTimerStart_keeps started).linked sound.attended.linked, ?_⟩
      cases TimerSys.nosTimerStart_result started with
      | refused => exact sound.attended.owned
      | @armed thread ref timer armed located found idle _ _ owner home =>
          intro other object found' running
          simp only [TimerSys.insertTimer_timer] at found'
          rcases eq_or_ne other ref with rfl | different
          · obtain rfl : armed = object := by simpa using found'
            obtain ⟨entry, member, rfl, rfl⟩ := sound.listed.findThreadOfComponent located
            exact ⟨entry, member, owner, home⟩
          · exact sound.attended.owned other object (by
              rwa [TimerSys.setTimer_other _ _ different] at found') running
  | send header =>
      obtain rfl := Option.some.inj called
      have same := nosServiceMsgSend_sys before header
      have quiet := nosServiceMsgSend_quiet before header
      exact ⟨same ▸ sound.attended.linked, same ▸ quiet.loaded ▸ sound.attended.owned⟩

theorem Sound.call {before after : NodeState} (sound : before.Sound) {made : Call}
    (called : before.call made = some after) : after.Sound :=
  sound.of_quiet (call_quiet called) (sound.call_attended called)

theorem Sound.calls {before after : NodeState} (sound : before.Sound) {made : List Call}
    (called : before.calls made = some after) : after.Sound := by
  induction made generalizing before with
  | nil =>
      obtain rfl := Option.some.inj called
      exact sound
  | cons first rest ih =>
      obtain ⟨next, step, called⟩ := Option.bind_eq_some_iff.mp called
      exact ih (sound.call step) called

theorem calls_quiet {before after : NodeState} {made : List Call}
    (called : before.calls made = some after) : Quiet before after := by
  induction made generalizing before with
  | nil =>
      obtain rfl := Option.some.inj called
      exact Quiet.refl before
  | cons first rest ih =>
      obtain ⟨next, step, called⟩ := Option.bind_eq_some_iff.mp called
      exact (call_quiet step).trans (ih called)

/-- The timer object is the given one, or runs again. -/
def Settled (node : NodeState) (ref : TimerRef) (timer : Timer) : Prop :=
  ∃ object, node.sys.timer ref = some object ∧ (object = timer ∨ object.isRunning = true)

theorem Settled.call {before after : NodeState} {ref : TimerRef} {timer : Timer}
    (settled : before.Settled ref timer) {made : Call} (called : before.call made = some after) :
    after.Settled ref timer := by
  obtain ⟨object, found, same⟩ := settled
  cases made with
  | createTimer other callback arg =>
      obtain ⟨sys, created, rfl⟩ := Option.map_eq_some_iff.mp called
      obtain ⟨missing, fresh, -, -, rfl⟩ := TimerSys.nosTimerCreate_cases created
      have different : ref ≠ other := by
        rintro rfl
        simp [missing] at found
      exact ⟨object, (TimerSys.setTimer_other _ _ different).trans found, same⟩
  | startTimer self other intervalMs isPeriodic now =>
      obtain ⟨⟨sys, status⟩, started, rfl⟩ := Option.map_eq_some_iff.mp called
      cases TimerSys.nosTimerStart_result started with
      | refused => exact ⟨object, found, same⟩
      | @armed thread other old armed _ _ _ _ running _ _ =>
          rcases eq_or_ne ref other with rfl | different
          · exact ⟨armed, TimerSys.setTimer_self _ _ _, Or.inr running⟩
          · exact ⟨object, (TimerSys.setTimer_other _ _ different).trans found, same⟩
  | send header =>
      obtain rfl := Option.some.inj called
      exact ⟨object, (nosServiceMsgSend_sys before header).symm ▸ found, same⟩

theorem Settled.calls {before after : NodeState} {ref : TimerRef} {timer : Timer}
    (settled : before.Settled ref timer) {made : List Call}
    (called : before.calls made = some after) : after.Settled ref timer := by
  induction made generalizing before with
  | nil =>
      obtain rfl := Option.some.inj called
      exact settled
  | cons first rest ih =>
      obtain ⟨next, step, called⟩ := Option.bind_eq_some_iff.mp called
      exact ih (settled.call step) called

/-! ## Turns of a thread -/

theorem Sound.withQueue {node : NodeState} (sound : node.Sound)
    (queue : ThreadRef → List Header) : Sound { node with queue := queue } :=
  sound.of_quiet ⟨rfl, rfl, rfl, rfl, fun _ => rfl⟩
    ⟨sound.attended.linked, sound.attended.owned⟩

theorem Sound.setStatus {node : NodeState} (sound : node.Sound) (comp : CompRef)
    (status : CompStatus) : (node.setStatus comp status).Sound :=
  have linked := sound.attended.linked
  sound.of_quiet ⟨rfl, rfl, rfl, rfl, fun _ => rfl⟩
    ⟨⟨linked.armed, linked.running, linked.distinct⟩, sound.attended.owned⟩

theorem Sound.processThreadMessages {before after : NodeState} (sound : before.Sound)
    {thread : ThreadRef} {made : List (List Call)}
    (processed : NodeState.processThreadMessages thread made before = some after) :
    after.Sound := by
  induction made generalizing before with
  | nil =>
      unfold NodeState.processThreadMessages at processed
      split at processed
      · obtain rfl := Option.some.inj processed
        exact sound
      · simp at processed
  | cons first later ih =>
      unfold NodeState.processThreadMessages at processed
      split at processed
      · obtain rfl := Option.some.inj processed
        exact sound
      · obtain ⟨next, called, processed⟩ := Option.bind_eq_some_iff.mp processed
        exact ih ((sound.withQueue _).calls called) processed

theorem Sound.startPendingComponents {before after : NodeState} (sound : before.Sound)
    {comps : List CompRef} {runs : List (List Call × Bool)}
    (started : NodeState.startPendingComponents comps runs before = some after) :
    after.Sound := by
  induction comps generalizing before runs with
  | nil =>
      obtain rfl := Option.some.inj started
      exact sound
  | cons comp comps ih =>
      unfold NodeState.startPendingComponents at started
      split at started
      · cases runs with
        | nil => simp at started
        | cons first later =>
            obtain ⟨made, ok⟩ := first
            obtain ⟨next, called, started⟩ := Option.bind_eq_some_iff.mp started
            exact ih ((sound.calls called).setStatus _ _) started
      · exact ih sound started

/-- A timer runs again when `process_timers` is about to put it back. -/
def runsAgain (node : NodeState) (ref : TimerRef) : Bool :=
  (node.sys.timer ref).any fun timer =>
    timer.isRunning && timer.isPeriodic && node.sys.ownerActive timer

/-- No callback of these turns leaves its own timer running and periodic. -/
def restartFree (thread : ThreadRef) : List Turn → NodeState → Bool
  | [], _ => true
  | turn :: turns, node =>
      match node.sys.popDue thread turn.now with
      | none => true
      | some (ref, popped) =>
          match fireTimer { node with sys := popped } ref turn.made with
          | none => true
          | some fired =>
              !fired.runsAgain ref &&
                match fired.rearmTimer thread ref turn.rearmed with
                | none => true
                | some rearmed => restartFree thread turns rearmed

/-- The root that is taken out leaves sound structures, and its owner is loaded on the thread. -/
theorem Sound.popDue {node : NodeState} (sound : node.Sound) {thread : ThreadRef} {now : Nat}
    {ref : TimerRef} {popped : TimerSys} (due : node.sys.popDue thread now = some (ref, popped)) :
    Sound { node with sys := popped } ∧
      ∃ timer, popped.timer ref = some timer ∧ timer.isRunning = false ∧
        ∃ info ∈ node.loaded, timer.owner = some info.comp ∧ info.ownerThread = thread ∧
          timer.ownerThread = some thread := by
  obtain ⟨member, timer_eq, lists⟩ := TimerSys.popDue_cases due
  obtain ⟨timer, found, running, home⟩ := sound.attended.linked.armed thread ref member
  obtain ⟨info, listed, owner, place⟩ := sound.attended.owned ref timer found running
  obtain rfl : info.ownerThread = thread := Option.some.inj (place.symm.trans home)
  constructor
  · refine sound.of_quiet ⟨rfl, rfl, rfl, rfl, lists⟩ ⟨(sound.attended.linked.popDue due).1, ?_⟩
    intro other object found' running'
    simp only [timer_eq] at found'
    rcases eq_or_ne other ref with rfl | different
    · rw [TimerSys.setTimer_self, found] at found'
      obtain rfl := Option.some.inj found'
      simp at running'
    · rw [TimerSys.setTimer_other _ _ different] at found'
      exact sound.attended.owned other object found' running'
  · refine ⟨{ timer with isRunning := false }, ?_, rfl, info, listed, owner, rfl, home⟩
    rw [timer_eq, TimerSys.setTimer_self, found]
    rfl

/-- Putting back a timer that does not run and whose owner is loaded on the thread. -/
theorem Sound.rearmTimer {node after : NodeState} (sound : node.Sound) {thread : ThreadRef}
    {ref : TimerRef} {now : Nat} {timer : Timer} {info : LoadedComp}
    (found : node.sys.timer ref = some timer) (idle : timer.isRunning = false)
    (listed : info ∈ node.loaded) (owner : timer.owner = some info.comp)
    (place : info.ownerThread = thread) (home : timer.ownerThread = some thread)
    (rearmed : node.rearmTimer thread ref now = some after) : after.Sound := by
  rw [NodeState.rearmTimer, found, Option.map_some] at rearmed
  obtain rfl := Option.some.inj rearmed
  split
  · have absent := sound.attended.linked.not_mem_of_stopped found idle
    refine sound.of_quiet ⟨rfl, rfl, rfl, rfl, fun other => TimerSys.rearm_components _ _ other _ _ _⟩
      ⟨(TimerSys.rearm_keeps now absent home).linked sound.attended.linked, ?_⟩
    intro other object found' running'
    have renewed : other = ref → object.owner = timer.owner ∧ object.ownerThread = timer.ownerThread := by
      rintro rfl
      unfold TimerSys.rearm at found'
      split at found'
      · rw [TimerSys.setTimer_self] at found'
        obtain rfl := Option.some.inj found'
        exact ⟨rfl, rfl⟩
      · rw [TimerSys.insertTimer_timer, TimerSys.setTimer_self] at found'
        obtain rfl := Option.some.inj found'
        exact ⟨rfl, rfl⟩
    rcases eq_or_ne other ref with same | different
    · obtain ⟨owner_eq, home_eq⟩ := renewed same
      exact ⟨info, listed, owner_eq.trans owner, home_eq.trans (place ▸ home)⟩
    · refine sound.attended.owned other object ?_ running'
      unfold TimerSys.rearm at found'
      split at found'
      · rwa [TimerSys.setTimer_other _ _ different] at found'
      · rwa [TimerSys.insertTimer_timer, TimerSys.setTimer_other _ _ different] at found'
  · exact sound

theorem Sound.fireTimer {node after : NodeState} (sound : node.Sound) {ref : TimerRef}
    {timer : Timer} (found : node.sys.timer ref = some timer) {made : List Call}
    (fired : NodeState.fireTimer node ref made = some after) :
    after.Sound ∧ Quiet node after ∧ after.Settled ref timer := by
  have settled : node.Settled ref timer := ⟨timer, found, Or.inl rfl⟩
  simp only [NodeState.fireTimer, found] at fired
  split at fired
  · exact ⟨sound.calls fired, calls_quiet fired, settled.calls fired⟩
  · obtain rfl := Option.some.inj fired
    exact ⟨sound, Quiet.refl node, settled⟩

/-- Turns whose callbacks do not leave their own timer running and periodic. -/
theorem Sound.processTimers {before after : NodeState} (sound : before.Sound)
    {thread : ThreadRef} {turns : List Turn} (free : restartFree thread turns before = true)
    (processed : NodeState.processTimers thread turns before = some after) : after.Sound := by
  induction turns generalizing before with
  | nil => simp [NodeState.processTimers] at processed
  | cons turn turns ih =>
      unfold NodeState.processTimers at processed
      unfold restartFree at free
      split at processed
      · obtain rfl := Option.some.inj processed
        exact sound
      · rename_i ref popped due
        obtain ⟨fired, fires, processed⟩ := Option.bind_eq_some_iff.mp processed
        obtain ⟨rearmed, rearms, processed⟩ := Option.bind_eq_some_iff.mp processed
        simp only [due, fires, rearms, Bool.and_eq_true, Bool.not_eq_true'] at free
        obtain ⟨calm, free⟩ := free
        obtain ⟨sound', timer, found, idle, info, listed, owner, place, home⟩ := sound.popDue due
        obtain ⟨sound'', quiet, object, found', same⟩ := sound'.fireTimer found fires
        refine ih ?_ free processed
        rcases same with rfl | running
        · exact sound''.rearmTimer found' idle (quiet.loaded.symm ▸ listed) owner place home rearms
        · have once : (object.isPeriodic && fired.sys.ownerActive object) = false := by
            simpa [runsAgain, found', running] using calm
          rw [NodeState.rearmTimer, found', Option.map_some, once] at rearms
          obtain rfl := Option.some.inj rearms
          exact sound''

/-! ## Stopping an instance -/

/-- After its timers are cancelled no running timer has the owner. -/
theorem Attended.cancel {node : NodeState} (attended : node.Attended)
    (distinct : (node.loaded.map (·.comp)).Nodup) {info : LoadedComp} (member : info ∈ node.loaded) :
    Attended (node.nosSchedulerCancelTimersByOwner info.ownerThread info.comp) ∧
      ∀ ref timer,
        (node.nosSchedulerCancelTimersByOwner info.ownerThread info.comp).sys.timer ref =
            some timer →
          timer.isRunning = true → timer.owner ≠ some info.comp := by
  have linked := attended.linked
  rw [nosSchedulerCancelTimersByOwner]
  have before {ref : TimerRef} {timer : Timer} (running : timer.isRunning = true)
      (found : (node.sys.nosSchedulerCancelTimersByOwner info.ownerThread info.comp).timer ref =
        some timer) :
      node.sys.timer ref = some timer ∧
        ¬ (ref ∈ node.sys.nodes info.ownerThread ∧ node.sys.ownedBy info.comp ref = true) := by
    rw [TimerSys.cancel_timer] at found
    split at found
    · obtain ⟨object, -, rfl⟩ := Option.map_eq_some_iff.mp found
      simp [TimerSys.disarm] at running
    · rename_i stays
      exact ⟨found, stays⟩
  refine ⟨⟨linked.cancel _ _, ?_⟩, ?_⟩
  · intro ref timer found running
    exact attended.owned ref timer (before running found).1 running
  · intro ref timer found running owner
    obtain ⟨found', stays⟩ := before running found
    obtain ⟨other, member', owner', home⟩ := attended.owned ref timer found' running
    obtain rfl : other = info :=
      List.inj_on_of_nodup_map distinct member' member
        (Option.some.inj (owner'.symm.trans owner))
    obtain ⟨place, home', inside⟩ := linked.running ref timer found' running
    obtain rfl : other.ownerThread = place := Option.some.inj (home.symm.trans home')
    exact stays ⟨inside, by simp [TimerSys.ownedBy, found', owner]⟩

theorem nodeStopComponentInstance_quiet (node : NodeState) (entry : LoadedComp) :
    Quiet node (node.nodeStopComponentInstance entry) :=
  ⟨rfl, rfl, rfl, rfl, fun thread => TimerSys.cancel_components _ _ thread _⟩

theorem Attended.nodeStopComponentInstance {node : NodeState} (attended : node.Attended)
    (distinct : (node.loaded.map (·.comp)).Nodup) {info : LoadedComp}
    (member : info ∈ node.loaded) :
    (node.nodeStopComponentInstance info).Attended ∧
      ∀ ref timer, (node.nodeStopComponentInstance info).sys.timer ref = some timer →
        timer.isRunning = true → timer.owner ≠ some info.comp := by
  have linked := attended.linked
  have attended' : Attended
      ((node.setStatus info.comp .stopped).nosSchedulerDropMessagesForProvider info.ownerThread
        info.comp) := ⟨⟨linked.armed, linked.running, linked.distinct⟩, attended.owned⟩
  exact attended'.cancel distinct member

/-! ## Unloading -/

theorem Attended.setComponents {node : NodeState} (attended : node.Attended) (thread : ThreadRef)
    (comps : List CompRef) : (node.setComponents thread comps).Attended :=
  ⟨attended.linked.setComponents thread comps, attended.owned⟩

theorem Listed.remove {node : NodeState} (listed : node.Listed) {entry : LoadedComp}
    {rest : List LoadedComp} (split : node.loaded.Perm (entry :: rest)) {comps : List CompRef}
    (taken : (node.components entry.ownerThread).Perm (entry.comp :: comps)) (thread : ThreadRef) :
    ((node.setComponents entry.ownerThread comps).components thread).Perm (NodeState.hosted rest thread) ∧
      ((node.setComponents entry.ownerThread comps).components thread).length ≤ maxCompPerThread := by
  have before := (listed.hosted thread).trans (hosted_perm split thread)
  rcases eq_or_ne thread entry.ownerThread with rfl | different
  · rw [setComponents_components]
    constructor
    · rw [hosted_cons_self] at before
      exact (taken.symm.trans before).cons_inv
    · have fits := listed.room entry.ownerThread
      rw [taken.length_eq, List.length_cons] at fits
      omega
  · rw [setComponents_components_other _ _ different]
    exact ⟨(hosted_cons_other _ rest different.symm) ▸ before, listed.room thread⟩

/-- A backed entry of another service is not backed by an instance that left the table. -/
theorem Backed.of_other {node after : NodeState} {entry : ServiceEntry} {removed : LoadedComp}
    (backed : node.Backed entry)
    (services : ∀ svc ∈ node.manifest.localServices (node.idOf removed.comp),
      svc.serviceId ≠ entry.serviceId)
    (manifest : after.manifest = node.manifest)
    (kept : ∀ info ∈ node.loaded, info.comp ≠ removed.comp →
      info ∈ after.loaded ∧ after.idOf info.comp = node.idOf info.comp) :
    after.Backed entry := by
  rcases backed with none | ⟨info, member, provider, thread, svc, provides, same⟩
  · exact Or.inl none
  · have different : info.comp ≠ removed.comp := by
      intro equal
      rw [equal] at provides
      exact services svc provides same
    obtain ⟨member', sameId⟩ := kept info member different
    refine Or.inr ⟨info, member', provider, thread, svc, ?_, same⟩
    rwa [sameId, manifest]

theorem Sound.nodeUnloadComponent {node : NodeState} (sound : node.Sound) (name : String) :
    (node.nodeUnloadComponent name).1.Sound := by
  unfold NodeState.nodeUnloadComponent
  split
  · exact sound
  · rename_i index found
    have member : node.loaded[index] ∈ node.loaded := List.getElem_mem index.isLt
    have split := (List.getElem_cons_eraseIdx_perm index.isLt).symm
    have remaining {info : LoadedComp} : info ∈ node.loaded.eraseIdx index ↔
        info ∈ node.loaded ∧ info.comp ≠ node.loaded[index].comp :=
      mem_eraseIdx_iff_of_unique sound.listed.distinct
    change node.loaded.Perm (node.loaded[index] :: node.loaded.eraseIdx index) at split
    generalize entry_eq : node.loaded[index] = entry at member split remaining
    obtain ⟨comps, unlisted, taken⟩ :=
      nosSchedulerUnregisterComponent_eq (sound.listed.mem_components member)
    obtain ⟨registry, unused, unbound, unique, entries⟩ :=
      @unbindServices_spec (node.setComponents entry.ownerThread comps)
        (node.manifest.localServices (node.idOf entry.comp)) sound.registered.unique
    let middle : NodeState :=
      { node.setComponents entry.ownerThread comps with
        registry := registry
        unusedEntries := unused }
    have moved := sound.attended.setComponents entry.ownerThread comps
    have attended : middle.Attended := ⟨moved.linked, moved.owned⟩
    have quiet := nodeStopComponentInstance_quiet middle entry
    obtain ⟨stopped, unowned⟩ := attended.nodeStopComponentInstance sound.listed.distinct member
    simp only [unlisted, show
      (node.setComponents entry.ownerThread comps).nodeUnregisterLocalProviders
        ((node.setComponents entry.ownerThread comps).idOf entry.comp) = middle from unbound]
    refine ⟨⟨?_, ?_, ?_, ?_⟩, ⟨unique, ?_⟩, ⟨?_, ?_⟩⟩
    · intro info listed
      obtain ⟨old, different⟩ := remaining.mp listed
      change (Function.update node.instances entry.comp none info.comp).isSome = true
      rw [Function.update_of_ne different]
      exact sound.listed.allocated info old
    · exact sound.listed.distinct.sublist ((List.eraseIdx_sublist _ _).map _)
    · intro thread
      refine (List.Perm.of_eq (quiet.components thread)).trans ?_
      exact (sound.listed.remove split taken thread).1
    · intro thread
      refine (congrArg List.length (quiet.components thread)).le.trans ?_
      exact (sound.listed.remove split taken thread).2
    · intro svcEntry listed
      obtain ⟨old, others⟩ := entries svcEntry listed
      refine (sound.registered.backed svcEntry old).of_other others rfl ?_
      intro info listed' different
      refine ⟨remaining.mpr ⟨listed', different⟩, ?_⟩
      change ((Function.update node.instances entry.comp none info.comp).map _).getD 0 = _
      rw [Function.update_of_ne different]
      rfl
    · exact ⟨stopped.linked.armed, stopped.linked.running, stopped.linked.distinct⟩
    · intro ref timer found running
      obtain ⟨info, listed, owner, home⟩ := stopped.owned ref timer found running
      refine ⟨info, remaining.mpr ⟨listed, ?_⟩, owner, home⟩
      intro same
      exact unowned ref timer found running (same ▸ owner)

/-! ## Reloading -/

/-- The old instance is on its thread and leaves room for the new one, so that a reload never goes
back after it loaded the new instance. -/
theorem Listed.swap {node : NodeState} (listed : node.Listed) {entry : LoadedComp}
    (member : entry ∈ node.loaded) (comp : CompRef) :
    ∃ comps, node.nosSchedulerUnregisterComponent entry.ownerThread entry.comp =
        (node.setComponents entry.ownerThread comps, .ok) ∧
      (node.components entry.ownerThread).Perm (entry.comp :: comps) ∧
      (node.setComponents entry.ownerThread comps).nosSchedulerRegisterComponent
          entry.ownerThread comp =
        ((node.setComponents entry.ownerThread comps).setComponents entry.ownerThread
          (comps ++ [comp]), .ok) := by
  obtain ⟨comps, unlisted, taken⟩ :=
    nosSchedulerUnregisterComponent_eq (listed.mem_components member)
  have fits := listed.room entry.ownerThread
  rw [taken.length_eq, List.length_cons] at fits
  have room : ((node.setComponents entry.ownerThread comps).components entry.ownerThread).length <
      maxCompPerThread := by
    rw [setComponents_components]
    omega
  have registered := nosSchedulerRegisterComponent_eq room comp
  rw [setComponents_components] at registered
  exact ⟨comps, unlisted, taken, registered⟩

theorem Listed.stage {node : NodeState} (listed : node.Listed) (comp : CompRef) (inst : Instance) :
    Listed (NodeState.setStatus
      { node with instances := Function.update node.instances comp (some inst) } comp .inited) := by
  refine ⟨?_, listed.distinct, listed.hosted, listed.room⟩
  intro info loaded
  change (Function.update node.instances comp (some inst) info.comp).isSome = true
  rcases eq_or_ne info.comp comp with same | different
  · simp [same]
  · rw [Function.update_of_ne different]
    exact listed.allocated info loaded

theorem nodeLoadComponentStaged_cases {node staged : NodeState} {id : UInt32} {name : String}
    {outcome : LoadOutcome} {loaded : Option CompRef}
    (done : node.nodeLoadComponentStaged id name outcome = some (staged, loaded)) :
    (loaded = none ∧ staged = node) ∨
      ∃ comp inst, loaded = some comp ∧ node.instances comp = none ∧ inst.id = id ∧
        staged = NodeState.setStatus
          { node with instances := Function.update node.instances comp (some inst) }
          comp .inited := by
  cases outcome with
  | failed =>
      obtain ⟨rfl, rfl⟩ := Prod.mk.inj (Option.some.inj done)
      exact Or.inl ⟨rfl, rfl⟩
  | staged comp onMsg =>
      simp only [nodeLoadComponentStaged] at done
      split at done
      · simp at done
      · rename_i free
        obtain ⟨rfl, rfl⟩ := Prod.mk.inj (Option.some.inj done)
        exact Or.inr ⟨comp, _, rfl, free, rfl, rfl⟩

theorem Sound.replace {node : NodeState} (sound : node.Sound) {index : Fin node.loaded.length}
    {entry : LoadedComp} (entry_eq : node.loaded.get index = entry) {comp : CompRef} {inst : Instance}
    (free : node.instances comp = none) (sameId : inst.id = node.idOf entry.comp)
    {comps : List CompRef} (taken : (node.components entry.ownerThread).Perm (entry.comp :: comps))
    {registry unused : List ServiceEntry} (unique : UniqueServices registry)
    (entries : ∀ svcEntry ∈ registry,
      (svcEntry ∈ node.registry ∧ ∀ svc ∈ node.manifest.localServices (node.idOf entry.comp),
        svc.serviceId ≠ svcEntry.serviceId) ∨
      (∃ svc ∈ node.manifest.localServices (node.idOf entry.comp),
        svc.serviceId = svcEntry.serviceId) ∧
        svcEntry.localProvider = some comp ∧ svcEntry.localThread = some entry.ownerThread)
    {middle : NodeState}
    (middle_eq : middle =
      { (((NodeState.setStatus
          { node with instances := Function.update node.instances comp (some inst) }
          comp .inited).setComponents entry.ownerThread comps).setComponents entry.ownerThread
            (comps ++ [comp])) with
        loaded := node.loaded.set index { entry with comp := comp }
        registry := registry
        unusedEntries := unused }) :
    Sound
      { middle.nodeStopComponentInstance entry with
        instances := Function.update middle.instances entry.comp none } := by
  have member : entry ∈ node.loaded := entry_eq ▸ List.getElem_mem index.isLt
  have fresh : ∀ info ∈ node.loaded, info.comp ≠ comp := by
    intro info listed same
    have allocated := sound.listed.allocated info listed
    simp [same, free] at allocated
  have remaining {info : LoadedComp} : info ∈ middle.loaded ↔
      info = { entry with comp := comp } ∨ info ∈ node.loaded ∧ info.comp ≠ entry.comp := by
    rw [middle_eq, ← entry_eq]
    exact mem_set_iff_of_unique sound.listed.distinct
  have instances_eq {other : CompRef} (different : other ≠ entry.comp) (new : other ≠ comp) :
      Function.update middle.instances entry.comp none other = node.instances other := by
    rw [Function.update_of_ne different, middle_eq]
    exact Function.update_of_ne new _ _
  have new_ne : comp ≠ entry.comp := (fresh entry member).symm
  have old : Attended { middle with loaded := node.loaded } := by
    rw [middle_eq]
    have linked := ((sound.setStatus comp .inited).attended.linked.setComponents entry.ownerThread
      comps).setComponents entry.ownerThread (comps ++ [comp])
    exact ⟨linked, sound.attended.owned⟩
  have loaded_perm :
      middle.loaded.Perm ({ entry with comp := comp } :: node.loaded.eraseIdx index) := by
    rw [middle_eq]
    exact List.set_perm_cons_eraseIdx index.isLt _
  have split : node.loaded.Perm (entry :: node.loaded.eraseIdx index) :=
    entry_eq ▸ (List.getElem_cons_eraseIdx_perm index.isLt).symm
  have lists (thread : ThreadRef) :
      (middle.components thread).Perm (NodeState.hosted middle.loaded thread) ∧
        (middle.components thread).length ≤ maxCompPerThread := by
    have left := sound.listed.remove split taken thread
    have joined := hosted_perm loaded_perm thread
    rcases eq_or_ne thread entry.ownerThread with rfl | different
    · have here : middle.components entry.ownerThread = comps ++ [comp] := by
        rw [middle_eq]
        exact setComponents_components _ _ _
      rw [setComponents_components] at left
      rw [here]
      constructor
      · refine (List.perm_append_singleton comp comps).trans ?_
        refine (left.1.cons comp).trans ?_
        exact (joined.trans (List.Perm.of_eq (hosted_cons_self _ _))).symm
      · have fits := sound.listed.room entry.ownerThread
        rw [taken.length_eq, List.length_cons] at fits
        rwa [List.length_append, List.length_singleton]
    · have there : middle.components thread = node.components thread := by
        rw [middle_eq]
        exact (setComponents_components_other _ _ different).trans
          (setComponents_components_other _ _ different)
      rw [setComponents_components_other _ _ different] at left
      rw [there]
      refine ⟨left.1.trans ?_, left.2⟩
      exact (joined.trans (List.Perm.of_eq (hosted_cons_other _ _ different.symm))).symm
  have quiet := nodeStopComponentInstance_quiet middle entry
  obtain ⟨stopped, unowned⟩ := old.nodeStopComponentInstance sound.listed.distinct member
  refine ⟨⟨?_, ?_, ?_, ?_⟩, ⟨?_, ?_⟩, ⟨stopped.linked, ?_⟩⟩
  · intro info listed
    change (Function.update middle.instances entry.comp none info.comp).isSome = true
    rcases remaining.mp listed with rfl | ⟨listed', different⟩
    · rw [Function.update_of_ne new_ne, middle_eq]
      simp [setComponents, NodeState.setStatus]
    · rw [instances_eq different (fresh info listed')]
      exact sound.listed.allocated info listed'
  · change (middle.loaded.map (·.comp)).Nodup
    rw [(loaded_perm.map (·.comp)).nodup_iff, List.map_cons,
      List.nodup_cons]
    have unique' := sound.listed.distinct
    rw [(split.map (·.comp)).nodup_iff, List.map_cons, List.nodup_cons] at unique'
    refine ⟨?_, unique'.2⟩
    intro present
    obtain ⟨info, listed, same⟩ := List.mem_map.mp present
    exact fresh info (List.mem_of_mem_eraseIdx listed) same
  · intro thread
    exact (List.Perm.of_eq (quiet.components thread)).trans (lists thread).1
  · intro thread
    exact (congrArg List.length (quiet.components thread)).le.trans (lists thread).2
  · rw [quiet.registry, middle_eq]
    exact unique
  · intro svcEntry listed
    have listed' : svcEntry ∈ registry := by
      rw [quiet.registry, middle_eq] at listed
      exact listed
    have manifest_eq : middle.manifest = node.manifest := by
      rw [middle_eq]
      rfl
    rcases entries svcEntry listed' with ⟨kept, others⟩ | ⟨⟨svc, provides, same⟩, provider, thread⟩
    · refine (sound.registered.backed svcEntry kept).of_other others manifest_eq ?_
      intro info loaded different
      refine ⟨remaining.mpr (Or.inr ⟨loaded, different⟩), ?_⟩
      change ((Function.update middle.instances entry.comp none info.comp).map _).getD 0 = _
      rw [instances_eq different (fresh info loaded)]
      rfl
    · refine Or.inr ⟨_, remaining.mpr (Or.inl rfl), provider, thread, svc, ?_, same⟩
      change svc ∈ middle.manifest.localServices
        (((Function.update middle.instances entry.comp none comp).map _).getD 0)
      rw [Function.update_of_ne new_ne, manifest_eq, middle_eq]
      simpa [setComponents, NodeState.setStatus, sameId] using provides
  · intro ref timer found running
    obtain ⟨info, listed, owner, home⟩ := stopped.owned ref timer found running
    refine ⟨info, remaining.mpr (Or.inr ⟨listed, ?_⟩), owner, home⟩
    intro same
    exact unowned ref timer found running (same ▸ owner)

/-- A reload fails and changes nothing, or succeeds and keeps the structures sound. -/
theorem Sound.nodeReloadComponent {node after : NodeState} (sound : node.Sound) {name : String}
    {outcome : LoadOutcome} {status : Status}
    (reloaded : node.nodeReloadComponent name outcome = some (after, status)) :
    (status = .err ∧ after = node) ∨ (status = .ok ∧ after.Sound) := by
  unfold NodeState.nodeReloadComponent at reloaded
  split at reloaded
  · obtain ⟨rfl, rfl⟩ := Prod.mk.inj (Option.some.inj reloaded)
    exact Or.inl ⟨rfl, rfl⟩
  · rename_i index found
    generalize entry_eq : node.loaded[index] = entry at reloaded
    have member : entry ∈ node.loaded := entry_eq ▸ List.getElem_mem index.isLt
    dsimp only at reloaded
    split at reloaded
    · simp at reloaded
    · rename_i failed loading
      obtain ⟨rfl, rfl⟩ := Prod.mk.inj (Option.some.inj reloaded)
      rcases nodeLoadComponentStaged_cases loading with ⟨-, rfl⟩ | ⟨comp, inst, none_eq, -⟩
      · exact Or.inl ⟨rfl, rfl⟩
      · simp at none_eq
    · rename_i staged comp loading
      rcases nodeLoadComponentStaged_cases loading with
        ⟨none_eq, -⟩ | ⟨comp', inst, some_eq, free, sameId, staged_eq⟩
      · simp at none_eq
      · obtain rfl : comp = comp' := Option.some.inj some_eq
        have listed : staged.Listed := staged_eq ▸ sound.listed.stage comp inst
        have member' : entry ∈ staged.loaded := staged_eq ▸ member
        obtain ⟨comps, unlisted, taken, registered⟩ := listed.swap member' comp
        rw [unlisted] at reloaded
        simp only [nodeSwapComponent, registered] at reloaded
        obtain ⟨rfl, rfl⟩ := Prod.mk.inj (Option.some.inj reloaded)
        refine Or.inr ⟨rfl, ?_⟩
        subst staged_eq
        obtain ⟨registry, unused, bound, unique, entries⟩ :=
          @bindServices_spec
            { (((NodeState.setStatus
                { node with instances := Function.update node.instances comp (some inst) }
                comp .inited).setComponents entry.ownerThread comps).setComponents
                  entry.ownerThread (comps ++ [comp])) with
              loaded := node.loaded.set index { entry with comp := comp } }
            (node.manifest.localServices (node.idOf entry.comp)) comp entry.ownerThread
            sound.registered.unique
        exact sound.replace entry_eq free sameId taken unique entries bound

end NodeState

end CodexNos.Node
