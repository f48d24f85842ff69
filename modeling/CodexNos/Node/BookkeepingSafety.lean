import CodexNos.Lib.Transition
import CodexNos.Node.Startup

/-!
# No dangling instance, no half reload

Every instance in a component list, in the service registry or behind a timer of a heap is in the
table of loaded components, with the same thread; and a reload that fails changes nothing.

One call pattern breaks this.  `nos_timer_start` refuses a timer that is running, but
`process_timers` puts a periodic timer back without that test.  A callback that starts its own timer
as a periodic one leaves it twice in the heap, and cancelling the timers of its owner finds only the
first copy.
-/

namespace CodexNos.Node

open Lib Lib.Transition Messaging Scheduler

namespace NodeState

/-- The instance is loaded on the thread. -/
def IsLoaded (node : NodeState) (comp : CompRef) (thread : ThreadRef) : Prop :=
  ∃ info ∈ node.loaded, info.comp = comp ∧ info.ownerThread = thread

/-- No dangling instance, and no half reload. -/
structure Consistent (node : NodeState) : Prop where
  /-- A loaded instance is exactly once in the list of its thread. -/
  once : ∀ info ∈ node.loaded, (node.components info.ownerThread).count info.comp = 1
  /-- The component lists have loaded instances. -/
  hosted : ∀ thread, ∀ comp ∈ node.components thread, node.IsLoaded comp thread
  /-- The registry entries have no provider or a loaded one. -/
  bound : ∀ entry ∈ node.registry, (entry.localProvider = none ∧ entry.localThread = none) ∨
    ∃ provider thread, entry.localProvider = some provider ∧ entry.localThread = some thread ∧
      node.IsLoaded provider thread
  /-- The timers in a heap have loaded owners. -/
  owned : ∀ thread, ∀ ref ∈ node.sys.nodes thread, ∀ timer, node.sys.timer ref = some timer →
    ∃ owner, timer.owner = some owner ∧ node.IsLoaded owner thread
  /-- A reload that fails changes nothing. -/
  reload : ∀ name outcome after,
    node.nodeReloadComponent name outcome = some (after, .err) → after = node
  /-- A reload that has loaded the new instance does not go back. -/
  forward : ∀ entry ∈ node.loaded, ∀ id name outcome staged comp,
    node.nodeLoadComponentStaged id name outcome = some (staged, some comp) →
      ∃ unlisted registered,
        staged.nosSchedulerUnregisterComponent entry.ownerThread entry.comp = (unlisted, .ok) ∧
          unlisted.nosSchedulerRegisterComponent entry.ownerThread comp = (registered, .ok)

/-- No timer callback leaves the timer that it was called for running and periodic. -/
def NoSelfRestart (node : NodeState) : NodeOp → Prop
  | .processTimers thread turns => restartFree thread turns node = true
  | _ => True

instance (node : NodeState) (op : NodeOp) : Decidable (node.NoSelfRestart op) := by
  cases op with
  | processTimers thread turns => exact inferInstanceAs (Decidable (_ = true))
  | call | processMessages | startPending | unload | reload => exact inferInstanceAs (Decidable True)

theorem Sound.step {node after : NodeState} (sound : node.Sound) {op : NodeOp}
    (calm : node.NoSelfRestart op) (stepped : node.step op = some after) : after.Sound := by
  cases op with
  | call made => exact sound.call stepped
  | processMessages thread made => exact sound.processThreadMessages stepped
  | startPending thread runs => exact sound.startPendingComponents stepped
  | processTimers thread turns => exact sound.processTimers calm stepped
  | unload name =>
      obtain rfl := Option.some.inj stepped
      exact sound.nodeUnloadComponent name
  | reload name outcome =>
      obtain ⟨⟨next, status⟩, reloaded, rfl⟩ := Option.map_eq_some_iff.mp stepped
      rcases sound.nodeReloadComponent reloaded with ⟨-, rfl⟩ | ⟨-, sound'⟩
      · exact sound
      · exact sound'

theorem Sound.consistent {node : NodeState} (sound : node.Sound) : node.Consistent where
  once := by
    intro info member
    refine List.count_eq_one_of_mem ?_ (sound.listed.mem_components member)
    exact (sound.listed.hosted info.ownerThread).nodup_iff.mpr (hosted_nodup sound.listed.distinct _)
  hosted := by
    intro thread comp listed
    exact mem_hosted.mp ((sound.listed.hosted thread).mem_iff.mp listed)
  bound := by
    intro entry member
    rcases sound.registered.backed entry member with none | ⟨info, loaded, provider, thread, -⟩
    · exact Or.inl none
    · exact Or.inr ⟨info.comp, info.ownerThread, provider, thread, info, loaded, rfl, rfl⟩
  owned := by
    intro thread ref member timer found
    obtain ⟨running, home⟩ := sound.attended.linked.node_thread found member
    obtain ⟨info, loaded, owner, home'⟩ := sound.attended.owned ref timer found running
    exact ⟨info.comp, owner, info, loaded, rfl, Option.some.inj (home'.symm.trans home)⟩
  reload := by
    intro name outcome after reloaded
    rcases sound.nodeReloadComponent reloaded with ⟨-, same⟩ | ⟨ok, -⟩
    · exact same
    · simp at ok
  forward := by
    intro entry member id name outcome staged comp staging
    rcases nodeLoadComponentStaged_cases staging with
      ⟨none_eq, -⟩ | ⟨other, inst, -, -, -, staged_eq⟩
    · simp at none_eq
    · have listed : staged.Listed := staged_eq ▸ sound.listed.stage other inst
      have member' : entry ∈ staged.loaded := by
        rw [staged_eq]
        exact member
      obtain ⟨comps, unlisted, -, registered⟩ := listed.swap member' comp
      exact ⟨_, _, unlisted, registered⟩

/-- As long as no timer callback restarts its own timer as a periodic one, no instance dangles and
no reload is half done, in every state between calls. -/
theorem bookkeeping_of_reach {node : NodeState}
    (reach : Reach NodeState.step NoSelfRestart Booted node) : node.Consistent :=
  Sound.consistent <|
    Reach.invariant Sound (fun _ booted => booted.sound)
      (fun _ _ _ sound calm stepped => sound.step calm stepped) reach

/-- Two workers with one component each, of which the first provides a service. -/
def twoWorkers : Manifest where
  name := "n"
  threads := [⟨"w0", [⟨1, "a", "liba.so"⟩]⟩, ⟨"w1", [⟨2, "b", "libb.so"⟩]⟩]
  services := [⟨⟨100, "n", 1⟩, none⟩]

/-- Both components load and start, and the first one arms a timer. -/
def armedTimer (isPeriodic : Bool) : List NodeOp :=
  [.startPending 1 [([], true)], .startPending 2 [([], true)],
    .call (.createTimer 5 (some 0) 0), .call (.startTimer 10 (some 5) 10 isPeriodic 0)]

/-- A component with a periodic timer is reloaded. -/
theorem reloaded_provider_consistent :
    ∃ node : NodeState, node.Consistent ∧ node.components 1 = [30] ∧
      node.registry.map (·.localProvider) = [some 30] ∧ node.sys.nodes 1 = #[] := by
  have execution :
      ((boot twoWorkers [[.staged 10 true], [.staged 20 true]]).bind fun node =>
        (runGuarded NodeState.step NoSelfRestart node
          (armedTimer true ++
            [.processTimers 1 [⟨10, [], 11⟩, ⟨11, [], 0⟩], .reload "a" (.staged 30 true)])).map
          fun node => (node.components 1, node.registry.map (·.localProvider), node.sys.nodes 1)) =
        some ([30], [some 30], #[]) := by
    decide +kernel
  obtain ⟨started, booted, ran⟩ := Option.bind_eq_some_iff.mp execution
  obtain ⟨node, ran, view⟩ := Option.map_eq_some_iff.mp ran
  obtain ⟨comps, view⟩ := Prod.mk.inj view
  obtain ⟨provider, heap⟩ := Prod.mk.inj view
  have reach : Reach NodeState.step NoSelfRestart Booted node :=
    reach_of_runGuarded (.start ⟨twoWorkers, _, booted⟩) ran
  exact ⟨node, bookkeeping_of_reach reach, comps, provider, heap⟩

/-- A callback restarts its own timer as a periodic one, its component is unloaded, and another
component on the second worker takes the timer over: it is still in the heap of the first. -/
theorem restarted_timer_outlives_owner :
    ∃ node : NodeState, Reachable NodeState.step Booted node ∧ ¬ node.Consistent := by
  have execution :
      ((boot twoWorkers [[.staged 10 true], [.staged 20 true]]).bind fun node =>
        (run NodeState.step node
          (armedTimer false ++
            [.processTimers 1 [⟨10, [.startTimer 10 (some 5) 10 true 10], 10⟩, ⟨11, [], 0⟩],
              .unload "a", .call (.startTimer 20 (some 5) 10 true 11)])).map
          fun node => (node.loaded, node.sys.nodes 1, (node.sys.timer 5).isSome)) =
        some ([⟨20, "libb.so", 2⟩], #[5], true) := by
    decide +kernel
  obtain ⟨started, booted, ran⟩ := Option.bind_eq_some_iff.mp execution
  obtain ⟨node, ran, view⟩ := Option.map_eq_some_iff.mp ran
  obtain ⟨loaded, view⟩ := Prod.mk.inj view
  obtain ⟨heap, present⟩ := Prod.mk.inj view
  obtain ⟨timer, found⟩ := Option.isSome_iff_exists.mp present
  refine ⟨node, reachable_of_run (.start ⟨twoWorkers, _, booted⟩) ran, ?_⟩
  intro consistent
  obtain ⟨-, -, info, member, -, place⟩ := consistent.owned 1 5 (by simp [heap]) timer found
  rw [loaded] at member
  obtain rfl := List.mem_singleton.mp member
  simp at place

end NodeState

end CodexNos.Node
