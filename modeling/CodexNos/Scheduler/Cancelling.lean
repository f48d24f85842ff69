import CodexNos.Scheduler.Membership

/-!
# Cancelling the timers of a component

Cancelling compacts the heap array in place and rebuilds the heap.  The scan releases a timer where
it finds it, so a second node of the same timer belongs to nobody and stays.
-/

namespace CodexNos.Scheduler

open Lib Lib.Transition

namespace TimerSys

/-- Cancelling removes exactly the timers of a component. -/
structure CancelsOwned (sys : TimerSys) (thread : ThreadRef) (owner : CompRef) : Prop where
  ordered : BinaryHeap.Ordered (sys.nosSchedulerCancelTimersByOwner thread owner).expireAt
    ((sys.nosSchedulerCancelTimersByOwner thread owner).nodes thread)
  remaining : ∀ ref, ((sys.nosSchedulerCancelTimersByOwner thread owner).nodes thread).count ref =
    if sys.ownedBy owner ref then 0 else (sys.nodes thread).count ref
  deadline : ∀ ref,
    (sys.nosSchedulerCancelTimersByOwner thread owner).expireAt ref = sys.expireAt ref
  released : ∀ ref, (sys.nosSchedulerCancelTimersByOwner thread owner).timer ref =
    if ref ∈ sys.nodes thread ∧ sys.ownedBy owner ref then
      (sys.timer ref).map fun timer =>
        { timer with isRunning := false, owner := none, ownerThread := none }
    else sys.timer ref

theorem cancel_ordered (sys : TimerSys) (thread : ThreadRef) (owner : CompRef) :
    BinaryHeap.Ordered (sys.nosSchedulerCancelTimersByOwner thread owner).expireAt
      ((sys.nosSchedulerCancelTimersByOwner thread owner).nodes thread) := by
  obtain ⟨kept, -, nodes_eq⟩ := cancel_nodes sys thread owner
  rw [cancel_expireAt, nodes_eq]
  exact BinaryHeap.rebuild_half_ordered sys.expireAt kept

/-- Cancelling removes exactly the timers of the component if none of them has two nodes. -/
theorem cancelsOwned_iff (sys : TimerSys) (thread : ThreadRef) (owner : CompRef) :
    sys.CancelsOwned thread owner ↔
      ∀ ref, sys.ownedBy owner ref = true → (sys.nodes thread).count ref ≤ 1 := by
  constructor
  · rintro ⟨-, remaining, -, -⟩ ref mine
    have none_left := remaining ref
    rw [count_cancel, if_pos mine, if_pos mine] at none_left
    exact Nat.sub_eq_zero_iff_le.mp none_left
  · intro once
    refine ⟨cancel_ordered sys thread owner, fun ref => ?_, fun ref => ?_,
      cancel_timer sys thread owner⟩
    · rw [count_cancel]
      split
      · rename_i mine
        exact Nat.sub_eq_zero_of_le (once ref mine)
      · rfl
    · rw [cancel_expireAt]

end TimerSys

namespace FiringSys

/-- Started by its own callback and then put back, a periodic timer has two nodes; one of them stays
when its component stops. -/
theorem second_node_stays :
    ∃ state ops after, FiringSys.Initial state ∧ run FiringSys.step state ops = some after ∧
      ¬ after.sys.CancelsOwned 0 7 := by
  have execution :
      (run FiringSys.step quietThread (restarted true)).map
        (fun after => (after.sys.ownedBy 7 1, (after.sys.nodes 0).count 1)) = some (true, 2) := by
    decide +kernel
  obtain ⟨after, ran, view⟩ := Option.map_eq_some_iff.mp execution
  obtain ⟨mine, twice⟩ := Prod.mk.inj view
  refine ⟨quietThread, _, after, quietThread_initial, ran, fun exactly => ?_⟩
  have none_left := exactly.remaining 1
  rw [TimerSys.count_cancel, if_pos mine, if_pos mine, twice] at none_left
  exact absurd none_left (by decide)

end FiringSys

end CodexNos.Scheduler
