import CodexNos.Lib.SwapRemove
import CodexNos.Scheduler.FdTable
import Mathlib.Data.Finset.Insert
import Mathlib.Tactic

/-!
# The descriptor table and the interest set

`nos_scheduler_add_fd_ex` fills a slot before it asks the kernel, and a registration that fails
leaves the slot in use.  The table holds the registered descriptors as long as every registration
that finds a slot succeeds, and is not one of a descriptor that the table still holds.
-/

namespace CodexNos.Scheduler

open Lib

namespace FdThread

/-- The descriptors of the slots in use. -/
def fds (thread : FdThread) : List Int :=
  (List.range thread.fdCount).map fun index => (thread.fdEntries index).fd

/-- The slots in use. -/
def entries (thread : FdThread) : List FdEntry :=
  (List.range thread.fdCount).map thread.fdEntries

theorem length_fds (thread : FdThread) : thread.fds.length = thread.fdCount := by simp [fds]

theorem getElem_fds (thread : FdThread) {index : Nat} (inside : index < thread.fds.length) :
    thread.fds[index] = (thread.fdEntries index).fd := by simp [fds]

theorem findSlot_eq_some {thread : FdThread} {fd : Int} {index : Nat}
    (found : thread.findSlot fd = some index) :
    index < thread.fdCount ∧ (thread.fdEntries index).fd = fd := by
  refine ⟨List.mem_range.mp (List.mem_of_find?_eq_some found), ?_⟩
  simpa using List.find?_some found

theorem not_mem_fds_of_findSlot {thread : FdThread} {fd : Int}
    (absent : thread.findSlot fd = none) : fd ∉ thread.fds := by
  intro member
  obtain ⟨index, inside, held⟩ := List.mem_map.mp member
  simpa [held] using List.find?_eq_none.mp absent index inside

/-- A registration that finds a slot adds its descriptor to the table, whatever its outcome. -/
theorem fds_add {thread : FdThread} (room : thread.fdCount < 32) (fd : Int)
    (callback : Option Nat) (arg : Nat) (added : Bool) :
    (thread.nosSchedulerAddFdEx fd callback arg added).1.fds = thread.fds ++ [fd] := by
  have kept : ∀ index ∈ List.range thread.fdCount, index ≠ thread.fdCount := by
    intro index inside
    exact (List.mem_range.mp inside).ne
  have old : ∀ entry : FdEntry, (List.range thread.fdCount).map
      (fun index => (Function.update thread.fdEntries thread.fdCount entry index).fd) =
        thread.fds := by
    intro entry
    refine List.map_congr_left fun index inside => ?_
    rw [Function.update_of_ne (kept index inside)]
  have filled : (Function.update thread.fdEntries thread.fdCount ⟨fd, callback, arg⟩
      thread.fdCount).fd = fd := by rw [Function.update_self]
  unfold nosSchedulerAddFdEx
  rw [if_neg (Nat.not_le.mpr room)]
  cases added
  all_goals
    simp only [fds, List.range_succ, List.map_append, List.map_singleton, if_true, if_false,
      Bool.false_eq_true, filled]
    rw [old]
    rfl

/-- A removal takes one occurrence of its descriptor out of the table. -/
theorem fds_remove (thread : FdThread) (fd : Int) :
    (thread.nosSchedulerRemoveFd fd).1.fds.Perm (thread.fds.erase fd) := by
  unfold nosSchedulerRemoveFd
  cases found : thread.findSlot fd with
  | none =>
      rw [List.erase_of_not_mem (not_mem_fds_of_findSlot found)]
      exact List.Perm.refl _
  | some index =>
      obtain ⟨inside, held⟩ := findSlot_eq_some found
      have place : index < thread.fds.length := inside.trans_eq thread.length_fds.symm
      have member : fd ∈ thread.fds := by
        rw [← held, ← thread.getElem_fds place]
        exact List.getElem_mem place
      have moved : (List.range (thread.fdCount - 1)).map
          (fun slot => (Function.update thread.fdEntries index
            (thread.fdEntries (thread.fdCount - 1)) slot).fd) =
          swapRemoveAt thread.fds ⟨index, place⟩ := by
        have last : thread.fds.getLastD (thread.fdEntries index).fd =
            (thread.fdEntries (thread.fdCount - 1)).fd := by
          rw [List.getLastD_eq_getLast?, List.getLast?_eq_getElem?, length_fds,
            List.getElem?_eq_getElem (by rw [length_fds]; omega), Option.getD_some, getElem_fds]
        refine List.ext_getElem (by simp [swapRemoveAt, length_fds]) ?_
        intro slot bound bound'
        simp only [swapRemoveAt, Fin.getElem_fin, List.getElem_map, List.getElem_range,
          List.getElem_dropLast, List.getElem_set, getElem_fds, last]
        by_cases hole : index = slot
        · subst hole
          simp
        · rw [if_neg hole, Function.update_of_ne (Ne.symm hole)]
      have out := (perm_cons_swapRemoveAt thread.fds ⟨index, place⟩)
      have removed : thread.fds[(⟨index, place⟩ : Fin thread.fds.length)] = fd := by
        rw [Fin.getElem_fin, getElem_fds, held]
      rw [removed] at out
      change ((List.range (thread.fdCount - 1)).map _).Perm _
      rw [moved]
      exact ((List.perm_cons_erase member).symm.trans out).cons_inv.symm

end FdThread

/-- A thread and the registrations of its descriptors. -/
structure FdCalls where
  /-- Table and interest set. -/
  thread : FdThread
  /-- Descriptors that were registered and not removed since. -/
  registered : Finset Int
  /-- No registration that returned an error changed the table. -/
  errorsKeep : Bool

namespace FdCalls

/-- The calls of the table. -/
inductive Op
  /-- `nos_scheduler_add_fd_ex`, with the outcome of `epoll_ctl`. -/
  | add (fd : Int) (callback : Option Nat) (arg : Nat) (added : Bool)
  /-- `nos_scheduler_remove_fd`. -/
  | remove (fd : Int)

/-- Execute one call. -/
def step (state : FdCalls) : Op → Option FdCalls
  | .add fd callback arg added =>
      let result := state.thread.nosSchedulerAddFdEx fd callback arg added
      some
        { thread := result.1
          registered := if result.2 = .ok then insert fd state.registered else state.registered
          errorsKeep :=
            state.errorsKeep && (result.2 = .ok || result.1.entries = state.thread.entries) }
  | .remove fd =>
      some
        { state with
          thread := (state.thread.nosSchedulerRemoveFd fd).1
          registered := state.registered.erase fd }

/-- A thread without registrations. -/
def Initial (state : FdCalls) : Prop :=
  state.thread.fdCount = 0 ∧ state.registered = ∅ ∧ state.errorsKeep = true

/-- The slots in use hold the registered descriptors, each once, and no registration that returned
an error changed the table. -/
def TableIsInterest (state : FdCalls) : Prop :=
  (state.thread.fds : Multiset Int) = state.registered.val ∧ state.errorsKeep = true

/-- A registration that finds a slot succeeds, and its descriptor is not registered. -/
def Registers (state : FdCalls) : Op → Prop
  | .add fd _ _ added => state.thread.fdCount < 32 → added = true ∧ fd ∉ state.registered
  | .remove _ => True

/-! ## One call -/

variable {state after : FdCalls}

theorem status_add {thread : FdThread} (room : thread.fdCount < 32) (fd : Int)
    (callback : Option Nat) (arg : Nat) (added : Bool) :
    (thread.nosSchedulerAddFdEx fd callback arg added).2 = .ok ↔ added = true := by
  unfold FdThread.nosSchedulerAddFdEx
  rw [if_neg (Nat.not_le.mpr room)]
  cases added <;> simp

theorem step_add_full {fd : Int} {callback : Option Nat} {arg : Nat} {added : Bool}
    (full : 32 ≤ state.thread.fdCount) :
    state.step (.add fd callback arg added) = some state := by
  have refused : state.thread.nosSchedulerAddFdEx fd callback arg added =
      (state.thread, .err) := if_pos full
  simp [step, refused]

/-- A registration that finds a slot keeps the table exactly if it succeeds for a descriptor that is
not registered. -/
theorem tableIsInterest_add_iff (holds : state.TableIsInterest) (room : state.thread.fdCount < 32)
    {fd : Int} {callback : Option Nat} {arg : Nat} {added : Bool}
    (stepped : state.step (.add fd callback arg added) = some after) :
    after.TableIsInterest ↔ added = true ∧ fd ∉ state.registered := by
  obtain rfl := Option.some.inj stepped
  obtain ⟨same, kept⟩ := holds
  have table : ((state.thread.fds ++ [fd] : List Int) : Multiset Int) =
      fd ::ₘ state.registered.val := by
    rw [← same, Multiset.cons_coe, Multiset.coe_eq_coe]
    exact List.perm_append_singleton _ _
  have status := status_add room fd callback arg added
  cases added with
  | false =>
      have failed : (state.thread.nosSchedulerAddFdEx fd callback arg false).2 ≠ .ok := by
        rw [ne_eq, status]
        exact Bool.false_ne_true
      refine iff_of_false ?_ (fun succeeds => Bool.false_ne_true succeeds.1)
      rintro ⟨grown, -⟩
      simp only [FdThread.fds_add room, table, if_neg failed] at grown
      exact (Multiset.lt_cons_self _ _).ne grown.symm
  | true =>
      have succeeded : (state.thread.nosSchedulerAddFdEx fd callback arg true).2 = .ok :=
        status.mpr rfl
      simp only [TableIsInterest, FdThread.fds_add room, table, succeeded, if_true, kept,
        decide_true, Bool.true_or, Bool.and_true, and_true, true_and]
      constructor
      · intro equal registered
        rw [Finset.insert_eq_self.mpr registered] at equal
        exact (Multiset.lt_cons_self _ _).ne equal.symm
      · intro fresh
        exact (Finset.insert_val_of_notMem fresh).symm

theorem TableIsInterest.remove (holds : state.TableIsInterest) {fd : Int}
    (stepped : state.step (.remove fd) = some after) : after.TableIsInterest := by
  obtain rfl := Option.some.inj stepped
  obtain ⟨same, kept⟩ := holds
  refine ⟨?_, kept⟩
  have removed := Multiset.coe_eq_coe.mpr (state.thread.fds_remove fd)
  rw [removed, Finset.erase_val, ← same, Multiset.coe_erase]

theorem tableIsInterest_step_iff {op : Op} (holds : state.TableIsInterest)
    (stepped : state.step op = some after) : after.TableIsInterest ↔ state.Registers op := by
  cases op with
  | add fd callback arg added =>
      rcases Nat.lt_or_ge state.thread.fdCount 32 with room | full
      · rw [tableIsInterest_add_iff holds room stepped, Registers, forall_prop_of_true room]
      · rw [step_add_full full] at stepped
        obtain rfl := Option.some.inj stepped
        exact iff_of_true holds fun room => absurd room (Nat.not_lt.mpr full)
  | remove fd => exact iff_of_true (holds.remove stepped) trivial

/-! ## Runs -/

theorem Initial.tableIsInterest (initial : state.Initial) : state.TableIsInterest := by
  obtain ⟨none_used, none_registered, kept⟩ := initial
  refine ⟨?_, kept⟩
  rw [none_registered, FdThread.fds, none_used]
  rfl

/-- Over any calls, the slots in use hold exactly the registered descriptors and failed
registrations change nothing, if and only if every registration that finds a slot succeeds for a
descriptor that is not registered. -/
theorem tableIsInterest_along_run_iff (initial : state.Initial) {ops : List Op}
    (execution : Transition.run step state ops = some after) :
    Transition.Visits step TableIsInterest state ops ↔
      Transition.Guarded step Registers state ops :=
  Transition.visits_iff_guarded (fun _ => True) (fun _ _ _ _ _ => trivial)
    (fun _ _ _ _ holds stepped => tableIsInterest_step_iff holds stepped) trivial
    initial.tableIsInterest execution

/-- A thread whose wake-up descriptor is 3. -/
def fresh : FdCalls where
  thread := FdSys.freshFds.thread
  registered := ∅
  errorsKeep := true

theorem fresh_initial : fresh.Initial := ⟨rfl, rfl, rfl⟩

/-- A registration that the kernel refuses stays in the table. -/
theorem refused_registration_stays :
    ∃ state ops after, state.Initial ∧ Transition.run step state ops = some after ∧
      ¬ Transition.Visits step TableIsInterest state ops := by
  refine ⟨fresh, [.add 10 (some 100) 0 false], _, fresh_initial, rfl, ?_⟩
  rintro ⟨-, visited⟩
  have last := visited _ rfl
  exact absurd last.2 (by decide)

/-- The exact condition on a refused registration. -/
theorem tableIsInterest_along_refused_iff :
    ∃ after, Transition.run step fresh [.add 10 (some 100) 0 false] = some after ∧
      (Transition.Visits step TableIsInterest fresh [.add 10 (some 100) 0 false] ↔
        Transition.Guarded step Registers fresh [.add 10 (some 100) 0 false]) :=
  ⟨_, rfl, tableIsInterest_along_run_iff fresh_initial rfl⟩

end FdCalls

end CodexNos.Scheduler
