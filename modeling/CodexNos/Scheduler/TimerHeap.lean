import CodexNos.Lib.Transition
import CodexNos.Scheduler.Timer

/-!
# Order of the timer heaps

Every timer operation keeps heaps and timer objects linked: the nodes of a heap are exactly the
running timers of its thread, each once.  On linked states the order of the heaps survives every
operation except one: taking a timer out of the middle moves the last node into its place and only
sifts down, so the order survives exactly when that node does not belong above the place.
-/

namespace CodexNos.Scheduler
namespace TimerSys

open Lib

/-! ## Field lemmas -/

@[simp]
theorem setTimer_thread (sys : TimerSys) (ref : TimerRef) (timer : Option Timer) :
    (sys.setTimer ref timer).thread = sys.thread := rfl

@[simp]
theorem setNodes_timer (sys : TimerSys) (thread : ThreadRef) (nodes : Array TimerRef) :
    (sys.setNodes thread nodes).timer = sys.timer := rfl

@[simp]
theorem setTimer_self (sys : TimerSys) (ref : TimerRef) (timer : Option Timer) :
    (sys.setTimer ref timer).timer ref = timer := by
  simp [setTimer]

theorem setTimer_other (sys : TimerSys) {ref other : TimerRef} (timer : Option Timer)
    (different : other ≠ ref) : (sys.setTimer ref timer).timer other = sys.timer other := by
  simp [setTimer, different]

@[simp]
theorem setNodes_nodes (sys : TimerSys) (thread : ThreadRef) (nodes : Array TimerRef) :
    (sys.setNodes thread nodes).nodes thread = nodes := by
  simp [setNodes, TimerSys.nodes]

theorem setNodes_nodes_other (sys : TimerSys) {thread other : ThreadRef} (nodes : Array TimerRef)
    (different : other ≠ thread) :
    (sys.setNodes thread nodes).nodes other = sys.nodes other := by
  simp [setNodes, TimerSys.nodes, different]

@[simp]
theorem setNodes_expireAt (sys : TimerSys) (thread : ThreadRef) (nodes : Array TimerRef) :
    (sys.setNodes thread nodes).expireAt = sys.expireAt := rfl

theorem expireAt_congr {sys sys' : TimerSys} {ref : TimerRef}
    (same : sys'.timer ref = sys.timer ref) : sys'.expireAt ref = sys.expireAt ref := by
  simp [expireAt, same]

theorem expireAt_of_timer {sys : TimerSys} {ref : TimerRef} {timer : Timer}
    (found : sys.timer ref = some timer) : sys.expireAt ref = timer.expireAtMs := by
  simp [expireAt, found]

/-! ## Heaps and timer objects -/

/-- The nodes of a heap are exactly the running timers of its thread, each once. -/
structure Linked (sys : TimerSys) : Prop where
  /-- Every node is a running timer of that thread. -/
  armed : ∀ thread ref, ref ∈ sys.nodes thread →
    ∃ timer, sys.timer ref = some timer ∧ timer.isRunning = true ∧
      timer.ownerThread = some thread
  /-- Every running timer is a node of its thread. -/
  running : ∀ ref timer, sys.timer ref = some timer → timer.isRunning = true →
    ∃ thread, timer.ownerThread = some thread ∧ ref ∈ sys.nodes thread
  /-- No node occurs twice. -/
  distinct : ∀ thread, (sys.nodes thread).toList.Nodup

/-- Every heap is ordered by expiry. -/
def HeapOrdered (sys : TimerSys) : Prop :=
  ∀ thread, BinaryHeap.Ordered sys.expireAt (sys.nodes thread)

/-- Every node expires no earlier than its parent, and the root of a heap expires no later than any
armed timer of its thread. -/
def DeadlineOrder (sys : TimerSys) : Prop :=
  ∀ thread,
    (∀ index, (inside : index < (sys.nodes thread).size) → 0 < index →
      sys.expireAt (sys.nodes thread)[(index - 1) / 2] ≤ sys.expireAt (sys.nodes thread)[index]) ∧
    ∀ ref timer, sys.timer ref = some timer → timer.isRunning = true →
      timer.ownerThread = some thread →
      ∃ bound : 0 < (sys.nodes thread).size,
        sys.expireAt (sys.nodes thread)[0] ≤ timer.expireAtMs

theorem Linked.node_thread {sys : TimerSys} (linked : sys.Linked) {ref : TimerRef} {timer : Timer}
    {thread : ThreadRef} (found : sys.timer ref = some timer) (member : ref ∈ sys.nodes thread) :
    timer.isRunning = true ∧ timer.ownerThread = some thread := by
  obtain ⟨timer', found', running, owner⟩ := linked.armed thread ref member
  obtain rfl : timer' = timer := Option.some.inj (found'.symm.trans found)
  exact ⟨running, owner⟩

theorem Linked.not_mem_of_stopped {sys : TimerSys} (linked : sys.Linked) {ref : TimerRef}
    {timer : Timer} (found : sys.timer ref = some timer) (stopped : timer.isRunning = false)
    (thread : ThreadRef) : ref ∉ sys.nodes thread := by
  intro member
  have running := (linked.node_thread found member).1
  simp [stopped] at running

/-- On linked states the two parts of the deadline order are one. -/
theorem Linked.deadlineOrder_iff {sys : TimerSys} (linked : sys.Linked) :
    sys.DeadlineOrder ↔ sys.HeapOrdered := by
  constructor
  · intro order thread
    exact (order thread).1
  · intro ordered thread
    refine ⟨ordered thread, ?_⟩
    intro ref timer found running owner
    obtain ⟨thread', owner', member⟩ := linked.running ref timer found running
    obtain rfl : thread' = thread := Option.some.inj (owner'.symm.trans owner)
    obtain ⟨index, inside, node⟩ := Array.mem_iff_getElem.mp member
    have least := (ordered thread').root_le index inside
    rw [node, expireAt_of_timer found] at least
    exact ⟨by omega, least⟩

/-! ## Objects outside the heaps -/

/-- Replacing the object of a timer that is in no heap, by one that is not running, keeps the
links. -/
theorem Linked.setTimer_idle {sys : TimerSys} (linked : sys.Linked) {ref : TimerRef}
    (timer : Option Timer) (absent : ∀ thread, ref ∉ sys.nodes thread)
    (idle : ∀ object, timer = some object → object.isRunning = false) :
    (sys.setTimer ref timer).Linked := by
  refine ⟨?_, ?_, linked.distinct⟩
  · intro thread other member
    have different : other ≠ ref := by
      rintro rfl
      exact absent thread member
    rw [setTimer_other sys timer different]
    exact linked.armed thread other member
  · intro other object found running
    by_cases same : other = ref
    · subst same
      rw [setTimer_self] at found
      simp [idle object found] at running
    · rw [setTimer_other sys timer same] at found
      exact linked.running other object found running

theorem HeapOrdered.setTimer_absent {sys : TimerSys} (ordered : sys.HeapOrdered) {ref : TimerRef}
    (timer : Option Timer) (absent : ∀ thread, ref ∉ sys.nodes thread) :
    (sys.setTimer ref timer).HeapOrdered := by
  intro thread
  apply (ordered thread).congr_key
  intro other member
  apply expireAt_congr
  apply setTimer_other
  rintro rfl
  exact absent thread member

/-! ## Insertion -/

theorem insertTimer_timer (sys : TimerSys) (thread : ThreadRef) (ref : TimerRef) (timer : Timer) :
    (sys.insertTimer thread ref timer).timer = (sys.setTimer ref (some timer)).timer := rfl

theorem insertTimer_nodes (sys : TimerSys) (thread : ThreadRef) (ref : TimerRef) (timer : Timer) :
    (sys.insertTimer thread ref timer).nodes thread =
      BinaryHeap.siftUp (sys.setTimer ref (some timer)).expireAt ((sys.nodes thread).push ref)
        (sys.nodes thread).size := by
  simp [insertTimer, heapifyUp]

theorem insertTimer_nodes_other (sys : TimerSys) {thread other : ThreadRef} (ref : TimerRef)
    (timer : Timer) (different : other ≠ thread) :
    (sys.insertTimer thread ref timer).nodes other = sys.nodes other := by
  simp [insertTimer, heapifyUp, setNodes_nodes_other _ _ different, TimerSys.nodes]

theorem mem_insertTimer (sys : TimerSys) (thread : ThreadRef) (ref : TimerRef) (timer : Timer)
    (node : TimerRef) :
    node ∈ (sys.insertTimer thread ref timer).nodes thread ↔ node ∈ sys.nodes thread ∨ node = ref := by
  rw [insertTimer_nodes, (BinaryHeap.siftUp_perm _ _ _).mem_iff, Array.mem_push]

theorem Linked.insertTimer {sys : TimerSys} (linked : sys.Linked) {thread : ThreadRef}
    {ref : TimerRef} {timer : Timer} (absent : ∀ thread, ref ∉ sys.nodes thread)
    (running : timer.isRunning = true) (owner : timer.ownerThread = some thread) :
    (sys.insertTimer thread ref timer).Linked := by
  refine ⟨?_, ?_, ?_⟩
  · intro place node member
    rw [insertTimer_timer]
    by_cases here : place = thread
    · subst here
      rcases (mem_insertTimer sys place ref timer node).mp member with old | rfl
      · have different : node ≠ ref := by
          rintro rfl
          exact absent place old
        rw [setTimer_other sys _ different]
        exact linked.armed place node old
      · exact ⟨timer, setTimer_self _ _ _, running, owner⟩
    · rw [insertTimer_nodes_other sys ref timer here] at member
      have different : node ≠ ref := by
        rintro rfl
        exact absent place member
      rw [setTimer_other sys _ different]
      exact linked.armed place node member
  · intro node object found object_running
    rw [insertTimer_timer] at found
    by_cases same : node = ref
    · subst same
      obtain rfl : timer = object := by simpa using found
      exact ⟨thread, owner, (mem_insertTimer sys thread node timer node).mpr (Or.inr rfl)⟩
    · rw [setTimer_other sys _ same] at found
      obtain ⟨place, object_owner, member⟩ := linked.running node object found object_running
      refine ⟨place, object_owner, ?_⟩
      by_cases here : place = thread
      · subst here
        exact (mem_insertTimer sys place ref timer node).mpr (Or.inl member)
      · rwa [insertTimer_nodes_other sys ref timer here]
  · intro place
    by_cases here : place = thread
    · subst here
      rw [insertTimer_nodes, (BinaryHeap.siftUp_perm _ _ _).toList.nodup_iff, Array.toList_push,
        List.nodup_append_comm]
      exact List.nodup_cons.mpr ⟨by simpa using absent place, linked.distinct place⟩
    · rw [insertTimer_nodes_other sys ref timer here]
      exact linked.distinct place

theorem HeapOrdered.insertTimer {sys : TimerSys} (ordered : sys.HeapOrdered) {thread : ThreadRef}
    {ref : TimerRef} {timer : Timer} (absent : ∀ thread, ref ∉ sys.nodes thread) :
    (sys.insertTimer thread ref timer).HeapOrdered := by
  have renamed := ordered.setTimer_absent (some timer) absent
  intro place
  by_cases here : place = thread
  · subst here
    rw [insertTimer_nodes]
    exact (renamed place).push_siftUp ref
  · rw [insertTimer_nodes_other sys ref timer here]
    exact renamed place

/-! ## Removal -/

theorem removeNode_timer (sys : TimerSys) (thread : ThreadRef) (index : Nat)
    (inside : index < (sys.nodes thread).size) :
    (sys.removeNode thread index inside).timer = sys.timer := rfl

theorem removeNode_nodes (sys : TimerSys) (thread : ThreadRef) (index : Nat)
    (inside : index < (sys.nodes thread).size) :
    (sys.removeNode thread index inside).nodes thread =
      BinaryHeap.siftDown sys.expireAt (BinaryHeap.removeAt (sys.nodes thread) index inside)
        index := by
  simp [removeNode, heapifyDown]

theorem removeNode_nodes_other (sys : TimerSys) {thread other : ThreadRef} (index : Nat)
    (inside : index < (sys.nodes thread).size) (different : other ≠ thread) :
    (sys.removeNode thread index inside).nodes other = sys.nodes other := by
  simp [removeNode, heapifyDown, setNodes_nodes_other _ _ different]

theorem Linked.mem_removeNode {sys : TimerSys} (linked : sys.Linked) {thread : ThreadRef}
    {index : Nat} (inside : index < (sys.nodes thread).size) {ref : TimerRef}
    (node : (sys.nodes thread)[index] = ref) (place : ThreadRef) (other : TimerRef) :
    other ∈ (sys.removeNode thread index inside).nodes place ↔
      other ∈ sys.nodes place ∧ other ≠ ref := by
  by_cases here : place = thread
  · subst here
    rw [removeNode_nodes, BinaryHeap.mem_removeAt_siftDown _ inside (linked.distinct place), node]
  · rw [removeNode_nodes_other sys index inside here]
    constructor
    · intro member
      refine ⟨member, ?_⟩
      rintro rfl
      obtain ⟨timer, found, _, owner⟩ := linked.armed place other member
      have owner' := (linked.node_thread found (node ▸ Array.getElem_mem inside)).2
      exact here (Option.some.inj (owner.symm.trans owner'))
    · exact And.left

/-- Taking a node out of a heap and its object out of service keeps the links. -/
theorem Linked.removeNode {sys : TimerSys} (linked : sys.Linked) {thread : ThreadRef}
    {index : Nat} (inside : index < (sys.nodes thread).size) {ref : TimerRef}
    (node : (sys.nodes thread)[index] = ref) (timer : Option Timer)
    (idle : ∀ object, timer = some object → object.isRunning = false) :
    ((sys.removeNode thread index inside).setTimer ref timer).Linked := by
  have member := linked.mem_removeNode inside node
  refine ⟨?_, ?_, ?_⟩
  · intro place other found
    obtain ⟨old, different⟩ := (member place other).mp found
    rw [setTimer_other _ timer different, removeNode_timer]
    exact linked.armed place other old
  · intro other object found running
    by_cases same : other = ref
    · subst same
      rw [setTimer_self] at found
      simp [idle object found] at running
    · rw [setTimer_other _ timer same, removeNode_timer] at found
      obtain ⟨place, owner, old⟩ := linked.running other object found running
      exact ⟨place, owner, (member place other).mpr ⟨old, same⟩⟩
  · intro place
    by_cases here : place = thread
    · subst here
      change ((sys.removeNode place index inside).nodes place).toList.Nodup
      rw [removeNode_nodes]
      exact BinaryHeap.nodup_removeAt_siftDown _ inside (linked.distinct place)
    · change ((sys.removeNode thread index inside).nodes place).toList.Nodup
      rw [removeNode_nodes_other sys index inside here]
      exact linked.distinct place

/-- A removal keeps every heap ordered exactly when the last node of the heap does not expire
before the parent of the vacated place. -/
theorem Linked.heapOrdered_removeNode_iff {sys : TimerSys} (linked : sys.Linked)
    (ordered : sys.HeapOrdered) {thread : ThreadRef} {index : Nat}
    (inside : index < (sys.nodes thread).size) {ref : TimerRef}
    (node : (sys.nodes thread)[index] = ref) (timer : Option Timer) :
    ((sys.removeNode thread index inside).setTimer ref timer).HeapOrdered ↔
      (0 < index → sys.expireAt (sys.nodes thread)[(index - 1) / 2] ≤
        sys.expireAt (sys.nodes thread)[(sys.nodes thread).size - 1]) := by
  have absent : ∀ place, ref ∉ (sys.removeNode thread index inside).nodes place := by
    intro place found
    exact ((linked.mem_removeNode inside node place ref).mp found).2 rfl
  rw [← (ordered thread).removeAt_siftDown_iff inside, ← removeNode_nodes]
  constructor
  · intro kept
    apply (kept thread).congr_key
    intro other member
    apply expireAt_congr
    refine (setTimer_other _ timer ?_).symm
    rintro rfl
    exact absent thread member
  · intro kept
    apply HeapOrdered.setTimer_absent _ timer absent
    intro place
    by_cases here : place = thread
    · subst here
      exact kept
    · rw [removeNode_nodes_other sys index inside here]
      exact ordered place

/-! ## The operations -/

/-- A removal of this timer, should it be armed, puts no node below a later one. -/
def RemovalKeepsOrder (sys : TimerSys) (ref : TimerRef) : Prop :=
  ∀ thread index, (inside : index < (sys.nodes thread).size) →
    (sys.nodes thread)[index] = ref → 0 < index →
      sys.expireAt (sys.nodes thread)[(index - 1) / 2] ≤
        sys.expireAt (sys.nodes thread)[(sys.nodes thread).size - 1]

/-- Stopping and deleting a timer are the calls that take a node out of the middle of a heap. -/
def StepKeepsOrder (sys : TimerSys) : TimerOp → Prop
  | .stop _ (some ref) => sys.RemovalKeepsOrder ref
  | .delete (some ref) => sys.RemovalKeepsOrder ref
  | _ => True

theorem Linked.removalKeepsOrder_iff {sys : TimerSys} (linked : sys.Linked) {thread : ThreadRef}
    {index : Nat} (inside : index < (sys.nodes thread).size) {ref : TimerRef}
    (node : (sys.nodes thread)[index] = ref) :
    sys.RemovalKeepsOrder ref ↔
      (0 < index → sys.expireAt (sys.nodes thread)[(index - 1) / 2] ≤
        sys.expireAt (sys.nodes thread)[(sys.nodes thread).size - 1]) := by
  constructor
  · intro keeps
    exact keeps thread index inside node
  · intro late place index' inside' node'
    obtain ⟨timer, found, _, owner⟩ :=
      linked.armed thread ref (node ▸ Array.getElem_mem inside)
    have owner' := (linked.node_thread found (node' ▸ Array.getElem_mem inside')).2
    obtain rfl : thread = place := Option.some.inj (owner.symm.trans owner')
    have same : index = index' := by
      have place : index < (sys.nodes thread).toList.length := by simpa using inside
      have place' : index' < (sys.nodes thread).toList.length := by simpa using inside'
      have equal : (sys.nodes thread).toList[index] = (sys.nodes thread).toList[index'] := by
        simp [node, node']
      exact (linked.distinct thread).getElem_inj_iff.mp equal
    subst same
    exact late

theorem removalKeepsOrder_of_absent {sys : TimerSys} {ref : TimerRef}
    (absent : ∀ thread, ref ∉ sys.nodes thread) : sys.RemovalKeepsOrder ref := by
  intro thread index inside node
  exact absurd (node ▸ Array.getElem_mem inside) (absent thread)

/-- What a removal call does on a linked state: nothing to the heaps if the timer is in none, and
otherwise one removal that leaves the object not running. -/
inductive Removed (sys : TimerSys) (ref : TimerRef) : TimerSys → Prop
  | outside (timer : Option Timer) (absent : ∀ thread, ref ∉ sys.nodes thread)
      (idle : ∀ object, timer = some object → object.isRunning = false) :
      Removed sys ref (sys.setTimer ref timer)
  | unchanged (absent : ∀ thread, ref ∉ sys.nodes thread) : Removed sys ref sys
  | inside (thread : ThreadRef) (index : Nat) (bound : index < (sys.nodes thread).size)
      (node : (sys.nodes thread)[index] = ref) (timer : Option Timer)
      (idle : ∀ object, timer = some object → object.isRunning = false) :
      Removed sys ref ((sys.removeNode thread index bound).setTimer ref timer)

theorem Removed.linked {sys after : TimerSys} {ref : TimerRef} (removed : Removed sys ref after)
    (linked : sys.Linked) : after.Linked := by
  cases removed with
  | outside timer absent idle => exact linked.setTimer_idle timer absent idle
  | unchanged absent => exact linked
  | inside thread index bound node timer idle => exact linked.removeNode bound node timer idle

theorem Removed.heapOrdered_iff {sys after : TimerSys} {ref : TimerRef}
    (removed : Removed sys ref after) (linked : sys.Linked) (ordered : sys.HeapOrdered) :
    after.HeapOrdered ↔ sys.RemovalKeepsOrder ref := by
  cases removed with
  | outside timer absent idle =>
      exact iff_of_true (ordered.setTimer_absent timer absent)
        (removalKeepsOrder_of_absent absent)
  | unchanged absent => exact iff_of_true ordered (removalKeepsOrder_of_absent absent)
  | inside thread index bound node timer idle =>
      rw [linked.removalKeepsOrder_iff bound node]
      exact linked.heapOrdered_removeNode_iff ordered bound node timer

theorem Linked.nosTimerStop_removed {sys after : TimerSys} {self : CompRef} {ref : TimerRef}
    {status : Status} (linked : sys.Linked)
    (stopped : sys.nosTimerStop self (some ref) = some (after, status)) :
    Removed sys ref after := by
  unfold nosTimerStop at stopped
  cases found : sys.timer ref with
  | none => simp [found] at stopped
  | some timer =>
      simp only [found] at stopped
      cases running : timer.isRunning with
      | false =>
          have absent := linked.not_mem_of_stopped found running
          obtain rfl : sys = after := by
            split at stopped <;> simp_all
          exact .unchanged absent
      | true =>
          obtain ⟨thread, owner, member⟩ := linked.running ref timer found running
          have chosen : (timer.ownerThread <|> sys.findThreadOfComponent self) = some thread := by
            rw [owner]
            rfl
          simp only [chosen, running, if_true] at stopped
          split at stopped
          · rename_i index position
            have node := (Array.finIdxOf?_eq_some_iff.mp position).1
            obtain ⟨rfl, rfl⟩ : _ = after ∧ _ = status := by simpa using stopped
            exact .inside thread index index.isLt node _ (by simp [disarm])
          · rename_i missing
            exact absurd member (Array.finIdxOf?_eq_none_iff.mp missing)

theorem Linked.nosTimerDelete_removed {sys after : TimerSys} {ref : TimerRef}
    (linked : sys.Linked) (deleted : sys.nosTimerDelete (some ref) = some after) :
    Removed sys ref after := by
  unfold nosTimerDelete at deleted
  cases found : sys.timer ref with
  | none => simp [found] at deleted
  | some timer =>
      simp only [found] at deleted
      cases running : timer.isRunning with
      | false =>
          have absent := linked.not_mem_of_stopped found running
          obtain rfl : sys.setTimer ref none = after := by simpa [running] using deleted
          exact .outside none absent (by simp)
      | true =>
          obtain ⟨thread, owner, member⟩ := linked.running ref timer found running
          simp only [running, owner] at deleted
          split at deleted
          · rename_i index position
            have node := (Array.finIdxOf?_eq_some_iff.mp position).1
            obtain rfl := Option.some.inj deleted
            exact .inside thread index index.isLt node none (by simp)
          · rename_i missing
            exact absurd member (Array.finIdxOf?_eq_none_iff.mp missing)

/-- A step that keeps the links, and the order whenever it holds. -/
structure Keeps (before after : TimerSys) : Prop where
  /-- The links survive. -/
  linked : before.Linked → after.Linked
  /-- The order survives on linked states. -/
  ordered : before.Linked → before.HeapOrdered → after.HeapOrdered

theorem Keeps.refl (sys : TimerSys) : Keeps sys sys :=
  ⟨id, fun _ => id⟩

theorem Keeps.trans {before middle after : TimerSys} (first : Keeps before middle)
    (second : Keeps middle after) : Keeps before after where
  linked linked := second.linked (first.linked linked)
  ordered linked ordered := second.ordered (first.linked linked) (first.ordered linked ordered)

theorem nosTimerCreate_keeps {sys after : TimerSys} {ref : TimerRef} {callback : Option Nat}
    {arg : Nat} (created : sys.nosTimerCreate ref callback arg = some after) :
    Keeps sys after := by
  unfold nosTimerCreate at created
  split at created
  · simp at created
  · rename_i fresh
    obtain rfl := Option.some.inj created
    have absent (linked : sys.Linked) (thread : ThreadRef) : ref ∉ sys.nodes thread := by
      intro member
      obtain ⟨timer, found, _⟩ := linked.armed thread ref member
      simp [fresh] at found
    exact
      { linked := fun linked => linked.setTimer_idle _ (absent linked) (by simp)
        ordered := fun linked ordered => ordered.setTimer_absent _ (absent linked) }

theorem nosTimerStart_keeps {sys after : TimerSys} {self : CompRef} {ref : Option TimerRef}
    {intervalMs now : Nat} {isPeriodic : Bool} {status : Status}
    (started : sys.nosTimerStart self ref intervalMs isPeriodic now = some (after, status)) :
    Keeps sys after := by
  unfold nosTimerStart at started
  split at started
  · rename_i thread ref _
    cases found : sys.timer ref with
    | none => simp [found] at started
    | some timer =>
        simp only [found] at started
        split at started
        · obtain ⟨rfl, _⟩ : sys = after ∧ _ := by simpa using started
          exact Keeps.refl sys
        · rename_i idle
          split at started
          · obtain ⟨rfl, _⟩ : sys = after ∧ _ := by simpa using started
            exact Keeps.refl sys
          · obtain ⟨rfl, _⟩ : _ = after ∧ _ := by simpa using started
            have stopped : timer.isRunning = false := by simpa using idle
            exact
              { linked := fun linked =>
                  linked.insertTimer (linked.not_mem_of_stopped found stopped) rfl rfl
                ordered := fun linked ordered =>
                  ordered.insertTimer (linked.not_mem_of_stopped found stopped) }
  · obtain ⟨rfl, _⟩ : sys = after ∧ _ := by simpa using started
    exact Keeps.refl sys

/-! ## The expiry loop -/

/-- The popped root is idle and in no heap, and still names its thread. -/
theorem Linked.popDue {sys popped : TimerSys} {thread : ThreadRef} {now : Nat} {ref : TimerRef}
    (linked : sys.Linked) (due : sys.popDue thread now = some (ref, popped)) :
    popped.Linked ∧ (sys.HeapOrdered → popped.HeapOrdered) ∧
      (∀ place, ref ∉ popped.nodes place) ∧
      ∀ timer, popped.timer ref = some timer → timer.ownerThread = some thread := by
  unfold TimerSys.popDue at due
  split at due
  · rename_i bound
    split at due
    · simp at due
    · obtain ⟨rfl, rfl⟩ : _ = ref ∧ _ = popped := by simpa using due
      have idle : ∀ object,
          (sys.timer (sys.nodes thread)[0]).map (fun timer => { timer with isRunning := false }) =
            some object → object.isRunning = false := by
        intro object same
        obtain ⟨timer, _, rfl⟩ := Option.map_eq_some_iff.mp same
        rfl
      refine ⟨linked.removeNode bound rfl _ idle, ?_, ?_, ?_⟩
      · intro ordered
        rw [linked.heapOrdered_removeNode_iff ordered bound rfl]
        simp
      · intro place member
        exact ((linked.mem_removeNode bound rfl place _).mp member).2 rfl
      · intro timer found
        rw [setTimer_self] at found
        obtain ⟨object, known, rfl⟩ := Option.map_eq_some_iff.mp found
        exact (linked.node_thread known (Array.getElem_mem bound)).2
  · simp at due

theorem rearm_keeps {sys : TimerSys} {thread : ThreadRef} {ref : TimerRef} {timer : Timer}
    (now : Nat) (absent : ∀ place, ref ∉ sys.nodes place)
    (owner : timer.ownerThread = some thread) : Keeps sys (sys.rearm thread ref timer now) := by
  unfold rearm
  split
  · exact
      { linked := fun linked => linked.setTimer_idle _ absent (by simp)
        ordered := fun _ ordered => ordered.setTimer_absent _ absent }
  · exact
      { linked := fun linked => linked.insertTimer absent rfl owner
        ordered := fun _ ordered => ordered.insertTimer absent }

theorem popDue_keeps {sys popped : TimerSys} {thread : ThreadRef} {now : Nat} {ref : TimerRef}
    (due : sys.popDue thread now = some (ref, popped)) : Keeps sys popped where
  linked linked := (linked.popDue due).1
  ordered linked := (linked.popDue due).2.1

theorem popDue_rearm_keeps {sys popped : TimerSys} {thread : ThreadRef} {now rearmed : Nat}
    {ref : TimerRef} {timer : Timer} (due : sys.popDue thread now = some (ref, popped))
    (found : popped.timer ref = some timer) :
    Keeps sys (popped.rearm thread ref timer rearmed) := by
  have armed (linked : sys.Linked) : Keeps popped (popped.rearm thread ref timer rearmed) := by
    obtain ⟨_, _, absent, owner⟩ := linked.popDue due
    exact rearm_keeps rearmed absent (owner timer found)
  exact
    { linked := fun linked => ((popDue_keeps due).trans (armed linked)).linked linked
      ordered := fun linked => ((popDue_keeps due).trans (armed linked)).ordered linked }

/-- Every turn of the expiry loop keeps links and order, whether or not the loop returns. -/
theorem processTimers_keeps (sys : TimerSys) (thread : ThreadRef) (readings : List Nat) :
    Keeps sys (sys.processTimers thread readings).sys := by
  induction sys, readings using processTimers.induct thread with
  | case1 sys => exact Keeps.refl sys
  | case2 sys now readings due =>
      simp only [processTimers, due]
      exact Keeps.refl sys
  | case3 sys now readings ref popped due found =>
      simp only [processTimers, due, found]
      exact popDue_keeps due
  | case4 sys now ref popped due timer found active again =>
      simp only [processTimers, due, found]
      rw [if_pos again]
      exact popDue_keeps due
  | case5 sys now ref popped due timer found active again rearmed readings ih =>
      rw [processTimers]
      simp only [due, found]
      rw [if_pos again]
      exact (popDue_rearm_keeps due found).trans ih
  | case6 sys now readings ref popped due timer found active once ih =>
      rw [processTimers]
      simp only [due, found]
      rw [if_neg once]
      exact (popDue_keeps due).trans ih

/-! ## Cancelling by owner -/

theorem ownedBy_released (sys : TimerSys) (owner : CompRef) (ref : TimerRef) :
    (sys.setTimer ref ((sys.timer ref).map disarm)).ownedBy owner ref = false := by
  rw [ownedBy, setTimer_self]
  cases sys.timer ref <;> simp [disarm]

theorem ownedBy_setTimer_other (sys : TimerSys) (owner : CompRef) {ref other : TimerRef}
    (timer : Option Timer) (different : other ≠ ref) :
    (sys.setTimer ref timer).ownedBy owner other = sys.ownedBy owner other := by
  rw [ownedBy, setTimer_other _ _ different, ownedBy]

theorem cancelScan_released (owner : CompRef) (sys : TimerSys) (refs : List TimerRef) :
    (cancelScan owner sys refs).1 =
      { sys with
        timer := fun ref =>
          if ref ∈ refs ∧ sys.ownedBy owner ref then (sys.timer ref).map disarm
          else sys.timer ref } := by
  induction refs generalizing sys with
  | nil => simp [cancelScan]
  | cons first refs ih =>
      unfold cancelScan
      split
      · rename_i mine
        rw [ih]
        simp only [TimerSys.mk.injEq]
        refine ⟨rfl, rfl, funext fun ref => ?_, rfl⟩
        rcases eq_or_ne ref first with rfl | different
        · simp [ownedBy_released, mine]
        · simp [ownedBy_setTimer_other _ _ _ different, setTimer_other _ _ different, different]
      · rename_i foreign
        dsimp only
        rw [ih]
        simp only [TimerSys.mk.injEq, true_and, and_true]
        funext ref
        rcases eq_or_ne ref first with rfl | different
        · simp [foreign]
        · simp [different]

/-- Of each timer of the component the scan drops the first node. -/
theorem cancelScan_count (owner : CompRef) (sys : TimerSys) (refs : List TimerRef)
    (ref : TimerRef) :
    (cancelScan owner sys refs).2.count ref =
      if sys.ownedBy owner ref then refs.count ref - 1 else refs.count ref := by
  induction refs generalizing sys with
  | nil => simp [cancelScan]
  | cons first refs ih =>
      unfold cancelScan
      split
      · rename_i mine
        rw [ih]
        rcases eq_or_ne ref first with rfl | different
        · simp [ownedBy_released, mine]
        · simp [ownedBy_setTimer_other _ _ _ different, List.count_cons_of_ne (Ne.symm different)]
      · rename_i foreign
        dsimp only
        rcases eq_or_ne ref first with rfl | different
        · simp [ih, foreign]
        · simp [ih, List.count_cons_of_ne (Ne.symm different)]

theorem cancelScan_sublist (owner : CompRef) (sys : TimerSys) (refs : List TimerRef) :
    (cancelScan owner sys refs).2.Sublist refs := by
  induction refs generalizing sys with
  | nil => exact .slnil
  | cons first refs ih =>
      unfold cancelScan
      split
      · exact (ih _).cons first
      · exact (ih sys).cons_cons first

@[simp]
theorem cancel_status (sys : TimerSys) (thread : ThreadRef) (owner : CompRef) :
    (sys.nosSchedulerCancelTimersByOwner thread owner).status = sys.status := by
  rw [nosSchedulerCancelTimersByOwner, cancelScan_released]
  rfl

@[simp]
theorem cancel_threadCount (sys : TimerSys) (thread : ThreadRef) (owner : CompRef) :
    (sys.nosSchedulerCancelTimersByOwner thread owner).threadCount = sys.threadCount := by
  rw [nosSchedulerCancelTimersByOwner, cancelScan_released]
  rfl

theorem cancel_timer (sys : TimerSys) (thread : ThreadRef) (owner : CompRef) (ref : TimerRef) :
    (sys.nosSchedulerCancelTimersByOwner thread owner).timer ref =
      if ref ∈ sys.nodes thread ∧ sys.ownedBy owner ref then (sys.timer ref).map disarm
      else sys.timer ref := by
  rw [nosSchedulerCancelTimersByOwner, setNodes_timer, cancelScan_released]
  simp only [Array.mem_toList_iff]

theorem cancel_expireAt (sys : TimerSys) (thread : ThreadRef) (owner : CompRef) :
    (sys.nosSchedulerCancelTimersByOwner thread owner).expireAt = sys.expireAt := by
  funext ref
  unfold expireAt
  rw [cancel_timer]
  by_cases cancelled : ref ∈ sys.nodes thread ∧ sys.ownedBy owner ref
  · rw [if_pos cancelled]
    cases sys.timer ref <;> rfl
  · rw [if_neg cancelled]

/-- The heap of the thread after cancelling is a rebuilt copy of the kept nodes. -/
theorem cancel_nodes (sys : TimerSys) (thread : ThreadRef) (owner : CompRef) :
    ∃ kept : Array TimerRef, kept.toList = (cancelScan owner sys (sys.nodes thread).toList).2 ∧
      (sys.nosSchedulerCancelTimersByOwner thread owner).nodes thread =
        BinaryHeap.rebuild sys.expireAt (kept.size / 2) kept := by
  refine ⟨_, List.toList_toArray, ?_⟩
  rw [← cancel_expireAt sys thread owner]
  simp [nosSchedulerCancelTimersByOwner]

/-- Cancelling drops one node of each timer of the component. -/
theorem count_cancel (sys : TimerSys) (thread : ThreadRef) (owner : CompRef) (ref : TimerRef) :
    ((sys.nosSchedulerCancelTimersByOwner thread owner).nodes thread).count ref =
      if sys.ownedBy owner ref then (sys.nodes thread).count ref - 1
      else (sys.nodes thread).count ref := by
  obtain ⟨kept, kept_eq, nodes_eq⟩ := cancel_nodes sys thread owner
  rw [nodes_eq, ← Array.count_toList, (BinaryHeap.rebuild_perm _ _ _).toList.count_eq, kept_eq,
    cancelScan_count, Array.count_toList]

theorem cancel_nodes_other (sys : TimerSys) {thread other : ThreadRef} (owner : CompRef)
    (different : other ≠ thread) :
    (sys.nosSchedulerCancelTimersByOwner thread owner).nodes other = sys.nodes other := by
  rw [nosSchedulerCancelTimersByOwner, setNodes_nodes_other _ _ different, cancelScan_released]

/-- On a heap without duplicates exactly the timers of other components stay. -/
theorem Linked.mem_cancel {sys : TimerSys} (linked : sys.Linked) (thread : ThreadRef)
    (owner : CompRef) (ref : TimerRef) :
    ref ∈ (sys.nosSchedulerCancelTimersByOwner thread owner).nodes thread ↔
      ref ∈ sys.nodes thread ∧ sys.ownedBy owner ref = false := by
  have once : (sys.nodes thread).count ref ≤ 1 := by
    rw [← Array.count_toList]
    exact List.nodup_iff_count_le_one.mp (linked.distinct thread) ref
  rw [← Array.count_pos_iff, ← Array.count_pos_iff, count_cancel]
  split
  · rename_i mine
    simp [mine, once]
  · rename_i foreign
    simp [foreign]

theorem Linked.cancel {sys : TimerSys} (linked : sys.Linked) (thread : ThreadRef)
    (owner : CompRef) : (sys.nosSchedulerCancelTimersByOwner thread owner).Linked := by
  refine ⟨?_, ?_, ?_⟩
  · intro place ref member
    rw [cancel_timer]
    by_cases here : place = thread
    · subst here
      obtain ⟨old, foreign⟩ := (linked.mem_cancel place owner ref).mp member
      rw [if_neg (by simp [foreign])]
      exact linked.armed place ref old
    · rw [cancel_nodes_other sys owner here] at member
      obtain ⟨timer, found, running, home⟩ := linked.armed place ref member
      have outside : ref ∉ sys.nodes thread := by
        intro inside
        exact here (Option.some.inj (home.symm.trans (linked.node_thread found inside).2))
      rw [if_neg (by simp [outside])]
      exact ⟨timer, found, running, home⟩
  · intro ref timer found running
    rw [cancel_timer] at found
    split at found
    · obtain ⟨object, _, rfl⟩ := Option.map_eq_some_iff.mp found
      simp [disarm] at running
    · rename_i stays
      obtain ⟨place, home, member⟩ := linked.running ref timer found running
      refine ⟨place, home, ?_⟩
      by_cases here : place = thread
      · subst here
        exact (linked.mem_cancel place owner ref).mpr ⟨member, by simpa [member] using stays⟩
      · rwa [cancel_nodes_other sys owner here]
  · intro place
    by_cases here : place = thread
    · subst here
      obtain ⟨kept, kept_eq, nodes_eq⟩ := cancel_nodes sys place owner
      rw [nodes_eq, (BinaryHeap.rebuild_perm _ _ _).toList.nodup_iff, kept_eq]
      exact (linked.distinct place).sublist (cancelScan_sublist owner sys _)
    · rw [cancel_nodes_other sys owner here]
      exact linked.distinct place

theorem HeapOrdered.cancel {sys : TimerSys} (ordered : sys.HeapOrdered) (thread : ThreadRef)
    (owner : CompRef) : (sys.nosSchedulerCancelTimersByOwner thread owner).HeapOrdered := by
  intro place
  rw [cancel_expireAt]
  by_cases here : place = thread
  · subst here
    obtain ⟨kept, _, nodes_eq⟩ := cancel_nodes sys place owner
    rw [nodes_eq]
    exact BinaryHeap.rebuild_half_ordered _ kept
  · rw [cancel_nodes_other sys owner here]
    exact ordered place

/-! ## Whole runs -/

theorem setComponents_nodes (sys : TimerSys) (thread : ThreadRef) (components : List CompRef)
    (place : ThreadRef) :
    TimerSys.nodes
      { sys with
        thread := Function.update sys.thread thread
          { sys.thread thread with components := components } } place = sys.nodes place := by
  by_cases here : place = thread
  · subst here
    simp [TimerSys.nodes]
  · simp [TimerSys.nodes, here]

theorem Linked.setComponents {sys : TimerSys} (linked : sys.Linked) (thread : ThreadRef)
    (components : List CompRef) :
    TimerSys.Linked
      { sys with
        thread := Function.update sys.thread thread
          { sys.thread thread with components := components } } := by
  have nodes_eq := setComponents_nodes sys thread components
  refine ⟨?_, ?_, ?_⟩
  · intro place ref member
    exact linked.armed place ref (nodes_eq place ▸ member)
  · intro ref timer found running
    obtain ⟨place, home, member⟩ := linked.running ref timer found running
    exact ⟨place, home, (nodes_eq place).symm ▸ member⟩
  · intro place
    exact (nodes_eq place).symm ▸ linked.distinct place

/-! ## What the operations do -/

@[simp]
theorem setNodes_components (sys : TimerSys) (thread place : ThreadRef) (nodes : Array TimerRef) :
    ((sys.setNodes thread nodes).thread place).components = (sys.thread place).components := by
  rcases eq_or_ne place thread with rfl | different
  · simp [setNodes]
  · simp [setNodes, different]

@[simp]
theorem insertTimer_components (sys : TimerSys) (thread place : ThreadRef) (ref : TimerRef)
    (timer : Timer) :
    ((sys.insertTimer thread ref timer).thread place).components =
      (sys.thread place).components := by
  simp [insertTimer, heapifyUp]

theorem rearm_components (sys : TimerSys) (thread place : ThreadRef) (ref : TimerRef)
    (timer : Timer) (now : Nat) :
    ((sys.rearm thread ref timer now).thread place).components =
      (sys.thread place).components := by
  unfold rearm
  split
  · simp
  · simp

theorem cancel_components (sys : TimerSys) (thread place : ThreadRef) (owner : CompRef) :
    ((sys.nosSchedulerCancelTimersByOwner thread owner).thread place).components =
      (sys.thread place).components := by
  simp [nosSchedulerCancelTimersByOwner, cancelScan_released]

theorem nosTimerCreate_cases {sys after : TimerSys} {ref : TimerRef} {callback : Option Nat}
    {arg : Nat} (created : sys.nosTimerCreate ref callback arg = some after) :
    sys.timer ref = none ∧
      ∃ timer, timer.isRunning = false ∧ timer.owner = none ∧ after = sys.setTimer ref (some timer) := by
  unfold nosTimerCreate at created
  split at created
  · simp at created
  · rename_i missing
    exact ⟨missing, _, rfl, rfl, (Option.some.inj created).symm⟩

/-- What `nos_timer_start` does: nothing, or it arms an idle timer on the thread of the caller. -/
inductive StartResult (sys : TimerSys) (self : CompRef) :
    Option TimerRef → TimerSys → Status → Prop
  | refused (ref : Option TimerRef) : StartResult sys self ref sys .err
  | armed {thread : ThreadRef} {ref : TimerRef} {timer armed : Timer}
      (located : sys.findThreadOfComponent self = some thread)
      (found : sys.timer ref = some timer) (idle : timer.isRunning = false)
      (room : (sys.nodes thread).size < (sys.thread thread).capacity)
      (running : armed.isRunning = true) (owner : armed.owner = some self)
      (home : armed.ownerThread = some thread) :
      StartResult sys self (some ref) (sys.insertTimer thread ref armed) .ok

theorem nosTimerStart_result {sys after : TimerSys} {self : CompRef} {ref : Option TimerRef}
    {intervalMs now : Nat} {isPeriodic : Bool} {status : Status}
    (started : sys.nosTimerStart self ref intervalMs isPeriodic now = some (after, status)) :
    StartResult sys self ref after status := by
  unfold nosTimerStart at started
  split at started
  · rename_i thread ref located
    split at started
    · simp at started
    · rename_i timer found
      split at started
      · obtain ⟨rfl, rfl⟩ := Prod.mk.inj (Option.some.inj started)
        exact .refused _
      · rename_i idle
        split at started
        · obtain ⟨rfl, rfl⟩ := Prod.mk.inj (Option.some.inj started)
          exact .refused _
        · rename_i room
          obtain ⟨rfl, rfl⟩ := Prod.mk.inj (Option.some.inj started)
          exact .armed located found (by simpa using idle) (Nat.lt_of_not_le room) rfl rfl rfl
  · obtain ⟨rfl, rfl⟩ := Prod.mk.inj (Option.some.inj started)
    exact .refused _

/-- The root that `process_timers` takes out was the timer of a node of the heap. -/
theorem popDue_cases {sys popped : TimerSys} {thread : ThreadRef} {now : Nat} {ref : TimerRef}
    (due : sys.popDue thread now = some (ref, popped)) :
    ref ∈ sys.nodes thread ∧
      popped.timer = (sys.setTimer ref
        ((sys.timer ref).map fun timer => { timer with isRunning := false })).timer ∧
      ∀ place, (popped.thread place).components = (sys.thread place).components := by
  unfold popDue at due
  split at due
  · rename_i bound
    split at due
    · simp at due
    · obtain ⟨rfl, rfl⟩ := Prod.mk.inj (Option.some.inj due)
      refine ⟨Array.getElem_mem bound, rfl, ?_⟩
      intro place
      simp [removeNode, heapifyDown]
  · simp at due

/-! ## One operation -/

/-- One operation keeps the links, and keeps the order exactly when its removal does. -/
theorem step_linked_ordered {sys after : TimerSys} {op : TimerOp} (linked : sys.Linked)
    (stepped : sys.step op = some after) :
    after.Linked ∧ (sys.HeapOrdered → (after.HeapOrdered ↔ sys.StepKeepsOrder op)) := by
  have of_keeps (keeps : Keeps sys after) (free : sys.StepKeepsOrder op) :
      after.Linked ∧ (sys.HeapOrdered → (after.HeapOrdered ↔ sys.StepKeepsOrder op)) :=
    ⟨keeps.linked linked, fun ordered => iff_of_true (keeps.ordered linked ordered) free⟩
  have of_removed {ref : TimerRef} (removed : Removed sys ref after)
      (guard : sys.StepKeepsOrder op ↔ sys.RemovalKeepsOrder ref) :
      after.Linked ∧ (sys.HeapOrdered → (after.HeapOrdered ↔ sys.StepKeepsOrder op)) :=
    ⟨removed.linked linked, fun ordered =>
      (removed.heapOrdered_iff linked ordered).trans guard.symm⟩
  cases op with
  | create ref callback arg => exact of_keeps (nosTimerCreate_keeps stepped) trivial
  | start self ref intervalMs isPeriodic now =>
      obtain ⟨⟨_, status⟩, started, rfl⟩ := Option.map_eq_some_iff.mp stepped
      exact of_keeps (nosTimerStart_keeps started) trivial
  | stop self ref =>
      obtain ⟨⟨_, status⟩, stopped, rfl⟩ := Option.map_eq_some_iff.mp stepped
      cases ref with
      | none =>
          obtain ⟨rfl, rfl⟩ := Prod.mk.inj (Option.some.inj stopped)
          exact of_keeps (Keeps.refl sys) trivial
      | some ref => exact of_removed (linked.nosTimerStop_removed stopped) Iff.rfl
  | delete ref =>
      cases ref with
      | none =>
          obtain rfl := Option.some.inj stepped
          exact of_keeps (Keeps.refl sys) trivial
      | some ref => exact of_removed (linked.nosTimerDelete_removed stepped) Iff.rfl
  | cancelByOwner thread owner =>
      obtain rfl := Option.some.inj stepped
      exact of_keeps ⟨fun linked => linked.cancel thread owner,
        fun _ ordered => ordered.cancel thread owner⟩ trivial
  | process thread readings =>
      obtain rfl := Option.some.inj stepped
      exact of_keeps (processTimers_keeps sys thread readings) trivial
  | setStatus comp status =>
      obtain rfl := Option.some.inj stepped
      exact of_keeps ⟨fun linked => ⟨linked.armed, linked.running, linked.distinct⟩,
        fun _ ordered => ordered⟩ trivial
  | setComponents thread components =>
      obtain rfl := Option.some.inj stepped
      have nodes_eq := setComponents_nodes sys thread components
      refine of_keeps ⟨fun linked => linked.setComponents thread components, ?_⟩ trivial
      intro _ ordered place
      exact (nodes_eq place).symm ▸ ordered place

theorem Initial.linked {sys : TimerSys} (initial : sys.Initial) : sys.Linked := by
  refine ⟨?_, ?_, ?_⟩
  · intro thread ref member
    simp [TimerSys.nodes, (initial.1 thread).1] at member
  · intro ref timer found
    simp [initial.2 ref] at found
  · intro thread
    simp [TimerSys.nodes, (initial.1 thread).1]

theorem Initial.heapOrdered {sys : TimerSys} (initial : sys.Initial) : sys.HeapOrdered := by
  intro thread child inside
  simp [TimerSys.nodes, (initial.1 thread).1] at inside

/-- Along a run from freshly initialised threads, the deadline order holds in every state exactly
when no stop or delete moves the last node of a heap below a later parent. -/
theorem deadlineOrder_along_run_iff {sys after : TimerSys} (initial : sys.Initial)
    {ops : List TimerOp} (execution : Transition.run step sys ops = some after) :
    Transition.Visits step DeadlineOrder sys ops ↔
      Transition.Guarded step StepKeepsOrder sys ops := by
  refine Transition.visits_iff_guarded Linked ?_ ?_ initial.linked
    (initial.linked.deadlineOrder_iff.mpr initial.heapOrdered) execution
  · intro before op after linked stepped
    exact (step_linked_ordered linked stepped).1
  · intro before op after linked order stepped
    obtain ⟨after_linked, decided⟩ := step_linked_ordered linked stepped
    rw [after_linked.deadlineOrder_iff]
    exact decided (linked.deadlineOrder_iff.mp order)

/-- One freshly initialised thread with one active component. -/
def exampleSys : TimerSys where
  threadCount := 1
  thread _ := { components := [7], nodes := #[], capacity := 128 }
  timer _ := none
  status _ := .active

theorem exampleSys_initial : exampleSys.Initial :=
  ⟨fun _ => ⟨rfl, rfl⟩, fun _ => rfl⟩

/-- Create a timer and start it at clock reading 1000. -/
def armAt (ref : TimerRef) (intervalMs : Nat) : List TimerOp :=
  [.create ref (some 0) 0, .start 7 (some ref) intervalMs false 1000]

/-- Six timers, of which the fourth is stopped: its place has the parent with interval 10, and the
last node has interval 3. -/
def earlyLastNode : List TimerOp :=
  armAt 1 1 ++ armAt 2 10 ++ armAt 3 2 ++ armAt 4 11 ++ armAt 5 12 ++ armAt 6 3 ++
    [.stop 7 (some 4)]

/-- Whether the node in place 3 expires before its parent. -/
def misplacedThird (sys : TimerSys) : Bool :=
  if bound : 3 < (sys.nodes 0).size then
    sys.expireAt (sys.nodes 0)[3] < sys.expireAt (sys.nodes 0)[1]
  else false

/-- Stopping a timer in the middle of the heap breaks the deadline order. -/
theorem stop_breaks_deadlineOrder :
    ∃ sys ops after, sys.Initial ∧ Transition.run step sys ops = some after ∧
      ¬ after.DeadlineOrder := by
  have misplaced : (Transition.run step exampleSys earlyLastNode).map misplacedThird = some true := by
    decide +kernel
  obtain ⟨after, execution, broken⟩ := Option.map_eq_some_iff.mp misplaced
  refine ⟨exampleSys, earlyLastNode, after, exampleSys_initial, execution, ?_⟩
  intro order
  unfold misplacedThird at broken
  split at broken
  · rename_i bound
    have edge := (order 0).1 3 bound (by decide)
    simp only [decide_eq_true_eq] at broken
    exact absurd edge (not_le_of_gt broken)
  · simp at broken

/-- The exact condition on the run that stops the fourth of six timers. -/
theorem deadlineOrder_along_earlyLastNode_iff :
    ∃ after, Transition.run step exampleSys earlyLastNode = some after ∧
      (Transition.Visits step DeadlineOrder exampleSys earlyLastNode ↔
        Transition.Guarded step StepKeepsOrder exampleSys earlyLastNode) := by
  obtain ⟨after, execution⟩ : ∃ after, Transition.run step exampleSys earlyLastNode = some after :=
    Option.isSome_iff_exists.mp (by decide +kernel)
  exact ⟨after, execution, deadlineOrder_along_run_iff exampleSys_initial execution⟩

end TimerSys
end CodexNos.Scheduler
