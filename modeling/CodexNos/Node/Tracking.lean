import CodexNos.Node.Courses

/-!
# Tracking the instances of a node

Between the calls of a node, each address with an instance has an instance of its own, whose history
is the course that its status tells, and every other instance is over.  A running timer was armed
for the instance of its owner.
-/

namespace CodexNos.Node

open Lib Messaging Scheduler
open NodeState (Call Turn)

namespace Lives

/-- There is an instance at the address. -/
def Alive (lives : Lives) (comp : CompRef) : Prop := (lives.node.instances comp).isSome = true

/-- The status at an address. -/
def status (lives : Lives) (comp : CompRef) : CompStatus := lives.node.sys.status comp

/-- A running timer was armed for the instance of its owner. -/
def ArmedWell (lives : Lives) : Prop :=
  ∀ ref timer comp, lives.node.sys.timer ref = some timer → timer.isRunning = true →
    timer.owner = some comp → lives.armedFor ref = lives.number comp

/-- The histories are in order. -/
structure Tracked (lives : Lives) : Prop where
  /-- An address with an instance has a number. -/
  numbered : ∀ comp, lives.Alive comp → lives.number comp < lives.count
  /-- Two addresses have two numbers. -/
  apart : ∀ comp other, lives.Alive comp → lives.Alive other →
    lives.number comp = lives.number other → comp = other
  /-- The instances at the addresses are underway. -/
  underway : ∀ comp, lives.Alive comp →
    Underway (lives.callbacks comp) (lives.status comp) (lives.history (lives.number comp))
  /-- The other instances are over. -/
  freed : ∀ instanceNo < lives.count, (∀ comp, lives.Alive comp → lives.number comp ≠ instanceNo) →
    Over (lives.set instanceNo) (lives.history instanceNo)
  /-- What has no instance has no history. -/
  unborn : ∀ instanceNo, lives.count ≤ instanceNo → lives.history instanceNo = []
  /-- Timers. -/
  armed : lives.ArmedWell

theorem Tracked.orderly {lives : Lives} (tracked : lives.Tracked) {instanceNo : Nat}
    (made : instanceNo < lives.count) :
    Orderly (lives.set instanceNo) (lives.history instanceNo) := by
  by_cases alive : ∃ comp, lives.Alive comp ∧ lives.number comp = instanceNo
  · obtain ⟨comp, alive, rfl⟩ := alive
    exact (tracked.underway comp alive).orderly.1
  · refine (tracked.freed instanceNo made fun comp present same => ?_).orderly
    exact alive ⟨comp, present, same⟩

/-! ## Changes of one instance -/

/-- Only the instance at an address changes, and these events happen to it. -/
structure Touches (before after : Lives) (comp : CompRef) (events : List LifeEvent) : Prop where
  count : after.count = before.count
  set : after.set = before.set
  number : after.number = before.number
  history : after.history = Function.update before.history (before.number comp)
    (before.history (before.number comp) ++ events)
  instances : ∀ other ≠ comp, after.node.instances other = before.node.instances other
  status : ∀ other ≠ comp, after.status other = before.status other

section Touches

variable {before middle after : Lives} {comp : CompRef} {events later : List LifeEvent}

theorem Touches.trans (first : Touches before middle comp events)
    (second : Touches middle after comp later) : Touches before after comp (events ++ later) where
  count := second.count.trans first.count
  set := second.set.trans first.set
  number := second.number.trans first.number
  history := by
    rw [second.history, first.number, first.history, Function.update_self, Function.update_idem,
      List.append_assoc]
  instances other different :=
    (second.instances other different).trans (first.instances other different)
  status other different := (second.status other different).trans (first.status other different)

theorem touches_withNode (lives : Lives) (comp : CompRef) {node : NodeState}
    (instances : ∀ other ≠ comp, node.instances other = lives.node.instances other)
    (status : ∀ other ≠ comp, node.sys.status other = lives.node.sys.status other) :
    Touches lives (lives.withNode node) comp [] where
  count := rfl
  set := rfl
  number := rfl
  history := by simp [withNode]
  instances := instances
  status := status

theorem touches_recordAt (lives : Lives) (comp : CompRef) (events : List LifeEvent) :
    Touches lives (lives.recordAt comp events) comp events where
  count := rfl
  set := rfl
  number := rfl
  history := rfl
  instances _ _ := rfl
  status _ _ := rfl

/-- A change of one instance keeps the histories in order, if its own history stays so. -/
theorem Tracked.touch (tracked : before.Tracked) (alive : before.Alive comp)
    (touches : Touches before after comp events) (armed : after.ArmedWell)
    (stays : after.Alive comp → Underway (before.callbacks comp) (after.status comp)
      (before.history (before.number comp) ++ events))
    (dies : ¬ after.Alive comp →
      Over (before.callbacks comp) (before.history (before.number comp) ++ events)) :
    after.Tracked := by
  have alive_before : ∀ other, after.Alive other → before.Alive other := by
    intro other present
    rcases eq_or_ne other comp with rfl | different
    · exact alive
    · rwa [Alive, touches.instances other different] at present
  have kept : ∀ other, other ≠ before.number comp →
      after.history other = before.history other := by
    intro other different
    rw [touches.history, Function.update_of_ne different]
  have own : after.history (before.number comp) =
      before.history (before.number comp) ++ events := by
    rw [touches.history, Function.update_self]
  refine ⟨?_, ?_, ?_, ?_, ?_, armed⟩
  · intro other present
    rw [touches.number, touches.count]
    exact tracked.numbered other (alive_before other present)
  · intro left right present present' same
    rw [touches.number] at same
    exact tracked.apart left right (alive_before left present) (alive_before right present') same
  · intro other present
    rw [callbacks, touches.number, touches.set]
    rcases eq_or_ne other comp with rfl | different
    · rw [own]
      exact stays present
    · have number_ne : before.number other ≠ before.number comp := fun same =>
        different (tracked.apart other comp (alive_before other present) alive same)
      rw [kept _ number_ne, touches.status other different]
      exact tracked.underway other (alive_before other present)
  · intro instanceNo made absent
    rw [touches.count] at made
    rw [touches.number] at absent
    rw [touches.set]
    rcases eq_or_ne instanceNo (before.number comp) with rfl | different
    · rw [own]
      exact dies fun present => absent comp present rfl
    · rw [kept _ different]
      refine tracked.freed instanceNo made fun other present => ?_
      rcases eq_or_ne other comp with rfl | other_ne
      · exact different.symm
      · refine absent other ?_
        rwa [Alive, touches.instances other other_ne]
  · intro instanceNo unmade
    rw [touches.count] at unmade
    have different : instanceNo ≠ before.number comp := by
      have made := tracked.numbered comp alive
      omega
    rw [kept _ different]
    exact tracked.unborn instanceNo unmade

end Touches

theorem Tracked.of_same {before after : Lives} (tracked : before.Tracked)
    (count : after.count = before.count) (set : after.set = before.set)
    (number : after.number = before.number) (history : after.history = before.history)
    (instances : after.node.instances = before.node.instances)
    (status : after.node.sys.status = before.node.sys.status) (armed : after.ArmedWell) :
    after.Tracked := by
  have alive (comp : CompRef) : after.Alive comp ↔ before.Alive comp := by
    rw [Alive, instances, Alive]
  refine ⟨?_, ?_, ?_, ?_, ?_, armed⟩
  · intro comp present
    rw [number, count]
    exact tracked.numbered comp ((alive comp).mp present)
  · intro comp other present present' same
    rw [number] at same
    exact tracked.apart comp other ((alive comp).mp present) ((alive other).mp present') same
  · intro comp present
    rw [callbacks, Lives.status, number, set, history, status]
    exact tracked.underway comp ((alive comp).mp present)
  · intro instanceNo made absent
    rw [count] at made
    rw [number] at absent
    rw [set, history]
    exact tracked.freed instanceNo made fun comp present => absent comp ((alive comp).mpr present)
  · intro instanceNo unmade
    rw [count] at unmade
    rw [history]
    exact tracked.unborn instanceNo unmade

theorem ArmedWell.of_fewer {before after : Lives} (armed : before.ArmedWell)
    (same : after.armedFor = before.armedFor) (number : after.number = before.number)
    (fewer : ∀ ref timer, after.node.sys.timer ref = some timer → timer.isRunning = true →
      before.node.sys.timer ref = some timer) : after.ArmedWell := by
  intro ref timer comp found running owner
  rw [same, number]
  exact armed ref timer comp (fewer ref timer found running) running owner

/-! ## New instances -/

theorem Tracked.birth {before after : Lives} (tracked : before.Tracked) {comp : CompRef}
    {set : Callbacks} (free : ¬ before.Alive comp) (alive : after.Alive comp)
    (count : after.count = before.count + 1)
    (set_eq : after.set = Function.update before.set before.count set)
    (number : after.number = Function.update before.number comp before.count)
    (history : after.history = Function.update before.history before.count set.inited)
    (instances : ∀ other ≠ comp, after.node.instances other = before.node.instances other)
    (status : ∀ other ≠ comp, after.status other = before.status other)
    (ready : after.status comp = .inited) (armed : after.ArmedWell) : after.Tracked := by
  have alive_of_ne {other : CompRef} (different : other ≠ comp) :
      after.Alive other ↔ before.Alive other := by
    rw [Alive, instances other different, Alive]
  have number_of_ne {other : CompRef} (different : other ≠ comp) :
      after.number other = before.number other := by
    rw [number, Function.update_of_ne different]
  have number_self : after.number comp = before.count := by
    rw [number, Function.update_self]
  refine ⟨?_, ?_, ?_, ?_, ?_, armed⟩
  · intro other present
    rw [count]
    rcases eq_or_ne other comp with rfl | different
    · rw [number_self]
      exact Nat.lt_succ_self _
    · rw [number_of_ne different]
      exact (tracked.numbered other ((alive_of_ne different).mp present)).trans
        (Nat.lt_succ_self _)
  · intro left right present present' same
    rcases eq_or_ne left comp with rfl | left_ne
    · rcases eq_or_ne right left with rfl | right_ne
      · rfl
      · rw [number_self, number_of_ne right_ne] at same
        exact absurd (tracked.numbered right ((alive_of_ne right_ne).mp present')) (by omega)
    · rcases eq_or_ne right comp with rfl | right_ne
      · rw [number_self, number_of_ne left_ne] at same
        exact absurd (tracked.numbered left ((alive_of_ne left_ne).mp present)) (by omega)
      · rw [number_of_ne left_ne, number_of_ne right_ne] at same
        exact tracked.apart left right ((alive_of_ne left_ne).mp present)
          ((alive_of_ne right_ne).mp present') same
  · intro other present
    rcases eq_or_ne other comp with rfl | different
    · rw [callbacks, number_self, set_eq, history, Function.update_self, Function.update_self,
        ready]
      exact rfl
    · have present' := (alive_of_ne different).mp present
      have old : before.number other ≠ before.count := (tracked.numbered other present').ne
      rw [callbacks, number_of_ne different, set_eq, history, Function.update_of_ne old,
        Function.update_of_ne old, status other different]
      exact tracked.underway other present'
  · intro instanceNo made absent
    rw [count] at made
    have old : instanceNo ≠ before.count := by
      rintro rfl
      exact absent comp alive number_self
    rw [set_eq, history, Function.update_of_ne old, Function.update_of_ne old]
    refine tracked.freed instanceNo (by omega) fun other present => ?_
    have different : other ≠ comp := by
      rintro rfl
      exact free present
    rw [← number_of_ne different]
    exact absent other ((alive_of_ne different).mpr present)
  · intro instanceNo unmade
    rw [count] at unmade
    rw [history, Function.update_of_ne (by omega)]
    exact tracked.unborn instanceNo (by omega)

theorem Tracked.stillborn {before : Lives} (tracked : before.Tracked) {set : Callbacks}
    {events : List LifeEvent} (ended : Over set events) :
    ((before.born set).record before.count events).Tracked := by
  have unborn : before.history before.count = [] := tracked.unborn _ le_rfl
  refine ⟨?_, tracked.apart, ?_, ?_, ?_, tracked.armed⟩
  · intro comp present
    exact (tracked.numbered comp present).trans (Nat.lt_succ_self _)
  · intro comp present
    have old : before.number comp ≠ before.count := (tracked.numbered comp present).ne
    change Underway (Function.update before.set before.count set (before.number comp)) _
      (Function.update before.history before.count _ (before.number comp))
    rw [Function.update_of_ne old, Function.update_of_ne old]
    exact tracked.underway comp present
  · intro instanceNo made absent
    change Over (Function.update before.set before.count set instanceNo)
      (Function.update before.history before.count (before.history before.count ++ events) instanceNo)
    rcases eq_or_ne instanceNo before.count with rfl | old
    · rw [Function.update_self, Function.update_self, unborn]
      exact ended
    · rw [Function.update_of_ne old, Function.update_of_ne old]
      exact tracked.freed instanceNo (Nat.lt_of_le_of_ne (Nat.le_of_lt_succ made) old) absent
  · intro instanceNo unmade
    have unmade' : before.count + 1 ≤ instanceNo := unmade
    change Function.update before.history before.count _ instanceNo = []
    rw [Function.update_of_ne (by omega)]
    exact tracked.unborn instanceNo (by omega)

end Lives

end CodexNos.Node
