import CodexNos.Node.Instances

/-!
# The course of an instance

What may happen to an instance, in which order: first `init`, then `start`, then messages and timers,
and in the end `stop` before the instance is freed.  Between the calls of a node the history of an
instance is one of a few courses, which its status tells apart.
-/

namespace CodexNos.Node

namespace LifeEvent

/-- A call of `init`. -/
def isInit : LifeEvent → Bool
  | init _ => true
  | _ => false

/-- A call of `start`. -/
def isStart : LifeEvent → Bool
  | start _ => true
  | _ => false

/-- A call of `on_msg` or of a timer callback. -/
def isService : LifeEvent → Bool
  | onMsg | timer => true
  | _ => false

end LifeEvent

/-- The order of the callbacks of one instance. -/
structure Orderly (set : Callbacks) (events : List LifeEvent) : Prop where
  /-- `init` comes before everything else, and so at most once. -/
  init_first : events.Pairwise fun _ later => later.isInit = false
  /-- Before `start` there is only an `init` that succeeded, and so `start` comes at most once. -/
  start_second : events.Pairwise fun earlier later => later.isStart → earlier = .init true
  /-- `start` comes after an `init` that succeeded, if there is an `init`. -/
  start_inited : set.init → (∃ event ∈ events, event.isStart) → .init true ∈ events
  /-- Before messages and timers there is no `stop`, no free and no failure. -/
  service_between : events.Pairwise fun earlier later => later.isService →
    earlier = .init true ∨ earlier = .start true ∨ earlier.isService
  /-- Messages and timers come after an `init` that succeeded, if there is an `init`. -/
  service_inited : set.init → (∃ event ∈ events, event.isService) → .init true ∈ events
  /-- Messages and timers come after a `start` that succeeded, if there is a `start`. -/
  service_started : set.start → (∃ event ∈ events, event.isService) → .start true ∈ events
  /-- Nothing comes after the free. -/
  freed_last : events.Pairwise fun earlier _ => earlier ≠ .freed
  /-- `stop` comes at most once. -/
  stop_once : events.count .stop ≤ 1
  /-- `stop` comes exactly once before the free, if there is a `stop`. -/
  stop_before_free : .freed ∈ events → events.count .stop = if set.stop then 1 else 0

namespace Callbacks

variable (set : Callbacks)

/-- The call of `start`. -/
def started : List LifeEvent := if set.start then [.start true] else []

/-- The call of `stop` and the free. -/
def ended : List LifeEvent := (if set.stop then [.stop] else []) ++ [.freed]

end Callbacks

/-- The history of an instance that was not freed, by its status. -/
def Underway (set : Callbacks) (status : CompStatus) (events : List LifeEvent) : Prop :=
  match status with
  | .inited => events = set.inited
  | .active =>
      ∃ served : List LifeEvent, (∀ event ∈ served, event.isService) ∧
        events = set.inited ++ set.started ++ served
  | .error => set.start ∧ events = set.inited ++ [.start false]
  | .loaded | .stopped => False

/-- The history of an instance that was freed. -/
inductive Over (set : Callbacks) : List LifeEvent → Prop
  /-- After some time. -/
  | later {status : CompStatus} {events : List LifeEvent} (underway : Underway set status events) :
      Over set (events ++ set.ended)
  /-- After its export. -/
  | exportFailed : Over set set.ended
  /-- After its `init`. -/
  | initFailed (init : set.init) : Over set (.init false :: set.ended)

variable {set : Callbacks} {events : List LifeEvent}

theorem Callbacks.mem_inited {event : LifeEvent} :
    event ∈ set.inited ↔ set.init ∧ event = .init true := by
  unfold inited
  split <;> simp_all

theorem Callbacks.mem_started {event : LifeEvent} :
    event ∈ set.started ↔ set.start ∧ event = .start true := by
  unfold started
  split <;> simp_all

/-- What may come before a message or a timer. -/
def LifeEvent.precedesService (event : LifeEvent) : Prop :=
  event = .init true ∨ event = .start true ∨ event.isService

theorem orderly_front : Orderly set (set.inited ++ set.started) := by
  cases init : set.init <;> cases start : set.start <;>
    constructor <;>
    simp [Callbacks.inited, Callbacks.started, init, start, LifeEvent.isInit, LifeEvent.isStart,
      LifeEvent.isService]

theorem orderly_failed (start : set.start) : Orderly set (set.inited ++ [.start false]) := by
  cases init : set.init <;>
    constructor <;>
    simp [Callbacks.inited, init, start, LifeEvent.isInit, LifeEvent.isStart, LifeEvent.isService]

theorem orderly_inited : Orderly set set.inited := by
  cases init : set.init <;>
    constructor <;>
    simp [Callbacks.inited, init, LifeEvent.isInit, LifeEvent.isStart, LifeEvent.isService]

theorem Orderly.serve (orderly : Orderly set events) {event : LifeEvent} (service : event.isService)
    (before : ∀ earlier ∈ events, earlier.precedesService)
    (inited : set.init → .init true ∈ events) (started : set.start → .start true ∈ events) :
    Orderly set (events ++ [event]) := by
  have no_init : event.isInit = false := by cases event <;> simp_all [LifeEvent.isInit,
    LifeEvent.isService]
  have no_start : event.isStart = false := by cases event <;> simp_all [LifeEvent.isStart,
    LifeEvent.isService]
  have no_stop : event ≠ .stop := by rintro rfl; simp [LifeEvent.isService] at service
  have no_free : event ≠ .freed := by rintro rfl; simp [LifeEvent.isService] at service
  have alive : ∀ earlier ∈ events, earlier ≠ .stop ∧ earlier ≠ .freed := by
    intro earlier member
    rcases before earlier member with rfl | rfl | service'
    · simp
    · simp
    · constructor <;> rintro rfl <;> simp [LifeEvent.isService] at service'
  have uncounted : events.count .stop = 0 :=
    List.count_eq_zero.mpr fun member => (alive _ member).1 rfl
  refine ⟨?_, ?_, ?_, ?_, ?_, ?_, ?_, ?_, ?_⟩
  · exact List.pairwise_append.mpr ⟨orderly.init_first, List.pairwise_singleton _ _, by simp [no_init]⟩
  · exact List.pairwise_append.mpr
      ⟨orderly.start_second, List.pairwise_singleton _ _, by simp [no_start]⟩
  · rintro init -
    exact List.mem_append_left _ (inited init)
  · exact List.pairwise_append.mpr ⟨orderly.service_between, List.pairwise_singleton _ _,
      fun earlier member _ _ _ => before earlier member⟩
  · rintro init -
    exact List.mem_append_left _ (inited init)
  · rintro start -
    exact List.mem_append_left _ (started start)
  · exact List.pairwise_append.mpr ⟨orderly.freed_last, List.pairwise_singleton _ _,
      fun earlier member _ _ => (alive earlier member).2⟩
  · simp [uncounted, no_stop]
  · intro freed
    rcases List.mem_append.mp freed with old | new
    · exact absurd rfl (alive _ old).2
    · exact absurd (List.mem_singleton.mp new).symm no_free

theorem Orderly.finish (orderly : Orderly set events)
    (alive : ∀ event ∈ events, event ≠ .stop ∧ event ≠ .freed) :
    Orderly set (events ++ set.ended) := by
  have uncounted : events.count .stop = 0 :=
    List.count_eq_zero.mpr fun member => (alive _ member).1 rfl
  have last : ∀ event ∈ set.ended, event = .stop ∧ set.stop ∨ event = .freed := by
    cases stop : set.stop <;> simp [Callbacks.ended, stop]
  have counted : (events ++ set.ended).count .stop = if set.stop then 1 else 0 := by
    cases stop : set.stop <;> simp [Callbacks.ended, stop, uncounted]
  have quiet : ∀ event ∈ set.ended,
      event.isInit = false ∧ event.isStart = false ∧ event.isService = false := by
    intro event member
    rcases last event member with ⟨rfl, -⟩ | rfl <;>
      simp [LifeEvent.isInit, LifeEvent.isStart, LifeEvent.isService]
  have old {test : LifeEvent → Bool} (none_new : ∀ event ∈ set.ended, test event = false)
      (some_one : ∃ event ∈ events ++ set.ended, test event) : ∃ event ∈ events, test event := by
    obtain ⟨event, member, tested⟩ := some_one
    rcases List.mem_append.mp member with before | new
    · exact ⟨event, before, tested⟩
    · simp [none_new event new] at tested
  have pairs {rel : LifeEvent → LifeEvent → Prop} (before : events.Pairwise rel)
      (new : ∀ event ∈ set.ended, ∀ earlier, rel earlier event) : (events ++ set.ended).Pairwise rel :=
    List.pairwise_append.mpr ⟨before, List.pairwise_of_forall_mem_list fun earlier _ event member =>
      new event member earlier, fun earlier _ event member => new event member earlier⟩
  refine ⟨?_, ?_, ?_, ?_, ?_, ?_, ?_, ?_, ?_⟩
  · exact pairs orderly.init_first fun event member _ => (quiet event member).1
  · exact pairs orderly.start_second fun event member _ start => by
      simp [(quiet event member).2.1] at start
  · intro init start
    exact List.mem_append_left _
      (orderly.start_inited init (old (fun event member => (quiet event member).2.1) start))
  · exact pairs orderly.service_between fun event member _ service => by
      simp [(quiet event member).2.2] at service
  · intro init service
    exact List.mem_append_left _
      (orderly.service_inited init (old (fun event member => (quiet event member).2.2) service))
  · intro start service
    exact List.mem_append_left _
      (orderly.service_started start (old (fun event member => (quiet event member).2.2) service))
  · refine List.pairwise_append.mpr ⟨orderly.freed_last, ?_, fun earlier member _ _ =>
      (alive earlier member).2⟩
    cases stop : set.stop <;> simp [Callbacks.ended, stop]
  · rw [counted]
    split <;> simp
  · exact fun _ => counted

/-- An instance that was not freed has kept the order, and was not stopped. -/
theorem Underway.orderly {status : CompStatus} (underway : Underway set status events) :
    Orderly set events ∧ ∀ event ∈ events, event ≠ .stop ∧ event ≠ .freed := by
  cases status with
  | inited =>
      obtain rfl : events = set.inited := underway
      refine ⟨orderly_inited, fun event member => ?_⟩
      obtain ⟨-, rfl⟩ := Callbacks.mem_inited.mp member
      simp
  | active =>
      obtain ⟨served, services, rfl⟩ := underway
      have before : ∀ (part : List LifeEvent), (∀ event ∈ part, event.isService) →
          ∀ event ∈ set.inited ++ set.started ++ part, event.precedesService := by
        intro part services event member
        simp only [List.mem_append, Callbacks.mem_inited, Callbacks.mem_started] at member
        rcases member with (⟨-, rfl⟩ | ⟨-, rfl⟩) | member
        · exact .inl rfl
        · exact .inr (.inl rfl)
        · exact .inr (.inr (services event member))
      refine ⟨?_, fun event member => ?_⟩
      · induction served using List.reverseRecOn with
        | nil => simpa using orderly_front
        | append_singleton earlier event ih =>
            have services' : ∀ event ∈ earlier, event.isService := fun event member =>
              services event (List.mem_append_left _ member)
            rw [← List.append_assoc]
            refine (ih services').serve (services event (by simp)) (before earlier services') ?_ ?_
            · intro init
              simp [Callbacks.mem_inited, init]
            · intro start
              simp [Callbacks.mem_started, start]
      · rcases before served services event member with rfl | rfl | service
        · simp
        · simp
        · constructor <;> rintro rfl <;> simp [LifeEvent.isService] at service
  | error =>
      obtain ⟨start, rfl⟩ := underway
      refine ⟨orderly_failed start, fun event member => ?_⟩
      simp only [List.mem_append, Callbacks.mem_inited, List.mem_singleton] at member
      rcases member with ⟨-, rfl⟩ | rfl <;> simp
  | loaded => exact underway.elim
  | stopped => exact underway.elim

theorem Over.orderly (ended : Over set events) : Orderly set events := by
  cases ended with
  | later underway => exact underway.orderly.1.finish underway.orderly.2
  | exportFailed =>
      have empty : Orderly set [] := by constructor <;> simp
      exact empty.finish (by simp)
  | initFailed init =>
      have failed : Orderly set [.init false] := by
        constructor <;> simp [LifeEvent.isStart, LifeEvent.isService]
      exact failed.finish (by simp)

end CodexNos.Node
