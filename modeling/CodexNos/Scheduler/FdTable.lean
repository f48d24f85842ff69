import CodexNos.Lib.Transition
import CodexNos.Types

/-!
# File-descriptor dispatch

A scheduler thread keeps the callbacks of its descriptors in a table of 32 slots and hands the
address of a slot to epoll when it registers a descriptor.  Removing a descriptor moves the last
entry into the vacated slot, while epoll keeps the address it was given.  The moved descriptor is
still dispatched from its old slot until that slot is filled again.
-/

namespace CodexNos.Scheduler

open Lib

/-- One slot of the descriptor table (`nos_fd_entry_t`). -/
structure FdEntry where
  /-- Registered descriptor. -/
  fd : Int
  /-- Callback address, absent when null. -/
  callback : Option Nat
  /-- Argument handed to the callback. -/
  arg : Nat
  deriving DecidableEq, Repr

/-- Address stored in the user data of an epoll registration. -/
inductive EntryPtr
  /-- The entry reserved for the wake-up descriptor. -/
  | notify
  /-- A slot of the descriptor table. -/
  | slot (index : Nat)
  deriving DecidableEq, Repr

/-- Descriptor table of a thread together with its epoll interest set. -/
structure FdThread where
  /-- Wake-up descriptor. -/
  notifyFd : Int
  /-- The 32 slots, of which the first `fdCount` are in use. -/
  fdEntries : Nat → FdEntry
  /-- Number of slots in use. -/
  fdCount : Nat
  /-- Address epoll keeps for each registered descriptor. -/
  epoll : Int → Option EntryPtr

namespace FdThread

/-- The entry behind an address. -/
def entry (thread : FdThread) : EntryPtr → FdEntry
  | .notify => ⟨thread.notifyFd, none, 0⟩
  | .slot index => thread.fdEntries index

/-- Fill the next slot and register its address with epoll; `added` is the outcome of the
registration. -/
def nosSchedulerAddFdEx (thread : FdThread) (fd : Int) (callback : Option Nat) (arg : Nat)
    (added : Bool) : FdThread × Status :=
  if 32 ≤ thread.fdCount then (thread, .err)
  else
    let filled :=
      { thread with
        fdEntries := Function.update thread.fdEntries thread.fdCount ⟨fd, callback, arg⟩
        fdCount := thread.fdCount + 1 }
    if added then
      ({ filled with epoll := Function.update filled.epoll fd (some (.slot thread.fdCount)) }, .ok)
    else (filled, .err)

/-- First slot in use that holds a descriptor. -/
def findSlot (thread : FdThread) (fd : Int) : Option Nat :=
  (List.range thread.fdCount).find? fun index => (thread.fdEntries index).fd = fd

/-- Unregister a descriptor and let the last entry take its slot. -/
def nosSchedulerRemoveFd (thread : FdThread) (fd : Int) : FdThread × Status :=
  let unregistered := { thread with epoll := Function.update thread.epoll fd none }
  match thread.findSlot fd with
  | some index =>
      ({ unregistered with
          fdEntries := Function.update thread.fdEntries index
            (thread.fdEntries (thread.fdCount - 1))
          fdCount := thread.fdCount - 1 }, .ok)
  | none => (unregistered, .err)

/-- What the run loop does for one reported event. -/
inductive Dispatch
  /-- Drain the wake-up descriptor. -/
  | readNotify
  /-- The entry has no callback. -/
  | skip
  /-- Invoke a callback. -/
  | call (callback : Nat) (fd : Int) (arg : Nat)
  deriving DecidableEq, Repr

/-- Dispatch the event whose user data is an entry address. -/
def dispatch (thread : FdThread) (ptr : EntryPtr) : Dispatch :=
  let entry := thread.entry ptr
  if entry.fd = thread.notifyFd then .readNotify
  else
    match entry.callback with
    | some callback => .call callback entry.fd entry.arg
    | none => .skip

/-- A callback is invoked for a descriptor exactly when the entry holds both. -/
theorem dispatch_eq_call_iff (thread : FdThread) (ptr : EntryPtr) (callback arg : Nat) {fd : Int}
    (ordinary : fd ≠ thread.notifyFd) :
    thread.dispatch ptr = .call callback fd arg ↔
      thread.entry ptr = ⟨fd, some callback, arg⟩ := by
  cases content : thread.entry ptr with
  | mk held held_callback held_arg =>
      unfold dispatch
      rw [content]
      by_cases wake : held = thread.notifyFd
      · simp [wake, Ne.symm ordinary]
      · cases held_callback <;> simp [wake]
        tauto

end FdThread

/-- A thread with its registrations and the events of the current batch. -/
structure FdSys where
  /-- Table and interest set. -/
  thread : FdThread
  /-- Callback and argument registered for each live descriptor. -/
  registered : Int → Option (Nat × Nat)
  /-- Reported events that are still to be dispatched: descriptor and user data. -/
  batch : List (Int × EntryPtr)

namespace FdSys

/-- Successful registrations and removals, and the two halves of the run loop. -/
inductive FdOp
  /-- `nos_scheduler_add_fd_ex` succeeds for a descriptor that is not live. -/
  | add (fd : Int) (callback arg : Nat)
  /-- `nos_scheduler_remove_fd` succeeds for a live descriptor. -/
  | remove (fd : Int)
  /-- `epoll_wait` reports a batch of at most ten ready descriptors. -/
  | epollWait (ready : List Int)
  /-- The run loop dispatches the next event of the batch. -/
  | dispatch

/-- Events reported for a list of ready descriptors. -/
def report (thread : FdThread) (ready : List Int) : List (Int × EntryPtr) :=
  ready.filterMap fun fd => (thread.epoll fd).map fun ptr => (fd, ptr)

/-- Execute one operation. -/
def step (sys : FdSys) : FdOp → Option FdSys
  | .add fd callback arg =>
      match sys.thread.epoll fd, sys.thread.nosSchedulerAddFdEx fd (some callback) arg true with
      | none, (thread, .ok) =>
          some
            { sys with
              thread := thread
              registered := Function.update sys.registered fd (some (callback, arg)) }
      | _, _ => none
  | .remove fd =>
      match sys.registered fd, sys.thread.nosSchedulerRemoveFd fd with
      | some _, (thread, .ok) =>
          some
            { sys with
              thread := thread
              registered := Function.update sys.registered fd none }
      | _, _ => none
  | .epollWait ready =>
      if sys.batch = [] ∧ ready.length ≤ 10 then
        some { sys with batch := report sys.thread ready }
      else none
  | .dispatch =>
      match sys.batch with
      | [] => none
      | _ :: batch => some { sys with batch := batch }

/-- A thread after initialisation: only the wake-up descriptor is registered. -/
def Initial (sys : FdSys) : Prop :=
  sys.thread.fdCount = 0 ∧
    sys.thread.epoll = Function.update (fun _ => none) sys.thread.notifyFd (some .notify) ∧
    (∀ fd, sys.registered fd = none) ∧ sys.batch = []

/-- Dispatching an event of a live descriptor invokes what was registered for it. -/
def EventOk (sys : FdSys) (fd : Int) (ptr : EntryPtr) : Prop :=
  ∀ callback arg, sys.registered fd = some (callback, arg) →
    sys.thread.dispatch ptr = .call callback fd arg

/-- Every event epoll would report now, and every event left in the batch, is dispatched to what
was registered for its descriptor, provided the descriptor is live. -/
def DispatchOk (sys : FdSys) : Prop :=
  (∀ fd ptr, sys.thread.epoll fd = some ptr → sys.EventOk fd ptr) ∧
    ∀ fd ptr, (fd, ptr) ∈ sys.batch → sys.EventOk fd ptr

/-- The next slot is not one that epoll or the batch still uses for a live descriptor, and an event
left over from an earlier registration of the same descriptor finds the new entry. -/
def SlotFree (sys : FdSys) (fd : Int) (callback arg : Nat) : Prop :=
  (∀ live, (sys.registered live).isSome →
    sys.thread.epoll live ≠ some (.slot sys.thread.fdCount)) ∧
  (∀ live ptr, (live, ptr) ∈ sys.batch → (sys.registered live).isSome →
    ptr ≠ .slot sys.thread.fdCount) ∧
  ∀ ptr, (fd, ptr) ∈ sys.batch →
    ptr = .slot sys.thread.fdCount ∨ sys.thread.entry ptr = ⟨fd, some callback, arg⟩

/-- Only registrations can go wrong. -/
def StepKeepsDispatch (sys : FdSys) : FdOp → Prop
  | .add fd callback arg => sys.SlotFree fd callback arg
  | _ => True

/-! ## The table itself -/

/-- The slots in use hold exactly the live descriptors, each once, and epoll knows exactly these
and the wake-up descriptor. -/
structure TableOk (sys : FdSys) : Prop where
  /-- A slot in use holds what was registered for its descriptor. -/
  entries : ∀ index < sys.thread.fdCount, ∃ callback arg,
    sys.registered (sys.thread.fdEntries index).fd = some (callback, arg) ∧
      (sys.thread.fdEntries index).callback = some callback ∧
      (sys.thread.fdEntries index).arg = arg
  /-- No descriptor occurs twice. -/
  distinct : ∀ index < sys.thread.fdCount, ∀ index' < sys.thread.fdCount,
    (sys.thread.fdEntries index).fd = (sys.thread.fdEntries index').fd → index = index'
  /-- Every live descriptor has a slot. -/
  present : ∀ fd, (sys.registered fd).isSome →
    ∃ index < sys.thread.fdCount, (sys.thread.fdEntries index).fd = fd
  /-- Live descriptors are known to epoll. -/
  known : ∀ fd, (sys.registered fd).isSome → (sys.thread.epoll fd).isSome
  /-- The wake-up descriptor keeps its own entry. -/
  wake : sys.thread.epoll sys.thread.notifyFd = some .notify ∧
    sys.registered sys.thread.notifyFd = none

theorem TableOk.ordinary {sys : FdSys} (table : sys.TableOk) {fd : Int}
    (live : (sys.registered fd).isSome) : fd ≠ sys.thread.notifyFd := by
  rintro rfl
  simp [table.wake.2] at live

/-- A live descriptor is dispatched correctly exactly when the addressed entry is the registered
one. -/
theorem TableOk.eventOk_iff {sys : FdSys} (table : sys.TableOk) {fd : Int} {callback arg : Nat}
    (live : sys.registered fd = some (callback, arg)) (ptr : EntryPtr) :
    sys.EventOk fd ptr ↔ sys.thread.entry ptr = ⟨fd, some callback, arg⟩ := by
  have ordinary : fd ≠ sys.thread.notifyFd := table.ordinary (by simp [live])
  rw [← sys.thread.dispatch_eq_call_iff ptr callback arg ordinary]
  constructor
  · intro ok
    exact ok callback arg live
  · intro called callback' arg' live'
    obtain ⟨rfl, rfl⟩ : callback = callback' ∧ arg = arg' := by simpa [live] using live'
    exact called

theorem eventOk_of_dead {sys : FdSys} {fd : Int} (dead : sys.registered fd = none)
    (ptr : EntryPtr) : sys.EventOk fd ptr := by
  intro callback arg live
  simp [dead] at live

theorem step_add {sys after : FdSys} {fd : Int} {callback arg : Nat}
    (stepped : sys.step (.add fd callback arg) = some after) :
    sys.thread.epoll fd = none ∧ sys.thread.fdCount < 32 ∧
      after =
        { thread :=
            { sys.thread with
              fdEntries := Function.update sys.thread.fdEntries sys.thread.fdCount
                ⟨fd, some callback, arg⟩
              fdCount := sys.thread.fdCount + 1
              epoll := Function.update sys.thread.epoll fd (some (.slot sys.thread.fdCount)) }
          registered := Function.update sys.registered fd (some (callback, arg))
          batch := sys.batch } := by
  simp only [step, FdThread.nosSchedulerAddFdEx] at stepped
  by_cases full : 32 ≤ sys.thread.fdCount
  · simp [full] at stepped
  · cases known : sys.thread.epoll fd with
    | some ptr => simp [known, full] at stepped
    | none =>
        simp only [known, full, if_false, if_true, Option.some.injEq] at stepped
        exact ⟨rfl, by omega, stepped.symm⟩

theorem step_remove {sys after : FdSys} {fd : Int}
    (stepped : sys.step (.remove fd) = some after) :
    ∃ index, index < sys.thread.fdCount ∧ (sys.thread.fdEntries index).fd = fd ∧
      (sys.registered fd).isSome ∧
      after =
        { thread :=
            { sys.thread with
              fdEntries := Function.update sys.thread.fdEntries index
                (sys.thread.fdEntries (sys.thread.fdCount - 1))
              fdCount := sys.thread.fdCount - 1
              epoll := Function.update sys.thread.epoll fd none }
          registered := Function.update sys.registered fd none
          batch := sys.batch } := by
  simp only [step, FdThread.nosSchedulerRemoveFd] at stepped
  cases live : sys.registered fd with
  | none => simp [live] at stepped
  | some registration =>
      cases found : sys.thread.findSlot fd with
      | none => simp [live, found] at stepped
      | some index =>
          simp only [live, found, Option.some.injEq] at stepped
          have inside := List.mem_of_find?_eq_some found
          have held := List.find?_some found
          exact ⟨index, by simpa using inside, by simpa using held, rfl, stepped.symm⟩

theorem TableOk.add {sys after : FdSys} (table : sys.TableOk) {fd : Int} {callback arg : Nat}
    (stepped : sys.step (.add fd callback arg) = some after) : after.TableOk := by
  obtain ⟨unknown, _, rfl⟩ := step_add stepped
  have dead : sys.registered fd = none := by
    by_contra live
    have known := table.known fd (Option.isSome_iff_ne_none.mpr live)
    simp [unknown] at known
  have fresh : ∀ index < sys.thread.fdCount, (sys.thread.fdEntries index).fd ≠ fd := by
    intro index inside held
    obtain ⟨callback', arg', live, _⟩ := table.entries index inside
    simp [held, dead] at live
  refine ⟨?_, ?_, ?_, ?_, ?_⟩
  · intro index inside
    by_cases last : index = sys.thread.fdCount
    · subst last
      exact ⟨callback, arg, by simp, by simp, by simp⟩
    · have inside' : index < sys.thread.fdCount := by
        simp only at inside
        omega
      simpa [last, fresh index inside'] using table.entries index inside'
  · intro index inside index' inside' same
    simp only at inside inside'
    by_cases last : index = sys.thread.fdCount <;> by_cases last' : index' = sys.thread.fdCount
    · omega
    · subst last
      have held := fresh index' (by omega)
      simp [last'] at same
      exact absurd same.symm held
    · subst last'
      have held := fresh index (by omega)
      simp [last] at same
      exact absurd same held
    · simp only [ne_eq, last, not_false_eq_true, Function.update_of_ne, last'] at same
      exact table.distinct index (by omega) index' (by omega) same
  · intro other live
    by_cases same : other = fd
    · subst same
      exact ⟨sys.thread.fdCount, by simp, by simp⟩
    · obtain ⟨index, inside, held⟩ := table.present other (by simpa [same] using live)
      refine ⟨index, Nat.lt_succ_of_lt inside, ?_⟩
      simpa [Nat.ne_of_lt inside] using held
  · intro other live
    by_cases same : other = fd
    · subst same
      simp
    · simpa [same] using table.known other (by simpa [same] using live)
  · have different : sys.thread.notifyFd ≠ fd := by
      rintro same
      rw [← same, table.wake.1] at unknown
      simp at unknown
    simpa [different] using table.wake

theorem TableOk.remove {sys after : FdSys} (table : sys.TableOk) {fd : Int}
    (stepped : sys.step (.remove fd) = some after) : after.TableOk := by
  obtain ⟨index, inside, held, live, rfl⟩ := step_remove stepped
  have ordinary := table.ordinary live
  have last_inside : sys.thread.fdCount - 1 < sys.thread.fdCount := by omega
  have other_of_ne : ∀ place < sys.thread.fdCount, place ≠ index →
      (sys.thread.fdEntries place).fd ≠ fd := by
    intro place bound different same
    exact different (table.distinct place bound index inside (same.trans held.symm))
  refine ⟨?_, ?_, ?_, ?_, ?_⟩
  · intro place bound
    simp only at bound
    by_cases moved : place = index
    · subst moved
      have different := other_of_ne (sys.thread.fdCount - 1) last_inside (by omega)
      simpa [different] using table.entries (sys.thread.fdCount - 1) last_inside
    · have different := other_of_ne place (by omega) moved
      simpa [moved, different] using table.entries place (by omega)
  · intro place bound place' bound' same
    simp only at bound bound'
    by_cases moved : place = index <;> by_cases moved' : place' = index
    · omega
    · subst moved
      simp only [Function.update_self, ne_eq, moved', not_false_eq_true,
        Function.update_of_ne] at same
      have := table.distinct _ last_inside place' (by omega) same
      omega
    · subst moved'
      simp only [Function.update_self, ne_eq, moved, not_false_eq_true,
        Function.update_of_ne] at same
      have := table.distinct place (by omega) _ last_inside same
      omega
    · simp only [ne_eq, moved, not_false_eq_true, Function.update_of_ne, moved'] at same
      exact table.distinct place (by omega) place' (by omega) same
  · intro other live'
    have different : other ≠ fd := by
      rintro rfl
      simp at live'
    obtain ⟨place, bound, at_place⟩ := table.present other (by simpa [different] using live')
    have moved : place ≠ index := by
      rintro rfl
      exact different (at_place.symm.trans held)
    by_cases last : place = sys.thread.fdCount - 1
    · refine ⟨index, ?_, ?_⟩
      · simp only
        omega
      · simpa [← last] using at_place
    · refine ⟨place, ?_, ?_⟩
      · simp only
        omega
      · simpa [moved] using at_place
  · intro other live'
    have different : other ≠ fd := by
      rintro rfl
      simp at live'
    simpa [different] using table.known other (by simpa [different] using live')
  · simpa [Ne.symm ordinary] using table.wake

theorem TableOk.step {sys after : FdSys} {op : FdOp} (table : sys.TableOk)
    (stepped : sys.step op = some after) : after.TableOk := by
  cases op with
  | add fd callback arg => exact table.add stepped
  | remove fd => exact table.remove stepped
  | epollWait ready =>
      simp only [FdSys.step] at stepped
      split at stepped
      · obtain rfl := Option.some.inj stepped
        exact ⟨table.entries, table.distinct, table.present, table.known, table.wake⟩
      · simp at stepped
  | dispatch =>
      simp only [FdSys.step] at stepped
      split at stepped
      · simp at stepped
      · obtain rfl := Option.some.inj stepped
        exact ⟨table.entries, table.distinct, table.present, table.known, table.wake⟩

/-! ## Dispatch along a run -/

/-- Events of another live descriptor survive a registration unless they use the filled slot. -/
theorem TableOk.eventOk_add_other {sys after : FdSys} (table : sys.TableOk) {fd live : Int}
    {callback arg : Nat} (stepped : sys.step (.add fd callback arg) = some after)
    (known : (sys.registered live).isSome) (ptr : EntryPtr) :
    after.EventOk live ptr ↔ ptr ≠ .slot sys.thread.fdCount ∧ sys.EventOk live ptr := by
  have table' := table.add stepped
  obtain ⟨unknown, _, rfl⟩ := step_add stepped
  have different : live ≠ fd := by
    rintro rfl
    have := table.known live known
    simp [unknown] at this
  obtain ⟨⟨callback', arg'⟩, registered⟩ := Option.isSome_iff_exists.mp known
  have registered' : Function.update sys.registered fd (some (callback, arg)) live =
      some (callback', arg') := by
    simpa [different] using registered
  rw [table.eventOk_iff registered ptr, table'.eventOk_iff registered']
  cases ptr with
  | notify => simp [FdThread.entry]
  | slot index =>
      by_cases filled : index = sys.thread.fdCount
      · simp [FdThread.entry, filled, Ne.symm different]
      · simp [FdThread.entry, filled]

/-- Events of the registered descriptor find the filled slot or an equal old entry. -/
theorem TableOk.eventOk_add_self {sys after : FdSys} (table : sys.TableOk) {fd : Int}
    {callback arg : Nat} (stepped : sys.step (.add fd callback arg) = some after)
    (ptr : EntryPtr) :
    after.EventOk fd ptr ↔
      ptr = .slot sys.thread.fdCount ∨ sys.thread.entry ptr = ⟨fd, some callback, arg⟩ := by
  have table' := table.add stepped
  obtain ⟨_, _, rfl⟩ := step_add stepped
  have registered : Function.update sys.registered fd (some (callback, arg)) fd =
      some (callback, arg) := by simp
  rw [table'.eventOk_iff registered]
  cases ptr with
  | notify => simp [FdThread.entry]
  | slot index =>
      by_cases filled : index = sys.thread.fdCount
      · simp [FdThread.entry, filled]
      · simp [FdThread.entry, filled]

/-- A registration keeps dispatch right exactly when the next slot is free. -/
theorem TableOk.dispatchOk_add_iff {sys after : FdSys} (table : sys.TableOk)
    (ok : sys.DispatchOk) {fd : Int} {callback arg : Nat}
    (stepped : sys.step (.add fd callback arg) = some after) :
    after.DispatchOk ↔ sys.SlotFree fd callback arg := by
  have other {live : Int} (known : (sys.registered live).isSome) :=
    table.eventOk_add_other stepped known
  have self := table.eventOk_add_self stepped
  obtain ⟨unknown, _, after_eq⟩ := step_add stepped
  have batch_eq : after.batch = sys.batch := by rw [after_eq]
  have epoll_eq : after.thread.epoll =
      Function.update sys.thread.epoll fd (some (.slot sys.thread.fdCount)) := by rw [after_eq]
  have registered_eq : after.registered =
      Function.update sys.registered fd (some (callback, arg)) := by rw [after_eq]
  have not_fd {live : Int} (known : (sys.registered live).isSome) : live ≠ fd := by
    rintro rfl
    have := table.known live known
    simp [unknown] at this
  constructor
  · rintro ⟨reported, pending⟩
    refine ⟨?_, ?_, ?_⟩
    · intro live known recorded
      have kept := reported live _ (by rw [epoll_eq, Function.update_of_ne (not_fd known)]; exact recorded)
      exact ((other known _).mp kept).1 rfl
    · intro live ptr member known
      exact ((other known ptr).mp (pending live ptr (batch_eq ▸ member))).1
    · intro ptr member
      exact (self ptr).mp (pending fd ptr (batch_eq ▸ member))
  · rintro ⟨recorded_free, pending_free, leftover⟩
    have dead {live : Int} (absent : sys.registered live = none) (different : live ≠ fd)
        (ptr : EntryPtr) : after.EventOk live ptr :=
      eventOk_of_dead (by rw [registered_eq, Function.update_of_ne different]; exact absent) ptr
    refine ⟨?_, ?_⟩
    · intro live ptr recorded
      rw [epoll_eq] at recorded
      by_cases same : live = fd
      · subst same
        obtain rfl : EntryPtr.slot sys.thread.fdCount = ptr := by simpa using recorded
        exact (self _).mpr (Or.inl rfl)
      · rw [Function.update_of_ne same] at recorded
        cases known : sys.registered live with
        | none => exact dead known same ptr
        | some registration =>
            have live_known : (sys.registered live).isSome := by simp [known]
            refine (other live_known ptr).mpr ⟨?_, ok.1 live ptr recorded⟩
            rintro rfl
            exact recorded_free live live_known recorded
    · intro live ptr member
      rw [batch_eq] at member
      by_cases same : live = fd
      · subst same
        exact (self ptr).mpr (leftover ptr member)
      · cases known : sys.registered live with
        | none => exact dead known same ptr
        | some registration =>
            have live_known : (sys.registered live).isSome := by simp [known]
            exact (other live_known ptr).mpr
              ⟨pending_free live ptr member live_known, ok.2 live ptr member⟩

theorem TableOk.eventOk_remove {sys after : FdSys} (table : sys.TableOk) {fd : Int}
    (stepped : sys.step (.remove fd) = some after) {live : Int} {ptr : EntryPtr}
    (ok : sys.EventOk live ptr) : after.EventOk live ptr := by
  have table' := table.remove stepped
  obtain ⟨index, inside, held, _, rfl⟩ := step_remove stepped
  by_cases same : live = fd
  · exact eventOk_of_dead (by simp [same]) ptr
  · cases known : sys.registered live with
    | none => exact eventOk_of_dead (by simpa [same] using known) ptr
    | some registration =>
        obtain ⟨callback, arg⟩ := registration
        have known' : Function.update sys.registered fd none live = some (callback, arg) := by
          simpa [same] using known
        rw [table'.eventOk_iff known']
        have entry := (table.eventOk_iff known ptr).mp ok
        cases ptr with
        | notify => exact entry
        | slot place =>
            have different : place ≠ index := by
              rintro rfl
              simp only [FdThread.entry] at entry
              rw [entry] at held
              exact same held
            simpa [FdThread.entry, different] using entry

/-- Of all operations only a registration can break dispatch, and it does so exactly when its
slot is still in use. -/
theorem TableOk.dispatchOk_step_iff {sys after : FdSys} {op : FdOp} (table : sys.TableOk)
    (ok : sys.DispatchOk) (stepped : sys.step op = some after) :
    after.DispatchOk ↔ sys.StepKeepsDispatch op := by
  cases op with
  | add fd callback arg => exact table.dispatchOk_add_iff ok stepped
  | remove fd =>
      refine iff_of_true ⟨?_, ?_⟩ trivial
      · intro live ptr recorded
        apply table.eventOk_remove stepped
        obtain ⟨_, _, _, _, rfl⟩ := step_remove stepped
        by_cases same : live = fd
        · subst same
          simp at recorded
        · exact ok.1 live ptr (by simpa [same] using recorded)
      · intro live ptr member
        apply table.eventOk_remove stepped
        obtain ⟨_, _, _, _, rfl⟩ := step_remove stepped
        exact ok.2 live ptr member
  | epollWait ready =>
      simp only [FdSys.step] at stepped
      split at stepped
      · obtain rfl := Option.some.inj stepped
        refine iff_of_true ⟨ok.1, ?_⟩ trivial
        intro live ptr member
        obtain ⟨fd, _, reported⟩ := List.mem_filterMap.mp member
        obtain ⟨ptr', recorded, pair⟩ := Option.map_eq_some_iff.mp reported
        obtain ⟨rfl, rfl⟩ : fd = live ∧ ptr' = ptr := by simpa using pair
        exact ok.1 fd ptr' recorded
      · simp at stepped
  | dispatch =>
      simp only [FdSys.step] at stepped
      split at stepped
      · simp at stepped
      · rename_i event batch pending
        obtain rfl := Option.some.inj stepped
        refine iff_of_true ⟨ok.1, ?_⟩ trivial
        intro live ptr member
        exact ok.2 live ptr (by rw [pending]; exact List.mem_cons_of_mem _ member)

theorem Initial.tableOk {sys : FdSys} (initial : sys.Initial) : sys.TableOk := by
  obtain ⟨empty, epoll, dead, _⟩ := initial
  refine ⟨?_, ?_, ?_, ?_, ?_⟩
  · intro index inside
    simp [empty] at inside
  · intro index inside
    simp [empty] at inside
  · intro fd live
    simp [dead fd] at live
  · intro fd live
    simp [dead fd] at live
  · exact ⟨by simp [epoll], dead _⟩

theorem Initial.dispatchOk {sys : FdSys} (initial : sys.Initial) : sys.DispatchOk := by
  obtain ⟨_, _, dead, idle⟩ := initial
  refine ⟨?_, ?_⟩
  · intro fd ptr _
    exact eventOk_of_dead (dead fd) ptr
  · intro fd ptr member
    simp [idle] at member

/-- Along a run of successful registrations, removals and batches, every event of a live
descriptor is dispatched to what was registered for it exactly when every registration fills a
slot that neither epoll nor the batch still uses. -/
theorem dispatchOk_along_run_iff {sys after : FdSys} (initial : sys.Initial) {ops : List FdOp}
    (execution : Transition.run step sys ops = some after) :
    Transition.Visits step DispatchOk sys ops ↔
      Transition.Guarded step StepKeepsDispatch sys ops :=
  Transition.visits_iff_guarded TableOk
    (fun _ _ _ table stepped => table.step stepped)
    (fun _ _ _ table ok stepped => table.dispatchOk_step_iff ok stepped)
    initial.tableOk initial.dispatchOk execution

/-- A thread whose wake-up descriptor is 3. -/
def freshFds : FdSys where
  thread :=
    { notifyFd := 3
      fdEntries := fun _ => ⟨0, none, 0⟩
      fdCount := 0
      epoll := Function.update (fun _ => none) 3 (some .notify) }
  registered _ := none
  batch := []

theorem freshFds_initial : freshFds.Initial :=
  ⟨rfl, rfl, fun _ => rfl, rfl⟩

/-- Two descriptors, of which the first is removed before a third one is added: the third takes
the slot that epoll still keeps for the second. -/
def reusedSlot : List FdOp :=
  [.add 10 100 0, .add 11 101 0, .remove 10, .add 12 102 0]

/-- After a removal and an addition an event of a live descriptor runs another callback. -/
theorem reusedSlot_misdispatches :
    ∃ sys ops after, sys.Initial ∧ Transition.run step sys ops = some after ∧
      ∃ fd ptr callback arg, after.thread.epoll fd = some ptr ∧
        after.registered fd = some (callback, arg) ∧
        after.thread.dispatch ptr ≠ .call callback fd arg := by
  refine ⟨freshFds, reusedSlot, _, freshFds_initial, rfl, 11, .slot 1, 101, 0, ?_, ?_, ?_⟩
  · rfl
  · rfl
  · decide

/-- The exact condition on the run that reuses a slot. -/
theorem dispatchOk_along_reusedSlot_iff :
    ∃ after, Transition.run step freshFds reusedSlot = some after ∧
      (Transition.Visits step DispatchOk freshFds reusedSlot ↔
        Transition.Guarded step StepKeepsDispatch freshFds reusedSlot) :=
  ⟨_, rfl, dispatchOk_along_run_iff freshFds_initial rfl⟩

end FdSys
end CodexNos.Scheduler
