import CodexNos.Node.Lifecycle
import CodexNos.Lib.SwapRemove

/-!
# Callbacks and the end of an instance

The status test of the worker and the call or insertion that it guards are separate steps.  If the
command thread never sets an instance to stopped in between, and frees it only when the worker will
not read it again, then nothing of an instance begins after its stop callback and no timer of an
unloaded instance stays in the heap.
-/

namespace CodexNos.Node

open Lib Lib.Transition

/-- How far the life of an instance is. -/
inductive Phase
  | unallocated
  | usable
  | stopped
  | freed
  deriving DecidableEq, Repr

/-- Phase of an instance. -/
def Cell.phase : Cell → Phase
  | .unallocated => .unallocated
  | .live .stopped => .stopped
  | .live _ => .usable
  | .freed => .freed

/-- Only an instance that is not stopped can be read as something else. -/
theorem Cell.phase_of_read {cell : Cell} {stale status : CompStatus} (other : status ≠ .stopped)
    (present : cell.phase = .usable ∨ cell.phase = .stopped) (read : cell.read stale = status) :
    cell.phase = .usable := by
  cases cell with
  | unallocated => simp [phase] at present
  | freed => simp [phase] at present
  | live actual => cases actual <;> simp_all [phase, Cell.read]

/-- The worker has passed the test of an instance and not yet made the call or insertion. -/
def WorkerPoint.Committed (owner : TimerRef → Option CompRef) (comp : CompRef) : WorkerPoint → Prop
  | .callMsg other => other = comp
  | .callTimer _ other => other = comp
  | .reinsert timer => owner timer = some comp
  | .inserting _ self _ _ => self = comp
  | _ => False

/-- The worker has yet to read the status of an instance. -/
def WorkerPoint.Refers (owner : TimerRef → Option CompRef) (comp : CompRef) : WorkerPoint → Prop
  | .testMsg other => other = comp
  | .testTimer timer | .retestTimer timer => owner timer = some comp
  | .callTimer timer _ | .running (.timer timer _) => owner timer = some comp
  | .inserting (.timer timer _) _ _ _ => owner timer = some comp
  | _ => False

/-- Instances that the worker deals with under the component lock. -/
def WorkerPoint.pending : WorkerPoint → List CompRef
  | .starting rest => rest
  | .callStart comp rest => comp :: rest
  | .running (.start comp rest) | .inserting (.start comp rest) _ _ _ => comp :: rest
  | _ => []

/-- The instance that the command thread has taken off the worker thread. -/
def CliPoint.target : CliPoint → Option CompRef
  | .idle | .unregister _ | .swapOut _ _ => none
  | .unbind comp _ | .swapIn comp _ | .replace comp _ | .bind comp _ _ | .mark comp _ => some comp
  | .drop comp _ _ | .cancel comp _ _ | .stop comp _ _ | .stopping comp _ | .free comp _ => some comp
  | .remove comp => some comp

/-- Services that can still be bound to that instance. -/
def CliPoint.bound (node : NodeDef) : CliPoint → List Nat
  | .unbind _ rest | .bind _ _ rest => rest
  | .swapIn old _ | .replace old _ => node.localServices (node.id old)
  | _ => []

/-- Its timers are cancelled and it is not yet freed. -/
def CliPoint.Cancelled (comp : CompRef) : CliPoint → Prop
  | .stop other _ _ | .stopping other _ | .free other _ => other = comp
  | _ => False

/-- An instance that is torn down by a reload has left the table. -/
def Teardown.Ok (loaded : List CompRef) (comp : CompRef) : Teardown → Prop
  | .unload => True
  | .reload => comp ∉ loaded
  | .discard => False

/-- What holds of the instances that the command thread deals with. -/
def CliPoint.Ok (node : NodeDef) (phase : CompRef → Phase) (components loaded : List CompRef) :
    CliPoint → Prop
  | .idle => True
  | .unregister comp => comp ∈ loaded
  | .unbind comp _ => phase comp = .usable ∧ comp ∉ components
  | .swapOut old new =>
      old ∈ loaded ∧ phase new = .usable ∧ new ∉ components ∧ new ∉ loaded ∧ node.id new = node.id old
  | .swapIn old new =>
      (phase old = .usable ∧ old ∉ components) ∧ old ≠ new ∧
        phase new = .usable ∧ new ∉ components ∧ new ∉ loaded ∧ node.id new = node.id old ∧
        components.length < maxCompPerThread
  | .replace old new =>
      (phase old = .usable ∧ old ∉ components) ∧ new ∈ components ∧ new ∉ loaded ∧
        node.id new = node.id old
  | .bind old new services =>
      (phase old = .usable ∧ old ∉ components) ∧ new ∈ components ∧ old ∉ loaded ∧
        ∀ service ∈ services, service ∈ node.localServices (node.id new)
  | .mark comp why => (phase comp = .usable ∧ comp ∉ components) ∧ why.Ok loaded comp
  | .drop comp _ why | .cancel comp _ why | .stop comp _ why | .stopping comp why | .free comp why =>
      (phase comp = .stopped ∧ comp ∉ components) ∧ why.Ok loaded comp
  | .remove comp => phase comp = .freed ∧ comp ∉ components

namespace LifeSys

/-- Phases of all instances. -/
def phase (sys : LifeSys) : CompRef → Phase := fun comp => (sys.memory comp).phase

/-- The command thread sets an instance to stopped only when the worker is not between a test of it
and what the test guards, and frees it only when the worker has not yet to read it; the worker looks
up no reply while a freed instance is in the table. -/
def KeepsClear (sys : LifeSys) : LifeOp → Prop
  | .cli =>
      match sys.cli with
      | .mark comp _ => ¬ sys.worker.Committed sys.owner comp
      | .free comp _ => ¬ sys.worker.Refers sys.owner comp
      | _ => True
  | .work _ =>
      match sys.worker with
      | .lookup msg => msg.replyTo.isSome → ∀ comp ∈ sys.loaded, sys.memory comp ≠ .freed
      | _ => True
  | _ => True

/-! ## Invariants -/

/-- What holds of the worker. -/
structure WorkerOk (phase : CompRef → Phase) (owner : TimerRef → Option CompRef)
    (components : List CompRef) (worker : WorkerPoint) : Prop where
  committed : ∀ comp, worker.Committed owner comp → phase comp = .usable
  refers : ∀ comp, worker.Refers owner comp → phase comp = .usable ∨ phase comp = .stopped
  pending : ∀ comp ∈ worker.pending, comp ∈ components

/-- What holds of the command thread, the tables and the worker's components. -/
structure CliOk (node : NodeDef) (phase : CompRef → Phase) (components loaded : List CompRef)
    (registry : Nat → Option CompRef) (cli : CliPoint) : Prop where
  components_nodup : components.Nodup
  loaded_nodup : loaded.Nodup
  room : components.length ≤ maxCompPerThread
  usable : ∀ comp ∈ components, phase comp = .usable
  listed : ∀ comp ∈ loaded, comp ∈ components ∨ cli.target = some comp
  bound : ∀ service comp, registry service = some comp →
    service ∈ node.localServices (node.id comp) ∧
      (comp ∈ components ∨ cli.target = some comp ∧ service ∈ cli.bound node)
  point : cli.Ok node phase components loaded

/-- What holds of the timers in the heap. -/
structure HeapOk (phase : CompRef → Phase) (heap : List TimerRef)
    (owner : TimerRef → Option CompRef) (cli : CliPoint) : Prop where
  present : ∀ timer ∈ heap, ∀ comp, owner timer = some comp →
    phase comp = .usable ∨ phase comp = .stopped
  cancelled : ∀ comp, cli.Cancelled comp → ∀ timer ∈ heap, owner timer ≠ some comp

/-- Nothing of an instance begins after its stop callback. -/
def StopLast (events : List Event) : Prop :=
  events.Pairwise fun first second => ∀ comp, first = .stop comp → ¬ second.begins comp

/-- What holds of the callbacks begun so far. -/
structure TraceOk (phase : CompRef → Phase) (events : List Event) (retired : List CompRef) :
    Prop where
  stopped : ∀ comp, .stop comp ∈ events → phase comp = .stopped ∨ phase comp = .freed
  stopLast : StopLast events
  retired : ∀ comp ∈ retired, phase comp = .freed

/-- What holds in every run that keeps clear. -/
structure Safe (node : NodeDef) (sys : LifeSys) : Prop where
  cli : CliOk node sys.phase sys.components sys.loaded sys.registry sys.cli
  worker : WorkerOk sys.phase sys.owner sys.components sys.worker
  heap : HeapOk sys.phase sys.heap sys.owner sys.cli
  trace : TraceOk sys.phase sys.events sys.retired

theorem safe_of_initial {node : NodeDef} {sys : LifeSys} (start : sys.Initial node) :
    Safe node sys where
  cli := {
    components_nodup := start.components_nodup
    loaded_nodup := start.loaded_nodup
    room := start.room
    usable := fun comp member => by simp [phase, start.inited comp member, Cell.phase]
    listed := fun comp member => Or.inl ((start.loaded_iff comp).mp member)
    bound := fun service comp bound =>
      ⟨(start.bound service comp bound).2, Or.inl (start.bound service comp bound).1⟩
    point := by rw [start.cli]; trivial }
  worker := by
    rw [start.worker]
    exact ⟨fun _ committed => committed.elim, fun _ refers => refers.elim, by
      simp [WorkerPoint.pending]⟩
  heap := by
    rw [start.heap]
    exact ⟨by simp, by simp⟩
  trace := by
    rw [start.events, start.retired]
    exact ⟨by simp, List.Pairwise.nil, by simp⟩

/-! ## Steps of the worker -/

section Worker

variable {node : NodeDef} {sys : LifeSys}

theorem phase_setStatus {comp : CompRef} {status : CompStatus} (usable : sys.phase comp = .usable)
    (other : status ≠ .stopped) : (sys.setStatus comp status).phase = sys.phase := by
  funext comp'
  simp only [phase, setStatus]
  rcases eq_or_ne comp' comp with rfl | elsewhere
  · rw [Function.update_self]
    rw [phase] at usable
    cases status <;> simp_all [Cell.phase]
  · rw [Function.update_of_ne elsewhere]

theorem TraceOk.begin {phase : CompRef → Phase} {events : List Event} {retired : List CompRef}
    (trace : TraceOk phase events retired) {comp : CompRef} (usable : phase comp = .usable)
    {event : Event} (begins : ∀ other, event.begins other → other = comp)
    (callback : ∀ other, event ≠ .stop other) : TraceOk phase (events ++ [event]) retired where
  stopped := by
    intro other member
    rcases List.mem_append.mp member with old | new
    · exact trace.stopped other old
    · exact absurd (List.mem_singleton.mp new).symm (callback other)
  stopLast := by
    refine List.pairwise_append.mpr ⟨trace.stopLast, List.pairwise_singleton _ _, ?_⟩
    intro first member second last other stop begun
    obtain rfl := List.mem_singleton.mp last
    obtain rfl := begins other begun
    have ended := trace.stopped other (stop ▸ member)
    simp [usable] at ended
  retired := trace.retired

theorem Safe.move (safe : Safe node sys) {point : WorkerPoint}
    (worker : WorkerOk sys.phase sys.owner sys.components point) :
    Safe node { sys with worker := point } :=
  ⟨safe.cli, worker, safe.heap, safe.trace⟩

/-- The worker sets the status of a usable instance and moves. -/
theorem Safe.setStatus (safe : Safe node sys) {comp : CompRef} {status : CompStatus}
    (usable : sys.phase comp = .usable) (other : status ≠ .stopped) {point : WorkerPoint}
    (worker : WorkerOk sys.phase sys.owner sys.components point) :
    Safe node { sys.setStatus comp status with worker := point } := by
  obtain ⟨cli, -, heap, trace⟩ := safe
  have same := phase_setStatus usable other
  rw [← same] at cli worker heap trace
  exact ⟨cli, worker, heap, trace⟩

theorem workerOk_of_free {phase : CompRef → Phase} {owner : TimerRef → Option CompRef}
    {components : List CompRef} {point : WorkerPoint}
    (committed : ∀ comp, ¬ point.Committed owner comp) (refers : ∀ comp, ¬ point.Refers owner comp)
    (pending : point.pending = []) : WorkerOk phase owner components point :=
  ⟨fun comp at_call => absurd at_call (committed comp), fun comp at_test => absurd at_test (refers comp),
    by simp [pending]⟩

theorem CliOk.target_phase {phase : CompRef → Phase} {components loaded : List CompRef}
    {registry : Nat → Option CompRef} {cli : CliPoint}
    (ok : CliOk node phase components loaded registry cli) {comp : CompRef}
    (target : cli.target = some comp) :
    phase comp = .usable ∨ phase comp = .stopped ∨ phase comp = .freed ∧ cli = .remove comp := by
  have point := ok.point
  cases cli <;> simp_all [CliPoint.target, CliPoint.Ok]

theorem CliOk.bound_usable {phase : CompRef → Phase} {components loaded : List CompRef}
    {registry : Nat → Option CompRef} {cli : CliPoint}
    (ok : CliOk node phase components loaded registry cli) {comp : CompRef} {service : Nat}
    (target : cli.target = some comp) (bound : service ∈ cli.bound node) : phase comp = .usable := by
  have point := ok.point
  cases cli <;> simp_all [CliPoint.target, CliPoint.Ok, CliPoint.bound]

theorem CliOk.cancelled_stopped {phase : CompRef → Phase} {components loaded : List CompRef}
    {registry : Nat → Option CompRef} {cli : CliPoint}
    (ok : CliOk node phase components loaded registry cli) {comp : CompRef}
    (cancelled : cli.Cancelled comp) : phase comp = .stopped := by
  have point := ok.point
  cases cli <;> simp_all [CliPoint.Cancelled, CliPoint.Ok]

theorem Safe.target_present (safe : Safe node sys) {msg : Message} {comp : CompRef}
    (clear : msg.replyTo.isSome → ∀ comp ∈ sys.loaded, sys.memory comp ≠ .freed)
    (found : sys.target node msg = some comp) :
    sys.phase comp = .usable ∨ sys.phase comp = .stopped := by
  unfold target at found
  split at found
  · rename_i id reply
    have member := List.mem_of_find?_eq_some found
    rcases safe.cli.listed comp member with on_thread | off
    · exact Or.inl (safe.cli.usable comp on_thread)
    · rcases safe.cli.target_phase off with usable | stopped | ⟨freed, -⟩
      · exact Or.inl usable
      · exact Or.inr stopped
      · have kept := clear (by simp [reply]) comp member
        rw [phase] at freed
        cases cell : sys.memory comp with
        | freed => exact absurd cell kept
        | unallocated => simp [cell, Cell.phase] at freed
        | live status => cases status <;> simp [cell, Cell.phase] at freed
  · obtain ⟨-, on_thread | ⟨off, bound⟩⟩ := safe.cli.bound _ _ found
    · exact Or.inl (safe.cli.usable comp on_thread)
    · exact Or.inl (safe.cli.bound_usable off bound)

theorem HeapOk.insert {phase : CompRef → Phase} {heap : List TimerRef}
    {owner : TimerRef → Option CompRef} {cli : CliPoint} (ok : HeapOk phase heap owner cli)
    (stopped : ∀ comp, cli.Cancelled comp → phase comp = .stopped) {timer : TimerRef}
    (usable : ∀ comp, owner timer = some comp → phase comp = .usable) :
    HeapOk phase (heap ++ [timer]) owner cli where
  present := by
    intro other member comp owned
    rcases List.mem_append.mp member with old | new
    · exact ok.present other old comp owned
    · obtain rfl := List.mem_singleton.mp new
      exact Or.inl (usable comp owned)
  cancelled := by
    intro comp cancelled other member owned
    rcases List.mem_append.mp member with old | new
    · exact ok.cancelled comp cancelled other old owned
    · obtain rfl := List.mem_singleton.mp new
      have both := (stopped comp cancelled).symm.trans (usable comp owned)
      simp at both

theorem HeapOk.own {phase : CompRef → Phase} {heap : List TimerRef}
    {owner : TimerRef → Option CompRef} {cli : CliPoint} (ok : HeapOk phase heap owner cli)
    (stopped : ∀ comp, cli.Cancelled comp → phase comp = .stopped) {timer : TimerRef}
    {comp : CompRef} (usable : phase comp = .usable) :
    HeapOk phase heap (Function.update owner timer (some comp)) cli where
  present := by
    intro other member comp' owned
    rcases eq_or_ne other timer with rfl | elsewhere
    · obtain rfl : comp = comp' := by simpa using owned
      exact Or.inl usable
    · rw [Function.update_of_ne elsewhere] at owned
      exact ok.present other member comp' owned
  cancelled := by
    intro comp' cancelled other member owned
    rcases eq_or_ne other timer with rfl | elsewhere
    · obtain rfl : comp = comp' := by simpa using owned
      have both := (stopped comp cancelled).symm.trans usable
      simp at both
    · rw [Function.update_of_ne elsewhere] at owned
      exact ok.cancelled comp' cancelled other member owned

/-- The instance passes the status test only when it is usable. -/
theorem Safe.usable_of_read (safe : Safe node sys) {comp : CompRef} {stale status : CompStatus}
    (other : status ≠ .stopped) (refers : sys.worker.Refers sys.owner comp)
    (read : (sys.memory comp).read stale = status) : sys.phase comp = .usable :=
  Cell.phase_of_read other (safe.worker.refers comp refers) read

theorem Safe.rest (safe : Safe node sys) : Safe node { sys with worker := .idle } :=
  safe.move (workerOk_of_free (fun _ => id) (fun _ => id) rfl)

theorem Safe.begin (safe : Safe node sys) {event : Event} {callback : Callback}
    (usable : sys.phase callback.comp = .usable)
    (begins : ∀ other, event.begins other → other = callback.comp)
    (is_callback : ∀ other, event ≠ .stop other)
    (refers : ∀ comp, (WorkerPoint.running callback).Refers sys.owner comp →
      sys.phase comp = .usable ∨ sys.phase comp = .stopped)
    (pending : ∀ comp ∈ (WorkerPoint.running callback).pending, comp ∈ sys.components) :
    Safe node { sys with worker := .running callback, events := sys.events ++ [event] } :=
  ⟨safe.cli, ⟨fun _ committed => committed.elim, refers, pending⟩, safe.heap,
    safe.trace.begin usable begins is_callback⟩

theorem Safe.work_lookup (safe : Safe node sys) {msg : Message} {after : LifeSys}
    {stale : CompStatus} (point : sys.worker = .lookup msg)
    (clear : msg.replyTo.isSome → ∀ comp ∈ sys.loaded, sys.memory comp ≠ .freed)
    (stepped : sys.work node stale = some after) : Safe node after := by
  simp only [work, point] at stepped
  split at stepped
  · rename_i comp found
    obtain rfl := Option.some.inj stepped
    refine safe.move ⟨fun _ committed => committed.elim, ?_, by simp [WorkerPoint.pending]⟩
    rintro other rfl
    exact safe.target_present clear found
  · obtain rfl := Option.some.inj stepped
    exact safe.rest

theorem Safe.work_testMsg (safe : Safe node sys) {comp : CompRef} {after : LifeSys}
    {stale : CompStatus} (point : sys.worker = .testMsg comp)
    (stepped : sys.work node stale = some after) : Safe node after := by
  simp only [work, point] at stepped
  split at stepped
  · rename_i passed
    obtain rfl := Option.some.inj stepped
    obtain ⟨read, -⟩ : (sys.memory comp).read stale = .active ∧ _ := by simpa using passed
    have usable := safe.usable_of_read (by decide) (by rw [point]; rfl) read
    refine safe.move ⟨?_, fun _ refers => refers.elim, by simp [WorkerPoint.pending]⟩
    rintro other rfl
    exact usable
  · obtain rfl := Option.some.inj stepped
    exact safe.rest

theorem Safe.work_testTimer (safe : Safe node sys) {timer : TimerRef} {after : LifeSys}
    {stale : CompStatus} (point : sys.worker = .testTimer timer)
    (stepped : sys.work node stale = some after) : Safe node after := by
  have refers := safe.worker.refers
  rw [point] at refers
  have skipped : Safe node { sys with worker := .retestTimer timer } :=
    safe.move ⟨fun _ committed => committed.elim, refers, by simp [WorkerPoint.pending]⟩
  simp only [work, point] at stepped
  split at stepped
  · rename_i comp owned
    split at stepped
    · rename_i passed
      obtain rfl := Option.some.inj stepped
      obtain ⟨read, -⟩ : (sys.memory comp).read stale = .active ∧ _ := by simpa using passed
      have usable := safe.usable_of_read (by decide) (by rw [point]; exact owned) read
      refine safe.move ⟨?_, refers, by simp [WorkerPoint.pending]⟩
      rintro other rfl
      exact usable
    · obtain rfl := Option.some.inj stepped
      exact skipped
  · obtain rfl := Option.some.inj stepped
    exact skipped

theorem Safe.work_retestTimer (safe : Safe node sys) {timer : TimerRef} {after : LifeSys}
    {stale : CompStatus} (point : sys.worker = .retestTimer timer)
    (stepped : sys.work node stale = some after) : Safe node after := by
  simp only [work, point] at stepped
  split at stepped
  · rename_i comp owned
    split at stepped
    · rename_i passed
      obtain rfl := Option.some.inj stepped
      obtain ⟨-, read⟩ : _ ∧ (sys.memory comp).read stale = .active := by simpa using passed
      have usable := safe.usable_of_read (by decide) (by rw [point]; exact owned) read
      refine safe.move ⟨?_, fun _ refers => refers.elim, by simp [WorkerPoint.pending]⟩
      intro other committed
      obtain rfl : comp = other := Option.some.inj (owned.symm.trans committed)
      exact usable
    · obtain rfl := Option.some.inj stepped
      exact safe.rest
  · obtain rfl := Option.some.inj stepped
    exact safe.rest

theorem Safe.work_reinsert (safe : Safe node sys) {timer : TimerRef} {after : LifeSys}
    {stale : CompStatus} (point : sys.worker = .reinsert timer)
    (stepped : sys.work node stale = some after) : Safe node after := by
  have usable := safe.worker.committed
  rw [point] at usable
  simp only [work, point, insertTimer] at stepped
  obtain rfl := Option.some.inj stepped
  split
  · exact ⟨safe.cli, safe.rest.worker,
      safe.heap.insert (fun _ => safe.cli.cancelled_stopped) usable, safe.trace⟩
  · exact ⟨safe.cli, safe.rest.worker, safe.heap, safe.trace⟩

theorem Safe.work_starting (safe : Safe node sys) {rest : List CompRef} {after : LifeSys}
    {stale : CompStatus} (point : sys.worker = .starting rest)
    (stepped : sys.work node stale = some after) : Safe node after := by
  have pending := safe.worker.pending
  rw [point] at pending
  cases rest with
  | nil =>
      simp only [work, point] at stepped
      obtain rfl := Option.some.inj stepped
      exact safe.rest
  | cons comp rest =>
      have on_thread : comp ∈ sys.components := pending comp List.mem_cons_self
      have others : WorkerOk sys.phase sys.owner sys.components (.starting rest) :=
        ⟨fun _ committed => committed.elim, fun _ refers => refers.elim,
          fun other member => pending other (List.mem_cons_of_mem _ member)⟩
      simp only [work, point] at stepped
      split at stepped
      · split at stepped
        · obtain rfl := Option.some.inj stepped
          exact safe.move ⟨fun _ committed => committed.elim, fun _ refers => refers.elim, pending⟩
        · obtain rfl := Option.some.inj stepped
          exact safe.setStatus (safe.cli.usable comp on_thread) (by decide) others
      · obtain rfl := Option.some.inj stepped
        exact safe.move others

theorem Safe.work_inserting (safe : Safe node sys) {callback : Callback} {self : CompRef}
    {timer : TimerRef} {periodic : Bool} {after : LifeSys} {stale : CompStatus}
    (point : sys.worker = .inserting callback self timer periodic)
    (stepped : sys.work node stale = some after) : Safe node after := by
  have usable : sys.phase self = .usable :=
    safe.worker.committed _ (by rw [point]; rfl)
  have refers : ∀ comp, (WorkerPoint.running callback).Refers sys.owner comp →
      sys.phase comp = .usable ∨ sys.phase comp = .stopped := by
    intro comp later
    refine safe.worker.refers comp ?_
    rw [point]
    cases callback with
    | onMsg _ => exact later
    | start _ _ => exact later
    | timer _ _ => exact later
  have pending : ∀ comp ∈ (WorkerPoint.running callback).pending, comp ∈ sys.components := by
    intro comp member
    refine safe.worker.pending comp ?_
    rw [point]
    cases callback with
    | onMsg _ => exact member
    | start _ _ => exact member
    | timer _ _ => exact member
  simp only [work, point] at stepped
  split at stepped
  · obtain rfl := Option.some.inj stepped
    have stopped (comp : CompRef) := @CliOk.cancelled_stopped node _ _ _ _ _ safe.cli comp
    refine ⟨safe.cli, ⟨fun _ committed => committed.elim, ?_, pending⟩,
      (safe.heap.own stopped usable).insert stopped ?_, safe.trace⟩
    · intro comp later
      cases callback with
      | onMsg _ => exact later.elim
      | start _ _ => exact later.elim
      | timer popped owner =>
          simp only [WorkerPoint.Refers] at later
          rcases eq_or_ne popped timer with rfl | elsewhere
          · obtain rfl : self = comp := by simpa using later
            exact Or.inl usable
          · rw [Function.update_of_ne elsewhere] at later
            exact refers comp later
    · intro comp owned
      obtain rfl : self = comp := by simpa using owned
      exact usable
  · obtain rfl := Option.some.inj stepped
    exact safe.move ⟨fun _ committed => committed.elim, refers, pending⟩

theorem Safe.work (safe : Safe node sys) {after : LifeSys} {stale : CompStatus}
    (clear : sys.KeepsClear (.work stale)) (stepped : sys.work node stale = some after) :
    Safe node after := by
  cases point : sys.worker with
  | idle => simp [LifeSys.work, point] at stepped
  | running callback => simp [LifeSys.work, point] at stepped
  | lookup msg =>
      simp only [KeepsClear, point] at clear
      exact safe.work_lookup point clear stepped
  | testMsg comp => exact safe.work_testMsg point stepped
  | testTimer timer => exact safe.work_testTimer point stepped
  | retestTimer timer => exact safe.work_retestTimer point stepped
  | reinsert timer => exact safe.work_reinsert point stepped
  | starting rest => exact safe.work_starting point stepped
  | inserting callback self timer periodic => exact safe.work_inserting point stepped
  | callMsg comp =>
      have usable : sys.phase comp = .usable := safe.worker.committed _ (by rw [point]; rfl)
      simp only [LifeSys.work, point] at stepped
      obtain rfl := Option.some.inj stepped
      exact safe.begin usable (fun _ begun => begun.symm) (by simp)
        (fun _ later => later.elim) (by simp [WorkerPoint.pending])
  | callTimer timer comp =>
      have usable : sys.phase comp = .usable := safe.worker.committed _ (by rw [point]; rfl)
      have refers := safe.worker.refers
      rw [point] at refers
      simp only [LifeSys.work, point] at stepped
      obtain rfl := Option.some.inj stepped
      exact safe.begin usable (fun _ begun => begun.symm) (by simp)
        refers (by simp [WorkerPoint.pending])
  | callStart comp rest =>
      have pending := safe.worker.pending
      rw [point] at pending
      have usable := safe.cli.usable comp (pending comp List.mem_cons_self)
      simp only [LifeSys.work, point] at stepped
      obtain rfl := Option.some.inj stepped
      exact safe.begin usable (fun _ begun => begun.symm) (by simp)
        (fun _ later => later.elim) pending

theorem HeapOk.sublist {phase : CompRef → Phase} {heap fewer : List TimerRef}
    {owner : TimerRef → Option CompRef} {cli : CliPoint} (ok : HeapOk phase heap owner cli)
    (subset : fewer ⊆ heap) : HeapOk phase fewer owner cli :=
  ⟨fun timer member => ok.present timer (subset member),
    fun comp cancelled timer member => ok.cancelled comp cancelled timer (subset member)⟩

theorem Safe.popTimer (safe : Safe node sys) {timer : TimerRef} {after : LifeSys}
    (stepped : sys.step node (.popTimer timer) = some after) : Safe node after := by
  simp only [step] at stepped
  split at stepped
  · rename_i ready
    have member : timer ∈ sys.heap := by simp_all
    obtain rfl := Option.some.inj stepped
    exact ⟨safe.cli,
      ⟨fun _ committed => committed.elim, safe.heap.present timer member,
        by simp [WorkerPoint.pending]⟩,
      safe.heap.sublist List.erase_subset, safe.trace⟩
  · simp at stepped

theorem Safe.startTimer (safe : Safe node sys) {self : CompRef} {timer : TimerRef}
    {periodic : Bool} {after : LifeSys}
    (stepped : sys.step node (.startTimer self timer periodic) = some after) :
    Safe node after := by
  simp only [step] at stepped
  split at stepped
  · rename_i callback point
    split at stepped
    · rename_i found
      have on_thread : self ∈ sys.components := by simp_all
      obtain rfl := Option.some.inj stepped
      refine safe.move ⟨?_, fun comp refers => ?_, fun comp member => ?_⟩
      · rintro comp rfl
        exact safe.cli.usable _ on_thread
      · refine safe.worker.refers comp ?_
        rw [point]
        cases callback with
        | onMsg _ => exact refers
        | start _ _ => exact refers
        | timer _ _ => exact refers
      · refine safe.worker.pending comp ?_
        rw [point]
        cases callback with
        | onMsg _ => exact member
        | start _ _ => exact member
        | timer _ _ => exact member
    · obtain rfl := Option.some.inj stepped
      exact safe
  · simp at stepped

theorem Safe.finish (safe : Safe node sys) {ok : Bool} {after : LifeSys}
    (stepped : sys.finish ok = some after) : Safe node after := by
  simp only [LifeSys.finish] at stepped
  split at stepped
  · obtain rfl := Option.some.inj stepped
    exact safe.rest
  · rename_i timer comp point
    obtain rfl := Option.some.inj stepped
    have refers := safe.worker.refers
    rw [point] at refers
    exact safe.move ⟨fun _ committed => committed.elim, refers, by simp [WorkerPoint.pending]⟩
  · rename_i comp rest point
    obtain rfl := Option.some.inj stepped
    have pending := safe.worker.pending
    rw [point] at pending
    refine safe.setStatus (safe.cli.usable comp (pending comp List.mem_cons_self)) ?_
      ⟨fun _ committed => committed.elim, fun _ refers => refers.elim,
        fun other member => pending other (List.mem_cons_of_mem _ member)⟩
    cases ok <;> simp
  · simp at stepped

end Worker

/-! ## Steps of the command thread -/

theorem swapRemove_eq {comps : List CompRef} {comp : CompRef} (member : comp ∈ comps) :
    swapRemove comps comp =
      swapRemoveAt comps ⟨comps.idxOf comp, List.idxOf_lt_length_of_mem member⟩ := by
  simp [swapRemove, swapRemoveAt]

/-- Taking an instance out of the array only changes the order of the others. -/
theorem swapRemove_perm {comps : List CompRef} {comp : CompRef} (member : comp ∈ comps) :
    (swapRemove comps comp).Perm (comps.erase comp) := by
  rw [swapRemove_eq member, ← List.eraseIdx_idxOf_eq_erase]
  exact swapRemoveAt_perm _ _

theorem mem_swapRemove {comps : List CompRef} {comp other : CompRef} (nodup : comps.Nodup)
    (member : comp ∈ comps) : other ∈ swapRemove comps comp ↔ other ∈ comps ∧ other ≠ comp := by
  rw [(swapRemove_perm member).mem_iff, nodup.mem_erase_iff, and_comm]

/-- What is in the table after an entry got a new instance. -/
theorem mem_replace {loaded : List CompRef} {old new other : CompRef} (nodup : loaded.Nodup)
    (member : other ∈ loaded.replace old new) : other = new ∨ other ∈ loaded ∧ other ≠ old := by
  induction loaded with
  | nil => simp at member
  | cons first rest ih =>
      obtain ⟨fresh, nodup⟩ := List.nodup_cons.mp nodup
      rw [List.replace_cons] at member
      cases same : old == first with
      | true =>
          obtain rfl : old = first := by simpa using same
          simp only [same, List.mem_cons] at member
          rcases member with rfl | later
          · exact Or.inl rfl
          · refine Or.inr ⟨List.mem_cons_of_mem _ later, ?_⟩
            rintro rfl
            exact fresh later
      | false =>
          have different : old ≠ first := by simpa using same
          simp only [same, List.mem_cons] at member
          rcases member with rfl | later
          · exact Or.inr ⟨List.mem_cons_self, different.symm⟩
          · exact (ih nodup later).imp_right fun kept => ⟨List.mem_cons_of_mem _ kept.1, kept.2⟩

theorem nodup_replace {loaded : List CompRef} {old new : CompRef} (nodup : loaded.Nodup)
    (fresh : new ∉ loaded) : (loaded.replace old new).Nodup := by
  induction loaded with
  | nil => simp
  | cons first rest ih =>
      obtain ⟨absent, nodup⟩ := List.nodup_cons.mp nodup
      obtain ⟨different, fresh⟩ : new ≠ first ∧ new ∉ rest := by simpa using fresh
      rw [List.replace_cons]
      split
      · exact List.nodup_cons.mpr ⟨fresh, nodup⟩
      · refine List.nodup_cons.mpr ⟨fun member => ?_, ih nodup fresh⟩
        rcases mem_replace nodup member with rfl | kept
        · exact different rfl
        · exact absent kept.1

section Command

variable {node : NodeDef} {sys : LifeSys}

theorem phase_update (sys : LifeSys) (comp : CompRef) (cell : Cell) :
    phase { sys with memory := Function.update sys.memory comp cell } =
      Function.update sys.phase comp cell.phase := by
  funext other
  simp only [phase]
  rcases eq_or_ne other comp with rfl | elsewhere
  · simp
  · simp [Function.update_of_ne elsewhere, phase]

/-- The command thread moves without touching what the worker uses. -/
theorem Safe.proceed (safe : Safe node sys) {components loaded : List CompRef}
    {registry : Nat → Option CompRef} {queue : List Message} {cli : CliPoint}
    (ok : CliOk node sys.phase components loaded registry cli)
    (pending : ∀ comp ∈ sys.worker.pending, comp ∈ components)
    (cancelled : ∀ comp, cli.Cancelled comp → sys.cli.Cancelled comp) :
    Safe node
      { sys with
        components := components
        loaded := loaded
        registry := registry
        queue := queue
        cli := cli } :=
  ⟨ok, ⟨safe.worker.committed, safe.worker.refers, pending⟩,
    ⟨safe.heap.present, fun comp later => safe.heap.cancelled comp (cancelled comp later)⟩, safe.trace⟩

/-- Without the component lock the worker deals with no pending instance. -/
theorem pending_of_unlocked (unlocked : ¬ sys.lockHeld = true) : sys.worker.pending = [] := by
  unfold lockHeld at unlocked
  cases point : sys.worker with
  | running callback => cases callback <;> simp_all [WorkerPoint.pending]
  | inserting callback self timer periodic => cases callback <;> simp_all [WorkerPoint.pending]
  | starting rest => simp [point] at unlocked
  | callStart comp rest => simp [point] at unlocked
  | idle => rfl
  | lookup msg => rfl
  | testMsg comp => rfl
  | callMsg comp => rfl
  | testTimer timer => rfl
  | callTimer timer comp => rfl
  | retestTimer timer => rfl
  | reinsert timer => rfl

theorem CliOk.leave {phase : CompRef → Phase} {components loaded : List CompRef}
    {registry : Nat → Option CompRef} {cli next : CliPoint}
    (ok : CliOk node phase components loaded registry cli) (on_thread : cli.target = none)
    {comp : CompRef} (member : comp ∈ components) (target : next.target = some comp)
    (bound : next.bound node = node.localServices (node.id comp))
    (point : next.Ok node phase (swapRemove components comp) loaded) :
    CliOk node phase (swapRemove components comp) loaded registry next := by
  have rest {other : CompRef} (kept : other ∈ components) :
      other ∈ swapRemove components comp ∨ next.target = some other := by
    rcases eq_or_ne other comp with rfl | different
    · exact Or.inr target
    · exact Or.inl ((mem_swapRemove ok.components_nodup member).mpr ⟨kept, different⟩)
  refine ⟨?_, ok.loaded_nodup, ?_, fun other kept => ?_, fun other listed => ?_,
    fun service other registered => ?_, point⟩
  · exact (swapRemove_perm member).nodup_iff.mpr (ok.components_nodup.erase comp)
  · rw [(swapRemove_perm member).length_eq]
    exact (List.length_erase_le).trans ok.room
  · exact ok.usable other ((mem_swapRemove ok.components_nodup member).mp kept).1
  · rcases ok.listed other listed with kept | off
    · exact rest kept
    · simp [on_thread] at off
  · obtain ⟨provides, kept | ⟨off, -⟩⟩ := ok.bound service other registered
    · refine ⟨provides, (rest kept).imp_right fun leaving => ⟨leaving, ?_⟩⟩
      obtain rfl : comp = other := Option.some.inj (target.symm.trans leaving)
      rwa [bound]
    · simp [on_thread] at off

theorem CliOk.rebind {phase : CompRef → Phase} {components loaded : List CompRef}
    {registry : Nat → Option CompRef} {cli next : CliPoint}
    (ok : CliOk node phase components loaded registry cli) {service : Nat}
    {provider : Option CompRef} {rest : List Nat} (target : next.target = cli.target)
    (before : cli.bound node = service :: rest) (after : next.bound node = rest)
    (provides : ∀ comp, provider = some comp →
      service ∈ node.localServices (node.id comp) ∧ comp ∈ components)
    (point : next.Ok node phase components loaded) :
    CliOk node phase components loaded (Function.update registry service provider) next := by
  refine ⟨ok.components_nodup, ok.loaded_nodup, ok.room, ok.usable, ?_, fun other comp bound => ?_,
    point⟩
  · rw [target]
    exact ok.listed
  · rcases eq_or_ne other service with rfl | different
    · rw [Function.update_self] at bound
      obtain ⟨mine, kept⟩ := provides comp bound
      exact ⟨mine, Or.inl kept⟩
    · rw [Function.update_of_ne different] at bound
      obtain ⟨mine, where_bound⟩ := ok.bound other comp bound
      rw [target, after]
      rw [before, List.mem_cons] at where_bound
      exact ⟨mine, where_bound.imp_right fun off => ⟨off.1, off.2.resolve_left different⟩⟩

/-- The command thread moves on without touching the tables. -/
theorem CliOk.next {phase phase' : CompRef → Phase} {components loaded : List CompRef}
    {registry : Nat → Option CompRef} {cli next : CliPoint}
    (ok : CliOk node phase components loaded registry cli)
    (usable : ∀ comp ∈ components, phase' comp = .usable) (target : next.target = cli.target)
    (bound : cli.bound node = []) (point : next.Ok node phase' components loaded) :
    CliOk node phase' components loaded registry next := by
  refine ⟨ok.components_nodup, ok.loaded_nodup, ok.room, usable, ?_, fun service comp bound' => ?_,
    point⟩
  · rw [target]
    exact ok.listed
  · obtain ⟨mine, kept | ⟨-, off⟩⟩ := ok.bound service comp bound'
    · exact ⟨mine, Or.inl kept⟩
    · simp [bound] at off

/-- The command thread has finished with an instance that is not in the table. -/
theorem CliOk.return {phase phase' : CompRef → Phase} {components loaded loaded' : List CompRef}
    {registry : Nat → Option CompRef} {cli : CliPoint}
    (ok : CliOk node phase components loaded registry cli)
    (usable : ∀ comp ∈ components, phase' comp = .usable) (bound : cli.bound node = [])
    (nodup : loaded'.Nodup) (listed : ∀ comp ∈ loaded', comp ∈ loaded ∧ cli.target ≠ some comp) :
    CliOk node phase' components loaded' registry .idle := by
  refine ⟨ok.components_nodup, nodup, ok.room, usable, fun comp member => ?_,
    fun service comp registered => ?_, trivial⟩
  · obtain ⟨old, other⟩ := listed comp member
    exact Or.inl ((ok.listed comp old).resolve_right other)
  · obtain ⟨mine, kept | ⟨-, off⟩⟩ := ok.bound service comp registered
    · exact ⟨mine, Or.inl kept⟩
    · simp [bound] at off

theorem usable_update {phase : CompRef → Phase} {components : List CompRef} {comp : CompRef}
    {changed : Phase} (usable : ∀ other ∈ components, phase other = .usable)
    (off : comp ∉ components) :
    ∀ other ∈ components, Function.update phase comp changed other = .usable := by
  intro other member
  have different : other ≠ comp := by
    rintro rfl
    exact off member
  rw [Function.update_of_ne different]
  exact usable other member

theorem Safe.command_unregister (safe : Safe node sys) {comp : CompRef} {after : LifeSys}
    (point : sys.cli = .unregister comp) (stepped : sys.command node = some after) :
    Safe node after := by
  have ok := safe.cli
  rw [point] at ok
  have member : comp ∈ sys.components :=
    (ok.listed comp ok.point).resolve_right (by simp [CliPoint.target])
  simp only [command, point, if_pos member] at stepped
  split at stepped
  · simp at stepped
  · rename_i unlocked
    obtain rfl := Option.some.inj stepped
    refine safe.proceed (ok.leave rfl member rfl rfl ⟨ok.usable comp member, ?_⟩)
      (by simp [pending_of_unlocked unlocked]) (fun _ later => later.elim)
    simp [mem_swapRemove ok.components_nodup member]

theorem Safe.command_unbind (safe : Safe node sys) {comp : CompRef} {services : List Nat}
    {after : LifeSys} (point : sys.cli = .unbind comp services)
    (stepped : sys.command node = some after) : Safe node after := by
  have ok := safe.cli
  rw [point] at ok
  cases services with
  | nil =>
      simp only [command, point] at stepped
      obtain rfl := Option.some.inj stepped
      exact safe.proceed (ok.next ok.usable rfl rfl ⟨ok.point, trivial⟩) safe.worker.pending
        (fun _ later => later.elim)
  | cons service rest =>
      simp only [command, point] at stepped
      obtain rfl := Option.some.inj stepped
      exact safe.proceed (ok.rebind rfl rfl rfl (by simp) ok.point) safe.worker.pending
        (fun _ later => later.elim)

theorem Safe.command_swapOut (safe : Safe node sys) {old new : CompRef} {after : LifeSys}
    (point : sys.cli = .swapOut old new) (stepped : sys.command node = some after) :
    Safe node after := by
  have ok := safe.cli
  rw [point] at ok
  obtain ⟨listed, usable, off, unlisted, same_id⟩ := ok.point
  have member : old ∈ sys.components :=
    (ok.listed old listed).resolve_right (by simp [CliPoint.target])
  simp only [command, point, if_pos member] at stepped
  split at stepped
  · simp at stepped
  · rename_i unlocked
    obtain rfl := Option.some.inj stepped
    refine safe.proceed (ok.leave rfl member rfl rfl ⟨⟨ok.usable old member, ?_⟩, ?_, usable, ?_,
      unlisted, same_id, ?_⟩) (by simp [pending_of_unlocked unlocked]) (fun _ later => later.elim)
    · simp [mem_swapRemove ok.components_nodup member]
    · rintro rfl
      exact off member
    · exact fun kept => off ((mem_swapRemove ok.components_nodup member).mp kept).1
    · rw [(swapRemove_perm member).length_eq, List.length_erase_of_mem member]
      have := ok.room
      have := List.length_pos_of_mem member
      omega

theorem Safe.command_swapIn (safe : Safe node sys) {old new : CompRef} {after : LifeSys}
    (point : sys.cli = .swapIn old new) (stepped : sys.command node = some after) :
    Safe node after := by
  have ok := safe.cli
  rw [point] at ok
  obtain ⟨⟨old_usable, old_off⟩, different, usable, off, unlisted, same_id, room⟩ := ok.point
  simp only [command, point, if_pos room] at stepped
  split at stepped
  · simp at stepped
  · rename_i unlocked
    obtain rfl := Option.some.inj stepped
    refine safe.proceed ⟨?_, ok.loaded_nodup, ?_, fun other kept => ?_, fun other listed => ?_,
      fun service other registered => ?_, ⟨old_usable, ?_⟩, ?_, unlisted, same_id⟩
      (by simp [pending_of_unlocked unlocked]) (fun _ later => later.elim)
    · exact List.nodup_append.mpr ⟨ok.components_nodup, List.nodup_singleton _, by
        rintro first kept second last rfl
        obtain rfl := List.mem_singleton.mp last
        exact off kept⟩
    · rw [List.length_append, List.length_singleton]
      exact room
    · rcases List.mem_append.mp kept with before | last
      · exact ok.usable other before
      · obtain rfl := List.mem_singleton.mp last
        exact usable
    · exact (ok.listed other listed).imp_left (List.mem_append_left _)
    · obtain ⟨mine, where_bound⟩ := ok.bound service other registered
      exact ⟨mine, where_bound.imp_left (List.mem_append_left _)⟩
    · simp [old_off, different]
    · simp

theorem Safe.command_replace (safe : Safe node sys) {old new : CompRef} {after : LifeSys}
    (point : sys.cli = .replace old new) (stepped : sys.command node = some after) :
    Safe node after := by
  have ok := safe.cli
  rw [point] at ok
  obtain ⟨⟨usable, off⟩, on_thread, unlisted, same_id⟩ := ok.point
  simp only [command, point] at stepped
  obtain rfl := Option.some.inj stepped
  refine safe.proceed ⟨ok.components_nodup, nodup_replace ok.loaded_nodup unlisted, ok.room,
    ok.usable, fun other listed => ?_, ok.bound, ⟨usable, off⟩, on_thread, fun listed => ?_, ?_⟩
    safe.worker.pending (fun _ later => later.elim)
  · rcases mem_replace ok.loaded_nodup listed with rfl | ⟨before, different⟩
    · exact Or.inl on_thread
    · refine (ok.listed other before).imp_right fun leaving => ?_
      exact absurd (Option.some.inj leaving).symm different
  · rcases mem_replace ok.loaded_nodup listed with rfl | ⟨-, different⟩
    · exact off on_thread
    · exact different rfl
  · intro service provided
    rwa [same_id]

theorem Safe.command_bind (safe : Safe node sys) {old new : CompRef} {services : List Nat}
    {after : LifeSys} (point : sys.cli = .bind old new services)
    (stepped : sys.command node = some after) : Safe node after := by
  have ok := safe.cli
  rw [point] at ok
  obtain ⟨off, on_thread, unlisted, provided⟩ := ok.point
  cases services with
  | nil =>
      simp only [command, point] at stepped
      obtain rfl := Option.some.inj stepped
      exact safe.proceed (ok.next ok.usable rfl rfl ⟨off, unlisted⟩) safe.worker.pending
        (fun _ later => later.elim)
  | cons service rest =>
      simp only [command, point] at stepped
      obtain rfl := Option.some.inj stepped
      refine safe.proceed (ok.rebind rfl rfl rfl ?_ ⟨off, on_thread, unlisted, fun other member =>
        provided other (List.mem_cons_of_mem _ member)⟩) safe.worker.pending
        (fun _ later => later.elim)
      rintro comp ⟨⟩
      exact ⟨provided service List.mem_cons_self, on_thread⟩

/-- An instance is set to stopped when the worker has not passed a test of it. -/
theorem Safe.command_mark (safe : Safe node sys) {comp : CompRef} {why : Teardown}
    {after : LifeSys} (point : sys.cli = .mark comp why)
    (clear : ¬ sys.worker.Committed sys.owner comp) (stepped : sys.command node = some after) :
    Safe node after := by
  have ok := safe.cli
  rw [point] at ok
  obtain ⟨⟨usable, off⟩, why_ok⟩ := ok.point
  have expected : why ≠ .discard := by
    rintro rfl
    exact why_ok
  simp only [command, point, if_neg expected] at stepped
  obtain rfl := Option.some.inj stepped
  have phase_eq := phase_update sys comp (.live .stopped)
  have others {other : CompRef} (different : other ≠ comp) :
      Function.update sys.phase comp .stopped other = sys.phase other :=
    Function.update_of_ne different _ _
  have present {other : CompRef} (before : sys.phase other = .usable ∨ sys.phase other = .stopped) :
      Function.update sys.phase comp .stopped other = .usable ∨
        Function.update sys.phase comp .stopped other = .stopped := by
    rcases eq_or_ne other comp with rfl | different
    · exact Or.inr (Function.update_self _ _ _)
    · rwa [others different]
  constructor
  · exact phase_eq ▸ ok.next (usable_update ok.usable off) rfl rfl
      ⟨⟨Function.update_self _ _ _, off⟩, why_ok⟩
  · refine phase_eq ▸ ⟨fun other committed => ?_, fun other refers =>
      present (safe.worker.refers other refers), safe.worker.pending⟩
    have different : other ≠ comp := by
      rintro rfl
      exact clear committed
    exact (others different).trans (safe.worker.committed other committed)
  · exact phase_eq ▸ ⟨fun timer member other owned =>
      present (safe.heap.present timer member other owned), fun _ later => later.elim⟩
  · refine phase_eq ▸ ⟨fun other stop => ?_, safe.trace.stopLast, fun other member => ?_⟩
    · rcases eq_or_ne other comp with rfl | different
      · exact Or.inl (Function.update_self _ _ _)
      · simp only [Cell.phase, others different]
        exact safe.trace.stopped other stop
    · have freed := safe.trace.retired other member
      have different : other ≠ comp := by
        rintro rfl
        simp [usable] at freed
      exact (others different).trans freed

theorem Safe.command_drop (safe : Safe node sys) {comp : CompRef} {callStop : Bool}
    {why : Teardown} {after : LifeSys} (point : sys.cli = .drop comp callStop why)
    (stepped : sys.command node = some after) : Safe node after := by
  have ok := safe.cli
  rw [point] at ok
  simp only [command, point] at stepped
  obtain rfl := Option.some.inj stepped
  exact safe.proceed (ok.next ok.usable rfl rfl ok.point) safe.worker.pending
    (fun _ later => later.elim)

theorem owner_of_cancelTimers {comp other : CompRef} {timer : TimerRef}
    (owned : (sys.cancelTimers comp).owner timer = some other) : sys.owner timer = some other := by
  simp only [cancelTimers] at owned
  split at owned
  · simp at owned
  · exact owned

theorem Committed_mono {owner owner' : TimerRef → Option CompRef} {point : WorkerPoint}
    {comp : CompRef} (fewer : ∀ timer, owner' timer = some comp → owner timer = some comp)
    (committed : point.Committed owner' comp) : point.Committed owner comp := by
  cases point with
  | reinsert timer => exact fewer timer committed
  | _ => exact committed

theorem Refers_mono {owner owner' : TimerRef → Option CompRef} {point : WorkerPoint}
    {comp : CompRef} (fewer : ∀ timer, owner' timer = some comp → owner timer = some comp)
    (refers : point.Refers owner' comp) : point.Refers owner comp := by
  cases point with
  | testTimer timer => exact fewer timer refers
  | retestTimer timer => exact fewer timer refers
  | callTimer timer _ => exact fewer timer refers
  | running callback =>
      cases callback with
      | timer timer _ => exact fewer timer refers
      | _ => exact refers
  | inserting callback _ _ _ =>
      cases callback with
      | timer timer _ => exact fewer timer refers
      | _ => exact refers
  | _ => exact refers

theorem Safe.command_cancel (safe : Safe node sys) {comp : CompRef} {callStop : Bool}
    {why : Teardown} {after : LifeSys} (point : sys.cli = .cancel comp callStop why)
    (stepped : sys.command node = some after) : Safe node after := by
  have ok := safe.cli
  rw [point] at ok
  simp only [command, point] at stepped
  obtain rfl := Option.some.inj stepped
  refine ⟨ok.next ok.usable rfl rfl ok.point,
    ⟨fun other committed => safe.worker.committed other
        (Committed_mono (fun _ => owner_of_cancelTimers) committed),
      fun other refers => safe.worker.refers other
        (Refers_mono (fun _ => owner_of_cancelTimers) refers), safe.worker.pending⟩,
    ⟨fun timer member other owned => ?_, ?_⟩, safe.trace⟩
  · exact safe.heap.present timer (List.mem_of_mem_filter member) other
      (owner_of_cancelTimers owned)
  · rintro other rfl timer member owned
    have kept : sys.owner timer ≠ some comp := by simpa using List.of_mem_filter member
    exact kept (owner_of_cancelTimers owned)

theorem Safe.command_stop (safe : Safe node sys) {comp : CompRef} {callStop : Bool}
    {why : Teardown} {after : LifeSys} (point : sys.cli = .stop comp callStop why)
    (stepped : sys.command node = some after) : Safe node after := by
  have ok := safe.cli
  rw [point] at ok
  have stopped : sys.phase comp = .stopped := ok.point.1.1
  have cancelled : ∀ other, other = comp → sys.cli.Cancelled other := by
    rintro other rfl
    rw [point]
    rfl
  simp only [command, point] at stepped
  split at stepped
  · obtain rfl := Option.some.inj stepped
    refine ⟨ok.next ok.usable rfl rfl ok.point, safe.worker,
      ⟨safe.heap.present, fun other later => safe.heap.cancelled other (cancelled other later.symm)⟩,
      fun other member => ?_, ?_, safe.trace.retired⟩
    · rcases List.mem_append.mp member with old | new
      · exact safe.trace.stopped other old
      · obtain rfl : other = comp := by simpa using new
        exact Or.inl stopped
    · refine List.pairwise_append.mpr ⟨safe.trace.stopLast, List.pairwise_singleton _ _, ?_⟩
      rintro first - second last other - begun
      obtain rfl := List.mem_singleton.mp last
      exact begun
  · obtain rfl := Option.some.inj stepped
    exact safe.proceed (ok.next ok.usable rfl rfl ok.point) safe.worker.pending
      (fun other later => cancelled other later.symm)

theorem Safe.command_stopping (safe : Safe node sys) {comp : CompRef} {why : Teardown}
    {after : LifeSys} (point : sys.cli = .stopping comp why)
    (stepped : sys.command node = some after) : Safe node after := by
  have ok := safe.cli
  rw [point] at ok
  simp only [command, point] at stepped
  obtain rfl := Option.some.inj stepped
  refine safe.proceed (ok.next ok.usable rfl rfl ok.point) safe.worker.pending ?_
  rintro other rfl
  rw [point]
  rfl

/-- An instance is freed when the worker will not read it again. -/
theorem Safe.command_free (safe : Safe node sys) {comp : CompRef} {why : Teardown}
    {after : LifeSys} (point : sys.cli = .free comp why)
    (clear : ¬ sys.worker.Refers sys.owner comp) (stepped : sys.command node = some after) :
    Safe node after := by
  have ok := safe.cli
  rw [point] at ok
  obtain ⟨⟨stopped, off⟩, why_ok⟩ := ok.point
  have phase_eq := phase_update sys comp .freed
  have others {other : CompRef} (different : other ≠ comp) :
      Function.update sys.phase comp .freed other = sys.phase other :=
    Function.update_of_ne different _ _
  have worker : WorkerOk (Function.update sys.phase comp .freed) sys.owner sys.components
      sys.worker := by
    refine ⟨fun other committed => ?_, fun other refers => ?_, safe.worker.pending⟩
    · have usable := safe.worker.committed other committed
      have different : other ≠ comp := by
        rintro rfl
        simp [stopped] at usable
      exact (others different).trans usable
    · have different : other ≠ comp := by
        rintro rfl
        exact clear refers
      rw [others different]
      exact safe.worker.refers other refers
  have heap (next : CliPoint) (finished : ∀ other, ¬ next.Cancelled other) :
      HeapOk (Function.update sys.phase comp .freed) sys.heap sys.owner next := by
    refine ⟨fun timer member other owned => ?_, fun other later => absurd later (finished other)⟩
    have different : other ≠ comp := by
      rintro rfl
      exact safe.heap.cancelled other (by rw [point]; rfl) timer member owned
    rw [others different]
    exact safe.heap.present timer member other owned
  have trace : TraceOk (Function.update sys.phase comp .freed) sys.events (comp :: sys.retired) := by
    refine ⟨fun other stop => ?_, safe.trace.stopLast, fun other member => ?_⟩
    · rcases eq_or_ne other comp with rfl | different
      · exact Or.inr (Function.update_self _ _ _)
      · rw [others different]
        exact safe.trace.stopped other stop
    · rcases eq_or_ne other comp with rfl | different
      · exact Function.update_self _ _ _
      · rw [others different]
        exact safe.trace.retired other ((List.mem_cons.mp member).resolve_left different)
  cases why with
  | discard => exact why_ok.elim
  | unload =>
      simp only [command, point] at stepped
      obtain rfl := Option.some.inj stepped
      exact ⟨phase_eq ▸ ok.next (usable_update ok.usable off) rfl rfl
          ⟨Function.update_self _ _ _, off⟩,
        phase_eq ▸ worker, phase_eq ▸ heap _ fun _ => id,
        phase_eq ▸ ⟨trace.stopped, trace.stopLast, fun other member =>
          trace.retired other (List.mem_cons_of_mem _ member)⟩⟩
  | reload =>
      simp only [command, point] at stepped
      obtain rfl := Option.some.inj stepped
      refine ⟨phase_eq ▸ ok.return (usable_update ok.usable off) rfl ok.loaded_nodup
          fun other member => ⟨member, ?_⟩,
        phase_eq ▸ worker, phase_eq ▸ heap _ fun _ => id, phase_eq ▸ trace⟩
      rintro ⟨⟩
      exact why_ok member

theorem Safe.command_remove (safe : Safe node sys) {comp : CompRef} {after : LifeSys}
    (point : sys.cli = .remove comp) (stepped : sys.command node = some after) :
    Safe node after := by
  have ok := safe.cli
  rw [point] at ok
  obtain ⟨freed, off⟩ := ok.point
  simp only [command, point] at stepped
  obtain rfl := Option.some.inj stepped
  refine ⟨ok.return ok.usable rfl (ok.loaded_nodup.erase comp) fun other member => ?_, safe.worker,
    ⟨safe.heap.present, fun _ later => later.elim⟩, safe.trace.stopped, safe.trace.stopLast,
    fun other member => ?_⟩
  · obtain ⟨different, kept⟩ := (ok.loaded_nodup.mem_erase_iff).mp member
    exact ⟨kept, fun leaving => different (Option.some.inj leaving).symm⟩
  · rcases List.mem_cons.mp member with rfl | old
    · exact freed
    · exact safe.trace.retired other old

theorem Safe.command (safe : Safe node sys) {after : LifeSys} (clear : sys.KeepsClear .cli)
    (stepped : sys.command node = some after) : Safe node after := by
  simp only [KeepsClear] at clear
  cases point : sys.cli with
  | idle => simp [LifeSys.command, point] at stepped
  | unregister comp => exact safe.command_unregister point stepped
  | unbind comp services => exact safe.command_unbind point stepped
  | swapOut old new => exact safe.command_swapOut point stepped
  | swapIn old new => exact safe.command_swapIn point stepped
  | replace old new => exact safe.command_replace point stepped
  | bind old new services => exact safe.command_bind point stepped
  | mark comp why => exact safe.command_mark point (by simpa [point] using clear) stepped
  | drop comp callStop why => exact safe.command_drop point stepped
  | cancel comp callStop why => exact safe.command_cancel point stepped
  | stop comp callStop why => exact safe.command_stop point stepped
  | stopping comp why => exact safe.command_stopping point stepped
  | free comp why => exact safe.command_free point (by simpa [point] using clear) stepped
  | remove comp => exact safe.command_remove point stepped

theorem Safe.unload (safe : Safe node sys) {id : Nat} {after : LifeSys}
    (stepped : sys.step node (.unload id) = some after) : Safe node after := by
  simp only [step] at stepped
  split at stepped
  · rename_i idle
    have ok := safe.cli
    rw [idle] at ok
    split at stepped
    · rename_i comp found
      obtain rfl := Option.some.inj stepped
      exact safe.proceed (ok.next ok.usable rfl rfl (List.mem_of_find?_eq_some found))
        safe.worker.pending (fun _ later => later.elim)
    · obtain rfl := Option.some.inj stepped
      exact safe
  · simp at stepped

theorem Safe.reload (safe : Safe node sys) {id : Nat} {fresh : Option CompRef} {after : LifeSys}
    (stepped : sys.step node (.reload id fresh) = some after) : Safe node after := by
  simp only [step] at stepped
  split at stepped
  · rename_i idle
    have ok := safe.cli
    rw [idle] at ok
    split at stepped
    · rename_i old new found
      split at stepped
      · rename_i allocated
        obtain ⟨cell, id_eq⟩ : sys.memory new = .unallocated ∧ node.id new = id := by
          simpa using allocated
        obtain rfl := Option.some.inj stepped
        have listed := List.mem_of_find?_eq_some found
        have old_id : node.id old = id := by simpa using List.find?_some found
        have unused : sys.phase new = .unallocated := by simp [phase, cell, Cell.phase]
        have phase_eq := phase_update sys new (.live .inited)
        have off : new ∉ sys.components := by
          intro member
          have usable := ok.usable new member
          simp [unused] at usable
        have unlisted : new ∉ sys.loaded := fun member =>
          off ((ok.listed new member).resolve_right (by simp [CliPoint.target]))
        have kept {other : CompRef} (used : sys.phase other ≠ .unallocated) :
            Function.update sys.phase new .usable other = sys.phase other := by
          refine Function.update_of_ne ?_ _ _
          rintro rfl
          exact used unused
        have present {other : CompRef}
            (before : sys.phase other = .usable ∨ sys.phase other = .stopped) :
            Function.update sys.phase new .usable other = .usable ∨
              Function.update sys.phase new .usable other = .stopped := by
          have used : sys.phase other ≠ .unallocated := by
            rcases before with usable | stopped
            · simp [usable]
            · simp [stopped]
          rwa [kept used]
        constructor
        · exact phase_eq ▸ ok.next (usable_update ok.usable off) rfl rfl
            ⟨listed, Function.update_self _ _ _, off, unlisted, id_eq.trans old_id.symm⟩
        · exact phase_eq ▸ ⟨fun other committed => by
              have usable := safe.worker.committed other committed
              exact (kept (by simp [usable])).trans usable,
            fun other refers => present (safe.worker.refers other refers), safe.worker.pending⟩
        · exact phase_eq ▸ ⟨fun timer member other owned =>
            present (safe.heap.present timer member other owned), fun _ later => later.elim⟩
        · refine phase_eq ▸ ⟨fun other stop => ?_, safe.trace.stopLast, fun other member => ?_⟩
          · have ended := safe.trace.stopped other stop
            have used : sys.phase other ≠ .unallocated := by
              rcases ended with stopped | freed
              · simp [stopped]
              · simp [freed]
            exact ended.imp (kept used).trans (kept used).trans
          · have freed := safe.trace.retired other member
            exact (kept (by simp [freed])).trans freed
      · simp at stepped
    · obtain rfl := Option.some.inj stepped
      exact safe
  · simp at stepped

/-! ## Runs -/

theorem Safe.step (safe : Safe node sys) {op : LifeOp} {after : LifeSys}
    (clear : sys.KeepsClear op) (stepped : sys.step node op = some after) : Safe node after := by
  cases op with
  | send msg =>
      obtain rfl := Option.some.inj stepped
      exact ⟨safe.cli, safe.worker, safe.heap, safe.trace⟩
  | popMsg =>
      simp only [LifeSys.step] at stepped
      split at stepped
      · obtain rfl := Option.some.inj stepped
        exact ⟨safe.cli, workerOk_of_free (fun _ => id) (fun _ => id) rfl, safe.heap, safe.trace⟩
      · simp at stepped
  | popTimer timer => exact safe.popTimer stepped
  | startPending =>
      simp only [LifeSys.step] at stepped
      split at stepped
      · obtain rfl := Option.some.inj stepped
        exact safe.move ⟨fun _ committed => committed.elim, fun _ refers => refers.elim,
          fun _ member => member⟩
      · simp at stepped
  | work stale => exact safe.work clear stepped
  | startTimer self timer periodic => exact safe.startTimer stepped
  | finish ok => exact safe.finish stepped
  | unload id => exact safe.unload stepped
  | reload id fresh => exact safe.reload stepped
  | cli => exact safe.command clear stepped

end Command

/-- Nothing of an instance begins after its stop callback, and no timer of an instance whose unload
or reload has returned is in the heap. -/
def LifecycleSafe (sys : LifeSys) : Prop :=
  StopLast sys.events ∧
    ∀ comp ∈ sys.retired, ∀ timer ∈ sys.heap, sys.owner timer ≠ some comp

instance (owner : TimerRef → Option CompRef) (comp : CompRef) (point : WorkerPoint) :
    Decidable (point.Committed owner comp) := by
  unfold WorkerPoint.Committed
  split <;> infer_instance

instance (owner : TimerRef → Option CompRef) (comp : CompRef) (point : WorkerPoint) :
    Decidable (point.Refers owner comp) := by
  unfold WorkerPoint.Refers
  split <;> infer_instance

instance (sys : LifeSys) (op : LifeOp) : Decidable (sys.KeepsClear op) := by
  unfold KeepsClear
  repeat' split
  all_goals infer_instance

instance (comp : CompRef) : (event : Event) → Decidable (event.begins comp)
  | .stop _ => isFalse id
  | .onMsg other | .start other | .timer other => inferInstanceAs (Decidable (other = comp))

theorem stop_begins_iff (comp : CompRef) (second : Event) :
    (∀ other, Event.stop comp = .stop other → ¬ second.begins other) ↔ ¬ second.begins comp := by
  simp

theorem other_begins {first : Event} (other : ∀ comp, first ≠ .stop comp) (second : Event) :
    ∀ comp, first = .stop comp → ¬ second.begins comp :=
  fun comp stops => absurd stops (other comp)

instance (first second : Event) :
    Decidable (∀ comp, first = .stop comp → ¬ second.begins comp) :=
  match first with
  | .stop comp => decidable_of_iff' _ (stop_begins_iff comp second)
  | .onMsg _ | .start _ | .timer _ => isTrue (other_begins (by simp) second)

instance (events : List Event) : Decidable (StopLast events) :=
  inferInstanceAs (Decidable (events.Pairwise _))

/-- A node with one component that provides one service. -/
def oneComponent : NodeDef where
  id := fun _ => 1
  onMsg := fun _ => true
  start := fun _ => true
  stop := fun _ => true
  callback := fun _ => true
  services := [(5, 1)]

/-- Its component is loaded. -/
def loadedNode : LifeSys where
  memory := fun comp => if comp = 0 then .live .inited else .unallocated
  components := [0]
  loaded := [0]
  registry := fun service => if service = 5 then some 0 else none
  queue := []
  heap := []
  owner := fun _ => none
  periodic := fun _ => false
  isRunning := fun _ => false
  worker := .idle
  cli := .idle
  events := []
  retired := []

theorem loadedNode_initial : loadedNode.Initial oneComponent where
  inited := by simp [loadedNode]
  loaded_iff := fun _ => Iff.rfl
  components_nodup := List.nodup_singleton _
  loaded_nodup := List.nodup_singleton _
  room := by simp [loadedNode, maxCompPerThread]
  bound := by
    intro service comp bound
    obtain ⟨rfl, rfl⟩ : service = 5 ∧ 0 = comp := by simpa [loadedNode] using bound
    simp [loadedNode, NodeDef.localServices, oneComponent]
  heap := rfl
  worker := rfl
  cli := rfl
  events := rfl
  retired := rfl

/-- The component starts, and a message for it is looked up and passes the status test. -/
def messageTested : List LifeOp :=
  [.send ⟨5, none⟩, .startPending, .work .error, .work .error, .finish true, .work .error, .popMsg,
    .work .error, .work .error]

end LifeSys

end CodexNos.Node
