import CodexNos.Kv.InformationFlow
import CodexNos.Kv.Subscriptions

/-!
# The state of one key

What is known of a key from its own calls, together with the subscribers of all keys, is an invariant
of a table.  A call moves it on by the key of the call, its status and its bytes alone.
-/

namespace CodexNos.Kv

open Lib

variable {K : Type*} [DecidableEq K] {schema : Schema K} {table : Table K}
  {chains chains' : Nat → List Nat} {view view' : View K} {subs : K → Option (Finset Sub)}
  {wanted : K} {known : Option Known}

theorem Shows.view_eq (shown : Shows schema table chains view)
    (shown' : Shows schema table chains' view') : view = view' := by
  have slot : view.slot = view'.slot := by
    funext key
    exact Option.some.inj ((shown.findSlot key).symm.trans (shown'.findSlot key))
  have value : view.value = view'.value := by
    funext idx
    rw [shown.value, shown'.value]
  have valLen : view.valLen = view'.valLen := by
    funext idx
    rw [shown.valLen, shown'.valLen]
  have free : view.free = view'.free := shown.free.trans shown'.free.symm
  cases view
  cases view'
  simp only at slot value valLen free
  subst slot value valLen free
  rfl

/-- There is an unused slot if the keys of the table are among fewer than there are slots. -/
theorem Shows.free_ne_nil (shown : Shows schema table chains view) {keys : Finset K}
    (among : ∀ key, (view.slot key).isSome → key ∈ keys) (room : keys.card < schema.capacity) :
    view.free ≠ [] := by
  intro empty
  have wf := shown.wf
  have unused : table.free = [] := by rwa [shown.free, List.reverse_eq_nil_iff] at empty
  have slot (idx : Nat) (inside : idx < schema.capacity) :
      slotOf schema table chains (table.key idx) = some idx :=
    wf.slotOf_eq_some_iff.mpr ⟨(wf.partition idx inside).mpr (by simp [unused]), rfl⟩
  have maps : Set.MapsTo table.key (Finset.range schema.capacity) keys := by
    intro idx member
    refine among _ ?_
    rw [shown.slot, slot idx (by simpa using member)]
    rfl
  obtain ⟨idx, inside, other, inside', different, same⟩ :=
    Finset.exists_ne_map_eq_of_card_lt_of_maps_to (by simpa using room) maps
  refine different (Option.some.inj ?_)
  rw [← slot idx (by simpa using inside), ← slot other (by simpa using inside'), same]

/-- The key of a call. -/
def SubOp.key : SubOp K → K
  | .put key _ _ => key
  | .del key => key
  | .subscribe key _ => key
  | .unsubscribe key _ => key

/-- A put has a value of its length, or none. -/
def SubOp.Sized : SubOp K → Prop
  | .put _ val valLen => View.Sized val valLen
  | _ => True

/-- The call as one that writes. -/
def SubOp.flow : SubOp K → Option (FlowOp K)
  | .put key (some value) _ => some (.put key value)
  | .put key none valLen => some (.putNull key valLen)
  | .del key => some (.del key)
  | _ => none

theorem afterCall_of_ne {op : SubOp K} {status : Status} (different : op.key ≠ wanted)
    (before : Option (Finset Sub)) : afterCall wanted before (op, status) = before := by
  cases op <;> cases status <;> simp_all [afterCall, SubOp.key]

theorem Answers.key_of_notified {reply : Reply K} {op : SubOp K}
    (answers : Answers schema subs reply op) {note : Notification K}
    (member : note ∈ reply.notified) : note.key = op.key := by
  cases op with
  | put key val valLen =>
      simp only [Answers] at answers
      split at answers
      · simp [answers.2] at member
      · split at answers
        · simp [answers] at member
        · rw [answers.2.2 note member]
          rfl
  | del key => simp [answers.2] at member
  | subscribe key sub => simp [answers.2] at member
  | unsubscribe key sub => simp [answers.2] at member

theorem notified_get {key : K} {bufLen : Nat} {next : Table K} {reply : Reply K}
    (called : step schema table (.get key bufLen) = .ok (next, reply)) : reply.notified = [] := by
  simp only [step, nosKvGet] at called
  split at called
  · cases called
  · obtain ⟨-, rfl⟩ := Prod.mk.inj (Except.ok.inj called)
    rfl
  · obtain ⟨-, rfl⟩ := Prod.mk.inj (Except.ok.inj called)
    rfl

omit [DecidableEq K] in
theorem SubOp.flow_key {op : SubOp K} {flow : FlowOp K} (writing : op.flow = some flow) :
    flow.key = op.key := by
  cases op with
  | put key val valLen =>
      cases val with
      | none =>
          obtain rfl := Option.some.inj writing
          rfl
      | some value =>
          obtain rfl := Option.some.inj writing
          rfl
  | del key =>
      obtain rfl := Option.some.inj writing
      rfl
  | subscribe key sub => cases writing
  | unsubscribe key sub => cases writing

/-- What is known of a key after a call. -/
def learnCall (wanted : K) (known : Option Known) (op : SubOp K) (status : Status) : Option Known :=
  match op.flow with
  | some flow => if flow.key = wanted then learn known (flow, status) else known
  | none => known

namespace Shows

theorem writes (shown : Shows schema table chains view) {op : SubOp K}
    (sized : op.Sized) {flow : FlowOp K} (writing : op.flow = some flow) {next : Table K}
    {reply : Reply K} (called : Kv.step schema table op.call = .ok (next, reply)) :
    reply.status = (view.step schema.maxValSize flow).2.1 ∧
      ∃ chains', Shows schema next chains' (view.step schema.maxValSize flow).1 := by
  obtain ⟨table', chains', flowed, after⟩ := shown.flowStep flow
  have same : Kv.flowStep schema table flow = .ok (next, reply.outcome) := by
    cases op with
    | put other val valLen =>
        cases val with
        | none =>
            obtain rfl := Option.some.inj writing
            have put : nosKvPut schema table other none valLen = .ok (next, reply) := called
            simp only [Kv.flowStep, put, Except.map]
        | some value =>
            obtain rfl := Option.some.inj writing
            obtain rfl : value.length = valLen := sized value rfl
            have put : nosKvPut schema table other (some value) value.length =
                .ok (next, reply) := called
            simp only [Kv.flowStep, put, Except.map]
    | del other =>
        obtain rfl := Option.some.inj writing
        have del : nosKvDel schema table other = .ok (next, reply) := called
        simp only [Kv.flowStep, del, Except.map]
    | subscribe other sub => cases writing
    | unsubscribe other sub => cases writing
  obtain ⟨rfl, outcome⟩ := Prod.mk.inj (Except.ok.inj (same.symm.trans flowed))
  exact ⟨congrArg Prod.fst outcome, chains', after⟩

theorem reads (shown : Shows schema table chains view) {op : SubOp K}
    (reading : op.flow = none) {next : Table K} {reply : Reply K}
    (called : Kv.step schema table op.call = .ok (next, reply)) :
    ∃ chains', Shows schema next chains' view := by
  cases op with
  | put other val valLen => cases val <;> cases reading
  | del other => cases reading
  | subscribe other sub =>
      have idle := shown.idle (schema.bucketOf other)
      simp only [Kv.step, SubOp.call, nosKvSubscribe, idle, shown.findSlot, ne_eq,
        not_true_eq_false, if_false] at called
      cases slot : view.slot other with
      | none =>
          rw [slot] at called
          obtain ⟨rfl, -⟩ := Prod.mk.inj (Except.ok.inj called)
          exact ⟨chains, shown⟩
      | some idx =>
          rw [slot] at called
          dsimp only at called
          split at called
          · obtain ⟨rfl, -⟩ := Prod.mk.inj (Except.ok.inj called)
            exact ⟨chains, shown⟩
          · obtain ⟨rfl, -⟩ := Prod.mk.inj (Except.ok.inj called)
            exact ⟨chains, shown.setSubs idx _⟩
  | unsubscribe other sub =>
      have idle := shown.idle (schema.bucketOf other)
      simp only [Kv.step, SubOp.call, nosKvUnsubscribe, idle, shown.findSlot, ne_eq,
        not_true_eq_false, if_false] at called
      cases slot : view.slot other with
      | none =>
          rw [slot] at called
          obtain ⟨rfl, -⟩ := Prod.mk.inj (Except.ok.inj called)
          exact ⟨chains, shown⟩
      | some idx =>
          rw [slot] at called
          dsimp only at called
          split at called
          · obtain ⟨rfl, -⟩ := Prod.mk.inj (Except.ok.inj called)
            exact ⟨chains, shown.setSubs idx _⟩
          · obtain ⟨rfl, -⟩ := Prod.mk.inj (Except.ok.inj called)
            exact ⟨chains, shown⟩

end Shows

/-- The subscribers of all keys, and what is known of one of them. -/
structure Keeps (schema : Schema K) (table : Table K) (chains : Nat → List Nat) (view : View K)
    (subs : K → Option (Finset Sub)) (wanted : K) (known : Option Known) : Prop where
  tracks : Tracks schema table chains view subs
  proper : view.Proper schema.maxValSize
  matched : view.Matches wanted known

namespace Keeps

theorem create (schema : Schema K) (wanted : K) :
    Keeps schema (nosKvTableCreate schema) (fun _ => [])
      (.create schema.maxValSize schema.capacity) (fun _ => none) wanted none where
  tracks := .create schema
  proper := View.proper_create ..
  matched := rfl

theorem get {known : Known} (keeps : Keeps schema table chains view subs wanted (some known))
    {bufLen : Nat} (within : min bufLen known.valLen ≤ known.own.length) :
    ∃ reply, Kv.step schema table (.get wanted bufLen) = .ok (table, reply) ∧
      reply.outcome = (.ok, some (known.own.take (min bufLen known.valLen), known.valLen)) := by
  obtain ⟨reply, called, outcome⟩ := keeps.tracks.shown.get_step wanted bufLen
  exact ⟨reply, called, outcome.trans (keeps.matched.read within)⟩

theorem get_of_none (keeps : Keeps schema table chains view subs wanted none) (bufLen : Nat) :
    ∃ reply, Kv.step schema table (.get wanted bufLen) = .ok (table, reply) ∧
      reply.outcome = (.err, none) := by
  obtain ⟨reply, called, outcome⟩ := keeps.tracks.shown.get_step wanted bufLen
  exact ⟨reply, called, outcome.trans (View.read_of_absent keeps.matched _)⟩

/-- Every call returns, answers and notifies by the subscribers, and moves the state of the key on. -/
theorem step (keeps : Keeps schema table chains view subs wanted known) {op : SubOp K}
    (sized : op.Sized) :
    ∃ next reply chains' view', Kv.step schema table op.call = .ok (next, reply) ∧
      Answers schema subs reply op ∧
      Keeps schema next chains' view' (fun other => afterCall other (subs other) (op, reply.status))
        wanted (learnCall wanted known op reply.status) := by
  obtain ⟨next, reply, chains', view', called, answers, tracks⟩ := keeps.tracks.step op
  refine ⟨next, reply, chains', view', called, answers, tracks, ?_, ?_⟩
  · cases writing : op.flow with
    | none =>
        obtain ⟨chains'', shown⟩ := keeps.tracks.shown.reads writing called
        rw [tracks.shown.view_eq shown]
        exact keeps.proper
    | some flow =>
        obtain ⟨-, chains'', shown⟩ := keeps.tracks.shown.writes sized writing called
        rw [tracks.shown.view_eq shown]
        exact keeps.proper.step flow
  · cases writing : op.flow with
    | none =>
        obtain ⟨chains'', shown⟩ := keeps.tracks.shown.reads writing called
        rw [tracks.shown.view_eq shown, learnCall, writing]
        exact keeps.matched
    | some flow =>
        obtain ⟨status, chains'', shown⟩ := keeps.tracks.shown.writes sized writing called
        rw [tracks.shown.view_eq shown, learnCall, writing, status]
        by_cases own : flow.key = wanted
        · subst own
          simp only [if_true]
          exact keeps.matched.step_own.1
        · simp only [own, if_false]
          exact keeps.matched.step_other keeps.proper own

/-- A value that fits is stored if its key is there or a slot is unused. -/
theorem put_ok (keeps : Keeps schema table chains view subs wanted known) {value : List UInt8}
    (short : value.length ≤ schema.maxValSize) (place : known.isSome ∨ view.free ≠ [])
    {next : Table K} {reply : Reply K}
    (called : Kv.step schema table (.put wanted (some value) value.length) = .ok (next, reply)) :
    reply.status = .ok := by
  have sized : (SubOp.put wanted (some value) value.length).Sized := by
    rintro _ ⟨⟩
    rfl
  have status := (keeps.tracks.shown.writes sized rfl called).1
  rw [status]
  simp only [View.step, View.put, not_lt.mpr short, if_false]
  cases slot : view.slot wanted with
  | some idx => rfl
  | none =>
      have absent : known = none := by
        cases known with
        | none => rfl
        | some known =>
            obtain ⟨idx, found, -⟩ := keeps.matched
            simp [slot] at found
      cases unused : view.free with
      | nil => simp [absent, unused] at place
      | cons idx free => rfl

end Keeps

end CodexNos.Kv
