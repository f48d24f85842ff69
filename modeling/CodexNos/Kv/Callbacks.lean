import CodexNos.Kv.Refinement
import CodexNos.Lib.Transition

/-!
# Callbacks that call the table

`nos_kv_put` copies the addresses of the subscriptions of its entry, releases the lock and then calls
one subscriber after the other.  A subscriber may call the table again: it may put, and so start
another loop inside the first, and it may subscribe, unsubscribe and delete.  Unsubscribing and
deleting free subscriptions whose addresses a put has still in its copy.

One thread calls here.  A subscription gets a number when it is allocated, so that a later one at the
same address is another one.
-/

namespace CodexNos.Kv

open Lib Lib.Transition

variable {K : Type*}

/-- An allocated subscription (`nos_kv_sub_t`). -/
structure SubNode where
  /-- Its number. -/
  id : Nat
  /-- Callback address and argument. -/
  sub : Sub
  deriving DecidableEq, Repr

/-- A `nos_kv_put` in its notification loop. -/
structure PutFrame (K : Type*) where
  /-- The updated entry. -/
  idx : Nat
  /-- `key`. -/
  key : K
  /-- `val`. -/
  val : Option (List UInt8)
  /-- `val_len`. -/
  valLen : Nat
  /-- The rest of `subs`. -/
  rest : List SubNode
  /-- A subscriber has been called and has not returned. -/
  calling : Bool

/-- A table and the puts in their notification loops. -/
structure Notifying (K : Type*) where
  /-- The table. -/
  table : Table K
  /-- `sub_list` of the entries. -/
  subList : Nat → List SubNode
  /-- Number of subscriptions allocated so far. -/
  allocated : Nat
  /-- The puts, the innermost first. -/
  frames : List (PutFrame K)
  /-- Calls of subscribers so far, the latest first. -/
  called : List (Notification K)

/-- A step of the thread. -/
inductive CallbackOp (K : Type*)
  /-- A call of the table, by a callback if a put is in progress. -/
  | call (op : KvOp K)
  /-- The innermost put calls its next subscriber. -/
  | notify
  /-- The subscriber returns. -/
  | returned
  /-- The innermost put has called all its subscribers and returns. -/
  | finish

/-- The call only reads. -/
def KvOp.Reads : KvOp K → Prop
  | .get _ _ | .getPtr _ | .releasePtr _ => True
  | _ => False

namespace Notifying

/-- No put is in progress, or a subscriber runs. -/
def mayCall (state : Notifying K) : Bool :=
  match state.frames with
  | [] => true
  | frame :: _ => frame.calling

/-- Write the subscriptions of an entry. -/
def setSubs (state : Notifying K) (idx : Nat) (subs : List SubNode) : Notifying K :=
  { state with
    table := state.table.setEntry idx
      { state.table.pool idx with subList := subs.map SubNode.sub }
    subList := Function.update state.subList idx subs }

/-- The innermost put calls its next subscriber, if its memory has not been freed. -/
def notify (state : Notifying K) : Option (Notifying K) :=
  match state.frames with
  | [] => none
  | frame :: outer =>
      match frame.calling, frame.rest with
      | false, node :: rest =>
          if node ∈ state.subList frame.idx then
            some
              { state with
                frames := { frame with rest := rest, calling := true } :: outer
                called := ⟨node.sub, frame.key, frame.val, frame.valLen⟩ :: state.called }
          else none
      | _, _ => none

/-- The subscriber returns. -/
def returned (state : Notifying K) : Option (Notifying K) :=
  match state.frames with
  | [] => none
  | frame :: outer =>
      if frame.calling then some { state with frames := { frame with calling := false } :: outer }
      else none

/-- The innermost put has called all its subscribers and returns. -/
def finish (state : Notifying K) : Option (Notifying K) :=
  match state.frames with
  | [] => none
  | frame :: outer =>
      if !frame.calling && frame.rest.isEmpty then some { state with frames := outer } else none

variable [DecidableEq K]

/-- `nos_kv_put` up to its notification loop. -/
def put (schema : Schema K) (state : Notifying K) (key : K) (val : Option (List UInt8))
    (valLen : Nat) : Option (Notifying K) :=
  if schema.maxValSize < valLen then some state
  else if (state.table.buckets (schema.bucketOf key)).readers ≠ 0 then none
  else
    match state.table.findSlot schema key with
    | none => none
    | some (some idx) =>
        let updated := { state with table := (state.table.updateSlot idx key val valLen).1 }
        if (state.subList idx).isEmpty then some updated
        else
          some
            { updated with
              frames := ⟨idx, key, val, valLen, state.subList idx, false⟩ :: state.frames }
    | some none =>
        if state.table.freeTop < 0 then some state
        else
          let newIdx := state.table.freeStack state.table.freeTop.toNat
          some
            { state with
              table := state.table.insertSlot (schema.bucketOf key) key val valLen
              subList := Function.update state.subList newIdx [] }

/-- `nos_kv_subscribe`. -/
def subscribe (schema : Schema K) (state : Notifying K) (key : K) (sub : Sub) :
    Option (Notifying K) :=
  if (state.table.buckets (schema.bucketOf key)).readers ≠ 0 then none
  else
    match state.table.findSlot schema key with
    | none => none
    | some none => some state
    | some (some idx) =>
        if (state.subList idx).any fun node => node.sub = sub then some state
        else
          some
            { state.setSubs idx (⟨state.allocated, sub⟩ :: state.subList idx) with
              allocated := state.allocated + 1 }

/-- `nos_kv_unsubscribe`. -/
def unsubscribe (schema : Schema K) (state : Notifying K) (key : K) (sub : Sub) :
    Option (Notifying K) :=
  if (state.table.buckets (schema.bucketOf key)).readers ≠ 0 then none
  else
    match state.table.findSlot schema key with
    | none => none
    | some none => some state
    | some (some idx) =>
        if (state.subList idx).any fun node => node.sub = sub then
          some (state.setSubs idx ((state.subList idx).eraseP fun node => node.sub = sub))
        else some state

/-- `nos_kv_del`. -/
def del (schema : Schema K) (state : Notifying K) (key : K) : Option (Notifying K) :=
  let bucket := schema.bucketOf key
  if (state.table.buckets bucket).readers ≠ 0 then none
  else
    match Chain.searchPrev state.table.nextIdx (state.table.hasKey key) schema.capacity none
      (state.table.buckets bucket).firstIdx with
    | none => none
    | some none => some state
    | some (some (prev, idx)) =>
        some
          { state with
            table := state.table.unlinkSlot bucket prev idx
            subList := Function.update state.subList idx [] }

/-- A call of the table. -/
def call (schema : Schema K) (state : Notifying K) : KvOp K → Option (Notifying K)
  | .put key val valLen => state.put schema key val valLen
  | .subscribe key sub => state.subscribe schema key sub
  | .unsubscribe key sub => state.unsubscribe schema key sub
  | .del key => state.del schema key
  | op =>
      match Kv.step schema state.table op with
      | .ok (table, _) => some { state with table := table }
      | .error _ => none

/-- One step. -/
def step (schema : Schema K) (state : Notifying K) : CallbackOp K → Option (Notifying K)
  | .call op => if state.mayCall then state.call schema op else none
  | .notify => state.notify
  | .returned => state.returned
  | .finish => state.finish

/-- A new table. -/
def Initial (schema : Schema K) (state : Notifying K) : Prop :=
  state = ⟨nosKvTableCreate schema, fun _ => [], 0, [], []⟩

omit [DecidableEq K] in
/-- A put that is about to call a subscriber finds it in the list of its entry. -/
def NotifiesLinked (state : Notifying K) : Prop :=
  ∀ frame outer node rest, state.frames = frame :: outer → frame.calling = false →
    frame.rest = node :: rest → node ∈ state.subList frame.idx

/-- The subscriptions that a call frees. -/
def freed (schema : Schema K) (state : Notifying K) : CallbackOp K → List SubNode
  | .call (.unsubscribe key sub) =>
      match state.table.findSlot schema key with
      | some (some idx) => ((state.subList idx).find? fun node => node.sub = sub).toList
      | _ => []
  | .call (.del key) =>
      match state.table.findSlot schema key with
      | some (some idx) => state.subList idx
      | _ => []
  | _ => []

/-- The call frees no subscription that a put has still to call. -/
def SparesPending (schema : Schema K) (state : Notifying K) (op : CallbackOp K) : Prop :=
  ∀ frame ∈ state.frames, ∀ node ∈ frame.rest, node ∉ state.freed schema op

instance (schema : Schema K) (state : Notifying K) (op : CallbackOp K) :
    Decidable (state.SparesPending schema op) := by
  unfold SparesPending
  infer_instance

/-! ## The table below -/

/-- The list of an entry is the one in the table. -/
def Parallel (state : Notifying K) : Prop :=
  ∀ idx, (state.table.pool idx).subList = (state.subList idx).map SubNode.sub

section Calls

variable {schema : Schema K} {state state' : Notifying K}

omit [DecidableEq K] in
theorem Parallel.setSubs (parallel : state.Parallel) (idx : Nat) (subs : List SubNode) :
    (state.setSubs idx subs).Parallel := by
  intro other
  by_cases same : other = idx
  · subst same
    simp [Notifying.setSubs, Table.setEntry]
  · simpa [Notifying.setSubs, Table.setEntry, same] using parallel other

omit [DecidableEq K] in
/-- An entry has a subscription in the table if it has a node for it. -/
theorem Parallel.mem_iff (parallel : state.Parallel) (idx : Nat) (sub : Sub) :
    sub ∈ (state.table.pool idx).subList ↔
      ((state.subList idx).any fun node => node.sub = sub) = true := by
  rw [parallel idx]
  simp

theorem Parallel.put (parallel : state.Parallel) {key : K} {val : Option (List UInt8)}
    {valLen : Nat} (called : state.put schema key val valLen = some state') :
    state'.Parallel ∧
      ∃ reply, nosKvPut schema state.table key val valLen = .ok (state'.table, reply) := by
  have updated (idx other : Nat) :
      ((state.table.updateSlot idx key val valLen).1.pool other).subList =
        (state.table.pool other).subList := by
    by_cases same : other = idx
    · subst same
      simp [Table.updateSlot, Table.setEntry]
    · simp [Table.updateSlot, Table.setEntry, same]
  unfold Notifying.put at called
  unfold nosKvPut
  split at called
  · obtain rfl := Option.some.inj called
    rw [if_pos ‹_›]
    exact ⟨parallel, _, rfl⟩
  rw [if_neg ‹_›]
  split at called
  · cases called
  rw [if_neg ‹_›]
  obtain ⟨place, found⟩ : ∃ place, state.table.findSlot schema key = place := ⟨_, rfl⟩
  rw [found] at called ⊢
  rcases place with - | - | idx
  · cases called
  · dsimp only at called ⊢
    split at called
    · obtain rfl := Option.some.inj called
      rw [if_pos ‹_›]
      exact ⟨parallel, _, rfl⟩
    · obtain rfl := Option.some.inj called
      rw [if_neg ‹_›]
      refine ⟨?_, _, rfl⟩
      intro other
      by_cases same : other = state.table.freeStack state.table.freeTop.toNat
      · subst same
        simp [Table.insertSlot, Table.setFirst, Table.setEntry]
      · simpa [Table.insertSlot, Table.setFirst, Table.setEntry, same] using parallel other
  · dsimp only at called ⊢
    split at called <;>
      · obtain rfl := Option.some.inj called
        exact ⟨fun other => (updated idx other).trans (parallel other), _, rfl⟩

theorem Parallel.subscribe (parallel : state.Parallel) {key : K} {sub : Sub}
    (called : state.subscribe schema key sub = some state') :
    state'.Parallel ∧
      ∃ reply, nosKvSubscribe schema state.table key sub = .ok (state'.table, reply) := by
  unfold Notifying.subscribe at called
  unfold nosKvSubscribe
  split at called
  · cases called
  rw [if_neg ‹_›]
  obtain ⟨place, found⟩ : ∃ place, state.table.findSlot schema key = place := ⟨_, rfl⟩
  rw [found] at called ⊢
  rcases place with - | - | idx
  · cases called
  · obtain rfl := Option.some.inj called
    exact ⟨parallel, _, rfl⟩
  · dsimp only at called ⊢
    split at called
    · rename_i subscribed
      rw [if_pos ((parallel.mem_iff idx sub).mpr subscribed)]
      obtain rfl := Option.some.inj called
      exact ⟨parallel, _, rfl⟩
    · rename_i new
      rw [if_neg fun old => new ((parallel.mem_iff idx sub).mp old), parallel idx]
      obtain rfl := Option.some.inj called
      exact ⟨parallel.setSubs idx _, _, rfl⟩

theorem Parallel.unsubscribe (parallel : state.Parallel) {key : K} {sub : Sub}
    (called : state.unsubscribe schema key sub = some state') :
    state'.Parallel ∧
      ∃ reply, nosKvUnsubscribe schema state.table key sub = .ok (state'.table, reply) := by
  unfold Notifying.unsubscribe at called
  unfold nosKvUnsubscribe
  split at called
  · cases called
  rw [if_neg ‹_›]
  obtain ⟨place, found⟩ : ∃ place, state.table.findSlot schema key = place := ⟨_, rfl⟩
  rw [found] at called ⊢
  rcases place with - | - | idx
  · cases called
  · obtain rfl := Option.some.inj called
    exact ⟨parallel, _, rfl⟩
  · dsimp only at called ⊢
    split at called
    · rename_i subscribed
      have erased : ((state.subList idx).map SubNode.sub).erase sub =
          ((state.subList idx).eraseP fun node => node.sub = sub).map SubNode.sub := by
        rw [List.erase_eq_eraseP', List.eraseP_map]
        congr 2
      rw [if_pos ((parallel.mem_iff idx sub).mpr subscribed), parallel idx, erased]
      obtain rfl := Option.some.inj called
      exact ⟨parallel.setSubs idx _, _, rfl⟩
    · rename_i missing
      rw [if_neg fun old => missing ((parallel.mem_iff idx sub).mp old)]
      obtain rfl := Option.some.inj called
      exact ⟨parallel, _, rfl⟩

theorem Parallel.del (parallel : state.Parallel) {key : K}
    (called : state.del schema key = some state') :
    state'.Parallel ∧ ∃ reply, nosKvDel schema state.table key = .ok (state'.table, reply) := by
  unfold Notifying.del at called
  unfold nosKvDel
  dsimp only at called ⊢
  split at called
  · cases called
  rw [if_neg ‹_›]
  obtain ⟨place, found⟩ : ∃ place, Chain.searchPrev state.table.nextIdx (state.table.hasKey key)
      schema.capacity none (state.table.buckets (schema.bucketOf key)).firstIdx = place := ⟨_, rfl⟩
  rw [found] at called ⊢
  rcases place with - | - | ⟨prev, idx⟩
  · cases called
  · obtain rfl := Option.some.inj called
    exact ⟨parallel, _, rfl⟩
  · obtain rfl := Option.some.inj called
    refine ⟨?_, _, rfl⟩
    intro other
    obtain ⟨link, relinked⟩ :=
      state.table.pool_relink (schema.bucketOf key) prev (state.table.nextIdx idx) other
    by_cases same : other = idx
    · subst same
      simp [Table.unlinkSlot, Table.setEntry]
    · simpa [Table.unlinkSlot, Table.setEntry, same, relinked] using parallel other

/-- A call that only reads touches no more than the lock of a bucket. -/
theorem relock_of_read {op : KvOp K} (reads : op.Reads)
    (called : state.call schema op = some state') :
    ∃ table reply, Kv.step schema state.table op = .ok (table, reply) ∧
      state' = { state with table := table } ∧
      (table = state.table ∨ ∃ bucket readers, table = state.table.setReaders bucket readers) := by
  obtain ⟨table, reply, stepped, state_eq⟩ : ∃ table reply,
      Kv.step schema state.table op = .ok (table, reply) ∧
        state' = { state with table := table } := by
    have call_eq : state.call schema op =
        match Kv.step schema state.table op with
        | .ok (table, _) => some { state with table := table }
        | .error _ => none := by
      cases op <;> first | rfl | exact False.elim reads
    rw [call_eq] at called
    split at called
    · rename_i table reply stepped
      exact ⟨table, reply, stepped, (Option.some.inj called).symm⟩
    · cases called
  refine ⟨table, reply, stepped, state_eq, ?_⟩
  cases op with
  | get key bufLen =>
      simp only [Kv.step, nosKvGet] at stepped
      split at stepped
      · cases stepped
      · cases stepped
        exact .inl rfl
      · cases stepped
        exact .inl rfl
  | getPtr key =>
      simp only [Kv.step, nosKvGetPtr] at stepped
      split at stepped
      · cases stepped
      · cases stepped
        exact .inl rfl
      · cases stepped
        exact .inr ⟨_, _, rfl⟩
  | releasePtr handle =>
      simp only [Kv.step, nosKvReleasePtr] at stepped
      split at stepped
      · cases stepped
        exact .inl rfl
      · split at stepped
        · cases stepped
        · cases stepped
          exact .inr ⟨_, _, rfl⟩
  | put key val valLen => cases reads
  | subscribe key sub => cases reads
  | unsubscribe key sub => cases reads
  | del key => cases reads

theorem Parallel.call (parallel : state.Parallel) {op : KvOp K}
    (called : state.call schema op = some state') :
    state'.Parallel ∧ ∃ reply, Kv.step schema state.table op = .ok (state'.table, reply) := by
  have relocked (reads : op.Reads) :
      state'.Parallel ∧ ∃ reply, Kv.step schema state.table op = .ok (state'.table, reply) := by
    obtain ⟨table, reply, stepped, rfl, rfl | ⟨bucket, readers, rfl⟩⟩ :=
      relock_of_read reads called
    · exact ⟨parallel, reply, stepped⟩
    · exact ⟨parallel, reply, stepped⟩
  cases op with
  | put key val valLen => exact parallel.put called
  | subscribe key sub => exact parallel.subscribe called
  | unsubscribe key sub => exact parallel.unsubscribe called
  | del key => exact parallel.del called
  | get key bufLen => exact relocked trivial
  | getPtr key => exact relocked trivial
  | releasePtr handle => exact relocked trivial

end Calls

/-! ## Pending subscriptions -/

/-- What makes the notification loops safe. -/
structure Sound (schema : Schema K) (state : Notifying K) : Prop where
  /-- The table is well formed. -/
  wf : ∃ chains, Wf schema state.table chains
  /-- An unused entry has no subscriptions. -/
  unused : ∀ idx ∈ state.table.free, state.subList idx = []
  /-- A subscription that a put has still to call is in the list of its entry. -/
  pending : ∀ frame ∈ state.frames, ∀ node ∈ frame.rest, node ∈ state.subList frame.idx

section Sound

variable {schema : Schema K} {state state' : Notifying K}

theorem sound_of_initial (initial : Initial schema state) : state.Sound schema := by
  subst initial
  exact ⟨⟨_, (Represents.create schema).wf⟩, fun _ _ => rfl, by simp⟩

theorem Sound.not_free (sound : state.Sound schema) {key : K} {idx : Nat}
    (found : state.table.findSlot schema key = some (some idx)) : idx ∉ state.table.free := by
  obtain ⟨chains, wf⟩ := sound.wf
  rw [wf.findSlot_eq] at found
  obtain ⟨⟨bucket, member⟩, -⟩ := wf.slotOf_eq_some_iff.mp (Option.some.inj found)
  exact wf.not_free member

omit [DecidableEq K] in
/-- New subscriptions of a used entry that keep those that are pending. -/
theorem Sound.setSubs (sound : state.Sound schema) {idx : Nat} (used : idx ∉ state.table.free)
    {subs : List SubNode}
    (kept : ∀ frame ∈ state.frames, frame.idx = idx → ∀ node ∈ frame.rest, node ∈ subs) :
    (state.setSubs idx subs).Sound schema := by
  obtain ⟨chains, wf⟩ := sound.wf
  refine ⟨⟨chains, wf.setEntry rfl rfl⟩, ?_, ?_⟩
  · intro other free
    have different : other ≠ idx := by
      rintro rfl
      exact used free
    exact (Function.update_of_ne different _ _).trans (sound.unused other free)
  · intro frame member node pending
    by_cases same : frame.idx = idx
    · simpa [Notifying.setSubs, same] using kept frame member same node pending
    · simpa [Notifying.setSubs, same] using sound.pending frame member node pending

/-- A put starts a loop over the subscriptions of its entry or fills an entry without any. -/
theorem Sound.put (sound : state.Sound schema) {key : K} {val : Option (List UInt8)} {valLen : Nat}
    (called : state.put schema key val valLen = some state') : state'.Sound schema := by
  obtain ⟨chains, wf⟩ := sound.wf
  unfold Notifying.put at called
  split at called
  · obtain rfl := Option.some.inj called
    exact sound
  split at called
  · cases called
  split at called
  · cases called
  · rename_i idx found
    have updated : Wf schema (state.table.updateSlot idx key val valLen).1 chains :=
      wf.setEntry rfl rfl
    dsimp only at called
    split at called
    · obtain rfl := Option.some.inj called
      exact ⟨⟨chains, updated⟩, sound.unused, sound.pending⟩
    · obtain rfl := Option.some.inj called
      refine ⟨⟨chains, updated⟩, sound.unused, ?_⟩
      intro frame member node pending
      rcases List.mem_cons.mp member with rfl | outer
      · exact pending
      · exact sound.pending frame outer node pending
  · rename_i found
    split at called
    · obtain rfl := Option.some.inj called
      exact sound
    · rename_i room
      obtain rfl := Option.some.inj called
      have room : 0 ≤ state.table.freeTop := by omega
      rw [wf.findSlot_eq, Option.some.injEq] at found
      have absent : ∀ idx ∈ chains (schema.bucketOf key), state.table.key idx ≠ key := by
        simpa [slotOf, Table.hasKey] using found
      have free_eq := Table.free_insertSlot room (schema.bucketOf key) key val valLen
      have unchanged :
          Function.update state.subList (state.table.freeStack state.table.freeTop.toNat) [] =
            state.subList := by
        rw [Function.update_eq_self_iff]
        refine (sound.unused _ ?_).symm
        rw [free_eq]
        exact List.mem_append_right _ (List.mem_singleton_self _)
      refine ⟨⟨_, wf.insertSlot room absent val valLen⟩, ?_, ?_⟩
      · dsimp only
        rw [unchanged]
        intro idx free
        refine sound.unused idx ?_
        rw [free_eq]
        exact List.mem_append_left _ free
      · dsimp only
        rw [unchanged]
        exact sound.pending

theorem Sound.subscribe (sound : state.Sound schema) {key : K} {sub : Sub}
    (called : state.subscribe schema key sub = some state') : state'.Sound schema := by
  unfold Notifying.subscribe at called
  split at called
  · cases called
  split at called
  · cases called
  · obtain rfl := Option.some.inj called
    exact sound
  · rename_i idx found
    split at called
    · obtain rfl := Option.some.inj called
      exact sound
    · obtain rfl := Option.some.inj called
      have written : (state.setSubs idx (⟨state.allocated, sub⟩ :: state.subList idx)).Sound schema :=
        sound.setSubs (sound.not_free found) fun frame member same node pending =>
          List.mem_cons_of_mem _ (same ▸ sound.pending frame member node pending)
      exact ⟨written.wf, written.unused, written.pending⟩

omit [DecidableEq K] in
theorem mem_eraseP_or_find? {α : Type*} {test : α → Bool} {items : List α} {item : α}
    (member : item ∈ items) : item ∈ items.eraseP test ∨ items.find? test = some item := by
  induction items with
  | nil => cases member
  | cons first items ih =>
      cases passes : test first with
      | true =>
          rw [List.eraseP_cons_of_pos passes, List.find?_cons_of_pos passes]
          exact (List.mem_cons.mp member).symm.imp_right fun same : item = first =>
            congrArg some same.symm
      | false =>
          have fails : ¬ test first = true := by simp [passes]
          rw [List.eraseP_cons_of_neg fails, List.find?_cons_of_neg fails]
          rcases List.mem_cons.mp member with rfl | later
          · exact .inl List.mem_cons_self
          · exact (ih later).imp_left (List.mem_cons_of_mem _)

theorem Sound.unsubscribe (sound : state.Sound schema) {key : K} {sub : Sub}
    (spares : state.SparesPending schema (.call (.unsubscribe key sub)))
    (called : state.unsubscribe schema key sub = some state') : state'.Sound schema := by
  unfold Notifying.unsubscribe at called
  split at called
  · cases called
  split at called
  · cases called
  · obtain rfl := Option.some.inj called
    exact sound
  · rename_i idx found
    split at called
    · obtain rfl := Option.some.inj called
      refine sound.setSubs (sound.not_free found) ?_
      intro frame member same node pending
      have linked := sound.pending frame member node pending
      rw [same] at linked
      refine (mem_eraseP_or_find? linked).resolve_right fun first => ?_
      refine spares frame member node pending ?_
      simp [freed, found, first]
    · obtain rfl := Option.some.inj called
      exact sound

theorem Sound.del (sound : state.Sound schema) {key : K}
    (spares : state.SparesPending schema (.call (.del key)))
    (called : state.del schema key = some state') : state'.Sound schema := by
  obtain ⟨chains, wf⟩ := sound.wf
  have linked := wf.linked (schema.bucketOf key)
  have enough := wf.length_le (schema.bucketOf key)
  have walked := wf.findSlot_eq key
  unfold Notifying.del at called
  dsimp only at called
  split at called
  · cases called
  cases slot : slotOf schema state.table chains key with
  | none =>
      rw [linked.searchPrev_eq_none slot enough none] at called
      obtain rfl := Option.some.inj called
      exact sound
  | some idx =>
      rw [slot] at walked
      obtain ⟨passes, front, back, split, fails⟩ := List.find?_eq_some_iff_append.mp slot
      rw [split] at linked enough
      have short : front.length < schema.capacity := by
        rw [List.length_append, List.length_cons] at enough
        omega
      rw [linked.searchPrev_eq_some passes (by simpa using fails) short none,
        Option.or_none] at called
      obtain rfl := Option.some.inj called
      refine ⟨⟨_, wf.unlinkSlot split⟩, ?_, ?_⟩
      · intro other free
        have free_eq := Table.free_unlinkSlot wf.top (schema.bucketOf key) front.getLast? idx
        by_cases same : other = idx
        · simp [same]
        · rw [free_eq, List.mem_append, List.mem_singleton] at free
          simpa [same] using sound.unused other (free.resolve_right same)
      · intro frame member node pending
        have linked := sound.pending frame member node pending
        have different : frame.idx ≠ idx := by
          intro same
          refine spares frame member node pending ?_
          simpa [freed, walked, ← same] using linked
        simpa [different] using linked

/-- A call that spares what is pending keeps the loops safe. -/
theorem Sound.call (sound : state.Sound schema) {op : KvOp K}
    (spares : state.SparesPending schema (.call op))
    (called : state.call schema op = some state') : state'.Sound schema := by
  have relocked (reads : op.Reads) : state'.Sound schema := by
    obtain ⟨chains, wf⟩ := sound.wf
    obtain ⟨table, reply, -, rfl, rfl | ⟨bucket, readers, rfl⟩⟩ := relock_of_read reads called
    · exact sound
    · exact ⟨⟨chains, wf.setReaders bucket readers⟩, sound.unused, sound.pending⟩
  cases op with
  | put key val valLen => exact sound.put called
  | subscribe key sub => exact sound.subscribe called
  | unsubscribe key sub => exact sound.unsubscribe spares called
  | del key => exact sound.del spares called
  | get key bufLen => exact relocked trivial
  | getPtr key => exact relocked trivial
  | releasePtr handle => exact relocked trivial

omit [DecidableEq K] in
theorem Sound.setFrames (sound : state.Sound schema) {frames : List (PutFrame K)}
    {called : List (Notification K)}
    (fewer : ∀ frame ∈ frames, ∃ old ∈ state.frames, frame.idx = old.idx ∧ frame.rest ⊆ old.rest) :
    ({ state with frames := frames, called := called } : Notifying K).Sound schema := by
  refine ⟨sound.wf, sound.unused, ?_⟩
  intro frame member node pending
  obtain ⟨old, was, idx_eq, rest_sub⟩ := fewer frame member
  rw [idx_eq]
  exact sound.pending old was node (rest_sub pending)

/-- A step that spares what is pending keeps the loops safe. -/
theorem Sound.step (sound : state.Sound schema) {op : CallbackOp K}
    (spares : state.SparesPending schema op) (stepped : state.step schema op = some state') :
    state'.Sound schema := by
  cases op with
  | call op =>
      obtain ⟨-, called⟩ := Option.ite_none_right_eq_some.mp stepped
      exact sound.call spares called
  | notify =>
      simp only [Notifying.step, Notifying.notify] at stepped
      split at stepped
      · cases stepped
      · rename_i frame outer frames
        split at stepped
        · rename_i node rest _ pending
          obtain ⟨-, moved⟩ := Option.ite_none_right_eq_some.mp stepped
          obtain rfl := Option.some.inj moved
          refine sound.setFrames fun frame' member => ?_
          rcases List.mem_cons.mp member with rfl | later
          · exact ⟨frame, by simp [frames], rfl, by simp [pending]⟩
          · exact ⟨frame', by simp [frames, later], rfl, fun _ => id⟩
        · cases stepped
  | returned =>
      simp only [Notifying.step, Notifying.returned] at stepped
      split at stepped
      · cases stepped
      · rename_i frame outer frames
        obtain ⟨-, moved⟩ := Option.ite_none_right_eq_some.mp stepped
        obtain rfl := Option.some.inj moved
        refine sound.setFrames fun frame' member => ?_
        rcases List.mem_cons.mp member with rfl | later
        · exact ⟨frame, by simp [frames], rfl, fun _ => id⟩
        · exact ⟨frame', by simp [frames, later], rfl, fun _ => id⟩
  | finish =>
      simp only [Notifying.step, Notifying.finish] at stepped
      split at stepped
      · cases stepped
      · rename_i frame outer frames
        obtain ⟨-, moved⟩ := Option.ite_none_right_eq_some.mp stepped
        obtain rfl := Option.some.inj moved
        exact sound.setFrames fun frame' later =>
          ⟨frame', by simp [frames, later], rfl, fun _ => id⟩

/-- In a run in which no call frees a subscription that a put has still to call, every put that is
about to call a subscriber finds it in the list of its entry. -/
theorem notifiesLinked_of_reach
    (reach : Reach (Notifying.step schema) (SparesPending schema) (Initial schema) state) :
    state.NotifiesLinked := by
  have sound : state.Sound schema :=
    Reach.invariant (Sound schema) (fun _ initial => sound_of_initial initial)
      (fun _ _ _ sound spares stepped => sound.step spares stepped) reach
  intro frame outer node rest frames _ pending
  exact sound.pending frame (by simp [frames]) node (by simp [pending])

end Sound

/-! ## Two subscribers -/

/-- A table for two keys, all in one bucket. -/
def smallSchema : Schema Nat where
  hash _ := 0
  zeroKey := 0
  maxValSize := 1
  capacity := 2
  bucketCount := 1
  capacity_lt := two_lt_limit

/-- A new table of it. -/
def newTable : Notifying Nat := ⟨nosKvTableCreate smallSchema, fun _ => [], 0, [], []⟩

/-- A key gets two subscribers and a value, and the first subscriber runs. -/
def firstCalled : List (CallbackOp Nat) :=
  [.call (.put 5 (some [1]) 1), .call (.subscribe 5 ⟨10, 0⟩), .call (.subscribe 5 ⟨20, 0⟩),
    .call (.put 5 (some [2]) 1), .notify]

/-- It unsubscribes itself, puts the key and deletes another one; then the put goes on. -/
theorem linked_after_own_unsubscribe :
    ∃ state : Notifying Nat, state.frames.map PutFrame.rest = [[⟨0, ⟨10, 0⟩⟩]] ∧
      state.NotifiesLinked := by
  have execution :
      (runGuarded (Notifying.step smallSchema) (SparesPending smallSchema) newTable
          (firstCalled ++ [.call (.unsubscribe 5 ⟨20, 0⟩), .call (.put 5 none 0), .notify,
            .call (.del 6), .returned, .finish, .returned])).map
        (fun state => state.frames.map PutFrame.rest) = some [[⟨0, ⟨10, 0⟩⟩]] := by
    decide +kernel
  obtain ⟨state, ran, view⟩ := Option.map_eq_some_iff.mp execution
  exact ⟨state, view, notifiesLinked_of_reach (reach_of_runGuarded (.start rfl) ran)⟩

/-- It unsubscribes the other subscriber, which the put then takes from its copy. -/
theorem freed_subscriber_called :
    ∃ state : Notifying Nat,
      Reachable (Notifying.step smallSchema) (Initial smallSchema) state ∧
        ¬ state.NotifiesLinked := by
  have execution :
      (run (Notifying.step smallSchema) newTable
          (firstCalled ++ [.call (.unsubscribe 5 ⟨10, 0⟩), .returned])).map
        (fun state => (state.frames.map fun frame => (frame.rest, frame.calling,
          state.subList frame.idx))) =
      some [([⟨0, ⟨10, 0⟩⟩], false, [⟨1, ⟨20, 0⟩⟩])] := by
    decide +kernel
  obtain ⟨state, ran, view⟩ := Option.map_eq_some_iff.mp execution
  refine ⟨state, reachable_of_run (.start rfl) ran, ?_⟩
  intro linked
  obtain ⟨frame, frames, calls⟩ := List.map_eq_singleton_iff.mp view
  obtain ⟨pending, waiting, subs⟩ : frame.rest = [⟨0, ⟨10, 0⟩⟩] ∧ frame.calling = false ∧
      state.subList frame.idx = [⟨1, ⟨20, 0⟩⟩] := by
    simpa using calls
  have member := linked frame [] ⟨0, ⟨10, 0⟩⟩ [] frames waiting pending
  simp [subs] at member

end Notifying

end CodexNos.Kv
