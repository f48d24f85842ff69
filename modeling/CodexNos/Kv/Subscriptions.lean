import CodexNos.Kv.SlotView

/-!
# The subscribers of a key

A key has a set of subscribers from its creation to its removal.  The subscribers are in the slot of
the key, and a slot goes from key to key; a new key starts without subscribers.
-/

namespace CodexNos.Kv

open Lib

variable {K : Type*}

/-! ## Subscriber lists of slots -/

namespace Table

theorem subList_setEntry (table : Table K) (idx : Nat) (entry : Entry K) (other : Nat) :
    ((table.setEntry idx entry).pool other).subList =
      if other = idx then entry.subList else (table.pool other).subList := by
  split
  · rename_i same
    simp [setEntry, same]
  · rename_i different
    simp [setEntry, different]

theorem subList_updateSlot (table : Table K) (idx : Nat) (key : K) (val : Option (List UInt8))
    (valLen other : Nat) :
    ((table.updateSlot idx key val valLen).1.pool other).subList = (table.pool other).subList := by
  rw [updateSlot, subList_setEntry]
  split
  · rename_i same
    rw [same]
  · rfl

/-- A slot that is given to a key loses its subscribers. -/
theorem subList_insertSlot (table : Table K) (bucket : Nat) (key : K) (val : Option (List UInt8))
    (valLen other : Nat) :
    ((table.insertSlot bucket key val valLen).pool other).subList =
      if other = table.freeStack table.freeTop.toNat then [] else (table.pool other).subList :=
  subList_setEntry table _ _ other

/-- A slot that is taken from a key loses its subscribers. -/
theorem subList_unlinkSlot (table : Table K) (bucket : Nat) (prev : Option Nat) (idx other : Nat) :
    ((table.unlinkSlot bucket prev idx).pool other).subList =
      if other = idx then [] else (table.pool other).subList := by
  obtain ⟨link, changed⟩ := table.pool_relink bucket prev (table.nextIdx idx) other
  refine (subList_setEntry (table.relink bucket prev (table.nextIdx idx)) idx _ other).trans ?_
  rw [changed]

end Table

/-! ## The set of subscribers -/

/-- The calls that concern subscribers. -/
inductive SubOp (K : Type*)
  /-- `nos_kv_put`. -/
  | put (key : K) (val : Option (List UInt8)) (valLen : Nat)
  /-- `nos_kv_del`. -/
  | del (key : K)
  /-- `nos_kv_subscribe`. -/
  | subscribe (key : K) (sub : Sub)
  /-- `nos_kv_unsubscribe`. -/
  | unsubscribe (key : K) (sub : Sub)
  deriving DecidableEq, Repr

/-- The call on the table. -/
def SubOp.call : SubOp K → KvOp K
  | .put key val valLen => .put key val valLen
  | .del key => .del key
  | .subscribe key sub => .subscribe key sub
  | .unsubscribe key sub => .unsubscribe key sub

variable [DecidableEq K]

/-- The subscribers of a key after a call has returned with a status; an absent key has none. -/
def afterCall (key : K) (subs : Option (Finset Sub)) : SubOp K × Status → Option (Finset Sub)
  | (.put other _ _, .ok) => if other = key then some (subs.getD ∅) else subs
  | (.del other, .ok) => if other = key then none else subs
  | (.subscribe other sub, .ok) => if other = key then subs.map (insert sub) else subs
  | (.unsubscribe other sub, .ok) => if other = key then subs.map (·.erase sub) else subs
  | _ => subs

/-- The pairs that have been subscribed since a key was created and not been unsubscribed since. -/
def subscribed (history : List (SubOp K × Status)) (key : K) : Option (Finset Sub) :=
  history.foldl (afterCall key) none

/-- The subscriber list of a present key. -/
def Table.subscribers (schema : Schema K) (table : Table K) (key : K) : Option (List Sub) :=
  (table.findSlot schema key).join.map fun idx => (table.pool idx).subList

/-- What a call answers and whom it notifies, for the subscribers before it. -/
def Answers (schema : Schema K) (subs : K → Option (Finset Sub)) (reply : Reply K) :
    SubOp K → Prop
  | .put key val valLen =>
      if schema.maxValSize < valLen then reply.status = .err ∧ reply.notified = []
      else
        match subs key with
        | none => reply.notified = []
        | some present =>
            reply.status = .ok ∧
              (∀ sub, reply.notified.count ⟨sub, key, val, valLen⟩ =
                if sub ∈ present then 1 else 0) ∧
              ∀ call ∈ reply.notified, call = ⟨call.sub, key, val, valLen⟩
  | .del key => (reply.status = .ok ↔ (subs key).isSome = true) ∧ reply.notified = []
  | .subscribe key _ => (reply.status = .ok ↔ (subs key).isSome = true) ∧ reply.notified = []
  | .unsubscribe key sub =>
      (reply.status = .ok ↔ ∃ present, subs key = some present ∧ sub ∈ present) ∧
        reply.notified = []

/-! ## The invariant -/

variable {schema : Schema K} {table : Table K} {subs : K → Option (Finset Sub)}
  {chains : Nat → List Nat} {view : View K}

/-- The lists of the present keys have the subscribers, each once. -/
structure Tracks (schema : Schema K) (table : Table K) (chains : Nat → List Nat) (view : View K)
    (subs : K → Option (Finset Sub)) : Prop where
  shown : Shows schema table chains view
  distinct : ∀ idx, (table.pool idx).subList.Nodup
  subscribers : ∀ key,
    (view.slot key).map (fun idx => (table.pool idx).subList.toFinset) = subs key

namespace Shows

theorem subscribers_eq (shown : Shows schema table chains view) (key : K) :
    table.subscribers schema key = (view.slot key).map fun idx => (table.pool idx).subList := by
  rw [Table.subscribers, shown.findSlot, Option.join_some]

theorem slot_inj (shown : Shows schema table chains view) {key other : K} {idx : Nat}
    (found : view.slot key = some idx) (found' : view.slot other = some idx) : key = other := by
  rw [shown.slot] at found found'
  have left := (shown.wf.slotOf_eq_some_iff.mp found).2
  have right := (shown.wf.slotOf_eq_some_iff.mp found').2
  exact left.symm.trans right

theorem slot_not_free (shown : Shows schema table chains view) {key : K} {idx : Nat}
    (found : view.slot key = some idx) : idx ∉ table.free := by
  rw [shown.slot] at found
  obtain ⟨⟨bucket, member⟩, -⟩ := shown.wf.slotOf_eq_some_iff.mp found
  exact shown.wf.not_free member

theorem setSubs (shown : Shows schema table chains view) (idx : Nat) (list : List Sub) :
    Shows schema (table.setEntry idx { table.pool idx with subList := list }) chains view := by
  have key_eq : (table.setEntry idx { table.pool idx with subList := list }).key = table.key := by
    rw [Table.key_setEntry]
    exact Function.update_eq_self ..
  refine ⟨shown.wf.setEntry rfl rfl, shown.idle, fun key => ?_, fun other => ?_, fun other => ?_,
    shown.free⟩
  · rw [shown.slot]
    unfold slotOf Table.hasKey
    rw [key_eq]
  · rw [shown.value]
    by_cases same : other = idx
    · simp [Table.setEntry, same]
    · simp [Table.setEntry, same]
  · rw [shown.valLen]
    by_cases same : other = idx
    · simp [Table.setEntry, same]
    · simp [Table.setEntry, same]

end Shows

/-- A list without duplicates notifies each of its pairs once. -/
theorem count_notifications {list : List Sub} (distinct : list.Nodup) (sub : Sub) (key : K)
    (val : Option (List UInt8)) (valLen : Nat) :
    (list.map fun sub => (⟨sub, key, val, valLen⟩ : Notification K)).count
        ⟨sub, key, val, valLen⟩ = if sub ∈ list then 1 else 0 := by
  have injective : Function.Injective fun sub => (⟨sub, key, val, valLen⟩ : Notification K) :=
    fun _ _ equal => congrArg Notification.sub equal
  rw [List.count_map_of_injective list _ injective sub, distinct.count]

/-- One call: it returns, answers and notifies as it should, and the lists keep the subscribers. -/
def StepTracks (schema : Schema K) (table : Table K) (subs : K → Option (Finset Sub))
    (op : SubOp K) : Prop :=
  ∃ next reply chains view, step schema table op.call = .ok (next, reply) ∧
    Answers schema subs reply op ∧
    Tracks schema next chains view fun key => afterCall key (subs key) (op, reply.status)

namespace Tracks

theorem updateSlot (tracks : Tracks schema table chains view subs) {key : K} {idx : Nat}
    (found : view.slot key = some idx) (val : Option (List UInt8)) (valLen : Nat) :
    Tracks schema (table.updateSlot idx key val valLen).1 chains (view.write idx val valLen)
      fun other => afterCall other (subs other) (.put key val valLen, .ok) where
  shown := tracks.shown.updateSlot key idx val valLen
  distinct := by
    intro other
    rw [Table.subList_updateSlot]
    exact tracks.distinct other
  subscribers := by
    intro other
    have same := tracks.subscribers other
    simp only [Table.subList_updateSlot, View.write, afterCall]
    split
    · rename_i equal
      subst equal
      rw [found, Option.map_some] at same
      rw [← same, found]
      rfl
    · exact same

theorem insertSlot (tracks : Tracks schema table chains view subs) {key : K} {idx : Nat}
    {free : List Nat} (absent : view.slot key = none) (unused : view.free = idx :: free)
    (val : Option (List UInt8)) (valLen : Nat) :
    ∃ chains', Tracks schema (table.insertSlot (schema.bucketOf key) key val valLen) chains'
      ({ view with slot := Function.update view.slot key (some idx), free := free }.write
        idx val valLen)
      fun other => afterCall other (subs other) (.put key val valLen, .ok) := by
  obtain ⟨chains', shown⟩ := tracks.shown.insertSlot absent unused val valLen
  have room : 0 ≤ table.freeTop := by
    by_contra below
    simp [tracks.shown.free_eq_nil_iff.mpr (not_le.mp below)] at unused
  have stack := tracks.shown.free.symm.trans unused
  rw [Table.free_eq_append room, List.reverse_append, List.reverse_singleton] at stack
  have top : table.freeStack table.freeTop.toNat = idx := (List.cons.inj stack).1
  refine ⟨chains', shown, fun other => ?_, fun other => ?_⟩
  · rw [Table.subList_insertSlot]
    split
    · exact List.nodup_nil
    · exact tracks.distinct other
  · have same := tracks.subscribers other
    simp only [Table.subList_insertSlot, View.write, afterCall, top]
    rcases eq_or_ne key other with rfl | different
    · rw [absent, Option.map_none] at same
      simp [← same]
    · rw [Function.update_of_ne different.symm, if_neg different, ← same]
      cases found : view.slot other with
      | none => rfl
      | some idx' =>
          have old : idx' ≠ idx := by
            rintro rfl
            exact tracks.shown.slot_not_free found (by simp [Table.free_eq_append room, top])
          simp [old]

theorem unlinkSlot (tracks : Tracks schema table chains view subs) {key : K} {idx : Nat}
    {front back : List Nat} (found : view.slot key = some idx)
    (split : chains (schema.bucketOf key) = front ++ idx :: back) :
    Tracks schema (table.unlinkSlot (schema.bucketOf key) front.getLast? idx)
      (Function.update chains (schema.bucketOf key) (front ++ back))
      { view with slot := Function.update view.slot key none, free := idx :: view.free }
      fun other => afterCall other (subs other) (.del key, .ok) where
  shown := by
    refine tracks.shown.unlinkSlot split ?_
    rw [tracks.shown.slot] at found
    exact (tracks.shown.wf.slotOf_eq_some_iff.mp found).2
  distinct := by
    intro other
    rw [Table.subList_unlinkSlot]
    split
    · exact List.nodup_nil
    · exact tracks.distinct other
  subscribers := by
    intro other
    have same := tracks.subscribers other
    simp only [Table.subList_unlinkSlot, afterCall]
    rcases eq_or_ne key other with rfl | different
    · simp
    · rw [Function.update_of_ne different.symm, if_neg different, ← same]
      cases found' : view.slot other with
      | none => rfl
      | some idx' =>
          have other_slot : idx' ≠ idx := by
            rintro rfl
            exact different (tracks.shown.slot_inj found found')
          simp [other_slot]

theorem setSubs (tracks : Tracks schema table chains view subs) {key : K} {idx : Nat}
    (found : view.slot key = some idx) {list : List Sub} (distinct : list.Nodup) :
    Tracks schema (table.setEntry idx { table.pool idx with subList := list }) chains view
      fun other => if key = other then some list.toFinset else subs other where
  shown := tracks.shown.setSubs idx list
  distinct := by
    intro other
    rw [Table.subList_setEntry]
    split
    · exact distinct
    · exact tracks.distinct other
  subscribers := by
    intro other
    simp only [Table.subList_setEntry]
    rcases eq_or_ne key other with rfl | different
    · simp [found]
    · rw [if_neg different, ← tracks.subscribers other]
      cases found' : view.slot other with
      | none => rfl
      | some idx' =>
          have other_slot : idx' ≠ idx := by
            rintro rfl
            exact different (tracks.shown.slot_inj found found')
          simp [other_slot]

/-! ## The calls -/

theorem put (tracks : Tracks schema table chains view subs) (key : K) (val : Option (List UInt8))
    (valLen : Nat) : StepTracks schema table subs (.put key val valLen) := by
  have idle := tracks.shown.idle (schema.bucketOf key)
  have walked := tracks.shown.findSlot key
  have same := tracks.subscribers key
  unfold StepTracks
  simp only [step, SubOp.call, nosKvPut, Answers]
  split
  · exact ⟨table, _, chains, view, rfl, ⟨rfl, rfl⟩, tracks⟩
  · rw [if_neg (by simp [idle]), walked]
    cases slot : view.slot key with
    | some idx =>
        rw [slot, Option.map_some] at same
        refine ⟨_, _, _, _, rfl, ?_, tracks.updateSlot slot val valLen⟩
        rw [← same]
        refine ⟨rfl, fun sub => ?_, fun call called => ?_⟩
        · simp only [List.mem_toFinset]
          exact count_notifications (tracks.distinct idx) sub key val valLen
        · obtain ⟨sub, -, rfl⟩ := List.mem_map.mp called
          rfl
    | none =>
        rw [slot, Option.map_none] at same
        rw [← same]
        cases unused : view.free with
        | nil =>
            simp only [tracks.shown.free_eq_nil_iff.mp unused, if_true]
            exact ⟨table, _, chains, view, rfl, rfl, tracks⟩
        | cons idx free =>
            have room : ¬ table.freeTop < 0 := by
              rw [← tracks.shown.free_eq_nil_iff, unused]
              simp
            simp only [room, if_false]
            obtain ⟨chains', after⟩ := tracks.insertSlot slot unused val valLen
            exact ⟨_, _, chains', _, rfl, rfl, after⟩

theorem del (tracks : Tracks schema table chains view subs) (key : K) :
    StepTracks schema table subs (.del key) := by
  have wf := tracks.shown.wf
  have idle := tracks.shown.idle (schema.bucketOf key)
  have linked := wf.linked (schema.bucketOf key)
  have enough := wf.length_le (schema.bucketOf key)
  have slot_eq := tracks.shown.slot key
  have same := tracks.subscribers key
  unfold StepTracks
  simp only [step, SubOp.call, nosKvDel, Answers, idle, ne_eq, not_true_eq_false, if_false]
  cases slot : slotOf schema table chains key with
  | none =>
      rw [slot_eq, slot, Option.map_none] at same
      rw [linked.searchPrev_eq_none slot enough none, ← same]
      exact ⟨table, _, chains, view, rfl, ⟨by simp [Reply.ofStatus], rfl⟩, tracks⟩
  | some idx =>
      obtain ⟨passes, front, back, split, fails⟩ := List.find?_eq_some_iff_append.mp slot
      rw [split] at linked enough
      have short : front.length < schema.capacity := by
        rw [List.length_append, List.length_cons] at enough
        omega
      rw [slot_eq, slot, Option.map_some] at same
      rw [linked.searchPrev_eq_some passes (by simpa using fails) short none, ← same]
      simp only [Option.or_none]
      exact ⟨_, _, _, _, rfl, ⟨by simp [Reply.ofStatus], rfl⟩,
        tracks.unlinkSlot (slot_eq.trans slot) split⟩

theorem subscribe (tracks : Tracks schema table chains view subs) (key : K) (sub : Sub) :
    StepTracks schema table subs (.subscribe key sub) := by
  have idle := tracks.shown.idle (schema.bucketOf key)
  have walked := tracks.shown.findSlot key
  have same := tracks.subscribers key
  unfold StepTracks
  simp only [step, SubOp.call, nosKvSubscribe, Answers, idle, walked, ne_eq, not_true_eq_false,
    if_false]
  cases slot : view.slot key with
  | none =>
      rw [slot, Option.map_none] at same
      rw [← same]
      exact ⟨table, _, chains, view, rfl, ⟨by simp [Reply.ofStatus], rfl⟩, tracks⟩
  | some idx =>
      rw [slot, Option.map_some] at same
      rw [← same]
      dsimp only
      split
      · rename_i known
        refine ⟨table, _, chains, view, rfl, ⟨by simp [Reply.ofStatus], rfl⟩, ?_⟩
        convert tracks using 1
        funext other
        simp only [afterCall, Reply.ofStatus]
        split
        · rename_i equal
          rw [← equal, ← same, Option.map_some,
            Finset.insert_eq_of_mem (List.mem_toFinset.mpr known)]
        · rfl
      · rename_i fresh
        refine ⟨_, _, chains, view, rfl, ⟨by simp [Reply.ofStatus], rfl⟩, ?_⟩
        have distinct := List.nodup_cons.mpr ⟨fresh, tracks.distinct idx⟩
        convert tracks.setSubs slot distinct using 1
        funext other
        simp only [afterCall, Reply.ofStatus]
        split
        · rename_i equal
          rw [← equal, ← same, Option.map_some, List.toFinset_cons]
        · rfl

theorem unsubscribe (tracks : Tracks schema table chains view subs) (key : K) (sub : Sub) :
    StepTracks schema table subs (.unsubscribe key sub) := by
  have idle := tracks.shown.idle (schema.bucketOf key)
  have walked := tracks.shown.findSlot key
  have same := tracks.subscribers key
  unfold StepTracks
  simp only [step, SubOp.call, nosKvUnsubscribe, Answers, idle, walked, ne_eq, not_true_eq_false,
    if_false]
  cases slot : view.slot key with
  | none =>
      rw [slot, Option.map_none] at same
      rw [← same]
      exact ⟨table, _, chains, view, rfl, ⟨by simp [Reply.ofStatus], rfl⟩, tracks⟩
  | some idx =>
      rw [slot, Option.map_some] at same
      rw [← same]
      dsimp only
      split
      · rename_i known
        refine ⟨_, _, chains, view, rfl, ⟨by simpa [Reply.ofStatus] using known, rfl⟩, ?_⟩
        have distinct := (tracks.distinct idx).erase sub
        convert tracks.setSubs slot distinct using 1
        funext other
        simp only [afterCall, Reply.ofStatus]
        split
        · rename_i equal
          rw [← equal, ← same, Option.map_some]
          congr 1
          ext other_sub
          simp [(tracks.distinct idx).mem_erase_iff]
        · rfl
      · rename_i unknown
        exact ⟨table, _, chains, view, rfl, ⟨by simpa [Reply.ofStatus] using unknown, rfl⟩, tracks⟩

theorem step (tracks : Tracks schema table chains view subs) (op : SubOp K) :
    StepTracks schema table subs op := by
  cases op with
  | put key val valLen => exact tracks.put key val valLen
  | del key => exact tracks.del key
  | subscribe key sub => exact tracks.subscribe key sub
  | unsubscribe key sub => exact tracks.unsubscribe key sub

theorem create (schema : Schema K) :
    Tracks schema (nosKvTableCreate schema) (fun _ => [])
      (.create schema.maxValSize schema.capacity) fun _ => none where
  shown := .create schema
  distinct := fun _ => List.nodup_nil
  subscribers := fun _ => rfl

theorem run (tracks : Tracks schema table chains view subs) (ops : List (SubOp K)) :
    ∃ last replies chains view, runOps schema table (ops.map SubOp.call) = .ok (last, replies) ∧
      replies.length = ops.length ∧
      Tracks schema last chains view fun key =>
        (ops.zip (replies.map Reply.status)).foldl (afterCall key) (subs key) := by
  induction ops generalizing table chains view subs with
  | nil => exact ⟨table, [], chains, view, rfl, rfl, tracks⟩
  | cons op ops ih =>
      obtain ⟨next, reply, chains', view', stepped, -, tracks'⟩ := tracks.step op
      obtain ⟨last, replies, chains'', view'', ran, length, tracks''⟩ := ih tracks'
      refine ⟨last, reply :: replies, chains'', view'', ?_, by simp [length], ?_⟩
      · simp only [List.map_cons, runOps, stepped, ran]
      · simpa only [List.map_cons, List.zip_cons_cons, List.foldl_cons] using tracks''

end Tracks

/-- After any calls on a new table, the list of each present key has no pair twice and has the pairs
subscribed since the key was created and not unsubscribed since.  The next call answers and notifies
for these sets, and a new key starts with an empty list. -/
theorem subscribers_of_run (schema : Schema K) (ops : List (SubOp K)) :
    ∃ table replies, runOps schema (nosKvTableCreate schema) (ops.map SubOp.call) =
        .ok (table, replies) ∧ replies.length = ops.length ∧
      (∀ key list, table.subscribers schema key = some list → list.Nodup) ∧
      (∀ key, (table.subscribers schema key).map List.toFinset =
        subscribed (ops.zip (replies.map Reply.status)) key) ∧
      ∀ op, ∃ next reply, step schema table op.call = .ok (next, reply) ∧
        Answers schema (subscribed (ops.zip (replies.map Reply.status))) reply op ∧
        ∀ key val valLen, op = .put key val valLen → table.subscribers schema key = none →
          reply.status = .ok → next.subscribers schema key = some [] := by
  obtain ⟨table, replies, chains, view, ran, length, tracks⟩ := (Tracks.create schema).run ops
  refine ⟨table, replies, ran, length, fun key list found => ?_, fun key => ?_, fun op => ?_⟩
  · rw [tracks.shown.subscribers_eq] at found
    obtain ⟨idx, -, rfl⟩ := Option.map_eq_some_iff.mp found
    exact tracks.distinct idx
  · rw [tracks.shown.subscribers_eq, Option.map_map]
    exact tracks.subscribers key
  · obtain ⟨next, reply, chains', view', stepped, answers, tracks'⟩ := tracks.step op
    refine ⟨next, reply, stepped, answers, ?_⟩
    rintro key val valLen rfl absent created
    have slot : view.slot key = none := by
      rw [tracks.shown.subscribers_eq] at absent
      exact Option.map_eq_none_iff.mp absent
    have before := tracks.subscribers key
    rw [slot, Option.map_none] at before
    have after := tracks'.subscribers key
    rw [created] at after
    simp only [afterCall, if_true, ← before, Option.getD_none] at after
    obtain ⟨idx, found, empty⟩ := Option.map_eq_some_iff.mp after
    rw [tracks'.shown.subscribers_eq, found, Option.map_some,
      (List.toFinset_eq_empty_iff _).mp empty]

/-- A table of two slots with values of one byte. -/
def oneByte : Schema Nat := ⟨id, 0, 1, 2, 1024, two_lt_limit⟩

/-- A put of a value that is too long notifies nobody. -/
theorem long_value_notifies_nobody :
    ∃ table replies next reply, runOps oneByte (nosKvTableCreate oneByte)
        [.put 5 (some [1]) 1, .subscribe 5 ⟨8, 9⟩] = .ok (table, replies) ∧
      table.subscribers oneByte 5 = some [⟨8, 9⟩] ∧
      step oneByte table (.put 5 (some [1, 2]) 2) = .ok (next, reply) ∧ reply.notified = [] := by
  refine ⟨_, _, _, _, rfl, ?_, rfl, rfl⟩
  decide

end CodexNos.Kv
