import CodexNos.Kv.Engine
import CodexNos.Kv.Pointers

/-!
# The memory of the engine and its tables

The engine does what the engine without memory does, wherever new blocks are placed: no call faults,
and the lists in memory spell the subscriptions of the entries.  Exactly the blocks of the tables,
of their subscriptions and of the pointers that were handed out are allocated, so none is lost and
none is freed twice, and after `nos_kv_db_deinit` nothing is left.
-/

namespace CodexNos.Kv

open Lib Lib.Blocks

variable {K : Type*}

/-! ## Tables without subscriptions -/

/-- The table without the subscriptions of its entries. -/
def Table.bare (table : Table K) : Table K :=
  { table with pool := fun idx => { table.pool idx with subList := [] } }

namespace Table

@[simp]
theorem bare_buckets (table : Table K) : table.bare.buckets = table.buckets := rfl

@[simp]
theorem bare_freeTop (table : Table K) : table.bare.freeTop = table.freeTop := rfl

@[simp]
theorem bare_nextIdx (table : Table K) : table.bare.nextIdx = table.nextIdx := rfl

@[simp]
theorem bare_hasKey [DecidableEq K] (table : Table K) (key : K) :
    table.bare.hasKey key = table.hasKey key := rfl

@[simp]
theorem bare_findSlot [DecidableEq K] (table : Table K) (schema : Schema K) (key : K) :
    table.bare.findSlot schema key = table.findSlot schema key := rfl

theorem bare_setEntry (table : Table K) (idx : Nat) (entry : Entry K) :
    (table.setEntry idx entry).bare = table.bare.setEntry idx { entry with subList := [] } := by
  simp only [setEntry, bare, mk.injEq, true_and, and_true]
  funext other
  by_cases same : other = idx
  · simp [same]
  · simp [same]

theorem bare_relink (table : Table K) (bucket : Nat) (prev next : Option Nat) :
    (table.relink bucket prev next).bare = table.bare.relink bucket prev next := by
  cases prev with
  | none => rfl
  | some prevIdx => exact table.bare_setEntry prevIdx _

theorem bare_insertSlot (table : Table K) (bucket : Nat) (key : K) (val : Option (List UInt8))
    (valLen : Nat) : (table.insertSlot bucket key val valLen).bare =
      table.bare.insertSlot bucket key val valLen := by
  let newIdx := table.freeStack table.freeTop.toNat
  let filled : Entry K :=
    { nextIdx := (table.buckets bucket).firstIdx
      valLen := valLen
      subList := []
      key := key
      value := storeValue (table.pool newIdx).value val valLen }
  calc
    (table.insertSlot bucket key val valLen).bare =
        { ((table.setEntry newIdx filled).bare).setFirst bucket (some newIdx) with
          freeTop := table.freeTop - 1
          usedCount := uint32Inc table.usedCount } := rfl
    _ = table.bare.insertSlot bucket key val valLen := by
        rw [bare_setEntry]
        rfl

theorem bare_unlinkSlot (table : Table K) (bucket : Nat) (prev : Option Nat) (idx : Nat) :
    (table.unlinkSlot bucket prev idx).bare = table.bare.unlinkSlot bucket prev idx := by
  let unlinked := table.relink bucket prev (table.nextIdx idx)
  have linked : unlinked.bare = table.bare.relink bucket prev (table.bare.nextIdx idx) :=
    table.bare_relink bucket prev _
  calc
    (table.unlinkSlot bucket prev idx).bare =
        { (unlinked.setEntry idx { unlinked.pool idx with subList := [] }).bare with
          freeStack := Function.update table.freeStack (table.freeTop + 1).toNat idx
          freeTop := table.freeTop + 1
          usedCount := uint32Dec table.usedCount } := rfl
    _ = { unlinked.bare.setEntry idx { unlinked.bare.pool idx with subList := [] } with
          freeStack := Function.update table.freeStack (table.freeTop + 1).toNat idx
          freeTop := table.freeTop + 1
          usedCount := uint32Dec table.usedCount } := by
        rw [bare_setEntry]
        rfl
    _ = table.bare.unlinkSlot bucket prev idx := by
        rw [linked]
        rfl

end Table

/-! ## Tables by themselves -/

variable {schema : Schema K} {table next : Table K} {chains : Nat → List Nat}

/-- The chains of a table fit together, and only chained entries have subscriptions. -/
structure Attached (schema : Schema K) (table : Table K) (chains : Nat → List Nat) : Prop where
  wf : Wf schema table chains
  chained : ∀ idx, (table.pool idx).subList ≠ [] → ∃ bucket, idx ∈ chains bucket

namespace Attached

theorem setEntry (attached : Attached schema table chains) {bucket idx : Nat}
    (member : idx ∈ chains bucket) {entry : Entry K} (same_next : entry.nextIdx = table.nextIdx idx)
    (same_key : entry.key = table.key idx) : Attached schema (table.setEntry idx entry) chains where
  wf := attached.wf.setEntry same_next same_key
  chained other present := by
    by_cases same : other = idx
    · exact ⟨bucket, same ▸ member⟩
    · refine attached.chained other ?_
      rwa [Table.subList_setEntry, if_neg same] at present

theorem insertSlot (attached : Attached schema table chains) {key : K} (room : 0 ≤ table.freeTop)
    (absent : ∀ idx ∈ chains (schema.bucketOf key), table.key idx ≠ key)
    (val : Option (List UInt8)) (valLen : Nat) :
    Attached schema (table.insertSlot (schema.bucketOf key) key val valLen)
      (Function.update chains (schema.bucketOf key)
        (table.freeStack table.freeTop.toNat :: chains (schema.bucketOf key))) where
  wf := attached.wf.insertSlot room absent val valLen
  chained other present := by
    rw [Table.subList_insertSlot] at present
    split at present
    · simp at present
    · obtain ⟨bucket, member⟩ := attached.chained other present
      exact ⟨bucket, Wf.mem_push_iff.mpr (.inr member)⟩

theorem unlinkSlot (attached : Attached schema table chains) {bucket idx : Nat}
    {front back : List Nat} (split : chains bucket = front ++ idx :: back) :
    Attached schema (table.unlinkSlot bucket front.getLast? idx)
      (Function.update chains bucket (front ++ back)) where
  wf := attached.wf.unlinkSlot split
  chained other present := by
    rw [Table.subList_unlinkSlot] at present
    split at present
    · simp at present
    · rename_i different
      obtain ⟨holder, member⟩ := attached.chained other present
      exact ⟨holder, (attached.wf.mem_unlink_iff split).mpr ⟨member, different⟩⟩

theorem setReaders (attached : Attached schema table chains) (bucket readers : Nat) :
    Attached schema (table.setReaders bucket readers) chains where
  wf := attached.wf.setReaders bucket readers
  chained := attached.chained

end Attached

variable [DecidableEq K]

/-- The walk of a removal ends at the slot of the key, behind the slot before it. -/
theorem Wf.searchPrev_cases (wf : Wf schema table chains) (key : K) :
    (slotOf schema table chains key = none ∧
      Chain.searchPrev table.nextIdx (table.hasKey key) schema.capacity none
        (table.buckets (schema.bucketOf key)).firstIdx = some none) ∨
    ∃ front idx back, chains (schema.bucketOf key) = front ++ idx :: back ∧
      Chain.searchPrev table.nextIdx (table.hasKey key) schema.capacity none
        (table.buckets (schema.bucketOf key)).firstIdx = some (some (front.getLast?, idx)) := by
  have linked := wf.linked (schema.bucketOf key)
  have enough := wf.length_le (schema.bucketOf key)
  cases slot : slotOf schema table chains key with
  | none => exact .inl ⟨rfl, linked.searchPrev_eq_none slot enough none⟩
  | some idx =>
      obtain ⟨passes, front, back, split, fails⟩ := List.find?_eq_some_iff_append.mp slot
      rw [split] at linked enough
      have short : front.length < schema.capacity := by
        rw [List.length_append, List.length_cons] at enough
        omega
      refine .inr ⟨front, idx, back, split, ?_⟩
      rw [linked.searchPrev_eq_some passes (by simpa using fails) short none, Option.or_none]

theorem attached_create (schema : Schema K) :
    Attached schema (nosKvTableCreate schema) fun _ => [] where
  wf := (Shows.create schema).wf
  chained _ present := absurd rfl present

/-- The locks after a call: those of pointers that were handed out or released. -/
def lockedAfter (schema : Schema K) (table : Table K) (op : KvOp K) (status : Status)
    (bucket : Nat) : Nat :=
  let readers := (table.buckets bucket).readers
  match op with
  | .getPtr key => if status = .ok ∧ bucket = schema.bucketOf key then readers + 1 else readers
  | .releasePtr (some locked) => if bucket = locked then readers - 1 else readers
  | _ => readers

/-- A call keeps the chains in order, and takes or releases a lock only for a pointer. -/
theorem Attached.step (attached : Attached schema table chains) {op : KvOp K} {reply : Reply K}
    (ran : step schema table op = .ok (next, reply)) :
    (∃ chains', Attached schema next chains') ∧
      ∀ bucket,
        (next.buckets bucket).readers = lockedAfter schema table op reply.status bucket := by
  have wf := attached.wf
  have found (key : K) := wf.findSlot_eq key
  have holder {key : K} {idx : Nat} (slot : slotOf schema table chains key = some idx) :
      ∃ bucket, idx ∈ chains bucket := (wf.slotOf_eq_some_iff.mp slot).1
  cases op with
  | put key val valLen =>
      simp only [Kv.step, nosKvPut, found] at ran
      split at ran
      · cases ran
        exact ⟨⟨chains, attached⟩, fun _ => rfl⟩
      · split at ran
        · cases ran
        · cases slot : slotOf schema table chains key with
          | some idx =>
              rw [slot] at ran
              cases ran
              obtain ⟨bucket, member⟩ := holder slot
              exact ⟨⟨chains, attached.setEntry member rfl rfl⟩, fun _ => rfl⟩
          | none =>
              rw [slot] at ran
              simp only at ran
              split at ran
              · cases ran
                exact ⟨⟨chains, attached⟩, fun _ => rfl⟩
              · rename_i room
                cases ran
                have absent : ∀ idx ∈ chains (schema.bucketOf key), table.key idx ≠ key := by
                  intro idx member same
                  rw [wf.slotOf_eq_some_iff.mpr ⟨⟨_, member⟩, same⟩] at slot
                  cases slot
                exact ⟨⟨_, attached.insertSlot (not_lt.mp room) absent val valLen⟩,
                  fun bucket => table.readers_insertSlot ..⟩
  | get key bufLen =>
      simp only [Kv.step, nosKvGet, found] at ran
      cases slot : slotOf schema table chains key with
      | none =>
          rw [slot] at ran
          cases ran
          exact ⟨⟨chains, attached⟩, fun _ => rfl⟩
      | some idx =>
          rw [slot] at ran
          cases ran
          exact ⟨⟨chains, attached⟩, fun _ => rfl⟩
  | getPtr key =>
      simp only [Kv.step, nosKvGetPtr, found] at ran
      cases slot : slotOf schema table chains key with
      | none =>
          rw [slot] at ran
          cases ran
          exact ⟨⟨chains, attached⟩, fun _ => by simp [lockedAfter, Reply.ofStatus]⟩
      | some idx =>
          rw [slot] at ran
          cases ran
          refine ⟨⟨chains, attached.setReaders _ _⟩, fun bucket => ?_⟩
          rw [Table.readers_setReaders]
          simp only [lockedAfter, true_and]
          split
          · rename_i same
            rw [same]
          · rfl
  | releasePtr handle =>
      cases handle with
      | none =>
          cases ran
          exact ⟨⟨chains, attached⟩, fun _ => rfl⟩
      | some locked =>
          simp only [Kv.step, nosKvReleasePtr] at ran
          split at ran
          · cases ran
          · cases ran
            refine ⟨⟨chains, attached.setReaders _ _⟩, fun bucket => ?_⟩
            rw [Table.readers_setReaders]
            simp only [lockedAfter]
            split
            · rename_i same
              rw [same]
            · rfl
  | del key =>
      simp only [Kv.step, nosKvDel] at ran
      split at ran
      · cases ran
      · rcases wf.searchPrev_cases key with ⟨-, walked⟩ | ⟨front, idx, back, split, walked⟩
        · rw [walked] at ran
          cases ran
          exact ⟨⟨chains, attached⟩, fun _ => rfl⟩
        · rw [walked] at ran
          cases ran
          exact ⟨⟨_, attached.unlinkSlot split⟩, fun bucket => table.readers_unlinkSlot ..⟩
  | subscribe key sub =>
      simp only [Kv.step, nosKvSubscribe, found] at ran
      split at ran
      · cases ran
      · cases slot : slotOf schema table chains key with
        | none =>
            rw [slot] at ran
            cases ran
            exact ⟨⟨chains, attached⟩, fun _ => rfl⟩
        | some idx =>
            rw [slot] at ran
            simp only at ran
            split at ran
            · cases ran
              exact ⟨⟨chains, attached⟩, fun _ => rfl⟩
            · cases ran
              obtain ⟨bucket, member⟩ := holder slot
              exact ⟨⟨chains, attached.setEntry member rfl rfl⟩, fun _ => rfl⟩
  | unsubscribe key sub =>
      simp only [Kv.step, nosKvUnsubscribe, found] at ran
      split at ran
      · cases ran
      · cases slot : slotOf schema table chains key with
        | none =>
            rw [slot] at ran
            cases ran
            exact ⟨⟨chains, attached⟩, fun _ => rfl⟩
        | some idx =>
            rw [slot] at ran
            simp only at ran
            split at ran
            · cases ran
              obtain ⟨bucket, member⟩ := holder slot
              exact ⟨⟨chains, attached.setEntry member rfl rfl⟩, fun _ => rfl⟩
            · cases ran
              exact ⟨⟨chains, attached⟩, fun _ => rfl⟩

/-! ## The engine without memory -/

/-- Tables in order, and a lock for each pointer. -/
structure PlainEngine.Sound (plain : PlainEngine K) : Prop where
  attached : ∀ opened ∈ plain.tables, ∃ chains, Attached opened.schema opened.table chains
  bucketCount_pos : ∀ opened ∈ plain.tables, 0 < opened.schema.bucketCount
  readers : ∀ index opened, plain.tables[index]? = some opened → ∀ bucket,
    (opened.table.buckets bucket).readers = plain.handles.count (some (index, bucket))
  held : ∀ index bucket, some (index, bucket) ∈ plain.handles →
    ∃ opened, plain.tables[index]? = some opened ∧ bucket < opened.schema.bucketCount

namespace PlainEngine

variable {plain after : PlainEngine K}

omit [DecidableEq K] in
theorem sound_start : (start : PlainEngine K).Sound where
  attached _ member := absurd member List.not_mem_nil
  bucketCount_pos _ member := absurd member List.not_mem_nil
  readers _ _ found := by cases found
  held _ _ member := absurd member List.not_mem_nil

omit [DecidableEq K] in
theorem getElem?_set_table {index : Nat} {opened : PlainTable K}
    (found : plain.tables[index]? = some opened) (table : Table K) (other : Nat) :
    (plain.tables.set index { opened with table := table })[other]? =
      if other = index then some { opened with table := table } else plain.tables[other]? := by
  obtain ⟨inside, -⟩ := List.getElem?_eq_some_iff.mp found
  rw [List.getElem?_set]
  by_cases same : index = other
  · subst same
    simp [inside]
  · simp [same, Ne.symm same]

omit [DecidableEq K] in
theorem Sound.setTable (sound : plain.Sound) {index : Nat} {opened : PlainTable K}
    (found : plain.tables[index]? = some opened) {table : Table K} {chains : Nat → List Nat}
    (attached : Attached opened.schema table chains) {handles : List (Option (Nat × Nat))}
    (readers : ∀ bucket, (table.buckets bucket).readers = handles.count (some (index, bucket)))
    (others : ∀ other ≠ index, ∀ bucket,
      handles.count (some (other, bucket)) = plain.handles.count (some (other, bucket)))
    (own : ∀ bucket, some (index, bucket) ∈ handles → bucket < opened.schema.bucketCount) :
    (⟨plain.tables.set index { opened with table := table }, handles⟩ : PlainEngine K).Sound := by
  have member := List.mem_of_getElem? found
  have look := getElem?_set_table found table
  refine ⟨fun other among => ?_, fun other among => ?_, fun other opened' found' bucket => ?_,
    fun other bucket among => ?_⟩
  · rcases List.mem_or_eq_of_mem_set among with before | rfl
    · exact sound.attached other before
    · exact ⟨chains, attached⟩
  · rcases List.mem_or_eq_of_mem_set among with before | rfl
    · exact sound.bucketCount_pos other before
    · exact sound.bucketCount_pos opened member
  · rw [look] at found'
    split at found'
    · rename_i same
      obtain rfl := Option.some.inj found'
      rw [same]
      exact readers bucket
    · rename_i different
      rw [others other different]
      exact sound.readers other opened' found' bucket
  · rw [look]
    by_cases same : other = index
    · subst same
      exact ⟨_, if_pos rfl, own bucket among⟩
    · rw [if_neg same]
      refine sound.held other bucket ?_
      rw [← List.count_pos_iff] at among ⊢
      rwa [others other same] at among

omit [DecidableEq K] in
theorem count_handleOf (index : Nat) (schema : Schema K) (reply : Reply K) (call : TableCall K)
    (other bucket : Nat) :
    (handleOf index schema reply call).count (some (other, bucket)) =
      match call with
      | .getPtr key =>
          if reply.status = .ok ∧ other = index ∧ bucket = schema.bucketOf key then 1 else 0
      | _ => 0 := by
  cases call with
  | getPtr key =>
      by_cases granted : reply.status = .ok
      · simp only [handleOf, granted, if_true, true_and, List.count_singleton, beq_iff_eq,
          Option.some.injEq, Prod.mk.injEq]
        simp only [eq_comm]
      · simp [handleOf, granted]
  | _ => rfl

theorem Sound.call (sound : plain.Sound) {index : Nat} {call : TableCall K} {reply : Reply K}
    (ran : plain.call index call = .ok (after, reply)) : after.Sound := by
  unfold PlainEngine.call at ran
  cases found : plain.tables[index]? with
  | none =>
      rw [found] at ran
      cases ran
  | some opened =>
      rw [found] at ran
      simp only at ran
      split at ran
      · cases ran
      · rename_i table reply' stepped
        cases ran
        have member := List.mem_of_getElem? found
        obtain ⟨chains, attached⟩ := sound.attached opened member
        obtain ⟨⟨chains', attached'⟩, locks⟩ := attached.step stepped
        refine sound.setTable found attached' (fun bucket => ?_) (fun other different bucket => ?_)
          fun bucket among => ?_
        · rw [locks bucket, List.count_append, count_handleOf, ← sound.readers index opened found]
          cases call with
          | getPtr key =>
              simp only [lockedAfter, TableCall.kvOp, true_and]
              split <;> rfl
          | _ => rfl
        · rw [List.count_append, count_handleOf]
          cases call with
          | getPtr key => simp [different]
          | _ => rfl
        · rcases List.mem_append.mp among with before | new
          · obtain ⟨same, looked, below⟩ := sound.held index bucket before
            rw [found] at looked
            obtain rfl := Option.some.inj looked
            exact below
          · cases call with
            | getPtr key =>
                have equal := List.mem_singleton.mp new
                split at equal
                · obtain ⟨-, rfl⟩ := Prod.mk.inj (Option.some.inj equal)
                  exact Nat.mod_lt _ (sound.bucketCount_pos opened member)
                · cases equal
            | _ => exact absurd new List.not_mem_nil

omit [DecidableEq K] in
theorem count_set_none {handles : List (Option (Nat × Nat))} {place index bucket : Nat}
    (found : handles[place]? = some (some (index, bucket))) (other : Nat × Nat) :
    (handles.set place none).count (some other) =
      if other = (index, bucket) then handles.count (some other) - 1
      else handles.count (some other) := by
  obtain ⟨inside, here⟩ := List.getElem?_eq_some_iff.mp found
  rw [List.count_set inside, here]
  by_cases same : other = (index, bucket)
  · simp [same]
  · simp [same, Ne.symm same]

theorem Sound.releasePtr (sound : plain.Sound) {place : Nat} {reply : Reply K}
    (ran : plain.releasePtr place = .ok (after, reply)) : after.Sound := by
  unfold PlainEngine.releasePtr at ran
  split at ran
  · cases ran
  · cases ran
    exact sound
  · rename_i index bucket handed
    cases found : plain.tables[index]? with
    | none =>
        rw [found] at ran
        cases ran
    | some opened =>
        rw [found] at ran
        simp only at ran
        split at ran
        · cases ran
        · rename_i table reply' stepped
          cases ran
          have member := List.mem_of_getElem? found
          obtain ⟨chains, attached⟩ := sound.attached opened member
          obtain ⟨⟨chains', attached'⟩, locks⟩ := attached.step stepped
          refine sound.setTable found attached' (fun other => ?_) (fun other different place' => ?_)
            fun other among => ?_
          · rw [locks other, count_set_none handed, ← sound.readers index opened found]
            simp [lockedAfter]
          · rw [count_set_none handed, if_neg fun same => different (congrArg Prod.fst same)]
          · have before : some (index, other) ∈ plain.handles :=
              (List.mem_or_eq_of_mem_set among).resolve_right (by simp)
            obtain ⟨same, looked, below⟩ := sound.held index other before
            rw [found] at looked
            obtain rfl := Option.some.inj looked
            exact below

theorem Sound.create (sound : plain.Sound) (new : NewTable K) : (plain.create new).1.Sound := by
  unfold PlainEngine.create
  split
  · exact sound
  · split
    · exact sound
    · split
      · exact sound
      · have unused (bucket : Nat) :
            plain.handles.count (some (plain.tables.length, bucket)) = 0 := by
          refine List.count_eq_zero.mpr fun member => ?_
          obtain ⟨opened, found, -⟩ := sound.held _ bucket member
          rw [List.getElem?_eq_none le_rfl] at found
          cases found
        refine ⟨fun opened member => ?_, fun opened member => ?_,
          fun index opened found bucket => ?_, fun index bucket member => ?_⟩
        · rcases List.mem_append.mp member with before | here
          · exact sound.attached opened before
          · obtain rfl := List.mem_singleton.mp here
            exact ⟨_, attached_create new.schema⟩
        · rcases List.mem_append.mp member with before | here
          · exact sound.bucketCount_pos opened before
          · obtain rfl := List.mem_singleton.mp here
            exact new.bucketCount_pos
        · rcases lt_or_ge index plain.tables.length with inside | outside
          · rw [List.getElem?_append_left inside] at found
            exact sound.readers index opened found bucket
          · rw [List.getElem?_append_right outside, List.getElem?_singleton] at found
            split at found
            · rename_i zero
              obtain rfl := Option.some.inj found
              obtain rfl : index = plain.tables.length := by omega
              exact (unused bucket).symm
            · cases found
        · obtain ⟨opened, found, below⟩ := sound.held index bucket member
          obtain ⟨inside, -⟩ := List.getElem?_eq_some_iff.mp found
          exact ⟨opened, (List.getElem?_append_left inside).trans found, below⟩

omit [DecidableEq K] in
theorem Sound.handles_none (sound : plain.Sound) (free : plain.locked = false)
    (handle : Option (Nat × Nat)) (member : handle ∈ plain.handles) : handle = none := by
  rcases handle with _ | ⟨index, bucket⟩
  · rfl
  · obtain ⟨opened, found, below⟩ := sound.held index bucket member
    have idle : (opened.table.buckets bucket).readers = 0 := by
      unfold PlainEngine.locked at free
      rw [List.any_eq_false] at free
      have quiet := free opened (List.mem_of_getElem? found)
      simp only [List.any_eq_true, List.mem_range, decide_eq_true_eq, not_exists, not_and,
        not_not] at quiet
      exact quiet bucket below
    rw [sound.readers index opened found, List.count_eq_zero] at idle
    exact absurd member idle

/-- Every call keeps the tables in order and the locks with their pointers. -/
theorem Sound.step (sound : plain.Sound) {op : EngineCall K} {reply : EngineReply K}
    (ran : plain.step op = .ok (after, reply)) : after.Sound := by
  cases op with
  | create new =>
      cases ran
      exact sound.create new
  | call index call =>
      simp only [PlainEngine.step] at ran
      cases called : plain.call index call with
      | error stop =>
          rw [called] at ran
          cases ran
      | ok done =>
          rw [called] at ran
          cases ran
          exact sound.call called
  | releasePtr place =>
      simp only [PlainEngine.step] at ran
      cases called : plain.releasePtr place with
      | error stop =>
          rw [called] at ran
          cases ran
      | ok done =>
          rw [called] at ran
          cases ran
          exact sound.releasePtr called
  | deinit =>
      simp only [PlainEngine.step] at ran
      split at ran
      · cases ran
      · rename_i free
        cases ran
        refine ⟨fun _ member => absurd member List.not_mem_nil,
          fun _ member => absurd member List.not_mem_nil, fun _ _ found => (by cases found),
          fun index bucket member => ?_⟩
        have gone := sound.handles_none (by simpa using free) _ member
        cases gone

end PlainEngine

/-! ## Who owns a block -/

/-- The owners of blocks. -/
inductive BlockOwner
  /-- The list of an entry. -/
  | slot (index idx : Nat)
  /-- A part of a table. -/
  | part (index : Nat) (part : Part)
  /-- A pointer that was handed out. -/
  | handle (place : Nat)
  deriving DecidableEq

/-- The table of an engine, as one without memory has it. -/
def OpenTable.plain (opened : OpenTable K) : PlainTable K :=
  ⟨opened.name, opened.schema, opened.table⟩

/-- A table without the subscriptions of its entries. -/
def PlainTable.bare (opened : PlainTable K) : PlainTable K :=
  { opened with table := opened.table.bare }

/-- A pointer is the address of the only block of its owner, which has the lock. -/
def HandleAt (memory : Heap) : Option (Option Nat) → Option (Option (Nat × Nat)) → List Nat → Prop
  | none, none, addrs => addrs = []
  | some none, some none, addrs => addrs = []
  | some (some addr), some (some (index, bucket)), addrs =>
      addrs = [addr] ∧ memory.lookup addr = some (.other (.handle index bucket))
  | _, _, _ => False

/-- The engine has the tables of the one without memory, and its blocks have these owners. -/
structure Mirrors (engine : Engine K) (plain : PlainEngine K) (blocks : BlockOwner → List Nat) :
    Prop where
  owns : Owns engine.memory blocks
  tables : engine.tables.map OpenTable.plain = plain.tables.map PlainTable.bare
  lists : ∀ index opened, plain.tables[index]? = some opened → ∀ idx,
    Spells engine.memory (engine.subList index idx) (blocks (.slot index idx)) ∧
      (opened.table.pool idx).subList = items engine.memory (blocks (.slot index idx))
  parts : ∀ index opened, engine.tables[index]? = some opened → ∀ part,
    blocks (.part index part) = [opened.part part] ∧
      engine.memory.lookup (opened.part part) = some (.other (.part index part))
  closed : ∀ index, plain.tables.length ≤ index →
    (∀ idx, blocks (.slot index idx) = []) ∧ ∀ part, blocks (.part index part) = []
  handles : ∀ place,
    HandleAt engine.memory engine.handles[place]? plain.handles[place]? (blocks (.handle place))

theorem HandleAt.frame {memory memory' : Heap} {handle : Option (Option Nat)}
    {lock : Option (Option (Nat × Nat))} {addrs : List Nat}
    (held : HandleAt memory handle lock addrs)
    (same : ∀ addr ∈ addrs, memory'.lookup addr = memory.lookup addr) :
    HandleAt memory' handle lock addrs := by
  rcases handle with _ | _ | addr <;> rcases lock with _ | _ | ⟨index, bucket⟩ <;> try exact held
  obtain ⟨rfl, holds⟩ := held
  exact ⟨rfl, (same _ List.mem_cons_self).trans holds⟩

theorem HandleAt.eq_none_iff {memory : Heap} {handle : Option (Option Nat)}
    {lock : Option (Option (Nat × Nat))} {addrs : List Nat}
    (held : HandleAt memory handle lock addrs) : handle = none ↔ lock = none := by
  rcases handle with _ | _ | addr <;> rcases lock with _ | _ | ⟨index, bucket⟩ <;>
    simp [HandleAt] at held ⊢

namespace Mirrors

variable {engine : Engine K} {plain : PlainEngine K} {blocks : BlockOwner → List Nat}
  {memory : Heap} {index : Nat} {opened : PlainTable K}

omit [DecidableEq K] in
theorem start : Mirrors (Engine.start : Engine K) PlainEngine.start fun _ => [] where
  owns := .empty
  tables := rfl
  lists _ _ found := by cases found
  parts _ _ found := by cases found
  closed _ _ := ⟨fun _ => rfl, fun _ => rfl⟩
  handles _ := rfl

omit [DecidableEq K] in
theorem length_tables (mirrors : Mirrors engine plain blocks) :
    engine.tables.length = plain.tables.length := by
  simpa using congrArg List.length mirrors.tables

omit [DecidableEq K] in
theorem exists_table (mirrors : Mirrors engine plain blocks)
    (found : plain.tables[index]? = some opened) :
    ∃ opened', engine.tables[index]? = some opened' ∧ opened'.name = opened.name ∧
      opened'.schema = opened.schema ∧ opened'.table = opened.table.bare := by
  have same := congrArg (fun tables => tables[index]?) mirrors.tables
  simp only [List.getElem?_map, found, Option.map_some] at same
  obtain ⟨opened', found', equal⟩ := Option.map_eq_some_iff.mp same
  obtain ⟨names, schemas, tables⟩ := PlainTable.mk.inj equal
  exact ⟨opened', found', names, schemas, tables⟩

omit [DecidableEq K] in
theorem not_open (mirrors : Mirrors engine plain blocks) (missing : plain.tables[index]? = none) :
    engine.tables[index]? = none := by
  rw [List.getElem?_eq_none_iff] at missing ⊢
  rwa [mirrors.length_tables]

omit [DecidableEq K] in
theorem holdsParts (mirrors : Mirrors engine plain blocks) {opened : OpenTable K}
    (found : engine.tables[index]? = some opened) :
    Engine.holdsParts engine.memory index opened = true := by
  have here (part : Part) := (mirrors.parts index opened found part).2
  simp [Engine.holdsParts, here]

omit [DecidableEq K] in
theorem mem_of_mem (mirrors : Mirrors engine plain blocks) {owner : BlockOwner} {addr : Nat}
    (member : addr ∈ blocks owner) : addr ∈ engine.memory :=
  (mirrors.owns.live addr).mpr ⟨owner, member⟩

omit [DecidableEq K] in
theorem setSlot (mirrors : Mirrors engine plain blocks)
    (found : plain.tables[index]? = some opened) {opened' : OpenTable K}
    (found' : engine.tables[index]? = some opened') (table : Table K) (idx : Nat)
    {addrs : List Nat} {head : Option Nat}
    (others : ∀ other ≠ idx, (table.pool other).subList = (opened.table.pool other).subList)
    (spells : Spells memory head addrs) (spelled : (table.pool idx).subList = items memory addrs)
    (owns : Owns memory (Function.update blocks (.slot index idx) addrs))
    (frame : ∀ owner ≠ .slot index idx, ∀ addr ∈ blocks owner,
      memory.lookup addr = engine.memory.lookup addr) :
    Mirrors
      { (engine.setTable index opened' table.bare).setSubList index idx head with memory := memory }
      { plain with tables := plain.tables.set index { opened with table := table } }
      (Function.update blocks (.slot index idx) addrs) := by
  obtain ⟨inside, -⟩ := List.getElem?_eq_some_iff.mp found
  have apart (owner : BlockOwner) (different : owner ≠ .slot index idx) :
      Function.update blocks (.slot index idx) addrs owner = blocks owner :=
    Function.update_of_ne different _ _
  refine ⟨owns, ?_, fun other opened₁ look place => ?_, fun other opened₁ look part => ?_,
    fun other beyond => ?_, fun place => ?_⟩
  · obtain ⟨opened₂, found₂, names, schemas, -⟩ := mirrors.exists_table found
    obtain rfl := Option.some.inj (found'.symm.trans found₂)
    rw [Engine.setSubList, Engine.setTable, List.map_set, List.map_set, mirrors.tables,
      OpenTable.plain, PlainTable.bare, names, schemas]
  · rw [PlainEngine.getElem?_set_table found] at look
    by_cases same : (BlockOwner.slot other place) = .slot index idx
    · obtain ⟨rfl, rfl⟩ := BlockOwner.slot.inj same
      rw [if_pos rfl] at look
      obtain rfl := Option.some.inj look
      rw [Function.update_self]
      refine ⟨?_, spelled⟩
      simpa [Engine.setSubList] using spells
    · rw [apart _ same]
      have old : Spells engine.memory (engine.subList other place) (blocks (.slot other place)) ∧
          (opened₁.table.pool place).subList =
            items engine.memory (blocks (.slot other place)) := by
        split at look
        · rename_i here
          obtain rfl := Option.some.inj look
          have elsewhere : place ≠ idx := fun equal => same (by rw [here, equal])
          rw [here, others place elsewhere]
          exact mirrors.lists index opened found place
        · exact mirrors.lists other opened₁ look place
      have stays := frame _ same
      have head_eq : Function.update engine.subList index
          (Function.update (engine.subList index) idx head) other place =
            engine.subList other place := by
        by_cases here : other = index
        · subst here
          have elsewhere : place ≠ idx := fun equal => same (by rw [equal])
          simp [elsewhere]
        · simp [here]
      refine ⟨?_, old.2.trans (items_congr stays).symm⟩
      simp only [Engine.setSubList, Engine.setTable, head_eq]
      exact old.1.frame stays
  · have different : BlockOwner.part other part ≠ .slot index idx := by simp
    rw [apart _ different]
    have old : ∃ opened₂, engine.tables[other]? = some opened₂ ∧ opened₂.part = opened₁.part := by
      simp only [Engine.setSubList, Engine.setTable] at look
      rw [List.getElem?_set] at look
      split at look
      · rename_i here
        rw [if_pos (by rwa [mirrors.length_tables])] at look
        obtain rfl := Option.some.inj look
        exact ⟨opened', here ▸ found', rfl⟩
      · exact ⟨opened₁, look, rfl⟩
    obtain ⟨opened₂, found₂, same⟩ := old
    obtain ⟨owned, held⟩ := mirrors.parts other opened₂ found₂ part
    rw [← same]
    exact ⟨owned, (frame _ different _ (owned ▸ List.mem_cons_self)).trans held⟩
  · rw [List.length_set] at beyond
    obtain ⟨slots, parts⟩ := mirrors.closed other beyond
    refine ⟨fun place => ?_, fun part => ?_⟩
    · rw [apart _ fun same => ?_]
      · exact slots place
      · obtain ⟨rfl, -⟩ := BlockOwner.slot.inj same
        exact absurd inside (not_lt.mpr beyond)
    · rw [apart _ (by simp)]
      exact parts part
  · have different : BlockOwner.handle place ≠ .slot index idx := by simp
    rw [apart _ different]
    exact (mirrors.handles place).frame (frame _ different)

omit [DecidableEq K] in
theorem setTable (mirrors : Mirrors engine plain blocks)
    (found : plain.tables[index]? = some opened) {opened' : OpenTable K}
    (found' : engine.tables[index]? = some opened') (table : Table K)
    (same : ∀ idx, (table.pool idx).subList = (opened.table.pool idx).subList) :
    Mirrors (engine.setTable index opened' table.bare)
      { plain with tables := plain.tables.set index { opened with table := table } } blocks := by
  obtain ⟨spells, spelled⟩ := mirrors.lists index opened found 0
  have owns := mirrors.owns
  rw [← Function.update_eq_self (.slot index 0) blocks] at owns
  have after := mirrors.setSlot found found' table 0 (fun other _ => same other) spells
    ((same 0).trans spelled) owns fun owner _ addr _ => rfl
  rw [Function.update_eq_self] at after
  have unchanged : (engine.setTable index opened' table.bare).setSubList index 0
      (engine.subList index 0) = engine.setTable index opened' table.bare := by
    rw [Engine.setSubList]
    simp only [Engine.setTable, Function.update_eq_self]
  rw [unchanged] at after
  exact after

omit [DecidableEq K] in
theorem setList (mirrors : Mirrors engine plain blocks)
    (found : plain.tables[index]? = some opened) {idx : Nat} {subs : List Sub}
    {addrs : List Nat} {head : Option Nat} (spells : Spells memory head addrs)
    (spelled : subs = items memory addrs)
    (owns : Owns memory (Function.update blocks (.slot index idx) addrs))
    (frame : ∀ owner ≠ .slot index idx, ∀ addr ∈ blocks owner,
      memory.lookup addr = engine.memory.lookup addr) :
    Mirrors { engine.setSubList index idx head with memory := memory }
      { plain with
        tables := plain.tables.set index
          { opened with
            table := opened.table.setEntry idx { opened.table.pool idx with subList := subs } } }
      (Function.update blocks (.slot index idx) addrs) := by
  obtain ⟨⟨name, schema, table, part⟩, found', rfl, rfl, rfl⟩ := mirrors.exists_table found
  have after := mirrors.setSlot found found'
    (opened.table.setEntry idx { opened.table.pool idx with subList := subs }) idx
    (fun other different => by rw [Table.subList_setEntry, if_neg different]) spells
    (by rw [Table.subList_setEntry, if_pos rfl, spelled]) owns frame
  have bare : (opened.table.setEntry idx { opened.table.pool idx with subList := subs }).bare =
      opened.table.bare := by
    rw [Table.bare_setEntry]
    simp only [Table.setEntry]
    rw [show ({ opened.table.pool idx with subList := [] } : Entry K) = opened.table.bare.pool idx
      from rfl, Function.update_eq_self]
  have written : engine.setTable index ⟨opened.name, opened.schema, opened.table.bare, part⟩
      opened.table.bare = engine := by
    obtain ⟨inside, here⟩ := List.getElem?_eq_some_iff.mp found'
    rw [Engine.setTable]
    simp only [← here, List.set_getElem_self]
  rw [bare, written] at after
  exact after

omit [DecidableEq K] in
theorem same_table (found : plain.tables[index]? = some opened) :
    { plain with tables := plain.tables.set index { opened with table := opened.table } } =
      plain := by
  obtain ⟨inside, here⟩ := List.getElem?_eq_some_iff.mp found
  have written : plain.tables.set index opened = plain.tables := by
    rw [← here]
    exact List.set_getElem_self inside
  rw [written]

/-! ## Calls on a table -/

/-- The engine does what a table alone does. -/
def Follows (plain : PlainEngine K) (index : Nat) (opened : PlainTable K)
    (expected : Except Stuck (Table K × Reply K)) (result : Except Stop (Engine K × Reply K)) :
    Prop :=
  match expected with
  | .error cause => result = .error (.stuck cause)
  | .ok (table, reply) =>
      ∃ engine blocks, result = .ok (engine, reply) ∧
        Mirrors engine
          { plain with tables := plain.tables.set index { opened with table := table } } blocks

variable {part : Part → Nat} {chains : Nat → List Nat}
  {allocator : Allocator (Block Sub Content)}

omit [DecidableEq K] in
theorem follows_same (mirrors : Mirrors engine plain blocks)
    (found : plain.tables[index]? = some opened) (reply : Reply K) :
    Follows plain index opened (.ok (opened.table, reply)) (.ok (engine, reply)) :=
  ⟨engine, blocks, rfl, by rwa [same_table found]⟩

theorem put (mirrors : Mirrors engine plain blocks) (found : plain.tables[index]? = some opened)
    (found' : engine.tables[index]? =
      some ⟨opened.name, opened.schema, opened.table.bare, part⟩)
    (attached : Attached opened.schema opened.table chains) (key : K) (val : Option (List UInt8))
    (valLen : Nat) :
    Follows plain index opened (nosKvPut opened.schema opened.table key val valLen)
      (engine.nosKvPut allocator index ⟨opened.name, opened.schema, opened.table.bare, part⟩ key val
        valLen) := by
  have walked := attached.wf.findSlot_eq key
  by_cases long : opened.schema.maxValSize < valLen
  · simp only [nosKvPut, Engine.nosKvPut, long, if_true]
    exact mirrors.follows_same found _
  by_cases locked : (opened.table.buckets (opened.schema.bucketOf key)).readers ≠ 0
  · simp only [nosKvPut, Engine.nosKvPut, Table.bare_buckets, long, if_false, if_pos locked,
      Follows]
  cases slot : slotOf opened.schema opened.table chains key with
  | some idx =>
      rw [slot] at walked
      obtain ⟨spells, spelled⟩ := mirrors.lists index opened found idx
      have collected := spells.collect_eq spells.length_le
      have after := mirrors.setTable found found' (opened.table.updateSlot idx key val valLen).1
        fun other => opened.table.subList_updateSlot idx key val valLen other
      have bare : (opened.table.updateSlot idx key val valLen).1.bare =
          (opened.table.bare.updateSlot idx key val valLen).1 := opened.table.bare_setEntry idx _
      rw [bare] at after
      simp only [nosKvPut, Engine.nosKvPut, Table.bare_buckets, Table.bare_findSlot, long, locked,
        walked, if_false, Engine.fuel, collected]
      cases addrs : blocks (.slot index idx) with
      | nil =>
          rw [addrs] at spelled
          refine ⟨_, blocks, ?_, after⟩
          simp [Table.updateSlot, spelled, items, Reply.ofStatus]
      | cons first rest =>
          rw [addrs] at spells spelled
          let array := allocator.place engine.memory
          have fresh : array ∉ engine.memory := allocator.fresh engine.memory
          let content : Content := .subs (first :: rest)
          have stays (addr : Nat) (member : addr ∈ first :: rest) :
              (engine.memory.insert array (.other content)).lookup addr =
                engine.memory.lookup addr := by
            refine Finmap.lookup_insert_of_ne engine.memory fun same => fresh ?_
            exact same ▸ mem_of_nodeAt (spells.live addr member)
          have read : (first :: rest).mapM
              (itemOf (engine.memory.insert array (.other content))) =
                some (opened.table.pool idx).subList := by
            rw [(spells.frame stays).mapM_itemOf, spelled]
            exact congrArg some (items_congr stays)
          have freed :
              Engine.freeBlock (engine.memory.insert array (.other content)) array content =
                .ok engine.memory := by
            rw [Engine.freeBlock, Finmap.lookup_insert, if_pos rfl, erase_insert fresh]
          refine ⟨_, blocks, ?_, after⟩
          simp only [Engine.alloc]
          rw [read]
          simp only
          rw [freed]
          rfl
  | none =>
      rw [slot] at walked
      by_cases full : opened.table.freeTop < 0
      · simp only [nosKvPut, Engine.nosKvPut, Table.bare_buckets, Table.bare_findSlot,
          Table.bare_freeTop, long, locked, walked, full, if_false, if_true]
        exact mirrors.follows_same found _
      · simp only [nosKvPut, Engine.nosKvPut, Table.bare_buckets, Table.bare_findSlot,
          Table.bare_freeTop, long, locked, walked, full, if_false]
        have popped : opened.table.freeStack opened.table.freeTop.toNat ∈ opened.table.free := by
          simp [Table.free_eq_append (not_lt.mp full)]
        have unlisted : (opened.table.pool
            (opened.table.freeStack opened.table.freeTop.toNat)).subList = [] := by
          by_contra present
          obtain ⟨bucket, member⟩ := attached.chained _ present
          exact attached.wf.not_free member popped
        obtain ⟨spells, spelled⟩ := mirrors.lists index opened found
          (opened.table.freeStack opened.table.freeTop.toNat)
        have unowned :
            blocks (.slot index (opened.table.freeStack opened.table.freeTop.toNat)) = [] := by
          rw [← List.length_eq_zero_iff, ← spells.length_items, ← spelled, unlisted]
          rfl
        have owns := mirrors.owns
        rw [← Function.update_eq_self
          (.slot index (opened.table.freeStack opened.table.freeTop.toNat)) blocks, unowned] at owns
        refine ⟨_, Function.update blocks
          (.slot index (opened.table.freeStack opened.table.freeTop.toNat)) [], rfl, ?_⟩
        rw [← Table.bare_insertSlot]
        refine mirrors.setSlot found found'
          (opened.table.insertSlot (opened.schema.bucketOf key) key val valLen)
          (opened.table.freeStack opened.table.freeTop.toNat) (fun other different => ?_)
          (Spells.nil : Spells engine.memory none []) ?_ owns fun _ _ _ _ => rfl
        · rw [Table.subList_insertSlot, if_neg different]
        · rw [Table.subList_insertSlot, if_pos rfl]
          rfl

theorem del (mirrors : Mirrors engine plain blocks) (found : plain.tables[index]? = some opened)
    (found' : engine.tables[index]? =
      some ⟨opened.name, opened.schema, opened.table.bare, part⟩)
    (attached : Attached opened.schema opened.table chains) (key : K) :
    Follows plain index opened (nosKvDel opened.schema opened.table key)
      (engine.nosKvDel index ⟨opened.name, opened.schema, opened.table.bare, part⟩ key) := by
  by_cases locked : (opened.table.buckets (opened.schema.bucketOf key)).readers ≠ 0
  · simp only [nosKvDel, Engine.nosKvDel, Table.bare_buckets, Follows, locked, ne_eq,
      not_false_eq_true, if_true]
  simp only [nosKvDel, Engine.nosKvDel, Table.bare_buckets, Table.bare_nextIdx, Table.bare_hasKey,
    locked, if_false]
  rcases attached.wf.searchPrev_cases key with ⟨-, walked⟩ | ⟨front, idx, back, split, walked⟩
  · rw [walked]
    exact mirrors.follows_same found _
  · rw [walked]
    obtain ⟨spells, spelled⟩ := mirrors.lists index opened found idx
    obtain ⟨memory, freed, erased⟩ := spells.freeAll_eq spells.length_le
    simp only [Engine.fuel, freed, ← Table.bare_unlinkSlot]
    refine ⟨_, Function.update blocks (.slot index idx) [], rfl, ?_⟩
    refine mirrors.setSlot found found'
      (opened.table.unlinkSlot (opened.schema.bucketOf key) front.getLast? idx) idx
      (fun other different => ?_) (Spells.nil : Spells memory none []) ?_ ?_
      fun owner different addr member => ?_
    · rw [Table.subList_unlinkSlot, if_neg different]
    · rw [Table.subList_unlinkSlot, if_pos rfl]
      rfl
    · refine mirrors.owns.free (List.nil_sublist _) fun addr => ?_
      rw [erased.mem_iff]
      simp
    · rw [erased addr, if_neg fun mine => different (mirrors.owns.apart member mine)]

theorem subscribe (mirrors : Mirrors engine plain blocks)
    (found : plain.tables[index]? = some opened)
    (attached : Attached opened.schema opened.table chains) (key : K) (sub : Sub) :
    Follows plain index opened (nosKvSubscribe opened.schema opened.table key sub)
      (engine.nosKvSubscribe allocator index
        ⟨opened.name, opened.schema, opened.table.bare, part⟩ key sub) := by
  have walked := attached.wf.findSlot_eq key
  by_cases locked : (opened.table.buckets (opened.schema.bucketOf key)).readers ≠ 0
  · simp only [nosKvSubscribe, Engine.nosKvSubscribe, Table.bare_buckets, Follows, locked, ne_eq,
      not_false_eq_true, if_true]
  simp only [nosKvSubscribe, Engine.nosKvSubscribe, Table.bare_buckets, Table.bare_findSlot,
    locked, if_false, walked]
  cases slot : slotOf opened.schema opened.table chains key with
  | none => exact mirrors.follows_same found _
  | some idx =>
      obtain ⟨spells, spelled⟩ := mirrors.lists index opened found idx
      obtain ⟨searched, search, same⟩ :=
        spells.find_eq (fun item => decide (item = sub)) spells.length_le
      simp only [Engine.fuel, search]
      have present : searched.isSome = true ↔ sub ∈ (opened.table.pool idx).subList := by
        rw [same, spelled, List.any_eq_true]
        simp
      cases searched with
      | some node =>
          have member : sub ∈ (opened.table.pool idx).subList := present.mp rfl
          simp only [member, if_true]
          exact mirrors.follows_same found _
      | none =>
          have absent : ¬ sub ∈ (opened.table.pool idx).subList := fun member =>
            absurd (present.mpr member) (by simp)
          simp only [absent, if_false, Engine.alloc]
          have fresh := allocator.fresh engine.memory
          have stays {addr : Nat} (member : addr ∈ engine.memory) (content : Block Sub Content) :
              (engine.memory.insert (allocator.place engine.memory) content).lookup addr =
                engine.memory.lookup addr :=
            Finmap.lookup_insert_of_ne engine.memory fun equal => fresh (equal ▸ member)
          refine ⟨_, Function.update blocks (.slot index idx)
            (allocator.place engine.memory :: blocks (.slot index idx)), rfl, ?_⟩
          refine mirrors.setList found (spells.push fresh sub) ?_
            (mirrors.owns.alloc fresh (.slot index idx) _) fun owner different addr member => ?_
          · rw [items_cons (nodeAt_insert _ sub _), spelled]
            exact congrArg (sub :: ·)
              (items_congr fun addr member => stays (mirrors.mem_of_mem member) _).symm
          · exact stays (mirrors.mem_of_mem member) _

theorem unsubscribe (mirrors : Mirrors engine plain blocks)
    (found : plain.tables[index]? = some opened)
    (attached : Attached opened.schema opened.table chains) (key : K) (sub : Sub) :
    Follows plain index opened (nosKvUnsubscribe opened.schema opened.table key sub)
      (engine.nosKvUnsubscribe index
        ⟨opened.name, opened.schema, opened.table.bare, part⟩ key sub) := by
  have walked := attached.wf.findSlot_eq key
  by_cases locked : (opened.table.buckets (opened.schema.bucketOf key)).readers ≠ 0
  · simp only [nosKvUnsubscribe, Engine.nosKvUnsubscribe, Table.bare_buckets, Follows, locked,
      ne_eq, not_false_eq_true, if_true]
  simp only [nosKvUnsubscribe, Engine.nosKvUnsubscribe, Table.bare_buckets, Table.bare_findSlot,
    locked, if_false, walked]
  cases slot : slotOf opened.schema opened.table chains key with
  | none => exact mirrors.follows_same found _
  | some idx =>
      obtain ⟨spells, spelled⟩ := mirrors.lists index opened found idx
      rcases spells.findPrev_eq (fun item => decide (item = sub)) spells.length_le none with
        ⟨searched, fails⟩ | ⟨front, node, back, item, owned, searched, here, passes, fails⟩
      · have absent : ¬ sub ∈ (opened.table.pool idx).subList := by
          rw [spelled]
          intro member
          simpa using List.any_eq_false.mp fails sub member
        simp only [Engine.fuel, searched, absent, if_false]
        exact mirrors.follows_same found _
      · obtain rfl : item = sub := of_decide_eq_true passes
        rw [owned] at spells spelled
        have read : (opened.table.pool idx).subList =
            items engine.memory front ++ item :: items engine.memory back := by
          obtain ⟨-, item', next, read, -⟩ := spells.suffix.cons
          rw [itemOf, read] at here
          obtain rfl := Option.some.inj here
          rw [spelled, items_append, items_cons read]
        have member : item ∈ (opened.table.pool idx).subList := by simp [read]
        have erased : (opened.table.pool idx).subList.erase item =
            items engine.memory (front ++ back) := by
          rw [read, items_append, List.erase_append_right, List.erase_cons_head]
          intro early
          simpa using fails item early
        have distinct := spells.nodup
        obtain ⟨memory, unlinked, spells', kept, stays, left⟩ := spells.unlink_eq
        simp only [Engine.fuel, searched, member, if_true, Option.or_none, unlinked]
        refine ⟨_, Function.update blocks (.slot index idx) (front ++ back), rfl, ?_⟩
        refine mirrors.setList found spells' (erased.trans kept.symm) ?_
          fun owner different addr mine => stays addr ?_
        · refine mirrors.owns.free ?_ fun addr => ?_
          · rw [owned]
            exact (List.Sublist.refl front).append (List.sublist_cons_self node back)
          · rw [left, owned, mem_append_iff_of_nodup distinct]
            by_cases same : addr = node
            · simp [same]
            · simp [same]
        · rw [← owned]
          exact fun theirs => different (mirrors.owns.apart mine theirs)

theorem get (mirrors : Mirrors engine plain blocks) (found : plain.tables[index]? = some opened)
    (attached : Attached opened.schema opened.table chains) (key : K) (bufLen : Nat) :
    Follows plain index opened (nosKvGet opened.schema opened.table key bufLen)
      (match nosKvGet opened.schema opened.table.bare key bufLen with
        | .error cause => .error (.stuck cause)
        | .ok (_, reply) => .ok (engine, reply)) := by
  have walked := attached.wf.findSlot_eq key
  simp only [nosKvGet, Table.bare_findSlot, walked]
  cases slotOf opened.schema opened.table chains key with
  | none => exact mirrors.follows_same found _
  | some idx => exact mirrors.follows_same found _

omit [DecidableEq K] in
theorem handles_eq_none_iff (mirrors : Mirrors engine plain blocks) (place : Nat) :
    engine.handles[place]? = none ↔ plain.handles[place]? = none :=
  (mirrors.handles place).eq_none_iff

omit [DecidableEq K] in
theorem length_handles (mirrors : Mirrors engine plain blocks) :
    engine.handles.length = plain.handles.length := by
  refine le_antisymm ?_ ?_
  · rw [← List.getElem?_eq_none_iff, mirrors.handles_eq_none_iff]
    exact List.getElem?_eq_none le_rfl
  · rw [← List.getElem?_eq_none_iff, ← mirrors.handles_eq_none_iff]
    exact List.getElem?_eq_none le_rfl

omit [DecidableEq K] in
theorem setHandles (mirrors : Mirrors engine plain blocks) {place : Nat} {addrs : List Nat}
    {handles : List (Option Nat)} {locks : List (Option (Nat × Nat))}
    (held : HandleAt memory handles[place]? locks[place]? addrs)
    (others : ∀ other ≠ place,
      handles[other]? = engine.handles[other]? ∧ locks[other]? = plain.handles[other]?)
    (owns : Owns memory (Function.update blocks (.handle place) addrs))
    (frame : ∀ owner ≠ .handle place, ∀ addr ∈ blocks owner,
      memory.lookup addr = engine.memory.lookup addr) :
    Mirrors { engine with memory := memory, handles := handles } { plain with handles := locks }
      (Function.update blocks (.handle place) addrs) := by
  have apart (owner : BlockOwner) (different : owner ≠ .handle place) :
      Function.update blocks (.handle place) addrs owner = blocks owner :=
    Function.update_of_ne different _ _
  refine ⟨owns, mirrors.tables, fun index opened found idx => ?_, fun index opened found part => ?_,
    fun index beyond => ?_, fun other => ?_⟩
  · have different : BlockOwner.slot index idx ≠ .handle place := by simp
    obtain ⟨spells, spelled⟩ := mirrors.lists index opened found idx
    rw [apart _ different]
    exact ⟨spells.frame (frame _ different), spelled.trans (items_congr (frame _ different)).symm⟩
  · have different : BlockOwner.part index part ≠ .handle place := by simp
    obtain ⟨owned, held⟩ := mirrors.parts index opened found part
    rw [apart _ different]
    exact ⟨owned, (frame _ different _ (owned ▸ List.mem_cons_self)).trans held⟩
  · obtain ⟨slots, parts⟩ := mirrors.closed index beyond
    exact ⟨fun idx => (apart _ (by simp)).trans (slots idx),
      fun part => (apart _ (by simp)).trans (parts part)⟩
  · by_cases same : other = place
    · rw [same, Function.update_self]
      exact held
    · have different : BlockOwner.handle other ≠ .handle place := fun equal =>
        same (BlockOwner.handle.inj equal)
      rw [apart _ different, (others other same).1, (others other same).2]
      exact (mirrors.handles other).frame (frame _ different)

end Mirrors

end CodexNos.Kv
