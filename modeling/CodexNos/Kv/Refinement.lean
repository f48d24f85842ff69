import CodexNos.Kv.Table
import CodexNos.Lib.BoundedMap

/-!
# The table refines a bounded finite map

The representation invariant says that the chains and the stack of unused slots share out the pool,
that every key is in the chain of its own bucket and only there, and that the counters agree.
Every call keeps it.  Under it the calls behave as the operations of a finite map with room for
`capacity` keys, whatever the hash function.
-/

namespace CodexNos.Kv

open Lib

variable {K : Type*}

namespace Table

/-! ## Field updates -/

@[simp]
theorem nextIdx_setEntry (table : Table K) (idx : Nat) (entry : Entry K) :
    (table.setEntry idx entry).nextIdx = Function.update table.nextIdx idx entry.nextIdx := by
  funext other
  by_cases same : other = idx
  · simp [nextIdx, setEntry, same]
  · simp [nextIdx, setEntry, same]

@[simp]
theorem key_setEntry (table : Table K) (idx : Nat) (entry : Entry K) :
    (table.setEntry idx entry).key = Function.update table.key idx entry.key := by
  funext other
  by_cases same : other = idx
  · simp [key, setEntry, same]
  · simp [key, setEntry, same]

@[simp]
theorem free_setEntry (table : Table K) (idx : Nat) (entry : Entry K) :
    (table.setEntry idx entry).free = table.free := rfl

theorem contents_setEntry (table : Table K) (idx : Nat) (entry : Entry K) :
    (table.setEntry idx entry).contents =
      Function.update table.contents idx (entry.value.take entry.valLen) := by
  funext other
  by_cases same : other = idx
  · simp [contents, setEntry, same]
  · simp [contents, setEntry, same]

theorem free_eq_append {table : Table K} (room : 0 ≤ table.freeTop) :
    table.free =
      (List.range table.freeTop.toNat).map table.freeStack ++
        [table.freeStack table.freeTop.toNat] := by
  have size : (table.freeTop + 1).toNat = table.freeTop.toNat + 1 := by omega
  rw [free, size, List.range_succ, List.map_append, List.map_singleton]

theorem map_freeStack_push {table : Table K} (top : -1 ≤ table.freeTop) (idx : Nat) :
    (List.range (table.freeTop + 1 + 1).toNat).map
        (Function.update table.freeStack (table.freeTop + 1).toNat idx) =
      table.free ++ [idx] := by
  have size : (table.freeTop + 1 + 1).toNat = (table.freeTop + 1).toNat + 1 := by omega
  rw [free, size, List.range_succ, List.map_append, List.map_singleton, Function.update_self]
  congr 1
  refine List.map_congr_left ?_
  intro place inside
  have below : place ≠ (table.freeTop + 1).toNat := by
    have := List.mem_range.mp inside
    omega
  exact Function.update_of_ne below _ _

/-! ## Insertion and removal of a slot -/

theorem nextIdx_insertSlot (table : Table K) (bucket : Nat) (key : K) (val : Option (List UInt8))
    (valLen : Nat) :
    (table.insertSlot bucket key val valLen).nextIdx =
      Function.update table.nextIdx (table.freeStack table.freeTop.toNat)
        (table.buckets bucket).firstIdx :=
  table.nextIdx_setEntry _ _

theorem key_insertSlot (table : Table K) (bucket : Nat) (key : K) (val : Option (List UInt8))
    (valLen : Nat) :
    (table.insertSlot bucket key val valLen).key =
      Function.update table.key (table.freeStack table.freeTop.toNat) key :=
  table.key_setEntry _ _

theorem contents_insertSlot (table : Table K) (bucket : Nat) (key : K)
    (val : Option (List UInt8)) (valLen : Nat) :
    (table.insertSlot bucket key val valLen).contents =
      Function.update table.contents (table.freeStack table.freeTop.toNat)
        ((storeValue (table.pool (table.freeStack table.freeTop.toNat)).value val valLen).take
          valLen) :=
  table.contents_setEntry _ _

theorem free_insertSlot {table : Table K} (room : 0 ≤ table.freeTop) (bucket : Nat) (key : K)
    (val : Option (List UInt8)) (valLen : Nat) :
    table.free =
      (table.insertSlot bucket key val valLen).free ++ [table.freeStack table.freeTop.toNat] := by
  have size : (table.freeTop - 1 + 1).toNat = table.freeTop.toNat := by omega
  rw [free_eq_append room]
  simp only [free, insertSlot, setFirst, setEntry, size]

theorem nextIdx_relink (table : Table K) (bucket : Nat) (prev : Option Nat) (idx : Nat) :
    (table.relink bucket prev (table.nextIdx idx)).nextIdx =
      Chain.redirect table.nextIdx prev idx := by
  cases prev with
  | none => rfl
  | some prevIdx => exact table.nextIdx_setEntry _ _

/-- The chain starts after the link before a slot was written. -/
theorem firstIdx_relink (table : Table K) (bucket : Nat) (prev next : Option Nat) (other : Nat) :
    ((table.relink bucket prev next).buckets other).firstIdx =
      if other = bucket ∧ prev = none then next else (table.buckets other).firstIdx := by
  cases prev with
  | none =>
      by_cases same : other = bucket
      · simp [relink, setFirst, same]
      · simp [relink, setFirst, same]
  | some prevIdx => simp [relink, setNext, setEntry]

/-- Writing the link before a slot changes no more of a slot than its link. -/
theorem pool_relink (table : Table K) (bucket : Nat) (prev next : Option Nat) (other : Nat) :
    ∃ link, (table.relink bucket prev next).pool other =
      { table.pool other with nextIdx := link } := by
  cases prev with
  | none => exact ⟨(table.pool other).nextIdx, rfl⟩
  | some prevIdx =>
      by_cases before : other = prevIdx
      · exact ⟨next, by simp [relink, setNext, setEntry, before]⟩
      · exact ⟨(table.pool other).nextIdx, by simp [relink, setNext, setEntry, before]⟩

theorem relink_counters (table : Table K) (bucket : Nat) (prev next : Option Nat) :
    (table.relink bucket prev next).freeTop = table.freeTop ∧
      (table.relink bucket prev next).freeStack = table.freeStack ∧
      (table.relink bucket prev next).usedCount = table.usedCount := by
  cases prev with
  | none => exact ⟨rfl, rfl, rfl⟩
  | some prevIdx => exact ⟨rfl, rfl, rfl⟩

theorem nextIdx_unlinkSlot (table : Table K) (bucket : Nat) (prev : Option Nat) (idx : Nat) :
    (table.unlinkSlot bucket prev idx).nextIdx = Chain.redirect table.nextIdx prev idx := by
  refine (nextIdx_setEntry (table.relink bucket prev (table.nextIdx idx)) idx _).trans ?_
  exact (Function.update_eq_self _ _).trans (table.nextIdx_relink bucket prev idx)

theorem firstIdx_unlinkSlot (table : Table K) (bucket : Nat) (prev : Option Nat) (idx other : Nat) :
    ((table.unlinkSlot bucket prev idx).buckets other).firstIdx =
      if other = bucket ∧ prev = none then table.nextIdx idx
      else (table.buckets other).firstIdx :=
  table.firstIdx_relink bucket prev (table.nextIdx idx) other

theorem pool_unlinkSlot (table : Table K) (bucket : Nat) (prev : Option Nat) (idx other : Nat) :
    ∃ link subs, (table.unlinkSlot bucket prev idx).pool other =
      { table.pool other with nextIdx := link, subList := subs } := by
  obtain ⟨link, changed⟩ := table.pool_relink bucket prev (table.nextIdx idx) other
  by_cases same : other = idx
  · subst same
    exact ⟨link, [], by simp [unlinkSlot, setEntry, changed]⟩
  · exact ⟨link, (table.pool other).subList, by simp [unlinkSlot, setEntry, same, changed]⟩

theorem key_unlinkSlot (table : Table K) (bucket : Nat) (prev : Option Nat) (idx : Nat) :
    (table.unlinkSlot bucket prev idx).key = table.key := by
  funext other
  obtain ⟨next, subs, changed⟩ := table.pool_unlinkSlot bucket prev idx other
  simp [key, changed]

theorem contents_unlinkSlot (table : Table K) (bucket : Nat) (prev : Option Nat) (idx : Nat) :
    (table.unlinkSlot bucket prev idx).contents = table.contents := by
  funext other
  obtain ⟨next, subs, changed⟩ := table.pool_unlinkSlot bucket prev idx other
  simp [contents, changed]

theorem free_unlinkSlot {table : Table K} (top : -1 ≤ table.freeTop) (bucket : Nat)
    (prev : Option Nat) (idx : Nat) :
    (table.unlinkSlot bucket prev idx).free = table.free ++ [idx] :=
  map_freeStack_push top idx

/-! ## Read locks -/

theorem readers_setReaders (table : Table K) (bucket readers other : Nat) :
    ((table.setReaders bucket readers).buckets other).readers =
      if other = bucket then readers else (table.buckets other).readers := by
  by_cases same : other = bucket
  · simp [setReaders, same]
  · simp [setReaders, same]

theorem readers_insertSlot (table : Table K) (bucket : Nat) (key : K) (val : Option (List UInt8))
    (valLen other : Nat) : ((table.insertSlot bucket key val valLen).buckets other).readers =
      (table.buckets other).readers := by
  by_cases same : other = bucket
  · simp [insertSlot, setFirst, setEntry, same]
  · simp [insertSlot, setFirst, setEntry, same]

theorem readers_unlinkSlot (table : Table K) (bucket : Nat) (prev : Option Nat) (idx other : Nat) :
    ((table.unlinkSlot bucket prev idx).buckets other).readers = (table.buckets other).readers := by
  cases prev with
  | none =>
      by_cases same : other = bucket
      · simp [unlinkSlot, relink, setFirst, setEntry, same]
      · simp [unlinkSlot, relink, setFirst, setEntry, same]
  | some prevIdx => rfl

end Table

/-- What is left of a list without repetitions when one member is cut out. -/
theorem mem_append_iff_of_nodup {front back : List Nat} {idx node : Nat}
    (distinct : (front ++ idx :: back).Nodup) :
    node ∈ front ++ back ↔ node ≠ idx ∧ node ∈ front ++ idx :: back := by
  have apart : idx ∉ front ++ back := by
    rw [List.nodup_middle] at distinct
    exact (List.nodup_cons.mp distinct).1
  constructor
  · intro member
    refine ⟨?_, List.mem_append.mpr ((List.mem_append.mp member).imp_right ?_)⟩
    · rintro rfl
      exact apart member
    · exact List.mem_cons_of_mem idx
  · rintro ⟨different, member⟩
    simpa [different] using member

/-! ## The representation invariant -/

/-- The chains, the stack of unused slots and the counters of a table fit together. -/
structure Wf (schema : Schema K) (table : Table K) (chains : Nat → List Nat) : Prop where
  /-- Following the links of a bucket visits its chain and ends. -/
  linked : ∀ bucket, Chain.Linked table.nextIdx (table.buckets bucket).firstIdx (chains bucket)
  /-- A key is only in the chain of its own bucket. -/
  hashed : ∀ bucket, ∀ idx ∈ chains bucket, schema.bucketOf (table.key idx) = bucket
  /-- A key is in its chain only once. -/
  once : ∀ bucket, ∀ idx ∈ chains bucket, ∀ other ∈ chains bucket,
    table.key idx = table.key other → idx = other
  /-- Chained slots are in the pool. -/
  inside : ∀ bucket, ∀ idx ∈ chains bucket, idx < schema.capacity
  /-- Unused slots are in the pool. -/
  free_inside : ∀ idx ∈ table.free, idx < schema.capacity
  /-- The stack holds a slot at most once. -/
  free_nodup : table.free.Nodup
  /-- A slot is chained or on the stack, and never both. -/
  partition : ∀ idx < schema.capacity, (∃ bucket, idx ∈ chains bucket) ↔ idx ∉ table.free
  /-- The stack is not popped below its bottom. -/
  top : -1 ≤ table.freeTop
  /-- The counter agrees with the stack. -/
  used : (table.usedCount : Int) = schema.capacity - (table.freeTop + 1)

namespace Wf

variable {schema : Schema K} {table : Table K} {chains : Nat → List Nat}

theorem not_free (wf : Wf schema table chains) {bucket idx : Nat} (member : idx ∈ chains bucket) :
    idx ∉ table.free :=
  (wf.partition idx (wf.inside bucket idx member)).mp ⟨bucket, member⟩

theorem bucket_unique (wf : Wf schema table chains) {bucket bucket' idx : Nat}
    (member : idx ∈ chains bucket) (member' : idx ∈ chains bucket') : bucket = bucket' :=
  (wf.hashed bucket idx member).symm.trans (wf.hashed bucket' idx member')

theorem length_le (wf : Wf schema table chains) (bucket : Nat) :
    (chains bucket).length ≤ schema.capacity := by
  have subset : chains bucket ⊆ List.range schema.capacity := fun idx member =>
    List.mem_range.mpr (wf.inside bucket idx member)
  simpa using ((wf.linked bucket).nodup.subperm subset).length_le

theorem free_length (table : Table K) : table.free.length = (table.freeTop + 1).toNat := by
  simp [Table.free]

theorem free_length_le (wf : Wf schema table chains) : table.free.length ≤ schema.capacity := by
  have subset : table.free ⊆ List.range schema.capacity := fun idx member =>
    List.mem_range.mpr (wf.free_inside idx member)
  simpa using (wf.free_nodup.subperm subset).length_le

/-- Changing a slot apart from its key and its link keeps the invariant. -/
theorem setEntry (wf : Wf schema table chains) {idx : Nat} {entry : Entry K}
    (same_next : entry.nextIdx = table.nextIdx idx) (same_key : entry.key = table.key idx) :
    Wf schema (table.setEntry idx entry) chains := by
  have next_eq : (table.setEntry idx entry).nextIdx = table.nextIdx := by
    rw [Table.nextIdx_setEntry, same_next, Function.update_eq_self]
  have key_eq : (table.setEntry idx entry).key = table.key := by
    rw [Table.key_setEntry, same_key, Function.update_eq_self]
  refine ⟨?_, ?_, ?_, wf.inside, wf.free_inside, wf.free_nodup, wf.partition, wf.top, wf.used⟩
  · rw [next_eq]
    exact wf.linked
  · rw [key_eq]
    exact wf.hashed
  · rw [key_eq]
    exact wf.once

theorem setReaders (wf : Wf schema table chains) (bucket readers : Nat) :
    Wf schema (table.setReaders bucket readers) chains := by
  have first_eq (other : Nat) : ((table.setReaders bucket readers).buckets other).firstIdx =
      (table.buckets other).firstIdx := by
    by_cases same : other = bucket
    · simp [Table.setReaders, same]
    · simp [Table.setReaders, same]
  refine ⟨?_, wf.hashed, wf.once, wf.inside, wf.free_inside, wf.free_nodup, wf.partition, wf.top,
    wf.used⟩
  intro other
  rw [first_eq]
  exact wf.linked other

/-- Members of the chains after a slot was put in front of one of them. -/
theorem mem_push_iff {bucket newIdx other idx : Nat} :
    idx ∈ Function.update chains bucket (newIdx :: chains bucket) other ↔
      other = bucket ∧ idx = newIdx ∨ idx ∈ chains other := by
  by_cases same : other = bucket
  · subst same
    simp
  · simp [same]

/-- The slot on top of the stack, put at the front of the chain of a new key. -/
theorem insertSlot (wf : Wf schema table chains) {key : K} (room : 0 ≤ table.freeTop)
    (absent : ∀ idx ∈ chains (schema.bucketOf key), table.key idx ≠ key)
    (val : Option (List UInt8)) (valLen : Nat) :
    Wf schema (table.insertSlot (schema.bucketOf key) key val valLen)
      (Function.update chains (schema.bucketOf key)
        (table.freeStack table.freeTop.toNat :: chains (schema.bucketOf key))) := by
  have next_eq := table.nextIdx_insertSlot (schema.bucketOf key) key val valLen
  have key_eq := table.key_insertSlot (schema.bucketOf key) key val valLen
  have free_eq := Table.free_insertSlot room (schema.bucketOf key) key val valLen
  have first_eq : (table.insertSlot (schema.bucketOf key) key val valLen).buckets =
      Function.update table.buckets (schema.bucketOf key)
        { table.buckets (schema.bucketOf key) with
          firstIdx := some (table.freeStack table.freeTop.toNat) } := rfl
  have top_eq : (table.insertSlot (schema.bucketOf key) key val valLen).freeTop =
      table.freeTop - 1 := rfl
  have used_eq : (table.insertSlot (schema.bucketOf key) key val valLen).usedCount =
      uint32Inc table.usedCount := rfl
  simp only [uint32Inc] at used_eq
  generalize table.insertSlot (schema.bucketOf key) key val valLen = after at *
  generalize table.freeStack table.freeTop.toNat = newIdx at *
  generalize hash_eq : schema.bucketOf key = bucket at *
  have popped : newIdx ∈ table.free := by simp [free_eq]
  have fresh {other idx : Nat} (member : idx ∈ chains other) : idx ≠ newIdx := by
    rintro rfl
    exact wf.not_free member popped
  have old_linked (other : Nat) :
      Chain.Linked after.nextIdx (table.buckets other).firstIdx (chains other) := by
    refine (wf.linked other).congr ?_
    intro idx member
    rw [next_eq, Function.update_of_ne (fresh member)]
  have old_key {other idx : Nat} (member : idx ∈ chains other) : after.key idx = table.key idx := by
    rw [key_eq, Function.update_of_ne (fresh member)]
  have new_key : after.key newIdx = key := by rw [key_eq, Function.update_self]
  have nodup : (after.free ++ [newIdx]).Nodup := free_eq ▸ wf.free_nodup
  refine ⟨?_, ?_, ?_, ?_, ?_, ?_, ?_, ?_, ?_⟩
  · intro other
    by_cases same : other = bucket
    · subst same
      rw [first_eq, Function.update_self, Function.update_self]
      refine ⟨rfl, ?_⟩
      rw [next_eq, Function.update_self, ← next_eq]
      exact old_linked other
    · rw [first_eq, Function.update_of_ne same, Function.update_of_ne same]
      exact old_linked other
  · intro other idx member
    obtain ⟨rfl, rfl⟩ | old := mem_push_iff.mp member
    · rw [new_key, hash_eq]
    · rw [old_key old]
      exact wf.hashed other idx old
  · intro other idx member idx' member' same
    obtain ⟨rfl, rfl⟩ | old := mem_push_iff.mp member
    · obtain ⟨_, rfl⟩ | old' := mem_push_iff.mp member'
      · rfl
      · rw [new_key, old_key old'] at same
        exact absurd same.symm (absent idx' old')
    · obtain ⟨rfl, rfl⟩ | old' := mem_push_iff.mp member'
      · rw [new_key, old_key old] at same
        exact absurd same (absent idx old)
      · rw [old_key old, old_key old'] at same
        exact wf.once other idx old idx' old' same
  · intro other idx member
    obtain ⟨_, rfl⟩ | old := mem_push_iff.mp member
    · exact wf.free_inside idx popped
    · exact wf.inside other idx old
  · intro idx member
    exact wf.free_inside idx (by simp [free_eq, member])
  · exact (List.nodup_append.mp nodup).1
  · intro idx inside
    have was := wf.partition idx inside
    have unpushed : newIdx ∉ after.free := by
      intro again
      exact (List.nodup_append.mp nodup).2.2 newIdx again newIdx (by simp) rfl
    constructor
    · rintro ⟨other, member⟩
      obtain ⟨_, rfl⟩ | old := mem_push_iff.mp member
      · exact unpushed
      · intro unused
        exact wf.not_free old (by simp [free_eq, unused])
    · intro unused
      by_cases same : idx = newIdx
      · exact ⟨bucket, mem_push_iff.mpr (Or.inl ⟨rfl, same⟩)⟩
      · obtain ⟨other, member⟩ := was.mpr (by simp [free_eq, unused, same])
        exact ⟨other, mem_push_iff.mpr (Or.inr member)⟩
  · omega
  · have := wf.used
    have := schema.capacity_lt
    omega

theorem linked_unlinkSlot (wf : Wf schema table chains) {bucket idx : Nat} {front back : List Nat}
    (split : chains bucket = front ++ idx :: back) (other : Nat) :
    Chain.Linked (table.unlinkSlot bucket front.getLast? idx).nextIdx
      ((table.unlinkSlot bucket front.getLast? idx).buckets other).firstIdx
      (Function.update chains bucket (front ++ back) other) := by
  rw [Table.nextIdx_unlinkSlot, Table.firstIdx_unlinkSlot]
  by_cases same : other = bucket
  · subst same
    have linked := wf.linked other
    rw [split] at linked
    simpa only [true_and, Function.update_self] using linked.unlink
  · have first_eq : (if other = bucket ∧ front.getLast? = none then table.nextIdx idx
        else (table.buckets other).firstIdx) = (table.buckets other).firstIdx := by simp [same]
    rw [first_eq, Function.update_of_ne same]
    refine (wf.linked other).congr_redirect ?_
    intro node member last
    have before : node ∈ chains bucket := by
      rw [split]
      exact List.mem_append_left _ (List.mem_of_getLast? last)
    exact same (wf.bucket_unique member before)

/-- Members of the chains after a slot was taken off one of them. -/
theorem mem_unlink_iff (wf : Wf schema table chains) {bucket idx : Nat} {front back : List Nat}
    (split : chains bucket = front ++ idx :: back) {other node : Nat} :
    node ∈ Function.update chains bucket (front ++ back) other ↔
      node ∈ chains other ∧ node ≠ idx := by
  by_cases same : other = bucket
  · subst same
    rw [Function.update_self, split]
    exact (mem_append_iff_of_nodup (split ▸ (wf.linked other).nodup)).trans and_comm
  · rw [Function.update_of_ne same]
    refine ⟨fun member => ⟨member, ?_⟩, fun member => member.1⟩
    rintro rfl
    exact same (wf.bucket_unique member (split ▸ by simp))

theorem unlinkSlot (wf : Wf schema table chains) {bucket idx : Nat} {front back : List Nat}
    (split : chains bucket = front ++ idx :: back) :
    Wf schema (table.unlinkSlot bucket front.getLast? idx)
      (Function.update chains bucket (front ++ back)) := by
  have linked' := wf.linked_unlinkSlot split
  have key_eq := table.key_unlinkSlot bucket front.getLast? idx
  have free_eq := Table.free_unlinkSlot wf.top bucket front.getLast? idx
  have top_eq : (table.unlinkSlot bucket front.getLast? idx).freeTop = table.freeTop + 1 := rfl
  have used_eq : (table.unlinkSlot bucket front.getLast? idx).usedCount =
      uint32Dec table.usedCount := rfl
  simp only [uint32Dec] at used_eq
  generalize table.unlinkSlot bucket front.getLast? idx = after at *
  have chained : idx ∈ chains bucket := by simp [split]
  have member_iff {other node : Nat} :
      node ∈ Function.update chains bucket (front ++ back) other ↔ _ :=
    wf.mem_unlink_iff split
  refine ⟨linked', ?_, ?_, ?_, ?_, ?_, ?_, ?_, ?_⟩
  · intro other node member
    rw [key_eq]
    exact wf.hashed other node (member_iff.mp member).1
  · intro other node member node' member'
    rw [key_eq]
    exact wf.once other node (member_iff.mp member).1 node' (member_iff.mp member').1
  · intro other node member
    exact wf.inside other node (member_iff.mp member).1
  · intro node member
    rw [free_eq] at member
    cases List.mem_append.mp member with
    | inl old => exact wf.free_inside node old
    | inr pushed =>
        obtain rfl := List.mem_singleton.mp pushed
        exact wf.inside bucket node chained
  · rw [free_eq]
    refine List.nodup_append.mpr ⟨wf.free_nodup, List.nodup_singleton _, ?_⟩
    intro node old node' pushed
    obtain rfl := List.mem_singleton.mp pushed
    rintro rfl
    exact wf.not_free chained old
  · intro node inside
    have was := wf.partition node inside
    simp only [member_iff, free_eq, List.mem_append, List.mem_singleton, not_or, exists_and_right,
      was]
  · have := wf.top
    omega
  · have := wf.used
    have := wf.top
    have := schema.capacity_lt
    have occupied : table.free.length < schema.capacity := by
      have subset : idx :: table.free ⊆ List.range schema.capacity := by
        intro node member
        cases List.mem_cons.mp member with
        | inl same => exact same ▸ List.mem_range.mpr (wf.inside bucket idx chained)
        | inr old => exact List.mem_range.mpr (wf.free_inside node old)
      have nodup : (idx :: table.free).Nodup :=
        List.nodup_cons.mpr ⟨wf.not_free chained, wf.free_nodup⟩
      simpa using (nodup.subperm subset).length_le
    rw [free_length] at occupied
    split at used_eq <;> omega

end Wf

/-! ## The locks of pointers -/

/-- The locks of the buckets are those of a list of pointers, each given by its bucket. -/
def Locked (table : Table K) (held : List Nat) : Prop :=
  ∀ bucket, (table.buckets bucket).readers = held.count bucket

theorem Locked.readers_eq_zero_iff {table : Table K} {held : List Nat} (locked : Locked table held)
    {bucket : Nat} : (table.buckets bucket).readers = 0 ↔ bucket ∉ held := by
  rw [locked bucket, List.count_eq_zero]

theorem Locked.cons {table : Table K} {held : List Nat} (locked : Locked table held)
    (bucket : Nat) :
    Locked (table.setReaders bucket ((table.buckets bucket).readers + 1)) (bucket :: held) := by
  intro other
  rw [Table.readers_setReaders, locked bucket, locked other, List.count_cons]
  by_cases same : other = bucket
  · simp [same]
  · simp [same, Ne.symm same]

theorem Locked.erase {table : Table K} {held : List Nat} (locked : Locked table held)
    (bucket : Nat) :
    Locked (table.setReaders bucket ((table.buckets bucket).readers - 1)) (held.erase bucket) := by
  intro other
  rw [Table.readers_setReaders, locked bucket, locked other, List.count_erase]
  by_cases same : other = bucket
  · simp [same]
  · simp [same, Ne.symm same]

theorem locked_create (schema : Schema K) : Locked (nosKvTableCreate schema) [] := fun _ => rfl

/-! ## The abstract map -/

variable [DecidableEq K]

/-- Slot of a key in its chain. -/
def slotOf (schema : Schema K) (table : Table K) (chains : Nat → List Nat) (key : K) : Option Nat :=
  (chains (schema.bucketOf key)).find? (table.hasKey key)

/-- The table holds exactly the pairs of the map. -/
structure Represents (schema : Schema K) (table : Table K)
    (M : BoundedMap K (List UInt8) schema.capacity) (chains : Nat → List Nat) : Prop where
  /-- The representation invariant. -/
  wf : Wf schema table chains
  /-- Value areas have their full size. -/
  area : ∀ idx, (table.pool idx).value.length = schema.maxValSize
  /-- The valid bytes are in the area. -/
  valid : ∀ idx, (table.pool idx).valLen ≤ schema.maxValSize
  /-- The value of a key is in its slot. -/
  lookup : ∀ key, M.lookup key = (slotOf schema table chains key).map table.contents

namespace Wf

variable {schema : Schema K} {table : Table K} {chains : Nat → List Nat}

theorem slotOf_eq_some_iff (wf : Wf schema table chains) {key : K} {idx : Nat} :
    slotOf schema table chains key = some idx ↔
      (∃ bucket, idx ∈ chains bucket) ∧ table.key idx = key := by
  constructor
  · intro found
    have member := List.mem_of_find?_eq_some found
    have same := List.find?_some found
    exact ⟨⟨_, member⟩, by simpa [Table.hasKey] using same⟩
  · rintro ⟨⟨bucket, member⟩, rfl⟩
    have own := wf.hashed bucket idx member
    subst own
    cases found : slotOf schema table chains (table.key idx) with
    | none =>
        have absent := List.find?_eq_none.mp found idx member
        simp [Table.hasKey] at absent
    | some other =>
        have member' := List.mem_of_find?_eq_some found
        have same := List.find?_some found
        rw [wf.once _ idx member other member' (by simpa [Table.hasKey, eq_comm] using same)]

theorem slotOf_insertSlot (wf : Wf schema table chains) {key : K} (room : 0 ≤ table.freeTop)
    (absent : ∀ idx ∈ chains (schema.bucketOf key), table.key idx ≠ key)
    (val : Option (List UInt8)) (valLen : Nat) (other : K) :
    slotOf schema (table.insertSlot (schema.bucketOf key) key val valLen)
        (Function.update chains (schema.bucketOf key)
          (table.freeStack table.freeTop.toNat :: chains (schema.bucketOf key))) other =
      if other = key then some (table.freeStack table.freeTop.toNat)
      else slotOf schema table chains other := by
  have popped : table.freeStack table.freeTop.toNat ∈ table.free := by
    simp [Table.free_eq_append room]
  have wf' := wf.insertSlot room absent val valLen
  have key_eq := table.key_insertSlot (schema.bucketOf key) key val valLen
  split
  · rename_i same
    refine wf'.slotOf_eq_some_iff.mpr ⟨⟨_, mem_push_iff.mpr (Or.inl ⟨rfl, rfl⟩)⟩, ?_⟩
    rw [key_eq, Function.update_self, same]
  · rename_i different
    ext idx
    rw [wf'.slotOf_eq_some_iff, wf.slotOf_eq_some_iff, key_eq]
    simp only [mem_push_iff]
    by_cases new : idx = table.freeStack table.freeTop.toNat
    · subst new
      have unchained : ¬ ∃ bucket, table.freeStack table.freeTop.toNat ∈ chains bucket := by
        rintro ⟨bucket, member⟩
        exact wf.not_free member popped
      simp [unchained, Ne.symm different]
    · simp [new]

theorem slotOf_unlinkSlot (wf : Wf schema table chains) {key : K} {idx : Nat}
    {front back : List Nat}
    (split : chains (schema.bucketOf key) = front ++ idx :: back) (same_key : table.key idx = key)
    (other : K) :
    slotOf schema (table.unlinkSlot (schema.bucketOf key) front.getLast? idx)
        (Function.update chains (schema.bucketOf key) (front ++ back)) other =
      if other = key then none else slotOf schema table chains other := by
  have wf' := wf.unlinkSlot split
  have key_eq := table.key_unlinkSlot (schema.bucketOf key) front.getLast? idx
  have found : slotOf schema table chains key = some idx :=
    wf.slotOf_eq_some_iff.mpr ⟨⟨schema.bucketOf key, by simp [split]⟩, same_key⟩
  ext node
  rw [wf'.slotOf_eq_some_iff, key_eq]
  simp only [wf.mem_unlink_iff split, exists_and_right, and_assoc]
  split
  · rename_i same
    subst same
    simp only [reduceCtorEq, iff_false, not_and]
    intro chained different again
    have found' := wf.slotOf_eq_some_iff.mpr ⟨chained, again⟩
    exact different (Option.some.inj (found'.symm.trans found))
  · rename_i different
    rw [wf.slotOf_eq_some_iff]
    refine and_congr_right fun _ => and_iff_right_of_imp ?_
    rintro again rfl
    exact different (again.symm.trans same_key)

theorem findSlot_eq (wf : Wf schema table chains) (key : K) :
    table.findSlot schema key = some (slotOf schema table chains key) :=
  (wf.linked _).search_eq (wf.length_le _)

end Wf

namespace Represents

variable {schema : Schema K} {table : Table K} {M : BoundedMap K (List UInt8) schema.capacity}
  {chains : Nat → List Nat}

theorem contents_length (represents : Represents schema table M chains) (idx : Nat) :
    (table.contents idx).length = (table.pool idx).valLen := by
  rw [Table.contents, List.length_take, represents.area]
  exact min_eq_left (represents.valid idx)

theorem keys_eq (represents : Represents schema table M chains) :
    M.map.keys = (Finset.range schema.capacity \ table.free.toFinset).image table.key := by
  have wf := represents.wf
  ext key
  rw [M.mem_keys_iff, represents.lookup, Option.isSome_map, Finset.mem_image]
  constructor
  · intro present
    obtain ⟨idx, found⟩ := Option.isSome_iff_exists.mp present
    obtain ⟨⟨bucket, member⟩, same⟩ := wf.slotOf_eq_some_iff.mp found
    exact ⟨idx, by simpa using ⟨wf.inside bucket idx member, wf.not_free member⟩, same⟩
  · rintro ⟨idx, used, same⟩
    obtain ⟨inside, unused⟩ : idx < schema.capacity ∧ idx ∉ table.free := by simpa using used
    rw [wf.slotOf_eq_some_iff.mpr ⟨(wf.partition idx inside).mpr unused, same⟩]
    rfl

theorem card_eq (represents : Represents schema table M chains) :
    M.card = schema.capacity - table.free.length := by
  have wf := represents.wf
  have subset : table.free.toFinset ⊆ Finset.range schema.capacity := by
    intro idx member
    exact Finset.mem_range.mpr (wf.free_inside idx (List.mem_toFinset.mp member))
  have injective : Set.InjOn table.key
      (Finset.range schema.capacity \ table.free.toFinset : Finset Nat) := by
    intro idx used idx' used' same
    obtain ⟨inside, unused⟩ : idx < schema.capacity ∧ idx ∉ table.free := by simpa using used
    obtain ⟨inside', unused'⟩ : idx' < schema.capacity ∧ idx' ∉ table.free := by simpa using used'
    have found := wf.slotOf_eq_some_iff.mpr ⟨(wf.partition idx inside).mpr unused, same⟩
    have found' := wf.slotOf_eq_some_iff.mpr ⟨(wf.partition idx' inside').mpr unused', rfl⟩
    exact Option.some.inj (found.symm.trans found')
  rw [BoundedMap.card, represents.keys_eq, Finset.card_image_of_injOn injective,
    Finset.card_sdiff_of_subset subset, Finset.card_range,
    List.toFinset_card_of_nodup wf.free_nodup]

theorem full_iff (represents : Represents schema table M chains) :
    M.card = schema.capacity ↔ table.freeTop < 0 := by
  have := represents.wf.free_length_le
  have := represents.wf.top
  rw [represents.card_eq]
  rw [Wf.free_length] at *
  omega

theorem updateSlot (represents : Represents schema table M chains) {key : K} {idx : Nat}
    (found : slotOf schema table chains key = some idx) {value : List UInt8}
    (short : value.length ≤ schema.maxValSize) {M' : BoundedMap K (List UInt8) schema.capacity}
    (inserted : M.insert? key value = some M') :
    Represents schema (table.updateSlot idx key (some value) value.length).1 M' chains := by
  have wf := represents.wf
  have same_key := (wf.slotOf_eq_some_iff.mp found).2
  set after := (table.updateSlot idx key (some value) value.length).1 with after_eq
  have pool_eq : after.pool = Function.update table.pool idx
      { table.pool idx with
        value := memcpy (table.pool idx).value value value.length
        valLen := value.length } := rfl
  have key_eq : after.key = table.key := by
    rw [after_eq, Table.updateSlot, Table.key_setEntry]
    exact Function.update_eq_self _ _
  have contents_eq : after.contents = Function.update table.contents idx value := by
    rw [after_eq, Table.updateSlot, Table.contents_setEntry]
    simp [storeValue, memcpy]
  refine ⟨wf.setEntry rfl rfl, ?_, ?_, ?_⟩
  · intro other
    have old := represents.area
    by_cases same : other = idx
    · simp [pool_eq, same, memcpy, old, short]
    · simp [pool_eq, same, old]
  · intro other
    by_cases same : other = idx
    · simpa [pool_eq, same] using short
    · simpa [pool_eq, same] using represents.valid other
  · intro other
    have slot_eq : slotOf schema after chains other = slotOf schema table chains other := by
      unfold slotOf Table.hasKey
      rw [key_eq]
    rw [BoundedMap.lookup_insert? inserted, slot_eq, contents_eq]
    split
    · rename_i same
      simp [same, found]
    · rename_i different
      rw [represents.lookup]
      cases slot : slotOf schema table chains other with
      | none => rfl
      | some idx' =>
          have apart : idx' ≠ idx := by
            rintro rfl
            exact different ((wf.slotOf_eq_some_iff.mp slot).2.symm.trans same_key)
          simp [apart]

theorem insertSlot (represents : Represents schema table M chains) {key : K}
    (absent : slotOf schema table chains key = none) (room : 0 ≤ table.freeTop)
    {value : List UInt8} (short : value.length ≤ schema.maxValSize)
    {M' : BoundedMap K (List UInt8) schema.capacity} (inserted : M.insert? key value = some M') :
    ∃ chains', Represents schema
      (table.insertSlot (schema.bucketOf key) key (some value) value.length) M' chains' := by
  have wf := represents.wf
  have no_slot : ∀ idx ∈ chains (schema.bucketOf key), table.key idx ≠ key := by
    intro idx member same
    have found := wf.slotOf_eq_some_iff.mpr ⟨⟨_, member⟩, same⟩
    simp [absent] at found
  have wf' := wf.insertSlot room no_slot (some value) value.length
  refine ⟨_, wf', ?_, ?_, ?_⟩
  · intro other
    have old := represents.area
    by_cases same : other = table.freeStack table.freeTop.toNat
    · simp [Table.insertSlot, Table.setFirst, Table.setEntry, same, storeValue, memcpy, old, short]
    · simp [Table.insertSlot, Table.setFirst, Table.setEntry, same, old]
  · intro other
    by_cases same : other = table.freeStack table.freeTop.toNat
    · simpa [Table.insertSlot, Table.setFirst, Table.setEntry, same] using short
    · simpa [Table.insertSlot, Table.setFirst, Table.setEntry, same] using represents.valid other
  · intro other
    have contents_eq :=
      table.contents_insertSlot (schema.bucketOf key) key (some value) value.length
    rw [BoundedMap.lookup_insert? inserted, wf.slotOf_insertSlot room no_slot, contents_eq]
    split
    · simp [storeValue, memcpy]
    · rw [represents.lookup]
      cases slot : slotOf schema table chains other with
      | none => rfl
      | some idx =>
          obtain ⟨⟨bucket, member⟩, _⟩ := wf.slotOf_eq_some_iff.mp slot
          have old : idx ≠ table.freeStack table.freeTop.toNat := by
            rintro rfl
            exact wf.not_free member (by simp [Table.free_eq_append room])
          simp [old]

theorem unlinkSlot (represents : Represents schema table M chains) {key : K} {idx : Nat}
    {front back : List Nat}
    (split : chains (schema.bucketOf key) = front ++ idx :: back)
    (same_key : table.key idx = key) :
    Represents schema (table.unlinkSlot (schema.bucketOf key) front.getLast? idx) (M.erase key)
      (Function.update chains (schema.bucketOf key) (front ++ back)) := by
  have wf := represents.wf
  refine ⟨wf.unlinkSlot split, ?_, ?_, ?_⟩
  · intro other
    obtain ⟨_, _, changed⟩ := table.pool_unlinkSlot (schema.bucketOf key) front.getLast? idx other
    rw [changed, represents.area]
  · intro other
    obtain ⟨_, _, changed⟩ := table.pool_unlinkSlot (schema.bucketOf key) front.getLast? idx other
    rw [changed]
    exact represents.valid other
  · intro other
    rw [BoundedMap.lookup_erase, wf.slotOf_unlinkSlot split same_key, Table.contents_unlinkSlot]
    split
    · rfl
    · exact represents.lookup other

theorem setReaders (represents : Represents schema table M chains) (bucket readers : Nat) :
    Represents schema (table.setReaders bucket readers) M chains :=
  ⟨represents.wf.setReaders bucket readers, represents.area, represents.valid, represents.lookup⟩

theorem create (schema : Schema K) :
    Represents schema (nosKvTableCreate schema) .empty fun _ => [] := by
  have free_eq : (nosKvTableCreate schema).free = List.range schema.capacity := by
    simp [Table.free, nosKvTableCreate]
  refine ⟨⟨?_, ?_, ?_, ?_, ?_, ?_, ?_, ?_, ?_⟩, ?_, ?_, ?_⟩
  · intro bucket
    rfl
  · simp
  · simp
  · simp
  · intro idx member
    rw [free_eq] at member
    exact List.mem_range.mp member
  · rw [free_eq]
    exact List.nodup_range
  · intro idx inside
    simpa [free_eq] using inside
  · simp only [nosKvTableCreate]
    omega
  · simp [nosKvTableCreate]
  · intro idx
    simp [nosKvTableCreate]
  · intro idx
    simp [nosKvTableCreate]
  · intro key
    simp [slotOf]

end Represents

/-! ## The calls refine the map operations -/

/-- The calls that a finite map understands. -/
inductive MapOp (K : Type*)
  | put (key : K) (value : List UInt8)
  | del (key : K)
  | get (key : K) (bufLen : Nat)
  | getPtr (key : K)
  | releasePtr (handle : Option Nat)
  deriving DecidableEq, Repr

/-- The call on the table. -/
def MapOp.call : MapOp K → KvOp K
  | .put key value => .put key (some value) value.length
  | .del key => .del key
  | .get key bufLen => .get key bufLen
  | .getPtr key => .getPtr key
  | .releasePtr handle => .releasePtr handle

/-- What a caller learns about the map: the status, and the bytes with their reported length. -/
abbrev Outcome := Status × Option (List UInt8 × Nat)

/-- The part of a reply that is about the map. -/
def Reply.outcome (reply : Reply K) : Outcome := (reply.status, reply.value)

/-- The abstract behaviour of a call. -/
def mapStep (schema : Schema K) (M : BoundedMap K (List UInt8) schema.capacity) :
    MapOp K → BoundedMap K (List UInt8) schema.capacity × Outcome
  | .put key value =>
      if schema.maxValSize < value.length then (M, (.err, none))
      else
        match M.insert? key value with
        | some M' => (M', (.ok, none))
        | none => (M, (.errBusy, none))
  | .del key =>
      match M.lookup key with
      | some _ => (M.erase key, (.ok, none))
      | none => (M, (.err, none))
  | .get key bufLen =>
      match M.lookup key with
      | some value => (M, (.ok, some (value.take (min bufLen value.length), value.length)))
      | none => (M, (.err, none))
  | .getPtr key =>
      match M.lookup key with
      | some value => (M, (.ok, some (value, value.length)))
      | none => (M, (.err, none))
  | .releasePtr _ => (M, (.ok, none))

/-- The abstract behaviour of a sequence of calls. -/
def mapRun (schema : Schema K) :
    BoundedMap K (List UInt8) schema.capacity → List (MapOp K) →
      BoundedMap K (List UInt8) schema.capacity × List Outcome
  | M, [] => (M, [])
  | M, op :: ops =>
      let (M', outcome) := mapStep schema M op
      let (M'', outcomes) := mapRun schema M' ops
      (M'', outcome :: outcomes)

/-! ## Pointers that the caller keeps -/

/-- The buckets of the pointers that the caller keeps, after one more call: `get_ptr` of a key in
the map adds the bucket of the key, and `release_ptr` takes one pointer of the bucket away. -/
def heldStep (schema : Schema K) (M : BoundedMap K (List UInt8) schema.capacity)
    (held : List Nat) : MapOp K → List Nat
  | .getPtr key => if (M.lookup key).isSome then schema.bucketOf key :: held else held
  | .releasePtr (some bucket) => held.erase bucket
  | _ => held

/-- The buckets of the pointers that the caller keeps, after a sequence of calls. -/
def heldRun (schema : Schema K) :
    BoundedMap K (List UInt8) schema.capacity → List Nat → List (MapOp K) → List Nat
  | _, held, [] => held
  | M, held, op :: ops => heldRun schema (mapStep schema M op).1 (heldStep schema M held op) ops

/-- The call needs a bucket alone of which the caller keeps a pointer, or it releases a pointer
that the caller does not keep. -/
def Waits (schema : Schema K) (held : List Nat) : MapOp K → Prop
  | .put key value => value.length ≤ schema.maxValSize ∧ schema.bucketOf key ∈ held
  | .del key => schema.bucketOf key ∈ held
  | .releasePtr (some bucket) => bucket ∉ held
  | .get _ _ | .getPtr _ | .releasePtr none => False

/-- The caller releases its pointers before it changes their buckets, and releases no others. -/
def Released (schema : Schema K) :
    BoundedMap K (List UInt8) schema.capacity → List Nat → List (MapOp K) → Prop
  | _, _, [] => True
  | M, held, op :: ops =>
      ¬ Waits schema held op ∧
        Released schema (mapStep schema M op).1 (heldStep schema M held op) ops

instance (schema : Schema K) (held : List Nat) (op : MapOp K) : Decidable (Waits schema held op) :=
  match op with
  | .put key value =>
      inferInstanceAs (Decidable (value.length ≤ schema.maxValSize ∧ schema.bucketOf key ∈ held))
  | .del key => inferInstanceAs (Decidable (schema.bucketOf key ∈ held))
  | .releasePtr (some bucket) => inferInstanceAs (Decidable (bucket ∉ held))
  | .get _ _ | .getPtr _ | .releasePtr none => inferInstanceAs (Decidable False)

instance decidableReleased (schema : Schema K) :
    (M : BoundedMap K (List UInt8) schema.capacity) → (held : List Nat) → (ops : List (MapOp K)) →
      Decidable (Released schema M held ops)
  | _, _, [] => inferInstanceAs (Decidable True)
  | M, held, op :: ops =>
      have := decidableReleased schema (mapStep schema M op).1 (heldStep schema M held op) ops
      inferInstanceAs (Decidable (¬ Waits schema held op ∧
        Released schema (mapStep schema M op).1 (heldStep schema M held op) ops))

theorem Released.not_waits {schema : Schema K} {op : MapOp K} {later : List (MapOp K)}
    {done : List (MapOp K)} {M : BoundedMap K (List UInt8) schema.capacity} {held : List Nat}
    (released : Released schema M held (done ++ op :: later)) :
    ¬ Waits schema (heldRun schema M held done) op := by
  induction done generalizing M held with
  | nil => exact released.1
  | cons first done ih => exact ih released.2

/-- What one call does: it returns as the map operation does and the pointers stay accounted for,
or the caller itself keeps the bucket that the call needs. -/
def StepRefines (schema : Schema K) (table : Table K)
    (M : BoundedMap K (List UInt8) schema.capacity) (held : List Nat) (op : MapOp K) : Prop :=
  (¬ Waits schema held op ∧
    ∃ table' reply chains', step schema table op.call = .ok (table', reply) ∧
      reply.outcome = (mapStep schema M op).2 ∧
      Represents schema table' (mapStep schema M op).1 chains' ∧
      Locked table' (heldStep schema M held op)) ∨
  (Waits schema held op ∧
    ∃ stuck, step schema table op.call = .error stuck ∧ stuck ≠ .diverges)

namespace Represents

variable {schema : Schema K} {table : Table K} {M : BoundedMap K (List UInt8) schema.capacity}
  {chains : Nat → List Nat} {held : List Nat}

theorem put_refines (represents : Represents schema table M chains) (locked : Locked table held)
    (key : K) (value : List UInt8) : StepRefines schema table M held (.put key value) := by
  have looked := represents.lookup key
  have full := represents.full_iff
  have fails := M.insert?_eq_none_iff key value
  have walked := represents.wf.findSlot_eq key
  have idle_iff : (table.buckets (schema.bucketOf key)).readers = 0 ↔
      schema.bucketOf key ∉ held := locked.readers_eq_zero_iff
  by_cases long : schema.maxValSize < value.length
  · refine Or.inl ⟨fun waits => absurd waits.1 (not_le.mpr long), table, .ofStatus .err, chains,
      ?_, ?_, ?_, locked⟩
    · simp [step, MapOp.call, nosKvPut, long]
    · simp [mapStep, long, Reply.outcome, Reply.ofStatus]
    · simpa [mapStep, long] using represents
  by_cases busy : (table.buckets (schema.bucketOf key)).readers ≠ 0
  · refine Or.inr ⟨⟨not_lt.mp long, not_not.mp (idle_iff.not.mp busy)⟩, .blocked, ?_, by simp⟩
    simp [step, MapOp.call, nosKvPut, long, busy]
  have free : ¬ Waits schema held (.put key value) := fun waits =>
    idle_iff.mp (not_not.mp busy) waits.2
  cases slot : slotOf schema table chains key with
  | some idx =>
      rw [slot] at looked walked
      cases inserted : M.insert? key value with
      | none => simp [(fails.mp inserted).1] at looked
      | some M' =>
          let updated := table.updateSlot idx key (some value) value.length
          refine Or.inl ⟨free, updated.1, updated.2, chains, ?_, ?_, ?_, locked⟩
          · simp only [step, MapOp.call, nosKvPut, long, busy, walked, if_false]
            rfl
          · simp [mapStep, long, inserted, Reply.outcome, Table.updateSlot, updated]
          · simpa [mapStep, long, inserted] using
              represents.updateSlot slot (not_lt.mp long) inserted
  | none =>
      rw [slot] at looked walked
      cases inserted : M.insert? key value with
      | none =>
          have empty := full.mp (fails.mp inserted).2
          refine Or.inl ⟨free, table, .ofStatus .errBusy, chains, ?_, ?_, ?_, locked⟩
          · simp only [step, MapOp.call, nosKvPut, long, busy, walked, empty, if_true, if_false]
          · simp [mapStep, long, inserted, Reply.outcome, Reply.ofStatus]
          · simpa [mapStep, long, inserted] using represents
      | some M' =>
          have room : ¬ table.freeTop < 0 := by
            intro empty
            have stuck := fails.mpr ⟨looked, full.mpr empty⟩
            simp [inserted] at stuck
          obtain ⟨chains', after⟩ :=
            represents.insertSlot slot (not_lt.mp room) (not_lt.mp long) inserted
          refine Or.inl
            ⟨free, table.insertSlot (schema.bucketOf key) key (some value) value.length,
              .ofStatus .ok, chains', ?_, ?_, ?_, ?_⟩
          · simp only [step, MapOp.call, nosKvPut, long, busy, walked, room, if_false]
          · simp [mapStep, long, inserted, Reply.outcome, Reply.ofStatus]
          · simpa [mapStep, long, inserted] using after
          · intro bucket
            rw [Table.readers_insertSlot]
            exact locked bucket

theorem del_refines (represents : Represents schema table M chains) (locked : Locked table held)
    (key : K) : StepRefines schema table M held (.del key) := by
  have wf := represents.wf
  have looked := represents.lookup key
  have linked := wf.linked (schema.bucketOf key)
  have enough := wf.length_le (schema.bucketOf key)
  have idle_iff : (table.buckets (schema.bucketOf key)).readers = 0 ↔
      schema.bucketOf key ∉ held := locked.readers_eq_zero_iff
  by_cases busy : (table.buckets (schema.bucketOf key)).readers ≠ 0
  · refine Or.inr ⟨not_not.mp (idle_iff.not.mp busy), .blocked, ?_, by simp⟩
    simp [step, MapOp.call, nosKvDel, busy]
  have free : ¬ Waits schema held (.del key) := idle_iff.mp (not_not.mp busy)
  cases slot : slotOf schema table chains key with
  | none =>
      rw [slot] at looked
      have walked := linked.searchPrev_eq_none slot enough none
      refine Or.inl ⟨free, table, .ofStatus .err, chains, ?_, ?_, ?_, locked⟩
      · simp only [step, MapOp.call, nosKvDel, busy, walked, if_false]
      · simp [mapStep, looked, Reply.outcome, Reply.ofStatus]
      · simpa [mapStep, looked] using represents
  | some idx =>
      rw [slot] at looked
      obtain ⟨passes, front, back, split, fails⟩ := List.find?_eq_some_iff_append.mp slot
      rw [split] at linked enough
      have short : front.length < schema.capacity := by
        rw [List.length_append, List.length_cons] at enough
        omega
      have walked := linked.searchPrev_eq_some passes (by simpa using fails) short none
      have same_key : table.key idx = key := by simpa [Table.hasKey] using passes
      refine Or.inl
        ⟨free, table.unlinkSlot (schema.bucketOf key) front.getLast? idx, .ofStatus .ok,
          Function.update chains (schema.bucketOf key) (front ++ back), ?_, ?_, ?_, ?_⟩
      · simp only [step, MapOp.call, nosKvDel, busy, walked, if_false, Option.or_none]
      · simp [mapStep, looked, Reply.outcome, Reply.ofStatus]
      · simpa [mapStep, looked] using represents.unlinkSlot split same_key
      · intro bucket
        rw [Table.readers_unlinkSlot]
        exact locked bucket

theorem get_refines (represents : Represents schema table M chains) (locked : Locked table held)
    (key : K) (bufLen : Nat) : StepRefines schema table M held (.get key bufLen) := by
  have looked := represents.lookup key
  have walked := represents.wf.findSlot_eq key
  cases slot : slotOf schema table chains key with
  | none =>
      rw [slot] at looked walked
      refine Or.inl ⟨id, table, .ofStatus .err, chains, ?_, ?_, ?_, locked⟩
      · simp only [step, MapOp.call, nosKvGet, walked]
      · simp [mapStep, looked, Reply.outcome, Reply.ofStatus]
      · simpa [mapStep, looked] using represents
  | some idx =>
      rw [slot] at looked walked
      have size := represents.contents_length idx
      have copied : memcpy [] (table.pool idx).value
          (if bufLen < (table.pool idx).valLen then bufLen else (table.pool idx).valLen) =
            (table.contents idx).take (min bufLen (table.contents idx).length) := by
        rw [size, memcpy, Table.contents, List.take_take, List.drop_nil, List.append_nil]
        congr 1
        split <;> omega
      let bytes := (table.contents idx).take (min bufLen (table.contents idx).length)
      refine Or.inl
        ⟨id, table, ⟨.ok, some (bytes, (table.pool idx).valLen), []⟩, chains, ?_, ?_, ?_, locked⟩
      · simp only [step, MapOp.call, nosKvGet, walked, copied]
        rfl
      · simp [mapStep, looked, Reply.outcome, size, bytes]
      · simpa [mapStep, looked] using represents

theorem getPtr_refines (represents : Represents schema table M chains) (locked : Locked table held)
    (key : K) : StepRefines schema table M held (.getPtr key) := by
  have looked := represents.lookup key
  have walked := represents.wf.findSlot_eq key
  cases slot : slotOf schema table chains key with
  | none =>
      rw [slot] at looked walked
      refine Or.inl ⟨id, table, .ofStatus .err, chains, ?_, ?_, ?_, ?_⟩
      · simp only [step, MapOp.call, nosKvGetPtr, walked]
      · simp [mapStep, looked, Reply.outcome, Reply.ofStatus]
      · simpa [mapStep, looked] using represents
      · simpa [heldStep, looked] using locked
  | some idx =>
      rw [slot] at looked walked
      have size := represents.contents_length idx
      let readers := (table.buckets (schema.bucketOf key)).readers
      refine Or.inl
        ⟨id, table.setReaders (schema.bucketOf key) (readers + 1),
          ⟨.ok, some (table.contents idx, (table.pool idx).valLen), []⟩, chains, ?_, ?_, ?_, ?_⟩
      · simp only [step, MapOp.call, nosKvGetPtr, walked]
        rfl
      · simp [mapStep, looked, Reply.outcome, size]
      · simpa [mapStep, looked] using represents.setReaders _ _
      · simpa [heldStep, looked] using locked.cons (schema.bucketOf key)

theorem releasePtr_refines (represents : Represents schema table M chains)
    (locked : Locked table held) (handle : Option Nat) :
    StepRefines schema table M held (.releasePtr handle) := by
  cases handle with
  | none => exact Or.inl ⟨id, table, .ofStatus .ok, chains, rfl, rfl, represents, locked⟩
  | some bucket =>
      by_cases idle : (table.buckets bucket).readers = 0
      · refine Or.inr ⟨locked.readers_eq_zero_iff.mp idle, .notHeld, ?_, by simp⟩
        simp [step, MapOp.call, nosKvReleasePtr, idle]
      · let readers := (table.buckets bucket).readers
        refine Or.inl ⟨locked.readers_eq_zero_iff.not.mp idle,
          table.setReaders bucket (readers - 1), .ofStatus .ok, chains, ?_, rfl,
          represents.setReaders _ _, locked.erase bucket⟩
        simp only [step, MapOp.call, nosKvReleasePtr, idle, if_false]
        rfl

theorem step_refines (represents : Represents schema table M chains) (locked : Locked table held)
    (op : MapOp K) : StepRefines schema table M held op := by
  cases op with
  | put key value => exact represents.put_refines locked key value
  | del key => exact represents.del_refines locked key
  | get key bufLen => exact represents.get_refines locked key bufLen
  | getPtr key => exact represents.getPtr_refines locked key
  | releasePtr handle => exact represents.releasePtr_refines locked handle

/-- A sequence of calls answers as the sequence of map operations does, up to the first call that
needs a bucket of which the caller keeps a pointer. -/
theorem run_refines (represents : Represents schema table M chains) (locked : Locked table held)
    (ops : List (MapOp K)) :
    (Released schema M held ops ∧
      ∃ table' replies chains',
        runOps schema table (ops.map MapOp.call) = .ok (table', replies) ∧
          replies.map Reply.outcome = (mapRun schema M ops).2 ∧
          Represents schema table' (mapRun schema M ops).1 chains') ∨
    (∃ done op later,
      ops = done ++ op :: later ∧ Released schema M held done ∧
        Waits schema (heldRun schema M held done) op ∧
        (∃ table' replies, runOps schema table (done.map MapOp.call) = .ok (table', replies)) ∧
        ∃ stuck, runOps schema table (ops.map MapOp.call) = .error stuck ∧ stuck ≠ .diverges) := by
  induction ops generalizing table M chains held with
  | nil => exact Or.inl ⟨trivial, table, [], chains, rfl, rfl, represents⟩
  | cons op ops ih =>
      obtain ⟨free, next, reply, chains', stepped, answer, after, kept⟩ |
          ⟨waits, stuck, stepped, ends⟩ := represents.step_refines locked op
      · obtain ⟨released, last, replies, chains'', executed, answers, final⟩ |
            ⟨done, op', later, split, released, waits, ⟨last, replies, executed⟩, stuck, failed,
              ends⟩ := ih after kept
        · refine Or.inl ⟨⟨free, released⟩, last, reply :: replies, chains'', ?_, ?_, ?_⟩
          · simp only [List.map_cons, runOps, stepped, executed]
          · simp only [List.map_cons, mapRun, answer, answers]
          · simpa only [mapRun] using final
        · refine Or.inr ⟨op :: done, op', later, ?_, ⟨free, released⟩, waits,
            ⟨last, reply :: replies, ?_⟩, stuck, ?_, ends⟩
          · rw [split, List.cons_append]
          · simp only [List.map_cons, runOps, stepped, executed]
          · simp only [List.map_cons, runOps, stepped, failed]
      · refine Or.inr ⟨[], op, ops, rfl, trivial, waits, ⟨table, [], rfl⟩, stuck, ?_, ends⟩
        simp only [List.map_cons, runOps, stepped]

end Represents

/-- Whatever the hash function and the calls, a table behaves as a finite map of at most `capacity`
keys, and its slots, chains and counters fit together, as long as the caller releases its pointers
before it changes their buckets.  The first call of the sequence that does not keep to that is the
first one that does not return. -/
theorem runOps_refines_boundedMap (schema : Schema K) (ops : List (MapOp K)) :
    (Released schema .empty [] ops ∧
      ∃ table replies chains,
        runOps schema (nosKvTableCreate schema) (ops.map MapOp.call) = .ok (table, replies) ∧
          replies.map Reply.outcome = (mapRun schema .empty ops).2 ∧
          Represents schema table (mapRun schema .empty ops).1 chains) ∨
    (∃ done op later,
      ops = done ++ op :: later ∧ Released schema .empty [] done ∧
        Waits schema (heldRun schema .empty [] done) op ∧
        (∃ table replies,
          runOps schema (nosKvTableCreate schema) (done.map MapOp.call) = .ok (table, replies)) ∧
        ∃ stuck, runOps schema (nosKvTableCreate schema) (ops.map MapOp.call) = .error stuck ∧
          stuck ≠ .diverges) :=
  (Represents.create schema).run_refines (locked_create schema) ops

/-- A table for numbers below a byte, with two slots of four bytes and one bucket. -/
def oneBucketSchema : Schema UInt8 where
  hash _ := 0
  zeroKey := 0
  maxValSize := 4
  capacity := 2
  bucketCount := 1
  capacity_lt := two_lt_limit

/-- A value is pointed to twice, both pointers are released, and the value is changed. -/
def putAfterRelease : List (MapOp UInt8) :=
  [.put 1 [7], .getPtr 1, .getPtr 1, .releasePtr (some 0), .releasePtr (some 0), .put 1 [8, 9],
    .get 1 4]

/-- The put after the releases returns, and a get reads what it wrote. -/
theorem putAfterRelease_returns :
    ∃ table replies,
      runOps oneBucketSchema (nosKvTableCreate oneBucketSchema)
          (putAfterRelease.map MapOp.call) = .ok (table, replies) ∧
        replies.map Reply.outcome =
          [(.ok, none), (.ok, some ([7], 1)), (.ok, some ([7], 1)), (.ok, none), (.ok, none),
            (.ok, none), (.ok, some ([8, 9], 2))] := by
  have answers : (mapRun oneBucketSchema .empty putAfterRelease).2 =
      [(.ok, none), (.ok, some ([7], 1)), (.ok, some ([7], 1)), (.ok, none), (.ok, none),
        (.ok, none), (.ok, some ([8, 9], 2))] := by decide
  have releases : Released oneBucketSchema .empty [] putAfterRelease := by decide
  obtain ⟨-, table, replies, chains, executed, same, -⟩ |
      ⟨done, op, later, split, -, waits, -⟩ :=
    runOps_refines_boundedMap oneBucketSchema putAfterRelease
  · exact ⟨table, replies, executed, same.trans answers⟩
  · rw [split] at releases
    exact absurd waits releases.not_waits

end CodexNos.Kv
