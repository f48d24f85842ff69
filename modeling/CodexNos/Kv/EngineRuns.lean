import CodexNos.Kv.EngineMemory

/-!
# Runs of the engine

Pointers, the creation of tables and `nos_kv_db_deinit` keep the blocks with their owners, and so
does every run.
-/

namespace CodexNos.Kv

open Lib Lib.Blocks

variable {K : Type*} [DecidableEq K]

/-! ## Pointers -/

/-- The engine answers as the one without memory, and keeps its blocks with their owners. -/
def Mirrored {ρ : Type*} (expected : Except Stop (PlainEngine K × ρ))
    (result : Except Stop (Engine K × ρ)) : Prop :=
  match expected with
  | .error stop => result = .error stop
  | .ok (plain, reply) =>
      ∃ engine blocks, result = .ok (engine, reply) ∧ Mirrors engine plain blocks

namespace Mirrors

variable {engine : Engine K} {plain : PlainEngine K} {blocks : BlockOwner → List Nat}
  {memory : Heap} {index : Nat} {opened : PlainTable K} {part : Part → Nat}
  {chains : Nat → List Nat} {allocator : Allocator (Block Sub Content)}

omit [DecidableEq K] in
theorem getPtr_handle (mirrors : Mirrors engine plain blocks) (handle : Option Nat)
    (lock : Option (Nat × Nat)) {addrs : List Nat}
    (held : HandleAt memory (some handle) (some lock) addrs)
    (owns : Owns memory (Function.update blocks (.handle plain.handles.length) addrs))
    (frame : ∀ owner ≠ .handle plain.handles.length, ∀ addr ∈ blocks owner,
      memory.lookup addr = engine.memory.lookup addr) :
    Mirrors { engine with memory := memory, handles := engine.handles ++ [handle] }
      { plain with handles := plain.handles ++ [lock] }
      (Function.update blocks (.handle plain.handles.length) addrs) := by
  refine mirrors.setHandles ?_ (fun other different => ⟨?_, ?_⟩) owns frame
  · rw [← mirrors.length_handles, List.getElem?_concat_length, mirrors.length_handles,
      List.getElem?_concat_length]
    exact held
  · rcases lt_or_gt_of_ne different with inside | outside
    · exact List.getElem?_append_left (mirrors.length_handles ▸ inside)
    · rw [List.getElem?_eq_none, List.getElem?_eq_none]
      · rw [mirrors.length_handles]
        exact outside.le
      · rw [List.length_append, mirrors.length_handles]
        exact outside
  · rcases lt_or_gt_of_ne different with inside | outside
    · exact List.getElem?_append_left inside
    · rw [List.getElem?_eq_none outside.le, List.getElem?_eq_none]
      rw [List.length_append]
      exact outside

theorem getPtr (mirrors : Mirrors engine plain blocks) (found : plain.tables[index]? = some opened)
    (found' : engine.tables[index]? =
      some ⟨opened.name, opened.schema, opened.table.bare, part⟩)
    (attached : Attached opened.schema opened.table chains) (key : K) :
    Mirrored (plain.call index (.getPtr key))
      (engine.nosKvGetPtr allocator index ⟨opened.name, opened.schema, opened.table.bare, part⟩
        key) := by
  have walked := attached.wf.findSlot_eq key
  have unowned : blocks (.handle plain.handles.length) = [] := by
    have held := mirrors.handles plain.handles.length
    rw [(mirrors.handles_eq_none_iff _).mpr (List.getElem?_eq_none le_rfl),
      List.getElem?_eq_none le_rfl] at held
    exact held
  simp only [PlainEngine.call, found, TableCall.kvOp, Kv.step, nosKvGetPtr, Engine.nosKvGetPtr,
    Table.bare_findSlot, walked]
  cases slotOf opened.schema opened.table chains key with
  | none =>
      have owns := mirrors.owns
      rw [← Function.update_eq_self (.handle plain.handles.length) blocks, unowned] at owns
      have after := mirrors.getPtr_handle none none rfl owns fun _ _ _ _ => rfl
      refine ⟨_, Function.update blocks (.handle plain.handles.length) [], rfl, ?_⟩
      have same : plain.tables.set index { opened with table := opened.table } = plain.tables :=
        congrArg PlainEngine.tables (same_table found)
      rw [same]
      exact after
  | some idx =>
      let bucket := opened.schema.bucketOf key
      let locked := opened.table.setReaders bucket ((opened.table.buckets bucket).readers + 1)
      have after := mirrors.setTable found found' locked fun _ => rfl
      have fresh := allocator.fresh engine.memory
      have owns := mirrors.owns.alloc fresh (.handle plain.handles.length)
        (.other (.handle index bucket))
      rw [unowned] at owns
      exact ⟨_, _, rfl, after.getPtr_handle (some _) (some (index, bucket))
        ⟨rfl, Finmap.lookup_insert _⟩ owns fun owner _ addr member =>
          Extends.alloc allocator engine.memory _ addr (mirrors.mem_of_mem member)⟩

theorem releasePtr (mirrors : Mirrors engine plain blocks) (sound : plain.Sound) (place : Nat) :
    Mirrored (plain.releasePtr place) (engine.nosKvReleasePtr place) := by
  have held := mirrors.handles place
  cases lock : plain.handles[place]? with
  | none =>
      simp only [PlainEngine.releasePtr, Engine.nosKvReleasePtr, lock,
        (mirrors.handles_eq_none_iff place).mpr lock]
      rfl
  | some lock' =>
      rw [lock] at held
      cases handle : engine.handles[place]? with
      | none =>
          rw [(mirrors.handles_eq_none_iff place).mp handle] at lock
          cases lock
      | some handle' =>
          rw [handle] at held
          rcases lock' with _ | ⟨index, bucket⟩ <;> rcases handle' with _ | addr
          · simp only [PlainEngine.releasePtr, Engine.nosKvReleasePtr, lock, handle]
            exact ⟨_, _, rfl, mirrors⟩
          · exact absurd held id
          · exact absurd held id
          · obtain ⟨owned, holds⟩ := held
            obtain ⟨opened, found, -⟩ := sound.held index bucket (List.mem_of_getElem? lock)
            obtain ⟨⟨name, schema, table, part⟩, found', rfl, rfl, rfl⟩ :=
              mirrors.exists_table found
            simp only [PlainEngine.releasePtr, Engine.nosKvReleasePtr, lock, handle, holds, found,
              found', mirrors.holdsParts found', if_true, Kv.step, Kv.nosKvReleasePtr,
              Table.bare_buckets]
            by_cases free : (opened.table.buckets bucket).readers = 0
            · simp only [free, if_true]
              rfl
            simp only [free, if_false]
            have after := mirrors.setTable found found' (opened.table.setReaders bucket
              ((opened.table.buckets bucket).readers - 1)) fun _ => rfl
            have inside : place < plain.handles.length := (List.getElem?_eq_some_iff.mp lock).1
            have inside' : place < engine.handles.length := (List.getElem?_eq_some_iff.mp handle).1
            refine ⟨_, Function.update blocks (.handle place) [], rfl, after.setHandles ?_
              (fun other different => ?_) ?_ fun owner different other member => ?_⟩
            · rw [List.getElem?_set_self inside, List.getElem?_set_self inside']
              rfl
            · exact ⟨List.getElem?_set_ne different.symm, List.getElem?_set_ne different.symm⟩
            · refine mirrors.owns.free (List.nil_sublist _) fun other => ?_
              rw [Finmap.mem_erase, owned, and_comm]
              simp
            · refine Finmap.lookup_erase_ne fun same => different ?_
              have mine : addr ∈ blocks (.handle place) := owned ▸ List.mem_cons_self
              exact mirrors.owns.apart member (same ▸ mine)

/-! ## Calls -/

omit [DecidableEq K] in
theorem follows_mirrored {expected : Except Stuck (Table K × Reply K)}
    {result : Except Stop (Engine K × Reply K)}
    (follows : Follows plain index opened expected result) :
    Mirrored
      (match expected with
        | .error cause => .error (.stuck cause)
        | .ok (table, reply) =>
            .ok
              (⟨plain.tables.set index { opened with table := table }, plain.handles ++ []⟩, reply))
      result := by
  cases expected with
  | error cause => exact follows
  | ok done =>
      rw [List.append_nil]
      exact follows

theorem call (mirrors : Mirrors engine plain blocks) (sound : plain.Sound) (index : Nat)
    (call : TableCall K) :
    Mirrored (plain.call index call) (engine.call allocator index call) := by
  cases found : plain.tables[index]? with
  | none =>
      simp only [PlainEngine.call, Engine.call, found, mirrors.not_open found]
      rfl
  | some opened =>
      obtain ⟨⟨name, schema, table, part⟩, found', rfl, rfl, rfl⟩ := mirrors.exists_table found
      obtain ⟨chains, attached⟩ := sound.attached opened (List.mem_of_getElem? found)
      simp only [PlainEngine.call, Engine.call, found, found', mirrors.holdsParts found', if_true]
      cases call with
      | getPtr key =>
          have mirrored : Mirrored (plain.call index (.getPtr key))
              (engine.nosKvGetPtr allocator index _ key) :=
            mirrors.getPtr found found' attached key
          simp only [PlainEngine.call, found] at mirrored
          exact mirrored
      | put key val valLen =>
          have follows : Follows plain index opened _
              (engine.nosKvPut allocator index _ key val valLen) :=
            mirrors.put found found' attached key val valLen
          exact follows_mirrored follows
      | get key bufLen => exact follows_mirrored (mirrors.get found attached key bufLen)
      | del key => exact follows_mirrored (mirrors.del found found' attached key)
      | subscribe key sub =>
          have follows : Follows plain index opened _ (engine.nosKvSubscribe allocator index
              ⟨opened.name, opened.schema, opened.table.bare, part⟩ key sub) :=
            mirrors.subscribe found attached key sub
          exact follows_mirrored follows
      | unsubscribe key sub =>
          have follows : Follows plain index opened _ (engine.nosKvUnsubscribe index
              ⟨opened.name, opened.schema, opened.table.bare, part⟩ key sub) :=
            mirrors.unsubscribe found attached key sub
          exact follows_mirrored follows

/-! ## Creation -/

omit [DecidableEq K] in
theorem openTable (mirrors : Mirrors engine plain blocks) {name : List UInt8} {schema : Schema K}
    {table : Table K} {blocks' : BlockOwner → List Nat} (extend : Extends engine.memory memory)
    (owns : Owns memory blocks') (bare : table.bare = table)
    (own : ∀ kind, blocks' (.part engine.tables.length kind) = [part kind] ∧
      memory.lookup (part kind) = some (.other (.part engine.tables.length kind)))
    (others : ∀ owner, (∀ kind, owner ≠ .part engine.tables.length kind) →
      blocks' owner = blocks owner) :
    Mirrors
      { engine with
        tables := engine.tables ++ [⟨name, schema, table, part⟩]
        subList := Function.update engine.subList engine.tables.length fun _ => none
        memory := memory }
      { plain with tables := plain.tables ++ [⟨name, schema, table⟩] } blocks' := by
  have kept (owner : BlockOwner) (addr : Nat) (member : addr ∈ blocks owner) :
      memory.lookup addr = engine.memory.lookup addr :=
    extend addr (mirrors.mem_of_mem member)
  have slots (index idx : Nat) : blocks' (.slot index idx) = blocks (.slot index idx) :=
    others _ fun _ => by simp
  refine ⟨owns, ?_, fun index opened found idx => ?_, fun index opened found kind => ?_,
    fun index beyond => ?_, fun place => ?_⟩
  · rw [List.map_append, List.map_append, mirrors.tables, List.map_singleton, List.map_singleton,
      PlainTable.bare, bare]
    rfl
  · rw [slots]
    dsimp only at found ⊢
    rcases lt_or_ge index plain.tables.length with inside | outside
    · rw [List.getElem?_append_left inside] at found
      obtain ⟨spells, spelled⟩ := mirrors.lists index opened found idx
      have older : index ≠ engine.tables.length := by
        rw [mirrors.length_tables]
        exact inside.ne
      rw [Function.update_of_ne older]
      exact ⟨spells.frame (kept _), spelled.trans (items_congr (kept _)).symm⟩
    · rw [List.getElem?_append_right outside, List.getElem?_singleton] at found
      split at found
      · rename_i zero
        obtain rfl := Option.some.inj found
        obtain rfl : index = engine.tables.length := by
          rw [mirrors.length_tables]
          omega
        rw [Function.update_self, (mirrors.closed _ outside).1 idx]
        refine ⟨.nil, ?_⟩
        rw [← bare]
        rfl
      · cases found
  · dsimp only at found ⊢
    rcases lt_or_ge index engine.tables.length with inside | outside
    · rw [List.getElem?_append_left inside] at found
      obtain ⟨owned, held⟩ := mirrors.parts index opened found kind
      rw [others _ fun kind' same => inside.ne (BlockOwner.part.inj same).1]
      exact ⟨owned, (kept _ _ (owned ▸ List.mem_cons_self)).trans held⟩
    · rw [List.getElem?_append_right outside, List.getElem?_singleton] at found
      split at found
      · rename_i zero
        obtain rfl := Option.some.inj found
        obtain rfl : index = engine.tables.length := by omega
        exact own kind
      · cases found
  · rw [List.length_append, List.length_singleton] at beyond
    obtain ⟨closed, parts⟩ := mirrors.closed index (by omega)
    refine ⟨fun idx => (slots index idx).trans (closed idx), fun kind => ?_⟩
    rw [others _ fun kind' same => ?_]
    · exact parts kind
    · have equal := (BlockOwner.part.inj same).1
      rw [mirrors.length_tables] at equal
      omega
  · rw [others _ fun _ => by simp]
    exact (mirrors.handles place).frame (kept _)

omit [DecidableEq K] in
theorem create (mirrors : Mirrors engine plain blocks)
    (allocator : Allocator (Block Sub Content)) (new : NewTable K) :
    ∃ blocks', Mirrors (engine.nosKvTableCreate allocator new).1 (plain.create new).1 blocks' ∧
      (engine.nosKvTableCreate allocator new).2 = (plain.create new).2 := by
  have same_search : (engine.tables.findIdx? fun opened =>
        decide (CStr.stringAt opened.name = new.name)) =
      plain.tables.findIdx? fun opened => decide (CStr.stringAt opened.name = new.name) :=
    calc
      _ = (engine.tables.map OpenTable.plain).findIdx? fun opened =>
            decide (CStr.stringAt opened.name = new.name) := by
          rw [List.findIdx?_map]
          rfl
      _ = (plain.tables.map PlainTable.bare).findIdx? fun opened =>
            decide (CStr.stringAt opened.name = new.name) := by rw [mirrors.tables]
      _ = _ := by
          rw [List.findIdx?_map]
          rfl
  have same_length := mirrors.length_tables
  unfold Engine.nosKvTableCreate PlainEngine.create
  by_cases empty : new.schema.capacity = 0
  · simp only [if_pos empty]
    exact ⟨blocks, mirrors, trivial⟩
  simp only [if_neg empty, same_search]
  cases plain.tables.findIdx? fun opened => decide (CStr.stringAt opened.name = new.name) with
  | some index => exact ⟨blocks, mirrors, rfl⟩
  | none =>
      by_cases full : maxTables ≤ engine.tables.length
      · have full' : maxTables ≤ plain.tables.length := same_length ▸ full
        simp only [if_pos full, if_pos full']
        exact ⟨blocks, mirrors, trivial⟩
      have room : ¬ maxTables ≤ plain.tables.length := same_length ▸ full
      simp only [if_neg full, if_neg room, Engine.alloc]
      -- The four blocks, each in the memory after the one before it.
      let index := engine.tables.length
      let content (kind : Part) : Block Sub Content := .other (.part index kind)
      let first := engine.memory.insert (allocator.place engine.memory) (content .table)
      let second := first.insert (allocator.place first) (content .buckets)
      let third := second.insert (allocator.place second) (content .poolMem)
      let fourth := third.insert (allocator.place third) (content .freeStack)
      have extend₁ : Extends engine.memory first := Extends.alloc allocator _ _
      have extend₂ : Extends first second := Extends.alloc allocator _ _
      have extend₃ : Extends second third := Extends.alloc allocator _ _
      have extend₄ : Extends third fourth := Extends.alloc allocator _ _
      have owns := (((mirrors.owns.alloc (allocator.fresh _) (.part index .table)
        (content .table)).alloc (allocator.fresh first) (.part index .buckets)
        (content .buckets)).alloc (allocator.fresh second) (.part index .poolMem)
        (content .poolMem)).alloc (allocator.fresh third) (.part index .freeStack)
        (content .freeStack)
      have unused := (mirrors.closed index same_length.ge).2
      have held {memory : Heap} (kind : Part) {later : Heap}
          (extend : Extends (memory.insert (allocator.place memory) (content kind)) later) :
          later.lookup (allocator.place memory) = some (content kind) :=
        (extend _ (Finmap.mem_insert.mpr (.inl rfl))).trans (Finmap.lookup_insert _)
      refine ⟨_, mirrors.openTable
        (((extend₁.trans extend₂).trans extend₃).trans extend₄) owns rfl
        (fun kind => ?_) (fun owner different => ?_), congrArg some same_length⟩
      · cases kind with
        | table =>
            refine ⟨by simp [index, unused], ?_⟩
            exact held .table ((extend₂.trans extend₃).trans extend₄)
        | buckets =>
            refine ⟨?_, held .buckets (extend₃.trans extend₄)⟩
            simp [index, unused]
            rfl
        | poolMem =>
            refine ⟨?_, held .poolMem extend₄⟩
            simp [index, unused]
            rfl
        | freeStack =>
            refine ⟨?_, Finmap.lookup_insert _⟩
            simp [index, unused]
            rfl
      · rw [Function.update_of_ne (different _), Function.update_of_ne (different _),
          Function.update_of_ne (different _), Function.update_of_ne (different _)]

end Mirrors

/-! ## The end of the engine -/

/-- A bucket of the table is locked. -/
def OpenTable.locked (opened : OpenTable K) : Bool :=
  (List.range opened.schema.bucketCount).any fun bucket => (opened.table.buckets bucket).readers ≠ 0

/-- The table whose block it is. -/
def BlockOwner.table : BlockOwner → Option Nat
  | .slot index _ => some index
  | .part index _ => some index
  | .handle _ => none

/-- The blocks of a table can be freed: its chains end, and so do the lists of its entries. -/
structure Freeable (memory : Heap) (blocks : BlockOwner → List Nat) (subList : Nat → Option Nat)
    (index : Nat) (opened : OpenTable K) (chains : Nat → List Nat) : Prop where
  linked : ∀ bucket,
    Chain.Linked opened.table.nextIdx (opened.table.buckets bucket).firstIdx (chains bucket)
  short : ∀ bucket, (chains bucket).length ≤ opened.schema.capacity
  once : ∀ {bucket other idx}, idx ∈ chains bucket → idx ∈ chains other → bucket = other
  spells : ∀ idx, Spells memory (subList idx) (blocks (.slot index idx))
  chained : ∀ idx, blocks (.slot index idx) ≠ [] →
    ∃ bucket < opened.schema.bucketCount, idx ∈ chains bucket
  parts : ∀ part, blocks (.part index part) = [opened.part part] ∧
    memory.lookup (opened.part part) = some (.other (.part index part))

/-- No block has two owners. -/
def Apart (blocks : BlockOwner → List Nat) : Prop :=
  ∀ ⦃owner other addr⦄, addr ∈ blocks owner → addr ∈ blocks other → owner = other

namespace Engine

variable {memory : Heap} {blocks : BlockOwner → List Nat} {subList : Nat → Option Nat} {index : Nat}
  {opened : OpenTable K} {chains : Nat → List Nat}

omit [DecidableEq K] in
theorem freeChain_eq {table : Table K} {lists : Nat → List Nat}
    (apart : ∀ {idx other addr}, addr ∈ lists idx → addr ∈ lists other → idx = other)
    {start : Option Nat} {chain : List Nat} (linked : Chain.Linked table.nextIdx start chain)
    {fuel : Nat} (enough : chain.length ≤ fuel)
    (spells : ∀ idx ∈ chain, Spells memory (subList idx) (lists idx)) :
    ∃ after, freeChain subList table fuel memory start = .ok after ∧
      Erased memory (chain.flatMap lists) after := by
  induction chain generalizing start fuel memory with
  | nil =>
      obtain rfl : start = none := linked
      exact ⟨memory, by cases fuel <;> rfl, .refl memory⟩
  | cons idx chain ih =>
      obtain ⟨absent, -⟩ := List.nodup_cons.mp linked.nodup
      obtain ⟨rfl, rest⟩ := linked
      obtain ⟨fuel, rfl⟩ := Nat.exists_eq_succ_of_ne_zero (Nat.ne_of_gt (Nat.lt_of_lt_of_le
        (Nat.succ_pos chain.length) enough))
      have here := spells idx List.mem_cons_self
      obtain ⟨between, freed, erased⟩ := here.freeAll_eq here.length_le
      have spells' (other : Nat) (member : other ∈ chain) :
          Spells between (subList other) (lists other) := by
        refine (spells other (List.mem_cons_of_mem idx member)).frame fun addr mine => ?_
        rw [erased addr, if_neg fun theirs => ?_]
        exact absent (apart theirs mine ▸ member)
      obtain ⟨after, freed', erased'⟩ := ih rest (Nat.le_of_succ_le_succ enough) spells'
      refine ⟨after, ?_, erased.trans erased'⟩
      rw [freeChain, freed]
      exact freed'

omit [DecidableEq K] in
/-- The buckets lose the lists of their entries, unless one is locked. -/
theorem freeBuckets_eq {lists : Nat → List Nat}
    (apart : ∀ {idx other addr}, addr ∈ lists idx → addr ∈ lists other → idx = other)
    (linked : ∀ bucket,
      Chain.Linked opened.table.nextIdx (opened.table.buckets bucket).firstIdx (chains bucket))
    (short : ∀ bucket, (chains bucket).length ≤ opened.schema.capacity)
    (once : ∀ {bucket other idx}, idx ∈ chains bucket → idx ∈ chains other → bucket = other)
    {buckets : List Nat} (distinct : buckets.Nodup)
    (spells : ∀ bucket ∈ buckets, ∀ idx ∈ chains bucket, Spells memory (subList idx) (lists idx)) :
    if buckets.any fun bucket => (opened.table.buckets bucket).readers ≠ 0 then
      freeBuckets subList opened buckets memory = .error (.stuck .blocked)
    else ∃ after, freeBuckets subList opened buckets memory = .ok after ∧
      Erased memory (buckets.flatMap fun bucket => (chains bucket).flatMap lists) after := by
  induction buckets generalizing memory with
  | nil => exact ⟨memory, rfl, .refl memory⟩
  | cons bucket buckets ih =>
      obtain ⟨absent, distinct'⟩ := List.nodup_cons.mp distinct
      rw [List.any_cons]
      by_cases locked : (opened.table.buckets bucket).readers ≠ 0
      · simp only [freeBuckets, if_pos locked, decide_eq_true locked, Bool.true_or, if_true]
      · obtain ⟨between, freed, erased⟩ := freeChain_eq apart (linked bucket) (short bucket)
          (spells bucket List.mem_cons_self)
        have spells' (other : Nat) (member : other ∈ buckets) (idx : Nat)
            (chained : idx ∈ chains other) : Spells between (subList idx) (lists idx) := by
          refine (spells other (List.mem_cons_of_mem bucket member) idx chained).frame
            fun addr mine => ?_
          rw [erased addr, if_neg fun theirs => ?_]
          obtain ⟨idx', chained', theirs⟩ := List.mem_flatMap.mp theirs
          have same : other = bucket := once chained (apart theirs mine ▸ chained')
          exact absent (same ▸ member)
        have rest := ih distinct' spells'
        simp only [freeBuckets, if_neg locked, decide_eq_false locked, Bool.false_or, freed]
        split
        · rename_i later
          rwa [if_pos later] at rest
        · rename_i later
          rw [if_neg later] at rest
          obtain ⟨after, freed', erased'⟩ := rest
          exact ⟨after, freed', erased.trans erased'⟩

omit [DecidableEq K] in
theorem freeParts_eq {parts : List Part} (distinct : parts.Nodup)
    (apart : Function.Injective opened.part)
    (held : ∀ part ∈ parts, memory.lookup (opened.part part) = some (.other (.part index part))) :
    ∃ after,
      parts.foldlM (fun memory part => freeBlock memory (opened.part part) (.part index part))
        memory = .ok after ∧ Erased memory (parts.map opened.part) after := by
  induction parts generalizing memory with
  | nil => exact ⟨memory, rfl, .refl memory⟩
  | cons part parts ih =>
      obtain ⟨absent, distinct'⟩ := List.nodup_cons.mp distinct
      have held' (other : Part) (member : other ∈ parts) :
          (memory.erase (opened.part part)).lookup (opened.part other) =
            some (.other (.part index other)) := by
        have different : other ≠ part := fun same => absent (same ▸ member)
        rw [Finmap.lookup_erase_ne (apart.ne different)]
        exact held other (List.mem_cons_of_mem part member)
      obtain ⟨after, freed, erased⟩ := ih distinct' held'
      refine ⟨after, ?_, (Erased.erase memory _).trans erased⟩
      rw [List.foldlM_cons, freeBlock, if_pos (held part List.mem_cons_self)]
      exact freed

/-- The blocks of these owners are freed and no others. -/
structure Freed (memory : Heap) (blocks : BlockOwner → List Nat) (owners : BlockOwner → Prop)
    (after : Heap) : Prop where
  gone : ∀ {owner}, owners owner → ∀ addr ∈ blocks owner, addr ∉ after
  stay : ∀ {addr}, (∀ owner, owners owner → addr ∉ blocks owner) →
    after.lookup addr = memory.lookup addr

omit [DecidableEq K] in
/-- A table without locked buckets loses all its blocks. -/
theorem freeTable_eq (apart : Apart blocks) {subLists : Nat → Nat → Option Nat}
    (free : Freeable memory blocks (subLists index) index opened chains)
    (tables : List (OpenTable K)) :
    if opened.locked then
      freeTables subLists index (opened :: tables) memory = .error (.stuck .blocked)
    else ∃ after, freeTables subLists index (opened :: tables) memory =
        freeTables subLists (index + 1) tables after ∧
      Freed memory blocks (fun owner => owner.table = some index) after := by
  have whole : holdsParts memory index opened = true := by
    simp [holdsParts, fun part => (free.parts part).2]
  have apart' {idx other addr : Nat} (mine : addr ∈ blocks (.slot index idx))
      (theirs : addr ∈ blocks (.slot index other)) : idx = other :=
    (BlockOwner.slot.inj (apart mine theirs)).2
  have freed := freeBuckets_eq apart' free.linked free.short free.once
    (List.nodup_range : (List.range opened.schema.bucketCount).Nodup)
    fun _ _ idx _ => free.spells idx
  have asked : ((List.range opened.schema.bucketCount).any fun bucket =>
      decide ((opened.table.buckets bucket).readers ≠ 0)) = opened.locked := rfl
  rw [asked] at freed
  split
  · rename_i locked
    rw [if_pos locked] at freed
    rw [freeTables, if_pos whole, freed]
  · rename_i unlocked
    rw [if_neg unlocked] at freed
    obtain ⟨between, freed, erased⟩ := freed
    have listed (addr : Nat) : (addr ∈ (List.range opened.schema.bucketCount).flatMap fun bucket =>
        (chains bucket).flatMap fun idx => blocks (.slot index idx)) ↔
          ∃ idx, addr ∈ blocks (.slot index idx) := by
      simp only [List.mem_flatMap, List.mem_range]
      constructor
      · rintro ⟨-, -, idx, -, member⟩
        exact ⟨idx, member⟩
      · rintro ⟨idx, member⟩
        obtain ⟨bucket, below, chained⟩ := free.chained idx (List.ne_nil_of_mem member)
        exact ⟨bucket, below, idx, chained, member⟩
    have owned (part : Part) : opened.part part ∈ blocks (.part index part) := by
      rw [(free.parts part).1]
      exact List.mem_cons_self
    have held (part : Part) :
        between.lookup (opened.part part) = some (.other (.part index part)) := by
      rw [erased, if_neg fun member => ?_]
      · exact (free.parts part).2
      · obtain ⟨idx, theirs⟩ := (listed _).mp member
        cases apart (owned part) theirs
    have injective : Function.Injective opened.part := fun part other same =>
      (BlockOwner.part.inj (apart (owned part) (same ▸ owned other))).2
    obtain ⟨after, freed', erased'⟩ := freeParts_eq
      (by decide : [Part.buckets, .poolMem, .freeStack, .table].Nodup) injective
      fun part _ => held part
    have all := erased.trans erased'
    refine ⟨after, ?_, fun {owner} here addr member => ?_, fun {addr} nobody => ?_⟩
    · rw [freeTables, if_pos whole, freed]
      simp only [freeParts, freed']
    · rw [← Finmap.lookup_eq_none, all addr, if_pos]
      rw [List.mem_append, listed]
      cases owner with
      | slot other idx =>
          obtain rfl := Option.some.inj here
          exact .inl ⟨idx, member⟩
      | part other part =>
          obtain rfl := Option.some.inj here
          rw [(free.parts part).1] at member
          obtain rfl := List.mem_singleton.mp member
          refine .inr (List.mem_map_of_mem ?_)
          cases part <;> decide
      | handle place => cases here
    · rw [all addr, if_neg fun member => ?_]
      rcases List.mem_append.mp member with member | member
      · obtain ⟨idx, member⟩ := (listed addr).mp member
        exact nobody (.slot index idx) rfl member
      · obtain ⟨part, -, rfl⟩ := List.mem_map.mp member
        exact nobody (.part index part) rfl (owned part)

omit [DecidableEq K] in
/-- All tables lose their blocks, unless a bucket is locked. -/
theorem freeTables_eq (apart : Apart blocks) {subLists : Nat → Nat → Option Nat}
    {tables : List (OpenTable K)}
    (free : ∀ i opened, tables[i]? = some opened →
      ∃ chains, Freeable memory blocks (subLists (index + i)) (index + i) opened chains) :
    if tables.any OpenTable.locked then
      freeTables subLists index tables memory = .error (.stuck .blocked)
    else ∃ after, freeTables subLists index tables memory = .ok after ∧
      Freed memory blocks (fun owner => ∃ i < tables.length, owner.table = some (index + i))
        after := by
  induction tables generalizing index memory with
  | nil =>
      refine ⟨memory, rfl, fun owned => ?_, fun _ => rfl⟩
      obtain ⟨i, below, -⟩ := owned
      exact absurd below (Nat.not_lt_zero i)
  | cons opened tables ih =>
      obtain ⟨chains, first⟩ := free 0 opened rfl
      rw [Nat.add_zero] at first
      have single := freeTable_eq apart first tables
      rw [List.any_cons]
      by_cases locked : opened.locked = true
      · rw [if_pos locked] at single
        simp only [locked, Bool.true_or, if_true]
        exact single
      rw [if_neg locked] at single
      obtain ⟨between, turned, freed⟩ := single
      have stays (owner : BlockOwner) (other : owner.table ≠ some index) (addr : Nat)
          (member : addr ∈ blocks owner) : between.lookup addr = memory.lookup addr :=
        freed.stay fun owner' here theirs => other (apart member theirs ▸ here)
      have later (i : Nat) (opened' : OpenTable K) (found : tables[i]? = some opened') :
          ∃ chains, Freeable between blocks (subLists (index + 1 + i)) (index + 1 + i) opened'
            chains := by
        obtain ⟨chains', before⟩ := free (i + 1) opened' found
        rw [show index + (i + 1) = index + 1 + i by omega] at before
        have different : some (index + 1 + i) ≠ some index := fun same => by
          have := Option.some.inj same
          omega
        -- What is freed with the first table belongs to no later one.
        refine ⟨chains', before.linked, before.short, before.once, fun idx => ?_, before.chained,
          fun part => ⟨(before.parts part).1, ?_⟩⟩
        · exact (before.spells idx).frame (stays (.slot _ idx) different)
        · rw [stays (.part _ part) different _ ((before.parts part).1 ▸ List.mem_cons_self)]
          exact (before.parts part).2
      have rest := ih later
      rw [turned]
      simp only [locked, Bool.false_or]
      split
      · rename_i blocked
        rwa [if_pos blocked] at rest
      · rename_i unblocked
        rw [if_neg unblocked] at rest
        obtain ⟨after, freed', emptied⟩ := rest
        refine ⟨after, freed', fun {owner} owned addr member => ?_, fun {addr} nobody => ?_⟩
        · obtain ⟨i, below, here⟩ := owned
          cases i with
          | zero =>
              have nobody (other : BlockOwner)
                  (among : ∃ i < tables.length, other.table = some (index + 1 + i)) :
                  addr ∉ blocks other := fun theirs => by
                obtain ⟨i, -, there⟩ := among
                rw [← apart member theirs, here] at there
                have := Option.some.inj there
                omega
              rw [← Finmap.lookup_eq_none, emptied.stay nobody, Finmap.lookup_eq_none]
              exact freed.gone here addr member
          | succ i =>
              refine emptied.gone ⟨i, Nat.lt_of_succ_lt_succ below, ?_⟩ addr member
              rw [here, show index + (i + 1) = index + 1 + i by omega]
        · rw [emptied.stay fun owner among => ?_, freed.stay fun owner here => ?_]
          · exact nobody owner ⟨0, Nat.succ_pos _, here⟩
          · obtain ⟨i, below, there⟩ := among
            refine nobody owner ⟨i + 1, Nat.succ_lt_succ below, ?_⟩
            rw [there, show index + 1 + i = index + (i + 1) by omega]

end Engine

/-! ## Runs -/

omit [DecidableEq K] in
theorem Mirrored.map {ρ σ : Type*} {expected : Except Stop (PlainEngine K × ρ)}
    {result : Except Stop (Engine K × ρ)} (mirrored : Mirrored expected result) (convert : ρ → σ) :
    Mirrored (expected.map fun done => (done.1, convert done.2))
      (result.map fun done => (done.1, convert done.2)) := by
  cases expected with
  | error stop =>
      obtain rfl : result = .error stop := mirrored
      rfl
  | ok done =>
      obtain ⟨engine, blocks, rfl, mirrors⟩ := mirrored
      exact ⟨engine, blocks, rfl, mirrors⟩

theorem HandleAt.released {memory memory' : Heap} {handle : Option (Option Nat)}
    {lock : Option (Option (Nat × Nat))} {addrs : List Nat}
    (held : HandleAt memory handle lock addrs) (free : ∀ holder, lock ≠ some (some holder)) :
    addrs = [] ∧ HandleAt memory' handle lock [] := by
  rcases lock with _ | _ | holder
  · rcases handle with _ | _ | addr
    · exact ⟨held, rfl⟩
    · exact absurd held id
    · exact absurd held id
  · rcases handle with _ | _ | addr
    · exact absurd held id
    · exact ⟨held, rfl⟩
    · exact absurd held id
  · exact absurd rfl (free holder)

namespace Mirrors

variable {engine : Engine K} {plain : PlainEngine K} {blocks : BlockOwner → List Nat}
  {index : Nat} {allocator : Allocator (Block Sub Content)}

omit [DecidableEq K] in
theorem freeable (mirrors : Mirrors engine plain blocks) (sound : plain.Sound)
    {opened : OpenTable K} (found : engine.tables[index]? = some opened) :
    ∃ chains, Freeable engine.memory blocks (engine.subList index) index opened chains := by
  have same := congrArg (fun tables => tables[index]?) mirrors.tables
  simp only [List.getElem?_map, found, Option.map_some] at same
  obtain ⟨opened', found', equal⟩ := Option.map_eq_some_iff.mp same.symm
  obtain ⟨-, schemas, tables⟩ := PlainTable.mk.inj equal
  have member := List.mem_of_getElem? found'
  obtain ⟨chains, attached⟩ := sound.attached opened' member
  have wf := attached.wf
  refine ⟨chains, ?_, ?_, fun mine theirs => ?_, fun idx => ?_, fun idx present => ?_,
    mirrors.parts index opened found⟩
  · rw [← tables]
    exact wf.linked
  · rw [← schemas]
    exact wf.length_le
  · exact (wf.hashed _ _ mine).symm.trans (wf.hashed _ _ theirs)
  · exact (mirrors.lists index opened' found' idx).1
  · obtain ⟨spells, spelled⟩ := mirrors.lists index opened' found' idx
    have nonempty : (opened'.table.pool idx).subList ≠ [] := fun empty => present (by
      rw [← List.length_eq_zero_iff, ← spells.length_items, ← spelled, empty]
      rfl)
    obtain ⟨bucket, chained⟩ := attached.chained idx nonempty
    refine ⟨bucket, ?_, chained⟩
    rw [← schemas, ← wf.hashed bucket idx chained]
    exact Nat.mod_lt _ (sound.bucketCount_pos opened' member)

omit [DecidableEq K] in
theorem exists_table_of_owner (mirrors : Mirrors engine plain blocks) {owner : BlockOwner}
    (table : owner.table = some index) (owned : blocks owner ≠ []) :
    ∃ opened, plain.tables[index]? = some opened := by
  rw [← Option.ne_none_iff_exists', Ne, List.getElem?_eq_none_iff]
  intro beyond
  obtain ⟨slots, parts⟩ := mirrors.closed index beyond
  cases owner with
  | slot other idx =>
      obtain rfl := Option.some.inj table
      exact owned (slots idx)
  | part other part =>
      obtain rfl := Option.some.inj table
      exact owned (parts part)
  | handle place => cases table

omit [DecidableEq K] in
theorem locked_eq (mirrors : Mirrors engine plain blocks) :
    engine.tables.any OpenTable.locked = plain.locked := by
  let locked (opened : PlainTable K) : Bool :=
    (List.range opened.schema.bucketCount).any fun bucket =>
      (opened.table.buckets bucket).readers ≠ 0
  calc
    engine.tables.any OpenTable.locked = (engine.tables.map OpenTable.plain).any locked := by
        rw [List.any_map]
        rfl
    _ = (plain.tables.map PlainTable.bare).any locked := by rw [mirrors.tables]
    _ = plain.locked := by
        rw [List.any_map]
        rfl

omit [DecidableEq K] in
theorem deinit (mirrors : Mirrors engine plain blocks) (sound : plain.Sound) :
    if plain.locked then engine.nosKvDbDeinit = .error (.stuck .blocked)
    else ∃ after, engine.nosKvDbDeinit = .ok after ∧
      Mirrors after { plain with tables := [] } fun _ => [] := by
  have freed : if engine.tables.any OpenTable.locked then
        Engine.freeTables engine.subList 0 engine.tables engine.memory = .error (.stuck .blocked)
      else ∃ after, Engine.freeTables engine.subList 0 engine.tables engine.memory = .ok after ∧
        Engine.Freed engine.memory blocks
          (fun owner => ∃ i < engine.tables.length, owner.table = some (0 + i)) after :=
    Engine.freeTables_eq (fun _ _ _ => mirrors.owns.apart) fun i opened found => by
      rw [Nat.zero_add]
      exact mirrors.freeable sound found
  rw [mirrors.locked_eq] at freed
  split
  · rename_i locked
    rw [if_pos locked] at freed
    rw [Engine.nosKvDbDeinit, freed]
    rfl
  · rename_i unlocked
    rw [if_neg unlocked] at freed
    obtain ⟨after, freed, emptied⟩ := freed
    have released := sound.handles_none (by simpa using unlocked)
    have unheld (place : Nat) (lock : Nat × Nat) : plain.handles[place]? ≠ some (some lock) :=
      fun found => by cases released _ (List.mem_of_getElem? found)
    have tabled (owner : BlockOwner) (addr : Nat) (member : addr ∈ blocks owner) :
        ∃ i < engine.tables.length, owner.table = some (0 + i) := by
      have owned := List.ne_nil_of_mem member
      cases table : owner.table with
      | some index =>
          obtain ⟨opened, found⟩ := mirrors.exists_table_of_owner table owned
          obtain ⟨inside, -⟩ := List.getElem?_eq_some_iff.mp found
          exact ⟨index, mirrors.length_tables ▸ inside, by rw [Nat.zero_add]⟩
      | none =>
          cases owner with
          | handle place =>
              obtain ⟨unowned, -⟩ : blocks (.handle place) = [] ∧ HandleAt engine.memory _ _ _ :=
                (mirrors.handles place).released (unheld place)
              exact absurd unowned owned
          | _ => cases table
    have empty (addr : Nat) : addr ∉ after := fun member => by
      have nobody (owner : BlockOwner)
          (owned : ∃ i < engine.tables.length, owner.table = some (0 + i)) : addr ∉ blocks owner :=
        fun mine => emptied.gone owned addr mine member
      rw [← Finmap.lookup_isSome, emptied.stay nobody, Finmap.lookup_isSome] at member
      obtain ⟨owner, mine⟩ := (mirrors.owns.live addr).mp member
      exact nobody owner (tabled owner addr mine) mine
    refine ⟨{ engine with tables := [], memory := after }, by rw [Engine.nosKvDbDeinit, freed]; rfl,
      ⟨fun _ => List.nodup_nil, fun mine => absurd mine List.not_mem_nil, fun addr => ?_⟩, rfl,
      fun _ _ found => (by cases found), fun _ _ found => (by cases found),
      fun _ _ => ⟨fun _ => rfl, fun _ => rfl⟩, fun place => ?_⟩
    · refine ⟨fun member => absurd member (empty addr), fun owned => ?_⟩
      obtain ⟨-, member⟩ := owned
      cases member
    · exact ((mirrors.handles place).released (unheld place)).2

theorem step (mirrors : Mirrors engine plain blocks) (sound : plain.Sound) (op : EngineCall K) :
    Mirrored (plain.step op) (engine.step allocator op) := by
  cases op with
  | create new =>
      obtain ⟨blocks', after, same⟩ := mirrors.create allocator new
      refine ⟨_, blocks', ?_, after⟩
      simp only [Engine.step, same]
  | call index call => exact (mirrors.call sound index call).map EngineReply.reply
  | releasePtr place => exact (mirrors.releasePtr sound place).map EngineReply.reply
  | deinit =>
      have ended := mirrors.deinit sound
      simp only [PlainEngine.step, Engine.step]
      split
      · rename_i locked
        rw [if_pos locked] at ended
        rw [ended]
        rfl
      · rename_i unlocked
        rw [if_neg unlocked] at ended
        obtain ⟨after, freed, mirrors'⟩ := ended
        rw [freed]
        exact ⟨after, fun _ => [], rfl, mirrors'⟩

theorem run (mirrors : Mirrors engine plain blocks) (sound : plain.Sound)
    (ops : List (EngineCall K)) :
    Mirrored (runEngine PlainEngine.step plain ops)
      (runEngine (Engine.step allocator) engine ops) := by
  induction ops generalizing engine plain blocks with
  | nil => exact ⟨engine, blocks, rfl, mirrors⟩
  | cons op ops ih =>
      have mirrored : Mirrored (plain.step op) (engine.step allocator op) := mirrors.step sound op
      rw [runEngine, runEngine]
      cases stepped : plain.step op with
      | error stop =>
          rw [stepped] at mirrored
          have stopped : engine.step allocator op = .error stop := mirrored
          rw [stopped]
          rfl
      | ok done =>
          rw [stepped] at mirrored
          obtain ⟨engine', blocks', stepped', mirrors'⟩ := mirrored
          rw [stepped']
          exact (ih mirrors' (sound.step stepped)).map fun replies => done.2 :: replies

end Mirrors

omit [DecidableEq K] in
theorem runEngine_cons {σ : Type*} {step : σ → EngineCall K → Except Stop (σ × EngineReply K)}
    {state last : σ} {op : EngineCall K} {ops : List (EngineCall K)}
    {replies : List (EngineReply K)}
    (ran : runEngine step state (op :: ops) = .ok (last, replies)) :
    ∃ next reply replies', step state op = .ok (next, reply) ∧
      runEngine step next ops = .ok (last, replies') ∧ replies = reply :: replies' := by
  rw [runEngine] at ran
  cases stepped : step state op with
  | error stop =>
      rw [stepped] at ran
      cases ran
  | ok done =>
      rw [stepped] at ran
      simp only at ran
      cases rest : runEngine step done.1 ops with
      | error stop =>
          rw [rest] at ran
          cases ran
      | ok finished =>
          rw [rest] at ran
          cases ran
          exact ⟨done.1, done.2, finished.2, rfl, rest, rfl⟩

namespace PlainEngine

variable {plain last : PlainEngine K}

theorem Sound.run (sound : plain.Sound) {ops : List (EngineCall K)}
    {replies : List (EngineReply K)}
    (ran : runEngine PlainEngine.step plain ops = .ok (last, replies)) :
    last.Sound := by
  induction ops generalizing plain replies with
  | nil =>
      cases ran
      exact sound
  | cons op ops ih =>
      obtain ⟨next, reply, replies', stepped, rest, -⟩ := runEngine_cons ran
      exact ih (sound.step stepped) rest

theorem step_ne_fault (plain : PlainEngine K) (op : EngineCall K) :
    plain.step op ≠ .error .fault := by
  cases op with
  | create new => simp [PlainEngine.step]
  | call index call =>
      simp only [PlainEngine.step, PlainEngine.call]
      split
      · simp [Except.map]
      · split <;> simp [Except.map]
  | releasePtr place =>
      simp only [PlainEngine.step, PlainEngine.releasePtr]
      split
      · simp [Except.map]
      · simp [Except.map]
      · split
        · simp [Except.map]
        · split <;> simp [Except.map]
  | deinit =>
      simp only [PlainEngine.step]
      split <;> simp

theorem run_ne_fault (plain : PlainEngine K) (ops : List (EngineCall K)) :
    runEngine PlainEngine.step plain ops ≠ .error .fault := by
  induction ops generalizing plain with
  | nil => simp [runEngine]
  | cons op ops ih =>
      rw [runEngine]
      cases stepped : plain.step op with
      | error stop =>
          rintro equal
          cases equal
          exact plain.step_ne_fault op stepped
      | ok done =>
          intro equal
          refine ih done.1 ?_
          cases rest : runEngine PlainEngine.step done.1 ops with
          | error stop =>
              simp only [rest] at equal
              cases equal
              rfl
          | ok finished =>
              simp only [rest] at equal
              cases equal

end PlainEngine

/-! ## The number of blocks -/

/-- The owners of the blocks of a table. -/
def tableOwners (index : Nat) (opened : PlainTable K) : List BlockOwner :=
  [Part.table, .buckets, .poolMem, .freeStack].map (BlockOwner.part index) ++
    (List.range opened.schema.capacity).map (BlockOwner.slot index)

/-- The owners of all blocks. -/
def PlainEngine.owners (plain : PlainEngine K) : List BlockOwner :=
  plain.tables.zipIdx.flatMap (fun entry => tableOwners entry.2 entry.1) ++
    plain.handles.zipIdx.map fun entry => .handle entry.2

omit [DecidableEq K] in
theorem table_of_mem_tableOwners {index : Nat} {opened : PlainTable K} {owner : BlockOwner}
    (member : owner ∈ tableOwners index opened) : owner.table = some index := by
  rcases List.mem_append.mp member with part | slot
  · obtain ⟨part, -, rfl⟩ := List.mem_map.mp part
    rfl
  · obtain ⟨idx, -, rfl⟩ := List.mem_map.mp slot
    rfl

omit [DecidableEq K] in
theorem nodup_tableOwners (index : Nat) (opened : PlainTable K) :
    (tableOwners index opened).Nodup := by
  refine List.nodup_append'.mpr ⟨?_, ?_, ?_⟩
  · exact List.Nodup.map (fun _ _ same => (BlockOwner.part.inj same).2) (by decide)
  · exact List.Nodup.map (fun _ _ same => (BlockOwner.slot.inj same).2) List.nodup_range
  · intro owner part slot
    obtain ⟨kind, -, rfl⟩ := List.mem_map.mp part
    obtain ⟨idx, -, same⟩ := List.mem_map.mp slot
    cases same

omit [DecidableEq K] in
theorem PlainEngine.nodup_owners (plain : PlainEngine K) : plain.owners.Nodup := by
  refine List.nodup_append'.mpr ⟨List.nodup_flatMap.mpr ⟨fun entry _ => ?_, ?_⟩, ?_, ?_⟩
  · exact nodup_tableOwners entry.2 entry.1
  · have distinct := List.nodup_zipIdx_map_snd plain.tables
    refine (List.pairwise_map.mp distinct).imp fun different owner mine theirs => ?_
    have same := (table_of_mem_tableOwners mine).symm.trans (table_of_mem_tableOwners theirs)
    exact different (Option.some.inj same)
  · have distinct := List.nodup_zipIdx_map_snd plain.handles
    refine List.pairwise_map.mpr ((List.pairwise_map.mp distinct).imp fun different same => ?_)
    exact different (BlockOwner.handle.inj same)
  · intro owner tabled held
    obtain ⟨entry, -, member⟩ := List.mem_flatMap.mp tabled
    obtain ⟨entry', -, rfl⟩ := List.mem_map.mp held
    cases table_of_mem_tableOwners member

theorem sum_map_toNat {α : Type*} (test : α → Bool) (list : List α) :
    (list.map fun a => (test a).toNat).sum = list.countP test := by
  induction list with
  | nil => rfl
  | cons a list ih =>
      rw [List.map_cons, List.sum_cons, List.countP_cons, ih]
      cases test a <;> simp [Nat.add_comm]

theorem HandleAt.length_eq {memory : Heap} {handle : Option (Option Nat)}
    {lock : Option (Nat × Nat)} {addrs : List Nat}
    (held : HandleAt memory handle (some lock) addrs) : addrs.length = lock.isSome.toNat := by
  rcases lock with _ | lock
  · rcases handle with _ | _ | addr
    · exact absurd held id
    · obtain rfl : addrs = [] := held
      rfl
    · exact absurd held id
  · rcases handle with _ | _ | addr
    · exact absurd held id
    · exact absurd held id
    · obtain ⟨rfl, -⟩ := held
      rfl

namespace Mirrors

variable {engine : Engine K} {plain : PlainEngine K} {blocks : BlockOwner → List Nat}

omit [DecidableEq K] in
theorem length_slot (mirrors : Mirrors engine plain blocks) {index : Nat} {opened : PlainTable K}
    (found : plain.tables[index]? = some opened) (idx : Nat) :
    (blocks (.slot index idx)).length = (opened.table.pool idx).subList.length := by
  obtain ⟨spells, spelled⟩ := mirrors.lists index opened found idx
  rw [spelled, spells.length_items]

omit [DecidableEq K] in
/-- Only a table, an entry in its pool or a pointer has blocks. -/
theorem mem_owners (mirrors : Mirrors engine plain blocks) (sound : plain.Sound)
    {owner : BlockOwner} (owned : blocks owner ≠ []) : owner ∈ plain.owners := by
  cases owner with
  | slot index idx =>
      obtain ⟨opened, found⟩ := mirrors.exists_table_of_owner rfl owned
      obtain ⟨chains, attached⟩ := sound.attached opened (List.mem_of_getElem? found)
      have present : (opened.table.pool idx).subList ≠ [] := by
        rw [← List.length_pos_iff, ← mirrors.length_slot found, List.length_pos_iff]
        exact owned
      obtain ⟨bucket, chained⟩ := attached.chained idx present
      have below := List.mem_range.mpr (attached.wf.inside bucket idx chained)
      exact List.mem_append_left _ (List.mem_flatMap.mpr ⟨(opened, index),
        List.mk_mem_zipIdx_iff_getElem?.mpr found,
        List.mem_append_right _ (List.mem_map_of_mem below)⟩)
  | part index part =>
      obtain ⟨opened, found⟩ := mirrors.exists_table_of_owner rfl owned
      have listed : part ∈ [Part.table, .buckets, .poolMem, .freeStack] := by cases part <;> decide
      exact List.mem_append_left _ (List.mem_flatMap.mpr ⟨(opened, index),
        List.mk_mem_zipIdx_iff_getElem?.mpr found,
        List.mem_append_left _ (List.mem_map_of_mem listed)⟩)
  | handle place =>
      cases lock : plain.handles[place]? with
      | none =>
          have held := mirrors.handles place
          rw [lock, (mirrors.handles_eq_none_iff place).mpr lock] at held
          exact absurd held owned
      | some lock' =>
          exact List.mem_append_right _ (List.mem_map.mpr ⟨(lock', place),
            List.mk_mem_zipIdx_iff_getElem?.mpr lock, rfl⟩)

omit [DecidableEq K] in
theorem sum_tableOwners (mirrors : Mirrors engine plain blocks) {index : Nat}
    {opened : PlainTable K} (found : plain.tables[index]? = some opened) :
    ((tableOwners index opened).map fun owner => (blocks owner).length).sum =
      opened.blockCount := by
  obtain ⟨opened', found', -⟩ := mirrors.exists_table found
  have one (part : Part) : (blocks (.part index part)).length = 1 := by
    rw [(mirrors.parts index opened' found' part).1]
    rfl
  rw [tableOwners, List.map_append, List.sum_append, PlainTable.blockCount, List.map_map,
    List.map_map]
  refine congrArg₂ (· + ·) ?_ (congrArg List.sum (List.map_congr_left fun idx _ => ?_))
  · simp [one]
  · exact mirrors.length_slot found idx

omit [DecidableEq K] in
/-- Exactly the blocks of the tables, of their subscriptions and of the pointers are allocated. -/
theorem card_keys (mirrors : Mirrors engine plain blocks) (sound : plain.Sound) :
    engine.memory.keys.card = plain.blockCount := by
  rw [mirrors.owns.card_keys plain.nodup_owners fun owner owned => mirrors.mem_owners sound owned,
    PlainEngine.owners, List.map_append, List.sum_append, PlainEngine.blockCount]
  refine congrArg₂ (· + ·) ?_ ?_
  · calc
      _ = (plain.tables.zipIdx.map fun entry =>
            ((tableOwners entry.2 entry.1).map fun owner => (blocks owner).length).sum).sum := by
          rw [List.map_flatMap, List.flatMap, List.sum_flatten, List.map_map]
          rfl
      _ = (plain.tables.zipIdx.map fun entry => entry.1.blockCount).sum :=
          congrArg List.sum (List.map_congr_left fun entry member =>
            mirrors.sum_tableOwners (List.mem_zipIdx_iff_getElem?.mp member))
      _ = ((plain.tables.zipIdx.map Prod.fst).map PlainTable.blockCount).sum := by
          rw [List.map_map]
          rfl
      _ = _ := by rw [List.zipIdx_map_fst]
  · calc
      _ = (plain.handles.zipIdx.map fun entry => (blocks (.handle entry.2)).length).sum := by
          rw [List.map_map]
          rfl
      _ = (plain.handles.zipIdx.map fun entry => entry.1.isSome.toNat).sum :=
          congrArg List.sum (List.map_congr_left fun entry member => by
            have held := mirrors.handles entry.2
            rw [List.mem_zipIdx_iff_getElem?.mp member] at held
            exact held.length_eq)
      _ = ((plain.handles.zipIdx.map Prod.fst).map fun lock => lock.isSome.toNat).sum := by
          rw [List.map_map]
          rfl
      _ = _ := by rw [List.zipIdx_map_fst, sum_map_toNat]

end Mirrors

omit [DecidableEq K] in
theorem runEngine_concat {σ : Type*} {step : σ → EngineCall K → Except Stop (σ × EngineReply K)}
    {state last : σ} {ops : List (EngineCall K)} {op : EngineCall K}
    {replies : List (EngineReply K)}
    (ran : runEngine step state (ops ++ [op]) = .ok (last, replies)) :
    ∃ before replies' reply, runEngine step state ops = .ok (before, replies') ∧
      step before op = .ok (last, reply) := by
  induction ops generalizing state replies with
  | nil =>
      obtain ⟨next, reply, replies', stepped, rest, -⟩ := runEngine_cons ran
      cases rest
      exact ⟨state, [], reply, rfl, stepped⟩
  | cons first ops ih =>
      obtain ⟨next, reply, replies', stepped, rest, -⟩ := runEngine_cons ran
      obtain ⟨before, earlier, reply', ran', stepped'⟩ := ih rest
      refine ⟨before, reply :: earlier, reply', ?_, stepped'⟩
      rw [runEngine, stepped]
      simp only [ran']
      rfl

theorem mirrored_runEngine (allocator : Allocator (Block Sub Content)) (ops : List (EngineCall K)) :
    Mirrored (runEngine PlainEngine.step .start ops)
      (runEngine (Engine.step allocator) .start ops) :=
  Mirrors.start.run PlainEngine.sound_start ops

/-- Whatever the callers do and wherever blocks are placed, the engine answers as one without memory
does and never faults, and exactly the blocks that its tables, their subscriptions and the pointers
need are allocated. -/
theorem runEngine_eq (allocator : Allocator (Block Sub Content)) (ops : List (EngineCall K)) :
    match runEngine PlainEngine.step .start ops with
    | .error stop => stop ≠ .fault ∧ runEngine (Engine.step allocator) .start ops = .error stop
    | .ok (plain, replies) =>
        ∃ engine, runEngine (Engine.step allocator) .start ops = .ok (engine, replies) ∧
          engine.memory.keys.card = plain.blockCount := by
  have mirrored := mirrored_runEngine allocator ops
  cases ran : runEngine PlainEngine.step .start ops with
  | error stop =>
      rw [ran] at mirrored
      refine ⟨fun fault => ?_, mirrored⟩
      exact PlainEngine.start.run_ne_fault ops (fault ▸ ran)
  | ok done =>
      rw [ran] at mirrored
      obtain ⟨engine, blocks, ran', mirrors⟩ := mirrored
      exact ⟨engine, ran', mirrors.card_keys (PlainEngine.sound_start.run ran)⟩

/-- After `nos_kv_db_deinit` no block is allocated. -/
theorem runEngine_deinit (allocator : Allocator (Block Sub Content)) (ops : List (EngineCall K))
    {engine : Engine K} {replies : List (EngineReply K)}
    (ran : runEngine (Engine.step allocator) .start (ops ++ [.deinit]) = .ok (engine, replies)) :
    engine.memory = ∅ := by
  obtain ⟨before, replies', reply, ran', freed⟩ := runEngine_concat ran
  have mirrored := mirrored_runEngine allocator ops
  cases plainly : runEngine PlainEngine.step .start ops with
  | error stop =>
      rw [plainly] at mirrored
      cases ran'.symm.trans mirrored
  | ok done =>
      rw [plainly] at mirrored
      obtain ⟨engine', blocks, same, mirrors⟩ := mirrored
      obtain rfl : before = engine' := by
        cases ran'.symm.trans same
        rfl
      have ended := mirrors.deinit (PlainEngine.sound_start.run plainly)
      simp only [Engine.step] at freed
      split at ended
      · rw [ended] at freed
        cases freed
      · obtain ⟨after, emptied, mirrors'⟩ := ended
        rw [emptied] at freed
        cases freed
        refine Finmap.ext_lookup fun addr => ?_
        rw [Finmap.lookup_empty, Finmap.lookup_eq_none, mirrors'.owns.live]
        rintro ⟨-, member⟩
        cases member

/-- A table with one slot, for one key. -/
def oneSlot : NewTable Unit where
  name := ⟨[116], by decide⟩
  schema :=
    { hash := fun _ => 0
      zeroKey := ()
      maxValSize := 4
      capacity := 1
      bucketCount := 1
      capacity_lt := by decide }
  bucketCount_pos := by decide

/-- A subscription and a pointer that is released are gone at the end. -/
theorem runEngine_deinit_oneSlot : ∃ engine replies,
    runEngine (Engine.step .above) .start
      ([.create oneSlot, .call 0 (.put () (some [7]) 1), .call 0 (.subscribe () ⟨3, 4⟩),
        .call 0 (.getPtr ()), .releasePtr 0] ++ [.deinit]) = .ok (engine, replies) ∧
      engine.memory = ∅ :=
  ⟨_, _, rfl, runEngine_deinit .above [.create oneSlot, .call 0 (.put () (some [7]) 1),
    .call 0 (.subscribe () ⟨3, 4⟩), .call 0 (.getPtr ()), .releasePtr 0] rfl⟩

end CodexNos.Kv
