import CodexNos.Components.Handlers
import CodexNos.Kv.KeyState
import CodexNos.Lib.RawMemory

/-!
# A counter that survives reloads

The second component keeps its counter in a table of the key-value store.  A reload initializes a new
instance from the table while the old one still handles messages, and then swaps them.  Other
components watch the counter through the table.  In every interleaving the counters and the watchers
are those of a tally that knows nothing of tables.
-/

namespace CodexNos.Components

open Lib

/-! ## Values -/

/-- The bytes of an `int`. -/
def intBytes (value : Int32) : List UInt8 :=
  RawMemory.read (RawMemory.store (fun _ => 0) 0 4 value.toUInt32.toNat) 4

/-- The `int` whose bytes, all zero before, were replaced from the first one on. -/
def intOf (bytes : List UInt8) : Int32 :=
  (UInt32.ofNat (RawMemory.word (RawMemory.write (fun _ => 0) bytes) 0 4)).toInt32

@[simp]
theorem length_intBytes (value : Int32) : (intBytes value).length = 4 := by simp [intBytes]

@[simp]
theorem intOf_intBytes (value : Int32) : intOf (intBytes value) = value := by
  have same : RawMemory.word (RawMemory.write (fun _ => 0) (intBytes value)) 0 4 =
      RawMemory.word (RawMemory.store (fun _ => 0) 0 4 value.toUInt32.toNat) 0 4 :=
    RawMemory.word_congr fun index _ below =>
      RawMemory.write_read_of_lt _ _ (by simpa using below)
  have small : value.toUInt32.toNat < 256 ^ 4 := value.toUInt32.toNat_lt
  rw [intOf, same, RawMemory.word_store, Nat.mod_eq_of_lt small, UInt32.ofNat_toNat,
    Int32.toInt32_toUInt32]

/-! ## The store -/

/-- The tables, and the calls of subscribers in their order. -/
structure Store where
  /-- The tables. -/
  tables : Nat → Kv.Table KvKey
  /-- The calls of subscribers, with the table that they are told. -/
  notes : List (Nat × Kv.Notification KvKey)

/-- Perform a call on a table. -/
def Store.call (schemas : Nat → Kv.Schema KvKey) (store : Store) (table : Nat)
    (op : Kv.KvOp KvKey) : Option (Store × Kv.Reply KvKey) :=
  match Kv.step (schemas table) (store.tables table) op with
  | .error _ => none
  | .ok (after, reply) =>
      some
        ({ tables := Function.update store.tables table after
           notes := store.notes ++ reply.notified.map fun note => (table, note) }, reply)

/-- Answer the calls that the second component makes. -/
def Store.perform (schemas : Nat → Kv.Schema KvKey) (store : Store) :
    (call : Call) → Option (Store × Answer call)
  | .kvPut table key value =>
      (store.call schemas table (.put key (some (intBytes value)) 4)).map fun (after, reply) =>
        (after, reply.status)
  | .log => some (store, ())
  | _ => none

/-- The tables of the component, as `nos_kv_table_create` returns them. -/
structure Setup where
  /-- The tables. -/
  schemas : Nat → Kv.Schema KvKey
  /-- `CompStates`. -/
  stateTable : Nat
  /-- `TestData`. -/
  testTable : Nat
  /-- They have different names. -/
  apart : stateTable ≠ testTable
  /-- The states are of type `int`. -/
  stateSize : (schemas stateTable).maxValSize = 4

/-! ## `model_1.c` -/

namespace Model1

/-- The line about a counter. -/
def detected (counter : Int32) : Handler (Option Int32) := do
  logLines 1
  pure (some counter)

/-- `on_comp2_state_change`, with the counter of its line. -/
def onComp2StateChange (val : Option (List UInt8)) (valLen : Nat) : Handler (Option Int32) :=
  if valLen = 4 then
    match val with
    | none => nullAccess
    | some bytes => detected (intOf bytes)
  else pure none

end Model1

/-! ## `model_2.c` -/

namespace Model2

/-- The data of an instance with a counter. -/
def ctxOf (setup : Setup) (counter : Int32) : Ctx :=
  ⟨some setup.stateTable, some setup.testTable, counter⟩

/-- `comp_init`. -/
def compInit (setup : Setup) (self : Self) (store : Store) : Option (Store × Ctx) := do
  let (store, reply) ← store.call setup.schemas setup.stateTable (.get (nameKey self.name) 4)
  match reply.status, reply.value with
  | .ok, some (bytes, _) => pure (store, ctxOf setup (intOf bytes))
  | _, _ =>
      let (store, _) ← store.call setup.schemas setup.stateTable
        (.put (nameKey self.name) (some (intBytes 0)) 4)
      pure (store, ctxOf setup 0)

end Model2

/-- The calls of a subscriber of the counter, as `on_comp2_state_change` takes them. -/
def Store.told (setup : Setup) (self : Self) (store : Store) (sub : Kv.Sub) :
    List (Handler (Option Int32)) :=
  (store.notes.filter fun note =>
      note.1 = setup.stateTable ∧ note.2.key = Model2.nameKey self.name ∧ note.2.sub = sub).map
    fun note => Model1.onComp2StateChange note.2.val note.2.valLen

/-- What a reader of the counter gets. -/
def Store.stored (setup : Setup) (self : Self) (store : Store) : Option Int32 :=
  match Kv.step (setup.schemas setup.stateTable) (store.tables setup.stateTable)
      (.get (Model2.nameKey self.name) 4) with
  | .ok (_, ⟨.ok, some (bytes, 4), _⟩) => some (intOf bytes)
  | _ => none

/-- The subscribers of the counter. -/
def Store.watching (setup : Setup) (self : Self) (store : Store) : List Kv.Sub :=
  ((store.tables setup.stateTable).subscribers (setup.schemas setup.stateTable)
    (Model2.nameKey self.name)).getD []

/-! ## The system -/

/-- What happens to the component and to the store. -/
inductive StoreAct
  /-- A message is dispatched to the component. -/
  | message
  /-- `node_load_component_staged` initializes a new instance. -/
  | stage
  /-- The new instance is destroyed. -/
  | discard
  /-- The new instance takes the place of the old one, if any. -/
  | swap
  /-- `node_unload_component`. -/
  | unload
  /-- A component subscribes to the counter. -/
  | watch (sub : Kv.Sub)
  /-- A component cancels its subscription. -/
  | unwatch (sub : Kv.Sub)
  /-- Any other call on a table. -/
  | other (table : Nat) (op : Kv.SubOp KvKey)

/-- The instances and the store. -/
structure World where
  /-- The instance that gets the messages. -/
  active : Option Model2.Ctx
  /-- The instance of an unfinished reload. -/
  staged : Option Model2.Ctx
  /-- The store. -/
  store : Store

namespace World

/-- Nothing is loaded, and the tables are new. -/
def new (setup : Setup) : World where
  active := none
  staged := none
  store := ⟨fun table => Kv.nosKvTableCreate (setup.schemas table), []⟩

/-- One step. -/
def step (setup : Setup) (self : Self) (world : World) : StoreAct → Option World
  | .message =>
      (Calls.interpret (Store.perform setup.schemas) world.store
        (Model2.compOnMsg self world.active)).map fun (store, active) =>
          { world with store, active }
  | .stage =>
      (Model2.compInit setup self world.store).map fun (store, ctx) =>
        { world with store, staged := some ctx }
  | .discard => some { world with staged := none }
  | .swap =>
      match world.staged with
      | none => some world
      | some ctx => some { world with active := some ctx, staged := none }
  | .unload => some { world with active := none }
  | .watch sub =>
      (world.store.call setup.schemas setup.stateTable
        (.subscribe (Model2.nameKey self.name) sub)).map fun (store, _) => { world with store }
  | .unwatch sub =>
      (world.store.call setup.schemas setup.stateTable
        (.unsubscribe (Model2.nameKey self.name) sub)).map fun (store, _) => { world with store }
  | .other table op =>
      (world.store.call setup.schemas table op.call).map fun (store, _) => { world with store }

/-- A run. -/
def run (setup : Setup) (self : Self) : World → List StoreAct → Option World :=
  List.foldlM (step setup self)

end World

/-- The calls of others leave the key of the component alone, and there is room for their keys. -/
def StoreAct.Foreign (setup : Setup) (self : Self) (keys : Finset KvKey) : StoreAct → Prop
  | .other table op =>
      op.Sized ∧ (table = setup.stateTable → op.key ≠ Model2.nameKey self.name ∧ op.key ∈ keys)
  | _ => True

/-! ## The tally -/

/-- The counters and the watchers. -/
structure Tally where
  /-- The counter of the instance that gets the messages. -/
  active : Option Int32
  /-- The counter of the instance of an unfinished reload. -/
  staged : Option Int32
  /-- The published counter. -/
  stored : Option Int32
  /-- The watchers. -/
  watchers : Finset Kv.Sub
  /-- What each watcher was told. -/
  heard : Kv.Sub → List Int32

namespace Tally

/-- Nothing is loaded. -/
def new : Tally := ⟨none, none, none, ∅, fun _ => []⟩

/-- Publish a counter. -/
def publish (tally : Tally) (counter : Int32) : Tally :=
  { tally with
    stored := some counter
    heard := fun sub =>
      if sub ∈ tally.watchers then tally.heard sub ++ [counter] else tally.heard sub }

/-- One step. -/
def step (tally : Tally) : StoreAct → Tally
  | .message =>
      match tally.active with
      | none => tally
      | some counter => { tally.publish (counter + 1) with active := some (counter + 1) }
  | .stage =>
      match tally.stored with
      | none => { tally.publish 0 with staged := some 0 }
      | some counter => { tally with staged := some counter }
  | .discard => { tally with staged := none }
  | .swap =>
      match tally.staged with
      | none => tally
      | some counter => { tally with active := some counter, staged := none }
  | .unload => { tally with active := none }
  | .watch sub =>
      if tally.stored.isSome then { tally with watchers := insert sub tally.watchers } else tally
  | .unwatch sub => { tally with watchers := tally.watchers.erase sub }
  | .other _ _ => tally

/-- A run. -/
def run : Tally → List StoreAct → Tally := List.foldl step

end Tally

/-! ## The store holds the tally -/

variable {setup : Setup} {self : Self} {keys : Finset KvKey} {store : Store} {tally : Tally}
  {counter : Int32} {sub : Kv.Sub}

/-- The state of the key of the component. -/
structure HoldsKey (setup : Setup) (owner : Self) (keys : Finset KvKey) (tally : Tally)
    (table : Kv.Table KvKey) (subs : KvKey → Option (Finset Kv.Sub)) : Prop where
  keeps : ∃ chains view, Kv.Keeps (setup.schemas setup.stateTable) table chains view subs
    (Model2.nameKey owner.name) (tally.stored.map fun counter => ⟨intBytes counter, 4⟩)
  watchers : subs (Model2.nameKey owner.name) = tally.stored.map fun _ => tally.watchers
  among : ∀ key, (subs key).isSome → key = Model2.nameKey owner.name ∨ key ∈ keys

/-- The tables are sound, the key of the component has its counter, and the watchers were told the
counters. -/
structure Holds (setup : Setup) (owner : Self) (keys : Finset KvKey) (store : Store)
    (tally : Tally) : Prop where
  states : ∃ subs, HoldsKey setup owner keys tally (store.tables setup.stateTable) subs
  tests : ∀ table ≠ setup.stateTable, ∃ chains view subs,
    Kv.Tracks (setup.schemas table) (store.tables table) chains view subs
  told : ∀ sub, store.told setup owner sub = (tally.heard sub).map Model1.detected
  idle : tally.stored = none → tally.watchers = ∅

/-- What a call that returns makes of the store. -/
def Store.after (store : Store) (table : Nat) (next : Kv.Table KvKey)
    (reply : Kv.Reply KvKey) : Store where
  tables := Function.update store.tables table next
  notes := store.notes ++ reply.notified.map fun note => (table, note)

theorem Store.call_eq {table : Nat} {op : Kv.KvOp KvKey} {next : Kv.Table KvKey}
    {reply : Kv.Reply KvKey}
    (called : Kv.step (setup.schemas table) (store.tables table) op = .ok (next, reply)) :
    store.call setup.schemas table op = some (store.after table next reply, reply) := by
  rw [Store.call, called]
  rfl

theorem Store.told_after (store : Store) (table : Nat) (next : Kv.Table KvKey)
    (reply : Kv.Reply KvKey) (sub : Kv.Sub) :
    (store.after table next reply).told setup self sub =
      store.told setup self sub ++
        (reply.notified.filter fun note =>
            table = setup.stateTable ∧ note.key = Model2.nameKey self.name ∧ note.sub = sub).map
          fun note => Model1.onComp2StateChange note.val note.valLen := by
  simp only [told, after, List.filter_append, List.map_append, List.filter_map, List.map_map]
  rfl

theorem Store.told_after_of_silent (store : Store) {table : Nat} (next : Kv.Table KvKey)
    {reply : Kv.Reply KvKey}
    (silent : ∀ note ∈ reply.notified, table = setup.stateTable →
      note.key ≠ Model2.nameKey self.name) (sub : Kv.Sub) :
    (store.after table next reply).told setup self sub = store.told setup self sub := by
  have none_left : (reply.notified.filter fun note =>
      table = setup.stateTable ∧ note.key = Model2.nameKey self.name ∧ note.sub = sub) = [] := by
    refine List.filter_eq_nil_iff.mpr fun note member => ?_
    simp only [decide_eq_true_eq, not_and]
    exact fun same key => absurd key (silent note member same)
  rw [told_after, none_left, List.map_nil, List.append_nil]

theorem Store.told_after_put (store : Store) (next : Kv.Table KvKey) {reply : Kv.Reply KvKey}
    {watchers : Finset Kv.Sub}
    (each : ∀ sub, reply.notified.count
      ⟨sub, Model2.nameKey self.name, some (intBytes counter), 4⟩ = if sub ∈ watchers then 1 else 0)
    (only : ∀ note ∈ reply.notified,
      note = ⟨note.sub, Model2.nameKey self.name, some (intBytes counter), 4⟩) (sub : Kv.Sub) :
    (store.after setup.stateTable next reply).told setup self sub =
      store.told setup self sub ++ if sub ∈ watchers then [Model1.detected counter] else [] := by
  have chosen : (reply.notified.filter fun note =>
      setup.stateTable = setup.stateTable ∧ note.key = Model2.nameKey self.name ∧
        note.sub = sub) =
      reply.notified.filter
        (· = ⟨sub, Model2.nameKey self.name, some (intBytes counter), 4⟩) := by
    refine List.filter_congr fun note member => ?_
    rw [only note member]
    simp
  rw [told_after, chosen, List.filter_eq, each]
  split
  · simp [Model1.onComp2StateChange]
  · simp


theorem interpret_putInto {schemas : Nat → Kv.Schema KvKey} {table : Nat} {key : KvKey}
    {store' : Store} {reply : Kv.Reply KvKey}
    (called : store.call schemas table (.put key (some (intBytes counter)) 4) =
      some (store', reply)) :
    Calls.interpret (Store.perform schemas) store (Model2.putInto (some table) key counter) =
      some (store', ()) := by
  have performed : Store.perform schemas store (.kvPut table key counter) =
      some (store', reply.status) := by
    rw [Store.perform, called]
    rfl
  change ((Store.perform schemas store (.kvPut table key counter)).bind fun step =>
    Calls.interpret (Store.perform schemas) step.1 (pure () : Handler Unit)) = _
  rw [performed]
  rfl

/-- The new value of a key with a counter, or without a value. -/
theorem learn_counter (known : Option Int32) (counter : Int32) :
    Kv.learnCall (Model2.nameKey self.name)
        (known.map fun counter => (⟨intBytes counter, 4⟩ : Kv.Known))
        (.put (Model2.nameKey self.name) (some (intBytes counter)) 4) .ok =
      some ⟨intBytes counter, 4⟩ := by
  cases known with
  | none =>
      simp [Kv.learnCall, Kv.SubOp.flow, Kv.FlowOp.key, Kv.learn, Kv.ownBytes, Kv.memcpy]
  | some old =>
      have emptied : (intBytes old).drop 4 = [] := List.drop_eq_nil_of_le (by simp)
      simp [Kv.learnCall, Kv.SubOp.flow, Kv.FlowOp.key, Kv.learn, Kv.ownBytes, Kv.memcpy, emptied]

namespace Holds

theorem congr (holds : Holds setup self keys store tally) {tally' : Tally}
    (stored : tally'.stored = tally.stored) (watchers : tally'.watchers = tally.watchers)
    (heard : tally'.heard = tally.heard) : Holds setup self keys store tally' := by
  obtain ⟨⟨subs, keeps, known, among⟩, tests, told, idle⟩ := holds
  refine ⟨⟨subs, ?_, ?_, among⟩, tests, ?_, ?_⟩
  · rwa [stored]
  · rwa [stored, watchers]
  · rwa [heard]
  · rwa [stored, watchers]

theorem setStates (holds : Holds setup self keys store tally) {next : Kv.Table KvKey}
    {reply : Kv.Reply KvKey} {tally' : Tally} {subs : KvKey → Option (Finset Kv.Sub)}
    (states : HoldsKey setup self keys tally' next subs)
    (told : ∀ sub, (store.after setup.stateTable next reply).told setup self sub =
      (tally'.heard sub).map Model1.detected)
    (idle : tally'.stored = none → tally'.watchers = ∅) :
    Holds setup self keys (store.after setup.stateTable next reply) tally' where
  states := ⟨subs, by simpa [Store.after] using states⟩
  tests := fun table different => by
    simpa [Store.after, different] using holds.tests table different
  told := told
  idle := idle

theorem publish (holds : Holds setup self keys store tally)
    (room : keys.card < (setup.schemas setup.stateTable).capacity) (counter : Int32) :
    ∃ store' reply, store.call setup.schemas setup.stateTable
        (.put (Model2.nameKey self.name) (some (intBytes counter)) 4) = some (store', reply) ∧
      Holds setup self keys store' (tally.publish counter) := by
  obtain ⟨subs, ⟨chains, view, keeps⟩, watchers, among⟩ := holds.states
  have sized : (Kv.SubOp.put (Model2.nameKey self.name) (some (intBytes counter)) 4).Sized := by
    rintro _ ⟨⟩
    exact length_intBytes counter
  obtain ⟨next, reply, chains', view', called, answers, keeps'⟩ := keeps.step sized
  have stored_all : Kv.step (setup.schemas setup.stateTable) (store.tables setup.stateTable)
      (.put (Model2.nameKey self.name) (some (intBytes counter)) (intBytes counter).length) =
        .ok (next, reply) := by
    rw [length_intBytes]
    exact called
  have status : reply.status = .ok := by
    refine keeps.put_ok (by rw [length_intBytes, setup.stateSize]) ?_ stored_all
    cases stored : tally.stored with
    | some known => exact .inl rfl
    | none =>
        refine .inr (keeps.tracks.shown.free_ne_nil (fun key present => ?_) room)
        have known : (subs key).isSome := by
          rwa [← keeps.tracks.subscribers key, Option.isSome_map]
        refine (among key known).resolve_left fun own => ?_
        rw [own, watchers, stored] at known
        cases known
  have short : ¬ (setup.schemas setup.stateTable).maxValSize < 4 := by simp [setup.stateSize]
  simp only [Kv.Answers, short, if_false, watchers] at answers
  rw [status, learn_counter] at keeps'
  have states : HoldsKey setup self keys (tally.publish counter) next _ :=
    { keeps := ⟨chains', view', keeps'⟩
      watchers := by
        simp only [Kv.afterCall, if_true, watchers, Tally.publish]
        cases stored : tally.stored with
        | none => simp [holds.idle stored]
        | some known => rfl
      among := by
        intro key present
        by_cases own : key = Model2.nameKey self.name
        · exact .inl own
        · refine among key ?_
          simpa [Kv.afterCall, Ne.symm own] using present }
  refine ⟨_, reply, Store.call_eq called, holds.setStates states ?_ ?_⟩
  · intro sub
    cases stored : tally.stored with
    | none =>
        rw [stored] at answers
        have quiet : reply.notified = [] := answers
        rw [Store.told_after_of_silent store next (by simp [quiet]), holds.told]
        simp [Tally.publish, holds.idle stored]
    | some known =>
        rw [stored] at answers
        rw [Store.told_after_put store next answers.2.1 answers.2.2, holds.told]
        simp only [Tally.publish]
        split <;> simp
  · intro nothing
    cases nothing

theorem call_test (holds : Holds setup self keys store tally) {table : Nat}
    (different : table ≠ setup.stateTable) (op : Kv.SubOp KvKey) :
    ∃ store' reply, store.call setup.schemas table op.call = some (store', reply) ∧
      Holds setup self keys store' tally := by
  obtain ⟨chains, view, subs, tracks⟩ := holds.tests table different
  obtain ⟨next, reply, chains', view', called, -, tracks'⟩ := tracks.step op
  refine ⟨_, reply, Store.call_eq called, ?_, ?_, ?_, holds.idle⟩
  · simpa [Store.after, Ne.symm different] using holds.states
  · intro other apart
    by_cases same : other = table
    · subst same
      exact ⟨chains', view', _, by simpa [Store.after] using tracks'⟩
    · simpa [Store.after, same] using holds.tests other apart
  · intro sub
    rw [Store.told_after_of_silent store next fun _ _ same => absurd same different, holds.told]

theorem call_other (holds : Holds setup self keys store tally) {op : Kv.SubOp KvKey}
    (sized : op.Sized) (different : op.key ≠ Model2.nameKey self.name) (known : op.key ∈ keys) :
    ∃ store' reply, store.call setup.schemas setup.stateTable op.call = some (store', reply) ∧
      Holds setup self keys store' tally := by
  obtain ⟨subs, ⟨chains, view, keeps⟩, watchers, among⟩ := holds.states
  obtain ⟨next, reply, chains', view', called, answers, keeps'⟩ := keeps.step sized
  have own_kept : Kv.learnCall (Model2.nameKey self.name)
      (tally.stored.map fun counter => (⟨intBytes counter, 4⟩ : Kv.Known)) op reply.status =
        tally.stored.map fun counter => ⟨intBytes counter, 4⟩ := by
    cases op with
    | put other val valLen =>
        have apart : other ≠ Model2.nameKey self.name := different
        cases val <;> simp [Kv.learnCall, Kv.SubOp.flow, Kv.FlowOp.key, apart]
    | del other =>
        have apart : other ≠ Model2.nameKey self.name := different
        simp [Kv.learnCall, Kv.SubOp.flow, Kv.FlowOp.key, apart]
    | subscribe other sub => rfl
    | unsubscribe other sub => rfl
  rw [own_kept] at keeps'
  have states : HoldsKey setup self keys tally next _ :=
    { keeps := ⟨chains', view', keeps'⟩
      watchers := by rw [Kv.afterCall_of_ne different, watchers]
      among := by
        intro key present
        by_cases same : op.key = key
        · subst same
          exact .inr known
        · rw [Kv.afterCall_of_ne same] at present
          exact among key present }
  refine ⟨_, reply, Store.call_eq called, holds.setStates states (fun sub => ?_) holds.idle⟩
  have silent : ∀ note ∈ reply.notified, setup.stateTable = setup.stateTable →
      note.key ≠ Model2.nameKey self.name := by
    intro note member _
    rw [answers.key_of_notified member]
    exact different
  rw [Store.told_after_of_silent store next silent, holds.told]

theorem call_own (holds : Holds setup self keys store tally) (op : Kv.SubOp KvKey)
    (own : op.key = Model2.nameKey self.name) (reading : op.flow = none)
    {watchers : Finset Kv.Sub} (idle : tally.stored = none → watchers = ∅)
    (moves : ∀ subs reply, subs (Model2.nameKey self.name) = tally.stored.map (fun _ =>
        tally.watchers) → Kv.Answers (setup.schemas setup.stateTable) subs reply op →
      reply.notified = [] ∧ Kv.afterCall (Model2.nameKey self.name)
        (tally.stored.map fun _ => tally.watchers) (op, reply.status) =
          tally.stored.map fun _ => watchers) :
    ∃ store' reply, store.call setup.schemas setup.stateTable op.call = some (store', reply) ∧
      Holds setup self keys store' { tally with watchers := watchers } := by
  obtain ⟨subs, ⟨chains, view, keeps⟩, known, among⟩ := holds.states
  have sized : op.Sized := by
    cases op with
    | put key val valLen => cases val <;> cases reading
    | _ => trivial
  obtain ⟨next, reply, chains', view', called, answers, keeps'⟩ := keeps.step sized
  obtain ⟨quiet, moved⟩ := moves subs reply known answers
  rw [Kv.learnCall, reading] at keeps'
  have states : HoldsKey setup self keys { tally with watchers := watchers } next _ :=
    { keeps := ⟨chains', view', keeps'⟩
      watchers := by rw [known, moved]
      among := by
        intro key present
        by_cases same : op.key = key
        · exact .inl (same.symm.trans own)
        · rw [Kv.afterCall_of_ne same] at present
          exact among key present }
  refine ⟨_, reply, Store.call_eq called, holds.setStates states (fun sub => ?_) idle⟩
  rw [Store.told_after_of_silent store next (by simp [quiet]), holds.told]

theorem watch (holds : Holds setup self keys store tally) (sub : Kv.Sub) :
    ∃ store' reply, store.call setup.schemas setup.stateTable
        (.subscribe (Model2.nameKey self.name) sub) = some (store', reply) ∧
      Holds setup self keys store' (tally.step (.watch sub)) := by
  cases stored : tally.stored with
  | none =>
      have same : tally.step (.watch sub) = { tally with watchers := tally.watchers } := by
        simp [Tally.step, stored]
      rw [same]
      refine holds.call_own (.subscribe (Model2.nameKey self.name) sub) rfl rfl holds.idle
        fun subs reply _ answers => ⟨answers.2, ?_⟩
      rw [stored]
      cases reply.status <;> simp [Kv.afterCall]
  | some counter =>
      have same : tally.step (.watch sub) =
          { tally with watchers := insert sub tally.watchers } := by
        simp [Tally.step, stored]
      rw [same]
      refine holds.call_own (.subscribe (Model2.nameKey self.name) sub) rfl rfl (by simp [stored])
        fun subs reply known answers => ⟨answers.2, ?_⟩
      have ok : reply.status = .ok := answers.1.mpr (by simp [known, stored])
      simp [ok, Kv.afterCall, stored]

theorem unwatch (holds : Holds setup self keys store tally) (sub : Kv.Sub) :
    ∃ store' reply, store.call setup.schemas setup.stateTable
        (.unsubscribe (Model2.nameKey self.name) sub) = some (store', reply) ∧
      Holds setup self keys store' (tally.step (.unwatch sub)) := by
  have idle : tally.stored = none → tally.watchers.erase sub = ∅ := by
    intro stored
    rw [holds.idle stored, Finset.erase_empty]
  refine holds.call_own (.unsubscribe (Model2.nameKey self.name) sub) rfl rfl idle
    fun subs reply known answers => ⟨answers.2, ?_⟩
  cases stored : tally.stored with
  | none => cases reply.status <;> simp [Kv.afterCall]
  | some counter =>
      rw [stored] at known
      by_cases member : sub ∈ tally.watchers
      · have ok : reply.status = .ok := answers.1.mpr ⟨_, known, member⟩
        simp [ok, Kv.afterCall]
      · have refused : reply.status ≠ .ok := by
          intro ok
          obtain ⟨present, found, inside⟩ := answers.1.mp ok
          obtain rfl := Option.some.inj (known.symm.trans found)
          exact member inside
        rw [Finset.erase_eq_of_notMem member]
        cases status : reply.status <;> simp_all [Kv.afterCall]

theorem get (holds : Holds setup self keys store tally) :
    ∃ reply, store.call setup.schemas setup.stateTable (.get (Model2.nameKey self.name) 4) =
        some (store, reply) ∧
      Kv.step (setup.schemas setup.stateTable) (store.tables setup.stateTable)
        (.get (Model2.nameKey self.name) 4) = .ok (store.tables setup.stateTable, reply) ∧
      reply.outcome = match tally.stored with
        | none => (.err, none)
        | some counter => (.ok, some (intBytes counter, 4)) := by
  obtain ⟨subs, ⟨chains, view, keeps⟩, -, -⟩ := holds.states
  have returned {reply : Kv.Reply KvKey}
      (called : Kv.step (setup.schemas setup.stateTable) (store.tables setup.stateTable)
        (.get (Model2.nameKey self.name) 4) = .ok (store.tables setup.stateTable, reply)) :
      store.call setup.schemas setup.stateTable (.get (Model2.nameKey self.name) 4) =
        some (store, reply) := by
    rw [Store.call_eq called, Store.after, Kv.notified_get called, Function.update_eq_self]
    simp
  cases stored : tally.stored with
  | none =>
      rw [stored] at keeps
      obtain ⟨reply, called, outcome⟩ := keeps.get_of_none 4
      exact ⟨reply, returned called, called, outcome⟩
  | some counter =>
      rw [stored] at keeps
      have within : min 4 4 ≤ (intBytes counter).length := by simp
      obtain ⟨reply, called, outcome⟩ := keeps.get within
      refine ⟨reply, returned called, called, outcome.trans ?_⟩
      simp [List.take_of_length_le]

theorem stored_eq (holds : Holds setup self keys store tally) :
    store.stored setup self = tally.stored := by
  obtain ⟨⟨status, value, notified⟩, -, called, outcome⟩ := holds.get
  obtain ⟨status_eq, value_eq⟩ := Prod.mk.inj outcome
  rw [Store.stored, called]
  cases stored : tally.stored with
  | none =>
      rw [stored] at outcome
      obtain ⟨rfl, rfl⟩ := Prod.mk.inj outcome
      rfl
  | some counter =>
      rw [stored] at outcome
      obtain ⟨rfl, rfl⟩ := Prod.mk.inj outcome
      simp

theorem mem_watching (holds : Holds setup self keys store tally) :
    sub ∈ store.watching setup self ↔ sub ∈ tally.watchers := by
  obtain ⟨subs, ⟨chains, view, keeps⟩, watchers, -⟩ := holds.states
  have listed := (keeps.tracks.subscribers (Model2.nameKey self.name)).trans watchers
  rw [Store.watching, keeps.tracks.shown.subscribers_eq]
  cases slot : view.slot (Model2.nameKey self.name) with
  | none =>
      rw [slot, Option.map_none, eq_comm, Option.map_eq_none_iff] at listed
      simp [holds.idle listed]
  | some idx =>
      rw [slot, Option.map_some, eq_comm, Option.map_eq_some_iff] at listed
      obtain ⟨_, -, same⟩ := listed
      rw [same]
      simp

/-- A new instance takes over the published counter, or publishes zero. -/
theorem init (holds : Holds setup self keys store tally)
    (room : keys.card < (setup.schemas setup.stateTable).capacity) :
    ∃ store' ctx, Model2.compInit setup self store = some (store', ctx) ∧
      some ctx = (tally.step .stage).staged.map (Model2.ctxOf setup) ∧
      Holds setup self keys store' (tally.step .stage) := by
  obtain ⟨⟨status, value, notified⟩, called, -, outcome⟩ := holds.get
  simp only [Model2.compInit, called, Option.bind_eq_bind, Option.bind_some, Tally.step]
  cases stored : tally.stored with
  | none =>
      rw [stored] at outcome
      obtain ⟨rfl, rfl⟩ := Prod.mk.inj outcome
      obtain ⟨store', reply, put, after⟩ := holds.publish room 0
      exact ⟨store', Model2.ctxOf setup 0, by simp [put], rfl, after.congr rfl rfl rfl⟩
  | some counter =>
      rw [stored] at outcome
      obtain ⟨rfl, rfl⟩ := Prod.mk.inj outcome
      exact ⟨store, Model2.ctxOf setup counter, by simp, rfl, holds.congr stored.symm rfl rfl⟩

theorem message (holds : Holds setup self keys store tally)
    (room : keys.card < (setup.schemas setup.stateTable).capacity) (counter : Int32) :
    ∃ store', Calls.interpret (Store.perform setup.schemas) store
        (Model2.compOnMsg self (some (Model2.ctxOf setup counter))) =
          some (store', some (Model2.ctxOf setup (counter + 1))) ∧
      Holds setup self keys store' (tally.publish (counter + 1)) := by
  obtain ⟨first, reply, put, published⟩ := holds.publish room (counter + 1)
  obtain ⟨second, reply', put', after⟩ := published.call_test setup.apart.symm
    (.put (.counter (counter + 1)) (some (intBytes (counter + 1))) 4)
  refine ⟨second, ?_, after⟩
  have tested : first.call setup.schemas setup.testTable
      (.put (.counter (counter + 1)) (some (intBytes (counter + 1))) 4) =
        some (second, reply') := put'
  simp only [Model2.compOnMsg, Model2.ctxOf, Calls.interpret_bind, interpret_putInto put,
    interpret_putInto tested, Option.bind_some]
  rfl

end Holds

/-! ## Runs -/

/-- The instances have the counters of the tally, and the store holds it. -/
structure Agrees (setup : Setup) (owner : Self) (keys : Finset KvKey) (world : World)
    (tally : Tally) : Prop where
  active : world.active = tally.active.map (Model2.ctxOf setup)
  staged : world.staged = tally.staged.map (Model2.ctxOf setup)
  holds : Holds setup owner keys world.store tally

namespace Agrees

variable {world : World}

theorem new (setup : Setup) (self : Self) (keys : Finset KvKey) :
    Agrees setup self keys (.new setup) .new where
  active := rfl
  staged := rfl
  holds :=
    { states := ⟨fun _ => none, ⟨_, _, .create _ _⟩, rfl, by simp⟩
      tests := fun table _ => ⟨_, _, _, .create _⟩
      told := fun _ => rfl
      idle := fun _ => rfl }

theorem setStore (agrees : Agrees setup self keys world tally) {tally' : Tally} {store' : Store}
    (active : tally'.active = tally.active) (staged : tally'.staged = tally.staged)
    (holds : Holds setup self keys store' tally') :
    Agrees setup self keys { world with store := store' } tally' where
  active := by rw [active, ← agrees.active]
  staged := by rw [staged, ← agrees.staged]
  holds := holds

theorem step (agrees : Agrees setup self keys world tally)
    (room : keys.card < (setup.schemas setup.stateTable).capacity) {act : StoreAct}
    (foreign : act.Foreign setup self keys) :
    ∃ next, world.step setup self act = some next ∧
      Agrees setup self keys next (tally.step act) := by
  have holds := agrees.holds
  cases act with
  | message =>
      simp only [World.step, Tally.step, agrees.active]
      cases active : tally.active with
      | none =>
          refine ⟨_, rfl, ?_, agrees.staged, holds⟩
          rw [active]
          rfl
      | some counter =>
          obtain ⟨store', handled, after⟩ := holds.message room counter
          simp only [Option.map_some, handled]
          exact ⟨_, rfl, rfl, agrees.staged, after.congr rfl rfl rfl⟩
  | stage =>
      obtain ⟨store', ctx, started, staged, after⟩ := holds.init room
      simp only [World.step, started, Option.map_some]
      refine ⟨_, rfl, ?_, staged, after⟩
      rw [agrees.active, Tally.step]
      cases tally.stored <;> rfl
  | discard => exact ⟨_, rfl, agrees.active, rfl, holds.congr rfl rfl rfl⟩
  | swap =>
      simp only [World.step, Tally.step, agrees.staged]
      cases staged : tally.staged with
      | none => exact ⟨_, rfl, agrees⟩
      | some counter => exact ⟨_, rfl, rfl, rfl, holds.congr rfl rfl rfl⟩
  | unload => exact ⟨_, rfl, rfl, agrees.staged, holds.congr rfl rfl rfl⟩
  | watch sub =>
      obtain ⟨store', reply, called, after⟩ := holds.watch sub
      simp only [World.step, called, Option.map_some]
      refine ⟨_, rfl, agrees.setStore ?_ ?_ after⟩
      all_goals
        rw [Tally.step]
        split <;> rfl
  | unwatch sub =>
      obtain ⟨store', reply, called, after⟩ := holds.unwatch sub
      simp only [World.step, called, Option.map_some]
      exact ⟨_, rfl, agrees.setStore rfl rfl after⟩
  | other table op =>
      obtain ⟨sized, apart⟩ := foreign
      have called : ∃ store' reply, world.store.call setup.schemas table op.call =
          some (store', reply) ∧ Holds setup self keys store' tally := by
        by_cases same : table = setup.stateTable
        · subst same
          exact holds.call_other sized (apart rfl).1 (apart rfl).2
        · exact holds.call_test same op
      obtain ⟨store', reply, called, after⟩ := called
      simp only [World.step, called, Option.map_some]
      exact ⟨_, rfl, agrees.setStore rfl rfl after⟩

theorem run (agrees : Agrees setup self keys world tally)
    (room : keys.card < (setup.schemas setup.stateTable).capacity) {acts : List StoreAct}
    (foreign : ∀ act ∈ acts, act.Foreign setup self keys) :
    ∃ last, world.run setup self acts = some last ∧
      Agrees setup self keys last (tally.run acts) := by
  induction acts generalizing world tally with
  | nil => exact ⟨world, rfl, agrees⟩
  | cons act acts ih =>
      rw [List.forall_mem_cons] at foreign
      obtain ⟨next, stepped, agrees'⟩ := agrees.step room foreign.1
      obtain ⟨last, ran, final⟩ := ih agrees' foreign.2
      refine ⟨last, ?_, final⟩
      rw [World.run, List.foldlM_cons, stepped]
      exact ran

end Agrees

/-- However reloads, messages, watchers and other components interleave, the instance has the counter
of the tally, a reader finds the published counter, and each watcher is told exactly what the tally
says, in this order. -/
theorem run_eq_tally (setup : Setup) (self : Self) {keys : Finset KvKey}
    (room : keys.card < (setup.schemas setup.stateTable).capacity) {acts : List StoreAct}
    (foreign : ∀ act ∈ acts, act.Foreign setup self keys) :
    ∃ last, (World.new setup).run setup self acts = some last ∧
      last.active.map Model2.Ctx.localCounter = (Tally.new.run acts).active ∧
      last.store.stored setup self = (Tally.new.run acts).stored ∧
      ∀ sub, last.store.told setup self sub =
        ((Tally.new.run acts).heard sub).map Model1.detected := by
  obtain ⟨last, ran, agrees⟩ := (Agrees.new setup self keys).run room foreign
  refine ⟨last, ran, ?_, agrees.holds.stored_eq, agrees.holds.told⟩
  rw [agrees.active, Option.map_map]
  exact congrFun Option.map_id _

/-- The tables as the component creates them, with all keys in one bucket. -/
def oneBucket : Setup where
  schemas := fun table =>
    ⟨fun _ => 0, .counter 0, 4, if table = 0 then 128 else 1024, 1024, by split <;> decide⟩
  stateTable := 0
  testTable := 1
  apart := by decide
  stateSize := rfl

/-- `Comp-2`. -/
def comp2 : Self := ⟨2, [67, 111, 109, 112, 45, 50]⟩

/-- A reload with a message while the new instance waits. -/
def lossyReload : List StoreAct :=
  [.stage, .swap, .watch ⟨1, 1⟩, .message, .stage, .message, .swap, .message]

/-- The message is told the watcher and forgotten by the new instance. -/
theorem run_eq_tally_reload :
    ∃ last, (World.new oneBucket).run oneBucket comp2 lossyReload = some last ∧
      last.active.map Model2.Ctx.localCounter = some 2 ∧
      last.store.stored oneBucket comp2 = some 2 ∧
      last.store.told oneBucket comp2 ⟨1, 1⟩ = [1, 2, 2].map Model1.detected := by
  have room : (∅ : Finset KvKey).card < (oneBucket.schemas oneBucket.stateTable).capacity := by
    decide
  have foreign : ∀ act ∈ lossyReload, act.Foreign oneBucket comp2 ∅ := by
    simp [lossyReload, StoreAct.Foreign]
  obtain ⟨last, ran, active, stored, told⟩ := run_eq_tally oneBucket comp2 room foreign
  exact ⟨last, ran, active, stored, told ⟨1, 1⟩⟩

/-! ## Reloads without messages -/

/-- No message is dispatched while there is an instance of an unfinished reload. -/
def Calm : Bool → List StoreAct → Prop
  | _, [] => True
  | pending, .message :: acts => pending = false ∧ Calm pending acts
  | _, .stage :: acts => Calm true acts
  | _, .discard :: acts => Calm false acts
  | _, .swap :: acts => Calm false acts
  | pending, _ :: acts => Calm pending acts

/-- The instances have the published counter. -/
structure Tally.Even (tally : Tally) (pending : Bool) : Prop where
  active : ∀ counter ∈ tally.active, tally.stored = some counter
  staged : ∀ counter ∈ tally.staged, tally.stored = some counter
  idle : pending = false → tally.staged = none

/-- Whether an instance waits after a step. -/
def StoreAct.pending (before : Bool) : StoreAct → Bool
  | .stage => true
  | .discard | .swap => false
  | _ => before

theorem calm_cons {pending : Bool} {act : StoreAct} {acts : List StoreAct} :
    Calm pending (act :: acts) ↔
      (act = .message → pending = false) ∧ Calm (act.pending pending) acts := by
  cases act <;> simp [Calm, StoreAct.pending]

/-- Without messages in between, the counters stay the same everywhere. -/
theorem Tally.Even.step {pending : Bool} (even : tally.Even pending) {act : StoreAct}
    (calm : act = .message → pending = false) : (tally.step act).Even (act.pending pending) := by
  obtain ⟨active, staged, idle⟩ := even
  cases act with
  | message =>
      have alone := idle (calm rfl)
      cases known : tally.active with
      | none => simpa [Tally.step, known, StoreAct.pending] using ⟨active, staged, idle⟩
      | some counter =>
          refine ⟨?_, ?_, ?_⟩ <;> simp [Tally.step, known, Tally.publish, alone]
  | stage =>
      cases stored : tally.stored with
      | none =>
          have nobody : tally.active = none := by
            cases known : tally.active with
            | none => rfl
            | some counter => simp [stored] at active; simp [active] at known
          refine ⟨?_, ?_, ?_⟩ <;>
            simp [Tally.step, stored, Tally.publish, nobody, StoreAct.pending]
      | some counter =>
          refine ⟨?_, ?_, ?_⟩
          · simpa [Tally.step, stored] using active
          · simp [Tally.step, stored]
          · simp [StoreAct.pending]
  | discard =>
      refine ⟨active, ?_, ?_⟩ <;> simp [Tally.step]
  | swap =>
      cases waiting : tally.staged with
      | none =>
          refine ⟨?_, ?_, ?_⟩ <;> simp [Tally.step, waiting]
          exact active
      | some counter =>
          refine ⟨?_, ?_, ?_⟩ <;> simp [Tally.step, waiting]
          exact staged counter waiting
  | unload => exact ⟨by simp [Tally.step], staged, idle⟩
  | watch sub =>
      cases stored : tally.stored with
      | none => simpa [Tally.step, stored, StoreAct.pending] using ⟨active, staged, idle⟩
      | some counter => exact ⟨by simpa [Tally.step, stored] using active,
          by simpa [Tally.step, stored] using staged, fun done => by
            simpa [Tally.step, stored] using idle done⟩
  | unwatch sub => exact ⟨active, staged, idle⟩
  | other table op => exact ⟨active, staged, idle⟩

/-- Whether an instance waits after some steps. -/
def pendingAfter (pending : Bool) (acts : List StoreAct) : Bool :=
  acts.foldl (fun pending act => act.pending pending) pending

theorem calm_append {pending : Bool} {acts later : List StoreAct} :
    Calm pending (acts ++ later) ↔
      Calm pending acts ∧ Calm (pendingAfter pending acts) later := by
  induction acts generalizing pending with
  | nil => simp [Calm, pendingAfter]
  | cons act acts ih => rw [List.cons_append, calm_cons, calm_cons, ih, and_assoc]; rfl

theorem Tally.Even.run {pending : Bool} (even : tally.Even pending) {acts : List StoreAct}
    (calm : Calm pending acts) : (tally.run acts).Even (pendingAfter pending acts) := by
  induction acts generalizing tally pending with
  | nil => exact even
  | cons act acts ih =>
      obtain ⟨first, rest⟩ := calm_cons.mp calm
      exact ih (even.step first) rest

/-- The counters after a counter. -/
def countersFrom (counter : Int32) (count : Nat) : List Int32 :=
  (List.range count).map fun turn => counter + .ofNat (turn + 1)

theorem countersFrom_add (counter : Int32) (count more : Nat) :
    countersFrom counter (count + more) =
      countersFrom counter count ++ countersFrom (counter + .ofNat count) more := by
  simp only [countersFrom, List.range_add, List.map_append, List.map_map]
  refine congrArg _ (List.map_congr_left fun turn _ => ?_)
  simp only [Function.comp_apply, Int32.add_assoc, ← Int32.ofNat_add]
  rw [Nat.add_assoc]

/-- How many messages a step handles. -/
def StoreAct.messages : StoreAct → Nat
  | .message => 1
  | _ => 0

/-- While the component is loaded and watched, and no message comes during a reload, a message is
counted and told once. -/
theorem Tally.Even.step_counts {pending : Bool} (even : tally.Even pending)
    (loaded : tally.active = some counter) (watched : sub ∈ tally.watchers) {act : StoreAct}
    (stays : act ≠ .unload ∧ act ≠ .unwatch sub) :
    (tally.step act).active = some (counter + .ofNat act.messages) ∧
      sub ∈ (tally.step act).watchers ∧
      (tally.step act).heard sub = tally.heard sub ++ countersFrom counter act.messages := by
  have stored := even.active counter loaded
  cases act with
  | message =>
      simp [Tally.step, loaded, Tally.publish, watched, StoreAct.messages, countersFrom]
  | stage => simpa [Tally.step, stored, StoreAct.messages, countersFrom] using ⟨loaded, watched⟩
  | discard => simpa [Tally.step, StoreAct.messages, countersFrom] using ⟨loaded, watched⟩
  | swap =>
      cases waiting : tally.staged with
      | none =>
          simpa [Tally.step, waiting, StoreAct.messages, countersFrom] using ⟨loaded, watched⟩
      | some fresh =>
          obtain rfl : counter = fresh :=
            Option.some.inj (stored.symm.trans (even.staged fresh waiting))
          simpa [Tally.step, waiting, StoreAct.messages, countersFrom] using watched
  | unload => exact absurd rfl stays.1
  | watch other =>
      simpa [Tally.step, stored, StoreAct.messages, countersFrom] using
        ⟨loaded, Or.inr watched⟩
  | unwatch other =>
      have different : sub ≠ other := by
        rintro rfl
        exact stays.2 rfl
      simpa [Tally.step, StoreAct.messages, countersFrom] using ⟨loaded, different, watched⟩
  | other table op =>
      simpa [Tally.step, StoreAct.messages, countersFrom] using ⟨loaded, watched⟩

theorem Tally.Even.run_counts {pending : Bool} (even : tally.Even pending)
    (loaded : tally.active = some counter) (watched : sub ∈ tally.watchers) {acts : List StoreAct}
    (calm : Calm pending acts) (stays : ∀ act ∈ acts, act ≠ .unload ∧ act ≠ .unwatch sub) :
    (tally.run acts).active = some (counter + .ofNat (acts.map StoreAct.messages).sum) ∧
      (tally.run acts).heard sub =
        tally.heard sub ++ countersFrom counter (acts.map StoreAct.messages).sum := by
  induction acts generalizing tally pending counter with
  | nil => simpa [Tally.run, countersFrom] using loaded
  | cons act acts ih =>
      obtain ⟨first, rest⟩ := calm_cons.mp calm
      rw [List.forall_mem_cons] at stays
      obtain ⟨loaded', watched', heard⟩ := even.step_counts loaded watched stays.1
      obtain ⟨active, told⟩ := ih (even.step first) loaded' watched' rest stays.2
      rw [heard, List.append_assoc, ← countersFrom_add] at told
      rw [Int32.add_assoc, ← Int32.ofNat_add] at active
      rw [List.map_cons, List.sum_cons]
      exact ⟨active, told⟩

/-- If no message is dispatched during a reload, a subscriber of a loaded component is told one
counter for each message, and each is the one after the last, as long as it stays subscribed and the
component loaded, however often the component is reloaded meanwhile. -/
theorem told_consecutive (setup : Setup) (self : Self) {keys : Finset KvKey}
    (room : keys.card < (setup.schemas setup.stateTable).capacity) {before after : List StoreAct}
    (sub : Kv.Sub) (calm : Calm false (before ++ after))
    (foreign : ∀ act ∈ before ++ after, act.Foreign setup self keys)
    (stays : ∀ act ∈ after, act ≠ .unload ∧ act ≠ .unwatch sub) {middle : World}
    {ctx : Model2.Ctx} (ran : (World.new setup).run setup self before = some middle)
    (loaded : middle.active = some ctx) (watches : sub ∈ middle.store.watching setup self) :
    ∃ last, middle.run setup self after = some last ∧
      last.active.map Model2.Ctx.localCounter =
        some (ctx.localCounter + .ofNat (after.map StoreAct.messages).sum) ∧
      last.store.stored setup self = last.active.map Model2.Ctx.localCounter ∧
      last.store.told setup self sub = middle.store.told setup self sub ++
        (countersFrom ctx.localCounter (after.map StoreAct.messages).sum).map Model1.detected := by
  rw [List.forall_mem_append] at foreign
  obtain ⟨calm_before, calm_after⟩ := calm_append.mp calm
  obtain ⟨middle', ran', agrees⟩ := (Agrees.new setup self keys).run room foreign.1
  obtain rfl := Option.some.inj (ran.symm.trans ran')
  obtain ⟨last, ran_after, agrees_last⟩ := agrees.run room foreign.2
  have even : (Tally.new.run before).Even (pendingAfter false before) :=
    Tally.Even.run ⟨by simp [Tally.new], by simp [Tally.new], fun _ => rfl⟩ calm_before
  obtain ⟨counter, active, rfl⟩ : ∃ counter, (Tally.new.run before).active = some counter ∧
      Model2.ctxOf setup counter = ctx := by
    rwa [agrees.active, Option.map_eq_some_iff] at loaded
  have watched := agrees.holds.mem_watching.mp watches
  obtain ⟨counted, told⟩ := even.run_counts active watched calm_after stays
  have final := (even.run calm_after).active _ counted
  refine ⟨last, ran_after, ?_, ?_, ?_⟩
  · rw [agrees_last.active, Option.map_map, counted]
    rfl
  · rw [agrees_last.active, agrees_last.holds.stored_eq, Option.map_map, counted, final]
    rfl
  · rw [agrees_last.holds.told, told, List.map_append, agrees.holds.told]
    rfl

/-- The component is loaded, is subscribed to and handles a message. -/
def firstMessage : List StoreAct := [.stage, .swap, .watch ⟨1, 1⟩, .message]

/-- Three messages, a reload and a reload that fails. -/
def calmReloads : List StoreAct :=
  [.message, .stage, .swap, .message, .stage, .discard, .message]

theorem told_consecutive_reloads :
    ∃ middle last, (World.new oneBucket).run oneBucket comp2 firstMessage = some middle ∧
      middle.run oneBucket comp2 calmReloads = some last ∧
      last.active.map Model2.Ctx.localCounter = some 4 ∧
      last.store.stored oneBucket comp2 = last.active.map Model2.Ctx.localCounter ∧
      last.store.told oneBucket comp2 ⟨1, 1⟩ = [1, 2, 3, 4].map Model1.detected := by
  have room : (∅ : Finset KvKey).card < (oneBucket.schemas oneBucket.stateTable).capacity := by
    decide
  have foreign : ∀ act ∈ firstMessage ++ calmReloads, act.Foreign oneBucket comp2 ∅ := by
    simp [firstMessage, calmReloads, StoreAct.Foreign]
  have calm : Calm false (firstMessage ++ calmReloads) := by
    simp [firstMessage, calmReloads, Calm]
  have stays : ∀ act ∈ calmReloads, act ≠ .unload ∧ act ≠ .unwatch ⟨1, 1⟩ := by
    simp [calmReloads]
  obtain ⟨middle, ran, agrees⟩ := (Agrees.new oneBucket comp2 ∅).run room
    (List.forall_mem_append.mp foreign).1
  have watches : ⟨1, 1⟩ ∈ middle.store.watching oneBucket comp2 :=
    agrees.holds.mem_watching.mpr (by decide)
  obtain ⟨last, ran_after, counted, stored, told⟩ :=
    told_consecutive oneBucket comp2 room ⟨1, 1⟩ calm foreign stays ran agrees.active watches
  refine ⟨middle, last, ran, ran_after, counted, stored, ?_⟩
  rw [told, agrees.holds.told]
  rfl

end CodexNos.Components
