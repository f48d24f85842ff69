import CodexNos.Kv.Refinement

/-!
# A table as keys, slots and a stack

What a caller can learn about a table depends on which slot a key has, on the value areas and
lengths of the slots, and on the order of the unused slots.  The view forgets hashes, chains and
counters.  It keeps the bytes of unused slots, which the calls pass on from key to key: a put
without a value leaves them in place.  Every call acts on the view as a function, and the calls on
a new table act as their views do.
-/

namespace CodexNos.Kv

open Lib

variable {K : Type*}

/-- A call on a table; a pointer is read and released before the next call. -/
inductive FlowOp (K : Type*)
  /-- `nos_kv_put` with a value. -/
  | put (key : K) (value : List UInt8)
  /-- `nos_kv_put` with a null value. -/
  | putNull (key : K) (valLen : Nat)
  /-- `nos_kv_del`. -/
  | del (key : K)
  /-- `nos_kv_get` with a buffer of a length. -/
  | get (key : K) (bufLen : Nat)
  /-- `nos_kv_get_ptr`, and `nos_kv_release_ptr` when the bytes have been read. -/
  | peek (key : K)
  deriving DecidableEq, Repr

/-- The key of a call. -/
def FlowOp.key : FlowOp K → K
  | .put key _ => key
  | .putNull key _ => key
  | .del key => key
  | .get key _ => key
  | .peek key => key

/-- Perform one call. -/
def flowStep [DecidableEq K] (schema : Schema K) (table : Table K) :
    FlowOp K → Except Stuck (Table K × Outcome)
  | .put key value =>
      (nosKvPut schema table key (some value) value.length).map fun (table, reply) =>
        (table, reply.outcome)
  | .putNull key valLen =>
      (nosKvPut schema table key none valLen).map fun (table, reply) => (table, reply.outcome)
  | .del key => (nosKvDel schema table key).map fun (table, reply) => (table, reply.outcome)
  | .get key bufLen =>
      (nosKvGet schema table key bufLen).map fun (table, reply) => (table, reply.outcome)
  | .peek key =>
      match nosKvGetPtr schema table key with
      | .error stuck => .error stuck
      | .ok (locked, reply) =>
          if reply.status = .ok then
            match nosKvReleasePtr locked (some (schema.bucketOf key)) with
            | .error stuck => .error stuck
            | .ok (released, _) => .ok (released, reply.outcome)
          else .ok (locked, reply.outcome)

/-- Perform the calls in order and collect what they return. -/
def flowRun [DecidableEq K] (schema : Schema K) :
    Table K → List (FlowOp K) → Except Stuck (List (FlowOp K × Outcome))
  | _, [] => .ok []
  | table, op :: ops =>
      match flowStep schema table op with
      | .error stuck => .error stuck
      | .ok (next, outcome) =>
          match flowRun schema next ops with
          | .error stuck => .error stuck
          | .ok log => .ok ((op, outcome) :: log)

/-! ## The view -/

/-- Keys, slots and the stack of unused slots. -/
structure View (K : Type*) where
  /-- The slot of a key. -/
  slot : K → Option Nat
  /-- The value area of a slot. -/
  value : Nat → List UInt8
  /-- The number of valid bytes of a slot. -/
  valLen : Nat → Nat
  /-- The unused slots, the next one first. -/
  free : List Nat

namespace View

/-- Write to a slot. -/
def write (view : View K) (idx : Nat) (val : Option (List UInt8)) (valLen : Nat) : View K :=
  { view with
    value := Function.update view.value idx (storeValue (view.value idx) val valLen)
    valLen := Function.update view.valLen idx valLen }

variable [DecidableEq K]

/-- A put. -/
def put (view : View K) (maxValSize : Nat) (key : K) (val : Option (List UInt8)) (valLen : Nat) :
    View K × Outcome :=
  if maxValSize < valLen then (view, (.err, none))
  else
    match view.slot key with
    | some idx => (view.write idx val valLen, (.ok, none))
    | none =>
        match view.free with
        | [] => (view, (.errBusy, none))
        | idx :: free =>
            ({ view with slot := Function.update view.slot key (some idx), free := free }.write
              idx val valLen, (.ok, none))

/-- A removal. -/
def del (view : View K) (key : K) : View K × Outcome :=
  match view.slot key with
  | some idx =>
      ({ view with slot := Function.update view.slot key none, free := idx :: view.free },
        (.ok, none))
  | none => (view, (.err, none))

/-- What a read returns of the first bytes of a key. -/
def read (view : View K) (key : K) (limit : Nat → Nat) : Outcome :=
  match view.slot key with
  | some idx =>
      (.ok, some ((view.value idx).take (limit (view.valLen idx)), view.valLen idx))
  | none => (.err, none)

/-- Perform one call. -/
def step (view : View K) (maxValSize : Nat) : FlowOp K → View K × Outcome
  | .put key value => view.put maxValSize key (some value) value.length
  | .putNull key valLen => view.put maxValSize key none valLen
  | .del key => view.del key
  | .get key bufLen => (view, view.read key (min bufLen))
  | .peek key => (view, view.read key id)

/-- Perform the calls in order and collect what they return. -/
def run (maxValSize : Nat) : View K → List (FlowOp K) → List (FlowOp K × Outcome)
  | _, [] => []
  | view, op :: ops =>
      (op, (view.step maxValSize op).2) :: run maxValSize (view.step maxValSize op).1 ops

/-- A new table. -/
def create (maxValSize capacity : Nat) : View K where
  slot := fun _ => none
  value := fun _ => List.replicate maxValSize 0
  valLen := fun _ => 0
  free := (List.range capacity).reverse

end View

/-! ## Tables and their views -/

variable [DecidableEq K] {schema : Schema K} {table : Table K} {view : View K}
  {chains : Nat → List Nat}

/-- The view is that of the table, and nobody holds a lock. -/
structure Shows (schema : Schema K) (table : Table K) (chains : Nat → List Nat)
    (view : View K) : Prop where
  /-- The representation invariant. -/
  wf : Wf schema table chains
  /-- No lock is held. -/
  idle : ∀ bucket, (table.buckets bucket).readers = 0
  /-- The slots of the keys. -/
  slot : ∀ key, view.slot key = slotOf schema table chains key
  /-- The value areas. -/
  value : ∀ idx, view.value idx = (table.pool idx).value
  /-- The lengths. -/
  valLen : ∀ idx, view.valLen idx = (table.pool idx).valLen
  /-- The stack. -/
  free : view.free = table.free.reverse

namespace Shows

theorem findSlot (shown : Shows schema table chains view) (key : K) :
    table.findSlot schema key = some (view.slot key) := by
  rw [shown.slot]
  exact shown.wf.findSlot_eq key

/-- Nothing is left on the stack if its top is below zero. -/
theorem free_eq_nil_iff (shown : Shows schema table chains view) :
    view.free = [] ↔ table.freeTop < 0 := by
  have top := shown.wf.top
  rw [shown.free, List.reverse_eq_nil_iff, ← List.length_eq_zero_iff, Wf.free_length]
  omega

theorem updateSlot (shown : Shows schema table chains view) (key : K) (idx : Nat)
    (val : Option (List UInt8)) (valLen : Nat) :
    Shows schema (table.updateSlot idx key val valLen).1 chains (view.write idx val valLen) := by
  have slots_eq (other : K) : slotOf schema (table.updateSlot idx key val valLen).1 chains other =
      slotOf schema table chains other := by
    have key_eq : (table.updateSlot idx key val valLen).1.key = table.key := by
      rw [Table.updateSlot, Table.key_setEntry]
      exact Function.update_eq_self ..
    unfold slotOf Table.hasKey
    rw [key_eq]
  refine ⟨shown.wf.setEntry rfl rfl, shown.idle, ?_, ?_, ?_, shown.free⟩
  · intro other
    rw [slots_eq]
    exact shown.slot other
  · intro other
    by_cases same : other = idx
    · subst same
      simp [View.write, Table.updateSlot, Table.setEntry, shown.value]
    · simp [View.write, Table.updateSlot, Table.setEntry, shown.value, same]
  · intro other
    by_cases same : other = idx
    · subst same
      simp [View.write, Table.updateSlot, Table.setEntry]
    · simp [View.write, Table.updateSlot, Table.setEntry, shown.valLen, same]

theorem insertSlot (shown : Shows schema table chains view) {key : K} {idx : Nat}
    {free : List Nat} (absent : view.slot key = none) (unused : view.free = idx :: free)
    (val : Option (List UInt8)) (valLen : Nat) :
    ∃ chains', Shows schema (table.insertSlot (schema.bucketOf key) key val valLen) chains'
      ({ view with slot := Function.update view.slot key (some idx), free := free }.write
        idx val valLen) := by
  have wf := shown.wf
  have room : 0 ≤ table.freeTop := by
    by_contra below
    simp [shown.free_eq_nil_iff.mpr (not_le.mp below)] at unused
  have absent_chain : ∀ other ∈ chains (schema.bucketOf key), table.key other ≠ key := by
    rw [shown.slot] at absent
    intro other member same
    have fails := List.find?_eq_none.mp absent other member
    simp [Table.hasKey, same] at fails
  have top_eq : table.freeStack table.freeTop.toNat = idx ∧
      (table.insertSlot (schema.bucketOf key) key val valLen).free.reverse = free := by
    have stack := shown.free.symm.trans unused
    rw [Table.free_insertSlot room (schema.bucketOf key) key val valLen, List.reverse_append] at stack
    exact List.cons.inj stack
  obtain ⟨rfl, rfl⟩ := top_eq
  refine ⟨_, wf.insertSlot room absent_chain val valLen, ?_, ?_, ?_, ?_, rfl⟩
  · intro bucket
    by_cases same : bucket = schema.bucketOf key
    · subst same
      simp [Table.insertSlot, Table.setFirst, Table.setEntry, shown.idle]
    · simp [Table.insertSlot, Table.setFirst, Table.setEntry, shown.idle, same]
  · intro other
    rw [wf.slotOf_insertSlot room absent_chain]
    by_cases same : other = key
    · subst same
      simp [View.write]
    · simp [View.write, same, shown.slot]
  · intro other
    by_cases same : other = table.freeStack table.freeTop.toNat
    · subst same
      simp [View.write, Table.insertSlot, Table.setFirst, Table.setEntry, shown.value]
    · simp [View.write, Table.insertSlot, Table.setFirst, Table.setEntry, shown.value, same]
  · intro other
    by_cases same : other = table.freeStack table.freeTop.toNat
    · subst same
      simp [View.write, Table.insertSlot, Table.setFirst, Table.setEntry]
    · simp [View.write, Table.insertSlot, Table.setFirst, Table.setEntry, shown.valLen, same]

theorem unlinkSlot (shown : Shows schema table chains view) {key : K} {idx : Nat}
    {front back : List Nat} (split : chains (schema.bucketOf key) = front ++ idx :: back)
    (same_key : table.key idx = key) :
    Shows schema (table.unlinkSlot (schema.bucketOf key) front.getLast? idx)
      (Function.update chains (schema.bucketOf key) (front ++ back))
      { view with slot := Function.update view.slot key none, free := idx :: view.free } := by
  have wf := shown.wf
  refine ⟨wf.unlinkSlot split, ?_, ?_, ?_, ?_, ?_⟩
  · intro bucket
    have idle := shown.idle bucket
    cases front.getLast? with
    | none =>
        by_cases same : bucket = schema.bucketOf key
        · subst same
          simpa [Table.unlinkSlot, Table.relink, Table.setFirst, Table.setEntry] using idle
        · simpa [Table.unlinkSlot, Table.relink, Table.setFirst, Table.setEntry, same] using idle
    | some prev => exact idle
  · intro other
    rw [wf.slotOf_unlinkSlot split same_key]
    by_cases same : other = key
    · simp [same]
    · simp [same, shown.slot]
  · intro other
    obtain ⟨link, subs, changed⟩ :=
      table.pool_unlinkSlot (schema.bucketOf key) front.getLast? idx other
    rw [changed]
    exact shown.value other
  · intro other
    obtain ⟨link, subs, changed⟩ :=
      table.pool_unlinkSlot (schema.bucketOf key) front.getLast? idx other
    rw [changed]
    exact shown.valLen other
  · rw [Table.free_unlinkSlot wf.top, List.reverse_append, shown.free]
    rfl

theorem relock (shown : Shows schema table chains view) (bucket : Nat) :
    Shows schema ((table.setReaders bucket 1).setReaders bucket 0) chains view := by
  refine ⟨(shown.wf.setReaders bucket 1).setReaders bucket 0, ?_, shown.slot, shown.value,
    shown.valLen, shown.free⟩
  intro other
  by_cases same : other = bucket
  · simp [Table.setReaders, same]
  · simpa [Table.setReaders, same] using shown.idle other

/-! ## The calls act on the view -/

theorem put_step (shown : Shows schema table chains view) (key : K) (val : Option (List UInt8))
    (valLen : Nat) : ∃ table' reply chains', nosKvPut schema table key val valLen =
        .ok (table', reply) ∧ reply.outcome = (view.put schema.maxValSize key val valLen).2 ∧
      Shows schema table' chains' (view.put schema.maxValSize key val valLen).1 := by
  have idle := shown.idle (schema.bucketOf key)
  have walked := shown.findSlot key
  unfold nosKvPut View.put
  split
  · exact ⟨table, _, chains, rfl, rfl, shown⟩
  · rw [if_neg (by simp [idle]), walked]
    cases slot : view.slot key with
    | some idx => exact ⟨_, _, chains, rfl, rfl, shown.updateSlot key idx val valLen⟩
    | none =>
        cases unused : view.free with
        | nil =>
            simp only [shown.free_eq_nil_iff.mp unused, if_true]
            exact ⟨table, _, chains, rfl, rfl, shown⟩
        | cons idx free =>
            have room : ¬ table.freeTop < 0 := by
              rw [← shown.free_eq_nil_iff, unused]
              simp
            simp only [room, if_false]
            obtain ⟨chains', after⟩ := shown.insertSlot slot unused val valLen
            exact ⟨_, _, chains', rfl, rfl, after⟩

theorem del_step (shown : Shows schema table chains view) (key : K) :
    ∃ table' reply chains', nosKvDel schema table key = .ok (table', reply) ∧
      reply.outcome = (view.del key).2 ∧ Shows schema table' chains' (view.del key).1 := by
  have wf := shown.wf
  have idle := shown.idle (schema.bucketOf key)
  have linked := wf.linked (schema.bucketOf key)
  have enough := wf.length_le (schema.bucketOf key)
  have slot_eq := shown.slot key
  simp only [nosKvDel, View.del, idle, ne_eq, not_true_eq_false, if_false]
  cases slot : slotOf schema table chains key with
  | none =>
      rw [linked.searchPrev_eq_none slot enough none, slot_eq, slot]
      exact ⟨table, _, chains, rfl, rfl, shown⟩
  | some idx =>
      obtain ⟨passes, front, back, split, fails⟩ := List.find?_eq_some_iff_append.mp slot
      rw [split] at linked enough
      have short : front.length < schema.capacity := by
        rw [List.length_append, List.length_cons] at enough
        omega
      have same_key : table.key idx = key := by simpa [Table.hasKey] using passes
      rw [linked.searchPrev_eq_some passes (by simpa using fails) short none, slot_eq, slot]
      simp only [Option.or_none]
      exact ⟨_, _, _, rfl, rfl, shown.unlinkSlot split same_key⟩

theorem get_step (shown : Shows schema table chains view) (key : K) (bufLen : Nat) :
    ∃ reply, nosKvGet schema table key bufLen = .ok (table, reply) ∧
      reply.outcome = view.read key (min bufLen) := by
  simp only [nosKvGet, View.read, shown.findSlot key]
  cases slot : view.slot key with
  | none => exact ⟨_, rfl, rfl⟩
  | some idx =>
      refine ⟨_, rfl, ?_⟩
      simp only [Reply.outcome, memcpy, List.drop_nil, List.append_nil, shown.value, shown.valLen]
      congr 4
      split <;> omega

theorem peek_step (shown : Shows schema table chains view) (key : K) :
    ∃ table', flowStep schema table (.peek key) = .ok (table', view.read key id) ∧
      Shows schema table' chains view := by
  have idle := shown.idle (schema.bucketOf key)
  have walked := shown.findSlot key
  simp only [flowStep, nosKvGetPtr, View.read]
  cases slot : view.slot key with
  | none =>
      rw [walked, slot]
      exact ⟨table, rfl, shown⟩
  | some idx =>
      rw [walked, slot]
      refine ⟨_, ?_, shown.relock (schema.bucketOf key)⟩
      have held : ((table.setReaders (schema.bucketOf key) 1).buckets
          (schema.bucketOf key)).readers = 1 := by
        simp [Table.setReaders]
      simp [idle, nosKvReleasePtr, held, Reply.outcome, Table.contents, shown.value, shown.valLen]

theorem flowStep (shown : Shows schema table chains view) (op : FlowOp K) :
    ∃ table' chains', flowStep schema table op =
        .ok (table', (view.step schema.maxValSize op).2) ∧
      Shows schema table' chains' (view.step schema.maxValSize op).1 := by
  cases op with
  | put key value =>
      obtain ⟨table', reply, chains', called, outcome, after⟩ :=
        shown.put_step key (some value) value.length
      exact ⟨table', chains', by simp [Kv.flowStep, called, Except.map, outcome, View.step], after⟩
  | putNull key valLen =>
      obtain ⟨table', reply, chains', called, outcome, after⟩ := shown.put_step key none valLen
      exact ⟨table', chains', by simp [Kv.flowStep, called, Except.map, outcome, View.step], after⟩
  | del key =>
      obtain ⟨table', reply, chains', called, outcome, after⟩ := shown.del_step key
      exact ⟨table', chains', by simp [Kv.flowStep, called, Except.map, outcome, View.step], after⟩
  | get key bufLen =>
      obtain ⟨reply, called, outcome⟩ := shown.get_step key bufLen
      exact ⟨table, chains, by simp [Kv.flowStep, called, Except.map, outcome, View.step], shown⟩
  | peek key =>
      obtain ⟨table', called, after⟩ := shown.peek_step key
      exact ⟨table', chains, called, after⟩

/-- Calls on the table are calls on its view, and none of them is stuck. -/
theorem flowRun (shown : Shows schema table chains view) (ops : List (FlowOp K)) :
    flowRun schema table ops = .ok (view.run schema.maxValSize ops) := by
  induction ops generalizing table view chains with
  | nil => rfl
  | cons op ops ih =>
      obtain ⟨table', chains', called, after⟩ := shown.flowStep op
      simp only [Kv.flowRun, called, ih after, View.run]

theorem create (schema : Schema K) :
    Shows schema (nosKvTableCreate schema) (fun _ => [])
      (.create schema.maxValSize schema.capacity) where
  wf := (Represents.create schema).wf
  idle := fun _ => rfl
  slot := fun key => by simp [View.create, slotOf]
  value := fun _ => rfl
  valLen := fun _ => rfl
  free := by simp [View.create, Table.free, nosKvTableCreate]

end Shows

end CodexNos.Kv
