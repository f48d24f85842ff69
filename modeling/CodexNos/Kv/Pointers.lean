import CodexNos.Kv.KeyState

/-!
# Pointers into a table

`nos_kv_get_ptr` returns a pointer into the table and keeps the bucket locked for reading until the
pointer is released.  In every interleaving of threads that release what they hold, the bytes at a
pointer stay as they were, and a call waits exactly if it writes to a bucket with a pointer.
-/

namespace CodexNos.Kv

open Lib

variable {K : Type*}

/-! ## Locks and data -/

/-- The table without its read locks. -/
def Table.unlocked (table : Table K) : Table K :=
  { table with buckets := fun bucket => { table.buckets bucket with readers := 0 } }

namespace Table

theorem unlocked_setFirst (table : Table K) (bucket : Nat) (first : Option Nat) :
    (table.setFirst bucket first).unlocked = table.unlocked.setFirst bucket first := by
  simp only [setFirst, unlocked, mk.injEq, and_true]
  funext other
  by_cases same : other = bucket
  · simp [same]
  · simp [same]

theorem unlocked_setReaders (table : Table K) (bucket readers : Nat) :
    (table.setReaders bucket readers).unlocked = table.unlocked := by
  simp only [setReaders, unlocked, mk.injEq, and_true]
  funext other
  by_cases same : other = bucket
  · simp [same]
  · simp [same]

theorem unlocked_insertSlot (table : Table K) (bucket : Nat) (key : K) (val : Option (List UInt8))
    (valLen : Nat) : (table.insertSlot bucket key val valLen).unlocked =
      table.unlocked.insertSlot bucket key val valLen := by
  let newIdx := table.freeStack table.freeTop.toNat
  let filled : Entry K :=
    { nextIdx := (table.buckets bucket).firstIdx
      valLen := valLen
      subList := []
      key := key
      value := storeValue (table.pool newIdx).value val valLen }
  calc
    (table.insertSlot bucket key val valLen).unlocked =
        { ((table.setEntry newIdx filled).setFirst bucket (some newIdx)).unlocked with
          freeTop := table.freeTop - 1
          usedCount := uint32Inc table.usedCount } := rfl
    _ = table.unlocked.insertSlot bucket key val valLen := by
        rw [unlocked_setFirst]
        rfl

theorem unlocked_relink (table : Table K) (bucket : Nat) (prev next : Option Nat) :
    (table.relink bucket prev next).unlocked = table.unlocked.relink bucket prev next := by
  cases prev with
  | none => exact table.unlocked_setFirst bucket next
  | some prevIdx => rfl

theorem unlocked_unlinkSlot (table : Table K) (bucket : Nat) (prev : Option Nat) (idx : Nat) :
    (table.unlinkSlot bucket prev idx).unlocked = table.unlocked.unlinkSlot bucket prev idx := by
  let unlinked := table.relink bucket prev (table.nextIdx idx)
  calc
    (table.unlinkSlot bucket prev idx).unlocked =
        { unlinked.unlocked.setEntry idx { unlinked.unlocked.pool idx with subList := [] } with
          freeStack := Function.update table.freeStack (table.freeTop + 1).toNat idx
          freeTop := table.freeTop + 1
          usedCount := uint32Dec table.usedCount } := rfl
    _ = table.unlocked.unlinkSlot bucket prev idx := by
        rw [unlocked_relink]
        rfl

end Table

variable [DecidableEq K] {schema : Schema K} {table : Table K}

/-- A call that finds its bucket unlocked does to the data what it does to an unlocked table, and
leaves the locks alone. -/
theorem step_unlocked {op : SubOp K} (idle : (table.buckets (schema.bucketOf op.key)).readers = 0) :
    step schema table.unlocked op.call =
        (step schema table op.call).map (fun after => (after.1.unlocked, after.2)) ∧
      ∀ next reply, step schema table op.call = .ok (next, reply) →
        ∀ bucket, (next.buckets bucket).readers = (table.buckets bucket).readers := by
  have found (key : K) : table.unlocked.findSlot schema key = table.findSlot schema key := rfl
  have walked (key : K) : Chain.searchPrev table.unlocked.nextIdx (table.unlocked.hasKey key)
      schema.capacity none (table.unlocked.buckets (schema.bucketOf key)).firstIdx =
        Chain.searchPrev table.nextIdx (table.hasKey key) schema.capacity none
          (table.buckets (schema.bucketOf key)).firstIdx := rfl
  have free (bucket : Nat) : (table.unlocked.buckets bucket).readers = 0 := rfl
  have pool : table.unlocked.pool = table.pool := rfl
  cases op with
  | put key val valLen =>
      have top : table.unlocked.freeTop = table.freeTop := rfl
      rw [SubOp.key] at idle
      simp only [step, SubOp.call, nosKvPut, idle, free, found, top, ne_eq, not_true_eq_false,
        if_false]
      split
      · exact ⟨rfl, by simp⟩
      · cases table.findSlot schema key with
        | none => exact ⟨rfl, by simp⟩
        | some slot =>
            cases slot with
            | some idx =>
                refine ⟨rfl, ?_⟩
                rintro _ _ ⟨⟩ bucket
                rfl
            | none =>
                simp only
                split
                · exact ⟨rfl, by simp⟩
                · refine ⟨?_, ?_⟩
                  · rw [← Table.unlocked_insertSlot]
                    rfl
                  · rintro _ _ ⟨⟩ bucket
                    exact table.readers_insertSlot ..
  | del key =>
      rw [SubOp.key] at idle
      simp only [step, SubOp.call, nosKvDel, idle, free, walked, ne_eq, not_true_eq_false, if_false]
      split
      · exact ⟨rfl, by simp⟩
      · exact ⟨rfl, by simp⟩
      · refine ⟨?_, ?_⟩
        · rw [← Table.unlocked_unlinkSlot]
          rfl
        · rintro _ _ ⟨⟩ bucket
          exact table.readers_unlinkSlot ..
  | subscribe key sub =>
      rw [SubOp.key] at idle
      simp only [step, SubOp.call, nosKvSubscribe, idle, free, found, ne_eq, not_true_eq_false,
        if_false]
      cases table.findSlot schema key with
      | none => exact ⟨rfl, by simp⟩
      | some slot =>
          cases slot with
          | none => exact ⟨rfl, by simp⟩
          | some idx =>
              by_cases known : sub ∈ (table.pool idx).subList
              · simp only [pool, known, if_true]
                exact ⟨rfl, by simp⟩
              · simp only [pool, known, if_false]
                refine ⟨rfl, ?_⟩
                rintro _ _ ⟨⟩ bucket
                rfl
  | unsubscribe key sub =>
      rw [SubOp.key] at idle
      simp only [step, SubOp.call, nosKvUnsubscribe, idle, free, found, ne_eq, not_true_eq_false,
        if_false]
      cases table.findSlot schema key with
      | none => exact ⟨rfl, by simp⟩
      | some slot =>
          cases slot with
          | none => exact ⟨rfl, by simp⟩
          | some idx =>
              by_cases known : sub ∈ (table.pool idx).subList
              · simp only [pool, known, if_true]
                refine ⟨rfl, ?_⟩
                rintro _ _ ⟨⟩ bucket
                rfl
              · simp only [pool, known, if_false]
                exact ⟨rfl, by simp⟩

/-! ## Threads that hold pointers -/

/-- What `nos_kv_get_ptr` has returned and is not released. -/
structure Pointer (K : Type*) where
  /-- The key. -/
  key : K
  /-- The slot that is pointed into. -/
  slot : Nat
  /-- The length that was reported. -/
  valLen : Nat
  /-- The bytes that were pointed to. -/
  bytes : List UInt8
  /-- The bucket of the handle. -/
  bucket : Nat
  deriving DecidableEq, Repr

/-- A table and the pointers that its users hold. -/
structure Shared (K : Type*) where
  /-- The table. -/
  table : Table K
  /-- The pointers. -/
  held : List (Pointer K)

/-- A step of one of the threads. -/
inductive SharedOp (K : Type*)
  /-- `nos_kv_get_ptr`. -/
  | acquire (key : K)
  /-- `nos_kv_release_ptr` of one of the pointers. -/
  | release (place : Nat)
  /-- `nos_kv_get`. -/
  | get (key : K) (bufLen : Nat)
  /-- A call that locks for writing. -/
  | write (op : SubOp K)

namespace Shared

/-- A new table. -/
def new (schema : Schema K) : Shared K := ⟨nosKvTableCreate schema, []⟩

/-- One step; a call that waits or cannot return has no result. -/
def step (schema : Schema K) (state : Shared K) : SharedOp K → Except Stuck (Shared K)
  | .acquire key =>
      (nosKvGetPtr schema state.table key).map fun (table, reply) =>
        match reply.value, state.table.findSlot schema key with
        | some (bytes, valLen), some (some slot) =>
            ⟨table, ⟨key, slot, valLen, bytes, schema.bucketOf key⟩ :: state.held⟩
        | _, _ => ⟨table, state.held⟩
  | .release place =>
      match state.held[place]? with
      | none => .ok state
      | some pointer =>
          (nosKvReleasePtr state.table (some pointer.bucket)).map fun (table, _) =>
            ⟨table, state.held.eraseIdx place⟩
  | .get key bufLen =>
      (nosKvGet schema state.table key bufLen).map fun (table, _) => ⟨table, state.held⟩
  | .write op => (Kv.step schema state.table op.call).map fun (table, _) => ⟨table, state.held⟩

/-- A run of the threads. -/
def run (schema : Schema K) : Shared K → List (SharedOp K) → Except Stuck (Shared K) :=
  List.foldlM (step schema)

/-- The bytes that a pointer points to. -/
def read (state : Shared K) (pointer : Pointer K) : List UInt8 :=
  (state.table.pool pointer.slot).value.take pointer.valLen

end Shared

/-- A value that is put has its length. -/
def SharedOp.Sized : SharedOp K → Prop
  | .write op => op.Sized
  | _ => True

/-- A call wants to write to a bucket that somebody points into. -/
def SharedOp.Waits (schema : Schema K) (held : List (Pointer K)) : SharedOp K → Prop
  | .write (.put key _ valLen) =>
      valLen ≤ schema.maxValSize ∧ ∃ pointer ∈ held, pointer.bucket = schema.bucketOf key
  | .write op => ∃ pointer ∈ held, pointer.bucket = schema.bucketOf op.key
  | _ => False

/-! ## Pointers stay good -/

/-- The data, the locks and the pointers fit together. -/
structure Good (schema : Schema K) (state : Shared K) (chains : Nat → List Nat) (view : View K)
    (subs : K → Option (Finset Sub)) : Prop where
  tracks : Tracks schema state.table.unlocked chains view subs
  proper : view.Proper schema.maxValSize
  readers : ∀ bucket, (state.table.buckets bucket).readers =
    state.held.countP fun pointer => pointer.bucket = bucket
  bucket : ∀ pointer ∈ state.held, pointer.bucket = schema.bucketOf pointer.key
  slot : ∀ pointer ∈ state.held, view.slot pointer.key = some pointer.slot
  valLen : ∀ pointer ∈ state.held, view.valLen pointer.slot = pointer.valLen
  bytes : ∀ pointer ∈ state.held,
    (view.value pointer.slot).take pointer.valLen = pointer.bytes

namespace Good

variable {state : Shared K} {chains : Nat → List Nat} {view : View K}
  {subs : K → Option (Finset Sub)}

theorem new (schema : Schema K) : Good schema (.new schema) (fun _ => [])
    (.create schema.maxValSize schema.capacity) fun _ => none where
  tracks := .create schema
  proper := View.proper_create ..
  readers := fun _ => rfl
  bucket := by simp [Shared.new]
  slot := by simp [Shared.new]
  valLen := by simp [Shared.new]
  bytes := by simp [Shared.new]

/-- A bucket is locked exactly if somebody points into it. -/
theorem idle_iff (good : Good schema state chains view subs) (bucket : Nat) :
    (state.table.buckets bucket).readers = 0 ↔ ∀ pointer ∈ state.held, pointer.bucket ≠ bucket := by
  rw [good.readers, List.countP_eq_zero]
  simp

theorem findSlot (good : Good schema state chains view subs) (key : K) :
    state.table.findSlot schema key = some (view.slot key) :=
  good.tracks.shown.findSlot key

/-- A call that does not wait leaves what is pointed to. -/
theorem write (good : Good schema state chains view subs) {op : SubOp K} (sized : op.Sized)
    (idle : (state.table.buckets (schema.bucketOf op.key)).readers = 0) :
    ∃ next chains' view' subs', state.step schema (.write op) = .ok next ∧
      Good schema next chains' view' subs' := by
  obtain ⟨plain, locks⟩ := step_unlocked idle
  obtain ⟨after, reply, chains', view', called, -, tracks⟩ := good.tracks.step op
  obtain ⟨⟨next, reply'⟩, called', same⟩ : ∃ done, Kv.step schema state.table op.call =
      .ok done ∧ (done.1.unlocked, done.2) = (after, reply) := by
    rw [called] at plain
    cases direct : Kv.step schema state.table op.call with
    | error stuck => simp [direct, Except.map] at plain
    | ok done => exact ⟨done, rfl, by simpa [direct, Except.map, eq_comm] using plain⟩
  obtain ⟨rfl, rfl⟩ := Prod.mk.inj same
  have apart : ∀ pointer ∈ state.held, pointer.key ≠ op.key := by
    intro pointer member key
    refine (good.idle_iff _).mp idle pointer member ?_
    rw [good.bucket pointer member, key]
  have others : view'.Proper schema.maxValSize ∧ ∀ key ≠ op.key,
      view'.slot key = view.slot key ∧ ∀ idx, view.slot key = some idx →
        view'.value idx = view.value idx ∧ view'.valLen idx = view.valLen idx := by
    cases writing : op.flow with
    | none =>
        obtain ⟨chains'', shown⟩ := good.tracks.shown.reads writing called
        rw [tracks.shown.view_eq shown]
        exact ⟨good.proper, fun key _ => ⟨rfl, fun idx _ => ⟨rfl, rfl⟩⟩⟩
    | some flow =>
        obtain ⟨-, chains'', shown⟩ := good.tracks.shown.writes sized writing called
        rw [tracks.shown.view_eq shown]
        refine ⟨good.proper.step flow, fun key different => ?_⟩
        have different' : flow.key ≠ key := by
          rw [SubOp.flow_key writing]
          exact different.symm
        exact ⟨View.slot_step_other different',
          fun idx slot => View.bytes_step_other good.proper different' slot⟩
  obtain ⟨proper, others⟩ := others
  refine ⟨⟨next, state.held⟩, chains', view', _, by simp [Shared.step, called', Except.map],
    tracks, proper, ?_, good.bucket, ?_, ?_, ?_⟩
  · intro bucket
    rw [locks next _ called']
    exact good.readers bucket
  all_goals
    intro pointer member
    have kept := others pointer.key (apart pointer member)
    have slot := good.slot pointer member
  · rw [kept.1, slot]
  · rw [(kept.2 _ slot).2, good.valLen pointer member]
  · rw [(kept.2 _ slot).1, good.bytes pointer member]

/-- A call waits exactly if somebody points into the bucket that it writes to. -/
theorem write_error_iff (good : Good schema state chains view subs) {op : SubOp K}
    (sized : op.Sized) (stuck : Stuck) : state.step schema (.write op) = .error stuck ↔
      stuck = .blocked ∧ SharedOp.Waits schema state.held (.write op) := by
  by_cases idle : (state.table.buckets (schema.bucketOf op.key)).readers = 0
  · obtain ⟨next, chains', view', subs', done, -⟩ := good.write sized idle
    have nobody : ¬ ∃ pointer ∈ state.held, pointer.bucket = schema.bucketOf op.key := by
      rintro ⟨pointer, member, bucket⟩
      exact (good.idle_iff _).mp idle pointer member bucket
    rw [done]
    refine iff_of_false (by simp) ?_
    rintro ⟨-, waits⟩
    cases op with
    | put key val valLen => exact nobody waits.2
    | del key => exact nobody waits
    | subscribe key sub => exact nobody waits
    | unsubscribe key sub => exact nobody waits
  · have somebody : ∃ pointer ∈ state.held, pointer.bucket = schema.bucketOf op.key := by
      simpa using mt (good.idle_iff _).mpr idle
    have waits : (∃ pointer ∈ state.held, pointer.bucket = schema.bucketOf op.key) ↔ True :=
      iff_true_intro somebody
    cases op with
    | put key val valLen =>
        rw [SubOp.key] at idle waits
        by_cases long : schema.maxValSize < valLen
        · simp [Shared.step, Kv.step, SubOp.call, nosKvPut, long, Except.map, SharedOp.Waits,
            not_le.mpr long]
        · simp [Shared.step, Kv.step, SubOp.call, nosKvPut, long, idle, Except.map, SharedOp.Waits,
            not_lt.mp long, waits, eq_comm]
    | del key =>
        rw [SubOp.key] at idle
        simp [Shared.step, Kv.step, SubOp.call, nosKvDel, idle, Except.map, SharedOp.Waits, waits,
          eq_comm]
    | subscribe key sub =>
        rw [SubOp.key] at idle
        simp [Shared.step, Kv.step, SubOp.call, nosKvSubscribe, idle, Except.map, SharedOp.Waits,
          waits, eq_comm]
    | unsubscribe key sub =>
        rw [SubOp.key] at idle
        simp [Shared.step, Kv.step, SubOp.call, nosKvUnsubscribe, idle, Except.map, SharedOp.Waits,
          waits, eq_comm]

theorem acquire (good : Good schema state chains view subs) (key : K) :
    ∃ next, state.step schema (.acquire key) = .ok next ∧
      Good schema next chains view subs := by
  have found := good.findSlot key
  cases slot : view.slot key with
  | none =>
      rw [slot] at found
      refine ⟨state, ?_, good⟩
      simp [Shared.step, nosKvGetPtr, found, Except.map, Reply.ofStatus]
  | some idx =>
      rw [slot] at found
      have shown := good.tracks.shown
      refine ⟨⟨state.table.setReaders (schema.bucketOf key)
            ((state.table.buckets (schema.bucketOf key)).readers + 1),
          ⟨key, idx, (state.table.pool idx).valLen, state.table.contents idx,
            schema.bucketOf key⟩ :: state.held⟩,
        by simp only [Shared.step, nosKvGetPtr, found, Except.map], ?_, good.proper, ?_, ?_, ?_,
        ?_, ?_⟩
      · simpa [Table.unlocked_setReaders] using good.tracks
      · intro bucket
        by_cases same : bucket = schema.bucketOf key
        · subst same
          simp [Table.setReaders, good.readers]
        · simp [Table.setReaders, good.readers, same, Ne.symm same]
      all_goals
        intro pointer member
        rcases List.mem_cons.mp member with rfl | old
      · rfl
      · exact good.bucket pointer old
      · exact slot
      · exact good.slot pointer old
      · exact shown.valLen idx
      · exact good.valLen pointer old
      · simp only [Table.contents, shown.value]
        rfl
      · exact good.bytes pointer old

theorem release (good : Good schema state chains view subs) (place : Nat) :
    ∃ next, state.step schema (.release place) = .ok next ∧
      Good schema next chains view subs := by
  cases held : state.held[place]? with
  | none => exact ⟨state, by simp [Shared.step, held], good⟩
  | some pointer =>
      obtain ⟨inside, at_place⟩ := List.getElem?_eq_some_iff.mp held
      have member : pointer ∈ state.held := at_place ▸ List.getElem_mem inside
      have locked : (state.table.buckets pointer.bucket).readers ≠ 0 := by
        intro idle
        exact (good.idle_iff _).mp idle pointer member rfl
      have counted (bucket : Nat) : state.held.countP (fun other => other.bucket = bucket) =
          (state.held.eraseIdx place).countP (fun other => other.bucket = bucket) +
            if pointer.bucket = bucket then 1 else 0 := by
        have counted := (List.getElem_cons_eraseIdx_perm inside).countP_eq
          fun other => decide (other.bucket = bucket)
        rw [at_place, List.countP_cons] at counted
        simpa using counted.symm
      have kept : ∀ other ∈ state.held.eraseIdx place, other ∈ state.held :=
        fun other => List.mem_of_mem_eraseIdx
      refine ⟨⟨state.table.setReaders pointer.bucket
            ((state.table.buckets pointer.bucket).readers - 1), state.held.eraseIdx place⟩,
        by simp [Shared.step, held, nosKvReleasePtr, locked, Except.map], ?_, good.proper, ?_,
        fun other inside => good.bucket other (kept other inside),
        fun other inside => good.slot other (kept other inside),
        fun other inside => good.valLen other (kept other inside),
        fun other inside => good.bytes other (kept other inside)⟩
      · simpa [Table.unlocked_setReaders] using good.tracks
      · intro bucket
        by_cases same : bucket = pointer.bucket
        · subst same
          simp [Table.setReaders, good.readers, counted]
        · simp [Table.setReaders, good.readers, counted, same, Ne.symm same]

theorem get (good : Good schema state chains view subs) (key : K) (bufLen : Nat) :
    state.step schema (.get key bufLen) = .ok state := by
  have found := good.findSlot key
  cases slot : view.slot key with
  | none =>
      rw [slot] at found
      simp [Shared.step, nosKvGet, found, Except.map]
  | some idx =>
      rw [slot] at found
      simp [Shared.step, nosKvGet, found, Except.map]

theorem step (good : Good schema state chains view subs) {op : SharedOp K} (sized : op.Sized)
    {next : Shared K} (done : state.step schema op = .ok next) :
    ∃ chains' view' subs', Good schema next chains' view' subs' := by
  cases op with
  | acquire key =>
      obtain ⟨next', done', after⟩ := good.acquire key
      obtain rfl := Except.ok.inj (done.symm.trans done')
      exact ⟨_, _, _, after⟩
  | release place =>
      obtain ⟨next', done', after⟩ := good.release place
      obtain rfl := Except.ok.inj (done.symm.trans done')
      exact ⟨_, _, _, after⟩
  | get key bufLen =>
      obtain rfl := Except.ok.inj (done.symm.trans (good.get key bufLen))
      exact ⟨_, _, _, good⟩
  | write op =>
      by_cases idle : (state.table.buckets (schema.bucketOf op.key)).readers = 0
      · obtain ⟨next', chains', view', subs', done', after⟩ := good.write sized idle
        obtain rfl := Except.ok.inj (done.symm.trans done')
        exact ⟨_, _, _, after⟩
      · have waits := mt (good.write_error_iff sized .blocked).mpr (by simp [done])
        have somebody : ∃ pointer ∈ state.held, pointer.bucket = schema.bucketOf op.key := by
          simpa using mt (good.idle_iff _).mpr idle
        -- A value that is too long is refused before the lock is asked for.
        cases op with
        | put key val valLen =>
            have long : schema.maxValSize < valLen := by
              by_contra short
              exact waits ⟨rfl, not_lt.mp short, somebody⟩
            have same : state.step schema (.write (.put key val valLen)) = .ok state := by
              simp [Shared.step, Kv.step, SubOp.call, nosKvPut, long, Except.map]
            obtain rfl := Except.ok.inj (done.symm.trans same)
            exact ⟨_, _, _, good⟩
        | del key => exact absurd ⟨rfl, somebody⟩ waits
        | subscribe key sub => exact absurd ⟨rfl, somebody⟩ waits
        | unsubscribe key sub => exact absurd ⟨rfl, somebody⟩ waits

theorem run (good : Good schema state chains view subs) {ops : List (SharedOp K)}
    (sized : ∀ op ∈ ops, op.Sized) {last : Shared K} (ran : state.run schema ops = .ok last) :
    ∃ chains' view' subs', Good schema last chains' view' subs' := by
  induction ops generalizing state chains view subs with
  | nil =>
      obtain rfl := Except.ok.inj ran
      exact ⟨_, _, _, good⟩
  | cons op ops ih =>
      rw [List.forall_mem_cons] at sized
      rw [Shared.run, List.foldlM_cons] at ran
      cases done : state.step schema op with
      | error stuck =>
          rw [done] at ran
          cases ran
      | ok next =>
          rw [done] at ran
          obtain ⟨chains', view', subs', after⟩ := good.step sized.1 done
          exact ih after sized.2 ran

/-- A call has no result exactly if it waits for somebody to release a pointer. -/
theorem error_iff (good : Good schema state chains view subs) {op : SharedOp K} (sized : op.Sized)
    (stuck : Stuck) : state.step schema op = .error stuck ↔
      stuck = .blocked ∧ op.Waits schema state.held := by
  cases op with
  | acquire key =>
      obtain ⟨next, done, -⟩ := good.acquire key
      simp [done, SharedOp.Waits]
  | release place =>
      obtain ⟨next, done, -⟩ := good.release place
      simp [done, SharedOp.Waits]
  | get key bufLen => simp [good.get, SharedOp.Waits]
  | write op => exact good.write_error_iff sized stuck

end Good

/-- Whatever threads do with a table, as long as they release only what they hold: the bytes at
every pointer are those that were there when it was handed out, its key is still in its slot, and a
call waits exactly if it writes to a bucket that somebody points into. -/
theorem pointers_stable (schema : Schema K) {ops : List (SharedOp K)}
    (sized : ∀ op ∈ ops, op.Sized) {state : Shared K}
    (ran : (Shared.new schema).run schema ops = .ok state) :
    (∀ pointer ∈ state.held, state.read pointer = pointer.bytes ∧
      (state.table.pool pointer.slot).valLen = pointer.valLen ∧
      state.table.findSlot schema pointer.key = some (some pointer.slot)) ∧
    ∀ op : SharedOp K, op.Sized → ∀ stuck, state.step schema op = .error stuck ↔
      stuck = .blocked ∧ op.Waits schema state.held := by
  obtain ⟨chains, view, subs, good⟩ := (Good.new schema).run sized ran
  refine ⟨fun pointer member => ?_, fun op sized stuck => good.error_iff sized stuck⟩
  have shown := good.tracks.shown
  refine ⟨?_, ?_, ?_⟩
  · rw [← good.bytes pointer member, shown.value]
    rfl
  · rw [← good.valLen pointer member, shown.valLen]
    rfl
  · rw [good.findSlot, good.slot pointer member]

/-- A pointer to one byte. -/
def pointing : List (SharedOp Nat) :=
  [.write (.put 1 (some [7]) 1), .acquire 1, .write (.put 2 (some [9]) 1)]

/-- The byte can be read and not be removed. -/
theorem pointers_stable_pointing :
    ∃ state, (Shared.new oneByte).run oneByte pointing = .ok state ∧
      (∀ pointer ∈ state.held, state.read pointer = pointer.bytes) ∧
      (state.step oneByte (.write (.del 1)) = .error .blocked ↔
        SharedOp.Waits oneByte state.held (.write (.del 1))) := by
  obtain ⟨state, ran⟩ : ∃ state, (Shared.new oneByte).run oneByte pointing = .ok state := ⟨_, rfl⟩
  have sized : ∀ op ∈ pointing, op.Sized := by
    simp [pointing, SharedOp.Sized, SubOp.Sized, View.Sized]
  obtain ⟨stable, waits⟩ := pointers_stable oneByte sized ran
  refine ⟨state, ran, fun pointer member => (stable pointer member).1, ?_⟩
  simpa using waits (.write (.del 1)) trivial .blocked

end CodexNos.Kv
