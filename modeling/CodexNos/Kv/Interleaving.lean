import CodexNos.Kv.Table
import CodexNos.Lib.Transition

/-!
# Concurrent puts and deletes

Several threads run `nos_kv_put` and `nos_kv_del` on one table.  A step is one read or write of a
shared field.  The bucket lock keeps two calls on one bucket apart, but the stack of unused slots
and the counter belong to the whole table, and nothing keeps calls on different buckets apart there.
Subscribers are called after the lock is released and touch no field of the table here.  A call that
nothing interrupts does what it does as one step.
-/

namespace CodexNos.Kv

open Lib

variable {K : Type*} {ι : Type*}

/-- A call in progress. -/
inductive Call (K : Type*)
  | put (key : K) (val : Option (List UInt8)) (valLen : Nat)
  | del (key : K)
  deriving DecidableEq, Repr

namespace Call

/-- Key of a call. -/
def key : Call K → K
  | .put key _ _ => key
  | .del key => key

/-- Value written by a call. -/
def val : Call K → Option (List UInt8)
  | .put _ val _ => val
  | .del _ => none

/-- Length written by a call. -/
def valLen : Call K → Nat
  | .put _ _ valLen => valLen
  | .del _ => 0

/-- The call as one step. -/
def op : Call K → KvOp K
  | .put key val valLen => .put key val valLen
  | .del key => .del key

end Call

/-- The next shared access of a call, with the local variables it needs. -/
inductive Point
  /-- Take the bucket lock. -/
  | lock
  /-- Read the chain start. -/
  | first
  /-- Loop test and key comparison at the current slot. -/
  | test (prev curr : Option Nat)
  /-- Read the link of the current slot. -/
  | advance (curr : Nat)
  /-- Put, key present: write the value bytes. -/
  | storeValue (idx : Nat)
  /-- Put, key present: write the length. -/
  | storeLen (idx : Nat)
  /-- Put, key present: read the subscriptions. -/
  | readSubs (idx : Nat)
  /-- Put, key absent: test the top of the stack. -/
  | checkTop
  /-- Pop: read the top. -/
  | popRead
  /-- Pop: write the top. -/
  | popWrite (top : Int)
  /-- Pop: read the stack cell. -/
  | popCell (top : Int)
  /-- Write the key of the new slot. -/
  | fillKey (idx : Nat)
  /-- Write the value bytes of the new slot. -/
  | fillValue (idx : Nat)
  /-- Write the length of the new slot. -/
  | fillLen (idx : Nat)
  /-- Clear the subscriptions of the new slot. -/
  | fillSubs (idx : Nat)
  /-- Read the chain start for the new slot. -/
  | linkRead (idx : Nat)
  /-- Write the link of the new slot. -/
  | linkNext (idx : Nat) (first : Option Nat)
  /-- Write the chain start. -/
  | linkFirst (idx : Nat)
  /-- Count the new slot: read the counter. -/
  | incRead
  /-- Count the new slot: write the counter. -/
  | incWrite (used : Nat)
  /-- Delete: read the link of the found slot. -/
  | unlinkRead (prev : Option Nat) (idx : Nat)
  /-- Delete: write the link before the found slot. -/
  | unlinkWrite (prev : Option Nat) (idx : Nat) (next : Option Nat)
  /-- Delete: clear the subscriptions. -/
  | freeSubs (idx : Nat)
  /-- Push: read the top. -/
  | pushRead (idx : Nat)
  /-- Push: write the top. -/
  | pushWrite (idx : Nat) (top : Int)
  /-- Push: write the stack cell. -/
  | pushCell (idx : Nat) (top : Int)
  /-- Count the removed slot: read the counter. -/
  | decRead
  /-- Count the removed slot: write the counter. -/
  | decWrite (used : Nat)
  /-- Release the bucket lock and return. -/
  | unlock (status : Status)
  deriving DecidableEq, Repr

/-- Where the walk along the chain leads a call. -/
def Call.afterWalk (call : Call K) : Option (Option Nat × Nat) → Point
  | none =>
      match call with
      | .put .. => .checkTop
      | .del _ => .unlock .err
  | some (prev, idx) =>
      match call with
      | .put .. => .storeValue idx
      | .del _ => .unlinkRead prev idx

/-- A table shared by the threads of `ι`. -/
structure KvSys (K : Type*) (ι : Type*) where
  /-- The table. -/
  table : Table K
  /-- Holder of each bucket lock. -/
  lock : Nat → Option ι
  /-- Call of each thread, absent when it is in none. -/
  pc : ι → Option (Call K × Point)

namespace KvSys

variable [DecidableEq ι]

/-- Move a thread to another point of its call. -/
def goto (sys : KvSys K ι) (thread : ι) (call : Call K) (point : Point) : KvSys K ι :=
  { sys with pc := Function.update sys.pc thread (some (call, point)) }

/-- Replace the table. -/
def setTable (sys : KvSys K ι) (table : Table K) : KvSys K ι := { sys with table := table }

/-- The thread has the bucket lock and is at a point of its call. -/
def during (schema : Schema K) (sys : KvSys K ι) (thread : ι) (call : Call K) (table : Table K)
    (point : Point) : KvSys K ι where
  table := table
  lock := Function.update sys.lock (schema.bucketOf call.key) (some thread)
  pc := Function.update sys.pc thread (some (call, point))

section

variable {schema : Schema K} {sys : KvSys K ι} {thread : ι} {call : Call K}

@[simp]
theorem during_table (table : Table K) (point : Point) :
    (during schema sys thread call table point).table = table := rfl

@[simp]
theorem goto_during (table : Table K) (point later : Point) :
    (during schema sys thread call table point).goto thread call later =
      during schema sys thread call table later := by
  simp [during, goto]

@[simp]
theorem setTable_during (table later : Table K) (point : Point) :
    (during schema sys thread call table point).setTable later =
      during schema sys thread call later point := rfl

end

variable [DecidableEq K]

/-- Perform the next shared access of a thread.  A thread waits while its lock is taken, and a
stack access below the stack has no defined result. -/
def exec (schema : Schema K) (sys : KvSys K ι) (thread : ι) (call : Call K) :
    Point → Option (KvSys K ι)
  | .lock =>
      match sys.lock (schema.bucketOf call.key) with
      | some _ => none
      | none =>
          some { sys.goto thread call .first with
            lock := Function.update sys.lock (schema.bucketOf call.key) (some thread) }
  | .first =>
      some (sys.goto thread call
        (.test none (sys.table.buckets (schema.bucketOf call.key)).firstIdx))
  | .test _ none =>
      match call with
      | .put .. => some (sys.goto thread call .checkTop)
      | .del _ => some (sys.goto thread call (.unlock .err))
  | .test prev (some curr) =>
      if sys.table.key curr = call.key then
        match call with
        | .put .. => some (sys.goto thread call (.storeValue curr))
        | .del _ => some (sys.goto thread call (.unlinkRead prev curr))
      else some (sys.goto thread call (.advance curr))
  | .advance curr => some (sys.goto thread call (.test (some curr) (sys.table.nextIdx curr)))
  | .storeValue idx =>
      let entry := sys.table.pool idx
      let area := Kv.storeValue entry.value call.val call.valLen
      some ((sys.setTable (sys.table.setEntry idx { entry with value := area })).goto thread call
        (.storeLen idx))
  | .storeLen idx =>
      let entry := sys.table.pool idx
      some ((sys.setTable (sys.table.setEntry idx { entry with valLen := call.valLen })).goto
        thread call (.readSubs idx))
  | .readSubs _ => some (sys.goto thread call (.unlock .ok))
  | .checkTop =>
      if sys.table.freeTop < 0 then some (sys.goto thread call (.unlock .errBusy))
      else some (sys.goto thread call .popRead)
  | .popRead => some (sys.goto thread call (.popWrite sys.table.freeTop))
  | .popWrite top =>
      some ((sys.setTable { sys.table with freeTop := top - 1 }).goto thread call (.popCell top))
  | .popCell top =>
      if top < 0 then none
      else some (sys.goto thread call (.fillKey (sys.table.freeStack top.toNat)))
  | .fillKey idx =>
      let entry := sys.table.pool idx
      some ((sys.setTable (sys.table.setEntry idx { entry with key := call.key })).goto thread call
        (.fillValue idx))
  | .fillValue idx =>
      let entry := sys.table.pool idx
      let area := Kv.storeValue entry.value call.val call.valLen
      some ((sys.setTable (sys.table.setEntry idx { entry with value := area })).goto thread call
        (.fillLen idx))
  | .fillLen idx =>
      let entry := sys.table.pool idx
      some ((sys.setTable (sys.table.setEntry idx { entry with valLen := call.valLen })).goto
        thread call (.fillSubs idx))
  | .fillSubs idx =>
      let entry := sys.table.pool idx
      some ((sys.setTable (sys.table.setEntry idx { entry with subList := [] })).goto thread call
        (.linkRead idx))
  | .linkRead idx =>
      some (sys.goto thread call
        (.linkNext idx (sys.table.buckets (schema.bucketOf call.key)).firstIdx))
  | .linkNext idx first =>
      some ((sys.setTable (sys.table.setNext idx first)).goto thread call (.linkFirst idx))
  | .linkFirst idx =>
      some ((sys.setTable (sys.table.setFirst (schema.bucketOf call.key) (some idx))).goto thread
        call .incRead)
  | .incRead => some (sys.goto thread call (.incWrite sys.table.usedCount))
  | .incWrite used =>
      some ((sys.setTable { sys.table with usedCount := uint32Inc used }).goto thread call
        (.unlock .ok))
  | .unlinkRead prev idx =>
      some (sys.goto thread call (.unlinkWrite prev idx (sys.table.nextIdx idx)))
  | .unlinkWrite prev idx next =>
      some ((sys.setTable (sys.table.relink (schema.bucketOf call.key) prev next)).goto thread call
        (.freeSubs idx))
  | .freeSubs idx =>
      let entry := sys.table.pool idx
      some ((sys.setTable (sys.table.setEntry idx { entry with subList := [] })).goto thread call
        (.pushRead idx))
  | .pushRead idx => some (sys.goto thread call (.pushWrite idx sys.table.freeTop))
  | .pushWrite idx top =>
      some ((sys.setTable { sys.table with freeTop := top + 1 }).goto thread call
        (.pushCell idx (top + 1)))
  | .pushCell idx top =>
      if top < 0 then none
      else
        let stack := Function.update sys.table.freeStack top.toNat idx
        some ((sys.setTable { sys.table with freeStack := stack }).goto thread call .decRead)
  | .decRead => some (sys.goto thread call (.decWrite sys.table.usedCount))
  | .decWrite used =>
      some ((sys.setTable { sys.table with usedCount := uint32Dec used }).goto
        thread call (.unlock .ok))
  | .unlock _ =>
      some { sys with
        lock := Function.update sys.lock (schema.bucketOf call.key) none
        pc := Function.update sys.pc thread none }

/-- A step of the system. -/
inductive Label (K : Type*) (ι : Type*)
  /-- An idle thread enters a call. -/
  | start (thread : ι) (call : Call K)
  /-- A thread performs its next shared access. -/
  | move (thread : ι)
  deriving DecidableEq, Repr

/-- Perform one step.  A put of a value that is too long returns before any shared access. -/
def step (schema : Schema K) (sys : KvSys K ι) : Label K ι → Option (KvSys K ι)
  | .start thread call =>
      match sys.pc thread with
      | some _ => none
      | none =>
          if schema.maxValSize < call.valLen then some sys
          else some (sys.goto thread call .lock)
  | .move thread =>
      match sys.pc thread with
      | none => none
      | some (call, point) => sys.exec schema thread call point

/-- A new table that no thread uses. -/
def Initial (schema : Schema K) (sys : KvSys K ι) : Prop :=
  sys.table = nosKvTableCreate schema ∧ (∀ bucket, sys.lock bucket = none) ∧
    ∀ thread, sys.pc thread = none

/-- No call is in progress. -/
def Quiescent (sys : KvSys K ι) : Prop := ∀ thread, sys.pc thread = none

/-! ## A call without interruption -/

variable {schema : Schema K} {sys : KvSys K ι} {thread : ι} {call : Call K}

/-- Some accesses of a thread, one after the other. -/
def Goes (schema : Schema K) (thread : ι) (before after : KvSys K ι) : Prop :=
  ∃ moves, Transition.run (step schema) before (List.replicate moves (.move thread)) = some after

theorem Goes.refl (sys : KvSys K ι) : Goes schema thread sys sys := ⟨0, rfl⟩

theorem Goes.trans {before between after : KvSys K ι} (first : Goes schema thread before between)
    (second : Goes schema thread between after) : Goes schema thread before after := by
  obtain ⟨moves, ran⟩ := first
  obtain ⟨later, ran_later⟩ := second
  refine ⟨moves + later, ?_⟩
  rw [List.replicate_add, Transition.run_append ran, ran_later]

theorem Goes.head {before between after : KvSys K ι} {point : Point}
    (here : before.pc thread = some (call, point))
    (access : before.exec schema thread call point = some between)
    (rest : Goes schema thread between after) : Goes schema thread before after := by
  obtain ⟨moves, ran⟩ := rest
  refine ⟨moves + 1, ?_⟩
  rw [List.replicate_succ, Transition.run_cons, step, here]
  simp only [access, Option.bind_some, ran]

theorem Goes.access {table later : Table K} {point next : Point} {after : KvSys K ι}
    (access : (during schema sys thread call table point).exec schema thread call point =
      some (during schema sys thread call later next))
    (rest : Goes schema thread (during schema sys thread call later next) after) :
    Goes schema thread (during schema sys thread call table point) after :=
  .head (Function.update_self ..) access rest

/-- The walk along the chain finds what the remembering search finds. -/
theorem goes_walk {table : Table K} {fuel : Nat} {prev curr : Option Nat}
    {found : Option (Option Nat × Nat)}
    (searched :
      Chain.searchPrev table.nextIdx (table.hasKey call.key) fuel prev curr = some found) :
    Goes schema thread (during schema sys thread call table (.test prev curr))
      (during schema sys thread call table (call.afterWalk found)) := by
  induction fuel generalizing prev curr with
  | zero =>
      cases curr with
      | none =>
          obtain rfl : none = found := Option.some.inj searched
          cases call <;> exact .access (by simp [exec]; rfl) (.refl _)
      | some curr => cases searched
  | succ fuel ih =>
      cases curr with
      | none =>
          obtain rfl : none = found := Option.some.inj searched
          cases call <;> exact .access (by simp [exec]; rfl) (.refl _)
      | some curr =>
          rw [Chain.searchPrev] at searched
          split at searched
          · rename_i same
            obtain rfl := Option.some.inj searched
            have same : table.key curr = call.key := by simpa [Table.hasKey] using same
            cases call <;> exact .access (by simp [exec, same]; rfl) (.refl _)
          · rename_i different
            have different : ¬ table.key curr = call.key := by
              simpa [Table.hasKey] using different
            refine .access (by simp [exec, different]; rfl) ?_
            exact .access (by simp [exec]) (ih searched)


theorem Goes.of_eq {table later : Table K} (same : table = later) (point : Point) :
    Goes schema thread (during schema sys thread call table point)
      (during schema sys thread call later point) := same ▸ .refl _

variable {key : K} {val : Option (List UInt8)} {valLen : Nat}

theorem goes_updateSlot (table : Table K) (idx : Nat) :
    Goes schema thread (during schema sys thread (.put key val valLen) table (.storeValue idx))
      (during schema sys thread (.put key val valLen) (table.updateSlot idx key val valLen).1
        (.unlock .ok)) := by
  refine .access (by simp [exec]; rfl) ?_
  refine .access (by simp [exec]; rfl) ?_
  refine .access (by simp [exec]; rfl) ?_
  exact .of_eq (by simp [Table.updateSlot, Table.setEntry, Call.val, Call.valLen]) _

theorem goes_insertSlot (table : Table K) (room : ¬ table.freeTop < 0) :
    Goes schema thread (during schema sys thread (.put key val valLen) table .checkTop)
      (during schema sys thread (.put key val valLen)
        (table.insertSlot (schema.bucketOf key) key val valLen) (.unlock .ok)) := by
  refine .access (by simp [exec, room]; rfl) ?_
  refine .access (by simp [exec]; rfl) ?_
  refine .access (by simp [exec]; rfl) ?_
  refine .access (by simp [exec, room]; rfl) ?_
  refine .access (by simp [exec]; rfl) ?_
  refine .access (by simp [exec]; rfl) ?_
  refine .access (by simp [exec]; rfl) ?_
  refine .access (by simp [exec]; rfl) ?_
  refine .access (by simp [exec]; rfl) ?_
  refine .access (by simp [exec]; rfl) ?_
  refine .access (by simp [exec]; rfl) ?_
  refine .access (by simp [exec]; rfl) ?_
  refine .access (by simp [exec]; rfl) ?_
  refine .of_eq ?_ _
  simp [Table.insertSlot, Table.setEntry, Table.setNext, Table.setFirst, Call.key, Call.val,
    Call.valLen]

theorem goes_unlinkSlot (table : Table K) (top : -1 ≤ table.freeTop) (prev : Option Nat)
    (idx : Nat) :
    Goes schema thread (during schema sys thread (.del key) table (.unlinkRead prev idx))
      (during schema sys thread (.del key) (table.unlinkSlot (schema.bucketOf key) prev idx)
        (.unlock .ok)) := by
  have free : (table.relink (schema.bucketOf key) prev (table.nextIdx idx)).freeTop =
      table.freeTop := by
    cases prev <;> rfl
  have stack : (table.relink (schema.bucketOf key) prev (table.nextIdx idx)).freeStack =
      table.freeStack := by
    cases prev <;> rfl
  have used : (table.relink (schema.bucketOf key) prev (table.nextIdx idx)).usedCount =
      table.usedCount := by
    cases prev <;> rfl
  have inside : 0 ≤ table.freeTop + 1 := by omega
  refine .access (by simp [exec]; rfl) ?_
  refine .access (by simp [exec]; rfl) ?_
  refine .access (by simp [exec]; rfl) ?_
  refine .access (by simp [exec]; rfl) ?_
  refine .access (by simp [exec]; rfl) ?_
  refine .access (by simp [exec, Table.setEntry, Call.key, free, inside]; rfl) ?_
  refine .access (by simp [exec]; rfl) ?_
  refine .access (by simp [exec]; rfl) ?_
  refine .of_eq ?_ _
  simp [Table.unlinkSlot, Table.setEntry, free, stack, used]

/-- The effect of a call, and what it returns, as the system sees them. -/
def Returns (schema : Schema K) (thread : ι) (call : Call K) (before after : KvSys K ι)
    (status : Status) : Prop :=
  schema.maxValSize < call.valLen ∧ step schema before (.start thread call) = some after ∧
      status = .err ∨
    ∃ entered last, step schema before (.start thread call) = some entered ∧
      Goes schema thread entered last ∧ last.pc thread = some (call, .unlock status) ∧
      step schema last (.move thread) = some after

/-- The call takes the lock, goes to its end and gives the lock back. -/
theorem returns_of_goes (idle : sys.pc thread = none)
    (free : sys.lock (schema.bucketOf call.key) = none) (fits : ¬ schema.maxValSize < call.valLen)
    {table : Table K} {status : Status}
    (goes : Goes schema thread
      (during schema sys thread call sys.table
        (.test none (sys.table.buckets (schema.bucketOf call.key)).firstIdx))
      (during schema sys thread call table (.unlock status))) :
    Returns schema thread call sys { sys with table := table } status := by
  refine .inr ⟨sys.goto thread call .lock, during schema sys thread call table (.unlock status),
    ?_, ?_, Function.update_self .., ?_⟩
  · simp [step, idle, fits]
  · have locked : (sys.goto thread call .lock).exec schema thread call .lock =
        some (during schema sys thread call sys.table .first) := by
      simp [exec, goto, free, during]
    have walks : (during schema sys thread call sys.table .first).exec schema thread call .first =
        some (during schema sys thread call sys.table
          (.test none (sys.table.buckets (schema.bucketOf call.key)).firstIdx)) := by
      simp [exec]
    exact .head (Function.update_self ..) locked (.access walks goes)
  · have lock_eq : Function.update sys.lock (schema.bucketOf call.key) none = sys.lock := by
      rw [← free, Function.update_eq_self]
    have pc_eq : Function.update sys.pc thread none = sys.pc := by
      rw [← idle, Function.update_eq_self]
    simp [step, exec, during, lock_eq, pc_eq]

/-- A call that is not interrupted, on a table whose bucket is not locked, does what the call does
as one step. -/
theorem returns_of_step (idle : sys.pc thread = none)
    (free : sys.lock (schema.bucketOf call.key) = none) (top : -1 ≤ sys.table.freeTop)
    {table : Table K} {reply : Reply K}
    (stepped : Kv.step schema sys.table call.op = .ok (table, reply)) :
    Returns schema thread call sys { sys with table := table } reply.status := by
  cases call with
  | put key val valLen =>
      simp only [Call.op, Kv.step, nosKvPut] at stepped
      split at stepped
      · rename_i long
        obtain ⟨rfl, rfl⟩ : sys.table = table ∧ Reply.ofStatus .err = reply := by
          simpa using stepped
        exact .inl ⟨long, by simp [step, idle, Call.valLen, long], rfl⟩
      · rename_i fits
        refine returns_of_goes idle free fits ?_
        split at stepped
        · cases stepped
        · rw [Table.findSlot, Chain.search_eq_searchPrev _ _ _ none] at stepped
          split at stepped
          · cases stepped
          · rename_i idx found
            obtain ⟨found, searched, at_slot⟩ := Option.map_eq_some_iff.mp found
            obtain ⟨⟨prev, idx⟩, rfl, rfl⟩ := Option.map_eq_some_iff.mp at_slot
            obtain ⟨rfl, rfl⟩ : (sys.table.updateSlot idx key val valLen).1 = table ∧
                (sys.table.updateSlot idx key val valLen).2 = reply := by
              simpa [Prod.ext_iff] using stepped
            exact (goes_walk searched).trans (goes_updateSlot _ idx)
          · rename_i found
            obtain ⟨found, searched, missing⟩ := Option.map_eq_some_iff.mp found
            obtain rfl := Option.map_eq_none_iff.mp missing
            refine (goes_walk searched).trans ?_
            split at stepped
            · rename_i full
              obtain ⟨rfl, rfl⟩ : sys.table = table ∧ Reply.ofStatus .errBusy = reply := by
                simpa using stepped
              exact .access (by simp [exec, full]; rfl) (.refl _)
            · rename_i room
              obtain ⟨rfl, rfl⟩ :
                  sys.table.insertSlot (schema.bucketOf key) key val valLen = table ∧
                    Reply.ofStatus .ok = reply := by
                simpa using stepped
              exact goes_insertSlot _ room
  | del key =>
      simp only [Call.op, Kv.step, nosKvDel] at stepped
      refine returns_of_goes idle free (Nat.not_lt_zero _) ?_
      split at stepped
      · cases stepped
      · split at stepped
        · cases stepped
        · rename_i searched
          obtain ⟨rfl, rfl⟩ : sys.table = table ∧ Reply.ofStatus .err = reply := by
            simpa using stepped
          exact (goes_walk searched).trans (.refl _)
        · rename_i prev idx searched
          obtain ⟨rfl, rfl⟩ : sys.table.unlinkSlot (schema.bucketOf key) prev idx = table ∧
              Reply.ofStatus .ok = reply := by
            simpa using stepped
          exact (goes_walk searched).trans (goes_unlinkSlot _ top prev idx)

end KvSys

end CodexNos.Kv
