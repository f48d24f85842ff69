import CodexNos.Kv.Creation
import CodexNos.Lib.CStr
import CodexNos.Lib.Interning
import CodexNos.Lib.Transition

/-!
# The tables of a process

`nos_kv_table_create` opens the first table whose stored name is the requested one, and otherwise
creates a table.  The name is stored in 32 bytes, of which 31 are copied.
-/

namespace CodexNos.Kv

open Lib

/-- `MAX_TABLES`. -/
def maxTables : Nat := 32

/-- A table as `nos_kv_table_create` leaves it. -/
structure NamedTable where
  /-- The bytes of `name`. -/
  name : List UInt8
  /-- The numbers of the table. -/
  sizes : TableSizes
  deriving DecidableEq

/-- A call with the outcome of its allocations. -/
structure CreateCall where
  /-- `name`, absent when null. -/
  name : Option CStr
  /-- `key_size`. -/
  keySize : UInt32
  /-- `max_val_size`. -/
  maxValSize : UInt32
  /-- `capacity`. -/
  capacity : UInt32
  /-- The table structure is allocated. -/
  allocated : Bool
  /-- The buckets and the stack of unused slots are allocated. -/
  arrays : Bool
  /-- Number of turns that the loop over the bucket count gets. -/
  turns : Nat

/-- `name` as `calloc` leaves it. -/
def emptyName : List UInt8 := List.replicate 32 0

/-- Open or create a table: the tables afterwards and the index of the returned one, absent when
null.  A call has no result if its loop does not end, or if it fills an array that was not
allocated. -/
def Tables.nosKvTableCreate (tables : List NamedTable) (call : CreateCall) :
    Option (List NamedTable × Option Nat) :=
  match call.name with
  | none => some (tables, none)
  | some name =>
      if call.keySize = 0 ∨ call.capacity = 0 then some (tables, none)
      else
        match tables.findIdx? fun table => CStr.stringAt table.name = name with
        | some index => some (tables, some index)
        | none =>
            if maxTables ≤ tables.length then some (tables, none)
            else if call.allocated = false then some (tables, none)
            else
              match createSizes call.turns call.keySize call.maxValSize call.capacity with
              | none => none
              | some sizes =>
                  if call.arrays = false then none
                  else
                    let table := { name := CStr.strncpy emptyName name 31, sizes := sizes }
                    some (tables ++ [table], some tables.length)

/-- The tables, and the answers that were no null pointers: names and tables. -/
structure Tables where
  /-- `g_tables`, up to `g_table_count`. -/
  tables : List NamedTable
  /-- Names and returned tables, oldest first. -/
  answers : List (CStr × Nat)
  deriving DecidableEq

namespace Tables

/-- A process without tables. -/
def empty : Tables := { tables := [], answers := [] }

/-- Execute one call. -/
def step (state : Tables) (call : CreateCall) : Option Tables :=
  (nosKvTableCreate state.tables call).map fun result =>
    { tables := result.1
      answers :=
        match call.name, result.2 with
        | some name, some index => state.answers ++ [(name, index)]
        | _, _ => state.answers }

/-- Two calls that returned a table returned the same one exactly if their names are equal. -/
def ByName (state : Tables) : Prop := Interning.Identifies state.answers

/-- The stored names. -/
def storedNames (state : Tables) : List CStr :=
  state.tables.map fun table => CStr.stringAt table.name

/-- The names that were answered with a table. -/
def names (state : Tables) : List CStr := state.answers.map Prod.fst

/-- A call that is answered with a table: its sizes are accepted, and its name is stored or there is
room for one more table. -/
def Served (state : Tables) (call : CreateCall) (name : CStr) : Prop :=
  call.name = some name ∧ call.keySize ≠ 0 ∧ call.capacity ≠ 0 ∧
    (name ∈ state.storedNames ∨ state.tables.length < maxTables ∧ call.allocated = true)

/-- A name that was answered before has at most 31 bytes, and any other name is not the beginning of
31 bytes of one that was. -/
def AsksApart (state : Tables) (call : CreateCall) : Prop :=
  ∀ name, state.Served call name →
    (name ∈ state.names → name.strlen ≤ 31) ∧
      (name ∉ state.names → ∀ earlier ∈ state.names, earlier.cut 31 ≠ name)

theorem asksApart_iff (state : Tables) (call : CreateCall) :
    state.AsksApart call ↔
      ∀ name, state.Served call name → Interning.Fresh (CStr.cut 31) state.names name := by
  refine forall_congr' fun name => forall_congr' fun _ => ?_
  unfold Interning.Fresh
  by_cases asked : name ∈ state.names
  · simp [asked, CStr.cut_eq_self_iff]
  · simp [asked]

/-! ## One call -/

theorem stringAt_stored (name : CStr) :
    CStr.stringAt (CStr.strncpy emptyName name 31) = name.cut 31 :=
  CStr.stringAt_strncpy (show emptyName.drop 31 = [0] from rfl) name

theorem findIdx?_storedNames (state : Tables) (name : CStr) :
    (state.tables.findIdx? fun table => CStr.stringAt table.name = name) =
      state.storedNames.findIdx? (· = name) := by
  rw [storedNames, List.findIdx?_map]
  rfl

/-- A call whose capacity is no larger than the largest power of two returns, if the arrays are
allocated. -/
theorem nosKvTableCreate_returns {tables : List NamedTable} {call : CreateCall}
    (small : call.capacity.toNat ≤ 2 ^ 31) (arrays : call.arrays = true) :
    ∃ turns, (nosKvTableCreate tables { call with turns := turns }).isSome := by
  have power : (1024 : UInt32).toNat = 2 ^ 10 := rfl
  obtain ⟨turns, count, ends, -⟩ := bucketLoop_ends small power le_rfl (by decide)
  refine ⟨turns, ?_⟩
  unfold nosKvTableCreate createSizes
  rw [ends]
  cases call.name with
  | none => rfl
  | some name =>
      by_cases refused : call.keySize = 0 ∨ call.capacity = 0
      · simp [refused]
      · simp only [refused, arrays, if_false]
        split
        · rfl
        · split
          · rfl
          · split <;> simp

/-- What a call does: it is answered as a request of its name, or changes nothing. -/
theorem step_cases {state after : Tables} {call : CreateCall}
    (stepped : state.step call = some after) :
    (∃ name, state.Served call name ∧
      after.storedNames = (Interning.request (CStr.cut 31) state.storedNames name).1 ∧
      after.answers = state.answers ++
        [(name, (Interning.request (CStr.cut 31) state.storedNames name).2)]) ∨
    ((∀ name, ¬ state.Served call name) ∧ after = state) := by
  obtain ⟨result, created, rfl⟩ := Option.map_eq_some_iff.mp stepped
  unfold nosKvTableCreate at created
  cases asked : call.name with
  | none =>
      rw [asked] at created
      obtain rfl := Option.some.inj created
      exact .inr ⟨fun name served => by simp [Served, asked] at served, rfl⟩
  | some name =>
      rw [asked] at created
      simp only at created
      have unserved (refused : ¬ state.Served call name) : ∀ other, ¬ state.Served call other := by
        intro other served
        obtain rfl := Option.some.inj (asked.symm.trans served.1)
        exact refused served
      split at created
      · rename_i refused
        obtain rfl := Option.some.inj created
        refine .inr ⟨unserved ?_, rfl⟩
        rintro ⟨-, key, capacity, -⟩
        exact refused.elim key capacity
      · rename_i accepted
        obtain ⟨key, capacity⟩ := not_or.mp accepted
        rw [findIdx?_storedNames] at created
        cases found : state.storedNames.findIdx? (· = name) with
        | some index =>
            rw [found] at created
            obtain rfl := Option.some.inj created
            have member : name ∈ state.storedNames := by
              obtain ⟨inside, holds, -⟩ := List.findIdx?_eq_some_iff_getElem.mp found
              exact of_decide_eq_true holds ▸ List.getElem_mem inside
            refine .inl ⟨name, ⟨asked, key, capacity, .inl member⟩, ?_⟩
            rw [Interning.request_of_found found]
            simp [storedNames]
        | none =>
            rw [found] at created
            have absent := Interning.not_mem_of_not_found found
            simp only at created
            split at created
            · rename_i full
              obtain rfl := Option.some.inj created
              refine .inr ⟨unserved ?_, rfl⟩
              rintro ⟨-, -, -, member | ⟨room, -⟩⟩
              · exact absent member
              · exact absurd room (Nat.not_lt.mpr full)
            · rename_i room
              split at created
              · rename_i failed
                obtain rfl := Option.some.inj created
                refine .inr ⟨unserved ?_, rfl⟩
                rintro ⟨-, -, -, member | ⟨-, allocated⟩⟩
                · exact absent member
                · simp [failed] at allocated
              · rename_i allocated
                split at created
                · simp at created
                · split at created
                  · simp at created
                  · obtain rfl := Option.some.inj created
                    have served : state.Served call name :=
                      ⟨asked, key, capacity, .inr ⟨Nat.not_le.mp room, by simpa using allocated⟩⟩
                    refine .inl ⟨name, served, ?_⟩
                    rw [Interning.request_of_not_found found]
                    simp [storedNames, stringAt_stored]

/-! ## Runs -/

/-- The stored names fit the answers. -/
def Supported (state : Tables) : Prop :=
  Interning.Coherent (CStr.cut 31) state.storedNames state.answers

theorem supported_empty : empty.Supported := Interning.Coherent.empty _

theorem supported_step {state after : Tables} {call : CreateCall} (supported : state.Supported)
    (stepped : state.step call = some after) : after.Supported := by
  obtain ⟨name, -, stored, answers⟩ | ⟨-, rfl⟩ := step_cases stepped
  · rw [Supported, stored, answers]
    exact supported.request (CStr.cut_cut 31) name
  · exact supported

/-- A call keeps the tables identified by name exactly if it asks for a name apart from the earlier
ones. -/
theorem byName_step_iff {state after : Tables} {call : CreateCall} (supported : state.Supported)
    (identified : state.ByName) (stepped : state.step call = some after) :
    after.ByName ↔ state.AsksApart call := by
  rw [asksApart_iff]
  obtain ⟨name, served, -, answers⟩ | ⟨unserved, rfl⟩ := step_cases stepped
  · rw [ByName, answers, supported.identifies_request_iff identified]
    constructor
    · intro fresh other served'
      obtain rfl := Option.some.inj (served.1.symm.trans served'.1)
      exact fresh
    · intro fresh
      exact fresh name served
  · exact iff_of_true identified fun name served => absurd served (unserved name)

theorem byName_of_step {state after : Tables} {call : CreateCall} (identified : after.ByName)
    (stepped : state.step call = some after) : state.ByName := by
  obtain ⟨name, -, -, answers⟩ | ⟨-, rfl⟩ := step_cases stepped
  · intro answer member other member'
    refine identified answer ?_ other ?_
    · rw [answers]
      exact List.mem_append_left _ member
    · rw [answers]
      exact List.mem_append_left _ member'
  · exact identified

/-- Over any calls from an empty process, two calls that return a table return the same one exactly
if their names are equal, if and only if each call asks for a name apart from the earlier ones. -/
theorem byName_iff_asksApart {calls : List CreateCall} {after : Tables}
    (execution : Transition.run step empty calls = some after) :
    after.ByName ↔ Transition.Guarded step AsksApart empty calls := by
  have start : empty.ByName := by simp [ByName, empty, Interning.Identifies]
  rw [← Transition.visits_iff_guarded Supported (fun _ _ _ => supported_step)
    (fun _ _ _ => byName_step_iff) supported_empty start execution,
    Transition.visits_iff_last (fun _ _ _ => byName_of_step) execution]

/-- A name of 32 bytes. -/
def longName : CStr := ⟨List.replicate 32 97, by decide⟩

/-- A call with some name, keys and values of four bytes and room for 16 of them. -/
def createCall (name : CStr) : CreateCall where
  name := some name
  keySize := 4
  maxValSize := 4
  capacity := 16
  allocated := true
  arrays := true
  turns := 1

/-- A name of 32 bytes that is asked for twice gets two tables. -/
theorem longName_twice :
    ∃ calls after, Transition.run step empty calls = some after ∧ ¬ after.ByName := by
  refine ⟨[createCall longName, createCall longName], _, rfl, ?_⟩
  intro identified
  have same := identified (longName, 0) (by decide) (longName, 1) (by decide)
  exact absurd (same.mpr rfl) (by decide)

/-- The exact condition on two calls with a name of 32 bytes. -/
theorem byName_longName_iff :
    ∃ after, Transition.run step empty [createCall longName, createCall longName] = some after ∧
      (after.ByName ↔
        Transition.Guarded step AsksApart empty [createCall longName, createCall longName]) :=
  ⟨_, rfl, byName_iff_asksApart rfl⟩

end Tables

end CodexNos.Kv
