import CodexNos.Kv.SlotView

/-!
# Information flow between keys

Slots pass from key to key without being cleared, and a put without a value leaves the bytes of its
slot in place.  What the calls on a key return depends on nothing but the history of that key
exactly if every read stays within the bytes that the key itself has written since it came into
the table.  A read that goes further returns what another key has left behind.
-/

namespace CodexNos.Kv

open Lib

variable {K : Type*} [DecidableEq K]

/-! ## The history of a key -/

/-- The calls on a key and how they succeed. -/
def history (key : K) (log : List (FlowOp K × Outcome)) : List (FlowOp K × Status) :=
  log.filterMap fun entry => if entry.1.key = key then some (entry.1, entry.2.1) else none

/-- What the calls on a key return. -/
def answers (key : K) (log : List (FlowOp K × Outcome)) : List Outcome :=
  log.filterMap fun entry => if entry.1.key = key then some entry.2 else none

/-- What is known of a key from its history. -/
structure Known where
  /-- The first bytes of its slot, as the key has written them. -/
  own : List UInt8
  /-- The length of its value. -/
  valLen : Nat
  deriving DecidableEq, Repr

/-- The bytes that a key has written. -/
def ownBytes (known : Option Known) : List UInt8 := (known.map Known.own).getD []

/-- What is known of a key after a call on it. -/
def learn (known : Option Known) (entry : FlowOp K × Status) : Option Known :=
  match entry.1 with
  | .put _ value =>
      if entry.2 = .ok then some ⟨memcpy (ownBytes known) value value.length, value.length⟩
      else known
  | .putNull _ valLen => if entry.2 = .ok then some ⟨ownBytes known, valLen⟩ else known
  | .del _ => if entry.2 = .ok then none else known
  | .get _ _ => known
  | .peek _ => known

/-- The number of bytes that a call returns. -/
def readLen (known : Option Known) (op : FlowOp K) : Nat :=
  match op, known with
  | .get _ bufLen, some known => min bufLen known.valLen
  | .peek _, some known => known.valLen
  | _, _ => 0

/-- Every read of the history stays within the bytes that the key has written. -/
def ReadsOwn : Option Known → List (FlowOp K × Status) → Prop
  | _, [] => True
  | known, entry :: entries =>
      readLen known entry.1 ≤ (ownBytes known).length ∧ ReadsOwn (learn known entry) entries

/-- Whether a history stays within what the key has written. -/
instance decidableReadsOwn :
    (known : Option Known) → (entries : List (FlowOp K × Status)) →
      Decidable (ReadsOwn known entries)
  | _, [] => isTrue trivial
  | known, entry :: entries =>
      have := decidableReadsOwn (learn known entry) entries
      inferInstanceAs (Decidable (_ ∧ _))

/-- The history of a key determines what the calls on it return: whatever other calls there are,
calls on a new table with the same history of the key return the same for it. -/
def Isolated (schema : Schema K) (key : K) (log : List (FlowOp K × Outcome)) : Prop :=
  ∀ ops log', flowRun schema (nosKvTableCreate schema) ops = .ok log' →
    history key log' = history key log → answers key log' = answers key log

@[simp]
theorem history_cons (key : K) (entry : FlowOp K × Outcome) (log : List (FlowOp K × Outcome)) :
    history key (entry :: log) =
      if entry.1.key = key then (entry.1, entry.2.1) :: history key log else history key log := by
  unfold history
  by_cases same : entry.1.key = key
  · rw [List.filterMap_cons_some (by rw [if_pos same]), if_pos same]
  · rw [List.filterMap_cons_none (by rw [if_neg same]), if_neg same]

@[simp]
theorem answers_cons (key : K) (entry : FlowOp K × Outcome) (log : List (FlowOp K × Outcome)) :
    answers key (entry :: log) =
      if entry.1.key = key then entry.2 :: answers key log else answers key log := by
  unfold answers
  by_cases same : entry.1.key = key
  · rw [List.filterMap_cons_some (by rw [if_pos same]), if_pos same]
  · rw [List.filterMap_cons_none (by rw [if_neg same]), if_neg same]

@[simp]
theorem history_append (key : K) (log later : List (FlowOp K × Outcome)) :
    history key (log ++ later) = history key log ++ history key later := List.filterMap_append

@[simp]
theorem answers_append (key : K) (log later : List (FlowOp K × Outcome)) :
    answers key (log ++ later) = answers key log ++ answers key later := List.filterMap_append

/-! ## Views that fit together -/

namespace View

variable {view : View K} {size : Nat}

/-- No slot is used twice, and the value areas have their size. -/
structure Proper (view : View K) (size : Nat) : Prop where
  /-- Different keys have different slots. -/
  apart : ∀ key other idx, view.slot key = some idx → view.slot other = some idx → key = other
  /-- The slot of a key is not unused. -/
  used : ∀ key idx, view.slot key = some idx → idx ∉ view.free
  /-- A slot is unused only once. -/
  once : view.free.Nodup
  /-- The value areas have their size. -/
  area : ∀ idx, (view.value idx).length = size
  /-- The lengths are within the areas. -/
  fits : ∀ idx, view.valLen idx ≤ size

theorem length_memcpy {dst src : List UInt8} {len : Nat} (source : len ≤ src.length)
    (target : len ≤ dst.length) : (memcpy dst src len).length = dst.length := by
  simp only [memcpy, List.length_append, List.length_take, List.length_drop]
  omega

/-- What a put may be called with: a value of its length, or none. -/
def Sized (val : Option (List UInt8)) (valLen : Nat) : Prop :=
  ∀ value, val = some value → value.length = valLen

theorem length_storeValue {area : List UInt8} {val : Option (List UInt8)} {valLen : Nat}
    (sized : Sized val valLen) (short : valLen ≤ area.length) :
    (storeValue area val valLen).length = area.length := by
  cases val with
  | none => rfl
  | some value => exact length_memcpy (sized value rfl).ge short

omit [DecidableEq K] in
theorem Proper.write (proper : view.Proper size) (idx : Nat) {val : Option (List UInt8)}
    {valLen : Nat} (sized : Sized val valLen) (short : valLen ≤ size) :
    (view.write idx val valLen).Proper size := by
  refine ⟨proper.apart, proper.used, proper.once, ?_, ?_⟩
  · intro other
    by_cases same : other = idx
    · subst same
      simp only [View.write, Function.update_self]
      rw [length_storeValue sized (by rw [proper.area]; exact short), proper.area]
    · simp only [View.write, Function.update_of_ne same]
      exact proper.area other
  · intro other
    by_cases same : other = idx
    · subst same
      simpa [View.write] using short
    · simpa [View.write, same] using proper.fits other

theorem Proper.give (proper : view.Proper size) {idx : Nat} {free : List Nat}
    (unused : view.free = idx :: free) (key : K) :
    ({ view with slot := Function.update view.slot key (some idx), free := free } :
      View K).Proper size := by
  have once := proper.once
  rw [unused, List.nodup_cons] at once
  have fresh {other : K} (same : view.slot other = some idx) : False :=
    proper.used other idx same (by simp [unused])
  refine ⟨?_, ?_, once.2, proper.area, proper.fits⟩
  · intro first second place first_at second_at
    simp only [Function.update_apply] at first_at second_at
    split at first_at <;> split at second_at
    · simp_all
    · obtain rfl := Option.some.inj first_at
      exact (fresh second_at).elim
    · obtain rfl := Option.some.inj second_at
      exact (fresh first_at).elim
    · exact proper.apart first second place first_at second_at
  · intro other place at_place
    simp only [Function.update_apply] at at_place
    split at at_place
    · obtain rfl := Option.some.inj at_place
      exact once.1
    · intro member
      exact proper.used other place at_place (by simp [unused, member])

theorem Proper.giveBack (proper : view.Proper size) {key : K} {idx : Nat}
    (slot : view.slot key = some idx) :
    ({ view with slot := Function.update view.slot key none, free := idx :: view.free } :
      View K).Proper size := by
  refine ⟨?_, ?_, List.nodup_cons.mpr ⟨proper.used key idx slot, proper.once⟩, proper.area,
    proper.fits⟩
  · intro first second place first_at second_at
    simp only [Function.update_apply] at first_at second_at
    split at first_at
    · cases first_at
    · split at second_at
      · cases second_at
      · exact proper.apart first second place first_at second_at
  · intro other place at_place
    simp only [Function.update_apply] at at_place
    split at at_place
    · cases at_place
    · rename_i different
      simp only [List.mem_cons, not_or]
      refine ⟨?_, proper.used other place at_place⟩
      rintro rfl
      exact different (proper.apart other key place at_place slot)

theorem Proper.put (proper : view.Proper size) (key : K) {val : Option (List UInt8)}
    {valLen : Nat} (sized : Sized val valLen) : (view.put size key val valLen).1.Proper size := by
  unfold View.put
  split
  · exact proper
  · rename_i short
    split
    · exact proper.write _ sized (not_lt.mp short)
    · split
      · exact proper
      · rename_i unused
        exact (proper.give unused key).write _ sized (not_lt.mp short)

theorem Proper.del (proper : view.Proper size) (key : K) : (view.del key).1.Proper size := by
  unfold View.del
  split
  · rename_i slot
    exact proper.giveBack slot
  · exact proper

theorem Proper.step (proper : view.Proper size) (op : FlowOp K) :
    (view.step size op).1.Proper size := by
  cases op with
  | put key value => exact proper.put key (by rintro _ ⟨⟩; rfl)
  | putNull key valLen => exact proper.put key (by rintro _ ⟨⟩)
  | del key => exact proper.del key
  | get key bufLen => exact proper
  | peek key => exact proper

omit [DecidableEq K] in
theorem proper_create (size capacity : Nat) : (create size capacity : View K).Proper size where
  apart := by simp [create]
  used := by simp [create]
  once := by simp [create, List.nodup_reverse, List.nodup_range]
  area := by simp [create]
  fits := by simp [create]

/-! ## A key that reads what it has written -/

/-- The view of a key is as its history says. -/
def Matches (view : View K) (key : K) (known : Option Known) : Prop :=
  match known with
  | none => view.slot key = none
  | some known => ∃ idx, view.slot key = some idx ∧
      (view.value idx).take known.own.length = known.own ∧ view.valLen idx = known.valLen

theorem take_storeValue {area own : List UInt8} (starts : area.take own.length = own)
    {val : Option (List UInt8)} {valLen : Nat} (sized : Sized val valLen) :
    (storeValue area val valLen).take (storeValue own val valLen).length =
      storeValue own val valLen := by
  cases val with
  | none => exact starts
  | some value =>
      obtain rfl := sized value rfl
      simp only [storeValue, memcpy, List.take_length, List.length_append, List.length_drop]
      rw [List.take_length_add_append, ← List.drop_take, starts]

theorem Matches.put {key : K} {known : Option Known} (matched : view.Matches key known)
    {val : Option (List UInt8)} {valLen : Nat} (sized : Sized val valLen)
    (ok : (view.put size key val valLen).2.1 = .ok) :
    (view.put size key val valLen).1.Matches key
      (some ⟨storeValue (ownBytes known) val valLen, valLen⟩) := by
  unfold View.put at ok ⊢
  split at ok
  · cases ok
  · rename_i short
    rw [if_neg short]
    cases known with
    | none =>
        have absent : view.slot key = none := matched
        simp only [absent] at ok ⊢
        split at ok
        · cases ok
        · rename_i idx free unused
          refine ⟨idx, by simp [View.write], ?_, by simp [View.write]⟩
          simp only [View.write, Function.update_self]
          exact take_storeValue rfl sized
    | some known =>
        obtain ⟨idx, slot, starts, length⟩ := matched
        simp only [slot]
        refine ⟨idx, slot, ?_, by simp [View.write]⟩
        simp only [View.write, Function.update_self]
        exact take_storeValue starts sized

theorem put_of_ne_ok {key : K} {val : Option (List UInt8)} {valLen : Nat}
    (fails : (view.put size key val valLen).2.1 ≠ .ok) :
    (view.put size key val valLen).1 = view := by
  unfold View.put at fails ⊢
  split
  · rfl
  · rename_i short
    rw [if_neg short] at fails
    split at fails
    · exact absurd rfl fails
    · rename_i absent
      split at fails
      · rename_i full
        rfl
      · exact absurd rfl fails

/-- What a call returns according to what is known of its key. -/
def answer (known : Option Known) (entry : FlowOp K × Status) : Outcome :=
  match entry.1, known with
  | .get _ bufLen, some known => (.ok, some (known.own.take (min bufLen known.valLen), known.valLen))
  | .peek _, some known => (.ok, some (known.own.take known.valLen, known.valLen))
  | _, _ => (entry.2, none)

/-- What the calls of a history return. -/
def expected : Option Known → List (FlowOp K × Status) → List Outcome
  | _, [] => []
  | known, entry :: entries => answer known entry :: expected (learn known entry) entries

omit [DecidableEq K] in
theorem read_of_absent {key : K} (absent : view.slot key = none) (limit : Nat → Nat) :
    view.read key limit = (.err, none) := by
  simp only [View.read, absent]

omit [DecidableEq K] in
theorem Matches.read {key : K} {known : Known} (matched : view.Matches key (some known))
    {limit : Nat → Nat} (within : limit known.valLen ≤ known.own.length) :
    view.read key limit = (.ok, some (known.own.take (limit known.valLen), known.valLen)) := by
  obtain ⟨idx, slot, starts, length⟩ := matched
  simp only [View.read, slot, length]
  rw [← starts, List.take_take, min_eq_left within]

theorem put_value (view : View K) (key : K) (val : Option (List UInt8)) (valLen : Nat) :
    (view.put size key val valLen).2.2 = none := by
  unfold View.put
  split
  · rfl
  · split
    · rfl
    · split <;> rfl

theorem Matches.put_own {key : K} {known : Option Known} (matched : view.Matches key known)
    {val : Option (List UInt8)} {valLen : Nat} (sized : Sized val valLen) :
    (view.put size key val valLen).1.Matches key
      (if (view.put size key val valLen).2.1 = .ok then
        some ⟨storeValue (ownBytes known) val valLen, valLen⟩ else known) := by
  split
  · rename_i ok
    exact matched.put sized ok
  · rename_i fails
    rw [put_of_ne_ok fails]
    exact matched

theorem Matches.step_own {op : FlowOp K} {known : Option Known}
    (matched : view.Matches op.key known) :
    (view.step size op).1.Matches op.key (learn known (op, (view.step size op).2.1)) ∧
      (readLen known op ≤ (ownBytes known).length →
        (view.step size op).2 = answer known (op, (view.step size op).2.1)) := by
  cases op with
  | put key value =>
      have sized : Sized (some value) value.length := by
        rintro _ ⟨⟩
        rfl
      exact ⟨matched.put_own sized,
        fun _ => Prod.ext rfl (view.put_value key (some value) value.length)⟩
  | putNull key valLen =>
      have sized : Sized none valLen := by rintro _ ⟨⟩
      exact ⟨matched.put_own sized, fun _ => Prod.ext rfl (view.put_value key none valLen)⟩
  | del key =>
      cases known with
      | none =>
          have absent : view.slot key = none := matched
          simp only [View.step, View.del, absent, learn, answer]
          exact ⟨absent, fun _ => trivial⟩
      | some known =>
          obtain ⟨idx, slot, starts, length⟩ := matched
          simp only [View.step, View.del, FlowOp.key] at slot ⊢
          simp only [slot, learn, answer]
          exact ⟨Function.update_self .., fun _ => trivial⟩
  | get key bufLen =>
      refine ⟨matched, fun within => ?_⟩
      cases known with
      | none =>
          have returned : view.read key (min bufLen) = (.err, none) := read_of_absent matched _
          simp only [View.step, returned, answer]
      | some known => exact matched.read within
  | peek key =>
      refine ⟨matched, fun within => ?_⟩
      cases known with
      | none =>
          have returned : view.read key id = (.err, none) := read_of_absent matched _
          simp only [View.step, returned, answer]
      | some known => exact matched.read within

/-- A call on another key leaves the slot of a key alone. -/
theorem slot_step_other {key : K} {op : FlowOp K} (different : op.key ≠ key) :
    (view.step size op).1.slot key = view.slot key := by
  have put_other {other : K} (apart : other ≠ key) (val : Option (List UInt8)) (valLen : Nat) :
      (view.put size other val valLen).1.slot key = view.slot key := by
    unfold View.put
    split
    · rfl
    · split
      · rfl
      · split
        · rfl
        · exact Function.update_of_ne apart.symm ..
  cases op with
  | put other value => exact put_other different (some value) value.length
  | putNull other valLen => exact put_other different none valLen
  | del other =>
      simp only [View.step, View.del]
      split
      · exact Function.update_of_ne (Ne.symm different) ..
      · rfl
  | get other bufLen => rfl
  | peek other => rfl

/-- A call on another key leaves the bytes and the length of a key alone. -/
theorem bytes_step_other (proper : view.Proper size) {key : K} {op : FlowOp K}
    (different : op.key ≠ key) {idx : Nat} (slot : view.slot key = some idx) :
    (view.step size op).1.value idx = view.value idx ∧
      (view.step size op).1.valLen idx = view.valLen idx := by
  have put_other {other : K} (apart : other ≠ key) (val : Option (List UInt8)) (valLen : Nat) :
      (view.put size other val valLen).1.value idx = view.value idx ∧
        (view.put size other val valLen).1.valLen idx = view.valLen idx := by
    unfold View.put
    split
    · exact ⟨rfl, rfl⟩
    · split
      · rename_i place at_place
        have elsewhere : idx ≠ place := by
          rintro rfl
          exact apart (proper.apart other key idx at_place slot)
        exact ⟨Function.update_of_ne elsewhere .., Function.update_of_ne elsewhere ..⟩
      · split
        · exact ⟨rfl, rfl⟩
        · rename_i place free unused
          have elsewhere : idx ≠ place := by
            rintro rfl
            exact proper.used key idx slot (by simp [unused])
          exact ⟨Function.update_of_ne elsewhere .., Function.update_of_ne elsewhere ..⟩
  cases op with
  | put other value => exact put_other different (some value) value.length
  | putNull other valLen => exact put_other different none valLen
  | del other =>
      simp only [View.step, View.del]
      split <;> exact ⟨rfl, rfl⟩
  | get other bufLen => exact ⟨rfl, rfl⟩
  | peek other => exact ⟨rfl, rfl⟩

theorem Matches.step_other (proper : view.Proper size) {key : K} {op : FlowOp K}
    (different : op.key ≠ key) {known : Option Known} (matched : view.Matches key known) :
    (view.step size op).1.Matches key known := by
  cases known with
  | none => exact (slot_step_other different).trans matched
  | some known =>
      obtain ⟨idx, slot, starts, length⟩ := matched
      obtain ⟨value_eq, length_eq⟩ := bytes_step_other proper different slot
      exact ⟨idx, (slot_step_other different).trans slot, by rw [value_eq]; exact starts,
        length_eq.trans length⟩

theorem Matches.answers_eq (proper : view.Proper size) {key : K} {known : Option Known}
    (matched : view.Matches key known) {ops : List (FlowOp K)}
    (reads : ReadsOwn known (history key (view.run size ops))) :
    answers key (view.run size ops) = expected known (history key (view.run size ops)) := by
  induction ops generalizing view known with
  | nil => rfl
  | cons op ops ih =>
      simp only [View.run, history_cons, answers_cons] at reads ⊢
      by_cases same : op.key = key
      · subst same
        simp only [if_true] at reads ⊢
        obtain ⟨later, answered⟩ := matched.step_own
        rw [expected, ← answered reads.1, ih (proper.step op) later reads.2]
      · simp only [same, if_false] at reads ⊢
        exact ih (proper.step op) (matched.step_other proper same) reads

/-! ## A key that reads what others have written -/

/-- Two views with the same keys and as many unused slots. -/
structure Twin (first second : View K) : Prop where
  /-- The same keys are present. -/
  present : ∀ key, (first.slot key).isSome = (second.slot key).isSome
  /-- As many slots are unused. -/
  room : first.free.length = second.free.length

theorem Twin.put {first second : View K} (twin : first.Twin second) (key : K)
    (val : Option (List UInt8)) (valLen : Nat) :
    (first.put size key val valLen).2.1 = (second.put size key val valLen).2.1 ∧
      (first.put size key val valLen).1.Twin (second.put size key val valLen).1 := by
  have present := twin.present key
  have room := twin.room
  unfold View.put
  split
  · exact ⟨rfl, twin⟩
  · cases slot : first.slot key with
    | some idx =>
        obtain ⟨idx', slot'⟩ : ∃ idx', second.slot key = some idx' := by
          rw [slot] at present
          exact Option.isSome_iff_exists.mp present.symm
        simp only [slot']
        exact ⟨trivial, twin.present, room⟩
    | none =>
        have slot' : second.slot key = none := by
          rw [slot] at present
          simpa using present.symm
        simp only [slot']
        cases unused : first.free with
        | nil =>
            have unused' : second.free = [] := by
              rw [unused] at room
              exact List.length_eq_zero_iff.mp room.symm
            simp only [unused']
            exact ⟨trivial, twin⟩
        | cons idx free =>
            obtain ⟨idx', free', unused'⟩ : ∃ idx' free', second.free = idx' :: free' := by
              cases free_eq : second.free with
              | nil => simp [unused, free_eq] at room
              | cons idx' free' => exact ⟨idx', free', rfl⟩
            simp only [unused']
            rw [unused, unused'] at room
            refine ⟨trivial, ?_, Nat.succ.inj room⟩
            intro other
            by_cases same : other = key
            · simp [View.write, same]
            · simpa [View.write, same] using twin.present other

theorem Twin.step {first second : View K} (twin : first.Twin second) (op : FlowOp K) :
    (first.step size op).2.1 = (second.step size op).2.1 ∧
      (first.step size op).1.Twin (second.step size op).1 := by
  have read_alike (key : K) (limit : Nat → Nat) :
      (first.read key limit).1 = (second.read key limit).1 := by
    have present := twin.present key
    unfold View.read
    cases slot : first.slot key <;> cases slot' : second.slot key <;> simp_all
  cases op with
  | put key value => exact twin.put key (some value) value.length
  | putNull key valLen => exact twin.put key none valLen
  | del key =>
      have present := twin.present key
      simp only [View.step, View.del]
      cases slot : first.slot key <;> cases slot' : second.slot key <;> simp [slot, slot'] at present
      · exact ⟨rfl, twin⟩
      · refine ⟨rfl, ?_, by simp [twin.room]⟩
        intro other
        by_cases same : other = key
        · simp [same]
        · simpa [same] using twin.present other
  | get key bufLen => exact ⟨read_alike key _, twin⟩
  | peek key => exact ⟨read_alike key _, twin⟩

theorem Twin.history {first second : View K} (twin : first.Twin second) (key : K)
    (ops : List (FlowOp K)) :
    history key (first.run size ops) = history key (second.run size ops) := by
  induction ops generalizing first second with
  | nil => rfl
  | cons op ops ih =>
      obtain ⟨status, after⟩ := @Twin.step K _ size first second twin op
      simp only [View.run, history_cons, status, ih after]

/-- The slots of a key in two views differ in one byte. -/
def Differ (first second : View K) (key : K) (place valLen : Nat) : Prop :=
  ∃ idx idx', first.slot key = some idx ∧ second.slot key = some idx' ∧
    (first.value idx)[place]? ≠ (second.value idx')[place]? ∧
    first.valLen idx = valLen ∧ second.valLen idx' = valLen

/-- The calls of a history return a byte of the slot before they write it or remove the key. -/
def Reveals (place : Nat) : Nat → List (FlowOp K × Status) → Prop
  | _, [] => False
  | valLen, entry :: entries =>
      match entry.1 with
      | .put _ value =>
          if entry.2 = .ok then value.length ≤ place ∧ Reveals place value.length entries
          else Reveals place valLen entries
      | .putNull _ newLen =>
          if entry.2 = .ok then Reveals place newLen entries else Reveals place valLen entries
      | .del _ => entry.2 ≠ .ok ∧ Reveals place valLen entries
      | .get _ bufLen => place < min bufLen valLen ∨ Reveals place valLen entries
      | .peek _ => place < valLen ∨ Reveals place valLen entries

theorem storeValue_getElem? {area : List UInt8} {val : Option (List UInt8)} {valLen place : Nat}
    (sized : Sized val valLen) (behind : ∀ value, val = some value → value.length ≤ place) :
    (storeValue area val valLen)[place]? = area[place]? := by
  cases val with
  | none => rfl
  | some value =>
      obtain rfl := sized value rfl
      have inside := behind value rfl
      simp only [storeValue, memcpy, List.take_length]
      rw [List.getElem?_append_right inside, List.getElem?_drop]
      congr 1
      omega

theorem put_of_present {key : K} {idx : Nat} (slot : view.slot key = some idx)
    (val : Option (List UInt8)) {valLen : Nat} (short : ¬ size < valLen) :
    view.put size key val valLen = (view.write idx val valLen, (.ok, none)) := by
  simp only [View.put, short, if_false, slot]

theorem put_of_long (view : View K) (key : K) (val : Option (List UInt8)) {valLen : Nat}
    (long : size < valLen) : view.put size key val valLen = (view, (.err, none)) := by
  simp only [View.put, long, if_true]

/-- A put on the key leaves the byte alone if it does not reach it. -/
theorem Differ.put {first second : View K} {key : K} {place oldLen : Nat}
    (differ : first.Differ second key place oldLen) {val : Option (List UInt8)} {valLen : Nat}
    (sized : Sized val valLen) (behind : ∀ value, val = some value → value.length ≤ place)
    (short : ¬ size < valLen) :
    (first.put size key val valLen).1.Differ (second.put size key val valLen).1 key place
      valLen := by
  obtain ⟨idx, idx', slot, slot', byte, -, -⟩ := differ
  rw [put_of_present slot val short, put_of_present slot' val short]
  refine ⟨idx, idx', slot, slot', ?_, by simp [View.write], by simp [View.write]⟩
  simp only [View.write, Function.update_self]
  rw [storeValue_getElem? sized behind, storeValue_getElem? sized behind]
  exact byte

theorem Differ.step_other {first second : View K} (proper : first.Proper size)
    (proper' : second.Proper size) {key : K} {place valLen : Nat}
    (differ : first.Differ second key place valLen) {op : FlowOp K} (different : op.key ≠ key) :
    (first.step size op).1.Differ (second.step size op).1 key place valLen := by
  obtain ⟨idx, idx', slot, slot', byte, length, length'⟩ := differ
  obtain ⟨value_eq, length_eq⟩ := bytes_step_other proper different slot
  obtain ⟨value_eq', length_eq'⟩ := bytes_step_other proper' different slot'
  refine ⟨idx, idx', (slot_step_other different).trans slot,
    (slot_step_other different).trans slot', ?_, length_eq.trans length, length_eq'.trans length'⟩
  rw [value_eq, value_eq']
  exact byte

omit [DecidableEq K] in
/-- A read of the byte returns something else in the other view. -/
theorem Differ.read {first second : View K} {key : K} {place valLen : Nat}
    (differ : first.Differ second key place valLen) {limit : Nat → Nat}
    (reaches : place < limit valLen) : first.read key limit ≠ second.read key limit := by
  obtain ⟨idx, idx', slot, slot', byte, length, length'⟩ := differ
  simp only [View.read, slot, slot', length, length']
  intro same
  simp only [Prod.mk.injEq, Option.some.injEq, true_and, and_true] at same
  have at_place := congrArg (fun bytes => bytes[place]?) same
  simp only [List.getElem?_take_of_lt reaches] at at_place
  exact byte at_place

/-- What the calls return differs if they reveal the byte. -/
theorem Differ.answers_ne {first second : View K} (twin : first.Twin second)
    (proper : first.Proper size) (proper' : second.Proper size) {key : K} {place valLen : Nat}
    (differ : first.Differ second key place valLen) {ops : List (FlowOp K)}
    (reveals : Reveals place valLen (Kv.history key (first.run size ops))) :
    answers key (first.run size ops) ≠ answers key (second.run size ops) := by
  induction ops generalizing first second valLen with
  | nil => exact reveals.elim
  | cons op ops ih =>
      obtain ⟨status, after⟩ := @Twin.step K _ size first second twin op
      simp only [View.run, history_cons, answers_cons] at reveals ⊢
      by_cases same : op.key = key
      · subst same
        simp only [if_true] at reveals ⊢
        have later {newLen : Nat} (differ' : (first.step size op).1.Differ
            (second.step size op).1 op.key place newLen)
            (reveals' : Reveals place newLen
              (Kv.history op.key ((first.step size op).1.run size ops))) :
            (first.step size op).2 :: answers op.key ((first.step size op).1.run size ops) ≠
              (second.step size op).2 :: answers op.key ((second.step size op).1.run size ops) :=
          fun equal => ih after (proper.step op) (proper'.step op) differ' reveals'
            (List.cons.inj equal).2
        obtain ⟨idx, idx', slot, slot', -⟩ := id differ
        cases op with
        | put key value =>
            simp only [FlowOp.key] at slot slot' differ
            by_cases long : size < value.length
            · have unchanged := first.put_of_long key (some value) long
              have unchanged' := second.put_of_long key (some value) long
              simp only [View.step, unchanged, reduceCtorEq, if_false, Reveals] at reveals
              refine later ?_ (by simpa only [View.step, unchanged] using reveals)
              simpa only [View.step, FlowOp.key, unchanged, unchanged'] using differ
            · have written := put_of_present slot (some value) long
              simp only [View.step, written, if_true, Reveals] at reveals
              refine later (differ.put (by rintro _ ⟨⟩; rfl) ?_ long)
                (by simpa only [View.step, written] using reveals.2)
              rintro _ ⟨⟩
              exact reveals.1
        | putNull key newLen =>
            simp only [FlowOp.key] at slot slot' differ
            by_cases long : size < newLen
            · have unchanged := first.put_of_long key none long
              have unchanged' := second.put_of_long key none long
              simp only [View.step, unchanged, reduceCtorEq, if_false, Reveals] at reveals
              refine later ?_ (by simpa only [View.step, unchanged] using reveals)
              simpa only [View.step, FlowOp.key, unchanged, unchanged'] using differ
            · have written := put_of_present slot none long
              simp only [View.step, written, if_true, Reveals] at reveals
              exact later (differ.put (by rintro _ ⟨⟩) (by rintro _ ⟨⟩) long)
                (by simpa only [View.step, written] using reveals)
        | del key =>
            simp only [FlowOp.key] at slot
            simp [View.step, View.del, slot, Reveals] at reveals
        | get key bufLen =>
            rcases reveals with now | reveals
            · exact fun equal => differ.read now (List.cons.inj equal).1
            · exact later differ reveals
        | peek key =>
            rcases reveals with now | reveals
            · exact fun equal => differ.read now (List.cons.inj equal).1
            · exact later differ reveals
      · simp only [same, if_false] at reveals ⊢
        exact ih after (proper.step op) (proper'.step op)
          (differ.step_other proper proper' same) reveals

/-! ## Calls on another key before and after an insertion -/

/-- The view after the calls. -/
def exec (size : Nat) (view : View K) : List (FlowOp K) → View K
  | [] => view
  | op :: ops => exec size (view.step size op).1 ops

theorem run_append (view : View K) (ops later : List (FlowOp K)) :
    view.run size (ops ++ later) = view.run size ops ++ (view.exec size ops).run size later := by
  induction ops generalizing view with
  | nil => rfl
  | cons op ops ih => simp only [List.cons_append, View.run, exec, ih]

theorem Proper.exec (proper : view.Proper size) (ops : List (FlowOp K)) :
    (view.exec size ops).Proper size := by
  induction ops generalizing view with
  | nil => exact proper
  | cons op ops ih => exact ih (proper.step op)

/-- Calls on other keys are not in the history of a key. -/
theorem run_others {key : K} {ops : List (FlowOp K)} (others : ∀ op ∈ ops, op.key ≠ key)
    (view : View K) :
    Kv.history key (view.run size ops) = [] ∧ answers key (view.run size ops) = [] := by
  induction ops generalizing view with
  | nil => exact ⟨rfl, rfl⟩
  | cons op ops ih =>
      have different := others op List.mem_cons_self
      simp only [View.run, history_cons, answers_cons, different, if_false]
      exact ih (fun op member => others op (List.mem_cons_of_mem _ member)) _

theorem put_of_absent {key : K} {idx : Nat} {free : List Nat} (slot : view.slot key = none)
    (unused : view.free = idx :: free) (val : Option (List UInt8)) {valLen : Nat}
    (short : ¬ size < valLen) :
    view.put size key val valLen =
      ({ view with slot := Function.update view.slot key (some idx), free := free }.write
        idx val valLen, (.ok, none)) := by
  simp only [View.put, short, if_false, slot, unused]

/-- An insertion succeeds if the value is not too long and a slot is unused. -/
theorem of_put_ok {key : K} {val : Option (List UInt8)} {valLen : Nat}
    (absent : view.slot key = none) (ok : (view.put size key val valLen).2.1 = .ok) :
    ¬ size < valLen ∧ ∃ idx free, view.free = idx :: free := by
  unfold View.put at ok
  split at ok
  · cases ok
  · rename_i short
    simp only [absent] at ok
    split at ok
    · cases ok
    · rename_i idx free unused
      exact ⟨short, idx, free, unused⟩

/-- Another key fills a slot with a byte and leaves it; then the key is inserted; then the other
key comes back if it was there. -/
theorem exists_dirty_insert (proper : view.Proper size) {key other : K} (different : other ≠ key)
    {op : FlowOp K} {val : Option (List UInt8)} {valLen place : Nat}
    (is_put : ∀ view : View K, view.step size op = view.put size key val valLen)
    (sized : Sized val valLen) (behind : ∀ value, val = some value → value.length ≤ place)
    (place_lt : place < size) (absent : view.slot key = none)
    (ok : (view.step size op).2.1 = .ok) :
    ∃ before after : List (FlowOp K), (∀ op ∈ before, op.key ≠ key) ∧
      (∀ op ∈ after, op.key ≠ key) ∧
      ((view.exec size before).step size op).2 = (view.step size op).2 ∧
      (view.step size op).1.Twin ((((view.exec size before).step size op).1).exec size after) ∧
      (view.step size op).1.Differ ((((view.exec size before).step size op).1).exec size after)
        key place valLen := by
  rw [is_put] at ok
  obtain ⟨short, idx, free, unused⟩ := of_put_ok absent ok
  have inserted := put_of_absent absent unused val short
  have idx_area : place < (view.value idx).length := by rw [proper.area]; exact place_lt
  -- The byte that the key finds in its slot, and another one.
  obtain ⟨stale, at_stale⟩ : ∃ stale, (view.value idx)[place]? = some stale :=
    ⟨_, List.getElem?_eq_getElem idx_area⟩
  let dirt : List UInt8 := List.replicate size (stale + 1)
  have dirt_length : dirt.length = size := List.length_replicate
  have dirt_short : ¬ size < dirt.length := by omega
  have dirt_place : dirt[place]? = some (stale + 1) := by
    simp [dirt, place_lt]
  have fills (area : List UInt8) (length : area.length = size) :
      storeValue area (some dirt) dirt.length = dirt := by
    simp [storeValue, memcpy, dirt_length, ← length]
  have unequal : some stale ≠ some (stale + 1) := by
    intro same
    have := Option.some.inj same
    simp at this
  have byte_kept (area : List UInt8) : (storeValue area val valLen)[place]? = area[place]? :=
    storeValue_getElem? sized behind
  simp only [is_put, inserted]
  cases at_other : view.slot other with
  | none =>
      have filled := put_of_absent at_other unused (some dirt) dirt_short
      let dirty : View K :=
        { slot := Function.update (Function.update view.slot other (some idx)) other none
          value := Function.update view.value idx dirt
          valLen := Function.update view.valLen idx dirt.length
          free := idx :: free }
      have executed : view.exec size [.put other dirt, .del other] = dirty := by
        simp [exec, View.step, filled, View.del, View.write, fills _ (proper.area idx), dirty]
      have reinserted := @put_of_absent _ _ dirty size key idx free
        (by simp [dirty, different.symm, absent]) rfl val valLen short
      refine ⟨[.put other dirt, .del other], [], by simp [FlowOp.key, different], by simp, ?_⟩
      rw [executed, reinserted]
      refine ⟨rfl, ⟨?_, rfl⟩, ?_⟩
      · intro third
        by_cases is_key : third = key
        · simp [View.write, exec, is_key]
        · by_cases is_other : third = other
          · simp [View.write, exec, dirty, is_other, different, at_other]
          · simp [View.write, exec, dirty, is_key, is_other]
      · refine ⟨idx, idx, by simp [View.write], by simp [View.write, exec], ?_,
          by simp [View.write], by simp [View.write, exec]⟩
        simp only [View.write, exec, Function.update_self, byte_kept, dirty, at_stale, dirt_place]
        exact unequal
  | some old =>
      have apart : idx ≠ old := by
        rintro rfl
        exact proper.used other idx at_other (by simp [unused])
      have filled := put_of_present at_other (some dirt) dirt_short
      let dirty : View K :=
        { slot := Function.update view.slot other none
          value := Function.update view.value old dirt
          valLen := Function.update view.valLen old dirt.length
          free := old :: idx :: free }
      have executed : view.exec size [.put other dirt, .del other] = dirty := by
        simp [exec, View.step, filled, View.del, View.write, at_other, unused,
          fills _ (proper.area old), dirty]
      have reinserted := @put_of_absent _ _ dirty size key old (idx :: free)
        (by simp [dirty, different.symm, absent]) rfl val valLen short
      refine ⟨[.put other dirt, .del other], [.put other []], by simp [FlowOp.key, different],
        by simp [FlowOp.key, different], ?_⟩
      rw [executed, reinserted]
      have restored := @put_of_absent _ _
        (({ dirty with
            slot := Function.update dirty.slot key (some old), free := idx :: free } :
          View K).write old val valLen) size other idx free
        (by simp [View.write, dirty, different]) rfl (some []) 0 (by omega)
      simp only [exec, View.step, List.length_nil, restored]
      refine ⟨trivial, ⟨?_, rfl⟩, ?_⟩
      · intro third
        by_cases is_other : third = other
        · simp [View.write, is_other, different, at_other]
        · by_cases is_key : third = key
          · simp [View.write, is_key, different.symm]
          · simp [View.write, dirty, is_key, is_other]
      · refine ⟨idx, old, by simp [View.write], by simp [View.write, different.symm], ?_,
          by simp [View.write], by simp [View.write, apart.symm]⟩
        simp only [View.write, Function.update_self, Function.update_of_ne apart.symm, byte_kept,
          dirty, at_stale, dirt_place]
        exact unequal

/-! ## A read that goes too far -/

/-- Another run with the same history of the key in which the calls on it return something else. -/
def Leaks (view : View K) (size : Nat) (key : K) (ops : List (FlowOp K)) : Prop :=
  ∃ ops', Kv.history key (view.run size ops') = Kv.history key (view.run size ops) ∧
    answers key (view.run size ops') ≠ answers key (view.run size ops)

theorem Leaks.cons {key : K} {op : FlowOp K} {ops : List (FlowOp K)}
    (leaks : (view.step size op).1.Leaks size key ops) : view.Leaks size key (op :: ops) := by
  obtain ⟨ops', same, different⟩ := leaks
  refine ⟨op :: ops', ?_, ?_⟩
  · simp only [View.run, history_cons, same]
  · simp only [View.run, answers_cons]
    split
    · exact fun equal => different (List.cons.inj equal).2
    · exact different

/-- A key that is inserted and whose slot is read beyond what it has written leaks. -/
theorem leaks_of_insert (proper : view.Proper size) {key other : K} (different : other ≠ key)
    {op : FlowOp K} {val : Option (List UInt8)} {valLen place : Nat} (own : op.key = key)
    (is_put : ∀ view : View K, view.step size op = view.put size key val valLen)
    (sized : Sized val valLen) (behind : ∀ value, val = some value → value.length ≤ place)
    (place_lt : place < size) (absent : view.slot key = none)
    (ok : (view.step size op).2.1 = .ok) {ops : List (FlowOp K)}
    (reveals : Reveals place valLen (Kv.history key ((view.step size op).1.run size ops))) :
    view.Leaks size key (op :: ops) := by
  obtain ⟨before, after, before_others, after_others, outcome, twin, differ⟩ :=
    exists_dirty_insert proper different is_put sized behind place_lt absent ok
  have proper' := ((proper.exec before).step op).exec after
  have same_history := @Twin.history _ _ size _ _ twin key ops
  have other_answers := differ.answers_ne twin (proper.step op) proper' reveals
  refine ⟨before ++ op :: (after ++ ops), ?_, ?_⟩
  · simp only [run_append, history_append, View.run, history_cons, own, if_true,
      (run_others before_others view).1, (run_others after_others _).1, outcome, same_history,
      List.nil_append]
  · simp only [run_append, answers_append, View.run, answers_cons, own, if_true,
      (run_others before_others view).2, (run_others after_others _).2, outcome,
      List.nil_append]
    exact fun equal => other_answers (List.cons.inj equal).2.symm

/-- A byte that the key has not written is going to be read. -/
def Exposed (known : Option Known) (size : Nat) (entries : List (FlowOp K × Status)) : Prop :=
  ∃ known', known = some known' ∧ ∃ place, known'.own.length ≤ place ∧ place < size ∧
    Reveals place known'.valLen entries

theorem exposed_or_leaks_of_put (proper : view.Proper size) {key other : K}
    (different : other ≠ key) {known : Option Known} (matched : view.Matches key known)
    {op : FlowOp K} {val : Option (List UInt8)} {valLen : Nat} (own : op.key = key)
    (is_put : ∀ view : View K, view.step size op = view.put size key val valLen)
    (sized : Sized val valLen) (ok : (view.step size op).2.1 = .ok) {ops : List (FlowOp K)}
    (exposed : Exposed (some ⟨storeValue (ownBytes known) val valLen, valLen⟩) size
      (Kv.history key ((view.step size op).1.run size ops))) :
    (∃ known', known = some known' ∧ ∃ place, known'.own.length ≤ place ∧ place < size ∧
      (∀ value, val = some value → value.length ≤ place) ∧
      Reveals place valLen (Kv.history key ((view.step size op).1.run size ops))) ∨
    view.Leaks size key (op :: ops) := by
  obtain ⟨known', same, place, beyond, place_lt, reveals⟩ := exposed
  obtain rfl := Option.some.inj same
  have behind : ∀ value, val = some value → value.length ≤ place := by
    rintro value rfl
    obtain rfl := sized value rfl
    simp only [storeValue, memcpy, List.take_length, List.length_append] at beyond
    omega
  cases known with
  | none =>
      exact .inr (leaks_of_insert proper different own is_put sized behind place_lt matched ok
        reveals)
  | some known =>
      refine .inl ⟨known, rfl, place, ?_, place_lt, behind, reveals⟩
      cases val with
      | none => exact beyond
      | some value =>
          have length := sized value rfl
          simp only [ownBytes, Option.map_some, Option.getD_some, storeValue, memcpy,
            List.length_append, List.length_take, List.length_drop] at beyond
          omega

omit [DecidableEq K] in
theorem exposed_of_read (proper : view.Proper size) {op : FlowOp K} {known : Option Known}
    (matched : view.Matches op.key known)
    (reads : ¬ readLen known op ≤ (ownBytes known).length) (status : Status)
    (entries : List (FlowOp K × Status)) : Exposed known size ((op, status) :: entries) := by
  cases known with
  | none => cases op <;> exact absurd (Nat.zero_le _) reads
  | some known =>
      obtain ⟨idx, slot, starts, length⟩ := matched
      have fits := proper.fits idx
      rw [length] at fits
      cases op with
      | put key value => exact absurd (Nat.zero_le _) reads
      | putNull key valLen => exact absurd (Nat.zero_le _) reads
      | del key => exact absurd (Nat.zero_le _) reads
      | get key bufLen =>
          have reads : known.own.length < min bufLen known.valLen := not_le.mp reads
          exact ⟨known, rfl, known.own.length, le_refl _, by omega, .inl reads⟩
      | peek key =>
          have reads : known.own.length < known.valLen := not_le.mp reads
          exact ⟨known, rfl, known.own.length, le_refl _, by omega, .inl reads⟩

theorem exposed_or_leaks_of_step (proper : view.Proper size) {op : FlowOp K} {other : K}
    (different : other ≠ op.key) {known : Option Known} (matched : view.Matches op.key known)
    {ops : List (FlowOp K)}
    (exposed : Exposed (learn known (op, (view.step size op).2.1)) size
      (Kv.history op.key ((view.step size op).1.run size ops))) :
    Exposed known size ((op, (view.step size op).2.1) ::
        Kv.history op.key ((view.step size op).1.run size ops)) ∨
      view.Leaks size op.key (op :: ops) := by
  cases op with
  | put key value =>
      by_cases ok : (view.step size (.put key value)).2.1 = .ok
      · simp only [learn, ok, if_true] at exposed
        refine (exposed_or_leaks_of_put proper different matched rfl (fun _ => rfl)
          (by rintro _ ⟨⟩; rfl) ok exposed).imp_left ?_
        rintro ⟨known', rfl, place, beyond, place_lt, behind, reveals⟩
        refine ⟨known', rfl, place, beyond, place_lt, ?_⟩
        simp only [Reveals, ok, if_true]
        exact ⟨behind value rfl, reveals⟩
      · simp only [learn, ok, if_false] at exposed
        obtain ⟨known', same, place, beyond, place_lt, reveals⟩ := exposed
        refine .inl ⟨known', same, place, beyond, place_lt, ?_⟩
        simpa only [Reveals, ok, if_false] using reveals
  | putNull key valLen =>
      by_cases ok : (view.step size (.putNull key valLen)).2.1 = .ok
      · simp only [learn, ok, if_true] at exposed
        refine (exposed_or_leaks_of_put proper different matched rfl (fun _ => rfl)
          (by rintro _ ⟨⟩) ok exposed).imp_left ?_
        rintro ⟨known', rfl, place, beyond, place_lt, behind, reveals⟩
        refine ⟨known', rfl, place, beyond, place_lt, ?_⟩
        simp only [Reveals, ok, if_true]
        exact reveals
      · simp only [learn, ok, if_false] at exposed
        obtain ⟨known', same, place, beyond, place_lt, reveals⟩ := exposed
        refine .inl ⟨known', same, place, beyond, place_lt, ?_⟩
        simpa only [Reveals, ok, if_false] using reveals
  | del key =>
      by_cases ok : (view.step size (.del key)).2.1 = .ok
      · simp only [learn, ok, if_true] at exposed
        obtain ⟨known', same, -⟩ := exposed
        cases same
      · simp only [learn, ok, if_false] at exposed
        obtain ⟨known', same, place, beyond, place_lt, reveals⟩ := exposed
        exact .inl ⟨known', same, place, beyond, place_lt, ok, reveals⟩
  | get key bufLen =>
      obtain ⟨known', same, place, beyond, place_lt, reveals⟩ := exposed
      exact .inl ⟨known', same, place, beyond, place_lt, .inr reveals⟩
  | peek key =>
      obtain ⟨known', same, place, beyond, place_lt, reveals⟩ := exposed
      exact .inl ⟨known', same, place, beyond, place_lt, .inr reveals⟩

/-- A history that reads beyond what the key has written exposes a byte that is there already, or
another run returns something else for it. -/
theorem exposed_or_leaks (proper : view.Proper size) {key other : K} (different : other ≠ key)
    {known : Option Known} (matched : view.Matches key known) {ops : List (FlowOp K)}
    (beyond : ¬ ReadsOwn known (Kv.history key (view.run size ops))) :
    Exposed known size (Kv.history key (view.run size ops)) ∨ view.Leaks size key ops := by
  induction ops generalizing view known with
  | nil => exact absurd trivial beyond
  | cons op ops ih =>
      by_cases own : op.key = key
      · subst own
        have after := (@Matches.step_own _ _ _ size _ _ matched).1
        simp only [View.run, history_cons, if_true, ReadsOwn, not_and_or] at beyond ⊢
        rcases beyond with reads | later
        · exact .inl (exposed_of_read proper matched reads _ _)
        · rcases ih (proper.step op) after later with exposed | leaks
          · exact exposed_or_leaks_of_step proper different matched exposed
          · exact .inr leaks.cons
      · simp only [View.run, history_cons, own, if_false] at beyond ⊢
        exact (ih (proper.step op) (matched.step_other proper own) beyond).imp_right Leaks.cons

end View

/-! ## Runs of a table -/

/-- What the calls on a key return in a run of a new table depends on nothing but the history of
the key, however the calls on other keys differ, exactly if every read of the key stays within the
bytes that its own puts have written since it was inserted. -/
theorem isolated_iff_readsOwn (schema : Schema K) {key other : K} (different : other ≠ key)
    {ops : List (FlowOp K)} {log : List (FlowOp K × Outcome)}
    (executed : flowRun schema (nosKvTableCreate schema) ops = .ok log) :
    Isolated schema key log ↔ ReadsOwn none (history key log) := by
  have proper := @View.proper_create K schema.maxValSize schema.capacity
  have absent : (View.create schema.maxValSize schema.capacity : View K).Matches key none := rfl
  have run_eq (ops : List (FlowOp K)) := (Shows.create schema).flowRun ops
  rw [run_eq, Except.ok.injEq] at executed
  subst executed
  constructor
  · intro isolated
    by_contra beyond
    rcases View.exposed_or_leaks proper different absent beyond with exposed | leaks
    · obtain ⟨known, same, -⟩ := exposed
      cases same
    · obtain ⟨ops', same, differs⟩ := leaks
      exact differs (isolated ops' _ (run_eq ops') same)
  · intro reads ops' log' executed' same
    rw [run_eq, Except.ok.injEq] at executed'
    subst executed'
    rw [absent.answers_eq proper reads, absent.answers_eq proper (same ▸ reads), same]

/-- A table for keys that are numbers, with two slots of four bytes. -/
def smallSchema : Schema Nat where
  hash := id
  zeroKey := 0
  maxValSize := 4
  capacity := 2
  bucketCount := 1024
  capacity_lt := two_lt_limit

/-- A key whose puts all have values. -/
def ownValue : List (FlowOp Nat) :=
  [.put 2 [1, 2, 3, 4], .del 2, .put 1 [9, 9], .putNull 1 1, .get 1 4, .peek 1]

/-- The key learns nothing of the other one. -/
theorem ownValue_isolated :
    ∃ log, flowRun smallSchema (nosKvTableCreate smallSchema) ownValue = .ok log ∧
      Isolated smallSchema 1 log := by
  have executed : flowRun smallSchema (nosKvTableCreate smallSchema) ownValue =
      .ok ((View.create 4 2).run 4 ownValue) := (Shows.create smallSchema).flowRun ownValue
  exact ⟨_, executed, (isolated_iff_readsOwn smallSchema (show 2 ≠ 1 by decide) executed).mpr
    (by decide +kernel)⟩

/-- A put without a value gives a key the bytes of a key that was removed. -/
theorem removed_value_revealed :
    ∃ log log', flowRun smallSchema (nosKvTableCreate smallSchema)
          [.put 2 [1, 2, 3, 4], .del 2, .putNull 1 4, .get 1 4] = .ok log ∧
      flowRun smallSchema (nosKvTableCreate smallSchema) [.putNull 1 4, .get 1 4] = .ok log' ∧
      history 1 log' = history 1 log ∧
      answers 1 log = [(.ok, none), (.ok, some ([1, 2, 3, 4], 4))] ∧
      answers 1 log' = [(.ok, none), (.ok, some ([0, 0, 0, 0], 4))] :=
  ⟨_, _, rfl, rfl, by decide +kernel, by decide +kernel, by decide +kernel⟩

end CodexNos.Kv
