import Mathlib.Tactic

/-!
# Rings with one free place

A queue in an array whose two indices run around it.  The queue is empty if they are equal, and a
new item needs a further place besides its own, so a ring of `size` places holds fewer than `size`
items.  The items from the first index to the second form a list on which a push appends and a pop
takes the first.
-/

namespace CodexNos.Lib

/-- A ring of `size` places. -/
structure Ring (α : Type*) (size : Nat) where
  /-- The places. -/
  slots : Nat → α
  /-- Place of the first item. -/
  head : Nat
  /-- Place behind the last item. -/
  tail : Nat
  /-- The first index is in range. -/
  head_lt : head < size
  /-- The second index is in range. -/
  tail_lt : tail < size

namespace Ring

variable {α : Type*} {size : Nat}

/-- A ring without items. -/
def empty (item : α) (pos : 0 < size) : Ring α size where
  slots := fun _ => item
  head := 0
  tail := 0
  head_lt := pos
  tail_lt := pos

/-- The number of items. -/
def length (ring : Ring α size) : Nat :=
  if ring.head ≤ ring.tail then ring.tail - ring.head else size - ring.head + ring.tail

/-- The place of an item. -/
def place (ring : Ring α size) (offset : Nat) : Nat := (ring.head + offset) % size

/-- The items, the first one first. -/
def contents (ring : Ring α size) : List α :=
  (List.range ring.length).map fun offset => ring.slots (ring.place offset)

/-- Add an item behind the last one, if there is room. -/
def push? (ring : Ring α size) (item : α) : Option (Ring α size) :=
  if (ring.tail + 1) % size = ring.head then none
  else
    some
      { slots := Function.update ring.slots ring.tail item
        head := ring.head
        tail := (ring.tail + 1) % size
        head_lt := ring.head_lt
        tail_lt := Nat.mod_lt _ (Nat.zero_lt_of_lt ring.tail_lt) }

/-- Add an item behind the last one without looking for room. -/
def put (ring : Ring α size) (item : α) : Ring α size where
  slots := Function.update ring.slots ring.tail item
  head := ring.head
  tail := (ring.tail + 1) % size
  head_lt := ring.head_lt
  tail_lt := Nat.mod_lt _ (Nat.zero_lt_of_lt ring.tail_lt)

/-- Take the first item, if there is one. -/
def pop? (ring : Ring α size) : Option (α × Ring α size) :=
  if ring.head = ring.tail then none
  else
    some
      (ring.slots ring.head,
        { slots := ring.slots
          head := (ring.head + 1) % size
          tail := ring.tail
          head_lt := Nat.mod_lt _ (Nat.zero_lt_of_lt ring.head_lt)
          tail_lt := ring.tail_lt })

/-- Take out all items, the first one first, in at most so many rounds.  There is no result if the
rounds do not suffice. -/
def drain {β : Type*} (visit : β → α → β) : Nat → Ring α size → β → Option (β × Ring α size)
  | 0, _, _ => none
  | rounds + 1, ring, state =>
      match ring.pop? with
      | none => some (state, ring)
      | some (item, rest) => rest.drain visit rounds (visit state item)

/-! ## Indices -/

theorem next_eq {index : Nat} (index_lt : index < size) :
    (index + 1) % size = if index + 1 = size then 0 else index + 1 := by
  split
  · rename_i last
    rw [last, Nat.mod_self]
  · exact Nat.mod_eq_of_lt (by omega)

theorem place_eq (ring : Ring α size) {offset : Nat} (offset_lt : offset < size) :
    ring.place offset =
      if ring.head + offset < size then ring.head + offset else ring.head + offset - size := by
  have head_lt := ring.head_lt
  unfold place
  split
  · rename_i inside
    exact Nat.mod_eq_of_lt inside
  · rw [Nat.mod_eq_sub_mod (by omega)]
    exact Nat.mod_eq_of_lt (by omega)

theorem length_lt (ring : Ring α size) : ring.length < size := by
  have := ring.head_lt
  have := ring.tail_lt
  unfold length
  split <;> omega

@[simp]
theorem length_contents (ring : Ring α size) : ring.contents.length = ring.length := by
  simp [contents]

@[simp]
theorem contents_empty (item : α) (pos : 0 < size) : (empty item pos).contents = [] := by
  simp [contents, length, empty]

/-! ## Pushing -/

theorem full_iff (ring : Ring α size) :
    (ring.tail + 1) % size = ring.head ↔ ring.length = size - 1 := by
  have := ring.head_lt
  have := ring.tail_lt
  rw [next_eq ring.tail_lt]
  unfold length
  split <;> split <;> omega

theorem push?_eq_none_iff (ring : Ring α size) (item : α) :
    ring.push? item = none ↔ ring.contents.length = size - 1 := by
  rw [length_contents, ← full_iff]
  simp [push?]

theorem contents_push? {ring ring' : Ring α size} {item : α}
    (pushed : ring.push? item = some ring') : ring'.contents = ring.contents ++ [item] := by
  have head_lt := ring.head_lt
  have tail_lt := ring.tail_lt
  simp only [push?, Option.ite_none_left_eq_some, Option.some.injEq] at pushed
  obtain ⟨room, rfl⟩ := pushed
  have length_lt := ring.length_lt
  have length_succ :
      (Ring.mk (Function.update ring.slots ring.tail item) ring.head ((ring.tail + 1) % size)
        head_lt (Nat.mod_lt _ (Nat.zero_lt_of_lt tail_lt))).length = ring.length + 1 := by
    have next := next_eq tail_lt
    by_cases last : ring.tail + 1 = size
    · rw [if_pos last] at next
      simp only [length, next] at room ⊢
      split <;> split <;> omega
    · rw [if_neg last] at next
      simp only [length, next] at room ⊢
      split <;> split <;> omega
  have place_last : ring.place ring.length = ring.tail := by
    rw [place_eq ring length_lt]
    unfold length
    split <;> split <;> omega
  have place_inside : ∀ offset < ring.length, ring.place offset ≠ ring.tail := by
    intro offset inside
    rw [place_eq ring (by omega)]
    unfold length at inside
    split at inside <;> split <;> omega
  unfold contents
  rw [length_succ, List.range_succ, List.map_append]
  congr 1
  · apply List.map_congr_left
    intro offset inside
    exact Function.update_of_ne (place_inside offset (List.mem_range.mp inside)) ..
  · change [Function.update ring.slots ring.tail item (ring.place ring.length)] = [item]
    rw [place_last, Function.update_self]

theorem contents_put {ring : Ring α size} (room : ring.contents.length + 1 < size) (item : α) :
    (ring.put item).contents = ring.contents ++ [item] := by
  have not_full : (ring.tail + 1) % size ≠ ring.head := by
    rw [ne_eq, full_iff, ← length_contents]
    omega
  exact contents_push? (if_neg not_full)

/-! ## Popping -/

theorem pop?_eq_none_iff (ring : Ring α size) : ring.pop? = none ↔ ring.contents = [] := by
  have := ring.head_lt
  have := ring.tail_lt
  rw [← List.length_eq_zero_iff, length_contents]
  simp only [pop?, ite_eq_left_iff, reduceCtorEq, imp_false, not_not]
  unfold length
  split <;> omega

theorem contents_pop? {ring ring' : Ring α size} {item : α}
    (popped : ring.pop? = some (item, ring')) : ring.contents = item :: ring'.contents := by
  have head_lt := ring.head_lt
  have tail_lt := ring.tail_lt
  simp only [pop?, Option.ite_none_left_eq_some, Option.some.injEq, Prod.mk.injEq] at popped
  obtain ⟨some_item, rfl, rfl⟩ := popped
  have length_lt := ring.length_lt
  have length_succ :
      ring.length = (Ring.mk ring.slots ((ring.head + 1) % size) ring.tail
        (Nat.mod_lt _ (Nat.zero_lt_of_lt head_lt)) tail_lt).length + 1 := by
    have next := next_eq head_lt
    by_cases last : ring.head + 1 = size
    · rw [if_pos last] at next
      simp only [length, next]
      split <;> split <;> omega
    · rw [if_neg last] at next
      simp only [length, next]
      split <;> split <;> omega
  unfold contents
  rw [length_succ, List.range_succ_eq_map, List.map_cons, List.map_map]
  congr 1
  · simp [place, Nat.mod_eq_of_lt head_lt]
  · apply List.map_congr_left
    intro offset _
    simp only [Function.comp, place, Nat.mod_add_mod]
    congr 2
    omega

/-! ## Draining -/

theorem drain_eq {β : Type*} (visit : β → α → β) {rounds : Nat} {ring : Ring α size}
    (enough : ring.contents.length < rounds) (state : β) :
    ∃ rest, ring.drain visit rounds state = some (ring.contents.foldl visit state, rest) ∧
      rest.contents = [] := by
  induction rounds generalizing ring state with
  | zero => exact absurd enough (Nat.not_lt_zero _)
  | succ rounds ih =>
      cases popped : ring.pop? with
      | none =>
          have no_items := (pop?_eq_none_iff ring).mp popped
          exact ⟨ring, by simp [drain, popped, no_items], no_items⟩
      | some taken =>
          obtain ⟨item, rest⟩ := taken
          have split := contents_pop? popped
          rw [split, List.length_cons, Nat.add_lt_add_iff_right] at enough
          obtain ⟨final, drained, no_items⟩ := ih enough (visit state item)
          exact ⟨final, by simp [drain, popped, drained, split], no_items⟩

end Ring

end CodexNos.Lib
