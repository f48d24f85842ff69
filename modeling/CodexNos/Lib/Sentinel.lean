import Mathlib.Tactic

/-!
# Arrays with a sentinel

An initialiser fills an array of a fixed size; what does not fit is dropped, and what it does not
give is blank.  A loop reads the elements one after the other, until it finds a sentinel or has taken
as many as its limit allows.  It reads an element before it looks at the limit, so it reads one more
element than it takes.
-/

namespace CodexNos.Lib

variable {α : Type*}

/-- An array after its initialiser. -/
def initialised (size : Nat) (blank : α) (items : List α) : Vector α size :=
  Vector.ofFn fun place => items.getD place blank

theorem getElem?_initialised {size : Nat} {blank : α} {items : List α} (place : Nat) :
    (initialised size blank items)[place]? =
      if place < size then some (items.getD place blank) else none := by
  by_cases inside : place < size
  · rw [Vector.getElem?_eq_getElem inside, if_pos inside]
    simp [initialised]
  · rw [Vector.getElem?_eq_none (not_lt.mp inside), if_neg inside]

/-- Read elements from a place on, at most so many.  `read` is `none` beyond the array and
`some none` at a sentinel. -/
def scanArray (read : Nat → Option (Option α)) : Nat → Nat → Option (List α)
  | 0, place => (read place).map fun _ => []
  | left + 1, place =>
      match read place with
      | none => none
      | some none => some []
      | some (some item) => (scanArray read left (place + 1)).map (item :: ·)

/-- What a loop has read where it ends within the array. -/
theorem scanArray_eq_some_iff {read : Nat → Option (Option α)} {left place : Nat} {items : List α} :
    scanArray read left place = some items ↔
      items.length ≤ left ∧
        (∀ index ≤ items.length, index < left → read (place + index) = some items[index]?) ∧
        (items.length = left → (read (place + left)).isSome) := by
  induction left generalizing place items with
  | zero =>
      rw [scanArray, Option.map_eq_some_iff, Option.isSome_iff_exists]
      constructor
      · rintro ⟨last, found, rfl⟩
        exact ⟨le_rfl, by simp, fun _ => ⟨last, found⟩⟩
      · rintro ⟨short, -, ended⟩
        obtain rfl : items = [] := List.length_eq_zero_iff.mp (Nat.le_zero.mp short)
        obtain ⟨last, found⟩ := ended rfl
        exact ⟨last, found, rfl⟩
  | succ left ih =>
      have shift (index : Nat) : place + (index + 1) = place + 1 + index := by omega
      cases items with
      | nil =>
          rw [scanArray]
          constructor
          · intro scanned
            have found : read place = some none := by
              split at scanned
              · simp at scanned
              · assumption
              · obtain ⟨later, -, same⟩ := Option.map_eq_some_iff.mp scanned
                simp at same
            refine ⟨Nat.zero_le _, fun index first _ => ?_, by simp⟩
            obtain rfl : index = 0 := Nat.le_zero.mp first
            exact found
          · rintro ⟨-, found, -⟩
            have here : read place = some none := found 0 le_rfl (Nat.succ_pos left)
            rw [here]
      | cons item items =>
          rw [scanArray]
          constructor
          · intro scanned
            split at scanned
            · simp at scanned
            · simp at scanned
            · rename_i first here
              obtain ⟨later, rest, same⟩ := Option.map_eq_some_iff.mp scanned
              obtain ⟨rfl, rfl⟩ := List.cons.inj same
              obtain ⟨short, found, ended⟩ := ih.mp rest
              refine ⟨Nat.succ_le_succ short, fun index inside room => ?_, fun full => ?_⟩
              · cases index with
                | zero => exact here
                | succ index =>
                    rw [shift, List.getElem?_cons_succ]
                    exact found index (Nat.le_of_succ_le_succ inside) (Nat.lt_of_succ_lt_succ room)
              · rw [shift]
                exact ended (Nat.succ.inj full)
          · rintro ⟨short, found, ended⟩
            have here : read place = some (some item) :=
              found 0 (Nat.zero_le _) (Nat.succ_pos left)
            have later : scanArray read left (place + 1) = some items := by
              refine ih.mpr ⟨Nat.le_of_succ_le_succ short, fun index inside room => ?_,
                fun full => ?_⟩
              · rw [← shift]
                exact found (index + 1) (Nat.succ_le_succ inside) (Nat.succ_lt_succ room)
              · rw [← shift]
                exact ended (congrArg Nat.succ full)
            simp only [here, later, Option.map_some]

/-- A loop that may take all elements of an array ends at a sentinel, or beyond the array. -/
theorem length_lt_of_scanArray {read : Nat → Option (Option α)} {size left : Nat} {items : List α}
    (scanned : scanArray read left 0 = some items) (room : size ≤ left)
    (beyond : ∀ place, size ≤ place → read place = none) : items.length < size := by
  obtain ⟨short, found, ended⟩ := scanArray_eq_some_iff.mp scanned
  by_contra long
  rcases Nat.lt_or_eq_of_le short with inside | full
  · have last := found items.length le_rfl inside
    rw [Nat.zero_add, beyond _ (not_lt.mp long)] at last
    simp at last
  · have last := ended full
    rw [Nat.zero_add, beyond _ room] at last
    simp at last

/-- A loop takes the elements before the sentinel, if its limit allows as many. -/
theorem scanArray_of_found {read : Nat → Option (Option α)} {left : Nat} {items : List α}
    (room : items.length ≤ left)
    (found : ∀ index ≤ items.length, read index = some items[index]?) :
    scanArray read left 0 = some items := by
  refine scanArray_eq_some_iff.mpr ⟨room, fun index inside _ => ?_, fun full => ?_⟩
  · rw [Nat.zero_add]
    exact found index inside
  · rw [Nat.zero_add, ← full, found _ le_rfl]
    rfl

/-- A loop that may take all elements of an array ends with the elements before the sentinel, if this
is in the array. -/
theorem scanArray_eq_some_iff_of_array {read : Nat → Option (Option α)} {size left : Nat}
    {items taken : List α} (room : size ≤ left)
    (inside : ∀ place < size, place ≤ items.length → read place = some items[place]?)
    (beyond : ∀ place, size ≤ place → read place = none) :
    scanArray read left 0 = some taken ↔ items.length < size ∧ taken = items := by
  by_cases short : items.length < size
  · have all : scanArray read left 0 = some items := scanArray_of_found (short.le.trans room)
      fun place bound => inside place (bound.trans_lt short) bound
    rw [all, Option.some.injEq]
    exact ⟨fun same => ⟨short, same.symm⟩, fun same => same.2.symm⟩
  · refine iff_of_false (fun scanned => ?_) fun same => short same.1
    have within := length_lt_of_scanArray scanned room beyond
    have more : taken.length < items.length := within.trans_le (not_lt.mp short)
    obtain ⟨-, found, -⟩ := scanArray_eq_some_iff.mp scanned
    have last := found taken.length le_rfl (within.trans_le room)
    rw [Nat.zero_add, inside _ within more.le, List.getElem?_eq_getElem more,
      List.getElem?_eq_none le_rfl] at last
    simp at last

theorem read_of_scanArray {read : Nat → Option (Option α)} {left : Nat} {items : List α}
    (scanned : scanArray read left 0 = some items) {index : Nat} (inside : index < items.length) :
    read index = some items[index]? := by
  obtain ⟨short, found, -⟩ := scanArray_eq_some_iff.mp scanned
  have taken := found index inside.le (inside.trans_le short)
  rwa [Nat.zero_add] at taken

end CodexNos.Lib
