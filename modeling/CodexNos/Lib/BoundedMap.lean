import Mathlib.Data.Finmap
import Mathlib.Tactic

/-!
# Bounded finite maps

A finite map that holds at most `capacity` keys.  Writing to a present key always succeeds; a new
key needs room.
-/

namespace CodexNos.Lib

/-- A finite map with at most `capacity` keys. -/
structure BoundedMap (K V : Type*) (capacity : Nat) where
  /-- The pairs of the map. -/
  map : Finmap fun _ : K => V
  /-- The keys fit. -/
  card_le : map.keys.card ≤ capacity

namespace BoundedMap

variable {K V : Type*} {capacity : Nat}

/-- The map without keys. -/
def empty : BoundedMap K V capacity where
  map := ∅
  card_le := by simp

/-- The number of keys. -/
def card (M : BoundedMap K V capacity) : Nat := M.map.keys.card

variable [DecidableEq K]

/-- The value under a key. -/
def lookup (M : BoundedMap K V capacity) (key : K) : Option V := M.map.lookup key

/-- Set the value under a key, unless the key is new and the map is full. -/
def insert? (M : BoundedMap K V capacity) (key : K) (value : V) :
    Option (BoundedMap K V capacity) :=
  if fits : (M.map.insert key value).keys.card ≤ capacity then
    some ⟨M.map.insert key value, fits⟩
  else none

/-- Remove a key. -/
def erase (M : BoundedMap K V capacity) (key : K) : BoundedMap K V capacity where
  map := M.map.erase key
  card_le := by
    rw [Finmap.keys_erase]
    exact (Finset.card_erase_le).trans M.card_le

@[simp]
theorem lookup_empty (key : K) : (empty : BoundedMap K V capacity).lookup key = none := rfl

theorem keys_insert (map : Finmap fun _ : K => V) (key : K) (value : V) :
    (map.insert key value).keys = insert key map.keys := by
  ext other
  simp [Finmap.mem_keys]

theorem mem_keys_iff (M : BoundedMap K V capacity) (key : K) :
    key ∈ M.map.keys ↔ (M.lookup key).isSome := by
  rw [Finmap.mem_keys, lookup, Finmap.lookup_isSome]

theorem insert?_eq_none_iff (M : BoundedMap K V capacity) (key : K) (value : V) :
    M.insert? key value = none ↔ M.lookup key = none ∧ M.card = capacity := by
  have bounded : M.card ≤ capacity := M.card_le
  have known := M.mem_keys_iff key
  simp only [insert?, keys_insert]
  cases present : M.lookup key with
  | none =>
      rw [present] at known
      have fresh : key ∉ M.map.keys := by simpa using known
      have size : (insert key M.map.keys).card = M.card + 1 := Finset.card_insert_of_notMem fresh
      simp only [dite_eq_right_iff, reduceCtorEq, imp_false, size, true_and]
      omega
  | some value' =>
      rw [present] at known
      have member : key ∈ M.map.keys := by simpa using known
      have size : (insert key M.map.keys).card = M.card := by
        rw [Finset.insert_eq_of_mem member, card]
      simp [size, bounded]

/-- A successful insertion changes the value of its key and nothing else. -/
theorem lookup_insert? {M M' : BoundedMap K V capacity} {key : K} {value : V}
    (inserted : M.insert? key value = some M') (other : K) :
    M'.lookup other = if other = key then some value else M.lookup other := by
  obtain ⟨fits, equal⟩ := Option.dite_none_right_eq_some.mp inserted
  obtain rfl := Option.some.inj equal
  split
  · rename_i same
    subst same
    exact Finmap.lookup_insert _
  · rename_i different
    exact Finmap.lookup_insert_of_ne _ different

theorem lookup_erase (M : BoundedMap K V capacity) (key other : K) :
    (M.erase key).lookup other = if other = key then none else M.lookup other := by
  split
  · rename_i same
    subst same
    exact Finmap.lookup_erase _ _
  · rename_i different
    exact Finmap.lookup_erase_ne different

/-- A table with unique keys that looks up like the map has as many members as the map has
keys. -/
theorem card_eq_length {α : Type*} (M : BoundedMap K V capacity) {table : List α} {key : α → K}
    {value : α → V} (unique : (table.map key).Nodup)
    (lookup : ∀ wanted, M.lookup wanted =
      (table.find? fun member => key member = wanted).map value) : M.card = table.length := by
  have keys_eq : M.map.keys = (table.map key).toFinset := by
    ext wanted
    rw [M.mem_keys_iff, lookup, Option.isSome_map, List.find?_isSome]
    simp
  rw [card, keys_eq, List.toFinset_card_of_nodup unique, List.length_map]

end BoundedMap

end CodexNos.Lib
