import Mathlib.Data.Finset.Card
import Mathlib.Data.List.TakeWhile
import Mathlib.Tactic

/-!
# Tables with keys and a limit

Items are entered into a table one after the other.  An item whose key is in the table takes the
place of the item that is there, and an item with a new key needs room.  In the end a key has the
last of its items, if fewer different keys than the limit came before the first of them.
-/

namespace CodexNos.Lib

variable {α κ : Type*} [DecidableEq κ]

/-- The number of different keys of some items. -/
def keyCount (key : α → κ) (items : List α) : Nat := (items.map key).toFinset.card

/-- The item that has a key after the items were entered. -/
def holder (key : α → κ) (limit : Nat) (items : List α) (wanted : κ) : Option α :=
  if keyCount key (items.takeWhile fun item => key item ≠ wanted) < limit then
    items.reverse.find? fun item => key item = wanted
  else none

variable {key : α → κ} {limit : Nat} {items : List α} {item : α} {wanted : κ}

theorem toFinset_concat :
    ((items ++ [item]).map key).toFinset = insert (key item) (items.map key).toFinset := by
  ext other
  simp

theorem keyCount_concat_of_mem (known : key item ∈ items.map key) :
    keyCount key (items ++ [item]) = keyCount key items := by
  have same : insert (key item) (items.map key).toFinset = (items.map key).toFinset :=
    Finset.insert_eq_of_mem (List.mem_toFinset.mpr known)
  rw [keyCount, keyCount, toFinset_concat, same]

theorem keyCount_concat_of_notMem (new : key item ∉ items.map key) :
    keyCount key (items ++ [item]) = keyCount key items + 1 := by
  have fresh : key item ∉ (items.map key).toFinset := mt List.mem_toFinset.mp new
  rw [keyCount, keyCount, toFinset_concat, Finset.card_insert_of_notMem fresh]

theorem takeWhile_concat_of_mem (known : wanted ∈ items.map key) :
    ((items ++ [item]).takeWhile fun item => key item ≠ wanted) =
      items.takeWhile fun item => key item ≠ wanted := by
  obtain ⟨other, member, same⟩ := List.mem_map.mp known
  rw [List.takeWhile_append, if_neg]
  intro whole
  have all := List.takeWhile_eq_self_iff.mp
    ((List.takeWhile_prefix fun item => decide (key item ≠ wanted)).eq_of_length whole) other member
  simp [same] at all

theorem mem_of_holder (held : holder key limit items wanted = some item) :
    item ∈ items ∧ key item = wanted := by
  rw [holder, Option.ite_none_right_eq_some] at held
  exact ⟨List.mem_reverse.mp (List.mem_of_find?_eq_some held.2),
    by simpa using List.find?_some held.2⟩

theorem holder_of_notMem (new : wanted ∉ items.map key) :
    holder key limit items wanted = none := by
  cases held : holder key limit items wanted with
  | none => rfl
  | some item =>
      obtain ⟨member, same⟩ := mem_of_holder held
      exact absurd (List.mem_map.mpr ⟨item, member, same⟩) new

/-- A key of some item that has no holder came when the table was full. -/
theorem limit_le_of_holder_eq_none (known : wanted ∈ items.map key)
    (none_held : holder key limit items wanted = none) : limit ≤ keyCount key items := by
  obtain ⟨item, member, same⟩ := List.mem_map.mp known
  have before : limit ≤ keyCount key (items.takeWhile fun item => key item ≠ wanted) := by
    by_contra room
    rw [holder, if_pos (not_le.mp room), List.find?_eq_none] at none_held
    simpa [same] using none_held item (List.mem_reverse.mpr member)
  refine before.trans (Finset.card_le_card ?_)
  intro other inside
  have front : (items.takeWhile fun item => key item ≠ wanted) ⊆ items :=
    (List.takeWhile_sublist _).subset
  exact List.mem_toFinset.mpr (List.map_subset key front (List.mem_toFinset.mp inside))

/-- Items that are shown in another way are held in this way. -/
theorem holder_map {β : Type*} (view : β → α) (key : α → κ) (limit : Nat) (items : List β)
    (wanted : κ) : holder key limit (items.map view) wanted =
      (holder (fun item => key (view item)) limit items wanted).map view := by
  have count (items : List β) :
      keyCount key (items.map view) = keyCount (fun item => key (view item)) items := by
    rw [keyCount, keyCount, List.map_map]
    rfl
  have front : ((items.map view).takeWhile fun item => key item ≠ wanted) =
      (items.takeWhile fun item => key (view item) ≠ wanted).map view := List.takeWhile_map ..
  have last : ((items.map view).reverse.find? fun item => key item = wanted) =
      (items.reverse.find? fun item => key (view item) = wanted).map view := by
    rw [← List.map_reverse, List.find?_map]
    rfl
  rw [holder, holder, front, count, last]
  split <;> rfl

/-! ## One more item -/

theorem holder_concat_of_ne (key : α → κ) (different : key item ≠ wanted) :
    holder key limit (items ++ [item]) wanted = holder key limit items wanted := by
  by_cases known : wanted ∈ items.map key
  · rw [holder, holder, takeWhile_concat_of_mem known, List.reverse_append, List.reverse_singleton,
      List.singleton_append, List.find?_cons_of_neg (by simpa using different)]
  · rw [holder_of_notMem known, holder_of_notMem]
    rw [List.map_append, List.mem_append, not_or]
    exact ⟨known, by simpa using Ne.symm different⟩

theorem holder_concat_of_mem (known : key item ∈ items.map key) :
    holder key limit (items ++ [item]) (key item) =
      (holder key limit items (key item)).map fun _ => item := by
  rw [holder, holder, takeWhile_concat_of_mem known, List.reverse_append, List.reverse_singleton,
    List.singleton_append, List.find?_cons_of_pos (by simp)]
  split
  · obtain ⟨other, member, same⟩ := List.mem_map.mp known
    have found : (items.reverse.find? fun other => key other = key item).isSome :=
      List.find?_isSome.mpr ⟨other, List.mem_reverse.mpr member, by simpa using same⟩
    obtain ⟨last, found⟩ := Option.isSome_iff_exists.mp found
    rw [found, Option.map_some]
  · rfl

theorem holder_concat_of_notMem (new : key item ∉ items.map key) :
    holder key limit (items ++ [item]) (key item) =
      if keyCount key items < limit then some item else none := by
  have front : ((items ++ [item]).takeWhile fun other => key other ≠ key item) = items := by
    rw [List.takeWhile_append_of_pos, List.takeWhile_cons_of_neg (by simp), List.append_nil]
    intro other member
    have different : key other ≠ key item := fun same => new (List.mem_map.mpr ⟨other, member, same⟩)
    simpa using different
  rw [holder, front, List.reverse_append, List.reverse_singleton, List.singleton_append,
    List.find?_cons_of_pos (by simp)]

/-! ## Different keys -/

theorem keyCount_of_nodup (distinct : (items.map key).Nodup) : keyCount key items = items.length := by
  rw [keyCount, List.toFinset_card_of_nodup distinct, List.length_map]

/-- Items with different keys have them as far as there is room. -/
theorem holder_eq_some_iff_of_nodup (distinct : (items.map key).Nodup) :
    holder key limit items wanted = some item ↔ item ∈ items.take limit ∧ key item = wanted := by
  by_cases known : wanted ∈ items.map key
  · obtain ⟨other, member, rfl⟩ := List.mem_map.mp known
    obtain ⟨front, back, rfl⟩ := List.append_of_mem member
    rw [List.map_append, List.map_cons] at distinct
    have apart := List.nodup_middle.mp distinct
    obtain ⟨alone, distinct'⟩ := List.nodup_cons.mp apart
    rw [List.mem_append, not_or] at alone
    have before : ((front ++ other :: back).takeWhile fun item => key item ≠ key other) = front := by
      rw [List.takeWhile_append_of_pos, List.takeWhile_cons_of_neg (by simp), List.append_nil]
      intro item inside
      have different : key item ≠ key other := fun same =>
        alone.1 (List.mem_map.mpr ⟨item, inside, same⟩)
      simpa using different
    have last : ((front ++ other :: back).reverse.find? fun item => key item = key other) =
        some other := by
      rw [List.reverse_append, List.reverse_cons, List.append_assoc, List.find?_append,
        List.find?_eq_none.mpr, Option.none_or, List.singleton_append,
        List.find?_cons_of_pos (by simp)]
      intro item inside
      have different : key item ≠ key other := fun same =>
        alone.2 (List.mem_map.mpr ⟨item, List.mem_reverse.mp inside, same⟩)
      simpa using different
    have count : keyCount key front = front.length :=
      keyCount_of_nodup (List.nodup_append.mp distinct).1
    have place : other ∈ (front ++ other :: back).take limit ↔ front.length < limit := by
      have unseen : other ∉ front := fun inside => alone.1 (List.mem_map_of_mem inside)
      rw [List.take_append, List.mem_append]
      constructor
      · rintro (inside | inside)
        · exact absurd (List.mem_of_mem_take inside) unseen
        · by_contra full
          rw [Nat.sub_eq_zero_of_le (not_lt.mp full)] at inside
          simp at inside
      · intro room
        obtain ⟨left, more⟩ := Nat.exists_eq_succ_of_ne_zero (Nat.sub_ne_zero_of_lt room)
        exact Or.inr (by simp [more])
    rw [holder, before, count, last, Option.ite_none_right_eq_some, ← place]
    constructor
    · rintro ⟨inside, same⟩
      obtain rfl := Option.some.inj same
      exact ⟨inside, rfl⟩
    · rintro ⟨inside, same⟩
      have unique : ((front ++ other :: back).map key).Nodup := by
        rwa [List.map_append, List.map_cons]
      obtain rfl := List.inj_on_of_nodup_map unique (List.mem_of_mem_take inside) member same
      exact ⟨inside, rfl⟩
  · rw [holder_of_notMem known]
    refine iff_of_false (by simp) ?_
    rintro ⟨inside, same⟩
    exact known (List.mem_map.mpr ⟨item, List.mem_of_mem_take inside, same⟩)

end CodexNos.Lib
