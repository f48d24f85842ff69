import Mathlib.Tactic

/-!
# Tables without order

An array that is used as a set takes a member out by moving its last member into the hole.  Up to
order this erases the place.
-/

namespace CodexNos.Lib

variable {α β : Type*}

/-- Remove a place by moving the last member into it. -/
def swapRemoveAt (table : List α) (index : Fin table.length) : List α :=
  (table.set index (table.getLastD table[index])).dropLast

theorem swapRemoveAt_perm (table : List α) (index : Fin table.length) :
    (swapRemoveAt table index).Perm (table.eraseIdx index) := by
  obtain ⟨index, inside⟩ := index
  rcases List.eq_nil_or_concat table with rfl | ⟨init, last, rfl⟩
  · simp at inside
  · simp only [swapRemoveAt, List.concat_eq_append, List.getLastD_concat]
    rcases Nat.lt_or_ge index init.length with before | atEnd
    · rw [List.set_append_left _ _ before, List.dropLast_concat,
        List.eraseIdx_append_of_lt_length before]
      exact (List.set_perm_cons_eraseIdx before last).trans
        (List.perm_append_singleton last _).symm
    · obtain rfl : index = init.length := by
        simp only [List.concat_eq_append, List.length_append, List.length_singleton] at inside
        omega
      simp [List.eraseIdx_append_of_length_le]

theorem perm_cons_swapRemoveAt (table : List α) (index : Fin table.length) :
    table.Perm (table[index] :: swapRemoveAt table index) :=
  (List.getElem_cons_eraseIdx_perm index.isLt).symm.trans
    ((swapRemoveAt_perm table index).symm.cons _)

/-! ## Members with unique keys -/

section Keys

variable {table : List α} {index : Fin table.length} {key : α → β}

theorem mem_eraseIdx_iff_of_unique (unique : (table.map key).Nodup) {member : α} :
    member ∈ table.eraseIdx index ↔ member ∈ table ∧ key member ≠ key table[index] := by
  have split := (List.getElem_cons_eraseIdx_perm index.isLt).symm
  have fresh : key table[index] ∉ (table.eraseIdx index).map key :=
    (List.nodup_cons.mp ((split.map key).nodup_iff.mp unique)).1
  rw [split.mem_iff, List.mem_cons]
  constructor
  · intro kept
    refine ⟨Or.inr kept, ?_⟩
    intro same
    exact fresh (same ▸ List.mem_map_of_mem kept)
  · rintro ⟨rfl | kept, different⟩
    · exact absurd rfl different
    · exact kept

theorem mem_swapRemoveAt_iff (unique : (table.map key).Nodup) {member : α} :
    member ∈ swapRemoveAt table index ↔ member ∈ table ∧ key member ≠ key table[index] := by
  rw [(swapRemoveAt_perm table index).mem_iff, mem_eraseIdx_iff_of_unique unique]

theorem mem_set_iff_of_unique (unique : (table.map key).Nodup) {new member : α} :
    member ∈ table.set index new ↔
      member = new ∨ member ∈ table ∧ key member ≠ key table[index] := by
  rw [(List.set_perm_cons_eraseIdx index.isLt new).mem_iff, List.mem_cons,
    mem_eraseIdx_iff_of_unique unique]

theorem unique_swapRemoveAt (unique : (table.map key).Nodup) :
    ((swapRemoveAt table index).map key).Nodup :=
  (List.nodup_cons.mp (((perm_cons_swapRemoveAt table index).map key).nodup_iff.mp unique)).2

/-- A new member keeps keys unique when its key is the old one or a fresh one. -/
theorem unique_set (unique : (table.map key).Nodup) {new : α}
    (fresh : key new = key table[index] ∨ key new ∉ table.map key) :
    ((table.set index new).map key).Nodup := by
  have split := (List.getElem_cons_eraseIdx_perm index.isLt).symm.map key
  obtain ⟨absent, rest⟩ := List.nodup_cons.mp (split.nodup_iff.mp unique)
  rw [((List.set_perm_cons_eraseIdx index.isLt new).map key).nodup_iff, List.map_cons,
    List.nodup_cons]
  refine ⟨?_, rest⟩
  intro present
  rcases fresh with same | missing
  · exact absent (same ▸ present)
  · exact missing (split.mem_iff.mpr (List.mem_cons_of_mem _ present))

/-- The member with a key, if there is one, is found under it. -/
theorem find?_eq_some_iff_of_unique [DecidableEq β] (unique : (table.map key).Nodup) {wanted : β}
    {member : α} :
    table.find? (fun other => key other = wanted) = some member ↔
      member ∈ table ∧ key member = wanted := by
  constructor
  · intro found
    exact ⟨List.mem_of_find?_eq_some found, by simpa using List.find?_some found⟩
  · rintro ⟨present, rfl⟩
    cases found : table.find? (fun other => key other = key member) with
    | none =>
        rw [List.find?_eq_none] at found
        exact absurd (decide_eq_true rfl) (found member present)
    | some other =>
        have same : key other = key member := by simpa using List.find?_some found
        rw [List.inj_on_of_nodup_map unique (List.mem_of_find?_eq_some found) present same]

end Keys

end CodexNos.Lib
