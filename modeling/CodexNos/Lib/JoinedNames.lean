import Mathlib.Tactic

/-!
# Joined names

Two names are joined by a separator and the result is cut.  Another pair gives the same result if
the first names differ only behind the cut, if the first names are the same and the second ones
differ only behind the cut, or if one first name goes on behind the separator of the other one.
-/

namespace CodexNos.Lib

variable {α : Type*}

/-- Pairs whose joined names are the same up to a limit. -/
inductive Confused (sep : α) (limit : Nat) : List α × List α → List α × List α → Prop
  /-- The limit cuts the first names. -/
  | first {name name' second second' : List α} :
      limit ≤ name.length →
      limit ≤ name'.length →
      name.take limit = name'.take limit →
      Confused sep limit (name, second) (name', second')
  /-- The same first name, and the second names are the same up to what is left. -/
  | second {name second second' : List α} :
      name.length < limit →
      second.take (limit - name.length - 1) = second'.take (limit - name.length - 1) →
      Confused sep limit (name, second) (name, second')
  /-- The later first name goes on behind a separator. -/
  | longer {name rest second second' : List α} :
      name.length < limit →
      second.take (limit - name.length - 1) =
        (rest ++ sep :: second').take (limit - name.length - 1) →
      Confused sep limit (name, second) (name ++ sep :: rest, second')
  /-- The earlier first name goes on behind a separator. -/
  | shorter {name rest second second' : List α} :
      name.length < limit →
      (rest ++ sep :: second).take (limit - name.length - 1) =
        second'.take (limit - name.length - 1) →
      Confused sep limit (name ++ sep :: rest, second) (name, second')

variable {sep : α} {limit : Nat}

theorem Confused.cons {name name' second second' : List α}
    (confused : Confused sep limit (name, second) (name', second')) (letter : α) :
    Confused sep (limit + 1) (letter :: name, second) (letter :: name', second') := by
  have left : ∀ name : List α,
      limit + 1 - (letter :: name).length - 1 = limit - name.length - 1 := by
    intro name
    rw [List.length_cons, Nat.add_sub_add_right]
  cases confused with
  | first long long' same =>
      refine .first (Nat.succ_le_succ long) (Nat.succ_le_succ long') ?_
      rw [List.take_succ_cons, List.take_succ_cons, same]
  | second short same =>
      refine .second (Nat.succ_lt_succ short) ?_
      rw [left]
      exact same
  | @longer _ rest _ _ short same =>
      change Confused sep _ (letter :: name, _) ((letter :: name) ++ sep :: rest, _)
      refine .longer (Nat.succ_lt_succ short) ?_
      rw [left]
      exact same
  | @shorter _ rest _ _ short same =>
      change Confused sep _ ((letter :: name') ++ sep :: rest, _) (letter :: name', _)
      refine .shorter (Nat.succ_lt_succ short) ?_
      rw [left]
      exact same

/-- The joined names of confused pairs are the same up to the limit. -/
theorem Confused.take_eq {name name' second second' : List α}
    (confused : Confused sep limit (name, second) (name', second')) :
    (name ++ sep :: second).take limit = (name' ++ sep :: second').take limit := by
  have joined : ∀ {name : List α} (tail : List α), name.length < limit →
      (name ++ sep :: tail).take limit = name ++ sep :: tail.take (limit - name.length - 1) := by
    intro name tail short
    obtain ⟨left, split⟩ := Nat.exists_eq_add_of_lt short
    rw [List.take_append, List.take_of_length_le short.le, split,
      show name.length + left + 1 - name.length = left + 1 by omega, List.take_succ_cons,
      Nat.add_sub_cancel]
  cases confused with
  | first long long' same =>
      rw [List.take_append_of_le_length long, List.take_append_of_le_length long', same]
  | second short same => rw [joined _ short, joined _ short, same]
  | longer short same =>
      rw [joined _ short, List.append_assoc, List.cons_append, joined _ short, same]
  | shorter short same =>
      rw [joined _ short, List.append_assoc, List.cons_append, joined _ short, same]

/-- Pairs whose joined names are the same up to the limit are confused. -/
theorem confused_of_take_eq {name name' second second' : List α}
    (same : (name ++ sep :: second).take limit = (name' ++ sep :: second').take limit) :
    Confused sep limit (name, second) (name', second') := by
  induction name generalizing limit name' with
  | nil =>
      cases limit with
      | zero => exact .first (Nat.zero_le _) (Nat.zero_le _) (by simp)
      | succ limit =>
          cases name' with
          | nil =>
              refine .second (Nat.succ_pos _) ?_
              simpa using same
          | cons letter rest =>
              obtain ⟨rfl, tail⟩ : sep = letter ∧
                  second.take limit = (rest ++ sep :: second').take limit := by
                simpa using same
              change Confused sep _ ([], _) ([] ++ sep :: rest, _)
              exact .longer (Nat.succ_pos _) tail
  | cons letter name ih =>
      cases limit with
      | zero => exact .first (Nat.zero_le _) (Nat.zero_le _) (by simp)
      | succ limit =>
          cases name' with
          | nil =>
              obtain ⟨rfl, tail⟩ : letter = sep ∧
                  (name ++ sep :: second).take limit = second'.take limit := by
                simpa using same
              change Confused letter _ ([] ++ letter :: name, _) ([], _)
              exact .shorter (Nat.succ_pos _) tail
          | cons letter' name' =>
              obtain ⟨rfl, tail⟩ : letter = letter' ∧
                  (name ++ sep :: second).take limit = (name' ++ sep :: second').take limit := by
                simpa using same
              exact (ih tail).cons letter

/-- The joined names are the same up to the limit exactly for confused pairs. -/
theorem take_joined_eq_iff {name name' second second' : List α} :
    (name ++ sep :: second).take limit = (name' ++ sep :: second').take limit ↔
      Confused sep limit (name, second) (name', second') :=
  ⟨confused_of_take_eq, Confused.take_eq⟩

/-- First names without the separator that leave room for the second ones are not confused. -/
theorem eq_of_confused {name name' second second' : List α}
    (confused : Confused sep limit (name, second) (name', second'))
    (plain : sep ∉ name) (plain' : sep ∉ name') (room : name.length + 1 + second.length ≤ limit)
    (room' : name'.length + 1 + second'.length ≤ limit) : name = name' ∧ second = second' := by
  cases confused with
  | first long long' same => omega
  | second short same =>
      refine ⟨rfl, ?_⟩
      rwa [List.take_of_length_le (by omega), List.take_of_length_le (by omega)] at same
  | longer short same => simp at plain'
  | shorter short same => simp at plain

end CodexNos.Lib
