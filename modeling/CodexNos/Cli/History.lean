import CodexNos.Lib.CStr
import Mathlib.Tactic

/-!
# The command history

The command line interface keeps the last three lines that it was given in arrays of 256 bytes.  The
lines move by one array when another one comes in.
-/

namespace CodexNos.Cli

open Lib

/-- `sizeof(buf)`, and the size of a line of the history. -/
def lineSize : Nat := 256

/-- `MAX_HISTORY`. -/
def maxHistory : Nat := 3

/-- The history. -/
structure History where
  /-- `g_history`. -/
  slots : Nat → List UInt8
  /-- `g_history_count`. -/
  count : Nat

namespace History

/-- The history at the start. -/
def empty : History where
  slots := fun _ => List.replicate lineSize 0
  count := 0

/-- The line in a slot. -/
def entry (history : History) (index : Nat) : CStr := CStr.stringAt (history.slots index)

/-- Move the lines by one slot.  There is no result if one does not fit. -/
def moved (history : History) : Nat → Option (Nat → List UInt8)
  | 0 => some history.slots
  | index + 1 =>
      (CStr.strcpy (history.slots (index + 1)) 0 (history.entry index)).bind fun copied =>
        (moved history index).map fun slots => Function.update slots (index + 1) copied

/-- `history_add`. -/
def historyAdd (history : History) (cmd : CStr) : Option History :=
  if cmd.strlen = 0 then some history
  else if 0 < history.count ∧ history.entry 0 = cmd then some history
  else
    (history.moved (maxHistory - 1)).map fun slots =>
      { slots := Function.update slots 0 (CStr.strncpy (slots 0) cmd (lineSize - 1))
        count := if history.count < maxHistory then history.count + 1 else history.count }

/-- Give the history some lines, one after the other. -/
def addAll (history : History) : List CStr → Option History
  | [] => some history
  | cmd :: cmds => (history.historyAdd cmd).bind fun next => addAll next cmds

/-- The lines that are remembered after one more, the last one first. -/
def remember (past : List CStr) (cmd : CStr) : List CStr :=
  if cmd.strlen = 0 ∨ past.head? = some cmd then past
  else (cmd.cut (lineSize - 1) :: past).take maxHistory

/-- A history holds these lines, each in an array with a terminator. -/
structure Holds (history : History) (past : List CStr) : Prop where
  size : ∀ index, (history.slots index).length = lineSize
  last : (history.slots 0)[lineSize - 1]? = some 0
  short : ∀ index, (history.entry index).strlen < lineSize
  count : history.count = past.length
  bound : past.length ≤ maxHistory
  entries : ∀ index < past.length, past[index]? = some (history.entry index)

variable {history : History} {past : List CStr}

theorem holds_empty : empty.Holds [] where
  size := fun _ => List.length_replicate
  last := by decide
  short := fun _ => show (CStr.stringAt (List.replicate lineSize 0)).strlen < lineSize by decide
  count := rfl
  bound := Nat.zero_le _
  entries := fun _ inside => absurd inside (Nat.not_lt_zero _)

theorem moved_eq (size : ∀ index, (history.slots index).length = lineSize)
    (short : ∀ index, (history.entry index).strlen < lineSize) (limit : Nat) :
    ∃ slots, history.moved limit = some slots ∧ (∀ index, (slots index).length = lineSize) ∧
      (∀ index < limit, CStr.stringAt (slots (index + 1)) = history.entry index) ∧
      slots 0 = history.slots 0 ∧ ∀ index, limit < index → slots index = history.slots index := by
  induction limit with
  | zero =>
      exact ⟨history.slots, rfl, size, fun _ inside => absurd inside (Nat.not_lt_zero _), rfl,
        fun _ _ => rfl⟩
  | succ limit ih =>
      obtain ⟨slots, done, sizes, moves, first, rest⟩ := ih
      cases copy : CStr.strcpy (history.slots (limit + 1)) 0 (history.entry limit) with
      | none =>
          have full := CStr.strcpy_eq_none_iff.mp copy
          have fits := short limit
          rw [size] at full
          omega
      | some copied =>
          refine ⟨Function.update slots (limit + 1) copied, ?_, ?_, ?_, ?_, ?_⟩
          · rw [moved, copy, done]
            rfl
          · intro index
            rw [Function.update_apply]
            split
            · rw [CStr.length_strcpy copy, size]
            · exact sizes index
          · intro index inside
            rcases Nat.lt_succ_iff_lt_or_eq.mp inside with earlier | rfl
            · rw [Function.update_of_ne (by omega)]
              exact moves index earlier
            · rw [Function.update_self]
              exact CStr.stringAt_strcpy_zero copy
          · rw [Function.update_of_ne (Nat.succ_ne_zero limit).symm, first]
          · intro index later
            rw [Function.update_of_ne (by omega)]
            exact rest index (by omega)

/-- A new line takes the first place, and the others stand behind it. -/
theorem Holds.pushed (holds : history.Holds past) (cmd : CStr) {slots : Nat → List UInt8}
    (sizes : ∀ index, (slots index).length = lineSize)
    (moves : ∀ index < maxHistory - 1, CStr.stringAt (slots (index + 1)) = history.entry index)
    (first : slots 0 = history.slots 0)
    (rest : ∀ index, maxHistory - 1 < index → slots index = history.slots index) :
    Holds
      { slots := Function.update slots 0 (CStr.strncpy (slots 0) cmd (lineSize - 1))
        count := if history.count < maxHistory then history.count + 1 else history.count }
      ((cmd.cut (lineSize - 1) :: past).take maxHistory) := by
  obtain ⟨inside, zero⟩ := List.getElem?_eq_some_iff.mp holds.last
  have behind : (slots 0).drop (lineSize - 1) = 0 :: (history.slots 0).drop lineSize := by
    rw [first, List.drop_eq_getElem_cons inside, zero]
    rfl
  have room : lineSize - 1 ≤ (slots 0).length := by
    rw [sizes]
    exact Nat.sub_le _ _
  have newest := CStr.stringAt_strncpy behind cmd
  have entries : ∀ index, CStr.stringAt (Function.update slots 0
      (CStr.strncpy (slots 0) cmd (lineSize - 1)) index) =
        if index = 0 then cmd.cut (lineSize - 1)
        else if index < maxHistory then history.entry (index - 1) else history.entry index := by
    intro index
    cases index with
    | zero => rw [Function.update_self, newest, if_pos rfl]
    | succ index =>
        rw [Function.update_of_ne (Nat.succ_ne_zero index), if_neg (Nat.succ_ne_zero index)]
        split
        · exact moves index (by omega)
        · rw [rest (index + 1) (by omega)]
          rfl
  have bound := holds.bound
  refine ⟨?_, ?_, ?_, ?_, ?_, ?_⟩
  · intro index
    dsimp only
    rw [Function.update_apply]
    split
    · rw [CStr.length_strncpy room, sizes]
    · exact sizes index
  · dsimp only
    rw [Function.update_self, CStr.getElem?_strncpy (Nat.le_refl _), first]
    exact holds.last
  · intro index
    rw [entry, entries]
    split
    · exact Nat.lt_of_le_of_lt (List.length_take_le _ _) (by decide)
    · split <;> exact holds.short _
  · dsimp only
    rw [List.length_take, List.length_cons, ← holds.count]
    rw [← holds.count] at bound
    split <;> omega
  · exact List.length_take_le _ _
  · intro index inside
    rw [List.length_take, List.length_cons] at inside
    rw [entry, entries, List.getElem?_take_of_lt (by omega)]
    cases index with
    | zero => rfl
    | succ index =>
        rw [List.getElem?_cons_succ, if_neg (Nat.succ_ne_zero index), if_pos (by omega)]
        exact holds.entries index (by omega)

/-- `history_add` stays in its arrays and remembers the line. -/
theorem Holds.historyAdd (holds : history.Holds past) (cmd : CStr) :
    ∃ after, history.historyAdd cmd = some after ∧ after.Holds (remember past cmd) := by
  have newest : past.head? = some cmd ↔ 0 < history.count ∧ history.entry 0 = cmd := by
    rw [holds.count, List.head?_eq_getElem?]
    constructor
    · intro head
      obtain ⟨inside, -⟩ := List.getElem?_eq_some_iff.mp head
      rw [holds.entries 0 inside] at head
      exact ⟨inside, Option.some.inj head⟩
    · rintro ⟨inside, same⟩
      rw [holds.entries 0 inside, same]
  by_cases blank : cmd.strlen = 0
  · rw [History.historyAdd, if_pos blank, remember, if_pos (.inl blank)]
    exact ⟨history, rfl, holds⟩
  by_cases again : 0 < history.count ∧ history.entry 0 = cmd
  · rw [History.historyAdd, if_neg blank, if_pos again, remember, if_pos (.inr (newest.mpr again))]
    exact ⟨history, rfl, holds⟩
  · have fresh : ¬ (cmd.strlen = 0 ∨ past.head? = some cmd) := by
      rw [newest]
      exact not_or_intro blank again
    obtain ⟨slots, done, sizes, moves, first, rest⟩ :=
      moved_eq holds.size holds.short (maxHistory - 1)
    rw [History.historyAdd, if_neg blank, if_neg again, done, remember, if_neg fresh]
    exact ⟨_, rfl, holds.pushed cmd sizes moves first rest⟩

theorem Holds.addAll (holds : history.Holds past) (cmds : List CStr) :
    ∃ after, history.addAll cmds = some after ∧ after.Holds (cmds.foldl remember past) := by
  induction cmds generalizing history past with
  | nil => exact ⟨history, rfl, holds⟩
  | cons cmd cmds ih =>
      obtain ⟨next, added, kept⟩ := holds.historyAdd cmd
      obtain ⟨after, done, later⟩ := ih kept
      refine ⟨after, ?_, later⟩
      rw [History.addAll, added]
      exact done

end History

end CodexNos.Cli
