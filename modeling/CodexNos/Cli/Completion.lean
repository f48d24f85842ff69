import CodexNos.Lib.CStr
import Mathlib.Tactic

/-!
# Completion

The tabulator completes a line to the only command that starts with it, or its last word to the only
argument that starts with that word.  The completed line is as long as the command or the argument
makes it.
-/

namespace CodexNos.Cli

open Lib

/-! ## Commands and arguments -/

/-- The string of a literal. -/
def literal (text : String) : CStr :=
  CStr.stringAt (text.toList.map fun letter => .ofNat letter.toNat)

/-- The names in `g_cli_cmds`. -/
def cliCmds : List CStr :=
  ["help", "show components", "show services", "show db", "show memory", "show ipc", "show stats",
    "log", "perf start", "perf remote", "load", "unload", "reload", "quit"].map literal

/-- `levels`. -/
def levels : List CStr := ["DEBUG", "INFO", "WARN", "ERROR"].map literal

/-- `log_args`. -/
def logArgs : List CStr := ["stats", "level", "spam"].map literal

/-- `perf_args`. -/
def perfArgs : List CStr := ["start", "remote"].map literal

/-- `stats_args`. -/
def statsArgs : List CStr := ["ipc", "log", "buffer", "scheduler"].map literal

/-- `show_args`. -/
def showArgs : List CStr :=
  ["components", "services", "db", "memory", "ipc", "stats"].map literal

/-- The line starts with a literal. -/
def startsWith (line : CStr) (text : String) : Bool := line.agree (literal text) text.length

/-- The words that can stand behind the last blank of a line, where `names` are the names of the
loaded components. -/
def arguments (names : List CStr) (line : CStr) (lastSpace : Nat) : List CStr :=
  if startsWith line "log " then
    if startsWith line "log level " then levels
    else if lastSpace = 3 then logArgs
    else []
  else if startsWith line "perf " then perfArgs
  else if startsWith line "show stats " then statsArgs
  else if startsWith line "show " then showArgs
  else if startsWith line "load " || startsWith line "unload " || startsWith line "reload " then
    names
  else []

/-! ## The completion of the source -/

/-- `suggestions` and `match_len` for a line of which `pos` bytes were typed. -/
def suggestions (names : List CStr) (line : CStr) (pos : Nat) : List CStr × Nat :=
  match cliCmds.filter fun name => name.agree line pos, line.strrchr 32 with
  | [], some lastSpace =>
      ((arguments names line lastSpace).filter fun word =>
        word.agree (line.advance (lastSpace + 1)) (pos - (lastSpace + 1)), pos - (lastSpace + 1))
  | found, _ => (found, pos)

/-- What completion appends to a line. -/
def completion (names : List CStr) (line : CStr) (pos : Nat) : Option CStr :=
  match suggestions names line pos with
  | ([word], matchLen) => some (word.advance matchLen)
  | _ => none

/-- `handle_tab_completion`.  There is no result if it writes outside of the buffer. -/
def handleTabCompletion (names : List CStr) (buf : List UInt8) (pos : Nat) :
    Option (List UInt8 × Nat) :=
  if pos < buf.length then
    let buf := buf.set pos 0
    match completion names (CStr.stringAt buf) pos with
    | none => some (buf, pos)
    | some rest =>
        (CStr.strcpy buf pos rest).map fun buf => (buf, (CStr.stringAt buf).strlen)
  else none

/-! ## The completed line -/

/-- The lines that a line can be completed to. -/
def completions (names : List CStr) (line : CStr) : List CStr :=
  match cliCmds.filter fun name => line.bytes <+: name.bytes with
  | [] =>
      let front := line.upTo 32
      ((arguments names front (front.strlen - 1)).filter fun word =>
        (line.behind 32).bytes <+: word.bytes).map front.append
  | found => found

/-- A line that can be completed to one line only becomes that line. -/
def completed (names : List CStr) (line : CStr) : CStr :=
  match completions names line with
  | [whole] => whole
  | _ => line

/-- A literal that ends with a blank can be looked for in front of the last word. -/
theorem startsWith_upTo (line : CStr) {text : String}
    (ends : (literal text).bytes.getLast? = some 32) (size : (literal text).strlen = text.length) :
    startsWith line text = startsWith (line.upTo 32) text := by
  rw [startsWith, startsWith, ← size, Bool.eq_iff_iff, CStr.agree_iff_prefix,
    CStr.agree_iff_prefix]
  exact (CStr.prefix_upTo_iff ends).symm

theorem arguments_upTo (names : List CStr) (line : CStr) (lastSpace : Nat) :
    arguments names line lastSpace = arguments names (line.upTo 32) lastSpace := by
  unfold arguments
  rw [startsWith_upTo line (by decide : (literal "log ").bytes.getLast? = some 32) rfl,
    startsWith_upTo line (by decide : (literal "log level ").bytes.getLast? = some 32) rfl,
    startsWith_upTo line (by decide : (literal "perf ").bytes.getLast? = some 32) rfl,
    startsWith_upTo line (by decide : (literal "show stats ").bytes.getLast? = some 32) rfl,
    startsWith_upTo line (by decide : (literal "show ").bytes.getLast? = some 32) rfl,
    startsWith_upTo line (by decide : (literal "load ").bytes.getLast? = some 32) rfl,
    startsWith_upTo line (by decide : (literal "unload ").bytes.getLast? = some 32) rfl,
    startsWith_upTo line (by decide : (literal "reload ").bytes.getLast? = some 32) rfl]

theorem arguments_of_strlen_eq_zero (names : List CStr) {line : CStr} (none : line.strlen = 0)
    (lastSpace : Nat) : arguments names line lastSpace = [] := by
  obtain rfl : line = ⟨[], List.not_mem_nil⟩ := CStr.ext (List.length_eq_zero_iff.mp none)
  rfl

theorem filter_agree_behind (words : List CStr) (line : CStr) :
    (words.filter fun word => word.agree (line.advance (line.upTo 32).strlen)
        (line.strlen - (line.upTo 32).strlen)) =
      words.filter fun word => (line.behind 32).bytes <+: word.bytes := by
  have size : line.strlen - (line.upTo 32).strlen = (line.behind 32).strlen := by
    have whole := congrArg CStr.strlen (CStr.upTo_append_behind 32 line)
    rw [CStr.strlen_append] at whole
    omega
  rw [CStr.advance_upTo, size]
  refine List.filter_congr fun word _ => ?_
  rw [Bool.eq_iff_iff, decide_eq_true_iff]
  exact CStr.agree_iff_prefix

theorem append_word {words : List CStr} {line word : CStr}
    (only : (words.filter fun word => (line.behind 32).bytes <+: word.bytes) = [word]) :
    (line.upTo 32).append word =
      line.append (word.advance (line.strlen - (line.upTo 32).strlen)) := by
  have member : word ∈ words.filter fun word => (line.behind 32).bytes <+: word.bytes := by
    rw [only]
    exact List.mem_singleton_self word
  have front : (line.behind 32).bytes <+: word.bytes := by
    simpa using (List.mem_filter.mp member).2
  have split := CStr.upTo_append_behind 32 line
  have size : line.strlen - (line.upTo 32).strlen = (line.behind 32).strlen := by
    have whole := congrArg CStr.strlen split
    rw [CStr.strlen_append] at whole
    omega
  calc (line.upTo 32).append word
      = (line.upTo 32).append
          ((line.behind 32).append (word.advance (line.behind 32).strlen)) := by
        rw [CStr.append_advance front]
    _ = ((line.upTo 32).append (line.behind 32)).append
          (word.advance (line.behind 32).strlen) := (CStr.append_assoc _ _ _).symm
    _ = line.append (word.advance (line.strlen - (line.upTo 32).strlen)) := by
        rw [split, size]

theorem completed_eq (names : List CStr) (line : CStr) :
    completed names line =
      match completion names line line.strlen with
      | none => line
      | some rest => line.append rest := by
  have commands : (cliCmds.filter fun name => name.agree line line.strlen) =
      cliCmds.filter fun name => line.bytes <+: name.bytes :=
    List.filter_congr fun name _ => by
      rw [Bool.eq_iff_iff, decide_eq_true_iff]
      exact CStr.agree_iff_prefix
  unfold completed completions completion suggestions
  rw [commands]
  cases found : cliCmds.filter fun name => line.bytes <+: name.bytes with
  | nil =>
      cases blank : line.strrchr 32 with
      | none =>
          have noBlank : (line.upTo 32).strlen = 0 := by
            simpa [CStr.strrchr] using blank
          simp [arguments_of_strlen_eq_zero names noBlank]
      | some lastSpace =>
          have front : (line.upTo 32).strlen = lastSpace + 1 := by
            simp only [CStr.strrchr] at blank
            split at blank
            · cases blank
            · cases blank
              omega
          dsimp only
          rw [arguments_upTo names line, ← front, filter_agree_behind, front, Nat.add_sub_cancel]
          cases only : (arguments names (line.upTo 32) lastSpace).filter fun word =>
              (line.behind 32).bytes <+: word.bytes with
          | nil => rfl
          | cons word others =>
              cases others with
              | nil =>
                  rw [← front]
                  exact append_word only
              | cons _ _ => rfl
  | cons name others =>
      cases others with
      | nil =>
          have member : name ∈ cliCmds.filter fun name => line.bytes <+: name.bytes := by
            rw [found]
            exact List.mem_singleton_self name
          have front : line.bytes <+: name.bytes := by
            simpa using (List.mem_filter.mp member).2
          exact (CStr.append_advance front).symm
      | cons _ _ => rfl

/-! ## Completion in the buffer -/

variable {buf : List UInt8} {line : CStr}

/-- The buffer gets the completed line if there is room for it, and is overrun otherwise. -/
theorem handleTabCompletion_eq (names : List CStr) (inside : line.strlen < buf.length)
    (held : buf.take line.strlen = line.bytes) :
    if (completed names line).strlen < buf.length then
      ∃ after, handleTabCompletion names buf line.strlen =
          some (after, (completed names line).strlen) ∧
        after.length = buf.length ∧
        after.take (completed names line).strlen = (completed names line).bytes ∧
        after[(completed names line).strlen]? = some 0
    else handleTabCompletion names buf line.strlen = none := by
  have kept : (buf.set line.strlen 0).take line.strlen = line.bytes := by
    rw [List.take_set_of_le (Nat.le_refl _), held]
  have zero : (buf.set line.strlen 0)[line.strlen]? = some 0 := by
    rw [List.getElem?_set_self inside]
  have string : CStr.stringAt (buf.set line.strlen 0) = line := CStr.stringAt_eq kept zero
  rw [completed_eq, handleTabCompletion, if_pos inside]
  dsimp only
  rw [string]
  cases appended : completion names line line.strlen with
  | none =>
      dsimp only
      rw [if_pos inside]
      exact ⟨_, rfl, List.length_set, kept, zero⟩
  | some rest =>
      dsimp only
      rw [CStr.strlen_append]
      split
      · rename_i room
        cases copy : CStr.strcpy (buf.set line.strlen 0) line.strlen rest with
        | none =>
            have full := CStr.strcpy_eq_none_iff.mp copy
            rw [List.length_set] at full
            omega
        | some after =>
            have result := CStr.stringAt_strcpy kept copy
            refine ⟨after, ?_, ?_, ?_, CStr.getElem?_strcpy copy⟩
            · rw [Option.map_some, result, CStr.strlen_append]
            · rw [CStr.length_strcpy copy, List.length_set]
            · rw [CStr.take_strcpy copy, kept, CStr.bytes_append]
      · rename_i full
        rw [CStr.strcpy_eq_none_iff.mpr (by rw [List.length_set]; omega), Option.map_none]

end CodexNos.Cli
