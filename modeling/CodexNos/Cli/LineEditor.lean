import CodexNos.Cli.Completion
import CodexNos.Cli.History
import CodexNos.Lib.Transition
import Mathlib.Tactic

/-!
# The line editor

`advanced_get_line` reads a line from a terminal, byte by byte, into a buffer of 256 bytes.  The user
types, deletes, recalls earlier lines and completes words.  The buffer holds the line that this edits,
and no write leaves it, as long as every completed line fits into it.  A terminator stands behind the
line in the end unless typed bytes fill the buffer or the input ends inside an escape sequence.
-/

namespace CodexNos.Cli

open Lib

/-! ## Keys -/

/-- A byte that a terminal sends for a key. -/
abbrev Sent : Type := {byte : UInt8 // byte ≠ 0}

/-- What the editor reads at once. -/
inductive Key
  /-- A newline or a carriage return. -/
  | enter
  /-- The sequence of the key "up". -/
  | up
  /-- Another escape sequence. -/
  | sequence
  /-- Backspace. -/
  | backspace
  /-- A tabulator. -/
  | tab
  /-- Any other byte. -/
  | char (byte : Sent)
  /-- The end of the input. -/
  | endOfInput
  /-- An escape sequence that the end of the input cuts off. -/
  | cutSequence
  deriving DecidableEq

/-- The key of a byte that starts no escape sequence. -/
def keyOf (byte : Sent) : Key :=
  if byte.val = 10 ∨ byte.val = 13 then .enter
  else if byte.val = 127 ∨ byte.val = 8 then .backspace
  else if byte.val = 9 then .tab
  else .char byte

/-- The reads of the editor from some input. -/
def keys : List Sent → List Key
  | [] => [.endOfInput]
  | byte :: rest =>
      if byte.val = 27 then
        match rest with
        | first :: second :: rest =>
            (if first.val = 91 ∧ second.val = 65 then .up else .sequence) :: keys rest
        | _ => [.cutSequence]
      else keyOf byte :: keys rest

/-! ## Editing -/

/-- The variables of `advanced_get_line`. -/
structure Editor where
  /-- `buf`. -/
  buf : List UInt8
  /-- `pos`. -/
  pos : Nat
  /-- `h_idx`. -/
  hIdx : Int
  deriving DecidableEq, Repr

/-- Where a call of `advanced_get_line` is. -/
inductive Stage
  /-- It reads the next key. -/
  | editing (editor : Editor)
  /-- It has returned. -/
  | returned (len : Int) (buf : List UInt8)
  /-- It has written outside of the buffer. -/
  | overrun
  deriving DecidableEq, Repr

namespace Editor

/-- The test of the loop. -/
def loop (editor : Editor) : Stage :=
  if editor.pos < lineSize - 1 then .editing editor else .returned editor.pos editor.buf

/-- Write a byte into the buffer. -/
def write (buf : List UInt8) (index : Nat) (byte : UInt8) (next : List UInt8 → Stage) : Stage :=
  if index < buf.length then next (buf.set index byte) else .overrun

/-- Take the next line of the history. -/
def historyUp (history : History) (editor : Editor) : Stage :=
  if 0 < history.count ∧ editor.hIdx < history.count - 1 then
    match CStr.strcpy editor.buf 0 (history.entry (editor.hIdx + 1).toNat) with
    | none => .overrun
    | some buf => loop ⟨buf, (CStr.stringAt buf).strlen, editor.hIdx + 1⟩
  else loop editor

/-- One turn of the loop. -/
def press (history : History) (names : List CStr) (editor : Editor) : Key → Stage
  | .endOfInput => .returned (-1) editor.buf
  | .enter => write editor.buf editor.pos 0 fun buf => .returned editor.pos buf
  | .cutSequence => .returned editor.pos editor.buf
  | .up => historyUp history editor
  | .sequence => loop editor
  | .backspace => loop (if 0 < editor.pos then { editor with pos := editor.pos - 1 } else editor)
  | .tab =>
      match handleTabCompletion names editor.buf editor.pos with
      | none => .overrun
      | some (buf, pos) => loop ⟨buf, pos, editor.hIdx⟩
  | .char byte =>
      write editor.buf editor.pos byte fun buf => loop ⟨buf, editor.pos + 1, editor.hIdx⟩

end Editor

/-! ## The edited line -/

/-- What a user edits. -/
structure Draft where
  /-- The line. -/
  line : CStr
  /-- How many lines of the history were recalled. -/
  recalled : Nat

/-- The effect of a key on the line. -/
def Draft.press (past names : List CStr) (draft : Draft) : Key → Draft
  | .char byte => { draft with line := draft.line.append (.single byte byte.property) }
  | .backspace => { draft with line := draft.line.cut (draft.line.strlen - 1) }
  | .tab => { draft with line := completed names draft.line }
  | .up =>
      match past[draft.recalled]? with
      | some line => ⟨line, draft.recalled + 1⟩
      | none => draft
  | _ => draft

theorem Draft.press_up_of_some {past names : List CStr} {draft : Draft} {line : CStr}
    (next : past[draft.recalled]? = some line) :
    draft.press past names .up = ⟨line, draft.recalled + 1⟩ := by
  change (match past[draft.recalled]? with
    | some line => (⟨line, draft.recalled + 1⟩ : Draft)
    | none => draft) = _
  rw [next]

theorem Draft.press_up_of_none {past names : List CStr} {draft : Draft}
    (last : past[draft.recalled]? = none) : draft.press past names .up = draft := by
  change (match past[draft.recalled]? with
    | some line => (⟨line, draft.recalled + 1⟩ : Draft)
    | none => draft) = _
  rw [last]

/-- A call and the line that is edited in it. -/
structure Session where
  stage : Stage
  draft : Draft

namespace Session

/-- A call starts with an empty line. -/
def start (buf : List UInt8) : Session := ⟨Editor.loop ⟨buf, 0, -1⟩, ⟨.empty, 0⟩⟩

/-- A key is read as long as the call runs. -/
def step (history : History) (past names : List CStr) (session : Session) (key : Key) :
    Option Session :=
  match session.stage with
  | .editing editor => some ⟨editor.press history names key, session.draft.press past names key⟩
  | _ => some session

/-- The call stays in its buffer, which holds the edited line up to `pos`, and behind it a terminator
when the call returns a length. -/
def Safe (session : Session) : Prop :=
  match session.stage with
  | .editing editor =>
      editor.buf.length = lineSize ∧ editor.pos < lineSize ∧
        editor.buf.take editor.pos = session.draft.line.bytes
  | .returned len buf =>
      len = -1 ∨ ∃ pos : Nat, len = pos ∧ pos < lineSize ∧ buf[pos]? = some 0 ∧
        CStr.stringAt buf = session.draft.line
  | .overrun => False

/-- The completed line fits into the buffer, and a terminator stands already where the call returns
without writing one. -/
def Fits (names : List CStr) (session : Session) (key : Key) : Prop :=
  match session.stage, key with
  | .editing editor, .char _ =>
      editor.pos + 1 = lineSize - 1 → editor.buf[lineSize - 1]? = some 0
  | .editing _, .tab => (completed names session.draft.line).strlen < lineSize
  | .editing editor, .cutSequence => editor.buf[editor.pos]? = some 0
  | _, _ => True

/-! ## What one key does -/

section Press

variable {history : History} {past names : List CStr} {editor : Editor} {draft : Draft}

/-- The buffer holds the line that is edited. -/
structure Tracks (editor : Editor) (draft : Draft) : Prop where
  size : editor.buf.length = lineSize
  pos : editor.pos = draft.line.strlen
  held : editor.buf.take editor.pos = draft.line.bytes
  hIdx : editor.hIdx + 1 = draft.recalled

/-- What holds of a call as long as it stays in its buffer. -/
def Sound (session : Session) : Prop :=
  match session.stage with
  | .editing editor => Tracks editor session.draft ∧ editor.pos < lineSize - 1
  | _ => session.Safe

/-- The call returns from the test of its loop with a terminator if there is one. -/
theorem sound_loop (tracks : Tracks editor draft) (bound : editor.pos < lineSize)
    (terminated : editor.pos = lineSize - 1 → editor.buf[editor.pos]? = some 0) :
    Sound ⟨editor.loop, draft⟩ := by
  unfold Editor.loop
  split
  · rename_i inside
    exact ⟨tracks, inside⟩
  · have zero := terminated (by omega)
    refine .inr ⟨editor.pos, rfl, bound, zero, ?_⟩
    have held := tracks.held
    rw [tracks.pos] at held zero
    exact CStr.stringAt_eq held zero

theorem Tracks.backspace (tracks : Tracks editor draft) (inside : editor.pos < lineSize - 1) :
    Sound ⟨editor.press history names .backspace, draft.press past names .backspace⟩ := by
  have shorter : (if 0 < editor.pos then { editor with pos := editor.pos - 1 } else editor) =
      { editor with pos := editor.pos - 1 } := by
    split
    · rfl
    · have zero : editor.pos - 1 = editor.pos := by omega
      rw [zero]
  rw [Editor.press, shorter]
  refine sound_loop ⟨tracks.size, ?_, ?_, tracks.hIdx⟩ ?_ ?_
  · change editor.pos - 1 = (draft.line.bytes.take (draft.line.strlen - 1)).length
    rw [List.length_take, tracks.pos]
    exact (Nat.min_eq_left (Nat.sub_le _ _)).symm
  · change editor.buf.take (editor.pos - 1) = draft.line.bytes.take (draft.line.strlen - 1)
    rw [← tracks.held, List.take_take, ← tracks.pos, Nat.min_eq_left (Nat.sub_le _ _)]
  · exact Nat.lt_of_le_of_lt (Nat.sub_le _ _) (Nat.lt_of_lt_of_le inside (Nat.sub_le _ _))
  · intro full
    exact absurd full (Nat.ne_of_lt (Nat.lt_of_le_of_lt (Nat.sub_le _ _) inside))

theorem Tracks.char (tracks : Tracks editor draft) (inside : editor.pos < lineSize - 1)
    (byte : Sent) (terminated : editor.pos + 1 = lineSize - 1 →
      editor.buf[lineSize - 1]? = some 0) :
    Sound ⟨editor.press history names (.char byte), draft.press past names (.char byte)⟩ := by
  have room : editor.pos < editor.buf.length := by
    rw [tracks.size]
    omega
  rw [Editor.press, Editor.write, if_pos room]
  refine sound_loop ⟨?_, ?_, ?_, tracks.hIdx⟩ ?_ ?_
  · exact List.length_set.trans tracks.size
  · change editor.pos + 1 = (draft.line.append _).strlen
    rw [CStr.strlen_append, tracks.pos]
    rfl
  · change (editor.buf.set editor.pos byte).take (editor.pos + 1) =
      draft.line.bytes ++ [byte.val]
    rw [← tracks.held, List.take_add_one, List.getElem?_set_self room,
      List.take_set_of_le (Nat.le_refl _)]
    rfl
  · change editor.pos + 1 < lineSize
    omega
  · intro full
    change editor.pos + 1 = lineSize - 1 at full
    change (editor.buf.set editor.pos byte)[editor.pos + 1]? = some 0
    rw [List.getElem?_set_ne (by omega), full]
    exact terminated full

theorem Tracks.up (holds : history.Holds past) (tracks : Tracks editor draft)
    (inside : editor.pos < lineSize - 1) :
    Sound ⟨editor.press history names .up, draft.press past names .up⟩ := by
  have hIdx := tracks.hIdx
  have count := holds.count
  rw [Editor.press, Editor.historyUp]
  by_cases older : draft.recalled < past.length
  · have place : (editor.hIdx + 1).toNat = draft.recalled := by
      rw [hIdx]
      exact Int.toNat_natCast _
    rw [if_pos (by omega), place, Draft.press_up_of_some (holds.entries _ older)]
    cases copy : CStr.strcpy editor.buf 0 (history.entry draft.recalled) with
    | none =>
        have full := CStr.strcpy_eq_none_iff.mp copy
        have fits := holds.short draft.recalled
        rw [tracks.size] at full
        omega
    | some buf =>
        have string := CStr.stringAt_strcpy_zero copy
        have front := CStr.take_strcpy copy
        have zero := CStr.getElem?_strcpy copy
        rw [Nat.zero_add] at front zero
        dsimp only
        rw [string]
        refine sound_loop ⟨?_, rfl, front, ?_⟩ (holds.short _) (fun _ => zero)
        · exact (CStr.length_strcpy copy).trans tracks.size
        · change editor.hIdx + 1 + 1 = ((draft.recalled + 1 : Nat) : Int)
          omega
  · rw [if_neg (by omega),
      Draft.press_up_of_none (List.getElem?_eq_none (Nat.le_of_not_lt older))]
    exact sound_loop tracks (by omega) (fun full => by omega)

theorem Tracks.tab (tracks : Tracks editor draft) (inside : editor.pos < lineSize - 1)
    (fits : (completed names draft.line).strlen < lineSize) :
    Sound ⟨editor.press history names .tab, draft.press past names .tab⟩ := by
  have room : editor.pos < editor.buf.length := by
    rw [tracks.size]
    omega
  have held := tracks.held
  rw [tracks.pos] at room held
  have effect := handleTabCompletion_eq names room held
  rw [tracks.size, if_pos fits] at effect
  obtain ⟨after, done, size, front, zero⟩ := effect
  rw [Editor.press, tracks.pos, done]
  exact sound_loop ⟨size, rfl, front, tracks.hIdx⟩ fits (fun _ => zero)

theorem Tracks.press (holds : history.Holds past) (tracks : Tracks editor draft)
    (inside : editor.pos < lineSize - 1) (key : Key) (fits : Fits names ⟨.editing editor, draft⟩ key) :
    Sound ⟨editor.press history names key, draft.press past names key⟩ := by
  cases key with
  | enter =>
      have room : editor.pos < editor.buf.length := by
        rw [tracks.size]
        omega
      rw [Editor.press, Editor.write, if_pos room]
      have zero : (editor.buf.set editor.pos 0)[editor.pos]? = some 0 :=
        List.getElem?_set_self room
      have kept : (editor.buf.set editor.pos 0).take editor.pos = draft.line.bytes := by
        rw [List.take_set_of_le (Nat.le_refl _), tracks.held]
      refine .inr ⟨editor.pos, rfl, by omega, zero, ?_⟩
      rw [tracks.pos] at zero kept ⊢
      exact CStr.stringAt_eq kept zero
  | up => exact tracks.up holds inside
  | sequence => exact sound_loop tracks (by omega) (fun full => by omega)
  | backspace => exact tracks.backspace inside
  | tab => exact tracks.tab inside fits
  | char byte => exact tracks.char inside byte fits
  | endOfInput => exact .inl rfl
  | cutSequence =>
      have held := tracks.held
      refine .inr ⟨editor.pos, rfl, by omega, fits, ?_⟩
      have zero : editor.buf[editor.pos]? = some 0 := fits
      rw [tracks.pos] at zero held
      exact CStr.stringAt_eq held zero

/-- A key after which the call is still in its buffer fits. -/
theorem Tracks.fits (tracks : Tracks editor draft) (inside : editor.pos < lineSize - 1) (key : Key)
    (safe : Safe ⟨editor.press history names key, draft.press past names key⟩) :
    Fits names ⟨.editing editor, draft⟩ key := by
  have room : editor.pos < editor.buf.length := by
    rw [tracks.size]
    omega
  cases key with
  | tab =>
      by_contra misfit
      have full : ¬ (completed names draft.line).strlen < lineSize := misfit
      have held := tracks.held
      rw [tracks.pos] at room held
      have effect := handleTabCompletion_eq names room held
      rw [tracks.size, if_neg full] at effect
      rw [Editor.press, tracks.pos, effect] at safe
      exact safe
  | char byte =>
      intro full
      rw [Editor.press, Editor.write, if_pos room, Editor.loop, if_neg (by dsimp only; omega)] at safe
      rcases safe with failed | ⟨pos, same, -, zero, -⟩
      · dsimp only at failed
        omega
      · obtain rfl : lineSize - 1 = pos := by
          dsimp only at same
          omega
        rwa [List.getElem?_set_ne (by omega)] at zero
  | cutSequence =>
      rcases safe with failed | ⟨pos, same, -, zero, -⟩
      · omega
      · obtain rfl := Int.ofNat.inj same
        exact zero
  | enter => trivial
  | up => trivial
  | sequence => trivial
  | backspace => trivial
  | endOfInput => trivial

end Press

/-! ## A whole call -/

section Call

variable {history : History} {past names : List CStr} {session after : Session} {key : Key}

theorem Sound.safe (sound : Sound session) : session.Safe := by
  obtain ⟨stage, draft⟩ := session
  cases stage with
  | editing editor =>
      obtain ⟨tracks, inside⟩ := sound
      exact ⟨tracks.size, Nat.lt_of_lt_of_le inside (Nat.sub_le _ _), tracks.held⟩
  | returned len buf => exact sound
  | overrun => exact sound

/-- A call starts soundly in any buffer of the right size. -/
theorem sound_start {buf : List UInt8} (size : buf.length = lineSize) : Sound (start buf) :=
  sound_loop ⟨size, rfl, rfl, rfl⟩ (Nat.zero_lt_succ 255) (fun full => nomatch full)

theorem Sound.step (holds : history.Holds past) (sound : Sound session)
    (fits : Fits names session key)
    (stepped : Session.step history past names session key = some after) : Sound after := by
  obtain ⟨stage, draft⟩ := session
  cases stage with
  | editing editor =>
      cases Option.some.inj stepped
      exact sound.1.press holds sound.2 key fits
  | returned len buf =>
      cases Option.some.inj stepped
      exact sound
  | overrun => exact sound.elim

theorem Sound.fits (sound : Sound session)
    (stepped : Session.step history past names session key = some after) (safe : after.Safe) :
    Fits names session key := by
  obtain ⟨stage, draft⟩ := session
  cases stage with
  | editing editor =>
      cases Option.some.inj stepped
      exact sound.1.fits sound.2 key safe
  | returned len buf => trivial
  | overrun => exact sound.elim

theorem step_total (history : History) (past names : List CStr) (session : Session) (key : Key) :
    ∃ next, Session.step history past names session key = some next := by
  obtain ⟨stage, draft⟩ := session
  cases stage <;> exact ⟨_, rfl⟩

theorem ended_of_last (last : key = .endOfInput ∨ key = .cutSequence)
    (stepped : Session.step history past names session key = some after) (editor : Editor) :
    after.stage ≠ .editing editor := by
  obtain ⟨stage, draft⟩ := session
  cases stage with
  | editing before =>
      rcases last with rfl | rfl
      · cases Option.some.inj stepped
        nofun
      · cases Option.some.inj stepped
        nofun
  | returned len buf =>
      cases Option.some.inj stepped
      nofun
  | overrun =>
      cases Option.some.inj stepped
      nofun

theorem ends (history : History) (past names : List CStr) (session : Session)
    (input : List Sent) :
    ∃ after, Transition.run (Session.step history past names) session (keys input) = some after ∧
      ∀ editor, after.stage ≠ .editing editor := by
  fun_induction keys input generalizing session with
  | case1 =>
      obtain ⟨next, stepped⟩ := step_total history past names session .endOfInput
      refine ⟨next, ?_, ended_of_last (.inl rfl) stepped⟩
      rw [Transition.run_cons, stepped]
      rfl
  | case2 byte escape first second rest ih =>
      obtain ⟨next, stepped⟩ := step_total history past names session
        (if first.val = 91 ∧ second.val = 65 then .up else .sequence)
      rw [Transition.run_cons, stepped]
      exact ih next
  | case3 byte rest escape short =>
      obtain ⟨next, stepped⟩ := step_total history past names session .cutSequence
      refine ⟨next, ?_, ended_of_last (.inr rfl) stepped⟩
      rw [Transition.run_cons, stepped]
      rfl
  | case4 byte rest plain ih =>
      obtain ⟨next, stepped⟩ := step_total history past names session (keyOf byte)
      rw [Transition.run_cons, stepped]
      exact ih next

end Call

/-- In a call of `advanced_get_line` with any buffer of 256 bytes, any history and any input, the call
ends, and it stays in its buffer and returns the edited line with a terminator behind it if and only
if every key that is read fits. -/
theorem advancedGetLine_safe_iff (cmds names : List CStr) {buf : List UInt8}
    (size : buf.length = lineSize) (input : List Sent) :
    ∃ history, History.empty.addAll cmds = some history ∧
      ∃ after, Transition.run (step history (cmds.foldl History.remember []) names) (start buf)
          (keys input) = some after ∧
        (∀ editor, after.stage ≠ .editing editor) ∧
        (Transition.Visits (step history (cmds.foldl History.remember []) names) Safe (start buf)
            (keys input) ↔
          Transition.Guarded (step history (cmds.foldl History.remember []) names) (Fits names)
            (start buf) (keys input)) := by
  obtain ⟨history, added, holds⟩ := History.holds_empty.addAll cmds
  obtain ⟨after, execution, ended⟩ :=
    ends history (cmds.foldl History.remember []) names (start buf) input
  exact ⟨history, added, after, execution, ended,
    Transition.visits_iff_guarded_of_invariant (fun _ sound => sound.safe)
      (fun _ _ _ sound fits stepped => sound.step holds fits stepped)
      (fun _ _ _ sound stepped safe => sound.fits stepped safe) (sound_start size) execution⟩

/-- A line with 249 blanks and the first letter of an argument, and a tabulator. -/
def blanksAndTab : List Sent :=
  [⟨115, by decide⟩, ⟨104, by decide⟩, ⟨111, by decide⟩, ⟨119, by decide⟩] ++
    List.replicate 249 ⟨32, by decide⟩ ++ [⟨99, by decide⟩, ⟨9, by decide⟩]

/-- The completion of that line does not fit into the buffer. -/
theorem blanksAndTab_overruns :
    ∃ after, Transition.run (step History.empty [] []) (start (List.replicate lineSize 0))
        (keys blanksAndTab) = some after ∧ after.stage = .overrun ∧
      ¬ Transition.Visits (step History.empty [] []) Safe (start (List.replicate lineSize 0))
        (keys blanksAndTab) := by
  have execution :
      (Transition.run (step History.empty [] []) (start (List.replicate lineSize 0))
        (keys blanksAndTab)).map Session.stage = some .overrun := by
    decide +kernel
  obtain ⟨after, ran, overrun⟩ := Option.map_eq_some_iff.mp execution
  refine ⟨after, ran, overrun, fun visited => ?_⟩
  have safe := visited.last ran
  rw [Safe, overrun] at safe
  exact safe

/-- The exact condition on a call that recalls a line. -/
theorem advancedGetLine_safe_recalled :
    ∃ history, History.empty.addAll [literal "show db"] = some history ∧
      ∃ after, Transition.run (step history ([literal "show db"].foldl History.remember []) [])
          (start (List.replicate lineSize 0))
          (keys [⟨27, by decide⟩, ⟨91, by decide⟩, ⟨65, by decide⟩, ⟨10, by decide⟩]) =
            some after ∧
        (∀ editor, after.stage ≠ .editing editor) ∧
        (Transition.Visits (step history ([literal "show db"].foldl History.remember []) []) Safe
            (start (List.replicate lineSize 0))
            (keys [⟨27, by decide⟩, ⟨91, by decide⟩, ⟨65, by decide⟩, ⟨10, by decide⟩]) ↔
          Transition.Guarded (step history ([literal "show db"].foldl History.remember []) [])
            (Fits []) (start (List.replicate lineSize 0))
            (keys [⟨27, by decide⟩, ⟨91, by decide⟩, ⟨65, by decide⟩, ⟨10, by decide⟩])) :=
  advancedGetLine_safe_iff [literal "show db"] [] List.length_replicate _

end Session

end CodexNos.Cli
