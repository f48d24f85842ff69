import Mathlib.Tactic

/-!
# Reading lines

`fgets` reads up to a newline, up to its limit or up to the end of the input.  A reader that takes
one piece after the other until it wants no more goes through the pieces of the input in their order,
and lines that are shorter than the limit are the pieces of their concatenation.
-/

namespace CodexNos.Lib.Lines

/-- The end of a line. -/
def newline : UInt8 := 10

/-- The bytes up to and with the first newline, at most so many, and the rest. -/
def takeLine : Nat → List UInt8 → List UInt8 × List UInt8
  | 0, stream => ([], stream)
  | _ + 1, [] => ([], [])
  | limit + 1, byte :: stream =>
      if byte = newline then ([byte], stream)
      else (byte :: (takeLine limit stream).1, (takeLine limit stream).2)

/-- `fgets` with an array of a size: the bytes before the terminator and the rest of the input. -/
def fgets (size : Nat) : List UInt8 → Option (List UInt8 × List UInt8)
  | [] => none
  | byte :: stream => some (takeLine (size - 1) (byte :: stream))

variable {σ : Type*}

/-- Hand the pieces of the input to a reader while it wants more, for a number of turns at most.
There is no result if the reader has none or the turns do not suffice. -/
def readLines (size : Nat) (wants : σ → Bool) (handle : σ → List UInt8 → Option σ) :
    Nat → σ → List UInt8 → Option σ
  | 0, _, _ => none
  | turns + 1, state, stream =>
      if wants state then
        match fgets size stream with
        | none => some state
        | some (line, rest) =>
            (handle state line).bind fun next => readLines size wants handle turns next rest
      else some state

/-- The pieces of the input, at most so many. -/
def pieces (size : Nat) : Nat → List UInt8 → List (List UInt8)
  | 0, _ => []
  | turns + 1, stream =>
      match fgets size stream with
      | none => []
      | some (line, rest) => line :: pieces size turns rest

/-- Hand pieces to a reader while it wants more. -/
def consume (wants : σ → Bool) (handle : σ → List UInt8 → Option σ) :
    σ → List (List UInt8) → Option σ
  | state, [] => some state
  | state, line :: lines =>
      if wants state then (handle state line).bind fun next => consume wants handle next lines
      else some state

/-! ## Pieces -/

theorem takeLine_append (limit : Nat) (stream : List UInt8) :
    (takeLine limit stream).1 ++ (takeLine limit stream).2 = stream := by
  induction limit generalizing stream with
  | zero => rfl
  | succ limit ih =>
      cases stream with
      | nil => rfl
      | cons byte stream =>
          rw [takeLine]
          split
          · rfl
          · rw [List.cons_append, ih]

theorem length_rest_lt {size : Nat} (room : 2 ≤ size) {stream line rest : List UInt8}
    (read : fgets size stream = some (line, rest)) : rest.length < stream.length := by
  obtain ⟨limit, rfl⟩ := Nat.exists_eq_add_of_le room
  cases stream with
  | nil => cases read
  | cons byte stream =>
      obtain ⟨rfl, rfl⟩ := Prod.mk.inj (Option.some.inj read)
      have whole := congrArg List.length (takeLine_append (limit + 1) (byte :: stream))
      have taken : (takeLine (2 + limit - 1) (byte :: stream)).1 ≠ [] := by
        rw [show 2 + limit - 1 = limit + 1 by omega, takeLine]
        split <;> simp
      have positive := List.length_pos_iff.mpr taken
      rw [show limit + 1 = 2 + limit - 1 by omega, List.length_append] at whole
      omega

theorem readLines_eq {size : Nat} (room : 2 ≤ size) (wants : σ → Bool)
    (handle : σ → List UInt8 → Option σ) {turns : Nat} {stream : List UInt8}
    (enough : stream.length < turns) (state : σ) :
    readLines size wants handle turns state stream =
      consume wants handle state (pieces size turns stream) := by
  induction turns generalizing state stream with
  | zero => omega
  | succ turns ih =>
      rw [readLines, pieces]
      cases read : fgets size stream with
      | none =>
          simp only [consume]
          split <;> rfl
      | some taken =>
          obtain ⟨line, rest⟩ := taken
          have shorter := length_rest_lt room read
          simp only [consume]
          split
          · exact congrArg _ (funext fun next => ih (by omega) next)
          · rfl

/-! ## Lines -/

/-- Lines with their ends. -/
def join (lines : List (List UInt8)) : List UInt8 := lines.flatMap (· ++ [newline])

theorem takeLine_line {limit : Nat} {line : List UInt8} (plain : newline ∉ line)
    (short : line.length < limit) (rest : List UInt8) :
    takeLine limit (line ++ newline :: rest) = (line ++ [newline], rest) := by
  induction line generalizing limit with
  | nil =>
      obtain ⟨limit, rfl⟩ := Nat.exists_eq_succ_of_ne_zero short.ne'
      simp [takeLine]
  | cons byte line ih =>
      obtain ⟨limit, rfl⟩ : ∃ less, limit = less + 1 := ⟨limit - 1, by omega⟩
      rw [List.mem_cons, not_or] at plain
      rw [List.cons_append, takeLine, if_neg (Ne.symm plain.1), ih plain.2 (by simpa using short)]
      rfl

theorem pieces_join {size turns : Nat} {lines : List (List UInt8)}
    (plain : ∀ line ∈ lines, newline ∉ line) (short : ∀ line ∈ lines, line.length + 1 < size)
    (enough : lines.length < turns) :
    pieces size turns (join lines) = lines.map (· ++ [newline]) := by
  induction lines generalizing turns with
  | nil =>
      obtain ⟨turns, rfl⟩ := Nat.exists_eq_succ_of_ne_zero enough.ne'
      rfl
  | cons line lines ih =>
      obtain ⟨turns, rfl⟩ : ∃ less, turns = less + 1 := ⟨turns - 1, by omega⟩
      rw [List.forall_mem_cons] at plain short
      have read : fgets size (join (line :: lines)) = some (line ++ [newline], join lines) := by
        have joined : join (line :: lines) = line ++ newline :: join lines := by simp [join]
        have below : line.length < size - 1 := by omega
        rw [joined, ← takeLine_line plain.1 below]
        cases line <;> rfl
      rw [pieces, read]
      simp only [List.map_cons]
      rw [ih plain.2 short.2 (by simpa using enough)]

theorem length_le_join (lines : List (List UInt8)) : lines.length ≤ (join lines).length := by
  induction lines with
  | nil => exact le_rfl
  | cons line lines ih =>
      simp only [join, List.flatMap_cons, List.length_append, List.length_cons] at ih ⊢
      omega

theorem readLines_join {size : Nat} (wants : σ → Bool) (handle : σ → List UInt8 → Option σ)
    {lines : List (List UInt8)} (plain : ∀ line ∈ lines, newline ∉ line)
    (short : ∀ line ∈ lines, line.length + 1 < size) (room : 2 ≤ size) (state : σ) :
    readLines size wants handle ((join lines).length + 1) state (join lines) =
      consume wants handle state (lines.map (· ++ [newline])) := by
  have enough := length_le_join lines
  rw [readLines_eq room wants handle (Nat.lt_succ_self _), pieces_join plain short (by omega)]

end CodexNos.Lib.Lines
