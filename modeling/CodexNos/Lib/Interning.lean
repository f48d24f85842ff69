import Mathlib.Tactic

/-!
# Interning under a cut name

A registry answers a name with the first entry that is stored under it, and otherwise adds an entry
under an image of the name.  Entries identify names as long as no request meets the difference
between a name and its image: a name that is not its own image is never found again, and its image
finds its entry.
-/

namespace CodexNos.Lib.Interning

variable {α : Type*}

/-- Answers identify names. -/
def Identifies (answers : List (α × Nat)) : Prop :=
  ∀ answer ∈ answers, ∀ other ∈ answers, answer.2 = other.2 ↔ answer.1 = other.1

/-- An answer that is added to identifying answers has to agree with each of them. -/
theorem identifies_append_iff {answers : List (α × Nat)} {name : α}
    (identifies : Identifies answers) (index : Nat) :
    Identifies (answers ++ [(name, index)]) ↔
      ∀ answer ∈ answers, answer.2 = index ↔ answer.1 = name := by
  constructor
  · intro all answer member
    exact all answer (List.mem_append_left _ member) (name, index)
      (List.mem_append_right _ (List.mem_singleton_self _))
  · intro agrees answer member other member'
    rcases List.mem_append.mp member with old | new <;>
      rcases List.mem_append.mp member' with old' | new'
    · exact identifies answer old other old'
    · obtain rfl := List.mem_singleton.mp new'
      exact agrees answer old
    · obtain rfl := List.mem_singleton.mp new
      rw [eq_comm, agrees other old', eq_comm]
    · obtain rfl := List.mem_singleton.mp new
      obtain rfl := List.mem_singleton.mp new'
      exact iff_of_true rfl rfl

variable [DecidableEq α]

/-- Answer one name: the entries afterwards and the index of the answer. -/
def request (image : α → α) (entries : List α) (name : α) : List α × Nat :=
  match entries.findIdx? (· = name) with
  | some index => (entries, index)
  | none => (entries ++ [image name], entries.length)

theorem request_of_found {image : α → α} {entries : List α} {name : α} {index : Nat}
    (found : entries.findIdx? (· = name) = some index) :
    request image entries name = (entries, index) := by
  rw [request, found]

theorem request_of_not_found {image : α → α} {entries : List α} {name : α}
    (absent : entries.findIdx? (· = name) = none) :
    request image entries name = (entries ++ [image name], entries.length) := by
  rw [request, absent]

/-- A name may be asked for: it is its own image if it was asked for before, and otherwise no
earlier name has it as its image. -/
def Fresh (image : α → α) (names : List α) (name : α) : Prop :=
  if name ∈ names then image name = name else ∀ earlier ∈ names, image earlier ≠ name

/-- The entries that the answers so far have left. -/
structure Coherent (image : α → α) (entries : List α) (answers : List (α × Nat)) : Prop where
  stored : ∀ answer ∈ answers, entries[answer.2]? = some (image answer.1)
  answered : ∀ index < entries.length, ∃ name, (name, index) ∈ answers
  first : ∀ answer ∈ answers, image answer.1 = answer.1 →
    entries.findIdx? (· = answer.1) = some answer.2

theorem Coherent.empty (image : α → α) : Coherent image [] [] :=
  ⟨by simp, by simp, by simp⟩

theorem findIdx?_append_of_some {entries : List α} {name : α} {index : Nat}
    (found : entries.findIdx? (· = name) = some index) (later : List α) :
    (entries ++ later).findIdx? (· = name) = some index := by
  rw [List.findIdx?_append, found]
  rfl

variable {image : α → α} {entries : List α} {answers : List (α × Nat)} {name : α}

/-- A name that is found is stored, and is the image of every name with the same answer. -/
theorem Coherent.found {index : Nat} (coherent : Coherent image entries answers)
    (found : entries.findIdx? (· = name) = some index) :
    entries[index]? = some name ∧ ∃ earlier, (earlier, index) ∈ answers ∧ image earlier = name := by
  obtain ⟨inside, holds, -⟩ := List.findIdx?_eq_some_iff_getElem.mp found
  have stored : entries[index]? = some name := by
    rw [List.getElem?_eq_getElem inside]
    exact congrArg some (of_decide_eq_true holds)
  obtain ⟨earlier, member⟩ := coherent.answered index inside
  refine ⟨stored, earlier, member, ?_⟩
  exact Option.some.inj ((coherent.stored _ member).symm.trans stored)

theorem not_mem_of_not_found (absent : entries.findIdx? (· = name) = none) : name ∉ entries := by
  intro member
  simpa using List.findIdx?_eq_none_iff.mp absent name member

theorem Coherent.request (idempotent : ∀ text, image (image text) = image text)
    (coherent : Coherent image entries answers) (name : α) :
    Coherent image (request image entries name).1
      (answers ++ [(name, (Interning.request image entries name).2)]) := by
  unfold Interning.request
  cases found : entries.findIdx? (· = name) with
  | some index =>
      obtain ⟨stored, earlier, -, rfl⟩ := coherent.found found
      refine ⟨?_, ?_, ?_⟩
      · intro answer member
        rcases List.mem_append.mp member with old | new
        · exact coherent.stored answer old
        · obtain rfl := List.mem_singleton.mp new
          rw [idempotent]
          exact stored
      · intro place inside
        obtain ⟨other, member⟩ := coherent.answered place inside
        exact ⟨other, List.mem_append_left _ member⟩
      · intro answer member own
        rcases List.mem_append.mp member with old | new
        · exact coherent.first answer old own
        · obtain rfl := List.mem_singleton.mp new
          exact found
  | none =>
      have absent := not_mem_of_not_found found
      refine ⟨?_, ?_, ?_⟩
      · intro answer member
        rcases List.mem_append.mp member with old | new
        · have stored := coherent.stored answer old
          rw [List.getElem?_append_left (List.getElem?_eq_some_iff.mp stored).1]
          exact stored
        · obtain rfl := List.mem_singleton.mp new
          exact List.getElem?_concat_length
      · intro place inside
        rw [List.length_append, List.length_singleton] at inside
        rcases Nat.lt_succ_iff_lt_or_eq.mp inside with old | rfl
        · obtain ⟨other, member⟩ := coherent.answered place old
          exact ⟨other, List.mem_append_left _ member⟩
        · exact ⟨name, List.mem_append_right _ (List.mem_singleton_self _)⟩
      · intro answer member own
        rcases List.mem_append.mp member with old | new
        · exact findIdx?_append_of_some (coherent.first answer old own) _
        · obtain rfl := List.mem_singleton.mp new
          change (entries ++ [image name]).findIdx? (· = name) = some entries.length
          rw [List.findIdx?_append, found, show image name = name from own]
          simp

/-- A request keeps the answers identifying exactly if its name may be asked for. -/
theorem Coherent.identifies_request_iff (coherent : Coherent image entries answers)
    (identifies : Identifies answers) :
    Identifies (answers ++ [(name, (Interning.request image entries name).2)]) ↔
      Fresh image (answers.map Prod.fst) name := by
  rw [identifies_append_iff identifies]
  unfold Interning.request Fresh
  cases found : entries.findIdx? (· = name) with
  | some index =>
      obtain ⟨stored, earlier, member, image_earlier⟩ := coherent.found found
      by_cases asked : name ∈ answers.map Prod.fst
      · obtain ⟨⟨_, place⟩, member', rfl⟩ := List.mem_map.mp asked
        rw [if_pos asked]
        constructor
        · intro agrees
          obtain rfl : place = index := (agrees _ member').mpr rfl
          exact Option.some.inj ((coherent.stored _ member').symm.trans stored)
        · intro own answer mem
          have same : index = place :=
            Option.some.inj (found.symm.trans (coherent.first _ member' own))
          rw [same]
          exact identifies answer mem _ member'
      · rw [if_neg asked]
        refine iff_of_false ?_ ?_
        · intro agrees
          have same : earlier = name := (agrees _ member).mp rfl
          exact asked (same ▸ List.mem_map_of_mem member)
        · intro apart
          exact apart earlier (List.mem_map_of_mem member) image_earlier
  | none =>
      have absent := not_mem_of_not_found found
      have images (answer) (member : answer ∈ answers) : image answer.1 ∈ entries :=
        List.mem_of_getElem? (coherent.stored answer member)
      have below (answer) (member : answer ∈ answers) : answer.2 ≠ entries.length :=
        (List.getElem?_eq_some_iff.mp (coherent.stored answer member)).1.ne
      by_cases asked : name ∈ answers.map Prod.fst
      · obtain ⟨⟨_, place⟩, member, rfl⟩ := List.mem_map.mp asked
        rw [if_pos asked]
        refine iff_of_false ?_ ?_
        · intro agrees
          exact below _ member ((agrees _ member).mpr rfl)
        · intro own
          have stored := images _ member
          rw [own] at stored
          exact absent stored
      · rw [if_neg asked]
        refine iff_of_true ?_ ?_
        · intro answer member
          refine iff_of_false (below answer member) ?_
          rintro rfl
          exact asked (List.mem_map_of_mem member)
        · intro earlier member same
          obtain ⟨answer, member', rfl⟩ := List.mem_map.mp member
          exact absent (same ▸ images answer member')

end CodexNos.Lib.Interning
