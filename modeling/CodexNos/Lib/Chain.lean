import Mathlib.Tactic

/-!
# Chains of linked nodes

A pool of nodes is linked by a partial successor function.  A chain from a start node is the list
of the nodes that following the links visits before they end.  Such a chain is determined by its
start, never meets a node twice, and a search along it finds what a search of the list finds.
-/

namespace CodexNos.Lib.Chain

variable {ι : Type*}

/-- Following the links from `start` visits exactly the nodes of `path` and then ends. -/
def Linked (next : ι → Option ι) : Option ι → List ι → Prop
  | start, [] => start = none
  | start, node :: path => start = some node ∧ Linked next (next node) path

@[simp]
theorem linked_nil {next : ι → Option ι} {start : Option ι} :
    Linked next start [] ↔ start = none := Iff.rfl

@[simp]
theorem linked_cons {next : ι → Option ι} {start : Option ι} {node : ι} {path : List ι} :
    Linked next start (node :: path) ↔ start = some node ∧ Linked next (next node) path := Iff.rfl

theorem Linked.unique {next : ι → Option ι} {start : Option ι} {path path' : List ι}
    (linked : Linked next start path) (linked' : Linked next start path') : path = path' := by
  induction path generalizing start path' with
  | nil =>
      cases path' with
      | nil => rfl
      | cons node path' => simp_all
  | cons node path ih =>
      obtain ⟨rfl, rest⟩ := linked
      cases path' with
      | nil => simp at linked'
      | cons node' path' =>
          obtain ⟨same, rest'⟩ := linked'
          obtain rfl : node = node' := Option.some.inj same
          rw [ih rest rest']

theorem Linked.congr {next next' : ι → Option ι} {start : Option ι} {path : List ι}
    (agree : ∀ node ∈ path, next' node = next node) (linked : Linked next start path) :
    Linked next' start path := by
  induction path generalizing start with
  | nil => exact linked
  | cons node path ih =>
      obtain ⟨first, rest⟩ := linked
      refine ⟨first, ?_⟩
      rw [agree node List.mem_cons_self]
      exact ih (fun other member => agree other (List.mem_cons_of_mem _ member)) rest

theorem Linked.suffix {next : ι → Option ι} {start : Option ι} {front : List ι} {node : ι}
    {back : List ι} (linked : Linked next start (front ++ node :: back)) :
    Linked next (next node) back := by
  induction front generalizing start with
  | nil => exact linked.2
  | cons first front ih => exact ih linked.2

theorem Linked.start_eq {next : ι → Option ι} {start : Option ι} {path : List ι}
    (linked : Linked next start path) : start = path.head? := by
  cases path with
  | nil => exact linked
  | cons node path => exact linked.1

theorem Linked.next_eq {next : ι → Option ι} {start : Option ι} {front : List ι} {node : ι}
    {back : List ι} (linked : Linked next start (front ++ node :: back)) :
    next node = back.head? :=
  linked.suffix.start_eq

theorem Linked.nodup {next : ι → Option ι} {start : Option ι} {path : List ι}
    (linked : Linked next start path) : path.Nodup := by
  induction path generalizing start with
  | nil => exact List.nodup_nil
  | cons node path ih =>
      refine List.nodup_cons.mpr ⟨?_, ih linked.2⟩
      intro again
      obtain ⟨front, back, rfl⟩ := List.mem_iff_append.mp again
      have short := linked.2.suffix
      have equal := congrArg List.length (linked.2.unique short)
      simp only [List.length_append, List.length_cons] at equal
      omega

/-- Redirecting the link of a node past its successor takes the successor off the chain. -/
theorem Linked.bypass [DecidableEq ι] {next : ι → Option ι} {start : Option ι} {front : List ι}
    {prev node : ι} {back : List ι} (linked : Linked next start (front ++ prev :: node :: back)) :
    Linked (Function.update next prev (next node)) start (front ++ prev :: back) := by
  induction front generalizing start with
  | nil =>
      obtain ⟨first, second, rest⟩ := linked
      have fresh : prev ∉ back := by
        have chain : Linked next start (prev :: node :: back) := ⟨first, second, rest⟩
        have distinct := chain.nodup
        simp_all
      refine ⟨first, ?_⟩
      rw [Function.update_self]
      refine rest.congr ?_
      intro other member
      have different : other ≠ prev := by
        rintro rfl
        exact fresh member
      exact Function.update_of_ne different _ _
  | cons first front ih =>
      have distinct := linked.nodup
      have different : first ≠ prev := by
        rintro rfl
        simp at distinct
      refine ⟨linked.1, ?_⟩
      rw [Function.update_of_ne different]
      exact ih linked.2

/-- The links after the node behind `prev` was taken off its chain. -/
def redirect [DecidableEq ι] (next : ι → Option ι) (prev : Option ι) (node : ι) : ι → Option ι :=
  match prev with
  | none => next
  | some prevNode => Function.update next prevNode (next node)

/-- Taking a node off its chain redirects the link before it, or the start. -/
theorem Linked.unlink [DecidableEq ι] {next : ι → Option ι} {start : Option ι} {front : List ι}
    {node : ι} {back : List ι} (linked : Linked next start (front ++ node :: back)) :
    Linked (redirect next front.getLast? node)
      (if front.getLast? = none then next node else start) (front ++ back) := by
  obtain rfl | ⟨front, prev, rfl⟩ := List.eq_nil_or_concat' front
  · simpa [redirect] using linked.2
  · simp only [List.append_assoc, List.singleton_append] at linked
    simpa [redirect] using linked.bypass

/-- Chains that do not contain the redirected node are unaffected. -/
theorem Linked.congr_redirect [DecidableEq ι] {next : ι → Option ι} {start : Option ι}
    {path : List ι} {prev : Option ι} {node : ι} (linked : Linked next start path)
    (apart : ∀ other ∈ path, prev ≠ some other) :
    Linked (redirect next prev node) start path := by
  refine linked.congr ?_
  intro other member
  cases prev with
  | none => rfl
  | some prevNode =>
      have different : other ≠ prevNode := by
        rintro rfl
        exact apart other member rfl
      exact Function.update_of_ne different _ _

/-! ## Searching a chain -/

/-- Follow the links to the first node that passes the test.  Fails when the fuel runs out. -/
def search (next : ι → Option ι) (test : ι → Bool) : Nat → Option ι → Option (Option ι)
  | _, none => some none
  | 0, some _ => none
  | fuel + 1, some node =>
      if test node then some (some node) else search next test fuel (next node)

/-- The same search, remembering the node before the current one. -/
def searchPrev (next : ι → Option ι) (test : ι → Bool) :
    Nat → Option ι → Option ι → Option (Option (Option ι × ι))
  | _, _, none => some none
  | 0, _, some _ => none
  | fuel + 1, prev, some node =>
      if test node then some (some (prev, node))
      else searchPrev next test fuel (some node) (next node)

/-- Remembering the node before changes nothing about what is found. -/
theorem search_eq_searchPrev (next : ι → Option ι) (test : ι → Bool) (fuel : Nat)
    (prev start : Option ι) :
    search next test fuel start = (searchPrev next test fuel prev start).map (·.map Prod.snd) := by
  induction fuel generalizing prev start with
  | zero => cases start <;> rfl
  | succ fuel ih =>
      cases start with
      | none => rfl
      | some node =>
          rw [search, searchPrev]
          split
          · rfl
          · exact ih (some node) (next node)

/-- A search with enough fuel returns, and finds what the list of nodes has. -/
theorem Linked.search_eq {next : ι → Option ι} {test : ι → Bool} {start : Option ι}
    {path : List ι} (linked : Linked next start path) {fuel : Nat} (enough : path.length ≤ fuel) :
    search next test fuel start = some (path.find? test) := by
  induction path generalizing start fuel with
  | nil =>
      obtain rfl : start = none := linked
      cases fuel <;> rfl
  | cons node path ih =>
      obtain ⟨rfl, rest⟩ := linked
      cases fuel with
      | zero => simp at enough
      | succ fuel =>
          rw [search, List.find?_cons]
          cases test node with
          | true => simp
          | false => simpa using ih rest (Nat.le_of_succ_le_succ enough)

theorem Linked.searchPrev_eq_none {next : ι → Option ι} {test : ι → Bool} {start : Option ι}
    {path : List ι} (linked : Linked next start path) (absent : path.find? test = none)
    {fuel : Nat} (enough : path.length ≤ fuel) (prev : Option ι) :
    searchPrev next test fuel prev start = some none := by
  induction path generalizing start fuel prev with
  | nil =>
      obtain rfl : start = none := linked
      cases fuel <;> rfl
  | cons node path ih =>
      obtain ⟨rfl, rest⟩ := linked
      obtain ⟨fails, absent⟩ : test node = false ∧ path.find? test = none := by
        simpa using absent
      cases fuel with
      | zero => simp at enough
      | succ fuel =>
          rw [searchPrev, fails]
          simpa using ih rest absent (Nat.le_of_succ_le_succ enough) (some node)

/-- A remembering search stops at the first node that passes, with the node before it. -/
theorem Linked.searchPrev_eq_some {next : ι → Option ι} {test : ι → Bool} {start : Option ι}
    {front : List ι} {node : ι} {back : List ι}
    (linked : Linked next start (front ++ node :: back)) (passes : test node)
    (fails : ∀ other ∈ front, test other = false) {fuel : Nat}
    (enough : front.length < fuel) (prev : Option ι) :
    searchPrev next test fuel prev start = some (some (front.getLast?.or prev, node)) := by
  induction front generalizing start fuel prev with
  | nil =>
      obtain ⟨rfl, _⟩ := linked
      cases fuel with
      | zero => simp at enough
      | succ fuel => simp [searchPrev, passes]
  | cons first front ih =>
      obtain ⟨rfl, rest⟩ := linked
      cases fuel with
      | zero => simp at enough
      | succ fuel =>
          have ahead : test first = false := fails first List.mem_cons_self
          rw [searchPrev, ahead]
          have found := ih rest
            (fun other member => fails other (List.mem_cons_of_mem _ member))
            (Nat.lt_of_succ_lt_succ enough) (some first)
          cases front with
          | nil => simpa using found
          | cons second front =>
              rw [List.getLast?_cons_cons]
              simpa [List.getLast?_eq_some_getLast] using found

end CodexNos.Lib.Chain
