import CodexNos.Lib.Chain
import Mathlib.Data.Finmap
import Mathlib.Tactic

/-!
# Blocks of memory

A memory has the contents of the blocks that are allocated.  An allocator gives a new block an
address that no allocated block has; a freed address may come back.  A walk along a list of nodes
reads its blocks, and has no result if one of them is not allocated or the list does not end.

Every block has one owner, so that what one owner does to its blocks leaves those of the others as
they are, and nothing is left once no owner has a block.
-/

namespace CodexNos.Lib.Blocks

/-! ## Memory -/

/-- The allocated blocks and their contents. -/
abbrev Memory (β : Type*) := Finmap fun _ : Nat => β

/-- The choice of an address for a new block. -/
structure Allocator (β : Type*) where
  /-- The address. -/
  place : Memory β → Nat
  fresh : ∀ memory, place memory ∉ memory

/-- The allocator that never goes back. -/
def Allocator.above {β : Type*} : Allocator β where
  place memory := memory.keys.sup id + 1
  fresh memory member := by
    have below : memory.keys.sup id + 1 ≤ memory.keys.sup id :=
      Finset.le_sup (f := id) (Finmap.mem_keys.mpr member)
    omega

instance {β : Type*} : Inhabited (Allocator β) := ⟨.above⟩

/-- The contents of a block: a node of a list, or something else. -/
inductive Block (α β : Type*)
  | node (item : α) (next : Option Nat)
  | other (content : β)
  deriving DecidableEq, Repr

variable {α β : Type*} {memory memory' : Memory (Block α β)}

/-- Read a node. -/
def nodeAt (memory : Memory (Block α β)) (addr : Nat) : Option (α × Option Nat) :=
  match memory.lookup addr with
  | some (.node item next) => some (item, next)
  | _ => none

/-- The item of a node. -/
def itemOf (memory : Memory (Block α β)) (addr : Nat) : Option α :=
  (nodeAt memory addr).map Prod.fst

/-- The link of a node. -/
def nextOf (memory : Memory (Block α β)) (addr : Nat) : Option Nat :=
  (nodeAt memory addr).bind Prod.snd

/-- The items of some nodes. -/
def items (memory : Memory (Block α β)) (addrs : List Nat) : List α :=
  addrs.filterMap (itemOf memory)

/-! ## Walks -/

/-- The addresses of the nodes of a list. -/
def collect (memory : Memory (Block α β)) : Nat → Option Nat → Option (List Nat)
  | _, none => some []
  | 0, some _ => none
  | fuel + 1, some addr =>
      match nodeAt memory addr with
      | none => none
      | some (_, next) => (collect memory fuel next).map (addr :: ·)

/-- The first node whose item passes the test. -/
def find (memory : Memory (Block α β)) (test : α → Bool) : Nat → Option Nat → Option (Option Nat)
  | _, none => some none
  | 0, some _ => none
  | fuel + 1, some addr =>
      match nodeAt memory addr with
      | none => none
      | some (item, next) => if test item then some (some addr) else find memory test fuel next

/-- The first node whose item passes the test, with the node before it and its link. -/
def findPrev (memory : Memory (Block α β)) (test : α → Bool) :
    Nat → Option Nat → Option Nat → Option (Option (Option Nat × Nat × Option Nat))
  | _, _, none => some none
  | 0, _, some _ => none
  | fuel + 1, prev, some addr =>
      match nodeAt memory addr with
      | none => none
      | some (item, next) =>
          if test item then some (some (prev, addr, next))
          else findPrev memory test fuel (some addr) next

/-- Free the nodes of a list. -/
def freeAll : Nat → Memory (Block α β) → Option Nat → Option (Memory (Block α β))
  | _, memory, none => some memory
  | 0, _, some _ => none
  | fuel + 1, memory, some addr =>
      match nodeAt memory addr with
      | none => none
      | some (_, next) => freeAll fuel (memory.erase addr) next

/-- Write the link of a node. -/
def setNext (memory : Memory (Block α β)) (addr : Nat) (next : Option Nat) :
    Option (Memory (Block α β)) :=
  (nodeAt memory addr).map fun node => memory.insert addr (.node node.1 next)

/-- Take a node out of its list and free it. -/
def unlink (memory : Memory (Block α β)) (prev : Option Nat) (addr : Nat) (next : Option Nat) :
    Option (Memory (Block α β)) :=
  match prev with
  | none => some (memory.erase addr)
  | some prevAddr => (setNext memory prevAddr next).map fun memory => memory.erase addr

/-- These blocks are freed and no others. -/
def Erased {γ : Type*} (memory : Memory γ) (addrs : List Nat) (after : Memory γ) : Prop :=
  ∀ addr, after.lookup addr = if addr ∈ addrs then none else memory.lookup addr

/-- The blocks of the first memory are in the second as they are. -/
def Extends {γ : Type*} (first second : Memory γ) : Prop :=
  ∀ addr ∈ first, second.lookup addr = first.lookup addr

theorem erase_insert {γ : Type*} {memory : Memory γ} {addr : Nat} (fresh : addr ∉ memory)
    (content : γ) : (memory.insert addr content).erase addr = memory := by
  refine Finmap.ext_lookup fun other => ?_
  by_cases same : other = addr
  · rw [same, Finmap.lookup_erase, Finmap.lookup_eq_none.mpr fresh]
  · rw [Finmap.lookup_erase_ne same, Finmap.lookup_insert_of_ne memory same]

/-! ## Lists -/

namespace Erased

variable {γ : Type*} {first second third : Memory γ} {addrs others : List Nat}

theorem refl (first : Memory γ) : Erased first [] first := fun addr => by simp

theorem erase (first : Memory γ) (addr : Nat) : Erased first [addr] (first.erase addr) := by
  intro other
  by_cases same : other = addr
  · subst same
    simp
  · simp [same, Finmap.lookup_erase_ne same]

theorem trans (before : Erased first addrs second) (after : Erased second others third) :
    Erased first (addrs ++ others) third := by
  intro addr
  rw [after addr, before addr]
  simp only [List.mem_append]
  split <;> split <;> simp_all

theorem mem_iff (erased : Erased first addrs second) (addr : Nat) :
    addr ∈ second ↔ addr ∈ first ∧ addr ∉ addrs := by
  rw [← Finmap.lookup_isSome, ← Finmap.lookup_isSome, erased addr]
  split <;> simp_all

end Erased

namespace Extends

variable {γ : Type*} {first second third : Memory γ}

theorem mem (extend : Extends first second) {addr : Nat} (member : addr ∈ first) :
    addr ∈ second := by
  rw [← Finmap.lookup_isSome, extend addr member, Finmap.lookup_isSome]
  exact member

theorem trans (before : Extends first second) (after : Extends second third) :
    Extends first third :=
  fun addr member => (after addr (before.mem member)).trans (before addr member)

theorem alloc (allocator : Allocator γ) (memory : Memory γ) (content : γ) :
    Extends memory (memory.insert (allocator.place memory) content) :=
  fun _ member => Finmap.lookup_insert_of_ne memory fun same =>
    allocator.fresh memory (same ▸ member)

end Extends

theorem nodeAt_congr {addr : Nat} (same : memory'.lookup addr = memory.lookup addr) :
    nodeAt memory' addr = nodeAt memory addr := by
  rw [nodeAt, nodeAt, same]

theorem mem_of_nodeAt {addr : Nat} (live : (nodeAt memory addr).isSome) : addr ∈ memory := by
  refine Finmap.lookup_isSome.mp ?_
  unfold nodeAt at live
  cases found : memory.lookup addr with
  | none => simp [found] at live
  | some block => rfl

theorem nodeAt_insert (addr : Nat) (item : α) (next : Option Nat) :
    nodeAt (memory.insert addr (.node item next)) addr = some (item, next) := by
  rw [nodeAt, Finmap.lookup_insert]

/-- Following the links from a start visits these nodes, all of them allocated, and ends. -/
structure Spells (memory : Memory (Block α β)) (start : Option Nat) (addrs : List Nat) : Prop where
  linked : Chain.Linked (nextOf memory) start addrs
  live : ∀ addr ∈ addrs, (nodeAt memory addr).isSome

namespace Spells

variable {start : Option Nat} {addr : Nat} {addrs front back : List Nat}

theorem nil : Spells memory none [] := ⟨rfl, by simp⟩

theorem cons (spells : Spells memory start (addr :: addrs)) :
    start = some addr ∧ ∃ item next, nodeAt memory addr = some (item, next) ∧
      Spells memory next addrs := by
  obtain ⟨first, rest⟩ := spells.linked
  obtain ⟨⟨item, next⟩, found⟩ := Option.isSome_iff_exists.mp (spells.live addr List.mem_cons_self)
  refine ⟨first, item, next, found, ?_, fun other member => ?_⟩
  · rwa [nextOf, found] at rest
  · exact spells.live other (List.mem_cons_of_mem addr member)

theorem nodup (spells : Spells memory start addrs) : addrs.Nodup := spells.linked.nodup

theorem suffix (spells : Spells memory start (front ++ addr :: back)) :
    Spells memory (some addr) (addr :: back) :=
  ⟨⟨rfl, spells.linked.suffix⟩, fun other member =>
    spells.live other (List.mem_append_right front member)⟩

theorem length_le (spells : Spells memory start addrs) : addrs.length ≤ memory.keys.card := by
  rw [← List.toFinset_card_of_nodup spells.nodup]
  refine Finset.card_le_card fun addr member => ?_
  exact Finmap.mem_keys.mpr (mem_of_nodeAt (spells.live addr (List.mem_toFinset.mp member)))

theorem frame (spells : Spells memory start addrs)
    (same : ∀ addr ∈ addrs, memory'.lookup addr = memory.lookup addr) :
    Spells memory' start addrs where
  linked := spells.linked.congr fun addr member => by
    rw [nextOf, nextOf, nodeAt_congr (same addr member)]
  live addr member := by
    rw [nodeAt_congr (same addr member)]
    exact spells.live addr member

end Spells

theorem items_congr {addrs : List Nat}
    (same : ∀ addr ∈ addrs, memory'.lookup addr = memory.lookup addr) :
    items memory' addrs = items memory addrs :=
  List.filterMap_congr fun addr member => by
    rw [itemOf, itemOf, nodeAt_congr (same addr member)]

theorem items_append (front back : List Nat) :
    items memory (front ++ back) = items memory front ++ items memory back :=
  List.filterMap_append

theorem items_cons {addr : Nat} {item : α} {next : Option Nat}
    (found : nodeAt memory addr = some (item, next)) (addrs : List Nat) :
    items memory (addr :: addrs) = item :: items memory addrs := by
  rw [items, List.filterMap_cons, itemOf, found]
  rfl

/-! ## What walks find -/

namespace Spells

variable {start : Option Nat} {addr : Nat} {addrs front back : List Nat} {fuel : Nat}

theorem length_items (spells : Spells memory start addrs) :
    (items memory addrs).length = addrs.length := by
  induction addrs generalizing start with
  | nil => rfl
  | cons addr addrs ih =>
      obtain ⟨-, item, next, found, rest⟩ := spells.cons
      rw [items_cons found, List.length_cons, List.length_cons, ih rest]

theorem mapM_itemOf (spells : Spells memory start addrs) :
    addrs.mapM (itemOf memory) = some (items memory addrs) := by
  induction addrs generalizing start with
  | nil => rfl
  | cons addr addrs ih =>
      obtain ⟨-, item, next, found, rest⟩ := spells.cons
      rw [List.mapM_cons, ih rest, items_cons found, itemOf, found]
      rfl

theorem collect_eq (spells : Spells memory start addrs) (enough : addrs.length ≤ fuel) :
    collect memory fuel start = some addrs := by
  induction addrs generalizing start fuel with
  | nil =>
      obtain rfl : start = none := spells.linked
      cases fuel <;> rfl
  | cons addr addrs ih =>
      obtain ⟨rfl, item, next, found, rest⟩ := spells.cons
      obtain ⟨fuel, rfl⟩ := Nat.exists_eq_succ_of_ne_zero (Nat.ne_of_gt (Nat.lt_of_lt_of_le
        (Nat.succ_pos addrs.length) enough))
      rw [collect, found]
      simp only [ih rest (Nat.le_of_succ_le_succ enough), Option.map_some]

/-- A search finds a node exactly if an item passes the test. -/
theorem find_eq (spells : Spells memory start addrs) (test : α → Bool)
    (enough : addrs.length ≤ fuel) :
    ∃ found, find memory test fuel start = some found ∧
      found.isSome = (items memory addrs).any test := by
  induction addrs generalizing start fuel with
  | nil =>
      obtain rfl : start = none := spells.linked
      exact ⟨none, by cases fuel <;> rfl, rfl⟩
  | cons addr addrs ih =>
      obtain ⟨rfl, item, next, found, rest⟩ := spells.cons
      obtain ⟨fuel, rfl⟩ := Nat.exists_eq_succ_of_ne_zero (Nat.ne_of_gt (Nat.lt_of_lt_of_le
        (Nat.succ_pos addrs.length) enough))
      rw [find, found, items_cons found, List.any_cons]
      cases passes : test item with
      | true => exact ⟨some addr, by simp [passes], rfl⟩
      | false =>
          obtain ⟨later, searched, same⟩ := ih rest (Nat.le_of_succ_le_succ enough)
          exact ⟨later, by simp [passes, searched], by simpa using same⟩

/-- A remembering search stops at the first node whose item passes the test. -/
theorem findPrev_eq (spells : Spells memory start addrs) (test : α → Bool)
    (enough : addrs.length ≤ fuel) (prev : Option Nat) :
    (findPrev memory test fuel prev start = some none ∧ (items memory addrs).any test = false) ∨
    ∃ front addr back item, addrs = front ++ addr :: back ∧
      findPrev memory test fuel prev start =
        some (some (front.getLast?.or prev, addr, nextOf memory addr)) ∧
      itemOf memory addr = some item ∧ test item = true ∧
      ∀ other ∈ items memory front, test other = false := by
  induction addrs generalizing start fuel prev with
  | nil =>
      obtain rfl : start = none := spells.linked
      exact .inl ⟨by cases fuel <;> rfl, rfl⟩
  | cons addr addrs ih =>
      obtain ⟨rfl, item, next, found, rest⟩ := spells.cons
      obtain ⟨fuel, rfl⟩ := Nat.exists_eq_succ_of_ne_zero (Nat.ne_of_gt (Nat.lt_of_lt_of_le
        (Nat.succ_pos addrs.length) enough))
      rw [findPrev, found, items_cons found, List.any_cons]
      cases passes : test item with
      | true =>
          refine .inr ⟨[], addr, addrs, item, rfl, ?_, ?_, passes, by simp [items]⟩
          · simp [passes, nextOf, found]
          · rw [itemOf, found]
            rfl
      | false =>
          rcases ih rest (Nat.le_of_succ_le_succ enough) (some addr) with
            ⟨searched, fails⟩ | ⟨front, node, back, item', rfl, searched, held, passes', fails⟩
          · exact .inl ⟨by simp [passes, searched], by simpa using fails⟩
          · refine .inr ⟨addr :: front, node, back, item', rfl, ?_, held, passes', ?_⟩
            · have last : (addr :: front).getLast?.or prev = front.getLast?.or (some addr) := by
                rw [List.getLast?_cons, Option.some_or]
                cases front.getLast? <;> rfl
              simp [passes, searched, last]
            · rw [items_cons found]
              intro other member
              rcases List.mem_cons.mp member with rfl | member
              · exact passes
              · exact fails other member

theorem freeAll_eq (spells : Spells memory start addrs) (enough : addrs.length ≤ fuel) :
    ∃ after, freeAll fuel memory start = some after ∧ Erased memory addrs after := by
  induction addrs generalizing start fuel memory with
  | nil =>
      obtain rfl : start = none := spells.linked
      exact ⟨memory, by cases fuel <;> rfl, .refl memory⟩
  | cons addr addrs ih =>
      obtain ⟨apart, -⟩ := List.nodup_cons.mp spells.nodup
      obtain ⟨rfl, item, next, found, rest⟩ := spells.cons
      obtain ⟨fuel, rfl⟩ := Nat.exists_eq_succ_of_ne_zero (Nat.ne_of_gt (Nat.lt_of_lt_of_le
        (Nat.succ_pos addrs.length) enough))
      have rest' : Spells (memory.erase addr) next addrs := rest.frame fun other member =>
        Finmap.lookup_erase_ne fun same => apart (same ▸ member)
      obtain ⟨after, freed, erased⟩ := ih rest' (Nat.le_of_succ_le_succ enough)
      exact ⟨after, by rw [freeAll, found]; exact freed, (Erased.erase memory addr).trans erased⟩

theorem push (spells : Spells memory start addrs) (fresh : addr ∉ memory) (item : α) :
    Spells (memory.insert addr (.node item start)) (some addr) (addr :: addrs) := by
  have apart (other : Nat) (member : other ∈ addrs) : other ≠ addr := fun same =>
    fresh (same ▸ mem_of_nodeAt (spells.live other member))
  have rest : Spells (memory.insert addr (.node item start)) start addrs :=
    spells.frame fun other member => Finmap.lookup_insert_of_ne memory (apart other member)
  have found : nodeAt (memory.insert addr (.node item start)) addr = some (item, start) :=
    nodeAt_insert addr item start
  refine ⟨⟨rfl, ?_⟩, ?_⟩
  · rw [nextOf, found]
    exact rest.linked
  · intro other member
    rcases List.mem_cons.mp member with rfl | member
    · rw [found]
      rfl
    · exact rest.live other member

theorem unlink_eq (spells : Spells memory start (front ++ addr :: back)) :
    ∃ after, unlink memory front.getLast? addr (nextOf memory addr) = some after ∧
      Spells after (if front.getLast? = none then nextOf memory addr else start) (front ++ back) ∧
      items after (front ++ back) = items memory (front ++ back) ∧
      (∀ other ∉ front ++ addr :: back, after.lookup other = memory.lookup other) ∧
      ∀ other, other ∈ after ↔ other ∈ memory ∧ other ≠ addr := by
  have distinct := spells.nodup
  have apart : ∀ other ∈ front ++ back, other ≠ addr := by
    rintro other member rfl
    rw [List.nodup_append] at distinct
    rcases List.mem_append.mp member with before | behind
    · exact distinct.2.2 other before other List.mem_cons_self rfl
    · exact (List.nodup_cons.mp distinct.2.1).1 behind
  have chain := spells.linked.unlink
  have kept (after : Memory (Block α β)) (read : ∀ other, nodeAt after other =
      if other = addr then none else (nodeAt memory other).map fun node =>
        (node.1, if front.getLast? = some other then nextOf memory addr else node.2)) :
      Spells after (if front.getLast? = none then nextOf memory addr else start) (front ++ back) ∧
        items after (front ++ back) = items memory (front ++ back) := by
    refine ⟨⟨chain.congr fun other member => ?_, fun other member => ?_⟩,
      List.filterMap_congr fun other member => ?_⟩
    · have live : (nodeAt memory other).isSome := by
        refine spells.live other ?_
        simp only [List.mem_append, List.mem_cons] at member ⊢
        tauto
      obtain ⟨node, found⟩ := Option.isSome_iff_exists.mp live
      rw [nextOf, read, if_neg (apart other member), found]
      cases last : front.getLast? with
      | none => simp [Chain.redirect, nextOf, found]
      | some prev =>
          by_cases same : prev = other
          · simp [Chain.redirect, same]
          · simp [Chain.redirect, same, Ne.symm same, nextOf, found]
    · rw [read, if_neg (apart other member), Option.isSome_map]
      refine spells.live other ?_
      simp only [List.mem_append, List.mem_cons] at member ⊢
      tauto
    · rw [itemOf, read, if_neg (apart other member), itemOf, Option.map_map]
      rfl
  cases last : front.getLast? with
  | none =>
      rw [last] at kept
      have read (other : Nat) : nodeAt (memory.erase addr) other = if other = addr then none
          else (nodeAt memory other).map fun node =>
            (node.1, if (none : Option Nat) = some other then nextOf memory addr else node.2) := by
        by_cases same : other = addr
        · rw [if_pos same, same, nodeAt, Finmap.lookup_erase]
        · rw [if_neg same, nodeAt_congr (Finmap.lookup_erase_ne same)]
          simp
      refine ⟨memory.erase addr, rfl, (kept _ read).1, (kept _ read).2,
        fun other outside => ?_, fun other => ?_⟩
      · refine Finmap.lookup_erase_ne fun same => outside ?_
        simp [same]
      · rw [Finmap.mem_erase, and_comm]
  | some prev =>
      rw [last] at kept
      have before : prev ∈ front := List.mem_of_getLast? last
      obtain ⟨node, found⟩ := Option.isSome_iff_exists.mp
        (spells.live prev (List.mem_append_left _ before))
      have different : prev ≠ addr := apart prev (List.mem_append_left _ before)
      let written := memory.insert prev (.node node.1 (nextOf memory addr))
      have lookup {other : Nat} (first : other ≠ addr) (second : other ≠ prev) :
          (written.erase addr).lookup other = memory.lookup other := by
        rw [Finmap.lookup_erase_ne first, Finmap.lookup_insert_of_ne memory second]
      have read (other : Nat) : nodeAt (written.erase addr) other = if other = addr then none
          else (nodeAt memory other).map fun node =>
            (node.1, if some prev = some other then nextOf memory addr else node.2) := by
        by_cases same : other = addr
        · rw [if_pos same, same, nodeAt, Finmap.lookup_erase]
        · rw [if_neg same]
          by_cases here : other = prev
          · rw [nodeAt_congr (Finmap.lookup_erase_ne same), here, nodeAt_insert, found]
            simp
          · rw [nodeAt_congr (lookup same here)]
            simp [Ne.symm here]
      refine ⟨written.erase addr, ?_, (kept _ read).1, (kept _ read).2,
        fun other outside => ?_, fun other => ?_⟩
      · rw [unlink, setNext, found]
        rfl
      · simp only [List.mem_append, List.mem_cons, not_or] at outside
        refine lookup outside.2.1 fun same => outside.1 (same ▸ before)
      · rw [Finmap.mem_erase, Finmap.mem_insert]
        have present : prev ∈ memory := mem_of_nodeAt (by rw [found]; rfl)
        constructor
        · rintro ⟨other_ne, rfl | member⟩
          · exact ⟨present, other_ne⟩
          · exact ⟨member, other_ne⟩
        · rintro ⟨member, other_ne⟩
          exact ⟨other_ne, .inr member⟩

end Spells

/-! ## Owners -/

variable {ι γ : Type*} {store store' : Memory γ} {blocks : ι → List Nat}

/-- Every allocated block has one owner, and every block of an owner is allocated. -/
structure Owns (store : Memory γ) (blocks : ι → List Nat) : Prop where
  distinct : ∀ owner, (blocks owner).Nodup
  apart : ∀ {owner other addr}, addr ∈ blocks owner → addr ∈ blocks other → owner = other
  live : ∀ addr, addr ∈ store ↔ ∃ owner, addr ∈ blocks owner

namespace Owns

theorem empty : Owns (∅ : Memory γ) fun _ : ι => [] where
  distinct _ := List.nodup_nil
  apart member := absurd member List.not_mem_nil
  live addr := by simp [Finmap.notMem_empty]

variable [DecidableEq ι]

theorem alloc (owns : Owns store blocks) {addr : Nat} (fresh : addr ∉ store) (owner : ι)
    (content : γ) :
    Owns (store.insert addr content) (Function.update blocks owner (addr :: blocks owner)) := by
  have nobody (other : ι) : addr ∉ blocks other := fun member =>
    fresh ((owns.live addr).mpr ⟨other, member⟩)
  have member_iff (other : ι) (place : Nat) :
      place ∈ Function.update blocks owner (addr :: blocks owner) other ↔
        (place = addr ∧ other = owner) ∨ place ∈ blocks other := by
    by_cases same : other = owner
    · subst same
      simp
    · simp [same]
  refine ⟨fun other => ?_, fun {other another place} mine theirs => ?_, fun place => ?_⟩
  · by_cases same : other = owner
    · subst same
      rw [Function.update_self]
      exact List.nodup_cons.mpr ⟨nobody other, owns.distinct other⟩
    · rw [Function.update_of_ne same]
      exact owns.distinct other
  · rw [member_iff] at mine theirs
    rcases mine with ⟨rfl, rfl⟩ | mine
    · rcases theirs with ⟨-, rfl⟩ | theirs
      · rfl
      · exact absurd theirs (nobody another)
    · rcases theirs with ⟨rfl, rfl⟩ | theirs
      · exact absurd mine (nobody other)
      · exact owns.apart mine theirs
  · rw [Finmap.mem_insert, owns.live]
    simp only [member_iff]
    constructor
    · rintro (rfl | ⟨other, member⟩)
      · exact ⟨owner, .inl ⟨rfl, rfl⟩⟩
      · exact ⟨other, .inr member⟩
    · rintro ⟨other, ⟨rfl, -⟩ | member⟩
      · exact .inl rfl
      · exact .inr ⟨other, member⟩

theorem free (owns : Owns store blocks) {owner : ι} {kept : List Nat}
    (within : kept.Sublist (blocks owner))
    (left : ∀ addr, addr ∈ store' ↔ addr ∈ store ∧ (addr ∈ blocks owner → addr ∈ kept)) :
    Owns store' (Function.update blocks owner kept) := by
  have member_iff (other : ι) (addr : Nat) : addr ∈ Function.update blocks owner kept other ↔
      addr ∈ blocks other ∧ (addr ∈ blocks owner → addr ∈ kept) := by
    by_cases same : other = owner
    · subst same
      rw [Function.update_self]
      exact ⟨fun member => ⟨within.subset member, fun _ => member⟩, fun both => both.2 both.1⟩
    · rw [Function.update_of_ne same]
      refine ⟨fun member => ⟨member, fun mine => ?_⟩, fun both => both.1⟩
      exact absurd (owns.apart member mine) same
  refine ⟨fun other => ?_, fun mine theirs => ?_, fun addr => ?_⟩
  · by_cases same : other = owner
    · subst same
      rw [Function.update_self]
      exact (owns.distinct other).sublist within
    · rw [Function.update_of_ne same]
      exact owns.distinct other
  · rw [member_iff] at mine theirs
    exact owns.apart mine.1 theirs.1
  · rw [left, owns.live]
    simp only [member_iff]
    exact exists_and_right.symm

omit [DecidableEq ι]

theorem card_keys (owns : Owns store blocks) {owners : List ι} (distinct : owners.Nodup)
    (complete : ∀ owner, blocks owner ≠ [] → owner ∈ owners) :
    store.keys.card = (owners.map fun owner => (blocks owner).length).sum := by
  have whole : store.keys = (owners.flatMap blocks).toFinset := by
    ext addr
    rw [Finmap.mem_keys, owns.live, List.mem_toFinset, List.mem_flatMap]
    constructor
    · rintro ⟨owner, member⟩
      exact ⟨owner, complete owner (List.ne_nil_of_mem member), member⟩
    · rintro ⟨owner, -, member⟩
      exact ⟨owner, member⟩
  have once : (owners.flatMap blocks).Nodup := by
    refine List.nodup_flatMap.mpr ⟨fun owner _ => owns.distinct owner, ?_⟩
    refine distinct.imp fun different addr mine theirs => ?_
    exact different (owns.apart mine theirs)
  rw [whole, List.toFinset_card_of_nodup once, List.length_flatMap]

end Owns

end CodexNos.Lib.Blocks
