import Mathlib.Tactic

/-!
# Array-backed binary heaps

A level-order array over an arbitrary type, ordered by a key into a linear order.  The two sifts
move one element along an ancestor or a descendant path by swaps, so they permute the array.  Order
is stated from a level `floor` on, because rebuilding a heap bottom-up restores the edges with the
larger parents first.
-/

namespace CodexNos.Lib.BinaryHeap

variable {α κ : Type*} [LinearOrder κ]

/-- Edges whose parent index is at least `floor` are ordered by the key. -/
def OrderedFrom (key : α → κ) (floor : Nat) (nodes : Array α) : Prop :=
  ∀ child, (inside : child < nodes.size) → 0 < child → floor ≤ (child - 1) / 2 →
    key nodes[(child - 1) / 2] ≤ key nodes[child]

/-- Every non-root element has a key at least that of its parent. -/
def Ordered (key : α → κ) (nodes : Array α) : Prop :=
  ∀ child, (inside : child < nodes.size) → 0 < child →
    key nodes[(child - 1) / 2] ≤ key nodes[child]

theorem ordered_iff_orderedFrom_zero (key : α → κ) (nodes : Array α) :
    Ordered key nodes ↔ OrderedFrom key 0 nodes := by
  constructor
  · intro ordered child inside positive _
    exact ordered child inside positive
  · intro ordered child inside positive
    exact ordered child inside positive (Nat.zero_le _)

theorem Ordered.root_le {key : α → κ} {nodes : Array α} (ordered : Ordered key nodes)
    (index : Nat) (inside : index < nodes.size) :
    key nodes[0] ≤ key nodes[index] := by
  induction index using Nat.strongRecOn with
  | ind index ih =>
      rcases Nat.eq_zero_or_pos index with rfl | positive
      · exact le_rfl
      · have parent_lt : (index - 1) / 2 < index := by omega
        exact (ih _ parent_lt (by omega)).trans (ordered index inside positive)

/-- Order only depends on the keys of the stored elements. -/
theorem Ordered.congr_key {key key' : α → κ} {nodes : Array α} (ordered : Ordered key nodes)
    (agree : ∀ node ∈ nodes, key' node = key node) : Ordered key' nodes := by
  intro child inside positive
  rw [agree _ (Array.getElem_mem _), agree _ (Array.getElem_mem _)]
  exact ordered child inside positive

/-! ## Sifting up -/

/-- Swap the element at `index` with its parent while its key is smaller. -/
def siftUp (key : α → κ) (nodes : Array α) (index : Nat) : Array α :=
  if bound : 0 < index ∧ index < nodes.size then
    have inside : index < nodes.size := bound.2
    have parent_inside : (index - 1) / 2 < nodes.size := by omega
    if key nodes[(index - 1) / 2] ≤ key nodes[index] then nodes
    else siftUp key (nodes.swap index ((index - 1) / 2)) ((index - 1) / 2)
  else nodes
termination_by index
decreasing_by omega

theorem siftUp_perm (key : α → κ) (nodes : Array α) (index : Nat) :
    (siftUp key nodes index).Perm nodes := by
  induction nodes, index using siftUp.induct key with
  | case1 nodes index bound inside parent_inside small =>
      rw [siftUp, dif_pos bound, if_pos small]
  | case2 nodes index bound inside parent_inside large ih =>
      rw [siftUp, dif_pos bound, if_neg large]
      exact ih.trans (Array.swap_perm inside parent_inside)
  | case3 nodes index bound =>
      rw [siftUp, dif_neg bound]

@[simp]
theorem siftUp_size (key : α → κ) (nodes : Array α) (index : Nat) :
    (siftUp key nodes index).size = nodes.size :=
  (siftUp_perm key nodes index).size_eq

/-- Only the edge into `index` may be wrong, and lowering its parent there is safe. -/
structure UpReady (key : α → κ) (nodes : Array α) (index : Nat) : Prop where
  /-- The moving element is in the heap. -/
  inside : index < nodes.size
  /-- Every other edge is ordered. -/
  edges : ∀ child, (bound : child < nodes.size) → 0 < child → child ≠ index →
    key nodes[(child - 1) / 2] ≤ key nodes[child]
  /-- The children of `index` are not below its parent. -/
  grand : ∀ child, (bound : child < nodes.size) → 0 < child → (child - 1) / 2 = index → 0 < index →
    key nodes[(index - 1) / 2] ≤ key nodes[child]

theorem UpReady.swap {key : α → κ} {nodes : Array α} {index : Nat}
    (ready : UpReady key nodes index) (positive : 0 < index)
    (inside : index < nodes.size) (parent_inside : (index - 1) / 2 < nodes.size)
    (large : ¬ key nodes[(index - 1) / 2] ≤ key nodes[index]) :
    UpReady key (nodes.swap index ((index - 1) / 2)) ((index - 1) / 2) := by
  have below : key nodes[index] ≤ key nodes[(index - 1) / 2] := le_of_not_ge large
  refine ⟨by simpa using parent_inside, ?_, ?_⟩
  · intro child bound child_positive child_ne
    have child_inside : child < nodes.size := by simpa using bound
    have edge := ready.edges child child_inside child_positive
    have grand := ready.grand child child_inside child_positive
    simp only [Array.getElem_swap]
    by_cases same : child = index
    · subst same
      have parent_ne : (child - 1) / 2 ≠ child := by omega
      simpa [parent_ne] using below
    · by_cases under : (child - 1) / 2 = index
      · simpa [same, under, child_ne] using grand under positive
      · by_cases sibling : (child - 1) / 2 = (index - 1) / 2
        · have parent_ne : (index - 1) / 2 ≠ index := by omega
          have ordered := edge same
          simp only [sibling] at ordered
          simpa [same, child_ne, sibling, parent_ne] using below.trans ordered
        · simpa [same, child_ne, under, sibling] using edge same
  · intro child bound child_positive child_parent parent_positive
    have child_inside : child < nodes.size := by simpa using bound
    have parent_ne : (index - 1) / 2 ≠ index := by omega
    have upper := ready.edges ((index - 1) / 2) parent_inside parent_positive parent_ne
    have top_ne : ((index - 1) / 2 - 1) / 2 ≠ index := by omega
    have top_ne' : ((index - 1) / 2 - 1) / 2 ≠ (index - 1) / 2 := by omega
    simp only [Array.getElem_swap]
    by_cases same : child = index
    · simpa [same, top_ne, top_ne'] using upper
    · have child_ne : child ≠ (index - 1) / 2 := by omega
      have edge := ready.edges child child_inside child_positive same
      simp only [child_parent] at edge
      simpa [same, child_ne, top_ne, top_ne'] using upper.trans edge

theorem siftUp_ordered {key : α → κ} {nodes : Array α} {index : Nat}
    (ready : UpReady key nodes index) : Ordered key (siftUp key nodes index) := by
  induction nodes, index using siftUp.induct key with
  | case1 nodes index bound inside parent_inside small =>
      rw [siftUp, dif_pos bound, if_pos small]
      intro child child_inside positive
      by_cases same : child = index
      · subst same
        exact small
      · exact ready.edges child child_inside positive same
  | case2 nodes index bound inside parent_inside large ih =>
      rw [siftUp, dif_pos bound, if_neg large]
      exact ih (ready.swap bound.1 inside parent_inside large)
  | case3 nodes index bound =>
      rw [siftUp, dif_neg bound]
      intro child child_inside positive
      have root : index = 0 := by
        have inside := ready.inside
        omega
      exact ready.edges child child_inside positive (by omega)

theorem Ordered.push_siftUp {key : α → κ} {nodes : Array α} (ordered : Ordered key nodes)
    (node : α) : Ordered key (siftUp key (nodes.push node) nodes.size) := by
  apply siftUp_ordered
  refine ⟨by simp, ?_, ?_⟩
  · intro child bound positive child_ne
    have inside : child < nodes.size := by
      rw [Array.size_push] at bound
      omega
    have parent_inside : (child - 1) / 2 < nodes.size := by omega
    simpa [Array.getElem_push_lt inside, Array.getElem_push_lt parent_inside] using
      ordered child inside positive
  · intro child bound positive child_parent _
    rw [Array.size_push] at bound
    omega

/-! ## Sifting down -/

/-- The child of `index` with the smaller key, the left one on a tie. -/
def smallest (key : α → κ) (nodes : Array α) (index : Nat)
    (left_inside : index * 2 + 1 < nodes.size) : Nat :=
  if right_inside : index * 2 + 2 < nodes.size then
    if key nodes[index * 2 + 2] < key nodes[index * 2 + 1] then index * 2 + 2 else index * 2 + 1
  else index * 2 + 1

theorem smallest_bounds (key : α → κ) (nodes : Array α) (index : Nat)
    (left_inside : index * 2 + 1 < nodes.size) :
    index < smallest key nodes index left_inside ∧
      smallest key nodes index left_inside < nodes.size ∧
      (smallest key nodes index left_inside - 1) / 2 = index := by
  unfold smallest
  split
  · split <;> omega
  · omega

/-- No child of `index` has a key below the selected one. -/
theorem smallest_le {key : α → κ} {nodes : Array α} {index : Nat}
    {left_inside : index * 2 + 1 < nodes.size} {least : Nat}
    (least_eq : smallest key nodes index left_inside = least) (least_inside : least < nodes.size)
    (child : Nat) (inside : child < nodes.size) (positive : 0 < child)
    (parent : (child - 1) / 2 = index) : key nodes[least] ≤ key nodes[child] := by
  have sides : child = index * 2 + 1 ∨ child = index * 2 + 2 := by omega
  unfold smallest at least_eq
  split at least_eq
  · split at least_eq <;> subst least_eq <;> rcases sides with rfl | rfl
    · exact le_of_lt ‹_›
    · exact le_rfl
    · exact le_rfl
    · exact le_of_not_gt ‹_›
  · subst least_eq
    rcases sides with rfl | rfl
    · exact le_rfl
    · omega

/-- Swap the element at `index` with its smaller child while that child has a smaller key. -/
def siftDown (key : α → κ) (nodes : Array α) (index : Nat) : Array α :=
  if left_inside : index * 2 + 1 < nodes.size then
    have bounds := smallest_bounds key nodes index left_inside
    have least_inside : smallest key nodes index left_inside < nodes.size := bounds.2.1
    have inside : index < nodes.size := by omega
    if key nodes[index] ≤ key nodes[smallest key nodes index left_inside] then nodes
    else
      siftDown key (nodes.swap index (smallest key nodes index left_inside))
        (smallest key nodes index left_inside)
  else nodes
termination_by nodes.size - index
decreasing_by
  simp only [Array.size_swap]
  omega

theorem siftDown_perm (key : α → κ) (nodes : Array α) (index : Nat) :
    (siftDown key nodes index).Perm nodes := by
  induction nodes, index using siftDown.induct key with
  | case1 nodes index left_inside bounds least_inside inside small =>
      rw [siftDown, dif_pos left_inside, if_pos small]
  | case2 nodes index left_inside bounds least_inside inside large ih =>
      rw [siftDown, dif_pos left_inside, if_neg large]
      exact ih.trans (Array.swap_perm inside least_inside)
  | case3 nodes index left_inside =>
      rw [siftDown, dif_neg left_inside]

@[simp]
theorem siftDown_size (key : α → κ) (nodes : Array α) (index : Nat) :
    (siftDown key nodes index).size = nodes.size :=
  (siftDown_perm key nodes index).size_eq

/-- From `floor` on only the edges out of `index` may be wrong, and lifting a child there is
safe. -/
structure DownReady (key : α → κ) (floor : Nat) (nodes : Array α) (index : Nat) : Prop where
  /-- Every edge from `floor` on that does not leave `index` is ordered. -/
  edges : ∀ child, (bound : child < nodes.size) → 0 < child → floor ≤ (child - 1) / 2 →
    (child - 1) / 2 ≠ index → key nodes[(child - 1) / 2] ≤ key nodes[child]
  /-- The children of `index` are not below its parent. -/
  grand : ∀ child, (bound : child < nodes.size) → 0 < child → (under : (child - 1) / 2 = index) →
    0 < index → floor ≤ (index - 1) / 2 → key nodes[(index - 1) / 2] ≤ key nodes[child]

theorem DownReady.swap {key : α → κ} {floor : Nat} {nodes : Array α} {index least : Nat}
    (ready : DownReady key floor nodes index) (inside : index < nodes.size)
    (least_inside : least < nodes.size) (least_positive : 0 < least)
    (least_parent : (least - 1) / 2 = index)
    (least_le : ∀ child, (bound : child < nodes.size) → 0 < child → (child - 1) / 2 = index →
      key nodes[least] ≤ key nodes[child])
    (large : ¬ key nodes[index] ≤ key nodes[least]) :
    DownReady key floor (nodes.swap index least) least := by
  have below : key nodes[least] ≤ key nodes[index] := le_of_not_ge large
  have least_ne : least ≠ index := by omega
  refine ⟨?_, ?_⟩
  · intro child bound positive above child_parent
    have child_inside : child < nodes.size := by simpa using bound
    simp only [Array.getElem_swap]
    by_cases under : (child - 1) / 2 = index
    · have child_ne : child ≠ index := by omega
      by_cases same : child = least
      · simpa [under, same, least_ne, least_parent] using below
      · simpa [under, same, child_ne] using least_le child child_inside positive under
    · have edge := ready.edges child child_inside positive above under
      by_cases same : child = index
      · subst same
        simpa [under, child_parent] using
          ready.grand least least_inside least_positive least_parent positive above
      · have child_ne : child ≠ least := by
          rintro rfl
          exact under least_parent
        simpa [under, child_parent, same, child_ne] using edge
  · intro child bound positive child_parent _ above
    have child_inside : child < nodes.size := by simpa using bound
    have child_ne : child ≠ index := by omega
    have child_ne' : child ≠ least := by omega
    have parent_ne : (child - 1) / 2 ≠ index := by omega
    have edge := ready.edges child child_inside positive (by omega) parent_ne
    simp only [child_parent] at edge
    simp only [Array.getElem_swap]
    simpa [least_parent, child_ne, child_ne'] using edge

/-- Sifting down restores the order of every edge from `floor` on. -/
theorem siftDown_orderedFrom {key : α → κ} {floor : Nat} {nodes : Array α} {index : Nat}
    (ready : DownReady key floor nodes index) :
    OrderedFrom key floor (siftDown key nodes index) := by
  induction nodes, index using siftDown.induct key with
  | case1 nodes index left_inside bounds least_inside inside small =>
      rw [siftDown, dif_pos left_inside, if_pos small]
      intro child child_inside positive above
      by_cases under : (child - 1) / 2 = index
      · have least := smallest_le rfl least_inside child child_inside positive under
        simpa only [under] using small.trans least
      · exact ready.edges child child_inside positive above under
  | case2 nodes index left_inside bounds least_inside inside large ih =>
      rw [siftDown, dif_pos left_inside, if_neg large]
      apply ih
      apply ready.swap inside least_inside (by omega) bounds.2.2 _ large
      intro child child_inside positive under
      exact smallest_le rfl least_inside child child_inside positive under
  | case3 nodes index left_inside =>
      rw [siftDown, dif_neg left_inside]
      intro child child_inside positive above
      exact ready.edges child child_inside positive above (by omega)

/-- An element with a key not above those of its children stays where it is. -/
theorem siftDown_eq_self {key : α → κ} {nodes : Array α} {index : Nat}
    (least : ∀ child, (bound : child < nodes.size) → 0 < child → (child - 1) / 2 = index →
      ∀ inside : index < nodes.size, key nodes[index] ≤ key nodes[child]) :
    siftDown key nodes index = nodes := by
  rw [siftDown]
  split
  · rename_i left_inside
    have bounds := smallest_bounds key nodes index left_inside
    rw [if_pos (least _ bounds.2.1 (by omega) bounds.2.2 (by omega))]
  · rfl

/-! ## Removal -/

/-- Overwrite the element at `index` by the last one and drop the last place. -/
def removeAt (nodes : Array α) (index : Nat) (inside : index < nodes.size) : Array α :=
  (nodes.set index nodes[nodes.size - 1]).pop

@[simp]
theorem removeAt_size (nodes : Array α) (index : Nat) (inside : index < nodes.size) :
    (removeAt nodes index inside).size = nodes.size - 1 := by
  simp [removeAt]

theorem getElem_removeAt (nodes : Array α) (index : Nat) (inside : index < nodes.size)
    (place : Nat) (bound : place < (removeAt nodes index inside).size)
    (place_inside : place < nodes.size) :
    (removeAt nodes index inside)[place] =
      if place = index then nodes[nodes.size - 1] else nodes[place] := by
  simp only [removeAt, Array.getElem_pop, Array.getElem_set]
  by_cases same : index = place
  · simp [same]
  · simp [same, Ne.symm same]

theorem removeAt_perm (nodes : Array α) (index : Nat) (inside : index < nodes.size) :
    (nodes[index] :: (removeAt nodes index inside).toList).Perm nodes.toList := by
  have last_inside : nodes.size - 1 < nodes.size := by omega
  have split : nodes.swap index (nodes.size - 1) = (removeAt nodes index inside).push nodes[index] := by
    apply Array.ext
    · simp
      omega
    · intro place before after
      have place_inside : place < nodes.size := by simpa using before
      rw [Array.getElem_swap, Array.getElem_push]
      split
      · rename_i same
        subst same
        split
        · rw [getElem_removeAt _ _ _ _ _ place_inside, if_pos rfl]
        · rename_i outside
          have last : place = nodes.size - 1 := by
            rw [removeAt_size] at outside
            omega
          simp only [← last]
      · rename_i other
        split
        · rename_i last
          rw [dif_neg (by rw [removeAt_size]; omega)]
        · rename_i inner
          rw [dif_pos (by rw [removeAt_size]; omega), getElem_removeAt _ _ _ _ _ place_inside,
            if_neg other]
  have swapped : (nodes.swap index (nodes.size - 1)).toList.Perm nodes.toList :=
    (Array.swap_perm inside last_inside).toList
  rw [split, Array.toList_push] at swapped
  exact (List.perm_append_singleton _ _).symm.trans swapped

theorem mem_removeAt_siftDown (key : α → κ) {nodes : Array α} {index : Nat}
    (inside : index < nodes.size) (distinct : nodes.toList.Nodup) (node : α) :
    node ∈ siftDown key (removeAt nodes index inside) index ↔
      node ∈ nodes ∧ node ≠ nodes[index] := by
  have split := removeAt_perm nodes index inside
  have parts := List.nodup_cons.mp (split.nodup_iff.mpr distinct)
  have member : node ∈ nodes ↔ node = nodes[index] ∨ node ∈ removeAt nodes index inside := by
    rw [← Array.mem_toList_iff, ← split.mem_iff, List.mem_cons, Array.mem_toList_iff]
  rw [(siftDown_perm key _ index).mem_iff, member]
  constructor
  · intro remains
    refine ⟨Or.inr remains, ?_⟩
    rintro rfl
    exact parts.1 (Array.mem_toList_iff.mpr remains)
  · rintro ⟨rfl | remains, other⟩
    · exact absurd rfl other
    · exact remains

theorem nodup_removeAt_siftDown (key : α → κ) {nodes : Array α} {index : Nat}
    (inside : index < nodes.size) (distinct : nodes.toList.Nodup) :
    (siftDown key (removeAt nodes index inside) index).toList.Nodup := by
  rw [(siftDown_perm key _ index).toList.nodup_iff]
  exact (List.nodup_cons.mp ((removeAt_perm nodes index inside).nodup_iff.mpr distinct)).2

theorem Ordered.downReady_removeAt {key : α → κ} {nodes : Array α} (ordered : Ordered key nodes)
    {index : Nat} (inside : index < nodes.size)
    (late : 0 < index → key nodes[(index - 1) / 2] ≤ key nodes[nodes.size - 1]) :
    DownReady key 0 (removeAt nodes index inside) index := by
  refine ⟨?_, ?_⟩
  · intro child bound positive _ child_parent
    have child_inside : child < nodes.size := by
      rw [removeAt_size] at bound
      omega
    rw [getElem_removeAt _ _ _ _ _ child_inside, getElem_removeAt _ _ _ _ _ (by omega),
      if_neg child_parent]
    by_cases same : child = index
    · subst same
      simpa using late positive
    · simpa [same] using ordered child child_inside positive
  · intro child bound positive under index_positive _
    have child_inside : child < nodes.size := by
      rw [removeAt_size] at bound
      omega
    have child_ne : child ≠ index := by omega
    have parent_ne : (index - 1) / 2 ≠ index := by omega
    rw [getElem_removeAt _ _ _ _ _ child_inside, getElem_removeAt _ _ _ _ _ (by omega),
      if_neg child_ne, if_neg parent_ne]
    have lower := ordered child child_inside positive
    simp only [under] at lower
    exact (ordered index inside index_positive).trans lower

/-- Replacing an element by the last one and sifting down only keeps the order exactly when the
last element is not below the parent of the vacated place. -/
theorem Ordered.removeAt_siftDown_iff {key : α → κ} {nodes : Array α} (ordered : Ordered key nodes)
    {index : Nat} (inside : index < nodes.size) :
    Ordered key (siftDown key (removeAt nodes index inside) index) ↔
      (0 < index → key nodes[(index - 1) / 2] ≤ key nodes[nodes.size - 1]) := by
  constructor
  · intro kept positive
    by_contra early
    have below : key nodes[nodes.size - 1] < key nodes[(index - 1) / 2] := lt_of_not_ge early
    have not_last : index ≠ nodes.size - 1 := by
      rintro rfl
      exact early (ordered _ inside positive)
    have stays : siftDown key (removeAt nodes index inside) index = removeAt nodes index inside := by
      apply siftDown_eq_self
      intro child bound child_positive under index_bound
      have child_inside : child < nodes.size := by
        rw [removeAt_size] at bound
        omega
      have child_ne : child ≠ index := by omega
      rw [getElem_removeAt _ _ _ _ _ inside, getElem_removeAt _ _ _ _ _ child_inside,
        if_pos rfl, if_neg child_ne]
      have lower := ordered child child_inside child_positive
      simp only [under] at lower
      exact below.le.trans ((ordered index inside positive).trans lower)
    rw [stays] at kept
    have edge := kept index (by rw [removeAt_size]; omega) positive
    rw [getElem_removeAt _ _ _ _ _ inside, getElem_removeAt _ _ _ _ _ (by omega),
      if_pos rfl, if_neg (by omega)] at edge
    exact early edge
  · intro late
    rw [ordered_iff_orderedFrom_zero]
    exact siftDown_orderedFrom (ordered.downReady_removeAt inside late)

/-! ## Rebuilding -/

/-- Sift down every index below `count`, from the last one to the root. -/
def rebuild (key : α → κ) : Nat → Array α → Array α
  | 0, nodes => nodes
  | count + 1, nodes => rebuild key count (siftDown key nodes count)

theorem rebuild_perm (key : α → κ) (count : Nat) (nodes : Array α) :
    (rebuild key count nodes).Perm nodes := by
  induction count generalizing nodes with
  | zero => exact Array.Perm.refl nodes
  | succ count ih => exact (ih _).trans (siftDown_perm key nodes count)

theorem rebuild_ordered_of_orderedFrom {key : α → κ} (count : Nat) {nodes : Array α}
    (ordered : OrderedFrom key count nodes) : Ordered key (rebuild key count nodes) := by
  induction count generalizing nodes with
  | zero => exact (ordered_iff_orderedFrom_zero key nodes).mpr ordered
  | succ count ih =>
      apply ih
      apply siftDown_orderedFrom
      refine ⟨?_, ?_⟩
      · intro child inside positive above child_parent
        exact ordered child inside positive (by omega)
      · intro child inside positive child_parent index_positive above
        omega

/-- Sifting down the first half of an arbitrary array makes it a heap. -/
theorem rebuild_half_ordered (key : α → κ) (nodes : Array α) :
    Ordered key (rebuild key (nodes.size / 2) nodes) := by
  apply rebuild_ordered_of_orderedFrom
  intro child inside positive above
  omega

end CodexNos.Lib.BinaryHeap
