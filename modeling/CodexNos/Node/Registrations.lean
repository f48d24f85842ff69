import CodexNos.Node.Bookkeeping
import CodexNos.Scheduler.TimerHeap

/-!
# What each call does to the structures of a node

The registry calls keep one entry for each service and change no other structure.  Cancelling the
timers of a component, a scan that rewrites the timers it passes, is the cancelling of the timer
heap as long as no timer is twice in it.
-/

namespace CodexNos.Node

open Lib Messaging Scheduler

namespace NodeState

variable {node : NodeState}

/-- One entry for each service. -/
def UniqueServices (registry : List ServiceEntry) : Prop := (registry.map (·.serviceId)).Nodup

/-! ## Service registry -/

theorem fillEntry_spec (unique : UniqueServices node.registry) (serviceId : UInt32)
    (fill : ServiceEntry → ServiceEntry) (keys : ∀ entry, (fill entry).serviceId = serviceId) :
    ∃ registry unused,
      (node.fillEntry serviceId fill).1 =
          { node with registry := registry, unusedEntries := unused } ∧
        UniqueServices registry ∧ unused ⊆ node.unusedEntries ∧
        ∀ entry ∈ registry, entry ∈ node.registry ∧ entry.serviceId ≠ serviceId ∨
          ∃ old, (old ∈ node.registry ∧ old.serviceId = serviceId ∨ old ∈ node.unusedEntries) ∧
            entry = fill old := by
  unfold fillEntry
  split
  · rename_i index found
    have same : node.registry[index].serviceId = serviceId := by
      simpa using (List.findFinIdx?_eq_some_iff.mp found).1
    refine ⟨_, node.unusedEntries, rfl, ?_, List.Subset.refl _, ?_⟩
    · exact unique_set unique (Or.inl ((keys _).trans same.symm))
    · intro entry member
      rcases (mem_set_iff_of_unique unique).mp member with rfl | ⟨kept, different⟩
      · exact Or.inr ⟨_, Or.inl ⟨List.getElem_mem index.isLt, same⟩, rfl⟩
      · exact Or.inl ⟨kept, same ▸ different⟩
  · rename_i missing
    have absent : ∀ entry ∈ node.registry, entry.serviceId ≠ serviceId := by
      simpa using List.findFinIdx?_eq_none_iff.mp missing
    cases unused_eq : node.unusedEntries with
    | nil =>
        refine ⟨node.registry, node.unusedEntries, rfl, unique, by simp [unused_eq], ?_⟩
        intro entry member
        exact Or.inl ⟨member, absent entry member⟩
    | cons first rest =>
        refine ⟨_, rest, rfl, ?_, by simp, ?_⟩
        · rw [UniqueServices, List.map_append, List.map_singleton,
            List.nodup_append_comm, List.singleton_append, List.nodup_cons]
          refine ⟨?_, unique⟩
          intro present
          obtain ⟨entry, member, same⟩ := List.mem_map.mp present
          exact absent entry member (same.trans (keys first))
        · intro entry member
          rcases List.mem_append.mp member with kept | new
          · exact Or.inl ⟨kept, absent entry kept⟩
          · obtain rfl := List.mem_singleton.mp new
            exact Or.inr ⟨first, Or.inr (by simp), rfl⟩

/-- After binding services to a provider, their entries name it; the others stay. -/
theorem bindServices_spec (services : List RoutedService) (provider : CompRef)
    (thread : ThreadRef) (unique : UniqueServices node.registry) :
    ∃ registry unused,
      services.foldl
          (fun node svc => (node.nosServiceRegisterProviderBind svc.serviceId provider thread).1)
          node = { node with registry := registry, unusedEntries := unused } ∧
        UniqueServices registry ∧
        ∀ entry ∈ registry,
          (entry ∈ node.registry ∧ ∀ svc ∈ services, svc.serviceId ≠ entry.serviceId) ∨
            (∃ svc ∈ services, svc.serviceId = entry.serviceId) ∧
              entry.localProvider = some provider ∧ entry.localThread = some thread := by
  induction services generalizing node with
  | nil => exact ⟨node.registry, node.unusedEntries, rfl, unique, fun entry member => by simp [member]⟩
  | cons svc services ih =>
      obtain ⟨middle, between, first_eq, unique', -, entries⟩ :=
        fillEntry_spec unique svc.serviceId
          (fun entry =>
            { entry with
              serviceId := svc.serviceId
              localProvider := some provider
              localThread := some thread
              isRemote := false })
          (fun _ => rfl)
      obtain ⟨registry, unused, rest_eq, unique'', later⟩ :=
        @ih { node with registry := middle, unusedEntries := between } unique'
      refine ⟨registry, unused, ?_, unique'', ?_⟩
      · rw [List.foldl_cons, nosServiceRegisterProviderBind, first_eq, rest_eq]
      · intro entry member
        rcases later entry member with ⟨kept, others⟩ | ⟨⟨other, listed, same⟩, bound⟩
        · rcases entries entry kept with ⟨old, different⟩ | ⟨old, -, rfl⟩
          · refine Or.inl ⟨old, ?_⟩
            intro other listed
            rcases List.mem_cons.mp listed with rfl | listed
            · exact different.symm
            · exact others other listed
          · exact Or.inr ⟨⟨svc, List.mem_cons_self, rfl⟩, rfl, rfl⟩
        · exact Or.inr ⟨⟨other, List.mem_cons_of_mem _ listed, same⟩, bound⟩

theorem nosServiceUnregisterProvider_spec (unique : UniqueServices node.registry)
    (serviceId : UInt32) :
    ∃ registry unused,
      (node.nosServiceUnregisterProvider serviceId).1 =
          { node with registry := registry, unusedEntries := unused } ∧
        UniqueServices registry ∧
        ∀ entry ∈ registry, entry ∈ node.registry ∧ serviceId ≠ entry.serviceId := by
  unfold nosServiceUnregisterProvider
  split
  · rename_i index found
    have same : node.registry[index].serviceId = serviceId := by
      simpa using (List.findFinIdx?_eq_some_iff.mp found).1
    refine ⟨_, _, rfl, unique_swapRemoveAt unique, ?_⟩
    intro entry member
    obtain ⟨kept, different⟩ := (mem_swapRemoveAt_iff unique).mp member
    exact ⟨kept, fun equal => different (equal ▸ same.symm)⟩
  · rename_i missing
    have absent : ∀ entry ∈ node.registry, entry.serviceId ≠ serviceId := by
      simpa using List.findFinIdx?_eq_none_iff.mp missing
    exact ⟨node.registry, node.unusedEntries, rfl, unique, fun entry member =>
      ⟨member, (absent entry member).symm⟩⟩

/-- After unregistering services none of them has an entry; the others keep theirs. -/
theorem unbindServices_spec (services : List RoutedService)
    (unique : UniqueServices node.registry) :
    ∃ registry unused,
      services.foldl (fun node svc => (node.nosServiceUnregisterProvider svc.serviceId).1) node =
          { node with registry := registry, unusedEntries := unused } ∧
        UniqueServices registry ∧
        ∀ entry ∈ registry, entry ∈ node.registry ∧
          ∀ svc ∈ services, svc.serviceId ≠ entry.serviceId := by
  induction services generalizing node with
  | nil => exact ⟨node.registry, node.unusedEntries, rfl, unique, fun entry member => by simp [member]⟩
  | cons svc services ih =>
      obtain ⟨middle, between, first_eq, unique', entries⟩ :=
        nosServiceUnregisterProvider_spec unique svc.serviceId
      obtain ⟨registry, unused, rest_eq, unique'', later⟩ :=
        @ih { node with registry := middle, unusedEntries := between } unique'
      refine ⟨registry, unused, ?_, unique'', ?_⟩
      · rw [List.foldl_cons, first_eq, rest_eq]
      · intro entry member
        obtain ⟨kept, others⟩ := later entry member
        obtain ⟨old, different⟩ := entries entry kept
        refine ⟨old, ?_⟩
        intro other listed
        rcases List.mem_cons.mp listed with rfl | listed
        · exact different
        · exact others other listed

/-! ## Component lists -/

@[simp]
theorem setComponents_components (node : NodeState) (thread : ThreadRef) (comps : List CompRef) :
    (node.setComponents thread comps).components thread = comps := by
  simp [components, setComponents]

theorem setComponents_components_other (node : NodeState) {thread other : ThreadRef}
    (comps : List CompRef) (different : other ≠ thread) :
    (node.setComponents thread comps).components other = node.components other := by
  simp [components, setComponents, different]

theorem nosSchedulerUnregisterComponent_eq {thread : ThreadRef} {comp : CompRef}
    (member : comp ∈ node.components thread) :
    ∃ comps, node.nosSchedulerUnregisterComponent thread comp =
        (node.setComponents thread comps, .ok) ∧ (node.components thread).Perm (comp :: comps) := by
  unfold nosSchedulerUnregisterComponent
  split
  · rename_i index found
    obtain ⟨same, -⟩ := List.finIdxOf?_eq_some_iff.mp found
    refine ⟨_, rfl, ?_⟩
    have split := perm_cons_swapRemoveAt (node.components thread) index
    rwa [same] at split
  · rename_i missing
    exact absurd member (List.finIdxOf?_eq_none_iff.mp missing)

theorem nosSchedulerRegisterComponent_eq {thread : ThreadRef}
    (room : (node.components thread).length < maxCompPerThread) (comp : CompRef) :
    node.nosSchedulerRegisterComponent thread comp =
      (node.setComponents thread (node.components thread ++ [comp]), .ok) :=
  if_neg (Nat.not_le.mpr room)

end NodeState

end CodexNos.Node
