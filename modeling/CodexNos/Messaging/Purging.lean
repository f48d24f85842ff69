import CodexNos.Messaging.ThreadQueue

/-!
# Purging and dispatching

`nos_scheduler_drop_messages_for_provider` is to discard the messages of a queue that
`process_thread_messages` would still deliver to a component.  Dispatching addresses a reply to the
component that has asked and any other message to the provider of its service; purging looks at
services alone.
-/

namespace CodexNos.Messaging

open Lib Memory

namespace Tables

/-- The manifest has the service on this node, provided by the component with the id. -/
def manifestProvides (tables : Tables) (serviceId compId : UInt32) : Bool :=
  tables.nodeDef.any fun node =>
    node.2.any fun svc =>
      svc.serviceId = serviceId && svc.providerCompId = compId && svc.nodeName = node.1

/-- The component provides the service, by the registry or by the manifest. -/
def Provides (tables : Tables) (provider : CompRef) (serviceId : UInt32) : Prop :=
  (∃ entry, tables.findService serviceId = some entry ∧ entry.isRemote = false ∧
    entry.localProvider = some provider) ∨
  tables.manifestProvides serviceId (tables.component provider).id = true

/-- The rule of `process_thread_messages`: a reply is addressed to `dst_component`, another message
to the local provider in the entry of its service.  For a service without an entry the manifest
decides. -/
def addresses (tables : Tables) (header : Header) (compId : UInt32) : Bool :=
  if header.toRequester then header.dstComponent = compId
  else
    match tables.findService header.dstService with
    | some entry => entry.localProvider.any fun comp => (tables.component comp).id = compId
    | none => tables.manifestProvides header.dstService compId

/-- A header on which purging and dispatching differ. -/
inductive Differs (tables : Tables) (provider : CompRef) (header : Header) : Prop
  /-- A reply to the component, for a service that it does not provide. -/
  | replyKept (reply : header.toRequester = true)
      (addressed : header.dstComponent = (tables.component provider).id)
      (foreign : ¬ tables.Provides provider header.dstService)
  /-- A reply to another component, for a service that this one provides. -/
  | replyLost (reply : header.toRequester = true)
      (addressed : header.dstComponent ≠ (tables.component provider).id)
      (own : tables.Provides provider header.dstService)
  /-- The entry of the service has a component of the same id, but has become remote or has another
  instance, and the manifest does not give the service to this id. -/
  | entryOverlooked (request : header.toRequester = false) (entry : ServiceEntry)
      (found : tables.findService header.dstService = some entry) (holder : CompRef)
      (held : entry.localProvider = some holder)
      (same : (tables.component holder).id = (tables.component provider).id)
      (stale : entry.isRemote = true ∨ holder ≠ provider)
      (unlisted :
        tables.manifestProvides header.dstService (tables.component provider).id = false)
  /-- The manifest gives the service to this id, but its entry has no component of this id. -/
  | manifestOutdated (request : header.toRequester = false) (entry : ServiceEntry)
      (found : tables.findService header.dstService = some entry)
      (moved : ∀ holder, entry.localProvider = some holder →
        (tables.component holder).id ≠ (tables.component provider).id)
      (listed :
        tables.manifestProvides header.dstService (tables.component provider).id = true)

variable {tables : Tables} {provider : CompRef} {header : Header}

/-- A purge targets the messages to the services of its component. -/
theorem targetsProvider_iff :
    tables.targetsProvider provider header = true ↔
      tables.Provides provider header.dstService := by
  rw [targetsProvider, Bool.or_eq_true]
  exact or_congr (by simp [Option.any_eq_true]) Iff.rfl

/-- For a reply the two rules agree if the component is asked for its own services only. -/
theorem differs_iff_of_reply (reply : header.toRequester = true) :
    tables.Differs provider header ↔
      ¬ (tables.Provides provider header.dstService ↔
        header.dstComponent = (tables.component provider).id) := by
  constructor
  · intro differs agree
    cases differs with
    | replyKept _ addressed foreign => exact foreign (agree.mpr addressed)
    | replyLost _ addressed own => exact addressed (agree.mp own)
    | entryOverlooked request => simp [reply] at request
    | manifestOutdated request => simp [reply] at request
  · intro disagree
    by_cases own : tables.Provides provider header.dstService
    · exact .replyLost reply (fun addressed => disagree (by simp [own, addressed])) own
    · refine .replyKept reply ?_ own
      by_contra other
      exact disagree (by simp [own, other])

/-- For another message the two rules agree if its entry and the manifest do. -/
theorem differs_iff_of_request (request : header.toRequester = false) :
    tables.Differs provider header ↔
      ∃ entry, tables.findService header.dstService = some entry ∧
        ¬ (tables.Provides provider header.dstService ↔
          ∃ holder, entry.localProvider = some holder ∧
            (tables.component holder).id = (tables.component provider).id) := by
  constructor
  · intro differs
    cases differs with
    | replyKept reply => simp [request] at reply
    | replyLost reply => simp [request] at reply
    | entryOverlooked _ entry found holder held same stale unlisted =>
        refine ⟨entry, found, fun agree => ?_⟩
        obtain ⟨entry', found', not_remote, own⟩ | listed := agree.mpr ⟨holder, held, same⟩
        · obtain rfl : entry = entry' := Option.some.inj (found.symm.trans found')
          obtain rfl : holder = provider := Option.some.inj (held.symm.trans own)
          obtain remote | other := stale
          · simp [not_remote] at remote
          · exact other rfl
        · simp [unlisted] at listed
    | manifestOutdated _ entry found moved listed =>
        refine ⟨entry, found, fun agree => ?_⟩
        obtain ⟨holder, held, same⟩ := agree.mp (.inr listed)
        exact moved holder held same
  · rintro ⟨entry, found, disagree⟩
    by_cases holds : ∃ holder, entry.localProvider = some holder ∧
        (tables.component holder).id = (tables.component provider).id
    · have missed : ¬ tables.Provides provider header.dstService := by
        intro own
        exact disagree (by simp [own, holds])
      obtain ⟨holder, held, same⟩ := holds
      refine .entryOverlooked request entry found holder held same ?_ ?_
      · by_contra! current
        obtain ⟨not_remote, rfl⟩ := current
        exact missed (.inl ⟨entry, found, by simpa using not_remote, held⟩)
      · by_contra listed
        exact missed (.inr (by simpa using listed))
    · have own : tables.Provides provider header.dstService := by
        by_contra missed
        exact disagree (by simp [missed, holds])
      refine .manifestOutdated request entry found
        (fun holder held same => holds ⟨holder, held, same⟩) ?_
      obtain ⟨entry', found', -, held⟩ | listed := own
      · obtain rfl : entry = entry' := Option.some.inj (found.symm.trans found')
        exact absurd ⟨provider, held, rfl⟩ holds
      · exact listed

/-- The two rules agree on a header unless it is one of those above. -/
theorem targetsProvider_eq_addresses_iff :
    tables.targetsProvider provider header =
        tables.addresses header (tables.component provider).id ↔
      ¬ tables.Differs provider header := by
  rw [Bool.eq_iff_iff, targetsProvider_iff]
  cases reply : header.toRequester with
  | true =>
      rw [differs_iff_of_reply reply, not_not]
      simp [addresses, reply]
  | false =>
      rw [differs_iff_of_request reply]
      cases found : tables.findService header.dstService with
      | none =>
          simp [addresses, reply, found, Provides]
      | some entry =>
          simp [addresses, reply, found, Option.any_eq_true]

end Tables

/-! ## Purging a queue -/

theorem filter_eq_filter_iff {α : Type*} {left right : α → Bool} {items : List α} :
    items.filter left = items.filter right ↔ ∀ item ∈ items, left item = right item := by
  constructor
  · intro same item member
    have kept : item ∈ items.filter left ↔ item ∈ items.filter right := by rw [same]
    rw [Bool.eq_iff_iff]
    simpa [member] using kept
  · exact List.filter_congr

namespace ThreadQueue

/-- A purge removes the messages that dispatching would address to the component, and keeps the
others in order. -/
def PurgesAddressed (queue : ThreadQueue) (tables : Tables) (headers : BufferId → Header)
    (provider : CompRef) (allocated : Bool) : Prop :=
  ∃ queue' released, queue.dropMessages tables headers (some provider) allocated =
      some (queue', released) ∧
    released = queue.ring.contents.filter (fun buf =>
      tables.addresses (headers buf) (tables.component provider).id) ∧
    queue'.ring.contents = queue.ring.contents.filter fun buf =>
      !tables.addresses (headers buf) (tables.component provider).id

/-- A purge agrees with dispatching exactly if it gets its scratch array and no message of the queue
is one on which the two rules differ, or gets none and no message is addressed to the component. -/
theorem purgesAddressed_iff (queue : ThreadQueue) (tables : Tables) (headers : BufferId → Header)
    (provider : CompRef) (allocated : Bool) :
    queue.PurgesAddressed tables headers provider allocated ↔
      ∀ buf ∈ queue.ring.contents,
        if allocated then ¬ tables.Differs provider (headers buf)
        else tables.addresses (headers buf) (tables.component provider).id = false := by
  unfold PurgesAddressed
  cases allocated with
  | false =>
      have unchanged : queue.dropMessages tables headers (some provider) false = some (queue, []) :=
        rfl
      simp only [unchanged, Option.some.injEq, Prod.mk.injEq, Bool.false_eq_true, if_false]
      constructor
      · rintro ⟨_, _, ⟨rfl, rfl⟩, released, -⟩
        simpa using released
      · intro foreign
        refine ⟨queue, [], ⟨rfl, rfl⟩, ?_, ?_⟩
        · simpa using foreign
        · symm
          simpa using foreign
  | true =>
      obtain ⟨ring, dropped, contents⟩ := queue.dropMessages_eq tables headers provider
      simp only [dropped, Option.some.injEq, Prod.mk.injEq, if_true,
        ← Tables.targetsProvider_eq_addresses_iff]
      constructor
      · rintro ⟨_, _, ⟨rfl, rfl⟩, released, -⟩
        exact filter_eq_filter_iff.mp released
      · intro same
        refine ⟨_, _, ⟨rfl, rfl⟩, filter_eq_filter_iff.mpr same, ?_⟩
        rw [contents]
        exact filter_eq_filter_iff.mpr fun buf member => congrArg (! ·) (same buf member)

/-- The tables of the node whose component `7` provides service `100` and has asked service `200`. -/
def askingTables : Tables :=
  { servingTables with
    registry := servingTables.registry ++ [⟨200, none, none, "peer", "/tmp/nos_peer.sock", true⟩] }

/-- The reply of service `200` to component `7`. -/
def replyHeader : Header := ⟨0x4E4F, 1, 200, 9, 7, 0, 0, replyFlag, 0⟩

/-- A reply to the component stays in the queue. -/
theorem reply_survives_purge :
    ¬ oneMessage.PurgesAddressed askingTables (fun _ => replyHeader) 1 true := by
  rintro ⟨queue', released, dropped, addressed, -⟩
  have nothing :
      (oneMessage.dropMessages askingTables (fun _ => replyHeader) (some 1) true).map Prod.snd =
        some [] := by
    decide +kernel
  rw [dropped, Option.map_some, Option.some.injEq] at nothing
  have one : (oneMessage.ring.contents.filter fun _ =>
      askingTables.addresses replyHeader (askingTables.component 1).id) ≠ [] := by
    decide +kernel
  exact one (addressed.symm.trans nothing)

end ThreadQueue

end CodexNos.Messaging
