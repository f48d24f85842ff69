import CodexNos.Ipc.Connection
import CodexNos.Lib.JoinedNames
import CodexNos.Lib.Transition

/-!
# Names of shared-memory channels

A connection creates its channel under a name that joins the name of its own node and that of the
other one with an underscore, in 64 bytes, where the name of the other node has been cut to 31 bytes.
Creating a channel first removes what has its name, and the other node opens whatever has the name it
is told.
-/

namespace CodexNos.Ipc

open Lib

/-! ## Names -/

/-- The nodes at both ends of a connection. -/
structure Peers where
  /-- The node that connects. -/
  localNode : CStr
  /-- The node that it connects to. -/
  remoteNode : CStr
  named : remoteNode ≠ .empty
  deriving DecidableEq

namespace Peers

/-- The name of the channel of a connection, whose `remote_node` has 32 bytes. -/
def shmName (peers : Peers) : CStr := makeShmName peers.localNode (peers.remoteNode.cut 31)

/-- The names of two connections that `ipc_make_shm_name` joins to the same 63 bytes, 54 of which are
left for both names and the underscore. -/
def Confusable (peers other : Peers) : Prop :=
  Confused '_'.toUInt8 54 (peers.localNode.bytes, peers.remoteNode.bytes.take 31)
    (other.localNode.bytes, other.remoteNode.bytes.take 31)

theorem bytes_shmName (peers : Peers) :
    peers.shmName.bytes = (CStr.ofText "/nos_shm_").bytes ++
      (peers.localNode.bytes ++ '_'.toUInt8 :: peers.remoteNode.bytes.take 31).take 54 := by
  have sep : (CStr.ofText "_").bytes = ['_'.toUInt8] := by decide
  have front : (CStr.ofText "/nos_shm_").bytes.length = 9 := by decide
  rw [shmName, makeShmName, CStr.bytes_cut, CStr.bytes_append, CStr.bytes_append, CStr.bytes_append,
    CStr.bytes_cut, sep, List.append_assoc, List.append_assoc, List.take_append,
    List.take_of_length_le (by rw [front]; decide), front]
  rfl

/-- Two connections have the same channel name exactly if their nodes can be confused. -/
theorem shmName_eq_iff (peers other : Peers) :
    peers.shmName = other.shmName ↔ peers.Confusable other := by
  rw [CStr.ext_iff, bytes_shmName, bytes_shmName, List.append_cancel_left_eq, take_joined_eq_iff]
  rfl

/-- Connections of nodes without underscores in their names, which have at most 22 and 31 bytes, are
not confused. -/
theorem eq_of_confusable {peers other : Peers} (confusable : peers.Confusable other)
    (plain : '_'.toUInt8 ∉ peers.localNode.bytes ∧ '_'.toUInt8 ∉ other.localNode.bytes)
    (short : peers.localNode.strlen ≤ 22 ∧ other.localNode.strlen ≤ 22)
    (fits : peers.remoteNode.strlen ≤ 31 ∧ other.remoteNode.strlen ≤ 31) : peers = other := by
  simp only [CStr.strlen] at short fits
  obtain ⟨same_local, same_remote⟩ := eq_of_confused confusable plain.1 plain.2
    (by rw [List.length_take]; omega) (by rw [List.length_take]; omega)
  rw [List.take_of_length_le fits.1, List.take_of_length_le fits.2] at same_remote
  cases peers
  cases other
  obtain rfl := CStr.ext same_local
  obtain rfl := CStr.ext same_remote
  rfl

end Peers

/-! ## Channels -/

/-- The outcome of `channel_map` when a channel is created. -/
inductive MapOutcome
  /-- `shm_open` fails. -/
  | refused
  /-- The object is there, but it is not resized or not mapped. -/
  | unmapped
  /-- The channel is created. -/
  | mapped
  deriving DecidableEq, Repr

/-- The named objects and the channels of all nodes. -/
structure ShmSpace where
  /-- The connection that created the object of a name. -/
  objects : CStr → Option Peers
  /-- Connections whose channel was created and is not closed. -/
  created : Peers → Bool
  /-- The names in the `SETUP` messages that are on their way. -/
  setups : List (Peers × CStr)
  /-- The owner of the object that the other end of a connection has attached. -/
  attached : Peers → Option Peers
  /-- Who created a channel, and whose object that removed. -/
  removals : List (Peers × Peers)
  /-- Who opened a channel, and whose object that was. -/
  openings : List (Peers × Peers)

namespace ShmSpace

/-- No object, and no channel. -/
def empty : ShmSpace where
  objects _ := none
  created _ := false
  setups := []
  attached _ := none
  removals := []
  openings := []

/-- The calls on channels. -/
inductive Op
  /-- `nos_shm_channel_create` in `nos_ipc_try_connect_locked`. -/
  | create (peers : Peers) (outcome : MapOutcome)
  /-- `nos_shm_channel_open` in `ipc_handle_ctrl_msg`, and whether the object is mapped. -/
  | attach (peers : Peers) (name : CStr) (mapped : Bool)
  /-- `nos_shm_channel_close` at the end that created the channel. -/
  | close (peers : Peers)
  /-- `nos_shm_channel_close` at the other end, which removes no object. -/
  | detach (peers : Peers)

/-- The connection that makes a call. -/
def Op.peers : Op → Peers
  | .create peers _ => peers
  | .attach peers _ _ => peers
  | .close peers => peers
  | .detach peers => peers

/-- `shm_unlink` before a channel is created. -/
def unlink (space : ShmSpace) (name : CStr) (peers : Peers) : ShmSpace :=
  { space with
    objects := Function.update space.objects name none
    removals := space.removals ++ ((space.objects name).map fun owner => (peers, owner)).toList }

/-- Create the object of a name. -/
def channelCreate (space : ShmSpace) (name : CStr) (peers : Peers) (outcome : MapOutcome) :
    ShmSpace :=
  let space := space.unlink name peers
  match outcome with
  | .refused => space
  | .unmapped => { space with objects := Function.update space.objects name (some peers) }
  | .mapped =>
      { space with
        objects := Function.update space.objects name (some peers)
        created := Function.update space.created peers true
        setups := space.setups ++ [(peers, name)] }

/-- Attach the object of a name, which the message carries in 64 bytes. -/
def channelOpen (space : ShmSpace) (peers : Peers) (name : CStr) (mapped : Bool) : ShmSpace :=
  match space.attached peers, space.objects (name.cut 63) with
  | none, some owner =>
      if mapped then
        { space with
          attached := Function.update space.attached peers (some owner)
          openings := space.openings ++ [(peers, owner)] }
      else space
  | _, _ => space

/-- Execute one call. -/
def step (space : ShmSpace) : Op → Option ShmSpace
  | .create peers outcome =>
      if space.created peers then none else some (space.channelCreate peers.shmName peers outcome)
  | .attach peers name mapped =>
      if (peers, name) ∈ space.setups then
        some ({ space with setups := space.setups.erase (peers, name) }.channelOpen peers name mapped)
      else none
  | .close peers =>
      if space.created peers then
        some
          { space with
            created := Function.update space.created peers false
            objects := Function.update space.objects peers.shmName none }
      else none
  | .detach peers => some { space with attached := Function.update space.attached peers none }

/-- No channel removed or attached the object of another connection. -/
def OwnObjects (space : ShmSpace) : Prop :=
  (∀ removal ∈ space.removals, removal.2 = removal.1) ∧
    ∀ opening ∈ space.openings, opening.2 = opening.1

/-- The connections of a set have different channel names, and no run of their channels removes or
attaches the object of another connection. -/
structure Private (connections : Set Peers) : Prop where
  names : ∀ peers ∈ connections, ∀ other ∈ connections, peers ≠ other →
    peers.shmName ≠ other.shmName
  own : ∀ ops after, (∀ op ∈ ops, op.peers ∈ connections) →
    Transition.run step empty ops = some after → after.OwnObjects

/-- No two of the connections can be confused. -/
def Apart (connections : Set Peers) : Prop :=
  ∀ peers ∈ connections, ∀ other ∈ connections, peers ≠ other → ¬ peers.Confusable other

/-! ## Runs of connections that are apart -/

/-- The object of a name was created under it, and a message carries the name of its connection. -/
structure Inv (connections : Set Peers) (space : ShmSpace) : Prop where
  objects : ∀ name owner, space.objects name = some owner →
    owner ∈ connections ∧ owner.shmName = name
  setups : ∀ setup ∈ space.setups, setup.2 = setup.1.shmName
  own : space.OwnObjects

theorem cut_shmName (peers : Peers) : peers.shmName.cut 63 = peers.shmName := CStr.cut_cut 63 _

variable {connections : Set Peers} {space after : ShmSpace}

/-- A name that loses its object or gets the one of its connection. -/
theorem Inv.update (inv : Inv connections space) {peers : Peers} (member : peers ∈ connections)
    {name : CStr} (named : peers.shmName = name) {value : Option Peers}
    (either : value = none ∨ value = some peers) {key : CStr} {owner : Peers}
    (found : Function.update space.objects name value key = some owner) :
    owner ∈ connections ∧ owner.shmName = key := by
  by_cases same : key = name
  · subst same
    rw [Function.update_self] at found
    rcases either with rfl | rfl
    · simp at found
    · obtain rfl := Option.some.inj found
      exact ⟨member, named⟩
  · rw [Function.update_of_ne same] at found
    exact inv.objects key owner found

/-- The object of a name belongs to the only connection with this name. -/
theorem Inv.owner_eq (apart : Apart connections) (inv : Inv connections space) {peers owner : Peers}
    (member : peers ∈ connections) {name : CStr} (named : peers.shmName = name)
    (found : space.objects name = some owner) : owner = peers := by
  obtain ⟨listed, same⟩ := inv.objects _ _ found
  by_contra different
  exact apart owner listed peers member different
    ((Peers.shmName_eq_iff _ _).mp (same.trans named.symm))

theorem Inv.unlink (apart : Apart connections) (inv : Inv connections space) {peers : Peers}
    (member : peers ∈ connections) {name : CStr} (named : peers.shmName = name) :
    Inv connections (space.unlink name peers) where
  objects := fun _ _ found => inv.update member named (.inl rfl) found
  setups := inv.setups
  own := by
    refine ⟨?_, inv.own.2⟩
    intro removal listed
    rcases List.mem_append.mp listed with old | new
    · exact inv.own.1 removal old
    · obtain ⟨owner, found, rfl⟩ := Option.map_eq_some_iff.mp (Option.mem_toList.mp new)
      exact inv.owner_eq apart member named found

theorem Inv.create (apart : Apart connections) (inv : Inv connections space) {peers : Peers}
    (member : peers ∈ connections) {name : CStr} (named : peers.shmName = name)
    (outcome : MapOutcome) : Inv connections (space.channelCreate name peers outcome) := by
  have unlinked := inv.unlink apart member named
  cases outcome with
  | refused => exact unlinked
  | unmapped =>
      exact
        { objects := fun _ _ found => unlinked.update member named (.inr rfl) found
          setups := unlinked.setups
          own := unlinked.own }
  | mapped =>
      exact
        { objects := fun _ _ found => unlinked.update member named (.inr rfl) found
          setups := by
            intro setup listed
            rcases List.mem_append.mp listed with old | new
            · exact unlinked.setups setup old
            · obtain rfl := List.mem_singleton.mp new
              exact named.symm
          own := unlinked.own }

theorem Inv.attach (apart : Apart connections) (inv : Inv connections space) {peers : Peers}
    (member : peers ∈ connections) {name : CStr} (named : peers.shmName = name) (mapped : Bool) :
    Inv connections (space.channelOpen peers name mapped) := by
  have whole : name.cut 63 = name := named ▸ cut_shmName peers
  unfold channelOpen
  rw [whole]
  split
  · rename_i owner _ found
    split
    · exact
        { objects := inv.objects
          setups := inv.setups
          own := by
            refine ⟨inv.own.1, ?_⟩
            intro opening listed
            rcases List.mem_append.mp listed with old | new
            · exact inv.own.2 opening old
            · obtain rfl := List.mem_singleton.mp new
              exact inv.owner_eq apart member named found }
    · exact inv
  · exact inv

/-- Connections that are apart keep to their own objects. -/
theorem Inv.step (apart : Apart connections) (inv : Inv connections space) {op : Op}
    (member : op.peers ∈ connections) (stepped : space.step op = some after) :
    Inv connections after := by
  unfold ShmSpace.step at stepped
  cases op with
  | create peers outcome =>
      obtain ⟨-, same⟩ := Option.ite_none_left_eq_some.mp stepped
      obtain rfl := Option.some.inj same
      exact inv.create apart member rfl outcome
  | attach peers name mapped =>
      obtain ⟨pending, same⟩ := Option.ite_none_right_eq_some.mp stepped
      obtain rfl := Option.some.inj same
      have taken : Inv connections { space with setups := space.setups.erase (peers, name) } :=
        { objects := inv.objects
          setups := fun setup listed => inv.setups setup (List.mem_of_mem_erase listed)
          own := inv.own }
      exact taken.attach apart member (inv.setups _ pending).symm mapped
  | close peers =>
      obtain ⟨-, same⟩ := Option.ite_none_right_eq_some.mp stepped
      obtain rfl := Option.some.inj same
      exact
        { objects := fun _ _ found => inv.update member rfl (.inl rfl) found
          setups := inv.setups
          own := inv.own }
  | detach peers =>
      obtain rfl := Option.some.inj stepped
      exact { objects := inv.objects, setups := inv.setups, own := inv.own }

theorem inv_empty (connections : Set Peers) : Inv connections empty :=
  ⟨by simp [empty], by simp [empty], by simp [empty, OwnObjects]⟩

theorem Inv.run (apart : Apart connections) (inv : Inv connections space) {ops : List Op}
    (members : ∀ op ∈ ops, op.peers ∈ connections)
    (execution : Transition.run ShmSpace.step space ops = some after) : Inv connections after := by
  induction ops generalizing space with
  | nil =>
      obtain rfl : space = after := Option.some.inj execution
      exact inv
  | cons op ops ih =>
      obtain ⟨next, stepped, rest⟩ := Option.bind_eq_some_iff.mp execution
      obtain ⟨here, later⟩ := List.forall_mem_cons.mp members
      exact ih (inv.step apart here stepped) later rest

/-- The channels of a set of connections are private exactly if no two of the connections can be
confused. -/
theorem private_iff_apart (connections : Set Peers) : Private connections ↔ Apart connections := by
  constructor
  · intro apart peers member other member' different confusable
    exact apart.names peers member other member' different ((Peers.shmName_eq_iff _ _).mpr confusable)
  · intro apart
    refine ⟨?_, ?_⟩
    · intro peers member other member' different same
      exact apart peers member other member' different ((Peers.shmName_eq_iff _ _).mp same)
    · intro ops after members execution
      exact ((inv_empty connections).run apart members execution).own

/-- A node `a_b` that connects to `c`. -/
def firstPeers : Peers := ⟨.ofText "a_b", .ofText "c", by decide⟩

/-- A node `a` that connects to `b_c`. -/
def secondPeers : Peers := ⟨.ofText "a", .ofText "b_c", by decide⟩

/-- Of four nodes with different names, two pairs share one channel name: the second channel removes
the object of the first one, and the other end of the first connection attaches the second one. -/
theorem underscores_not_private :
    ∃ nodes : List CStr, nodes.Nodup ∧ ∃ connections : Set Peers,
      (∀ peers ∈ connections, peers.localNode ∈ nodes ∧ peers.remoteNode ∈ nodes) ∧
      (∃ ops after, (∀ op ∈ ops, op.peers ∈ connections) ∧
        Transition.run step empty ops = some after ∧ after.removals = [(secondPeers, firstPeers)] ∧
        after.openings = [(firstPeers, secondPeers)]) ∧
      ¬ Private connections := by
  have same : firstPeers.shmName = secondPeers.shmName := by decide
  refine ⟨["a", "a_b", "b_c", "c"].map CStr.ofText, by decide, {firstPeers, secondPeers}, ?_, ?_, ?_⟩
  · rintro peers (rfl | rfl)
    · decide
    · decide
  · refine ⟨[.create firstPeers .mapped, .create secondPeers .mapped,
      .attach firstPeers firstPeers.shmName true], _, ?_, rfl, ?_, ?_⟩
    · simp [Op.peers]
    · decide
    · decide
  · intro apart
    exact apart.names firstPeers (.inl rfl) secondPeers (.inr rfl) (by decide) same

end ShmSpace

end CodexNos.Ipc
