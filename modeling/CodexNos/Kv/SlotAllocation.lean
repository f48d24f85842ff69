import CodexNos.Kv.Interleaving
import CodexNos.Kv.Refinement

/-!
# Slot allocation under interleaving

Every slot of the pool has one owner: a bucket's chain, the stack of unused slots, or a thread that
has popped or unlinked it and not yet linked or pushed it.  The invariant says that the chains, the
stack and the calls in progress agree on the owners.  It survives every step as long as the pops,
pushes and counter updates of different threads do not overlap.  Two overlapping pops hand the same
slot to two threads.
-/

namespace CodexNos.Kv

open Lib

variable {K : Type*} {ι : Type*}

/-! ## What a call in progress holds -/

namespace Point

/-- The call is between its read of the stack top and its access of the stack cell. -/
def InStack : Point → Prop
  | .popWrite _ | .popCell _ | .pushWrite _ _ | .pushCell _ _ => True
  | _ => False

/-- The call is between its read and its write of the counter. -/
def InCount : Point → Prop
  | .incWrite _ | .decWrite _ => True
  | _ => False

instance : DecidablePred InStack := fun point => by
  unfold InStack
  split <;> infer_instance

instance : DecidablePred InCount := fun point => by
  unfold InCount
  split <;> infer_instance

/-- One for a call that has raised the stack top and has yet to write the cell. -/
def pushed : Point → Int
  | .pushCell _ _ => 1
  | _ => 0

/-- The slot that belongs to the call alone. -/
def holds (table : Table K) : Point → Option Nat
  | .popCell top => some (table.freeStack top.toNat)
  | .fillKey idx | .fillValue idx | .fillLen idx | .fillSubs idx => some idx
  | .linkRead idx | .linkNext idx _ | .linkFirst idx => some idx
  | .freeSubs idx | .pushRead idx | .pushWrite idx _ | .pushCell idx _ => some idx
  | _ => none

/-- By how much the counter and the stack top together miss the capacity because of the call. -/
def weight : Point → Int
  | .popCell _ | .fillKey _ | .fillValue _ | .fillLen _ | .fillSubs _ => 1
  | .linkRead _ | .linkNext _ _ | .linkFirst _ | .incRead | .incWrite _ => 1
  | .pushCell _ _ | .decRead | .decWrite _ => -1
  | _ => 0

/-- What the local variables of a call know about the shared fields. -/
def Knows (schema : Schema K) (table : Table K) (chains : Nat → List Nat) (call : Call K) :
    Point → Prop
  | .test prev curr =>
      ∃ front back, chains (schema.bucketOf call.key) = front ++ back ∧
        prev = front.getLast? ∧ curr = back.head?
  | .advance curr =>
      ∃ front back, chains (schema.bucketOf call.key) = front ++ curr :: back
  | .popWrite top => top = table.freeTop ∧ 0 ≤ top
  | .popCell top => top = table.freeTop + 1 ∧ 0 ≤ top
  | .linkNext _ start => start = (table.buckets (schema.bucketOf call.key)).firstIdx
  | .linkFirst idx => table.nextIdx idx = (table.buckets (schema.bucketOf call.key)).firstIdx
  | .incWrite used | .decWrite used => used = table.usedCount
  | .unlinkRead prev idx =>
      ∃ front back, chains (schema.bucketOf call.key) = front ++ idx :: back ∧
        prev = front.getLast?
  | .unlinkWrite prev idx next =>
      (∃ front back, chains (schema.bucketOf call.key) = front ++ idx :: back ∧
        prev = front.getLast?) ∧ next = table.nextIdx idx
  | .pushWrite _ top => top = table.freeTop
  | .pushCell _ top => top = table.freeTop
  | _ => True

end Point

/-- Owner of a slot. -/
inductive Owner (ι : Type*)
  /-- The chain of a bucket. -/
  | chain (bucket : Nat)
  /-- The stack of unused slots. -/
  | stack
  /-- A call in progress. -/
  | thread (thread : ι)
  deriving DecidableEq

/-- The chains and the stack of unused slots agree with the owners. -/
structure Shape (schema : Schema K) (table : Table K) (chains : Nat → List Nat)
    (owner : Nat → Owner ι) (depth : Nat) : Prop where
  /-- Following the links of a bucket visits its chain and ends. -/
  linked : ∀ bucket, Chain.Linked table.nextIdx (table.buckets bucket).firstIdx (chains bucket)
  /-- Slots of a chain. -/
  chained : ∀ bucket idx, idx ∈ chains bucket ↔ idx < schema.capacity ∧ owner idx = .chain bucket
  /-- Slots on the stack. -/
  stacked : ∀ idx, idx ∈ (List.range depth).map table.freeStack ↔
    idx < schema.capacity ∧ owner idx = .stack
  /-- The stack holds a slot at most once. -/
  stack_nodup : ((List.range depth).map table.freeStack).Nodup
  /-- The counter is a 32-bit number. -/
  used_lt : table.usedCount < 2 ^ 32

/-- Giving a slot to a new owner leaves the slots of every third owner alone. -/
theorem owner_update_iff {owner : Nat → Owner ι} {idx : Nat} {new target : Owner ι}
    (old_ne : owner idx ≠ target) (new_ne : new ≠ target) (node : Nat) :
    Function.update owner idx new node = target ↔ owner node = target := by
  by_cases same : node = idx
  · subst same
    simp [old_ne, new_ne]
  · simp [same]

/-- The slots of the new owner are its old ones and the given one. -/
theorem owner_update_new_iff {owner : Nat → Owner ι} {idx : Nat} {new : Owner ι} (node : Nat) :
    Function.update owner idx new node = new ↔ node = idx ∨ owner node = new := by
  by_cases same : node = idx
  · simp [same]
  · simp [same]

theorem owner_update_old_iff {owner : Nat → Owner ι} {idx : Nat} {old new : Owner ι}
    (new_ne : new ≠ old) (node : Nat) :
    Function.update owner idx new node = old ↔ node ≠ idx ∧ owner node = old := by
  by_cases same : node = idx
  · simp [same, new_ne]
  · simp [same]

namespace KvSys

/-- A property of the point a thread is at. -/
def At (sys : KvSys K ι) (property : Point → Prop) (thread : ι) : Prop :=
  ∃ call point, sys.pc thread = some (call, point) ∧ property point

instance (sys : KvSys K ι) (property : Point → Prop) [DecidablePred property] (thread : ι) :
    Decidable (sys.At property thread) :=
  match here : sys.pc thread with
  | some (call, point) =>
      decidable_of_iff (property point) ⟨fun holds => ⟨call, point, here, holds⟩, by
        rintro ⟨call', point', here', holds⟩
        obtain ⟨rfl, rfl⟩ : call = call' ∧ point = point' := by simpa [here] using here'
        exact holds⟩
  | none => isFalse (by simp [At, here])

/-- A number read off the point a thread is at. -/
def measure (sys : KvSys K ι) (value : Point → Int) (thread : ι) : Int :=
  match sys.pc thread with
  | some (_, point) => value point
  | none => 0

/-- A call in progress owns what it holds, has its lock and knows what it has read. -/
structure ThreadOk (schema : Schema K) (sys : KvSys K ι) (chains : Nat → List Nat)
    (owner : Nat → Owner ι) (thread : ι) : Prop where
  /-- Slots that belong to the call alone. -/
  holding : ∀ idx, (sys.pc thread).bind (fun frame => frame.2.holds sys.table) = some idx ↔
    idx < schema.capacity ∧ owner idx = .thread thread
  /-- A call past its lock holds the lock of its bucket. -/
  locked : ∀ call point, sys.pc thread = some (call, point) → point ≠ .lock →
    sys.lock (schema.bucketOf call.key) = some thread
  /-- The local variables are up to date. -/
  knows : ∀ call point, sys.pc thread = some (call, point) →
    point.Knows schema sys.table chains call

/-- The chains, the stack of unused slots and the calls in progress agree on the owner of each
slot, and the counter and the stack top on their number. -/
structure Consistent [Fintype ι] (schema : Schema K) (sys : KvSys K ι)
    (chains : Nat → List Nat) (owner : Nat → Owner ι) (depth : Nat) : Prop where
  /-- The chains and the stack. -/
  shape : Shape schema sys.table chains owner depth
  /-- The calls in progress. -/
  threads : ∀ thread, sys.ThreadOk schema chains owner thread
  /-- One call at a time is between the stack top and the stack cell. -/
  stack_once : ∀ thread other, sys.At Point.InStack thread → sys.At Point.InStack other →
    thread = other
  /-- One call at a time is between the read and the write of the counter. -/
  count_once : ∀ thread other, sys.At Point.InCount thread → sys.At Point.InCount other →
    thread = other
  /-- The stack top is the depth of the stack but for a push that has yet to write its cell. -/
  depth_eq : sys.table.freeTop + 1 = depth + ∑ thread, sys.measure Point.pushed thread
  /-- The counter, the stack top and the calls in progress add up to the capacity. -/
  total : (sys.table.usedCount + sys.table.freeTop + 1 + ∑ thread, sys.measure Point.weight thread)
    ≡ schema.capacity [ZMOD 2 ^ 32]

variable {schema : Schema K} {sys : KvSys K ι} {chains chains' : Nat → List Nat}
  {owner owner' : Nat → Owner ι} {depth depth' : Nat}

/-! ## What a step of one thread leaves alone -/

section Frame

variable [DecidableEq ι]

/-- The system after one thread changed the shared fields and moved on. -/
def after (sys : KvSys K ι) (thread : ι) (table : Table K) (lock : Nat → Option ι)
    (next : Option (Call K × Point)) : KvSys K ι where
  table := table
  lock := lock
  pc := Function.update sys.pc thread next

variable {thread : ι} {table : Table K} {lock : Nat → Option ι} {next : Option (Call K × Point)}

theorem at_after_self {property : Point → Prop} :
    (sys.after thread table lock next).At property thread ↔
      ∃ call point, next = some (call, point) ∧ property point := by
  simp [At, after]

theorem at_after_other {property : Point → Prop} {other : ι} (different : other ≠ thread) :
    (sys.after thread table lock next).At property other ↔ sys.At property other := by
  simp [At, after, different]

/-- A sum over the threads changes by what the moving thread changes. -/
theorem sum_measure_after [Fintype ι] (value : Point → Int) :
    ∑ other, (sys.after thread table lock next).measure value other =
      ∑ other, sys.measure value other - sys.measure value thread +
        (sys.after thread table lock next).measure value thread := by
  have update_eq : (sys.after thread table lock next).measure value =
      Function.update (sys.measure value) thread
        ((sys.after thread table lock next).measure value thread) := by
    funext other
    by_cases same : other = thread
    · subst same
      simp
    · simp [measure, after, same]
  rw [update_eq, Finset.sum_update_of_mem (Finset.mem_univ thread), Function.update_self,
    ← Finset.add_sum_erase _ _ (Finset.mem_univ thread), Finset.sdiff_singleton_eq_erase]
  ring

/-- A step of one thread keeps the other calls in order when it leaves alone their buckets, the
links of their slots and whatever they are in the middle of. -/
theorem ThreadOk.frame {other : ι} (ok : sys.ThreadOk schema chains owner other)
    (different : other ≠ thread)
    (lock_eq : ∀ bucket, sys.lock bucket = some other → lock bucket = some other)
    (bucket_eq : ∀ bucket, sys.lock bucket = some other →
      chains' bucket = chains bucket ∧
        (table.buckets bucket).firstIdx = (sys.table.buckets bucket).firstIdx ∧
        ∀ idx ∈ chains bucket, table.nextIdx idx = sys.table.nextIdx idx)
    (owner_eq : ∀ idx, owner' idx = .thread other ↔ owner idx = .thread other)
    (next_eq : ∀ idx, owner idx = .thread other → table.nextIdx idx = sys.table.nextIdx idx)
    (stack_eq : sys.At Point.InStack other →
      table.freeTop = sys.table.freeTop ∧ table.freeStack = sys.table.freeStack)
    (count_eq : sys.At Point.InCount other → table.usedCount = sys.table.usedCount) :
    (sys.after thread table lock next).ThreadOk schema chains' owner' other := by
  have pc_eq : (sys.after thread table lock next).pc other = sys.pc other := by
    simp [after, different]
  have holds_eq (call : Call K) (point : Point) (here : sys.pc other = some (call, point)) :
      point.holds table = point.holds sys.table := by
    cases point with
    | popCell top =>
        have stack := (stack_eq ⟨call, _, here, trivial⟩).2
        simp [Point.holds, stack]
    | _ => rfl
  refine ⟨?_, ?_, ?_⟩
  · intro idx
    rw [owner_eq, ← ok.holding idx, pc_eq]
    cases here : sys.pc other with
    | none => rfl
    | some frame =>
        obtain ⟨call, point⟩ := frame
        simp only [Option.bind_some, after]
        rw [holds_eq call point here]
  · intro call point here past
    rw [pc_eq] at here
    exact lock_eq _ (ok.locked call point here past)
  · intro call point here
    rw [pc_eq] at here
    have known := ok.knows call point here
    have mine (past : point ≠ .lock) := bucket_eq _ (ok.locked call point here past)
    simp only [after]
    cases point with
    | test prev curr =>
        obtain ⟨chain_eq, _, _⟩ := mine (by simp)
        simpa only [Point.Knows, chain_eq] using known
    | advance curr =>
        obtain ⟨chain_eq, _, _⟩ := mine (by simp)
        simpa only [Point.Knows, chain_eq] using known
    | popWrite top =>
        obtain ⟨top_eq, _⟩ := stack_eq ⟨call, _, here, trivial⟩
        simpa only [Point.Knows, top_eq] using known
    | popCell top =>
        obtain ⟨top_eq, _⟩ := stack_eq ⟨call, _, here, trivial⟩
        simpa only [Point.Knows, top_eq] using known
    | linkNext idx start =>
        obtain ⟨_, first_eq, _⟩ := mine (by simp)
        simpa only [Point.Knows, first_eq] using known
    | linkFirst idx =>
        obtain ⟨_, first_eq, _⟩ := mine (by simp)
        have own := ((ok.holding idx).mp (by simp [here, Point.holds])).2
        simpa only [Point.Knows, first_eq, next_eq idx own] using known
    | incWrite used =>
        have used_eq := count_eq ⟨call, _, here, trivial⟩
        simpa only [Point.Knows, used_eq] using known
    | decWrite used =>
        have used_eq := count_eq ⟨call, _, here, trivial⟩
        simpa only [Point.Knows, used_eq] using known
    | unlinkRead prev idx =>
        obtain ⟨chain_eq, _, _⟩ := mine (by simp)
        simpa only [Point.Knows, chain_eq] using known
    | unlinkWrite prev idx next =>
        obtain ⟨chain_eq, _, link_eq⟩ := mine (by simp)
        obtain ⟨⟨front, back, split, last⟩, link⟩ := known
        have member : idx ∈ chains (schema.bucketOf call.key) := by simp [split]
        refine ⟨⟨front, back, chain_eq.trans split, last⟩, ?_⟩
        rw [link_eq idx member, link]
    | pushWrite idx top =>
        obtain ⟨top_eq, _⟩ := stack_eq ⟨call, _, here, trivial⟩
        simpa only [Point.Knows, top_eq] using known
    | pushCell idx top =>
        obtain ⟨top_eq, _⟩ := stack_eq ⟨call, _, here, trivial⟩
        simpa only [Point.Knows, top_eq] using known
    | _ => trivial

/-- A step keeps the system consistent when the shared fields keep their shape, every call stays in
order, the moving call enters no section that another call is in, and the depth and the total change
as the fields do. -/
theorem Consistent.move [Fintype ι] (consistent : sys.Consistent schema chains owner depth)
    (shape : Shape schema table chains' owner' depth')
    (own : (sys.after thread table lock next).ThreadOk schema chains' owner' thread)
    (others : ∀ other, other ≠ thread →
      (sys.after thread table lock next).ThreadOk schema chains' owner' other)
    (stack_enter : (sys.after thread table lock next).At Point.InStack thread →
      sys.At Point.InStack thread ∨ ∀ other, other ≠ thread → ¬ sys.At Point.InStack other)
    (count_enter : (sys.after thread table lock next).At Point.InCount thread →
      sys.At Point.InCount thread ∨ ∀ other, other ≠ thread → ¬ sys.At Point.InCount other)
    (depth_step : table.freeTop - depth' -
        (sys.after thread table lock next).measure Point.pushed thread =
      sys.table.freeTop - depth - sys.measure Point.pushed thread)
    (total_step : (table.usedCount + table.freeTop +
        (sys.after thread table lock next).measure Point.weight thread : Int) ≡
      sys.table.usedCount + sys.table.freeTop + sys.measure Point.weight thread [ZMOD 2 ^ 32]) :
    (sys.after thread table lock next).Consistent schema chains' owner' depth' := by
  have once {property : Point → Prop}
      (was : ∀ one two, sys.At property one → sys.At property two → one = two)
      (enter : (sys.after thread table lock next).At property thread →
        sys.At property thread ∨ ∀ other, other ≠ thread → ¬ sys.At property other)
      (one two : ι) (first : (sys.after thread table lock next).At property one)
      (second : (sys.after thread table lock next).At property two) : one = two := by
    by_cases own_one : one = thread
    · subst own_one
      by_cases own_two : two = one
      · exact own_two.symm
      · have there := (at_after_other own_two).mp second
        cases enter first with
        | inl inside => exact was one two inside there
        | inr alone => exact absurd there (alone two own_two)
    · have here := (at_after_other own_one).mp first
      by_cases own_two : two = thread
      · subst own_two
        cases enter second with
        | inl inside => exact was one two here inside
        | inr alone => exact absurd here (alone one own_one)
      · exact was one two here ((at_after_other own_two).mp second)
  refine ⟨shape, ?_, once consistent.stack_once stack_enter,
    once consistent.count_once count_enter, ?_, ?_⟩
  · intro other
    by_cases same : other = thread
    · exact same ▸ own
    · exact others other same
  · have was := consistent.depth_eq
    rw [sum_measure_after]
    simp only [after] at depth_step ⊢
    linarith
  · have was := consistent.total
    have sum := was.add (total_step.sub_right
      (sys.table.usedCount + sys.table.freeTop + sys.measure Point.weight thread))
    rw [sub_self, add_zero] at sum
    refine Eq.trans ?_ sum
    congr 1
    rw [sum_measure_after]
    simp only [after]
    ring

end Frame

/-! ## Steps that change no link, no stack and no counter -/

/-- Two tables with the same links, stack and counters. -/
structure Alike (table table' : Table K) : Prop where
  /-- Links. -/
  nextIdx : table'.nextIdx = table.nextIdx
  /-- Chain starts. -/
  buckets : table'.buckets = table.buckets
  /-- Stack cells. -/
  freeStack : table'.freeStack = table.freeStack
  /-- Stack top. -/
  freeTop : table'.freeTop = table.freeTop
  /-- Counter. -/
  usedCount : table'.usedCount = table.usedCount

theorem Alike.refl (table : Table K) : Alike table table := ⟨rfl, rfl, rfl, rfl, rfl⟩

theorem Alike.setEntry (table : Table K) (idx : Nat) {entry : Entry K}
    (link : entry.nextIdx = table.nextIdx idx) : Alike table (table.setEntry idx entry) where
  nextIdx := by rw [Table.nextIdx_setEntry, link, Function.update_eq_self]
  buckets := rfl
  freeStack := rfl
  freeTop := rfl
  usedCount := rfl

theorem Alike.shape {table table' : Table K} (alike : Alike table table')
    (shape : Shape schema table chains owner depth) : Shape schema table' chains owner depth := by
  obtain ⟨next_eq, buckets_eq, stack_eq, _, used_eq⟩ := alike
  refine ⟨?_, shape.chained, ?_, ?_, ?_⟩
  · rw [next_eq, buckets_eq]
    exact shape.linked
  · rw [stack_eq]
    exact shape.stacked
  · rw [stack_eq]
    exact shape.stack_nodup
  · rw [used_eq]
    exact shape.used_lt

theorem Alike.holds {table table' : Table K} (alike : Alike table table') (point : Point) :
    point.holds table' = point.holds table := by
  cases point with
  | popCell top => simp [Point.holds, alike.freeStack]
  | _ => rfl

theorem Alike.knows_iff {table table' : Table K} (alike : Alike table table') {call : Call K}
    {point : Point} :
    point.Knows schema table' chains call ↔ point.Knows schema table chains call := by
  obtain ⟨next_eq, buckets_eq, stack_eq, top_eq, used_eq⟩ := alike
  cases point <;> simp only [Point.Knows, next_eq, buckets_eq, top_eq, used_eq]

variable [Fintype ι] {thread : ι} {call : Call K} {point point' : Point} {table : Table K}
  {lock : Nat → Option ι} {next : Option (Call K × Point)}

/-- In the middle of a pop or a push the stack top is exact but for the call's own push. -/
theorem Consistent.depth_inStack (consistent : sys.Consistent schema chains owner depth)
    (here : sys.pc thread = some (call, point)) (inside : point.InStack) :
    sys.table.freeTop + 1 = depth + point.pushed := by
  have alone : ∑ other, sys.measure Point.pushed other = sys.measure Point.pushed thread := by
    refine Finset.sum_eq_single thread ?_ (by simp)
    intro other _ different
    cases there : sys.pc other with
    | none => simp [measure, there]
    | some frame =>
        obtain ⟨call', point'⟩ := frame
        cases point' with
        | pushCell idx top =>
            have both := consistent.stack_once thread other ⟨call, point, here, inside⟩
              ⟨call', _, there, trivial⟩
            exact absurd both.symm different
        | _ => simp [measure, there, Point.pushed]
  have depth_eq := consistent.depth_eq
  rw [alone] at depth_eq
  simpa only [measure, here] using depth_eq

variable [DecidableEq ι]

/-- A step that leaves links, stack and counters alone keeps the system consistent when the moving
call stays in order and enters no section that another call is in. -/
theorem Consistent.quiet (consistent : sys.Consistent schema chains owner depth)
    (alike : Alike sys.table table)
    (lock_eq : ∀ other, other ≠ thread → ∀ bucket, sys.lock bucket = some other →
      lock bucket = some other)
    (own : (sys.after thread table lock next).ThreadOk schema chains owner thread)
    (stack_enter : (sys.after thread table lock next).At Point.InStack thread →
      sys.At Point.InStack thread ∨ ∀ other, other ≠ thread → ¬ sys.At Point.InStack other)
    (count_enter : (sys.after thread table lock next).At Point.InCount thread →
      sys.At Point.InCount thread ∨ ∀ other, other ≠ thread → ¬ sys.At Point.InCount other)
    (pushed_eq : (sys.after thread table lock next).measure Point.pushed thread =
      sys.measure Point.pushed thread)
    (weight_eq : (sys.after thread table lock next).measure Point.weight thread =
      sys.measure Point.weight thread) :
    (sys.after thread table lock next).Consistent schema chains owner depth := by
  refine consistent.move (alike.shape consistent.shape) own ?_ stack_enter count_enter ?_ ?_
  · intro other different
    refine (consistent.threads other).frame different (lock_eq other different) ?_ ?_ ?_ ?_ ?_
    · intro bucket _
      exact ⟨rfl, by rw [alike.buckets], fun idx _ => by rw [alike.nextIdx]⟩
    · exact fun idx => Iff.rfl
    · intro idx _
      rw [alike.nextIdx]
    · intro _
      exact ⟨alike.freeTop, alike.freeStack⟩
    · intro _
      exact alike.usedCount
  · rw [pushed_eq, alike.freeTop]
  · rw [weight_eq, alike.freeTop, alike.usedCount]

/-- A call that moves on under its lock, reading or writing nothing that others depend on. -/
theorem Consistent.goto (consistent : sys.Consistent schema chains owner depth)
    (here : sys.pc thread = some (call, point)) (past : point ≠ .lock)
    (alike : Alike sys.table table) (known : point'.Knows schema sys.table chains call)
    (holds_eq : point'.holds sys.table = point.holds sys.table)
    (stack_enter : point'.InStack →
      point.InStack ∨ ∀ other, other ≠ thread → ¬ sys.At Point.InStack other)
    (count_enter : point'.InCount →
      point.InCount ∨ ∀ other, other ≠ thread → ¬ sys.At Point.InCount other)
    (pushed_eq : point'.pushed = point.pushed) (weight_eq : point'.weight = point.weight) :
    (sys.after thread table sys.lock (some (call, point'))).Consistent schema chains owner depth := by
  have ok := consistent.threads thread
  have moved : (sys.after thread table sys.lock (some (call, point'))).pc thread =
      some (call, point') := by simp [after]
  refine consistent.quiet alike (fun _ _ _ held => held) ⟨?_, ?_, ?_⟩ ?_ ?_ ?_ ?_
  · intro idx
    rw [← ok.holding idx, moved, here]
    simp only [Option.bind_some, after, alike.holds, holds_eq]
  · intro call' point'' here' _
    obtain ⟨rfl, rfl⟩ : call = call' ∧ point' = point'' := by simpa [moved] using here'
    exact ok.locked call point here past
  · intro call' point'' here'
    obtain ⟨rfl, rfl⟩ : call = call' ∧ point' = point'' := by simpa [moved] using here'
    exact alike.knows_iff.mpr known
  · rintro ⟨call', point'', here', inside⟩
    obtain ⟨rfl, rfl⟩ : call = call' ∧ point' = point'' := by simpa [moved] using here'
    exact (stack_enter inside).imp_left fun was => ⟨call, point, here, was⟩
  · rintro ⟨call', point'', here', inside⟩
    obtain ⟨rfl, rfl⟩ : call = call' ∧ point' = point'' := by simpa [moved] using here'
    exact (count_enter inside).imp_left fun was => ⟨call, point, here, was⟩
  · simp only [measure, moved, here, pushed_eq]
  · simp only [measure, moved, here, weight_eq]

/-- The same, when the call enters neither the stack nor the counter. -/
theorem Consistent.pass (consistent : sys.Consistent schema chains owner depth)
    (here : sys.pc thread = some (call, point)) (past : point ≠ .lock)
    (alike : Alike sys.table table) (known : point'.Knows schema sys.table chains call)
    (holds_eq : point'.holds sys.table = point.holds sys.table) (no_stack : ¬ point'.InStack)
    (no_count : ¬ point'.InCount) (pushed_eq : point'.pushed = point.pushed)
    (weight_eq : point'.weight = point.weight) :
    (sys.after thread table sys.lock (some (call, point'))).Consistent schema chains owner depth :=
  consistent.goto here past alike known holds_eq (fun inside => absurd inside no_stack)
    (fun inside => absurd inside no_count) pushed_eq weight_eq

/-! ## Steps on the stack of unused slots -/

/-- The calls of other threads when the moving call changes the stack, the counter or the owner of a
slot of its own. -/
theorem Consistent.others_stack (consistent : sys.Consistent schema chains owner depth)
    (buckets_eq : table.buckets = sys.table.buckets) (next_eq : table.nextIdx = sys.table.nextIdx)
    (owner_eq : ∀ other, other ≠ thread → ∀ idx,
      owner' idx = .thread other ↔ owner idx = .thread other)
    (stack_eq : sys.At Point.InStack thread ∨
      table.freeTop = sys.table.freeTop ∧ table.freeStack = sys.table.freeStack)
    (count_eq : sys.At Point.InCount thread ∨ table.usedCount = sys.table.usedCount)
    (other : ι) (different : other ≠ thread) :
    (sys.after thread table sys.lock next).ThreadOk schema chains owner' other := by
  refine (consistent.threads other).frame different (fun _ held => held) ?_
    (owner_eq other different) ?_ ?_ ?_
  · intro bucket _
    exact ⟨rfl, by rw [buckets_eq], fun idx _ => by rw [next_eq]⟩
  · intro idx _
    rw [next_eq]
  · intro inside
    cases stack_eq with
    | inl here => exact absurd (consistent.stack_once other thread inside here) different
    | inr same => exact same
  · intro inside
    cases count_eq with
    | inl here => exact absurd (consistent.count_once other thread inside here) different
    | inr same => exact same

theorem Consistent.own_of_locked (consistent : sys.Consistent schema chains owner depth)
    (here : sys.pc thread = some (call, point)) (past : point ≠ .lock)
    (holding : ∀ idx, point'.holds table = some idx ↔
      idx < schema.capacity ∧ owner' idx = .thread thread)
    (known : point'.Knows schema table chains' call) :
    (sys.after thread table sys.lock (some (call, point'))).ThreadOk schema chains' owner'
      thread := by
  have moved : (sys.after thread table sys.lock (some (call, point'))).pc thread =
      some (call, point') := by simp [after]
  refine ⟨?_, ?_, ?_⟩
  · intro idx
    rw [moved, ← holding idx]
    rfl
  · intro call' point'' here' _
    obtain ⟨rfl, rfl⟩ : call = call' ∧ point' = point'' := by simpa [moved] using here'
    exact (consistent.threads thread).locked call point here past
  · intro call' point'' here'
    obtain ⟨rfl, rfl⟩ : call = call' ∧ point' = point'' := by simpa [moved] using here'
    exact known

/-- Popping writes the stack top: the slot below it becomes the call's own. -/
theorem Consistent.popWrite (consistent : sys.Consistent schema chains owner depth) {top : Int}
    (here : sys.pc thread = some (call, .popWrite top)) :
    (sys.after thread { sys.table with freeTop := top - 1 } sys.lock
        (some (call, .popCell top))).Consistent schema chains
      (Function.update owner (sys.table.freeStack top.toNat) (.thread thread)) (depth - 1) := by
  have ok := consistent.threads thread
  obtain ⟨rfl, positive⟩ := ok.knows _ _ here
  have depth_eq := consistent.depth_inStack here trivial
  simp only [Point.pushed, add_zero] at depth_eq
  have place : sys.table.freeTop.toNat = depth - 1 := by omega
  have stack_split : List.range depth = List.range (depth - 1) ++ [depth - 1] := by
    rw [← List.range_succ]
    congr 1
    omega
  have was_nodup := consistent.shape.stack_nodup
  have was_stacked := consistent.shape.stacked
  rw [stack_split, List.map_append, List.map_singleton, ← place] at was_nodup was_stacked
  rw [← place]
  set idx := sys.table.freeStack sys.table.freeTop.toNat with idx_eq
  have popped := (was_stacked idx).mp (by simp)
  have holds_none (node : Nat) : ¬ (node < schema.capacity ∧ owner node = .thread thread) := by
    rw [← ok.holding node, here]
    simp [Point.holds]
  refine consistent.move ⟨consistent.shape.linked, ?_, ?_, ?_, consistent.shape.used_lt⟩
    (consistent.own_of_locked here (by simp) ?_ ⟨by simp, positive⟩)
    (consistent.others_stack rfl rfl ?_ (Or.inl ⟨call, _, here, trivial⟩) (Or.inr rfl))
    ?_ ?_ ?_ ?_
  · intro bucket node
    rw [owner_update_iff (by simp [popped.2]) (by simp)]
    exact consistent.shape.chained bucket node
  · intro node
    change node ∈ (List.range sys.table.freeTop.toNat).map sys.table.freeStack ↔ _
    rw [owner_update_old_iff (by simp), and_left_comm, ← was_stacked node]
    have fresh := (List.nodup_append.mp was_nodup).2.2
    constructor
    · intro member
      exact ⟨fun same => fresh node member idx (by simp) same, List.mem_append_left _ member⟩
    · rintro ⟨different, member⟩
      cases List.mem_append.mp member with
      | inl below => exact below
      | inr top => exact absurd (List.mem_singleton.mp top) different
  · exact (List.nodup_append.mp was_nodup).1
  · intro node
    rw [owner_update_new_iff, and_or_left, or_iff_left (holds_none node)]
    simp only [Point.holds, Option.some.injEq]
    constructor
    · rintro rfl
      exact ⟨popped.1, rfl⟩
    · exact fun given => given.2.symm
  · intro other different node
    exact owner_update_iff (by simp [popped.2]) (by simpa using different.symm) node
  · exact fun _ => Or.inl ⟨call, _, here, trivial⟩
  · simp [at_after_self, Point.InCount]
  · simp only [measure, after, Function.update_self, here, Point.pushed]
    omega
  · simp only [measure, after, Function.update_self, here, Point.weight]
    exact congrArg (· % (2 ^ 32 : Int)) (by ring)

/-- Pushing raises the stack top before it writes the cell. -/
theorem Consistent.pushWrite (consistent : sys.Consistent schema chains owner depth) {idx : Nat}
    {top : Int} (here : sys.pc thread = some (call, .pushWrite idx top)) :
    (sys.after thread { sys.table with freeTop := top + 1 } sys.lock
        (some (call, .pushCell idx (top + 1)))).Consistent schema chains owner depth := by
  have ok := consistent.threads thread
  obtain rfl := ok.knows _ _ here
  have shape := consistent.shape
  refine consistent.move
    ⟨shape.linked, shape.chained, shape.stacked, shape.stack_nodup, shape.used_lt⟩
    (consistent.own_of_locked here (by simp) ?_ rfl)
    (consistent.others_stack rfl rfl (fun _ _ _ => Iff.rfl) (Or.inl ⟨call, _, here, trivial⟩)
      (Or.inr rfl)) ?_ ?_ ?_ ?_
  · intro node
    rw [← ok.holding node, here]
    simp [Point.holds]
  · exact fun _ => Or.inl ⟨call, _, here, trivial⟩
  · simp [at_after_self, Point.InCount]
  · simp only [measure, after, Function.update_self, here, Point.pushed]
    omega
  · simp only [measure, after, Function.update_self, here, Point.weight]
    exact congrArg (· % (2 ^ 32 : Int)) (by ring)

/-- Pushing writes the cell: the call's slot goes on the stack. -/
theorem Consistent.pushCell (consistent : sys.Consistent schema chains owner depth) {idx : Nat}
    {top : Int} (here : sys.pc thread = some (call, .pushCell idx top)) :
    (sys.after thread
        { sys.table with freeStack := Function.update sys.table.freeStack top.toNat idx } sys.lock
        (some (call, .decRead))).Consistent schema chains
      (Function.update owner idx .stack) (depth + 1) := by
  have ok := consistent.threads thread
  obtain rfl := ok.knows _ _ here
  have depth_eq := consistent.depth_inStack here trivial
  simp only [Point.pushed] at depth_eq
  have place : sys.table.freeTop.toNat = depth := by omega
  have shape := consistent.shape
  have given := (ok.holding idx).mp (by simp [here, Point.holds])
  have stack_eq : (List.range (depth + 1)).map (Function.update sys.table.freeStack depth idx) =
      (List.range depth).map sys.table.freeStack ++ [idx] := by
    rw [List.range_succ, List.map_append, List.map_singleton, Function.update_self]
    congr 1
    refine List.map_congr_left ?_
    intro cell below
    exact Function.update_of_ne (List.mem_range.mp below).ne _ _
  rw [place]
  refine consistent.move ⟨shape.linked, ?_, ?_, ?_, shape.used_lt⟩
    (consistent.own_of_locked here (by simp) ?_ trivial)
    (consistent.others_stack rfl rfl ?_ (Or.inl ⟨call, _, here, trivial⟩) (Or.inr rfl))
    ?_ ?_ ?_ ?_
  · intro bucket node
    rw [owner_update_iff (by simp [given.2]) (by simp)]
    exact shape.chained bucket node
  · intro node
    change node ∈ (List.range (depth + 1)).map (Function.update sys.table.freeStack depth idx) ↔ _
    rw [stack_eq, List.mem_append, shape.stacked node, owner_update_new_iff, and_or_left,
      List.mem_singleton, or_comm]
    refine or_congr_left ⟨?_, fun both => both.2⟩
    rintro rfl
    exact ⟨given.1, rfl⟩
  · change ((List.range (depth + 1)).map (Function.update sys.table.freeStack depth idx)).Nodup
    rw [stack_eq]
    refine List.nodup_append.mpr ⟨shape.stack_nodup, List.nodup_singleton _, ?_⟩
    rintro node stacked node' same rfl
    obtain rfl := List.mem_singleton.mp same
    have owned := ((shape.stacked node).mp stacked).2
    simp [given.2] at owned
  · intro node
    rw [owner_update_old_iff (by simp), and_left_comm, ← ok.holding node, here]
    simp [Point.holds, eq_comm]
  · intro other different node
    exact owner_update_iff (by simpa [given.2] using different.symm) (by simp) node
  · simp [at_after_self, Point.InStack]
  · simp [at_after_self, Point.InCount]
  · simp only [measure, after, Function.update_self, here, Point.pushed]
    push_cast
    ring
  · simp only [measure, after, Function.update_self, here, Point.weight]
    exact Int.ModEq.refl _

/-! ## Steps on the counter -/

theorem uint32Inc_lt (used : Nat) : uint32Inc used < 2 ^ 32 :=
  Nat.mod_lt _ (Nat.two_pow_pos 32)

theorem uint32Dec_lt {used : Nat} (bound : used < 2 ^ 32) : uint32Dec used < 2 ^ 32 := by
  unfold uint32Dec
  split <;> omega

theorem uint32Inc_modEq (used : Nat) : (uint32Inc used : Int) ≡ used + 1 [ZMOD 2 ^ 32] := by
  simp only [Int.ModEq, uint32Inc]
  omega

theorem uint32Dec_modEq (used : Nat) : (uint32Dec used : Int) ≡ used + -1 [ZMOD 2 ^ 32] := by
  simp only [Int.ModEq, uint32Dec]
  split <;> omega

/-- Writing the counter settles the call's share of the total. -/
theorem Consistent.writeUsed (consistent : sys.Consistent schema chains owner depth)
    {used : Nat} (here : sys.pc thread = some (call, point)) (past : point ≠ .lock)
    (inside : point.InCount) (free : point.holds sys.table = none) (idle : point.pushed = 0)
    (bound : used < 2 ^ 32)
    (settles : (used : Int) ≡ sys.table.usedCount + point.weight [ZMOD 2 ^ 32]) :
    (sys.after thread { sys.table with usedCount := used } sys.lock
        (some (call, .unlock .ok))).Consistent schema chains owner depth := by
  have ok := consistent.threads thread
  have shape := consistent.shape
  refine consistent.move ⟨shape.linked, shape.chained, shape.stacked, shape.stack_nodup, bound⟩
    (consistent.own_of_locked here past ?_ trivial)
    (consistent.others_stack rfl rfl (fun _ _ _ => Iff.rfl) (Or.inr ⟨rfl, rfl⟩)
      (Or.inl ⟨call, _, here, inside⟩)) ?_ ?_ ?_ ?_
  · intro node
    rw [← ok.holding node, here, Option.bind_some, free]
    simp [Point.holds]
  · simp [at_after_self, Point.InStack]
  · simp [at_after_self, Point.InCount]
  · simp only [measure, after, Function.update_self, here, idle]
    rfl
  · simp only [measure, after, Function.update_self, here]
    calc (used + sys.table.freeTop + 0 : Int)
        ≡ sys.table.usedCount + point.weight + sys.table.freeTop [ZMOD 2 ^ 32] := by
          rw [add_zero]
          exact settles.add_right _
      _ = sys.table.usedCount + sys.table.freeTop + point.weight := by ring

/-! ## Steps on the chains -/

/-- The calls of other threads when the moving call changes the chain of its own bucket or the link
of a slot that is its own. -/
theorem Consistent.others_chain (consistent : sys.Consistent schema chains owner depth)
    (here : sys.pc thread = some (call, point)) (past : point ≠ .lock)
    (chain_eq : ∀ bucket, bucket ≠ schema.bucketOf call.key → chains' bucket = chains bucket ∧
      (table.buckets bucket).firstIdx = (sys.table.buckets bucket).firstIdx)
    (next_eq : ∀ idx, table.nextIdx idx = sys.table.nextIdx idx ∨
      owner idx = .thread thread ∨ owner idx = .chain (schema.bucketOf call.key))
    (owner_eq : ∀ other, other ≠ thread → ∀ idx,
      owner' idx = .thread other ↔ owner idx = .thread other)
    (stack_eq : table.freeTop = sys.table.freeTop ∧ table.freeStack = sys.table.freeStack)
    (count_eq : table.usedCount = sys.table.usedCount) (other : ι) (different : other ≠ thread) :
    (sys.after thread table sys.lock next).ThreadOk schema chains' owner' other := by
  have mine := (consistent.threads thread).locked call point here past
  refine (consistent.threads other).frame different (fun _ held => held) ?_
    (owner_eq other different) ?_ (fun _ => stack_eq) (fun _ => count_eq)
  · intro bucket theirs
    have apart : bucket ≠ schema.bucketOf call.key := by
      rintro rfl
      exact different (Option.some.inj (theirs.symm.trans mine))
    refine ⟨(chain_eq bucket apart).1, (chain_eq bucket apart).2, ?_⟩
    intro idx member
    have owned := ((consistent.shape.chained bucket idx).mp member).2
    obtain same | mine | mine := next_eq idx
    · exact same
    · simp [owned] at mine
    · exact absurd (by simpa [owned] using mine) apart
  · intro idx owned
    obtain same | mine | mine := next_eq idx
    · exact same
    · exact absurd (by simpa [owned] using mine) different
    · simp [owned] at mine

theorem Consistent.linkNext (consistent : sys.Consistent schema chains owner depth) {idx : Nat}
    {start : Option Nat} (here : sys.pc thread = some (call, .linkNext idx start)) :
    (sys.after thread (sys.table.setNext idx start) sys.lock
        (some (call, .linkFirst idx))).Consistent schema chains owner depth := by
  have ok := consistent.threads thread
  have shape := consistent.shape
  have known : start = _ := ok.knows _ _ here
  have given := (ok.holding idx).mp (by simp [here, Point.holds])
  have next_eq : (sys.table.setNext idx start).nextIdx =
      Function.update sys.table.nextIdx idx start := Table.nextIdx_setEntry _ _ _
  refine consistent.move ⟨?_, shape.chained, shape.stacked, shape.stack_nodup, shape.used_lt⟩
    (consistent.own_of_locked here (by simp) ?_ ?_)
    (consistent.others_chain here (by simp) (fun _ _ => ⟨rfl, rfl⟩) ?_ (fun _ _ _ => Iff.rfl)
      ⟨rfl, rfl⟩ rfl) ?_ ?_ ?_ ?_
  · intro bucket
    refine (shape.linked bucket).congr ?_
    intro node member
    have different : node ≠ idx := by
      rintro rfl
      have owned := ((shape.chained bucket node).mp member).2
      simp [given.2] at owned
    rw [next_eq, Function.update_of_ne different]
  · intro node
    rw [← ok.holding node, here]
    simp [Point.holds]
  · simp only [Point.Knows, next_eq, Function.update_self]
    exact known
  · intro node
    by_cases same : node = idx
    · exact Or.inr (Or.inl (same ▸ given.2))
    · exact Or.inl (by rw [next_eq, Function.update_of_ne same])
  · simp [at_after_self, Point.InStack]
  · simp [at_after_self, Point.InCount]
  · simp only [measure, after, Function.update_self, here, Point.pushed]
    rfl
  · simp only [measure, after, Function.update_self, here, Point.weight]
    exact Int.ModEq.refl _

/-- Writing the chain start: the call's own slot joins the chain. -/
theorem Consistent.linkFirst (consistent : sys.Consistent schema chains owner depth) {idx : Nat}
    (here : sys.pc thread = some (call, .linkFirst idx)) :
    (sys.after thread (sys.table.setFirst (schema.bucketOf call.key) (some idx)) sys.lock
        (some (call, .incRead))).Consistent schema
      (Function.update chains (schema.bucketOf call.key)
        (idx :: chains (schema.bucketOf call.key)))
      (Function.update owner idx (.chain (schema.bucketOf call.key))) depth := by
  have ok := consistent.threads thread
  have shape := consistent.shape
  have known : sys.table.nextIdx idx = _ := ok.knows _ _ here
  have given := (ok.holding idx).mp (by simp [here, Point.holds])
  generalize bucket_eq : schema.bucketOf call.key = bucket at *
  refine consistent.move ⟨?_, ?_, ?_, shape.stack_nodup, shape.used_lt⟩
    (consistent.own_of_locked here (by simp) ?_ trivial)
    (consistent.others_chain here (by simp) ?_ (fun _ => Or.inl rfl) ?_ ⟨rfl, rfl⟩ rfl)
    ?_ ?_ ?_ ?_
  · intro other
    by_cases same : other = bucket
    · subst same
      simp only [Table.setFirst, Function.update_self]
      exact ⟨rfl, known ▸ shape.linked other⟩
    · have first_eq : ((sys.table.setFirst bucket (some idx)).buckets other).firstIdx =
          (sys.table.buckets other).firstIdx := by simp [Table.setFirst, same]
      rw [first_eq, Function.update_of_ne same]
      exact shape.linked other
  · intro other node
    rw [Wf.mem_push_iff]
    by_cases same : other = bucket
    · subst same
      rw [owner_update_new_iff, and_or_left, ← shape.chained other node]
      refine or_congr_left ⟨?_, fun both => ⟨rfl, both.2⟩⟩
      rintro ⟨_, rfl⟩
      exact ⟨given.1, rfl⟩
    · rw [owner_update_iff (by simp [given.2]) (by simpa using Ne.symm same),
        ← shape.chained other node]
      simp [same]
  · intro node
    rw [owner_update_iff (by simp [given.2]) (by simp)]
    exact shape.stacked node
  · intro node
    rw [owner_update_old_iff (by simp), and_left_comm, ← ok.holding node, here]
    simp [Point.holds, eq_comm]
  · intro other different
    rw [bucket_eq] at different
    simp [Table.setFirst, different]
  · intro other different node
    exact owner_update_iff (by simpa [given.2] using different.symm) (by simp) node
  · simp [at_after_self, Point.InStack]
  · simp [at_after_self, Point.InCount]
  · simp only [measure, after, Function.update_self, here, Point.pushed]
    rfl
  · simp only [measure, after, Function.update_self, here, Point.weight]
    exact Int.ModEq.refl _

/-- Writing the link before the found slot: the slot becomes the call's own. -/
theorem Consistent.unlinkWrite (consistent : sys.Consistent schema chains owner depth)
    {prev next : Option Nat} {idx : Nat}
    (here : sys.pc thread = some (call, .unlinkWrite prev idx next)) :
    ∃ chains' owner', (sys.after thread
      (sys.table.relink (schema.bucketOf call.key) prev next) sys.lock
      (some (call, .freeSubs idx))).Consistent schema chains' owner' depth := by
  have ok := consistent.threads thread
  have shape := consistent.shape
  obtain ⟨⟨front, back, split, rfl⟩, rfl⟩ := ok.knows _ _ here
  have given := (shape.chained (schema.bucketOf call.key) idx).mp (by simp [split])
  have holds_none (node : Nat) : ¬ (node < schema.capacity ∧ owner node = .thread thread) := by
    rw [← ok.holding node, here]
    simp [Point.holds]
  have next_eq := sys.table.nextIdx_relink (schema.bucketOf call.key) front.getLast? idx
  have first_eq := sys.table.firstIdx_relink (schema.bucketOf call.key) front.getLast?
    (sys.table.nextIdx idx)
  obtain ⟨top_eq, stack_eq, used_eq⟩ := sys.table.relink_counters (schema.bucketOf call.key)
    front.getLast? (sys.table.nextIdx idx)
  generalize sys.table.relink (schema.bucketOf call.key) front.getLast?
    (sys.table.nextIdx idx) = table at *
  have before {node : Nat} (last : front.getLast? = some node) :
      owner node = .chain (schema.bucketOf call.key) := by
    refine ((shape.chained _ node).mp ?_).2
    rw [split]
    exact List.mem_append_left _ (List.mem_of_getLast? last)
  refine ⟨Function.update chains (schema.bucketOf call.key) (front ++ back),
    Function.update owner idx (.thread thread), ?_⟩
  generalize bucket_eq : schema.bucketOf call.key = bucket at *
  refine consistent.move ⟨?_, ?_, ?_, ?_, ?_⟩
    (consistent.own_of_locked here (by simp) ?_ trivial)
    (consistent.others_chain here (by simp) ?_ ?_ ?_ ⟨top_eq, stack_eq⟩ used_eq)
    ?_ ?_ ?_ ?_
  · intro other
    rw [next_eq, first_eq]
    by_cases same : other = bucket
    · subst same
      have linked := shape.linked other
      rw [split] at linked
      simpa only [true_and, Function.update_self] using linked.unlink
    · simp only [same, false_and, if_false, Function.update_of_ne same]
      refine (shape.linked other).congr_redirect ?_
      intro node member last
      have owned := ((shape.chained other node).mp member).2
      exact same (by simpa [before last] using owned.symm)
  · intro other node
    by_cases same : other = bucket
    · subst same
      rw [Function.update_self, owner_update_old_iff (by simp), and_left_comm,
        ← shape.chained other node, split]
      exact mem_append_iff_of_nodup (split ▸ (shape.linked other).nodup)
    · rw [Function.update_of_ne same,
        owner_update_iff (by simpa [given.2] using Ne.symm same) (by simp)]
      exact shape.chained other node
  · intro node
    rw [owner_update_iff (by simp [given.2]) (by simp), stack_eq]
    exact shape.stacked node
  · rw [stack_eq]
    exact shape.stack_nodup
  · rw [used_eq]
    exact shape.used_lt
  · intro node
    rw [owner_update_new_iff, and_or_left, or_iff_left (holds_none node)]
    simp only [Point.holds, Option.some.injEq]
    constructor
    · rintro rfl
      exact ⟨given.1, rfl⟩
    · exact fun both => both.2.symm
  · intro other different
    rw [bucket_eq] at different
    exact ⟨Function.update_of_ne different _ _, by simp [first_eq, different]⟩
  · intro node
    rw [next_eq, bucket_eq]
    cases last : front.getLast? with
    | none => exact Or.inl rfl
    | some prevIdx =>
        by_cases same : node = prevIdx
        · exact Or.inr (Or.inr (same ▸ before last))
        · exact Or.inl (Function.update_of_ne same _ _)
  · intro other different node
    exact owner_update_iff (by simp [given.2]) (by simpa using different.symm) node
  · simp [at_after_self, Point.InStack]
  · simp [at_after_self, Point.InCount]
  · simp only [measure, after, Function.update_self, here, Point.pushed, top_eq]
  · simp only [measure, after, Function.update_self, here, Point.weight, top_eq, used_eq]
    exact Int.ModEq.refl _

/-! ## Entering and leaving a call -/

theorem Consistent.start (consistent : sys.Consistent schema chains owner depth)
    (idle : sys.pc thread = none) (call : Call K) :
    (sys.goto thread call .lock).Consistent schema chains owner depth := by
  have ok := consistent.threads thread
  have moved : (sys.after thread sys.table sys.lock (some (call, .lock))).pc thread =
      some (call, .lock) := by simp [after]
  refine consistent.quiet (.refl _) (fun _ _ _ held => held) ⟨?_, ?_, ?_⟩ ?_ ?_ ?_ ?_
  · intro idx
    rw [← ok.holding idx, moved, idle]
    simp [Point.holds]
  · intro call' point here past
    obtain ⟨rfl, rfl⟩ : call = call' ∧ .lock = point := by simpa [moved] using here
    exact absurd rfl past
  · intro call' point here
    obtain ⟨rfl, rfl⟩ : call = call' ∧ .lock = point := by simpa [moved] using here
    trivial
  · simp [at_after_self, Point.InStack]
  · simp [at_after_self, Point.InCount]
  · simp [measure, moved, idle, Point.pushed]
  · simp [measure, moved, idle, Point.weight]

theorem Consistent.acquire (consistent : sys.Consistent schema chains owner depth)
    (here : sys.pc thread = some (call, .lock))
    (open_lock : sys.lock (schema.bucketOf call.key) = none) :
    (sys.after thread sys.table
        (Function.update sys.lock (schema.bucketOf call.key) (some thread))
        (some (call, .first))).Consistent schema chains owner depth := by
  have ok := consistent.threads thread
  have moved : (sys.after thread sys.table
      (Function.update sys.lock (schema.bucketOf call.key) (some thread))
      (some (call, .first))).pc thread = some (call, .first) := by simp [after]
  refine consistent.quiet (.refl _) ?_ ⟨?_, ?_, ?_⟩ ?_ ?_ ?_ ?_
  · intro other _ bucket held
    have apart : bucket ≠ schema.bucketOf call.key := by
      rintro rfl
      simp [open_lock] at held
    rwa [Function.update_of_ne apart]
  · intro idx
    rw [← ok.holding idx, moved, here]
    simp [Point.holds]
  · intro call' point here' _
    obtain ⟨rfl, rfl⟩ : call = call' ∧ .first = point := by simpa [moved] using here'
    simp [after]
  · intro call' point here'
    obtain ⟨rfl, rfl⟩ : call = call' ∧ .first = point := by simpa [moved] using here'
    trivial
  · simp [at_after_self, Point.InStack]
  · simp [at_after_self, Point.InCount]
  · simp [measure, moved, here, Point.pushed]
  · simp [measure, moved, here, Point.weight]

theorem Consistent.release (consistent : sys.Consistent schema chains owner depth)
    {status : Status} (here : sys.pc thread = some (call, .unlock status)) :
    (sys.after thread sys.table
        (Function.update sys.lock (schema.bucketOf call.key) none) none).Consistent
      schema chains owner depth := by
  have ok := consistent.threads thread
  have moved : (sys.after thread sys.table
      (Function.update sys.lock (schema.bucketOf call.key) none) none).pc thread = none := by
    simp [after]
  refine consistent.quiet (.refl _) ?_ ⟨?_, ?_, ?_⟩ ?_ ?_ ?_ ?_
  · intro other different bucket held
    have apart : bucket ≠ schema.bucketOf call.key := by
      rintro rfl
      have mine := ok.locked call _ here (by simp)
      exact different (Option.some.inj (held.symm.trans mine))
    rwa [Function.update_of_ne apart]
  · intro idx
    rw [← ok.holding idx, moved, here]
    simp [Point.holds]
  · simp [moved]
  · simp [moved]
  · simp [at_after_self]
  · simp [at_after_self]
  · simp [measure, moved, here, Point.pushed]
  · simp [measure, moved, here, Point.weight]

/-! ## Whole runs -/

variable [DecidableEq K]

/-- The next access of a thread does not overlap with another call's access of the stack or of the
counter: nobody else is between reading the stack top and accessing the stack cell when a pop or
push starts, a pop still finds the stack nonempty, and nobody else is between reading and writing
the counter when a count starts. -/
def ApartAt (sys : KvSys K ι) (thread : ι) : Point → Prop
  | .popRead => 0 ≤ sys.table.freeTop ∧ ∀ other, other ≠ thread → ¬ sys.At Point.InStack other
  | .pushRead _ => ∀ other, other ≠ thread → ¬ sys.At Point.InStack other
  | .incRead | .decRead => ∀ other, other ≠ thread → ¬ sys.At Point.InCount other
  | _ => True

/-- The step does not overlap with another call's access of the stack or of the counter. -/
def KeepsApart (sys : KvSys K ι) : Label K ι → Prop
  | .start _ _ => True
  | .move thread =>
      match sys.pc thread with
      | some (_, point) => sys.ApartAt thread point
      | none => True

instance (sys : KvSys K ι) (thread : ι) (point : Point) : Decidable (sys.ApartAt thread point) := by
  unfold ApartAt
  split <;> infer_instance

instance (sys : KvSys K ι) (label : Label K ι) : Decidable (sys.KeepsApart label) := by
  unfold KeepsApart
  split
  · infer_instance
  · split <;> infer_instance

/-- A call that is past its lock keeps the system consistent with its next access, unless that
access overlaps with another call's access of the stack or of the counter. -/
theorem Consistent.exec (consistent : sys.Consistent schema chains owner depth)
    (here : sys.pc thread = some (call, point)) (allowed : sys.KeepsApart (.move thread))
    {sys' : KvSys K ι} (stepped : sys.exec schema thread call point = some sys') :
    ∃ chains' owner' depth', sys'.Consistent schema chains' owner' depth' := by
  have ok := consistent.threads thread
  have shape := consistent.shape
  have known := ok.knows call point here
  have linked := shape.linked (schema.bucketOf call.key)
  simp only [KeepsApart, here] at allowed
  cases point with
  | lock =>
      simp only [KvSys.exec] at stepped
      split at stepped
      · simp at stepped
      · rename_i open_lock
        obtain rfl := Option.some.inj stepped
        exact ⟨_, _, _, consistent.acquire here open_lock⟩
  | first =>
      obtain rfl := Option.some.inj stepped
      exact ⟨_, _, _, consistent.pass here (by simp) (.refl _)
        ⟨[], _, rfl, rfl, linked.start_eq⟩ rfl id id rfl rfl⟩
  | test prev curr =>
      obtain ⟨front, back, split_eq, prev_eq, curr_eq⟩ := known
      cases curr with
      | none =>
          cases call with
          | put key val valLen =>
              obtain rfl := Option.some.inj stepped
              exact ⟨_, _, _, consistent.pass here (by simp) (.refl _) trivial rfl id id rfl rfl⟩
          | del key =>
              obtain rfl := Option.some.inj stepped
              exact ⟨_, _, _, consistent.pass here (by simp) (.refl _) trivial rfl id id rfl rfl⟩
      | some curr =>
          obtain ⟨back, rfl⟩ : ∃ rest, back = curr :: rest := by
            cases back with
            | nil => simp at curr_eq
            | cons node rest => exact ⟨rest, by simp_all⟩
          simp only [KvSys.exec] at stepped
          split at stepped
          · cases call with
            | put key val valLen =>
                obtain rfl := Option.some.inj stepped
                exact ⟨_, _, _, consistent.pass here (by simp) (.refl _) trivial rfl id id rfl rfl⟩
            | del key =>
                obtain rfl := Option.some.inj stepped
                exact ⟨_, _, _, consistent.pass here (by simp) (.refl _)
                  ⟨front, back, split_eq, prev_eq⟩ rfl id id rfl rfl⟩
          · obtain rfl := Option.some.inj stepped
            exact ⟨_, _, _, consistent.pass here (by simp) (.refl _) ⟨front, back, split_eq⟩ rfl
              id id rfl rfl⟩
  | advance curr =>
      obtain ⟨front, back, split_eq⟩ := known
      obtain rfl := Option.some.inj stepped
      rw [split_eq] at linked
      exact ⟨_, _, _, consistent.pass here (by simp) (.refl _)
        ⟨front ++ [curr], back, by simp [split_eq], by simp, linked.next_eq⟩ rfl id id rfl rfl⟩
  | storeValue idx =>
      obtain rfl := Option.some.inj stepped
      exact ⟨_, _, _, consistent.pass here (by simp) (.setEntry _ idx rfl) trivial rfl id id
        rfl rfl⟩
  | storeLen idx =>
      obtain rfl := Option.some.inj stepped
      exact ⟨_, _, _, consistent.pass here (by simp) (.setEntry _ idx rfl) trivial rfl id id
        rfl rfl⟩
  | readSubs idx =>
      obtain rfl := Option.some.inj stepped
      exact ⟨_, _, _, consistent.pass here (by simp) (.refl _) trivial rfl id id rfl rfl⟩
  | checkTop =>
      simp only [KvSys.exec] at stepped
      split at stepped
      · obtain rfl := Option.some.inj stepped
        exact ⟨_, _, _, consistent.pass here (by simp) (.refl _) trivial rfl id id rfl rfl⟩
      · obtain rfl := Option.some.inj stepped
        exact ⟨_, _, _, consistent.pass here (by simp) (.refl _) trivial rfl id id rfl rfl⟩
  | popRead =>
      obtain rfl := Option.some.inj stepped
      exact ⟨_, _, _, consistent.goto here (by simp) (.refl _) ⟨rfl, allowed.1⟩ rfl
        (fun _ => Or.inr allowed.2) False.elim rfl rfl⟩
  | popWrite top =>
      obtain rfl := Option.some.inj stepped
      exact ⟨_, _, _, consistent.popWrite here⟩
  | popCell top =>
      simp only [KvSys.exec] at stepped
      split at stepped
      · simp at stepped
      · obtain rfl := Option.some.inj stepped
        exact ⟨_, _, _, consistent.pass here (by simp) (.refl _) trivial rfl id id rfl rfl⟩
  | fillKey idx =>
      obtain rfl := Option.some.inj stepped
      exact ⟨_, _, _, consistent.pass here (by simp) (.setEntry _ idx rfl) trivial rfl id id
        rfl rfl⟩
  | fillValue idx =>
      obtain rfl := Option.some.inj stepped
      exact ⟨_, _, _, consistent.pass here (by simp) (.setEntry _ idx rfl) trivial rfl id id
        rfl rfl⟩
  | fillLen idx =>
      obtain rfl := Option.some.inj stepped
      exact ⟨_, _, _, consistent.pass here (by simp) (.setEntry _ idx rfl) trivial rfl id id
        rfl rfl⟩
  | fillSubs idx =>
      obtain rfl := Option.some.inj stepped
      exact ⟨_, _, _, consistent.pass here (by simp) (.setEntry _ idx rfl) trivial rfl id id
        rfl rfl⟩
  | linkRead idx =>
      obtain rfl := Option.some.inj stepped
      exact ⟨_, _, _, consistent.pass here (by simp) (.refl _) rfl rfl id id rfl rfl⟩
  | linkNext idx start =>
      obtain rfl := Option.some.inj stepped
      exact ⟨_, _, _, consistent.linkNext here⟩
  | linkFirst idx =>
      obtain rfl := Option.some.inj stepped
      exact ⟨_, _, _, consistent.linkFirst here⟩
  | incRead =>
      obtain rfl := Option.some.inj stepped
      exact ⟨_, _, _, consistent.goto here (by simp) (.refl _) rfl rfl False.elim
        (fun _ => Or.inr allowed) rfl rfl⟩
  | incWrite used =>
      obtain rfl : used = _ := known
      obtain rfl := Option.some.inj stepped
      exact ⟨_, _, _, consistent.writeUsed here (by simp) trivial rfl rfl (uint32Inc_lt _)
        (uint32Inc_modEq _)⟩
  | unlinkRead prev idx =>
      obtain rfl := Option.some.inj stepped
      exact ⟨_, _, _, consistent.pass here (by simp) (.refl _) ⟨known, rfl⟩ rfl id id rfl rfl⟩
  | unlinkWrite prev idx next =>
      obtain rfl := Option.some.inj stepped
      obtain ⟨chains', owner', after'⟩ := consistent.unlinkWrite here
      exact ⟨chains', owner', depth, after'⟩
  | freeSubs idx =>
      obtain rfl := Option.some.inj stepped
      exact ⟨_, _, _, consistent.pass here (by simp) (.setEntry _ idx rfl) trivial rfl id id
        rfl rfl⟩
  | pushRead idx =>
      obtain rfl := Option.some.inj stepped
      exact ⟨_, _, _, consistent.goto here (by simp) (.refl _) rfl rfl
        (fun _ => Or.inr allowed) False.elim rfl rfl⟩
  | pushWrite idx top =>
      obtain rfl := Option.some.inj stepped
      exact ⟨_, _, _, consistent.pushWrite here⟩
  | pushCell idx top =>
      simp only [KvSys.exec] at stepped
      split at stepped
      · simp at stepped
      · obtain rfl := Option.some.inj stepped
        exact ⟨_, _, _, consistent.pushCell here⟩
  | decRead =>
      obtain rfl := Option.some.inj stepped
      exact ⟨_, _, _, consistent.goto here (by simp) (.refl _) rfl rfl False.elim
        (fun _ => Or.inr allowed) rfl rfl⟩
  | decWrite used =>
      obtain rfl : used = _ := known
      obtain rfl := Option.some.inj stepped
      exact ⟨_, _, _, consistent.writeUsed here (by simp) trivial rfl rfl
        (uint32Dec_lt shape.used_lt) (uint32Dec_modEq _)⟩
  | unlock status =>
      obtain rfl := Option.some.inj stepped
      exact ⟨_, _, _, consistent.release here⟩

/-- A step that keeps apart from the other calls keeps the system consistent. -/
theorem Consistent.step (consistent : sys.Consistent schema chains owner depth)
    {label : Label K ι} (allowed : sys.KeepsApart label) {sys' : KvSys K ι}
    (stepped : sys.step schema label = some sys') :
    ∃ chains' owner' depth', sys'.Consistent schema chains' owner' depth' := by
  cases label with
  | start thread call =>
      simp only [KvSys.step] at stepped
      split at stepped
      · simp at stepped
      · rename_i idle
        split at stepped
        · obtain rfl := Option.some.inj stepped
          exact ⟨chains, owner, depth, consistent⟩
        · obtain rfl := Option.some.inj stepped
          exact ⟨chains, owner, depth, consistent.start idle call⟩
  | move thread =>
      simp only [KvSys.step] at stepped
      split at stepped
      · simp at stepped
      · rename_i call point here
        exact consistent.exec here allowed stepped

end KvSys

/-- Every slot is in one place of one chain or on the stack of unused slots, and the counters say
how many are in each. -/
structure Accounted (schema : Schema K) (table : Table K) (chains : Nat → List Nat) : Prop where
  /-- Following the links of a bucket visits its chain and ends. -/
  linked : ∀ bucket, Chain.Linked table.nextIdx (table.buckets bucket).firstIdx (chains bucket)
  /-- No slot is in two places of a chain. -/
  nodup : ∀ bucket, (chains bucket).Nodup
  /-- No slot is in two chains. -/
  once : ∀ bucket bucket' idx, idx ∈ chains bucket → idx ∈ chains bucket' → bucket = bucket'
  /-- No slot is both in a chain and on the stack. -/
  exclusive : ∀ bucket, ∀ idx ∈ chains bucket, idx ∉ table.free
  /-- Every slot is in a chain or on the stack. -/
  covered : ∀ idx < schema.capacity, (∃ bucket, idx ∈ chains bucket) ∨ idx ∈ table.free
  /-- The counter is the number of slots in the chains. -/
  used : table.usedCount = Set.ncard { idx | ∃ bucket, idx ∈ chains bucket }
  /-- The counter and the stack make up the capacity. -/
  top : (schema.capacity : Int) = table.usedCount + table.freeTop + 1

namespace KvSys

variable [Fintype ι] {schema : Schema K} {sys : KvSys K ι} {chains : Nat → List Nat}
  {owner : Nat → Owner ι} {depth : Nat}

/-- A consistent system without calls in progress has every slot in its place. -/
theorem Consistent.accounted (consistent : sys.Consistent schema chains owner depth)
    (quiet : sys.Quiescent) : Accounted schema sys.table chains := by
  have shape := consistent.shape
  have measure_zero (value : Point → Int) (thread : ι) : sys.measure value thread = 0 := by
    simp [measure, quiet thread]
  have depth_eq := consistent.depth_eq
  have total := consistent.total
  simp only [measure_zero, Finset.sum_const_zero, add_zero] at depth_eq total
  have free_eq : sys.table.free = (List.range depth).map sys.table.freeStack := by
    rw [Table.free, depth_eq, Int.toNat_natCast]
  have unheld (thread : ι) (idx : Nat) (inside : idx < schema.capacity) :
      owner idx ≠ .thread thread := by
    intro owned
    have held := ((consistent.threads thread).holding idx).mpr ⟨inside, owned⟩
    simp [quiet thread] at held
  have linked_iff (idx : Nat) : (∃ bucket, idx ∈ chains bucket) ↔
      idx < schema.capacity ∧ idx ∉ sys.table.free := by
    rw [free_eq, shape.stacked]
    simp only [shape.chained]
    constructor
    · rintro ⟨bucket, inside, owned⟩
      exact ⟨inside, by simp [owned]⟩
    · rintro ⟨inside, unused⟩
      cases owned : owner idx with
      | chain bucket => exact ⟨bucket, inside, rfl⟩
      | stack => exact absurd ⟨inside, owned⟩ unused
      | thread thread => exact absurd owned (unheld thread idx inside)
  have subset : sys.table.free.toFinset ⊆ Finset.range schema.capacity := by
    intro idx member
    rw [List.mem_toFinset, free_eq, shape.stacked] at member
    exact Finset.mem_range.mpr member.1
  have free_card : sys.table.free.toFinset.card = depth := by
    rw [List.toFinset_card_of_nodup (free_eq ▸ shape.stack_nodup), free_eq]
    simp
  have linked_card : Set.ncard { idx | ∃ bucket, idx ∈ chains bucket } =
      schema.capacity - depth := by
    have set_eq : { idx | ∃ bucket, idx ∈ chains bucket } =
        ((Finset.range schema.capacity \ sys.table.free.toFinset : Finset Nat) : Set Nat) := by
      ext idx
      simp [linked_iff]
    rw [set_eq, Set.ncard_coe_finset, Finset.card_sdiff_of_subset subset, Finset.card_range,
      free_card]
  have depth_le : depth ≤ schema.capacity := by
    simpa [free_card] using Finset.card_le_card subset
  have used_eq : sys.table.usedCount = schema.capacity - depth := by
    have := shape.used_lt
    have := schema.capacity_lt
    simp only [Int.ModEq] at total
    omega
  refine ⟨shape.linked, fun bucket => (shape.linked bucket).nodup, ?_, ?_, ?_, ?_, ?_⟩
  · intro bucket bucket' idx member member'
    have owned := ((shape.chained bucket idx).mp member).2
    have owned' := ((shape.chained bucket' idx).mp member').2
    simpa [owned] using owned'
  · intro bucket idx member
    exact ((linked_iff idx).mp ⟨bucket, member⟩).2
  · intro idx inside
    by_cases unused : idx ∈ sys.table.free
    · exact Or.inr unused
    · exact Or.inl ((linked_iff idx).mpr ⟨inside, unused⟩)
  · rw [linked_card, used_eq]
  · omega

theorem Initial.consistent (initial : sys.Initial schema) :
    sys.Consistent schema (fun _ => []) (fun _ => .stack) schema.capacity := by
  obtain ⟨table_eq, _, idle⟩ := initial
  have at_none (property : Point → Prop) (thread : ι) : ¬ sys.At property thread := by
    simp [At, idle]
  have measure_zero (value : Point → Int) (thread : ι) : sys.measure value thread = 0 := by
    simp [measure, idle]
  refine ⟨⟨?_, ?_, ?_, ?_, ?_⟩, ?_, ?_, ?_, ?_, ?_⟩
  · intro bucket
    simp [table_eq, nosKvTableCreate]
  · simp
  · simp [table_eq, nosKvTableCreate]
  · simpa [table_eq, nosKvTableCreate] using List.nodup_range
  · simp [table_eq, nosKvTableCreate]
  · intro thread
    refine ⟨?_, ?_, ?_⟩
    · simp [idle]
    · simp [idle]
    · simp [idle]
  · exact fun thread _ inside => absurd inside (at_none _ thread)
  · exact fun thread _ inside => absurd inside (at_none _ thread)
  · simp [measure_zero, table_eq, nosKvTableCreate]
  · simp [measure_zero, table_eq, nosKvTableCreate, Int.ModEq]

variable [DecidableEq ι] [DecidableEq K]

/-- In every run whose pops, pushes and counter updates keep apart, every state without a call in
progress has each slot linked once or unused, and the right counters. -/
theorem accounted_of_keepsApart
    (reach : Transition.Reach (KvSys.step schema) KeepsApart (Initial schema) sys)
    (quiet : sys.Quiescent) : ∃ chains, Accounted schema sys.table chains := by
  have consistent : ∃ chains owner depth, sys.Consistent schema chains owner depth := by
    refine reach.invariant
      (fun state => ∃ chains owner depth, state.Consistent schema chains owner depth) ?_ ?_
    · intro state initial
      exact ⟨_, _, _, initial.consistent⟩
    · rintro before label after ⟨chains, owner, depth, consistent⟩ allowed stepped
      exact consistent.step allowed stepped
  obtain ⟨chains, owner, depth, consistent⟩ := consistent
  exact ⟨chains, consistent.accounted quiet⟩

/-- Two slots, and a bucket for each of the keys 0 and 1. -/
def twoSlots : Schema Nat where
  hash key := key
  zeroKey := 0
  maxValSize := 1
  capacity := 2
  bucketCount := 2
  capacity_lt := two_lt_limit

/-- A new table of two slots shared by two threads. -/
def twoThreads : KvSys Nat Bool where
  table := nosKvTableCreate twoSlots
  lock _ := none
  pc _ := none

theorem twoThreads_initial : twoThreads.Initial twoSlots :=
  ⟨rfl, fun _ => rfl, fun _ => rfl⟩

/-- Both threads make so many accesses in turn. -/
def inTurn (count : Nat) : List (Label Nat Bool) :=
  (List.replicate count [.move false, .move true]).flatten

/-- Both threads put a new key.  They look for it and fill their slots in turn, and only the accesses
of the stack and of the counter do not overlap. -/
def putsInTurn : List (Label Nat Bool) :=
  [.start false (.put 0 (some [7]) 1), .start true (.put 1 (some [8]) 1)] ++ inTurn 4 ++
    List.replicate 3 (.move false) ++ List.replicate 3 (.move true) ++ inTurn 7 ++
    List.replicate 2 (.move false) ++ List.replicate 2 (.move true) ++ inTurn 1

/-- Both threads put a new key, and both read the stack top before either writes it. -/
def overlappingPops : List (Label Nat Bool) :=
  [.start false (.put 0 (some [7]) 1), .start true (.put 1 (some [8]) 1)] ++
    List.replicate 5 (.move false) ++ List.replicate 5 (.move true) ++
    List.replicate 12 (.move false) ++ List.replicate 12 (.move true)

/-- Whether both threads are idle and the two chains start at the given slots. -/
def endsWith (first second : Nat) (sys : KvSys Nat Bool) : Bool :=
  (sys.pc false).isNone && (sys.pc true).isNone &&
    (sys.table.buckets 0).firstIdx == some first && (sys.table.buckets 1).firstIdx == some second

theorem endsWith_quiescent {first second : Nat} {sys : KvSys Nat Bool}
    (ends : endsWith first second sys) : sys.Quiescent := by
  intro thread
  cases thread <;> simp_all [endsWith]

/-- Two overlapping puts on different buckets link the same slot into two chains. -/
theorem overlappingPops_share_slot :
    ∃ sys : KvSys Nat Bool,
      Transition.Reachable (KvSys.step twoSlots) (Initial twoSlots) sys ∧ sys.Quiescent ∧
        ¬ ∃ chains, Accounted twoSlots sys.table chains := by
  have shared : (Transition.run (KvSys.step twoSlots) twoThreads overlappingPops).map
      (endsWith 1 1) = some true := by decide +kernel
  obtain ⟨sys, execution, ends⟩ := Option.map_eq_some_iff.mp shared
  refine ⟨sys, Transition.reachable_of_run (.start twoThreads_initial) execution,
    endsWith_quiescent ends, ?_⟩
  rintro ⟨chains, accounted⟩
  obtain ⟨⟨_, first⟩, second⟩ : (_ ∧ (sys.table.buckets 0).firstIdx = some 1) ∧
      (sys.table.buckets 1).firstIdx = some 1 := by simpa [endsWith] using ends
  have member : 1 ∈ chains 0 :=
    List.mem_of_mem_head? ((accounted.linked 0).start_eq.symm.trans first)
  have member' : 1 ∈ chains 1 :=
    List.mem_of_mem_head? ((accounted.linked 1).start_eq.symm.trans second)
  exact absurd (accounted.once 0 1 1 member member') (by decide)

/-- Two puts that overlap elsewhere take a slot each. -/
theorem accounted_of_putsInTurn :
    ∃ sys : KvSys Nat Bool,
      Transition.runGuarded (KvSys.step twoSlots) KeepsApart twoThreads putsInTurn = some sys ∧
        endsWith 1 0 sys ∧ ∃ chains, Accounted twoSlots sys.table chains := by
  have apart : (Transition.runGuarded (KvSys.step twoSlots) KeepsApart twoThreads putsInTurn).map
      (endsWith 1 0) = some true := by decide +kernel
  obtain ⟨sys, execution, ends⟩ := Option.map_eq_some_iff.mp apart
  exact ⟨sys, execution, ends, accounted_of_keepsApart
    (Transition.reach_of_runGuarded (.start twoThreads_initial) execution)
    (endsWith_quiescent ends)⟩

end KvSys

end CodexNos.Kv
