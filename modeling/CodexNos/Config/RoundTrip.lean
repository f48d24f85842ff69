import CodexNos.Config.Manifest

/-!
# What a node reads of its manifest

The loops of a node read exactly the threads, components and bins of the configuration if these fit:
at most seven threads with at most fifteen components each, at most eight bins, numbers of 32 bits,
and names that a string literal can hold as they are.  Otherwise a terminator is missing, a number is
cut off, or a name is read as another one.
-/

namespace CodexNos.Config

open Lib

/-! ## Configured contents -/

/-- A component in the list of a thread. -/
structure Row where
  id : Scalar
  name : String
  lib : String
  deriving DecidableEq, Repr

/-- The row of a component. -/
def ConfigData.rowOf (data : ConfigData) (name : String) : Row :=
  match data.components.find? fun comp => comp.name = some name with
  | none => ⟨.other "None", name, ""⟩
  | some comp =>
      let lib := (data.models.find? fun model => model.name = comp.model).bind (·.lib)
      ⟨comp.id, name, textOf lib⟩

/-- A component as it can be compared. -/
structure CompView where
  id : Option Int
  name : Option (List UInt8)
  lib : Option (List UInt8)
  deriving DecidableEq, Repr

/-- A bin as it can be compared. -/
structure BinView where
  size : Option Int
  count : Option Int
  deriving DecidableEq, Repr

/-- A thread as it can be compared. -/
structure ThreadView where
  name : List UInt8
  comps : List CompView
  deriving DecidableEq, Repr

/-- The threads and the bins of a node. -/
structure Contents where
  threads : List ThreadView
  bins : List BinView
  deriving DecidableEq, Repr

def Row.view (row : Row) : CompView := ⟨row.id.toInt?, some (utf8 row.name), some (utf8 row.lib)⟩

def BinConf.view (bin : BinConf) : BinView := ⟨bin.size.toInt?, bin.count.toInt?⟩

/-- The threads of a node with the rows of their components. -/
def ConfigData.rows (data : ConfigData) (node : NodeConf) : List (String × List Row) :=
  node.threads.map fun thread => (textOf thread.name, thread.components.map data.rowOf)

/-- The bins of the profile of a node. -/
def ConfigData.binsOf (data : ConfigData) (node : NodeConf) : List BinConf :=
  ((data.profiles.find? fun profile => profile.name = some node.profile).map (·.bins)).getD []

/-- What is configured for a node. -/
def ConfigData.configured (data : ConfigData) (node : NodeConf) : Contents where
  threads := (data.rows node).map fun entry => ⟨utf8 entry.1, entry.2.map Row.view⟩
  bins := (data.binsOf node).map BinConf.view

/-! ## Contents of a manifest -/

def ReadComp.view (comp : ReadComp) : CompView := ⟨some comp.id.toNat, comp.name, comp.model⟩

def poolView (pool : Memory.PoolDef) : BinView :=
  ⟨some pool.chunkSize.toNat, some pool.chunkCount.toNat⟩

/-- What a node reads. -/
def NosNodeDef.contents (node : NosNodeDef) : Option Contents :=
  node.readThreads.bind fun threads =>
    node.readPools.map fun pools =>
      { threads := threads.map fun entry => ⟨entry.1, entry.2.map ReadComp.view⟩
        bins := pools.map poolView }

/-- A node reads what is configured for it. -/
def RoundTrip (data : ConfigData) (node : NodeConf) : Prop :=
  ((data.resolveNode node).bind fun resolved =>
    (generateNodeManifest resolved).compile.bind NosNodeDef.contents) = some (data.configured node)

instance (data : ConfigData) (node : NodeConf) : Decidable (RoundTrip data node) :=
  inferInstanceAs (Decidable (_ = _))

/-! ## What fits -/

/-- A number that is written as one and has 32 bits. -/
def Scalar.Fits (value : Scalar) : Prop := ∃ number, value = .int number ∧ number < 2 ^ 32

/-- A number that is written as one. -/
def Scalar.Numeric (value : Scalar) : Prop := ∃ number, value = .int number

/-- A name that a string literal holds as it is. -/
def IsPlain (text : String) : Prop := CString.Plain (utf8 text)

/-- A text that is a string literal between quotes. -/
def Readable (text : String) : Prop := (CString.value (CString.quoted (utf8 text))).isSome

/-- The row of a component fits. -/
structure Row.Fits (row : Row) : Prop where
  id : row.id.Fits
  name : IsPlain row.name
  lib : IsPlain row.lib

/-- The compiler accepts the line of a service. -/
structure ResolvedService.Accepted (svc : ResolvedService) : Prop where
  name : Readable svc.name
  id : svc.id.Numeric
  node : Readable svc.node
  providerId : (svc.providerId.getD (.int 0)).Numeric
  udsPath : Readable (svc.udsPath.getD "")

/-- The configuration of a node fits into its manifest. -/
structure Fits (data : ConfigData) (node : NodeConf) : Prop where
  threads : node.threads.length < 8
  components : ∀ thread ∈ node.threads, thread.components.length < 16
  threadNames : ∀ thread ∈ node.threads, IsPlain (textOf thread.name)
  rows : ∀ thread ∈ node.threads, ∀ comp ∈ thread.components, (data.rowOf comp).Fits
  bins : (data.binsOf node).length ≤ 8
  sizes : ∀ bin ∈ data.binsOf node, bin.size.Fits ∧ bin.count.Fits
  /-- The rest of the manifest compiles. -/
  services : ∀ svc ∈ data.resolvedServices node, svc.Accepted
  busyPoll : node.busyPoll.Numeric
  name : Readable (textOf node.name)
  udsPath : Readable (textOf node.udsPath)

/-! ## Literals -/

theorem toUInt32_emit {value : Scalar} {number : UInt32}
    (compiled : value.emit.toUInt32 = some number) :
    ∃ given, value = .int given ∧ number = UInt32.ofInt given := by
  cases value with
  | int given => exact ⟨given, rfl, (Option.some.inj compiled).symm⟩
  | bool given => simp [Scalar.emit, Expr.toUInt32] at compiled
  | other text => simp [Scalar.emit, Expr.toUInt32] at compiled

theorem toNat_ofInt {number : Int} (nonneg : 0 ≤ number) (small : number < 2 ^ 32) :
    ((UInt32.ofInt number).toNat : Int) = number := by
  rw [UInt32.ofInt, UInt32.toNat_ofNat']
  omega

theorem fits_of_view {value : Scalar} {number : UInt32}
    (compiled : value.emit.toUInt32 = some number) (same : some (number.toNat : Int) = value.toInt?) :
    value.Fits := by
  obtain ⟨given, rfl, rfl⟩ := toUInt32_emit compiled
  refine ⟨given, rfl, ?_⟩
  have small := (UInt32.ofInt given).toNat_lt
  have equal : ((UInt32.ofInt given).toNat : Int) = given := Option.some.inj same
  omega

theorem Scalar.Fits.compile {value : Scalar} (fits : value.Fits) (positive : value.Positive) :
    ∃ number, value.emit.toUInt32 = some number ∧ some (number.toNat : Int) = value.toInt? ∧
      0 < number := by
  obtain ⟨given, rfl, small⟩ := fits
  obtain ⟨_, same, above⟩ := positive
  obtain rfl := Option.some.inj same
  have equal := toNat_ofInt above.le small
  refine ⟨UInt32.ofInt given, rfl, congrArg some equal, ?_⟩
  rw [UInt32.lt_iff_toNat_lt]
  simp only [UInt32.toNat_zero]
  omega

theorem toPointer_quoted {text : String} {pointer : Option (List UInt8)}
    (compiled : (quoted text).toPointer = some pointer) :
    ∃ bytes, CString.value (CString.quoted (utf8 text)) = some bytes ∧ pointer = some bytes := by
  obtain ⟨bytes, read, rfl⟩ := Option.map_eq_some_iff.mp compiled
  exact ⟨bytes, read, rfl⟩

theorem toPointer_quoted_plain_iff {text : String} :
    (quoted text).toPointer = some (some (utf8 text)) ↔ IsPlain text := by
  rw [IsPlain, ← CString.value_quoted_iff]
  constructor
  · intro compiled
    obtain ⟨bytes, read, same⟩ := toPointer_quoted compiled
    obtain rfl := Option.some.inj same
    exact read
  · intro read
    rw [quoted, Expr.toPointer, read]
    rfl

/-! ## Arrays -/

theorem mapM_at {α β : Type} {convert : α → Option β} {items : List α} {results : List β}
    (done : items.mapM convert = some results) {place : Nat} {item : α}
    (found : items[place]? = some item) :
    ∃ result, convert item = some result ∧ results[place]? = some result := by
  have same := congrArg (fun list => list[place]?) (mapM_eq_some_iff.mp done)
  simp only [List.getElem?_map, found, Option.map_some] at same
  obtain ⟨result, at_place, converted⟩ := Option.map_eq_some_iff.mp same.symm
  exact ⟨result, converted.symm, at_place⟩

theorem initialised_at {α : Type} {size : Nat} {blank item : α} {items : List α} {place : Nat}
    (found : items[place]? = some item) (inside : place < size) :
    (initialised size blank items)[place]? = some item := by
  rw [getElem?_initialised, if_pos inside, List.getD_eq_getElem?_getD, found]
  rfl

/-! ## Threads -/

/-- A thread with the components of some rows. -/
def threadOf (entry : String × List Row) : ResolvedThread where
  name := entry.1
  compIds := entry.2.map (·.id)
  compNames := entry.2.map (·.name)
  compLibs := entry.2.map fun row => some row.lib

/-- A thread is read as its rows. -/
structure ReadsAs (entry : String × List Row) (thread : NosThreadDef) (comps : List ReadComp) :
    Prop where
  compiled : (threadOf entry).emit.compile = some thread
  name : thread.name = some (utf8 entry.1)
  scanned : scanArray thread.readComp Node.maxComponentsPerNode 0 = some comps
  same : comps.map ReadComp.view = entry.2.map Row.view

theorem readComp_beyond {thread : NosThreadDef} {place : Nat} (beyond : 16 ≤ place) :
    thread.readComp place = none := by
  rw [NosThreadDef.readComp, Vector.getElem?_eq_none beyond]
  rfl

theorem texts_at {entry : String × List Row} {place : Nat} {row : Row}
    (found : entry.2[place]? = some row) :
    (threadOf entry).emit.compIds[place]? = some row.id.emit ∧
      (threadOf entry).emit.compNames[place]? = some (quoted row.name) ∧
      (threadOf entry).emit.compModels[place]? = some (quoted row.lib) := by
  have inside : place < entry.2.length := (List.getElem?_eq_some_iff.mp found).1
  have at_place {β : Type} (text : Row → β) (last : β) :
      (entry.2.map text ++ [last])[place]? = some (text row) := by
    rw [List.getElem?_append_left (by simpa using inside), List.getElem?_map, found]
    rfl
  simp only [threadOf, ResolvedThread.emit, List.map_map]
  exact ⟨at_place _ _, at_place _ _, at_place _ _⟩

theorem ReadsAs.fits {entry : String × List Row} {thread : NosThreadDef} {comps : List ReadComp}
    (reads : ReadsAs entry thread comps) :
    entry.2.length < 16 ∧ IsPlain entry.1 ∧ ∀ row ∈ entry.2, row.Fits := by
  obtain ⟨name, named, compiled⟩ := Option.bind_eq_some_iff.mp reads.compiled
  obtain ⟨ids, numbered, compiled⟩ := Option.bind_eq_some_iff.mp compiled
  obtain ⟨names, compNamed, compiled⟩ := Option.bind_eq_some_iff.mp compiled
  obtain ⟨models, modelled, rfl⟩ := Option.map_eq_some_iff.mp compiled
  have length : comps.length = entry.2.length := by
    have lengths := congrArg List.length reads.same
    rwa [List.length_map, List.length_map] at lengths
  have short : comps.length < 16 :=
    length_lt_of_scanArray reads.scanned (by decide) fun place beyond => readComp_beyond beyond
  refine ⟨length ▸ short, ?_, fun row member => ?_⟩
  · rw [← toPointer_quoted_plain_iff, ← reads.name]
    exact named
  · obtain ⟨place, at_place⟩ := List.mem_iff_getElem?.mp member
    have inside : place < comps.length := by
      rw [length]
      exact (List.getElem?_eq_some_iff.mp at_place).1
    have view := congrArg (fun list => list[place]?) reads.same
    simp only [List.getElem?_map, at_place, Option.map_some] at view
    obtain ⟨comp, taken, same⟩ := Option.map_eq_some_iff.mp view
    have read := read_of_scanArray reads.scanned inside
    rw [taken] at read
    obtain ⟨id_text, name_text, lib_text⟩ := texts_at at_place
    obtain ⟨number, id, id_at⟩ := mapM_at numbered id_text
    obtain ⟨pointer, compName, name_at⟩ := mapM_at compNamed name_text
    obtain ⟨pointer', lib, lib_at⟩ := mapM_at modelled lib_text
    have room : place < 16 := inside.trans short
    simp only [NosThreadDef.readComp, initialised_at id_at room, initialised_at name_at room,
      initialised_at lib_at room, Option.bind_some, Option.map_some] at read
    split at read
    · simp at read
    · obtain rfl := Option.some.inj (Option.some.inj read)
      obtain ⟨ids_eq, names_eq, libs_eq⟩ := CompView.mk.inj same
      refine ⟨fits_of_view id ids_eq, ?_, ?_⟩
      · rw [← toPointer_quoted_plain_iff]
        exact names_eq ▸ compName
      · rw [← toPointer_quoted_plain_iff]
        exact libs_eq ▸ lib

theorem mapM_terminated {α β γ : Type} {convert : β → Option γ} {text : α → β} {items : List α}
    {last : β} {result : α → γ} {final : γ}
    (each : ∀ item ∈ items, convert (text item) = some (result item))
    (ended : convert last = some final) :
    (items.map text ++ [last]).mapM convert = some (items.map result ++ [final]) := by
  rw [mapM_eq_some_iff, List.map_append, List.map_append, List.map_map, List.map_map]
  congr 1
  · exact List.map_congr_left each
  · simp [ended]

theorem getElem?_terminated {α β : Type} {items : List α} {result : α → β} {final : β} {place : Nat}
    (inside : place ≤ items.length) :
    (items.map result ++ [final])[place]? = some ((items[place]?.map result).getD final) := by
  rcases Nat.lt_or_eq_of_le inside with room | rfl
  · rw [List.getElem?_append_left (by simpa using room), List.getElem?_map,
      List.getElem?_eq_getElem room]
    rfl
  · simp

theorem exists_readsAs {entry : String × List Row} (short : entry.2.length < 16)
    (named : IsPlain entry.1) (fits : ∀ row ∈ entry.2, row.Fits)
    (positive : ∀ row ∈ entry.2, row.id.Positive) :
    ∃ thread comps, ReadsAs entry thread comps := by
  have compiled : ∀ row ∈ entry.2, ∃ number, row.id.emit.toUInt32 = some number ∧
      some (number.toNat : Int) = row.id.toInt? ∧ 0 < number := fun row member =>
    (fits row member).id.compile (positive row member)
  choose! number compiled same above using compiled
  have ids : (threadOf entry).emit.compIds.mapM Expr.toUInt32 =
      some (entry.2.map number ++ [0]) := by
    simp only [threadOf, ResolvedThread.emit, List.map_map]
    exact mapM_terminated compiled rfl
  have names : (threadOf entry).emit.compNames.mapM Expr.toPointer =
      some (entry.2.map (fun row => some (utf8 row.name)) ++ [none]) := by
    simp only [threadOf, ResolvedThread.emit, List.map_map]
    exact mapM_terminated
      (fun row member => toPointer_quoted_plain_iff.mpr (fits row member).name) rfl
  have models : (threadOf entry).emit.compModels.mapM Expr.toPointer =
      some (entry.2.map (fun row => some (utf8 row.lib)) ++ [none]) := by
    simp only [threadOf, ResolvedThread.emit, List.map_map]
    exact mapM_terminated
      (fun row member => toPointer_quoted_plain_iff.mpr (fits row member).lib) rfl
  let thread : NosThreadDef :=
    { name := some (utf8 entry.1)
      compIds := initialised 16 0 (entry.2.map number ++ [0])
      compNames := initialised 16 none (entry.2.map (fun row => some (utf8 row.name)) ++ [none])
      compModels := initialised 16 none (entry.2.map (fun row => some (utf8 row.lib)) ++ [none]) }
  let comps := entry.2.map fun row =>
    (⟨number row, some (utf8 row.name), some (utf8 row.lib)⟩ : ReadComp)
  refine ⟨thread, comps, ?_, rfl, ?_, ?_⟩
  · have name : (threadOf entry).emit.name.toPointer = some (some (utf8 entry.1)) :=
      toPointer_quoted_plain_iff.mpr named
    rw [ThreadInit.compile, name, ids, names, models]
    rfl
  · refine scanArray_of_found ?_ fun place inside => ?_
    · rw [List.length_map]
      exact short.le.trans (by decide)
    · rw [List.length_map] at inside
      have room : place < 16 := inside.trans_lt short
      rw [NosThreadDef.readComp, initialised_at (getElem?_terminated inside) room,
        initialised_at (getElem?_terminated inside) room,
        initialised_at (getElem?_terminated inside) room, List.getElem?_map]
      cases found : entry.2[place]? with
      | none => rfl
      | some row =>
          have nonzero : number row ≠ 0 := by
            intro zero
            have positive := above row (List.mem_of_getElem? found)
            rw [zero] at positive
            exact absurd positive (by decide)
          simp [nonzero]
  · rw [List.map_map]
    refine List.map_congr_left fun row member => ?_
    simp [Row.view, ReadComp.view, same row member]

/-! ## Bins -/

/-- The text of some bins. -/
def poolTexts (bins : List BinConf) : List PoolInit :=
  bins.map BinConf.emit ++ [⟨.number 0, none⟩]

theorem compile_bin {bin : BinConf} {pool : Memory.PoolDef}
    (compiled : bin.emit.compile = some pool) :
    bin.size.emit.toUInt32 = some pool.chunkSize ∧
      bin.count.emit.toUInt32 = some pool.chunkCount := by
  obtain ⟨size, sized, compiled⟩ := Option.bind_eq_some_iff.mp compiled
  obtain ⟨count, counted, rfl⟩ := Option.map_eq_some_iff.mp compiled
  exact ⟨sized, counted⟩

theorem bins_fit {bins : List BinConf} {node : NosNodeDef} {given pools : List Memory.PoolDef}
    (compiled : (poolTexts bins).mapM PoolInit.compile = some given)
    (filled : node.bufferPools = given)
    (scanned : node.readPools = some pools) (same : pools.map poolView = bins.map BinConf.view) :
    bins.length ≤ 8 ∧ ∀ bin ∈ bins, bin.size.Fits ∧ bin.count.Fits := by
  have length : pools.length = bins.length := by
    have lengths := congrArg List.length same
    rwa [List.length_map, List.length_map] at lengths
  refine ⟨length ▸ (scanArray_eq_some_iff.mp scanned).1, fun bin member => ?_⟩
  obtain ⟨place, at_place⟩ := List.mem_iff_getElem?.mp member
  have inside : place < bins.length := (List.getElem?_eq_some_iff.mp at_place).1
  have view := congrArg (fun list => list[place]?) same
  simp only [List.getElem?_map, at_place, Option.map_some] at view
  obtain ⟨pool, taken, same'⟩ := Option.map_eq_some_iff.mp view
  have read := read_of_scanArray scanned (length.symm ▸ inside)
  have text : (poolTexts bins)[place]? = some bin.emit := by
    rw [poolTexts, List.getElem?_append_left (by simpa using inside), List.getElem?_map, at_place]
    rfl
  obtain ⟨compiledBin, converted, given_at⟩ := mapM_at compiled text
  rw [taken, NosNodeDef.readPool, filled, given_at, Option.map_some] at read
  split at read
  · obtain rfl := Option.some.inj (Option.some.inj read)
    obtain ⟨sized, counted⟩ := compile_bin converted
    obtain ⟨size_eq, count_eq⟩ := BinView.mk.inj same'
    exact ⟨fits_of_view sized size_eq, fits_of_view counted count_eq⟩
  · simp at read

theorem exists_pools {bins : List BinConf} (short : bins.length ≤ 8)
    (fits : ∀ bin ∈ bins, bin.size.Fits ∧ bin.count.Fits)
    (positive : ∀ bin ∈ bins, bin.size.Positive ∧ bin.count.Positive) :
    ∃ given pools, (poolTexts bins).mapM PoolInit.compile = some given ∧
      pools.map poolView = bins.map BinConf.view ∧
      ∀ node : NosNodeDef, node.bufferPools = given → node.readPools = some pools := by
  have sizes : ∀ bin ∈ bins, ∃ number, bin.size.emit.toUInt32 = some number ∧
      some (number.toNat : Int) = bin.size.toInt? ∧ 0 < number := fun bin member =>
    (fits bin member).1.compile (positive bin member).1
  have counts : ∀ bin ∈ bins, ∃ number, bin.count.emit.toUInt32 = some number ∧
      some (number.toNat : Int) = bin.count.toInt? ∧ 0 < number := fun bin member =>
    (fits bin member).2.compile (positive bin member).2
  choose! size sized size_eq above using sizes
  choose! count counted count_eq _ using counts
  let pool (bin : BinConf) : Memory.PoolDef := ⟨size bin, count bin⟩
  refine ⟨bins.map pool ++ [⟨0, 0⟩], bins.map pool, ?_, ?_, fun node given => ?_⟩
  · refine mapM_terminated (fun bin member => ?_) rfl
    rw [BinConf.emit, PoolInit.compile, sized bin member, field, counted bin member]
    rfl
  · rw [List.map_map]
    refine List.map_congr_left fun bin member => ?_
    simp [pool, poolView, BinConf.view, size_eq bin member, count_eq bin member]
  · refine scanArray_of_found (by simpa [Memory.maxBins] using short) fun place inside => ?_
    rw [List.length_map] at inside
    rw [NosNodeDef.readPool, given, getElem?_terminated inside, List.getElem?_map]
    cases found : bins[place]? with
    | none => rfl
    | some bin =>
        have positive := above bin (List.mem_of_getElem? found)
        simp [pool, positive]

/-! ## The rest of the manifest -/

theorem isSome_toUInt32_emit {value : Scalar} : value.emit.toUInt32.isSome ↔ value.Numeric := by
  cases value <;> simp [Scalar.emit, Expr.toUInt32, Scalar.Numeric]

theorem isSome_toPointer_quoted {text : String} : (quoted text).toPointer.isSome ↔ Readable text := by
  simp [quoted, Expr.toPointer, Readable]

theorem isSome_compile_service {svc : ResolvedService} : svc.emit.compile.isSome ↔ svc.Accepted := by
  constructor
  · intro compiled
    obtain ⟨result, compiled⟩ := Option.isSome_iff_exists.mp compiled
    obtain ⟨_, name, compiled⟩ := Option.bind_eq_some_iff.mp compiled
    obtain ⟨_, id, compiled⟩ := Option.bind_eq_some_iff.mp compiled
    obtain ⟨_, node, compiled⟩ := Option.bind_eq_some_iff.mp compiled
    obtain ⟨_, providerId, compiled⟩ := Option.bind_eq_some_iff.mp compiled
    obtain ⟨_, udsPath, -⟩ := Option.map_eq_some_iff.mp compiled
    exact
      { name := isSome_toPointer_quoted.mp (Option.isSome_of_eq_some name)
        id := isSome_toUInt32_emit.mp (Option.isSome_of_eq_some id)
        node := isSome_toPointer_quoted.mp (Option.isSome_of_eq_some node)
        providerId := isSome_toUInt32_emit.mp (Option.isSome_of_eq_some providerId)
        udsPath := isSome_toPointer_quoted.mp (Option.isSome_of_eq_some udsPath) }
  · intro accepted
    obtain ⟨_, name⟩ :=
      Option.isSome_iff_exists.mp (isSome_toPointer_quoted.mpr accepted.name)
    obtain ⟨_, id⟩ := Option.isSome_iff_exists.mp (isSome_toUInt32_emit.mpr accepted.id)
    obtain ⟨_, node⟩ := Option.isSome_iff_exists.mp (isSome_toPointer_quoted.mpr accepted.node)
    obtain ⟨_, providerId⟩ :=
      Option.isSome_iff_exists.mp (isSome_toUInt32_emit.mpr accepted.providerId)
    obtain ⟨_, udsPath⟩ :=
      Option.isSome_iff_exists.mp (isSome_toPointer_quoted.mpr accepted.udsPath)
    simp only [ServiceInit.compile, ResolvedService.emit, field, name, id, node, providerId,
      udsPath, Option.bind_some, Option.map_some, Option.isSome_some]

theorem exists_mapM {α β : Type} {convert : α → Option β} {items : List α}
    (each : ∀ item ∈ items, (convert item).isSome) : ∃ results, items.mapM convert = some results := by
  have exists_each : ∀ item ∈ items, ∃ result, convert item = some result := fun item member =>
    Option.isSome_iff_exists.mp (each item member)
  cases items with
  | nil => exact ⟨[], rfl⟩
  | cons first rest =>
      have nonempty : Nonempty β := ⟨(exists_each first List.mem_cons_self).choose⟩
      choose! result converted using exists_each
      refine ⟨(first :: rest).map result, mapM_eq_some_iff.mpr ?_⟩
      rw [List.map_map]
      exact List.map_congr_left converted

theorem isSome_of_mapM {α β : Type} {convert : α → Option β} {items : List α} {results : List β}
    (done : items.mapM convert = some results) {item : α} (member : item ∈ items) :
    (convert item).isSome := by
  obtain ⟨place, found⟩ := List.mem_iff_getElem?.mp member
  obtain ⟨result, converted, -⟩ := mapM_at done found
  exact Option.isSome_of_eq_some converted

theorem exists_inits (inits : List String) :
    ∃ results, (inits.map Expr.word ++ [null]).mapM (Expr.toFunction inits) = some results := by
  refine exists_mapM fun item member => ?_
  rcases List.mem_append.mp member with listed | last
  · obtain ⟨text, inside, rfl⟩ := List.mem_map.mp listed
    by_cases terminator : text = "NULL"
    · simp [Expr.toFunction, terminator]
    · simp [Expr.toFunction, terminator, inside]
  · obtain rfl := List.mem_singleton.mp last
    rfl

/-! ## The node -/

/-- A node whose threads have the components of some rows. -/
def nodeOf (name udsPath : String) (busyPoll : Scalar) (bins : List BinConf)
    (threads : List (String × List Row)) (services : List ResolvedService) (inits : List String) :
    ResolvedNode where
  name := name
  udsPath := udsPath
  busyPoll := busyPoll
  bins := bins
  threads := threads.map threadOf
  services := services
  platformInits := inits

section Node

variable {name udsPath : String} {busyPoll : Scalar} {bins : List BinConf}
  {threads : List (String × List Row)} {services : List ResolvedService} {inits : List String}

/-- What fits, for the rows of the threads. -/
structure RowsFit (name udsPath : String) (busyPoll : Scalar) (bins : List BinConf)
    (threads : List (String × List Row)) (services : List ResolvedService) : Prop where
  threadsFit : threads.length < 8 ∧
    ∀ entry ∈ threads, entry.2.length < 16 ∧ IsPlain entry.1 ∧ ∀ row ∈ entry.2, row.Fits
  binsFit : bins.length ≤ 8 ∧ ∀ bin ∈ bins, bin.size.Fits ∧ bin.count.Fits
  servicesCompile : ∀ svc ∈ services, svc.Accepted
  busyPollCompiles : busyPoll.Numeric
  nameCompiles : Readable name
  udsPathCompiles : Readable udsPath

/-- The text of some threads. -/
def threadTexts (threads : List (String × List Row)) : List ThreadInit :=
  threads.map (fun entry => (threadOf entry).emit) ++ [⟨null, [], [], []⟩]

theorem readThread_beyond {node : NosNodeDef} {place : Nat} (beyond : 8 ≤ place) :
    node.readThread place = none := by
  rw [NosNodeDef.readThread, Vector.getElem?_eq_none beyond]
  rfl

theorem threads_fit {node : NosNodeDef} {given : List NosThreadDef}
    {read : List (List UInt8 × List ReadComp)}
    (compiled : (threadTexts threads).mapM ThreadInit.compile = some given)
    (filled : node.threads = initialised 8 blankThread given)
    (scanned : node.readThreads = some read)
    (same : read.map (fun entry => (⟨entry.1, entry.2.map ReadComp.view⟩ : ThreadView)) =
      threads.map fun entry => ⟨utf8 entry.1, entry.2.map Row.view⟩) :
    threads.length < 8 ∧
      ∀ entry ∈ threads, entry.2.length < 16 ∧ IsPlain entry.1 ∧ ∀ row ∈ entry.2, row.Fits := by
  obtain ⟨taken, outer, inner⟩ := Option.bind_eq_some_iff.mp scanned
  have lengths := congrArg List.length (mapM_eq_some_iff.mp inner)
  have lengths' := congrArg List.length same
  simp only [List.length_map] at lengths lengths'
  have short : taken.length < 8 :=
    length_lt_of_scanArray outer (by decide) fun place beyond => readThread_beyond beyond
  refine ⟨by omega, fun entry member => ?_⟩
  obtain ⟨place, at_place⟩ := List.mem_iff_getElem?.mp member
  have inside : place < threads.length := (List.getElem?_eq_some_iff.mp at_place).1
  have view := congrArg (fun list => list[place]?) same
  simp only [List.getElem?_map, at_place, Option.map_some] at view
  obtain ⟨⟨bytes, comps⟩, read_at, same_view⟩ := Option.map_eq_some_iff.mp view
  obtain ⟨bytes_eq, comps_eq⟩ := ThreadView.mk.inj same_view
  have place_lt : place < taken.length := by omega
  have taken_at := List.getElem?_eq_getElem place_lt
  obtain ⟨result, comps_read, result_at⟩ := mapM_at inner taken_at
  obtain rfl : (bytes, comps) = result := Option.some.inj (read_at.symm.trans result_at)
  obtain ⟨comps', scanned', pair⟩ := Option.map_eq_some_iff.mp comps_read
  obtain ⟨name_eq, rfl⟩ := Prod.mk.inj pair
  have text : (threadTexts threads)[place]? = some (threadOf entry).emit := by
    rw [threadTexts, List.getElem?_append_left (by simpa using inside), List.getElem?_map, at_place]
    rfl
  obtain ⟨thread, thread_compiled, thread_at⟩ := mapM_at compiled text
  have found := read_of_scanArray outer place_lt
  rw [taken_at, NosNodeDef.readThread, filled,
    initialised_at thread_at (by omega), Option.map_some] at found
  obtain ⟨name, named, pair⟩ := Option.map_eq_some_iff.mp (Option.some.inj found)
  rw [← pair] at scanned' name_eq
  have reads : ReadsAs entry thread comps' :=
    ⟨thread_compiled, by rw [named, ← bytes_eq, ← name_eq], scanned', comps_eq⟩
  exact reads.fits

theorem exists_threads
    (fits : threads.length < 8 ∧
      ∀ entry ∈ threads, entry.2.length < 16 ∧ IsPlain entry.1 ∧ ∀ row ∈ entry.2, row.Fits)
    (positive : ∀ entry ∈ threads, ∀ row ∈ entry.2, row.id.Positive) :
    ∃ given read, (threadTexts threads).mapM ThreadInit.compile = some given ∧
      read.map (fun entry : List UInt8 × List ReadComp =>
        (⟨entry.1, entry.2.map ReadComp.view⟩ : ThreadView)) =
        threads.map (fun entry => ⟨utf8 entry.1, entry.2.map Row.view⟩) ∧
      ∀ node : NosNodeDef, node.threads = initialised 8 blankThread given →
        node.readThreads = some read := by
  obtain ⟨short, each⟩ := fits
  have exists_each : ∀ entry ∈ threads, ∃ thread comps, ReadsAs entry thread comps :=
    fun entry member => exists_readsAs (each entry member).1 (each entry member).2.1
      (each entry member).2.2 (positive entry member)
  have nonempty : Nonempty NosThreadDef := ⟨blankThread⟩
  choose! thread comps reads using exists_each
  refine ⟨threads.map thread ++ [blankThread],
    threads.map fun entry => (utf8 entry.1, comps entry), ?_, ?_, fun node filled => ?_⟩
  · exact mapM_terminated (fun entry member => (reads entry member).compiled) rfl
  · rw [List.map_map]
    refine List.map_congr_left fun entry member => ?_
    simp [(reads entry member).same]
  · have outer : scanArray node.readThread Node.maxWorkers 0 =
        some (threads.map fun entry => (utf8 entry.1, thread entry)) := by
      refine scanArray_of_found ?_ fun place inside => ?_
      · rw [List.length_map]
        exact short.le
      · rw [List.length_map] at inside
        rw [NosNodeDef.readThread, filled,
          initialised_at (getElem?_terminated inside) (inside.trans_lt short), List.getElem?_map]
        cases found : threads[place]? with
        | none => rfl
        | some entry => simp [(reads entry (List.mem_of_getElem? found)).name]
    rw [NosNodeDef.readThreads, outer, Option.bind_some, mapM_eq_some_iff, List.map_map,
      List.map_map]
    refine List.map_congr_left fun entry member => ?_
    simp [(reads entry member).scanned]

/-- A manifest is read as what it was made from exactly if this fits. -/
theorem contents_iff (positive : ∀ entry ∈ threads, ∀ row ∈ entry.2, row.id.Positive)
    (positiveBins : ∀ bin ∈ bins, bin.size.Positive ∧ bin.count.Positive) :
    (generateNodeManifest
        (nodeOf name udsPath busyPoll bins threads services inits)).compile.bind
          NosNodeDef.contents =
        some
          { threads := threads.map fun entry => ⟨utf8 entry.1, entry.2.map Row.view⟩
            bins := bins.map BinConf.view } ↔
      RowsFit name udsPath busyPoll bins threads services := by
  set manifest := generateNodeManifest (nodeOf name udsPath busyPoll bins threads services inits)
    with manifest_eq
  have texts : manifest.threads = threadTexts threads := by
    simp only [manifest_eq, generateNodeManifest, nodeOf, List.map_map, threadTexts]
    rfl
  constructor
  · intro same
    obtain ⟨node, compiled, read⟩ := Option.bind_eq_some_iff.mp same
    obtain ⟨pools, pooled, compiled⟩ := Option.bind_eq_some_iff.mp compiled
    obtain ⟨given, served, compiled⟩ := Option.bind_eq_some_iff.mp compiled
    obtain ⟨_, _, compiled⟩ := Option.bind_eq_some_iff.mp compiled
    obtain ⟨_, named, compiled⟩ := Option.bind_eq_some_iff.mp compiled
    obtain ⟨_, placed, compiled⟩ := Option.bind_eq_some_iff.mp compiled
    obtain ⟨_, polled, compiled⟩ := Option.bind_eq_some_iff.mp compiled
    obtain ⟨_, threaded, rfl⟩ := Option.map_eq_some_iff.mp compiled
    obtain ⟨threadsRead, threads_eq, read⟩ := Option.bind_eq_some_iff.mp read
    obtain ⟨poolsRead, pools_eq, read⟩ := Option.map_eq_some_iff.mp read
    obtain ⟨threads_same, bins_same⟩ := Contents.mk.inj read
    rw [texts] at threaded
    exact
      { threadsFit := threads_fit threaded rfl threads_eq threads_same
        binsFit := bins_fit pooled rfl pools_eq bins_same
        servicesCompile := fun svc member => isSome_compile_service.mp
          (isSome_of_mapM served (List.mem_append_left _ (List.mem_map_of_mem member)))
        busyPollCompiles := isSome_toUInt32_emit.mp (Option.isSome_of_eq_some polled)
        nameCompiles := isSome_toPointer_quoted.mp (Option.isSome_of_eq_some named)
        udsPathCompiles := isSome_toPointer_quoted.mp (Option.isSome_of_eq_some placed) }
  · intro fit
    obtain ⟨given, read, threaded, threads_same, threads_read⟩ :=
      exists_threads fit.threadsFit positive
    obtain ⟨pools, poolsRead, pooled, bins_same, pools_read⟩ :=
      exists_pools fit.binsFit.1 fit.binsFit.2 positiveBins
    obtain ⟨served, services_compiled⟩ : ∃ served, manifest.services.mapM
        ServiceInit.compile = some served := by
      refine exists_mapM fun item member => ?_
      rcases List.mem_append.mp member with listed | last
      · obtain ⟨svc, inside, rfl⟩ := List.mem_map.mp listed
        exact isSome_compile_service.mpr (fit.servicesCompile svc inside)
      · obtain rfl := List.mem_singleton.mp last
        rfl
    have pools_compiled : manifest.pools.mapM PoolInit.compile = some pools := pooled
    obtain ⟨initialisers, inits_compiled⟩ : ∃ initialisers, manifest.platformInits.mapM
        (Expr.toFunction manifest.externs) = some initialisers := exists_inits inits
    obtain ⟨_, named⟩ : ∃ pointer, manifest.name.toPointer = some pointer :=
      Option.isSome_iff_exists.mp (isSome_toPointer_quoted.mpr fit.nameCompiles)
    obtain ⟨_, placed⟩ : ∃ pointer, manifest.udsPath.toPointer = some pointer :=
      Option.isSome_iff_exists.mp (isSome_toPointer_quoted.mpr fit.udsPathCompiles)
    obtain ⟨_, polled⟩ : ∃ number, manifest.busyPollCycles.toUInt32 = some number :=
      Option.isSome_iff_exists.mp (isSome_toUInt32_emit.mpr fit.busyPollCompiles)
    rw [ManifestText.compile, pools_compiled, services_compiled, inits_compiled, named, placed,
      polled, texts, threaded]
    simp only [Option.bind_some, Option.map_some]
    rw [NosNodeDef.contents, threads_read _ rfl, pools_read _ rfl, Option.bind_some,
      Option.map_some, threads_same, bins_same]

end Node

/-! ## Accepted configurations -/

section Accepted

variable {data : ConfigData} {node : NodeConf}

theorem WellFormed.placed (wellFormed : WellFormed data) (listed : node ∈ data.nodes)
    {thread : ThreadConf} (member : thread ∈ node.threads) {name : String}
    (hosted : name ∈ thread.components) :
    ∃ comp ∈ data.components, comp.name = some name ∧ dictGet data.compMap name = some comp ∧
      (data.rowOf name).id = comp.id ∧ (data.rowOf name).name = name ∧
      dictGet data.modelToLib (textOf comp.model) = some (data.rowOf name).lib := by
  obtain ⟨comp, inside, named⟩ :=
    List.mem_map.mp ((wellFormed.eachNode node listed).known thread member name hosted)
  obtain ⟨model, modelled, same⟩ := List.mem_map.mp (wellFormed.componentModels comp inside)
  have comp_found := find?_of_distinct wellFormed.componentNames inside named
  have model_found := find?_of_distinct wellFormed.modelNames modelled same
  obtain ⟨modelName, given, -⟩ :=
    wellFormed.modelNames.given _ (List.mem_map_of_mem modelled)
  have row : data.rowOf name = ⟨comp.id, name, textOf model.lib⟩ := by
    unfold ConfigData.rowOf
    rw [comp_found]
    simp only [model_found, Option.bind_some]
  refine ⟨comp, inside, named, dictGet_of_distinct wellFormed.componentNames id inside named, ?_, ?_,
    ?_⟩
  · rw [row]
  · rw [row]
  · rw [row, ← same, given]
    exact dictGet_of_distinct wellFormed.modelNames (fun model => textOf model.lib) modelled given

theorem WellFormed.resolveThread (wellFormed : WellFormed data) (listed : node ∈ data.nodes)
    {thread : ThreadConf} (member : thread ∈ node.threads) :
    data.resolveThread thread =
      some (threadOf (textOf thread.name, thread.components.map data.rowOf)) := by
  have placed := fun name (hosted : name ∈ thread.components) =>
    wellFormed.placed listed member hosted
  have nonempty : Nonempty ComponentConf := ⟨⟨none, .other "None", none, [], []⟩⟩
  choose! comp inside named found id_eq name_eq lib using placed
  have traversed : thread.components.mapM (dictGet data.compMap) =
      some (thread.components.map comp) := by
    rw [mapM_eq_some_iff, List.map_map]
    exact List.map_congr_left found
  rw [ConfigData.resolveThread, traversed, Option.map_some]
  simp only [threadOf, List.map_map, Option.some.injEq, ResolvedThread.mk.injEq, true_and]
  refine ⟨List.map_congr_left fun name hosted => ?_, ?_, List.map_congr_left fun name hosted => ?_⟩
  · exact (id_eq name hosted).symm
  · conv_lhs => rw [← List.map_id thread.components]
    exact List.map_congr_left fun name hosted => (name_eq name hosted).symm
  · exact lib name hosted

theorem WellFormed.resolveNode (wellFormed : WellFormed data) (listed : node ∈ data.nodes) :
    data.resolveNode node =
      some (nodeOf (textOf node.name) (textOf node.udsPath) node.busyPoll (data.binsOf node)
        (data.rows node) (data.resolvedServices node) (data.platformInits node)) := by
  have threads : node.threads.mapM data.resolveThread = some ((data.rows node).map threadOf) := by
    rw [mapM_eq_some_iff, ConfigData.rows, List.map_map, List.map_map]
    exact List.map_congr_left fun thread member => wellFormed.resolveThread listed member
  have bins : data.resolvedBins node = data.binsOf node := by
    obtain ⟨profile, member, named⟩ := List.mem_map.mp (wellFormed.eachNode node listed).profile
    have found := dictGet_of_distinct wellFormed.profileNames (·.bins) member named
    rw [ConfigData.resolvedBins, ConfigData.profileMap, found, ConfigData.binsOf,
      find?_of_distinct wellFormed.profileNames member named]
    rfl
  rw [ConfigData.resolveNode, threads, bins]
  rfl

theorem WellFormed.positive_bins (wellFormed : WellFormed data) :
    ∀ bin ∈ data.binsOf node, bin.size.Positive ∧ bin.count.Positive := by
  intro bin member
  unfold ConfigData.binsOf at member
  cases found : data.profiles.find? fun profile => profile.name = some node.profile with
  | none => simp [found] at member
  | some profile =>
      have inside := List.mem_of_find?_eq_some found
      exact (wellFormed.bins profile inside).2 bin (by simpa [found] using member)

end Accepted

/-- One node with these components on one thread. -/
def oneThread (names : List String) : ConfigData where
  nodes := [⟨some "ProcA", some "/tmp/proc_a.sock", none, [⟨some "Worker-1", names⟩], none⟩]
  components := names.zipIdx.map fun entry =>
    ⟨some entry.1, .int (entry.2 + 1), some "Model1", [], []⟩
  profiles := [⟨some "default", [⟨.int 64, .int 8⟩, ⟨.int 2048, .int 4⟩]⟩]
  models := [⟨some "Model1", some "libcomp-1.so"⟩]
  platform := [⟨some "SVC_LOG", .int 1, some "embedded"⟩]

theorem exists_checked {data : ConfigData} (accepted : (validateConfig data).isOk = true) :
    ∃ checked, validateConfig data = .ok checked := by
  cases result : validateConfig data with
  | error message => simp [result, Except.isOk, Except.toBool] at accepted
  | ok checked => exact ⟨checked, rfl⟩

end CodexNos.Config
