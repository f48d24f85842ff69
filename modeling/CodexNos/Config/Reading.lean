import CodexNos.Config.InputOrder
import CodexNos.Node.Bringup

/-!
# What a node reads of any manifest

The compiler takes numbers modulo `2 ^ 32` and texts between quotes as string literals, and the
loops of a node read the threads and components up to their terminators, if these are in the arrays.
A component whose number is a multiple of `2 ^ 32` ends the list of its thread.
-/

namespace CodexNos.Config

open Lib Messaging Node

/-! ## From a compiled manifest to a node -/

/-- The string that some bytes spell; its characters are the bytes. -/
def spelled (bytes : List UInt8) : String :=
  String.ofList (bytes.map fun byte => Char.ofNat byte.toNat)

/-- A component as `node_init_workers` passes it on. -/
def ReadComp.compDef (comp : ReadComp) : CompDef :=
  ⟨comp.id, spelled (comp.name.getD []), spelled (comp.model.getD [])⟩

/-- A service as `node_setup_routing` reads it. -/
def NosServiceDef.routed (svc : NosServiceDef) : RoutedService where
  serviceId := svc.serviceId
  nodeName := spelled (svc.nodeName.getD [])
  providerCompId := svc.providerCompId
  remoteUdsPath := svc.remoteUdsPath.map spelled

/-- What start-up reads of a compiled manifest. -/
def NosNodeDef.manifest (node : NosNodeDef) : Option Node.Manifest :=
  node.readThreads.map fun threads =>
    { name := spelled (node.name.getD [])
      threads := threads.map fun entry => ⟨spelled entry.1, entry.2.map ReadComp.compDef⟩
      services := (node.services.take node.serviceCount.toNat).map NosServiceDef.routed }

/-- The manifest of a node after resolution, generation and compilation. -/
def ConfigData.manifestOf (data : ConfigData) (node : NodeConf) : Option Node.Manifest :=
  (data.resolveNode node).bind fun resolved =>
    (generateNodeManifest resolved).compile.bind NosNodeDef.manifest

/-! ## Numbers and strings -/

/-- The number of 32 bits that the compiler makes of a number. -/
def Scalar.number (value : Scalar) : UInt32 := UInt32.ofInt (sortKey value)

/-- The string that the compiler makes of a text between quotes. -/
def asRead (text : String) : List UInt8 := (CString.value (CString.quoted (utf8 text))).getD []

theorem toPointer_quoted_of_readable {text : String} (readable : Readable text) :
    (quoted text).toPointer = some (some (asRead text)) := by
  obtain ⟨bytes, read⟩ := Option.isSome_iff_exists.mp readable
  rw [quoted, Expr.toPointer, asRead, read]
  rfl

theorem toUInt32_emit_of_numeric {value : Scalar} (numeric : value.Numeric) :
    value.emit.toUInt32 = some value.number := by
  obtain ⟨number, rfl⟩ := numeric
  rfl

/-! ## Rows -/

/-- The compiler accepts the row of a component. -/
structure Row.Accepted (row : Row) : Prop where
  id : row.id.Numeric
  name : Readable row.name
  lib : Readable row.lib

/-- A component as a node reads it. -/
def Row.read (row : Row) : ReadComp := ⟨row.id.number, some (asRead row.name), some (asRead row.lib)⟩

/-- The components of a thread that a node reads. -/
def readRows (rows : List Row) : List Row := rows.takeWhile fun row => row.id.number ≠ 0

/-- A thread after its initialiser. -/
def readThreadDef (entry : String × List Row) : NosThreadDef where
  name := some (asRead entry.1)
  compIds := initialised 16 0 (entry.2.map (·.id.number) ++ [0])
  compNames := initialised 16 none (entry.2.map (fun row => some (asRead row.name)) ++ [none])
  compModels := initialised 16 none (entry.2.map (fun row => some (asRead row.lib)) ++ [none])

section Threads

variable {entry : String × List Row} {threads : List (String × List Row)}

theorem compile_threadOf (named : Readable entry.1) (accepted : ∀ row ∈ entry.2, row.Accepted) :
    (threadOf entry).emit.compile = some (readThreadDef entry) := by
  have ids : (threadOf entry).emit.compIds.mapM Expr.toUInt32 =
      some (entry.2.map (·.id.number) ++ [0]) := by
    simp only [threadOf, ResolvedThread.emit, List.map_map]
    exact mapM_terminated (fun row member => toUInt32_emit_of_numeric (accepted row member).id) rfl
  have names : (threadOf entry).emit.compNames.mapM Expr.toPointer =
      some (entry.2.map (fun row => some (asRead row.name)) ++ [none]) := by
    simp only [threadOf, ResolvedThread.emit, List.map_map]
    exact mapM_terminated
      (fun row member => toPointer_quoted_of_readable (accepted row member).name) rfl
  have models : (threadOf entry).emit.compModels.mapM Expr.toPointer =
      some (entry.2.map (fun row => some (asRead row.lib)) ++ [none]) := by
    simp only [threadOf, ResolvedThread.emit, List.map_map]
    exact mapM_terminated
      (fun row member => toPointer_quoted_of_readable (accepted row member).lib) rfl
  have name : (threadOf entry).emit.name.toPointer = some (some (asRead entry.1)) :=
    toPointer_quoted_of_readable named
  rw [ThreadInit.compile, name, ids, names, models]
  rfl

theorem accepted_of_compile_threadOf {thread : NosThreadDef}
    (compiled : (threadOf entry).emit.compile = some thread) :
    Readable entry.1 ∧ ∀ row ∈ entry.2, row.Accepted := by
  obtain ⟨_, named, compiled⟩ := Option.bind_eq_some_iff.mp compiled
  obtain ⟨_, numbered, compiled⟩ := Option.bind_eq_some_iff.mp compiled
  obtain ⟨_, compNamed, compiled⟩ := Option.bind_eq_some_iff.mp compiled
  obtain ⟨_, modelled, -⟩ := Option.map_eq_some_iff.mp compiled
  refine ⟨isSome_toPointer_quoted.mp (Option.isSome_of_eq_some named), fun row member => ?_⟩
  obtain ⟨place, found⟩ := List.mem_iff_getElem?.mp member
  obtain ⟨id_text, name_text, lib_text⟩ := texts_at found
  exact
    { id := isSome_toUInt32_emit.mp (isSome_of_mapM numbered (List.mem_of_getElem? id_text))
      name := isSome_toPointer_quoted.mp (isSome_of_mapM compNamed (List.mem_of_getElem? name_text))
      lib := isSome_toPointer_quoted.mp (isSome_of_mapM modelled (List.mem_of_getElem? lib_text)) }

theorem getElem?_readRows {rows : List Row} {place : Nat} (inside : place < (readRows rows).length) :
    (readRows rows)[place]? = rows[place]? := by
  obtain ⟨rest, split⟩ := List.takeWhile_prefix (l := rows) fun row => row.id.number ≠ 0
  calc (readRows rows)[place]? = (readRows rows ++ rest)[place]? :=
        (List.getElem?_append_left inside).symm
    _ = rows[place]? := congrArg (fun rows => rows[place]?) split

theorem number_eq_zero_of_readRows {rows : List Row} {row : Row}
    (found : rows[(readRows rows).length]? = some row) : row.id.number = 0 := by
  induction rows with
  | nil => simp at found
  | cons first rest ih =>
      by_cases zero : first.id.number = 0
      · have none_read : readRows (first :: rest) = [] :=
          List.takeWhile_cons_of_neg (by simpa using zero)
        rw [none_read] at found
        obtain rfl := Option.some.inj found
        exact zero
      · have first_read : readRows (first :: rest) = first :: readRows rest :=
          List.takeWhile_cons_of_pos (by simpa using zero)
        rw [first_read] at found
        exact ih found

/-- A node reads the components of a thread if the terminator is in the array. -/
theorem readComps_iff {comps : List ReadComp} :
    scanArray (readThreadDef entry).readComp maxComponentsPerNode 0 = some comps ↔
      (readRows entry.2).length < 16 ∧ comps = (readRows entry.2).map Row.read := by
  have short : (readRows entry.2).length ≤ entry.2.length :=
    (List.takeWhile_prefix _).length_le
  rw [← List.length_map Row.read]
  refine scanArray_eq_some_iff_of_array (by decide) (fun place room bound => ?_)
    fun place beyond => readComp_beyond beyond
  rw [List.length_map] at bound
  have inside : place ≤ entry.2.length := bound.trans short
  rw [NosThreadDef.readComp, readThreadDef, initialised_at (getElem?_terminated inside) room,
    initialised_at (getElem?_terminated inside) room,
    initialised_at (getElem?_terminated inside) room, List.getElem?_map]
  rcases Nat.lt_or_eq_of_le bound with before | rfl
  · have row_found := List.getElem?_eq_getElem before
    have nonzero : (readRows entry.2)[place].id.number ≠ 0 := by
      simpa using List.mem_takeWhile_imp (List.getElem_mem before)
    rw [← getElem?_readRows before, row_found]
    simp [nonzero, Row.read]
  · rw [List.getElem?_eq_none le_rfl]
    cases found : entry.2[(readRows entry.2).length]? with
    | none => rfl
    | some row => simp [number_eq_zero_of_readRows found]

theorem readThreads_iff {node : NosNodeDef}
    (filled : node.threads = initialised 8 blankThread (threads.map readThreadDef ++ [blankThread]))
    {taken : List (List UInt8 × List ReadComp)} :
    node.readThreads = some taken ↔
      (threads.length < 8 ∧ ∀ entry ∈ threads, (readRows entry.2).length < 16) ∧
        taken = threads.map fun entry => (asRead entry.1, (readRows entry.2).map Row.read) := by
  have outer {found : List (List UInt8 × NosThreadDef)} :
      scanArray node.readThread Node.maxWorkers 0 = some found ↔ threads.length < 8 ∧
        found = threads.map fun entry => (asRead entry.1, readThreadDef entry) := by
    rw [← List.length_map (fun entry => (asRead entry.1, readThreadDef entry))]
    refine scanArray_eq_some_iff_of_array (by decide) (fun place room bound => ?_)
      fun place beyond => readThread_beyond beyond
    rw [List.length_map] at bound
    rw [NosNodeDef.readThread, filled, initialised_at (getElem?_terminated bound) room,
      List.getElem?_map]
    cases threads[place]? <;> rfl
  rw [NosNodeDef.readThreads, Option.bind_eq_some_iff]
  constructor
  · rintro ⟨found, scanned, inner⟩
    obtain ⟨short, rfl⟩ := outer.mp scanned
    rw [mapM_eq_some_iff, List.map_map] at inner
    have each : ∀ entry ∈ threads, (readRows entry.2).length < 16 := by
      intro entry member
      have listed := List.mem_map_of_mem (f := fun entry : String × List Row =>
        (scanArray (readThreadDef entry).readComp maxComponentsPerNode 0).map
          fun comps => (asRead entry.1, comps)) member
      have listed' : _ ∈ taken.map some := inner ▸ listed
      obtain ⟨result, -, same⟩ := List.mem_map.mp listed'
      obtain ⟨comps, scanned, -⟩ := Option.map_eq_some_iff.mp same.symm
      exact (readComps_iff.mp scanned).1
    refine ⟨⟨short, each⟩, ?_⟩
    have all : taken.map some = (threads.map fun entry =>
        (asRead entry.1, (readRows entry.2).map Row.read)).map some := by
      rw [← inner, List.map_map]
      refine List.map_congr_left fun entry member => ?_
      simp [readComps_iff.mpr ⟨each entry member, rfl⟩]
    exact List.map_injective_iff.mpr (Option.some_injective _) all
  · rintro ⟨⟨short, each⟩, rfl⟩
    refine ⟨_, outer.mpr ⟨short, rfl⟩, ?_⟩
    rw [mapM_eq_some_iff, List.map_map, List.map_map]
    refine List.map_congr_left fun entry member => ?_
    simp [readComps_iff.mpr ⟨each entry member, rfl⟩]

end Threads

/-! ## Services -/

/-- A service as a node reads it. -/
def ResolvedService.read (svc : ResolvedService) : NosServiceDef where
  serviceName := some (asRead svc.name)
  serviceId := svc.id.number
  nodeName := some (asRead svc.node)
  providerCompId := (svc.providerId.getD (.int 0)).number
  remoteUdsPath := some (asRead (svc.udsPath.getD ""))

theorem ResolvedService.Accepted.compile {svc : ResolvedService} (accepted : svc.Accepted) :
    svc.emit.compile = some svc.read := by
  have name := toPointer_quoted_of_readable accepted.name
  have id := toUInt32_emit_of_numeric accepted.id
  have node := toPointer_quoted_of_readable accepted.node
  have provider := toUInt32_emit_of_numeric accepted.providerId
  have path := toPointer_quoted_of_readable accepted.udsPath
  simp only [ServiceInit.compile, ResolvedService.emit, field, name, id, node, provider, path,
    Option.bind_some, Option.map_some]
  rfl

/-! ## The manifest of a node -/

/-- The compiler accepts the manifest of a node. -/
structure Compiles (data : ConfigData) (node : NodeConf) : Prop where
  threadNames : ∀ thread ∈ node.threads, Readable (textOf thread.name)
  rows : ∀ thread ∈ node.threads, ∀ comp ∈ thread.components, (data.rowOf comp).Accepted
  bins : ∀ bin ∈ data.binsOf node, bin.size.Numeric ∧ bin.count.Numeric
  services : ∀ svc ∈ data.resolvedServices node, svc.Accepted
  busyPoll : node.busyPoll.Numeric
  name : Readable (textOf node.name)
  udsPath : Readable (textOf node.udsPath)

/-- The compiler accepts the manifest, and the node finds the terminators of its threads. -/
structure Starts (data : ConfigData) (node : NodeConf) : Prop extends Compiles data node where
  threads : node.threads.length < 8
  components : ∀ thread ∈ node.threads, (readRows (thread.components.map data.rowOf)).length < 16

/-- A component as the node loads it. -/
def Row.compDef (row : Row) : CompDef :=
  ⟨row.id.number, spelled (asRead row.name), spelled (asRead row.lib)⟩

/-- A service as `node_setup_routing` reads it. -/
def ResolvedService.routed (svc : ResolvedService) : RoutedService where
  serviceId := svc.id.number
  nodeName := spelled (asRead svc.node)
  providerCompId := (svc.providerId.getD (.int 0)).number
  remoteUdsPath := some (spelled (asRead (svc.udsPath.getD "")))

/-- The manifest of a node as it is read. -/
def ConfigData.readManifest (data : ConfigData) (node : NodeConf) : Node.Manifest where
  name := spelled (asRead (textOf node.name))
  threads := (data.rows node).map fun entry =>
    ⟨spelled (asRead entry.1), (readRows entry.2).map Row.compDef⟩
  services := ((data.resolvedServices node).take
    ((data.resolvedServices node).length % 2 ^ 32)).map ResolvedService.routed

section Manifests

variable {data : ConfigData} {node : NodeConf}

/-- The text of the manifest of a node. -/
def ConfigData.source (data : ConfigData) (node : NodeConf) : ManifestText :=
  generateNodeManifest
    (nodeOf (textOf node.name) (textOf node.udsPath) node.busyPoll (data.binsOf node)
      (data.rows node) (data.resolvedServices node) (data.platformInits node))

theorem source_threads : (data.source node).threads = threadTexts (data.rows node) := by
  simp only [ConfigData.source, generateNodeManifest, nodeOf, List.map_map, threadTexts]
  rfl

theorem compiles_of_compile {compiled : NosNodeDef}
    (done : (data.source node).compile = some compiled) : Compiles data node := by
  obtain ⟨_, pooled, done⟩ := Option.bind_eq_some_iff.mp done
  obtain ⟨_, served, done⟩ := Option.bind_eq_some_iff.mp done
  obtain ⟨_, -, done⟩ := Option.bind_eq_some_iff.mp done
  obtain ⟨_, named, done⟩ := Option.bind_eq_some_iff.mp done
  obtain ⟨_, placed, done⟩ := Option.bind_eq_some_iff.mp done
  obtain ⟨_, polled, done⟩ := Option.bind_eq_some_iff.mp done
  obtain ⟨_, threaded, -⟩ := Option.map_eq_some_iff.mp done
  rw [source_threads] at threaded
  have lines (thread : ThreadConf) (member : thread ∈ node.threads) :
      Readable (textOf thread.name) ∧
        ∀ row ∈ thread.components.map data.rowOf, row.Accepted := by
    let entry := (textOf thread.name, thread.components.map data.rowOf)
    have listed : entry ∈ data.rows node := List.mem_map.mpr ⟨thread, member, rfl⟩
    have text : (threadOf entry).emit ∈ threadTexts (data.rows node) :=
      List.mem_append_left _ (List.mem_map.mpr ⟨entry, listed, rfl⟩)
    obtain ⟨line, compiled⟩ := Option.isSome_iff_exists.mp (isSome_of_mapM threaded text)
    have accepted := accepted_of_compile_threadOf compiled
    exact accepted
  have bins (bin : BinConf) (member : bin ∈ data.binsOf node) :
      bin.size.Numeric ∧ bin.count.Numeric := by
    have text : bin.emit ∈ (data.source node).pools :=
      List.mem_append_left _ (List.mem_map_of_mem member)
    obtain ⟨pool, compiled⟩ := Option.isSome_iff_exists.mp (isSome_of_mapM pooled text)
    obtain ⟨sized, counted⟩ := compile_bin compiled
    exact ⟨isSome_toUInt32_emit.mp (Option.isSome_of_eq_some sized),
      isSome_toUInt32_emit.mp (Option.isSome_of_eq_some counted)⟩
  have services (svc : ResolvedService) (member : svc ∈ data.resolvedServices node) :
      svc.Accepted := by
    have text : svc.emit ∈ (data.source node).services :=
      List.mem_append_left _ (List.mem_map_of_mem member)
    exact isSome_compile_service.mp (isSome_of_mapM served text)
  exact
    { threadNames := fun thread member => (lines thread member).1
      rows := fun thread member comp hosted =>
        (lines thread member).2 _ (List.mem_map_of_mem hosted)
      bins := bins
      services := services
      busyPoll := isSome_toUInt32_emit.mp (Option.isSome_of_eq_some polled)
      name := isSome_toPointer_quoted.mp (Option.isSome_of_eq_some named)
      udsPath := isSome_toPointer_quoted.mp (Option.isSome_of_eq_some placed) }

theorem Compiles.exists_compile (compiles : Compiles data node) :
    ∃ compiled, (data.source node).compile = some compiled ∧
      compiled.name = some (asRead (textOf node.name)) ∧
      compiled.threads =
        initialised 8 blankThread ((data.rows node).map readThreadDef ++ [blankThread]) ∧
      compiled.services =
        (data.resolvedServices node).map ResolvedService.read ++ [⟨none, 0, none, 0, none⟩] ∧
      compiled.serviceCount = UInt32.ofNat (data.resolvedServices node).length := by
  obtain ⟨pools, pooled⟩ : ∃ pools, (data.source node).pools.mapM PoolInit.compile = some pools := by
    refine exists_mapM fun item member => ?_
    rcases List.mem_append.mp member with listed | last
    · obtain ⟨bin, inside, rfl⟩ := List.mem_map.mp listed
      obtain ⟨size, count⟩ := compiles.bins bin inside
      rw [BinConf.emit, PoolInit.compile, toUInt32_emit_of_numeric size, field,
        toUInt32_emit_of_numeric count]
      rfl
    · obtain rfl := List.mem_singleton.mp last
      rfl
  have served : (data.source node).services.mapM ServiceInit.compile =
      some ((data.resolvedServices node).map ResolvedService.read ++
        [⟨none, 0, none, 0, none⟩]) :=
    mapM_terminated (fun svc member => (compiles.services svc member).compile) rfl
  obtain ⟨inits, initialising⟩ : ∃ inits, (data.source node).platformInits.mapM
      (Expr.toFunction (data.source node).externs) = some inits := exists_inits _
  have named : (data.source node).name.toPointer = some (some (asRead (textOf node.name))) :=
    toPointer_quoted_of_readable compiles.name
  have placed : (data.source node).udsPath.toPointer = some (some (asRead (textOf node.udsPath))) :=
    toPointer_quoted_of_readable compiles.udsPath
  have polled : (data.source node).busyPollCycles.toUInt32 = some node.busyPoll.number :=
    toUInt32_emit_of_numeric compiles.busyPoll
  have threaded : (data.source node).threads.mapM ThreadInit.compile =
      some ((data.rows node).map readThreadDef ++ [blankThread]) := by
    rw [source_threads]
    refine mapM_terminated (fun entry member => ?_) rfl
    obtain ⟨thread, inside, rfl⟩ := List.mem_map.mp member
    refine compile_threadOf (compiles.threadNames thread inside) fun row listed => ?_
    obtain ⟨comp, hosted, rfl⟩ := List.mem_map.mp listed
    exact compiles.rows thread inside comp hosted
  refine ⟨
    { name := some (asRead (textOf node.name))
      udsPath := some (asRead (textOf node.udsPath))
      bufferPools := pools
      threads := initialised 8 blankThread ((data.rows node).map readThreadDef ++ [blankThread])
      services :=
        (data.resolvedServices node).map ResolvedService.read ++ [⟨none, 0, none, 0, none⟩]
      serviceCount := UInt32.ofNat (data.resolvedServices node).length
      busyPollCycles := node.busyPoll.number
      platformInits := inits }, ?_, rfl, rfl, rfl, rfl⟩
  rw [ManifestText.compile, pooled, served, initialising, named, placed, polled, threaded]
  rfl

/-- A node has a manifest exactly if the compiler accepts it and the terminators are in place, and
then it is the manifest of the configuration as it is read. -/
theorem WellFormed.manifestOf_eq_some_iff (wellFormed : WellFormed data)
    (listed : node ∈ data.nodes) {manifest : Node.Manifest} :
    data.manifestOf node = some manifest ↔
      Starts data node ∧ manifest = data.readManifest node := by
  have rows (thread : ThreadConf) (member : thread ∈ node.threads) :
      (textOf thread.name, thread.components.map data.rowOf) ∈ data.rows node :=
    List.mem_map.mpr ⟨thread, member, rfl⟩
  have made {compiled : NosNodeDef} {threads : List (List UInt8 × List ReadComp)}
      (named : compiled.name = some (asRead (textOf node.name)))
      (served : compiled.services =
        (data.resolvedServices node).map ResolvedService.read ++ [⟨none, 0, none, 0, none⟩])
      (count : compiled.serviceCount = UInt32.ofNat (data.resolvedServices node).length)
      (reads : threads = (data.rows node).map fun entry =>
        (asRead entry.1, (readRows entry.2).map Row.read)) :
      (⟨spelled (compiled.name.getD []),
        threads.map fun entry => ⟨spelled entry.1, entry.2.map ReadComp.compDef⟩,
        (compiled.services.take compiled.serviceCount.toNat).map NosServiceDef.routed⟩ :
          Node.Manifest) = data.readManifest node := by
    have taken : compiled.serviceCount.toNat = (data.resolvedServices node).length % 2 ^ 32 := by
      rw [count]
      exact UInt32.toNat_ofNat' ..
    rw [named, served, taken, reads, List.take_append_of_le_length
      (by rw [List.length_map]; exact Nat.mod_le _ _), ← List.map_take, List.map_map, List.map_map]
    simp only [ConfigData.readManifest, Node.Manifest.mk.injEq, Option.getD_some, true_and]
    refine ⟨List.map_congr_left fun entry _ => ?_, rfl⟩
    simp only [Function.comp_apply, List.map_map]
    rfl
  rw [ConfigData.manifestOf, wellFormed.resolveNode listed, Option.bind_some]
  constructor
  · intro done
    obtain ⟨compiled, compiling, read⟩ := Option.bind_eq_some_iff.mp done
    obtain ⟨threads, reading, rfl⟩ := Option.map_eq_some_iff.mp read
    have compiles := compiles_of_compile compiling
    obtain ⟨same, compiling', named, filled, served, count⟩ := compiles.exists_compile
    obtain rfl : same = compiled := Option.some.inj (compiling'.symm.trans compiling)
    obtain ⟨⟨short, each⟩, reads⟩ := (readThreads_iff filled).mp reading
    refine ⟨⟨compiles, by simpa [ConfigData.rows] using short, fun thread member => ?_⟩,
      made named served count reads⟩
    exact each _ (rows thread member)
  · rintro ⟨starts, rfl⟩
    obtain ⟨compiled, compiling, named, filled, served, count⟩ :=
      starts.toCompiles.exists_compile
    refine Option.bind_eq_some_iff.mpr ⟨compiled, compiling, Option.map_eq_some_iff.mpr
      ⟨_, (readThreads_iff filled).mpr ⟨⟨?_, ?_⟩, rfl⟩, made named served count rfl⟩⟩
    · simpa [ConfigData.rows] using starts.threads
    · intro entry member
      obtain ⟨thread, inside, rfl⟩ := List.mem_map.mp member
      exact starts.components thread inside

/-- The manifest that a node reads stays below the limits of its loops. -/
theorem Starts.tidy (starts : Starts data node) : (data.readManifest node).Tidy where
  threads := by
    have short := starts.threads
    simpa [ConfigData.readManifest, ConfigData.rows, maxWorkers] using short.le
  comps thread member := by
    obtain ⟨entry, inside, rfl⟩ := List.mem_map.mp member
    obtain ⟨conf, threaded, rfl⟩ := List.mem_map.mp inside
    have short := starts.components conf threaded
    simpa using short.le.trans (by decide)
  ids thread member compDef inside := by
    obtain ⟨entry, _, rfl⟩ := List.mem_map.mp member
    obtain ⟨row, read, rfl⟩ := List.mem_map.mp inside
    simpa [Row.compDef] using List.mem_takeWhile_imp read

end Manifests

end CodexNos.Config
