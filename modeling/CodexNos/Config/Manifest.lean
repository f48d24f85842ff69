import CodexNos.Config.Resolve
import CodexNos.Lib.CString
import CodexNos.Lib.Sentinel
import CodexNos.Memory.Pool
import CodexNos.Node.Bookkeeping

/-!
# The manifest of a node

`generate_node_manifest` writes the definition of a node as initialisers of C.  The compiler turns
numbers into 32-bit numbers and string literals into strings, and fills arrays of fixed sizes; the
loops of `node_init_workers` and `nos_buffer_init_pool` read the arrays up to their terminators.

An initialiser is kept as what stands in the text: the spelling of a literal, or a word.
-/

namespace CodexNos.Config

open Lib

/-! ## Generation -/

/-- An expression in an initialiser. -/
inductive Expr
  /-- A decimal number. -/
  | number (value : Int)
  /-- A word that is no number and no string literal. -/
  | word (text : String)
  /-- A text between quotes, with the quotes. -/
  | literal (spelling : List UInt8)
  deriving DecidableEq, Repr

/-- The bytes of a string. -/
def utf8 (text : String) : List UInt8 := text.toList.flatMap String.utf8EncodeChar

/-- A value in a formatted string. -/
def Scalar.emit : Scalar → Expr
  | .int value => .number value
  | .bool value => .word (if value then "True" else "False")
  | .other text => .word text

/-- A text that is written between quotes. -/
def quoted (text : String) : Expr := .literal (CString.quoted (utf8 text))

/-- `NULL`. -/
def null : Expr := .word "NULL"

/-- An element of `g_local_pools`. -/
structure PoolInit where
  chunkSize : Expr
  /-- `chunk_count`, where it is given. -/
  chunkCount : Option Expr
  deriving DecidableEq, Repr

/-- An element of `g_local_services`; the last one gives its first two fields only. -/
structure ServiceInit where
  serviceName : Expr
  serviceId : Expr
  nodeName : Option Expr
  providerCompId : Option Expr
  remoteUdsPath : Option Expr
  deriving DecidableEq, Repr

/-- An element of `threads`; the last one gives its name only. -/
structure ThreadInit where
  name : Expr
  compIds : List Expr
  compNames : List Expr
  compModels : List Expr
  deriving DecidableEq, Repr

/-- The text of a manifest. -/
structure ManifestText where
  /-- The functions that are declared. -/
  externs : List String
  pools : List PoolInit
  services : List ServiceInit
  platformInits : List Expr
  name : Expr
  udsPath : Expr
  busyPollCycles : Expr
  threads : List ThreadInit
  serviceCount : Nat
  deriving DecidableEq, Repr

/-- The line of a bin. -/
def BinConf.emit (bin : BinConf) : PoolInit := ⟨bin.size.emit, some bin.count.emit⟩

/-- The line of a service. -/
def ResolvedService.emit (svc : ResolvedService) : ServiceInit where
  serviceName := quoted svc.name
  serviceId := svc.id.emit
  nodeName := some (quoted svc.node)
  providerCompId := some ((svc.providerId.getD (.int 0)).emit)
  remoteUdsPath := some (quoted (svc.udsPath.getD ""))

/-- The line of a thread. -/
def ResolvedThread.emit (thread : ResolvedThread) : ThreadInit where
  name := quoted thread.name
  compIds := thread.compIds.map Scalar.emit ++ [.number 0]
  compNames := thread.compNames.map quoted ++ [null]
  compModels := thread.compLibs.map (fun lib => quoted (textOf lib)) ++ [null]

/-- `generate_node_manifest`. -/
def generateNodeManifest (node : ResolvedNode) : ManifestText where
  externs := node.platformInits
  pools := node.bins.map BinConf.emit ++ [⟨.number 0, none⟩]
  services := node.services.map ResolvedService.emit ++ [⟨null, .number 0, none, none, none⟩]
  platformInits := node.platformInits.map Expr.word ++ [null]
  name := quoted node.name
  udsPath := quoted node.udsPath
  busyPollCycles := node.busyPoll.emit
  threads := node.threads.map ResolvedThread.emit ++ [⟨null, [], [], []⟩]
  serviceCount := node.services.length

/-! ## Compilation -/

/-- `nos_thread_def_t`. -/
structure NosThreadDef where
  name : Option (List UInt8)
  compIds : Vector UInt32 16
  compNames : Vector (Option (List UInt8)) 16
  compModels : Vector (Option (List UInt8)) 16
  deriving DecidableEq, Repr

/-- `nos_service_def_t`. -/
structure NosServiceDef where
  serviceName : Option (List UInt8)
  serviceId : UInt32
  nodeName : Option (List UInt8)
  providerCompId : UInt32
  remoteUdsPath : Option (List UInt8)
  deriving DecidableEq, Repr

/-- `nos_node_def_t`, with the arrays that it points to. -/
structure NosNodeDef where
  name : Option (List UInt8)
  udsPath : Option (List UInt8)
  bufferPools : List Memory.PoolDef
  threads : Vector NosThreadDef 8
  services : List NosServiceDef
  serviceCount : UInt32
  busyPollCycles : UInt32
  platformInits : List (Option String)
  deriving DecidableEq, Repr

/-- A number of type `uint32_t`. -/
def Expr.toUInt32 : Expr → Option UInt32
  | number value => some (UInt32.ofInt value)
  | word _ | literal _ => none

/-- A pointer to a string, which may be `NULL`. -/
def Expr.toPointer : Expr → Option (Option (List UInt8))
  | literal spelling => (CString.value spelling).map some
  | word text => if text = "NULL" then some none else none
  | number _ => none

/-- A pointer to a function that is declared, or `NULL`. -/
def Expr.toFunction (externs : List String) : Expr → Option (Option String)
  | word text => if text = "NULL" then some none else if text ∈ externs then some (some text) else none
  | number _ | literal _ => none

/-- A field that is blank if it is not given. -/
def field {α β : Type*} (blank : β) (convert : α → Option β) : Option α → Option β
  | none => some blank
  | some value => convert value

def PoolInit.compile (pool : PoolInit) : Option Memory.PoolDef :=
  pool.chunkSize.toUInt32.bind fun chunkSize =>
  (field 0 Expr.toUInt32 pool.chunkCount).map fun chunkCount => ⟨chunkSize, chunkCount⟩

def ServiceInit.compile (svc : ServiceInit) : Option NosServiceDef :=
  svc.serviceName.toPointer.bind fun serviceName =>
  svc.serviceId.toUInt32.bind fun serviceId =>
  (field none Expr.toPointer svc.nodeName).bind fun nodeName =>
  (field 0 Expr.toUInt32 svc.providerCompId).bind fun providerCompId =>
  (field none Expr.toPointer svc.remoteUdsPath).map fun remoteUdsPath =>
    ⟨serviceName, serviceId, nodeName, providerCompId, remoteUdsPath⟩

def ThreadInit.compile (thread : ThreadInit) : Option NosThreadDef :=
  thread.name.toPointer.bind fun name =>
  (thread.compIds.mapM Expr.toUInt32).bind fun compIds =>
  (thread.compNames.mapM Expr.toPointer).bind fun compNames =>
  (thread.compModels.mapM Expr.toPointer).map fun compModels =>
    { name := name
      compIds := initialised 16 0 compIds
      compNames := initialised 16 none compNames
      compModels := initialised 16 none compModels }

/-- A thread that no initialiser gives. -/
def blankThread : NosThreadDef where
  name := none
  compIds := initialised 16 0 []
  compNames := initialised 16 none []
  compModels := initialised 16 none []

def ManifestText.compile (source : ManifestText) : Option NosNodeDef :=
  (source.pools.mapM PoolInit.compile).bind fun bufferPools =>
  (source.services.mapM ServiceInit.compile).bind fun services =>
  (source.platformInits.mapM (Expr.toFunction source.externs)).bind fun platformInits =>
  source.name.toPointer.bind fun name =>
  source.udsPath.toPointer.bind fun udsPath =>
  source.busyPollCycles.toUInt32.bind fun busyPollCycles =>
  (source.threads.mapM ThreadInit.compile).map fun threads =>
    { name := name
      udsPath := udsPath
      bufferPools := bufferPools
      threads := initialised 8 blankThread threads
      services := services
      serviceCount := UInt32.ofNat source.serviceCount
      busyPollCycles := busyPollCycles
      platformInits := platformInits }

/-! ## Reading -/

/-- A component that `node_init_workers` loads. -/
structure ReadComp where
  id : UInt32
  name : Option (List UInt8)
  model : Option (List UInt8)
  deriving DecidableEq, Repr

/-- The turn of the inner loop of `node_init_workers` at a place. -/
def NosThreadDef.readComp (thread : NosThreadDef) (place : Nat) : Option (Option ReadComp) :=
  thread.compIds[place]?.bind fun id =>
    if id = 0 then some none
    else
      thread.compNames[place]?.bind fun name =>
        thread.compModels[place]?.map fun model => some ⟨id, name, model⟩

/-- The turn of the outer loop of `node_init_workers` at a place. -/
def NosNodeDef.readThread (node : NosNodeDef) (place : Nat) :
    Option (Option (List UInt8 × NosThreadDef)) :=
  node.threads[place]?.map fun thread => thread.name.map fun name => (name, thread)

/-- The turn of the loop of `nos_buffer_init_pool` at a place. -/
def NosNodeDef.readPool (node : NosNodeDef) (place : Nat) : Option (Option Memory.PoolDef) :=
  node.bufferPools[place]?.map fun pool => if 0 < pool.chunkSize then some pool else none

/-- The threads with their components, as `node_init_workers` reads them. -/
def NosNodeDef.readThreads (node : NosNodeDef) : Option (List (List UInt8 × List ReadComp)) :=
  (scanArray node.readThread Node.maxWorkers 0).bind fun threads =>
    threads.mapM fun entry =>
      (scanArray entry.2.readComp Node.maxComponentsPerNode 0).map fun comps => (entry.1, comps)

/-- The bins, as `nos_buffer_init_pool` reads them. -/
def NosNodeDef.readPools (node : NosNodeDef) : Option (List Memory.PoolDef) :=
  scanArray node.readPool Memory.maxBins 0

end CodexNos.Config
