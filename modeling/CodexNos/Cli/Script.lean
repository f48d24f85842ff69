import CodexNos.Cli.Completion
import CodexNos.Cli.History
import CodexNos.Lib.Lines
import CodexNos.Lib.Scan
import CodexNos.Log.Ring

/-!
# Commands from a script

Without a terminal the command line interface reads its commands with `fgets`, looks up the handler
of each one and calls it with what stands behind the name.  A script that is written as the help
says makes the node do what it says, one command after the other up to the first `quit`.
-/

namespace CodexNos.Cli

open Lib Log

/-! ## Handlers -/

/-- What a handler does. -/
inductive Request
  /-- `do_help`. -/
  | help
  /-- `do_show_components`. -/
  | showComponents
  /-- `do_show_services`. -/
  | showServices
  /-- `nos_kv_dump_all`. -/
  | showDb
  /-- `do_show_memory`. -/
  | showMemory
  /-- `nos_ipc_dump_stats`. -/
  | showIpc
  /-- `nos_stats_dump_all`, or `nos_stats_dump_module`. -/
  | showStats (module : Option CStr)
  /-- The usage of `log`. -/
  | logUsage
  /-- `nos_log_get_stats`. -/
  | logStats
  /-- The message of `log spam`. -/
  | logSpam (count : UInt32)
  /-- `set_filter_level`. -/
  | setFilterLevel (level : Level)
  /-- `set_comp_level`. -/
  | setCompLevel (compId : UInt32) (level : Level)
  /-- The usage of `log level`. -/
  | levelUsage
  /-- The message of `perf start`. -/
  | perfStart (count : UInt32)
  /-- The message of `perf remote`. -/
  | perfRemote (count payloadSize : UInt32)
  /-- `node_reload_component`. -/
  | reload (name : CStr)
  /-- `node_unload_component`. -/
  | unload (name : CStr)
  /-- `keep_running` is cleared. -/
  | quit
  /-- Nothing. -/
  | nothing
  deriving DecidableEq

/-- A handler gets the buffer and where its arguments start in it.  There is no result where the
behaviour is not defined. -/
abbrev CliHandler : Type := List UInt8 → Option Nat → Option Request

/-- The string from a place of an array on, if it ends in the array. -/
def stringFrom (array : List UInt8) (start : Nat) : Option CStr :=
  if 0 ∈ array.drop start then some (CStr.stringAt (array.drop start)) else none

/-- A handler that does not look at its arguments. -/
def plainHandler (request : Request) : CliHandler := fun _ _ => some request

/-- A handler that does something with its arguments, if it has any. -/
def nameHandler (request : CStr → Request) : CliHandler
  | _, none => some .nothing
  | buf, some start => (stringFrom buf start).map request

/-- `do_show_stats`. -/
def doShowStats : CliHandler
  | _, none => some (.showStats none)
  | buf, some start =>
      (stringFrom buf start).map fun args =>
        if args.strlen = 0 then .showStats none else .showStats (some args)

/-- The letter of a byte, in lower case. -/
def lower (byte : UInt8) : UInt8 := if 65 ≤ byte ∧ byte ≤ 90 then byte + 32 else byte

/-- `strcasecmp` finds no difference. -/
def sameLetters (left right : List UInt8) : Bool := left.map lower = right.map lower

/-- `str_to_level`. -/
def strToLevel (str : List UInt8) : Level :=
  if sameLetters str (literal "debug").bytes then .debug
  else if sameLetters str (literal "info").bytes then .info
  else if sameLetters str (literal "warn").bytes then .warn
  else if sameLetters str (literal "error").bytes then .error
  else .info

/-- `sizeof(sub)` and `sizeof(val)`. -/
def wordSize : Nat := 64

/-- `log level`, for what stands behind it. -/
def logLevel (args : CStr) : Option Request :=
  match Scan.scanWord args.bytes with
  | none => some .levelUsage
  | some (sub, rest) =>
      if wordSize ≤ sub.length then none
      else
        match Scan.scanWord rest with
        | none => some (.setFilterLevel (strToLevel sub))
        | some (val, _) =>
            if wordSize ≤ val.length then none
            else
              (Scan.atoi sub).map fun compId => .setCompLevel compId.toUInt32 (strToLevel val)

/-- `do_log`. -/
def doLog : CliHandler
  | _, none => some .logUsage
  | buf, some start =>
      (stringFrom buf start).bind fun args =>
        if startsWith args "stats" then some .logStats
        else if startsWith args "spam" then
          if args.strlen = 4 then some (.logSpam 2000)
          else (Scan.atoi (args.bytes.drop 5)).map fun count => .logSpam count.toUInt32
        else if startsWith args "level" then
          -- The source looks behind `level` without a test for the end of the string.
          (stringFrom buf (start + 6)).bind logLevel
        else some .nothing

/-- `do_perf_start`. -/
def doPerfStart : CliHandler
  | _, none => some (.perfStart 10000)
  | buf, some start =>
      (stringFrom buf start).bind fun args =>
        (Scan.atoi args.bytes).map fun count =>
          .perfStart (if count = 0 then 10000 else count.toUInt32)

/-- The request of `perf remote`. -/
def remoteRequest (count payloadSize : UInt32) : Request :=
  .perfRemote (if count = 0 then 10000 else count) payloadSize

/-- `do_perf_remote_start`. -/
def doPerfRemoteStart : CliHandler
  | _, none => some (remoteRequest 10000 0)
  | buf, some start =>
      (stringFrom buf start).bind fun args =>
        if args.strlen = 0 then some (remoteRequest 10000 0)
        else if startsWith args "sweep" then
          match Scan.scanUnsigned (args.bytes.drop 5) with
          | .failed => some (remoteRequest 10000 0xFFFFFFFF)
          | .undefined => none
          | .number count _ => some (remoteRequest count 0xFFFFFFFF)
        else
          match Scan.scanUnsigned args.bytes with
          | .failed => some (remoteRequest 10000 0)
          | .undefined => none
          | .number count rest =>
              match Scan.scanUnsigned rest with
              | .failed => some (remoteRequest count 0)
              | .undefined => none
              | .number payloadSize _ => some (remoteRequest count payloadSize)

/-- `g_cli_cmds`. -/
def gCliCmds : List (CStr × CliHandler) :=
  [(literal "help", plainHandler .help),
    (literal "show components", plainHandler .showComponents),
    (literal "show services", plainHandler .showServices),
    (literal "show db", plainHandler .showDb),
    (literal "show memory", plainHandler .showMemory),
    (literal "show ipc", plainHandler .showIpc),
    (literal "show stats", doShowStats),
    (literal "log", doLog),
    (literal "perf start", doPerfStart),
    (literal "perf remote", doPerfRemoteStart),
    (literal "load", nameHandler .reload),
    (literal "unload", nameHandler .unload),
    (literal "reload", nameHandler .reload),
    (literal "quit", plainHandler .quit)]

/-! ## The loop -/

/-- The line is a command, or a command with arguments. -/
def isCommand (line name : CStr) : Bool :=
  line = name || (line.agree name name.strlen && line.bytes[name.strlen]? = some 32)

/-- Where the arguments of a command start. -/
def argsStart (line name : CStr) : Option Nat :=
  if line.bytes[name.strlen]? = some 32 then some (name.strlen + 1) else none

/-- Look up the handler of a line and call it. -/
def dispatch (buf : List UInt8) (line : CStr) : Option Request :=
  match gCliCmds.find? fun cmd => isCommand line cmd.1 with
  | none => some .nothing
  | some (name, handler) => handler buf (argsStart line name)

/-- The thread of the command line interface. -/
structure Console where
  /-- `buf`. -/
  buf : List UInt8
  /-- The history. -/
  history : History
  /-- `keep_running`. -/
  keepRunning : Bool
  /-- What the handlers have done. -/
  requests : List Request

namespace Console

/-- Take a piece of the input. -/
def takePiece (console : Console) (piece : List UInt8) : Option Console :=
  let buf := piece ++ 0 :: console.buf.drop (piece.length + 1)
  let text := CStr.stringAt buf
  if text.strlen = 0 then some { console with buf := buf }
  else
    let buf := buf.set (text.bytes.takeWhile (· ≠ Lines.newline)).length 0
    let line := CStr.stringAt buf
    (console.history.historyAdd line).bind fun history =>
      (dispatch buf line).map fun request =>
        { buf := buf
          history := history
          keepRunning := console.keepRunning && request ≠ .quit
          requests := console.requests ++ [request] }

/-- `node_cli_thread_entry` without a terminal. -/
def nodeCliThreadEntry (console : Console) (input : List UInt8) : Option Console :=
  Lines.readLines lineSize keepRunning takePiece (input.length + 1) console input

end Console

/-! ## One command for a line -/

theorem map_gCliCmds : gCliCmds.map Prod.fst = cliCmds := rfl

theorem isCommand_iff {line name : CStr} :
    isCommand line name = true ↔ name.bytes ++ [32] <+: line.bytes ++ [32] := by
  have agree := @CStr.agree_iff_prefix line name
  simp only [isCommand, Bool.or_eq_true, Bool.and_eq_true, decide_eq_true_eq, agree,
    List.prefix_concat_iff, List.append_cancel_right_eq]
  refine or_congr ⟨fun same => same ▸ rfl, fun same => CStr.ext same.symm⟩ ?_
  constructor
  · rintro ⟨⟨rest, split⟩, blank⟩
    rw [← split, CStr.strlen, List.getElem?_append_right le_rfl, Nat.sub_self] at blank
    cases rest with
    | nil => cases blank
    | cons byte rest =>
        obtain rfl := Option.some.inj blank
        exact ⟨rest, by rw [← split, List.append_assoc, List.singleton_append]⟩
  · rintro ⟨rest, split⟩
    rw [List.append_assoc, List.singleton_append] at split
    refine ⟨⟨32 :: rest, split⟩, ?_⟩
    rw [← split, CStr.strlen, List.getElem?_append_right le_rfl, Nat.sub_self]
    rfl

theorem names_apart : ∀ name ∈ cliCmds, ∀ other ∈ cliCmds,
    name.bytes ++ [32] <+: other.bytes ++ [32] → name = other := by
  decide

theorem command_unique {line name other : CStr} (known : name ∈ cliCmds) (known' : other ∈ cliCmds)
    (command : isCommand line name = true) (command' : isCommand line other = true) :
    name = other := by
  rw [isCommand_iff] at command command'
  rcases List.prefix_or_prefix_of_prefix command command' with front | front
  · exact names_apart name known other known' front
  · exact (names_apart other known' name known front).symm

theorem nodup_cliCmds : cliCmds.Nodup := by decide

/-- The handler of the only command that matches is called. -/
theorem dispatch_eq {buf : List UInt8} {line name : CStr} {handler : CliHandler}
    (known : (name, handler) ∈ gCliCmds) (command : isCommand line name = true) :
    dispatch buf line = handler buf (argsStart line name) := by
  have named {other : CStr × CliHandler} (member : other ∈ gCliCmds) : other.1 ∈ cliCmds := by
    rw [← map_gCliCmds]
    exact List.mem_map_of_mem member
  rw [dispatch]
  cases found : gCliCmds.find? fun cmd => isCommand line cmd.1 with
  | none => simpa [command] using List.find?_eq_none.mp found _ known
  | some other =>
      have matched : isCommand line other.1 = true := by
        simpa using List.find?_some found
      have member := List.mem_of_find?_eq_some found
      have same : other.1 = name := command_unique (named member) (named known) matched command
      have equal : other = (name, handler) :=
        List.inj_on_of_nodup_map (by rw [map_gCliCmds]; exact nodup_cliCmds) member known same
      rw [equal]

/-! ## Commands -/

/-- The byte string of a literal. -/
def word (text : String) : List UInt8 := (literal text).bytes

/-- What an operator writes. -/
inductive Command
  | help
  | showComponents
  | showServices
  | showDb
  | showMemory
  | showIpc
  | showStats (module : Option CStr)
  | log
  | logStats
  | logSpam (count : Option Nat)
  | logLevel (level : Level)
  | logCompLevel (compId : Nat) (level : Level)
  | perfStart (count : Option Nat)
  | perfRemote (count : Option (Nat × Option Nat))
  | perfSweep (count : Option Nat)
  | load (name : CStr)
  | unload (name : CStr)
  | reload (name : CStr)
  | quit
  deriving DecidableEq

/-- The name of a level. -/
def levelWord : Level → List UInt8
  | .debug => word "DEBUG"
  | .info => word "INFO"
  | .warn => word "WARN"
  | .error => word "ERROR"

/-- A blank and a number, if there is one. -/
def withNumber (front : List UInt8) : Option Nat → List UInt8
  | none => front
  | some number => front ++ 32 :: Scan.decimal number

namespace Command

/-- The command. -/
def name : Command → CStr
  | .help => literal "help"
  | .showComponents => literal "show components"
  | .showServices => literal "show services"
  | .showDb => literal "show db"
  | .showMemory => literal "show memory"
  | .showIpc => literal "show ipc"
  | .showStats _ => literal "show stats"
  | .log | .logStats | .logSpam _ | .logLevel _ | .logCompLevel _ _ => literal "log"
  | .perfStart _ => literal "perf start"
  | .perfRemote _ | .perfSweep _ => literal "perf remote"
  | .load _ => literal "load"
  | .unload _ => literal "unload"
  | .reload _ => literal "reload"
  | .quit => literal "quit"

/-- What stands behind it. -/
def args : Command → Option (List UInt8)
  | .showStats (some module) => some module.bytes
  | .logStats => some (word "stats")
  | .logSpam count => some (withNumber (word "spam") count)
  | .logLevel level => some (word "level " ++ levelWord level)
  | .logCompLevel compId level =>
      some (word "level " ++ Scan.decimal compId ++ 32 :: levelWord level)
  | .perfStart (some count) => some (Scan.decimal count)
  | .perfRemote (some (count, payloadSize)) => some (withNumber (Scan.decimal count) payloadSize)
  | .perfSweep count => some (withNumber (word "sweep") count)
  | .load name | .unload name | .reload name => some name.bytes
  | _ => none

/-- The line. -/
def text (command : Command) : List UInt8 :=
  command.name.bytes ++ match command.args with
    | none => []
    | some args => 32 :: args

/-- The handler. -/
def handler : Command → CliHandler
  | .help => plainHandler .help
  | .showComponents => plainHandler .showComponents
  | .showServices => plainHandler .showServices
  | .showDb => plainHandler .showDb
  | .showMemory => plainHandler .showMemory
  | .showIpc => plainHandler .showIpc
  | .showStats _ => doShowStats
  | .log | .logStats | .logSpam _ | .logLevel _ | .logCompLevel _ _ => doLog
  | .perfStart _ => doPerfStart
  | .perfRemote _ | .perfSweep _ => doPerfRemoteStart
  | .load _ => nameHandler .reload
  | .unload _ => nameHandler .unload
  | .reload _ => nameHandler .reload
  | .quit => plainHandler .quit

/-- A number of iterations, where zero stands for the default. -/
def orDefault (count : Option Nat) : UInt32 :=
  match count with
  | none | some 0 => 10000
  | some count => .ofNat count

/-- What the node is to do. -/
def request : Command → Request
  | .help => .help
  | .showComponents => .showComponents
  | .showServices => .showServices
  | .showDb => .showDb
  | .showMemory => .showMemory
  | .showIpc => .showIpc
  | .showStats module => .showStats module
  | .log => .logUsage
  | .logStats => .logStats
  | .logSpam count => .logSpam (.ofNat (count.getD 2000))
  | .logLevel level => .setFilterLevel level
  | .logCompLevel compId level => .setCompLevel (.ofNat compId) level
  | .perfStart count => .perfStart (orDefault count)
  | .perfRemote none => .perfRemote 10000 0
  | .perfRemote (some (count, payloadSize)) =>
      .perfRemote (orDefault (some count)) (.ofNat (payloadSize.getD 0))
  | .perfSweep count => .perfRemote (orDefault count) 0xFFFFFFFF
  | .load name => .reload name
  | .unload name => .unload name
  | .reload name => .reload name
  | .quit => .quit

/-- The numbers fit their types, and a module has a name. -/
def Sound : Command → Prop
  | .showStats (some module) => module.strlen ≠ 0
  | .logSpam (some count) => count < 2 ^ 31
  | .logCompLevel compId _ => compId < 2 ^ 31
  | .perfStart (some count) => count < 2 ^ 31
  | .perfRemote (some (count, payloadSize)) => count < 2 ^ 32 ∧ payloadSize.getD 0 < 2 ^ 32
  | .perfSweep count => count.getD 0 < 2 ^ 32
  | _ => True

theorem mem_gCliCmds (command : Command) : (command.name, command.handler) ∈ gCliCmds := by
  cases command <;> simp [gCliCmds, name, handler]

end Command

/-! ## Handlers of commands -/

theorem startsWith_stats (line : CStr) :
    startsWith line "stats" = decide (line.bytes.take 5 = [115, 116, 97, 116, 115]) := rfl

theorem startsWith_spam (line : CStr) :
    startsWith line "spam" = decide (line.bytes.take 4 = [115, 112, 97, 109]) := rfl

theorem startsWith_level (line : CStr) :
    startsWith line "level" = decide (line.bytes.take 5 = [108, 101, 118, 101, 108]) := rfl

theorem startsWith_sweep (line : CStr) :
    startsWith line "sweep" = decide (line.bytes.take 5 = [115, 119, 101, 101, 112]) := rfl

theorem stringFrom_eq (front : List UInt8) (text : CStr) (rest : List UInt8) :
    stringFrom (front ++ (text.bytes ++ 0 :: rest)) front.length = some text := by
  have held : CStr.stringAt (text.bytes ++ 0 :: rest) = text := by
    ext1
    exact CStr.takeWhile_append_zero text.noNul rest
  rw [stringFrom, List.drop_left, held, if_pos (by simp)]

theorem strToLevel_levelWord (level : Level) : strToLevel (levelWord level) = level := by
  cases level <;> decide

theorem scanWord_levelWord (level : Level) :
    Scan.scanWord (levelWord level) = some (levelWord level, []) := by
  cases level <;> decide

theorem length_levelWord (level : Level) : (levelWord level).length < wordSize := by
  cases level <;> decide

theorem doLog_eq (front : List UInt8) {args : CStr} {rest : List UInt8} :
    doLog (front ++ (args.bytes ++ 0 :: rest)) (some front.length) =
      if startsWith args "stats" then some .logStats
      else if startsWith args "spam" then
        if args.strlen = 4 then some (.logSpam 2000)
        else (Scan.atoi (args.bytes.drop 5)).map fun count => .logSpam count.toUInt32
      else if startsWith args "level" then
        (stringFrom (front ++ (args.bytes ++ 0 :: rest)) (front.length + 6)).bind logLevel
      else some .nothing := by
  simp only [doLog, stringFrom_eq, Option.bind_some]

theorem doLog_stats (front rest : List UInt8) {args : CStr} (written : args.bytes = word "stats") :
    doLog (front ++ (args.bytes ++ 0 :: rest)) (some front.length) = some .logStats := by
  rw [doLog_eq, startsWith_stats, written]
  rfl

theorem doLog_spam (front rest : List UInt8) {args : CStr} {count : Option Nat}
    (written : args.bytes = withNumber (word "spam") count) (small : count.getD 0 < 2 ^ 31) :
    doLog (front ++ (args.bytes ++ 0 :: rest)) (some front.length) =
      some (.logSpam (.ofNat (count.getD 2000))) := by
  rw [doLog_eq, startsWith_stats, startsWith_spam, CStr.strlen, written]
  cases count with
  | none => rfl
  | some count =>
      have letters : withNumber (word "spam") (some count) =
          115 :: 112 :: 97 :: 109 :: 32 :: Scan.decimal count := rfl
      have read : Scan.atoi (Scan.decimal count) = some (.ofNat count) := Scan.atoi_decimal small
      rw [letters, if_neg (by simp), if_pos (by simp), if_neg (by simp)]
      simp only [List.drop_succ_cons, List.drop_zero, read]
      rfl

theorem doLog_level (front rest : List UInt8) {args : CStr} {more : CStr}
    (written : args.bytes = word "level " ++ more.bytes) :
    doLog (front ++ (args.bytes ++ 0 :: rest)) (some front.length) = logLevel more := by
  have letters : word "level " ++ more.bytes =
      108 :: 101 :: 118 :: 101 :: 108 :: 32 :: more.bytes := rfl
  have placed : front ++ (args.bytes ++ 0 :: rest) =
      (front ++ word "level ") ++ (more.bytes ++ 0 :: rest) := by
    simp [written]
  have behind : front.length + 6 = (front ++ word "level ").length := by
    rw [List.length_append]
    rfl
  rw [doLog_eq, startsWith_stats, startsWith_spam, startsWith_level, placed, behind,
    stringFrom_eq, written, letters, if_neg (by simp), if_neg (by simp), if_pos (by simp)]
  rfl

theorem logLevel_level {more : CStr} {level : Level} (written : more.bytes = levelWord level) :
    logLevel more = some (.setFilterLevel level) := by
  have short := length_levelWord level
  simp only [logLevel, written, scanWord_levelWord, if_neg (not_le.mpr short)]
  rw [strToLevel_levelWord]
  rfl

theorem logLevel_compLevel {more : CStr} {compId : Nat} {level : Level} (small : compId < 2 ^ 31)
    (written : more.bytes = Scan.decimal compId ++ 32 :: levelWord level) :
    logLevel more = some (.setCompLevel (.ofNat compId) level) := by
  have short := length_levelWord level
  have digits : (Scan.decimal compId).length < wordSize := by
    have bound : (Scan.decimal compId).length ≤ 10 :=
      Scan.length_decimal_le (by decide) (by omega)
    exact Nat.lt_of_le_of_lt bound (by decide)
  simp only [logLevel, written, Scan.scanWord_decimal, Scan.scanWord_space, scanWord_levelWord,
    if_neg (not_le.mpr short), if_neg (not_le.mpr digits), Scan.atoi_decimal small,
    strToLevel_levelWord]
  rfl

theorem ite_ofNat {count : Nat} (small : count < 2 ^ 32) :
    (if UInt32.ofNat count = 0 then 10000 else UInt32.ofNat count) =
      Command.orDefault (some count) := by
  cases count with
  | zero => rfl
  | succ count =>
      have nonzero : UInt32.ofNat (count + 1) ≠ 0 := by
        intro zero
        have value := congrArg UInt32.toNat zero
        rw [UInt32.toNat_ofNat_of_lt' small] at value
        cases value
      rw [if_neg nonzero]
      rfl

theorem doPerfStart_eq (front rest : List UInt8) {args : CStr} {count : Nat}
    (written : args.bytes = Scan.decimal count) (small : count < 2 ^ 31) :
    doPerfStart (front ++ (args.bytes ++ 0 :: rest)) (some front.length) =
      some (.perfStart (Command.orDefault (some count))) := by
  have same : (Int32.ofNat count = 0) ↔ (UInt32.ofNat count = 0) := by
    constructor
    · exact fun zero => congrArg Int32.toUInt32 zero
    · exact fun zero => congrArg UInt32.toInt32 zero
  rw [doPerfStart, stringFrom_eq, Option.bind_some, written, Scan.atoi_decimal small,
    Option.map_some, ← ite_ofNat (by omega)]
  simp only [same]
  rfl

theorem doPerfRemoteStart_eq (front rest : List UInt8) {args : CStr} (given : args.strlen ≠ 0) :
    doPerfRemoteStart (front ++ (args.bytes ++ 0 :: rest)) (some front.length) =
      if startsWith args "sweep" then
        match Scan.scanUnsigned (args.bytes.drop 5) with
        | .failed => some (remoteRequest 10000 0xFFFFFFFF)
        | .undefined => none
        | .number count _ => some (remoteRequest count 0xFFFFFFFF)
      else
        match Scan.scanUnsigned args.bytes with
        | .failed => some (remoteRequest 10000 0)
        | .undefined => none
        | .number count rest =>
            match Scan.scanUnsigned rest with
            | .failed => some (remoteRequest count 0)
            | .undefined => none
            | .number payloadSize _ => some (remoteRequest count payloadSize) := by
  rw [doPerfRemoteStart, stringFrom_eq, Option.bind_some, if_neg given]

theorem doPerfRemoteStart_sweep (front rest : List UInt8) {args : CStr} {count : Option Nat}
    (written : args.bytes = withNumber (word "sweep") count) (small : count.getD 0 < 2 ^ 32) :
    doPerfRemoteStart (front ++ (args.bytes ++ 0 :: rest)) (some front.length) =
      some (.perfRemote (Command.orDefault count) 0xFFFFFFFF) := by
  have given : args.strlen ≠ 0 := by
    rw [CStr.strlen, written]
    have letters : word "sweep" ≠ [] := by decide
    cases count <;> simp [withNumber, letters]
  rw [doPerfRemoteStart_eq front rest given, startsWith_sweep, written]
  cases count with
  | none => rfl
  | some count =>
      have letters : withNumber (word "sweep") (some count) =
          115 :: 119 :: 101 :: 101 :: 112 :: 32 :: Scan.decimal count := rfl
      have small : count < 2 ^ 32 := small
      rw [letters, if_pos (by simp)]
      simp only [List.drop_succ_cons, List.drop_zero, Scan.scanUnsigned_space,
        Scan.scanUnsigned_decimal_nil small, remoteRequest, ite_ofNat small]

theorem doPerfRemoteStart_numbers (front rest : List UInt8) {args : CStr} {count : Nat}
    {payloadSize : Option Nat} (written : args.bytes = withNumber (Scan.decimal count) payloadSize)
    (small : count < 2 ^ 32) (small' : payloadSize.getD 0 < 2 ^ 32) :
    doPerfRemoteStart (front ++ (args.bytes ++ 0 :: rest)) (some front.length) =
      some (.perfRemote (Command.orDefault (some count)) (.ofNat (payloadSize.getD 0))) := by
  have digits := Scan.decimal_ne_nil count
  have given : args.strlen ≠ 0 := by
    rw [CStr.strlen, written]
    cases payloadSize <;> simp [withNumber, digits]
  have number : startsWith args "sweep" = false := by
    obtain ⟨byte, more, same⟩ := List.exists_cons_of_ne_nil digits
    have member : byte ∈ Scan.decimal count := by
      rw [same]
      exact List.mem_cons_self
    have digit : Scan.isDigit byte = true := Scan.isDigit_of_mem member
    have letter : byte ≠ 115 := by
      rintro rfl
      exact absurd digit (by decide)
    rw [startsWith_sweep, written]
    cases payloadSize <;> simp [withNumber, same, letter]
  rw [doPerfRemoteStart_eq front rest given, number, if_neg (by simp), written]
  cases payloadSize with
  | none =>
      simp only [withNumber, Scan.scanUnsigned_decimal_nil small, Scan.scanUnsigned_nil,
        remoteRequest, ite_ofNat small]
      rfl
  | some payloadSize =>
      have small' : payloadSize < 2 ^ 32 := small'
      have blank : ∀ byte ∈ (32 :: Scan.decimal payloadSize).head?, Scan.isDigit byte = false := by
        simp [Scan.isDigit]
      simp only [withNumber, Scan.scanUnsigned_decimal small blank, Scan.scanUnsigned_space,
        Scan.scanUnsigned_decimal_nil small', remoteRequest, ite_ofNat small]
      rfl

namespace Command

theorem handler_none {command : Command} (bare : command.args = none) (buf : List UInt8) :
    command.handler buf none = some command.request := by
  cases command with
  | showStats module =>
      cases module with
      | none => rfl
      | some module => cases bare
  | perfStart count =>
      cases count with
      | none => rfl
      | some count => cases bare
  | perfRemote numbers =>
      cases numbers with
      | none => rfl
      | some numbers => cases bare
  | logStats | logSpam count | logLevel level | logCompLevel compId level | perfSweep count
  | load name | unload name | reload name => cases bare
  | _ => rfl

theorem handler_some {command : Command} {args : CStr} (given : command.args = some args.bytes)
    (sound : command.Sound) (front rest : List UInt8) :
    command.handler (front ++ (args.bytes ++ 0 :: rest)) (some front.length) =
      some command.request := by
  cases command with
  | showStats module =>
      cases module with
      | none => cases given
      | some module =>
          obtain rfl : module = args := CStr.ext (Option.some.inj given)
          have named : module.strlen ≠ 0 := sound
          simp only [handler, doShowStats, stringFrom_eq, Option.map_some, named, if_false, request]
  | logStats => exact doLog_stats front rest (Option.some.inj given).symm
  | logSpam count =>
      refine doLog_spam front rest (Option.some.inj given).symm ?_
      cases count with
      | none => decide
      | some count => exact sound
  | logLevel level =>
      have written : word "level " ++ levelWord level = args.bytes := Option.some.inj given
      have noNul : 0 ∉ levelWord level := fun member =>
        args.noNul (written ▸ List.mem_append_right _ member)
      have more : doLog (front ++ (args.bytes ++ 0 :: rest)) (some front.length) =
          Cli.logLevel ⟨levelWord level, noNul⟩ := doLog_level front rest written.symm
      exact more.trans (logLevel_level rfl)
  | logCompLevel compId level =>
      have written : word "level " ++ (Scan.decimal compId ++ 32 :: levelWord level) =
          args.bytes := (List.append_assoc ..).symm.trans (Option.some.inj given)
      have noNul : 0 ∉ Scan.decimal compId ++ 32 :: levelWord level := fun member =>
        args.noNul (written ▸ List.mem_append_right _ member)
      have more : doLog (front ++ (args.bytes ++ 0 :: rest)) (some front.length) =
          Cli.logLevel ⟨Scan.decimal compId ++ 32 :: levelWord level, noNul⟩ :=
        doLog_level front rest written.symm
      exact more.trans (logLevel_compLevel sound rfl)
  | perfStart count =>
      cases count with
      | none => cases given
      | some count => exact doPerfStart_eq front rest (Option.some.inj given).symm sound
  | perfRemote numbers =>
      cases numbers with
      | none => cases given
      | some numbers =>
          exact doPerfRemoteStart_numbers front rest (Option.some.inj given).symm sound.1 sound.2
  | perfSweep count => exact doPerfRemoteStart_sweep front rest (Option.some.inj given).symm sound
  | load name | unload name | reload name =>
      obtain rfl : name = args := CStr.ext (Option.some.inj given)
      simp only [handler, nameHandler, stringFrom_eq, Option.map_some, request]
  | _ => cases given

theorem request_eq_quit_iff (command : Command) : command.request = .quit ↔ command = .quit := by
  cases command with
  | perfRemote numbers => cases numbers <;> simp [request]
  | _ => simp [request]

end Command

/-! ## Scripts -/

/-- A line of a script. -/
structure Line where
  /-- The command. -/
  command : Command
  /-- Its numbers fit. -/
  sound : command.Sound
  /-- It fits the buffer. -/
  short : command.text.length + 1 < lineSize
  noNul : 0 ∉ command.text
  /-- It is one line. -/
  plain : Lines.newline ∉ command.text

namespace Line

/-- The line as a string. -/
def text (line : Line) : CStr := ⟨line.command.text, line.noNul⟩

/-- The lines up to the first `quit`. -/
def untilQuit : List Line → List Line
  | [] => []
  | line :: lines => line :: if line.command = .quit then [] else untilQuit lines

theorem isCommand_text (line : Line) : isCommand line.text line.command.name = true := by
  rw [isCommand_iff]
  cases given : line.command.args with
  | none => simp [text, Command.text, given]
  | some args => simp [text, Command.text, given]

theorem dispatch_text (line : Line) (rest : List UInt8) :
    dispatch (line.command.text ++ 0 :: rest) line.text = some line.command.request := by
  rw [dispatch_eq line.command.mem_gCliCmds line.isCommand_text]
  have noNul := line.noNul
  cases given : line.command.args with
  | none =>
      have start : argsStart line.text line.command.name = none := by
        simp [argsStart, text, Command.text, given, CStr.strlen]
      rw [start, Command.handler_none given]
  | some args =>
      rw [Command.text, given] at noNul
      let string : CStr := ⟨args, fun member => noNul (by simp [member])⟩
      have start : argsStart line.text line.command.name =
          some (line.command.name.bytes ++ [32]).length := by
        simp [argsStart, text, Command.text, given, CStr.strlen]
      have split : line.command.text ++ 0 :: rest =
          (line.command.name.bytes ++ [32]) ++ (string.bytes ++ 0 :: rest) := by
        simp [Command.text, given, string]
      rw [start, split]
      exact Command.handler_some given line.sound _ rest

end Line

namespace Console

variable {console : Console} {past : List CStr}

/-- The interface at its start. -/
def start (buf : List UInt8) : Console := ⟨buf, .empty, true, []⟩

theorem takePiece_line (holds : console.history.Holds past) (line : Line) :
    ∃ after, console.takePiece (line.command.text ++ [Lines.newline]) = some after ∧
      after.history.Holds (History.remember past line.text) ∧
      after.keepRunning = (console.keepRunning && line.command ≠ .quit) ∧
      after.requests = console.requests ++ [line.command.request] := by
  obtain ⟨history, added, kept⟩ := holds.historyAdd line.text
  obtain ⟨stale, stale_eq⟩ : ∃ stale,
      stale = console.buf.drop ((line.command.text ++ [Lines.newline]).length + 1) := ⟨_, rfl⟩
  have whole : 0 ∉ line.command.text ++ [Lines.newline] := by
    simp [line.noNul, Lines.newline]
  have read : CStr.stringAt (line.command.text ++ [Lines.newline] ++ 0 :: stale) =
      ⟨line.command.text ++ [Lines.newline], whole⟩ := by
    ext1
    exact CStr.takeWhile_append_zero whole stale
  have cut : ((line.command.text ++ [Lines.newline]).takeWhile (· ≠ Lines.newline)) =
      line.command.text := by
    rw [List.takeWhile_append_of_pos]
    · simp
    · intro byte member
      simpa using ne_of_mem_of_not_mem member line.plain
  have ended : (line.command.text ++ [Lines.newline] ++ 0 :: stale).set
      line.command.text.length 0 = line.command.text ++ 0 :: (0 :: stale) := by
    rw [List.append_assoc, List.set_append_right _ _ le_rfl, Nat.sub_self]
    rfl
  have held : CStr.stringAt (line.command.text ++ 0 :: (0 :: stale)) = line.text := by
    ext1
    exact CStr.takeWhile_append_zero line.noNul _
  have given : (line.command.text ++ [Lines.newline]).length ≠ 0 := by simp
  refine ⟨⟨line.command.text ++ 0 :: (0 :: stale), history,
    console.keepRunning && line.command.request ≠ .quit,
    console.requests ++ [line.command.request]⟩, ?_, kept, ?_, rfl⟩
  · simp only [takePiece, ← stale_eq, read, CStr.strlen, given, if_false, cut, ended, held, added,
      Option.bind_some, line.dispatch_text, Option.map_some]
  · simp [Command.request_eq_quit_iff]

/-- A script makes the interface do what it says, up to the first `quit`. -/
theorem consume_script (holds : console.history.Holds past) (running : console.keepRunning = true)
    (lines : List Line) :
    ∃ after, Lines.consume keepRunning takePiece console
        (lines.map fun line => line.command.text ++ [Lines.newline]) = some after ∧
      after.requests =
        console.requests ++ (Line.untilQuit lines).map (fun line => line.command.request) ∧
      (after.keepRunning = true ↔ ∀ line ∈ lines, line.command ≠ .quit) ∧
      after.history.Holds (((Line.untilQuit lines).map Line.text).foldl History.remember past) := by
  induction lines generalizing console past with
  | nil => exact ⟨console, rfl, by simp [Line.untilQuit], by simp [running], holds⟩
  | cons line lines ih =>
      obtain ⟨next, taken, kept, runs, done⟩ := takePiece_line holds line
      simp only [List.map_cons, Lines.consume, running, if_true, taken, Option.bind_some]
      rw [running, Bool.true_and] at runs
      by_cases last : line.command = .quit
      · have stopped : next.keepRunning = false := by simp [runs, last]
        refine ⟨next, ?_, ?_, ?_, ?_⟩
        · cases lines <;> simp [Lines.consume, stopped]
        · simp [done, Line.untilQuit, last]
        · simp [stopped, last]
        · simpa [Line.untilQuit, last] using kept
      · have goes : next.keepRunning = true := by simp [runs, last]
        obtain ⟨after, consumed, requests, runs', kept'⟩ := ih kept goes
        refine ⟨after, consumed, ?_, ?_, ?_⟩
        · simp [requests, done, Line.untilQuit, last]
        · simp [runs', last]
        · simpa [Line.untilQuit, last] using kept'

end Console

end CodexNos.Cli
