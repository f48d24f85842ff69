import Mathlib.Data.List.DropRight

/-!
# The node manager

The manager starts nodes as child processes and stops them again, one command after the other.  It
learns that a child has exited when it waits for it.  What the system does up to and in a call, which
children exit, whether the call succeeds and which pid a new child gets, is an answer of the
environment; a run has no result where the answers end or one of them is impossible.
-/

namespace CodexNos.Manager

/-! ## System calls -/

/-- A process id (`pid_t`). -/
abbrev Pid := Int

/-- A child that has not been reaped. -/
structure Child where
  /-- Its process id. -/
  pid : Pid
  /-- The node that it was forked for, as a place in `g_nodes`. -/
  owner : Nat
  /-- Its exit status, once it has exited. -/
  exitStatus : Option Int
  deriving DecidableEq, Repr

/-- What the system does up to and in a call. -/
structure Answer where
  /-- Children that exit before the call, with their status. -/
  exits : List (Pid × Int)
  /-- The call succeeds. -/
  granted : Bool
  /-- Process id of a new child. -/
  pid : Pid
  /-- The time after the call. -/
  now : Int
  deriving DecidableEq, Repr

/-- The part of the system that the manager uses. -/
structure Kernel where
  /-- The children that have not been reaped. -/
  children : List Child
  /-- What the system will do. -/
  answers : List Answer
  /-- The unreaped children after each call so far, the latest first. -/
  history : List (List Child)
  deriving DecidableEq, Repr

/-- A child exits if it is among the exits and has not exited before. -/
def Child.mayExit (child : Child) (exits : List (Pid × Int)) : Child :=
  { child with exitStatus := child.exitStatus.or (exits.lookup child.pid) }

namespace Kernel

/-- The next call begins. -/
def next (kernel : Kernel) : Option (Answer × Kernel) :=
  match kernel.answers with
  | [] => none
  | answer :: answers =>
      some (answer,
        { kernel with
          children := kernel.children.map fun child => child.mayExit answer.exits
          answers := answers })

/-- The call ends with these children. -/
def ends (kernel : Kernel) (children : List Child) : Kernel :=
  { kernel with children := children, history := children :: kernel.history }

/-- `fork`, on the side of the parent: the pid and the time after it.  The pid of a new child is
positive and no unreaped child has it. -/
def fork (kernel : Kernel) (owner : Nat) : Option (Option (Pid × Int) × Kernel) :=
  match kernel.next with
  | none => none
  | some (answer, called) =>
      if answer.granted then
        if 0 < answer.pid && called.children.all fun child => child.pid ≠ answer.pid then
          some (some (answer.pid, answer.now),
            called.ends (⟨answer.pid, owner, none⟩ :: called.children))
        else none
      else some (none, called.ends called.children)

/-- `kill` and `access`: whether the call succeeds. -/
def attempt (kernel : Kernel) : Option (Bool × Kernel) :=
  kernel.next.map fun (answer, called) => (answer.granted, called.ends called.children)

/-- `waitpid` for one child: its exit status if it is reaped.  Without `WNOHANG` the call does not
return before the child has exited. -/
def waitpid (kernel : Kernel) (pid : Pid) (noHang : Bool) : Option (Option Int × Kernel) :=
  match kernel.next with
  | none => none
  | some (_, called) =>
      match called.children.find? fun child => child.pid = pid with
      | none => some (none, called.ends called.children)
      | some child =>
          match child.exitStatus with
          | some status =>
              some (some status,
                called.ends (called.children.filter fun child => child.pid ≠ pid))
          | none => if noHang then some (none, called.ends called.children) else none

end Kernel

/-! ## Nodes -/

/-- A node of the manifest (`nos_mgr_node_def_t`). -/
structure MgrNodeDef where
  /-- `name`. -/
  name : List Char
  /-- `binary`. -/
  binary : List Char
  /-- `uds_path`. -/
  udsPath : List Char
  deriving DecidableEq, Repr

/-- State of a node (`mgr_node_state_t`). -/
inductive MgrNodeState
  | stopped
  | running
  | exited
  deriving DecidableEq, Repr

/-- A node (`mgr_node_t`). -/
structure MgrNode where
  /-- `def`. -/
  nodeDef : MgrNodeDef
  /-- `pid`. -/
  pid : Pid
  /-- `state`. -/
  state : MgrNodeState
  /-- `started_at`. -/
  startedAt : Int
  /-- `exit_status`. -/
  exitStatus : Int
  deriving DecidableEq, Repr

/-- `MGR_MAX_NODES`. -/
def mgrMaxNodes : Nat := 32

/-- The manager. -/
structure Mgr where
  /-- `g_nodes` up to `g_node_count`. -/
  nodes : List MgrNode
  /-- The system. -/
  kernel : Kernel
  /-- `g_keep_running`. -/
  keepRunning : Bool
  deriving DecidableEq, Repr

namespace Mgr

/-- `mgr_init_nodes`, for the definitions up to the one without a name. -/
def mgrInitNodes (defs : List MgrNodeDef) (answers : List Answer) : Mgr where
  nodes := (defs.take mgrMaxNodes).map fun nodeDef => ⟨nodeDef, -1, .stopped, 0, 0⟩
  kernel := ⟨[], answers, []⟩
  keepRunning := true

/-- `find_node`. -/
def findNode (mgr : Mgr) (name : List Char) : Option Nat :=
  if name = [] then none else mgr.nodes.findIdx? fun node => node.nodeDef.name = name

/-- Write a node. -/
def setNode (mgr : Mgr) (index : Nat) (node : MgrNode) (kernel : Kernel) : Mgr :=
  { mgr with nodes := mgr.nodes.set index node, kernel := kernel }

/-- `refresh_node`. -/
def refreshNode (mgr : Mgr) (index : Nat) : Option Mgr :=
  match mgr.nodes[index]? with
  | none => some mgr
  | some node =>
      if node.state ≠ .running || node.pid ≤ 0 then some mgr
      else
        match mgr.kernel.waitpid node.pid true with
        | none => none
        | some (some status, kernel) =>
            some
              (mgr.setNode index { node with exitStatus := status, pid := -1, state := .exited }
                kernel)
        | some (none, kernel) => some { mgr with kernel := kernel }

/-- `refresh_nodes`. -/
def refreshNodes (mgr : Mgr) : Option Mgr :=
  (List.range mgr.nodes.length).foldlM refreshNode mgr

/-- `start_node`. -/
def startNode (mgr : Mgr) (name : List Char) : Option Mgr :=
  match mgr.findNode name with
  | none => some mgr
  | some index =>
      (mgr.refreshNode index).bind fun mgr =>
        match mgr.nodes[index]? with
        | none => some mgr
        | some node =>
            if node.state = .running then some mgr
            else
              match mgr.kernel.attempt with
              | none => none
              | some (false, kernel) => some { mgr with kernel := kernel }
              | some (true, kernel) =>
                  match kernel.fork index with
                  | none => none
                  | some (none, kernel) => some { mgr with kernel := kernel }
                  | some (some (pid, now), kernel) =>
                      some
                        (mgr.setNode index
                          { node with
                            pid := pid
                            state := .running
                            startedAt := now
                            exitStatus := 0 } kernel)

/-- The polling loop of `stop_node`, with the number of further rounds.  Whether it has reaped the
child. -/
def pollStopped (index : Nat) (node : MgrNode) : Nat → Mgr → Option (Bool × Mgr)
  | 0, mgr => some (false, mgr)
  | rounds + 1, mgr =>
      match mgr.kernel.waitpid node.pid true with
      | none => none
      | some (some status, kernel) =>
          some (true,
            mgr.setNode index { node with pid := -1, state := .stopped, exitStatus := status } kernel)
      | some (none, kernel) => pollStopped index node rounds { mgr with kernel := kernel }

/-- The last resort of `stop_node`. -/
def killNode (mgr : Mgr) (index : Nat) (node : MgrNode) : Option Mgr :=
  match mgr.kernel.attempt with
  | none => none
  | some (false, kernel) => some { mgr with kernel := kernel }
  | some (true, kernel) =>
      match kernel.waitpid node.pid false with
      | none => none
      | some (status, kernel) =>
          some
            (mgr.setNode index
              { node with pid := -1, state := .stopped, exitStatus := status.getD 0 } kernel)

/-- `stop_node`. -/
def stopNode (mgr : Mgr) (name : List Char) : Option Mgr :=
  match mgr.findNode name with
  | none => some mgr
  | some index =>
      (mgr.refreshNode index).bind fun mgr =>
        match mgr.nodes[index]? with
        | none => some mgr
        | some node =>
            if node.state ≠ .running || node.pid ≤ 0 then some mgr
            else
              match mgr.kernel.attempt with
              | none => none
              | some (false, kernel) => some { mgr with kernel := kernel }
              | some (true, kernel) =>
                  match pollStopped index node 30 { mgr with kernel := kernel } with
                  | none => none
                  | some (true, mgr) => some mgr
                  | some (false, mgr) => mgr.killNode index node

/-- `restart_node`. -/
def restartNode (mgr : Mgr) (name : List Char) : Option Mgr :=
  match mgr.findNode name with
  | none => some mgr
  | some index =>
      if (mgr.nodes[index]?).any fun node => node.state = .running then
        (mgr.stopNode name).bind fun mgr => mgr.startNode name
      else mgr.startNode name

/-! ## Commands -/

/-- `trim`. -/
def trim (line : List Char) : List Char :=
  (line.dropWhile fun c => c = ' ' || c = '\t').rdropWhile fun c =>
    c = '\n' || c = '\r' || c = ' ' || c = '\t'

/-- The rest of a command behind its first word. -/
def argument (cmd : List Char) (word : String) : Option (List Char) :=
  if word.toList.isPrefixOf cmd then some (trim (cmd.drop word.length)) else none

/-- `handle_command`. -/
def handleCommand (mgr : Mgr) (line : List Char) : Option Mgr :=
  let cmd := trim line
  mgr.refreshNodes.bind fun mgr =>
    if cmd = [] then some mgr
    else if cmd = "help".toList then some mgr
    else if cmd = "show nodes".toList then mgr.refreshNodes
    else
      match argument cmd "start ", argument cmd "stop ", argument cmd "restart " with
      | some name, _, _ => mgr.startNode name
      | none, some name, _ => mgr.stopNode name
      | none, none, some name => mgr.restartNode name
      | none, none, none =>
          if cmd = "quit".toList || cmd = "exit".toList then some { mgr with keepRunning := false }
          else some mgr

/-- The main loop, over the lines of the input. -/
def run : Mgr → List (List Char) → Option Mgr
  | mgr, [] => some mgr
  | mgr, line :: lines =>
      if mgr.keepRunning then (mgr.handleCommand line).bind fun mgr => run mgr lines
      else some mgr

end Mgr

end CodexNos.Manager
