import CodexNos.Manager.Processes
import Mathlib.Tactic

/-!
# The manager keeps track of its children

A node is running exactly if it has a positive pid, and then this is the pid of its one unreaped
child.  Children that exit, calls that fail and the order of commands do not matter: a pid is dropped
only with its child, and a node gets a child only while it has none.
-/

namespace CodexNos.Manager

/-- A child by its pid and its node. -/
def Child.key (child : Child) : Pid × Nat := (child.pid, child.owner)

namespace Kernel

variable {kernel kernel' called : Kernel} {answer : Answer}

/-- The unreaped children by pid and node. -/
def keys (kernel : Kernel) : List (Pid × Nat) := kernel.children.map Child.key

/-- No node has had two unreaped children at once. -/
def OneEach (kernel : Kernel) : Prop :=
  ∀ snapshot ∈ kernel.history, (snapshot.map Child.owner).Nodup

/-! ## System calls -/

/-- When a call begins, children exit, but none is reaped. -/
theorem keys_next (begun : kernel.next = some (answer, called)) :
    called.keys = kernel.keys ∧ called.history = kernel.history := by
  unfold next at begun
  split at begun
  · cases begun
  · obtain ⟨rfl, rfl⟩ : _ = answer ∧ _ = called := by simpa using begun
    exact ⟨by simp [keys, Function.comp_def, Child.key, Child.mayExit], rfl⟩

/-- What a call does that neither makes nor reaps a child. -/
structure Quiet (kernel kernel' : Kernel) : Prop where
  /-- The children are the same. -/
  keys : kernel'.keys = kernel.keys
  /-- They are recorded. -/
  history : kernel'.history = kernel'.children :: kernel.history

theorem quiet_ends (begun : kernel.next = some (answer, called)) :
    kernel.Quiet (called.ends called.children) := by
  obtain ⟨keys_eq, history_eq⟩ := keys_next begun
  exact ⟨keys_eq, by rw [ends, history_eq]⟩

theorem quiet_attempt {success : Bool} (tried : kernel.attempt = some (success, kernel')) :
    kernel.Quiet kernel' := by
  obtain ⟨⟨answer, called⟩, begun, result⟩ := Option.map_eq_some_iff.mp tried
  obtain ⟨-, rfl⟩ := Prod.mk.inj result
  exact quiet_ends begun

/-- A fork makes no child, or one with a fresh positive pid. -/
theorem fork_spec {owner : Nat} {result : Option (Pid × Int)}
    (forked : kernel.fork owner = some (result, kernel')) :
    match result with
    | none => kernel.Quiet kernel'
    | some (pid, _) => 0 < pid ∧ pid ∉ kernel.keys.map Prod.fst ∧
        kernel'.keys = (pid, owner) :: kernel.keys ∧
        kernel'.history = kernel'.children :: kernel.history := by
  unfold fork at forked
  split at forked
  · cases forked
  · rename_i answer called begun
    obtain ⟨keys_eq, history_eq⟩ := keys_next begun
    split at forked
    · obtain ⟨fresh, result_eq⟩ := Option.ite_none_right_eq_some.mp forked
      obtain ⟨rfl, rfl⟩ := Prod.mk.inj (Option.some.inj result_eq)
      obtain ⟨positive, distinct⟩ := (Bool.and_eq_true _ _).mp fresh
      refine ⟨by simpa using positive, ?_, ?_, by rw [ends, history_eq]⟩
      · rw [← keys_eq]
        simpa [keys, Child.key] using distinct
      · rw [← keys_eq]
        rfl
    · obtain ⟨rfl, rfl⟩ := Prod.mk.inj (Option.some.inj forked)
      exact quiet_ends begun

/-- A wait reaps its child, or changes nothing; without `WNOHANG` it reaps its child. -/
theorem waitpid_spec {pid : Pid} {noHang : Bool} {result : Option Int}
    (waited : kernel.waitpid pid noHang = some (result, kernel')) :
    match result with
    | none => kernel.Quiet kernel' ∧ (noHang = false → pid ∉ kernel.keys.map Prod.fst)
    | some _ => kernel'.keys = kernel.keys.filter (fun key => key.1 ≠ pid) ∧
        kernel'.history = kernel'.children :: kernel.history := by
  unfold waitpid at waited
  split at waited
  · cases waited
  · rename_i answer called begun
    obtain ⟨keys_eq, history_eq⟩ := keys_next begun
    split at waited
    · rename_i missing
      obtain ⟨rfl, rfl⟩ := Prod.mk.inj (Option.some.inj waited)
      refine ⟨quiet_ends begun, fun _ => ?_⟩
      rw [← keys_eq]
      simpa [keys, Child.key] using missing
    · rename_i child found
      split at waited
      · obtain ⟨rfl, rfl⟩ := Prod.mk.inj (Option.some.inj waited)
        refine ⟨?_, by rw [ends, history_eq]⟩
        rw [← keys_eq, keys, keys, List.filter_map]
        rfl
      · obtain ⟨quick, result_eq⟩ := Option.ite_none_right_eq_some.mp waited
        obtain ⟨rfl, rfl⟩ := Prod.mk.inj (Option.some.inj result_eq)
        exact ⟨quiet_ends begun, by simp [quick]⟩

end Kernel

/-! ## Tracking -/

namespace Mgr

/-- The nodes know the unreaped children. -/
structure Tracked (mgr : Mgr) : Prop where
  /-- The unreaped children have different pids. -/
  pids : (mgr.kernel.keys.map Prod.fst).Nodup
  /-- Each of them is of another node. -/
  owners : (mgr.kernel.keys.map Prod.snd).Nodup
  /-- Their pids are positive. -/
  positive : ∀ key ∈ mgr.kernel.keys, 0 < key.1
  /-- Their nodes exist. -/
  inside : ∀ key ∈ mgr.kernel.keys, key.2 < mgr.nodes.length
  /-- A running node has the pid of its child. -/
  running : ∀ index node, mgr.nodes[index]? = some node → node.state = .running →
    (node.pid, index) ∈ mgr.kernel.keys
  /-- Another node has no pid and no child. -/
  idle : ∀ index node, mgr.nodes[index]? = some node → node.state ≠ .running →
    node.pid = -1 ∧ index ∉ mgr.kernel.keys.map Prod.snd
  /-- No node has had two unreaped children at once. -/
  history : mgr.kernel.OneEach

variable {mgr mgr' : Mgr} {kernel : Kernel}

theorem tracked_mgrInitNodes (defs : List MgrNodeDef) (answers : List Answer) :
    (mgrInitNodes defs answers).Tracked where
  pids := List.nodup_nil
  owners := List.nodup_nil
  positive := by simp [mgrInitNodes, Kernel.keys]
  inside := by simp [mgrInitNodes, Kernel.keys]
  running := by
    intro index node found running
    obtain ⟨nodeDef, -, rfl⟩ := List.mem_map.mp (List.mem_of_getElem? found)
    cases running
  idle := by
    intro index node found _
    obtain ⟨nodeDef, -, rfl⟩ := List.mem_map.mp (List.mem_of_getElem? found)
    exact ⟨rfl, by simp [mgrInitNodes, Kernel.keys]⟩
  history := by simp [mgrInitNodes, Kernel.OneEach]

/-- A recorded call that leaves each node at most one child. -/
theorem oneEach_cons {before after : Kernel} (one : before.OneEach)
    (owners : (after.keys.map Prod.snd).Nodup)
    (history : after.history = after.children :: before.history) : after.OneEach := by
  intro snapshot recorded
  rw [history] at recorded
  rcases List.mem_cons.mp recorded with rfl | earlier
  · simpa [Kernel.keys, Child.key, Function.comp_def] using owners
  · exact one snapshot earlier

theorem Tracked.quiet (tracked : mgr.Tracked) (quiet : mgr.kernel.Quiet kernel) :
    ({ mgr with kernel := kernel } : Mgr).Tracked := by
  obtain ⟨keys_eq, history_eq⟩ := quiet
  constructor
  case pids => exact keys_eq ▸ tracked.pids
  case owners => exact keys_eq ▸ tracked.owners
  case positive => exact keys_eq ▸ tracked.positive
  case inside => exact keys_eq ▸ tracked.inside
  case running => exact keys_eq ▸ tracked.running
  case idle => exact keys_eq ▸ tracked.idle
  case history => exact oneEach_cons tracked.history (keys_eq ▸ tracked.owners) history_eq

/-- The child of a running node is reaped and the node drops its pid. -/
theorem Tracked.reaped (tracked : mgr.Tracked) {index : Nat} {node node' : MgrNode}
    (found : mgr.nodes[index]? = some node) (running : node.state = .running)
    (keys_eq : kernel.keys = mgr.kernel.keys.filter fun key => key.1 ≠ node.pid)
    (history_eq : kernel.history = kernel.children :: mgr.kernel.history)
    (stopped : node'.state ≠ .running) (dropped : node'.pid = -1) :
    (mgr.setNode index node' kernel).Tracked := by
  have own := tracked.running index node found running
  have kept : kernel.keys.Sublist mgr.kernel.keys := keys_eq ▸ List.filter_sublist
  have owners := (kept.map Prod.snd).nodup tracked.owners
  constructor
  case pids => exact (kept.map Prod.fst).nodup tracked.pids
  case owners => exact owners
  case positive => exact fun key member => tracked.positive key (kept.subset member)
  case inside =>
    intro key member
    rw [setNode, List.length_set]
    exact tracked.inside key (kept.subset member)
  case running =>
    intro other node'' found' running'
    by_cases same : other = index
    · subst same
      have inside := (List.getElem?_eq_some_iff.mp found).1
      rw [setNode, List.getElem?_set_self inside] at found'
      cases found'
      exact absurd running' stopped
    · rw [setNode, List.getElem?_set_ne (Ne.symm same)] at found'
      have theirs := tracked.running other node'' found' running'
      change _ ∈ kernel.keys
      rw [keys_eq, List.mem_filter]
      refine ⟨theirs, ?_⟩
      rw [decide_eq_true_eq]
      intro shared
      have equal := List.inj_on_of_nodup_map tracked.pids theirs own shared
      exact same (congrArg Prod.snd equal)
  case idle =>
    intro other node'' found' idle
    by_cases same : other = index
    · subst same
      have inside := (List.getElem?_eq_some_iff.mp found).1
      rw [setNode, List.getElem?_set_self inside] at found'
      cases found'
      refine ⟨dropped, ?_⟩
      intro member
      obtain ⟨key, left, owner_eq⟩ := List.mem_map.mp member
      change key ∈ kernel.keys at left
      rw [keys_eq, List.mem_filter, decide_eq_true_eq] at left
      have equal := List.inj_on_of_nodup_map tracked.owners left.1 own owner_eq
      exact left.2 (congrArg Prod.fst equal)
    · rw [setNode, List.getElem?_set_ne (Ne.symm same)] at found'
      obtain ⟨no_pid, no_child⟩ := tracked.idle other node'' found' idle
      exact ⟨no_pid, fun member => no_child ((kept.map Prod.snd).subset member)⟩
  case history => exact oneEach_cons tracked.history owners history_eq

theorem Tracked.forked (tracked : mgr.Tracked) {index : Nat} {node node' : MgrNode}
    (found : mgr.nodes[index]? = some node) (idle : node.state ≠ .running) {pid : Pid}
    (positive : 0 < pid) (fresh : pid ∉ mgr.kernel.keys.map Prod.fst)
    (keys_eq : kernel.keys = (pid, index) :: mgr.kernel.keys)
    (history_eq : kernel.history = kernel.children :: mgr.kernel.history)
    (started : node'.state = .running) (kept : node'.pid = pid) :
    (mgr.setNode index node' kernel).Tracked := by
  have inside := (List.getElem?_eq_some_iff.mp found).1
  have childless := (tracked.idle index node found idle).2
  have owners : (kernel.keys.map Prod.snd).Nodup := by
    rw [keys_eq, List.map_cons, List.nodup_cons]
    exact ⟨childless, tracked.owners⟩
  constructor
  case pids =>
    change (kernel.keys.map Prod.fst).Nodup
    rw [keys_eq, List.map_cons, List.nodup_cons]
    exact ⟨fresh, tracked.pids⟩
  case owners => exact owners
  case positive =>
    change ∀ key ∈ kernel.keys, 0 < key.1
    rw [keys_eq]
    exact List.forall_mem_cons.mpr ⟨positive, tracked.positive⟩
  case inside =>
    change ∀ key ∈ kernel.keys, key.2 < (mgr.nodes.set index node').length
    rw [keys_eq, List.length_set]
    exact List.forall_mem_cons.mpr ⟨inside, tracked.inside⟩
  case running =>
    intro other node'' found' running'
    change _ ∈ kernel.keys
    rw [keys_eq]
    by_cases same : other = index
    · subst same
      rw [setNode, List.getElem?_set_self inside] at found'
      cases found'
      rw [kept]
      exact List.mem_cons_self
    · rw [setNode, List.getElem?_set_ne (Ne.symm same)] at found'
      exact List.mem_cons_of_mem _ (tracked.running other node'' found' running')
  case idle =>
    intro other node'' found' idle'
    have different : other ≠ index := by
      rintro rfl
      rw [setNode, List.getElem?_set_self inside] at found'
      cases found'
      exact idle' started
    rw [setNode, List.getElem?_set_ne (Ne.symm different)] at found'
    obtain ⟨no_pid, no_child⟩ := tracked.idle other node'' found' idle'
    refine ⟨no_pid, ?_⟩
    change other ∉ kernel.keys.map Prod.snd
    rw [keys_eq, List.map_cons, List.mem_cons, not_or]
    exact ⟨different, no_child⟩
  case history => exact oneEach_cons tracked.history owners history_eq

/-! ## Commands -/

/-- `refresh_node` drops the pid of a node whose child it has reaped. -/
theorem Tracked.refreshNode (tracked : mgr.Tracked) {index : Nat}
    (refreshed : mgr.refreshNode index = some mgr') : mgr'.Tracked := by
  unfold Mgr.refreshNode at refreshed
  split at refreshed
  · obtain rfl := Option.some.inj refreshed
    exact tracked
  · rename_i node found
    split at refreshed
    · obtain rfl := Option.some.inj refreshed
      exact tracked
    · rename_i alive
      have running : node.state = .running := by
        by_contra idle
        simp [idle] at alive
      split at refreshed
      · cases refreshed
      · rename_i status kernel waited
        obtain ⟨keys_eq, history_eq⟩ := Kernel.waitpid_spec waited
        obtain rfl := Option.some.inj refreshed
        exact tracked.reaped found running keys_eq history_eq (by simp) rfl
      · rename_i kernel waited
        obtain rfl := Option.some.inj refreshed
        exact tracked.quiet (Kernel.waitpid_spec waited).1

theorem Tracked.refreshNodes (tracked : mgr.Tracked)
    (refreshed : mgr.refreshNodes = some mgr') : mgr'.Tracked := by
  unfold Mgr.refreshNodes at refreshed
  generalize List.range mgr.nodes.length = indices at refreshed
  induction indices generalizing mgr with
  | nil =>
      obtain rfl := Option.some.inj refreshed
      exact tracked
  | cons index indices ih =>
      obtain ⟨next, first, rest⟩ := Option.bind_eq_some_iff.mp refreshed
      exact ih (tracked.refreshNode first) rest

theorem Tracked.startNode (tracked : mgr.Tracked) {name : List Char}
    (started : mgr.startNode name = some mgr') : mgr'.Tracked := by
  unfold Mgr.startNode at started
  split at started
  · obtain rfl := Option.some.inj started
    exact tracked
  · rename_i index _
    obtain ⟨fresh, refreshed, started⟩ := Option.bind_eq_some_iff.mp started
    have tracked := tracked.refreshNode refreshed
    split at started
    · obtain rfl := Option.some.inj started
      exact tracked
    rename_i node found
    split at started
    · obtain rfl := Option.some.inj started
      exact tracked
    rename_i idle
    split at started
    · cases started
    · rename_i kernel tried
      obtain rfl := Option.some.inj started
      exact tracked.quiet (Kernel.quiet_attempt tried)
    rename_i accessed tried
    have tracked := tracked.quiet (Kernel.quiet_attempt tried)
    split at started
    · cases started
    · rename_i kernel forked
      obtain rfl := Option.some.inj started
      exact tracked.quiet (Kernel.fork_spec forked)
    · rename_i pid now kernel forked
      obtain ⟨positive, new, keys_eq, history_eq⟩ := Kernel.fork_spec forked
      obtain rfl := Option.some.inj started
      exact tracked.forked found idle positive new keys_eq history_eq rfl rfl

/-- The polling loop of `stop_node` reaps the child or leaves the nodes as they are. -/
theorem Tracked.pollStopped (tracked : mgr.Tracked) {index : Nat} {node : MgrNode}
    (found : mgr.nodes[index]? = some node) (running : node.state = .running) {rounds : Nat}
    {reaped : Bool} (polled : Mgr.pollStopped index node rounds mgr = some (reaped, mgr')) :
    mgr'.Tracked ∧ (reaped = false → mgr'.nodes = mgr.nodes) := by
  induction rounds generalizing mgr with
  | zero =>
      obtain ⟨rfl, rfl⟩ := Prod.mk.inj (Option.some.inj polled)
      exact ⟨tracked, fun _ => rfl⟩
  | succ rounds ih =>
      unfold Mgr.pollStopped at polled
      split at polled
      · cases polled
      · rename_i status kernel waited
        obtain ⟨keys_eq, history_eq⟩ := Kernel.waitpid_spec waited
        obtain ⟨rfl, rfl⟩ := Prod.mk.inj (Option.some.inj polled)
        exact ⟨tracked.reaped found running keys_eq history_eq (by simp) rfl, by simp⟩
      · rename_i kernel waited
        exact @ih { mgr with kernel := kernel } (tracked.quiet (Kernel.waitpid_spec waited).1)
          found polled

/-- The last resort of `stop_node` reaps the child or leaves the node running. -/
theorem Tracked.killNode (tracked : mgr.Tracked) {index : Nat} {node : MgrNode}
    (found : mgr.nodes[index]? = some node) (running : node.state = .running)
    (killed : mgr.killNode index node = some mgr') : mgr'.Tracked := by
  unfold Mgr.killNode at killed
  split at killed
  · cases killed
  · rename_i kernel tried
    obtain rfl := Option.some.inj killed
    exact tracked.quiet (Kernel.quiet_attempt tried)
  rename_i kernel tried
  have tracked := tracked.quiet (Kernel.quiet_attempt tried)
  split at killed
  · cases killed
  rename_i status kernel' waited
  obtain rfl := Option.some.inj killed
  cases status with
  | none =>
      have gone := (Kernel.waitpid_spec waited).2 rfl
      exact absurd (List.mem_map_of_mem (tracked.running index node found running)) gone
  | some status =>
      obtain ⟨keys_eq, history_eq⟩ := Kernel.waitpid_spec waited
      exact tracked.reaped found running keys_eq history_eq (by simp) rfl

theorem Tracked.stopNode (tracked : mgr.Tracked) {name : List Char}
    (stopped : mgr.stopNode name = some mgr') : mgr'.Tracked := by
  unfold Mgr.stopNode at stopped
  split at stopped
  · obtain rfl := Option.some.inj stopped
    exact tracked
  · rename_i index _
    obtain ⟨fresh, refreshed, stopped⟩ := Option.bind_eq_some_iff.mp stopped
    have tracked := tracked.refreshNode refreshed
    split at stopped
    · obtain rfl := Option.some.inj stopped
      exact tracked
    rename_i node found
    split at stopped
    · obtain rfl := Option.some.inj stopped
      exact tracked
    rename_i alive
    have running : node.state = .running := by
      by_contra idle
      simp [idle] at alive
    split at stopped
    · cases stopped
    · rename_i kernel tried
      obtain rfl := Option.some.inj stopped
      exact tracked.quiet (Kernel.quiet_attempt tried)
    rename_i kernel tried
    have tracked := tracked.quiet (Kernel.quiet_attempt tried)
    split at stopped
    · cases stopped
    · rename_i polled
      obtain rfl := Option.some.inj stopped
      exact (tracked.pollStopped found running polled).1
    · rename_i waiting polled
      obtain ⟨tracked, same⟩ := tracked.pollStopped found running polled
      exact tracked.killNode (by rw [same rfl]; exact found) running stopped

theorem Tracked.restartNode (tracked : mgr.Tracked) {name : List Char}
    (restarted : mgr.restartNode name = some mgr') : mgr'.Tracked := by
  unfold Mgr.restartNode at restarted
  split at restarted
  · obtain rfl := Option.some.inj restarted
    exact tracked
  · split at restarted
    · obtain ⟨middle, stopped, started⟩ := Option.bind_eq_some_iff.mp restarted
      exact (tracked.stopNode stopped).startNode started
    · exact tracked.startNode restarted

theorem Tracked.handleCommand (tracked : mgr.Tracked) {line : List Char}
    (handled : mgr.handleCommand line = some mgr') : mgr'.Tracked := by
  obtain ⟨fresh, refreshed, handled⟩ := Option.bind_eq_some_iff.mp handled
  have tracked := tracked.refreshNodes refreshed
  have done (same : some fresh = some mgr') : mgr'.Tracked := Option.some.inj same ▸ tracked
  split at handled
  · exact done handled
  split at handled
  · exact done handled
  split at handled
  · exact tracked.refreshNodes handled
  split at handled
  · exact tracked.startNode handled
  · exact tracked.stopNode handled
  · exact tracked.restartNode handled
  · split at handled
    · obtain rfl := Option.some.inj handled
      exact ⟨tracked.pids, tracked.owners, tracked.positive, tracked.inside, tracked.running,
        tracked.idle, tracked.history⟩
    · exact done handled

/-! ## Runs -/

theorem Tracked.run (tracked : mgr.Tracked) {lines : List (List Char)}
    (ran : mgr.run lines = some mgr') : mgr'.Tracked := by
  induction lines generalizing mgr with
  | nil =>
      obtain rfl := Option.some.inj ran
      exact tracked
  | cons line lines ih =>
      unfold Mgr.run at ran
      split at ran
      · obtain ⟨next, handled, rest⟩ := Option.bind_eq_some_iff.mp ran
        exact ih (tracked.handleCommand handled) rest
      · obtain rfl := Option.some.inj ran
        exact tracked

/-- A running node has a positive pid, another one has none. -/
theorem Tracked.running_iff (tracked : mgr.Tracked) {node : MgrNode} (member : node ∈ mgr.nodes) :
    node.state = .running ↔ 0 < node.pid := by
  obtain ⟨index, found⟩ := List.mem_iff_getElem?.mp member
  constructor
  · intro running
    exact tracked.positive _ (tracked.running index node found running)
  · intro positive
    by_contra idle
    rw [(tracked.idle index node found idle).1] at positive
    exact absurd positive (by decide)

/-- An unreaped child is the child of its own node and of no other one. -/
theorem Tracked.existsUnique_node (tracked : mgr.Tracked) {child : Child}
    (member : child ∈ mgr.kernel.children) :
    ∃! index : Nat, ∃ node : MgrNode,
      mgr.nodes[index]? = some node ∧ node.state = .running ∧ node.pid = child.pid := by
  have own : (child.pid, child.owner) ∈ mgr.kernel.keys := List.mem_map_of_mem member
  have inside := tracked.inside _ own
  have found : mgr.nodes[child.owner]? = some mgr.nodes[child.owner] :=
    List.getElem?_eq_getElem inside
  have running : mgr.nodes[child.owner].state = .running := by
    by_contra idle
    exact (tracked.idle _ _ found idle).2 (List.mem_map_of_mem own)
  have theirs := tracked.running _ _ found running
  have same : mgr.nodes[child.owner].pid = child.pid :=
    congrArg Prod.fst (List.inj_on_of_nodup_map tracked.owners theirs own rfl)
  refine ⟨child.owner, ⟨_, found, running, same⟩, ?_⟩
  rintro other ⟨node, found', running', same'⟩
  have key := tracked.running other node found' running'
  exact congrArg Prod.snd (List.inj_on_of_nodup_map tracked.pids key own same')

/-- After any commands and whatever the system does, a node is running exactly if it has a positive
pid, every unreaped child is the child of exactly one running node, and no node has ever had two of
them at once. -/
theorem children_tracked (defs : List MgrNodeDef) (answers : List Answer)
    (lines : List (List Char)) (ran : (mgrInitNodes defs answers).run lines = some mgr') :
    (∀ node : MgrNode, node ∈ mgr'.nodes → (node.state = .running ↔ 0 < node.pid)) ∧
    (∀ child ∈ mgr'.kernel.children, ∃! index : Nat, ∃ node : MgrNode,
      mgr'.nodes[index]? = some node ∧ node.state = .running ∧ node.pid = child.pid) ∧
    ∀ snapshot ∈ mgr'.kernel.history, (snapshot.map Child.owner).Nodup := by
  have tracked := (tracked_mgrInitNodes defs answers).run ran
  refine ⟨fun _ => tracked.running_iff, fun _ => tracked.existsUnique_node, ?_⟩
  exact tracked.history

/-- The nodes of a manifest. -/
def twoNodes : List MgrNodeDef :=
  ["ProcA", "ProcB"].map fun name => ⟨name.toList, "bin".toList, "uds".toList⟩

/-- Calls of the system that succeed, and the pid of a child. -/
def grantedCalls : List Answer :=
  [⟨[], true, 0, 5⟩, ⟨[], true, 40, 5⟩, ⟨[], true, 0, 6⟩, ⟨[], true, 0, 6⟩, ⟨[], true, 0, 6⟩,
    ⟨[(40, 15)], true, 0, 7⟩, ⟨[], true, 0, 8⟩, ⟨[], true, 41, 8⟩]

/-- A node that is started and restarted. -/
theorem restarted_tracked :
    ∃ mgr, (mgrInitNodes twoNodes grantedCalls).run
        ["start ProcA".toList, " restart ProcA".toList] = some mgr ∧
      ∀ child ∈ mgr.kernel.children, ∃! index : Nat, ∃ node : MgrNode,
        mgr.nodes[index]? = some node ∧ node.state = .running ∧ node.pid = child.pid := by
  have runs : ((mgrInitNodes twoNodes grantedCalls).run
      ["start ProcA".toList, " restart ProcA".toList]).isSome = true := by
    decide +kernel
  obtain ⟨mgr, ran⟩ := Option.isSome_iff_exists.mp runs
  exact ⟨mgr, ran, (children_tracked _ _ _ ran).2.1⟩

end Mgr

end CodexNos.Manager
