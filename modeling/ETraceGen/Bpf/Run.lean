import ETraceGen.Bpf.Handlers
import ETraceGen.Lib.Pairing

/-!
# Runs of the attached programs

A run is a sequence of `Step`s: tracepoint hits that are delivered to their program, tracepoint hits
nothing is attached to yet (or whose delivery is lost), and evictions from the LRU maps. Each of the
three enter/exit families is a correlation table in the kernel state (`fileClient`, `syscallClient`,
`networkClient`): a delivered hook is one operation on the table of its own family and leaves the
other two tables alone.
-/

namespace ETraceGen.Bpf

open Pairing

inductive Step where
  | deliver (env : HookEnv) (hook : Hook)
  /-- the task with this `pid_tgid` hits a tracepoint and no program runs -/
  | absent (pidTgid : UInt64) (hook : Hook)
  | evictFile (key : FileStateKey)
  | evictSyscall (key : SyscallStateKey)
  | evictNetwork (key : NetworkStateKey)

def exec (maps : ProbeMaps) (k : Kernel) : Step → Kernel
  | .deliver env hook => handle maps env hook k
  | .absent _ _ => k
  | .evictFile key => { k with fileEnterState := k.fileEnterState.erase key }
  | .evictSyscall key => { k with syscallEnterState := k.syscallEnterState.erase key }
  | .evictNetwork key => { k with networkEnterState := k.networkEnterState.erase key }

/-- The state after a run from the freshly loaded object. -/
def run (maps : ProbeMaps) (steps : List Step) : Kernel := steps.foldl (exec maps) {}

/-! ## The tables -/

def fileRecord? : EventVariant → Option FileEvent
  | .file ev => some ev
  | _ => none

def syscallRecord? : EventVariant → Option SyscallEvent
  | .syscall ev => some ev
  | _ => none

def networkRecord? : EventVariant → Option NetworkEvent
  | .network ev => some ev
  | _ => none

def fileTable (k : Kernel) : Table FileStateKey FileEvent FileEvent where
  pending := k.fileEnterState
  out := k.events.records.filterMap fileRecord?
  collisions := k.bpfStats .fileStateCollision
  saveFails := k.bpfStats .fileStateSaveFail
  misses := k.bpfStats .fileStateMiss

def syscallTable (k : Kernel) : Table SyscallStateKey SyscallEvent SyscallEvent where
  pending := k.syscallEnterState
  out := k.events.records.filterMap syscallRecord?
  collisions := k.bpfStats .syscallStateCollision
  saveFails := k.bpfStats .syscallStateSaveFail
  misses := k.bpfStats .syscallStateMiss

def networkTable (k : Kernel) : Table NetworkStateKey NetworkStateValue NetworkEvent where
  pending := k.networkEnterState
  out := k.events.records.filterMap networkRecord?
  collisions := k.bpfStats .networkStateCollision
  saveFails := k.bpfStats .networkStateSaveFail
  misses := k.bpfStats .networkStateMiss

/-! ## The operations -/

section Ops
variable (maps : ProbeMaps)

/-- The gate of a file handler, at enter and at exit. -/
def fileGate (env : HookEnv) (kind : FileEventKind) : Bool :=
  isEventAllowed maps env && isFileProbeEnabled maps kind

def syscallGate (env : HookEnv) : Bool := isEventAllowed maps env && isSyscallProbeEnabled maps

/-- The gate of a network handler at exit. -/
def networkGate (env : HookEnv) (kind : NetworkEventKind) : Bool :=
  isEventAllowed maps env && isNetworkProbeEnabled maps kind

theorem networkGate_congr {env env' : HookEnv} (h : env.pidTgid = env'.pidTgid)
    (kind : NetworkEventKind) : networkGate maps env kind = networkGate maps env' kind := by
  rw [networkGate, networkGate, isEventAllowed_congr maps h]

/-- The gate of a network handler at enter. -/
def networkEnterGate (env : HookEnv) (kind : NetworkEventKind) (args : SyscallArgs) (k : Kernel) :
    Bool :=
  networkGate maps env kind && (gateFd args kind).all fun fd => isSocketFd env fd k

/-- The payload each enter handler saves. -/
def filePayload (env : HookEnv) (kind : FileEventKind) (args : SyscallArgs) : FileEvent :=
  fillFile env args kind (freshFileEvent env kind)

def syscallPayload (env : HookEnv) (nr : Int32) (args : SyscallArgs) : SyscallEvent :=
  fillSyscall nr args (freshSyscallEvent env)

def networkPayload (env : HookEnv) (kind : NetworkEventKind) (args : SyscallArgs) :
    NetworkStateValue :=
  fillNetwork env args kind (stageScratch (freshNetworkEvent env kind))

def fileOp : Step → Op FileStateKey FileEvent FileEvent
  | .deliver env (.enterFile kind args) =>
    if !fileGate maps env kind then .skipEnter (makeFileKey env kind)
    else if env.reserveOk then
      .enter (makeFileKey env kind) (filePayload env kind args) env.updateOk
    else .refuse (makeFileKey env kind)
  | .deliver env (.exitFile kind ret) =>
    if !fileGate maps env kind then .skipExit (makeFileKey env kind)
    else .exit (makeFileKey env kind) (finishFileEvent env ret) env.reserveOk
  | .absent pidTgid (.enterFile kind _) => .skipEnter ⟨pidTgid, kind⟩
  | .absent pidTgid (.exitFile kind _) => .skipExit ⟨pidTgid, kind⟩
  | .evictFile key => .evict key
  | _ => .idle

def syscallOp : Step → Op SyscallStateKey SyscallEvent SyscallEvent
  | .deliver env (.rawEnter nr args) =>
    if !syscallGate maps env then .skipEnter (makeSyscallKey env nr)
    else if env.reserveOk then
      .enter (makeSyscallKey env nr) (syscallPayload env nr args) env.updateOk
    else .refuse (makeSyscallKey env nr)
  | .deliver env (.rawExit nr ret) =>
    if !syscallGate maps env then .skipExit (makeSyscallKey env nr)
    else .exit (makeSyscallKey env nr) (finishSyscallEvent env ret) env.reserveOk
  | .absent pidTgid (.rawEnter nr _) => .skipEnter ⟨pidTgid, nr⟩
  | .absent pidTgid (.rawExit nr _) => .skipExit ⟨pidTgid, nr⟩
  | .evictSyscall key => .evict key
  | _ => .idle

/-- An enter that finds no scratch slot gives its reservation back and saves nothing. -/
def networkOp (k : Kernel) : Step → Op NetworkStateKey NetworkStateValue NetworkEvent
  | .deliver env (.enterNetwork kind args) =>
    if !networkEnterGate maps env kind args k then .skipEnter (makeNetworkKey env kind)
    else if !env.reserveOk then .refuse (makeNetworkKey env kind)
    else if env.scratchOk then
      .enter (makeNetworkKey env kind) (networkPayload env kind args) env.updateOk
    else .skipEnter (makeNetworkKey env kind)
  | .deliver env (.exitNetwork kind ret) =>
    if !networkGate maps env kind then .skipExit (makeNetworkKey env kind)
    else .exit (makeNetworkKey env kind) (finishNetworkEvent env kind ret) env.reserveOk
  | .absent pidTgid (.enterNetwork kind _) => .skipEnter ⟨pidTgid, kind⟩
  | .absent pidTgid (.exitNetwork kind _) => .skipExit ⟨pidTgid, kind⟩
  | .evictNetwork key => .evict key
  | _ => .idle

end Ops

/-- `if (!a || !b) return;` is the gate `a && b`. -/
theorem ite_not_or_not {α : Type} (a b : Bool) (x y : α) :
    (if !a || !b then x else y) = if a && b then y else x := by
  cases a <;> cases b <;> rfl

section Shape
variable (maps : ProbeMaps) (env : HookEnv)

theorem emitProcess_eq (kind : ProcessEventKind) (fill : ProcessEvent → ProcessEvent) (k : Kernel) :
    emitProcess maps env kind fill k =
      if isEventAllowed maps env && isProcessProbeEnabled maps kind then
        if env.reserveOk then
          k.reserve.submit k.events.next (.process (fill (freshProcessEvent env kind)))
        else k.statInc .ringbufReserveFail
      else k := by
  rw [emitProcess, ite_not_or_not, reserveProcessEvent, reserveEvent]
  split_ifs <;> rfl

theorem enterFile_eq (kind : FileEventKind) (fill : FileEvent → FileEvent) (k : Kernel) :
    enterFile maps env kind fill k =
      if fileGate maps env kind then
        if env.reserveOk then
          saveFileEnterState env kind k.events.next (fill (freshFileEvent env kind)) k.reserve
        else k.statInc .ringbufReserveFail
      else k := by
  rw [enterFile, ite_not_or_not, reserveFileEvent, reserveEvent, fileGate]
  split_ifs <;> rfl

theorem exitFile_eq (kind : FileEventKind) (ret : Int64) (k : Kernel) :
    exitFile maps env kind ret k =
      if fileGate maps env kind then emitFileExitEvent env kind ret k else k := by
  rw [exitFile, ite_not_or_not, fileGate]

theorem onRawSysEnter_eq (nr : Int32) (args : SyscallArgs) (k : Kernel) :
    onRawSysEnter maps env nr args k =
      if syscallGate maps env then
        if env.reserveOk then
          saveSyscallEnterState env nr k.events.next (syscallPayload env nr args) k.reserve
        else k.statInc .ringbufReserveFail
      else k := by
  rw [onRawSysEnter, ite_not_or_not, reserveSyscallEvent, reserveEvent, syscallGate]
  simp only [isSyscallAllowed, Bool.not_true, Bool.false_eq_true, if_false]
  split_ifs <;> rfl

theorem onRawSysExit_eq (nr : Int32) (ret : Int64) (k : Kernel) :
    onRawSysExit maps env nr ret k =
      if syscallGate maps env then emitSyscallExitEvent env nr ret k else k := by
  rw [onRawSysExit, ite_not_or_not, syscallGate]
  simp only [isSyscallAllowed, Bool.not_true, Bool.false_eq_true, if_false]

theorem enterNetwork_eq (kind : NetworkEventKind) (args : SyscallArgs) (k : Kernel) :
    enterNetwork maps env kind (gateFd args kind) (fillNetwork env args kind) k =
      if networkEnterGate maps env kind args k then
        if env.reserveOk then
          if env.scratchOk then
            saveNetworkEnterState env kind k.events.next (networkPayload env kind args) k.reserve
          else k.reserve.discard k.events.next
        else k.statInc .ringbufReserveFail
      else k := by
  rw [enterNetwork, ite_not_or_not, reserveNetworkEvent, reserveEvent, networkEnterGate, networkGate]
  by_cases hfd : (gateFd args kind).any fun fd => !isSocketFd env fd k
  · have hall : ((gateFd args kind).all fun fd => isSocketFd env fd k) = false := by
      cases hg : gateFd args kind <;> simp_all
    simp only [hfd, hall, Bool.and_false, Bool.false_eq_true, if_true, if_false, ite_self]
  · have hall : ((gateFd args kind).all fun fd => isSocketFd env fd k) = true := by
      cases hg : gateFd args kind <;> simp_all
    simp only [hfd, hall, Bool.and_true, Bool.false_eq_true, if_false]
    split_ifs <;> rfl

theorem exitNetwork_eq (kind : NetworkEventKind) (ret : Int64) (k : Kernel) :
    exitNetwork maps env kind ret k =
      if networkGate maps env kind then emitNetworkExitEvent env kind ret k else k := by
  rw [exitNetwork, ite_not_or_not, networkGate]

/-! The `emit` functions when their entry is missing, and when it is there, with the reservation's two
outcomes. -/

theorem emitFileExitEvent_of_none {kind : FileEventKind} {k : Kernel} (ret : Int64)
    (h : k.fileEnterState.lookup (makeFileKey env kind) = none) :
    emitFileExitEvent env kind ret k = k.statInc .fileStateMiss := by
  simp only [emitFileExitEvent, h]

theorem emitSyscallExitEvent_of_none {nr : Int32} {k : Kernel} (ret : Int64)
    (h : k.syscallEnterState.lookup (makeSyscallKey env nr) = none) :
    emitSyscallExitEvent env nr ret k = k.statInc .syscallStateMiss := by
  simp only [emitSyscallExitEvent, h]

theorem emitNetworkExitEvent_of_none {kind : NetworkEventKind} {k : Kernel} (ret : Int64)
    (h : k.networkEnterState.lookup (makeNetworkKey env kind) = none) :
    emitNetworkExitEvent env kind ret k = k.statInc .networkStateMiss := by
  simp only [emitNetworkExitEvent, h]

theorem emitFileExitEvent_of_some {kind : FileEventKind} {k : Kernel} {state : FileEvent}
    (ret : Int64) (h : k.fileEnterState.lookup (makeFileKey env kind) = some state) :
    emitFileExitEvent env kind ret k =
      if env.reserveOk then
        { k.reserve.submit k.events.next (.file (finishFileEvent env ret state)) with
          fileEnterState := k.fileEnterState.erase (makeFileKey env kind) }
      else
        { k.statInc .ringbufReserveFail with
          fileEnterState := k.fileEnterState.erase (makeFileKey env kind) } := by
  simp only [emitFileExitEvent, h, reserveFileEvent, reserveEvent]
  split_ifs <;> rfl

theorem emitSyscallExitEvent_of_some {nr : Int32} {k : Kernel} {state : SyscallEvent}
    (ret : Int64) (h : k.syscallEnterState.lookup (makeSyscallKey env nr) = some state) :
    emitSyscallExitEvent env nr ret k =
      if env.reserveOk then
        { k.reserve.submit k.events.next (.syscall (finishSyscallEvent env ret state)) with
          syscallEnterState := k.syscallEnterState.erase (makeSyscallKey env nr) }
      else
        { k.statInc .ringbufReserveFail with
          syscallEnterState := k.syscallEnterState.erase (makeSyscallKey env nr) } := by
  simp only [emitSyscallExitEvent, h, reserveSyscallEvent, reserveEvent]
  split_ifs <;> rfl

/-- Tracking descriptors reads and changes the descriptor map only. -/
theorem trackSocketFds_reserve (kind : NetworkEventKind) (ret : Int64) (state : NetworkStateValue)
    (k : Kernel) :
    trackSocketFds env kind ret state k.reserve =
      { k.reserve with socketFdState := (trackSocketFds env kind ret state k).socketFdState } := by
  unfold trackSocketFds addSocketFd deleteSocketFd
  repeat' split
  all_goals rfl

theorem emitNetworkExitEvent_of_some {kind : NetworkEventKind} {k : Kernel}
    {state : NetworkStateValue} (ret : Int64)
    (h : k.networkEnterState.lookup (makeNetworkKey env kind) = some state) :
    emitNetworkExitEvent env kind ret k =
      if env.reserveOk then
        { k.reserve.submit k.events.next (.network (finishNetworkEvent env kind ret state)) with
          networkEnterState := k.networkEnterState.erase (makeNetworkKey env kind)
          socketFdState := (trackSocketFds env kind ret state k).socketFdState }
      else
        { k.statInc .ringbufReserveFail with
          networkEnterState := k.networkEnterState.erase (makeNetworkKey env kind) } := by
  simp only [emitNetworkExitEvent, h, reserveNetworkEvent, reserveEvent, isNetworkPortAllowed,
    if_true]
  split_ifs
  · simp only [trackSocketFds_reserve]
    rfl
  · rfl

end Shape

/-! ## What a step moves -/

/-- A handler settles each slot it reserves before it returns. -/
inductive Ring.Settles (r : Ring) : Ring → Prop where
  | untouched : Settles r r
  | submitted (record : EventVariant) : Settles r (r.reserve.submit r.next record)
  | discarded : Settles r (r.reserve.discard r.next)

/-- One step as an operation on each of the three tables, with the number of reservations it was
refused and what it does to the ring buffer. -/
structure Moves (k k' : Kernel) (file : Op FileStateKey FileEvent FileEvent)
    (syscall : Op SyscallStateKey SyscallEvent SyscallEvent)
    (network : Op NetworkStateKey NetworkStateValue NetworkEvent) (fails : Nat) : Prop where
  file : fileTable k' = (fileTable k).apply file
  syscall : syscallTable k' = (syscallTable k).apply syscall
  network : networkTable k' = (networkTable k).apply network
  fails : k'.bpfStats .ringbufReserveFail = k.bpfStats .ringbufReserveFail + fails
  ring : k.events.Settles k'.events

section Moves
variable (env : HookEnv) (k : Kernel)

section Silent
variable {k} {file : Op FileStateKey FileEvent FileEvent}
  {syscall : Op SyscallStateKey SyscallEvent SyscallEvent}
  {network : Op NetworkStateKey NetworkStateValue NetworkEvent}
  (hf : ∀ t : Table _ _ _, t.apply file = t) (hs : ∀ t : Table _ _ _, t.apply syscall = t)
  (hn : ∀ t : Table _ _ _, t.apply network = t)
include hf hs hn

theorem Moves.refl : Moves k k file syscall network 0 :=
  ⟨(hf _).symm, (hs _).symm, (hn _).symm, rfl, .untouched⟩

theorem Moves.refused : Moves k (k.statInc .ringbufReserveFail) file syscall network 1 := by
  refine ⟨?_, ?_, ?_, by simp [Kernel.statInc], .untouched⟩ <;>
    simp [fileTable, syscallTable, networkTable, Kernel.statInc, hf, hs, hn]

theorem Moves.discarded :
    Moves k (k.reserve.discard k.events.next) file syscall network 0 := by
  refine ⟨?_, ?_, ?_, rfl, .discarded⟩ <;>
    simp [fileTable, syscallTable, networkTable, Kernel.reserve, Kernel.discard, hf, hs, hn]

end Silent

theorem Moves.process (ev : ProcessEvent) :
    Moves k (k.reserve.submit k.events.next (.process ev)) .idle .idle .idle 0 := by
  refine ⟨?_, ?_, ?_, rfl, .submitted _⟩ <;>
    simp [fileTable, syscallTable, networkTable, fileRecord?, syscallRecord?, networkRecord?,
      Kernel.reserve, Kernel.submit, Table.apply]

/-! Saving enters the family's table, whatever becomes of the payload. -/

theorem Moves.saveFile (kind : FileEventKind) (ev : FileEvent) :
    Moves k (saveFileEnterState env kind k.events.next ev k.reserve)
      (.enter (makeFileKey env kind) ev env.updateOk) .idle .idle 0 := by
  simp only [saveFileEnterState]
  split_ifs <;> refine ⟨?_, ?_, ?_, ?_, .discarded⟩ <;>
    simp_all [fileTable, syscallTable, networkTable, Kernel.statInc, Kernel.discard, Kernel.reserve,
      Table.apply, Table.enter]

theorem Moves.saveSyscall (nr : Int32) (ev : SyscallEvent) :
    Moves k (saveSyscallEnterState env nr k.events.next ev k.reserve)
      .idle (.enter (makeSyscallKey env nr) ev env.updateOk) .idle 0 := by
  simp only [saveSyscallEnterState]
  split_ifs <;> refine ⟨?_, ?_, ?_, ?_, .discarded⟩ <;>
    simp_all [fileTable, syscallTable, networkTable, Kernel.statInc, Kernel.discard, Kernel.reserve,
      Table.apply, Table.enter]

theorem Moves.saveNetwork (kind : NetworkEventKind) (state : NetworkStateValue) :
    Moves k (saveNetworkEnterState env kind k.events.next state k.reserve)
      .idle .idle (.enter (makeNetworkKey env kind) state env.updateOk) 0 := by
  simp only [saveNetworkEnterState]
  split_ifs <;> refine ⟨?_, ?_, ?_, ?_, .discarded⟩ <;>
    simp_all [fileTable, syscallTable, networkTable, Kernel.statInc, Kernel.discard, Kernel.reserve,
      Table.apply, Table.enter]

/-! Emitting exits the family's table; it reserves only if it found its entry. -/

theorem Moves.emitFile (kind : FileEventKind) (ret : Int64) :
    Moves k (emitFileExitEvent env kind ret k)
      (.exit (makeFileKey env kind) (finishFileEvent env ret) env.reserveOk) .idle .idle
      (if (k.fileEnterState.lookup (makeFileKey env kind)).isSome && !env.reserveOk then 1 else 0) := by
  cases h : k.fileEnterState.lookup (makeFileKey env kind) with
  | none =>
    rw [emitFileExitEvent_of_none env ret h]
    refine ⟨?_, ?_, ?_, ?_, .untouched⟩ <;>
      simp_all [fileTable, syscallTable, networkTable, Kernel.statInc, Table.apply, Table.exit]
  | some state =>
    rw [emitFileExitEvent_of_some env ret h]
    cases hok : env.reserveOk with
    | true =>
      refine ⟨?_, ?_, ?_, ?_, .submitted _⟩ <;>
        simp [fileTable, syscallTable, networkTable, fileRecord?, syscallRecord?, networkRecord?,
          Kernel.reserve, Kernel.submit, Table.apply, Table.exit, h]
    | false =>
      refine ⟨?_, ?_, ?_, ?_, .untouched⟩ <;>
        simp [fileTable, syscallTable, networkTable, Kernel.statInc, Table.apply, Table.exit, h]

theorem Moves.emitSyscall (nr : Int32) (ret : Int64) :
    Moves k (emitSyscallExitEvent env nr ret k)
      .idle (.exit (makeSyscallKey env nr) (finishSyscallEvent env ret) env.reserveOk) .idle
      (if (k.syscallEnterState.lookup (makeSyscallKey env nr)).isSome && !env.reserveOk then 1
        else 0) := by
  cases h : k.syscallEnterState.lookup (makeSyscallKey env nr) with
  | none =>
    rw [emitSyscallExitEvent_of_none env ret h]
    refine ⟨?_, ?_, ?_, ?_, .untouched⟩ <;>
      simp_all [fileTable, syscallTable, networkTable, Kernel.statInc, Table.apply, Table.exit]
  | some state =>
    rw [emitSyscallExitEvent_of_some env ret h]
    cases hok : env.reserveOk with
    | true =>
      refine ⟨?_, ?_, ?_, ?_, .submitted _⟩ <;>
        simp [fileTable, syscallTable, networkTable, fileRecord?, syscallRecord?, networkRecord?,
          Kernel.reserve, Kernel.submit, Table.apply, Table.exit, h]
    | false =>
      refine ⟨?_, ?_, ?_, ?_, .untouched⟩ <;>
        simp [fileTable, syscallTable, networkTable, Kernel.statInc, Table.apply, Table.exit, h]

theorem Moves.emitNetwork (kind : NetworkEventKind) (ret : Int64) :
    Moves k (emitNetworkExitEvent env kind ret k)
      .idle .idle (.exit (makeNetworkKey env kind) (finishNetworkEvent env kind ret) env.reserveOk)
      (if (k.networkEnterState.lookup (makeNetworkKey env kind)).isSome && !env.reserveOk then 1
        else 0) := by
  cases h : k.networkEnterState.lookup (makeNetworkKey env kind) with
  | none =>
    rw [emitNetworkExitEvent_of_none env ret h]
    refine ⟨?_, ?_, ?_, ?_, .untouched⟩ <;>
      simp_all [fileTable, syscallTable, networkTable, Kernel.statInc, Table.apply, Table.exit]
  | some state =>
    rw [emitNetworkExitEvent_of_some env ret h]
    cases hok : env.reserveOk with
    | true =>
      refine ⟨?_, ?_, ?_, ?_, .submitted _⟩ <;>
        simp [fileTable, syscallTable, networkTable, fileRecord?, syscallRecord?, networkRecord?,
          Kernel.reserve, Kernel.submit, Table.apply, Table.exit, h]
    | false =>
      refine ⟨?_, ?_, ?_, ?_, .untouched⟩ <;>
        simp [fileTable, syscallTable, networkTable, Kernel.statInc, Table.apply, Table.exit, h]

end Moves

/-- The probe a process hook reports to. -/
def processKind? : Hook → Option ProcessEventKind
  | .schedExec _ => some .exec
  | .schedFork _ => some .fork
  | .schedExit => some .exit
  | .exitClone _ => some .clone
  | .exitClone3 _ => some .clone3
  | .exitVfork _ => some .vfork
  | _ => none

section Exec
variable (maps : ProbeMaps) (k : Kernel)

def processGate (env : HookEnv) (kind : ProcessEventKind) : Bool :=
  isEventAllowed maps env && isProcessProbeEnabled maps kind

/-- A handler invoked on this state gets as far as reserving a ring buffer slot. -/
def reserves (env : HookEnv) : Hook → Bool
  | .enterFile kind _ => fileGate maps env kind
  | .exitFile kind _ =>
    fileGate maps env kind && (k.fileEnterState.lookup (makeFileKey env kind)).isSome
  | .rawEnter _ _ => syscallGate maps env
  | .rawExit nr _ =>
    syscallGate maps env && (k.syscallEnterState.lookup (makeSyscallKey env nr)).isSome
  | .enterNetwork kind args => networkEnterGate maps env kind args k
  | .exitNetwork kind _ =>
    networkGate maps env kind && (k.networkEnterState.lookup (makeNetworkKey env kind)).isSome
  | hook => (processKind? hook).any (processGate maps env)

/-- A step's reservation is refused. -/
def reserveFails : Step → Bool
  | .deliver env hook => reserves maps k env hook && !env.reserveOk
  | _ => false

theorem Moves.emitProcess (env : HookEnv) (kind : ProcessEventKind)
    (fill : ProcessEvent → ProcessEvent) :
    Moves k (emitProcess maps env kind fill k) .idle .idle .idle
      (if processGate maps env kind && !env.reserveOk then 1 else 0) := by
  rw [emitProcess_eq, processGate]
  split_ifs <;> simp_all
  · exact .process k _
  · exact .refused (fun _ => rfl) (fun _ => rfl) fun _ => rfl
  · exact .refl (fun _ => rfl) (fun _ => rfl) fun _ => rfl

theorem Moves.enterFile (env : HookEnv) (kind : FileEventKind) (args : SyscallArgs) :
    Moves k (handleEnterFile maps env args kind k)
      (fileOp maps (.deliver env (.enterFile kind args))) .idle .idle
      (if fileGate maps env kind && !env.reserveOk then 1 else 0) := by
  rw [handleEnterFile_eq, enterFile_eq, fileOp]
  cases fileGate maps env kind with
  | false => exact .refl (fun _ => rfl) (fun _ => rfl) fun _ => rfl
  | true =>
    cases env.reserveOk with
    | false => exact .refused (fun _ => rfl) (fun _ => rfl) fun _ => rfl
    | true => exact .saveFile env k kind _

theorem Moves.exitFile (env : HookEnv) (kind : FileEventKind) (ret : Int64) :
    Moves k (handleExitFile maps env ret kind k)
      (fileOp maps (.deliver env (.exitFile kind ret))) .idle .idle
      (if fileGate maps env kind && (k.fileEnterState.lookup (makeFileKey env kind)).isSome &&
        !env.reserveOk then 1 else 0) := by
  rw [handleExitFile_eq, exitFile_eq, fileOp]
  cases fileGate maps env kind with
  | false => exact .refl (fun _ => rfl) (fun _ => rfl) fun _ => rfl
  | true => exact .emitFile env k kind ret

theorem Moves.rawEnter (env : HookEnv) (nr : Int32) (args : SyscallArgs) :
    Moves k (onRawSysEnter maps env nr args k)
      .idle (syscallOp maps (.deliver env (.rawEnter nr args))) .idle
      (if syscallGate maps env && !env.reserveOk then 1 else 0) := by
  rw [onRawSysEnter_eq, syscallOp]
  cases syscallGate maps env with
  | false => exact .refl (fun _ => rfl) (fun _ => rfl) fun _ => rfl
  | true =>
    cases env.reserveOk with
    | false => exact .refused (fun _ => rfl) (fun _ => rfl) fun _ => rfl
    | true => exact .saveSyscall env k nr _

theorem Moves.rawExit (env : HookEnv) (nr : Int32) (ret : Int64) :
    Moves k (onRawSysExit maps env nr ret k)
      .idle (syscallOp maps (.deliver env (.rawExit nr ret))) .idle
      (if syscallGate maps env && (k.syscallEnterState.lookup (makeSyscallKey env nr)).isSome &&
        !env.reserveOk then 1 else 0) := by
  rw [onRawSysExit_eq, syscallOp]
  cases syscallGate maps env with
  | false => exact .refl (fun _ => rfl) (fun _ => rfl) fun _ => rfl
  | true => exact .emitSyscall env k nr ret

theorem Moves.enterNetwork (env : HookEnv) (kind : NetworkEventKind) (args : SyscallArgs) :
    Moves k (handleEnterNetwork maps env args kind k)
      .idle .idle (networkOp maps k (.deliver env (.enterNetwork kind args)))
      (if networkEnterGate maps env kind args k && !env.reserveOk then 1 else 0) := by
  rw [handleEnterNetwork_eq, enterNetwork_eq, networkOp]
  cases networkEnterGate maps env kind args k with
  | false => exact .refl (fun _ => rfl) (fun _ => rfl) fun _ => rfl
  | true =>
    cases env.reserveOk with
    | false => exact .refused (fun _ => rfl) (fun _ => rfl) fun _ => rfl
    | true =>
      cases env.scratchOk with
      | false => exact .discarded (fun _ => rfl) (fun _ => rfl) fun _ => rfl
      | true => exact .saveNetwork env k kind _

theorem Moves.exitNetwork (env : HookEnv) (kind : NetworkEventKind) (ret : Int64) :
    Moves k (handleExitNetwork maps env ret kind k)
      .idle .idle (networkOp maps k (.deliver env (.exitNetwork kind ret)))
      (if networkGate maps env kind && (k.networkEnterState.lookup (makeNetworkKey env kind)).isSome &&
        !env.reserveOk then 1 else 0) := by
  rw [handleExitNetwork_eq, exitNetwork_eq, networkOp]
  cases networkGate maps env kind with
  | false => exact .refl (fun _ => rfl) (fun _ => rfl) fun _ => rfl
  | true => exact .emitNetwork env k kind ret

/-- **What one step does**: an operation on each family's table, the refused reservation counted,
and any slot it reserved settled. -/
theorem exec_moves (step : Step) :
    Moves k (exec maps k step) (fileOp maps step) (syscallOp maps step) (networkOp maps k step)
      (if reserveFails maps k step then 1 else 0) := by
  cases step with
  | absent pidTgid hook =>
    cases hook <;> exact ⟨rfl, rfl, rfl, rfl, .untouched⟩
  | evictFile key => exact ⟨rfl, rfl, rfl, rfl, .untouched⟩
  | evictSyscall key => exact ⟨rfl, rfl, rfl, rfl, .untouched⟩
  | evictNetwork key => exact ⟨rfl, rfl, rfl, rfl, .untouched⟩
  | deliver env hook =>
    cases hook with
    | schedExec filename => exact .emitProcess maps k env .exec _
    | schedFork childPid => exact .emitProcess maps k env .fork _
    | schedExit => exact .emitProcess maps k env .exit _
    | exitClone ret => exact .emitProcess maps k env .clone _
    | exitClone3 ret => exact .emitProcess maps k env .clone3 _
    | exitVfork ret => exact .emitProcess maps k env .vfork _
    | enterFile kind args => exact .enterFile maps k env kind args
    | exitFile kind ret => exact .exitFile maps k env kind ret
    | rawEnter nr args => exact .rawEnter maps k env nr args
    | rawExit nr ret => exact .rawExit maps k env nr ret
    | enterNetwork kind args => exact .enterNetwork maps k env kind args
    | exitNetwork kind ret => exact .exitNetwork maps k env kind ret

end Exec

/-! ## The three families as clients -/

section Clients
variable (maps : ProbeMaps)

def fileClient : Client Kernel Step FileStateKey FileEvent FileEvent where
  step := exec maps
  op := fun _ => fileOp maps
  table := fileTable
  sim := fun k step => (exec_moves maps k step).file

def syscallClient : Client Kernel Step SyscallStateKey SyscallEvent SyscallEvent where
  step := exec maps
  op := fun _ => syscallOp maps
  table := syscallTable
  sim := fun k step => (exec_moves maps k step).syscall

def networkClient : Client Kernel Step NetworkStateKey NetworkStateValue NetworkEvent where
  step := exec maps
  op := networkOp maps
  table := networkTable
  sim := fun k step => (exec_moves maps k step).network

/-! The freshly loaded object's tables are empty. -/

theorem fileTable_init : (fileClient maps).table {} = {} := rfl
theorem syscallTable_init : (syscallClient maps).table {} = {} := rfl
theorem networkTable_init : (networkClient maps).table {} = {} := rfl

theorem run_snoc (steps : List Step) (step : Step) :
    run maps (steps ++ [step]) = exec maps (run maps steps) step := by
  simp [run]

/-! What one step does to one entry of the network map. -/

section Lookup
variable {maps} {k : Kernel} {step : Step} {key : NetworkStateKey} {state : NetworkStateValue}

theorem networkOp_key_enter (maps : ProbeMaps) (k : Kernel) (env : HookEnv) (kind : NetworkEventKind)
    (args : SyscallArgs) :
    (networkOp maps k (.deliver env (.enterNetwork kind args))).key? = some ⟨env.pidTgid, kind⟩ := by
  simp only [networkOp]
  split_ifs <;> rfl

theorem networkOp_key_exit (maps : ProbeMaps) (k : Kernel) (env : HookEnv) (kind : NetworkEventKind) (ret : Int64) :
    (networkOp maps k (.deliver env (.exitNetwork kind ret))).key? = some ⟨env.pidTgid, kind⟩ := by
  simp only [networkOp]
  split_ifs <;> rfl

theorem networkEntry_of_ne (h : (networkOp maps k step).key? ≠ some key) :
    (exec maps k step).networkEnterState.lookup key = k.networkEnterState.lookup key :=
  (networkClient maps).lookup_step_of_ne h

theorem networkEntry_of_none (h : k.networkEnterState.lookup key = none)
    (ho : ∀ state, networkOp maps k step ≠ .enter key state true) :
    (exec maps k step).networkEnterState.lookup key = none :=
  (networkClient maps).lookup_step_of_none h ho

theorem networkEntry_of_enter (h : k.networkEnterState.lookup key = none)
    (ho : networkOp maps k step = .enter key state true) :
    (exec maps k step).networkEnterState.lookup key = some state :=
  (networkClient maps).lookup_step_of_enter h ho

theorem networkEntry_of_stored (h : k.networkEnterState.lookup key = some state)
    (ho : ¬ (networkOp maps k step).removesKey key) :
    (exec maps k step).networkEnterState.lookup key = some state :=
  (networkClient maps).lookup_step_of_stored h ho

theorem networkEntry_of_removes (ho : (networkOp maps k step).removesKey key) :
    (exec maps k step).networkEnterState.lookup key = none :=
  (networkClient maps).lookup_step_of_removes ho

end Lookup

end Clients

end ETraceGen.Bpf
