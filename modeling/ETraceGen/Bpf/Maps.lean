import ETraceGen.Lib.KeyedMap
import ETraceGen.Bpf.UserMemory

/-!
# The kernel side's state and surroundings

`Kernel` is everything a handler reads and writes: the enter-state maps, the socket descriptor map,
the statistics and the ring buffer. `ProbeMaps` are the toggles user space writes before it attaches
the programs. `HookEnv` is what one handler invocation finds around it: the current task, the clock,
the task's memory, and the outcome of every helper that can fail.
-/

namespace ETraceGen.Bpf

/-! ## Maps -/

inductive BpfStatKey where
  | ringbufReserveFail
  | fileStateSaveFail | fileStateCollision | fileStateMiss
  | syscallStateSaveFail | syscallStateCollision | syscallStateMiss
  | networkStateSaveFail | networkStateCollision | networkStateMiss
  deriving DecidableEq, Repr

structure FileStateKey where
  pidTgid : UInt64
  kind : FileEventKind
  deriving DecidableEq

structure SyscallStateKey where
  pidTgid : UInt64
  syscallNr : Int32
  deriving DecidableEq

structure NetworkStateKey where
  pidTgid : UInt64
  kind : NetworkEventKind
  deriving DecidableEq

/-- The network record under construction and the user pointers its exit reads again. -/
structure NetworkStateValue where
  ev : NetworkEvent
  sockaddrPtr : UInt64
  sockaddrLenPtr : UInt64
  sockaddrLen : UInt64
  peerFdPtr : UInt64
  optvalPtr : UInt64
  optlenPtr : UInt64
  mmsgPtr : UInt64
  mmsgCount : UInt64
  deriving DecidableEq

structure SocketFdKey where
  tgid : UInt32
  fd : UInt32
  deriving DecidableEq

structure SocketFdValue where
  isSocket : UInt8
  deriving DecidableEq

/-! ## The ring buffer -/

inductive RingOp where
  | reserve (slot : Nat)
  | submit (slot : Nat) (record : EventVariant)
  | discard (slot : Nat)

/-- The ring buffer: the slots handed out are numbered, and every operation on one is logged. -/
structure Ring where
  next : Nat := 0
  log : List RingOp := []

namespace Ring

def reserve (r : Ring) : Ring := { next := r.next + 1, log := r.log ++ [.reserve r.next] }

def submit (r : Ring) (slot : Nat) (record : EventVariant) : Ring :=
  { r with log := r.log ++ [.submit slot record] }

def discard (r : Ring) (slot : Nat) : Ring := { r with log := r.log ++ [.discard slot] }

def RingOp.record? : RingOp → Option EventVariant
  | .submit _ record => some record
  | _ => none

/-- The submitted records, in the order the consumer reads them. -/
def records (r : Ring) : List EventVariant := r.log.filterMap RingOp.record?

@[simp] theorem records_reserve (r : Ring) : r.reserve.records = r.records := by
  simp [records, reserve, RingOp.record?]

@[simp] theorem records_submit (r : Ring) (slot : Nat) (record : EventVariant) :
    (r.submit slot record).records = r.records ++ [record] := by
  simp [records, submit, RingOp.record?]

@[simp] theorem records_discard (r : Ring) (slot : Nat) : (r.discard slot).records = r.records := by
  simp [records, discard, RingOp.record?]

end Ring

/-! ## State -/

structure Kernel where
  fileEnterState : KeyedMap FileStateKey FileEvent := ∅
  syscallEnterState : KeyedMap SyscallStateKey SyscallEvent := ∅
  networkEnterState : KeyedMap NetworkStateKey NetworkStateValue := ∅
  socketFdState : KeyedMap SocketFdKey SocketFdValue := ∅
  bpfStats : BpfStatKey → Nat := fun _ => 0
  events : Ring := {}

namespace Kernel

def statInc (k : Kernel) (key : BpfStatKey) : Kernel :=
  { k with bpfStats := Function.update k.bpfStats key (k.bpfStats key + 1) }

def reserve (k : Kernel) : Kernel := { k with events := k.events.reserve }

def submit (k : Kernel) (slot : Nat) (record : EventVariant) : Kernel :=
  { k with events := k.events.submit slot record }

def discard (k : Kernel) (slot : Nat) : Kernel := { k with events := k.events.discard slot }

end Kernel

/-- The toggle maps, written by user space before the programs are attached. A lookup of a key that
an array map has no slot for finds nothing. -/
structure ProbeMaps where
  fileProbeEnabled : UInt32 → Option UInt8
  processProbeEnabled : UInt32 → Option UInt8
  syscallProbeEnabled : Option UInt8
  networkProbeEnabled : UInt32 → Option UInt8
  suppressTgid : Option UInt32

/-- What a freshly reserved slot of each record type holds before the handler writes it. -/
structure Leftover where
  process : ProcessEvent
  file : FileEvent
  syscall : SyscallEvent
  network : NetworkEvent
  deriving Inhabited

/-- One handler invocation's surroundings. A handler reserves at most once and updates an
enter-state map at most once; `addOk` and `addPeerOk` are its updates of `socket_fd_state`. -/
structure HookEnv where
  pidTgid : UInt64
  uidGid : UInt64
  ppid : UInt32
  comm : CharBuf commLen
  exitCode : UInt32
  ktimeFill : UInt64
  ktimeExit : UInt64
  mem : UserMem
  reserveOk : Bool
  leftover : Leftover
  scratchOk : Bool
  updateOk : Bool
  addOk : Bool
  addPeerOk : Bool

/-- `bpf_get_current_pid_tgid`: the thread group id is the high half. -/
def HookEnv.tgid (env : HookEnv) : UInt32 := (env.pidTgid >>> 32).toUInt32

def HookEnv.pid (env : HookEnv) : UInt32 := env.pidTgid.toUInt32

/-- The reservation and the updates of the enter-state maps succeed. -/
def HelpersOk (env : HookEnv) : Prop :=
  env.reserveOk = true ∧ env.updateOk = true ∧ env.scratchOk = true

/-- The surroundings in which every helper succeeds, for a task whose memory is unmapped. -/
def plainEnv (pidTgid : UInt64) : HookEnv where
  pidTgid := pidTgid
  uidGid := 0
  ppid := 1
  comm := default
  exitCode := 0
  ktimeFill := 0
  ktimeExit := 0
  mem := fun _ => none
  reserveOk := true
  leftover := default
  scratchOk := true
  updateOk := true
  addOk := true
  addPeerOk := true

/-- Thread 7 of process 7. -/
abbrev task7 : UInt64 := 0x700000007

abbrev env7 : HookEnv := plainEnv task7

/-- Every probe enabled, and no thread group suppressed. -/
def allProbes : ProbeMaps where
  fileProbeEnabled := fun _ => some 1
  processProbeEnabled := fun _ => some 1
  syscallProbeEnabled := some 1
  networkProbeEnabled := fun _ => some 1
  suppressTgid := none

/-! ## Gates -/

section Gates
variable (maps : ProbeMaps)

def isFileProbeEnabled (kind : FileEventKind) : Bool :=
  match maps.fileProbeEnabled kind.code with
  | none => true
  | some enabled => enabled != 0

def isProcessProbeEnabled (kind : ProcessEventKind) : Bool :=
  match maps.processProbeEnabled kind.code with
  | none => true
  | some enabled => enabled != 0

def isNetworkProbeEnabled (kind : NetworkEventKind) : Bool :=
  match maps.networkProbeEnabled kind.code with
  | none => false
  | some enabled => enabled != 0

def isSyscallProbeEnabled : Bool :=
  match maps.syscallProbeEnabled with
  | none => false
  | some enabled => enabled != 0

/-- The system call, port, pid and uid allowlists are not enforced. -/
def isSyscallAllowed (_nr : Int32) : Bool := true
def isNetworkPortAllowed (_srcPort _dstPort : UInt32) : Bool := true
def isCurrentPidAllowed : Bool := true
def isCurrentUidAllowed : Bool := true

def isNotSuppressedSelf (env : HookEnv) : Bool :=
  match maps.suppressTgid with
  | none => true
  | some suppressed => suppressed == 0 || env.tgid != suppressed

def isEventAllowed (env : HookEnv) : Bool :=
  isNotSuppressedSelf maps env && isCurrentPidAllowed && isCurrentUidAllowed

/-- A task is traced or it is not. -/
theorem isEventAllowed_congr {env env' : HookEnv} (h : env.pidTgid = env'.pidTgid) :
    isEventAllowed maps env = isEventAllowed maps env' := by
  unfold isEventAllowed isNotSuppressedSelf HookEnv.tgid
  rw [h]

end Gates

/-! ## Socket descriptors -/

def socketFdKey (env : HookEnv) (fd : Int32) : SocketFdKey := ⟨env.tgid, fd.toUInt32⟩

def addSocketFd (env : HookEnv) (ok : Bool) (fd : Int32) (k : Kernel) : Kernel :=
  if ok then { k with socketFdState := k.socketFdState.insert (socketFdKey env fd) ⟨1⟩ } else k

def deleteSocketFd (env : HookEnv) (fd : Int32) (k : Kernel) : Kernel :=
  { k with socketFdState := k.socketFdState.erase (socketFdKey env fd) }

def isSocketFd (env : HookEnv) (fd : Int32) (k : Kernel) : Bool :=
  match k.socketFdState.lookup (socketFdKey env fd) with
  | none => false
  | some value => value.isSocket == 1

end ETraceGen.Bpf
