import ETraceGen.Schema

/-!
# The canonical model

The kernel-agnostic event the knowledge layers consume (`model/canonical_event.h`) and the process
entity the registry attaches to it (`registry/entity_registry.h`).
-/

namespace ETraceGen

/-- A task is known by its thread group, and by its own id where the thread group is 0. -/
def taskKey (tgid pid : UInt32) : UInt32 := if tgid ≠ 0 then tgid else pid

/-! ## Process entities -/

/-- Persistent state for a single observed process instance. The registry's ids are numbered from 1
by a 64-bit counter, and 0 stands for no entity; the counter never wraps (`EntityRegistry.nextId_le`),
so ids are naturals here. `observed_after_startup` is reserved, and nothing reads it. -/
structure ProcessEntity where
  id : Nat := 0
  pid : UInt32 := 0
  tgid : UInt32 := 0
  ppid : UInt32 := 0
  uid : UInt32 := 0
  gid : UInt32 := 0
  comm : Bytes := []
  execPath : Bytes := []
  cmdline : Bytes := []
  cwd : Bytes := []
  parentComm : Bytes := []
  startTimeTicks : UInt64 := 0
  parentId : Nat := 0
  firstSeenNs : UInt64 := 0
  lastSeenNs : UInt64 := 0
  exited : Bool := false
  exitNs : UInt64 := 0
  exitCode : Int64 := 0
  lastIdentityCheckNs : UInt64 := 0
  deriving DecidableEq

def ProcessEntity.key (e : ProcessEntity) : UInt32 := taskKey e.tgid e.pid

/-! ## Canonical events -/

inductive EntityKind where
  | unknown | process | file | socket
  deriving DecidableEq, Repr

structure EntityRef where
  kind : EntityKind := .unknown
  id : Nat := 0
  deriving DecidableEq

inductive CanonicalDomain where
  | process | file | syscall | network
  deriving DecidableEq, Repr

inductive CanonicalAction where
  | unknown
  | processStarted | processExeced | processExited
  | fileOpened | fileDeleted | fileRenamed
  | syscallInvoked
  | socketCreated | socketConnected | socketAccepted | socketBound | socketListened | socketClosed
  | socketSent | socketReceived | socketShutdown
  deriving DecidableEq, Repr

structure ActorIdentity where
  pid : UInt32 := 0
  tgid : UInt32 := 0
  ppid : UInt32 := 0
  uid : UInt32 := 0
  gid : UInt32 := 0
  comm : CharBuf commLen := Vector.replicate commLen 0
  deriving DecidableEq

def ActorIdentity.key (a : ActorIdentity) : UInt32 := taskKey a.tgid a.pid

structure ObjectDescriptor where
  path : Bytes := []
  pathTo : Bytes := []
  fd : Int32 := -1
  flowId : UInt64 := 0
  childPid : UInt32 := 0
  deriving DecidableEq

/-- `raw` and `subjectProcess` are the two non-owning pointers, with what they point at. -/
structure CanonicalEvent where
  tsNs : UInt64 := 0
  domain : CanonicalDomain := .process
  action : CanonicalAction := .unknown
  actor : ActorIdentity := {}
  object : ObjectDescriptor := {}
  subject : EntityRef := {}
  objectRef : EntityRef := {}
  outcome : Int64 := 0
  outcomeIsError : Bool := false
  execPathHint : Bytes := []
  raw : Option EventVariant := none
  subjectProcess : Option ProcessEntity := none
  deriving DecidableEq

end ETraceGen
