import ETraceGen.Model

/-!
# The normalizer

`Normalizer::Normalize` (`model/normalizer.cpp`): one canonical event for each raw record, with the
references left for the registry to resolve.
-/

namespace ETraceGen

namespace Normalizer

def makeActor (hdr : EventHeader) : ActorIdentity where
  pid := hdr.pid
  tgid := hdr.tgid
  ppid := hdr.ppid
  uid := hdr.uid
  gid := hdr.gid
  comm := hdr.comm.set (commLen - 1) 0

def processAction (kind : UInt32) : CanonicalAction :=
  if kind = ProcessEventKind.exec.code then .processExeced
  else if kind = ProcessEventKind.exit.code then .processExited
  else if kind ∈ [ProcessEventKind.fork, .clone, .clone3, .vfork].map ProcessEventKind.code then
    .processStarted
  else .unknown

def fileAction (kind : UInt32) : CanonicalAction :=
  if kind = FileEventKind.openat.code then .fileOpened
  else if kind = FileEventKind.unlinkat.code then .fileDeleted
  else if kind = FileEventKind.renameat2.code then .fileRenamed
  else .unknown

/-- `getsockname` and the other kinds without a lifecycle meaning stay unknown. -/
def networkAction (kind : UInt32) : CanonicalAction :=
  if kind ∈ [NetworkEventKind.socket, .socketpair].map NetworkEventKind.code then .socketCreated
  else if kind = NetworkEventKind.connect.code then .socketConnected
  else if kind ∈ [NetworkEventKind.accept, .accept4].map NetworkEventKind.code then .socketAccepted
  else if kind = NetworkEventKind.bind.code then .socketBound
  else if kind = NetworkEventKind.listen.code then .socketListened
  else if kind = NetworkEventKind.close.code then .socketClosed
  else if kind ∈ [NetworkEventKind.sendto, .sendmsg, .write, .writev, .sendmmsg].map
      NetworkEventKind.code then .socketSent
  else if kind ∈ [NetworkEventKind.recvfrom, .recvmsg, .read, .readv, .recvmmsg].map
      NetworkEventKind.code then .socketReceived
  else if kind = NetworkEventKind.shutdown.code then .socketShutdown
  else .unknown

/-- The fields every event has, before the family's own are filled. -/
def envelope (raw : EventVariant) : CanonicalEvent where
  raw := some raw
  tsNs := raw.hdr.tsNs
  actor := makeActor raw.hdr
  subject := { kind := .process }

def normalizeProcess (ev : ProcessEvent) (out : CanonicalEvent) : CanonicalEvent :=
  let out := { out with domain := .process, action := processAction ev.kind }
  let out := if ev.execPath[0] ≠ 0 then { out with execPathHint := ev.execPath.cstr } else out
  if out.action = .processStarted then
    { out with
      objectRef := { out.objectRef with kind := .process }
      object := { out.object with childPid := ev.childPid } }
  else if out.action = .processExited then { out with outcome := ev.exitCode.toUInt64.toInt64 }
  else out

def normalizeFile (ev : FileEvent) (out : CanonicalEvent) : CanonicalEvent :=
  { out with
    domain := .file
    action := fileAction ev.kind
    objectRef := { out.objectRef with kind := .file }
    object := { out.object with
      path := ev.pathA.cstr
      pathTo := if ev.kind = FileEventKind.renameat2.code then ev.pathB.cstr else out.object.pathTo }
    outcome := ev.ret.toInt64
    outcomeIsError := ev.ret < 0 }

def normalizeSyscall (ev : SyscallEvent) (out : CanonicalEvent) : CanonicalEvent :=
  { out with
    domain := .syscall
    action := .syscallInvoked
    outcome := ev.ret
    outcomeIsError := ev.ret < 0 }

def normalizeNetwork (ev : NetworkEvent) (out : CanonicalEvent) : CanonicalEvent :=
  { out with
    domain := .network
    action := networkAction ev.kind
    objectRef := { out.objectRef with kind := .socket }
    object := { out.object with fd := ev.fd, flowId := ev.flowId }
    outcome := ev.ret.toInt64
    outcomeIsError := ev.ret < 0 }

def normalize (raw : EventVariant) : CanonicalEvent :=
  match raw with
  | .process ev => normalizeProcess ev (envelope raw)
  | .file ev => normalizeFile ev (envelope raw)
  | .syscall ev => normalizeSyscall ev (envelope raw)
  | .network ev => normalizeNetwork ev (envelope raw)

/-! ## What the registry reads -/

theorem processAction_code (kind : ProcessEventKind) :
    processAction kind.code =
      match kind with
      | .exec => .processExeced
      | .exit => .processExited
      | .fork | .clone | .clone3 | .vfork => .processStarted := by
  cases kind <;> rfl

/-- The actor is the task of the record's header, whatever the record. -/
theorem normalize_actor (raw : EventVariant) : (normalize raw).actor = makeActor raw.hdr := by
  cases raw with
  | process ev =>
    unfold normalize normalizeProcess
    dsimp only
    split_ifs <;> rfl
  | file ev => rfl
  | syscall ev => rfl
  | network ev => rfl

theorem normalize_process_action (ev : ProcessEvent) :
    (normalize (.process ev)).action = processAction ev.kind := by
  unfold normalize normalizeProcess
  dsimp only
  split_ifs <;> rfl

theorem normalize_childPid {ev : ProcessEvent} (h : processAction ev.kind = .processStarted) :
    (normalize (.process ev)).object.childPid = ev.childPid := by
  unfold normalize normalizeProcess
  dsimp only
  split_ifs <;> rfl

/-- Only a process record starts or ends a task. -/
theorem fileAction_ne (kind : UInt32) :
    fileAction kind ≠ .processStarted ∧ fileAction kind ≠ .processExited := by
  unfold fileAction
  split_ifs <;> decide

theorem networkAction_ne (kind : UInt32) :
    networkAction kind ≠ .processStarted ∧ networkAction kind ≠ .processExited := by
  unfold networkAction
  split_ifs <;> decide

end Normalizer

end ETraceGen
