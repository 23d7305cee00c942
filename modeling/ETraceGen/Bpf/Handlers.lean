import ETraceGen.Bpf.Correlate

/-!
# The handlers

Every program of the BPF object. The handlers of one family differ in the probe they gate on and in
the fields they write, so each is its family's shape (`enterFile`, `exitNetwork`, ...) at its own
kind and its own field assignments. A `Hook` is a tracepoint hit with the arguments the tracepoint
carries, and `handle` the program attached to it.
-/

namespace ETraceGen.Bpf

/-- `ctx->args` of a `sys_enter` tracepoint. -/
abbrev SyscallArgs := Vector UInt64 6

namespace SyscallArgs

def of (a b c d e f : UInt64) : SyscallArgs := #v[a, b, c, d, e, f]

/-- The descriptor of the calls that are given one. -/
abbrev fd (args : SyscallArgs) : Int32 := s32 args[0]

/-- The family and the type of the sockets that `socket` and `socketpair` make. -/
abbrev domain (args : SyscallArgs) : Int32 := s32 args[0]
abbrev type (args : SyscallArgs) : Int32 := s32 args[1]

/-- Where `sendmmsg` and `recvmmsg` find their messages, and how many. -/
abbrev msgs (args : SyscallArgs) : UInt64 := args[1]
abbrev vlen (args : SyscallArgs) : UInt64 := args[2]

/-- Where `socketpair` leaves its two descriptors. -/
abbrev sv (args : SyscallArgs) : UInt64 := args[3]

/-- Where an address is to be returned, and where its length word is. -/
abbrev addr (args : SyscallArgs) : UInt64 := args[1]
abbrev addrLen (args : SyscallArgs) : UInt64 := args[2]

/-- The same of `recvfrom`, behind the buffer for the data. -/
abbrev srcAddr (args : SyscallArgs) : UInt64 := args[4]
abbrev srcLen (args : SyscallArgs) : UInt64 := args[5]

/-- The message header of `sendmsg` and `recvmsg`. -/
abbrev msg (args : SyscallArgs) : UInt64 := args[1]

/-- The vector of `readv` and `writev`, and how many entries it has. -/
abbrev iov (args : SyscallArgs) : UInt64 := args[1]
abbrev iovcnt (args : SyscallArgs) : UInt64 := args[2]

/-- The path of a call on a file, and the second one of `renameat2`. -/
abbrev path (args : SyscallArgs) : UInt64 := args[1]
abbrev newPath (args : SyscallArgs) : UInt64 := args[3]

/-- The length of the buffer of the calls that are given one. -/
abbrev len (args : SyscallArgs) : UInt64 := args[2]

end SyscallArgs

section
variable (maps : ProbeMaps) (env : HookEnv)

/-! ## Process -/

/-- A process handler: one record, written and submitted at once. -/
def emitProcess (kind : ProcessEventKind) (fill : ProcessEvent → ProcessEvent) (k : Kernel) :
    Kernel :=
  if !isEventAllowed maps env || !isProcessProbeEnabled maps kind then k
  else
    match reserveProcessEvent env kind k with
    | (k, none) => k
    | (k, some (slot, ev)) => k.submit slot (.process (fill ev))

/-- `filename` is what `bpf_probe_read_kernel_str` finds; a failed read leaves the path empty. -/
def onSchedExec (filename : Option Bytes) : Kernel → Kernel :=
  emitProcess maps env .exec fun ev =>
    match filename with
    | some path => { ev with execPath := overwriteStr ev.execPath path }
    | none => ev

def onSchedFork (childPid : UInt32) : Kernel → Kernel :=
  emitProcess maps env .fork fun ev => { ev with childPid := childPid }

def onSchedExit : Kernel → Kernel :=
  emitProcess maps env .exit fun ev => { ev with exitCode := env.exitCode }

/-- The child pid of a clone-family system call, from its return value. -/
def setChildPid (ret : Int64) (ev : ProcessEvent) : ProcessEvent :=
  if 0 < ret then { ev with childPid := ret.toUInt64.toUInt32 } else ev

def onSysExitClone (ret : Int64) : Kernel → Kernel := emitProcess maps env .clone (setChildPid ret)
def onSysExitClone3 (ret : Int64) : Kernel → Kernel := emitProcess maps env .clone3 (setChildPid ret)
def onSysExitVfork (ret : Int64) : Kernel → Kernel := emitProcess maps env .vfork (setChildPid ret)

/-! ## File -/

def enterFile (kind : FileEventKind) (fill : FileEvent → FileEvent) (k : Kernel) : Kernel :=
  if !isEventAllowed maps env || !isFileProbeEnabled maps kind then k
  else
    match reserveFileEvent env kind k with
    | (k, none) => k
    | (k, some (slot, ev)) => saveFileEnterState env kind slot (fill ev) k

def exitFile (kind : FileEventKind) (ret : Int64) (k : Kernel) : Kernel :=
  if !isEventAllowed maps env || !isFileProbeEnabled maps kind then k
  else emitFileExitEvent env kind ret k

def fillOpenat (args : SyscallArgs) (ev : FileEvent) : FileEvent :=
  { ev with
    dfd := s32 args[0]
    flags := s32 args[2]
    mode := s32 args[3]
    pathA := copyUserPath env.mem ev.pathA args[1] }

def fillUnlinkat (args : SyscallArgs) (ev : FileEvent) : FileEvent :=
  { ev with
    dfd := s32 args[0]
    flags := s32 args[2]
    pathA := copyUserPath env.mem ev.pathA args[1] }

def fillRenameat2 (args : SyscallArgs) (ev : FileEvent) : FileEvent :=
  { ev with
    dfd := s32 args[0]
    mode := s32 args[2]
    flags := s32 args[4]
    pathA := copyUserPath env.mem ev.pathA args[1]
    pathB := copyUserPath env.mem ev.pathB args[3] }

def onSysEnterOpenat (args : SyscallArgs) : Kernel → Kernel :=
  enterFile maps env .openat (fillOpenat env args)
def onSysEnterUnlinkat (args : SyscallArgs) : Kernel → Kernel :=
  enterFile maps env .unlinkat (fillUnlinkat env args)
def onSysEnterRenameat2 (args : SyscallArgs) : Kernel → Kernel :=
  enterFile maps env .renameat2 (fillRenameat2 env args)

def onSysExitOpenat (ret : Int64) : Kernel → Kernel := exitFile maps env .openat ret
def onSysExitUnlinkat (ret : Int64) : Kernel → Kernel := exitFile maps env .unlinkat ret
def onSysExitRenameat2 (ret : Int64) : Kernel → Kernel := exitFile maps env .renameat2 ret

/-! ## Raw system calls -/

def fillSyscall (nr : Int32) (args : SyscallArgs) (ev : SyscallEvent) : SyscallEvent :=
  { ev with
    isEnter := 1
    syscallNr := nr
    arg0 := args[0].toInt64
    arg1 := args[1].toInt64
    arg2 := args[2].toInt64 }

def onRawSysEnter (nr : Int32) (args : SyscallArgs) (k : Kernel) : Kernel :=
  if !isEventAllowed maps env || !isSyscallProbeEnabled maps then k
  else if !isSyscallAllowed nr then k
  else
    match reserveSyscallEvent env k with
    | (k, none) => k
    | (k, some (slot, ev)) => saveSyscallEnterState env nr slot (fillSyscall nr args ev) k

def onRawSysExit (nr : Int32) (ret : Int64) (k : Kernel) : Kernel :=
  if !isEventAllowed maps env || !isSyscallProbeEnabled maps then k
  else if !isSyscallAllowed nr then k
  else emitSyscallExitEvent env nr ret k

/-! ## Network -/

/-- `*ev` copied into the zeroed per-CPU scratch slot. -/
def stageScratch (ev : NetworkEvent) : NetworkStateValue where
  ev := ev
  sockaddrPtr := 0
  sockaddrLenPtr := 0
  sockaddrLen := 0
  peerFdPtr := 0
  optvalPtr := 0
  optlenPtr := 0
  mmsgPtr := 0
  mmsgCount := 0

/-- A network enter handler. `gateFd` is the descriptor of the handlers that only follow tracked
sockets. -/
def enterNetwork (kind : NetworkEventKind) (gateFd : Option Int32)
    (fill : NetworkStateValue → NetworkStateValue) (k : Kernel) : Kernel :=
  if !isEventAllowed maps env || !isNetworkProbeEnabled maps kind then k
  else if gateFd.any fun fd => !isSocketFd env fd k then k
  else
    match reserveNetworkEvent env kind k with
    | (k, none) => k
    | (k, some (slot, ev)) =>
      if env.scratchOk then saveNetworkEnterState env kind slot (fill (stageScratch ev)) k
      else k.discard slot

def exitNetwork (kind : NetworkEventKind) (ret : Int64) (k : Kernel) : Kernel :=
  if !isEventAllowed maps env || !isNetworkProbeEnabled maps kind then k
  else emitNetworkExitEvent env kind ret k

def inferNetworkTransport (domain type : Int32) : NetworkTransport :=
  if domain = 1 then .unix
  else if type = 1 then .tcp
  else if type = 2 then .udp
  else if type = 3 then .raw
  else .unknown

def inferNetworkDirection : NetworkEventKind → NetworkEventDirection
  | .connect | .sendto | .sendmsg | .write | .writev | .sendmmsg => .outbound
  | .accept | .accept4 | .recvfrom | .recvmsg | .read | .readv | .recvmmsg => .inbound
  | _ => .unknown

def fillSocket (args : SyscallArgs) (state : NetworkStateValue) : NetworkStateValue :=
  { state with
    ev := { state.ev with
      domain := s32 args[0]
      sockType := s32 args[1]
      protocol := s32 args[2]
      transport := (inferNetworkTransport (s32 args[0]) (s32 args[1])).code
      direction := (inferNetworkDirection .socket).code } }

def fillSocketpair (args : SyscallArgs) (state : NetworkStateValue) : NetworkStateValue :=
  { state with
    ev := { state.ev with
      domain := s32 args[0]
      sockType := s32 args[1]
      protocol := s32 args[2]
      transport := (inferNetworkTransport (s32 args[0]) (s32 args[1])).code
      direction := (inferNetworkDirection .socketpair).code }
    peerFdPtr := args[3] }

def fillConnect (args : SyscallArgs) (state : NetworkStateValue) : NetworkStateValue :=
  { state with
    ev := { state.ev with
      fd := s32 args[0]
      direction := (inferNetworkDirection .connect).code
      remoteEp := parseSockaddrUser env.mem args[1] args[2].toUInt32 state.ev.remoteEp } }

def fillBind (args : SyscallArgs) (state : NetworkStateValue) : NetworkStateValue :=
  { state with
    ev := { state.ev with
      fd := s32 args[0]
      direction := NetworkEventDirection.unknown.code
      localEp := parseSockaddrUser env.mem args[1] args[2].toUInt32 state.ev.localEp } }

def fillAccept (args : SyscallArgs) (state : NetworkStateValue) : NetworkStateValue :=
  { state with
    ev := { state.ev with
      fd := s32 args[0]
      direction := (inferNetworkDirection .accept).code }
    sockaddrPtr := args[1]
    sockaddrLenPtr := args[2] }

def fillAccept4 (args : SyscallArgs) (state : NetworkStateValue) : NetworkStateValue :=
  { state with
    ev := { state.ev with
      fd := s32 args[0]
      flags := s32 args[3]
      direction := (inferNetworkDirection .accept4).code }
    sockaddrPtr := args[1]
    sockaddrLenPtr := args[2] }

def fillListen (args : SyscallArgs) (state : NetworkStateValue) : NetworkStateValue :=
  { state with ev := { state.ev with fd := s32 args[0], backlog := s32 args[1] } }

/-- `getsockname` and `getpeername` keep the same pointers for their exits. -/
def fillName (args : SyscallArgs) (state : NetworkStateValue) : NetworkStateValue :=
  { state with
    ev := { state.ev with fd := s32 args[0] }
    sockaddrPtr := args[1]
    sockaddrLenPtr := args[2] }

def fillSetsockopt (args : SyscallArgs) (state : NetworkStateValue) : NetworkStateValue :=
  { state with
    ev := { state.ev with
      fd := s32 args[0]
      optLevel := s32 args[1]
      optName := s32 args[2]
      optLen := s32 args[4]
      optvalPrefix := copyOptvalPrefix env.mem state.ev.optvalPrefix args[3] args[4].toUInt32 }
    optvalPtr := args[3] }

def fillGetsockopt (args : SyscallArgs) (state : NetworkStateValue) : NetworkStateValue :=
  { state with
    ev := { state.ev with
      fd := s32 args[0]
      optLevel := s32 args[1]
      optName := s32 args[2]
      optLen :=
        if args[4] = 0 then state.ev.optLen else ((env.mem.readU32 args[4]).getD 0).toInt32 }
    optvalPtr := args[3]
    optlenPtr := args[4] }

def fillSendto (args : SyscallArgs) (state : NetworkStateValue) : NetworkStateValue :=
  { state with
    ev := { state.ev with
      fd := s32 args[0]
      flags := s32 args[3]
      direction := (inferNetworkDirection .sendto).code
      bytesRequested := args[2]
      remoteEp := parseSockaddrUser env.mem args[4] args[5].toUInt32 state.ev.remoteEp } }

/-- What `sendmsg` and `recvmsg` read of the message header at their enter. -/
def fillMsghdr (msg : UInt64) (ev : NetworkEvent) : NetworkEvent :=
  if msg = 0 then ev
  else
    match env.mem.read msg sizeofMsghdrMin with
    | none => ev
    | some bs =>
      let hdr := MsghdrMin.ofBytes bs
      let ev := { ev with bytesRequested := sumIovecLengths env.mem hdr.msgIov hdr.msgIovlen }
      if hdr.msgName ≠ 0 ∧ 0 < hdr.msgNamelen then
        { ev with remoteEp := parseSockaddrUser env.mem hdr.msgName hdr.msgNamelen ev.remoteEp }
      else ev

def fillMsg (kind : NetworkEventKind) (args : SyscallArgs) (state : NetworkStateValue) :
    NetworkStateValue :=
  { state with
    ev := fillMsghdr env args[1] { state.ev with
      fd := s32 args[0]
      flags := s32 args[2]
      direction := (inferNetworkDirection kind).code } }

def fillRecvfrom (args : SyscallArgs) (state : NetworkStateValue) : NetworkStateValue :=
  { state with
    ev := { state.ev with
      fd := s32 args[0]
      flags := s32 args[3]
      direction := (inferNetworkDirection .recvfrom).code
      bytesRequested := args[2] }
    sockaddrPtr := args[4]
    sockaddrLenPtr := args[5] }

def fillReadWrite (kind : NetworkEventKind) (args : SyscallArgs) (state : NetworkStateValue) :
    NetworkStateValue :=
  { state with
    ev := { state.ev with
      fd := s32 args[0]
      direction := (inferNetworkDirection kind).code
      bytesRequested := args[2] } }

def fillVector (kind : NetworkEventKind) (args : SyscallArgs) (state : NetworkStateValue) :
    NetworkStateValue :=
  { state with
    ev := { state.ev with
      fd := s32 args[0]
      direction := (inferNetworkDirection kind).code
      bytesRequested := sumIovecLengths env.mem args[1] args[2] } }

def fillMmsg (kind : NetworkEventKind) (args : SyscallArgs) (state : NetworkStateValue) :
    NetworkStateValue :=
  { state with
    ev := { state.ev with
      fd := s32 args[0]
      flags := s32 args[3]
      direction := (inferNetworkDirection kind).code
      bytesRequested := sumMmsghdrLengths env.mem args[1] args[2].toUInt32 }
    mmsgPtr := args[1]
    mmsgCount := args[2] }

def fillShutdown (args : SyscallArgs) (state : NetworkStateValue) : NetworkStateValue :=
  { state with ev := { state.ev with fd := s32 args[0], how := s32 args[1] } }

def fillClose (args : SyscallArgs) (state : NetworkStateValue) : NetworkStateValue :=
  { state with ev := { state.ev with fd := s32 args[0] } }

section Enter
variable (args : SyscallArgs)

def onSysEnterSocket : Kernel → Kernel := enterNetwork maps env .socket none (fillSocket args)
def onSysEnterSocketpair : Kernel → Kernel :=
  enterNetwork maps env .socketpair none (fillSocketpair args)
def onSysEnterConnect : Kernel → Kernel := enterNetwork maps env .connect none (fillConnect env args)
def onSysEnterBind : Kernel → Kernel := enterNetwork maps env .bind none (fillBind env args)
def onSysEnterAccept : Kernel → Kernel := enterNetwork maps env .accept none (fillAccept args)
def onSysEnterAccept4 : Kernel → Kernel := enterNetwork maps env .accept4 none (fillAccept4 args)
def onSysEnterListen : Kernel → Kernel := enterNetwork maps env .listen none (fillListen args)
def onSysEnterGetsockname : Kernel → Kernel :=
  enterNetwork maps env .getsockname none (fillName args)
def onSysEnterGetpeername : Kernel → Kernel :=
  enterNetwork maps env .getpeername none (fillName args)
def onSysEnterSetsockopt : Kernel → Kernel :=
  enterNetwork maps env .setsockopt none (fillSetsockopt env args)
def onSysEnterGetsockopt : Kernel → Kernel :=
  enterNetwork maps env .getsockopt none (fillGetsockopt env args)
def onSysEnterSendto : Kernel → Kernel := enterNetwork maps env .sendto none (fillSendto env args)
def onSysEnterSendmsg : Kernel → Kernel :=
  enterNetwork maps env .sendmsg none (fillMsg env .sendmsg args)
def onSysEnterRecvfrom : Kernel → Kernel :=
  enterNetwork maps env .recvfrom none (fillRecvfrom args)
def onSysEnterRecvmsg : Kernel → Kernel :=
  enterNetwork maps env .recvmsg none (fillMsg env .recvmsg args)
def onSysEnterRead : Kernel → Kernel :=
  enterNetwork maps env .read (some (s32 args[0])) (fillReadWrite .read args)
def onSysEnterWrite : Kernel → Kernel :=
  enterNetwork maps env .write (some (s32 args[0])) (fillReadWrite .write args)
def onSysEnterReadv : Kernel → Kernel :=
  enterNetwork maps env .readv (some (s32 args[0])) (fillVector env .readv args)
def onSysEnterWritev : Kernel → Kernel :=
  enterNetwork maps env .writev (some (s32 args[0])) (fillVector env .writev args)
def onSysEnterSendmmsg : Kernel → Kernel :=
  enterNetwork maps env .sendmmsg (some (s32 args[0])) (fillMmsg env .sendmmsg args)
def onSysEnterRecvmmsg : Kernel → Kernel :=
  enterNetwork maps env .recvmmsg (some (s32 args[0])) (fillMmsg env .recvmmsg args)
def onSysEnterShutdown : Kernel → Kernel := enterNetwork maps env .shutdown none (fillShutdown args)
def onSysEnterClose : Kernel → Kernel :=
  enterNetwork maps env .close (some (s32 args[0])) (fillClose args)

end Enter

/-! The exit handlers: none of them looks at the descriptor. -/

section Exit
variable (ret : Int64)

def onSysExitSocket : Kernel → Kernel := exitNetwork maps env .socket ret
def onSysExitSocketpair : Kernel → Kernel := exitNetwork maps env .socketpair ret
def onSysExitConnect : Kernel → Kernel := exitNetwork maps env .connect ret
def onSysExitBind : Kernel → Kernel := exitNetwork maps env .bind ret
def onSysExitAccept : Kernel → Kernel := exitNetwork maps env .accept ret
def onSysExitAccept4 : Kernel → Kernel := exitNetwork maps env .accept4 ret
def onSysExitListen : Kernel → Kernel := exitNetwork maps env .listen ret
def onSysExitGetsockname : Kernel → Kernel := exitNetwork maps env .getsockname ret
def onSysExitGetpeername : Kernel → Kernel := exitNetwork maps env .getpeername ret
def onSysExitSetsockopt : Kernel → Kernel := exitNetwork maps env .setsockopt ret
def onSysExitGetsockopt : Kernel → Kernel := exitNetwork maps env .getsockopt ret
def onSysExitSendto : Kernel → Kernel := exitNetwork maps env .sendto ret
def onSysExitSendmsg : Kernel → Kernel := exitNetwork maps env .sendmsg ret
def onSysExitRecvfrom : Kernel → Kernel := exitNetwork maps env .recvfrom ret
def onSysExitRecvmsg : Kernel → Kernel := exitNetwork maps env .recvmsg ret
def onSysExitRead : Kernel → Kernel := exitNetwork maps env .read ret
def onSysExitWrite : Kernel → Kernel := exitNetwork maps env .write ret
def onSysExitReadv : Kernel → Kernel := exitNetwork maps env .readv ret
def onSysExitWritev : Kernel → Kernel := exitNetwork maps env .writev ret
def onSysExitSendmmsg : Kernel → Kernel := exitNetwork maps env .sendmmsg ret
def onSysExitRecvmmsg : Kernel → Kernel := exitNetwork maps env .recvmmsg ret
def onSysExitShutdown : Kernel → Kernel := exitNetwork maps env .shutdown ret
def onSysExitClose : Kernel → Kernel := exitNetwork maps env .close ret

end Exit

end

/-! ## Tracepoints -/

/-- A tracepoint hit. -/
inductive Hook where
  | schedExec (filename : Option Bytes)
  | schedFork (childPid : UInt32)
  | schedExit
  | exitClone (ret : Int64)
  | exitClone3 (ret : Int64)
  | exitVfork (ret : Int64)
  | enterFile (kind : FileEventKind) (args : SyscallArgs)
  | exitFile (kind : FileEventKind) (ret : Int64)
  | rawEnter (nr : Int32) (args : SyscallArgs)
  | rawExit (nr : Int32) (ret : Int64)
  | enterNetwork (kind : NetworkEventKind) (args : SyscallArgs)
  | exitNetwork (kind : NetworkEventKind) (ret : Int64)

def handleEnterFile (maps : ProbeMaps) (env : HookEnv) (args : SyscallArgs) :
    FileEventKind → Kernel → Kernel
  | .openat => onSysEnterOpenat maps env args
  | .unlinkat => onSysEnterUnlinkat maps env args
  | .renameat2 => onSysEnterRenameat2 maps env args

def handleExitFile (maps : ProbeMaps) (env : HookEnv) (ret : Int64) :
    FileEventKind → Kernel → Kernel
  | .openat => onSysExitOpenat maps env ret
  | .unlinkat => onSysExitUnlinkat maps env ret
  | .renameat2 => onSysExitRenameat2 maps env ret

def handleEnterNetwork (maps : ProbeMaps) (env : HookEnv) (args : SyscallArgs) :
    NetworkEventKind → Kernel → Kernel
  | .socket => onSysEnterSocket maps env args
  | .socketpair => onSysEnterSocketpair maps env args
  | .connect => onSysEnterConnect maps env args
  | .bind => onSysEnterBind maps env args
  | .accept => onSysEnterAccept maps env args
  | .accept4 => onSysEnterAccept4 maps env args
  | .listen => onSysEnterListen maps env args
  | .getsockname => onSysEnterGetsockname maps env args
  | .getpeername => onSysEnterGetpeername maps env args
  | .setsockopt => onSysEnterSetsockopt maps env args
  | .getsockopt => onSysEnterGetsockopt maps env args
  | .sendto => onSysEnterSendto maps env args
  | .sendmsg => onSysEnterSendmsg maps env args
  | .recvfrom => onSysEnterRecvfrom maps env args
  | .recvmsg => onSysEnterRecvmsg maps env args
  | .read => onSysEnterRead maps env args
  | .write => onSysEnterWrite maps env args
  | .readv => onSysEnterReadv maps env args
  | .writev => onSysEnterWritev maps env args
  | .sendmmsg => onSysEnterSendmmsg maps env args
  | .recvmmsg => onSysEnterRecvmmsg maps env args
  | .shutdown => onSysEnterShutdown maps env args
  | .close => onSysEnterClose maps env args

def handleExitNetwork (maps : ProbeMaps) (env : HookEnv) (ret : Int64) :
    NetworkEventKind → Kernel → Kernel
  | .socket => onSysExitSocket maps env ret
  | .socketpair => onSysExitSocketpair maps env ret
  | .connect => onSysExitConnect maps env ret
  | .bind => onSysExitBind maps env ret
  | .accept => onSysExitAccept maps env ret
  | .accept4 => onSysExitAccept4 maps env ret
  | .listen => onSysExitListen maps env ret
  | .getsockname => onSysExitGetsockname maps env ret
  | .getpeername => onSysExitGetpeername maps env ret
  | .setsockopt => onSysExitSetsockopt maps env ret
  | .getsockopt => onSysExitGetsockopt maps env ret
  | .sendto => onSysExitSendto maps env ret
  | .sendmsg => onSysExitSendmsg maps env ret
  | .recvfrom => onSysExitRecvfrom maps env ret
  | .recvmsg => onSysExitRecvmsg maps env ret
  | .read => onSysExitRead maps env ret
  | .write => onSysExitWrite maps env ret
  | .readv => onSysExitReadv maps env ret
  | .writev => onSysExitWritev maps env ret
  | .sendmmsg => onSysExitSendmmsg maps env ret
  | .recvmmsg => onSysExitRecvmmsg maps env ret
  | .shutdown => onSysExitShutdown maps env ret
  | .close => onSysExitClose maps env ret

/-- The program attached to a tracepoint. -/
def handle (maps : ProbeMaps) (env : HookEnv) : Hook → Kernel → Kernel
  | .schedExec filename => onSchedExec maps env filename
  | .schedFork childPid => onSchedFork maps env childPid
  | .schedExit => onSchedExit maps env
  | .exitClone ret => onSysExitClone maps env ret
  | .exitClone3 ret => onSysExitClone3 maps env ret
  | .exitVfork ret => onSysExitVfork maps env ret
  | .enterFile kind args => handleEnterFile maps env args kind
  | .exitFile kind ret => handleExitFile maps env ret kind
  | .rawEnter nr args => onRawSysEnter maps env nr args
  | .rawExit nr ret => onRawSysExit maps env nr ret
  | .enterNetwork kind args => handleEnterNetwork maps env args kind
  | .exitNetwork kind ret => handleExitNetwork maps env ret kind

/-! ## The families seen whole -/

def fillFile (env : HookEnv) (args : SyscallArgs) : FileEventKind → FileEvent → FileEvent
  | .openat => fillOpenat env args
  | .unlinkat => fillUnlinkat env args
  | .renameat2 => fillRenameat2 env args

theorem handleEnterFile_eq (maps : ProbeMaps) (env : HookEnv) (args : SyscallArgs)
    (kind : FileEventKind) :
    handleEnterFile maps env args kind = enterFile maps env kind (fillFile env args kind) := by
  cases kind <;> rfl

theorem handleExitFile_eq (maps : ProbeMaps) (env : HookEnv) (ret : Int64) (kind : FileEventKind) :
    handleExitFile maps env ret kind = exitFile maps env kind ret := by
  cases kind <;> rfl

def fillNetwork (env : HookEnv) (args : SyscallArgs) :
    NetworkEventKind → NetworkStateValue → NetworkStateValue
  | .socket => fillSocket args
  | .socketpair => fillSocketpair args
  | .connect => fillConnect env args
  | .bind => fillBind env args
  | .accept => fillAccept args
  | .accept4 => fillAccept4 args
  | .listen => fillListen args
  | .getsockname | .getpeername => fillName args
  | .setsockopt => fillSetsockopt env args
  | .getsockopt => fillGetsockopt env args
  | .sendto => fillSendto env args
  | .sendmsg => fillMsg env .sendmsg args
  | .recvfrom => fillRecvfrom args
  | .recvmsg => fillMsg env .recvmsg args
  | .read => fillReadWrite .read args
  | .write => fillReadWrite .write args
  | .readv => fillVector env .readv args
  | .writev => fillVector env .writev args
  | .sendmmsg => fillMmsg env .sendmmsg args
  | .recvmmsg => fillMmsg env .recvmmsg args
  | .shutdown => fillShutdown args
  | .close => fillClose args

/-- The kinds whose enter handlers follow tracked sockets only. -/
def isGated : NetworkEventKind → Bool
  | .read | .write | .readv | .writev | .sendmmsg | .recvmmsg | .close => true
  | _ => false

def gateFd (args : SyscallArgs) (kind : NetworkEventKind) : Option Int32 :=
  if isGated kind then some (s32 args[0]) else none

theorem handleEnterNetwork_eq (maps : ProbeMaps) (env : HookEnv) (args : SyscallArgs)
    (kind : NetworkEventKind) :
    handleEnterNetwork maps env args kind =
      enterNetwork maps env kind (gateFd args kind) (fillNetwork env args kind) := by
  cases kind <;> rfl

theorem handleExitNetwork_eq (maps : ProbeMaps) (env : HookEnv) (ret : Int64)
    (kind : NetworkEventKind) : handleExitNetwork maps env ret kind = exitNetwork maps env kind ret := by
  cases kind <;> rfl

end ETraceGen.Bpf
