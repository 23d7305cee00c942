import Mathlib.Data.List.AList

/-!
# The event schema

The records the kernel handlers put on the ring buffer and the user-space consumers read back
(`include/event_schema.h`), field by field. Fixed-width integers keep the widths of the header and
fixed-size C arrays are vectors; the enumerators are inductive types whose `code` is the wire value,
since the records store the value and not the enumerator.
-/

namespace ETraceGen

/-- A C string value or the contents of a file, as bytes. -/
abbrev Bytes := List UInt8

/-- `char[n]` or `uint8_t[n]`. -/
abbrev CharBuf (n : Nat) := Vector UInt8 n

/-- The bytes of a buffer up to its first NUL: what reading it as a C string sees. -/
def CharBuf.cstr {n : Nat} (buf : CharBuf n) : Bytes := buf.toList.takeWhile (· != 0)

def commLen : Nat := 16
def pathLen : Nat := 256
def unixPathLen : Nat := 108

/-! ## Enumerations -/

inductive EventType where
  | process | file | syscall | network
  deriving DecidableEq, Repr

def EventType.code : EventType → UInt32
  | .process => 1
  | .file => 2
  | .syscall => 3
  | .network => 4

inductive ProcessEventKind where
  | exec | fork | exit | clone | clone3 | vfork
  deriving DecidableEq, Repr

def ProcessEventKind.code : ProcessEventKind → UInt32
  | .exec => 1
  | .fork => 2
  | .exit => 3
  | .clone => 4
  | .clone3 => 5
  | .vfork => 6

inductive FileEventKind where
  | openat | unlinkat | renameat2
  deriving DecidableEq, Repr

def FileEventKind.code : FileEventKind → UInt32
  | .openat => 1
  | .unlinkat => 2
  | .renameat2 => 3

inductive NetworkEventKind where
  | socket | connect | accept | bind | listen | close | sendto | recvfrom | shutdown | socketpair
  | accept4 | getsockname | getpeername | setsockopt | getsockopt | sendmsg | recvmsg | read | write
  | readv | writev | sendmmsg | recvmmsg
  deriving DecidableEq, Repr

def NetworkEventKind.code : NetworkEventKind → UInt32
  | .socket => 1
  | .connect => 2
  | .accept => 3
  | .bind => 4
  | .listen => 5
  | .close => 6
  | .sendto => 7
  | .recvfrom => 8
  | .shutdown => 9
  | .socketpair => 10
  | .accept4 => 11
  | .getsockname => 12
  | .getpeername => 13
  | .setsockopt => 14
  | .getsockopt => 15
  | .sendmsg => 16
  | .recvmsg => 17
  | .read => 18
  | .write => 19
  | .readv => 20
  | .writev => 21
  | .sendmmsg => 22
  | .recvmmsg => 23

inductive NetworkEventDirection where
  | unknown | inbound | outbound
  deriving DecidableEq, Repr

def NetworkEventDirection.code : NetworkEventDirection → UInt32
  | .unknown => 0
  | .inbound => 1
  | .outbound => 2

inductive NetworkTransport where
  | unknown | tcp | udp | unix | raw
  deriving DecidableEq, Repr

def NetworkTransport.code : NetworkTransport → UInt32
  | .unknown => 0
  | .tcp => 1
  | .udp => 2
  | .unix => 3
  | .raw => 4

/-! ## Records -/

/-- The envelope every record begins with. -/
structure EventHeader where
  tsNs : UInt64
  type : UInt32
  size : UInt32
  pid : UInt32
  tgid : UInt32
  ppid : UInt32
  uid : UInt32
  gid : UInt32
  comm : CharBuf commLen
  deriving DecidableEq, Inhabited

structure ProcessEvent where
  hdr : EventHeader
  kind : UInt32
  exitCode : UInt32
  childPid : UInt32
  filename : CharBuf pathLen
  execPath : CharBuf pathLen
  cmdline : CharBuf pathLen
  cwd : CharBuf pathLen
  parentComm : CharBuf commLen
  startTimeTicks : UInt64
  deriving DecidableEq, Inhabited

/-- `mode` is reused for the `newdfd` argument of `renameat2`. -/
structure FileEvent where
  hdr : EventHeader
  kind : UInt32
  dfd : Int32
  flags : Int32
  mode : Int32
  ret : Int32
  pathA : CharBuf pathLen
  pathB : CharBuf pathLen
  deriving DecidableEq, Inhabited

structure SyscallEvent where
  hdr : EventHeader
  isEnter : UInt32
  syscallNr : Int32
  arg0 : Int64
  arg1 : Int64
  arg2 : Int64
  ret : Int64
  deriving DecidableEq, Inhabited

/-- A socket endpoint: `addr` for IPv4 and IPv6, `path` for UNIX sockets. -/
structure NetworkEndpoint where
  family : UInt32
  port : UInt32
  addrLen : UInt32
  addr : CharBuf 16
  path : CharBuf unixPathLen
  deriving DecidableEq, Inhabited

structure NetworkEvent where
  hdr : EventHeader
  kind : UInt32
  fd : Int32
  peerFd : Int32
  ret : Int32
  domain : Int32
  sockType : Int32
  protocol : Int32
  flags : Int32
  backlog : Int32
  how : Int32
  optLevel : Int32
  optName : Int32
  optLen : Int32
  optvalPrefix : CharBuf 16
  flowId : UInt64
  socketId : UInt64
  direction : UInt32
  transport : UInt32
  bytesRequested : UInt64
  bytesTransferred : UInt64
  bytesCaptured : UInt32
  bytesTruncated : UInt32
  localEp : NetworkEndpoint
  remoteEp : NetworkEndpoint
  deriving DecidableEq, Inhabited

/-- `std::variant<process_event, file_event, syscall_event, network_event>`, and the records on
the ring buffer. -/
inductive EventVariant where
  | process (ev : ProcessEvent)
  | file (ev : FileEvent)
  | syscall (ev : SyscallEvent)
  | network (ev : NetworkEvent)
  deriving DecidableEq

def EventVariant.type : EventVariant → EventType
  | .process _ => .process
  | .file _ => .file
  | .syscall _ => .syscall
  | .network _ => .network

def EventVariant.hdr : EventVariant → EventHeader
  | .process ev => ev.hdr
  | .file ev => ev.hdr
  | .syscall ev => ev.hdr
  | .network ev => ev.hdr

/-! ## Structure sizes

`sizeof` of each record under the 64-bit ABI the producer and the consumers share: the tail of a
structure is padded to its alignment (8). -/

def sizeofEventHeader : UInt32 := 56
def sizeofProcessEvent : UInt32 := 1120
def sizeofFileEvent : UInt32 := 592
def sizeofSyscallEvent : UInt32 := 96
def sizeofNetworkEvent : UInt32 := 448

/-- `sizeof` the structure of a family. -/
def EventType.size : EventType → UInt32
  | .process => sizeofProcessEvent
  | .file => sizeofFileEvent
  | .syscall => sizeofSyscallEvent
  | .network => sizeofNetworkEvent

/-- The header names the record's own family and size. -/
def EventVariant.SelfNamed (ev : EventVariant) : Prop :=
  ev.hdr.type = ev.type.code ∧ ev.hdr.size = ev.type.size

end ETraceGen
