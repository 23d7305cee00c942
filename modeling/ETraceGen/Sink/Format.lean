import ETraceGen.Model
import ETraceGen.Lib.Text
import Mathlib.Data.List.TakeWhile

/-!
# The JSON line of an event

The serializer of `sinks/json_sink.cpp`, text by text. Each writer is the bytes
it adds to its stream, piece by piece as they are written; `operator<<` writes an integer as `dec` and `decInt` do.
-/

namespace ETraceGen

/-! ## Labels -/

def EventType.label : EventType → String
  | .process => "process"
  | .file => "file"
  | .syscall => "syscall"
  | .network => "network"

def NetworkEventKind.label : NetworkEventKind → String
  | .socket => "socket"
  | .connect => "connect"
  | .accept => "accept"
  | .bind => "bind"
  | .listen => "listen"
  | .close => "close"
  | .sendto => "sendto"
  | .recvfrom => "recvfrom"
  | .shutdown => "shutdown"
  | .socketpair => "socketpair"
  | .accept4 => "accept4"
  | .getsockname => "getsockname"
  | .getpeername => "getpeername"
  | .setsockopt => "setsockopt"
  | .getsockopt => "getsockopt"
  | .sendmsg => "sendmsg"
  | .recvmsg => "recvmsg"
  | .read => "read"
  | .write => "write"
  | .readv => "readv"
  | .writev => "writev"
  | .sendmmsg => "sendmmsg"
  | .recvmmsg => "recvmmsg"

def NetworkEventDirection.label : NetworkEventDirection → String
  | .inbound => "inbound"
  | .outbound => "outbound"
  | .unknown => "unknown"

def NetworkTransport.label : NetworkTransport → String
  | .tcp => "tcp"
  | .udp => "udp"
  | .unix => "unix"
  | .raw => "raw"
  | .unknown => "unknown"

namespace JsonSink

/-- A switch over enumerators: the label of the one whose value a record holds. -/
def labelOf {α : Type} (all : List α) (code : α → UInt32) (label : α → String) (value : UInt32) : String :=
  match all.find? fun a => code a == value with
  | some a => label a
  | none => "unknown"

/-- What holds of every label holds of the one that is written. -/
theorem labelOf_cases {α : Type} {all : List α} {code : α → UInt32} {label : α → String}
    {P : String → Prop} (h : ∀ a ∈ all, P (label a)) (hunknown : P "unknown") (value : UInt32) :
    P (labelOf all code label value) := by
  unfold labelOf
  split
  · next a ha => exact h a (List.mem_of_find?_eq_some ha)
  · exact hunknown

def eventTypeToString : UInt32 → String :=
  labelOf [.process, .file, .syscall, .network] EventType.code EventType.label

def networkEventKindToString : UInt32 → String :=
  labelOf [.socket, .connect, .accept, .bind, .listen, .close, .sendto, .recvfrom, .shutdown, .socketpair,
    .accept4, .getsockname, .getpeername, .setsockopt, .getsockopt, .sendmsg, .recvmsg, .read, .write,
    .readv, .writev, .sendmmsg, .recvmmsg] NetworkEventKind.code NetworkEventKind.label

def networkDirectionToString : UInt32 → String :=
  labelOf [.inbound, .outbound] NetworkEventDirection.code NetworkEventDirection.label

def networkTransportToString : UInt32 → String :=
  labelOf [.tcp, .udp, .unix, .raw] NetworkTransport.code NetworkTransport.label

/-! ## Escapes -/

/-- `kHex`, the lowercase digit of a value below 16. -/
def hexDigit (n : UInt8) : UInt8 := if n < 10 then 0x30 + n else 0x57 + n

/-- The switch of both `JsonEscape` overloads. -/
def escapeByte (c : UInt8) : Bytes :=
  if c = 0x22 then str "\\\""
  else if c = 0x5C then str "\\\\"
  else if c = 0x08 then str "\\b"
  else if c = 0x0C then str "\\f"
  else if c = 0x0A then str "\\n"
  else if c = 0x0D then str "\\r"
  else if c = 0x09 then str "\\t"
  else if c < 0x20 then str "\\u00" ++ [hexDigit (c >>> 4), hexDigit (c &&& 0x0F)]
  else [c]

/-- `JsonEscape(const char*)`, on what memory holds from the pointer on. The loop ends at the first NUL; one is
behind the bytes that are given. -/
def jsonEscapeC : Bytes → Bytes
  | [] => []
  | c :: s => if c = 0 then [] else escapeByte c ++ jsonEscapeC s

/-- `JsonEscape(const std::string&)`. -/
def jsonEscape : Bytes → Bytes
  | [] => []
  | c :: s => escapeByte c ++ jsonEscape s

def bytesToHex (bytes : Bytes) (size : Nat) : Bytes :=
  (bytes.take size).flatMap fun b : UInt8 => [hexDigit (b >>> 4 &&& 0x0F), hexDigit (b &&& 0x0F)]

/-- The C string overload stops at the first NUL. -/
theorem jsonEscapeC_eq (s : Bytes) : jsonEscapeC s = jsonEscape (s.takeWhile (· != 0)) := by
  induction s with
  | nil => rfl
  | cons c s ih =>
    rw [jsonEscapeC, List.takeWhile_cons]
    by_cases hc : c = 0
    · subst hc
      rfl
    · rw [if_neg hc, if_pos (bne_iff_ne.mpr hc), jsonEscape, ih]

/-- The two overloads agree on a string without a NUL, whatever is behind the NUL that ends it. -/
theorem jsonEscapeC_eq_jsonEscape {s : Bytes} (h : 0 ∉ s) (behind : Bytes) :
    jsonEscapeC (s ++ 0 :: behind) = jsonEscape s := by
  have hall : ∀ b ∈ s, (b != 0) = true := fun b hb => bne_iff_ne.mpr fun h0 => h (h0 ▸ hb)
  rw [jsonEscapeC_eq, List.takeWhile_append_of_pos hall, List.takeWhile_cons_of_neg (by decide), List.append_nil]

/-- Every byte of the text is the digit of a value below 16. -/
theorem bytesToHex_cases {P : UInt8 → Prop} (h : ∀ k < 16, P (hexDigit (UInt8.ofNat k))) (bytes : Bytes)
    (size : Nat) : ∀ c ∈ bytesToHex bytes size, P c := by
  have hdigit : ∀ b : UInt8, P (hexDigit (b &&& 0x0F)) := by
    intro b
    have hlt : (b &&& 0x0F).toNat < 16 := by
      rw [UInt8.toNat_and]
      exact Nat.lt_succ_of_le Nat.and_le_right
    have hb := h _ hlt
    rwa [UInt8.ofNat_toNat] at hb
  intro c hc
  obtain ⟨b, -, hb⟩ := List.mem_flatMap.mp hc
  rcases List.mem_pair.mp hb with rfl | rfl
  · exact hdigit _
  · exact hdigit _

/-- Nothing behind a NUL is read. -/
theorem jsonEscapeC_append {s : Bytes} (h : 0 ∈ s) (behind : Bytes) : jsonEscapeC (s ++ behind) = jsonEscapeC s := by
  induction s with
  | nil => cases h
  | cons c s ih =>
    rw [List.cons_append, jsonEscapeC, jsonEscapeC]
    by_cases hc : c = 0
    · rw [if_pos hc, if_pos hc]
    · rw [if_neg hc, if_neg hc, ih ((List.mem_cons.mp h).resolve_left (Ne.symm hc))]

/-- What memory holds behind the arrays of a record that `JsonEscape(const char*)` is given, up to a NUL. The loop reads
on into it behind an array without one. -/
structure Behind where
  comm : Bytes := []
  pathA : Bytes := []
  pathB : Bytes := []
  localPath : Bytes := []
  remotePath : Bytes := []

/-- These arrays. -/
def cStrings (event : EventVariant) : List Bytes :=
  event.hdr.comm.toList ::
    match event with
    | .process _ => []
    | .file ev => [ev.pathA.toList, ev.pathB.toList]
    | .syscall _ => []
    | .network ev => [ev.localEp.path.toList, ev.remoteEp.path.toList]

/-- Each text ends inside its array. -/
def Terminated (event : EventVariant) : Prop := ∀ s ∈ cStrings event, 0 ∈ s

instance (event : EventVariant) : Decidable (Terminated event) :=
  List.decidableBAll (fun s => 0 ∈ s) (cStrings event)

/-! ## Writers -/

/-- `"name":` -/
def key (name : String) : Bytes := .flatten [str "\"", str name, str "\":"]

/-- `"text"` -/
def quoted (text : Bytes) : Bytes := .flatten [str "\"", text, str "\""]

def writeHeader (h : EventHeader) (behind : Behind := {}) : Bytes :=
  .flatten [
    key "ts_ns", dec h.tsNs.toNat, str ",",
    key "type", quoted (str (eventTypeToString h.type)), str ",",
    key "pid", dec h.pid.toNat, str ",",
    key "tgid", dec h.tgid.toNat, str ",",
    key "ppid", dec h.ppid.toNat, str ",",
    key "uid", dec h.uid.toNat, str ",",
    key "gid", dec h.gid.toNat, str ",",
    key "comm", quoted (jsonEscapeC (h.comm.toList ++ behind.comm))]

/-- A text of the resolved entity, empty if there is none. -/
def entityText (pe : Option ProcessEntity) (text : ProcessEntity → Bytes) : Bytes := (pe.map text).getD []

def startTimeTicks (pe : Option ProcessEntity) : UInt64 := (pe.map ProcessEntity.startTimeTicks).getD 0

def processInfoBody (h : EventHeader) (pe : Option ProcessEntity) (behind : Behind := {}) : Bytes :=
  .flatten [
    key "pid", dec h.pid.toNat, str ",",
    key "tgid", dec h.tgid.toNat, str ",",
    key "ppid", dec h.ppid.toNat, str ",",
    key "uid", dec h.uid.toNat, str ",",
    key "gid", dec h.gid.toNat, str ",",
    key "comm", quoted (jsonEscapeC (h.comm.toList ++ behind.comm)), str ",",
    key "exec_path", quoted (jsonEscape (entityText pe ProcessEntity.execPath)), str ",",
    key "cmdline", quoted (jsonEscape (entityText pe ProcessEntity.cmdline)), str ",",
    key "cwd", quoted (jsonEscape (entityText pe ProcessEntity.cwd)), str ",",
    key "parent_comm", quoted (jsonEscape (entityText pe ProcessEntity.parentComm)), str ",",
    key "start_time_ticks", dec (startTimeTicks pe).toNat]

def writeProcessInfo (h : EventHeader) (pe : Option ProcessEntity) (behind : Behind := {}) : Bytes :=
  .flatten [str ",", key "process_info", str "\x7b", processInfoBody h pe behind, str "\x7d"]

def writeNetworkEndpoint (label : String) (ep : NetworkEndpoint) (behind : Bytes := []) : Bytes :=
  .flatten [
    str ",", key (label ++ "_family"), dec ep.family.toNat,
    str ",", key (label ++ "_port"), dec ep.port.toNat,
    str ",", key (label ++ "_addr_len"), dec ep.addrLen.toNat,
    str ",", key (label ++ "_addr"), quoted (bytesToHex ep.addr.toList (min ep.addrLen.toNat 16)),
    str ",", key (label ++ "_path"), quoted (jsonEscapeC (ep.path.toList ++ behind))]

def writeProcessEvent (ev : ProcessEvent) (pe : Option ProcessEntity) : Bytes :=
  .flatten [
    str ",", key "kind", dec ev.kind.toNat,
    str ",", key "exit_code", dec ev.exitCode.toNat,
    str ",", key "child_pid", dec ev.childPid.toNat,
    str ",", key "filename", quoted (jsonEscape (entityText pe ProcessEntity.execPath)),
    str ",", key "exec_path", quoted (jsonEscape (entityText pe ProcessEntity.execPath)),
    str ",", key "cmdline", quoted (jsonEscape (entityText pe ProcessEntity.cmdline)),
    str ",", key "cwd", quoted (jsonEscape (entityText pe ProcessEntity.cwd)),
    str ",", key "parent_comm", quoted (jsonEscape (entityText pe ProcessEntity.parentComm)),
    str ",", key "start_time_ticks", dec (startTimeTicks pe).toNat]

def writeFileEvent (ev : FileEvent) (behind : Behind := {}) : Bytes :=
  .flatten [
    str ",", key "kind", dec ev.kind.toNat,
    str ",", key "ret", decInt ev.ret.toInt,
    str ",", key "path_a", quoted (jsonEscapeC (ev.pathA.toList ++ behind.pathA)),
    str ",", key "path_b", quoted (jsonEscapeC (ev.pathB.toList ++ behind.pathB))]

def writeSyscallEvent (ev : SyscallEvent) : Bytes :=
  .flatten [
    str ",", key "is_enter", dec ev.isEnter.toNat,
    str ",", key "syscall_nr", decInt ev.syscallNr.toInt,
    str ",", key "ret", decInt ev.ret.toInt]

def writeNetworkEvent (ev : NetworkEvent) (behind : Behind := {}) : Bytes :=
  .flatten [
    str ",", key "event_name", quoted (str (networkEventKindToString ev.kind)),
    str ",", key "kind", dec ev.kind.toNat,
    str ",", key "fd", decInt ev.fd.toInt,
    str ",", key "peer_fd", decInt ev.peerFd.toInt,
    str ",", key "ret", decInt ev.ret.toInt,
    str ",", key "domain", decInt ev.domain.toInt,
    str ",", key "sock_type", decInt ev.sockType.toInt,
    str ",", key "protocol", decInt ev.protocol.toInt,
    str ",", key "flags", decInt ev.flags.toInt,
    str ",", key "backlog", decInt ev.backlog.toInt,
    str ",", key "how", decInt ev.how.toInt,
    str ",", key "opt_level", decInt ev.optLevel.toInt,
    str ",", key "opt_name", decInt ev.optName.toInt,
    str ",", key "opt_len", decInt ev.optLen.toInt,
    str ",", key "optval_prefix", quoted (jsonEscape ev.optvalPrefix.toList),
    str ",", key "flow_id", dec ev.flowId.toNat,
    str ",", key "socket_id", dec ev.socketId.toNat,
    str ",", key "direction", quoted (str (networkDirectionToString ev.direction)),
    str ",", key "transport", quoted (str (networkTransportToString ev.transport)),
    str ",", key "bytes_requested", dec ev.bytesRequested.toNat,
    str ",", key "bytes_transferred", dec ev.bytesTransferred.toNat,
    str ",", key "bytes_captured", dec ev.bytesCaptured.toNat,
    str ",", key "bytes_truncated", dec ev.bytesTruncated.toNat,
    writeNetworkEndpoint "local" ev.localEp behind.localPath,
    writeNetworkEndpoint "remote" ev.remoteEp behind.remotePath]

/-- The part of a family. -/
def writeVariant (pe : Option ProcessEntity) (event : EventVariant) (behind : Behind := {}) : Bytes :=
  match event with
  | .process ev => writeProcessEvent ev pe
  | .file ev => writeFileEvent ev behind
  | .syscall ev => writeSyscallEvent ev
  | .network ev => writeNetworkEvent ev behind

/-- The id of the entity acted on, if it is resolved. -/
def writeObject (id : Nat) : Bytes :=
  if id ≠ 0 then .flatten [str ",", key "object_entity_id", dec id] else []

/-- `event` is what `canonical.raw` points at. -/
def writeEventBody (canonical : CanonicalEvent) (event : EventVariant) (behind : Behind := {}) : Bytes :=
  .flatten [
    writeHeader event.hdr behind,
    writeProcessInfo event.hdr canonical.subjectProcess behind,
    str ",", key "entity_id", dec canonical.subject.id,
    writeObject canonical.objectRef.id,
    writeVariant canonical.subjectProcess event behind]

/-- The line `Write` makes of an event with a raw record. -/
def serialized (canonical : CanonicalEvent) (event : EventVariant) (behind : Behind := {}) : Bytes :=
  .flatten [str "\x7b", writeEventBody canonical event behind, str "\x7d\n"]

/-- Nothing behind the arrays matters if the texts end inside them. -/
theorem serialized_behind (canonical : CanonicalEvent) {event : EventVariant} (h : Terminated event)
    (behind : Behind) : serialized canonical event behind = serialized canonical event := by
  obtain ⟨hcomm, hrest⟩ := List.forall_mem_cons.mp h
  have hvariant : writeVariant canonical.subjectProcess event behind = writeVariant canonical.subjectProcess event := by
    cases event with
    | process ev => rfl
    | file ev =>
      have hA : 0 ∈ ev.pathA.toList := hrest _ List.mem_cons_self
      have hB : 0 ∈ ev.pathB.toList := hrest _ (List.mem_cons_of_mem _ List.mem_cons_self)
      simp only [writeVariant, writeFileEvent, jsonEscapeC_append hA, jsonEscapeC_append hB]
    | syscall ev => rfl
    | network ev =>
      have hlocal : 0 ∈ ev.localEp.path.toList := hrest _ List.mem_cons_self
      have hremote : 0 ∈ ev.remoteEp.path.toList := hrest _ (List.mem_cons_of_mem _ List.mem_cons_self)
      simp only [writeVariant, writeNetworkEvent, writeNetworkEndpoint, jsonEscapeC_append hlocal,
        jsonEscapeC_append hremote]
  simp only [serialized, writeEventBody, writeHeader, writeProcessInfo, processInfoBody,
    jsonEscapeC_append hcomm, hvariant]

end JsonSink

end ETraceGen
