import ETraceGen.Bpf.Maps

/-!
# Reserving, saving and emitting

The shared half of the handlers: the record allocators, the enter-side `save` functions that stash a
payload until its system call exits, and the exit-side `emit` functions that finish the stashed
payload into a record. Each `emit` is split in two, the record it makes (`finish...`) and what it
does to the maps and the ring buffer, so that the record can be spoken of on its own.
-/

namespace ETraceGen.Bpf

def fillHeader (env : HookEnv) (type : EventType) : EventHeader where
  tsNs := env.ktimeFill
  type := type.code
  size := 0
  pid := env.pid
  tgid := env.tgid
  uid := env.uidGid.toUInt32
  gid := (env.uidGid >>> 32).toUInt32
  ppid := env.ppid
  comm := env.comm

/-! ## Allocators

A fresh slot holds leftover bytes; every field below that is not a string is written. -/

def freshProcessEvent (env : HookEnv) (kind : ProcessEventKind) : ProcessEvent :=
  let ev := env.leftover.process
  { hdr := { fillHeader env .process with size := sizeofProcessEvent }
    kind := kind.code
    exitCode := 0
    childPid := 0
    filename := overwrite ev.filename [0]
    execPath := overwrite ev.execPath [0]
    cmdline := overwrite ev.cmdline [0]
    cwd := overwrite ev.cwd [0]
    parentComm := overwrite ev.parentComm [0]
    startTimeTicks := 0 }

def freshFileEvent (env : HookEnv) (kind : FileEventKind) : FileEvent :=
  let ev := env.leftover.file
  { hdr := { fillHeader env .file with size := sizeofFileEvent }
    kind := kind.code
    dfd := 0
    flags := 0
    mode := 0
    ret := 0
    pathA := overwrite ev.pathA [0]
    pathB := overwrite ev.pathB [0] }

def freshSyscallEvent (env : HookEnv) : SyscallEvent where
  hdr := { fillHeader env .syscall with size := sizeofSyscallEvent }
  isEnter := 0
  syscallNr := 0
  arg0 := 0
  arg1 := 0
  arg2 := 0
  ret := 0

def freshNetworkEvent (env : HookEnv) (kind : NetworkEventKind) : NetworkEvent :=
  let ev := env.leftover.network
  { hdr := { fillHeader env .network with size := sizeofNetworkEvent }
    kind := kind.code
    fd := 0
    peerFd := 0
    ret := 0
    domain := 0
    sockType := 0
    protocol := 0
    flags := 0
    backlog := 0
    how := 0
    optLevel := 0
    optName := 0
    optLen := 0
    optvalPrefix := Vector.replicate 16 0
    flowId := 0
    socketId := 0
    direction := NetworkEventDirection.unknown.code
    transport := NetworkTransport.unknown.code
    bytesRequested := 0
    bytesTransferred := 0
    bytesCaptured := 0
    bytesTruncated := 0
    localEp := resetNetworkEndpoint ev.localEp
    remoteEp := resetNetworkEndpoint ev.remoteEp }

/-- `bpf_ringbuf_reserve` with its failure counted: the slot, and the record written into it. -/
def reserveEvent {Ev : Type} (env : HookEnv) (fresh : Ev) (k : Kernel) : Kernel × Option (Nat × Ev) :=
  if env.reserveOk then (k.reserve, some (k.events.next, fresh))
  else (k.statInc .ringbufReserveFail, none)

def reserveProcessEvent (env : HookEnv) (kind : ProcessEventKind) (k : Kernel) :
    Kernel × Option (Nat × ProcessEvent) :=
  reserveEvent env (freshProcessEvent env kind) k

def reserveFileEvent (env : HookEnv) (kind : FileEventKind) (k : Kernel) :
    Kernel × Option (Nat × FileEvent) :=
  reserveEvent env (freshFileEvent env kind) k

def reserveSyscallEvent (env : HookEnv) (k : Kernel) : Kernel × Option (Nat × SyscallEvent) :=
  reserveEvent env (freshSyscallEvent env) k

def reserveNetworkEvent (env : HookEnv) (kind : NetworkEventKind) (k : Kernel) :
    Kernel × Option (Nat × NetworkEvent) :=
  reserveEvent env (freshNetworkEvent env kind) k

/-! ## Saving at enter -/

def makeFileKey (env : HookEnv) (kind : FileEventKind) : FileStateKey := ⟨env.pidTgid, kind⟩
def makeSyscallKey (env : HookEnv) (nr : Int32) : SyscallStateKey := ⟨env.pidTgid, nr⟩
def makeNetworkKey (env : HookEnv) (kind : NetworkEventKind) : NetworkStateKey := ⟨env.pidTgid, kind⟩

/-- A stored payload is never overwritten: the new one is dropped as a collision. -/
def saveFileEnterState (env : HookEnv) (kind : FileEventKind) (slot : Nat) (ev : FileEvent)
    (k : Kernel) : Kernel :=
  let key := makeFileKey env kind
  if (k.fileEnterState.lookup key).isSome then (k.statInc .fileStateCollision).discard slot
  else if env.updateOk then
    ({ k with fileEnterState := k.fileEnterState.insert key ev } : Kernel).discard slot
  else (k.statInc .fileStateSaveFail).discard slot

def saveSyscallEnterState (env : HookEnv) (nr : Int32) (slot : Nat) (ev : SyscallEvent)
    (k : Kernel) : Kernel :=
  let key := makeSyscallKey env nr
  if (k.syscallEnterState.lookup key).isSome then (k.statInc .syscallStateCollision).discard slot
  else if env.updateOk then
    ({ k with syscallEnterState := k.syscallEnterState.insert key ev } : Kernel).discard slot
  else (k.statInc .syscallStateSaveFail).discard slot

def saveNetworkEnterState (env : HookEnv) (kind : NetworkEventKind) (slot : Nat)
    (state : NetworkStateValue) (k : Kernel) : Kernel :=
  let key := makeNetworkKey env kind
  if (k.networkEnterState.lookup key).isSome then (k.statInc .networkStateCollision).discard slot
  else if env.updateOk then
    ({ k with networkEnterState := k.networkEnterState.insert key state } : Kernel).discard slot
  else (k.statInc .networkStateSaveFail).discard slot

/-! ## Emitting at exit: file and raw system calls -/

def finishFileEvent (env : HookEnv) (ret : Int64) (state : FileEvent) : FileEvent :=
  { state with hdr := { state.hdr with tsNs := env.ktimeExit }, ret := ret.toInt32 }

def emitFileExitEvent (env : HookEnv) (kind : FileEventKind) (ret : Int64) (k : Kernel) : Kernel :=
  let key := makeFileKey env kind
  match k.fileEnterState.lookup key with
  | none => k.statInc .fileStateMiss
  | some state =>
    match reserveFileEvent env kind k with
    | (k, none) => { k with fileEnterState := k.fileEnterState.erase key }
    | (k, some (slot, _)) =>
      let k := k.submit slot (.file (finishFileEvent env ret state))
      { k with fileEnterState := k.fileEnterState.erase key }

def finishSyscallEvent (env : HookEnv) (ret : Int64) (state : SyscallEvent) : SyscallEvent :=
  { state with hdr := { state.hdr with tsNs := env.ktimeExit }, isEnter := 0, ret := ret }

def emitSyscallExitEvent (env : HookEnv) (nr : Int32) (ret : Int64) (k : Kernel) : Kernel :=
  let key := makeSyscallKey env nr
  match k.syscallEnterState.lookup key with
  | none => k.statInc .syscallStateMiss
  | some state =>
    match reserveSyscallEvent env k with
    | (k, none) => { k with syscallEnterState := k.syscallEnterState.erase key }
    | (k, some (slot, _)) =>
      let k := k.submit slot (.syscall (finishSyscallEvent env ret state))
      { k with syscallEnterState := k.syscallEnterState.erase key }

/-! ## Emitting at exit: network -/

def hashFold64 (x : UInt64) : UInt64 :=
  let x := x ^^^ (x >>> 33)
  let x := x * 0xff51afd7ed558ccd
  let x := x ^^^ (x >>> 33)
  let x := x * 0xc4ceb9fe1a85ec53
  x ^^^ (x >>> 33)

/-- The first four address bytes as the little-endian word `__builtin_memcpy` makes of them. -/
def addrWord (endpoint : NetworkEndpoint) : UInt64 := (leU32 (endpoint.addr.toList.take 4)).toUInt64

/-- The identity `compute_network_flow_id` hashes. -/
def networkFlowIdentity (env : HookEnv) (ev : NetworkEvent) : UInt64 :=
  let id := env.pidTgid
  let id := id ^^^ (ev.kind.toUInt64 <<< 48)
  let id := id ^^^ (ev.fd.toUInt32.toUInt64 <<< 32)
  let id := id ^^^ (ev.peerFd.toUInt32.toUInt64 <<< 16)
  let id := id ^^^ ev.localEp.port.toUInt64
  let id := id ^^^ (ev.remoteEp.port.toUInt64 <<< 32)
  let id := if 4 ≤ ev.localEp.addrLen then id ^^^ addrWord ev.localEp else id
  if 4 ≤ ev.remoteEp.addrLen then id ^^^ (addrWord ev.remoteEp <<< 16) else id

def computeNetworkFlowId (env : HookEnv) (ev : NetworkEvent) : UInt64 :=
  hashFold64 (networkFlowIdentity env ev)

/-- The two descriptors `socketpair` has written for its caller. -/
def readFdPair (mem : UserMem) (ptr : UInt64) : Option (Int32 × Int32) :=
  (mem.read ptr 8).map fun bs => ((leU32 bs).toInt32, (leU32 (bs.drop 4)).toInt32)

/-- The length word an address was returned with; `0` if there is none to read. -/
def returnedLen (mem : UserMem) (lenPtr : UInt64) : UInt32 :=
  if lenPtr = 0 then 0 else (mem.readU32 lenPtr).getD 0

section Finish
variable (env : HookEnv) (kind : NetworkEventKind) (ret : Int64) (state : NetworkStateValue)

/-- The descriptors of a call that created some. -/
def finishFds (out : NetworkEvent) : NetworkEvent :=
  if 0 ≤ ret then
    match kind with
    | .socket => { out with fd := ret.toInt32 }
    | .socketpair =>
      if state.peerFdPtr = 0 then out
      else
        match readFdPair env.mem state.peerFdPtr with
        | some (fd, peerFd) => { out with fd := fd, peerFd := peerFd }
        | none => out
    | .accept | .accept4 => { out with peerFd := ret.toInt32 }
    | _ => out
  else out

def returnsRemoteAddress : NetworkEventKind → Bool
  | .accept | .accept4 | .recvfrom | .getpeername => true
  | _ => false

def finishRemote (out : NetworkEvent) : NetworkEvent :=
  if returnsRemoteAddress kind ∧ 0 ≤ ret ∧ state.sockaddrPtr ≠ 0 then
    { out with
      remoteEp :=
        parseSockaddrUser env.mem state.sockaddrPtr (returnedLen env.mem state.sockaddrLenPtr)
          out.remoteEp }
  else out

/-- The kinds whose return value is the number of bytes moved. -/
def returnsBytes : NetworkEventKind → Bool
  | .sendto | .recvfrom | .sendmsg | .recvmsg | .read | .write | .readv | .writev => true
  | _ => false

def returnsMessages : NetworkEventKind → Bool
  | .sendmmsg | .recvmmsg => true
  | _ => false

def finishBytes (out : NetworkEvent) : NetworkEvent :=
  let out := if returnsBytes kind ∧ 0 ≤ ret then { out with bytesTransferred := ret.toUInt64 } else out
  if returnsMessages kind ∧ 0 ≤ ret ∧ state.mmsgPtr ≠ 0 ∧ state.mmsgCount ≠ 0 then
    { out with
      bytesTransferred := sumMmsghdrTransfers env.mem state.mmsgPtr state.mmsgCount.toUInt32 }
  else out

def finishFlow (out : NetworkEvent) : NetworkEvent :=
  if out.flowId = 0 then { out with flowId := computeNetworkFlowId env out } else out

def finishLocal (out : NetworkEvent) : NetworkEvent :=
  if kind = .getsockname ∧ 0 ≤ ret ∧ state.sockaddrPtr ≠ 0 then
    { out with
      localEp :=
        parseSockaddrUser env.mem state.sockaddrPtr (returnedLen env.mem state.sockaddrLenPtr)
          out.localEp }
  else out

def finishOption (out : NetworkEvent) : NetworkEvent :=
  if kind = .getsockopt ∧ 0 ≤ ret then
    let out :=
      if state.optlenPtr = 0 then out
      else
        match env.mem.readU32 state.optlenPtr with
        | some len => { out with optLen := len.toInt32 }
        | none => out
    if state.optvalPtr ≠ 0 ∧ 0 < out.optLen then
      { out with
        optvalPrefix := copyOptvalPrefix env.mem out.optvalPrefix state.optvalPtr out.optLen.toUInt32 }
    else out
  else out

/-- The record an exit makes of the payload its enter saved. -/
def finishNetworkEvent : NetworkEvent :=
  let out := { state.ev with hdr := { state.ev.hdr with tsNs := env.ktimeExit }, ret := ret.toInt32 }
  let out := finishFds env kind ret state out
  let out := finishRemote env kind ret state out
  let out := finishBytes env kind ret state out
  let out := finishFlow env out
  let out := finishLocal env kind ret state out
  finishOption env kind ret state out

/-- The descriptors an exit starts or stops tracking, in the branches that set them. -/
def trackSocketFds (k : Kernel) : Kernel :=
  if 0 ≤ ret then
    match kind with
    | .socket => addSocketFd env env.addOk ret.toInt32 k
    | .socketpair =>
      if state.peerFdPtr = 0 then k
      else
        match readFdPair env.mem state.peerFdPtr with
        | some (fd, peerFd) => addSocketFd env env.addPeerOk peerFd (addSocketFd env env.addOk fd k)
        | none => k
    | .accept | .accept4 => addSocketFd env env.addOk ret.toInt32 k
    | .close => deleteSocketFd env state.ev.fd k
    | _ => k
  else k

end Finish

def emitNetworkExitEvent (env : HookEnv) (kind : NetworkEventKind) (ret : Int64) (k : Kernel) :
    Kernel :=
  let key := makeNetworkKey env kind
  match k.networkEnterState.lookup key with
  | none => k.statInc .networkStateMiss
  | some state =>
    match reserveNetworkEvent env kind k with
    | (k, none) => { k with networkEnterState := k.networkEnterState.erase key }
    | (k, some (slot, _)) =>
      let out := finishNetworkEvent env kind ret state
      let k := trackSocketFds env kind ret state k
      let k :=
        if isNetworkPortAllowed out.localEp.port out.remoteEp.port then k.submit slot (.network out)
        else k.discard slot
      { k with networkEnterState := k.networkEnterState.erase key }

end ETraceGen.Bpf
