import ETraceGen.Bpf.Finish
import ETraceGen.Bpf.Sockaddr
import ETraceGen.Bpf.SocketFds
import ETraceGen.Lib.Words

/-!
# Flow identities

`compute_network_flow_id` xors the task, the kind, the descriptors, the ports and an address prefix into one
word and hashes it. The hash is injective, so two records have one identity exactly when the two halves of
that word agree.

* `hashFold64_injective` : no two words are hashed alike;
* `flowHigh`, `flowLow` : the halves, in terms of the record;
* `flowId_eq_iff` : one identity for two records of a run, `getsockname` aside;
* `flow_stable_iff` : on one descriptor of one process, the thread and the kind must be the same;
* `flow_separates_iff` : what tells two connections of a task apart.
-/

namespace ETraceGen.Bpf

open Words

/-! ## The hash -/

theorem toBitVec_xor_shift33 (x : UInt64) : (x ^^^ (x >>> 33)).toBitVec = xorShift 33 x.toBitVec := by
  simp [xorShift]

theorem hashFold64_injective : Function.Injective hashFold64 := by
  intro x y h
  have hbits := congrArg UInt64.toBitVec h
  simp only [hashFold64, toBitVec_xor_shift33, UInt64.toBitVec_mul] at hbits
  have hshift : Function.Injective (xorShift 33 : BitVec 64 → BitVec 64) :=
    xorShift_injective (by decide)
  have hfirst : Function.Injective fun z : BitVec 64 => z * (0xff51afd7ed558ccd : UInt64).toBitVec :=
    mul_injective (show _ * 0x4f74430c22a54005#64 = 1#64 by decide)
  have hsecond : Function.Injective fun z : BitVec 64 => z * (0xc4ceb9fe1a85ec53 : UInt64).toBitVec :=
    mul_injective (show _ * 0x9cb4b2f8129337db#64 = 1#64 by decide)
  exact UInt64.toBitVec_inj.mp (hshift (hfirst (hshift (hsecond (hshift hbits)))))

/-! ## The identity -/

/-- The address word of an endpoint that enters the identity. -/
def flowAddr (endpoint : NetworkEndpoint) : UInt32 :=
  if 4 ≤ endpoint.addrLen then leU32 (endpoint.addr.toList.take 4) else 0

def flowHigh (ev : NetworkEvent) : UInt32 :=
  ev.hdr.tgid ^^^ (ev.kind <<< 16) ^^^ ev.fd.toUInt32 ^^^ (ev.peerFd.toUInt32 >>> 16) ^^^
    ev.remoteEp.port ^^^ (flowAddr ev.remoteEp >>> 16)

def flowLow (ev : NetworkEvent) : UInt32 :=
  ev.hdr.pid ^^^ (ev.peerFd.toUInt32 <<< 16) ^^^ ev.localEp.port ^^^ flowAddr ev.localEp ^^^
    (flowAddr ev.remoteEp <<< 16)

section Identity
variable {env : HookEnv} {ev : NetworkEvent}

theorem hi_networkFlowIdentity (h : env.tgid = ev.hdr.tgid) :
    hi (networkFlowIdentity env ev) = flowHigh ev := by
  have htask : hi env.pidTgid = ev.hdr.tgid := h
  unfold networkFlowIdentity addrWord flowHigh flowAddr
  dsimp only
  split_ifs <;> simp [htask]

theorem lo_networkFlowIdentity (h : env.pid = ev.hdr.pid) :
    lo (networkFlowIdentity env ev) = flowLow ev := by
  have htask : lo env.pidTgid = ev.hdr.pid := h
  unfold networkFlowIdentity addrWord flowLow flowAddr
  dsimp only
  split_ifs <;> simp [htask]

end Identity

/-! ## What the identity is hashed from

An enter leaves the identity open, and writes neither the peer descriptor nor, `bind` aside, the local
endpoint. -/

section Payload
variable (env : HookEnv) (args : SyscallArgs)

theorem fillMsghdr_identity (msg : UInt64) (ev : NetworkEvent) :
    (fillMsghdr env msg ev).flowId = ev.flowId ∧ (fillMsghdr env msg ev).peerFd = ev.peerFd ∧
      (fillMsghdr env msg ev).localEp = ev.localEp := by
  unfold fillMsghdr
  dsimp only
  split_ifs
  · exact ⟨rfl, rfl, rfl⟩
  · split
    · exact ⟨rfl, rfl, rfl⟩
    · split_ifs <;> exact ⟨rfl, rfl, rfl⟩

theorem fillNetwork_identity (kind : NetworkEventKind) (state : NetworkStateValue) :
    (fillNetwork env args kind state).ev.flowId = state.ev.flowId ∧
      (fillNetwork env args kind state).ev.peerFd = state.ev.peerFd := by
  cases kind with
  | sendmsg => exact ⟨(fillMsghdr_identity env _ _).1, (fillMsghdr_identity env _ _).2.1⟩
  | recvmsg => exact ⟨(fillMsghdr_identity env _ _).1, (fillMsghdr_identity env _ _).2.1⟩
  | _ => exact ⟨rfl, rfl⟩

theorem fillNetwork_localEp {kind : NetworkEventKind} (h : kind ≠ .bind) (state : NetworkStateValue) :
    (fillNetwork env args kind state).ev.localEp = state.ev.localEp := by
  cases kind with
  | bind => exact absurd rfl h
  | sendmsg => exact (fillMsghdr_identity env _ _).2.2
  | recvmsg => exact (fillMsghdr_identity env _ _).2.2
  | _ => rfl

theorem networkPayload_identity (kind : NetworkEventKind) :
    (networkPayload env kind args).ev.flowId = 0 ∧ (networkPayload env kind args).ev.peerFd = 0 :=
  fillNetwork_identity env args kind (stageScratch (freshNetworkEvent env kind))

theorem networkPayload_localEp {kind : NetworkEventKind} (h : kind ≠ .bind) :
    (networkPayload env kind args).ev.localEp = resetNetworkEndpoint env.leftover.network.localEp :=
  fillNetwork_localEp env args h (stageScratch (freshNetworkEvent env kind))

end Payload

section Finish
variable (env : HookEnv) (kind : NetworkEventKind) (ret : Int64) (state : NetworkStateValue)
  (out : NetworkEvent)

theorem finishFds_of_not_creates (h : createsSocket kind = false) :
    finishFds env kind ret state out = out := by
  unfold finishFds
  cases kind <;> first | exact ite_self out | cases h

theorem finishNetworkEvent_peerFd (h : createsSocket kind = false) :
    (finishNetworkEvent env kind ret state).peerFd = state.ev.peerFd := by
  unfold finishNetworkEvent
  dsimp only
  rw [(finishOption_keeps env kind ret state _).peerFd, (finishLocal_keeps env kind ret state _).2.1,
    (finishFlow_keeps env _).1, (finishBytes_keeps env kind ret state _).peerFd,
    (finishRemote_keeps env kind ret state _).2.1, finishFds_of_not_creates env kind ret state _ h]

/-! The identity has neither itself nor the options in it. -/

theorem computeNetworkFlowId_finishOption :
    computeNetworkFlowId env (finishOption env kind ret state out) = computeNetworkFlowId env out := by
  obtain ⟨optLen, optvalPrefix, heq⟩ := finishOption_eq env kind ret state out
  rw [heq]
  unfold computeNetworkFlowId networkFlowIdentity
  rfl

theorem computeNetworkFlowId_finishFlow :
    computeNetworkFlowId env (finishFlow env out) = computeNetworkFlowId env out := by
  obtain ⟨flowId, heq⟩ := finishFlow_eq env out
  rw [heq]
  unfold computeNetworkFlowId networkFlowIdentity
  rfl

/-- The record that `compute_network_flow_id` is given. -/
def recordAtHash : NetworkEvent :=
  finishBytes env kind ret state (finishRemote env kind ret state (finishFds env kind ret state
    { state.ev with hdr := { state.ev.hdr with tsNs := env.ktimeExit }, ret := ret.toInt32 }))

theorem finishNetworkEvent_recordAtHash :
    finishNetworkEvent env kind ret state =
      finishOption env kind ret state
        (finishLocal env kind ret state (finishFlow env (recordAtHash env kind ret state))) := rfl

theorem recordAtHash_flowId : (recordAtHash env kind ret state).flowId = state.ev.flowId := by
  unfold recordAtHash
  rw [(finishBytes_keeps env kind ret state _).flowId, (finishRemote_keeps env kind ret state _).1,
    (finishFds_keeps env kind ret state _).1]

theorem finishNetworkEvent_hashed (h : state.ev.flowId = 0) :
    (finishNetworkEvent env kind ret state).flowId =
      hashFold64 (networkFlowIdentity env (recordAtHash env kind ret state)) := by
  rw [finishNetworkEvent_recordAtHash, (finishOption_keeps env kind ret state _).flowId,
    (finishLocal_keeps env kind ret state _).1, finishFlow,
    if_pos ((recordAtHash_flowId env kind ret state).trans h)]
  rfl

/-- The identity of a record is that of its own fields. -/
theorem finishNetworkEvent_flowId (hkind : kind ≠ .getsockname) (h : state.ev.flowId = 0) :
    (finishNetworkEvent env kind ret state).flowId =
      computeNetworkFlowId env (finishNetworkEvent env kind ret state) := by
  rw [finishNetworkEvent_hashed env kind ret state h, finishNetworkEvent_recordAtHash,
    finishLocal_of_ne env kind ret state _ hkind, computeNetworkFlowId_finishOption,
    computeNetworkFlowId_finishFlow, computeNetworkFlowId]

end Finish

/-! ## Records of a run -/

/-- What is known of the identity of a record of that kind, finished in those surroundings. -/
structure Identified (env : HookEnv) (kind : NetworkEventKind) (ev : NetworkEvent) : Prop where
  code : ev.kind = kind.code
  tgid : env.tgid = ev.hdr.tgid
  pid : env.pid = ev.hdr.pid
  flowId : kind ≠ .getsockname → ev.flowId = computeNetworkFlowId env ev
  peerFd : createsSocket kind = false → ev.peerFd = 0
  localEp : kind ≠ .bind → kind ≠ .getsockname → ev.localEp.port = 0 ∧ flowAddr ev.localEp = 0

theorem identified_of_finished {enterEnv env : HookEnv} (htask : enterEnv.pidTgid = env.pidTgid)
    (kind : NetworkEventKind) (args : SyscallArgs) (ret : Int64) :
    Identified env kind (finishNetworkEvent env kind ret (networkPayload enterEnv kind args)) := by
  obtain ⟨hhdr, hkind, -⟩ := finishNetworkEvent_envelope env kind ret (networkPayload enterEnv kind args)
  obtain ⟨henvelope, hcode⟩ := networkPayload_envelope enterEnv kind args
  obtain ⟨hflow, hpeer⟩ := networkPayload_identity enterEnv args kind
  refine ⟨hkind.trans hcode, ?_, ?_, fun h => finishNetworkEvent_flowId env kind ret _ h hflow, ?_, ?_⟩
  · rw [hhdr, henvelope.tgid, HookEnv.tgid, HookEnv.tgid, htask]
  · rw [hhdr, henvelope.pid, HookEnv.pid, HookEnv.pid, htask]
  · intro hcreates
    rw [finishNetworkEvent_peerFd env kind ret _ hcreates, hpeer]
  · intro hbind hname
    rw [finishNetworkEvent_localEp, if_neg fun hand => hname hand.1,
      networkPayload_localEp enterEnv args hbind]
    exact ⟨rfl, rfl⟩

theorem exists_identified {maps : ProbeMaps} {steps : List Step} {ev : NetworkEvent}
    (h : .network ev ∈ (run maps steps).events.records) : ∃ env kind, Identified env kind ev := by
  obtain ⟨before, env, hook, after, -, hsource⟩ := mem_records h
  generalize hrecord : EventVariant.network ev = record at hsource
  cases hsource with
  | process hkind => cases hrecord
  | paired hmem htask henter hexit hmade =>
    unfold makeRecord at hmade
    split at hmade
    · obtain rfl := Option.some.inj hmade
      cases hrecord
    · obtain rfl := Option.some.inj hmade
      cases hrecord
    · obtain rfl := Option.some.inj hmade
      obtain rfl := EventVariant.network.inj hrecord
      exact ⟨env, _, identified_of_finished htask _ _ _⟩
    · cases hmade

/-- The enumerators in the order of their codes, which begin at 1. -/
def networkEventKinds : List NetworkEventKind :=
  [.socket, .connect, .accept, .bind, .listen, .close, .sendto, .recvfrom, .shutdown, .socketpair,
    .accept4, .getsockname, .getpeername, .setsockopt, .getsockopt, .sendmsg, .recvmsg, .read, .write,
    .readv, .writev, .sendmmsg, .recvmmsg]

theorem networkEventKind_code_injective : Function.Injective NetworkEventKind.code := by
  have hback : Function.LeftInverse (fun code : UInt32 => networkEventKinds.getD (code.toNat - 1) .socket)
      NetworkEventKind.code := by
    intro kind
    cases kind <;> rfl
  exact hback.injective

section
variable {maps : ProbeMaps} {steps : List Step} {a b : NetworkEvent}

theorem identified_of_code (ha : .network a ∈ (run maps steps).events.records) {kind : NetworkEventKind}
    (hkind : a.kind = kind.code) : ∃ env, Identified env kind a := by
  obtain ⟨env, kind', hid⟩ := exists_identified ha
  obtain rfl := networkEventKind_code_injective (hid.code.symm.trans hkind)
  exact ⟨env, hid⟩

/-- **Two records have one identity** when both halves of what is hashed agree. -/
theorem flowId_eq_iff {env env' : HookEnv} {kind kind' : NetworkEventKind} (ha : Identified env kind a)
    (hb : Identified env' kind' b) (hname : kind ≠ .getsockname) (hname' : kind' ≠ .getsockname) :
    a.flowId = b.flowId ↔ flowHigh a = flowHigh b ∧ flowLow a = flowLow b := by
  rw [ha.flowId hname, hb.flowId hname']
  unfold computeNetworkFlowId
  rw [hashFold64_injective.eq_iff, eq_iff_halves, hi_networkFlowIdentity ha.tgid,
    hi_networkFlowIdentity hb.tgid, lo_networkFlowIdentity ha.pid, lo_networkFlowIdentity hb.pid]

/-! ## Stability -/

/-- A record of a call that moves data on a descriptor. -/
def DataPlane (ev : NetworkEvent) : Prop := ∃ kind, returnsBytes kind = true ∧ ev.kind = kind.code

theorem not_creates_of_returnsBytes {kind : NetworkEventKind} (h : returnsBytes kind = true) :
    createsSocket kind = false ∧ kind ≠ .getsockname ∧ kind ≠ .bind := by
  cases kind <;> cases h <;> decide

/-- The place of the kind in the identity loses none of it. -/
theorem code_shift_injective {k k' : NetworkEventKind} (h : k.code <<< 16 = k'.code <<< 16) :
    k.code = k'.code := by
  have hback : ∀ kind : NetworkEventKind, (kind.code <<< 16) >>> 16 = kind.code := by
    intro kind
    cases kind <;> rfl
  rw [← hback k, h, hback k']

theorem flowAddr_congr {p q : NetworkEndpoint} (h : p.Same q) : flowAddr p = flowAddr q := by
  unfold flowAddr
  rw [h.addrLen, h.addr]

/-- **One descriptor has one identity** for the calls of one kind that one thread makes on it, and for no
others. -/
theorem flow_stable_iff (maps : ProbeMaps) (steps : List Step) {a b : NetworkEvent}
    (ha : .network a ∈ (run maps steps).events.records)
    (hb : .network b ∈ (run maps steps).events.records) (hdata : DataPlane a) (hdata' : DataPlane b)
    (hprocess : a.hdr.tgid = b.hdr.tgid) (hfd : a.fd = b.fd) (hlocal : a.localEp.Same b.localEp)
    (hremote : a.remoteEp.Same b.remoteEp) :
    a.flowId = b.flowId ↔ a.hdr.pid = b.hdr.pid ∧ a.kind = b.kind := by
  obtain ⟨kind, hbytes, hcode⟩ := hdata
  obtain ⟨kind', hbytes', hcode'⟩ := hdata'
  obtain ⟨hcreates, hname, -⟩ := not_creates_of_returnsBytes hbytes
  obtain ⟨hcreates', hname', -⟩ := not_creates_of_returnsBytes hbytes'
  obtain ⟨env, hid⟩ := identified_of_code ha hcode
  obtain ⟨env', hid'⟩ := identified_of_code hb hcode'
  have hpeer : a.peerFd = b.peerFd := (hid.peerFd hcreates).trans (hid'.peerFd hcreates').symm
  have hhigh : flowHigh a = flowHigh b ↔ a.kind = b.kind := by
    unfold flowHigh
    rw [hprocess, hfd, hpeer, hremote.port, flowAddr_congr hremote, UInt32.xor_left_inj,
      UInt32.xor_left_inj, UInt32.xor_left_inj, UInt32.xor_left_inj, UInt32.xor_right_inj, hcode, hcode']
    exact ⟨code_shift_injective, fun h => by rw [h]⟩
  have hlow : flowLow a = flowLow b ↔ a.hdr.pid = b.hdr.pid := by
    unfold flowLow
    rw [hpeer, hlocal.port, flowAddr_congr hlocal, flowAddr_congr hremote, UInt32.xor_left_inj,
      UInt32.xor_left_inj, UInt32.xor_left_inj, UInt32.xor_left_inj]
  rw [flowId_eq_iff hid hid' hname hname', hhigh, hlow, and_comm]

end

/-! ### One thread sends and receives -/

/-- Descriptor 3, and no address. -/
def onThree : SyscallArgs := .of 3 0 0 0 0 0

def sendThenReceive : List Step :=
  [.deliver env7 (.enterNetwork .sendto onThree), .deliver env7 (.exitNetwork .sendto 5),
    .deliver env7 (.enterNetwork .recvfrom onThree), .deliver env7 (.exitNetwork .recvfrom 5)]

def sentRecord : NetworkEvent := finishNetworkEvent env7 .sendto 5 (networkPayload env7 .sendto onThree)

def receivedRecord : NetworkEvent :=
  finishNetworkEvent env7 .recvfrom 5 (networkPayload env7 .recvfrom onThree)

theorem sendThenReceive_records : (run allProbes sendThenReceive).events.records =
    [.network sentRecord, .network receivedRecord] :=
  rfl

theorem sentRecord_mem : .network sentRecord ∈ (run allProbes sendThenReceive).events.records := by
  rw [sendThenReceive_records]
  exact List.mem_cons_self

theorem receivedRecord_mem :
    .network receivedRecord ∈ (run allProbes sendThenReceive).events.records := by
  rw [sendThenReceive_records]
  exact List.mem_cons_of_mem _ (List.mem_singleton_self _)

theorem sentRecord_process : sentRecord.hdr.tgid = 7 ∧ sentRecord.fd = 3 := ⟨rfl, rfl⟩

theorem receivedRecord_process : receivedRecord.hdr.tgid = 7 ∧ receivedRecord.fd = 3 := ⟨rfl, rfl⟩

theorem sentRecord_same_process : sentRecord.hdr.tgid = receivedRecord.hdr.tgid ∧
    sentRecord.fd = receivedRecord.fd :=
  ⟨sentRecord_process.1.trans receivedRecord_process.1.symm,
    sentRecord_process.2.trans receivedRecord_process.2.symm⟩

theorem overwrite_overwrite {n : Nat} (dst : CharBuf n) (bs : Bytes) :
    overwrite (overwrite dst bs) bs = overwrite dst bs := by
  apply Vector.ext
  intro i hi
  cases h : bs[i]? with
  | none => simp [overwrite, h]
  | some b => simp [overwrite, h]

theorem resetNetworkEndpoint_reset (endpoint : NetworkEndpoint) :
    resetNetworkEndpoint (resetNetworkEndpoint endpoint) = resetNetworkEndpoint endpoint := by
  unfold resetNetworkEndpoint
  rw [overwrite_overwrite]

/-- No address is given, and none is returned. -/
theorem sentRecord_endpoints : sentRecord.localEp = receivedRecord.localEp ∧
    sentRecord.remoteEp = receivedRecord.remoteEp := by
  unfold sentRecord receivedRecord
  constructor
  · rw [finishNetworkEvent_localEp, finishNetworkEvent_localEp, if_neg (by decide), if_neg (by decide),
      networkPayload_localEp env7 onThree (by decide), networkPayload_localEp env7 onThree (by decide)]
  · rw [finishNetworkEvent_remoteEp, finishNetworkEvent_remoteEp, if_neg (by decide), if_neg (by decide)]
    have hnull : ∀ (mem : UserMem) (endpoint : NetworkEndpoint),
        parseSockaddrUser mem 0 0 endpoint = resetNetworkEndpoint endpoint := by
      intro mem endpoint
      rw [parseSockaddrUser, if_pos (Or.inl rfl)]
    show parseSockaddrUser env7.mem 0 0 (resetNetworkEndpoint _) = resetNetworkEndpoint _
    rw [hnull, resetNetworkEndpoint_reset]

theorem flow_stable_iff_sent :
    sentRecord.flowId = receivedRecord.flowId ↔
      sentRecord.hdr.pid = receivedRecord.hdr.pid ∧ sentRecord.kind = receivedRecord.kind :=
  flow_stable_iff allProbes sendThenReceive sentRecord_mem receivedRecord_mem ⟨.sendto, rfl, rfl⟩
    ⟨.recvfrom, rfl, rfl⟩ sentRecord_same_process.1 sentRecord_same_process.2
    (.of_eq sentRecord_endpoints.1) (.of_eq sentRecord_endpoints.2)

/-- The step is part of a call that opens or closes a descriptor. -/
def Step.ChangesFds (step : Step) : Prop :=
  ∃ pidTgid kind, (createsSocket kind = true ∨ kind = .close) ∧
    (step.Enters pidTgid (.network kind) ∨ step.Exits pidTgid (.network kind))

theorem sendThenReceive_keeps_fds : ∀ step ∈ sendThenReceive, ¬step.ChangesFds := by
  intro step hstep
  rintro ⟨pidTgid, kind, hkind, ⟨hook, hhit, hent⟩ | ⟨hook, hhit, hent⟩⟩
  all_goals
    simp only [sendThenReceive, List.mem_cons, List.not_mem_nil, or_false] at hstep
    rcases hstep with rfl | rfl | rfl | rfl <;> cases hhit <;> cases hent <;>
      exact absurd hkind (by decide)

/-- What it sends and what it receives on the socket are two flows. -/
theorem not_flow_stable :
    ¬ ∀ (maps : ProbeMaps) (steps : List Step) (a b : NetworkEvent),
      (∀ step ∈ steps, ¬step.ChangesFds) →
      .network a ∈ (run maps steps).events.records → .network b ∈ (run maps steps).events.records →
      DataPlane a → DataPlane b → a.hdr.tgid = b.hdr.tgid → a.fd = b.fd → a.localEp = b.localEp →
      a.remoteEp = b.remoteEp → a.flowId = b.flowId := by
  intro h
  have hsame := h allProbes sendThenReceive sentRecord receivedRecord sendThenReceive_keeps_fds
    sentRecord_mem receivedRecord_mem ⟨.sendto, rfl, rfl⟩ ⟨.recvfrom, rfl, rfl⟩
    sentRecord_same_process.1 sentRecord_same_process.2 sentRecord_endpoints.1 sentRecord_endpoints.2
  exact absurd hsame (by decide +kernel)

/-! ## Separation -/

/-- A record of a connection, or of a message to a destination. -/
def Outgoing (ev : NetworkEvent) : Prop :=
  ∃ kind : NetworkEventKind, (kind = .connect ∨ kind = .sendto) ∧ ev.kind = kind.code

/-- What the socket and the destination put in the upper half of the identity. -/
def flowWord (ev : NetworkEvent) : UInt32 :=
  (ev.kind <<< 16) ^^^ ev.fd.toUInt32 ^^^ ev.remoteEp.port ^^^ (flowAddr ev.remoteEp >>> 16)

theorem Outgoing.identified {maps : ProbeMaps} {steps : List Step} {ev : NetworkEvent}
    (h : .network ev ∈ (run maps steps).events.records) (hout : Outgoing ev) :
    ∃ env kind, Identified env kind ev ∧ kind ≠ .getsockname ∧ ev.peerFd = 0 ∧ ev.localEp.port = 0 ∧
      flowAddr ev.localEp = 0 := by
  obtain ⟨kind, hkind, hcode⟩ := hout
  obtain ⟨env, hid⟩ := identified_of_code h hcode
  have hkinds : kind ≠ .bind ∧ kind ≠ .getsockname ∧ createsSocket kind = false := by
    rcases hkind with rfl | rfl <;> decide
  obtain ⟨hbind, hname, hcreates⟩ := hkinds
  obtain ⟨hport, haddr⟩ := hid.localEp hbind hname
  exact ⟨env, kind, hid, hname, hid.peerFd hcreates, hport, haddr⟩

/-- **Two connections of a task are told apart** by the first two bytes of their addresses, or by the word
that the rest is folded into. -/
theorem flow_separates_iff (maps : ProbeMaps) (steps : List Step) {a b : NetworkEvent}
    (ha : .network a ∈ (run maps steps).events.records)
    (hb : .network b ∈ (run maps steps).events.records) (hout : Outgoing a) (hout' : Outgoing b)
    (hprocess : a.hdr.tgid = b.hdr.tgid) (hthread : a.hdr.pid = b.hdr.pid) :
    a.flowId ≠ b.flowId ↔
      flowAddr a.remoteEp <<< 16 ≠ flowAddr b.remoteEp <<< 16 ∨ flowWord a ≠ flowWord b := by
  obtain ⟨env, kind, hid, hname, hpeer, hport, haddr⟩ := hout.identified ha
  obtain ⟨env', kind', hid', hname', hpeer', hport', haddr'⟩ := hout'.identified hb
  have hhigh : flowHigh a = flowHigh b ↔ flowWord a = flowWord b := by
    have hword : ∀ ev : NetworkEvent, ev.peerFd = 0 → flowHigh ev = ev.hdr.tgid ^^^ flowWord ev := by
      intro ev hzero
      unfold flowHigh flowWord
      rw [hzero, show (0 : Int32).toUInt32 >>> 16 = 0 from rfl, UInt32.xor_zero]
      simp only [UInt32.xor_assoc]
    rw [hword a hpeer, hword b hpeer', hprocess, UInt32.xor_right_inj]
  have hlow : flowLow a = flowLow b ↔
      flowAddr a.remoteEp <<< 16 = flowAddr b.remoteEp <<< 16 := by
    unfold flowLow
    rw [hthread, hpeer, hpeer', hport, hport', haddr, haddr', UInt32.xor_right_inj]
  rw [ne_eq, flowId_eq_iff hid hid' hname hname', hhigh, hlow, not_and_or, or_comm]

/-! ### Two hosts of one network -/

/-- `2001:db8::` and a last byte, port 53, as a `sockaddr_in6` in memory. -/
def sockaddrIn6 (last : UInt8) : UserMem :=
  .holding 0x1000 ([10, 0, 0, 53, 0, 0, 0, 0, 0x20, 0x01, 0x0d, 0xb8] ++ List.replicate 11 0 ++ [last] ++
    List.replicate 4 0)

def hostEnv (last : UInt8) : HookEnv := { env7 with mem := sockaddrIn6 last }

/-- Descriptor 3, and a destination. -/
def toHost : SyscallArgs := .of 3 0 0 0 0x1000 28

def sendToHosts : List Step :=
  [.deliver (hostEnv 1) (.enterNetwork .sendto toHost), .deliver (hostEnv 1) (.exitNetwork .sendto 5),
    .deliver (hostEnv 2) (.enterNetwork .sendto toHost), .deliver (hostEnv 2) (.exitNetwork .sendto 5)]

def hostRecord (last : UInt8) : NetworkEvent :=
  finishNetworkEvent (hostEnv last) .sendto 5 (networkPayload (hostEnv last) .sendto toHost)

theorem sendToHosts_records : (run allProbes sendToHosts).events.records =
    [.network (hostRecord 1), .network (hostRecord 2)] :=
  rfl

theorem hostRecord_mem (last : UInt8) (h : last = 1 ∨ last = 2) :
    .network (hostRecord last) ∈ (run allProbes sendToHosts).events.records := by
  rw [sendToHosts_records]
  rcases h with rfl | rfl
  · exact List.mem_cons_self
  · exact List.mem_cons_of_mem _ (List.mem_singleton_self _)

theorem hostRecord_identified (last : UInt8) : Identified (hostEnv last) .sendto (hostRecord last) :=
  identified_of_finished rfl .sendto toHost 5

theorem hostRecord_outgoing (last : UInt8) : Outgoing (hostRecord last) :=
  ⟨.sendto, Or.inr rfl, (hostRecord_identified last).code⟩

theorem hostRecord_same_task : (hostRecord 1).hdr.tgid = (hostRecord 2).hdr.tgid ∧
    (hostRecord 1).hdr.pid = (hostRecord 2).hdr.pid := by
  have htask : ∀ last, (hostRecord last).hdr.tgid = env7.tgid ∧ (hostRecord last).hdr.pid = env7.pid :=
    fun last => ⟨(hostRecord_identified last).tgid.symm, (hostRecord_identified last).pid.symm⟩
  exact ⟨(htask 1).1.trans (htask 2).1.symm, (htask 1).2.trans (htask 2).2.symm⟩

theorem flow_separates_iff_hosts :
    (hostRecord 1).flowId ≠ (hostRecord 2).flowId ↔
      flowAddr (hostRecord 1).remoteEp <<< 16 ≠ flowAddr (hostRecord 2).remoteEp <<< 16 ∨
        flowWord (hostRecord 1) ≠ flowWord (hostRecord 2) :=
  flow_separates_iff allProbes sendToHosts (hostRecord_mem 1 (Or.inl rfl)) (hostRecord_mem 2 (Or.inr rfl))
    (hostRecord_outgoing 1) (hostRecord_outgoing 2) hostRecord_same_task.1 hostRecord_same_task.2

/-- Messages to two hosts of one network are one flow. -/
theorem not_flow_separates :
    ¬ ∀ (maps : ProbeMaps) (steps : List Step) (a b : NetworkEvent),
      .network a ∈ (run maps steps).events.records → .network b ∈ (run maps steps).events.records →
      Outgoing a → Outgoing b → a.hdr.tgid = b.hdr.tgid → a.hdr.pid = b.hdr.pid →
      (a.fd ≠ b.fd ∨ a.remoteEp.addr ≠ b.remoteEp.addr ∨ a.remoteEp.port ≠ b.remoteEp.port) →
      a.flowId ≠ b.flowId := by
  intro h
  refine h allProbes sendToHosts (hostRecord 1) (hostRecord 2) (hostRecord_mem 1 (Or.inl rfl))
    (hostRecord_mem 2 (Or.inr rfl)) (hostRecord_outgoing 1) (hostRecord_outgoing 2)
    hostRecord_same_task.1 hostRecord_same_task.2 ?_ ?_
  · exact Or.inr (Or.inl (by decide +kernel))
  · decide +kernel

end ETraceGen.Bpf
