import ETraceGen.Bpf.Records

/-!
# The fields of a finished record

An exit takes the payload of its enter through `finishFds`, `finishRemote`, `finishBytes`, `finishFlow`,
`finishLocal` and `finishOption`. Each writes a few fields and keeps the others, so that a field of the
record is what the one part that writes it makes of the payload's.

* `finishNetworkEvent_remoteEp`, `finishNetworkEvent_localEp` : the endpoints a record is given.
-/

namespace ETraceGen.Bpf

/-- The descriptors, the endpoints and the identity are those of before. -/
structure KeepsFlow (out out' : NetworkEvent) : Prop where
  peerFd : out'.peerFd = out.peerFd
  flowId : out'.flowId = out.flowId
  localEp : out'.localEp = out.localEp
  remoteEp : out'.remoteEp = out.remoteEp

section
variable (env : HookEnv) (kind : NetworkEventKind) (ret : Int64) (state : NetworkStateValue)
  (out : NetworkEvent)

/-! ## What each part keeps -/

theorem finishFds_keeps :
    (finishFds env kind ret state out).flowId = out.flowId ∧
      (finishFds env kind ret state out).localEp = out.localEp ∧
      (finishFds env kind ret state out).remoteEp = out.remoteEp := by
  obtain ⟨fd, peerFd, heq⟩ := finishFds_eq env kind ret state out
  rw [heq]
  exact ⟨rfl, rfl, rfl⟩

theorem finishRemote_keeps :
    (finishRemote env kind ret state out).flowId = out.flowId ∧
      (finishRemote env kind ret state out).peerFd = out.peerFd ∧
      (finishRemote env kind ret state out).localEp = out.localEp := by
  obtain ⟨ep, heq⟩ := finishRemote_eq env kind ret state out
  rw [heq]
  exact ⟨rfl, rfl, rfl⟩

theorem finishBytes_keeps : KeepsFlow out (finishBytes env kind ret state out) := by
  rw [finishBytes_eq]
  exact ⟨rfl, rfl, rfl, rfl⟩

theorem finishFlow_keeps :
    (finishFlow env out).peerFd = out.peerFd ∧ (finishFlow env out).localEp = out.localEp ∧
      (finishFlow env out).remoteEp = out.remoteEp := by
  obtain ⟨flowId, heq⟩ := finishFlow_eq env out
  rw [heq]
  exact ⟨rfl, rfl, rfl⟩

theorem finishLocal_keeps :
    (finishLocal env kind ret state out).flowId = out.flowId ∧
      (finishLocal env kind ret state out).peerFd = out.peerFd ∧
      (finishLocal env kind ret state out).remoteEp = out.remoteEp := by
  obtain ⟨ep, heq⟩ := finishLocal_eq env kind ret state out
  rw [heq]
  exact ⟨rfl, rfl, rfl⟩

theorem finishOption_keeps : KeepsFlow out (finishOption env kind ret state out) := by
  obtain ⟨optLen, optvalPrefix, heq⟩ := finishOption_eq env kind ret state out
  rw [heq]
  exact ⟨rfl, rfl, rfl, rfl⟩

theorem finishLocal_of_ne (h : kind ≠ .getsockname) : finishLocal env kind ret state out = out := by
  rw [finishLocal, if_neg fun hand => h hand.1]

/-! ## The endpoints -/

/-- The address the pointers kept at enter lead to at the exit. -/
def returnedEndpoint (endpoint : NetworkEndpoint) : NetworkEndpoint :=
  parseSockaddrUser env.mem state.sockaddrPtr (returnedLen env.mem state.sockaddrLenPtr) endpoint

theorem finishNetworkEvent_remoteEp :
    (finishNetworkEvent env kind ret state).remoteEp =
      if returnsRemoteAddress kind ∧ 0 ≤ ret ∧ state.sockaddrPtr ≠ 0 then
        returnedEndpoint env state state.ev.remoteEp
      else state.ev.remoteEp := by
  have hfds := (finishFds_keeps env kind ret state
    { state.ev with hdr := { state.ev.hdr with tsNs := env.ktimeExit }, ret := ret.toInt32 }).2.2
  unfold finishNetworkEvent
  dsimp only
  rw [(finishOption_keeps env kind ret state _).remoteEp, (finishLocal_keeps env kind ret state _).2.2,
    (finishFlow_keeps env _).2.2, (finishBytes_keeps env kind ret state _).remoteEp, finishRemote, hfds]
  split_ifs
  · rfl
  · exact hfds

theorem finishNetworkEvent_localEp :
    (finishNetworkEvent env kind ret state).localEp =
      if kind = .getsockname ∧ 0 ≤ ret ∧ state.sockaddrPtr ≠ 0 then
        returnedEndpoint env state state.ev.localEp
      else state.ev.localEp := by
  unfold finishNetworkEvent
  dsimp only
  rw [(finishOption_keeps env kind ret state _).localEp]
  unfold finishLocal returnedEndpoint
  have hkept := fun out => (finishFlow_keeps env (finishBytes env kind ret state
    (finishRemote env kind ret state (finishFds env kind ret state out)))).2.1.trans
      ((finishBytes_keeps env kind ret state _).localEp.trans
        ((finishRemote_keeps env kind ret state _).2.2.trans (finishFds_keeps env kind ret state out).2.1))
  rw [hkept]
  split_ifs
  · rfl
  · exact hkept _

end

end ETraceGen.Bpf
