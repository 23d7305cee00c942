import ETraceGen.Bpf.Sockaddr
import ETraceGen.Bpf.Submitted

/-!
# What the records report

* `userPath` : what is read of a path;
* `processRecord_says`, `filePayload_paths`, `networkRecord_says` : what a record says of its hits.
-/

namespace ETraceGen.Bpf

/-! ## Paths -/

/-- The string at a path argument as a record has room for it; none if there is no argument, or it cannot be read. -/
def userPath (mem : UserMem) (ptr : UInt64) : Bytes :=
  if ptr = 0 then [] else ((mem.readStr ptr pathLen).getD []).take (pathLen - 1)

theorem readStr_plain {mem : UserMem} {ptr : UInt64} {n : Nat} {s : Bytes} (h : mem.readStr ptr n = some s) :
    0 ∉ s := by
  induction n generalizing ptr s with
  | zero =>
    cases h
    exact List.not_mem_nil
  | succ n ih =>
    rw [UserMem.readStr] at h
    cases hb : mem ptr with
    | none => simp [hb] at h
    | some b =>
      rw [hb] at h
      dsimp only at h
      split_ifs at h with hzero
      · cases h
        exact List.not_mem_nil
      · obtain ⟨rest, hrest, rfl⟩ := Option.map_eq_some_iff.mp h
        rw [List.mem_cons, not_or]
        exact ⟨fun h0 => hzero h0.symm, ih hrest⟩

/-- A string written with its NUL is held, whatever was there. -/
theorem overwrite_holds {n : Nat} (dst : CharBuf n) {s : Bytes} (hlen : s.length < n) (hplain : 0 ∉ s) :
    (overwrite dst (s ++ [0])).Holds s := by
  have hfits : (s ++ [0]).length ≤ n := by
    rw [List.length_append, List.length_singleton]
    omega
  have hlt : s.length < (s ++ [0]).length := by
    rw [List.length_append, List.length_singleton]
    omega
  have htake := overwrite_take dst hfits
  refine ⟨?_, ?_, hplain⟩
  · rw [← Nat.min_eq_left (le_of_lt hlt), ← List.take_take, htake, List.take_left]
  · rw [← List.getElem?_take_of_lt hlt, htake, List.getElem?_concat_length]

theorem overwriteStr_cstr {n : Nat} (dst : CharBuf (n + 1)) {s : Bytes} (hplain : 0 ∉ s) :
    (overwriteStr dst s).cstr = s.take n := by
  refine (overwrite_holds dst ?_ fun h => hplain (List.mem_of_mem_take h)).cstr
  show (s.take n).length < n + 1
  rw [List.length_take]
  omega

theorem clear_cstr {n : Nat} (dst : CharBuf (n + 1)) : (overwrite dst [0]).cstr = [] :=
  (@overwrite_holds (n + 1) dst [] (Nat.succ_pos n) List.not_mem_nil).cstr

theorem copyUserPath_cstr (mem : UserMem) (dst : CharBuf pathLen) (ptr : UInt64) :
    (copyUserPath mem dst ptr).cstr = userPath mem ptr := by
  unfold copyUserPath userPath
  split_ifs with hnull
  · exact clear_cstr dst
  · cases hread : mem.readStr ptr pathLen with
    | some s => exact overwriteStr_cstr dst (readStr_plain hread)
    | none => exact (clear_cstr dst).trans List.take_nil.symm

/-! ## Process hooks -/

/-- The exit code that the hook knows of. -/
def Hook.exitCode (env : HookEnv) : Hook → UInt32
  | .schedExit => env.exitCode
  | _ => 0

/-- The child that a hook tells of: the one of a fork, or the result of a call that makes one. -/
def Hook.childPid : Hook → UInt32
  | .schedFork childPid => childPid
  | .exitClone ret | .exitClone3 ret | .exitVfork ret => if 0 < ret then ret.toUInt64.toUInt32 else 0
  | _ => 0

theorem setChildPid_childPid (ret : Int64) (ev : ProcessEvent) :
    (setChildPid ret ev).exitCode = ev.exitCode ∧
      (setChildPid ret ev).childPid = if 0 < ret then ret.toUInt64.toUInt32 else ev.childPid := by
  unfold setChildPid
  split_ifs <;> exact ⟨rfl, rfl⟩

theorem processRecord_says (env : HookEnv) {hook : Hook} {kind : ProcessEventKind}
    (h : processKind? hook = some kind) :
    (processRecord env hook kind).exitCode = hook.exitCode env ∧
      (processRecord env hook kind).childPid = hook.childPid := by
  cases hook with
  | schedExec filename => cases filename <;> exact ⟨rfl, rfl⟩
  | schedFork childPid => exact ⟨rfl, rfl⟩
  | schedExit => exact ⟨rfl, rfl⟩
  | exitClone ret => exact setChildPid_childPid ret _
  | exitClone3 ret => exact setChildPid_childPid ret _
  | exitVfork ret => exact setChildPid_childPid ret _
  | _ => cases h

/-! ## File calls -/

/-- The second path of a call that is given two. -/
def secondPath (mem : UserMem) (args : SyscallArgs) : FileEventKind → Bytes
  | .renameat2 => userPath mem args.newPath
  | _ => []

theorem filePayload_paths (env : HookEnv) (kind : FileEventKind) (args : SyscallArgs) :
    (filePayload env kind args).pathA.cstr = userPath env.mem args.path ∧
      (filePayload env kind args).pathB.cstr = secondPath env.mem args kind := by
  cases kind with
  | openat => exact ⟨copyUserPath_cstr _ _ _, clear_cstr _⟩
  | unlinkat => exact ⟨copyUserPath_cstr _ _ _, clear_cstr _⟩
  | renameat2 => exact ⟨copyUserPath_cstr _ _ _, copyUserPath_cstr _ _ _⟩

/-! ## Network calls -/

/-- The descriptor of a call: the one it was given, or the first of those it has made. -/
def callFd (args : SyscallArgs) (env : HookEnv) (ret : Int64) : NetworkEventKind → Int32
  | .socket => if 0 ≤ ret then ret.toInt32 else 0
  | .socketpair => if 0 ≤ ret ∧ args.sv ≠ 0 then ((readFdPair env.mem args.sv).map Prod.fst).getD 0 else 0
  | _ => args.fd

theorem fillMsghdr_fd (env : HookEnv) (msg : UInt64) (ev : NetworkEvent) :
    (fillMsghdr env msg ev).fd = ev.fd ∧ (fillMsghdr env msg ev).direction = ev.direction := by
  unfold fillMsghdr
  dsimp only
  split_ifs
  · exact ⟨rfl, rfl⟩
  · split
    · exact ⟨rfl, rfl⟩
    · split_ifs <;> exact ⟨rfl, rfl⟩

theorem networkPayload_says (env : HookEnv) (kind : NetworkEventKind) (args : SyscallArgs) :
    (networkPayload env kind args).ev.fd = (if kind = .socket ∨ kind = .socketpair then 0 else args.fd) ∧
      (networkPayload env kind args).ev.direction = (inferNetworkDirection kind).code := by
  cases kind with
  | sendmsg => exact fillMsghdr_fd env _ _
  | recvmsg => exact fillMsghdr_fd env _ _
  | _ => exact ⟨rfl, rfl⟩

section
variable (env : HookEnv) (kind : NetworkEventKind) (ret : Int64) (state : NetworkStateValue)

/-- Only the first part of the finishing writes the descriptor. -/
theorem finishNetworkEvent_fd : (finishNetworkEvent env kind ret state).fd = (finishFds env kind ret state
    { state.ev with hdr := { state.ev.hdr with tsNs := env.ktimeExit }, ret := ret.toInt32 }).fd := by
  have hremote : ∀ out, (finishRemote env kind ret state out).fd = out.fd := fun out => by
    obtain ⟨ep, heq⟩ := finishRemote_eq env kind ret state out
    rw [heq]
  have hbytes : ∀ out, (finishBytes env kind ret state out).fd = out.fd := fun out => by
    rw [finishBytes_eq]
  have hflow : ∀ out, (finishFlow env out).fd = out.fd := fun out => by
    obtain ⟨flowId, heq⟩ := finishFlow_eq env out
    rw [heq]
  have hlocal : ∀ out, (finishLocal env kind ret state out).fd = out.fd := fun out => by
    obtain ⟨ep, heq⟩ := finishLocal_eq env kind ret state out
    rw [heq]
  have hoption : ∀ out, (finishOption env kind ret state out).fd = out.fd := fun out => by
    obtain ⟨optLen, optvalPrefix, heq⟩ := finishOption_eq env kind ret state out
    rw [heq]
  unfold finishNetworkEvent
  dsimp only
  rw [hoption, hlocal, hflow, hbytes, hremote]

end

theorem networkRecord_says (enterEnv env : HookEnv) (kind : NetworkEventKind) (args : SyscallArgs) (ret : Int64) :
    (finishNetworkEvent env kind ret (networkPayload enterEnv kind args)).fd = callFd args env ret kind ∧
      (finishNetworkEvent env kind ret (networkPayload enterEnv kind args)).direction =
        (inferNetworkDirection kind).code := by
  obtain ⟨hfd, hdirection⟩ := networkPayload_says enterEnv kind args
  constructor
  · rw [finishNetworkEvent_fd]
    cases kind with
    | socket =>
      unfold finishFds callFd
      dsimp only
      split_ifs <;> rfl
    | socketpair =>
      have hsv : (networkPayload enterEnv .socketpair args).peerFdPtr = args.sv := rfl
      unfold finishFds callFd
      dsimp only
      rw [hsv]
      by_cases hret : 0 ≤ ret
      · by_cases hnull : args.sv = 0
        · rw [if_pos hret, if_pos hnull, if_neg fun h => h.2 hnull]
          exact hfd
        · rw [if_pos hret, if_neg hnull, if_pos ⟨hret, hnull⟩]
          cases readFdPair env.mem args.sv with
          | some fds => rfl
          | none => exact hfd
      · rw [if_neg hret, if_neg fun h => hret h.1]
        exact hfd
    | _ =>
      unfold finishFds
      dsimp only
      split_ifs <;> exact hfd
  · obtain ⟨fd, peerFd, remoteEp, flowId, localEp, optLen, optvalPrefix, heq⟩ :=
      finishNetworkEvent_eq env kind ret (networkPayload enterEnv kind args)
    rw [heq]
    exact hdirection

end ETraceGen.Bpf
