import ETraceGen.Bpf.Records

/-!
# Leftover bytes

A ring buffer slot is handed out with what its last user left in it, and the handlers clear no more than the
first byte of each string. Two runs that differ in leftover bytes alone save and submit records that `Agree`:
every number in them is the same, and every string a consumer reads is, up to and with its NUL.

* `Agree` : on buffers, records, saved states and kernels;
* `handle_agree` : a hook keeps kernels in agreement, whatever its slot held;
* `run_agree` : the records of two runs that find different leftovers.
-/

namespace ETraceGen

/-! ## Strings in buffers -/

namespace CharBuf

variable {n : Nat} {a b : CharBuf n}

/-- The buffers hold the same string, and its NUL. -/
def Agree (a b : CharBuf n) : Prop :=
  ∃ k, ∃ hk : k < n, a[k] = 0 ∧ ∀ i (hi : i ≤ k), a[i] = b[i]

/-- The first `k` bytes are the same. -/
def AgreeBelow (a b : CharBuf n) (k : Nat) : Prop := ∀ i (h : i < n), i < k → a[i] = b[i]

theorem Agree.symm (h : Agree a b) : Agree b a := by
  obtain ⟨k, hk, hnul, heq⟩ := h
  exact ⟨k, hk, (heq k (le_refl k)).symm.trans hnul, fun i hi => (heq i hi).symm⟩

theorem Agree.mem (h : Agree a b) : 0 ∈ a.toList := by
  obtain ⟨k, hk, hnul, -⟩ := h
  rw [← hnul]
  exact Vector.mem_toList_iff.mpr (Vector.getElem_mem hk)

/-- Nothing behind the NUL is read. -/
theorem takeWhile_take {s : Bytes} {k : Nat} (h : s[k]? = some 0) :
    (s.take (k + 1)).takeWhile (· != 0) = s.takeWhile (· != 0) := by
  induction s generalizing k with
  | nil => rw [List.take_nil]
  | cons c s ih =>
    rw [List.take_succ_cons, List.takeWhile_cons, List.takeWhile_cons]
    cases k with
    | zero =>
      obtain rfl : c = 0 := by simpa using h
      rfl
    | succ k => rw [ih (by simpa using h)]

theorem Agree.cstr (h : Agree a b) : a.cstr = b.cstr := by
  have hsym := h.symm
  obtain ⟨k, hk, hnul, heq⟩ := h
  have hnul' : b[k] = 0 := (heq k (le_refl k)).symm.trans hnul
  have htake : a.toList.take (k + 1) = b.toList.take (k + 1) := by
    apply List.ext_getElem
    · simp
    · intro i hi hi'
      have hle : i ≤ k := by
        rw [List.length_take] at hi
        omega
      simpa using heq i hle
  unfold CharBuf.cstr
  rw [← takeWhile_take (s := a.toList) (k := k), htake, takeWhile_take]
  · simpa [hk] using hnul'
  · simpa [hk] using hnul

theorem Agree.head (h : Agree a b) (hn : 0 < n) : a[0] = b[0] := by
  obtain ⟨k, hk, -, heq⟩ := h
  exact heq 0 (Nat.zero_le k)

/-! ### Writing -/

theorem agreeBelow_zero (a b : CharBuf n) : AgreeBelow a b 0 := fun i _ hi => absurd hi (Nat.not_lt_zero i)

theorem AgreeBelow.mono {k m : Nat} (h : AgreeBelow a b k) (hm : m ≤ k) : AgreeBelow a b m :=
  fun i hi him => h i hi (Nat.lt_of_lt_of_le him hm)

theorem AgreeBelow.set {k : Nat} (h : AgreeBelow a b k) (c : UInt8) :
    AgreeBelow (a.setIfInBounds k c) (b.setIfInBounds k c) (k + 1) := by
  intro i hi hik
  rw [Vector.getElem_setIfInBounds, Vector.getElem_setIfInBounds]
  split_ifs with hki
  · rfl
  · exact h i hi (by omega)

theorem AgreeBelow.set_nul {k : Nat} (h : AgreeBelow a b k) (hk : k < n) :
    Agree (a.setIfInBounds k 0) (b.setIfInBounds k 0) := by
  refine ⟨k, hk, ?_, fun i hi => h.set 0 i (by omega) (by omega)⟩
  rw [Vector.getElem_setIfInBounds, if_pos rfl]

/-- A NUL written anywhere keeps the agreement. -/
theorem Agree.set_nul (h : Agree a b) (m : Nat) :
    Agree (a.setIfInBounds m 0) (b.setIfInBounds m 0) := by
  obtain ⟨k, hk, hnul, heq⟩ := h
  by_cases hm : m ≤ k
  · have hbelow : AgreeBelow a b m := fun i _ him => heq i (by omega)
    exact hbelow.set_nul (by omega)
  · refine ⟨k, hk, ?_, fun i hi => ?_⟩
    · rw [Vector.getElem_setIfInBounds, if_neg (by omega), hnul]
    · rw [Vector.getElem_setIfInBounds, Vector.getElem_setIfInBounds, if_neg (by omega),
        if_neg (by omega), heq i hi]

end CharBuf

/-! ## Records that agree -/

/-- Everything but the path is the same, and so is the path as a string. -/
structure NetworkEndpoint.Agree (a b : NetworkEndpoint) : Prop where
  eq : a = { b with path := a.path }
  path : a.path.Agree b.path

/-- Of the strings in a process record, `exec_path` is the one that is read. -/
structure ProcessEvent.Agree (a b : ProcessEvent) : Prop where
  eq : a = { b with
    filename := a.filename
    execPath := a.execPath
    cmdline := a.cmdline
    cwd := a.cwd
    parentComm := a.parentComm }
  execPath : a.execPath.Agree b.execPath

structure FileEvent.Agree (a b : FileEvent) : Prop where
  eq : a = { b with pathA := a.pathA, pathB := a.pathB }
  pathA : a.pathA.Agree b.pathA
  pathB : a.pathB.Agree b.pathB

structure NetworkEvent.Agree (a b : NetworkEvent) : Prop where
  eq : a = { b with localEp := a.localEp, remoteEp := a.remoteEp }
  localEp : a.localEp.Agree b.localEp
  remoteEp : a.remoteEp.Agree b.remoteEp

inductive EventVariant.Agree : EventVariant → EventVariant → Prop where
  | process {a b : ProcessEvent} (h : a.Agree b) : Agree (.process a) (.process b)
  | file {a b : FileEvent} (h : a.Agree b) : Agree (.file a) (.file b)
  | syscall (ev : SyscallEvent) : Agree (.syscall ev) (.syscall ev)
  | network {a b : NetworkEvent} (h : a.Agree b) : Agree (.network a) (.network b)

namespace Bpf

open CharBuf (Agree AgreeBelow)

/-- A string written with its NUL hides what was there. -/
theorem overwrite_agree {n : Nat} (dst dst' : CharBuf n) {s : Bytes} (h : s.length < n) :
    Agree (overwrite dst (s ++ [0])) (overwrite dst' (s ++ [0])) := by
  refine ⟨s.length, h, ?_, fun i hi => ?_⟩
  · simp [overwrite]
  · have hlen : i < (s ++ [0]).length := by
      rw [List.length_append, List.length_singleton]
      omega
    simp only [overwrite, Vector.getElem_ofFn, List.getD_eq_getElem?_getD,
      List.getElem?_eq_getElem hlen, Option.getD_some]

theorem clear_agree {n : Nat} (dst dst' : CharBuf (n + 1)) :
    Agree (overwrite dst [0]) (overwrite dst' [0]) :=
  overwrite_agree (s := []) dst dst' (Nat.succ_pos n)

theorem overwriteStr_agree {n : Nat} (dst dst' : CharBuf (n + 1)) (s : Bytes) :
    Agree (overwriteStr dst s) (overwriteStr dst' s) := by
  refine overwrite_agree dst dst' ?_
  rw [List.length_take]
  omega

theorem copyUserPath_agree (mem : UserMem) (dst dst' : CharBuf pathLen) (userPtr : UInt64) :
    Agree (copyUserPath mem dst userPtr) (copyUserPath mem dst' userPtr) := by
  unfold copyUserPath
  split_ifs
  · exact clear_agree dst dst'
  · split
    · exact overwriteStr_agree dst dst' _
    · exact clear_agree dst dst'

/-! ## Endpoints -/

section Endpoint
variable (mem : UserMem) (un : CharBuf unixPathLen) (nameLen : Nat)

theorem unCopyAbstract_agree (left i : Nat) {dst dst' : CharBuf unixPathLen} {outIdx : Nat}
    (h : AgreeBelow dst dst' outIdx) :
    ∃ path path' m, unCopyAbstract un nameLen left i dst outIdx = (path, m) ∧
      unCopyAbstract un nameLen left i dst' outIdx = (path', m) ∧ m ≤ outIdx + left ∧
      AgreeBelow path path' m := by
  induction left generalizing i dst dst' outIdx with
  | zero => exact ⟨dst, dst', outIdx, rfl, rfl, le_refl _, h⟩
  | succ left ih =>
    simp only [unCopyAbstract]
    split_ifs
    · exact ⟨dst, dst', outIdx, rfl, rfl, Nat.le_add_right _ _, h⟩
    · exact ⟨dst, dst', outIdx, rfl, rfl, Nat.le_add_right _ _, h⟩
    · obtain ⟨path, path', m, hpath, hpath', hm, hbelow⟩ := ih (i + 1) (h.set (un.getD i 0))
      exact ⟨path, path', m, hpath, hpath', by omega, hbelow⟩

/-- The copy of a pathname has come to a NUL, or to the end of the name or of the buffer. -/
theorem unCopyPath_agree (left i : Nat) {dst dst' : CharBuf unixPathLen} (h : AgreeBelow dst dst' i)
    (hi : i + left < unixPathLen) :
    Agree (unCopyPath un nameLen left i dst) (unCopyPath un nameLen left i dst') ∨
      AgreeBelow (unCopyPath un nameLen left i dst) (unCopyPath un nameLen left i dst')
        (min nameLen (i + left)) := by
  induction left generalizing i dst dst' with
  | zero => exact Or.inr (h.mono (by omega))
  | succ left ih =>
    simp only [unCopyPath]
    split_ifs
    · exact Or.inr (h.mono (by omega))
    · exact Or.inl (h.set_nul (by omega))
    · have hnext := ih (i + 1) (h.set (un.getD i 0)) (by omega)
      rwa [Nat.add_right_comm, Nat.add_assoc] at hnext

theorem copyUnixSockaddrPath_agree {a b : NetworkEndpoint} (h : a.Agree b) :
    (copyUnixSockaddrPath un nameLen a).Agree (copyUnixSockaddrPath un nameLen b) := by
  have hpath : ∀ {p q : CharBuf unixPathLen}, Agree p q →
      NetworkEndpoint.Agree { a with path := p } { b with path := q } :=
    fun hpq => ⟨by rw [h.eq], hpq⟩
  unfold copyUnixSockaddrPath
  split_ifs with hempty hnul hname hlong
  · exact h
  · obtain ⟨path, path', m, hp, hp', hm, hbelow⟩ := unCopyAbstract_agree un nameLen (unixPathLen - 2) 1
      ((CharBuf.agreeBelow_zero a.path b.path).set 64)
    simp only [hp, hp']
    refine hpath (hbelow.set_nul ?_)
    unfold unixPathLen at hm ⊢
    omega
  · exact h
  · refine hpath ?_
    rcases unCopyPath_agree un nameLen (unixPathLen - 1) 0 (CharBuf.agreeBelow_zero a.path b.path)
      (by decide) with hdone | hbelow
    · exact hdone.set_nul _
    · exact (hbelow.mono (by omega)).set_nul (by decide)
  · refine hpath ?_
    rcases unCopyPath_agree un nameLen (unixPathLen - 1) 0 (CharBuf.agreeBelow_zero a.path b.path)
      (by decide) with hdone | hbelow
    · exact hdone.set_nul _
    · exact (hbelow.mono (by omega)).set_nul (by omega)

/-- Nothing of an endpoint that is reset survives. -/
theorem resetNetworkEndpoint_agree (a b : NetworkEndpoint) :
    (resetNetworkEndpoint a).Agree (resetNetworkEndpoint b) :=
  ⟨rfl, clear_agree a.path b.path⟩

theorem parseSockaddrUser_agree (userPtr : UInt64) (len : UInt32) (a b : NetworkEndpoint) :
    (parseSockaddrUser mem userPtr len a).Agree (parseSockaddrUser mem userPtr len b) := by
  have hreset := (resetNetworkEndpoint_agree a b).path
  unfold parseSockaddrUser
  dsimp only
  split_ifs
  · exact ⟨rfl, hreset⟩
  · split
    · exact ⟨rfl, hreset⟩
    · split_ifs
      · split <;> exact ⟨rfl, hreset⟩
      · split <;> exact ⟨rfl, hreset⟩
      · split
        · exact copyUnixSockaddrPath_agree _ _ ⟨rfl, hreset⟩
        · exact ⟨rfl, hreset⟩
      · exact ⟨rfl, hreset⟩

end Endpoint

/-! ## Fresh records -/

/-- The surroundings with something else left in the slots. -/
def HookEnv.withLeftover (l : Leftover) (env : HookEnv) : HookEnv := { env with leftover := l }

section Fresh
variable (env : HookEnv) (l : Leftover)

theorem setChildPid_agree (ret : Int64) {a b : ProcessEvent} (h : a.Agree b) :
    (setChildPid ret a).Agree (setChildPid ret b) := by
  unfold setChildPid
  split_ifs
  · rw [h.eq]
    exact ⟨rfl, h.execPath⟩
  · exact h

theorem processRecord_agree (hook : Hook) (kind : ProcessEventKind) :
    (processRecord (env.withLeftover l) hook kind).Agree (processRecord env hook kind) := by
  have hfresh : (freshProcessEvent (env.withLeftover l) kind).Agree (freshProcessEvent env kind) :=
    ⟨rfl, clear_agree _ _⟩
  unfold processRecord
  cases hook with
  | schedExec filename =>
    cases filename with
    | some path => exact ⟨rfl, overwriteStr_agree _ _ path⟩
    | none => exact hfresh
  | schedFork childPid => exact ⟨rfl, hfresh.execPath⟩
  | schedExit => exact ⟨rfl, hfresh.execPath⟩
  | exitClone ret => exact setChildPid_agree ret hfresh
  | exitClone3 ret => exact setChildPid_agree ret hfresh
  | exitVfork ret => exact setChildPid_agree ret hfresh
  | _ => exact hfresh

theorem filePayload_agree (kind : FileEventKind) (args : SyscallArgs) :
    (filePayload (env.withLeftover l) kind args).Agree (filePayload env kind args) := by
  cases kind with
  | openat => exact ⟨rfl, copyUserPath_agree _ _ _ _, clear_agree _ _⟩
  | unlinkat => exact ⟨rfl, copyUserPath_agree _ _ _ _, clear_agree _ _⟩
  | renameat2 => exact ⟨rfl, copyUserPath_agree _ _ _ _, copyUserPath_agree _ _ _ _⟩

theorem finishFileEvent_agree (ret : Int64) {a b : FileEvent} (h : a.Agree b) :
    (finishFileEvent (env.withLeftover l) ret a).Agree (finishFileEvent env ret b) := by
  obtain ⟨heq, hA, hB⟩ := h
  rw [heq]
  exact ⟨rfl, hA, hB⟩

end Fresh

/-! ## Network payloads -/

/-- The pointers kept for the exit are the same. -/
structure NetworkStateValue.Agree (a b : NetworkStateValue) : Prop where
  eq : a = { b with ev := a.ev }
  ev : a.ev.Agree b.ev

section Network
variable (env : HookEnv)

/-- Filling in what is no endpoint. -/
theorem fillMsghdr_agree (msg : UInt64) {a b : NetworkEvent} (h : a.Agree b) :
    (fillMsghdr env msg a).Agree (fillMsghdr env msg b) := by
  unfold fillMsghdr
  obtain ⟨heq, hl, hr⟩ := h
  rw [heq]
  split_ifs
  · exact ⟨rfl, hl, hr⟩
  · split
    · exact ⟨rfl, hl, hr⟩
    · dsimp only
      split_ifs
      · exact ⟨rfl, hl, parseSockaddrUser_agree _ _ _ _ _⟩
      · exact ⟨rfl, hl, hr⟩

theorem fillNetwork_agree (args : SyscallArgs) (kind : NetworkEventKind) {a b : NetworkStateValue}
    (h : a.Agree b) : (fillNetwork env args kind a).Agree (fillNetwork env args kind b) := by
  obtain ⟨hstate, hev⟩ := h
  rw [hstate]
  generalize a.ev = ev at hev
  obtain ⟨heq, hl, hr⟩ := hev
  rw [heq]
  cases kind with
  | connect => exact ⟨rfl, rfl, hl, parseSockaddrUser_agree _ _ _ _ _⟩
  | bind => exact ⟨rfl, rfl, parseSockaddrUser_agree _ _ _ _ _, hr⟩
  | sendto => exact ⟨rfl, rfl, hl, parseSockaddrUser_agree _ _ _ _ _⟩
  | sendmsg => exact ⟨rfl, fillMsghdr_agree env _ ⟨rfl, hl, hr⟩⟩
  | recvmsg => exact ⟨rfl, fillMsghdr_agree env _ ⟨rfl, hl, hr⟩⟩
  | _ => exact ⟨rfl, rfl, hl, hr⟩

theorem networkPayload_agree (l : Leftover) (kind : NetworkEventKind) (args : SyscallArgs) :
    (networkPayload (env.withLeftover l) kind args).Agree (networkPayload env kind args) := by
  have hsame : fillNetwork (env.withLeftover l) args kind = fillNetwork env args kind := by
    cases kind <;> rfl
  unfold networkPayload
  rw [hsame]
  exact fillNetwork_agree env args kind
    ⟨rfl, rfl, resetNetworkEndpoint_agree _ _, resetNetworkEndpoint_agree _ _⟩

/-! ### Finishing -/

variable (kind : NetworkEventKind) (ret : Int64) {a b : NetworkEvent} (state : NetworkStateValue)

theorem finishFds_agree (h : a.Agree b) :
    (finishFds env kind ret state a).Agree (finishFds env kind ret state b) := by
  obtain ⟨heq, hl, hr⟩ := h
  rw [heq]
  cases kind with
  | socketpair =>
    unfold finishFds
    dsimp only
    split_ifs
    · exact ⟨rfl, hl, hr⟩
    · split <;> exact ⟨rfl, hl, hr⟩
    · exact ⟨rfl, hl, hr⟩
  | _ =>
    unfold finishFds
    dsimp only
    split_ifs <;> exact ⟨rfl, hl, hr⟩

theorem finishRemote_agree (h : a.Agree b) :
    (finishRemote env kind ret state a).Agree (finishRemote env kind ret state b) := by
  unfold finishRemote
  split_ifs
  · rw [h.eq]
    exact ⟨rfl, h.localEp, parseSockaddrUser_agree _ _ _ _ _⟩
  · exact h

theorem finishBytes_agree (h : a.Agree b) :
    (finishBytes env kind ret state a).Agree (finishBytes env kind ret state b) := by
  rw [finishBytes_eq, finishBytes_eq, h.eq]
  exact ⟨rfl, h.localEp, h.remoteEp⟩

/-- The identity that is hashed has the addresses in it, and no path. -/
theorem computeNetworkFlowId_agree (h : a.Agree b) :
    computeNetworkFlowId env a = computeNetworkFlowId env b := by
  unfold computeNetworkFlowId networkFlowIdentity addrWord
  rw [h.eq, h.localEp.eq, h.remoteEp.eq]

theorem finishFlow_agree (h : a.Agree b) : (finishFlow env a).Agree (finishFlow env b) := by
  have hid : a.flowId = b.flowId := by rw [h.eq]
  unfold finishFlow
  rw [hid, computeNetworkFlowId_agree env h]
  split_ifs
  · rw [h.eq]
    exact ⟨rfl, h.localEp, h.remoteEp⟩
  · exact h

theorem finishLocal_agree (h : a.Agree b) :
    (finishLocal env kind ret state a).Agree (finishLocal env kind ret state b) := by
  unfold finishLocal
  split_ifs
  · rw [h.eq]
    exact ⟨rfl, parseSockaddrUser_agree _ _ _ _ _, h.remoteEp⟩
  · exact h

theorem finishOption_agree (h : a.Agree b) :
    (finishOption env kind ret state a).Agree (finishOption env kind ret state b) := by
  obtain ⟨heq, hl, hr⟩ := h
  rw [heq]
  unfold finishOption
  cases env.mem.readU32 state.optlenPtr <;> dsimp only <;> split_ifs <;> exact ⟨rfl, hl, hr⟩

theorem finishNetworkEvent_agree (l : Leftover) {s s' : NetworkStateValue} (h : s.Agree s') :
    (finishNetworkEvent (env.withLeftover l) kind ret s).Agree (finishNetworkEvent env kind ret s') := by
  obtain ⟨hstate, hev⟩ := h
  have hstamped : NetworkEvent.Agree
      { s.ev with hdr := { s.ev.hdr with tsNs := env.ktimeExit }, ret := ret.toInt32 }
      { s'.ev with hdr := { s'.ev.hdr with tsNs := env.ktimeExit }, ret := ret.toInt32 } := by
    obtain ⟨heq, hl, hr⟩ := hev
    rw [heq]
    exact ⟨rfl, hl, hr⟩
  rw [hstate]
  exact finishOption_agree env kind ret s' (finishLocal_agree env kind ret s' (finishFlow_agree env
    (finishBytes_agree env kind ret s' (finishRemote_agree env kind ret s'
      (finishFds_agree env kind ret s' hstamped)))))

end Network

/-! ## Kernels -/

structure Kernel.Agree (k k' : Kernel) : Prop where
  file : KeyedMap.Rel FileEvent.Agree k.fileEnterState k'.fileEnterState
  syscall : k.syscallEnterState = k'.syscallEnterState
  network : KeyedMap.Rel NetworkStateValue.Agree k.networkEnterState k'.networkEnterState
  sockets : k.socketFdState = k'.socketFdState
  records : List.Forall₂ EventVariant.Agree k.events.records k'.events.records

section Kernel
variable {k k' : Kernel} (h : k.Agree k')
include h

theorem Kernel.Agree.statInc (key : BpfStatKey) : (k.statInc key).Agree (k'.statInc key) :=
  ⟨h.file, h.syscall, h.network, h.sockets, h.records⟩

theorem Kernel.Agree.reserve : k.reserve.Agree k'.reserve :=
  ⟨h.file, h.syscall, h.network, h.sockets, by
    simpa only [Kernel.reserve, Ring.records_reserve] using h.records⟩

theorem Kernel.Agree.discard (slot slot' : Nat) : (k.discard slot).Agree (k'.discard slot') :=
  ⟨h.file, h.syscall, h.network, h.sockets, by
    simpa only [Kernel.discard, Ring.records_discard] using h.records⟩

theorem Kernel.Agree.submit (slot slot' : Nat) {a b : EventVariant} (hab : a.Agree b) :
    (k.submit slot a).Agree (k'.submit slot' b) :=
  ⟨h.file, h.syscall, h.network, h.sockets, by
    simpa only [Kernel.submit, Ring.records_submit] using
      List.rel_append h.records (List.Forall₂.cons hab .nil)⟩

variable (env : HookEnv) (l : Leftover)

theorem emitProcess_agree (maps : ProbeMaps) {hook : Hook} {kind : ProcessEventKind}
    (hkind : processKind? hook = some kind) :
    (handle maps (env.withLeftover l) hook k).Agree (handle maps env hook k') := by
  rw [handle_process maps _ hkind, handle_process maps _ hkind, emitProcess_eq, emitProcess_eq]
  change Kernel.Agree (if processGate maps env kind then if env.reserveOk then _ else _ else _)
    (if processGate maps env kind then if env.reserveOk then _ else _ else _)
  split_ifs
  · exact h.reserve.submit _ _ (.process (processRecord_agree env l hook kind))
  · exact h.statInc _
  · exact h

theorem saveFile_agree (kind : FileEventKind) (slot slot' : Nat) {a b : FileEvent} (hab : a.Agree b) :
    (saveFileEnterState env kind slot a k).Agree (saveFileEnterState env kind slot' b k') := by
  simp only [saveFileEnterState, h.file.isSome_eq]
  split_ifs
  · exact (h.statInc _).discard _ _
  · have hsaved : Kernel.Agree
        { k with fileEnterState := k.fileEnterState.insert (makeFileKey env kind) a }
        { k' with fileEnterState := k'.fileEnterState.insert (makeFileKey env kind) b } :=
      ⟨h.file.insert _ hab, h.syscall, h.network, h.sockets, h.records⟩
    exact hsaved.discard _ _
  · exact (h.statInc _).discard _ _

theorem saveSyscall_agree (nr : Int32) (slot slot' : Nat) (ev : SyscallEvent) :
    (saveSyscallEnterState env nr slot ev k).Agree (saveSyscallEnterState env nr slot' ev k') := by
  simp only [saveSyscallEnterState, h.syscall]
  split_ifs
  · exact (h.statInc _).discard _ _
  · have hsaved : Kernel.Agree
        { k with syscallEnterState := k'.syscallEnterState.insert (makeSyscallKey env nr) ev }
        { k' with syscallEnterState := k'.syscallEnterState.insert (makeSyscallKey env nr) ev } :=
      ⟨h.file, rfl, h.network, h.sockets, h.records⟩
    exact hsaved.discard _ _
  · exact (h.statInc _).discard _ _

theorem saveNetwork_agree (kind : NetworkEventKind) (slot slot' : Nat) {a b : NetworkStateValue}
    (hab : a.Agree b) :
    (saveNetworkEnterState env kind slot a k).Agree (saveNetworkEnterState env kind slot' b k') := by
  simp only [saveNetworkEnterState, h.network.isSome_eq]
  split_ifs
  · exact (h.statInc _).discard _ _
  · have hsaved : Kernel.Agree
        { k with networkEnterState := k.networkEnterState.insert (makeNetworkKey env kind) a }
        { k' with networkEnterState := k'.networkEnterState.insert (makeNetworkKey env kind) b } :=
      ⟨h.file, h.syscall, h.network.insert _ hab, h.sockets, h.records⟩
    exact hsaved.discard _ _
  · exact (h.statInc _).discard _ _

theorem trackSocketFds_agree (kind : NetworkEventKind) (ret : Int64) {a b : NetworkStateValue}
    (hab : a.Agree b) :
    (trackSocketFds env kind ret a k).socketFdState = (trackSocketFds env kind ret b k').socketFdState := by
  have hptr : a.peerFdPtr = b.peerFdPtr := by rw [hab.eq]
  have hfd : a.ev.fd = b.ev.fd := by rw [hab.ev.eq]
  unfold trackSocketFds addSocketFd deleteSocketFd
  rw [hptr, hfd]
  repeat' split
  all_goals simp_all [h.sockets]

theorem emitFile_agree (kind : FileEventKind) (ret : Int64) :
    (emitFileExitEvent (env.withLeftover l) kind ret k).Agree (emitFileExitEvent env kind ret k') := by
  rcases h.file.cases (makeFileKey env kind) with ⟨hk, hk'⟩ | ⟨a, b, hk, hk', hab⟩
  · rw [emitFileExitEvent_of_none (env.withLeftover l) ret hk, emitFileExitEvent_of_none env ret hk']
    exact h.statInc _
  · rw [emitFileExitEvent_of_some (env.withLeftover l) ret hk, emitFileExitEvent_of_some env ret hk']
    have hdone := h.reserve.submit k.events.next k'.events.next (.file (finishFileEvent_agree env l ret hab))
    change Kernel.Agree (if env.reserveOk then _ else _) (if env.reserveOk then _ else _)
    split_ifs
    · exact ⟨h.file.erase _, h.syscall, h.network, h.sockets, hdone.records⟩
    · exact ⟨h.file.erase _, h.syscall, h.network, h.sockets, h.records⟩

theorem emitSyscall_agree (nr : Int32) (ret : Int64) :
    (emitSyscallExitEvent (env.withLeftover l) nr ret k).Agree (emitSyscallExitEvent env nr ret k') := by
  cases hk' : k'.syscallEnterState.lookup (makeSyscallKey env nr) with
  | none =>
    have hk : k.syscallEnterState.lookup (makeSyscallKey env nr) = none := h.syscall ▸ hk'
    rw [emitSyscallExitEvent_of_none (env.withLeftover l) ret hk, emitSyscallExitEvent_of_none env ret hk']
    exact h.statInc _
  | some ev =>
    have hk : k.syscallEnterState.lookup (makeSyscallKey env nr) = some ev := h.syscall ▸ hk'
    rw [emitSyscallExitEvent_of_some (env.withLeftover l) ret hk, emitSyscallExitEvent_of_some env ret hk']
    have hdone := h.reserve.submit k.events.next k'.events.next (.syscall (finishSyscallEvent env ret ev))
    have herase : k.syscallEnterState.erase (makeSyscallKey env nr) =
        k'.syscallEnterState.erase (makeSyscallKey env nr) := by rw [h.syscall]
    change Kernel.Agree (if env.reserveOk then _ else _) (if env.reserveOk then _ else _)
    split_ifs
    · exact ⟨h.file, herase, h.network, h.sockets, hdone.records⟩
    · exact ⟨h.file, herase, h.network, h.sockets, h.records⟩

theorem emitNetwork_agree (kind : NetworkEventKind) (ret : Int64) :
    (emitNetworkExitEvent (env.withLeftover l) kind ret k).Agree (emitNetworkExitEvent env kind ret k') := by
  rcases h.network.cases (makeNetworkKey env kind) with ⟨hk, hk'⟩ | ⟨a, b, hk, hk', hab⟩
  · rw [emitNetworkExitEvent_of_none (env.withLeftover l) ret hk, emitNetworkExitEvent_of_none env ret hk']
    exact h.statInc _
  · rw [emitNetworkExitEvent_of_some (env.withLeftover l) ret hk, emitNetworkExitEvent_of_some env ret hk']
    have hdone := h.reserve.submit k.events.next k'.events.next
      (.network (finishNetworkEvent_agree env kind ret l hab))
    have hsockets := trackSocketFds_agree h env kind ret hab
    change Kernel.Agree (if env.reserveOk then _ else _) (if env.reserveOk then _ else _)
    split_ifs
    · exact ⟨h.file, h.syscall, h.network.erase _, hsockets, hdone.records⟩
    · exact ⟨h.file, h.syscall, h.network.erase _, h.sockets, h.records⟩

theorem isSocketFd_agree (fd : Int32) : isSocketFd env fd k = isSocketFd env fd k' := by
  unfold isSocketFd
  rw [h.sockets]

/-- A hook keeps kernels in agreement, whatever its slots held. -/
theorem handle_agree (maps : ProbeMaps) (hook : Hook) :
    (handle maps (env.withLeftover l) hook k).Agree (handle maps env hook k') := by
  cases hook with
  | enterFile kind args =>
    simp only [handle, handleEnterFile_eq, enterFile_eq]
    change Kernel.Agree (if fileGate maps env kind then if env.reserveOk then _ else _ else _)
      (if fileGate maps env kind then if env.reserveOk then _ else _ else _)
    split_ifs
    · exact saveFile_agree h.reserve env kind _ _ (filePayload_agree env l kind args)
    · exact h.statInc _
    · exact h
  | exitFile kind ret =>
    simp only [handle, handleExitFile_eq, exitFile_eq]
    change Kernel.Agree (if fileGate maps env kind then _ else _) (if fileGate maps env kind then _ else _)
    split_ifs
    · exact emitFile_agree h env l kind ret
    · exact h
  | rawEnter nr args =>
    simp only [handle, onRawSysEnter_eq]
    change Kernel.Agree (if syscallGate maps env then if env.reserveOk then _ else _ else _)
      (if syscallGate maps env then if env.reserveOk then _ else _ else _)
    split_ifs
    · exact saveSyscall_agree h.reserve env nr _ _ _
    · exact h.statInc _
    · exact h
  | rawExit nr ret =>
    simp only [handle, onRawSysExit_eq]
    change Kernel.Agree (if syscallGate maps env then _ else _) (if syscallGate maps env then _ else _)
    split_ifs
    · exact emitSyscall_agree h env l nr ret
    · exact h
  | enterNetwork kind args =>
    have hgate : networkEnterGate maps env kind args k = networkEnterGate maps env kind args k' := by
      unfold networkEnterGate
      simp only [isSocketFd_agree h env]
    simp only [handle, handleEnterNetwork_eq, enterNetwork_eq, ← hgate]
    change Kernel.Agree
      (if networkEnterGate maps env kind args k then
        if env.reserveOk then if env.scratchOk then _ else _ else _ else _)
      (if networkEnterGate maps env kind args k then
        if env.reserveOk then if env.scratchOk then _ else _ else _ else _)
    split_ifs
    · exact saveNetwork_agree h.reserve env kind _ _ (networkPayload_agree env l kind args)
    · exact h.reserve.discard _ _
    · exact h.statInc _
    · exact h
  | exitNetwork kind ret =>
    simp only [handle, handleExitNetwork_eq, exitNetwork_eq]
    change Kernel.Agree (if networkGate maps env kind then _ else _)
      (if networkGate maps env kind then _ else _)
    split_ifs
    · exact emitNetwork_agree h env l kind ret
    · exact h
  | _ => exact emitProcess_agree h env l maps rfl

end Kernel

/-! ## Runs -/

/-- The same step with something else left in the slots. -/
def Step.withLeftover (l : Leftover) : Step → Step
  | .deliver env hook => .deliver (env.withLeftover l) hook
  | step => step

theorem exec_agree (maps : ProbeMaps) {k k' : Kernel} (h : k.Agree k') (l l' : Leftover) (step : Step) :
    (exec maps k (step.withLeftover l)).Agree (exec maps k' (step.withLeftover l')) := by
  cases step with
  | deliver env hook => exact handle_agree h (env.withLeftover l') l maps hook
  | absent pidTgid hook => exact h
  | evictFile key => exact ⟨h.file.erase key, h.syscall, h.network, h.sockets, h.records⟩
  | evictSyscall key =>
    have herase : k.syscallEnterState.erase key = k'.syscallEnterState.erase key := by rw [h.syscall]
    exact ⟨h.file, herase, h.network, h.sockets, h.records⟩
  | evictNetwork key => exact ⟨h.file, h.syscall, h.network.erase key, h.sockets, h.records⟩

/-- The run in which the slots of step `i` were left holding `left i`. -/
def refill (left : Nat → Leftover) (steps : List Step) : List Step :=
  steps.mapIdx fun i step => step.withLeftover (left i)

theorem run_agree (maps : ProbeMaps) (left left' : Nat → Leftover) (steps : List Step) :
    (run maps (refill left steps)).Agree (run maps (refill left' steps)) := by
  induction steps using List.reverseRecOn with
  | nil => exact ⟨.empty, rfl, .empty, rfl, .nil⟩
  | append_singleton steps step ih =>
    unfold refill at ih ⊢
    rw [List.mapIdx_concat, List.mapIdx_concat, run_snoc, run_snoc]
    exact exec_agree maps ih _ _ step

end Bpf

end ETraceGen
