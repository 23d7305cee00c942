import ETraceGen.Bpf.Provenance

/-!
# The records of a run

Every record on the ring buffer was submitted by one hook: a process hook writes it at once, and an exit
hook finishes what an enter of the same task, delivered before, has saved.

* `Source` : how a hook makes a record, from the steps before it;
* `exec_records` : a step submits one record at most, and `mem_records` what all of them are;
* `Source.envelope`, `Source.selfNamed` : the record is about the task that hit the hook, and names itself.
-/

namespace ETraceGen.Bpf

/-! ## Process records -/

/-- What a process handler writes into its fresh record. -/
def fillProcess (env : HookEnv) : Hook → ProcessEvent → ProcessEvent
  | .schedExec (some path), ev => { ev with execPath := overwriteStr ev.execPath path }
  | .schedFork childPid, ev => { ev with childPid := childPid }
  | .schedExit, ev => { ev with exitCode := env.exitCode }
  | .exitClone ret, ev | .exitClone3 ret, ev | .exitVfork ret, ev => setChildPid ret ev
  | _, ev => ev

def processRecord (env : HookEnv) (hook : Hook) (kind : ProcessEventKind) : ProcessEvent :=
  fillProcess env hook (freshProcessEvent env kind)

section
variable (maps : ProbeMaps) (env : HookEnv) {hook : Hook} {kind : ProcessEventKind}

theorem handle_process (h : processKind? hook = some kind) :
    handle maps env hook = emitProcess maps env kind (fillProcess env hook) := by
  cases hook with
  | schedExec filename =>
    cases h
    cases filename <;> rfl
  | schedFork childPid => cases h; rfl
  | schedExit => cases h; rfl
  | exitClone ret => cases h; rfl
  | exitClone3 ret => cases h; rfl
  | exitVfork ret => cases h; rfl
  | _ => cases h

theorem handle_process_records (h : processKind? hook = some kind) (k : Kernel) :
    (handle maps env hook k).events.records =
      k.events.records ++
        if processGate maps env kind && env.reserveOk then [.process (processRecord env hook kind)]
        else [] := by
  rw [handle_process maps env h, emitProcess_eq, ← processGate]
  cases processGate maps env kind <;> cases env.reserveOk <;>
    simp [processRecord, Kernel.reserve, Kernel.submit, Kernel.statInc]

/-- Saving a payload submits nothing. -/
theorem handle_enter_records {slot : Slot} (h : hook.entered? = some slot) (k : Kernel) :
    (handle maps env hook k).events.records = k.events.records := by
  cases hook with
  | enterFile kind args =>
    rw [handle, handleEnterFile_eq, enterFile_eq]
    unfold saveFileEnterState
    dsimp only
    split_ifs <;> simp [Kernel.reserve, Kernel.discard, Kernel.statInc]
  | rawEnter nr args =>
    rw [handle, onRawSysEnter_eq]
    unfold saveSyscallEnterState
    dsimp only
    split_ifs <;> simp [Kernel.reserve, Kernel.discard, Kernel.statInc]
  | enterNetwork kind args =>
    rw [handle, handleEnterNetwork_eq, enterNetwork_eq]
    unfold saveNetworkEnterState
    dsimp only
    split_ifs <;> simp [Kernel.reserve, Kernel.discard, Kernel.statInc]
  | _ => cases h

end

/-! ## Sources -/

/-- The record a hook makes, after the given steps. -/
inductive Source (before : List Step) (env : HookEnv) (hook : Hook) : EventVariant → Prop where
  | process {kind : ProcessEventKind} (h : processKind? hook = some kind) :
    Source before env hook (.process (processRecord env hook kind))
  | paired {enterEnv : HookEnv} {enter : Hook} {slot : Slot} {record : EventVariant}
    (hmem : .deliver enterEnv enter ∈ before) (htask : enterEnv.pidTgid = env.pidTgid)
    (henter : enter.entered? = some slot) (hexit : hook.exited? = some slot)
    (hmade : makeRecord enterEnv enter env hook = some record) : Source before env hook record

theorem processKind?_of_exited {hook : Hook} {slot : Slot} (h : hook.exited? = some slot) :
    processKind? hook = none := by
  cases hook <;> first | rfl | cases h

/-- A hook begins a call, completes one, or reports on its process. -/
theorem Hook.kinds (hook : Hook) :
    (∃ slot, hook.entered? = some slot) ∨ (∃ slot, hook.exited? = some slot) ∨
      ∃ kind, processKind? hook = some kind := by
  cases hook with
  | enterFile kind args => exact Or.inl ⟨_, rfl⟩
  | rawEnter nr args => exact Or.inl ⟨_, rfl⟩
  | enterNetwork kind args => exact Or.inl ⟨_, rfl⟩
  | exitFile kind ret => exact Or.inr (Or.inl ⟨_, rfl⟩)
  | rawExit nr ret => exact Or.inr (Or.inl ⟨_, rfl⟩)
  | exitNetwork kind ret => exact Or.inr (Or.inl ⟨_, rfl⟩)
  | _ => exact Or.inr (Or.inr ⟨_, rfl⟩)

section
variable {maps : ProbeMaps} {before : List Step} {env : HookEnv} {hook : Hook} {record : EventVariant}

/-- A stored payload was saved by an enter of its key. -/
theorem enter_of_stored {K P R : Type} [DecidableEq K] {c : Pairing.Client Kernel Step K P R}
    (h₀ : c.table {} = {}) {steps : List Step} {key : K} {payload : P}
    (h : (c.table (c.run {} steps)).pending.lookup key = some payload) :
    ∃ k, ∃ step ∈ steps, c.op k step = .enter key payload true := by
  obtain ⟨pre, step, post, rfl, hop, -⟩ := c.stored h₀ steps h
  exact ⟨_, step, by simp, hop⟩

theorem record_source
    (h : (run maps (before ++ [.deliver env hook])).events.records =
      (run maps before).events.records ++ [record]) :
    Source before env hook record := by
  rw [run_snoc] at h
  rcases hook.kinds with ⟨slot, henter⟩ | ⟨slot, hexit⟩ | ⟨kind, hkind⟩
  · rw [exec, handle_enter_records maps env henter] at h
    simp at h
  · cases hook with
    | exitFile kind ret =>
      obtain ⟨-, -, state, hs, rfl⟩ := record_of_exitFile h
      obtain ⟨k, step, hmem, hop⟩ := enter_of_stored (fileTable_init maps) hs
      obtain ⟨enterEnv, args, rfl, htask, rfl⟩ := fileOp_eq_enter maps hop
      exact .paired hmem htask rfl rfl rfl
    | rawExit nr ret =>
      obtain ⟨-, -, state, hs, rfl⟩ := record_of_rawExit h
      obtain ⟨k, step, hmem, hop⟩ := enter_of_stored (syscallTable_init maps) hs
      obtain ⟨enterEnv, args, rfl, htask, rfl⟩ := syscallOp_eq_enter maps hop
      exact .paired hmem htask rfl rfl rfl
    | exitNetwork kind ret =>
      obtain ⟨-, -, state, hs, rfl⟩ := record_of_exitNetwork h
      obtain ⟨k, step, hmem, hop⟩ := enter_of_stored (networkTable_init maps) hs
      obtain ⟨enterEnv, args, rfl, htask, rfl, -⟩ := networkOp_eq_enter maps hop
      exact .paired hmem htask rfl rfl rfl
    | _ => cases hexit
  · rw [exec, handle_process_records maps env hkind] at h
    have hnew := List.append_cancel_left h
    split_ifs at hnew
    obtain rfl := List.singleton_inj.mp hnew
    exact .process hkind

/-- A hook submits one record at most. -/
theorem exec_records (maps : ProbeMaps) (k : Kernel) (step : Step) :
    (exec maps k step).events.records = k.events.records ∨
      ∃ env hook record, step = .deliver env hook ∧
        (exec maps k step).events.records = k.events.records ++ [record] := by
  cases step with
  | deliver env hook =>
    have hring := (exec_moves maps k (.deliver env hook)).ring
    generalize hk : (exec maps k (.deliver env hook)).events = ring at hring
    cases hring with
    | untouched => exact Or.inl rfl
    | submitted record => exact Or.inr ⟨env, hook, record, rfl, by simp⟩
    | discarded => exact Or.inl (by simp)
  | _ => exact Or.inl rfl

/-- Only a process hook makes a process record. -/
theorem Source.processKind {ev : ProcessEvent} (h : Source before env hook (.process ev)) :
    ∃ kind, processKind? hook = some kind := by
  generalize hrecord : EventVariant.process ev = record at h
  cases h with
  | process hkind => exact ⟨_, hkind⟩
  | paired hmem htask henter hexit hmade =>
    unfold makeRecord at hmade
    split at hmade <;> cases hmade <;> cases hrecord

/-- The hook writes this process record. -/
structure WritesProcess (maps : ProbeMaps) (env : HookEnv) (hook : Hook) (kind : ProcessEventKind)
    (ev : ProcessEvent) : Prop where
  of_kind : processKind? hook = some kind
  gate : processGate maps env kind = true
  reserved : env.reserveOk = true
  record : ev = processRecord env hook kind

theorem process_mem_exec {step : Step} {ev : ProcessEvent} :
    .process ev ∈ (run maps (before ++ [step])).events.records ↔
      .process ev ∈ (run maps before).events.records ∨
        ∃ env hook kind, step = .deliver env hook ∧ WritesProcess maps env hook kind ev := by
  have hquiet : (∀ env hook kind, step = .deliver env hook → processKind? hook ≠ some kind) →
      (.process ev ∈ (run maps (before ++ [step])).events.records ↔
        .process ev ∈ (run maps before).events.records ∨
          ∃ env hook kind, step = .deliver env hook ∧ WritesProcess maps env hook kind ev) := by
    intro hno
    have hwrites : ¬∃ env hook kind, step = .deliver env hook ∧ WritesProcess maps env hook kind ev := by
      rintro ⟨env, hook, kind, hstep, hw⟩
      exact hno env hook kind hstep hw.of_kind
    rw [or_iff_left hwrites]
    rcases exec_records maps (run maps before) step with hsame | ⟨env, hook, new, rfl, hnew⟩
    · rw [run_snoc, hsame]
    · rw [← run_snoc] at hnew
      have hne : .process ev ≠ new := by
        rintro rfl
        obtain ⟨kind, hkind⟩ := (record_source hnew).processKind
        exact hno env hook kind rfl hkind
      rw [hnew, List.mem_append, List.mem_singleton, or_iff_left hne]
  cases step with
  | deliver env hook =>
    cases hkind : processKind? hook with
    | none =>
      refine hquiet fun env' hook' kind' hstep h => ?_
      cases hstep
      cases hkind.symm.trans h
    | some kind =>
      rw [run_snoc, exec, handle_process_records maps env hkind, List.mem_append]
      refine or_congr_right ⟨fun h => ?_, ?_⟩
      · split_ifs at h with hok
        · obtain ⟨hgate, hreserve⟩ := Bool.and_eq_true_iff.mp hok
          obtain rfl := EventVariant.process.inj (List.mem_singleton.mp h)
          exact ⟨env, hook, kind, rfl, hkind, hgate, hreserve, rfl⟩
        · cases h
      · rintro ⟨env', hook', kind', hstep, hkind', hgate, hreserve, rfl⟩
        cases hstep
        obtain rfl := Option.some.inj (hkind.symm.trans hkind')
        rw [hgate, hreserve]
        exact List.mem_singleton_self _
  | _ => exact hquiet fun env hook kind hstep => by cases hstep

/-- **The process records of a run** are those its process hooks write. -/
theorem mem_process_records {steps : List Step} {ev : ProcessEvent} :
    .process ev ∈ (run maps steps).events.records ↔
      ∃ env hook kind, .deliver env hook ∈ steps ∧ WritesProcess maps env hook kind ev := by
  induction steps using List.reverseRecOn with
  | nil => simp [run, Ring.records]
  | append_singleton steps step ih =>
    rw [process_mem_exec, ih]
    simp only [List.mem_append, List.mem_singleton]
    constructor
    · rintro (⟨env, hook, kind, hmem, hw⟩ | ⟨env, hook, kind, rfl, hw⟩)
      · exact ⟨env, hook, kind, Or.inl hmem, hw⟩
      · exact ⟨env, hook, kind, Or.inr rfl, hw⟩
    · rintro ⟨env, hook, kind, hmem | rfl, hw⟩
      · exact Or.inl ⟨env, hook, kind, hmem, hw⟩
      · exact Or.inr ⟨env, hook, kind, rfl, hw⟩

/-- A run adds to the records of every run it continues. -/
theorem records_run_append (maps : ProbeMaps) (steps more : List Step) :
    ∃ new, (run maps (steps ++ more)).events.records = (run maps steps).events.records ++ new := by
  induction more using List.reverseRecOn with
  | nil => exact ⟨[], by rw [List.append_nil, List.append_nil]⟩
  | append_singleton more step ih =>
    obtain ⟨new, hnew⟩ := ih
    rw [← List.append_assoc, run_snoc]
    rcases exec_records maps (run maps (steps ++ more)) step with hsame | ⟨env, hook, record, -, hmore⟩
    · exact ⟨new, hsame.trans hnew⟩
    · exact ⟨new ++ [record], by rw [hmore, hnew, List.append_assoc]⟩

/-- A record on the ring buffer was submitted by one of the hooks delivered. -/
theorem mem_records_submitted {steps : List Step} (h : record ∈ (run maps steps).events.records) :
    ∃ before env hook after, steps = before ++ .deliver env hook :: after ∧
      (run maps (before ++ [.deliver env hook])).events.records =
        (run maps before).events.records ++ [record] := by
  induction steps using List.reverseRecOn with
  | nil => simp [run, Ring.records] at h
  | append_singleton steps step ih =>
    rcases exec_records maps (run maps steps) step with hsame | ⟨env, hook, new, rfl, hnew⟩
    · rw [run_snoc, hsame] at h
      obtain ⟨before, env, hook, after, rfl, hmade⟩ := ih h
      exact ⟨before, env, hook, after ++ [step], by simp, hmade⟩
    · rw [run_snoc, hnew] at h
      rcases List.mem_append.mp h with h | h
      · obtain ⟨before, env', hook', after, rfl, hmade⟩ := ih h
        exact ⟨before, env', hook', after ++ [.deliver env hook], by simp, hmade⟩
      · obtain rfl := List.mem_singleton.mp h
        rw [← run_snoc] at hnew
        exact ⟨steps, env, hook, [], rfl, hnew⟩

/-- **Every record on the ring buffer** was made by a delivered hook, from the steps before it. -/
theorem mem_records {steps : List Step} (h : record ∈ (run maps steps).events.records) :
    ∃ before env hook after, steps = before ++ .deliver env hook :: after ∧
      Source before env hook record := by
  obtain ⟨before, env, hook, after, hsteps, hmade⟩ := mem_records_submitted h
  exact ⟨before, env, hook, after, hsteps, record_source hmade⟩

end

/-! ## A completed network call -/

/-- The step touches the saved payload of the task's call of that kind. -/
def Step.Touches (key : NetworkStateKey) (step : Step) : Prop :=
  step.Enters key.pidTgid (.network key.kind) ∨ step.Exits key.pidTgid (.network key.kind) ∨
    step = .evictNetwork key

theorem networkOp_key_of_not_touches {maps : ProbeMaps} {k : Kernel} {key : NetworkStateKey}
    {step : Step} (h : ¬step.Touches key) : (networkOp maps k step).key? ≠ some key := by
  intro hkey
  refine h ?_
  cases step with
  | deliver env hook =>
    cases hook with
    | enterNetwork kind args =>
      obtain rfl := Option.some.inj ((networkOp_key_enter maps k env kind args).symm.trans hkey)
      exact Or.inl ⟨_, rfl, rfl⟩
    | exitNetwork kind ret =>
      obtain rfl := Option.some.inj ((networkOp_key_exit maps k env kind ret).symm.trans hkey)
      exact Or.inr (Or.inl ⟨_, rfl, rfl⟩)
    | _ => cases hkey
  | absent pidTgid hook =>
    cases hook with
    | enterNetwork kind args =>
      cases hkey
      exact Or.inl ⟨_, rfl, rfl⟩
    | exitNetwork kind ret =>
      cases hkey
      exact Or.inr (Or.inl ⟨_, rfl, rfl⟩)
    | _ => cases hkey
  | evictNetwork evicted =>
    cases hkey
    exact Or.inr (Or.inr rfl)
  | _ => cases hkey

/-- A network call whose enter is handled and saved, and whose exit finds what was saved and can reserve
its record. -/
structure CompletedCall (maps : ProbeMaps) (before : List Step) (env : HookEnv)
    (kind : NetworkEventKind) (args : SyscallArgs) (mid : List Step) (env' : HookEnv) : Prop where
  entered : networkEnterGate maps env kind args (run maps before) = true
  helpers : HelpersOk env
  vacant : (run maps before).networkEnterState.lookup (makeNetworkKey env kind) = none
  untouched : ∀ step ∈ mid, ¬step.Touches (makeNetworkKey env kind)
  same_task : env'.pidTgid = env.pidTgid
  reserved : env'.reserveOk = true

theorem CompletedCall.records {maps : ProbeMaps} {before mid : List Step} {env env' : HookEnv}
    {kind : NetworkEventKind} {args : SyscallArgs}
    (h : CompletedCall maps before env kind args mid env') (ret : Int64) :
    (run maps (before ++ .deliver env (.enterNetwork kind args) :: mid ++
        [.deliver env' (.exitNetwork kind ret)])).events.records =
      (run maps (before ++ .deliver env (.enterNetwork kind args) :: mid)).events.records ++
        [.network (finishNetworkEvent env' kind ret (networkPayload env kind args))] := by
  obtain ⟨hreserve, hupdate, hscratch⟩ := h.helpers
  have hkey : makeNetworkKey env' kind = makeNetworkKey env kind := by
    rw [makeNetworkKey, h.same_task, makeNetworkKey]
  have hop : networkOp maps (run maps before) (.deliver env (.enterNetwork kind args)) =
      .enter (makeNetworkKey env kind) (networkPayload env kind args) true := by
    rw [networkOp, h.entered, hreserve, hscratch, hupdate]
    rfl
  -- the payload stays where the enter put it
  have hsaved : ∀ mid' : List Step, (∀ step ∈ mid', ¬step.Touches (makeNetworkKey env kind)) →
      (run maps (before ++ .deliver env (.enterNetwork kind args) :: mid')).networkEnterState.lookup
        (makeNetworkKey env kind) = some (networkPayload env kind args) := by
    intro mid'
    induction mid' using List.reverseRecOn with
    | nil =>
      intro _
      rw [run_snoc]
      exact networkEntry_of_enter h.vacant hop
    | append_singleton mid' step ih =>
      intro hmid
      rw [← List.cons_append, ← List.append_assoc, run_snoc,
        networkEntry_of_ne (networkOp_key_of_not_touches (hmid step (by simp)))]
      exact ih fun s hs => hmid s (List.mem_append_left _ hs)
  have hgate : networkGate maps env' kind = true := by
    have hentered := h.entered
    rw [networkEnterGate, Bool.and_eq_true] at hentered
    rw [networkGate_congr maps h.same_task]
    exact hentered.1
  have hlook := hsaved mid h.untouched
  rw [← hkey] at hlook
  rw [run_snoc, exec, handle, handleExitNetwork_eq, exitNetwork_eq, hgate, if_pos rfl,
    emitNetworkExitEvent_of_some env' ret hlook, h.reserved, if_pos rfl]
  simp [Kernel.reserve, Kernel.submit]

/-- What is said of the one record the exit submits. -/
theorem CompletedCall.exists_record_iff {maps : ProbeMaps} {before mid : List Step}
    {env env' : HookEnv} {kind : NetworkEventKind} {args : SyscallArgs}
    (h : CompletedCall maps before env kind args mid env') (ret : Int64) (P : NetworkEvent → Prop) :
    (∃ out, (run maps (before ++ .deliver env (.enterNetwork kind args) :: mid ++
        [.deliver env' (.exitNetwork kind ret)])).events.records =
          (run maps (before ++ .deliver env (.enterNetwork kind args) :: mid)).events.records ++
            [.network out] ∧ P out) ↔
      P (finishNetworkEvent env' kind ret (networkPayload env kind args)) := by
  rw [h.records ret]
  constructor
  · rintro ⟨out, hout, hP⟩
    obtain rfl := EventVariant.network.inj (List.singleton_inj.mp (List.append_cancel_left hout))
    exact hP
  · exact fun hP => ⟨_, rfl, hP⟩

/-! ## Headers -/

section
variable (env : HookEnv)

theorem fillProcess_hdr (hook : Hook) (ev : ProcessEvent) :
    (fillProcess env hook ev).hdr = ev.hdr ∧ (fillProcess env hook ev).kind = ev.kind := by
  unfold fillProcess
  split <;> first | exact ⟨rfl, rfl⟩ | (unfold setChildPid; split_ifs <;> exact ⟨rfl, rfl⟩)

theorem fillFile_hdr (args : SyscallArgs) (kind : FileEventKind) (ev : FileEvent) :
    (fillFile env args kind ev).hdr = ev.hdr ∧ (fillFile env args kind ev).kind = ev.kind := by
  cases kind <;> exact ⟨rfl, rfl⟩

theorem fillMsghdr_hdr (msg : UInt64) (ev : NetworkEvent) :
    (fillMsghdr env msg ev).hdr = ev.hdr ∧ (fillMsghdr env msg ev).kind = ev.kind := by
  unfold fillMsghdr
  dsimp only
  split_ifs
  · exact ⟨rfl, rfl⟩
  · split
    · exact ⟨rfl, rfl⟩
    · split_ifs <;> exact ⟨rfl, rfl⟩

theorem fillNetwork_hdr (args : SyscallArgs) (kind : NetworkEventKind) (state : NetworkStateValue) :
    (fillNetwork env args kind state).ev.hdr = state.ev.hdr ∧
      (fillNetwork env args kind state).ev.kind = state.ev.kind := by
  cases kind with
  | sendmsg => exact fillMsghdr_hdr env _ _
  | recvmsg => exact fillMsghdr_hdr env _ _
  | _ => exact ⟨rfl, rfl⟩

section Finish
variable (kind : NetworkEventKind) (ret : Int64) (state : NetworkStateValue) (out : NetworkEvent)

/-! What each part of the finishing writes. -/

theorem finishFds_eq : ∃ fd peerFd,
    finishFds env kind ret state out = { out with fd := fd, peerFd := peerFd } := by
  cases kind with
  | socketpair =>
    unfold finishFds
    dsimp only
    split_ifs
    · exact ⟨_, _, rfl⟩
    · split <;> exact ⟨_, _, rfl⟩
    · exact ⟨_, _, rfl⟩
  | _ =>
    unfold finishFds
    dsimp only
    split_ifs <;> exact ⟨_, _, rfl⟩

theorem finishRemote_eq : ∃ ep, finishRemote env kind ret state out = { out with remoteEp := ep } := by
  unfold finishRemote
  split_ifs <;> exact ⟨_, rfl⟩

/-- The bytes a call has moved, where its kind says so. -/
def movedBytes (before : UInt64) : UInt64 :=
  if returnsMessages kind ∧ 0 ≤ ret ∧ state.mmsgPtr ≠ 0 ∧ state.mmsgCount ≠ 0 then
    sumMmsghdrTransfers env.mem state.mmsgPtr state.mmsgCount.toUInt32
  else if returnsBytes kind ∧ 0 ≤ ret then ret.toUInt64
  else before

theorem finishBytes_eq : finishBytes env kind ret state out =
    { out with bytesTransferred := movedBytes env kind ret state out.bytesTransferred } := by
  unfold finishBytes movedBytes
  dsimp only
  split_ifs <;> rfl

theorem finishFlow_eq : ∃ flowId, finishFlow env out = { out with flowId := flowId } := by
  unfold finishFlow
  split_ifs <;> exact ⟨_, rfl⟩

theorem finishLocal_eq : ∃ ep, finishLocal env kind ret state out = { out with localEp := ep } := by
  unfold finishLocal
  split_ifs <;> exact ⟨_, rfl⟩

theorem finishOption_eq : ∃ optLen optvalPrefix, finishOption env kind ret state out =
    { out with optLen := optLen, optvalPrefix := optvalPrefix } := by
  unfold finishOption
  dsimp only
  split_ifs <;> try exact ⟨_, _, rfl⟩
  all_goals split <;> exact ⟨_, _, rfl⟩

/-- Everything else of the record is as the enter left it. -/
theorem finishNetworkEvent_eq : ∃ fd peerFd remoteEp flowId localEp optLen optvalPrefix,
    finishNetworkEvent env kind ret state = { state.ev with
      hdr := { state.ev.hdr with tsNs := env.ktimeExit }
      ret := ret.toInt32
      bytesTransferred := movedBytes env kind ret state state.ev.bytesTransferred
      fd := fd
      peerFd := peerFd
      remoteEp := remoteEp
      flowId := flowId
      localEp := localEp
      optLen := optLen
      optvalPrefix := optvalPrefix } := by
  unfold finishNetworkEvent
  dsimp only
  generalize hstamped : ({ state.ev with
    hdr := { state.ev.hdr with tsNs := env.ktimeExit }
    ret := ret.toInt32 } : NetworkEvent) = stamped
  obtain ⟨fd, peerFd, hfds⟩ := finishFds_eq env kind ret state stamped
  obtain ⟨remoteEp, hremote⟩ := finishRemote_eq env kind ret state
    { stamped with fd := fd, peerFd := peerFd }
  have hbytes := finishBytes_eq env kind ret state
    { stamped with fd := fd, peerFd := peerFd, remoteEp := remoteEp }
  rw [hfds, hremote, hbytes]
  obtain ⟨flowId, hflow⟩ := finishFlow_eq env { stamped with
    fd := fd, peerFd := peerFd, remoteEp := remoteEp
    bytesTransferred := movedBytes env kind ret state stamped.bytesTransferred }
  obtain ⟨localEp, hlocal⟩ := finishLocal_eq env kind ret state { stamped with
    fd := fd, peerFd := peerFd, remoteEp := remoteEp, flowId := flowId
    bytesTransferred := movedBytes env kind ret state stamped.bytesTransferred }
  obtain ⟨optLen, optvalPrefix, hoption⟩ := finishOption_eq env kind ret state { stamped with
    fd := fd, peerFd := peerFd, remoteEp := remoteEp, flowId := flowId, localEp := localEp
    bytesTransferred := movedBytes env kind ret state stamped.bytesTransferred }
  rw [hflow, hlocal, hoption, ← hstamped]
  exact ⟨fd, peerFd, remoteEp, flowId, localEp, optLen, optvalPrefix, rfl⟩

theorem finishNetworkEvent_envelope :
    (finishNetworkEvent env kind ret state).hdr = { state.ev.hdr with tsNs := env.ktimeExit } ∧
      (finishNetworkEvent env kind ret state).kind = state.ev.kind ∧
      (finishNetworkEvent env kind ret state).ret = ret.toInt32 := by
  obtain ⟨fd, peerFd, remoteEp, flowId, localEp, optLen, optvalPrefix, heq⟩ :=
    finishNetworkEvent_eq env kind ret state
  rw [heq]
  exact ⟨rfl, rfl, rfl⟩

end Finish

end

/-- The payloads saved at enter name their family, their kind and the task. -/
structure Envelope (env : HookEnv) (t : EventType) (hdr : EventHeader) : Prop where
  type : hdr.type = t.code
  size : hdr.size = t.size
  pid : hdr.pid = env.pid
  tgid : hdr.tgid = env.tgid

theorem filePayload_envelope (env : HookEnv) (kind : FileEventKind) (args : SyscallArgs) :
    Envelope env .file (filePayload env kind args).hdr ∧ (filePayload env kind args).kind = kind.code := by
  rw [filePayload, (fillFile_hdr env args kind _).1, (fillFile_hdr env args kind _).2]
  exact ⟨⟨rfl, rfl, rfl, rfl⟩, rfl⟩

theorem syscallPayload_envelope (env : HookEnv) (nr : Int32) (args : SyscallArgs) :
    Envelope env .syscall (syscallPayload env nr args).hdr :=
  ⟨rfl, rfl, rfl, rfl⟩

theorem networkPayload_envelope (env : HookEnv) (kind : NetworkEventKind) (args : SyscallArgs) :
    Envelope env .network (networkPayload env kind args).ev.hdr ∧
      (networkPayload env kind args).ev.kind = kind.code := by
  rw [networkPayload, (fillNetwork_hdr env args kind _).1, (fillNetwork_hdr env args kind _).2]
  exact ⟨⟨rfl, rfl, rfl, rfl⟩, rfl⟩

theorem processRecord_envelope (env : HookEnv) (hook : Hook) (kind : ProcessEventKind) :
    Envelope env .process (processRecord env hook kind).hdr ∧
      (processRecord env hook kind).kind = kind.code := by
  rw [processRecord, (fillProcess_hdr env hook _).1, (fillProcess_hdr env hook _).2]
  exact ⟨⟨rfl, rfl, rfl, rfl⟩, rfl⟩

/-- The stamp of the exit changes nothing an envelope says. -/
theorem Envelope.stamp {env : HookEnv} {t : EventType} {hdr : EventHeader} (h : Envelope env t hdr)
    (tsNs : UInt64) : Envelope env t { hdr with tsNs := tsNs } :=
  ⟨h.type, h.size, h.pid, h.tgid⟩

/-- A record's header is that of the task that hit the hook, and says what the record is. -/
theorem Source.envelope {before : List Step} {env : HookEnv} {hook : Hook} {record : EventVariant}
    (h : Source before env hook record) : Envelope env record.type record.hdr := by
  cases h with
  | process hkind => exact (processRecord_envelope env hook _).1
  | @paired enterEnv enter slot record hmem htask henter hexit hmade =>
    have hpid : enterEnv.pid = env.pid := by rw [HookEnv.pid, htask, HookEnv.pid]
    have htgid : enterEnv.tgid = env.tgid := by rw [HookEnv.tgid, htask, HookEnv.tgid]
    have hown : ∀ t hdr, Envelope enterEnv t hdr → Envelope env t hdr :=
      fun t hdr h => ⟨h.type, h.size, h.pid.trans hpid, h.tgid.trans htgid⟩
    unfold makeRecord at hmade
    split at hmade
    · obtain rfl := Option.some.inj hmade
      exact hown _ _ ((filePayload_envelope enterEnv _ _).1.stamp env.ktimeExit)
    · obtain rfl := Option.some.inj hmade
      exact hown _ _ ((syscallPayload_envelope enterEnv _ _).stamp env.ktimeExit)
    · obtain rfl := Option.some.inj hmade
      refine hown _ _ ?_
      rw [EventVariant.hdr, (finishNetworkEvent_envelope env _ _ _).1]
      exact (networkPayload_envelope enterEnv _ _).1.stamp env.ktimeExit
    · cases hmade

/-- The `comm` in it is what the helper gave the hook that began it. -/
theorem Source.comm {before : List Step} {env : HookEnv} {hook : Hook} {record : EventVariant}
    (h : Source before env hook record) :
    record.hdr.comm = env.comm ∨
      ∃ enterEnv enter, .deliver enterEnv enter ∈ before ∧ record.hdr.comm = enterEnv.comm := by
  cases h with
  | process hkind =>
    left
    rw [EventVariant.hdr, processRecord, (fillProcess_hdr env hook _).1]
    rfl
  | @paired enterEnv enter slot record hmem htask henter hexit hmade =>
    refine Or.inr ⟨enterEnv, enter, hmem, ?_⟩
    unfold makeRecord at hmade
    split at hmade
    · obtain rfl := Option.some.inj hmade
      rw [EventVariant.hdr, finishFileEvent, filePayload, (fillFile_hdr enterEnv _ _ _).1]
      rfl
    · obtain rfl := Option.some.inj hmade
      rfl
    · obtain rfl := Option.some.inj hmade
      rw [EventVariant.hdr, (finishNetworkEvent_envelope env _ _ _).1, networkPayload,
        (fillNetwork_hdr enterEnv _ _ _).1]
      rfl
    · cases hmade

theorem Source.selfNamed {before : List Step} {env : HookEnv} {hook : Hook} {record : EventVariant}
    (h : Source before env hook record) : record.SelfNamed :=
  ⟨h.envelope.type, h.envelope.size⟩

end ETraceGen.Bpf
