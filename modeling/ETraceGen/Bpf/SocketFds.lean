import ETraceGen.Bpf.Provenance

/-!
# Reservations and the descriptor map

The exit handlers track and untrack descriptors after they have reserved their record, so what
`socket_fd_state` holds depends on which reservations succeeded.

* `socketFdState_exit` : what a network exit does to the map, given its reservation;
* `SameCalls` : two runs that differ in the outcomes of their reservations only;
* `CreatesSocket` : some creating call completes;
* `socketFds_determined_iff` : the calls determine the final map exactly when none does.
-/

namespace ETraceGen.Bpf

open Pairing

/-! ## Writes of the descriptor map -/

section Writes
variable (maps : ProbeMaps) (env : HookEnv) (k : Kernel)

theorem socketFdState_enter (kind : NetworkEventKind) (args : SyscallArgs) :
    (handle maps env (.enterNetwork kind args) k).socketFdState = k.socketFdState := by
  rw [handle, handleEnterNetwork_eq, enterNetwork_eq]
  simp only [saveNetworkEnterState]
  split_ifs <;> rfl

/-- An exit writes the map only if it finds its entry and reserves its record. -/
theorem socketFdState_exit (kind : NetworkEventKind) (ret : Int64) :
    (handle maps env (.exitNetwork kind ret) k).socketFdState =
      match k.networkEnterState.lookup (makeNetworkKey env kind) with
      | some state =>
        if networkGate maps env kind && env.reserveOk then
          (trackSocketFds env kind ret state k).socketFdState
        else k.socketFdState
      | none => k.socketFdState := by
  rw [handle, handleExitNetwork_eq, exitNetwork_eq]
  cases hs : k.networkEnterState.lookup (makeNetworkKey env kind) with
  | none =>
    rw [emitNetworkExitEvent_of_none env ret hs]
    cases networkGate maps env kind <;> rfl
  | some state =>
    rw [emitNetworkExitEvent_of_some env ret hs]
    cases networkGate maps env kind <;> cases env.reserveOk <;> rfl

end Writes

/-! In a memory all of which can be read, every read succeeds. -/

theorem read_isSome {mem : UserMem} (hmem : ∀ ptr, (mem ptr).isSome = true) (ptr : UInt64) (n : Nat) :
    ∃ bs, mem.read ptr n = some bs := by
  induction n generalizing ptr with
  | zero => exact ⟨[], rfl⟩
  | succ n ih =>
    obtain ⟨b, hb⟩ := Option.isSome_iff_exists.mp (hmem ptr)
    obtain ⟨bs, hbs⟩ := ih (ptr + 1)
    exact ⟨b :: bs, by rw [UserMem.read, hb]; simp [hbs]⟩

theorem readFdPair_isSome {mem : UserMem} (hmem : ∀ ptr, (mem ptr).isSome = true) (ptr : UInt64) :
    ∃ pair, readFdPair mem ptr = some pair := by
  obtain ⟨bs, hbs⟩ := read_isSome hmem ptr 8
  exact ⟨_, by rw [readFdPair, hbs]; rfl⟩

/-- The kinds whose calls return a new socket. -/
def createsSocket : NetworkEventKind → Bool
  | .socket | .socketpair | .accept | .accept4 => true
  | _ => false

/-- A successful creating call tracks a descriptor. -/
theorem exists_tracked {env : HookEnv} {kind : NetworkEventKind} {ret : Int64}
    {state : NetworkStateValue} (k : Kernel) (hkind : createsSocket kind = true) (hret : 0 ≤ ret)
    (hpair : kind = .socketpair → state.peerFdPtr ≠ 0) (hmem : ∀ ptr, (env.mem ptr).isSome = true)
    (hadd : env.addOk = true) :
    ∃ key, ((trackSocketFds env kind ret state k).socketFdState.lookup key).isSome = true := by
  unfold trackSocketFds
  rw [if_pos hret]
  cases kind with
  | socket => exact ⟨socketFdKey env ret.toInt32, by simp [addSocketFd, hadd]⟩
  | accept => exact ⟨socketFdKey env ret.toInt32, by simp [addSocketFd, hadd]⟩
  | accept4 => exact ⟨socketFdKey env ret.toInt32, by simp [addSocketFd, hadd]⟩
  | socketpair =>
    obtain ⟨pair, hpair'⟩ := readFdPair_isSome hmem state.peerFdPtr
    refine ⟨socketFdKey env pair.1, ?_⟩
    simp only [if_neg (hpair rfl), hpair', addSocketFd, hadd, if_true]
    split_ifs
    · rw [KeyedMap.lookup_insert_ite, AList.lookup_insert]
      split_ifs <;> rfl
    · rw [AList.lookup_insert]
      rfl
  | _ => cases hkind

/-- Without a successful creating call the map gains nothing. -/
theorem lookup_trackSocketFds_none {env : HookEnv} {kind : NetworkEventKind} {ret : Int64}
    {state : NetworkStateValue} {k : Kernel} (hk : ∀ key, k.socketFdState.lookup key = none)
    (h : ¬ (createsSocket kind = true ∧ 0 ≤ ret ∧ (kind = .socketpair → state.peerFdPtr ≠ 0)))
    (key : SocketFdKey) :
    (trackSocketFds env kind ret state k).socketFdState.lookup key = none := by
  unfold trackSocketFds
  by_cases hret : 0 ≤ ret
  · rw [if_pos hret]
    cases kind <;> simp_all [createsSocket, deleteSocketFd, KeyedMap.lookup_erase_ite]
  · rw [if_neg hret]
    exact hk key

/-! ## Runs that differ in their reservations -/

def HookEnv.withReserve (ok : Bool) (env : HookEnv) : HookEnv := { env with reserveOk := ok }

/-- The same step with the given outcome of its reservation. -/
def Step.withReserve (ok : Bool) : Step → Step
  | .deliver env hook => .deliver (env.withReserve ok) hook
  | step => step

theorem pidTgid_of_withReserve {env env' : HookEnv}
    (h : env.withReserve true = env'.withReserve true) : env.pidTgid = env'.pidTgid := by
  have hpid := congrArg HookEnv.pidTgid h
  exact hpid

@[simp] theorem Step.withReserve_withReserve (step : Step) (ok ok' : Bool) :
    (step.withReserve ok').withReserve ok = step.withReserve ok := by
  cases step <;> rfl

@[simp] theorem Step.withReserve_comp (ok ok' : Bool) :
    Step.withReserve ok ∘ Step.withReserve ok' = Step.withReserve ok :=
  funext fun step => step.withReserve_withReserve ok ok'

/-- Two runs of the same calls: they differ in the outcomes of their reservations only. -/
def SameCalls (steps steps' : List Step) : Prop :=
  steps.map (Step.withReserve true) = steps'.map (Step.withReserve true)

/-- The delivery of an enter or an exit of a call that creates or closes a descriptor. All helpers
but the reservation succeed, and all of the task's memory can be read. -/
def SocketCall (step : Step) : Prop :=
  ∃ env hook kind, step = .deliver env hook ∧
    (hook.entered? = some (.network kind) ∨ hook.exited? = some (.network kind)) ∧
    (createsSocket kind = true ∨ kind = .close) ∧ env.updateOk = true ∧ env.scratchOk = true ∧
    env.addOk = true ∧ env.addPeerOk = true ∧ ∀ ptr, (env.mem ptr).isSome = true

/-- A creating call of a traced task completes: it is entered, and its own exit, the first one of the
task and kind to follow, returns success. -/
def CreatesSocket (maps : ProbeMaps) (steps : List Step) : Prop :=
  ∃ before env kind args during env' ret rest,
    steps = before ++ .deliver env (.enterNetwork kind args) :: during ++
      .deliver env' (.exitNetwork kind ret) :: rest ∧
    env'.pidTgid = env.pidTgid ∧ (∀ s ∈ during, ¬ s.Exits env.pidTgid (.network kind)) ∧
    createsSocket kind = true ∧ networkGate maps env kind = true ∧ 0 ≤ ret ∧
    (kind = .socketpair → args.sv ≠ 0)

theorem SameCalls.symm {steps steps' : List Step} (h : SameCalls steps steps') :
    SameCalls steps' steps :=
  Eq.symm h

theorem SameCalls.map_withReserve (steps : List Step) (ok : Bool) :
    SameCalls (steps.map (Step.withReserve ok)) steps := by
  simp [SameCalls]

theorem withReserve_eq_deliver {step : Step} {env : HookEnv} {hook : Hook}
    (h : step.withReserve true = (Step.deliver env hook).withReserve true) :
    ∃ env', step = .deliver env' hook ∧ env'.withReserve true = env.withReserve true := by
  cases step with
  | deliver env' hook' =>
    cases hook'
    all_goals
      injection h with henv hhook
      subst hhook
      exact ⟨env', rfl, henv⟩
  | _ => cases h

theorem Step.hit?_withReserve (ok : Bool) (step : Step) : (step.withReserve ok).hit? = step.hit? := by
  cases step <;> rfl

theorem Step.exits_of_withReserve {step step' : Step} (h : step.withReserve true = step'.withReserve true)
    {pidTgid : UInt64} {slot : Slot} (hex : step.Exits pidTgid slot) : step'.Exits pidTgid slot := by
  obtain ⟨hook, hhit, hslot⟩ := hex
  refine ⟨hook, ?_, hslot⟩
  rw [← hhit, ← Step.hit?_withReserve true step', ← h, Step.hit?_withReserve]

theorem SameCalls.socketCalls {steps steps' : List Step} (h : SameCalls steps steps')
    (hcalls : ∀ s ∈ steps', SocketCall s) : ∀ s ∈ steps, SocketCall s := by
  intro s hs
  have hmem : s.withReserve true ∈ steps'.map (Step.withReserve true) :=
    h ▸ List.mem_map_of_mem hs
  obtain ⟨s', hs', heq⟩ := List.mem_map.mp hmem
  obtain ⟨env', hook, kind, rfl, hslot, hkind, hupd, hscr, hadd, hpeer, hread⟩ := hcalls s' hs'
  obtain ⟨env, rfl, henv⟩ := withReserve_eq_deliver heq.symm
  refine ⟨env, hook, kind, rfl, hslot, hkind, ?_, ?_, ?_, ?_, ?_⟩
  · exact (congrArg (fun e : HookEnv => e.updateOk) henv :).trans hupd
  · exact (congrArg (fun e : HookEnv => e.scratchOk) henv :).trans hscr
  · exact (congrArg (fun e : HookEnv => e.addOk) henv :).trans hadd
  · exact (congrArg (fun e : HookEnv => e.addPeerOk) henv :).trans hpeer
  · have hmem' := congrArg (fun e : HookEnv => e.mem) henv
    change env.mem = env'.mem at hmem'
    rwa [hmem']

/-- Whether a creating call completes is a matter of the calls. -/
theorem CreatesSocket.congr {maps : ProbeMaps} {steps steps' : List Step}
    (h : CreatesSocket maps steps) (hsame : SameCalls steps steps') : CreatesSocket maps steps' := by
  obtain ⟨before, env, kind, args, during, env', ret, rest, rfl, hpid, hduring, hkind, hgate, hret,
    hpair⟩ := h
  have hmap : steps'.map (Step.withReserve true) = _ := hsame.symm
  rw [List.append_assoc, List.cons_append, List.map_append, List.map_cons, List.map_append,
    List.map_cons] at hmap
  obtain ⟨before', tail, rfl, hbefore, htail⟩ := List.map_eq_append_iff.mp hmap
  obtain ⟨enter, tail, rfl, henter, htail⟩ := List.map_eq_cons_iff.mp htail
  obtain ⟨during', tail, rfl, hduring', htail⟩ := List.map_eq_append_iff.mp htail
  obtain ⟨exit, rest', rfl, hexit, hrest⟩ := List.map_eq_cons_iff.mp htail
  obtain ⟨e, rfl, he⟩ := withReserve_eq_deliver henter
  obtain ⟨e', rfl, he'⟩ := withReserve_eq_deliver hexit
  have hpe := pidTgid_of_withReserve he
  have hpe' := pidTgid_of_withReserve he'
  refine ⟨before', e, kind, args, during', e', ret, rest', by simp, ?_, ?_, hkind, ?_, hret, hpair⟩
  · rw [hpe, hpe', hpid]
  · intro s hs hex
    rw [hpe] at hex
    have hmem : s.withReserve true ∈ during.map (Step.withReserve true) :=
      hduring' ▸ List.mem_map_of_mem hs
    obtain ⟨s', hs', heq⟩ := List.mem_map.mp hmem
    exact hduring s' hs' (Step.exits_of_withReserve heq.symm hex)
  · rw [networkGate_congr maps hpe, hgate]

/-- What takes the entry of a task and kind out is one of its exits. -/
theorem exits_of_removesKey {maps : ProbeMaps} {k : Kernel} {env : HookEnv} {hook : Hook}
    {pidTgid : UInt64} {kind : NetworkEventKind}
    (h : (networkOp maps k (.deliver env hook)).removesKey ⟨pidTgid, kind⟩) :
    (Step.deliver env hook).Exits pidTgid (.network kind) := by
  cases hook with
  | exitNetwork kind' ret =>
    simp only [networkOp] at h
    split_ifs at h
    · exact h.elim
    · cases h
      exact ⟨_, rfl, rfl⟩
  | enterNetwork kind' args =>
    simp only [networkOp] at h
    split_ifs at h <;> exact h.elim
  | _ => exact h.elim

/-- The exit of a traced task takes its entry out. -/
theorem networkOp_removesKey {maps : ProbeMaps} {k : Kernel} {step : Step} (hcall : SocketCall step)
    {pidTgid : UInt64} {kind : NetworkEventKind} (hex : step.Exits pidTgid (.network kind))
    (hgate : ∀ env : HookEnv, env.pidTgid = pidTgid → networkGate maps env kind = true) :
    (networkOp maps k step).removesKey ⟨pidTgid, kind⟩ := by
  obtain ⟨env, hook, _, rfl, -⟩ := hcall
  obtain ⟨hook', hhit, hslot⟩ := hex
  cases hhit
  cases hook <;> cases hslot
  rw [networkOp, hgate env rfl]
  rfl

/-! ## No creation, no descriptors -/

/-- A run in which no creating call completes tracks nothing, whatever its reservations. -/
theorem socketFds_empty {maps : ProbeMaps} {steps : List Step} (hcalls : ∀ s ∈ steps, SocketCall s)
    (hno : ¬ CreatesSocket maps steps) (key : SocketFdKey) :
    (run maps steps).socketFdState.lookup key = none := by
  induction steps using List.reverseRecOn generalizing key with
  | nil => rfl
  | append_singleton steps s ih =>
    have hno' : ¬ CreatesSocket maps steps := by
      rintro ⟨before, env, kind, args, during, env', ret, rest, rfl, hcompletes⟩
      exact hno ⟨before, env, kind, args, during, env', ret, rest ++ [s], by simp, hcompletes⟩
    replace ih := ih (fun s' hs' => hcalls s' (List.mem_append_left _ hs')) hno'
    obtain ⟨env, hook, kind, rfl, hslot, -⟩ :=
      hcalls s (List.mem_append_right _ (List.mem_singleton_self _))
    rw [run_snoc, exec]
    cases hook with
    | enterNetwork kind' args =>
      rw [socketFdState_enter]
      exact ih key
    | exitNetwork kind' ret =>
      rw [socketFdState_exit]
      cases hs : (run maps steps).networkEnterState.lookup (makeNetworkKey env kind') with
      | none => exact ih key
      | some state =>
        dsimp only
        split_ifs with hgate
        · refine lookup_trackSocketFds_none ih ?_ key
          rintro ⟨hkind, hret, hpair⟩
          -- the entry this exit finds was saved by the enter of the call it completes
          obtain ⟨before, e, during, rfl, hop, hduring⟩ :=
            Client.stored (networkTable_init maps) steps hs
          obtain ⟨enterEnv, args, rfl, hpid, rfl, -⟩ := networkOp_eq_enter maps hop
          rw [Bool.and_eq_true] at hgate
          refine hno ⟨before, enterEnv, kind', args, during, env, ret, [], rfl, hpid.symm, ?_, hkind,
            ?_, hret, ?_⟩
          · intro s hs hex
            obtain ⟨u, v, rfl⟩ := List.append_of_mem hs
            refine hduring u s v rfl (networkOp_removesKey (hcalls s (by simp)) ?_ ?_)
            · rwa [hpid] at hex
            · exact fun e he => (networkGate_congr maps he kind').trans hgate.1
          · rw [networkGate_congr maps hpid]
            exact hgate.1
          · rintro rfl
            exact hpair rfl
        · exact ih key
    | _ => simp [Hook.entered?, Hook.exited?] at hslot

/-! ## One completed creation, one descriptor

The run in which only the reservations of that one call succeed. -/

section OneCall
variable {maps : ProbeMaps}

/-- An enter whose reservation fails saves nothing. -/
theorem networkOp_withReserve_false (k : Kernel) (s : Step) (key : NetworkStateKey)
    (state : NetworkStateValue) (room : Bool) :
    networkOp maps k (s.withReserve false) ≠ .enter key state room := by
  intro h
  obtain ⟨env, args, hs, -, -, hres⟩ := networkOp_eq_enter maps h
  cases s with
  | deliver env' hook =>
    cases hs
    cases hres
  | _ => cases hs

theorem lookup_none_of_failed (steps : List Step) (key : NetworkStateKey) :
    (run maps (steps.map (Step.withReserve false))).networkEnterState.lookup key = none := by
  induction steps using List.reverseRecOn with
  | nil => rfl
  | append_singleton steps s ih =>
    rw [List.map_append, List.map_singleton, run_snoc]
    exact networkEntry_of_none ih fun state => networkOp_withReserve_false _ s key state true

/-- The enter of a creating call of a traced task saves its entry. -/
theorem networkOp_of_creating {k : Kernel} {env : HookEnv} {kind : NetworkEventKind}
    (args : SyscallArgs) (hkind : createsSocket kind = true) (hgate : networkGate maps env kind = true)
    (hres : env.reserveOk = true) (hscr : env.scratchOk = true) (hupd : env.updateOk = true) :
    networkOp maps k (.deliver env (.enterNetwork kind args)) =
      .enter ⟨env.pidTgid, kind⟩ (networkPayload env kind args) true := by
  have hnone : gateFd args kind = none := by
    cases kind <;> first | rfl | cases hkind
  simp [networkOp, networkEnterGate, hnone, hgate, hres, hscr, hupd, makeNetworkKey]

/-- An entry stays while its call is in progress, whatever the reservations of others. -/
theorem lookup_during {steps during : List Step} {pidTgid : UInt64} {kind : NetworkEventKind}
    {state : NetworkStateValue}
    (h : (run maps steps).networkEnterState.lookup ⟨pidTgid, kind⟩ = some state)
    (hcalls : ∀ s ∈ during, SocketCall s)
    (hduring : ∀ s ∈ during, ¬ s.Exits pidTgid (.network kind)) (ok : Bool) :
    (run maps (steps ++ during.map (Step.withReserve ok))).networkEnterState.lookup
      ⟨pidTgid, kind⟩ = some state := by
  induction during using List.reverseRecOn with
  | nil => rwa [List.map_nil, List.append_nil]
  | append_singleton during s ih =>
    rw [List.map_append, List.map_singleton, ← List.append_assoc, run_snoc]
    have hbefore := ih (fun s' hs' => hcalls s' (List.mem_append_left _ hs'))
      fun s' hs' => hduring s' (List.mem_append_left _ hs')
    have hno := hduring s (List.mem_append_right _ (List.mem_singleton_self _))
    obtain ⟨env, hook, -, rfl, -⟩ := hcalls s (List.mem_append_right _ (List.mem_singleton_self _))
    change (exec maps _ (.deliver (env.withReserve ok) hook)).networkEnterState.lookup _ = _
    refine networkEntry_of_stored hbefore fun hrem => hno ?_
    obtain ⟨hook', hhit, hslot⟩ := exits_of_removesKey hrem
    exact ⟨hook', hhit, hslot⟩

/-- Once reservations fail, the map stays as it is. -/
theorem socketFds_of_failed {steps rest : List Step} (hcalls : ∀ s ∈ rest, SocketCall s) :
    (run maps (steps ++ rest.map (Step.withReserve false))).socketFdState =
      (run maps steps).socketFdState := by
  induction rest using List.reverseRecOn with
  | nil => rw [List.map_nil, List.append_nil]
  | append_singleton rest s ih =>
    rw [List.map_append, List.map_singleton, ← List.append_assoc, run_snoc,
      ← ih fun s' hs' => hcalls s' (List.mem_append_left _ hs')]
    obtain ⟨env, hook, _, rfl, hslot, -⟩ :=
      hcalls s (List.mem_append_right _ (List.mem_singleton_self _))
    change (handle maps (env.withReserve false) hook _).socketFdState = _
    cases hook with
    | enterNetwork kind args => exact socketFdState_enter ..
    | exitNetwork kind ret =>
      have hfail : (networkGate maps (env.withReserve false) kind &&
          (env.withReserve false).reserveOk) = false := Bool.and_false _
      rw [socketFdState_exit, hfail]
      split <;> rfl
    | _ => simp [Hook.entered?, Hook.exited?] at hslot

/-- The calls up to the exit of one call, whose enter is the only one to reserve. -/
def onlyEnter (before : List Step) (enter : Step) (during : List Step) : List Step :=
  before.map (Step.withReserve false) ++ [enter.withReserve true] ++
    during.map (Step.withReserve false)

/-- The exit finds the entry of its own call. -/
theorem lookup_onlyEnter (before : List Step) {during : List Step} {env : HookEnv}
    {kind : NetworkEventKind} (args : SyscallArgs) (hcalls : ∀ s ∈ during, SocketCall s)
    (hduring : ∀ s ∈ during, ¬ s.Exits env.pidTgid (.network kind))
    (hkind : createsSocket kind = true) (hgate : networkGate maps env kind = true)
    (hupd : env.updateOk = true) (hscr : env.scratchOk = true) :
    (run maps (onlyEnter before (.deliver env (.enterNetwork kind args)) during)).networkEnterState.lookup
      ⟨env.pidTgid, kind⟩ = some (networkPayload (env.withReserve true) kind args) := by
  have hnone : (run maps (before.map (Step.withReserve false))).networkEnterState.lookup
      ⟨env.pidTgid, kind⟩ = none := lookup_none_of_failed before _
  have hop : networkOp maps (run maps (before.map (Step.withReserve false)))
      (.deliver (env.withReserve true) (.enterNetwork kind args)) = _ :=
    networkOp_of_creating args hkind hgate rfl hscr hupd
  have hentered := networkEntry_of_enter hnone hop
  rw [← run_snoc] at hentered
  exact lookup_during hentered hcalls hduring false

/-- The run in which only the reservations of one completed creating call succeed tracks a
descriptor. -/
theorem exists_socketFd {steps : List Step} (hcalls : ∀ s ∈ steps, SocketCall s)
    (h : CreatesSocket maps steps) :
    ∃ steps', SameCalls steps' steps ∧
      ∃ key, ((run maps steps').socketFdState.lookup key).isSome = true := by
  obtain ⟨before, env, kind, args, during, env', ret, rest, rfl, hpid, hduring, hkind, hgate, hret,
    hpair⟩ := h
  obtain ⟨_, _, _, heq, -, -, hupd, hscr, -⟩ :=
    hcalls (.deliver env (.enterNetwork kind args)) (by simp)
  cases heq
  obtain ⟨_, _, _, heq, -, -, -, -, hadd, -, hmem⟩ :=
    hcalls (.deliver env' (.exitNetwork kind ret)) (by simp)
  cases heq
  have hentry := lookup_onlyEnter before args (fun s hs => hcalls s (by simp [hs])) hduring hkind
    hgate hupd hscr
  have hptr : kind = .socketpair →
      (networkPayload (env.withReserve true) kind args).peerFdPtr ≠ 0 := by
    rintro rfl
    exact hpair rfl
  obtain ⟨key, hkey⟩ : ∃ key, ((trackSocketFds (env'.withReserve true) kind ret
      (networkPayload (env.withReserve true) kind args) (run maps (onlyEnter before
        (.deliver env (.enterNetwork kind args)) during))).socketFdState.lookup key).isSome = true :=
    exists_tracked _ hkind hret hptr hmem hadd
  refine ⟨onlyEnter before (.deliver env (.enterNetwork kind args)) during ++
    [(Step.deliver env' (.exitNetwork kind ret)).withReserve true] ++
    rest.map (Step.withReserve false), by simp [SameCalls, onlyEnter], key, ?_⟩
  have hpid' : (env'.withReserve true).pidTgid = env.pidTgid := hpid
  have hreserve : (networkGate maps (env'.withReserve true) kind &&
      (env'.withReserve true).reserveOk) = true := by
    rw [networkGate_congr maps hpid', hgate]
    rfl
  rw [socketFds_of_failed fun s hs => hcalls s (by simp [hs]), run_snoc, Step.withReserve, exec,
    socketFdState_exit, makeNetworkKey, hpid', hentry, hreserve]
  exact hkey

end OneCall

/-- **The calls determine the descriptor map**, whatever their reservations, exactly when no
creating call completes. -/
theorem socketFds_determined_iff (maps : ProbeMaps) (steps : List Step)
    (hcalls : ∀ s ∈ steps, SocketCall s) :
    (∀ steps₁ steps₂, SameCalls steps₁ steps → SameCalls steps₂ steps → ∀ key,
      (run maps steps₁).socketFdState.lookup key = (run maps steps₂).socketFdState.lookup key) ↔
    ¬ CreatesSocket maps steps := by
  constructor
  · intro h hcreates
    obtain ⟨steps', hsame, key, hkey⟩ := exists_socketFd hcalls hcreates
    -- no reservation succeeds in the other run, and its map stays empty
    have hfailed : (run maps ([] ++ steps.map (Step.withReserve false))).socketFdState = _ :=
      socketFds_of_failed hcalls
    have heq := h steps' _ hsame (SameCalls.map_withReserve steps false) key
    rw [← List.nil_append (steps.map _), hfailed] at heq
    rw [heq] at hkey
    cases hkey
  · intro hno steps₁ steps₂ h₁ h₂ key
    rw [socketFds_empty (h₁.socketCalls hcalls) (fun h => hno (h.congr h₁)),
      socketFds_empty (h₂.socketCalls hcalls) (fun h => hno (h.congr h₂))]

/-- A task whose memory can be read. -/
def readableEnv : HookEnv := { env7 with mem := fun _ => some 0 }

/-- A `socket` that finds no descriptor, and a `close` of descriptor 5. -/
def refusedSocket : List Step :=
  [.deliver readableEnv (.enterNetwork .socket (.of 2 1 0 0 0 0)),
    .deliver readableEnv (.exitNetwork .socket (-24)),
    .deliver readableEnv (.enterNetwork .close (.of 5 0 0 0 0 0)),
    .deliver readableEnv (.exitNetwork .close 0)]

theorem refusedSocket_calls : ∀ s ∈ refusedSocket, SocketCall s := by
  intro s hs
  simp only [refusedSocket, List.mem_cons, List.not_mem_nil, or_false] at hs
  rcases hs with rfl | rfl | rfl | rfl
  · exact ⟨_, _, .socket, rfl, .inl rfl, .inl rfl, rfl, rfl, rfl, rfl, fun _ => rfl⟩
  · exact ⟨_, _, .socket, rfl, .inr rfl, .inl rfl, rfl, rfl, rfl, rfl, fun _ => rfl⟩
  · exact ⟨_, _, .close, rfl, .inl rfl, .inr rfl, rfl, rfl, rfl, rfl, fun _ => rfl⟩
  · exact ⟨_, _, .close, rfl, .inr rfl, .inr rfl, rfl, rfl, rfl, rfl, fun _ => rfl⟩

/-- No creating call completes: the map is the same with all of the reservations and with none. -/
theorem socketFds_determined_iff_close :
    ¬CreatesSocket allProbes refusedSocket ∧ ∀ key,
      (run allProbes refusedSocket).socketFdState.lookup key =
        (run allProbes (refusedSocket.map (Step.withReserve false))).socketFdState.lookup key := by
  have hno : ¬CreatesSocket allProbes refusedSocket := by
    rintro ⟨before, env, kind, args, during, env', ret, rest, heq, -, -, hkind, -, hret, -⟩
    have hexit : Step.deliver env' (.exitNetwork kind ret) ∈ refusedSocket := by
      rw [heq]
      simp
    simp only [refusedSocket, List.mem_cons, List.not_mem_nil, or_false, Step.deliver.injEq, reduceCtorEq,
      and_false, false_or, Hook.exitNetwork.injEq] at hexit
    rcases hexit with ⟨-, rfl, rfl⟩ | ⟨-, rfl, rfl⟩
    · exact absurd hret (by decide)
    · cases hkind
  exact ⟨hno, (socketFds_determined_iff allProbes refusedSocket refusedSocket_calls).mpr hno _ _ rfl
    (SameCalls.map_withReserve refusedSocket false)⟩

/-! ## A loss at the exit of `socket` -/

/-- `socket` returns descriptor 3; `ok` is the outcome of the reservation at its exit. -/
def socketOnce (ok : Bool) : List Step :=
  [.deliver readableEnv (.enterNetwork .socket (.of 2 1 0 0 0 0)),
    .deliver (readableEnv.withReserve ok) (.exitNetwork .socket 3)]

/-- The descriptor is tracked or not, by the reservation of the record. -/
theorem not_socketFds_determined :
    ¬ ∀ maps steps, (∀ s ∈ steps, SocketCall s) →
      ∀ steps₁ steps₂, SameCalls steps₁ steps → SameCalls steps₂ steps → ∀ key,
        (run maps steps₁).socketFdState.lookup key = (run maps steps₂).socketFdState.lookup key := by
  intro h
  have hcalls : ∀ s ∈ socketOnce true, SocketCall s := by
    intro s hs
    simp only [socketOnce, List.mem_cons, List.not_mem_nil, or_false] at hs
    rcases hs with rfl | rfl
    · exact ⟨_, _, .socket, rfl, .inl rfl, .inl rfl, rfl, rfl, rfl, rfl, fun _ => rfl⟩
    · exact ⟨_, _, .socket, rfl, .inr rfl, .inl rfl, rfl, rfl, rfl, rfl, fun _ => rfl⟩
  have heq := h allProbes (socketOnce true) hcalls (socketOnce true) (socketOnce false) rfl rfl
    ⟨7, 3⟩
  have htracked : (run allProbes (socketOnce true)).socketFdState.lookup ⟨7, 3⟩ = some ⟨1⟩ := by
    decide
  have hlost : (run allProbes (socketOnce false)).socketFdState.lookup ⟨7, 3⟩ = none := by
    decide
  rw [htracked, hlost] at heq
  cases heq

end ETraceGen.Bpf
