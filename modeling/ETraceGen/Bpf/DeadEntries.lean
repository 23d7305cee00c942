import ETraceGen.Bpf.Records
import ETraceGen.Bpf.Tracked

/-!
# Descriptors of processes that are gone

`socket_fd_state` is no LRU map, and `on_sched_exit` does not touch it: a descriptor that a process leaves
behind stays tracked, and the next process with its number inherits it.

* `Host`, `Host.step` : the kernel maps, the threads that run, the network call each of them is in and the
  descriptors their processes were given as sockets and have not closed;
* `Host.Clean` : the steps at which nothing is left behind;
* `Host.Inv`, `step_inv` : every entry is of a process that runs, which was given it and has not closed it;
* `noDeadEntries` : what holds in every state of a clean run.
-/

namespace ETraceGen.Bpf

/-! ## The host -/

/-- The network call a thread is in, and whether its descriptor is a socket. -/
structure NetworkCall where
  kind : NetworkEventKind
  args : SyscallArgs
  onSocket : Bool
  deriving DecidableEq

/-- The handlers' state, and what no handler looks at: the threads that run, by their `pid_tgid`, the call each
of them is in, and the descriptors that creating calls have given to the processes that run, and that these have not
closed since. -/
structure Host where
  kernel : Kernel := {}
  threads : Finset UInt64 := ∅
  calls : UInt64 → Option NetworkCall := fun _ => none
  given : Finset SocketFdKey := ∅

namespace Host

/-- A thread begins, or a step is made; `onSocket` says of an enter whether its descriptor is a socket. -/
inductive Act where
  | start (pidTgid : UInt64)
  | step (s : Step) (onSocket : Bool)

def Act.hit? : Act → Option (UInt64 × Hook)
  | .start _ => none
  | .step s _ => s.hit?

/-- A thread of the process runs. -/
def Running (s : Host) (tgid : UInt32) : Prop := ∃ p ∈ s.threads, tgidOf p = tgid

instance (s : Host) (tgid : UInt32) : Decidable (s.Running tgid) := by
  unfold Running
  infer_instance

def setCall (s : Host) (pidTgid : UInt64) (call : Option NetworkCall) : Host :=
  { s with calls := Function.update s.calls pidTgid call }

/-- A thread that ends is in no call any more, and the last one takes the descriptors with it. -/
def exitThread (s : Host) (pidTgid : UInt64) : Host :=
  let s := { s.setCall pidTgid none with threads := s.threads.erase pidTgid }
  if s.Running (tgidOf pidTgid) then s
  else { s with given := s.given.filter fun key => key.tgid ≠ tgidOf pidTgid }

/-- A thread makes its calls one after another. -/
def hit (s : Host) (pidTgid : UInt64) (onSocket : Bool) : Hook → Option Host
  | .enterNetwork kind args =>
    if s.calls pidTgid = none then some (s.setCall pidTgid (some ⟨kind, args, onSocket⟩)) else none
  | .exitNetwork kind _ =>
    if (s.calls pidTgid).map NetworkCall.kind = some kind then some (s.setCall pidTgid none) else none
  | .schedExit => some (s.exitThread pidTgid)
  | _ => some s

/-- The exit of a call is handled: its enter was saved, and it is let through with room for its record. -/
def handles (maps : ProbeMaps) (s : Host) (env : HookEnv) (kind : NetworkEventKind) : Bool :=
  networkGate maps env kind && env.reserveOk && (s.kernel.networkEnterState.lookup (makeNetworkKey env kind)).isSome

/-- The descriptors that a creating call gives to the process that makes it, if its exit is handled. -/
def givenBy (maps : ProbeMaps) (s : Host) : Step → Finset SocketFdKey
  | .deliver env (.exitNetwork kind ret) =>
    match s.calls env.pidTgid with
    | some call =>
      if s.handles maps env kind then ((trackedFds call.args env ret kind).map (socketFdKey env)).toFinset else ∅
    | none => ∅
  | _ => ∅

/-- The descriptor that a `close` closes, if its exit is handled. -/
def closedBy (maps : ProbeMaps) (s : Host) : Step → Finset SocketFdKey
  | .deliver env (.exitNetwork kind ret) =>
    match s.calls env.pidTgid with
    | some call =>
      if s.handles maps env kind then
        ((untrackedFd? call.args ret kind).toList.map (socketFdKey env)).toFinset
      else ∅
    | none => ∅
  | _ => ∅

def exec (maps : ProbeMaps) (s : Host) (step : Step) : Host :=
  { s with
    kernel := Bpf.exec maps s.kernel step
    given := s.given \ s.closedBy maps step ∪ s.givenBy maps step }

def step (maps : ProbeMaps) (s : Host) : Act → Option Host
  | .start pidTgid =>
    if pidTgid ∈ s.threads then none else some { s with threads := insert pidTgid s.threads }
  | .step step onSocket =>
    match step.hit? with
    | none => some (s.exec maps step)
    | some (pidTgid, hook) =>
      if pidTgid ∈ s.threads then (s.exec maps step).hit pidTgid onSocket hook else none

/-- The calls whose exit goes by what their enter saved of a descriptor: those on one, and `socketpair`. -/
def GoesByEnter (kind : NetworkEventKind) : Prop := isGated kind = true ∨ kind = .socketpair

/-- The steps that leave nothing behind:
* the last thread of a process ends after the process has closed each descriptor that it was given as a socket, by a
  `close` that was handled;
* before it reads, writes or closes something else under the number of such a descriptor, in a call whose enter is
  saved, it has closed it likewise;
* no thread ends in a call that goes by its enter and had it saved, and no exit of such a call goes unseen. -/
structure Clean (maps : ProbeMaps) (s : Host) (act : Act) : Prop where
  closed : ∀ p, act.hit? = some (p, .schedExit) → (∀ q ∈ s.threads, tgidOf q = tgidOf p → q = p) →
    ∀ key ∈ s.given, key.tgid ≠ tgidOf p
  reused : ∀ env kind args, act = .step (.deliver env (.enterNetwork kind args)) false → isGated kind = true →
    networkGate maps env kind = true → HelpersOk env → socketFdKey env args.fd ∉ s.given
  idle : ∀ p, act.hit? = some (p, .schedExit) → ∀ kind, GoesByEnter kind →
    s.kernel.networkEnterState.lookup ⟨p, kind⟩ = none
  seen : ∀ p kind ret b, act = .step (.absent p (.exitNetwork kind ret)) b → GoesByEnter kind →
    s.kernel.networkEnterState.lookup ⟨p, kind⟩ = none

/-- The states of the runs all of whose steps are `ok`, from the freshly loaded object on. -/
inductive Run (maps : ProbeMaps) (ok : Host → Act → Prop) : Host → Prop where
  | init : Run maps ok {}
  | step {s s' : Host} {act : Act} (h : Run maps ok s) (hok : ok s act)
      (hstep : s.step maps act = some s') : Run maps ok s'

/-- What the map is to say about processes that are gone: nothing. No entry is of a process without threads, so
that one that begins finds none of its descriptors tracked; the entries are no more than those of the processes
that run; and a gated call on something that is no socket gives no record when it exits. -/
structure NoDeadEntries (maps : ProbeMaps) (s : Host) : Prop where
  gone : ∀ tgid, ¬s.Running tgid → ∀ key ∈ s.kernel.socketFdState, key.tgid ≠ tgid
  bounded : KeyedMap.size s.kernel.socketFdState ≤
    (s.kernel.socketFdState.keys.filter fun key => s.Running key.tgid).length
  silent : ∀ p kind args, s.calls p = some ⟨kind, args, false⟩ → isGated kind = true → ∀ env : HookEnv,
    env.pidTgid = p → ∀ ret,
      (handle maps env (.exitNetwork kind ret) s.kernel).events.records = s.kernel.events.records

end Host

/-! ## What a step does to the maps -/

section Maps
variable {maps : ProbeMaps} {k : Kernel}

theorem mem_addSocketFd {env : HookEnv} {ok : Bool} {fd : Int32} {key : SocketFdKey}
    (h : key ∈ (addSocketFd env ok fd k).socketFdState) :
    key ∈ k.socketFdState ∨ ok = true ∧ key = socketFdKey env fd := by
  unfold addSocketFd at h
  split_ifs at h with hok
  · exact ((AList.mem_insert _).mp h).symm.imp_right fun hkey => ⟨hok, hkey⟩
  · exact Or.inl h

/-- Behind a finished call no descriptor is tracked but those before, without the one it has closed, and those it has
made. -/
theorem mem_trackSocketFds {enterEnv env : HookEnv} {kind : NetworkEventKind} {args : SyscallArgs} {ret : Int64}
    {state : NetworkStateValue} {key : SocketFdKey}
    (hstate : kind = .close ∨ kind = .socketpair → state = networkPayload enterEnv kind args)
    (h : key ∈ (trackSocketFds env kind ret state k).socketFdState) :
    (key ∈ k.socketFdState ∧ ∀ fd, untrackedFd? args ret kind = some fd → key ≠ socketFdKey env fd) ∨
      ∃ fd ∈ trackedFds args env ret kind, key = socketFdKey env fd := by
  have hkept : untrackedFd? args ret kind = none →
      ∀ fd, untrackedFd? args ret kind = some fd → key ≠ socketFdKey env fd := by
    intro hnone fd hclosed
    rw [hnone] at hclosed
    cases hclosed
  unfold trackSocketFds at h
  by_cases hret : 0 ≤ ret
  · rw [if_pos hret] at h
    cases kind with
    | socket =>
      exact (mem_addSocketFd h).imp (fun h => ⟨h, hkept rfl⟩) fun h => ⟨_, by simp [trackedFds, hret, h.1], h.2⟩
    | accept =>
      exact (mem_addSocketFd h).imp (fun h => ⟨h, hkept rfl⟩) fun h => ⟨_, by simp [trackedFds, hret, h.1], h.2⟩
    | accept4 =>
      exact (mem_addSocketFd h).imp (fun h => ⟨h, hkept rfl⟩) fun h => ⟨_, by simp [trackedFds, hret, h.1], h.2⟩
    | socketpair =>
      have hsv : state.peerFdPtr = args.sv := by
        rw [hstate (Or.inr rfl)]
        rfl
      dsimp only at h
      rw [hsv] at h
      split_ifs at h with hnull
      · exact Or.inl ⟨h, hkept rfl⟩
      · cases hread : readFdPair env.mem args.sv with
        | none =>
          rw [hread] at h
          exact Or.inl ⟨h, hkept rfl⟩
        | some pair =>
          rw [hread] at h
          rcases mem_addSocketFd h with h | ⟨hpeer, hkey⟩
          · exact (mem_addSocketFd h).imp (fun h => ⟨h, hkept rfl⟩)
              fun h => ⟨_, by simp [trackedFds, hret, hnull, hread, h.1], h.2⟩
          · exact Or.inr ⟨_, by simp [trackedFds, hret, hnull, hread, hpeer], hkey⟩
    | close =>
      have hfd : state.ev.fd = args.fd := by
        rw [hstate (Or.inl rfl)]
        rfl
      obtain ⟨hne, hmem⟩ := AList.mem_erase.mp h
      refine Or.inl ⟨hmem, fun fd hclosed => ?_⟩
      rw [untrackedFd?, if_pos hret] at hclosed
      rw [← Option.some.inj hclosed, ← hfd]
      exact hne
    | _ => exact Or.inl ⟨h, hkept rfl⟩
  · rw [if_neg hret] at h
    refine Or.inl ⟨h, hkept ?_⟩
    cases kind <;> simp [untrackedFd?, hret]

/-- What is saved was saved before, or by an enter that passed its gate. -/
theorem lookup_exec {step : Step} {q : UInt64} {kind : NetworkEventKind} {state : NetworkStateValue}
    (h : (exec maps k step).networkEnterState.lookup ⟨q, kind⟩ = some state) :
    k.networkEnterState.lookup ⟨q, kind⟩ = some state ∨
      ∃ env args, step = .deliver env (.enterNetwork kind args) ∧ env.pidTgid = q ∧
        networkEnterGate maps env kind args k = true ∧ HelpersOk env ∧ state = networkPayload env kind args := by
  cases hbefore : k.networkEnterState.lookup ⟨q, kind⟩ with
  | some state' =>
    left
    by_cases hremoves : (networkOp maps k step).removesKey ⟨q, kind⟩
    · rw [networkEntry_of_removes hremoves] at h
      cases h
    · rwa [networkEntry_of_stored hbefore hremoves] at h
  | none =>
    right
    by_cases henter : ∀ state', networkOp maps k step ≠ .enter ⟨q, kind⟩ state' true
    · rw [networkEntry_of_none hbefore henter] at h
      cases h
    · obtain ⟨state', hop⟩ := not_forall_not.mp henter
      obtain rfl := Option.some.inj ((networkEntry_of_enter hbefore hop).symm.trans h)
      obtain ⟨env, args, rfl, hpid, hstate, -⟩ := networkOp_eq_enter maps hop
      simp only [networkOp] at hop
      split_ifs at hop with hgate hroom hscratch
      have hupdate : env.updateOk = true := (Pairing.Op.enter.inj hop).2.2
      exact ⟨env, args, rfl, hpid, by simpa using hgate, ⟨by simpa using hroom, hupdate, hscratch⟩, hstate⟩

end Maps

/-! ## The invariant -/

namespace Host

/-- Every entry was given to a process that runs, which has not closed it, and what is saved is saved for the call its
thread is in, whose descriptor is a socket if the call is gated. -/
structure Inv (maps : ProbeMaps) (s : Host) : Prop where
  entries : ∀ key ∈ s.kernel.socketFdState, key ∈ s.given
  running : ∀ key ∈ s.given, s.Running key.tgid
  saved : ∀ p kind state, GoesByEnter kind → s.kernel.networkEnterState.lookup ⟨p, kind⟩ = some state →
    ∃ call, s.calls p = some call ∧ call.kind = kind ∧ (isGated kind = true → call.onSocket = true) ∧
      (∃ enterEnv, state = networkPayload enterEnv kind call.args) ∧
      ∀ env : HookEnv, env.pidTgid = p → networkGate maps env kind = true

section Step
variable {maps : ProbeMaps} {s s' : Host} {p : UInt64} {step : Step} {hook : Hook}

/-- Nothing is saved for a thread outside all calls. -/
theorem Inv.lookup_idle (h : s.Inv maps) (hidle : s.calls p = none) {kind : NetworkEventKind}
    (hkind : GoesByEnter kind) : s.kernel.networkEnterState.lookup ⟨p, kind⟩ = none := by
  by_contra hsome
  obtain ⟨state, hs⟩ := Option.ne_none_iff_exists'.mp hsome
  obtain ⟨call, hcall, -⟩ := h.saved _ _ _ hkind hs
  rw [hidle] at hcall
  cases hcall

theorem setCall_self (call : Option NetworkCall) : (s.setCall p call).calls p = call :=
  Function.update_self ..

theorem setCall_of_ne {q : UInt64} (hne : q ≠ p) {call : Option NetworkCall} :
    (s.setCall p call).calls q = s.calls q := Function.update_of_ne hne ..

variable (maps s) in
/-- Only the exit of a network call gives a descriptor or takes one away. -/
theorem exec_of_not_exit (h : ∀ env kind ret, step ≠ .deliver env (.exitNetwork kind ret)) :
    (s.exec maps step).kernel.socketFdState = s.kernel.socketFdState ∧ (s.exec maps step).given = s.given := by
  constructor
  · show (Bpf.exec maps s.kernel step).socketFdState = _
    rw [exec_eq]
    show Edit.applyAll (effect maps _ step).fds _ = _
    rw [fds_of_other h]
    rfl
  · have hgiven : s.givenBy maps step = ∅ := by
      unfold givenBy
      split
      · exact absurd rfl (h _ _ _)
      · rfl
    have hclosed : s.closedBy maps step = ∅ := by
      unfold closedBy
      split
      · exact absurd rfl (h _ _ _)
      · rfl
    show s.given \ s.closedBy maps step ∪ s.givenBy maps step = s.given
    rw [hgiven, hclosed, Finset.sdiff_empty, Finset.union_empty]

/-- What is given is given to the process of the task that makes the step. -/
theorem givenBy_tgid {env : HookEnv} {kind : NetworkEventKind} {ret : Int64} {key : SocketFdKey}
    (h : key ∈ s.givenBy maps (.deliver env (.exitNetwork kind ret))) : key.tgid = tgidOf env.pidTgid := by
  unfold givenBy at h
  dsimp only at h
  split at h
  · split_ifs at h
    · obtain ⟨fd, -, rfl⟩ := List.mem_map.mp (List.mem_toFinset.mp h)
      rfl
    · exact absurd h (Finset.notMem_empty key)
  · exact absurd h (Finset.notMem_empty key)

/-- What an exit that is handled gives and takes. -/
theorem mem_given_of_handled {env : HookEnv} {ret : Int64} {call : NetworkCall} (hcall : s.calls env.pidTgid = some call)
    (hhandled : s.handles maps env call.kind = true) {key : SocketFdKey} :
    key ∈ (s.exec maps (.deliver env (.exitNetwork call.kind ret))).given ↔
      (key ∈ s.given ∧ ∀ fd, untrackedFd? call.args ret call.kind = some fd → key ≠ socketFdKey env fd) ∨
        ∃ fd ∈ trackedFds call.args env ret call.kind, key = socketFdKey env fd := by
  show key ∈ s.given \ s.closedBy maps _ ∪ s.givenBy maps _ ↔ _
  simp only [givenBy, closedBy, hcall, if_pos hhandled, Finset.mem_union, Finset.mem_sdiff, List.mem_toFinset,
    List.mem_map, Option.mem_toList, not_exists, not_and]
  exact or_congr (and_congr_right fun _ => forall₂_congr fun fd _ => not_congr eq_comm)
    (exists_congr fun fd => and_congr_right fun _ => eq_comm)

theorem given_of_not_handled {env : HookEnv} {kind : NetworkEventKind} {ret : Int64}
    (hhandled : ¬s.handles maps env kind = true) :
    (s.exec maps (.deliver env (.exitNetwork kind ret))).given = s.given := by
  show s.given \ s.closedBy maps _ ∪ s.givenBy maps _ = _
  simp only [givenBy, closedBy, if_neg hhandled]
  cases s.calls env.pidTgid <;> simp

/-- The exit of the call that a thread is in. -/
theorem Inv.entries_exit (h : s.Inv maps) {env : HookEnv} {kind : NetworkEventKind} {ret : Int64}
    (hcall : (s.calls env.pidTgid).map NetworkCall.kind = some kind) :
    ∀ key ∈ (s.exec maps (.deliver env (.exitNetwork kind ret))).kernel.socketFdState,
      key ∈ (s.exec maps (.deliver env (.exitNetwork kind ret))).given := by
  intro key hkey
  obtain ⟨call, hc, rfl⟩ := Option.map_eq_some_iff.mp hcall
  change key ∈ (handle maps env (.exitNetwork call.kind ret) s.kernel).socketFdState at hkey
  rw [socketFdState_exit] at hkey
  by_cases hhandled : s.handles maps env call.kind = true
  · rw [mem_given_of_handled hc hhandled]
    rw [handles, Bool.and_eq_true] at hhandled
    obtain ⟨hready, hsome⟩ := hhandled
    obtain ⟨state, hs⟩ := Option.isSome_iff_exists.mp hsome
    simp only [hs, hready, if_true] at hkey
    have hstate : ∃ enterEnv, call.kind = .close ∨ call.kind = .socketpair →
        state = networkPayload enterEnv call.kind call.args := by
      by_cases hkind : GoesByEnter call.kind
      · obtain ⟨call', hc', -, -, ⟨enterEnv, hpayload⟩, -⟩ := h.saved _ _ _ hkind hs
        obtain rfl := Option.some.inj (hc.symm.trans hc')
        exact ⟨enterEnv, fun _ => hpayload⟩
      · refine ⟨env, fun hcloses => absurd (hcloses.imp_left fun hclose => ?_) hkind⟩
        rw [hclose]
        rfl
    obtain ⟨enterEnv, hpayload⟩ := hstate
    exact (mem_trackSocketFds hpayload hkey).imp_left fun hmem => ⟨h.entries key hmem.1, hmem.2⟩
  · rw [given_of_not_handled hhandled]
    cases hs : s.kernel.networkEnterState.lookup (makeNetworkKey env call.kind) with
    | none =>
      rw [hs] at hkey
      exact h.entries key hkey
    | some state =>
      have hready : ¬(networkGate maps env call.kind && env.reserveOk) = true := by
        simpa [handles, hs] using hhandled
      simp only [hs, if_neg hready] at hkey
      exact h.entries key hkey

/-- A step that is no exit of a network call. -/
theorem Inv.entries_exec (h : s.Inv maps) (hstep : ∀ env kind ret, step ≠ .deliver env (.exitNetwork kind ret)) :
    ∀ key ∈ (s.exec maps step).kernel.socketFdState, key ∈ (s.exec maps step).given := by
  obtain ⟨hstate, hgiven⟩ := exec_of_not_exit maps s hstep
  rw [hstate, hgiven]
  exact h.entries

/-- A step of no thread: something is evicted. -/
theorem Inv.evict (h : s.Inv maps) (hhit : step.hit? = none) : (s.exec maps step).Inv maps := by
  have hstep : ∀ env kind ret, step ≠ .deliver env (.exitNetwork kind ret) := by
    rintro env kind ret rfl
    cases hhit
  refine ⟨h.entries_exec hstep, ?_, fun p kind state hkind hs => ?_⟩
  · rw [(exec_of_not_exit maps s hstep).2]
    exact h.running
  · rcases lookup_exec hs with hs | ⟨env, args, rfl, -⟩
    · exact h.saved p kind state hkind hs
    · cases hhit

theorem Inv.running_exec (h : s.Inv maps) (hp : p ∈ s.threads) (hhit : step.hit? = some (p, hook)) :
    ∀ key ∈ (s.exec maps step).given, s.Running key.tgid := by
  intro key hkey
  rcases Finset.mem_union.mp hkey with hkey | hkey
  · exact h.running key (Finset.mem_sdiff.mp hkey).1
  · by_cases hexit : ∃ env kind ret, step = .deliver env (.exitNetwork kind ret)
    · obtain ⟨env, kind, ret, rfl⟩ := hexit
      cases hhit
      exact ⟨_, hp, (givenBy_tgid hkey).symm⟩
    · unfold givenBy at hkey
      split at hkey
      · exact absurd ⟨_, _, _, rfl⟩ hexit
      · exact absurd hkey (Finset.notMem_empty key)

/-- An enter saves its call, at a descriptor that is a socket if the call is gated. -/
theorem Inv.enter (h : s.Inv maps) {kind : NetworkEventKind} {args : SyscallArgs} {onSocket : Bool}
    (hok : s.Clean maps (.step step onSocket)) (hp : p ∈ s.threads)
    (hhit : step.hit? = some (p, .enterNetwork kind args)) (hidle : s.calls p = none) :
    ((s.exec maps step).setCall p (some ⟨kind, args, onSocket⟩)).Inv maps where
  entries := h.entries_exec (by rintro env kind' ret rfl; cases hhit)
  running := h.running_exec hp hhit
  saved := by
    intro q kind' state hkind hs
    rcases lookup_exec hs with hbefore | ⟨env, args', rfl, hq, hgate, hok', hstate⟩
    · have hne : q ≠ p := by
        rintro rfl
        cases (h.lookup_idle hidle hkind).symm.trans hbefore
      rw [setCall_of_ne hne]
      exact h.saved q kind' state hkind hbefore
    · cases hhit
      subst hq
      have hgates := Bool.and_eq_true_iff.mp hgate
      refine ⟨⟨kind, args, onSocket⟩, setCall_self _, rfl, fun hgated => ?_, ⟨env, hstate⟩,
        fun env' henv' => (networkGate_congr maps henv' kind).trans hgates.1⟩
      -- a descriptor that is something else now has been closed before
      cases onSocket with
      | true => rfl
      | false =>
        have hsocket : isSocketFd env args.fd s.kernel = true := by
          simpa [gateFd, hgated] using hgates.2
        have htracked : socketFdKey env args.fd ∈ s.kernel.socketFdState := by
          unfold isSocketFd at hsocket
          split at hsocket
          · cases hsocket
          · exact KeyedMap.mem_of_lookup ‹_›
        exact absurd (h.entries _ htracked) (hok.reused env kind args rfl hgated hgates.1 hok')

/-- An exit leaves nothing saved for its thread. -/
theorem Inv.exit (h : s.Inv maps) {kind : NetworkEventKind} {ret : Int64} {onSocket : Bool}
    (hok : s.Clean maps (.step step onSocket)) (hp : p ∈ s.threads)
    (hhit : step.hit? = some (p, .exitNetwork kind ret))
    (hcall : (s.calls p).map NetworkCall.kind = some kind) :
    ((s.exec maps step).setCall p none).Inv maps where
  entries := by
    cases step with
    | deliver env hook =>
      cases hhit
      exact h.entries_exit hcall
    | _ => exact h.entries_exec (by rintro env kind' ret' heq; cases heq)
  running := h.running_exec hp hhit
  saved := by
    intro q kind' state hkind hs
    rcases lookup_exec hs with hbefore | ⟨env, args', rfl, -⟩
    · have hsaved := h.saved q kind' state hkind hbefore
      have hne : q ≠ p := by
        rintro rfl
        obtain ⟨call, hc, hcallKind, -, -, hgate⟩ := hsaved
        rw [hc] at hcall
        obtain rfl : kind' = kind := hcallKind.symm.trans (Option.some.inj hcall)
        cases step with
        | deliver env hook =>
          cases hhit
          have hremoves : (networkOp maps s.kernel (.deliver env (.exitNetwork kind' ret))).removesKey
              ⟨env.pidTgid, kind'⟩ := by
            rw [networkOp, hgate env rfl]
            rfl
          cases (networkEntry_of_removes hremoves).symm.trans hs
        | absent pidTgid hook =>
          cases hhit
          cases (hok.seen _ kind' ret onSocket rfl hkind).symm.trans hbefore
        | _ => cases hhit
      rw [setCall_of_ne hne]
      exact hsaved
    · cases hhit

/-- A thread that ends leaves nothing saved, and the last one of a process nothing open. -/
theorem Inv.exitThread (h : s.Inv maps) {onSocket : Bool} (hok : s.Clean maps (.step step onSocket))
    (hp : p ∈ s.threads) (hhit : step.hit? = some (p, .schedExit)) :
    ((s.exec maps step).exitThread p).Inv maps := by
  have hstep : ∀ env kind ret, step ≠ .deliver env (.exitNetwork kind ret) := by
    rintro env kind ret rfl
    cases hhit
  obtain ⟨hstate, hgiven⟩ := exec_of_not_exit maps s hstep
  have hsaved : ∀ q kind state, GoesByEnter kind →
      (s.exec maps step).kernel.networkEnterState.lookup ⟨q, kind⟩ = some state →
        ∃ call, Function.update s.calls p none q = some call ∧ call.kind = kind ∧
          (isGated kind = true → call.onSocket = true) ∧
          (∃ enterEnv, state = networkPayload enterEnv kind call.args) ∧
          ∀ env : HookEnv, env.pidTgid = q → networkGate maps env kind = true := by
    intro q kind state hkind hs
    rcases lookup_exec hs with hbefore | ⟨env, args', rfl, -⟩
    · have hne : q ≠ p := by
        rintro rfl
        rw [hok.idle q hhit kind hkind] at hbefore
        cases hbefore
      rw [Function.update_of_ne hne]
      exact h.saved q kind state hkind hbefore
    · cases hhit
  have hother : ∀ tgid, tgid ≠ tgidOf p → s.Running tgid → ∃ q ∈ s.threads.erase p, tgidOf q = tgid := by
    rintro tgid hne ⟨q, hq, rfl⟩
    exact ⟨q, Finset.mem_erase.mpr ⟨fun hqp => hne (by rw [hqp]), hq⟩, rfl⟩
  unfold Host.exitThread
  dsimp only
  split_ifs with hrun
  · refine ⟨h.entries_exec hstep, fun key hkey => ?_, hsaved⟩
    have hkg : key ∈ s.given := hgiven ▸ hkey
    by_cases htgid : key.tgid = tgidOf p
    · rwa [htgid]
    · exact hother _ htgid (h.running key hkg)
  · have hlast : ∀ q ∈ s.threads, tgidOf q = tgidOf p → q = p := by
      intro q hq htgid
      by_contra hne
      exact hrun ⟨q, Finset.mem_erase.mpr ⟨hne, hq⟩, htgid⟩
    refine ⟨fun key hkey => ?_, fun key hkey => ?_, hsaved⟩
    · have hkg : key ∈ (s.exec maps step).given := h.entries_exec hstep key hkey
      exact Finset.mem_filter.mpr ⟨hkg, hok.closed p hhit hlast key (hgiven ▸ hkg)⟩
    · obtain ⟨hkg, htgid⟩ := Finset.mem_filter.mp hkey
      exact hother _ htgid (h.running key (hgiven ▸ hkg))

/-- A hit that is neither of a network call nor a thread's end. -/
theorem Inv.other (h : s.Inv maps) (hp : p ∈ s.threads) (hhit : step.hit? = some (p, hook))
    (henter : ∀ kind args, hook ≠ .enterNetwork kind args) (hexit : ∀ kind ret, hook ≠ .exitNetwork kind ret) :
    (s.exec maps step).Inv maps where
  entries := by
    refine h.entries_exec ?_
    rintro env kind ret rfl
    cases hhit
    exact hexit kind ret rfl
  running := h.running_exec hp hhit
  saved := by
    intro q kind state hkind hs
    rcases lookup_exec hs with hs | ⟨env, args, rfl, -⟩
    · exact h.saved q kind state hkind hs
    · cases hhit
      exact absurd rfl (henter kind args)

theorem step_inv {act : Act} (h : s.Inv maps) (hok : s.Clean maps act) (hstep : s.step maps act = some s') :
    s'.Inv maps := by
  cases act with
  | start p =>
    unfold Host.step at hstep
    dsimp only at hstep
    split_ifs at hstep
    obtain rfl := Option.some.inj hstep
    refine ⟨h.entries, fun key hkey => ?_, h.saved⟩
    obtain ⟨q, hq, htgid⟩ := h.running key hkey
    exact ⟨q, Finset.mem_insert_of_mem hq, htgid⟩
  | step step onSocket =>
    unfold Host.step at hstep
    dsimp only at hstep
    split at hstep
    · obtain rfl := Option.some.inj hstep
      exact h.evict ‹_›
    · rename_i p hook hhit
      split_ifs at hstep with hp
      cases hook with
      | enterNetwork kind args =>
        unfold Host.hit at hstep
        dsimp only at hstep
        split_ifs at hstep with hidle
        obtain rfl := Option.some.inj hstep
        exact h.enter hok hp hhit hidle
      | exitNetwork kind ret =>
        unfold Host.hit at hstep
        dsimp only at hstep
        split_ifs at hstep with hcall
        obtain rfl := Option.some.inj hstep
        exact h.exit hok hp hhit hcall
      | schedExit =>
        obtain rfl := Option.some.inj hstep
        exact h.exitThread hok hp hhit
      | _ =>
        obtain rfl := Option.some.inj hstep
        exact h.other hp hhit (fun kind args hhook => by cases hhook) fun kind ret hhook => by cases hhook

end Step

theorem Run.inv {maps : ProbeMaps} {s : Host} (h : s.Run maps (Clean maps)) : s.Inv maps := by
  induction h with
  | init =>
    refine ⟨fun key hkey => ?_, fun key hkey => absurd hkey (Finset.notMem_empty key),
      fun p kind state _ hs => ?_⟩
    · exact absurd hkey (AList.notMem_empty key)
    · cases hs
  | step h hok hstep ih => exact step_inv ih hok hstep

/-- The exit of a call whose enter saved nothing gives no record. -/
theorem exit_records {maps : ProbeMaps} {k : Kernel} {env : HookEnv} {kind : NetworkEventKind}
    (h : k.networkEnterState.lookup (makeNetworkKey env kind) = none) (ret : Int64) :
    (handle maps env (.exitNetwork kind ret) k).events.records = k.events.records := by
  rw [handle, handleExitNetwork_eq, exitNetwork_eq, emitNetworkExitEvent_of_none env ret h]
  split_ifs <;> rfl

end Host

/-- **No process inherits a descriptor.** In every state of a run in which each process has closed the sockets it was
given before it ends, and before it uses their numbers for something else, and no call that goes by its enter is lost,
the map says nothing about processes that are gone. -/
theorem noDeadEntries {maps : ProbeMaps} {s : Host} (h : s.Run maps (Host.Clean maps)) :
    s.NoDeadEntries maps where
  gone := by
    rintro tgid hgone key hkey rfl
    exact hgone (h.inv.running key (h.inv.entries key hkey))
  bounded := by
    rw [List.filter_eq_self.mpr fun key hkey => decide_eq_true (h.inv.running key (h.inv.entries key hkey))]
    exact le_refl _
  silent := by
    rintro p kind args hcall hgated env rfl ret
    refine Host.exit_records ?_ ret
    by_contra hsome
    obtain ⟨state, hs⟩ := Option.ne_none_iff_exists'.mp hsome
    obtain ⟨call, hc, -, hsocket, -⟩ := h.inv.saved _ _ _ (Or.inl hgated) hs
    rw [hcall] at hc
    obtain rfl := Option.some.inj hc
    cases hsocket hgated

/-! ## A process that exits with a socket, and one that closes it first -/

namespace Host

theorem Run.of_acts {maps : ProbeMaps} {ok : Host → Act → Prop} {acts : List Act} {s s' : Host}
    (h : s.Run maps ok) (hok : ∀ s, ∀ act ∈ acts, ok s act) (hacts : acts.foldlM (Host.step maps) s = some s') :
    s'.Run maps ok := by
  induction acts generalizing s with
  | nil =>
    obtain rfl := Option.some.inj hacts
    exact h
  | cons act acts ih =>
    rw [List.foldlM_cons] at hacts
    obtain ⟨mid, hmid, hrest⟩ := Option.bind_eq_some_iff.mp hacts
    exact ih (h.step (hok s act (by simp)) hmid) (fun s a ha => hok s a (by simp [ha])) hrest

def socketActs : List Act :=
  [.start task7,
    .step (.deliver env7 (.enterNetwork .socket (.of 2 1 0 0 0 0))) true,
    .step (.deliver env7 (.exitNetwork .socket 3)) true]

def closeActs : List Act :=
  [.step (.deliver env7 (.enterNetwork .close (.of 3 0 0 0 0 0))) true,
    .step (.deliver env7 (.exitNetwork .close 0)) true]

def exitAct : Act := .step (.deliver env7 .schedExit) true

/-- A read of a file under the number of the socket. -/
def readAct : Act := .step (.deliver env7 (.enterNetwork .read (.of 3 0x2000 16 0 0 0))) false

/-- A delivery that ends no thread and whose descriptor is a socket leaves nothing behind. -/
theorem clean_deliver (maps : ProbeMaps) (s : Host) (env : HookEnv) {hook : Hook} (h : hook ≠ .schedExit) :
    s.Clean maps (.step (.deliver env hook) true) where
  closed := by
    intro p hhit
    cases hhit
    exact absurd rfl h
  reused := by
    intro env kind args hact
    cases hact
  idle := by
    intro p hhit
    cases hhit
    exact absurd rfl h
  seen := by
    intro p kind ret b hact
    cases hact

theorem clean_start (maps : ProbeMaps) (s : Host) (p : UInt64) : s.Clean maps (.start p) where
  closed := by
    intro q hhit
    cases hhit
  reused := by
    intro env kind args hact
    cases hact
  idle := by
    intro q hhit
    cases hhit
  seen := by
    intro q kind ret b hact
    cases hact

theorem clean_socketActs (s : Host) : ∀ act ∈ socketActs ++ closeActs, s.Clean allProbes act := by
  intro act hact
  simp only [socketActs, closeActs, List.cons_append, List.nil_append, List.mem_cons, List.not_mem_nil,
    or_false] at hact
  rcases hact with rfl | rfl | rfl | rfl | rfl
  · exact clean_start allProbes s task7
  all_goals exact clean_deliver allProbes s env7 (by simp)

theorem leftOpen_isSome :
    ((socketActs ++ [exitAct]).foldlM (Host.step allProbes) {}).isSome = true := by decide

theorem closedFirst_isSome :
    ((socketActs ++ closeActs).foldlM (Host.step allProbes) {}).isSome = true := by decide

/-- Process 7 has ended without closing its socket. -/
def leftOpen : Host := Option.get _ leftOpen_isSome

/-- Process 7 is about to end, its socket closed. -/
def closedFirst : Host := Option.get _ closedFirst_isSome

theorem clean_exitAct : closedFirst.Clean allProbes exitAct where
  closed := by
    intro p hhit _
    cases hhit
    decide
  reused := by
    intro env kind args hact
    cases hact
  idle := by
    intro p hhit kind _
    cases hhit
    cases kind <;> decide
  seen := by
    intro p kind ret b hact
    cases hact

theorem exited_isSome : (closedFirst.step allProbes exitAct).isSome = true := by decide

/-- It has ended. -/
def exited : Host := Option.get _ exited_isSome

theorem followed_isSome : ([.start task7].foldlM (Host.step allProbes) exited).isSome = true := by decide

/-- Another process has its number. -/
def followed : Host := Option.get _ followed_isSome

theorem clean_readAct : followed.Clean allProbes readAct where
  closed := by
    intro p hhit
    cases hhit
  reused := by
    intro env kind args hact _ _ _
    cases hact
    decide
  idle := by
    intro p hhit
    cases hhit
  seen := by
    intro p kind ret b hact
    cases hact

theorem reading_isSome : (followed.step allProbes readAct).isSome = true := by decide

end Host

/-- Process 7 opens a socket, closes it and ends, and the next process 7 reads a file under its number: nothing is left
of the socket, and the read gives no record. -/
theorem noDeadEntries_closed :
    ∃ s : Host, s.Run allProbes (Host.Clean allProbes) ∧ s.NoDeadEntries allProbes ∧
      s.calls task7 = some ⟨.read, .of 3 0x2000 16 0 0 0, false⟩ ∧ (⟨7, 3⟩ : SocketFdKey) ∉ s.kernel.socketFdState := by
  have hclosed : Host.closedFirst.Run allProbes (Host.Clean allProbes) :=
    Host.Run.init.of_acts Host.clean_socketActs (Option.some_get _).symm
  have hexited : Host.exited.Run allProbes (Host.Clean allProbes) :=
    hclosed.step Host.clean_exitAct (Option.some_get Host.exited_isSome).symm
  have hfollowed : Host.followed.Run allProbes (Host.Clean allProbes) := by
    refine hexited.of_acts (fun s act hact => ?_) (Option.some_get Host.followed_isSome).symm
    rw [List.mem_singleton.mp hact]
    exact Host.clean_start allProbes s task7
  have hreading := hfollowed.step Host.clean_readAct (Option.some_get Host.reading_isSome).symm
  exact ⟨_, hreading, noDeadEntries hreading, by decide, by decide⟩

/-- A process that ends with its socket open leaves the entry behind. -/
theorem not_noDeadEntries :
    ¬∀ (maps : ProbeMaps) (s : Host), s.Run maps (fun _ _ => True) → s.NoDeadEntries maps := by
  intro hall
  have hrun : Host.leftOpen.Run allProbes (fun _ _ => True) :=
    Host.Run.init.of_acts (fun _ _ _ => trivial) (Option.some_get _).symm
  have hentry : (⟨7, 3⟩ : SocketFdKey) ∈ Host.leftOpen.kernel.socketFdState := by decide
  exact (hall allProbes _ hrun).gone 7 (by decide) ⟨7, 3⟩ hentry rfl

end ETraceGen.Bpf
