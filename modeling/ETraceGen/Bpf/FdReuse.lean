import ETraceGen.Bpf.SocketFds

/-!
# Descriptor tracking under reuse

The threads of one process create and close sockets. The kernel allocates and frees a descriptor
between the enter and the exit of the call, and the handlers change `socket_fd_state` at the exit, so
calls on one descriptor number can take effect in one order and be seen in another.

* `Process`, `Act`, `Process.Step` : the kernel maps, the descriptor table and the calls in progress,
  and what happens to them;
* `Process.Clean` : the three steps at which the order of the exits betrays the handlers;
* `Process.Settled` : a condition on the calls in progress under which there are none of these;
* `Process.Inv` : tracked and open descriptors differ only by the calls in progress;
* `tracked_iff_open` : in every clean run, they do not differ when no call on the descriptor is in
  progress.
-/

namespace ETraceGen.Bpf

open Pairing

/-! ## The process -/

/-- What a descriptor number stands for: nothing, a socket returned by a creating call of the run, or
some other open file. -/
inductive Fd where
  | free | other | socket
  deriving DecidableEq

/-- A call in progress: the descriptors a creating call has been given, and whether the kernel has
freed the descriptor of a `close` yet. -/
inductive Call where
  | create (kind : NetworkEventKind) (args : SyscallArgs) (fds : List Int32)
  | close (args : SyscallArgs) (freed : Bool)

def Call.kind : Call → NetworkEventKind
  | .create kind _ _ => kind
  | .close _ _ => .close

def Call.args : Call → SyscallArgs
  | .create _ args _ => args
  | .close args _ => args

/-- One process: the handlers' state, its descriptor table, and the call each of its threads is in. -/
structure Process where
  kernel : Kernel
  fds : Int32 → Fd
  calls : UInt64 → Option Call

/-- A delivery, and the call its thread is in from then on. -/
def Process.deliver (maps : ProbeMaps) (p : Process) (env : HookEnv) (hook : Hook)
    (call : Option Call) : Process :=
  { p with
    kernel := handle maps env hook p.kernel
    calls := Function.update p.calls env.pidTgid call }

/-- The kernel changes the descriptor table for the call a thread is in. -/
def Process.reassign (p : Process) (fds : Int32 → Fd) (pidTgid : UInt64) (call : Call) : Process :=
  { p with fds := fds, calls := Function.update p.calls pidTgid (some call) }

inductive Act where
  | enterCreate (env : HookEnv) (kind : NetworkEventKind) (args : SyscallArgs)
  | alloc (pidTgid : UInt64) (fds : List Int32)
  | exitCreate (env : HookEnv) (ret : Int64)
  | enterClose (env : HookEnv) (args : SyscallArgs)
  | free (pidTgid : UInt64)
  | exitClose (env : HookEnv)

/-- The delivery is to a thread of the process, and every helper succeeds. -/
structure OfProcess (tgid : UInt32) (env : HookEnv) : Prop where
  tgid : env.tgid = tgid
  helpers : HelpersOk env
  addOk : env.addOk = true
  addPeerOk : env.addPeerOk = true

/-- How a successful creating call hands its descriptors to the caller. -/
def Returns (env : HookEnv) (kind : NetworkEventKind) (args : SyscallArgs) (fds : List Int32)
    (ret : Int64) : Prop :=
  0 ≤ ret ∧
    if kind = .socketpair then
      args.sv ≠ 0 ∧ ∃ fd peerFd, readFdPair env.mem args.sv = some (fd, peerFd) ∧ fds = [fd, peerFd]
    else fds = [ret.toInt32]

section Step
variable (maps : ProbeMaps) (tgid : UInt32)

inductive Process.Step : Process → Act → Process → Prop where
  | enterCreate {p : Process} {env : HookEnv} {kind : NetworkEventKind} {args : SyscallArgs}
      (henv : OfProcess tgid env) (hkind : createsSocket kind = true)
      (hidle : p.calls env.pidTgid = none) :
      Step p (.enterCreate env kind args)
        (p.deliver maps env (.enterNetwork kind args) (some (.create kind args [])))
  /-- the kernel allocates free descriptors to a creating call -/
  | alloc {p : Process} {pidTgid : UInt64} {kind : NetworkEventKind} {args : SyscallArgs}
      {fds : List Int32} (hcall : p.calls pidTgid = some (.create kind args []))
      (hfree : ∀ fd ∈ fds, p.fds fd = .free) (hsome : fds ≠ []) :
      Step p (.alloc pidTgid fds)
        (p.reassign (fun fd => if fd ∈ fds then .socket else p.fds fd) pidTgid
          (.create kind args fds))
  | exitCreate {p : Process} {env : HookEnv} {kind : NetworkEventKind} {args : SyscallArgs}
      {fds : List Int32} {ret : Int64} (henv : OfProcess tgid env)
      (hcall : p.calls env.pidTgid = some (.create kind args fds))
      (hret : Returns env kind args fds ret) :
      Step p (.exitCreate env ret)
        (p.deliver maps env (.exitNetwork kind ret) none)
  | enterClose {p : Process} {env : HookEnv} {args : SyscallArgs} (henv : OfProcess tgid env)
      (hidle : p.calls env.pidTgid = none) :
      Step p (.enterClose env args)
        (p.deliver maps env (.enterNetwork .close args) (some (.close args false)))
  /-- the kernel frees the open descriptor a `close` names -/
  | free {p : Process} {pidTgid : UInt64} {args : SyscallArgs}
      (hcall : p.calls pidTgid = some (.close args false)) (hopen : p.fds args.fd ≠ .free) :
      Step p (.free pidTgid)
        (p.reassign (Function.update p.fds args.fd .free) pidTgid (.close args true))
  | exitClose {p : Process} {env : HookEnv} {args : SyscallArgs} (henv : OfProcess tgid env)
      (hcall : p.calls env.pidTgid = some (.close args true)) :
      Step p (.exitClose env)
        (p.deliver maps env (.exitNetwork .close 0) none)

end Step

namespace Process

/-- A creating call that was given the descriptor is in progress. -/
def Creating (p : Process) (fd : Int32) : Prop :=
  ∃ pidTgid kind args fds, p.calls pidTgid = some (.create kind args fds) ∧ fd ∈ fds

/-- A `close` of the descriptor is in progress. -/
def Closing (p : Process) (fd : Int32) : Prop :=
  ∃ pidTgid args freed, p.calls pidTgid = some (.close args freed) ∧ args.fd = fd

/-- The enter of the call the thread is in was saved. -/
def Saved (p : Process) (pidTgid : UInt64) (kind : NetworkEventKind) : Prop :=
  (p.kernel.networkEnterState.lookup ⟨pidTgid, kind⟩).isSome = true

end Process

/-- The steps at which the handlers agree with the descriptor table:
* a saved `close` does not exit while its descriptor is open again and no creating call that was
  given it is still to exit;
* a creating call does not exit when one of its descriptors is closed already;
* a `close` does not free a socket that its enter did not find tracked. -/
def Process.Clean (p : Process) : Act → Prop
  | .exitClose env => ∀ args, p.calls env.pidTgid = some (.close args true) →
      p.Saved env.pidTgid .close → p.fds args.fd = .socket → p.Creating args.fd
  | .exitCreate env _ => ∀ kind args fds, p.calls env.pidTgid = some (.create kind args fds) →
      ∀ fd ∈ fds, p.fds fd = .socket
  | .free pidTgid => ∀ args, p.calls pidTgid = some (.close args false) →
      p.fds args.fd = .socket → p.Saved pidTgid .close
  | _ => True

/-- The same, by nothing but the calls in progress:
* a `close` does not exit while its descriptor is open again and no creating call that was given it is still to exit;
* a creating call does not exit when one of its descriptors is closed already;
* a `close` does not enter while a creating call that was given its descriptor is still to exit, and no creating call is
  given the descriptor of a `close` that has entered and not freed it yet. -/
def Process.Settled (p : Process) : Act → Prop
  | .exitClose env => ∀ args, p.calls env.pidTgid = some (.close args true) →
      p.fds args.fd = .socket → p.Creating args.fd
  | .exitCreate env _ => ∀ kind args fds, p.calls env.pidTgid = some (.create kind args fds) →
      ∀ fd ∈ fds, p.fds fd = .socket
  | .enterClose _ args => ¬p.Creating args.fd
  | .alloc _ fds => ∀ t args, p.calls t = some (.close args false) → args.fd ∉ fds
  | _ => True

/-- Before the first call: nothing tracked, no socket open, no call in progress. -/
structure Process.Init (p : Process) : Prop where
  kernel : p.kernel = {}
  fds : ∀ fd, p.fds fd ≠ .socket
  calls : ∀ pidTgid, p.calls pidTgid = none

section Run
variable (maps : ProbeMaps) (tgid : UInt32) (ok : Process → Act → Prop)

/-- The states of the runs all of whose steps are `ok`. -/
inductive Process.Run : Process → Prop where
  | init {p : Process} (h : p.Init) : Run p
  | step {p p' : Process} {act : Act} (h : Run p) (hstep : p.Step maps tgid act p')
      (hok : ok p act) : Run p'

/-- The process is traced, and the probes of its calls are enabled. -/
def Traced : Prop :=
  ∀ env : HookEnv, env.tgid = tgid → ∀ kind, createsSocket kind = true ∨ kind = .close →
    networkGate maps env kind = true

end Run

/-! ## What the deliveries do -/

/-- `is_socket_fd` for any thread of the process. -/
def tracks (k : Kernel) (tgid : UInt32) (fd : Int32) : Bool :=
  match k.socketFdState.lookup ⟨tgid, fd.toUInt32⟩ with
  | none => false
  | some value => value.isSocket == 1

theorem isSocketFd_eq (env : HookEnv) (fd : Int32) (k : Kernel) :
    isSocketFd env fd k = tracks k env.tgid fd := rfl

theorem tracks_congr {k k' : Kernel} (h : k'.socketFdState = k.socketFdState) (tgid : UInt32)
    (fd : Int32) : tracks k' tgid fd = tracks k tgid fd := by
  unfold tracks
  rw [h]

theorem socketFdKey_inj {tgid : UInt32} {fd fd' : Int32}
    (h : (⟨tgid, fd.toUInt32⟩ : SocketFdKey) = ⟨tgid, fd'.toUInt32⟩) : fd = fd' := by
  have hfd := (SocketFdKey.mk.inj h).2
  cases fd
  cases fd'
  exact congrArg Int32.ofUInt32 hfd

theorem tracks_addSocketFd (env : HookEnv) (fd fd' : Int32) (k : Kernel) :
    tracks (addSocketFd env true fd k) env.tgid fd' = true ↔
      fd' = fd ∨ tracks k env.tgid fd' = true := by
  unfold tracks addSocketFd socketFdKey
  simp only [if_true, KeyedMap.lookup_insert_ite]
  split_ifs with hkey
  · simp [socketFdKey_inj hkey]
  · have hne : fd' ≠ fd := fun h => hkey (by rw [h])
    simp [hne]

theorem tracks_deleteSocketFd (env : HookEnv) (fd fd' : Int32) (k : Kernel) :
    tracks (deleteSocketFd env fd k) env.tgid fd' = true ↔
      fd' ≠ fd ∧ tracks k env.tgid fd' = true := by
  unfold tracks deleteSocketFd socketFdKey
  simp only [KeyedMap.lookup_erase_ite]
  split_ifs with hkey
  · simp [socketFdKey_inj hkey]
  · have hne : fd' ≠ fd := fun h => hkey (by rw [h])
    simp [hne]

/-- The exit of a creating call tracks the descriptors it returns. -/
theorem tracks_create {env : HookEnv} {kind : NetworkEventKind} {args : SyscallArgs}
    {fds : List Int32} {ret : Int64} {state : NetworkStateValue} (k : Kernel)
    (hkind : createsSocket kind = true) (hret : Returns env kind args fds ret)
    (hptr : kind = .socketpair → state.peerFdPtr = args.sv) (hadd : env.addOk = true)
    (hpeer : env.addPeerOk = true) (fd : Int32) :
    tracks (trackSocketFds env kind ret state k) env.tgid fd = true ↔
      fd ∈ fds ∨ tracks k env.tgid fd = true := by
  obtain ⟨hnonneg, hfds⟩ := hret
  unfold trackSocketFds
  rw [if_pos hnonneg, hadd, hpeer]
  cases kind with
  | socketpair =>
    obtain ⟨hargs, fd₀, peerFd, hread, rfl⟩ := hfds
    simp only [hptr rfl, if_neg hargs, hread, tracks_addSocketFd, List.mem_cons, List.not_mem_nil,
      or_false]
    tauto
  | socket =>
    obtain rfl : fds = [ret.toInt32] := hfds
    simp only [tracks_addSocketFd, List.mem_singleton]
  | accept =>
    obtain rfl : fds = [ret.toInt32] := hfds
    simp only [tracks_addSocketFd, List.mem_singleton]
  | accept4 =>
    obtain rfl : fds = [ret.toInt32] := hfds
    simp only [tracks_addSocketFd, List.mem_singleton]
  | _ => cases hkind

/-! ## The invariant -/

namespace Process

/-- A saved `close` has freed the descriptor and is still to exit. -/
def Lingering (p : Process) (fd : Int32) : Prop :=
  ∃ pidTgid args, p.calls pidTgid = some (.close args true) ∧ args.fd = fd ∧
    p.Saved pidTgid .close

/-- What the maps hold is what the calls in progress have saved, and tracked and open sockets differ
only on descriptors with a call in progress. -/
structure Inv (tgid : UInt32) (p : Process) : Prop where
  entry : ∀ pidTgid kind state, p.kernel.networkEnterState.lookup ⟨pidTgid, kind⟩ = some state →
    ∃ call env, p.calls pidTgid = some call ∧ call.kind = kind ∧
      state = networkPayload env kind call.args
  creates : ∀ pidTgid kind args fds, p.calls pidTgid = some (.create kind args fds) →
    createsSocket kind = true ∧ p.Saved pidTgid kind
  tracked : ∀ fd, tracks p.kernel tgid fd = true → p.fds fd = .socket ∨ p.Lingering fd
  opened : ∀ fd, p.fds fd = .socket → tracks p.kernel tgid fd = true ∨ p.Creating fd

theorem Init.inv {tgid : UInt32} {p : Process} (h : p.Init) : p.Inv tgid where
  entry := by
    intro pidTgid kind state hs
    rw [h.kernel] at hs
    cases hs
  creates := by
    intro pidTgid kind args fds hcall
    rw [h.calls] at hcall
    cases hcall
  tracked := by
    intro fd hfd
    rw [h.kernel] at hfd
    cases hfd
  opened := fun fd hfd => absurd hfd (h.fds fd)

section Idle
variable {tgid : UInt32} {p : Process} {pidTgid : UInt64}

/-- Nothing is stored for a thread outside all calls. -/
theorem Inv.lookup_idle (h : p.Inv tgid) (hidle : p.calls pidTgid = none) (kind : NetworkEventKind) :
    p.kernel.networkEnterState.lookup ⟨pidTgid, kind⟩ = none := by
  by_contra hsome
  obtain ⟨state, hs⟩ := Option.ne_none_iff_exists'.mp hsome
  obtain ⟨call, -, hcall, -⟩ := h.entry _ _ _ hs
  rw [hidle] at hcall
  cases hcall

/-- Nothing is stored for a thread but the entry of the call it is in. -/
theorem Inv.lookup_other (h : p.Inv tgid) {call : Call} (hcall : p.calls pidTgid = some call)
    {kind : NetworkEventKind} (hkind : call.kind ≠ kind) :
    p.kernel.networkEnterState.lookup ⟨pidTgid, kind⟩ = none := by
  by_contra hsome
  obtain ⟨state, hs⟩ := Option.ne_none_iff_exists'.mp hsome
  obtain ⟨call', -, hcall', hkind', -⟩ := h.entry _ _ _ hs
  rw [hcall] at hcall'
  cases hcall'
  exact hkind hkind'

end Idle

/-! ## The steps of one thread -/

/-- `p'` differs from `p`, in the calls and in what is stored, at one thread only. -/
structure SameBut (pidTgid : UInt64) (p p' : Process) : Prop where
  calls : ∀ t, t ≠ pidTgid → p'.calls t = p.calls t
  entries : ∀ t, t ≠ pidTgid → ∀ kind,
    p'.kernel.networkEnterState.lookup ⟨t, kind⟩ = p.kernel.networkEnterState.lookup ⟨t, kind⟩

namespace SameBut
variable {pidTgid t : UInt64} {p p' : Process}

theorem saved (h : SameBut pidTgid p p') (ht : t ≠ pidTgid) {kind : NetworkEventKind}
    (hs : p.Saved t kind) : p'.Saved t kind := by
  rwa [Saved, h.entries t ht kind]

/-- A lingering `close` of another thread lingers on. -/
theorem lingering (h : SameBut pidTgid p p') {fd : Int32} (hl : p.Lingering fd)
    (hne : ∀ args, p.calls pidTgid = some (.close args true) → args.fd = fd →
      ¬ p.Saved pidTgid .close) : p'.Lingering fd := by
  obtain ⟨t, args, hcall, hfd, hs⟩ := hl
  have ht : t ≠ pidTgid := by
    rintro rfl
    exact hne args hcall hfd hs
  exact ⟨t, args, (h.calls t ht).trans hcall, hfd, h.saved ht hs⟩

/-- A descriptor being created by another thread is still being created. -/
theorem creating (h : SameBut pidTgid p p') {fd : Int32} (hc : p.Creating fd)
    (hne : ∀ kind args fds, p.calls pidTgid = some (.create kind args fds) → fd ∉ fds) :
    p'.Creating fd := by
  obtain ⟨t, kind, args, fds, hcall, hfd⟩ := hc
  have ht : t ≠ pidTgid := by
    rintro rfl
    exact hne kind args fds hcall hfd
  exact ⟨t, kind, args, fds, (h.calls t ht).trans hcall, hfd⟩

end SameBut

/-- A step of one thread keeps the invariant if it keeps that thread's part of it. -/
theorem Inv.of_sameBut {tgid : UInt32} {pidTgid : UInt64} {p p' : Process} (h : p.Inv tgid)
    (hsame : SameBut pidTgid p p')
    (hentry : ∀ kind state, p'.kernel.networkEnterState.lookup ⟨pidTgid, kind⟩ = some state →
      ∃ call env, p'.calls pidTgid = some call ∧ call.kind = kind ∧
        state = networkPayload env kind call.args)
    (hcreates : ∀ kind args fds, p'.calls pidTgid = some (.create kind args fds) →
      createsSocket kind = true ∧ p'.Saved pidTgid kind)
    (htracked : ∀ fd, tracks p'.kernel tgid fd = true → p'.fds fd = .socket ∨ p'.Lingering fd)
    (hopened : ∀ fd, p'.fds fd = .socket → tracks p'.kernel tgid fd = true ∨ p'.Creating fd) :
    p'.Inv tgid where
  entry := by
    intro t kind state hs
    by_cases ht : t = pidTgid
    · subst ht
      exact hentry kind state hs
    · rw [hsame.entries t ht] at hs
      rw [hsame.calls t ht]
      exact h.entry t kind state hs
  creates := by
    intro t kind args fds hcall
    by_cases ht : t = pidTgid
    · subst ht
      exact hcreates kind args fds hcall
    · rw [hsame.calls t ht] at hcall
      obtain ⟨hkind, hs⟩ := h.creates t kind args fds hcall
      exact ⟨hkind, hsame.saved ht hs⟩
  tracked := htracked
  opened := hopened

/-! ## The deliveries keep the invariant -/

section Deliveries
variable {maps : ProbeMaps} {tgid : UInt32} {p : Process} {env : HookEnv}

theorem lookup_of_ne {hook : Hook} {kind kind' : NetworkEventKind} {pidTgid : UInt64}
    (hkey : (networkOp maps p.kernel (.deliver env hook)).key? = some ⟨env.pidTgid, kind⟩)
    (hne : ¬ (pidTgid = env.pidTgid ∧ kind' = kind)) :
    (handle maps env hook p.kernel).networkEnterState.lookup ⟨pidTgid, kind'⟩ =
      p.kernel.networkEnterState.lookup ⟨pidTgid, kind'⟩ := by
  change (exec maps p.kernel (.deliver env hook)).networkEnterState.lookup _ = _
  refine networkEntry_of_ne ?_
  rw [hkey]
  intro heq
  cases heq
  exact hne ⟨rfl, rfl⟩

theorem sameBut_deliver {hook : Hook} {kind : NetworkEventKind} (call : Option Call)
    (hkey : (networkOp maps p.kernel (.deliver env hook)).key? = some ⟨env.pidTgid, kind⟩) :
    SameBut env.pidTgid p (p.deliver maps env hook call) where
  calls := fun _ ht => Function.update_of_ne ht _ _
  entries := fun _ ht _ => lookup_of_ne hkey fun h => ht h.1

/-- A call that begins changes nothing about the descriptors, tracked or open. -/
theorem Inv.tracks_enter {pidTgid : UInt64} {p' : Process} (h : p.Inv tgid)
    (hidle : p.calls pidTgid = none) (hsame : SameBut pidTgid p p') (hfds : p'.fds = p.fds)
    (hstate : p'.kernel.socketFdState = p.kernel.socketFdState) :
    (∀ fd, tracks p'.kernel tgid fd = true → p'.fds fd = .socket ∨ p'.Lingering fd) ∧
      ∀ fd, p'.fds fd = .socket → tracks p'.kernel tgid fd = true ∨ p'.Creating fd := by
  have hnone : ∀ call, p.calls pidTgid ≠ some call := fun call hc => by
    rw [hidle] at hc
    cases hc
  rw [hfds]
  refine ⟨fun fd hfd => ?_, fun fd hfd => ?_⟩
  · rw [tracks_congr hstate] at hfd
    rcases h.tracked fd hfd with hopen | hl
    · exact .inl hopen
    · exact .inr (hsame.lingering hl fun _ hc => absurd hc (hnone _))
  · rw [tracks_congr hstate]
    rcases h.opened fd hfd with ht | hc
    · exact .inl ht
    · exact .inr (hsame.creating hc fun _ _ _ hc => absurd hc (hnone _))

theorem Inv.enterCreate (h : p.Inv tgid) (htraced : Traced maps tgid) (henv : OfProcess tgid env)
    {kind : NetworkEventKind} (args : SyscallArgs) (hkind : createsSocket kind = true)
    (hidle : p.calls env.pidTgid = none) :
    (p.deliver maps env (.enterNetwork kind args) (some (.create kind args []))).Inv tgid := by
  obtain ⟨hres, hupd, hscr⟩ := henv.helpers
  have hgate := htraced env henv.tgid kind (.inl hkind)
  have hkey := networkOp_key_enter maps p.kernel env kind args
  have hsame := sameBut_deliver (some (.create kind args [])) hkey
  have hcall : (p.deliver maps env (.enterNetwork kind args) (some (.create kind args []))).calls
      env.pidTgid = some (.create kind args []) := Function.update_self ..
  have hsaved : (handle maps env (.enterNetwork kind args) p.kernel).networkEnterState.lookup
      ⟨env.pidTgid, kind⟩ = some (networkPayload env kind args) :=
    networkEntry_of_enter (h.lookup_idle hidle kind)
      (networkOp_of_creating args hkind hgate hres hscr hupd)
  obtain ⟨htracked, hopened⟩ := h.tracks_enter hidle hsame rfl
    (socketFdState_enter maps env p.kernel kind args)
  refine h.of_sameBut hsame ?_ ?_ htracked hopened
  · intro kind' state hs
    by_cases hk : kind' = kind
    · subst hk
      cases hsaved.symm.trans hs
      exact ⟨_, env, hcall, rfl, rfl⟩
    · have hother := lookup_of_ne hkey fun (h : env.pidTgid = env.pidTgid ∧ kind' = kind) => hk h.2
      cases (h.lookup_idle hidle kind').symm.trans (hother.symm.trans hs)
  · intro kind' args' fds hc
    cases hcall.symm.trans hc
    refine ⟨hkind, ?_⟩
    rw [Saved, show (p.deliver maps env _ _).kernel = handle maps env _ p.kernel from rfl, hsaved]
    rfl

theorem networkOp_of_close (maps : ProbeMaps) (k : Kernel) (hok : HelpersOk env) (args : SyscallArgs) :
    networkOp maps k (.deliver env (.enterNetwork .close args)) =
      if networkEnterGate maps env .close args k then
        .enter ⟨env.pidTgid, .close⟩ (networkPayload env .close args) true
      else .skipEnter ⟨env.pidTgid, .close⟩ := by
  obtain ⟨hres, hupd, hscr⟩ := hok
  rw [networkOp, hres, hupd, hscr]
  cases networkEnterGate maps env .close args k <;> rfl

theorem Inv.enterClose (h : p.Inv tgid) (henv : OfProcess tgid env) (args : SyscallArgs)
    (hidle : p.calls env.pidTgid = none) :
    (p.deliver maps env (.enterNetwork .close args) (some (.close args false))).Inv tgid := by
  have hkey := networkOp_key_enter maps p.kernel env .close args
  have hsame := sameBut_deliver (some (.close args false)) hkey
  have hcall : (p.deliver maps env (.enterNetwork .close args) (some (.close args false))).calls
      env.pidTgid = some (.close args false) := Function.update_self ..
  obtain ⟨htracked, hopened⟩ := h.tracks_enter hidle hsame rfl
    (socketFdState_enter maps env p.kernel .close args)
  refine h.of_sameBut hsame ?_ ?_ htracked hopened
  · intro kind state hs
    by_cases hk : kind = .close
    · -- what the enter stores, if anything, is its own payload
      subst hk
      have hfree := h.lookup_idle hidle .close
      have hop := networkOp_of_close maps p.kernel henv.helpers args
      change (exec maps p.kernel (.deliver env (.enterNetwork .close args))).networkEnterState.lookup
        _ = _ at hs
      split_ifs at hop with hgate
      · rw [networkEntry_of_enter hfree hop] at hs
        cases hs
        exact ⟨_, env, hcall, rfl, rfl⟩
      · rw [networkEntry_of_none hfree fun state' he => by rw [hop] at he; cases he] at hs
        cases hs
    · have hother := lookup_of_ne hkey fun (h : env.pidTgid = env.pidTgid ∧ kind = .close) => hk h.2
      cases (h.lookup_idle hidle kind).symm.trans (hother.symm.trans hs)
  · intro kind args' fds hc
    cases hcall.symm.trans hc

/-- An exit leaves nothing stored for its thread. -/
theorem Inv.lookup_exit (h : p.Inv tgid) (htraced : Traced maps tgid) (henv : OfProcess tgid env)
    {call : Call} (hcall : p.calls env.pidTgid = some call)
    (hkind : createsSocket call.kind = true ∨ call.kind = .close) (ret : Int64)
    (kind : NetworkEventKind) :
    (handle maps env (.exitNetwork call.kind ret) p.kernel).networkEnterState.lookup
      ⟨env.pidTgid, kind⟩ = none := by
  by_cases hk : call.kind = kind
  · subst hk
    have hop : (networkOp maps p.kernel (.deliver env (.exitNetwork call.kind ret))).removesKey
        ⟨env.pidTgid, call.kind⟩ := by
      rw [networkOp, htraced env henv.tgid _ hkind]
      rfl
    exact networkEntry_of_removes hop
  · have hother := lookup_of_ne (networkOp_key_exit maps p.kernel env call.kind ret)
      fun (h : env.pidTgid = env.pidTgid ∧ kind = call.kind) => hk h.2.symm
    rw [hother, h.lookup_other hcall hk]

theorem Inv.exitCreate (h : p.Inv tgid) (htraced : Traced maps tgid) (henv : OfProcess tgid env)
    {kind : NetworkEventKind} {args : SyscallArgs} {fds : List Int32} {ret : Int64}
    (hcall : p.calls env.pidTgid = some (.create kind args fds))
    (hret : Returns env kind args fds ret) (hclean : ∀ fd ∈ fds, p.fds fd = .socket) :
    (p.deliver maps env (.exitNetwork kind ret) none).Inv tgid := by
  obtain ⟨hkind, hsaved⟩ := h.creates _ _ _ _ hcall
  have hkey := networkOp_key_exit maps p.kernel env kind ret
  have hsame := sameBut_deliver none hkey
  have hgone := h.lookup_exit htraced henv hcall (.inl hkind) ret
  have hidle : (p.deliver maps env (.exitNetwork kind ret) none).calls env.pidTgid = none :=
    Function.update_self ..
  have htracks : ∀ fd, tracks (handle maps env (.exitNetwork kind ret) p.kernel) tgid fd = true ↔
      fd ∈ fds ∨ tracks p.kernel tgid fd = true := by
    intro fd
    obtain ⟨state, hstate⟩ := Option.isSome_iff_exists.mp hsaved
    obtain ⟨call, env', hcall', -, hpayload⟩ := h.entry _ _ _ hstate
    cases hcall.symm.trans hcall'
    have hptr : kind = .socketpair → state.peerFdPtr = args.sv := by
      rintro rfl
      rw [hpayload]
      rfl
    have hwrite := socketFdState_exit maps env p.kernel kind ret
    rw [makeNetworkKey, hstate, htraced env henv.tgid kind (.inl hkind), henv.helpers.1] at hwrite
    rw [tracks_congr hwrite, ← henv.tgid]
    exact tracks_create p.kernel hkind hret hptr henv.addOk henv.addPeerOk fd
  refine h.of_sameBut hsame ?_ ?_ ?_ ?_
  · intro kind' state hs
    cases (hgone kind').symm.trans hs
  · intro kind' args' fds' hc
    cases hidle.symm.trans hc
  · intro fd hfd
    rcases (htracks fd).mp hfd with hmem | ht
    · exact .inl (hclean fd hmem)
    · rcases h.tracked fd ht with hopen | hl
      · exact .inl hopen
      · exact .inr (hsame.lingering hl fun args' hc => by rw [hcall] at hc; cases hc)
  · intro fd hfd
    rcases h.opened fd hfd with ht | hc
    · exact .inl ((htracks fd).mpr (.inr ht))
    · by_cases hmem : fd ∈ fds
      · exact .inl ((htracks fd).mpr (.inl hmem))
      · refine .inr (hsame.creating hc fun kind' args' fds' hc' => ?_)
        cases hcall.symm.trans hc'
        exact hmem

theorem Inv.exitClose (h : p.Inv tgid) (htraced : Traced maps tgid) (henv : OfProcess tgid env)
    {args : SyscallArgs} (hcall : p.calls env.pidTgid = some (.close args true))
    (hclean : p.Saved env.pidTgid .close → p.fds args.fd = .socket →
      p.Creating args.fd) :
    (p.deliver maps env (.exitNetwork .close 0) none).Inv tgid := by
  have hkey := networkOp_key_exit maps p.kernel env .close 0
  have hsame := sameBut_deliver none hkey
  have hgone := h.lookup_exit htraced henv hcall (.inr rfl) 0
  have hidle : (p.deliver maps env (.exitNetwork .close 0) none).calls env.pidTgid = none :=
    Function.update_self ..
  have hwrite := socketFdState_exit maps env p.kernel .close 0
  rw [makeNetworkKey, htraced env henv.tgid .close (.inr rfl), henv.helpers.1] at hwrite
  have htracks : ∀ fd, tracks (handle maps env (.exitNetwork .close 0) p.kernel) tgid fd = true ↔
      (p.Saved env.pidTgid .close → fd ≠ args.fd) ∧ tracks p.kernel tgid fd = true := by
    intro fd
    cases hstate : p.kernel.networkEnterState.lookup ⟨env.pidTgid, .close⟩ with
    | none =>
      rw [hstate] at hwrite
      have hnot : ¬ p.Saved env.pidTgid .close := by simp [Saved, hstate]
      rw [tracks_congr hwrite]
      exact ⟨fun ht => ⟨fun hs => absurd hs hnot, ht⟩, fun ht => ht.2⟩
    | some state =>
      obtain ⟨call, env', hcall', -, hpayload⟩ := h.entry _ _ _ hstate
      cases hcall.symm.trans hcall'
      have hfd : state.ev.fd = args.fd := by
        rw [hpayload]
        rfl
      have hsaved : p.Saved env.pidTgid .close := by simp [Saved, hstate]
      rw [hstate] at hwrite
      have hdelete : tracks (handle maps env (.exitNetwork .close 0) p.kernel) tgid fd =
          tracks (deleteSocketFd env args.fd p.kernel) tgid fd := by
        rw [tracks_congr hwrite, ← hfd]
        rfl
      rw [hdelete, ← henv.tgid, tracks_deleteSocketFd]
      exact ⟨fun ht => ⟨fun _ => ht.1, ht.2⟩, fun ht => ⟨ht.1 hsaved, ht.2⟩⟩
  refine h.of_sameBut hsame ?_ ?_ ?_ ?_
  · intro kind' state hs
    cases (hgone kind').symm.trans hs
  · intro kind' args' fds' hc
    cases hidle.symm.trans hc
  · intro fd hfd
    obtain ⟨hne, ht⟩ := (htracks fd).mp hfd
    rcases h.tracked fd ht with hopen | hl
    · exact .inl hopen
    · refine .inr (hsame.lingering hl fun args' hc hargs hs => ?_)
      cases hcall.symm.trans hc
      exact hne hs hargs.symm
  · intro fd hfd
    have hcreating : p.Creating fd →
        (p.deliver maps env (.exitNetwork .close 0) none).Creating fd := fun hc =>
      hsame.creating hc fun _ _ _ hc' => by rw [hcall] at hc'; cases hc'
    rcases h.opened fd hfd with ht | hc
    · by_cases hmine : p.Saved env.pidTgid .close ∧ fd = args.fd
      · -- the descriptor is open again: only a creating call still to exit may leave it untracked
        obtain ⟨hs, rfl⟩ := hmine
        exact .inr (hcreating (hclean hs hfd))
      · exact .inl ((htracks fd).mpr ⟨fun hs hfd => hmine ⟨hs, hfd⟩, ht⟩)
    · exact .inr (hcreating hc)

end Deliveries

/-! ## The kernel's own steps keep the invariant -/

section KernelSteps
variable {tgid : UInt32} {p : Process} {pidTgid : UInt64}

theorem sameBut_reassign (fds : Int32 → Fd) (call : Call) :
    SameBut pidTgid p (p.reassign fds pidTgid call) where
  calls := fun _ ht => Function.update_of_ne ht _ _
  entries := fun _ _ _ => rfl

/-- A kernel step goes on with the call the thread is in. -/
theorem Inv.of_reassign (h : p.Inv tgid) (fds : Int32 → Fd) {call : Call} (call' : Call)
    (hcall : p.calls pidTgid = some call) (hkind : call'.kind = call.kind) (hargs : call'.args = call.args)
    (hcreate : ∀ kind args fds, call' = .create kind args fds →
      ∃ fds', call = .create kind args fds')
    (htracked : ∀ fd, tracks p.kernel tgid fd = true →
      fds fd = .socket ∨ (p.reassign fds pidTgid call').Lingering fd)
    (hopened : ∀ fd, fds fd = .socket →
      tracks p.kernel tgid fd = true ∨ (p.reassign fds pidTgid call').Creating fd) :
    (p.reassign fds pidTgid call').Inv tgid := by
  have hcall' : (p.reassign fds pidTgid call').calls pidTgid = some call' :=
    Function.update_self ..
  refine h.of_sameBut (sameBut_reassign fds call') ?_ ?_ htracked hopened
  · intro kind state hs
    obtain ⟨call₀, env, hcall₀, hkind₀, hpayload⟩ := h.entry _ _ _ hs
    cases hcall.symm.trans hcall₀
    exact ⟨call', env, hcall', hkind.trans hkind₀, by rw [hpayload, hargs]⟩
  · intro kind args fds' hc
    cases hcall'.symm.trans hc
    obtain ⟨fds₀, rfl⟩ := hcreate kind args fds' rfl
    exact h.creates _ _ _ _ hcall

theorem Inv.alloc (h : p.Inv tgid) {kind : NetworkEventKind} {args : SyscallArgs}
    (fds : List Int32) (hcall : p.calls pidTgid = some (.create kind args [])) :
    (p.reassign (fun fd => if fd ∈ fds then .socket else p.fds fd) pidTgid
      (.create kind args fds)).Inv tgid := by
  have hsame : SameBut pidTgid p (p.reassign _ pidTgid (.create kind args fds)) :=
    sameBut_reassign (fun fd => if fd ∈ fds then .socket else p.fds fd) (.create kind args fds)
  refine h.of_reassign _ _ hcall rfl rfl ?_ ?_ ?_
  · intro kind' args' fds' heq
    cases heq
    exact ⟨[], rfl⟩
  · intro fd hfd
    rcases h.tracked fd hfd with hopen | hl
    · left
      simp [hopen]
    · exact .inr (hsame.lingering hl fun _ hc => by rw [hcall] at hc; cases hc)
  · intro fd hfd
    by_cases hmem : fd ∈ fds
    · exact .inr ⟨pidTgid, kind, args, fds, Function.update_self .., hmem⟩
    · rw [if_neg hmem] at hfd
      rcases h.opened fd hfd with ht | hc
      · exact .inl ht
      · refine .inr (hsame.creating hc fun kind' args' fds' hc' => ?_)
        cases hcall.symm.trans hc'
        exact List.not_mem_nil

theorem Inv.free (h : p.Inv tgid) {args : SyscallArgs}
    (hcall : p.calls pidTgid = some (.close args false))
    (hclean : p.fds args.fd = .socket → p.Saved pidTgid .close) :
    (p.reassign (Function.update p.fds args.fd .free) pidTgid (.close args true)).Inv
      tgid := by
  have hsame : SameBut pidTgid p (p.reassign _ pidTgid (.close args true)) :=
    sameBut_reassign (Function.update p.fds args.fd .free) (.close args true)
  refine h.of_reassign _ _ hcall rfl rfl (fun _ _ _ heq => by cases heq) ?_ ?_
  · intro fd hfd
    rcases h.tracked fd hfd with hopen | hl
    · by_cases hmine : fd = args.fd
      · -- the socket goes, and this call is the one that will untrack it
        subst hmine
        exact .inr ⟨pidTgid, args, Function.update_self .., rfl, hclean hopen⟩
      · left
        rwa [Function.update_of_ne hmine]
    · exact .inr (hsame.lingering hl fun _ hc => by rw [hcall] at hc; cases hc)
  · intro fd hfd
    have hne : fd ≠ args.fd := by
      rintro rfl
      rw [Function.update_self] at hfd
      cases hfd
    rw [Function.update_of_ne hne] at hfd
    rcases h.opened fd hfd with ht | hc
    · exact .inl ht
    · exact .inr (hsame.creating hc fun _ _ _ hc' => by rw [hcall] at hc'; cases hc')

end KernelSteps

/-! ## Runs -/

section Runs
variable {maps : ProbeMaps} {tgid : UInt32}

theorem Inv.step {p p' : Process} {act : Act} (h : p.Inv tgid) (htraced : Traced maps tgid)
    (hstep : p.Step maps tgid act p') (hclean : p.Clean act) : p'.Inv tgid := by
  cases hstep with
  | enterCreate henv hkind hidle => exact h.enterCreate htraced henv _ hkind hidle
  | alloc hcall hfree hsome => exact h.alloc _ hcall
  | exitCreate henv hcall hret =>
    exact h.exitCreate htraced henv hcall hret (hclean _ _ _ hcall)
  | enterClose henv hidle => exact h.enterClose henv _ hidle
  | free hcall hopen => exact h.free hcall (hclean _ hcall)
  | exitClose henv hcall => exact h.exitClose htraced henv hcall (hclean _ hcall)

theorem Run.inv {p : Process} (htraced : Traced maps tgid) (h : p.Run maps tgid Clean) :
    p.Inv tgid := by
  induction h with
  | init hinit => exact hinit.inv
  | step _ hstep hclean ih => exact ih.step htraced hstep hclean

/-- A `close` that has a socket to free was saved. -/
def Ready (p : Process) : Prop :=
  ∀ t args, p.calls t = some (.close args false) → p.fds args.fd = .socket → p.Saved t .close

/-- A `close` that enters on a socket finds it tracked, unless a creating call is still to exit with it. -/
theorem Inv.saved_enterClose {p : Process} {env : HookEnv} {args : SyscallArgs} (h : p.Inv tgid)
    (htraced : Traced maps tgid) (henv : OfProcess tgid env) (hidle : p.calls env.pidTgid = none)
    (hopen : p.fds args.fd = .socket) (hsettled : ¬p.Creating args.fd) :
    (p.deliver maps env (.enterNetwork .close args) (some (.close args false))).Saved env.pidTgid .close := by
  have htracked : tracks p.kernel tgid args.fd = true := (h.opened _ hopen).resolve_right hsettled
  have hsocket : isSocketFd env args.fd p.kernel = true := by rw [isSocketFd_eq, henv.tgid, htracked]
  have hgate : networkEnterGate maps env .close args p.kernel = true := by
    rw [networkEnterGate, htraced env henv.tgid .close (.inr rfl)]
    exact hsocket
  have hop := networkOp_of_close maps p.kernel henv.helpers args
  rw [if_pos hgate] at hop
  have hentry : (handle maps env (.enterNetwork .close args) p.kernel).networkEnterState.lookup
      ⟨env.pidTgid, .close⟩ = some (networkPayload env .close args) :=
    networkEntry_of_enter (h.lookup_idle hidle .close) hop
  rw [Saved, show (p.deliver maps env _ _).kernel = handle maps env _ p.kernel from rfl, hentry]
  rfl

/-- A step of one thread, behind which a `close` of the thread that has a socket to free is saved. -/
theorem Ready.of_sameBut {p p' : Process} {pidTgid : UInt64} (h : p.Ready) (hsame : SameBut pidTgid p p')
    (hfds : ∀ t args, p.calls t = some (.close args false) → p'.fds args.fd = .socket → p.fds args.fd = .socket)
    (hown : ∀ args, p'.calls pidTgid = some (.close args false) → p'.fds args.fd = .socket →
      p'.Saved pidTgid .close) : p'.Ready := by
  intro t args hcall hopen
  by_cases ht : t = pidTgid
  · subst ht
    exact hown args hcall hopen
  · rw [hsame.calls t ht] at hcall
    exact hsame.saved ht (h t args hcall (hfds t args hcall hopen))

theorem Ready.step {p p' : Process} {act : Act} (h : p.Ready) (hinv : p.Inv tgid) (htraced : Traced maps tgid)
    (hstep : p.Step maps tgid act p') (hsettled : p.Settled act) : p'.Ready := by
  cases hstep with
  | enterCreate henv hkind hidle =>
    refine h.of_sameBut (sameBut_deliver _ (networkOp_key_enter maps p.kernel _ _ _)) (fun _ _ _ ho => ho) ?_
    intro args hcall
    cases (Function.update_self ..).symm.trans hcall
  | alloc hcall hfree hsome =>
    refine h.of_sameBut (sameBut_reassign _ _) (fun t args hclose ho => ?_) fun args hc => ?_
    · simpa [Process.reassign, hsettled t args hclose] using ho
    · cases (Function.update_self ..).symm.trans hc
  | exitCreate henv hcall hret =>
    refine h.of_sameBut (sameBut_deliver _ (networkOp_key_exit maps p.kernel _ _ _)) (fun _ _ _ ho => ho) ?_
    intro args hcall
    cases (Function.update_self ..).symm.trans hcall
  | enterClose henv hidle =>
    refine h.of_sameBut (sameBut_deliver _ (networkOp_key_enter maps p.kernel _ _ _)) (fun _ _ _ ho => ho) ?_
    intro args hcall hopen
    cases (Function.update_self ..).symm.trans hcall
    exact hinv.saved_enterClose htraced henv hidle hopen hsettled
  | free hcall hopen =>
    refine h.of_sameBut (sameBut_reassign _ _) (fun t args _ ho => ?_) fun args hc => ?_
    · simp only [Process.reassign, Function.update_apply] at ho
      split_ifs at ho
      exact ho
    · cases (Function.update_self ..).symm.trans hc
  | exitClose henv hcall =>
    refine h.of_sameBut (sameBut_deliver _ (networkOp_key_exit maps p.kernel _ _ _)) (fun _ _ _ ho => ho) ?_
    intro args hcall
    cases (Function.update_self ..).symm.trans hcall

theorem Ready.clean {p : Process} (h : p.Ready) {act : Act} (hsettled : p.Settled act) : p.Clean act := by
  cases act with
  | exitClose env => exact fun args hcall _ => hsettled args hcall
  | exitCreate env ret => exact hsettled
  | free pidTgid => exact fun args hcall hopen => h pidTgid args hcall hopen
  | _ => exact trivial

/-- **A settled run is clean.** -/
theorem Run.clean {p : Process} (htraced : Traced maps tgid) (h : p.Run maps tgid Settled) :
    p.Run maps tgid Clean ∧ p.Ready := by
  induction h with
  | init hinit =>
    refine ⟨.init hinit, fun t args hcall => ?_⟩
    rw [hinit.calls] at hcall
    cases hcall
  | step _ hstep hsettled ih =>
    obtain ⟨hrun, hready⟩ := ih
    exact ⟨hrun.step hstep (hready.clean hsettled), hready.step (hrun.inv htraced) htraced hstep hsettled⟩

end Runs

end Process

/-- **Tracked means open.** In every state of a clean run, a descriptor no call is working on is
tracked just when it is an open socket of the process. -/
theorem tracked_iff_open {maps : ProbeMaps} {tgid : UInt32} (htraced : Traced maps tgid)
    {p : Process} (hrun : p.Run maps tgid Process.Clean) {fd : Int32} (hcreating : ¬ p.Creating fd)
    (hclosing : ¬ p.Closing fd) {env : HookEnv} (henv : env.tgid = tgid) :
    isSocketFd env fd p.kernel = true ↔ p.fds fd = .socket := by
  have hinv := hrun.inv htraced
  rw [isSocketFd_eq, henv]
  constructor
  · intro ht
    rcases hinv.tracked fd ht with hopen | ⟨t, args, hcall, hfd, -⟩
    · exact hopen
    · exact absurd ⟨t, args, true, hcall, hfd⟩ hclosing
  · intro hopen
    rcases hinv.opened fd hopen with ht | hc
    · exact ht
    · exact absurd hc hcreating

/-! ## Two threads, one descriptor -/

/-- Thread 8 of process 7. -/
abbrev env8 : HookEnv := plainEnv 0x700000008

def socketArgs : SyscallArgs := .of 2 1 0 0 0 0
def closeArgs : SyscallArgs := .of 3 0 0 0 0 0

def emptyProcess : Process where
  kernel := {}
  fds := fun _ => .free
  calls := fun _ => none

/-- The process while a thread is inside `socket`, and then given descriptor 3. -/
def enteredSocket (p : Process) (env : HookEnv) : Process :=
  p.deliver allProbes env (.enterNetwork .socket socketArgs) (some (.create .socket socketArgs []))

def givenSocket (p : Process) (env : HookEnv) : Process :=
  (enteredSocket p env).reassign
    (fun fd => if fd ∈ [3] then .socket else (enteredSocket p env).fds fd) env.pidTgid
    (.create .socket socketArgs [3])

/-- The process after the thread's `socket` has returned. -/
def afterSocket (p : Process) (env : HookEnv) : Process :=
  (givenSocket p env).deliver allProbes env (.exitNetwork .socket 3) none

/-- The process while a thread is inside `close` of descriptor 3, and once the kernel has freed it. -/
def enteredClose (p : Process) (env : HookEnv) : Process :=
  p.deliver allProbes env (.enterNetwork .close closeArgs) (some (.close closeArgs false))

def freedClose (p : Process) (env : HookEnv) : Process :=
  (enteredClose p env).reassign
    (Function.update (enteredClose p env).fds (closeArgs.fd) .free) env.pidTgid
    (.close closeArgs true)

theorem traced_allProbes (tgid : UInt32) : Traced allProbes tgid := fun _ _ _ _ => rfl

theorem ofProcess_env7 : OfProcess 7 env7 := ⟨by decide, ⟨rfl, rfl, rfl⟩, rfl, rfl⟩
theorem ofProcess_env8 : OfProcess 7 env8 := ⟨by decide, ⟨rfl, rfl, rfl⟩, rfl, rfl⟩

theorem emptyProcess_init : emptyProcess.Init where
  kernel := rfl
  fds := fun _ h => Fd.noConfusion h
  calls := fun _ => rfl

section
variable {ok : Process → Act → Prop} {p : Process} {env : HookEnv}

/-- The first two steps of a `socket` call. -/
theorem Process.Run.givenSocket (h : p.Run allProbes 7 ok) (henv : OfProcess 7 env)
    (hidle : p.calls env.pidTgid = none) (hfree : p.fds 3 = .free)
    (henter : ok p (.enterCreate env .socket socketArgs))
    (halloc : ok (enteredSocket p env) (.alloc env.pidTgid [3])) : (givenSocket p env).Run allProbes 7 ok := by
  have hentered : (enteredSocket p env).Run allProbes 7 ok := h.step (.enterCreate henv rfl hidle) henter
  refine hentered.step (.alloc (Function.update_self ..) ?_ (List.cons_ne_nil _ _)) halloc
  intro fd hfd
  rw [List.mem_singleton.mp hfd]
  exact hfree

theorem calls_givenSocket : (givenSocket p env).calls env.pidTgid = some (.create .socket socketArgs [3]) :=
  Function.update_self ..

/-- And the third. -/
theorem Process.Run.socket (h : p.Run allProbes 7 ok) (henv : OfProcess 7 env)
    (hidle : p.calls env.pidTgid = none) (hfree : p.fds 3 = .free)
    (henter : ok p (.enterCreate env .socket socketArgs))
    (halloc : ok (enteredSocket p env) (.alloc env.pidTgid [3]))
    (hexit : ok (ETraceGen.Bpf.givenSocket p env) (.exitCreate env 3)) :
    (afterSocket p env).Run allProbes 7 ok :=
  (h.givenSocket henv hidle hfree henter halloc).step
    (.exitCreate henv calls_givenSocket ⟨by decide, rfl⟩) hexit

theorem settled_exitSocket : (givenSocket p env).Settled (.exitCreate env 3) := by
  intro kind args fds hcall fd hfd
  cases calls_givenSocket.symm.trans hcall
  exact if_pos hfd

/-- No `close` that is to free a descriptor is in progress while the call is given its own. -/
theorem settled_allocSocket (h : ∀ t args, p.calls t ≠ some (.close args false)) :
    (enteredSocket p env).Settled (.alloc env.pidTgid [3]) := by
  intro t args hcall
  simp only [enteredSocket, Process.deliver, Function.update_apply] at hcall
  split_ifs at hcall
  · cases hcall
  · exact absurd hcall (h t args)

end

/-- The first two steps of a `close` of an open descriptor. -/
theorem Process.Run.freedClose {p : Process} {env : HookEnv}
    (h : p.Run allProbes 7 fun _ _ => True) (henv : OfProcess 7 env)
    (hidle : p.calls env.pidTgid = none) (hopen : p.fds (closeArgs.fd) ≠ .free) :
    (freedClose p env).Run allProbes 7 fun _ _ => True := by
  have hentered : (enteredClose p env).Run allProbes 7 fun _ _ => True :=
    h.step (.enterClose henv hidle) trivial
  exact hentered.step (.free (Function.update_self ..) hopen) trivial

theorem calls_afterSocket {p : Process} (env : HookEnv) (h : ∀ t, p.calls t = none) (t : UInt64) :
    (afterSocket p env).calls t = none := by
  simp only [afterSocket, givenSocket, enteredSocket, Process.deliver, Process.reassign,
    Function.update_idem, Function.update_apply, h, ite_self]

/-- With no call in progress, no descriptor is being worked on. -/
theorem quiet {p : Process} (h : ∀ t, p.calls t = none) (fd : Int32) :
    ¬ p.Creating fd ∧ ¬ p.Closing fd := by
  constructor
  · rintro ⟨t, kind, args, fds, hcall, -⟩
    rw [h] at hcall
    cases hcall
  · rintro ⟨t, args, freed, hcall, -⟩
    rw [h] at hcall
    cases hcall

/-- Thread 7 closes descriptor 3, thread 8 is given the number while the `close` is still to exit, and exits after it. -/
def passedOn : Process :=
  ((givenSocket (freedClose (afterSocket emptyProcess env7) env7) env8).deliver allProbes env7
    (.exitNetwork .close 0) none).deliver allProbes env8 (.exitNetwork .socket 3) none

theorem passedOn_run : passedOn.Run allProbes 7 Process.Settled := by
  have hfirst : (afterSocket emptyProcess env7).Run allProbes 7 Process.Settled :=
    (Process.Run.init emptyProcess_init).socket ofProcess_env7 rfl rfl trivial
      (settled_allocSocket fun _ _ hcall => by cases hcall) settled_exitSocket
  have hidle := calls_afterSocket env7 emptyProcess_init.calls
  have hentered : (enteredClose (afterSocket emptyProcess env7) env7).Run allProbes 7 Process.Settled :=
    hfirst.step (.enterClose ofProcess_env7 (hidle _)) (quiet hidle _).1
  have hcall : (enteredClose (afterSocket emptyProcess env7) env7).calls env7.pidTgid =
      some (.close closeArgs false) := by rfl
  have hfreed : (freedClose (afterSocket emptyProcess env7) env7).Run allProbes 7 Process.Settled :=
    hentered.step (.free hcall (by decide)) trivial
  have hgiven : (givenSocket (freedClose (afterSocket emptyProcess env7) env7) env8).Run allProbes 7
      Process.Settled := by
    refine hfreed.givenSocket ofProcess_env8 (by rfl) (by rfl) trivial (settled_allocSocket fun t args hclose => ?_)
    simp only [freedClose, enteredClose, Process.reassign, Process.deliver, Function.update_apply, hidle] at hclose
    split_ifs at hclose
    cases hclose
  have hclose : (givenSocket (freedClose (afterSocket emptyProcess env7) env7) env8).calls env7.pidTgid =
      some (.close closeArgs true) := by rfl
  have hclosed := hgiven.step (.exitClose ofProcess_env7 hclose) fun args hc _ => by
    cases hclose.symm.trans hc
    exact ⟨env8.pidTgid, .socket, socketArgs, [3], calls_givenSocket, List.mem_singleton_self _⟩
  have hcreate : ((givenSocket (freedClose (afterSocket emptyProcess env7) env7) env8).deliver allProbes env7
      (.exitNetwork .close 0) none).calls env8.pidTgid = some (.create .socket socketArgs [3]) := by rfl
  refine hclosed.step (.exitCreate ofProcess_env8 hcreate ⟨by decide, rfl⟩) ?_
  intro kind args fds hc fd hfd
  cases hcreate.symm.trans hc
  exact if_pos hfd

/-- Both threads are done, and the descriptor is tracked for the second. -/
theorem tracked_iff_open_socket :
    (isSocketFd env7 3 passedOn.kernel = true ↔ passedOn.fds 3 = .socket) ∧ passedOn.fds 3 = .socket := by
  have hcalls : ∀ t, passedOn.calls t = none := by
    intro t
    simp only [passedOn, freedClose, enteredClose, afterSocket, givenSocket, enteredSocket, Process.deliver,
      Process.reassign, Function.update_apply, emptyProcess]
    split_ifs <;> rfl
  have hquiet := quiet hcalls 3
  have hrun : passedOn.Run allProbes 7 Process.Clean := (passedOn_run.clean (traced_allProbes 7)).1
  exact ⟨tracked_iff_open (traced_allProbes 7) hrun hquiet.1 hquiet.2 (by decide), by rfl⟩

/-- Thread 7 closes descriptor 3; before its exit is delivered, thread 8 is given the number again. -/
def reused : Process :=
  (afterSocket (freedClose (afterSocket emptyProcess env7) env7) env8).deliver allProbes env7
    (.exitNetwork .close 0) none

theorem reused_run : reused.Run allProbes 7 fun _ _ => True := by
  have hfirst : (afterSocket emptyProcess env7).Run allProbes 7 fun _ _ => True :=
    (Process.Run.init emptyProcess_init).socket ofProcess_env7 rfl rfl trivial trivial trivial
  have hidle := calls_afterSocket env7 emptyProcess_init.calls env7.pidTgid
  have hclosing : (freedClose (afterSocket emptyProcess env7) env7).Run allProbes 7
      fun _ _ => True :=
    hfirst.freedClose ofProcess_env7 hidle (by decide)
  have hsecond : (afterSocket (freedClose (afterSocket emptyProcess env7) env7) env8).Run
      allProbes 7 fun _ _ => True :=
    hclosing.socket ofProcess_env8 (by rfl) (by rfl) trivial trivial trivial
  exact hsecond.step (.exitClose ofProcess_env7 (by rfl)) trivial

/-- The late exit untracks the socket that is open now. -/
theorem not_tracked_iff_open :
    ¬ ∀ maps tgid, Traced maps tgid → ∀ p : Process, p.Run maps tgid (fun _ _ => True) →
      ∀ fd, ¬ p.Creating fd → ¬ p.Closing fd → ∀ env : HookEnv, env.tgid = tgid →
        (isSocketFd env fd p.kernel = true ↔ p.fds fd = .socket) := by
  intro h
  have hcalls : ∀ t, reused.calls t = none := by
    intro t
    simp only [reused, freedClose, enteredClose, afterSocket, givenSocket, enteredSocket, Process.deliver,
      Process.reassign, Function.update_apply, emptyProcess]
    split_ifs <;> rfl
  have hquiet := quiet hcalls 3
  have hiff := h allProbes 7 (traced_allProbes 7) reused reused_run 3 hquiet.1 hquiet.2 env7
    (by decide)
  have hopen : reused.fds 3 = .socket := by rfl
  have hlost : isSocketFd env7 3 reused.kernel = false := by decide
  rw [hlost] at hiff
  exact Bool.noConfusion (hiff.mpr hopen)

end ETraceGen.Bpf
