import ETraceGen.Bpf.FdReuse
import ETraceGen.Bpf.Submitted

/-!
# Which descriptors are tracked

A descriptor is tracked once a call that made it has finished, and until a call that closed it has. Finished are the
calls whose record is made: an exit that finds no room for it tracks nothing and untracks nothing.

* `trackedFds`, `untrackedFd?` : what a finished call tells of descriptors;
* `Finishes` : a call finishes at a hit;
* `tracked_iff` : the descriptors that are tracked after a run.
-/

namespace ETraceGen.Bpf

/-! ## One call -/

/-- The descriptors that a finished call has made, as far as the map has room for them. -/
def trackedFds (args : SyscallArgs) (env : HookEnv) (ret : Int64) : NetworkEventKind → List Int32
  | .socket | .accept | .accept4 => if 0 ≤ ret ∧ env.addOk = true then [ret.toInt32] else []
  | .socketpair =>
    if 0 ≤ ret ∧ args.sv ≠ 0 then
      match readFdPair env.mem args.sv with
      | some (fd, peerFd) => (if env.addOk then [fd] else []) ++ (if env.addPeerOk then [peerFd] else [])
      | none => []
    else []
  | _ => []

/-- The descriptor that a finished call has closed. -/
def untrackedFd? (args : SyscallArgs) (ret : Int64) : NetworkEventKind → Option Int32
  | .close => if 0 ≤ ret then some args.fd else none
  | _ => none

/-- The descriptor is in the map. -/
def tracksIn (m : KeyedMap SocketFdKey SocketFdValue) (tgid : UInt32) (fd : Int32) : Prop :=
  ∃ value, m.lookup ⟨tgid, fd.toUInt32⟩ = some value ∧ value.isSocket = 1

theorem tracks_iff {k : Kernel} {tgid : UInt32} {fd : Int32} :
    tracks k tgid fd = true ↔ tracksIn k.socketFdState tgid fd := by
  unfold tracks tracksIn
  cases k.socketFdState.lookup ⟨tgid, fd.toUInt32⟩ <;> simp

section
variable {m : KeyedMap SocketFdKey SocketFdValue} {env : HookEnv} {tgid : UInt32} {fd fd' : Int32}

theorem socketFdKey_eq_iff : (⟨tgid, fd'.toUInt32⟩ : SocketFdKey) = socketFdKey env fd ↔ env.tgid = tgid ∧ fd' = fd := by
  constructor
  · intro h
    obtain ⟨rfl, -⟩ := SocketFdKey.mk.inj h
    exact ⟨rfl, socketFdKey_inj h⟩
  · rintro ⟨rfl, rfl⟩
    rfl

theorem tracksIn_add (ok : Bool) : tracksIn ((addEdit env ok fd).apply m) tgid fd' ↔
    (env.tgid = tgid ∧ ok = true ∧ fd' = fd) ∨ tracksIn m tgid fd' := by
  cases ok with
  | false =>
    show tracksIn m tgid fd' ↔ _
    simp
  | true =>
    show (∃ value, (m.insert _ _).lookup _ = some value ∧ _) ↔ _
    rw [KeyedMap.lookup_insert_ite]
    by_cases hkey : (⟨tgid, fd'.toUInt32⟩ : SocketFdKey) = socketFdKey env fd
    · obtain ⟨htgid, hfd⟩ := socketFdKey_eq_iff.mp hkey
      rw [if_pos hkey]
      exact ⟨fun _ => Or.inl ⟨htgid, rfl, hfd⟩, fun _ => ⟨⟨1⟩, rfl, rfl⟩⟩
    · rw [if_neg hkey]
      exact ⟨Or.inr, fun h => h.resolve_left fun heq => hkey (socketFdKey_eq_iff.mpr ⟨heq.1, heq.2.2⟩)⟩

theorem tracksIn_drop : tracksIn ((Edit.drop (socketFdKey env fd)).apply m) tgid fd' ↔
    tracksIn m tgid fd' ∧ ¬(env.tgid = tgid ∧ fd' = fd) := by
  show (∃ value, (m.erase _).lookup _ = some value ∧ _) ↔ _
  rw [KeyedMap.lookup_erase_ite]
  by_cases hkey : (⟨tgid, fd'.toUInt32⟩ : SocketFdKey) = socketFdKey env fd
  · rw [if_pos hkey]
    exact ⟨nofun, fun h => absurd (socketFdKey_eq_iff.mp hkey) h.2⟩
  · rw [if_neg hkey]
    exact ⟨fun h => ⟨h, fun heq => hkey (socketFdKey_eq_iff.mpr heq)⟩, And.left⟩

end

/-- What a finished call does to the map. -/
theorem tracksIn_fdEdits {m : KeyedMap SocketFdKey SocketFdValue} {enterEnv env : HookEnv} {kind : NetworkEventKind}
    {args : SyscallArgs} {ret : Int64} {tgid : UInt32} {fd : Int32} :
    tracksIn (Edit.applyAll (fdEdits env kind ret (networkPayload enterEnv kind args)) m) tgid fd ↔
      env.tgid = tgid ∧ fd ∈ trackedFds args env ret kind ∨
        tracksIn m tgid fd ∧ ¬(env.tgid = tgid ∧ untrackedFd? args ret kind = some fd) := by
  have hone : ∀ kind', trackedFds args env ret kind' = trackedFds args env ret .socket →
      untrackedFd? args ret kind' = none → 0 ≤ ret →
      (tracksIn (Edit.applyAll [addEdit env env.addOk ret.toInt32] m) tgid fd ↔
        env.tgid = tgid ∧ fd ∈ trackedFds args env ret kind' ∨
          tracksIn m tgid fd ∧ ¬(env.tgid = tgid ∧ untrackedFd? args ret kind' = some fd)) := by
    intro kind' htracked huntracked hret
    rw [htracked, huntracked]
    refine (tracksIn_add _).trans ?_
    cases hok : env.addOk <;> simp [trackedFds, hret, hok]
  unfold fdEdits
  by_cases hret : 0 ≤ ret
  · rw [if_pos hret]
    cases kind with
    | socket => exact hone .socket rfl rfl hret
    | accept => exact hone .accept rfl rfl hret
    | accept4 => exact hone .accept4 rfl rfl hret
    | socketpair =>
      have hsv : (networkPayload enterEnv .socketpair args).peerFdPtr = args.sv := rfl
      dsimp only
      rw [hsv]
      by_cases hnull : args.sv = 0
      · simp [hnull, Edit.applyAll, trackedFds, untrackedFd?]
      · rw [if_neg hnull]
        cases hread : readFdPair env.mem args.sv with
        | none => simp [hread, Edit.applyAll, trackedFds, untrackedFd?]
        | some pair =>
          refine (tracksIn_add _).trans ((or_congr_right (tracksIn_add _)).trans ?_)
          cases hok : env.addOk <;> cases hpeer : env.addPeerOk <;>
            simp [trackedFds, untrackedFd?, hret, hnull, hread, hok, hpeer]
          tauto
    | close =>
      have hfd : (networkPayload enterEnv .close args).ev.fd = args.fd := rfl
      refine tracksIn_drop.trans ?_
      rw [hfd]
      simp [trackedFds, untrackedFd?, hret, eq_comm]
    | _ => simp [Edit.applyAll, trackedFds, untrackedFd?]
  · rw [if_neg hret]
    cases kind <;> simp [Edit.applyAll, trackedFds, untrackedFd?, hret]

/-! ## A run -/

section
variable (maps : ProbeMaps) (steps : List Step)

/-- At hit `i` a call finishes that was entered with these arguments. -/
structure FinishesAt (i : Nat) (env : HookEnv) (kind : NetworkEventKind) (args : SyscallArgs) (ret : Int64) : Prop where
  hit : steps[i]? = some (.deliver env (.exitNetwork kind ret))
  gate : networkGate maps env kind = true
  room : env.reserveOk = true
  opened : ∃ n enterEnv,
    OpenEnter maps (steps.take i) n enterEnv (.enterNetwork kind args) env.pidTgid (.network kind)

/-- At hit `i` a call of the process finishes that has made the descriptor. -/
def TracksAt (tgid : UInt32) (fd : Int32) (i : Nat) : Prop :=
  ∃ env kind args ret, FinishesAt maps steps i env kind args ret ∧ env.tgid = tgid ∧ fd ∈ trackedFds args env ret kind

/-- At hit `i` a call of the process finishes that has closed the descriptor. -/
def UntracksAt (tgid : UInt32) (fd : Int32) (i : Nat) : Prop :=
  ∃ env kind args ret, FinishesAt maps steps i env kind args ret ∧ env.tgid = tgid ∧
    untrackedFd? args ret kind = some fd

variable {maps steps} {i : Nat} {env env' : HookEnv} {kind kind' : NetworkEventKind} {args args' : SyscallArgs}
  {ret ret' : Int64}

theorem FinishesAt.unique (h : FinishesAt maps steps i env kind args ret)
    (h' : FinishesAt maps steps i env' kind' args' ret') : env = env' ∧ kind = kind' ∧ args = args' ∧ ret = ret' := by
  obtain ⟨n, enterEnv, hopen⟩ := h.opened
  obtain ⟨n', enterEnv', hopen'⟩ := h'.opened
  cases h.hit.symm.trans h'.hit
  obtain rfl := hopen.unique hopen'
  cases hopen.hit.symm.trans hopen'.hit
  exact ⟨rfl, rfl, rfl, rfl⟩

theorem gated_fds (gate : Bool) {e : Effect} (h : e.fds = []) : (gated gate e).fds = [] := by
  cases gate with
  | true => exact h
  | false => rfl

theorem saveEffect_fds (family : Family) (taken : Bool) {saved : Effect} (h : saved.fds = []) :
    (saveEffect env family taken saved).fds = [] := by
  unfold saveEffect
  split_ifs <;> first | rfl | exact h

theorem emitEffect_fds {P : Type} (family : Family) (entry : Option P) {dropped : Effect} {finish : P → Effect}
    (hdropped : dropped.fds = []) (hfinish : ∀ state, (finish state).fds = []) :
    (emitEffect env family entry dropped finish).fds = [] := by
  cases entry with
  | none => rfl
  | some state =>
    show (if env.reserveOk then finish state else { dropped with stat := _ }).fds = []
    split_ifs
    · exact hfinish state
    · exact hdropped

/-- Only an exit of a network call writes the map. -/
theorem fds_of_other {k : Kernel} {step : Step}
    (h : ∀ env kind ret, step ≠ .deliver env (.exitNetwork kind ret)) : (effect maps k step).fds = [] := by
  cases step with
  | deliver env hook =>
    have hreport : ∀ kind, (reportEffect env hook kind).fds = [] := fun kind => by
      unfold reportEffect
      split_ifs <;> rfl
    cases hook with
    | enterFile kind args => exact gated_fds _ (saveEffect_fds _ _ rfl)
    | exitFile kind ret => exact gated_fds _ (emitEffect_fds _ _ rfl fun _ => rfl)
    | rawEnter nr args => exact gated_fds _ (saveEffect_fds _ _ rfl)
    | rawExit nr ret => exact gated_fds _ (emitEffect_fds _ _ rfl fun _ => rfl)
    | enterNetwork kind args =>
      refine gated_fds _ ?_
      split_ifs
      · rfl
      · exact saveEffect_fds _ _ rfl
    | exitNetwork kind ret => exact absurd rfl (h env kind ret)
    | _ => exact gated_fds _ (hreport _)
  | _ => rfl

/-- The map after one more step: a call finishes, or it is as it was. -/
theorem socketFdState_step (i : Nat) :
    (∃ env kind args ret enterEnv, FinishesAt maps steps i env kind args ret ∧
      (run maps (steps.take (i + 1))).socketFdState = Edit.applyAll
        (fdEdits env kind ret (networkPayload enterEnv kind args)) (run maps (steps.take i)).socketFdState) ∨
    (∀ env kind args ret, ¬FinishesAt maps steps i env kind args ret) ∧
      (run maps (steps.take (i + 1))).socketFdState = (run maps (steps.take i)).socketFdState := by
  rw [List.take_add_one]
  cases hget : steps[i]? with
  | none =>
    refine Or.inr ⟨fun env kind args ret h => ?_, by rw [Option.toList_none, List.append_nil]⟩
    cases hget.symm.trans h.hit
  | some step =>
    rw [Option.toList_some, run_snoc]
    by_cases hexit : ∃ env kind ret, step = .deliver env (.exitNetwork kind ret)
    · obtain ⟨env, kind, ret, rfl⟩ := hexit
      rw [exec, socketFdState_exit]
      cases hentry : (run maps (steps.take i)).networkEnterState.lookup (makeNetworkKey env kind) with
      | none =>
        refine Or.inr ⟨fun env' kind' args ret' h => ?_, rfl⟩
        cases hget.symm.trans h.hit
        obtain ⟨n, enterEnv, hopen⟩ := h.opened
        cases hentry.symm.trans (networkEntry_iff.mpr ⟨n, enterEnv, _, hopen, rfl⟩)
      | some state =>
        by_cases hready : (networkGate maps env kind && env.reserveOk) = true
        · obtain ⟨n, enterEnv, enter, hopen, hstate⟩ := networkEntry_iff.mp hentry
          cases enter with
          | enterNetwork kind' args =>
            cases hopen.saves.enters
            cases hstate
            rw [Bool.and_eq_true] at hready
            refine Or.inl ⟨env, kind, args, ret, enterEnv, ⟨hget, hready.1, hready.2, n, enterEnv, hopen⟩, ?_⟩
            simp only [hready.1, hready.2, Bool.and_self, if_true]
            exact trackSocketFds_eq _ _ _ _ _
          | _ => cases hstate
        · refine Or.inr ⟨fun env' kind' args ret' h => ?_, if_neg hready⟩
          cases hget.symm.trans h.hit
          exact hready (Bool.and_eq_true_iff.mpr ⟨h.gate, h.room⟩)
    · refine Or.inr ⟨fun env kind args ret h => ?_, ?_⟩
      · exact hexit ⟨env, kind, ret, Option.some.inj (hget.symm.trans h.hit)⟩
      · rw [exec_eq]
        show Edit.applyAll (effect maps _ step).fds _ = _
        rw [fds_of_other fun env kind ret heq => hexit ⟨env, kind, ret, heq⟩]
        rfl

theorem tracks_step (tgid : UInt32) (fd : Int32) (i : Nat) :
    tracks (run maps (steps.take (i + 1))) tgid fd = true ↔ TracksAt maps steps tgid fd i ∨
      tracks (run maps (steps.take i)) tgid fd = true ∧ ¬UntracksAt maps steps tgid fd i := by
  rw [tracks_iff, tracks_iff]
  have hstep := @socketFdState_step maps steps i
  rcases hstep with ⟨env, kind, args, ret, enterEnv, hfin, hstate⟩ | ⟨hnone, hstate⟩
  · rw [hstate, tracksIn_fdEdits]
    refine or_congr ⟨fun h => ⟨env, kind, args, ret, hfin, h⟩, ?_⟩ (and_congr_right fun _ => not_congr ⟨fun h =>
      ⟨env, kind, args, ret, hfin, h⟩, ?_⟩)
    · rintro ⟨env', kind', args', ret', hfin', h⟩
      obtain ⟨rfl, rfl, rfl, rfl⟩ := hfin.unique hfin'
      exact h
    · rintro ⟨env', kind', args', ret', hfin', h⟩
      obtain ⟨rfl, rfl, rfl, rfl⟩ := hfin.unique hfin'
      exact h
  · rw [hstate]
    constructor
    · exact fun h => Or.inr ⟨h, fun ⟨env, kind, args, ret, hfin, _⟩ => hnone env kind args ret hfin⟩
    · rintro (⟨env, kind, args, ret, hfin, -⟩ | ⟨h, -⟩)
      · exact absurd hfin (hnone env kind args ret)
      · exact h

/-- **Which descriptors are tracked** after a run: those that a finished call of the process has made, and that no
call has closed that finished later. -/
theorem tracked_iff (maps : ProbeMaps) (steps : List Step) (tgid : UInt32) (fd : Int32) :
    tracks (run maps steps) tgid fd = true ↔
      ∃ i, TracksAt maps steps tgid fd i ∧ ∀ j, i < j → ¬UntracksAt maps steps tgid fd j := by
  have hinit : ¬tracks (run maps (steps.take 0)) tgid fd = true := Bool.false_ne_true
  have hlatch := @latch_iff (fun n => tracks (run maps (steps.take n)) tgid fd = true) _ _ hinit
    (tracks_step tgid fd) steps.length
  rw [List.take_length] at hlatch
  have hlt : ∀ {i env kind args ret}, FinishesAt maps steps i env kind args ret → i < steps.length := fun h =>
    (List.getElem?_eq_some_iff.mp h.hit).1
  refine hlatch.trans (exists_congr fun i => ⟨fun h => ⟨h.2.1, fun j hj hun => ?_⟩, fun h => ⟨?_, h.1, ?_⟩⟩)
  · obtain ⟨env, kind, args, ret, hfin, hclosed⟩ := hun
    exact h.2.2 j hj (hlt hfin) ⟨env, kind, args, ret, hfin, hclosed⟩
  · obtain ⟨env, kind, args, ret, hfin, -⟩ := h.1
    exact hlt hfin
  · exact fun j hj _ => h.2 j hj

end

end ETraceGen.Bpf
