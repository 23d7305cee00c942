import ETraceGen.Bpf.Conservation

/-!
# Correlation misses

A miss is an exit that finds no entry under its task and slot. In a run that loses nothing the file
and raw system call families never miss. The network family does: seven of its enter handlers follow
tracked sockets only, and none of its exit handlers looks at the descriptor.

* `Lossless` : every probe is enabled, every hit is delivered and every helper succeeds;
* `saved_of_inside` : what is stored under the task and slot during a call is decided by its enter;
* `misses_zero_iff` : the miss counters stay `0` exactly when every completed call of a gated kind
  was entered on a tracked socket.
-/

namespace ETraceGen.Bpf

open Pairing

/-- An entry is stored under the task and slot. -/
def saved (k : Kernel) (pidTgid : UInt64) : Slot → Bool
  | .file kind => (k.fileEnterState.lookup ⟨pidTgid, kind⟩).isSome
  | .syscall nr => (k.syscallEnterState.lookup ⟨pidTgid, nr⟩).isSome
  | .network kind => (k.networkEnterState.lookup ⟨pidTgid, kind⟩).isSome

/-! ## One delivery -/

section Delivery
variable {maps : ProbeMaps} {k : Kernel} {env : HookEnv} {hook : Hook} {slot : Slot}

theorem fileOp_key (h : (fileOp maps (.deliver env hook)).key? ≠ none) :
    ∃ kind, (fileOp maps (.deliver env hook)).key? = some ⟨env.pidTgid, kind⟩ ∧
      (hook.entered? = some (.file kind) ∨ hook.exited? = some (.file kind)) := by
  cases hook with
  | enterFile kind args =>
    refine ⟨kind, ?_, .inl rfl⟩
    simp only [fileOp]
    split_ifs <;> rfl
  | exitFile kind ret =>
    refine ⟨kind, ?_, .inr rfl⟩
    simp only [fileOp]
    split_ifs <;> rfl
  | _ => exact absurd rfl h

theorem syscallOp_key (h : (syscallOp maps (.deliver env hook)).key? ≠ none) :
    ∃ nr, (syscallOp maps (.deliver env hook)).key? = some ⟨env.pidTgid, nr⟩ ∧
      (hook.entered? = some (.syscall nr) ∨ hook.exited? = some (.syscall nr)) := by
  cases hook with
  | rawEnter nr args =>
    refine ⟨nr, ?_, .inl rfl⟩
    simp only [syscallOp]
    split_ifs <;> rfl
  | rawExit nr ret =>
    refine ⟨nr, ?_, .inr rfl⟩
    simp only [syscallOp]
    split_ifs <;> rfl
  | _ => exact absurd rfl h

theorem networkOp_key (h : (networkOp maps k (.deliver env hook)).key? ≠ none) :
    ∃ kind, (networkOp maps k (.deliver env hook)).key? = some ⟨env.pidTgid, kind⟩ ∧
      (hook.entered? = some (.network kind) ∨ hook.exited? = some (.network kind)) := by
  cases hook with
  | enterNetwork kind args => exact ⟨kind, networkOp_key_enter maps k env kind args, .inl rfl⟩
  | exitNetwork kind ret => exact ⟨kind, networkOp_key_exit maps k env kind ret, .inr rfl⟩
  | _ => exact absurd rfl h

/-- A delivery touches the entry of its own task and slot only. -/
theorem saved_other {pidTgid : UInt64} (hent : ¬ (Step.deliver env hook).Enters pidTgid slot)
    (hex : ¬ (Step.deliver env hook).Exits pidTgid slot) :
    saved (exec maps k (.deliver env hook)) pidTgid slot = saved k pidTgid slot := by
  have hmoves := exec_moves maps k (.deliver env hook)
  have hno : pidTgid = env.pidTgid → ¬ (hook.entered? = some slot ∨ hook.exited? = some slot) := by
    rintro rfl (h | h)
    · exact hent ⟨hook, rfl, h⟩
    · exact hex ⟨hook, rfl, h⟩
  cases slot with
  | file kind =>
    have hkey : (fileOp maps (.deliver env hook)).key? ≠ some ⟨pidTgid, kind⟩ := by
      intro h
      obtain ⟨kind', hk, hslot⟩ := fileOp_key (by rw [h]; simp)
      cases h.symm.trans hk
      exact hno rfl hslot
    exact congrArg Option.isSome ((fileClient maps).lookup_step_of_ne hkey)
  | syscall nr =>
    have hkey : (syscallOp maps (.deliver env hook)).key? ≠ some ⟨pidTgid, nr⟩ := by
      intro h
      obtain ⟨nr', hk, hslot⟩ := syscallOp_key (by rw [h]; simp)
      cases h.symm.trans hk
      exact hno rfl hslot
    exact congrArg Option.isSome ((syscallClient maps).lookup_step_of_ne hkey)
  | network kind =>
    have hkey : (networkOp maps k (.deliver env hook)).key? ≠ some ⟨pidTgid, kind⟩ := by
      intro h
      obtain ⟨kind', hk, hslot⟩ := networkOp_key (by rw [h]; simp)
      cases h.symm.trans hk
      exact hno rfl hslot
    exact congrArg Option.isSome ((networkClient maps).lookup_step_of_ne hkey)

/-- An enter on a free slot saves its payload just when it passes its gate. -/
theorem saved_enter (hent : hook.entered? = some slot) (hok : HelpersOk env)
    (hfree : saved k env.pidTgid slot = false) :
    saved (exec maps k (.deliver env hook)) env.pidTgid slot =
      passesEnter maps slot.family k (.deliver env hook) := by
  obtain ⟨hres, hupd, hscr⟩ := hok
  have hmoves := exec_moves maps k (.deliver env hook)
  cases hook with
  | enterFile kind args =>
    cases hent
    have hnone : (fileTable k).pending.lookup ⟨env.pidTgid, kind⟩ = none := by
      simpa [saved, fileTable] using hfree
    have htable := hmoves.file
    simp only [fileOp, hres, hupd, if_true] at htable
    change ((fileTable _).pending.lookup ⟨env.pidTgid, kind⟩).isSome = fileGate maps env kind
    rw [htable]
    split_ifs with hgate
    · simp_all [Table.apply]
    · rw [makeFileKey, Table.apply_enter_of_none _ hnone]
      simp_all
  | rawEnter nr args =>
    cases hent
    have hnone : (syscallTable k).pending.lookup ⟨env.pidTgid, nr⟩ = none := by
      simpa [saved, syscallTable] using hfree
    have htable := hmoves.syscall
    simp only [syscallOp, hres, hupd, if_true] at htable
    change ((syscallTable _).pending.lookup ⟨env.pidTgid, nr⟩).isSome = syscallGate maps env
    rw [htable]
    split_ifs with hgate
    · simp_all [Table.apply]
    · rw [makeSyscallKey, Table.apply_enter_of_none _ hnone]
      simp_all
  | enterNetwork kind args =>
    cases hent
    have hnone : (networkTable k).pending.lookup ⟨env.pidTgid, kind⟩ = none := by
      simpa [saved, networkTable] using hfree
    have htable := hmoves.network
    simp only [networkOp, hres, hupd, hscr, Bool.not_true, Bool.false_eq_true, if_true,
      if_false] at htable
    change ((networkTable _).pending.lookup ⟨env.pidTgid, kind⟩).isSome =
      networkEnterGate maps env kind args k
    rw [htable]
    split_ifs with hgate
    · simp_all [Table.apply]
    · rw [makeNetworkKey, Table.apply_enter_of_none _ hnone]
      simp_all
  | _ => cases hent

/-- An exit that passes its gate leaves nothing saved under its slot. -/
theorem saved_exit (hex : hook.exited? = some slot) :
    saved (exec maps k (.deliver env hook)) env.pidTgid slot =
      (saved k env.pidTgid slot && !passesExit maps slot.family k (.deliver env hook)) := by
  have hmoves := exec_moves maps k (.deliver env hook)
  cases hook with
  | exitFile kind ret =>
    cases hex
    have htable := hmoves.file
    change ((fileTable _).pending.lookup ⟨env.pidTgid, kind⟩).isSome = (_ && !fileGate maps env kind)
    rw [htable, fileOp]
    split_ifs with hgate
    · simp_all [Table.apply, saved, fileTable]
    · rw [makeFileKey, Table.lookup_apply_exit]
      simp_all
  | rawExit nr ret =>
    cases hex
    have htable := hmoves.syscall
    change ((syscallTable _).pending.lookup ⟨env.pidTgid, nr⟩).isSome = (_ && !syscallGate maps env)
    rw [htable, syscallOp]
    split_ifs with hgate
    · simp_all [Table.apply, saved, syscallTable]
    · rw [makeSyscallKey, Table.lookup_apply_exit]
      simp_all
  | exitNetwork kind ret =>
    cases hex
    have htable := hmoves.network
    change ((networkTable _).pending.lookup ⟨env.pidTgid, kind⟩).isSome =
      (_ && !networkGate maps env kind)
    rw [htable, networkOp]
    split_ifs with hgate
    · simp_all [Table.apply, saved, networkTable]
    · rw [makeNetworkKey, Table.lookup_apply_exit]
      simp_all
  | _ => cases hex

/-- An exit that passes its gate and finds nothing saved. -/
def missesAt (maps : ProbeMaps) (F : Family) (k : Kernel) : Step → Bool
  | .deliver env hook =>
    passesExit maps F k (.deliver env hook) &&
      !((hook.exited?).any fun slot => saved k env.pidTgid slot)
  | _ => false

theorem miss_exec (F : Family) :
    (exec maps k (.deliver env hook)).bpfStats F.miss =
      k.bpfStats F.miss + (missesAt maps F k (.deliver env hook)).toNat := by
  have hmoves := exec_moves maps k (.deliver env hook)
  cases F with
  | file =>
    have hmiss := congrArg Table.misses hmoves.file
    rw [Table.misses_apply] at hmiss
    refine hmiss.trans (congrArg (fun b => k.bpfStats .fileStateMiss + Bool.toNat b) ?_)
    cases hook <;> simp only [fileOp, missesAt, passesExit] <;> try rfl
    all_goals split_ifs <;> simp_all [Op.isMiss, Hook.exited?, saved, fileTable, makeFileKey]
  | syscall =>
    have hmiss := congrArg Table.misses hmoves.syscall
    rw [Table.misses_apply] at hmiss
    refine hmiss.trans (congrArg (fun b => k.bpfStats .syscallStateMiss + Bool.toNat b) ?_)
    cases hook <;> simp only [syscallOp, missesAt, passesExit] <;> try rfl
    all_goals split_ifs <;> simp_all [Op.isMiss, Hook.exited?, saved, syscallTable, makeSyscallKey]
  | network =>
    have hmiss := congrArg Table.misses hmoves.network
    rw [Table.misses_apply] at hmiss
    refine hmiss.trans (congrArg (fun b => k.bpfStats .networkStateMiss + Bool.toNat b) ?_)
    cases hook <;> simp only [networkOp, missesAt, passesExit] <;> try rfl
    all_goals split_ifs <;> simp_all [Op.isMiss, Hook.exited?, saved, networkTable, makeNetworkKey]

end Delivery

/-! ## Runs that lose nothing -/

/-- All probes are enabled, every hit is delivered, every helper succeeds, and every task runs its
system calls one after another, so that the enter of every exit was delivered too. -/
structure Lossless (maps : ProbeMaps) (steps : List Step) : Prop where
  fileProbes : ∀ kind, isFileProbeEnabled maps kind = true
  syscallProbe : isSyscallProbeEnabled maps = true
  networkProbes : ∀ kind, isNetworkProbeEnabled maps kind = true
  delivered : ∀ step ∈ steps, ∃ env hook, step = .deliver env hook ∧ HelpersOk env
  sequential : Sequential steps

section Lossless
variable {maps : ProbeMaps} {steps : List Step}

theorem Lossless.of_append {rest : List Step} (h : Lossless maps (steps ++ rest)) :
    Lossless maps steps where
  fileProbes := h.fileProbes
  syscallProbe := h.syscallProbe
  networkProbes := h.networkProbes
  delivered := fun step hs => h.delivered step (List.mem_append_left _ hs)
  sequential := h.sequential.of_append

theorem Lossless.passesExit_eq (h : Lossless maps steps) {k : Kernel} {env : HookEnv} {hook : Hook}
    {slot : Slot} (hex : hook.exited? = some slot) :
    passesExit maps slot.family k (.deliver env hook) = isEventAllowed maps env := by
  cases hook <;> cases hex
  · simp [Slot.family, passesExit, fileGate, h.fileProbes]
  · simp [Slot.family, passesExit, syscallGate, h.syscallProbe]
  · simp [Slot.family, passesExit, networkGate, h.networkProbes]

theorem allowed_of_passesEnter {k : Kernel} {env : HookEnv} {hook : Hook} {F : Family}
    (h : passesEnter maps F k (.deliver env hook) = true) : isEventAllowed maps env = true := by
  cases F <;> cases hook <;>
    simp_all [passesEnter, fileGate, syscallGate, networkEnterGate, networkGate]

/-- What is saved belongs to a call in progress of a traced task. -/
theorem Lossless.saved_inside (h : Lossless maps steps) {c : Calls}
    (hc : Calls.after steps = some c) (pidTgid : UInt64) (slot : Slot)
    (hs : saved (run maps steps) pidTgid slot = true) :
    c pidTgid slot.family = some slot ∧
      ∀ env : HookEnv, env.pidTgid = pidTgid → isEventAllowed maps env = true := by
  induction steps using List.reverseRecOn generalizing c pidTgid slot with
  | nil => cases slot <;> cases hs
  | append_singleton steps step ih =>
    obtain ⟨c₀, c', hc₀, hstep, hc'⟩ := h.sequential.init
    cases hc.symm.trans hc'
    obtain ⟨env, hook, rfl, hok⟩ := h.delivered _ (List.mem_append_right _ (List.mem_singleton_self _))
    replace ih := ih h.of_append hc₀
    rw [run_snoc] at hs
    rcases Calls.effect_of_step hstep with ⟨p, slot', hent, hidle, rfl⟩ |
      ⟨p, slot', hex, hin, rfl⟩ | ⟨hno, rfl⟩
    · by_cases hsame : pidTgid = p ∧ slot = slot'
      · obtain ⟨rfl, rfl⟩ := hsame
        obtain ⟨hook', hhit, hent⟩ := hent
        cases hhit
        have hfree : saved (run maps steps) env.pidTgid slot = false := by
          by_contra hsaved
          cases hidle.symm.trans (ih _ _ (by simpa using hsaved)).1
        rw [saved_enter hent hok hfree] at hs
        exact ⟨Calls.set_self .., fun env' he =>
          (isEventAllowed_congr maps he).trans (allowed_of_passesEnter hs)⟩
      · rw [saved_other (fun h => hsame (hent.unique h)) hent.not_exits] at hs
        obtain ⟨hin, hall⟩ := ih _ _ hs
        refine ⟨?_, hall⟩
        rw [Calls.set_of_ne _ _ ?_]
        · exact hin
        · rintro ⟨rfl, hfam⟩
          rw [hfam, hidle] at hin
          cases hin
    · by_cases hsame : pidTgid = p ∧ slot = slot'
      · -- the exit of a traced task passes its gate and clears the slot
        obtain ⟨rfl, rfl⟩ := hsame
        obtain ⟨hook', hhit, hex⟩ := hex
        cases hhit
        rw [saved_exit hex, h.passesExit_eq hex, Bool.and_eq_true] at hs
        rw [(ih _ _ hs.1).2 env rfl] at hs
        cases hs.2
      rw [saved_other (fun h => h.not_exits hex) fun h => hsame (hex.unique h)] at hs
      obtain ⟨hin', hall⟩ := ih _ _ hs
      refine ⟨?_, hall⟩
      rw [Calls.set_of_ne _ _ ?_]
      · exact hin'
      · rintro ⟨rfl, hfam⟩
        rw [hfam, hin] at hin'
        exact hsame ⟨rfl, (Option.some.inj hin').symm⟩
    · rw [saved_other (fun h => hno _ _ ⟨slot, .inl h, rfl⟩) fun h => hno _ _ ⟨slot, .inr h, rfl⟩] at hs
      exact ih _ _ hs

/-- **During a call** its slot holds an entry just when its enter passed its gate. -/
theorem Lossless.saved_of_inside {before rest : List Step} {env : HookEnv} {hook : Hook} {slot : Slot}
    (h : Lossless maps (before ++ .deliver env hook :: rest)) (hent : hook.entered? = some slot)
    (hrest : ∀ s ∈ rest, ¬ s.Hits env.pidTgid slot.family) :
    saved (run maps (before ++ .deliver env hook :: rest)) env.pidTgid slot =
      passesEnter maps slot.family (run maps before) (.deliver env hook) := by
  induction rest using List.reverseRecOn with
  | nil =>
    obtain ⟨c, c', hc, hstep, -⟩ := h.sequential.init
    obtain ⟨env', hook', heq, hok⟩ :=
      h.delivered _ (List.mem_append_right _ (List.mem_singleton_self _))
    cases heq
    have hfree : saved (run maps before) env.pidTgid slot = false := by
      by_contra hsaved
      have hin := (h.of_append.saved_inside hc _ _ (by simpa using hsaved)).1
      have hidle := Calls.idle_of_enter hstep ⟨hook, rfl, hent⟩
      cases hidle.symm.trans hin
    rw [run_snoc, saved_enter hent hok hfree]
  | append_singleton rest s ih =>
    have happ : before ++ .deliver env hook :: (rest ++ [s]) =
        before ++ .deliver env hook :: rest ++ [s] := by simp
    rw [happ] at h ⊢
    obtain ⟨env', hook', rfl, -⟩ :=
      h.delivered s (List.mem_append_right _ (List.mem_singleton_self _))
    have hno := hrest _ (List.mem_append_right _ (List.mem_singleton_self _))
    rw [run_snoc, saved_other (fun he => hno ⟨slot, .inl he, rfl⟩) fun he => hno ⟨slot, .inr he, rfl⟩]
    exact ih h.of_append fun s' hs' => hrest s' (List.mem_append_left _ hs')

end Lossless

/-! ## The miss counters -/

section Misses
variable (maps : ProbeMaps) (steps : List Step)

/-- Every completed network call of a traced task whose kind is gated was entered on a tracked
socket. -/
def GatedOnSockets : Prop :=
  ∀ before env kind args during env' ret rest,
    steps = before ++ .deliver env (.enterNetwork kind args) :: during ++
      .deliver env' (.exitNetwork kind ret) :: rest →
    env'.pidTgid = env.pidTgid → (∀ s ∈ during, ¬ s.Hits env.pidTgid .network) →
    isEventAllowed maps env = true → isGated kind = true →
    isSocketFd env args.fd (run maps before) = true

variable {maps steps}

theorem GatedOnSockets.of_append {rest : List Step} (h : GatedOnSockets maps (steps ++ rest)) :
    GatedOnSockets maps steps := by
  intro before env kind args during env' ret rest' hsplit
  exact h before env kind args during env' ret (rest' ++ rest) (by simp [hsplit])

theorem exited_of_passesExit {k : Kernel} {env : HookEnv} {hook : Hook} {F : Family}
    (h : passesExit maps F k (.deliver env hook) = true) :
    ∃ slot, hook.exited? = some slot ∧ slot.family = F := by
  cases F <;> cases hook <;> first | exact ⟨_, rfl, rfl⟩ | cases h

/-- In a lossless run only the socket gate turns an enter of a traced task away. -/
theorem Lossless.passesEnter_eq (h : Lossless maps steps) {k : Kernel} {env : HookEnv} {hook : Hook}
    {slot : Slot} (hent : hook.entered? = some slot) (hall : isEventAllowed maps env = true)
    (hsock : ∀ kind args, hook = .enterNetwork kind args → isGated kind = true →
      isSocketFd env args.fd k = true) :
    passesEnter maps slot.family k (.deliver env hook) = true := by
  cases hook with
  | enterFile kind args =>
    cases hent
    simp [Slot.family, passesEnter, fileGate, hall, h.fileProbes]
  | rawEnter nr args =>
    cases hent
    simp [Slot.family, passesEnter, syscallGate, hall, h.syscallProbe]
  | enterNetwork kind args =>
    cases hent
    have hgate : (gateFd args kind).all (fun fd => isSocketFd env fd k) = true := by
      unfold gateFd
      split_ifs with hk
      · simpa using hsock kind args rfl hk
      · rfl
    simp [Slot.family, passesEnter, networkEnterGate, networkGate, hall, h.networkProbes, hgate]
  | _ => cases hent

/-- An exit of a lossless run does not miss when its enter passed its gate. -/
theorem Lossless.not_missesAt {env : HookEnv} {hook : Hook} {F : Family}
    (h : Lossless maps (steps ++ [.deliver env hook]))
    (hgated : GatedOnSockets maps (steps ++ [.deliver env hook])) :
    missesAt maps F (run maps steps) (.deliver env hook) = false := by
  cases hpass : passesExit maps F (run maps steps) (.deliver env hook) with
  | false => simp [missesAt, hpass]
  | true =>
    obtain ⟨slot, hex, rfl⟩ := exited_of_passesExit hpass
    obtain ⟨c, c', hc, hstep, -⟩ := h.sequential.init
    obtain ⟨before, s, during, rfl, ⟨enter, hhit, hent⟩, hduring⟩ :=
      Calls.inside hc (Calls.inside_of_exit hstep ⟨hook, rfl, hex⟩)
    obtain ⟨enterEnv, enter', rfl, -⟩ := h.delivered s (by simp)
    obtain ⟨hpid, rfl⟩ : enterEnv.pidTgid = env.pidTgid ∧ enter' = enter := by
      simpa [Step.hit?] using hhit
    have hall : isEventAllowed maps enterEnv = true := by
      rw [isEventAllowed_congr maps hpid, ← h.passesExit_eq hex, hpass]
    have hsaved := h.of_append.saved_of_inside hent (by rwa [hpid])
    rw [h.passesEnter_eq hent hall, hpid] at hsaved
    · simp [missesAt, hpass, hex, hsaved]
    · rintro kind args rfl hk
      cases hent
      cases hook <;> cases hex
      exact hgated before enterEnv kind args during env _ [] rfl hpid.symm
        (by rwa [hpid]) hall hk

theorem Lossless.miss_le {rest : List Step} (h : Lossless maps (steps ++ rest)) (F : Family) :
    (run maps steps).bpfStats F.miss ≤ (run maps (steps ++ rest)).bpfStats F.miss := by
  induction rest using List.reverseRecOn with
  | nil => simp
  | append_singleton rest s ih =>
    rw [← List.append_assoc] at h ⊢
    obtain ⟨env, hook, rfl, -⟩ :=
      h.delivered s (List.mem_append_right _ (List.mem_singleton_self _))
    rw [run_snoc, miss_exec]
    exact (ih h.of_append).trans (Nat.le_add_right _ _)

/-- **The miss counters** of a run that loses nothing stay `0` exactly when every completed call of
a gated kind was entered on a tracked socket. -/
theorem misses_zero_iff (hlossless : Lossless maps steps) :
    (∀ F : Family, (run maps steps).bpfStats F.miss = 0) ↔ GatedOnSockets maps steps := by
  constructor
  · intro hzero before env kind args during env' ret rest hsplit hpid hduring hall hk
    subst hsplit
    by_contra hsock
    -- the gate turned this enter away, so its exit finds nothing
    have happ : before ++ .deliver env (.enterNetwork kind args) :: during ++
        .deliver env' (.exitNetwork kind ret) :: rest =
      before ++ .deliver env (.enterNetwork kind args) :: during ++
        [.deliver env' (.exitNetwork kind ret)] ++ rest := by simp
    rw [happ] at hlossless hzero
    have hsaved := hlossless.of_append.of_append.saved_of_inside rfl hduring
    have hgate : passesEnter maps .network (run maps before)
        (.deliver env (.enterNetwork kind args)) = false := by
      simp [passesEnter, networkEnterGate, gateFd, hk, hsock]
    rw [show (Slot.network kind).family = .network from rfl, hgate] at hsaved
    have hpass : passesExit maps .network
        (run maps (before ++ .deliver env (.enterNetwork kind args) :: during))
        (.deliver env' (.exitNetwork kind ret)) = true :=
      (hlossless.passesExit_eq (show _ = some (.network kind) from rfl)).trans
        (by rw [isEventAllowed_congr maps hpid, hall])
    have hle := hlossless.miss_le .network
    rw [hzero, run_snoc, miss_exec] at hle
    simp [missesAt, hpass, Hook.exited?, hpid, hsaved] at hle
  · intro hgated
    induction steps using List.reverseRecOn with
    | nil => exact fun F => rfl
    | append_singleton steps s ih =>
      intro F
      obtain ⟨env, hook, rfl, -⟩ :=
        hlossless.delivered s (List.mem_append_right _ (List.mem_singleton_self _))
      rw [run_snoc, miss_exec, ih hlossless.of_append hgated.of_append F,
        hlossless.not_missesAt hgated]
      rfl

end Misses

/-! ## Reading a regular file -/

/-- One task reads from descriptor 5, which no socket call returned. -/
def regularRead : List Step :=
  [.deliver env7 (.enterNetwork .read (.of 5 0 16 0 0 0)),
    .deliver env7 (.exitNetwork .read 16)]

theorem regularRead_lossless : Lossless allProbes regularRead where
  fileProbes := fun _ => rfl
  syscallProbe := rfl
  networkProbes := fun _ => rfl
  delivered := by
    intro step hs
    simp only [regularRead, List.mem_cons, List.not_mem_nil, or_false] at hs
    rcases hs with rfl | rfl <;> exact ⟨_, _, rfl, rfl, rfl, rfl⟩
  sequential := by decide

/-- Nothing is lost, and the exit misses. -/
theorem not_misses_zero :
    ¬ ∀ maps steps, Lossless maps steps → ∀ F : Family, (run maps steps).bpfStats F.miss = 0 := by
  intro h
  have hmiss : (run allProbes regularRead).bpfStats .networkStateMiss = 1 := by decide
  have hzero := h allProbes regularRead regularRead_lossless .network
  rw [Family.miss, hmiss] at hzero
  cases hzero

theorem misses_zero_iff_regularRead : ¬ GatedOnSockets allProbes regularRead := by
  intro h
  have hmiss : (run allProbes regularRead).bpfStats .networkStateMiss = 1 := by decide
  have hzero := (misses_zero_iff regularRead_lossless).mpr h .network
  rw [Family.miss, hmiss] at hzero
  cases hzero

end ETraceGen.Bpf
