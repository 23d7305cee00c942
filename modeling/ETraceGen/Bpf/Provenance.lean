import ETraceGen.Bpf.Calls

/-!
# Where a record's arguments come from

An exit handler finishes whatever its family's map holds under the task and slot. The map keeps a
stored payload when a later enter collides with it, so a payload whose exit was never delivered can
still be there when the next invocation of the same task and slot exits.

* `RecordsOwnEnter` : every record an exit submits is made of the last enter of its task and slot;
* `EmitsNoLeftover` : no exit finds a payload that was stored already at that enter;
* `records_own_enter` : the second gives the first, in every run.
-/

namespace ETraceGen.Bpf

open Pairing

/-- The record an exit makes of the payload the enter captured. -/
def makeRecord (enterEnv : HookEnv) (enter : Hook) (env : HookEnv) (exit : Hook) :
    Option EventVariant :=
  match enter, exit with
  | .enterFile kind args, .exitFile _ ret =>
    some (.file (finishFileEvent env ret (filePayload enterEnv kind args)))
  | .rawEnter nr args, .rawExit _ ret =>
    some (.syscall (finishSyscallEvent env ret (syscallPayload enterEnv nr args)))
  | .enterNetwork kind args, .exitNetwork _ ret =>
    some (.network (finishNetworkEvent env kind ret (networkPayload enterEnv kind args)))
  | _, _ => none

/-- The task's last enter of the slot was this one, and its handler ran. -/
def LastEnter (steps : List Step) (pidTgid : UInt64) (slot : Slot) (enterEnv : HookEnv)
    (enter : Hook) : Prop :=
  ∃ before after, steps = before ++ .deliver enterEnv enter :: after ∧
    enterEnv.pidTgid = pidTgid ∧ enter.entered? = some slot ∧
    ∀ step ∈ after, ¬ step.Enters pidTgid slot

section
variable (maps : ProbeMaps)

/-- Every record that an exit submits carries what the last enter of its task and slot captured. -/
def RecordsOwnEnter (steps : List Step) : Prop :=
  ∀ before env exit after slot record, steps = before ++ .deliver env exit :: after →
    exit.exited? = some slot →
    (run maps (before ++ [.deliver env exit])).events.records =
      (run maps before).events.records ++ [record] →
    ∃ enterEnv enter, LastEnter before env.pidTgid slot enterEnv enter ∧
      makeRecord enterEnv enter env exit = some record

/-- The entry under the task and slot was in the map already when the task last entered it. -/
def leftover (steps : List Step) (pidTgid : UInt64) : Slot → Bool
  | .file kind => ((fileClient maps).history {} steps).leftover ⟨pidTgid, kind⟩
  | .syscall nr => ((syscallClient maps).history {} steps).leftover ⟨pidTgid, nr⟩
  | .network kind => ((networkClient maps).history {} steps).leftover ⟨pidTgid, kind⟩

/-- No exit that gets to reserve its record finds a leftover. -/
def EmitsNoLeftover (steps : List Step) : Prop :=
  ∀ before env exit after slot, steps = before ++ .deliver env exit :: after →
    exit.exited? = some slot → reserves maps (run maps before) env exit → env.reserveOk →
    leftover maps before env.pidTgid slot = false

/-! ## The enters behind the operations -/

theorem fileOp_eq_enter {step : Step} {key : FileStateKey} {ev : FileEvent} {room : Bool}
    (h : fileOp maps step = .enter key ev room) :
    ∃ env args, step = .deliver env (.enterFile key.kind args) ∧ env.pidTgid = key.pidTgid ∧
      ev = filePayload env key.kind args := by
  cases step with
  | deliver env hook =>
    cases hook with
    | enterFile kind args =>
      simp only [fileOp] at h
      split_ifs at h
      cases h
      exact ⟨env, args, rfl, rfl, rfl⟩
    | exitFile kind ret =>
      simp only [fileOp] at h
      split_ifs at h
    | _ => cases h
  | absent pidTgid hook => cases hook <;> cases h
  | _ => cases h

theorem syscallOp_eq_enter {step : Step} {key : SyscallStateKey} {ev : SyscallEvent} {room : Bool}
    (h : syscallOp maps step = .enter key ev room) :
    ∃ env args, step = .deliver env (.rawEnter key.syscallNr args) ∧ env.pidTgid = key.pidTgid ∧
      ev = syscallPayload env key.syscallNr args := by
  cases step with
  | deliver env hook =>
    cases hook with
    | rawEnter nr args =>
      simp only [syscallOp] at h
      split_ifs at h
      cases h
      exact ⟨env, args, rfl, rfl, rfl⟩
    | rawExit nr ret =>
      simp only [syscallOp] at h
      split_ifs at h
    | _ => cases h
  | absent pidTgid hook => cases hook <;> cases h
  | _ => cases h

theorem networkOp_eq_enter {k : Kernel} {step : Step} {key : NetworkStateKey}
    {state : NetworkStateValue} {room : Bool} (h : networkOp maps k step = .enter key state room) :
    ∃ env args, step = .deliver env (.enterNetwork key.kind args) ∧ env.pidTgid = key.pidTgid ∧
      state = networkPayload env key.kind args ∧ env.reserveOk = true := by
  cases step with
  | deliver env hook =>
    cases hook with
    | enterNetwork kind args =>
      simp only [networkOp] at h
      split_ifs at h with hgate hres
      cases h
      rw [Bool.not_eq_true, Bool.not_eq_false'] at hres
      exact ⟨env, args, rfl, rfl, rfl, hres⟩
    | exitNetwork kind ret =>
      simp only [networkOp] at h
      split_ifs at h
    | _ => cases h
  | absent pidTgid hook => cases hook <;> cases h
  | _ => cases h

/-! An enter of a slot, delivered or not, is an entry of its key, and nothing else is. -/

theorem fileOp_entersKey_iff {step : Step} {pidTgid : UInt64} {kind : FileEventKind} :
    (fileOp maps step).entersKey ⟨pidTgid, kind⟩ ↔ step.Enters pidTgid (.file kind) := by
  constructor
  · intro h
    cases step with
    | deliver env hook =>
      cases hook with
      | enterFile kind' args =>
        have hkey : makeFileKey env kind' = ⟨pidTgid, kind⟩ := by
          rw [fileOp] at h
          split_ifs at h <;> exact h
        obtain ⟨rfl, rfl⟩ := FileStateKey.mk.inj hkey
        exact ⟨_, rfl, rfl⟩
      | exitFile kind' ret =>
        rw [fileOp] at h
        split_ifs at h <;> exact h.elim
      | _ => exact h.elim
    | absent p hook =>
      cases hook with
      | enterFile kind' args =>
        obtain ⟨rfl, rfl⟩ := FileStateKey.mk.inj h
        exact ⟨_, rfl, rfl⟩
      | _ => exact h.elim
    | _ => exact h.elim
  · rintro ⟨hook, hhit, hent⟩
    cases hook <;> cases hent
    cases step <;> cases hhit
    · simp only [fileOp]
      split_ifs <;> rfl
    · rfl

theorem syscallOp_entersKey_iff {step : Step} {pidTgid : UInt64} {nr : Int32} :
    (syscallOp maps step).entersKey ⟨pidTgid, nr⟩ ↔ step.Enters pidTgid (.syscall nr) := by
  constructor
  · intro h
    cases step with
    | deliver env hook =>
      cases hook with
      | rawEnter nr' args =>
        have hkey : makeSyscallKey env nr' = ⟨pidTgid, nr⟩ := by
          rw [syscallOp] at h
          split_ifs at h <;> exact h
        obtain ⟨rfl, rfl⟩ := SyscallStateKey.mk.inj hkey
        exact ⟨_, rfl, rfl⟩
      | rawExit nr' ret =>
        rw [syscallOp] at h
        split_ifs at h <;> exact h.elim
      | _ => exact h.elim
    | absent p hook =>
      cases hook with
      | rawEnter nr' args =>
        obtain ⟨rfl, rfl⟩ := SyscallStateKey.mk.inj h
        exact ⟨_, rfl, rfl⟩
      | _ => exact h.elim
    | _ => exact h.elim
  · rintro ⟨hook, hhit, hent⟩
    cases hook <;> cases hent
    cases step <;> cases hhit
    · simp only [syscallOp]
      split_ifs <;> rfl
    · rfl

theorem networkOp_entersKey_iff {k : Kernel} {step : Step} {pidTgid : UInt64} {kind : NetworkEventKind} :
    (networkOp maps k step).entersKey ⟨pidTgid, kind⟩ ↔ step.Enters pidTgid (.network kind) := by
  constructor
  · intro h
    cases step with
    | deliver env hook =>
      cases hook with
      | enterNetwork kind' args =>
        have hkey : makeNetworkKey env kind' = ⟨pidTgid, kind⟩ := by
          rw [networkOp] at h
          split_ifs at h <;> exact h
        obtain ⟨rfl, rfl⟩ := NetworkStateKey.mk.inj hkey
        exact ⟨_, rfl, rfl⟩
      | exitNetwork kind' ret =>
        rw [networkOp] at h
        split_ifs at h <;> exact h.elim
      | _ => exact h.elim
    | absent p hook =>
      cases hook with
      | enterNetwork kind' args =>
        obtain ⟨rfl, rfl⟩ := NetworkStateKey.mk.inj h
        exact ⟨_, rfl, rfl⟩
      | _ => exact h.elim
    | _ => exact h.elim
  · rintro ⟨hook, hhit, hent⟩
    cases hook <;> cases hent
    cases step <;> cases hhit
    · simp only [networkOp]
      split_ifs <;> rfl
    · rfl

/-! ## The exits behind the records -/

variable {maps} {k : Kernel} {env : HookEnv} {ret : Int64} {record : EventVariant}

theorem record_of_exitFile {kind : FileEventKind}
    (h : (handle maps env (.exitFile kind ret) k).events.records = k.events.records ++ [record]) :
    reserves maps k env (.exitFile kind ret) ∧ env.reserveOk ∧
      ∃ state, k.fileEnterState.lookup (makeFileKey env kind) = some state ∧
        record = .file (finishFileEvent env ret state) := by
  simp only [handle, handleExitFile_eq, exitFile_eq] at h
  split_ifs at h with hgate
  · cases hs : k.fileEnterState.lookup (makeFileKey env kind) with
    | none => simp [emitFileExitEvent, hs, Kernel.statInc] at h
    | some state =>
      rw [emitFileExitEvent_of_some env ret hs] at h
      split_ifs at h with hok
      · refine ⟨by simp [reserves, hgate, hs], hok, state, rfl, ?_⟩
        simpa [Kernel.submit, Kernel.reserve] using h.symm
      · simp [Kernel.statInc] at h
  · simp at h

theorem record_of_rawExit {nr : Int32}
    (h : (handle maps env (.rawExit nr ret) k).events.records = k.events.records ++ [record]) :
    reserves maps k env (.rawExit nr ret) ∧ env.reserveOk ∧
      ∃ state, k.syscallEnterState.lookup (makeSyscallKey env nr) = some state ∧
        record = .syscall (finishSyscallEvent env ret state) := by
  simp only [handle, onRawSysExit_eq] at h
  split_ifs at h with hgate
  · cases hs : k.syscallEnterState.lookup (makeSyscallKey env nr) with
    | none => simp [emitSyscallExitEvent, hs, Kernel.statInc] at h
    | some state =>
      rw [emitSyscallExitEvent_of_some env ret hs] at h
      split_ifs at h with hok
      · refine ⟨by simp [reserves, hgate, hs], hok, state, rfl, ?_⟩
        simpa [Kernel.submit, Kernel.reserve] using h.symm
      · simp [Kernel.statInc] at h
  · simp at h

theorem record_of_exitNetwork {kind : NetworkEventKind}
    (h : (handle maps env (.exitNetwork kind ret) k).events.records = k.events.records ++ [record]) :
    reserves maps k env (.exitNetwork kind ret) ∧ env.reserveOk ∧
      ∃ state, k.networkEnterState.lookup (makeNetworkKey env kind) = some state ∧
        record = .network (finishNetworkEvent env kind ret state) := by
  simp only [handle, handleExitNetwork_eq, exitNetwork_eq] at h
  split_ifs at h with hgate
  · cases hs : k.networkEnterState.lookup (makeNetworkKey env kind) with
    | none => simp [emitNetworkExitEvent, hs, Kernel.statInc] at h
    | some state =>
      rw [emitNetworkExitEvent_of_some env ret hs] at h
      split_ifs at h with hok
      · refine ⟨by simp [reserves, hgate, hs], hok, state, rfl, ?_⟩
        simpa [Kernel.submit, Kernel.reserve] using h.symm
      · simp [Kernel.statInc] at h
  · simp at h

/-! ## The whole run -/

/-- A client's last entry of a key, read as the last enter of a slot. -/
theorem lastEnter_of_lastEntry {K P R : Type} [DecidableEq K] {c : Client Kernel Step K P R}
    {steps : List Step} {key : K} {payload : P} {pidTgid : UInt64} {slot : Slot}
    {made : HookEnv → Hook → Prop} (h : c.LastEntry {} steps key payload)
    (hop : ∀ k step, c.op k step = .enter key payload true → ∃ enterEnv enter,
      step = .deliver enterEnv enter ∧ enterEnv.pidTgid = pidTgid ∧ enter.entered? = some slot ∧
        made enterEnv enter)
    (henters : ∀ k (step : Step), step.Enters pidTgid slot → (c.op k step).entersKey key) :
    ∃ enterEnv enter, LastEnter steps pidTgid slot enterEnv enter ∧ made enterEnv enter := by
  obtain ⟨before, step, after, rfl, hstep, hafter⟩ := h
  obtain ⟨enterEnv, enter, rfl, hpid, hslot, hmade⟩ := hop _ _ hstep
  refine ⟨enterEnv, enter, ⟨before, after, rfl, hpid, hslot, fun s hs hent => ?_⟩, hmade⟩
  obtain ⟨u, v, rfl⟩ := List.append_of_mem hs
  exact hafter u s v rfl (henters _ s hent)

/-- **A record is made of the enter of its own invocation** when no exit finds a payload that was
in the map already at that enter. -/
theorem records_own_enter (maps : ProbeMaps) (steps : List Step)
    (hfresh : EmitsNoLeftover maps steps) : RecordsOwnEnter maps steps := by
  intro before env exit after slot record hsteps hslot hrec
  rw [run_snoc] at hrec
  cases exit with
  | exitFile kind ret =>
    cases hslot
    obtain ⟨hres, hok, state, hs, rfl⟩ := record_of_exitFile hrec
    have hl := hfresh before env _ after _ hsteps rfl hres hok
    have hlast := Client.last_entry_of_not_leftover (fileTable_init maps) before hs hl
    refine lastEnter_of_lastEntry hlast (fun _ _ hop => ?_) fun _ _ => (fileOp_entersKey_iff maps).mpr
    obtain ⟨enterEnv, args, rfl, hpid, rfl⟩ := fileOp_eq_enter maps hop
    exact ⟨enterEnv, _, rfl, hpid, rfl, rfl⟩
  | rawExit nr ret =>
    cases hslot
    obtain ⟨hres, hok, state, hs, rfl⟩ := record_of_rawExit hrec
    have hl := hfresh before env _ after _ hsteps rfl hres hok
    have hlast := Client.last_entry_of_not_leftover (syscallTable_init maps) before hs hl
    refine lastEnter_of_lastEntry hlast (fun _ _ hop => ?_) fun _ _ => (syscallOp_entersKey_iff maps).mpr
    obtain ⟨enterEnv, args, rfl, hpid, rfl⟩ := syscallOp_eq_enter maps hop
    exact ⟨enterEnv, _, rfl, hpid, rfl, rfl⟩
  | exitNetwork kind ret =>
    cases hslot
    obtain ⟨hres, hok, state, hs, rfl⟩ := record_of_exitNetwork hrec
    have hl := hfresh before env _ after _ hsteps rfl hres hok
    have hlast := Client.last_entry_of_not_leftover (networkTable_init maps) before hs hl
    refine lastEnter_of_lastEntry hlast (fun _ _ hop => ?_) fun _ _ => (networkOp_entersKey_iff maps).mpr
    obtain ⟨enterEnv, args, rfl, hpid, rfl, -⟩ := networkOp_eq_enter maps hop
    exact ⟨enterEnv, _, rfl, hpid, rfl, rfl⟩
  | _ => cases hslot

end

/-- Two `openat` calls, the entry of the first evicted because its exit was not seen. -/
theorem records_own_enter_evicted :
    RecordsOwnEnter allProbes
      [.deliver env7 (.enterFile .openat (Vector.replicate 6 0)), .evictFile ⟨task7, .openat⟩,
        .deliver env7 (.enterFile .openat (Vector.replicate 6 1)),
        .deliver env7 (.exitFile .openat 4)] := by
  refine records_own_enter allProbes _ ?_
  intro before env exit after slot hsplit hslot _ _
  rcases before with _ | ⟨a, _ | ⟨b, _ | ⟨c, _ | ⟨d, before⟩⟩⟩⟩ <;>
    simp only [List.nil_append, List.cons_append, List.cons.injEq, Step.deliver.injEq, reduceCtorEq,
      false_and, and_false, List.nil_eq, List.append_eq_nil_iff] at hsplit
  · obtain ⟨⟨rfl, rfl⟩, -⟩ := hsplit
    cases hslot
  · obtain ⟨-, -, ⟨rfl, rfl⟩, -⟩ := hsplit
    cases hslot
  · obtain ⟨rfl, rfl, rfl, ⟨rfl, rfl⟩, -⟩ := hsplit
    cases hslot
    rfl

/-! ## The late exit probe

A task opens one file while only the enter probe is attached, and another when both are. -/

/-- `openat` with the given `flags`. -/
def openatArgs (flags : UInt64) : SyscallArgs := .of 0 0 flags 0 0 0

/-- The hits before the exit of the second `openat`. -/
def lateExitRun : List Step :=
  [.deliver env7 (.enterFile .openat (openatArgs 0)), .absent task7 (.exitFile .openat 3),
    .deliver env7 (.enterFile .openat (openatArgs 1))]

theorem lateExitRun_sequential :
    Sequential (lateExitRun ++ [.deliver env7 (.exitFile .openat 4)]) := by
  decide

theorem lateExitRun_record :
    (run allProbes (lateExitRun ++ [.deliver env7 (.exitFile .openat 4)])).events.records =
      (run allProbes lateExitRun).events.records ++
        [.file (finishFileEvent env7 4 (filePayload env7 .openat (openatArgs 0)))] :=
  rfl

/-- The record of the second `openat` shows the flags of the first. -/
theorem not_records_own_enter :
    ¬ ∀ maps steps, Sequential steps → RecordsOwnEnter maps steps := by
  intro h
  obtain ⟨enterEnv, enter, ⟨before, after, hsplit, -, -, hlast⟩, hmade⟩ :=
    h allProbes _ lateExitRun_sequential lateExitRun env7 _ [] (.file .openat) _ rfl rfl
      lateExitRun_record
  rcases List.eq_nil_or_concat after with rfl | ⟨init, step, rfl⟩
  · -- the enter is the second `openat`, whose flags are not those of the record
    obtain ⟨-, heq⟩ := List.append_inj' (show lateExitRun.take 2 ++ [_] = _ from hsplit) rfl
    cases heq
    have hflags := congrArg (fun r => (r.bind fileRecord?).map FileEvent.flags) hmade
    exact absurd hflags (by decide)
  · -- the second `openat` comes later than the enter
    rw [List.concat_eq_append, ← List.cons_append, ← List.append_assoc] at hsplit
    obtain ⟨-, heq⟩ := List.append_inj' (show lateExitRun.take 2 ++ [_] = _ from hsplit) rfl
    cases heq
    exact hlast (.deliver env7 (.enterFile .openat (openatArgs 1))) (by simp) ⟨_, rfl, rfl⟩

end ETraceGen.Bpf
