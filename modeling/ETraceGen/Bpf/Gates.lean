import ETraceGen.Bpf.Effects

/-!
# What the toggles let through

A handler writes nothing unless its probe is enabled and its process is not the suppressed one.

* `hookGate` : the toggles that a handler asks;
* `mem_records_allowed` : every record of a run came through them.
-/

namespace ETraceGen.Bpf

section
variable (maps : ProbeMaps)

/-- What a handler asks of the toggle maps before all else. -/
def hookGate (env : HookEnv) : Hook → Bool
  | .enterFile kind _ | .exitFile kind _ => fileGate maps env kind
  | .rawEnter _ _ | .rawExit _ _ => syscallGate maps env
  | .enterNetwork kind _ | .exitNetwork kind _ => networkGate maps env kind
  | hook => (processKind? hook).any (processGate maps env)

/-- A handler that is not let through writes nothing. -/
theorem hookEffect_of_shut {env : HookEnv} {hook : Hook} (h : hookGate maps env hook = false) (k : Kernel) :
    hookEffect maps env k hook = {} := by
  have hshut : ∀ {gate : Bool} (e : Effect), gate = false → gated gate e = {} := by
    rintro gate e rfl
    rfl
  cases hook with
  | enterFile kind args => exact hshut _ h
  | exitFile kind ret => exact hshut _ h
  | rawEnter nr args => exact hshut _ h
  | rawExit nr ret => exact hshut _ h
  | enterNetwork kind args =>
    refine hshut _ ?_
    have hgate : networkGate maps env kind = false := h
    unfold networkEnterGate
    rw [hgate, Bool.false_and]
  | exitNetwork kind ret => exact hshut _ h
  | schedExec filename => exact hshut _ h
  | schedFork childPid => exact hshut _ h
  | schedExit => exact hshut _ h
  | exitClone ret => exact hshut _ h
  | exitClone3 ret => exact hshut _ h
  | exitVfork ret => exact hshut _ h

variable {maps}

theorem hookGate_of_record {before : List Step} {env : HookEnv} {hook : Hook} {record : EventVariant}
    (h : (run maps (before ++ [.deliver env hook])).events.records = (run maps before).events.records ++ [record]) :
    hookGate maps env hook = true := by
  by_contra hshut
  rw [Bool.not_eq_true] at hshut
  rw [run_snoc, exec_eq, effect, hookEffect_of_shut maps hshut] at h
  have hsame : (run maps before).events.records = (run maps before).events.records ++ [record] := h
  have hlength := congrArg List.length hsame
  rw [List.length_append, List.length_singleton] at hlength
  omega

/-- The probe of the record's kind is enabled. -/
def ProbeEnabled (maps : ProbeMaps) : EventVariant → Prop
  | .process ev => ∃ kind : ProcessEventKind, ev.kind = kind.code ∧ isProcessProbeEnabled maps kind = true
  | .file ev => ∃ kind : FileEventKind, ev.kind = kind.code ∧ isFileProbeEnabled maps kind = true
  | .syscall _ => isSyscallProbeEnabled maps = true
  | .network ev => ∃ kind : NetworkEventKind, ev.kind = kind.code ∧ isNetworkProbeEnabled maps kind = true

theorem Source.probeEnabled {before : List Step} {env : HookEnv} {hook : Hook} {record : EventVariant}
    (h : Source before env hook record) (hgate : hookGate maps env hook = true) : ProbeEnabled maps record := by
  cases h with
  | @process kind hkind =>
    have hopen : processGate maps env kind = true := by
      cases hook <;> cases hkind <;> exact hgate
    exact ⟨kind, (processRecord_envelope env hook kind).2, (Bool.and_eq_true_iff.mp hopen).2⟩
  | @paired enterEnv enter slot record hmem htask henter hexit hmade =>
    unfold makeRecord at hmade
    split at hmade
    · obtain rfl := Option.some.inj hmade
      obtain rfl := Slot.file.inj (Option.some.inj (hexit.trans henter.symm))
      exact ⟨_, (filePayload_envelope enterEnv _ _).2, (Bool.and_eq_true_iff.mp hgate).2⟩
    · obtain rfl := Option.some.inj hmade
      exact (Bool.and_eq_true_iff.mp hgate).2
    · obtain rfl := Option.some.inj hmade
      obtain rfl := Slot.network.inj (Option.some.inj (hexit.trans henter.symm))
      refine ⟨_, ?_, (Bool.and_eq_true_iff.mp hgate).2⟩
      rw [(finishNetworkEvent_envelope env _ _ _).2.1]
      exact (networkPayload_envelope enterEnv _ _).2
    · cases hmade

/-- The thread group is not the suppressed one. -/
def NotSuppressed (maps : ProbeMaps) (tgid : UInt32) : Prop :=
  ∀ suppressed, maps.suppressTgid = some suppressed → suppressed ≠ 0 → tgid ≠ suppressed

theorem notSuppressed_of_gate {env : HookEnv} {hook : Hook} (h : hookGate maps env hook = true) :
    NotSuppressed maps env.tgid := by
  have hallowed : isEventAllowed maps env = true := by
    cases hook <;> exact (Bool.and_eq_true_iff.mp h).1
  intro suppressed hsuppress hne heq
  unfold isEventAllowed isNotSuppressedSelf at hallowed
  rw [hsuppress] at hallowed
  simp [hne, heq] at hallowed

/-- **Every record of a run** came through an enabled probe, from a process that is not suppressed. -/
theorem mem_records_allowed {steps : List Step} {record : EventVariant}
    (h : record ∈ (run maps steps).events.records) : ProbeEnabled maps record ∧ NotSuppressed maps record.hdr.tgid := by
  obtain ⟨before, env, hook, after, -, hmade⟩ := mem_records_submitted h
  have hgate := hookGate_of_record hmade
  have hsource := record_source hmade
  exact ⟨hsource.probeEnabled hgate, hsource.envelope.tgid ▸ notSuppressed_of_gate hgate⟩

end

end ETraceGen.Bpf
