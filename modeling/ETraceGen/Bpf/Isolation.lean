import ETraceGen.Bpf.Effects
import ETraceGen.Lib.Schedule

/-!
# Processes side by side

No process sees another through the probes: a step reads and writes the entries of its own process only. So a
run on a busy host is, for the processes one looks at, the run of their steps alone.

* `SeenBy.own`, `SeenBy.other` : what the step of one of them does, and that of anybody else;
* `run_isolated` : the records, the maps and the counters of a whole run;
* `schedule_independent` : how the processes are scheduled makes no difference to any of them.
-/

namespace ETraceGen.Bpf

open Schedule

/-- The steps of these processes. -/
def stepsOf (p : UInt32 → Bool) (steps : List Step) : List Step := steps.filter fun step => p step.tgid

def recordsOf (p : UInt32 → Bool) (k : Kernel) : List EventVariant :=
  k.events.records.filter fun record => p record.hdr.tgid

/-- To these processes the first state is as good as the second, which nobody else has touched. -/
structure SeenBy (p : UInt32 → Bool) (k k' : Kernel) : Prop where
  agree : AgreeOn p k k'
  labelled : Labelled k
  labelled' : Labelled k'
  records : recordsOf p k = k'.events.records

theorem labelled_init : Labelled {} where
  file key _ h := absurd ((AList.lookup_empty key).symm.trans h) nofun
  syscall key _ h := absurd ((AList.lookup_empty key).symm.trans h) nofun
  network key _ h := absurd ((AList.lookup_empty key).symm.trans h) nofun

theorem seenBy_init (p : UInt32 → Bool) : SeenBy p {} {} :=
  ⟨⟨fun _ _ => rfl, fun _ _ => rfl, fun _ _ => rfl, fun _ _ => rfl⟩, labelled_init, labelled_init, rfl⟩

section Step
variable {p : UInt32 → Bool} {k k' : Kernel} (maps : ProbeMaps)

theorem recordsOf_apply {e : Effect} {tgid : UInt32} (h : e.Local tgid) (k : Kernel) :
    recordsOf p (e.apply k) = recordsOf p k ++ if p tgid then e.ring.record?.toList else [] := by
  have hrecords : (e.apply k).events.records = k.events.records ++ e.ring.record?.toList :=
    RingMove.records_apply _ _
  unfold recordsOf
  rw [hrecords, List.filter_append]
  congr 1
  cases hring : e.ring.record? with
  | none =>
    rw [Option.toList_none, ite_self]
    rfl
  | some record =>
    rw [Option.toList_some, List.filter_singleton, h.record record hring, Bool.cond_eq_ite]

/-- A step of one of the processes, on both sides. -/
theorem SeenBy.own (h : SeenBy p k k') {step : Step} (hp : p step.tgid = true) :
    SeenBy p (exec maps k step) (exec maps k' step) := by
  have hlocal := effect_local maps h.labelled step
  have hsame := effect_congr maps h.agree hp
  refine ⟨?_, h.labelled.step maps step, h.labelled'.step maps step, ?_⟩
  · rw [exec_eq, exec_eq, ← hsame]
    exact ⟨fun key hkey => Edit.lookup_apply_congr _ (h.agree.file key hkey),
      fun key hkey => Edit.lookup_apply_congr _ (h.agree.syscall key hkey),
      fun key hkey => Edit.lookup_apply_congr _ (h.agree.network key hkey),
      fun key hkey => Edit.lookup_applyAll_congr _ (h.agree.fds key hkey)⟩
  · have hrecords : (exec maps k' step).events.records =
        k'.events.records ++ (effect maps k' step).ring.record?.toList := by
      rw [exec_eq]
      exact RingMove.records_apply _ _
    rw [hrecords, exec_eq maps k, recordsOf_apply hlocal, if_pos hp, h.records, hsame]

/-- Anybody else's step leaves their entries alone, and submits no record about them. -/
theorem SeenBy.other (h : SeenBy p k k') {step : Step} (hp : p step.tgid = false) :
    SeenBy p (exec maps k step) k' := by
  have hlocal := effect_local maps h.labelled step
  have hne : ∀ {tgid : UInt32}, p tgid = true → tgid ≠ step.tgid := by
    rintro tgid htgid rfl
    rw [hp] at htgid
    cases htgid
  refine ⟨?_, h.labelled.step maps step, h.labelled', ?_⟩
  · rw [exec_eq]
    constructor
    · intro key hkey
      exact (Edit.lookup_apply_of_ne fun heq => hne hkey (hlocal.file.key heq)).trans (h.agree.file key hkey)
    · intro key hkey
      exact (Edit.lookup_apply_of_ne fun heq => hne hkey (hlocal.syscall.key heq)).trans (h.agree.syscall key hkey)
    · intro key hkey
      exact (Edit.lookup_apply_of_ne fun heq => hne hkey (hlocal.network.key heq)).trans (h.agree.network key hkey)
    · intro key hkey
      have hkeep : ∀ edit ∈ (effect maps k step).fds, edit.key? ≠ some key := fun edit hmem heq =>
        hne hkey ((hlocal.fds edit hmem).key heq)
      exact (Edit.lookup_applyAll_of_ne hkeep).trans (h.agree.fds key hkey)
  · rw [exec_eq, recordsOf_apply hlocal, if_neg (by simp [hp]), List.append_nil, h.records]

end Step

section Runs
variable (maps : ProbeMaps)

theorem seenBy_run (p : UInt32 → Bool) (steps : List Step) :
    SeenBy p (run maps steps) (run maps (stepsOf p steps)) := by
  have hown : ∀ (k k' : Kernel) (step : Step), SeenBy p k k' → p step.tgid = true →
      SeenBy p (exec maps k step) (exec maps k' step) := fun _ _ _ h hp => h.own maps hp
  have hother : ∀ (k k' : Kernel) (step : Step), SeenBy p k k' → p step.tgid = false →
      SeenBy p (exec maps k step) k' := fun _ _ _ h hp => h.other maps hp
  exact foldl_filter hown hother (seenBy_init p) steps

section Snoc
variable {p : UInt32 → Bool} (steps : List Step) {step : Step}

theorem stepsOf_own (hp : p step.tgid = true) : stepsOf p (steps ++ [step]) = stepsOf p steps ++ [step] := by
  unfold stepsOf
  rw [List.filter_append, List.filter_singleton, hp, cond_true]

theorem stepsOf_other (hp : p step.tgid = false) : stepsOf p (steps ++ [step]) = stepsOf p steps := by
  unfold stepsOf
  rw [List.filter_append, List.filter_singleton, hp, cond_false, List.append_nil]

end Snoc

/-- Each counter is what some processes count and what the others do. -/
theorem bpfStats_split (p : UInt32 → Bool) (steps : List Step) (key : BpfStatKey) :
    (run maps steps).bpfStats key =
      (run maps (stepsOf p steps)).bpfStats key + (run maps (stepsOf (fun tgid => !p tgid) steps)).bpfStats key := by
  induction steps using List.reverseRecOn with
  | nil => rfl
  | append_singleton steps step ih =>
    rw [run_snoc, bpfStats_exec, ih]
    cases hp : p step.tgid with
    | true =>
      rw [stepsOf_own steps hp, stepsOf_other steps (by rw [hp, Bool.not_true]), run_snoc, bpfStats_exec,
        effect_congr maps (seenBy_run maps p steps).agree hp]
      omega
    | false =>
      have hnot : (!p step.tgid) = true := by rw [hp, Bool.not_false]
      rw [stepsOf_other steps hp, stepsOf_own (p := fun tgid => !p tgid) steps hnot, run_snoc, bpfStats_exec,
        effect_congr maps (seenBy_run maps (fun tgid => !p tgid) steps).agree hnot]
      omega

/-- **Processes are isolated.** Whatever else happens on the host, the records about some of its processes are, in
their order, those of a run of nobody else; so are their entries in the four maps; and each counter is the sum of what
they count and what all others count by themselves. -/
theorem run_isolated (p : UInt32 → Bool) (steps : List Step) :
    recordsOf p (run maps steps) = (run maps (stepsOf p steps)).events.records ∧
      AgreeOn p (run maps steps) (run maps (stepsOf p steps)) ∧
      ∀ key, (run maps steps).bpfStats key =
        (run maps (stepsOf p steps)).bpfStats key +
          (run maps (stepsOf (fun tgid => !p tgid) steps)).bpfStats key :=
  ⟨(seenBy_run maps p steps).records, (seenBy_run maps p steps).agree, bpfStats_split maps p steps⟩

/-- The process alone. -/
def isTgid (tgid : UInt32) : UInt32 → Bool := fun t => decide (t = tgid)

theorem bpfStats_addsUp (key : BpfStatKey) : AddsUp Step.tgid fun steps => (run maps steps).bpfStats key := by
  intro tgid steps
  have hothers : stepsOf (fun t => !isTgid tgid t) steps = others Step.tgid tgid steps := by
    unfold stepsOf others isTgid
    simp only [decide_not]
  show (run maps steps).bpfStats key = _
  rw [bpfStats_split maps (isTgid tgid) steps key, hothers]
  rfl

/-- **The schedule makes no difference.** Two interleavings in which every process takes the same steps leave each
process the same records in the same order, the same entries, and the same counters. -/
theorem schedule_independent {steps steps' : List Step} (h : SameTurns Step.tgid steps steps') :
    (∀ tgid, recordsOf (isTgid tgid) (run maps steps) = recordsOf (isTgid tgid) (run maps steps')) ∧
      AgreeOn (fun _ => true) (run maps steps) (run maps steps') ∧
      (run maps steps).bpfStats = (run maps steps').bpfStats := by
  have hturns : ∀ tgid, stepsOf (isTgid tgid) steps = stepsOf (isTgid tgid) steps' := h
  have hagree : ∀ tgid, AgreeOn (isTgid tgid) (run maps steps) (run maps steps') := by
    intro tgid
    have hleft := (seenBy_run maps (isTgid tgid) steps).agree
    have hright := (seenBy_run maps (isTgid tgid) steps').agree
    rw [hturns tgid] at hleft
    exact ⟨fun key hkey => (hleft.file key hkey).trans (hright.file key hkey).symm,
      fun key hkey => (hleft.syscall key hkey).trans (hright.syscall key hkey).symm,
      fun key hkey => (hleft.network key hkey).trans (hright.network key hkey).symm,
      fun key hkey => (hleft.fds key hkey).trans (hright.fds key hkey).symm⟩
  refine ⟨fun tgid => ?_, ?_, ?_⟩
  · rw [(seenBy_run maps (isTgid tgid) steps).records, (seenBy_run maps (isTgid tgid) steps').records, hturns]
  · exact ⟨fun key _ => (hagree _).file key (decide_eq_true rfl),
      fun key _ => (hagree _).syscall key (decide_eq_true rfl),
      fun key _ => (hagree _).network key (decide_eq_true rfl), fun key _ => (hagree _).fds key (decide_eq_true rfl)⟩
  · funext key
    exact SameTurns.sum_eq (bpfStats_addsUp maps key) h

end Runs

/-- What process 9 does with a file. -/
def opens9 : List Step :=
  [.deliver (plainEnv 0x900000009) (.enterFile .openat default), .deliver (plainEnv 0x900000009) (.exitFile .openat 4)]

/-- Processes 7 and 9 open a file at the same time, and either is served first. -/
theorem schedule_independent_openat :
    recordsOf (isTgid 9) (run allProbes (.deliver env7 (.enterFile .openat default) :: opens9)) =
      recordsOf (isTgid 9) (run allProbes (opens9 ++ [.deliver env7 (.enterFile .openat default)])) := by
  refine (schedule_independent allProbes ?_).1 9
  intro tgid
  have h7 : env7.tgid = 7 := by decide
  have h9 : (plainEnv 0x900000009).tgid = 9 := by decide
  by_cases hnine : (9 : UInt32) = tgid
  · subst hnine
    simp [turns, opens9, Step.tgid, h7, h9]
  · simp [turns, opens9, List.filter_cons, Step.tgid, h9, hnine]

end ETraceGen.Bpf
