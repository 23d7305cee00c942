import ETraceGen.Bpf.Conservation
import ETraceGen.System.Output

/-!
# Every call accounted for

What the probes let in ends as a line of the file, or it is still on its way, or it is lost and counted. Of the
losses the kernel side counts those at the maps and at the ring buffer; an entry that is evicted is in no counter.

* `submitted_accounted` : the records of a run, against what was let in;
* `lines_accounted` : the lines of the file, in any interleaving.
-/

namespace ETraceGen

open Bpf

/-! ## The handlers -/

namespace Bpf

section
variable (maps : ProbeMaps)

/-- The delivery of a process hook that passes its gate. -/
def passesProcess (_ : Kernel) : Step → Bool
  | .deliver env hook => (processKind? hook).any (processGate maps env)
  | _ => false

def processRecord? : EventVariant → Option ProcessEvent
  | .process ev => some ev
  | _ => none

/-- Calls entered and processes reported, as far as the gates let them in. -/
def letIn (steps : List Step) : Nat :=
  count maps (passesEnter maps .file) steps + count maps (passesEnter maps .syscall) steps +
    count maps (passesEnter maps .network) steps + count maps (passesProcess maps) steps

/-- What the counters tell of records that were not made. -/
def lossesCounted (k : Kernel) : Nat :=
  k.bpfStats .ringbufReserveFail + (k.bpfStats .fileStateCollision + k.bpfStats .fileStateSaveFail) +
    (k.bpfStats .syscallStateCollision + k.bpfStats .syscallStateSaveFail) +
    (k.bpfStats .networkStateCollision + k.bpfStats .networkStateSaveFail)

/-- Calls that were entered and have not been exited. -/
def inFlight (k : Kernel) : Nat := Family.pending k .file + Family.pending k .syscall + Family.pending k .network

def evicted (steps : List Step) : Nat :=
  count maps (evicts .file) steps + count maps (evicts .syscall) steps + count maps (evicts .network) steps

theorem length_records (records : List EventVariant) :
    records.length = (records.filterMap processRecord?).length + (records.filterMap fileRecord?).length +
      (records.filterMap syscallRecord?).length + (records.filterMap networkRecord?).length := by
  induction records with
  | nil => rfl
  | cons record records ih =>
    cases record <;>
      simp only [List.length_cons, List.filterMap_cons, processRecord?, fileRecord?, syscallRecord?, networkRecord?] <;>
      omega

/-- A process hook that is let in makes a record, or finds no room for it. -/
theorem process_exec_of_kind {env : HookEnv} {hook : Hook} {kind : ProcessEventKind} (h : processKind? hook = some kind)
    (k : Kernel) :
    ((exec maps k (.deliver env hook)).events.records.filterMap processRecord?).length +
        (failsInProcess maps k (.deliver env hook)).toNat =
      (k.events.records.filterMap processRecord?).length + (passesProcess maps k (.deliver env hook)).toNat := by
  have hreserves : reserves maps k env hook = processGate maps env kind := by
    cases hook <;> cases h <;> rfl
  rw [exec, handle_process_records maps env h]
  simp only [failsInProcess, passesProcess, reserveFails, h, hreserves, Option.isSome_some, Bool.true_and,
    Option.any_some]
  cases processGate maps env kind <;> cases env.reserveOk <;> simp [processRecord?]

/-- Any other step submits no process record. -/
theorem process_exec_of_none {steps : List Step} {step : Step}
    (h : ∀ env hook, step = .deliver env hook → processKind? hook = none) :
    (run maps (steps ++ [step])).events.records.filterMap processRecord? =
      (run maps steps).events.records.filterMap processRecord? := by
  rcases exec_records maps (run maps steps) step with hsame | ⟨env, hook, record, rfl, hnew⟩
  · rw [run_snoc, hsame]
  · rw [← run_snoc] at hnew
    have hother : processRecord? record = none := by
      cases record with
      | process ev =>
        obtain ⟨kind, hkind⟩ := (record_source hnew).processKind
        rw [h env hook rfl] at hkind
        cases hkind
      | _ => rfl
    rw [hnew, List.filterMap_append, List.filterMap_cons, hother, List.filterMap_nil, List.append_nil]

theorem process_step (steps : List Step) (step : Step) :
    ((run maps (steps ++ [step])).events.records.filterMap processRecord?).length +
        (failsInProcess maps (run maps steps) step).toNat =
      ((run maps steps).events.records.filterMap processRecord?).length +
        (passesProcess maps (run maps steps) step).toNat := by
  have hnone : (∀ env hook, step = .deliver env hook → processKind? hook = none) →
      failsInProcess maps (run maps steps) step = false → passesProcess maps (run maps steps) step = false →
      ((run maps (steps ++ [step])).events.records.filterMap processRecord?).length +
          (failsInProcess maps (run maps steps) step).toNat =
        ((run maps steps).events.records.filterMap processRecord?).length +
          (passesProcess maps (run maps steps) step).toNat := by
    intro hno hfails hpasses
    rw [process_exec_of_none maps hno, hfails, hpasses]
  cases step with
  | deliver env hook =>
    cases hkind : processKind? hook with
    | some kind =>
      rw [run_snoc]
      exact process_exec_of_kind maps hkind _
    | none =>
      refine hnone ?_ ?_ ?_
      · intro env' hook' heq
        rw [← (Step.deliver.inj heq).2]
        exact hkind
      · rw [failsInProcess, hkind, Option.isSome_none, Bool.false_and]
      · rw [passesProcess, hkind, Option.any_none]
  | _ =>
    refine hnone (fun env hook heq => ?_) ?_ ?_
    · cases heq
    · rfl
    · rfl

theorem process_accounted (steps : List Step) : count maps (passesProcess maps) steps =
    ((run maps steps).events.records.filterMap processRecord?).length + count maps (failsInProcess maps) steps := by
  induction steps using List.reverseRecOn with
  | nil => rfl
  | append_singleton steps step ih =>
    have hstep := process_step maps steps step
    rw [count_snoc, count_snoc, ih]
    omega

/-- **Everything let in** is a record, is counted as lost, is in flight or was evicted. -/
theorem submitted_accounted {steps : List Step} (hscratch : ScratchFound steps) :
    letIn maps steps =
      (run maps steps).events.records.length + lossesCounted (run maps steps) + inFlight (run maps steps) +
        evicted maps steps := by
  have hfile := (accounted maps .file hscratch).enters
  have hsyscall := (accounted maps .syscall hscratch).enters
  have hnetwork := (accounted maps .network hscratch).enters
  have hprocess := process_accounted maps steps
  have hfull := ringbufReserveFail_eq maps steps
  have hrecords := length_records (run maps steps).events.records
  simp only [Family.submitted, Family.collision, Family.saveFail] at hfile hsyscall hnetwork
  unfold letIn lossesCounted inFlight evicted
  omega

end

end Bpf

/-! ## The system -/

namespace System

section
variable {maps : ProbeMaps} {selfTgid : UInt32} {senv : SinkEnv} {file : Option Bytes} {limit : UInt64}

/-- Each line ends with the only newline in it. -/
theorem count_newlines (es : List (CanonicalEvent × EventVariant)) :
    ((es.map fun e => JsonSink.object e.1 e.2 ++ [0x0A]).flatten).count 0x0A = es.length := by
  induction es with
  | nil => rfl
  | cons e es ih =>
    rw [List.map_cons, List.flatten_cons, List.count_append, List.count_append, ih,
      List.count_eq_zero_of_not_mem (JsonSink.newline_not_mem_object e.1 e.2), List.count_singleton_self,
      List.length_cons]
    omega

/-- What was taken is written, or is about the daemon itself. -/
theorem length_events (sink : JsonSink) (moves : List Move) :
    (events maps selfTgid sink moves).length +
        ((told maps selfTgid sink moves).map Prod.snd).countP (isSelfEvent · selfTgid) =
      (run maps selfTgid sink moves).taken := by
  have hlength := congrArg List.length (@events_records maps selfTgid sink moves)
  have hsplit := List.length_eq_countP_add_countP (isSelfEvent · selfTgid)
    (l := (told maps selfTgid sink moves).map Prod.snd)
  simp only [List.length_map] at hlength hsplit
  rw [hlength, run_taken, hsplit, ← List.countP_eq_length_filter]
  have hnot : ((told maps selfTgid sink moves).map Prod.snd).countP (fun record => !isSelfEvent record selfTgid) =
      ((told maps selfTgid sink moves).map Prod.snd).countP
        fun record => decide ¬isSelfEvent record selfTgid = true := by
    congr 1
    funext record
    cases isSelfEvent record selfTgid <;> rfl
  rw [hnot]
  omega

/-- **Nothing is lost unaccounted.** At any moment of any interleaving, every call and every report that the probes
have let in is one of the lines that the sink was given, or it is about the daemon itself, waits in the ring buffer, is
in flight, is counted as lost, or its entry was evicted; and without a limit the file has that many lines more. -/
theorem lines_accounted {moves : List Move} (hworks : SinkWorks maps selfTgid (JsonSink.create senv file limit) moves)
    (hscratch : ScratchFound (Feed.produced moves)) :
    ∃ taken unread : List EventVariant,
      (run maps selfTgid (JsonSink.create senv file limit) moves).producer.events.records = taken ++ unread ∧
      taken.length = (run maps selfTgid (JsonSink.create senv file limit) moves).taken ∧
      (events maps selfTgid (JsonSink.create senv file limit) moves).map Prod.snd =
        taken.filter (fun record => !isSelfEvent record selfTgid) ∧
      JsonSink.Run file limit
        ((events maps selfTgid (JsonSink.create senv file limit) moves).map fun e => JsonSink.object e.1 e.2 ++ [0x0A])
        (run maps selfTgid (JsonSink.create senv file limit) moves).consumer.sink ∧
      letIn maps (Feed.produced moves) =
        (events maps selfTgid (JsonSink.create senv file limit) moves).length +
          taken.countP (isSelfEvent · selfTgid) + unread.length +
          inFlight (run maps selfTgid (JsonSink.create senv file limit) moves).producer +
          lossesCounted (run maps selfTgid (JsonSink.create senv file limit) moves).producer +
          evicted maps (Feed.produced moves) ∧
      (limit = 0 → (run maps selfTgid (JsonSink.create senv file limit) moves).consumer.sink.content.count 0x0A =
        (file.getD []).count 0x0A + (events maps selfTgid (JsonSink.create senv file limit) moves).length) := by
  set sink := JsonSink.create senv file limit with hsink
  obtain ⟨unread, hunread⟩ := @told_records maps selfTgid sink moves
  have hevents := @length_events maps selfTgid sink moves
  have hlines := sink_run hworks
  rw [← hsink] at hlines
  have htotal := submitted_accounted maps hscratch
  refine ⟨(told maps selfTgid sink moves).map Prod.snd, unread, ?_, ?_, events_records sink moves, hlines, ?_,
    fun hlimit => ?_⟩
  · rw [run_kernel]
    exact hunread.symm
  · rw [List.length_map, run_taken]
  · have hrecords := congrArg List.length hunread
    rw [List.length_append, List.length_map, ← run_taken] at hrecords
    rw [run_kernel, htotal]
    unfold records at hrecords
    omega
  · have hcontent := hlines.refines.content.trans (Rollover.run_unlimited (by rw [hlimit]; rfl))
    rw [hcontent, List.count_append, count_newlines]

end

/-! ### One of each -/

/-- A fork is written, another one waits, and a call is in flight. -/
def forkBehind : List Move :=
  forkTaken ++ [.produce (.deliver env7 (.schedFork 9)), .produce (.deliver env7 (.enterFile .openat default))]

theorem forkBehind_works : SinkWorks allProbes 1 (JsonSink.create JsonSink.calmEnv none 0) forkBehind := by
  have hall : ∀ before ∈ forkBehind.inits,
      (run allProbes 1 (JsonSink.create JsonSink.calmEnv none 0) before).consumer.sink.Good := by decide +kernel
  exact fun before hbefore => hall before ((List.mem_inits _ _).mpr hbefore)

theorem forkBehind_scratch : ScratchFound (Feed.produced forkBehind) := by
  intro env hook hmem
  have hsteps : Feed.produced forkBehind = [.deliver env7 (.schedFork 8), .deliver env7 (.schedFork 9),
      .deliver env7 (.enterFile .openat default)] := rfl
  have henv : env = env7 := by
    simp [hsteps] at hmem
    tauto
  rw [henv]
  rfl

/-- One line, one record that waits and one call in flight. -/
theorem lines_accounted_fork : ∃ taken unread : List EventVariant,
    taken.length = 1 ∧ unread.length = 1 ∧ letIn allProbes (Feed.produced forkBehind) = 3 ∧
      (run allProbes 1 (JsonSink.create JsonSink.calmEnv none 0) forkBehind).producer.events.records =
        taken ++ unread ∧
      letIn allProbes (Feed.produced forkBehind) =
        (events allProbes 1 (JsonSink.create JsonSink.calmEnv none 0) forkBehind).length +
          taken.countP (isSelfEvent · 1) + unread.length +
          inFlight (run allProbes 1 (JsonSink.create JsonSink.calmEnv none 0) forkBehind).producer +
          lossesCounted (run allProbes 1 (JsonSink.create JsonSink.calmEnv none 0) forkBehind).producer +
          evicted allProbes (Feed.produced forkBehind) := by
  obtain ⟨taken, unread, hrecords, htaken, -, -, htotal, -⟩ := lines_accounted forkBehind_works forkBehind_scratch
  have htwo := congrArg List.length hrecords
  rw [List.length_append, htaken] at htwo
  have hone : (run allProbes 1 (JsonSink.create JsonSink.calmEnv none 0) forkBehind).taken = 1 := by decide +kernel
  have hboth : (run allProbes 1 (JsonSink.create JsonSink.calmEnv none 0) forkBehind).producer.events.records.length =
      2 := by decide +kernel
  exact ⟨taken, unread, htaken.trans hone, by omega, by decide +kernel, hrecords, htotal⟩

end System

end ETraceGen
