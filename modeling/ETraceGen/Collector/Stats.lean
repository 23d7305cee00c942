import ETraceGen.Bpf.PerCpu
import Mathlib.Algebra.Order.BigOperators.Group.Finset

/-!
# The counters as user space reads them

`ReadKernelBpfStats` looks the counters up one after the other, and each lookup copies the slots of the CPUs one after
the other, while the handlers go on counting.

* `readPerCpuCounter`, `readKernelBpfStats` : the reads;
* `readKernelBpfStats_isSome` : when there is a report;
* `stats_within` : every number in it lies between the counter at the start of the reading and at its end.
-/

namespace ETraceGen.Collector

open Bpf

structure KernelBpfStats where
  ringbufReserveFail : UInt64 := 0
  fileStateSaveFail : UInt64 := 0
  fileStateCollision : UInt64 := 0
  fileStateMiss : UInt64 := 0
  syscallStateSaveFail : UInt64 := 0
  syscallStateCollision : UInt64 := 0
  syscallStateMiss : UInt64 := 0
  networkStateSaveFail : UInt64 := 0
  networkStateCollision : UInt64 := 0
  networkStateMiss : UInt64 := 0
  deriving DecidableEq

/-- The number that is reported of a counter. -/
def KernelBpfStats.get (stats : KernelBpfStats) : BpfStatKey → UInt64
  | .ringbufReserveFail => stats.ringbufReserveFail
  | .fileStateSaveFail => stats.fileStateSaveFail
  | .fileStateCollision => stats.fileStateCollision
  | .fileStateMiss => stats.fileStateMiss
  | .syscallStateSaveFail => stats.syscallStateSaveFail
  | .syscallStateCollision => stats.syscallStateCollision
  | .syscallStateMiss => stats.syscallStateMiss
  | .networkStateSaveFail => stats.networkStateSaveFail
  | .networkStateCollision => stats.networkStateCollision
  | .networkStateMiss => stats.networkStateMiss

/-- `values` is what `bpf_map_lookup_elem` gives, a number for each CPU, unless it fails. -/
def readPerCpuCounter (cpuCount : Int32) (values : Option (Nat → UInt64)) : Option UInt64 :=
  if cpuCount ≤ 0 then none
  else values.map fun value => ((List.range cpuCount.toInt.toNat).map value).foldl (· + ·) 0

/-- The counters in the order of their reads; one that cannot be read ends it. -/
def readKernelBpfStats (obj statsFound : Bool) (read : BpfStatKey → Option UInt64) : Option KernelBpfStats :=
  if !obj || !statsFound then none
  else do
    let ringbufReserveFail ← read .ringbufReserveFail
    let fileStateSaveFail ← read .fileStateSaveFail
    let fileStateCollision ← read .fileStateCollision
    let fileStateMiss ← read .fileStateMiss
    let syscallStateSaveFail ← read .syscallStateSaveFail
    let syscallStateCollision ← read .syscallStateCollision
    let syscallStateMiss ← read .syscallStateMiss
    let networkStateSaveFail ← read .networkStateSaveFail
    let networkStateCollision ← read .networkStateCollision
    let networkStateMiss ← read .networkStateMiss
    return {
      ringbufReserveFail, fileStateSaveFail, fileStateCollision, fileStateMiss, syscallStateSaveFail,
      syscallStateCollision, syscallStateMiss, networkStateSaveFail, networkStateCollision, networkStateMiss }

/-! ## One counter -/

theorem foldl_ofNat (f : Nat → Nat) (n : Nat) :
    ((List.range n).map fun i => UInt64.ofNat (f i)).foldl (· + ·) 0 = UInt64.ofNat (∑ i ∈ Finset.range n, f i) := by
  induction n with
  | zero => rfl
  | succ n ih =>
    rw [List.range_succ, List.map_append, List.foldl_append, ih, Finset.sum_range_succ, UInt64.ofNat_add]
    rfl

/-- The slots of a counter as the lookup copies them, each when the steps up to its copy have run. -/
def slotValues (maps : ProbeMaps) (upTo : Nat → List CpuStep) (key : BpfStatKey) (cpu : Nat) : UInt64 :=
  UInt64.ofNat ((runOn maps (upTo cpu)).slots cpu key)

theorem readPerCpuCounter_eq {cpuCount : Int32} (hpos : ¬cpuCount ≤ 0) (maps : ProbeMaps)
    (upTo : Nat → List CpuStep) (key : BpfStatKey) :
    readPerCpuCounter cpuCount (some (slotValues maps upTo key)) =
      some (UInt64.ofNat (∑ cpu ∈ Finset.range cpuCount.toInt.toNat, (runOn maps (upTo cpu)).slots cpu key)) := by
  rw [readPerCpuCounter, if_neg hpos, Option.map_some]
  exact congrArg some (foldl_ofNat (fun cpu => (runOn maps (upTo cpu)).slots cpu key) _)

/-! ## The report -/

section Report
variable {read : BpfStatKey → Option UInt64}

theorem readKernelBpfStats_eq_some {obj statsFound : Bool} {out : KernelBpfStats}
    (h : readKernelBpfStats obj statsFound read = some out) (key : BpfStatKey) : read key = some (out.get key) := by
  unfold readKernelBpfStats at h
  split_ifs at h
  simp only [Option.bind_eq_bind, Option.bind_eq_some_iff, Option.pure_def, Option.some.injEq] at h
  obtain ⟨a, ha, b, hb, c, hc, d, hd, e, he, f, hf, g, hg, i, hi, j, hj, l, hl, rfl⟩ := h
  cases key <;> assumption

/-- **There is a report** exactly if the object is loaded, its map is found and every counter can be read. -/
theorem readKernelBpfStats_isSome (obj statsFound : Bool) :
    (readKernelBpfStats obj statsFound read).isSome = true ↔
      obj = true ∧ statsFound = true ∧ ∀ key, (read key).isSome = true := by
  constructor
  · intro h
    obtain ⟨out, hout⟩ := Option.isSome_iff_exists.mp h
    have hall : ∀ key, (read key).isSome = true := fun key => by
      rw [readKernelBpfStats_eq_some hout key]
      rfl
    cases obj with
    | false => cases h
    | true =>
      cases statsFound with
      | false => cases h
      | true => exact ⟨rfl, rfl, hall⟩
  · rintro ⟨rfl, rfl, hall⟩
    choose value hvalue using fun key => Option.isSome_iff_exists.mp (hall key)
    simp [readKernelBpfStats, hvalue]

end Report

/-- The copies that a report is made of, of each counter's slot on each CPU: each is made when the steps up to it
have run. -/
structure Reading (before after : List CpuStep) (upTo : BpfStatKey → Nat → List CpuStep) : Prop where
  later : ∀ key cpu, before <+: upTo key cpu
  earlier : ∀ key cpu, upTo key cpu <+: after

/-- **Every number of a report** is, modulo `2 ^ 64`, between the counter as it stood when the reading began and as it
stands at its end, whatever the CPUs count meanwhile. -/
theorem stats_within {maps : ProbeMaps} {before after : List CpuStep} {upTo : BpfStatKey → Nat → List CpuStep}
    (hreading : Reading before after upTo) {cpuCount : Int32} (hcpus : ∀ c ∈ after, c.cpu < cpuCount.toInt.toNat)
    {obj statsFound : Bool} {answers : BpfStatKey → Bool} {out : KernelBpfStats}
    (h : readKernelBpfStats obj statsFound (fun key =>
      readPerCpuCounter cpuCount (if answers key then some (slotValues maps (upTo key) key) else none)) =
        some out) (key : BpfStatKey) :
    ∃ count, (run maps (before.map CpuStep.step)).bpfStats key ≤ count ∧
      count ≤ (run maps (after.map CpuStep.step)).bpfStats key ∧ out.get key = UInt64.ofNat count := by
  have hread := readKernelBpfStats_eq_some h key
  have hpos : ¬cpuCount ≤ 0 := by
    intro hle
    rw [readPerCpuCounter, if_pos hle] at hread
    cases hread
  cases hanswer : answers key with
  | false =>
    rw [hanswer, readPerCpuCounter, if_neg hpos] at hread
    cases hread
  | true =>
    have hstart : before <+: after := (hreading.later key 0).trans (hreading.earlier key 0)
    have hbefore := (runOn_refines maps fun c hmem => hcpus c (hstart.subset hmem)).2 key
    have hafter := (runOn_refines maps hcpus).2 key
    rw [hanswer, if_pos rfl, readPerCpuCounter_eq hpos] at hread
    refine ⟨_, ?_, ?_, (Option.some.inj hread).symm⟩
    · rw [← hbefore]
      exact Finset.sum_le_sum fun cpu _ => slots_mono maps (hreading.later key cpu) cpu key
    · rw [← hafter]
      exact Finset.sum_le_sum fun cpu _ => slots_mono maps (hreading.earlier key cpu) cpu key

/-- Two forks find no room, on the first of two CPUs and then on the second. -/
def forksDropped : List CpuStep :=
  [⟨0, .deliver { env7 with reserveOk := false } (.schedFork 8)⟩,
    ⟨1, .deliver { env7 with reserveOk := false } (.schedFork 9)⟩]

/-- The slot of the first CPU is copied before the first fork, that of the second behind both. -/
def forksCopied (cpu : Nat) : List CpuStep := if cpu = 0 then [] else forksDropped

theorem stats_within_fork :
    ∃ count, 0 ≤ count ∧ count ≤ 2 ∧
      ({ ringbufReserveFail := 1 } : KernelBpfStats).get .ringbufReserveFail = UInt64.ofNat count := by
  have hread : readKernelBpfStats true true (fun key => readPerCpuCounter 2
      (if (fun _ => true) key = true then some (slotValues allProbes ((fun _ => forksCopied) key) key) else none)) =
        some { ringbufReserveFail := 1 } := by decide
  have hreading : Reading [] forksDropped fun _ => forksCopied := by
    refine ⟨fun _ _ => List.nil_prefix, fun _ cpu => ?_⟩
    unfold forksCopied
    split_ifs
    · exact List.nil_prefix
    · exact List.prefix_refl _
  have hcpus : ∀ c ∈ forksDropped, c.cpu < (2 : Int32).toInt.toNat := by decide
  exact stats_within hreading hcpus hread .ringbufReserveFail

end ETraceGen.Collector
