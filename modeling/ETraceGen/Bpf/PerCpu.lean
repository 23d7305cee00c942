import Mathlib.Algebra.BigOperators.Ring.Finset
import ETraceGen.Bpf.Effects

/-!
# Counters on every CPU

`bpf_stats` has a slot for each CPU: a handler that counts something counts it in the slot of the CPU it runs on.
The maps and the ring buffer are shared.

* `execOn` : a step on a CPU, `runOn` : a run of them;
* `runOn_refines` : which CPU runs what makes no difference, and the slots add up to the counters of the run;
* `slots_mono` : a slot only grows.
-/

namespace ETraceGen.Bpf

/-- The counters in `shared` are those of the CPU that ran last. -/
structure PerCpu where
  shared : Kernel := {}
  slots : Nat → BpfStatKey → Nat := fun _ _ => 0

/-- A step on a CPU. -/
structure CpuStep where
  cpu : Nat
  step : Step

/-- The handler finds the slot of its CPU. -/
def execOn (maps : ProbeMaps) (s : PerCpu) (c : CpuStep) : PerCpu :=
  let k := exec maps { s.shared with bpfStats := s.slots c.cpu } c.step
  { shared := k, slots := Function.update s.slots c.cpu k.bpfStats }

def runOn (maps : ProbeMaps) (steps : List CpuStep) : PerCpu := steps.foldl (execOn maps) {}

/-- The sum that user space makes of the slots. -/
def PerCpu.total (s : PerCpu) (cpus : Nat) (key : BpfStatKey) : Nat := ∑ cpu ∈ Finset.range cpus, s.slots cpu key

section
variable (maps : ProbeMaps)

theorem runOn_snoc (steps : List CpuStep) (c : CpuStep) :
    runOn maps (steps ++ [c]) = execOn maps (runOn maps steps) c :=
  List.foldl_concat ..

/-- The same maps and the same ring buffer. -/
structure SameMaps (k k' : Kernel) : Prop where
  file : k.fileEnterState = k'.fileEnterState
  syscall : k.syscallEnterState = k'.syscallEnterState
  network : k.networkEnterState = k'.networkEnterState
  fds : k.socketFdState = k'.socketFdState
  events : k.events = k'.events

variable {k k' : Kernel}

/-- What a step writes does not depend on the counters. -/
theorem SameMaps.effect_eq (h : SameMaps k k') (step : Step) : effect maps k step = effect maps k' step := by
  have hagree : AgreeOn (fun _ => true) k k' :=
    ⟨fun key _ => by rw [h.file], fun key _ => by rw [h.syscall], fun key _ => by rw [h.network],
      fun key _ => by rw [h.fds]⟩
  exact effect_congr maps hagree rfl

theorem SameMaps.exec (h : SameMaps k k') (step : Step) : SameMaps (exec maps k step) (exec maps k' step) := by
  rw [exec_eq, exec_eq, h.effect_eq maps step]
  exact ⟨congrArg (Edit.apply _) h.file, congrArg (Edit.apply _) h.syscall, congrArg (Edit.apply _) h.network,
    congrArg (Edit.applyAll _) h.fds, congrArg (RingMove.apply _) h.events⟩

/-- A step on a CPU counts in its slot what it counts at all. -/
theorem slots_execOn (s : PerCpu) (c : CpuStep) (cpu : Nat) (key : BpfStatKey) :
    (execOn maps s c).slots cpu key =
      s.slots cpu key + if cpu = c.cpu ∧ (effect maps s.shared c.step).stat = some key then 1 else 0 := by
  have hsame : SameMaps { s.shared with bpfStats := s.slots c.cpu } s.shared := ⟨rfl, rfl, rfl, rfl, rfl⟩
  show Function.update s.slots c.cpu _ cpu key = _
  by_cases hcpu : cpu = c.cpu
  · subst hcpu
    rw [Function.update_self, bpfStats_exec, hsame.effect_eq maps]
    simp only [true_and]
  · rw [Function.update_of_ne hcpu, if_neg fun h => hcpu h.1, Nat.add_zero]

theorem total_execOn {s : PerCpu} {c : CpuStep} {cpus : Nat} (hcpu : c.cpu < cpus) (key : BpfStatKey) :
    (execOn maps s c).total cpus key =
      s.total cpus key + if (effect maps s.shared c.step).stat = some key then 1 else 0 := by
  unfold PerCpu.total
  simp only [slots_execOn, Finset.sum_add_distrib]
  congr 1
  by_cases hcounted : (effect maps s.shared c.step).stat = some key
  · simp only [hcounted, and_true, if_true]
    rw [Finset.sum_ite_eq' (Finset.range cpus) c.cpu fun _ => 1, if_pos (Finset.mem_range.mpr hcpu)]
  · simp only [hcounted, and_false, if_false, Finset.sum_const_zero]

theorem sameMaps_runOn (steps : List CpuStep) :
    SameMaps (runOn maps steps).shared (run maps (steps.map CpuStep.step)) := by
  induction steps using List.reverseRecOn with
  | nil => exact ⟨rfl, rfl, rfl, rfl, rfl⟩
  | append_singleton steps c ih =>
    rw [runOn_snoc, List.map_append, List.map_singleton, run_snoc]
    have hslot : SameMaps { (runOn maps steps).shared with bpfStats := (runOn maps steps).slots c.cpu }
        (run maps (steps.map CpuStep.step)) := ⟨ih.file, ih.syscall, ih.network, ih.fds, ih.events⟩
    exact hslot.exec maps c.step

/-- **Which CPU runs a handler makes no difference**: the maps and the ring buffer are those of the run without CPUs,
and the slots of all CPUs add up to its counters. -/
theorem runOn_refines {steps : List CpuStep} {cpus : Nat} (hcpus : ∀ c ∈ steps, c.cpu < cpus) :
    SameMaps (runOn maps steps).shared (run maps (steps.map CpuStep.step)) ∧
      ∀ key, (runOn maps steps).total cpus key = (run maps (steps.map CpuStep.step)).bpfStats key := by
  refine ⟨sameMaps_runOn maps steps, fun key => ?_⟩
  induction steps using List.reverseRecOn with
  | nil => exact Finset.sum_const_zero
  | append_singleton steps c ih =>
    have hsteps : ∀ c' ∈ steps, c'.cpu < cpus := fun c' hmem => hcpus c' (List.mem_append_left _ hmem)
    rw [runOn_snoc, total_execOn maps (hcpus c (by simp)), ih hsteps, List.map_append, List.map_singleton, run_snoc,
      bpfStats_exec, (sameMaps_runOn maps steps).effect_eq maps]

theorem slots_mono {steps steps' : List CpuStep} (h : steps <+: steps') (cpu : Nat) (key : BpfStatKey) :
    (runOn maps steps).slots cpu key ≤ (runOn maps steps').slots cpu key := by
  obtain ⟨more, rfl⟩ := h
  induction more using List.reverseRecOn with
  | nil => rw [List.append_nil]
  | append_singleton more c ih =>
    rw [← List.append_assoc, runOn_snoc, slots_execOn]
    exact ih.trans (Nat.le_add_right _ _)

end

end ETraceGen.Bpf
