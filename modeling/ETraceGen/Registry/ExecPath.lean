import ETraceGen.Registry.Reachable

/-!
# The path of an exec

The path the kernel captures at the exec tracepoint is the fallback for the path of a process when
`/proc` cannot be read. It is used only where the entity has no path at all, so an entity that is
carried across an exec keeps the path of its previous image when the read fails
(`execPathFresh_iff`).
-/

namespace ETraceGen

namespace ProcessEntity

theorem replaceBy_nil (field : Bytes) : replaceBy [] field = field := rfl

theorem replaceBy_of_ne {value : Bytes} (h : value ≠ []) (field : Bytes) :
    replaceBy value field = value := if_neg h

theorem refreshRich_execPath (answers : ProcAnswers) {key : UInt32} (hkey : key ≠ 0)
    (e : ProcessEntity) :
    (refreshRich answers key e).execPath =
      replaceBy (Proc.readProcSymlink answers.exe) e.execPath := by
  unfold refreshRich
  rw [if_neg hkey]
  dsimp only
  split_ifs <;> rfl

end ProcessEntity

namespace EntityRegistry

open ProcessEntity (touched replaceBy replaceBy_nil replaceBy_of_ne refreshRich_execPath)

/-- The `/proc/<key>/exe` target read for the subject. -/
def Call.exe (c : Call) : Bytes := Proc.readProcSymlink c.env.subject.proc.exe

/-- After the call the subject's path is the target read in it or, where that read fails, the hint. -/
def ExecPathFresh (c : Call) (r : EntityRegistry) : Prop :=
  ∀ e, (c.next r).findProcess (c.out r).subject.id = some e →
    e.execPath = if c.exe = [] then c.ev.execPathHint else c.exe

/-- The entity the call finds for its subject and does not detect as reused. -/
def Call.Carries (c : Call) (r : EntityRegistry) (id : Nat) (e : ProcessEntity) : Prop :=
  r.tgidIndex.lookup c.ev.actor.key = some id ∧ r.findProcess id = some e ∧
    (e.isReused c.env.subject.proc.identityStat c.ev.tsNs).1 = false

theorem useExecPathHint_findProcess (r : EntityRegistry) (id : Nat) {hint : Bytes} (hhint : hint ≠ []) :
    (r.useExecPathHint id hint).findProcess id =
      (r.findProcess id).map fun e =>
        if e.execPath = [] then { e with execPath := hint } else e := by
  unfold useExecPathHint
  rw [if_neg hhint]
  cases h : r.processesById.lookup id with
  | none =>
    have h' : r.findProcess id = none := h
    rw [h', Option.map_none]
  | some e =>
    have h' : r.findProcess id = some e := h
    rw [h', Option.map_some]
    dsimp only
    split_ifs
    · rw [findProcess_store, if_pos rfl]
    · exact h

section Exec
variable {c : Call} (hexec : c.ev.action = .processExeced) (hhint : c.ev.execPathHint ≠ [])
  (hkey : c.ev.actor.key ≠ 0) {r : EntityRegistry}
include hexec hhint

/-- The path the entity is left with, from the one `ResolveProcess` left it. -/
theorem exec_findProcess :
    (c.next r).findProcess (c.out r).subject.id =
      ((c.resolved r).1.findProcess (c.resolved r).2).map fun e =>
        if e.execPath = [] then { e with execPath := c.ev.execPathHint } else e := by
  have hexit : c.ev.action ≠ .processExited := by
    rw [hexec]
    decide
  have hstart : ¬c.StartsChild := by
    rintro ⟨h, -⟩
    rw [hexec] at h
    cases h
  rw [Call.out_subject, Call.next_eq, Call.acted, if_neg hexit, if_neg hstart]
  exact useExecPathHint_findProcess _ _ hhint

include hkey

/-- An entity that is carried over keeps its path where the read fails. -/
theorem carried_execPath {id : Nat} {e : ProcessEntity} (h : c.Carries r id e) :
    ∃ f, (c.next r).findProcess (c.out r).subject.id = some f ∧
      f.execPath = if c.exe = [] then (if e.execPath = [] then c.ev.execPathHint else e.execPath)
        else c.exe := by
  obtain ⟨hindex, hstored, hsame⟩ := h
  have hres : c.resolved r = (r.store id (touched c.env.subject c.ev.actor c.ev.tsNs true e), id) := by
    unfold Call.resolved
    rw [hexec]
    exact resolveProcess_found c.env.subject c.ev.actor c.ev.tsNs true hkey hindex hstored hsame
  obtain ⟨checked, hchecked⟩ := ProcessEntity.isReused_snd c.env.subject.proc.identityStat c.ev.tsNs e
  have hpath : (touched c.env.subject c.ev.actor c.ev.tsNs true e).execPath =
      replaceBy c.exe e.execPath := by
    unfold touched
    rw [if_pos rfl, refreshRich_execPath _ hkey, hchecked]
    rfl
  rw [exec_findProcess hexec hhint, hres, findProcess_store, if_pos rfl, Option.map_some]
  refine ⟨_, rfl, ?_⟩
  by_cases hexe : c.exe = []
  · have hkeep : (touched c.env.subject c.ev.actor c.ev.tsNs true e).execPath = e.execPath := by
      rw [hpath, hexe, replaceBy_nil]
    rw [if_pos hexe, hkeep]
    split_ifs
    · rfl
    · exact hkeep
  · rw [replaceBy_of_ne hexe] at hpath
    rw [if_neg hexe, hpath, if_neg hexe]
    exact hpath

/-- An entity that is created has no other path. -/
theorem created_execPath {r₀ : EntityRegistry} (hr : r₀.Consistent)
    (hindex : r₀.tgidIndex.lookup c.ev.actor.key = none)
    (hres : c.resolved r = createProcess c.env.subject c.ev.actor.key c.ev.actor c.ev.tsNs r₀) :
    ExecPathFresh c r := by
  intro f hf
  rw [exec_findProcess hexec hhint, hres, createProcess_eq] at hf
  obtain ⟨e, he, rfl⟩ := Option.map_eq_some_iff.mp hf
  have hnew : e = newProcess c.env.subject.proc c.ev.actor.key c.ev.actor c.ev.tsNs r₀.nextId := by
    have hcons := (withNew_edit c.env.subject c.ev.actor c.ev.tsNs hindex).consistent hr
    have hstored := evictIfNeeded_findProcess hcons c.env.subject.order he
    rw [withNew, add_findProcess, if_pos rfl] at hstored
    exact (Option.some.inj hstored).symm
  have hpath : e.execPath = replaceBy c.exe [] := by
    rw [hnew, newProcess, refreshRich_execPath _ hkey]
    rfl
  by_cases hexe : c.exe = []
  · rw [hexe, replaceBy_nil] at hpath
    rw [if_pos hexe, if_pos hpath]
  · rw [replaceBy_of_ne hexe] at hpath
    rw [if_neg hexe, hpath, if_neg hexe]
    exact hpath

end Exec

/-- In every reachable registry an exec event with a hint leaves its subject a path of the new image
exactly when `/proc/<key>/exe` is read, or the entity carried over, if there is one, had no path or
the hint itself. -/
theorem execPathFresh_iff (calls : List Call) (c : Call) (hexec : c.ev.action = .processExeced)
    (hhint : c.ev.execPathHint ≠ []) (hkey : c.ev.actor.key ≠ 0) :
    ExecPathFresh c (run calls) ↔
      c.exe ≠ [] ∨ ∀ id e, c.Carries (run calls) id e →
        e.execPath = [] ∨ e.execPath = c.ev.execPathHint := by
  have hr := run_consistent calls
  by_cases hcarried : ∃ id e, c.Carries (run calls) id e
  · obtain ⟨id, e, hcarries⟩ := hcarried
    obtain ⟨f, hf, hpath⟩ := carried_execPath hexec hhint hkey hcarries
    have honly : ∀ id' e', c.Carries (run calls) id' e' → e' = e := by
      rintro id' e' ⟨hindex', hstored', -⟩
      rw [hcarries.1] at hindex'
      obtain rfl := Option.some.inj hindex'
      rw [hcarries.2.1] at hstored'
      exact (Option.some.inj hstored').symm
    constructor
    · intro hfresh
      by_cases hexe : c.exe = []
      · right
        intro id' e' h'
        have hpath' := hfresh f hf
        rw [hpath, if_pos hexe, if_pos hexe] at hpath'
        rw [honly id' e' h']
        split_ifs at hpath' with hempty
        · exact Or.inl hempty
        · exact Or.inr hpath'
      · exact Or.inl hexe
    · intro hcond f' hf'
      rw [hf] at hf'
      obtain rfl := Option.some.inj hf'
      rw [hpath]
      rcases hcond with hexe | hold
      · rw [if_neg hexe, if_neg hexe]
      · rcases hold id e hcarries with hempty | heq
        · rw [if_pos hempty]
        · rw [heq, ite_self]
  · rcases resolveProcess_cases c.env.subject c.ev.actor c.ev.tsNs (c.ev.action == .processExeced) hr
      hkey with ⟨id, e, hindex, hstored, hsame, -⟩ | ⟨pre, r₀, hpre, -, -, hnone, -, -, hres⟩
    · exact absurd ⟨id, e, hindex, hstored, hsame⟩ hcarried
    · have hfresh := created_execPath hexec hhint hkey (hpre.consistent hr) hnone hres
      exact iff_of_true hfresh (Or.inr fun id e h => absurd ⟨id, e, h⟩ hcarried)

/-! ## A process that execs twice -/

/-- The exec event of process 100, with the path the kernel captured. -/
def execCall (tsNs : UInt64) (exe : Option Bytes) (hint : Bytes) : Call where
  env := { subject := { proc := { exe := exe } } }
  ev := { (processCall 100 .processExeced tsNs 0).ev with execPathHint := hint }

/-- `/bin/sh` and `/bin/ls`. -/
def binSh : Bytes := [0x2f, 0x62, 0x69, 0x6e, 0x2f, 0x73, 0x68]
def binLs : Bytes := [0x2f, 0x62, 0x69, 0x6e, 0x2f, 0x6c, 0x73]

/-- The shell's path is read at its own exec, so the second exec keeps it although the read fails then. -/
theorem not_execPathFresh :
    (execCall 2 none binLs).ev.action = .processExeced ∧
      (execCall 2 none binLs).ev.execPathHint ≠ [] ∧ (execCall 2 none binLs).ev.actor.key ≠ 0 ∧
      ¬ExecPathFresh (execCall 2 none binLs) (run [execCall 1 (some binSh) binSh]) := by
  refine ⟨rfl, by decide, by decide, fun h => ?_⟩
  have hpath : (((execCall 2 none binLs).next (run [execCall 1 (some binSh) binSh])).findProcess 1).map
      (fun e => e.execPath) = some binSh := by
    decide
  obtain ⟨e, he, hbin⟩ := Option.map_eq_some_iff.mp hpath
  have hfresh := h e he
  rw [hbin] at hfresh
  exact absurd hfresh (by decide)

theorem execPathFresh_iff_readable :
    ExecPathFresh (execCall 2 (some binLs) binLs) (run [execCall 1 (some binSh) binSh]) :=
  (execPathFresh_iff [execCall 1 (some binSh) binSh] (execCall 2 (some binLs) binLs) rfl (by decide)
    (by decide)).mpr (Or.inl (by decide))

end EntityRegistry

end ETraceGen
