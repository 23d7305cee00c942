import ETraceGen.Bpf.Run

/-!
# System calls of a task

A `Slot` is what the handlers tell a task's concurrent system calls apart by: the event kind, or the
system call number. A task runs its system calls one after another, so within one family it is
inside at most one slot; `Calls` records which, and `Calls.step` is undefined on a hit no sequential
task makes.
-/

namespace ETraceGen.Bpf

inductive Family where
  | file | syscall | network
  deriving DecidableEq, Repr

inductive Slot where
  | file (kind : FileEventKind)
  | syscall (nr : Int32)
  | network (kind : NetworkEventKind)
  deriving DecidableEq

def Slot.family : Slot → Family
  | .file _ => .file
  | .syscall _ => .syscall
  | .network _ => .network

/-- The slot whose system call an enter hook begins. -/
def Hook.entered? : Hook → Option Slot
  | .enterFile kind _ => some (.file kind)
  | .rawEnter nr _ => some (.syscall nr)
  | .enterNetwork kind _ => some (.network kind)
  | _ => none

/-- The slot whose system call an exit hook completes. -/
def Hook.exited? : Hook → Option Slot
  | .exitFile kind _ => some (.file kind)
  | .rawExit nr _ => some (.syscall nr)
  | .exitNetwork kind _ => some (.network kind)
  | _ => none

/-- The task that hits a tracepoint in this step, and the tracepoint, delivered or not. -/
def Step.hit? : Step → Option (UInt64 × Hook)
  | .deliver env hook => some (env.pidTgid, hook)
  | .absent pidTgid hook => some (pidTgid, hook)
  | _ => none

/-- The task enters the slot's system call in this step. -/
def Step.Enters (pidTgid : UInt64) (slot : Slot) (step : Step) : Prop :=
  ∃ hook, step.hit? = some (pidTgid, hook) ∧ hook.entered? = some slot

/-- The task exits the slot's system call in this step. -/
def Step.Exits (pidTgid : UInt64) (slot : Slot) (step : Step) : Prop :=
  ∃ hook, step.hit? = some (pidTgid, hook) ∧ hook.exited? = some slot

/-- The task hits an enter or an exit of the family in this step. -/
def Step.Hits (pidTgid : UInt64) (family : Family) (step : Step) : Prop :=
  ∃ slot, (step.Enters pidTgid slot ∨ step.Exits pidTgid slot) ∧ slot.family = family

theorem Hook.exited?_of_entered {hook : Hook} {slot : Slot} (h : hook.entered? = some slot) :
    hook.exited? = none := by
  cases hook <;> first | rfl | cases h

/-- A step enters or exits one slot of one task. -/
theorem Step.Enters.of_hits {step : Step} {p q : UInt64} {slot : Slot} {family : Family}
    (h : step.Enters p slot) (hq : step.Hits q family) : q = p ∧ family = slot.family := by
  obtain ⟨hook, hhit, hent⟩ := h
  obtain ⟨slot', ⟨hook', hhit', hent'⟩ | ⟨hook', hhit', hex'⟩, rfl⟩ := hq <;>
    cases hhit.symm.trans hhit'
  · cases hent.symm.trans hent'
    exact ⟨rfl, rfl⟩
  · cases (Hook.exited?_of_entered hent).symm.trans hex'

theorem Step.Enters.unique {step : Step} {p q : UInt64} {slot slot' : Slot}
    (h : step.Enters p slot) (h' : step.Enters q slot') : q = p ∧ slot' = slot := by
  obtain ⟨hook, hhit, hent⟩ := h
  obtain ⟨hook', hhit', hent'⟩ := h'
  cases hhit.symm.trans hhit'
  cases hent.symm.trans hent'
  exact ⟨rfl, rfl⟩

theorem Step.Exits.unique {step : Step} {p q : UInt64} {slot slot' : Slot}
    (h : step.Exits p slot) (h' : step.Exits q slot') : q = p ∧ slot' = slot := by
  obtain ⟨hook, hhit, hex⟩ := h
  obtain ⟨hook', hhit', hex'⟩ := h'
  cases hhit.symm.trans hhit'
  cases hex.symm.trans hex'
  exact ⟨rfl, rfl⟩

theorem Step.Enters.not_exits {step : Step} {p q : UInt64} {slot slot' : Slot}
    (h : step.Enters p slot) : ¬ step.Exits q slot' := by
  rintro ⟨hook', hhit', hex'⟩
  obtain ⟨hook, hhit, hent⟩ := h
  cases hhit.symm.trans hhit'
  cases (Hook.exited?_of_entered hent).symm.trans hex'

theorem Step.Exits.of_hits {step : Step} {p q : UInt64} {slot : Slot} {family : Family}
    (h : step.Exits p slot) (hq : step.Hits q family) : q = p ∧ family = slot.family := by
  obtain ⟨hook, hhit, hex⟩ := h
  obtain ⟨slot', ⟨hook', hhit', hent'⟩ | ⟨hook', hhit', hex'⟩, rfl⟩ := hq <;>
    cases hhit.symm.trans hhit'
  · cases (Hook.exited?_of_entered hent').symm.trans hex
  · cases hex.symm.trans hex'
    exact ⟨rfl, rfl⟩

/-! ## Sequential tasks -/

/-- The slot each task is inside, in each family. -/
abbrev Calls := UInt64 → Family → Option Slot

namespace Calls

def set (c : Calls) (pidTgid : UInt64) (family : Family) (slot : Option Slot) : Calls :=
  Function.update c pidTgid (Function.update (c pidTgid) family slot)

theorem set_self (c : Calls) (pidTgid : UInt64) (family : Family) (slot : Option Slot) :
    c.set pidTgid family slot pidTgid family = slot := by
  simp [set]

theorem set_of_ne (c : Calls) {pidTgid p : UInt64} {family f : Family} (slot : Option Slot)
    (h : ¬ (p = pidTgid ∧ f = family)) : c.set pidTgid family slot p f = c p f := by
  by_cases hp : p = pidTgid
  · subst hp
    have hf : f ≠ family := fun hf => h ⟨rfl, hf⟩
    simp [set, hf]
  · simp [set, hp]

/-- A task enters a slot when it is in none of the family, and exits the one it is in. -/
def hit (c : Calls) (pidTgid : UInt64) (hook : Hook) : Option Calls :=
  match hook.entered?, hook.exited? with
  | some slot, _ =>
    if c pidTgid slot.family = none then some (c.set pidTgid slot.family (some slot)) else none
  | none, some slot =>
    if c pidTgid slot.family = some slot then some (c.set pidTgid slot.family none) else none
  | none, none => some c

def step (c : Calls) (s : Step) : Option Calls :=
  match s.hit? with
  | some (pidTgid, hook) => c.hit pidTgid hook
  | none => some c

/-- What an accepted step does to the calls in progress. -/
inductive Effect (c c' : Calls) (s : Step) : Prop where
  | enter (pidTgid : UInt64) (slot : Slot) (hit : s.Enters pidTgid slot)
      (idle : c pidTgid slot.family = none) (eq : c' = c.set pidTgid slot.family (some slot))
  | exit (pidTgid : UInt64) (slot : Slot) (hit : s.Exits pidTgid slot)
      (inside : c pidTgid slot.family = some slot) (eq : c' = c.set pidTgid slot.family none)
  | other (noHit : ∀ pidTgid family, ¬ s.Hits pidTgid family) (eq : c' = c)

theorem effect_of_step {c c' : Calls} {s : Step} (h : c.step s = some c') : Effect c c' s := by
  unfold step at h
  split at h
  · rename_i pidTgid hook hhit
    unfold hit at h
    split at h
    · rename_i slot hent
      split_ifs at h with hc
      exact .enter pidTgid slot ⟨hook, hhit, hent⟩ hc (Option.some.inj h).symm
    · rename_i slot hent hex
      split_ifs at h with hc
      exact .exit pidTgid slot ⟨hook, hhit, hex⟩ hc (Option.some.inj h).symm
    · rename_i hent hex
      refine .other ?_ (Option.some.inj h).symm
      rintro p f ⟨slot, ⟨hook', hhit', h'⟩ | ⟨hook', hhit', h'⟩, -⟩ <;>
        cases hhit.symm.trans hhit'
      · cases hent.symm.trans h'
      · cases hex.symm.trans h'
  · rename_i hhit
    refine .other ?_ (Option.some.inj h).symm
    rintro p f ⟨slot, ⟨hook', hhit', h'⟩ | ⟨hook', hhit', h'⟩, -⟩ <;> cases hhit.symm.trans hhit'

theorem idle_of_enter {c c' : Calls} {s : Step} (h : c.step s = some c') {pidTgid : UInt64}
    {slot : Slot} (hent : s.Enters pidTgid slot) : c pidTgid slot.family = none := by
  rcases effect_of_step h with ⟨p, slot', hent', hidle, -⟩ | ⟨p, slot', hex, -, -⟩ | ⟨hno, -⟩
  · obtain ⟨rfl, rfl⟩ := hent'.unique hent
    exact hidle
  · exact absurd hex hent.not_exits
  · exact absurd ⟨slot, .inl hent, rfl⟩ (hno pidTgid slot.family)

theorem inside_of_exit {c c' : Calls} {s : Step} (h : c.step s = some c') {pidTgid : UInt64}
    {slot : Slot} (hex : s.Exits pidTgid slot) : c pidTgid slot.family = some slot := by
  rcases effect_of_step h with ⟨p, slot', hent, -, -⟩ | ⟨p, slot', hex', hin, -⟩ | ⟨hno, -⟩
  · exact absurd hex hent.not_exits
  · obtain ⟨rfl, rfl⟩ := hex'.unique hex
    exact hin
  · exact absurd ⟨slot, .inr hex, rfl⟩ (hno pidTgid slot.family)

/-- The calls in progress after a run that begins outside all of them. -/
def after (steps : List Step) : Option Calls := steps.foldlM Calls.step fun _ _ => none

theorem after_snoc (steps : List Step) (s : Step) :
    after (steps ++ [s]) = (after steps).bind fun c => c.step s := by
  simp [after, List.foldlM_append]

end Calls

/-- Every task runs its system calls one after another, beginning outside all of them. -/
def Sequential (steps : List Step) : Prop := (Calls.after steps).isSome

instance (steps : List Step) : Decidable (Sequential steps) := by
  unfold Sequential
  infer_instance

/-- A sequential run stays so without its last step. -/
theorem Sequential.init {steps : List Step} {s : Step} (h : Sequential (steps ++ [s])) :
    ∃ c c', Calls.after steps = some c ∧ c.step s = some c' ∧
      Calls.after (steps ++ [s]) = some c' := by
  obtain ⟨c', hc'⟩ := Option.isSome_iff_exists.mp h
  have hbind := hc'
  rw [Calls.after_snoc, Option.bind_eq_some_iff] at hbind
  obtain ⟨c, hc, hs⟩ := hbind
  exact ⟨c, c', hc, hs, hc'⟩

theorem Sequential.of_append {steps rest : List Step} (h : Sequential (steps ++ rest)) :
    Sequential steps := by
  induction rest using List.reverseRecOn with
  | nil => rwa [List.append_nil] at h
  | append_singleton rest s ih =>
    rw [← List.append_assoc] at h
    obtain ⟨c, -, hc, -, -⟩ := h.init
    exact ih (by rw [Sequential, hc]; rfl)

/-- The task has entered the slot, and has hit nothing of the family since. -/
def Inside (steps : List Step) (pidTgid : UInt64) (slot : Slot) : Prop :=
  ∃ before s rest, steps = before ++ s :: rest ∧ s.Enters pidTgid slot ∧
    ∀ s' ∈ rest, ¬ s'.Hits pidTgid slot.family

theorem Inside.snoc {steps : List Step} {pidTgid : UInt64} {slot : Slot}
    (h : Inside steps pidTgid slot) {s : Step} (hs : ¬ s.Hits pidTgid slot.family) :
    Inside (steps ++ [s]) pidTgid slot := by
  obtain ⟨before, e, rest, rfl, hent, hrest⟩ := h
  refine ⟨before, e, rest ++ [s], by simp, hent, fun s' hs' => ?_⟩
  rcases List.mem_append.mp hs' with hs' | hs'
  · exact hrest s' hs'
  · rwa [List.mem_singleton.mp hs']

/-- The slot `Calls` has a task in is the slot it is inside. -/
theorem Calls.inside {steps : List Step} {c : Calls} (h : Calls.after steps = some c)
    {pidTgid : UInt64} {slot : Slot} (hc : c pidTgid slot.family = some slot) :
    Inside steps pidTgid slot := by
  induction steps using List.reverseRecOn generalizing c with
  | nil =>
    cases h
    cases hc
  | append_singleton steps s ih =>
    have hseq : Sequential (steps ++ [s]) := by rw [Sequential, h]; rfl
    obtain ⟨c₀, c', hc₀, hs, hc'⟩ := hseq.init
    cases h.symm.trans hc'
    rcases Calls.effect_of_step hs with ⟨p, slot', hent, -, rfl⟩ | ⟨p, slot', hex, -, rfl⟩ |
      ⟨hno, rfl⟩
    · by_cases hsame : pidTgid = p ∧ slot.family = slot'.family
      · obtain ⟨rfl, hfam⟩ := hsame
        rw [hfam, Calls.set_self] at hc
        cases hc
        exact ⟨steps, s, [], rfl, hent, fun s' hs' => by cases hs'⟩
      · rw [Calls.set_of_ne _ _ hsame] at hc
        exact (ih hc₀ hc).snoc fun hq => hsame (hent.of_hits hq)
    · by_cases hsame : pidTgid = p ∧ slot.family = slot'.family
      · obtain ⟨rfl, hfam⟩ := hsame
        rw [hfam, Calls.set_self] at hc
        cases hc
      · rw [Calls.set_of_ne _ _ hsame] at hc
        exact (ih hc₀ hc).snoc fun hq => hsame (hex.of_hits hq)
    · exact (ih hc₀ hc).snoc (hno _ _)

end ETraceGen.Bpf
