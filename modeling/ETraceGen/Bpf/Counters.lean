import ETraceGen.Bpf.Misses
import ETraceGen.Bpf.Submitted
import Mathlib.Data.Set.Card

/-!
# What the counters count

A counter of the handlers is the number of hits at which what it is named after has happened: a record found no room,
an enter was let in while a call of its task was open in the slot, its payload found no room, or an exit was let
through with no call open.

* `IsOpen` : a call is open;
* `Counts` : the hits of a counter;
* `counters_exact` : its value.
-/

namespace ETraceGen.Bpf

section
variable (maps : ProbeMaps)

/-- The task has a call open in the slot. -/
def IsOpen (steps : List Step) (pidTgid : UInt64) (slot : Slot) : Prop :=
  ∃ n enterEnv enter, OpenEnter maps steps n enterEnv enter pidTgid slot

/-- The hit is counted under the key. -/
inductive Counts (before : List Step) (env : HookEnv) (hook : Hook) : BpfStatKey → Prop where
  | notReported {kind : ProcessEventKind} (hkind : processKind? hook = some kind)
    (hgate : processGate maps env kind = true) (hfull : env.reserveOk = false) :
    Counts before env hook .ringbufReserveFail
  | notEntered {slot : Slot} (henters : hook.entered? = some slot)
    (hgate : passesEnter maps slot.family (run maps before) (.deliver env hook) = true)
    (hfull : env.reserveOk = false) : Counts before env hook .ringbufReserveFail
  | notFinished {slot : Slot} (hexit : hook.exited? = some slot) (hgate : hookGate maps env hook = true)
    (hopen : IsOpen maps before env.pidTgid slot) (hfull : env.reserveOk = false) :
    Counts before env hook .ringbufReserveFail
  | collision {slot : Slot} (henters : hook.entered? = some slot)
    (hgate : passesEnter maps slot.family (run maps before) (.deliver env hook) = true)
    (hroom : env.reserveOk = true) (hscratch : slot.family = .network → env.scratchOk = true)
    (hopen : IsOpen maps before env.pidTgid slot) : Counts before env hook slot.family.collision
  | notSaved {slot : Slot} (henters : hook.entered? = some slot)
    (hgate : passesEnter maps slot.family (run maps before) (.deliver env hook) = true)
    (hroom : env.reserveOk = true) (hscratch : slot.family = .network → env.scratchOk = true)
    (hclosed : ¬IsOpen maps before env.pidTgid slot) (hfull : env.updateOk = false) :
    Counts before env hook slot.family.saveFail
  | miss {slot : Slot} (hexit : hook.exited? = some slot) (hgate : hookGate maps env hook = true)
    (hclosed : ¬IsOpen maps before env.pidTgid slot) : Counts before env hook slot.family.miss

variable {maps} {steps before : List Step} {env : HookEnv} {hook : Hook} {slot : Slot} {key : BpfStatKey}

/-- What is saved is what is open. -/
theorem saved_iff {pidTgid : UInt64} : saved (run maps steps) pidTgid slot = true ↔ IsOpen maps steps pidTgid slot := by
  cases slot with
  | file kind => exact entry_isSome_iff (fun _ => fileEntry_iff) fun _ _ => filePayload?_isSome
  | syscall nr => exact entry_isSome_iff (fun _ => syscallEntry_iff) fun _ _ => syscallPayload?_isSome
  | network kind => exact entry_isSome_iff (fun _ => networkEntry_iff) fun _ _ => networkPayload?_isSome

/-! ## What one hit counts -/

theorem stat_of_process {kind : ProcessEventKind} (hkind : processKind? hook = some kind) (k : Kernel) :
    (effect maps k (.deliver env hook)).stat =
      if processGate maps env kind && !env.reserveOk then some .ringbufReserveFail else none := by
  rw [process_effect hkind, gated, reportEffect]
  cases processGate maps env kind <;> cases env.reserveOk <;> rfl

/-- What an enter counts that is let in. -/
def enterStat (env : HookEnv) (family : Family) (taken : Bool) : Option BpfStatKey :=
  if env.reserveOk then
    if family = .network ∧ env.scratchOk = false then none
    else if taken then some family.collision
    else if env.updateOk then none
    else some family.saveFail
  else some .ringbufReserveFail

theorem stat_of_enter (henters : hook.entered? = some slot) (k : Kernel) :
    (effect maps k (.deliver env hook)).stat =
      if passesEnter maps slot.family k (.deliver env hook) then
        enterStat env slot.family (saved k env.pidTgid slot)
      else none := by
  cases hook with
  | enterFile kind args =>
    cases henters
    show (gated (fileGate maps env kind) _).stat = if fileGate maps env kind then _ else _
    unfold gated saveEffect enterStat
    split_ifs <;> simp_all [saved, makeFileKey, Slot.family]
  | rawEnter nr args =>
    cases henters
    show (gated (syscallGate maps env) _).stat = if syscallGate maps env then _ else _
    unfold gated saveEffect enterStat
    split_ifs <;> simp_all [saved, makeSyscallKey, Slot.family]
  | enterNetwork kind args =>
    cases henters
    show (gated (networkEnterGate maps env kind args k) _).stat = if networkEnterGate maps env kind args k then _ else _
    unfold gated saveEffect enterStat
    split_ifs <;> simp_all [saved, makeNetworkKey, Slot.family]
  | _ => cases henters

/-- What an exit counts that is let through. -/
def exitStat (env : HookEnv) (family : Family) (found : Bool) : Option BpfStatKey :=
  if found then if env.reserveOk then none else some .ringbufReserveFail else some family.miss

theorem stat_of_exit (hexit : hook.exited? = some slot) (k : Kernel) :
    (effect maps k (.deliver env hook)).stat =
      if hookGate maps env hook then exitStat env slot.family (saved k env.pidTgid slot) else none := by
  have hgated : ∀ {P : Type} (gate : Bool) (family : Family) (entry : Option P) (dropped : Effect)
      (finish : P → Effect), (∀ state, (finish state).stat = none) →
      (gated gate (emitEffect env family entry dropped finish)).stat =
        if gate then exitStat env family entry.isSome else none := by
    intro P gate family entry dropped finish hfinish
    unfold gated emitEffect exitStat
    cases gate with
    | false => rfl
    | true =>
      cases entry with
      | none => rfl
      | some state => cases hroom : env.reserveOk <;> simp [hfinish]
  cases hook with
  | exitFile kind ret =>
    cases hexit
    exact hgated _ _ _ _ _ fun _ => rfl
  | rawExit nr ret =>
    cases hexit
    exact hgated _ _ _ _ _ fun _ => rfl
  | exitNetwork kind ret =>
    cases hexit
    exact hgated _ _ _ _ _ fun _ => rfl
  | _ => cases hexit

/-- A hit counts what it is counted under. -/
theorem stat_iff : (effect maps (run maps before) (.deliver env hook)).stat = some key ↔ Counts maps before env hook key := by
  constructor
  · intro h
    rcases hook.kinds with ⟨slot, henters⟩ | ⟨slot, hexit⟩ | ⟨kind, hkind⟩
    · rw [stat_of_enter henters] at h
      split_ifs at h with hgate
      unfold enterStat at h
      split_ifs at h with hroom hscratch htaken hupdate
      · cases h
        refine .collision henters hgate hroom (fun hnet => ?_) (saved_iff.mp htaken)
        exact Bool.eq_true_of_not_eq_false fun hno => hscratch ⟨hnet, hno⟩
      · cases h
        refine .notSaved henters hgate hroom (fun hnet => ?_) (fun hopen => htaken (saved_iff.mpr hopen))
          (Bool.eq_false_of_not_eq_true hupdate)
        exact Bool.eq_true_of_not_eq_false fun hno => hscratch ⟨hnet, hno⟩
      · cases h
        exact .notEntered henters hgate (Bool.eq_false_of_not_eq_true hroom)
    · rw [stat_of_exit hexit] at h
      split_ifs at h with hgate
      unfold exitStat at h
      split_ifs at h with hfound hroom
      · cases h
        exact .notFinished hexit hgate (saved_iff.mp hfound) (Bool.eq_false_of_not_eq_true hroom)
      · cases h
        exact .miss hexit hgate fun hopen => hfound (saved_iff.mpr hopen)
    · rw [stat_of_process hkind] at h
      split_ifs at h with hgate
      cases h
      rw [Bool.and_eq_true, Bool.not_eq_true'] at hgate
      exact .notReported hkind hgate.1 hgate.2
  · intro h
    cases h with
    | notReported hkind hgate hfull => rw [stat_of_process hkind, hgate, hfull]; rfl
    | notEntered henters hgate hfull =>
      rw [stat_of_enter henters, if_pos hgate, enterStat, hfull]
      rfl
    | notFinished hexit hgate hopen hfull =>
      rw [stat_of_exit hexit, if_pos hgate, exitStat, saved_iff.mpr hopen, hfull]
      rfl
    | collision henters hgate hroom hscratch hopen =>
      rw [stat_of_enter henters, if_pos hgate, enterStat, if_pos hroom, if_neg, saved_iff.mpr hopen]
      · rfl
      · exact fun hno => absurd (hscratch hno.1) (by rw [hno.2]; exact Bool.false_ne_true)
    | notSaved henters hgate hroom hscratch hclosed hfull =>
      rw [stat_of_enter henters, if_pos hgate, enterStat, if_pos hroom, if_neg,
        if_neg fun htaken => hclosed (saved_iff.mp htaken), hfull]
      · rfl
      · exact fun hno => absurd (hscratch hno.1) (by rw [hno.2]; exact Bool.false_ne_true)
    | miss hexit hgate hclosed =>
      rw [stat_of_exit hexit, if_pos hgate, exitStat, if_neg fun hfound => hclosed (saved_iff.mp hfound)]

/-! ## What a run counts -/

/-- The hits of the run that are counted under the key. -/
def countedHits (maps : ProbeMaps) (steps : List Step) (key : BpfStatKey) : Set Nat :=
  { i | ∃ env hook, steps[i]? = some (.deliver env hook) ∧ Counts maps (steps.take i) env hook key }

theorem mem_countedHits {i : Nat} : i ∈ countedHits maps steps key ↔
    At (fun before step => (effect maps (run maps before) step).stat = some key) steps i := by
  constructor
  · rintro ⟨env, hook, hhit, hcounts⟩
    exact ⟨_, hhit, stat_iff.mpr hcounts⟩
  · rintro ⟨step, hstep, hstat⟩
    cases step with
    | deliver env hook => exact ⟨env, hook, hstep, stat_iff.mp hstat⟩
    | _ => cases hstat

theorem countedHits_lt {i : Nat} (h : i ∈ countedHits maps steps key) : i < steps.length :=
  (mem_countedHits.mp h).lt

theorem countedHits_finite : (countedHits maps steps key).Finite :=
  (Set.finite_lt_nat steps.length).subset fun _ => countedHits_lt

theorem mem_countedHits_snoc {step : Step} {i : Nat} : i ∈ countedHits maps (steps ++ [step]) key ↔
    i ∈ countedHits maps steps key ∨ i = steps.length ∧ (effect maps (run maps steps) step).stat = some key := by
  rw [mem_countedHits, mem_countedHits, at_snoc]

/-- **The counters are exact**: in every run each of them is the number of hits at which what it counts has happened. -/
theorem counters_exact (maps : ProbeMaps) (steps : List Step) (key : BpfStatKey) :
    (run maps steps).bpfStats key = (countedHits maps steps key).ncard := by
  induction steps using List.reverseRecOn with
  | nil =>
    have hnone : countedHits maps [] key = ∅ :=
      Set.eq_empty_iff_forall_notMem.mpr fun i h => absurd (countedHits_lt h) (Nat.not_lt_zero _)
    rw [hnone, Set.ncard_empty]
    rfl
  | append_singleton steps step ih =>
    rw [run_snoc, bpfStats_exec, ih]
    split_ifs with hstat
    · have hinsert : countedHits maps (steps ++ [step]) key = insert steps.length (countedHits maps steps key) := by
        ext i
        rw [mem_countedHits_snoc, Set.mem_insert_iff, or_comm]
        exact or_congr_left (and_iff_left hstat)
      rw [hinsert, Set.ncard_insert_of_notMem (fun h => Nat.lt_irrefl _ (countedHits_lt h)) countedHits_finite]
    · have hsame : countedHits maps (steps ++ [step]) key = countedHits maps steps key := by
        ext i
        rw [mem_countedHits_snoc]
        exact or_iff_left fun h => hstat h.2
      rw [hsame, Nat.add_zero]

end

end ETraceGen.Bpf
