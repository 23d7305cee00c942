import ETraceGen.Normalizer
import ETraceGen.Wire

/-!
# Outcomes, from the system call to the canonical event

The return value of a call reaches its canonical event as a field of the record, 32 or 64 bits wide. The
clone family has no such field: its records say the child's pid, and the canonical event of a failed
creation is that of one without a child (`outcome_iff`).
-/

namespace ETraceGen

open Bpf Normalizer

namespace Bpf

/-- What the call a hook completes has returned. -/
def Hook.ret? : Hook → Option Int64
  | .exitClone ret | .exitClone3 ret | .exitVfork ret => some ret
  | .exitFile _ ret | .rawExit _ ret | .exitNetwork _ ret => some ret
  | _ => none

/-- The hook completes a system call that creates a task. -/
def Hook.Creates : Hook → Prop
  | .exitClone _ | .exitClone3 _ | .exitVfork _ => True
  | _ => False

end Bpf

/-- The event says whether the call failed, and with what. -/
structure FaithfulOutcome (ev : CanonicalEvent) (ret : Int64) : Prop where
  error_iff : ev.outcomeIsError = true ↔ ret < 0
  outcome : ev.outcomeIsError = true → ev.outcome = ret
  started : ev.action = .processStarted → ev.outcomeIsError = false → ¬ret < 0

/-! ## The routes of a return value -/

/-- An error number, or a result that is not negative and has 31 bits. -/
abbrev IsReturnValue (ret : Int64) : Prop := -4095 ≤ ret.toInt ∧ ret.toInt ≤ 2 ^ 31 - 1

theorem toInt_toInt32 {ret : Int64} (h : IsReturnValue ret) : ret.toInt32.toInt = ret.toInt := by
  obtain ⟨hlow, hhigh⟩ := h
  rw [Int64.toInt_toInt32]
  exact Int.bmod_eq_of_le (by omega) (by omega)

theorem toInt64_toInt32 {ret : Int64} (h : IsReturnValue ret) : ret.toInt32.toInt64 = ret := by
  apply Int64.toInt_inj.mp
  rw [Int32.toInt_toInt64, toInt_toInt32 h]

theorem toInt32_neg_iff {ret : Int64} (h : IsReturnValue ret) : ret.toInt32 < 0 ↔ ret < 0 := by
  rw [Int32.lt_iff_toInt_lt, Int64.lt_iff_toInt_lt, toInt_toInt32 h]
  rfl

/-- A field that holds the value makes the outcome faithful. -/
theorem faithful_of_eq {ev : CanonicalEvent} {ret : Int64} (houtcome : ev.outcome = ret)
    (herror : ev.outcomeIsError = decide (ret < 0)) : FaithfulOutcome ev ret := by
  refine ⟨?_, fun _ => houtcome, fun _ hno hneg => ?_⟩
  · rw [herror, decide_eq_true_eq]
  · rw [herror, decide_eq_false_iff_not] at hno
    exact hno hneg

/-- And so does one that holds its low half. -/
theorem faithful_of_toInt32 {ev : CanonicalEvent} {ret : Int64} {field : Int32} (h : IsReturnValue ret)
    (hret : field = ret.toInt32) (houtcome : ev.outcome = field.toInt64)
    (herror : ev.outcomeIsError = decide (field < 0)) : FaithfulOutcome ev ret := by
  refine faithful_of_eq ?_ ?_
  · rw [houtcome, hret, toInt64_toInt32 h]
  · rw [herror, hret, decide_eq_decide, toInt32_neg_iff h]

theorem normalizeFile_outcome {ev : FileEvent} {ret : Int64} (h : IsReturnValue ret)
    (hret : ev.ret = ret.toInt32) : FaithfulOutcome (Normalizer.normalize (.file ev)) ret :=
  faithful_of_toInt32 h hret rfl rfl

theorem normalizeSyscall_outcome {ev : SyscallEvent} {ret : Int64} (hret : ev.ret = ret) :
    FaithfulOutcome (Normalizer.normalize (.syscall ev)) ret := by
  refine faithful_of_eq hret ?_
  change decide (ev.ret < 0) = _
  rw [hret]

theorem normalizeNetwork_outcome {ev : NetworkEvent} {ret : Int64} (h : IsReturnValue ret)
    (hret : ev.ret = ret.toInt32) : FaithfulOutcome (Normalizer.normalize (.network ev)) ret :=
  faithful_of_toInt32 h hret rfl rfl

/-- A process record has no return value, and its event no error. -/
theorem normalizeProcess_noError (ev : ProcessEvent) :
    (Normalizer.normalize (.process ev)).outcomeIsError = false := by
  unfold Normalizer.normalize normalizeProcess
  dsimp only
  split_ifs <;> rfl

/-- What a record says of the call is right exactly where the call is not a failed creation. -/
theorem Bpf.Source.faithfulOutcome_iff {before : List Step} {env : HookEnv} {hook : Hook}
    {record : EventVariant} {ret : Int64} (h : Source before env hook record)
    (hret : hook.ret? = some ret) (hfits : IsReturnValue ret) :
    FaithfulOutcome (Normalizer.normalize record) ret ↔ ¬(hook.Creates ∧ ret < 0) := by
  cases h with
  | @process kind hkind =>
    have hno := normalizeProcess_noError (processRecord env hook kind)
    have hcreates : hook.Creates := by cases hook <;> trivial
    constructor
    · rintro hf ⟨-, hneg⟩
      have herr := hf.error_iff.mpr hneg
      rw [hno] at herr
      cases herr
    · intro hok
      have hpos : ¬ret < 0 := fun hneg => hok ⟨hcreates, hneg⟩
      refine ⟨?_, fun herr => ?_, fun _ _ => hpos⟩
      · rw [hno]
        exact ⟨fun h => absurd h (by decide), fun hneg => absurd hneg hpos⟩
      · rw [hno] at herr
        cases herr
  | @paired enterEnv enter slot record hmem htask henter hexit hmade =>
    have hcreates : ¬(hook.Creates ∧ ret < 0) := by
      rintro ⟨hc, -⟩
      cases hook with
      | exitClone r => cases hexit
      | exitClone3 r => cases hexit
      | exitVfork r => cases hexit
      | _ => exact hc
    refine iff_of_true ?_ hcreates
    unfold makeRecord at hmade
    split at hmade
    · obtain rfl := Option.some.inj hmade
      obtain rfl := Option.some.inj hret
      exact normalizeFile_outcome hfits rfl
    · obtain rfl := Option.some.inj hmade
      obtain rfl := Option.some.inj hret
      exact normalizeSyscall_outcome rfl
    · obtain rfl := Option.some.inj hmade
      obtain rfl := Option.some.inj hret
      exact normalizeNetwork_outcome hfits (finishNetworkEvent_envelope env _ _ _).2.2
    · cases hmade

/-! ## From the hook to the canonical event -/

/-- **The outcome of a call survives to the canonical event** unless the call is a creation that
failed. -/
theorem outcome_iff (maps : ProbeMaps) (before : List Step) (env : HookEnv) (hook : Hook)
    (ret : Int64) (obj : EventObject) (suffix : Bytes) (hret : hook.ret? = some ret)
    (hfits : IsReturnValue ret)
    (hsubmit : (run maps (before ++ [.deliver env hook])).events.records =
      (run maps before).events.records ++ [obj.event]) :
    ∃ decoded, Decoder.decode (obj.image ++ suffix) = some decoded ∧
      (FaithfulOutcome (Normalizer.normalize decoded.event) ret ↔ ¬(hook.Creates ∧ ret < 0)) := by
  have hsource := record_source hsubmit
  exact ⟨obj, Decoder.decode_image hsource.selfNamed suffix, hsource.faithfulOutcome_iff hret hfits⟩

section Examples

/-- The record of a `clone` that returned `ret`, in a slot of zeros. -/
def cloneObject (ret : Int64) : EventObject :=
  .process (processRecord env7 (.exitClone ret) .clone) default default

theorem cloneObject_submitted (ret : Int64) :
    (run allProbes ([] ++ [.deliver env7 (.exitClone ret)])).events.records =
      (run allProbes []).events.records ++ [(cloneObject ret).event] := by
  rw [run_snoc, exec, handle_process_records allProbes env7 rfl]
  rfl

/-- A `clone` that returns the child 8. -/
theorem outcome_iff_clone :
    ∃ decoded, Decoder.decode ((cloneObject 8).image ++ []) = some decoded ∧
      (FaithfulOutcome (Normalizer.normalize decoded.event) 8 ↔ ¬((Hook.exitClone 8).Creates ∧ (8 : Int64) < 0)) :=
  outcome_iff allProbes [] env7 (.exitClone 8) 8 (cloneObject 8) [] rfl (by decide)
    (cloneObject_submitted 8)

/-- A `clone` that fails with `EAGAIN` is a started process without an error. -/
theorem not_outcome :
    ¬ ∀ maps before env (hook : Hook) ret (obj : EventObject), hook.ret? = some ret →
      IsReturnValue ret →
      (run maps (before ++ [.deliver env hook])).events.records =
        (run maps before).events.records ++ [obj.event] →
      ∃ decoded, Decoder.decode obj.image = some decoded ∧
        FaithfulOutcome (Normalizer.normalize decoded.event) ret := by
  intro h
  obtain ⟨decoded, hdecoded, hf⟩ := h allProbes [] env7 (.exitClone (-11)) (-11) (cloneObject (-11))
    rfl (by decide) (cloneObject_submitted (-11))
  have hsource := record_source (cloneObject_submitted (-11))
  have hown := Decoder.decode_image hsource.selfNamed []
  rw [List.append_nil, hdecoded] at hown
  obtain rfl := Option.some.inj hown
  have herr := hf.error_iff.mpr (by decide)
  rw [cloneObject, EventObject.event, normalizeProcess_noError] at herr
  cases herr

end Examples

end ETraceGen
