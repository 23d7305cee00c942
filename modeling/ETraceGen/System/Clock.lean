import ETraceGen.Registry.Attribution
import ETraceGen.System.Identity

/-!
# The order of the lines

A report carries the time at which it is filled, and a call the time at which it is completed. If the hooks that make
records are hit at times that increase, then the lines of the output are in that order, and the process context that a
line is given is the one of its own process, seen at its own time: none has been evicted or mixed up on the way.

* `records_stamps` : the times of the records are those of the hooks;
* `lines_timed` : the lines of the output.
-/

namespace ETraceGen

open Bpf Normalizer EntityRegistry

/-! ## The handlers -/

namespace Bpf

/-- The time that the record of a hook carries. A hook that begins a call makes none. -/
def stamp? (env : HookEnv) (hook : Hook) : Option UInt64 :=
  if (processKind? hook).isSome then some env.ktimeFill
  else if hook.exited?.isSome then some env.ktimeExit
  else none

def Step.stamp? : Step → Option UInt64
  | .deliver env hook => Bpf.stamp? env hook
  | _ => none

theorem Source.stamp {before : List Step} {env : HookEnv} {hook : Hook} {record : EventVariant}
    (h : Source before env hook record) : stamp? env hook = some record.hdr.tsNs := by
  unfold stamp?
  cases h with
  | @process kind hkind =>
    rw [hkind, Option.isSome_some, if_pos rfl, EventVariant.hdr, processRecord, (fillProcess_hdr env hook _).1]
    rfl
  | @paired enterEnv enter slot record hmem htask henter hexit hmade =>
    rw [processKind?_of_exited hexit, hexit, Option.isSome_none, Option.isSome_some, if_neg Bool.false_ne_true, if_pos rfl]
    unfold makeRecord at hmade
    split at hmade
    · obtain rfl := Option.some.inj hmade
      rfl
    · obtain rfl := Option.some.inj hmade
      rfl
    · obtain rfl := Option.some.inj hmade
      rw [EventVariant.hdr, (finishNetworkEvent_envelope env _ _ _).1]
    · cases hmade

/-- The times of the records, in the order in which they are submitted, are times at which hooks were hit. -/
theorem records_stamps (maps : ProbeMaps) (steps : List Step) :
    ((run maps steps).events.records.map fun record => record.hdr.tsNs).Sublist (steps.filterMap Step.stamp?) := by
  induction steps using List.reverseRecOn with
  | nil => exact List.nil_sublist _
  | append_singleton steps step ih =>
    rw [List.filterMap_append]
    rcases exec_records maps (run maps steps) step with hsame | ⟨env, hook, record, rfl, hnew⟩
    · rw [run_snoc, hsame]
      exact ih.trans (List.sublist_append_left _ _)
    · rw [← run_snoc] at hnew
      have hstamp : [Step.deliver env hook].filterMap Step.stamp? = [record.hdr.tsNs] := by
        rw [List.filterMap_cons, Step.stamp?, (record_source hnew).stamp, List.filterMap_nil]
      rw [hnew, List.map_append, hstamp]
      exact ih.append (List.Sublist.refl _)

end Bpf

/-! ## The system -/

theorem Normalizer.normalize_tsNs (raw : EventVariant) : (Normalizer.normalize raw).tsNs = raw.hdr.tsNs := by
  cases raw with
  | process ev =>
    unfold Normalizer.normalize normalizeProcess
    dsimp only
    split_ifs <;> rfl
  | file ev => rfl
  | syscall ev => rfl
  | network ev => rfl

namespace System

section
variable {maps : ProbeMaps} {selfTgid : UInt32} {sink : JsonSink} {moves : List Move}

/-- The hooks that make records are hit at times that increase. -/
def Ticks (moves : List Move) : Prop := ((Feed.produced moves).filterMap Step.stamp?).Pairwise (· < ·)

/-- So are the records that are taken. -/
theorem samples_timed (h : Ticks moves) :
    (samples maps selfTgid sink moves).Pairwise fun s s' => s.2.event.hdr.tsNs < s'.2.event.hdr.tsNs := by
  have htold : ((samples maps selfTgid sink moves).map fun s => s.2.event.hdr.tsNs).Sublist
      ((Feed.produced moves).filterMap Step.stamp?) := by
    have hrecords := (@told_records maps selfTgid sink moves).sublist
    rw [← events_samples] at hrecords
    have hstamps := (hrecords.map fun record => record.hdr.tsNs).trans (records_stamps maps _)
    rwa [List.map_map] at hstamps
  exact List.pairwise_map.mp (List.Pairwise.sublist htold h)

/-- A written event carries the process that it is about. -/
def InContext (e : CanonicalEvent × EventVariant) : Prop :=
  ∃ p, e.1.subjectProcess = some p ∧ p.id = e.1.subject.id ∧ p.key = e.2.actorKey ∧ p.lastSeenNs = e.2.hdr.tsNs

theorem inContext_of_older {sample : Daemon.Sample} {taken : List EntityRegistry.Call}
    (h : ∀ c ∈ taken, c.ev.tsNs < sample.2.event.hdr.tsNs) (hkey : sample.2.event.actorKey ≠ 0) :
    InContext (sample.call.out (EntityRegistry.run taken), sample.2.event) := by
  have hts : sample.call.ev.tsNs = sample.2.event.hdr.tsNs := normalize_tsNs sample.2.event
  have hactor : sample.call.ev.actor.key = sample.2.event.actorKey :=
    congrArg ActorIdentity.key (normalize_actor sample.2.event)
  have hr := run_consistent taken
  have hnext := (sample.call.next_logs hr).consistent hr
  rw [← hts] at h
  rw [← hactor] at hkey
  obtain ⟨p, hp, hsight⟩ := sample.call.next_subject hr (run_older h) hkey
  obtain ⟨hpkey, hpseen⟩ := Prod.mk.inj hsight
  refine ⟨p, ?_, ?_, hpkey.trans hactor, hpseen.trans hts⟩
  · show (sample.call.out (EntityRegistry.run taken)).subjectProcess = some p
    rw [Call.out_subjectProcess, hp]
  · show p.id = (sample.call.out (EntityRegistry.run taken)).subject.id
    rw [Call.out_subject]
    exact (hnext.own_id _ p hp).1

end

/-- **The lines are in the order of time, each in its own context.** If the hooks that make records are hit at times
that increase, then in any interleaving the times of the written events increase, and each of them that is about a
process carries that process, under the id of the line and last seen at the line's own time. -/
theorem lines_timed (maps : ProbeMaps) (selfTgid : UInt32) (sink : JsonSink) {moves : List Move} (h : Ticks moves) :
    (events maps selfTgid sink moves).Pairwise (fun e e' => e.2.hdr.tsNs < e'.2.hdr.tsNs) ∧
      ∀ e ∈ events maps selfTgid sink moves, e.2.actorKey ≠ 0 → InContext e := by
  have hforeign : (Daemon.foreign selfTgid (samples maps selfTgid sink moves)).Pairwise
      fun s s' => s.2.event.hdr.tsNs < s'.2.event.hdr.tsNs := (samples_timed h).filter _
  constructor
  · have hrecords : ((events maps selfTgid sink moves).map Prod.snd).Pairwise
        fun record record' => record.hdr.tsNs < record'.hdr.tsNs := by
      rw [events, Daemon.events_records, List.pairwise_map]
      exact hforeign
    rwa [List.pairwise_map] at hrecords
  · intro e he hkey
    obtain ⟨before, after, hsplit⟩ := List.append_of_mem he
    obtain ⟨taken, sample, rest, hsamples, -, rfl, -⟩ := Daemon.events_split hsplit
    refine inContext_of_older (fun c hc => ?_) hkey
    obtain ⟨s, hs, rfl⟩ := List.mem_map.mp hc
    rw [hsamples, List.pairwise_append] at hforeign
    have hbefore := hforeign.2.2 s hs sample List.mem_cons_self
    have hts : s.call.ev.tsNs = s.2.event.hdr.tsNs := normalize_tsNs s.2.event
    rw [hts]
    exact hbefore

/-- The forks of a process at two times. -/
def forksTimed : List Move :=
  [.produce (.deliver { env7 with ktimeFill := 1 } (.schedFork 8)),
    .produce (.deliver { env7 with ktimeFill := 2 } (.schedFork 9)), .consume calmAsk, .consume calmAsk]

theorem lines_timed_forks : Ticks forksTimed ∧
    (events allProbes 1 (JsonSink.create JsonSink.calmEnv none 0) forksTimed).length = 2 ∧
      ∀ e ∈ events allProbes 1 (JsonSink.create JsonSink.calmEnv none 0) forksTimed, e.2.actorKey ≠ 0 →
        InContext e := by
  have hticks : Ticks forksTimed := by
    unfold Ticks
    decide +kernel
  exact ⟨hticks, by decide +kernel, (lines_timed allProbes 1 _ hticks).2⟩

end System

end ETraceGen
