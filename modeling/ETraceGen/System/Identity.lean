import ETraceGen.Registry.Identity
import ETraceGen.System.Output

/-!
# What an id stands for

The lines of the output name processes by the ids of the registry. An id that two lines name stands for one process
number, and its process has not exited in between: whatever the interleaving, and with evictions and reuses of
numbers as they come.

* `EntityRegistry.same_key` : two mentions in a run of `Ingest` calls;
* `one_process` : two lines of the output.
-/

namespace ETraceGen

open Bpf Normalizer EntityRegistry

/-! ## The registry -/

namespace EntityRegistry

/-- In the history of a call the exit stands behind what is mentioned. -/
theorem Call.history_split {c : Call} {r : EntityRegistry} {key : UInt32} {id : Nat} {ts : UInt64}
    (h : .mention key id ts ∈ c.history r) :
    ∃ pre post, c.history r = pre ++ .mention key id ts :: post ∧ ∀ k, c.Exits k → .exited k ∈ post := by
  obtain ⟨pre, post, hsplit⟩ := List.append_of_mem h
  refine ⟨pre, post, hsplit, fun k hexits => ?_⟩
  have hchild : ¬c.StartsChild := by
    rintro ⟨hstart, -⟩
    rw [hexits.1] at hstart
    cases hstart
  have hown : c.history r = [.mention k (c.out r).subject.id c.ev.tsNs, .exited k] := by
    rw [Call.history, if_neg hchild, if_pos hexits.1, hexits.2.1, if_neg hexits.2.2]
    rfl
  rw [hown] at hsplit
  obtain ⟨rfl, hrest⟩ | ⟨pre', rfl, hrest⟩ := List.cons_eq_append_iff.mp hsplit
  · rw [(List.cons.inj hrest).2]
    exact List.mem_singleton_self _
  · rcases List.cons_eq_append_iff.mp hrest with ⟨-, hlast⟩ | ⟨pre'', -, hlast⟩
    · cases (List.cons.inj hlast).1
    · simp at hlast

/-- **Two mentions that carry one id** are of one key, and no exit of the key lies between them. -/
theorem same_key {before between : List Call} {c d : Call} {key key' : UInt32} {id : Nat} {ts ts' : UInt64}
    (hfirst : .mention key id ts ∈ c.history (run before))
    (hagain : .mention key' id ts' ∈ d.history (run (before ++ c :: between))) :
    key = key' ∧ ∀ x ∈ c :: between, ¬x.Exits key := by
  obtain ⟨pre, post, hpre, hexit⟩ := Call.history_split hfirst
  obtain ⟨pre', post', hpre', -⟩ := Call.history_split hagain
  set later := historyFrom (c.next (run before)) between with hlater
  have hall : history (before ++ c :: between ++ [d]) =
      (history before ++ pre) ++ .mention key id ts :: (post ++ later ++ pre') ++ .mention key' id ts' :: post' := by
    have hfront : history (before ++ c :: between) = history before ++ (c.history (run before) ++ later) :=
      historyFrom_append {} before (c :: between)
    rw [history_snoc, hfront, hpre, hpre']
    simp only [List.append_assoc, List.cons_append]
  obtain ⟨log, hlog, hseen, -⟩ := (run_logs (before ++ c :: between ++ [d])).exists_log
  rw [hall] at hseen
  obtain ⟨front, mid, back, hcut, -, hmid, -⟩ := split_filter hseen
  rw [hcut] at hlog
  obtain ⟨hkey, hkept⟩ := (hlog.same_id_iff_key consistent_empty).mp rfl
  refine ⟨hkey, fun x hx hexits => hkept (Or.inl ?_)⟩
  have hmem : .exited key ∈ mid.filter Entry.observed := by
    rw [hmid]
    apply List.mem_append_left
    rcases List.mem_cons.mp hx with rfl | hx
    · exact List.mem_append_left _ (hexit key hexits)
    · exact List.mem_append_right _ (exited_mem_historyFrom.mpr ⟨x, hx, hexits⟩)
  exact (List.mem_filter.mp hmem).1

end EntityRegistry

/-! ## The written events -/

namespace Daemon

theorem events_cons (registry : EntityRegistry) (sample : Sample) (rest : List Sample) :
    events registry (sample :: rest) =
      (sample.call.out registry, sample.2.event) :: events (sample.call.next registry) rest := rfl

/-- Each written event is what its `Ingest` made, after those on the samples before. -/
theorem events_split {registry : EntityRegistry} {samples : List Sample}
    {before after : List (CanonicalEvent × EventVariant)} {e : CanonicalEvent × EventVariant}
    (h : events registry samples = before ++ e :: after) :
    ∃ taken sample rest, samples = taken ++ sample :: rest ∧ before = events registry taken ∧
      e = (sample.call.out (ingestAll registry (taken.map Sample.call)), sample.2.event) ∧
      after = events (sample.call.next (ingestAll registry (taken.map Sample.call))) rest := by
  induction samples generalizing registry before with
  | nil =>
    have hnil : ([] : List (CanonicalEvent × EventVariant)) = before ++ e :: after := h
    simp at hnil
  | cons sample rest ih =>
    rw [events_cons] at h
    cases before with
    | nil =>
      obtain ⟨he, hafter⟩ := List.cons.inj h
      exact ⟨[], sample, rest, rfl, rfl, he.symm, hafter.symm⟩
    | cons first before =>
      obtain ⟨hfirst, hrest⟩ := List.cons.inj h
      obtain ⟨taken, last, rest', rfl, hbefore, he, hafter⟩ := ih hrest
      refine ⟨sample :: taken, last, rest', rfl, ?_, he, hafter⟩
      rw [events_cons, ← hbefore, hfirst]

end Daemon

/-! ## Names -/

/-- The key of the task that a record is about. -/
def EventVariant.actorKey (record : EventVariant) : UInt32 := (makeActor record.hdr).key

/-- The keys that a written event names, with the ids it gives them: its actor, and the child whose start it
reports. -/
inductive Names (e : CanonicalEvent × EventVariant) : UInt32 → Nat → Prop where
  | subject (hkey : e.2.actorKey ≠ 0) : Names e e.2.actorKey e.1.subject.id
  | child (ev : ProcessEvent) (hraw : e.2 = .process ev) (hstart : processAction ev.kind = .processStarted)
      (hpid : ev.childPid ≠ 0) : Names e ev.childPid e.1.objectRef.id

/-- A record reports the exit of the key's process. -/
def EndsProcess (record : EventVariant) (key : UInt32) : Prop :=
  ∃ ev, record = .process ev ∧ processAction ev.kind = .processExited ∧ record.actorKey = key ∧ key ≠ 0

theorem Names.mention {sample : Daemon.Sample} {r : EntityRegistry} {key : UInt32} {id : Nat}
    (h : Names (sample.call.out r, sample.2.event) key id) :
    .mention key id sample.call.ev.tsNs ∈ sample.call.history r := by
  have hactor : sample.call.ev.actor.key = sample.2.event.actorKey :=
    congrArg ActorIdentity.key (normalize_actor sample.2.event)
  unfold Call.history
  cases h with
  | subject hkey =>
    apply List.mem_append_left
    rw [hactor, if_neg hkey]
    exact List.mem_cons_self
  | child ev hraw hstart hpid =>
    have haction : sample.call.ev.action = .processStarted := by
      show (Normalizer.normalize sample.2.event).action = _
      rw [show sample.2.event = .process ev from hraw, normalize_process_action, hstart]
    have hchild : sample.call.ev.object.childPid = ev.childPid := by
      show (Normalizer.normalize sample.2.event).object.childPid = _
      rw [show sample.2.event = .process ev from hraw, normalize_childPid hstart]
    apply List.mem_append_right
    rw [if_pos ⟨haction, hchild ▸ hpid⟩, hchild]
    exact List.mem_singleton_self _

theorem EndsProcess.exits {sample : Daemon.Sample} {key : UInt32} (h : EndsProcess sample.2.event key) :
    sample.call.Exits key := by
  obtain ⟨ev, hraw, hexit, hkey, hne⟩ := h
  refine ⟨?_, (congrArg ActorIdentity.key (normalize_actor sample.2.event)).trans hkey, hne⟩
  show (Normalizer.normalize sample.2.event).action = _
  rw [hraw, normalize_process_action, hexit]

namespace System

/-- **An id stands for one process.** In the output of any interleaving, two lines that name one id name one process
number with it, and no line from the first to before the second reports that its process has exited; and no name is
the id 0. -/
theorem one_process (maps : ProbeMaps) (selfTgid : UInt32) (sink : JsonSink) (moves : List Move)
    {before between after : List (CanonicalEvent × EventVariant)} {first again : CanonicalEvent × EventVariant}
    (hevents : events maps selfTgid sink moves = before ++ first :: (between ++ again :: after))
    {key key' : UInt32} {id : Nat} (hfirst : Names first key id) (hagain : Names again key' id) :
    id ≠ 0 ∧ key = key' ∧ ∀ e ∈ first :: between, ¬EndsProcess e.2 key := by
  obtain ⟨taken, sample, rest, hsamples, -, rfl, hrest⟩ := Daemon.events_split hevents
  obtain ⟨mid, sample', rest', rfl, hmid, rfl, -⟩ := Daemon.events_split hrest.symm
  have hmention := hfirst.mention
  have hrun : Daemon.ingestAll (sample.call.next (Daemon.ingestAll {} (taken.map Daemon.Sample.call)))
      (mid.map Daemon.Sample.call) =
        EntityRegistry.run (taken.map Daemon.Sample.call ++ sample.call :: mid.map Daemon.Sample.call) :=
    (run_append (taken.map Daemon.Sample.call) (sample.call :: mid.map Daemon.Sample.call)).symm
  rw [hrun] at hagain
  obtain ⟨hkey, hkept⟩ := same_key hmention hagain.mention
  refine ⟨?_, hkey, fun e he hends => ?_⟩
  · have hseen : .mention key id sample.call.ev.tsNs ∈ history (taken.map Daemon.Sample.call ++ [sample.call]) := by
      rw [history_snoc]
      exact List.mem_append_right _ hmention
    exact Nat.pos_iff_ne_zero.mp (history_id_pos hseen)
  · have hsource : ∃ s ∈ sample :: mid, s.2.event = e.2 := by
      rcases List.mem_cons.mp he with rfl | he
      · exact ⟨sample, List.mem_cons_self, rfl⟩
      · rw [hmid] at he
        have hrecord := List.mem_map_of_mem (f := Prod.snd) he
        rw [Daemon.events_records] at hrecord
        obtain ⟨s, hs, hevent⟩ := List.mem_map.mp hrecord
        exact ⟨s, List.mem_cons_of_mem _ hs, hevent⟩
    obtain ⟨s, hs, hevent⟩ := hsource
    rw [← hevent] at hends
    refine hkept s.call ?_ hends.exits
    rw [← List.map_cons]
    exact List.mem_map_of_mem hs

/-- A process forks twice, and each report is taken at once. -/
def forksTaken : List Move :=
  [.produce (.deliver env7 (.schedFork 8)), .consume calmAsk, .produce (.deliver env7 (.schedFork 9)), .consume calmAsk]

theorem one_process_forks : ∃ first again,
    events allProbes 1 (JsonSink.create JsonSink.calmEnv none 0) forksTaken = [first, again] ∧
      Names first 7 1 ∧ Names again 7 1 ∧ ¬EndsProcess first.2 7 := by
  have htwo : (events allProbes 1 (JsonSink.create JsonSink.calmEnv none 0) forksTaken).map
      (fun e => (e.2.actorKey, e.1.subject.id)) = [(7, 1), (7, 1)] := by decide +kernel
  obtain ⟨first, rest, hevents, hfirst, hrest⟩ := List.map_eq_cons_iff.mp htwo
  obtain ⟨again, rfl, hagain⟩ := List.map_eq_singleton_iff.mp hrest
  have hnames : ∀ {e : CanonicalEvent × EventVariant}, (e.2.actorKey, e.1.subject.id) = (7, 1) → Names e 7 1 := by
    intro e he
    obtain ⟨hkey, hid⟩ := Prod.mk.inj he
    rw [← hkey, ← hid]
    exact .subject (by rw [hkey]; decide)
  have hsplit : events allProbes 1 (JsonSink.create JsonSink.calmEnv none 0) forksTaken =
      [] ++ first :: ([] ++ again :: []) := hevents
  obtain ⟨-, -, hkept⟩ := one_process allProbes 1 _ forksTaken hsplit (hnames hfirst) (hnames hagain)
  exact ⟨first, again, hevents, hnames hfirst, hnames hagain, hkept first List.mem_cons_self⟩

end System

end ETraceGen
