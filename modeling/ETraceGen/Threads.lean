import ETraceGen.Pipeline
import ETraceGen.Registry.Creation

/-!
# Threads and their process

`sched_process_exit` fires once for every thread, `sched_process_fork` and the clone family report threads
as they report processes, and the registry knows a task by its thread group. So the kernel's reports of a
thread are news of a process to the registry: a thread's exit is taken for the exit of its process, and a
thread's creation for that of a process with the thread's id.

* `registry_rawCallback` : after any samples the registry is that of the `Ingest` calls on their records;
* `exits_iff`, `starts_iff` : which hooks a run has to deliver for an exit or a child to reach the registry;
* `processesOnly_iff` : the registry holds the live processes, each under the id it got first, and no thread,
  at every point of a run, exactly if neither kind of report reaches it.
-/

namespace ETraceGen

open Bpf Normalizer EntityRegistry

/-! ## The calls of a run -/

/-- The `Ingest` calls on the records, those of the program itself left out; `envs` is what each finds
around it. -/
def ingestCalls (selfTgid : UInt32) (envs : Nat → IngestEnv) (records : List EventVariant) :
    List EntityRegistry.Call :=
  records.zipIdx.filterMap fun sample =>
    if isSelfEvent sample.1 selfTgid then none
    else some { env := envs sample.2, ev := Normalizer.normalize sample.1 }

section Calls
variable (selfTgid : UInt32) (envs : Nat → IngestEnv)

theorem ingestCalls_snoc (records : List EventVariant) (event : EventVariant) :
    ingestCalls selfTgid envs (records ++ [event]) =
      ingestCalls selfTgid envs records ++
        if isSelfEvent event selfTgid then []
        else [{ env := envs records.length, ev := Normalizer.normalize event }] := by
  unfold ingestCalls
  rw [List.zipIdx_append, List.filterMap_append]
  cases h : isSelfEvent event selfTgid <;> simp [h]

theorem ingestCalls_append (records more : List EventVariant) :
    ∃ rest, ingestCalls selfTgid envs (records ++ more) = ingestCalls selfTgid envs records ++ rest := by
  unfold ingestCalls
  rw [List.zipIdx_append, List.filterMap_append]
  exact ⟨_, rfl⟩

theorem mem_ingestCalls {records : List EventVariant} {c : EntityRegistry.Call} :
    c ∈ ingestCalls selfTgid envs records ↔
      ∃ i event, records[i]? = some event ∧ event.hdr.tgid ≠ selfTgid ∧
        c = { env := envs i, ev := Normalizer.normalize event } := by
  unfold ingestCalls
  rw [List.mem_filterMap]
  constructor
  · rintro ⟨⟨event, i⟩, hmem, h⟩
    split_ifs at h with hself
    refine ⟨i, event, List.mem_zipIdx_iff_getElem?.mp hmem, fun heq => hself ?_, (Option.some.inj h).symm⟩
    exact beq_iff_eq.mpr heq
  · rintro ⟨i, event, hget, hself, rfl⟩
    refine ⟨(event, i), List.mem_zipIdx_iff_getElem?.mpr hget, if_neg fun h => hself ?_⟩
    exact beq_iff_eq.mp h

/-- **The registry after any samples** is the one the `Ingest` calls on their records leave. -/
theorem registry_rawCallback (samples : List EventObject) (h : ∀ obj ∈ samples, obj.event.SelfNamed) :
    samples.zipIdx.foldl (fun r sample => (rawCallback selfTgid (envs sample.2) sample.1.image r).1) {} =
      EntityRegistry.run (ingestCalls selfTgid envs (samples.map EventObject.event)) := by
  induction samples using List.reverseRecOn with
  | nil => rfl
  | append_singleton samples obj ih =>
    have hself := h obj (by simp)
    have hbefore := ih fun other hother => h other (List.mem_append_left _ hother)
    rw [List.zipIdx_append, List.foldl_append, hbefore, List.map_append, List.map_singleton,
      ingestCalls_snoc, List.length_map]
    simp only [List.zipIdx_singleton, List.foldl_cons, List.foldl_nil, Nat.zero_add]
    rw [rawCallback_image hself]
    split_ifs
    · rw [List.append_nil]
    · rw [EntityRegistry.run_snoc]
      rfl

end Calls

/-! ## What reaches the registry -/

/-- The child a hook of the clone family names, 0 where it names none. -/
def Bpf.Hook.child : Hook → UInt32
  | .schedFork childPid => childPid
  | .exitClone ret | .exitClone3 ret | .exitVfork ret => if 0 < ret then ret.toUInt64.toUInt32 else 0
  | _ => 0

theorem processRecord_childPid {env : HookEnv} {hook : Hook} {kind : ProcessEventKind} :
    (processRecord env hook kind).childPid = hook.child := by
  have hret : ∀ (ret : Int64) (ev : ProcessEvent), ev.childPid = 0 →
      (setChildPid ret ev).childPid = if 0 < ret then ret.toUInt64.toUInt32 else 0 := by
    intro ret ev hzero
    unfold setChildPid
    split_ifs
    · rfl
    · exact hzero
  cases hook with
  | schedExec filename => cases filename <;> rfl
  | exitClone ret => exact hret ret _ rfl
  | exitClone3 ret => exact hret ret _ rfl
  | exitVfork ret => exact hret ret _ rfl
  | _ => rfl

/-- The hook's process record is submitted, and is not about the program itself. -/
structure Reported (maps : ProbeMaps) (selfTgid : UInt32) (env : HookEnv) (kind : ProcessEventKind) :
    Prop where
  gate : processGate maps env kind = true
  reserved : env.reserveOk = true
  other : env.tgid ≠ selfTgid

section Reports
variable (maps : ProbeMaps) (selfTgid : UInt32) (envs : Nat → IngestEnv)

/-- The `Ingest` calls of a run. -/
def callsOf (steps : List Step) : List EntityRegistry.Call :=
  ingestCalls selfTgid envs (Bpf.run maps steps).events.records

variable {maps selfTgid envs} {steps : List Step}

/-- Every call is about a task that hit a hook. -/
theorem actor_of_mem_callsOf {c : EntityRegistry.Call} (h : c ∈ callsOf maps selfTgid envs steps) :
    ∃ env hook, .deliver env hook ∈ steps ∧ c.ev.actor.key = taskKey env.tgid env.pid := by
  obtain ⟨i, event, hget, -, rfl⟩ := (mem_ingestCalls selfTgid envs).mp h
  obtain ⟨before, env, hook, after, rfl, hsource⟩ := mem_records (List.mem_of_getElem? hget)
  refine ⟨env, hook, by simp, ?_⟩
  rw [normalize_actor, ActorIdentity.key, makeActor, hsource.envelope.tgid, hsource.envelope.pid]

/-- A record that reports the start or the end of a task is a process record. -/
theorem process_of_action {raw : EventVariant}
    (h : (Normalizer.normalize raw).action = .processExited ∨ (Normalizer.normalize raw).action = .processStarted) :
    ∃ ev, raw = .process ev := by
  cases raw with
  | process ev => exact ⟨ev, rfl⟩
  | file ev => exact absurd h (not_or.mpr (fileAction_ne ev.kind).symm)
  | syscall ev => exact absurd h (by simp [Normalizer.normalize, normalizeSyscall])
  | network ev => exact absurd h (not_or.mpr (networkAction_ne ev.kind).symm)

/-- What is said of the start or the end of a task is said by a reported process hook. -/
theorem process_callsOf (P : CanonicalEvent → Prop)
    (hP : ∀ ev, P ev → ev.action = .processExited ∨ ev.action = .processStarted) :
    (∃ c ∈ callsOf maps selfTgid envs steps, P c.ev) ↔
      ∃ env hook kind, .deliver env hook ∈ steps ∧ processKind? hook = some kind ∧
        Reported maps selfTgid env kind ∧ P (Normalizer.normalize (.process (processRecord env hook kind))) := by
  constructor
  · rintro ⟨c, hc, hPc⟩
    obtain ⟨i, event, hget, hself, rfl⟩ := (mem_ingestCalls selfTgid envs).mp hc
    obtain ⟨ev, rfl⟩ := process_of_action (hP _ hPc)
    obtain ⟨env, hook, kind, hmem, hw⟩ := mem_process_records.mp (List.mem_of_getElem? hget)
    obtain rfl := hw.record
    have htgid := (processRecord_envelope env hook kind).1.tgid
    refine ⟨env, hook, kind, hmem, hw.of_kind, ⟨hw.gate, hw.reserved, fun h => hself ?_⟩, hPc⟩
    exact htgid.trans h
  · rintro ⟨env, hook, kind, hmem, hkind, hrep, hPev⟩
    have hrecord := mem_process_records.mpr
      ⟨env, hook, kind, hmem, ⟨hkind, hrep.gate, hrep.reserved, rfl⟩⟩
    obtain ⟨i, hget⟩ := List.getElem?_of_mem hrecord
    have htgid := (processRecord_envelope env hook kind).1.tgid
    exact ⟨_, (mem_ingestCalls selfTgid envs).mpr ⟨i, _, hget, fun h => hrep.other (htgid.symm.trans h), rfl⟩,
      hPev⟩

/-- An exit that reaches the registry was reported of a task of the process. -/
theorem exits_iff {tgid : UInt32} :
    (∃ c ∈ callsOf maps selfTgid envs steps, c.Exits tgid) ↔
      ∃ env, .deliver env .schedExit ∈ steps ∧ Reported maps selfTgid env .exit ∧
        taskKey env.tgid env.pid = tgid ∧ tgid ≠ 0 := by
  have hactor : ∀ env hook kind,
      (Normalizer.normalize (.process (processRecord env hook kind))).actor.key = taskKey env.tgid env.pid := by
    intro env hook kind
    have henvelope := (processRecord_envelope env hook kind).1
    rw [normalize_actor, ActorIdentity.key, makeActor, EventVariant.hdr, henvelope.tgid, henvelope.pid]
  refine (process_callsOf (fun ev => ev.action = .processExited ∧ ev.actor.key = tgid ∧ tgid ≠ 0)
    fun ev h => Or.inl h.1).trans ?_
  constructor
  · rintro ⟨env, hook, kind, hmem, hkind, hrep, haction, hkey, hne⟩
    rw [normalize_process_action, (processRecord_envelope env hook kind).2, processAction_code] at haction
    rw [hactor] at hkey
    cases hook <;> cases hkind <;> cases haction
    exact ⟨env, hmem, hrep, hkey, hne⟩
  · rintro ⟨env, hmem, hrep, hkey, hne⟩
    refine ⟨env, .schedExit, .exit, hmem, rfl, hrep, ?_, (hactor _ _ _).trans hkey, hne⟩
    rw [normalize_process_action]
    rfl

/-- A child that reaches the registry was named by a hook of the clone family. -/
theorem starts_iff {child : UInt32} (hne : child ≠ 0) :
    (∃ c ∈ callsOf maps selfTgid envs steps, c.StartsChild ∧ c.ev.object.childPid = child) ↔
      ∃ env hook kind, .deliver env hook ∈ steps ∧ processKind? hook = some kind ∧
        Reported maps selfTgid env kind ∧ hook.child = child := by
  refine (process_callsOf (fun ev => (ev.action = .processStarted ∧ ev.object.childPid ≠ 0) ∧
    ev.object.childPid = child) fun ev h => Or.inr h.1.1).trans ?_
  constructor
  · rintro ⟨env, hook, kind, hmem, hkind, hrep, ⟨haction, -⟩, hchild⟩
    rw [normalize_process_action] at haction
    rw [normalize_childPid haction, processRecord_childPid] at hchild
    exact ⟨env, hook, kind, hmem, hkind, hrep, hchild⟩
  · rintro ⟨env, hook, kind, hmem, hkind, hrep, hchild⟩
    have haction : processAction (processRecord env hook kind).kind = .processStarted := by
      rw [(processRecord_envelope env hook kind).2, processAction_code]
      cases hook <;> cases hkind <;> first | rfl | exact absurd hchild.symm hne
    have hpid := (normalize_childPid haction).trans (processRecord_childPid.trans hchild)
    exact ⟨env, hook, kind, hmem, hkind, hrep,
      ⟨(normalize_process_action _).trans haction, hpid.trans_ne hne⟩, hpid⟩

/-- The calls of a run continue those of every run it continues. -/
theorem callsOf_append (maps : ProbeMaps) (selfTgid : UInt32) (envs : Nat → IngestEnv)
    (steps more : List Step) : ∃ rest,
      callsOf maps selfTgid envs (steps ++ more) = callsOf maps selfTgid envs steps ++ rest := by
  obtain ⟨new, hnew⟩ := records_run_append maps steps more
  unfold callsOf
  rw [hnew]
  exact ingestCalls_append selfTgid envs _ new

end Reports

/-! ## Threads -/

/-- The leader of the process exits in this step. -/
def Bpf.Step.LeaderExits (tgid : UInt32) (step : Step) : Prop :=
  ∃ pidTgid, step.hit? = some (pidTgid, .schedExit) ∧ pidTgid.toUInt32 = tgid ∧
    (pidTgid >>> 32).toUInt32 = tgid

/-- What the kernel's ids say of the tasks of a run, of which some are threads other than their process's
leader: a thread group is known by its leader, and only the idle tasks have none. -/
structure TaskIds (isThread : UInt32 → Prop) (steps : List Step) : Prop where
  group : ∀ env hook, .deliver env hook ∈ steps → ¬isThread env.tgid
  idle : ∀ env hook, .deliver env hook ∈ steps → env.tgid = 0 → env.pid = 0

/-- While the leader of a process has not exited, the process is indexed with every id attached to it, and
its entity is live; and no live entity is a thread's. -/
structure ProcessesOnly (isThread : UInt32 → Prop) (steps : List Step)
    (calls : List EntityRegistry.Call) : Prop where
  kept : ∀ tgid, (∀ step ∈ steps, ¬step.LeaderExits tgid) → Kept calls tgid
  no_threads : ∀ id e, (EntityRegistry.run calls).findProcess id = some e → e.exited = false → ¬isThread e.key

/-- No exit of a thread is reported while its process has a leader, and no thread as the child of a task. -/
structure ThreadsUnreported (isThread : UInt32 → Prop) (maps : ProbeMaps) (selfTgid : UInt32)
    (steps : List Step) : Prop where
  exits : ∀ pre env post, steps = pre ++ .deliver env .schedExit :: post → env.pid ≠ env.tgid →
    Reported maps selfTgid env .exit → ∃ step ∈ pre, step.LeaderExits env.tgid
  starts : ∀ env hook kind, .deliver env hook ∈ steps → processKind? hook = some kind →
    Reported maps selfTgid env kind → hook.child ≠ 0 → ¬isThread hook.child

section Threads
variable {isThread : UInt32 → Prop} {maps : ProbeMaps} {selfTgid : UInt32} {envs : Nat → IngestEnv}
  {steps : List Step}

theorem TaskIds.of_append {more : List Step} (h : TaskIds isThread (steps ++ more)) :
    TaskIds isThread steps where
  group := fun env hook hmem => h.group env hook (List.mem_append_left _ hmem)
  idle := fun env hook hmem => h.idle env hook (List.mem_append_left _ hmem)

theorem ThreadsUnreported.of_append {more : List Step}
    (h : ThreadsUnreported isThread maps selfTgid (steps ++ more)) :
    ThreadsUnreported isThread maps selfTgid steps where
  exits := fun pre env post hsplit => h.exits pre env (post ++ more) (by rw [hsplit]; simp)
  starts := fun env hook kind hmem => h.starts env hook kind (List.mem_append_left _ hmem)

/-- A task of a thread group is known by it. -/
theorem TaskIds.key_eq (h : TaskIds isThread steps) {env : HookEnv} {hook : Hook}
    (hmem : .deliver env hook ∈ steps) : taskKey env.tgid env.pid = env.tgid := by
  unfold taskKey
  split_ifs with hzero
  · rfl
  · rw [h.idle env hook hmem (not_not.mp hzero), not_not.mp hzero]

/-- No thread is known by its own id. -/
theorem TaskIds.not_exits (h : TaskIds isThread steps) {thread : UInt32} (hthread : isThread thread) :
    ¬∃ c ∈ callsOf maps selfTgid envs steps, c.Exits thread := by
  rw [exits_iff]
  rintro ⟨env, hmem, -, hkey, -⟩
  rw [h.key_eq hmem] at hkey
  exact h.group env _ hmem (hkey ▸ hthread)

/-- An exit that reaches the registry for a process with a leader is that of another thread. -/
theorem ThreadsUnreported.not_exits (hquiet : ThreadsUnreported isThread maps selfTgid steps)
    (hids : TaskIds isThread steps) {tgid : UInt32} (hleader : ∀ step ∈ steps, ¬step.LeaderExits tgid) :
    ¬∃ c ∈ callsOf maps selfTgid envs steps, c.Exits tgid := by
  rw [exits_iff]
  rintro ⟨env, hmem, hrep, hkey, -⟩
  rw [hids.key_eq hmem] at hkey
  by_cases hpid : env.pid = env.tgid
  · exact hleader _ hmem ⟨env.pidTgid, rfl, hpid.trans hkey, hkey⟩
  · obtain ⟨pre, post, rfl⟩ := List.append_of_mem hmem
    obtain ⟨step, hstep, hexit⟩ := hquiet.exits pre env post rfl hpid hrep
    exact hleader step (List.mem_append_left _ hstep) (hkey ▸ hexit)

section Registry
variable (hids : TaskIds isThread steps)
  (hfew : (EntityRegistry.run (callsOf maps selfTgid envs steps)).nextId ≤ kMaxEntries + 1)
  (hsame : SameStarts (callsOf maps selfTgid envs steps))
include hids hfew hsame

/-- A thread that is reported as a child stays behind as a live entity. -/
theorem phantom_of_started {child : UInt32} (hne : child ≠ 0) (hthread : isThread child)
    (hstart : ∃ c ∈ callsOf maps selfTgid envs steps, c.StartsChild ∧ c.ev.object.childPid = child) :
    ∃ id e, (EntityRegistry.run (callsOf maps selfTgid envs steps)).findProcess id = some e ∧
      e.exited = false ∧ e.key = child := by
  obtain ⟨c, hc, hchild⟩ := hstart
  have hmention : ∃ id ts, .mention child id ts ∈ history (callsOf maps selfTgid envs steps) :=
    mention_mem_historyFrom.mpr ⟨c, hc, hne, Or.inr hchild⟩
  obtain ⟨id, ts, hm⟩ := hmention
  have hkept := (kept_iff hfew hsame).mpr (hids.not_exits hthread) id ts hm
  obtain ⟨e, he, hlive, hkey⟩ := (run_consistent _).indexed child id hkept.1
  exact ⟨id, e, he, hlive, hkey⟩

theorem ThreadsUnreported.processesOnly (hquiet : ThreadsUnreported isThread maps selfTgid steps) :
    ProcessesOnly isThread steps (callsOf maps selfTgid envs steps) where
  kept := fun tgid hleader => (kept_iff hfew hsame).mpr (hquiet.not_exits hids hleader)
  no_threads := by
    intro id e he hlive hthread
    have hindex := (run_consistent _).live id e he hlive
    obtain ⟨ts, hm⟩ := mention_of_history_indexed hfew hsame hindex
    obtain ⟨c, hc, hne, hkey | hchild⟩ := mention_mem_historyFrom.mp ⟨id, ts, hm⟩
    · obtain ⟨env, hook, hmem, hactor⟩ := actor_of_mem_callsOf hc
      rw [hids.key_eq hmem, hkey] at hactor
      exact hids.group env hook hmem (hactor ▸ hthread)
    · obtain ⟨env, hook, kind, hmem, hkind, hrep, heq⟩ := (starts_iff hne).mp ⟨c, hc, hchild⟩
      exact hquiet.starts env hook kind hmem hkind hrep (heq.trans_ne hne) (heq ▸ hthread)

end Registry

/-- The exit of a thread that is reported while its process has a leader loses the process. -/
theorem not_processesOnly_of_exit (pre : List Step) {env : HookEnv}
    (hids : TaskIds isThread (pre ++ [.deliver env .schedExit]))
    (hfew : (EntityRegistry.run (callsOf maps selfTgid envs (pre ++ [.deliver env .schedExit]))).nextId ≤
      kMaxEntries + 1)
    (hsame : SameStarts (callsOf maps selfTgid envs (pre ++ [.deliver env .schedExit])))
    (hpid : env.pid ≠ env.tgid) (hrep : Reported maps selfTgid env .exit)
    (hleader : ∀ step ∈ pre, ¬step.LeaderExits env.tgid) :
    ¬ProcessesOnly isThread (pre ++ [.deliver env .schedExit])
      (callsOf maps selfTgid envs (pre ++ [.deliver env .schedExit])) := by
  intro h
  have hmem : .deliver env .schedExit ∈ pre ++ [.deliver env .schedExit] := by simp
  have hnone : ∀ step ∈ pre ++ [.deliver env .schedExit], ¬step.LeaderExits env.tgid := by
    intro step hstep
    rcases List.mem_append.mp hstep with hstep | hstep
    · exact hleader step hstep
    · obtain rfl := List.mem_singleton.mp hstep
      rintro ⟨pidTgid, hhit, hlow, -⟩
      cases hhit
      exact hpid hlow
  have hne : env.tgid ≠ 0 := fun hzero => hpid ((hids.idle env _ hmem hzero).trans hzero.symm)
  exact (kept_iff hfew hsame).mp (h.kept env.tgid hnone)
    (exits_iff.mpr ⟨env, hmem, hrep, hids.key_eq hmem, hne⟩)

/-- At every point of a run with too few tasks for an eviction, and in which no task's start time changes,
the registry holds exactly the live processes **if and only if** no exit of a thread is reported while its
process has a leader, and no thread as the child of a task. -/
theorem processesOnly_iff (isThread : UInt32 → Prop) (maps : ProbeMaps) (selfTgid : UInt32)
    (envs : Nat → IngestEnv) (steps : List Step) (hids : TaskIds isThread steps)
    (hfew : (EntityRegistry.run (callsOf maps selfTgid envs steps)).nextId ≤ kMaxEntries + 1)
    (hsame : SameStarts (callsOf maps selfTgid envs steps)) :
    (∀ pre, pre <+: steps → ProcessesOnly isThread pre (callsOf maps selfTgid envs pre)) ↔
      ThreadsUnreported isThread maps selfTgid steps := by
  -- what is assumed of the run holds of what came before
  have hbefore : ∀ pre more, steps = pre ++ more → TaskIds isThread pre ∧
      (EntityRegistry.run (callsOf maps selfTgid envs pre)).nextId ≤ kMaxEntries + 1 ∧
      SameStarts (callsOf maps selfTgid envs pre) := by
    rintro pre more rfl
    obtain ⟨rest, hrest⟩ := callsOf_append maps selfTgid envs pre more
    rw [hrest] at hfew hsame
    exact ⟨hids.of_append, Nat.le_trans (run_extends _ rest).next hfew, hsame.of_append⟩
  constructor
  · intro h
    refine ⟨fun pre env post hsplit hpid hrep => ?_, fun env hook kind hmem hkind hrep hne hthread => ?_⟩
    · by_contra hleader
      rw [List.append_cons] at hsplit
      obtain ⟨hids', hfew', hsame'⟩ := hbefore _ _ hsplit
      refine not_processesOnly_of_exit pre hids' hfew' hsame' hpid hrep (fun step hstep hexit => ?_)
        (h _ ⟨post, hsplit.symm⟩)
      exact hleader ⟨step, hstep, hexit⟩
    · obtain ⟨id, e, he, hlive, hkey⟩ := phantom_of_started hids hfew hsame hne hthread
        ((starts_iff hne).mpr ⟨env, hook, kind, hmem, hkind, hrep, rfl⟩)
      exact (h steps (List.prefix_refl steps)).no_threads id e he hlive (hkey ▸ hthread)
  · rintro hquiet pre ⟨more, rfl⟩
    obtain ⟨hids', hfew', hsame'⟩ := hbefore pre more rfl
    exact hquiet.of_append.processesOnly hids' hfew' hsame'

end Threads

/-! ## A process of two threads -/

section Process7

/-- Thread 8 of process 7. -/
abbrev thread8 : HookEnv := plainEnv 0x700000008

/-- Both threads of process 7 fork a process; then the given ones exit. -/
def forksThen (exits : List HookEnv) : List Step :=
  [.deliver env7 (.schedFork 200), .deliver thread8 (.schedFork 201)] ++
    exits.map fun env => .deliver env .schedExit

def quietCalls (steps : List Step) : List EntityRegistry.Call :=
  callsOf allProbes 1000 (fun _ => {}) steps

theorem quietCalls_same (steps : List Step) : SameStarts (quietCalls steps) := by
  refine sameStarts_of_unreadable fun c hc => ?_
  unfold quietCalls callsOf at hc
  obtain ⟨i, event, -, -, rfl⟩ := (mem_ingestCalls _ _).mp hc
  exact ⟨rfl, rfl⟩

theorem quietCalls_few {steps : List Step} (h : (quietCalls steps).length ≤ 4) :
    (EntityRegistry.run (quietCalls steps)).nextId ≤ kMaxEntries + 1 := by
  have hle := nextId_le (quietCalls steps)
  unfold kMaxEntries
  omega

/-- 8 is the only thread that leads no process. -/
theorem taskIds_forksThen {exits : List HookEnv} (h : ∀ env ∈ exits, env.tgid = 7) :
    TaskIds (· = 8) (forksThen exits) := by
  have htgid : ∀ env hook, .deliver env hook ∈ forksThen exits → env.tgid = 7 := by
    intro env hook hmem
    rcases List.mem_append.mp hmem with hmem | hmem
    · simp only [List.mem_cons, List.not_mem_nil, or_false] at hmem
      rcases hmem with hmem | hmem
      · cases hmem
        decide
      · cases hmem
        decide
    · obtain ⟨env', henv', heq⟩ := List.mem_map.mp hmem
      cases heq
      exact h env henv'
  refine ⟨fun env hook hmem heq => ?_, fun env hook hmem hzero => ?_⟩
  · rw [htgid env hook hmem] at heq
    exact absurd heq (by decide)
  · rw [htgid env hook hmem] at hzero
    exact absurd hzero (by decide)

/-- The leader exits before the other thread. -/
theorem processesOnly_iff_leaderFirst :
    (∀ pre, pre <+: forksThen [env7, thread8] → ProcessesOnly (· = 8) pre (quietCalls pre)) ↔
      ThreadsUnreported (· = 8) allProbes 1000 (forksThen [env7, thread8]) :=
  processesOnly_iff (· = 8) allProbes 1000 (fun _ => {}) (forksThen [env7, thread8])
    (taskIds_forksThen (by decide)) (quietCalls_few (by decide)) (quietCalls_same _)

/-- Thread 8 exits, and process 7 with it. -/
theorem not_processesOnly :
    ¬∀ (isThread : UInt32 → Prop) maps selfTgid envs steps, TaskIds isThread steps →
      (EntityRegistry.run (callsOf maps selfTgid envs steps)).nextId ≤ kMaxEntries + 1 →
      SameStarts (callsOf maps selfTgid envs steps) →
      ∀ pre, pre <+: steps → ProcessesOnly isThread pre (callsOf maps selfTgid envs pre) := by
  intro h
  have hids : TaskIds (· = 8) (forksThen [thread8]) := taskIds_forksThen (by decide)
  have hfew : (EntityRegistry.run (quietCalls (forksThen [thread8]))).nextId ≤ kMaxEntries + 1 :=
    quietCalls_few (by decide)
  have hsame := quietCalls_same (forksThen [thread8])
  refine not_processesOnly_of_exit (forksThen []) hids hfew hsame (by decide)
    ⟨by decide, rfl, by decide⟩ ?_ (h _ _ _ _ _ hids hfew hsame _ (List.prefix_refl _))
  intro step hstep
  simp only [forksThen, List.map_nil, List.append_nil, List.mem_cons, List.not_mem_nil, or_false] at hstep
  rcases hstep with rfl | rfl <;> rintro ⟨pidTgid, hhit, -⟩ <;> cases hhit

end Process7

end ETraceGen
