import ETraceGen.Bpf.Records
import ETraceGen.Normalizer
import ETraceGen.Registry.Identity

/-!
# Reports of a creation

A task creation reaches the registry as a `kProcessStarted` event that names the child's pid. The same
creation is reported twice, by the fork tracepoint and by the exit of the system call, and the pid may
have belonged to a process before.

* `oneChild_iff` : the two reports of one creation name one child exactly if the child's exit was not
  ingested between them;
* `newIdentity_iff` : after a lost exit, the creation of the next process of the pid is told apart from
  the old one exactly if the reuse check says so.
-/

namespace ETraceGen.EntityRegistry

open FreshNames

/-- The event reports the creation of the child. -/
structure Call.Creates (child : UInt32) (c : Call) : Prop where
  action : c.ev.action = .processStarted
  childPid : c.ev.object.childPid = child
  ne_zero : child ≠ 0

theorem Call.Creates.starts {child : UInt32} {c : Call} (h : c.Creates child) : c.StartsChild :=
  ⟨h.action, h.childPid.trans_ne h.ne_zero⟩

/-- The last that a report of a creation mentions is the child. -/
theorem Call.Creates.history {child : UInt32} {c : Call} (h : c.Creates child) (r : EntityRegistry) :
    ∃ seen, c.history r = seen ++ [.mention child (c.out r).objectRef.id c.ev.tsNs] ∧
      ∀ key, .exited key ∉ seen := by
  have hsplit : ∃ seen, c.history r =
      seen ++ [.mention child (c.out r).objectRef.id c.ev.tsNs] := by
    rw [Call.history, if_pos h.starts, h.childPid]
    exact ⟨_, rfl⟩
  obtain ⟨seen, hseen⟩ := hsplit
  refine ⟨seen, hseen, fun key hm => ?_⟩
  have hmem : .exited key ∈ c.history r := by
    rw [hseen]
    exact List.mem_append_left _ hm
  have hexit := (Call.exited_mem_history.mp hmem).1
  rw [h.action] at hexit
  cases hexit

/-- The `Ingest` of a process record. -/
def processReport (env : IngestEnv) (record : ProcessEvent) : Call where
  env := env
  ev := Normalizer.normalize (.process record)

theorem processReport_creates (env : IngestEnv) {record : ProcessEvent} {kind : ProcessEventKind}
    (hkind : record.kind = kind.code) (hstart : kind ∈ [.fork, .clone, .clone3, .vfork])
    (hchild : record.childPid ≠ 0) : (processReport env record).Creates record.childPid := by
  have haction : Normalizer.processAction record.kind = .processStarted := by
    rw [hkind, Normalizer.processAction_code]
    cases kind <;> first | rfl | simp at hstart
  refine ⟨?_, Normalizer.normalize_childPid haction, hchild⟩
  rw [processReport, Normalizer.normalize_process_action, haction]

/-! ## Two reports of one creation -/

/-- Both reports name one entity, and the child is not left alive once its exit was ingested. -/
structure OneChild (pre : List Call) (first : Call) (mid : List Call) (second : Call)
    (child : UInt32) : Prop where
  same_ref : (first.out (run pre)).objectRef.id =
    (second.out (run (pre ++ first :: mid))).objectRef.id
  no_phantom : (∃ c ∈ mid, c.Exits child) → ∀ id e,
    (run (pre ++ first :: mid ++ [second])).findProcess id = some e → e.key = child → e.exited = true

/-- The ids two reports attach are the same exactly if the child did not exit in between. -/
theorem same_child_iff (pre mid : List Call) (first second : Call) (child : UInt32)
    (hfirst : first.Creates child) (hsecond : second.Creates child)
    (hfew : (run (pre ++ first :: mid ++ [second])).nextId ≤ kMaxEntries + 1)
    (hsame : SameStartFrom (run pre) (first :: mid ++ [second]) child) :
    (first.out (run pre)).objectRef.id = (second.out (run (pre ++ first :: mid))).objectRef.id ↔
      ¬∃ c ∈ mid, c.Exits child := by
  obtain ⟨seen, hseen, hno⟩ := hfirst.history (run pre)
  obtain ⟨seen', hseen', hno'⟩ := hsecond.history (run (pre ++ first :: mid))
  have hcons := run_consistent pre
  obtain ⟨log, hlog, hfilter, hreused⟩ := (historyFrom_logs hcons (first :: mid ++ [second])).exists_log
  rw [← run_append, ← List.append_assoc] at hlog
  have hmid : (first :: mid).foldl (fun r c => c.next r) (run pre) = run (pre ++ first :: mid) :=
    (run_append pre (first :: mid)).symm
  rw [historyFrom_snoc, hmid, hseen', historyFrom, hseen] at hfilter
  have hcut : log.filter Entry.observed =
      seen ++ .mention child (first.out (run pre)).objectRef.id first.ev.tsNs ::
        (historyFrom (first.next (run pre)) mid ++ seen') ++
        .mention child (second.out (run (pre ++ first :: mid))).objectRef.id second.ev.tsNs :: [] := by
    rw [hfilter]
    simp
  obtain ⟨pre', mid', post', rfl, -, hmid', -⟩ := split_filter hcut
  rw [hlog.same_id_iff_key hcons]
  refine ⟨fun h hexit => h.2 (Or.inl ?_), fun h => ⟨rfl, ?_⟩⟩
  · have hm : .exited child ∈ mid'.filter Entry.observed := by
      rw [hmid']
      exact List.mem_append_left _ (exited_mem_historyFrom.mpr hexit)
    exact List.mem_of_mem_filter hm
  · rintro (hm | hm | ⟨id, hm⟩)
    · have hm' : .exited child ∈ mid'.filter Entry.observed := List.mem_filter.mpr ⟨hm, rfl⟩
      rw [hmid'] at hm'
      rcases List.mem_append.mp hm' with hm' | hm'
      · exact h (exited_mem_historyFrom.mp hm')
      · exact hno' child hm'
    · exact hreused child hsame (by simp [hm])
    · have hevict := hlog.evicted_lt hcons
        (show Entry.evicted child id ∈ _ by simp [hm])
      omega

/-- **A creation that is reported twice yields one child** exactly if the child's exit was not ingested
between the reports. The two records may come from one parent, as those of one creation do, or not. -/
theorem oneChild_iff (pre mid : List Call) (env env' : IngestEnv) (fork second : ProcessEvent)
    (kind : ProcessEventKind) (hfork : fork.kind = ProcessEventKind.fork.code)
    (hsecond : second.kind = kind.code) (hkind : kind ∈ [.clone, .clone3, .vfork])
    (hchild : second.childPid = fork.childPid) (hpid : fork.childPid ≠ 0)
    (hfew : (run (pre ++ processReport env fork :: mid ++ [processReport env' second])).nextId ≤
      kMaxEntries + 1)
    (hsame : SameStartFrom (run pre) (processReport env fork :: mid ++ [processReport env' second])
      fork.childPid) :
    OneChild pre (processReport env fork) mid (processReport env' second) fork.childPid ↔
      ¬∃ c ∈ mid, c.Exits fork.childPid := by
  have hfirst := processReport_creates env hfork (by decide) hpid
  have hother := processReport_creates env' hsecond (List.mem_cons_of_mem _ hkind)
    (hchild.trans_ne hpid)
  rw [hchild] at hother
  have hiff := same_child_iff pre mid _ _ _ hfirst hother hfew hsame
  exact ⟨fun h => hiff.mp h.same_ref, fun h => ⟨hiff.mpr h, fun hexit => absurd hexit h⟩⟩

section Vfork

open Bpf

/-- The two records of process 7's `vfork` of process 200. -/
def forkRecord : ProcessEvent := processRecord env7 (.schedFork 200) .fork
def vforkRecord : ProcessEvent := processRecord env7 (.exitVfork 200) .vfork

/-- The two reports, with the exit of the given process in between. -/
def vforkRun (exited : UInt32) : List Call :=
  [processReport {} forkRecord, processCall exited .processExited 1 0, processReport {} vforkRecord]

theorem vforkRun_few (exited : UInt32) : (run (vforkRun exited)).nextId ≤ kMaxEntries + 1 := by
  have hlen : (vforkRun exited).length = 3 := rfl
  have hle := nextId_le (vforkRun exited)
  unfold kMaxEntries
  omega

theorem vforkRun_same (exited : UInt32) : SameStartFrom {} (vforkRun exited) 200 := by
  refine (sameStarts_of_unreadable fun c hc => ?_).of
  simp only [vforkRun, List.mem_cons, List.not_mem_nil, or_false] at hc
  rcases hc with rfl | rfl | rfl <;> exact ⟨rfl, rfl⟩

/-- Process 300 exits between the reports. -/
theorem oneChild_iff_otherExit :
    OneChild [] (processReport {} forkRecord) [processCall 300 .processExited 1 0]
        (processReport {} vforkRecord) forkRecord.childPid ↔
      ¬∃ c ∈ [processCall 300 .processExited 1 0], c.Exits forkRecord.childPid :=
  oneChild_iff [] [processCall 300 .processExited 1 0] {} {} forkRecord vforkRecord .vfork rfl rfl
    (by decide) rfl (by decide) (vforkRun_few 300) (vforkRun_same 300)

/-- The child exits between the reports, and the second one brings it back. -/
theorem not_oneChild :
    ¬ ∀ pre mid env env' (fork second : ProcessEvent) (kind : ProcessEventKind),
      fork.kind = ProcessEventKind.fork.code → second.kind = kind.code →
      kind ∈ [.clone, .clone3, .vfork] → second.hdr.tgid = fork.hdr.tgid →
      second.childPid = fork.childPid → fork.childPid ≠ 0 →
      (run (pre ++ processReport env fork :: mid ++ [processReport env' second])).nextId ≤
        kMaxEntries + 1 →
      SameStartFrom (run pre) (processReport env fork :: mid ++ [processReport env' second])
        fork.childPid →
      OneChild pre (processReport env fork) mid (processReport env' second) fork.childPid := by
  intro h
  have hone := h [] [processCall 200 .processExited 1 0] {} {} forkRecord vforkRecord .vfork rfl rfl
    (by decide) rfl rfl (by decide) (vforkRun_few 200) (vforkRun_same 200)
  have hpid : (200 : UInt32) ≠ 0 := by decide
  have hfirst : (processReport {} forkRecord).Creates 200 :=
    processReport_creates {} (show forkRecord.kind = ProcessEventKind.fork.code from rfl) (by decide) hpid
  have hsecond : (processReport {} vforkRecord).Creates 200 :=
    processReport_creates {} (show vforkRecord.kind = ProcessEventKind.vfork.code from rfl) (by decide)
      hpid
  have hiff := same_child_iff [] [processCall 200 .processExited 1 0] _ _ 200 hfirst hsecond
    (vforkRun_few 200) (vforkRun_same 200)
  exact hiff.mp hone.same_ref ⟨_, List.mem_singleton_self _, rfl, rfl, hpid⟩

end Vfork

/-! ## A creation after a lost exit -/

/-- The old process of the pid is mentioned in `old`, the new one in its creation and in `later`: none of
the ids attached to the old one is attached to the new one. -/
structure NewIdentity (before old : List Call) (creation : Call) (later : List Call)
    (tgid : UInt32) : Prop where
  object_ref : ∀ id ts, .mention tgid id ts ∈ historyFrom (run before) old →
    (creation.out (run (before ++ old))).objectRef.id ≠ id
  mentions : ∀ id ts id' ts', .mention tgid id ts ∈ historyFrom (run before) old →
    .mention tgid id' ts' ∈ historyFrom (run (before ++ old ++ [creation])) later → id' ≠ id

/-- When the child is looked up, no entity is indexed for its pid, or the check finds it reused: its start
time is known, its last check is long enough ago, and another start time is read. -/
def Call.TellsApart (c : Call) (r : EntityRegistry) (tgid : UInt32) : Prop :=
  ∀ id e, (c.resolved r).1.tgidIndex.lookup tgid = some id →
    (c.resolved r).1.findProcess id = some e →
    e.ChecksIdentity c.ev.tsNs ∧
      ProcessEntity.readStartTimeTicks c.env.child.proc.identityStat ≠ 0 ∧
      ProcessEntity.readStartTimeTicks c.env.child.proc.identityStat ≠ e.startTimeTicks

/-- The child is given a fresh id, or the one its pid is indexed with. -/
theorem Call.Creates.objectRef_cases {c : Call} {r : EntityRegistry} {tgid : UInt32}
    (hr : r.Consistent) (h : c.Creates tgid) :
    (c.TellsApart r tgid ∧ (c.out r).objectRef.id = (c.resolved r).1.nextId) ∨
      ¬c.TellsApart r tgid ∧
        (c.resolved r).1.tgidIndex.lookup tgid = some (c.out r).objectRef.id := by
  have hcons := (c.resolved_logs hr).consistent hr
  have hkey : c.child.key = tgid := (c.child_key h.starts.2).trans h.childPid
  have hne : c.child.key ≠ 0 := hkey.trans_ne h.ne_zero
  rw [c.out_objectRef r h.starts, Call.childResolved]
  cases hindex : (c.resolved r).1.tgidIndex.lookup tgid with
  | none =>
    left
    refine ⟨fun id e hi _ => absurd (hindex.symm.trans hi) (by simp), ?_⟩
    rw [resolveProcess_new c.env.child c.child c.ev.tsNs true hne (by rw [hkey, hindex]),
      createProcess_eq]
  | some id =>
    obtain ⟨e, hstored, -, -⟩ := hcons.indexed _ _ hindex
    have hindex' : (c.resolved r).1.tgidIndex.lookup c.child.key = some id := by rw [hkey, hindex]
    cases hreused : (ProcessEntity.isReused c.env.child.proc.identityStat c.ev.tsNs e).1 with
    | false =>
      right
      refine ⟨fun htells => ?_, ?_⟩
      · have htrue := ProcessEntity.isReused_iff.mpr (htells id e hindex hstored)
        rw [hreused] at htrue
        cases htrue
      · rw [resolveProcess_found c.env.child c.child c.ev.tsNs true hne hindex' hstored hreused]
    | true =>
      left
      refine ⟨fun id' e' hi he => ?_, ?_⟩
      · obtain rfl := Option.some.inj (hindex.symm.trans hi)
        obtain rfl := Option.some.inj (hstored.symm.trans he)
        exact ProcessEntity.isReused_iff.mp hreused
      · obtain ⟨-, -, hnext, -⟩ := afterReuse_edit c.env.child c.child c.ev.tsNs hcons hindex' hstored
        rw [resolveProcess_reused c.env.child c.child c.ev.tsNs true hne hindex' hstored hreused,
          createProcess_eq]
        exact hnext

/-- The indexed id of a key that a log mentions was attached to the key in that log. -/
theorem Edits.mention_of_indexed {r r' : EntityRegistry} {log : List Entry} (h : Edits r log r')
    {key : UInt32} {id i : Nat} {ts : UInt64} (hindex : r'.tgidIndex.lookup key = some id)
    (hm : .mention key i ts ∈ log) : ∃ ts', .mention key id ts' ∈ log := by
  obtain ⟨hnames, hfaith⟩ := h.names
  have hcur : (r.names.replay (log.map Entry.note)).current key = some id := by
    rw [← hnames]
    exact hindex
  rcases hfaith.current_iff.mp hcur with ⟨hold, hkept⟩ | ⟨pre, post, hnotes, -⟩
  · obtain rfl := hfaith.given_eq hold hkept (List.mem_map_of_mem (f := Entry.note) hm)
    exact ⟨ts, hm⟩
  · rw [← given_mem_notes, hnotes]
    simp

/-- A key that has lost an id never gets it back. -/
theorem Edits.later_ne {r r' : EntityRegistry} {pre mid mid' post : List Entry} {key : UInt32}
    {i j k : Nat} {ts ts' ts'' : UInt64} (hr : r.Consistent)
    (h : Edits r (pre ++ .mention key i ts :: mid ++ .mention key j ts' :: mid' ++
      .mention key k ts'' :: post) r') (hne : j ≠ i) : k ≠ i := by
  have hfirst : Edits r (pre ++ .mention key i ts :: mid ++
      .mention key j ts' :: (mid' ++ .mention key k ts'' :: post)) r' := by
    simpa using h
  have hlast : Edits r (pre ++ .mention key i ts :: (mid ++ .mention key j ts' :: mid') ++
      .mention key k ts'' :: post) r' := by
    simpa using h
  rintro rfl
  have hkept := ((hlast.same_id_iff_key hr).mp rfl).2
  refine hne ((hfirst.same_id_iff_key hr).mpr ⟨rfl, fun hmem => hkept ?_⟩).symm
  rcases hmem with hm | hm | ⟨id, hm⟩
  · exact Or.inl (List.mem_append_left _ hm)
  · exact Or.inr (Or.inl (List.mem_append_left _ hm))
  · exact Or.inr (Or.inr ⟨id, List.mem_append_left _ hm⟩)

/-- An id that the pid has lost when the creation is reported is not attached to it later. -/
theorem later_ne_of_objectRef_ne {before old later : List Call} {c : Call} {tgid : UInt32}
    (h : c.Creates tgid) {id id' : Nat} {ts ts' : UInt64}
    (hold : .mention tgid id ts ∈ historyFrom (run before) old)
    (hne : (c.out (run (before ++ old))).objectRef.id ≠ id)
    (hlater : .mention tgid id' ts' ∈ historyFrom (run (before ++ old ++ [c])) later) : id' ≠ id := by
  obtain ⟨seen, hseen, -⟩ := h.history (run (before ++ old))
  obtain ⟨pre, mid, hold⟩ := List.append_of_mem hold
  obtain ⟨mid', post, hlater⟩ := List.append_of_mem hlater
  have hcons := run_consistent before
  obtain ⟨log, hlog, hfilter, -⟩ := (historyFrom_logs hcons (old ++ c :: later)).exists_log
  rw [historyFrom_append, ← run_append, historyFrom, ← run_snoc, hold, hlater, hseen] at hfilter
  have hcut : log.filter Entry.observed = pre ++ .mention tgid id ts :: (mid ++ seen) ++
      .mention tgid (c.out (run (before ++ old))).objectRef.id c.ev.tsNs ::
        (mid' ++ .mention tgid id' ts' :: post) := by
    rw [hfilter]
    simp
  obtain ⟨pre₁, mid₁, post₁, rfl, -, -, hpost₁⟩ := split_filter hcut
  obtain ⟨mid₂, rest, rfl, -, hrest⟩ := List.filter_eq_append_iff.mp hpost₁
  obtain ⟨skip, post₂, rfl, -, -, -⟩ := List.filter_eq_cons_iff.mp hrest
  have hlog' : ∃ r', Edits (run before) (pre₁ ++ .mention tgid id ts :: mid₁ ++
      .mention tgid (c.out (run (before ++ old))).objectRef.id c.ev.tsNs :: (mid₂ ++ skip) ++
      .mention tgid id' ts' :: post₂) r' := ⟨_, by simpa using hlog⟩
  obtain ⟨r', hlog'⟩ := hlog'
  exact hlog'.later_ne hcons hne

/-- **Identity after a lost exit**: the creation of the next process of a pid gives it an id that the old
process never had exactly if it is told apart when it is looked up. -/
theorem newIdentity_iff (before old : List Call) (creation : Call) (later : List Call) (tgid : UInt32)
    (hcreates : creation.Creates tgid) (hparent : creation.ev.actor.key ≠ tgid)
    (hold : ∃ id ts, .mention tgid id ts ∈ historyFrom (run before) old) :
    NewIdentity before old creation later tgid ↔ creation.TellsApart (run (before ++ old)) tgid := by
  have hcons := run_consistent before
  have hcons' := run_consistent (before ++ old)
  obtain ⟨log, hlog, hfilter, -⟩ := (historyFrom_logs hcons old).exists_log
  obtain ⟨log', hlog', hfilter', -⟩ := (creation.resolved_logs hcons').exists_log
  rw [← run_append] at hlog
  have hall := hlog.trans hlog'
  rcases hcreates.objectRef_cases hcons' with ⟨htells, hfresh⟩ | ⟨hno, hindex⟩
  · refine iff_of_true ?_ htells
    have hne : ∀ id ts, .mention tgid id ts ∈ historyFrom (run before) old →
        (creation.out (run (before ++ old))).objectRef.id ≠ id := by
      intro id ts hm
      rw [← hfilter] at hm
      have hlt := (hall.mention_lt hcons (List.mem_append_left _ (List.mem_of_mem_filter hm))).2
      rw [hfresh]
      omega
    exact ⟨hne, fun id ts id' ts' hm hm' =>
      later_ne_of_objectRef_ne hcreates hm (hne id ts hm) hm'⟩
  · refine iff_of_false (fun h => ?_) hno
    obtain ⟨i, ts, hm⟩ := hold
    rw [← hfilter] at hm
    obtain ⟨ts', hm'⟩ := hall.mention_of_indexed hindex
      (List.mem_append_left _ (List.mem_of_mem_filter hm))
    rcases List.mem_append.mp hm' with hm' | hm'
    · refine h.object_ref _ ts' ?_ rfl
      rw [← hfilter]
      exact List.mem_filter.mpr ⟨hm', rfl⟩
    · -- the only mention in between is the parent's
      have hseen : .mention tgid _ ts' ∈ log'.filter Entry.observed := List.mem_filter.mpr ⟨hm', rfl⟩
      rw [hfilter'] at hseen
      split_ifs at hseen
      · simp at hseen
      · obtain ⟨hkey, -, -⟩ := Entry.mention.inj (List.mem_singleton.mp hseen)
        exact hparent hkey.symm

section LostExit

/-- `/proc/200/stat` with the given start time, a digit. -/
def statOf (ticks : UInt8) : Option Bytes :=
  some ("200 (a) S 1 1 1 1 1 1 1 1 1 1 1 1 1 1 1 1 1 1 ".toList.map (fun c => c.toUInt8) ++ [ticks])

/-- Process 200, whose start time is read when it is first seen. -/
def oldInstance (ticks : Option Bytes) : Call :=
  { processCall 200 .processExeced 1 0 with env := { subject := { proc := { stat := ticks } } } }

/-- The creation of the next process 200 by process 100, a second later. -/
def nextInstance (ticks : Option Bytes) : Call :=
  { processCall 100 .processStarted 1000000001 200 with
    env := { child := { proc := { identityStat := ticks } } } }

theorem nextInstance_creates (ticks : Option Bytes) : (nextInstance ticks).Creates 200 :=
  ⟨rfl, rfl, by decide⟩

theorem oldInstance_mention (ticks : Option Bytes) :
    .mention 200 1 1 ∈ historyFrom (run []) [oldInstance ticks] := by
  rw [historyFrom, historyFrom, List.append_nil, Call.history, Call.out_subject]
  have hkey : (oldInstance ticks).ev.actor.key = 200 := rfl
  have hid : (Call.resolved (oldInstance ticks) (run [])).2 = 1 := by
    rw [Call.resolved, resolveProcess_new _ _ _ _ (hkey.trans_ne (by decide)) rfl, createProcess_eq]
    rfl
  rw [hid]
  exact List.mem_cons_self

/-- Both start times are read. -/
theorem newIdentity_iff_bothRead :
    NewIdentity [] [oldInstance (statOf 53)] (nextInstance (statOf 54)) [] 200 ↔
      (nextInstance (statOf 54)).TellsApart (run ([] ++ [oldInstance (statOf 53)])) 200 :=
  newIdentity_iff [] [oldInstance (statOf 53)] (nextInstance (statOf 54)) [] 200
    (nextInstance_creates _) (by decide) ⟨1, 1, oldInstance_mention _⟩

/-- Nothing is readable in `/proc`, and the new process is given the old one's id. -/
theorem not_newIdentity :
    ¬ ∀ before old (creation : Call) later tgid, creation.Creates tgid →
      creation.ev.actor.key ≠ tgid →
      (∃ id ts, .mention tgid id ts ∈ historyFrom (run before) old) →
      (∀ c ∈ old, ¬c.Exits tgid) → NewIdentity before old creation later tgid := by
  intro h
  have hnew := h [] [oldInstance none] (nextInstance none) [] 200 (nextInstance_creates _) (by decide)
    ⟨1, 1, oldInstance_mention _⟩ (by
      intro c hc hexit
      obtain rfl := List.mem_singleton.mp hc
      cases hexit.1)
  exact hnew.object_ref 1 1 (oldInstance_mention _) (by decide)

end LostExit

end ETraceGen.EntityRegistry
