import ETraceGen.Bpf.Reports
import ETraceGen.System.Output
import ETraceGen.Transport

/-!
# What each line says

Every line of the output reads back as an object that tells of one hit of a hook, and of a call also what its enter
was given. The lines are in the order of the hits, and no call is told of twice.

* `processSays`, `fileSays`, `syscallSays`, `networkSays` : what is said of a hit;
* `Explains` : an object says it;
* `lines_explained` : the lines of the file.
-/

namespace ETraceGen

open Bpf JsonSink

namespace System

/-! ## What is said -/

/-- What a reader finds under these names. -/
def Says (sayings : List (String × Json)) (members : List (List UInt16 × Json)) : Prop :=
  ∀ s ∈ sayings, member? s.1 members = some s.2

def headerSays (t : EventType) (env : HookEnv) (tsNs : UInt64) : List (String × Json) :=
  [("ts_ns", int tsNs.toNat),
    ("type", text (str t.label)),
    ("pid", int env.pid.toNat),
    ("tgid", int env.tgid.toNat)]

def processSays (env : HookEnv) (hook : Hook) (kind : ProcessEventKind) : List (String × Json) :=
  headerSays .process env env.ktimeFill ++
    [("kind", int kind.code.toNat),
      ("exit_code", int (hook.exitCode env).toNat),
      ("child_pid", int hook.childPid.toNat)]

def fileSays (enterEnv : HookEnv) (args : SyscallArgs) (env : HookEnv) (kind : FileEventKind) (ret : Int64) :
    List (String × Json) :=
  headerSays .file env env.ktimeExit ++
    [("kind", int kind.code.toNat),
      ("ret", int ret.toInt32.toInt),
      ("path_a", text (userPath enterEnv.mem args.path)),
      ("path_b", text (secondPath enterEnv.mem args kind))]

def syscallSays (env : HookEnv) (nr : Int32) (ret : Int64) : List (String × Json) :=
  headerSays .syscall env env.ktimeExit ++
    [("is_enter", int 0),
      ("syscall_nr", int nr.toInt),
      ("ret", int ret.toInt)]

def networkSays (args : SyscallArgs) (env : HookEnv) (kind : NetworkEventKind) (ret : Int64) : List (String × Json) :=
  headerSays .network env env.ktimeExit ++
    [("event_name", text (str kind.label)),
      ("kind", int kind.code.toNat),
      ("fd", int (callFd args env ret kind).toInt),
      ("ret", int ret.toInt32.toInt),
      ("direction", text (str (inferNetworkDirection kind).label))]

/-- The object tells of the hits. -/
inductive Explains (steps : List Step) : RecordOrigin → Json → Prop where
  | process {i : Nat} {env : HookEnv} {hook : Hook} {kind : ProcessEventKind} {members : List (List UInt16 × Json)}
    (hhit : steps[i]? = some (.deliver env hook)) (hkind : processKind? hook = some kind)
    (htold : Says (processSays env hook kind) members) : Explains steps ⟨i, none⟩ (.obj members)
  | file {i n : Nat} {env enterEnv : HookEnv} {kind : FileEventKind} {args : SyscallArgs} {ret : Int64}
    {members : List (List UInt16 × Json)} (hlt : n < i)
    (hhit : steps[i]? = some (.deliver env (.exitFile kind ret)))
    (hentered : steps[n]? = some (.deliver enterEnv (.enterFile kind args)))
    (htask : enterEnv.pidTgid = env.pidTgid) (htold : Says (fileSays enterEnv args env kind ret) members) :
    Explains steps ⟨i, some n⟩ (.obj members)
  | syscall {i n : Nat} {env enterEnv : HookEnv} {nr : Int32} {args : SyscallArgs} {ret : Int64}
    {members : List (List UInt16 × Json)} (hlt : n < i)
    (hhit : steps[i]? = some (.deliver env (.rawExit nr ret)))
    (hentered : steps[n]? = some (.deliver enterEnv (.rawEnter nr args)))
    (htask : enterEnv.pidTgid = env.pidTgid) (htold : Says (syscallSays env nr ret) members) :
    Explains steps ⟨i, some n⟩ (.obj members)
  | network {i n : Nat} {env enterEnv : HookEnv} {kind : NetworkEventKind} {args : SyscallArgs} {ret : Int64}
    {members : List (List UInt16 × Json)} (hlt : n < i)
    (hhit : steps[i]? = some (.deliver env (.exitNetwork kind ret)))
    (hentered : steps[n]? = some (.deliver enterEnv (.enterNetwork kind args)))
    (htask : enterEnv.pidTgid = env.pidTgid) (htold : Says (networkSays args env kind ret) members) :
    Explains steps ⟨i, some n⟩ (.obj members)

/-! ## The members of an event -/

section
variable {canonical : CanonicalEvent} {env : HookEnv} {sayings : List (String × Json)} {tsNs : UInt64}

theorem eventTypeToString_code (t : EventType) : eventTypeToString t.code = t.label := by
  cases t <;> rfl

theorem networkEventKindToString_code (kind : NetworkEventKind) : networkEventKindToString kind.code = kind.label := by
  cases kind <;> rfl

theorem networkDirectionToString_code (direction : NetworkEventDirection) :
    networkDirectionToString direction.code = direction.label := by
  cases direction <;> rfl

theorem headerSays_mem {t : EventType} {hdr : EventHeader} (h : Envelope env t hdr) (hts : hdr.tsNs = tsNs) :
    ∀ s ∈ headerSays t env tsNs, field s.1 s.2 ∈ headerMembers hdr := by
  simp [headerSays, headerMembers, h.type, h.pid, h.tgid, hts, eventTypeToString_code]

/-- No name stands twice in an object, so a member that is in it is the one that is found. -/
theorem says_event (event : EventVariant) {t : EventType} (h : Envelope env t event.hdr)
    (hts : event.hdr.tsNs = tsNs)
    (hfamily : ∀ s ∈ sayings, field s.1 s.2 ∈ variantMembers canonical.subjectProcess event) :
    Says (headerSays t env tsNs ++ sayings) (eventMembers canonical event) := by
  have hnames : ((eventMembers canonical event).map Prod.fst).Nodup :=
    (nodup_names event.type).sublist (names_sublist canonical event)
  intro s hs
  apply member?_of_mem hnames
  rw [eventMembers, List.mem_append]
  rcases List.mem_append.mp hs with hs | hs
  · exact Or.inl (headerSays_mem h hts s hs)
  · right
    exact List.mem_cons_of_mem _ (List.mem_cons_of_mem _ (List.mem_append_right _ (hfamily s hs)))

end

theorem explains_of_made {maps : ProbeMaps} {steps : List Step} {o : RecordOrigin} {record : EventVariant}
    (h : Made maps steps o record) (canonical : CanonicalEvent) : Explains steps o (eventJson canonical record) := by
  cases h with
  | @reported i env hook kind hhit hkind =>
    obtain ⟨henv, hcode⟩ := processRecord_envelope env hook kind
    obtain ⟨hexit, hchild⟩ := processRecord_says env hkind
    have hts : (processRecord env hook kind).hdr.tsNs = env.ktimeFill := by
      rw [processRecord, (fillProcess_hdr env hook _).1]
      rfl
    refine .process hhit hkind (says_event (.process _) henv hts ?_)
    simp [variantMembers, processMembers, hcode, hexit, hchild]
  | @completed i n env enterEnv hook enter slot record hhit hexit hgate hroom hopen hmade =>
    have hlt : n < i := lt_of_lt_of_le hopen.lt (List.length_take_le i steps)
    have hentered : steps[n]? = some (.deliver enterEnv enter) := (List.getElem?_take_of_lt hlt).symm.trans hopen.hit
    have htask := hopen.saves.task
    have henter := hopen.saves.enters
    have hsource : Source steps env hook record :=
      .paired (List.mem_of_getElem? hentered) htask henter hexit hmade
    have henv := hsource.envelope
    cases hook with
    | exitFile kind ret =>
      cases hexit
      cases enter with
      | enterFile kind' args =>
        cases henter
        obtain rfl := Option.some.inj hmade
        obtain ⟨hpathA, hpathB⟩ := filePayload_paths enterEnv kind args
        have hkind := (filePayload_envelope enterEnv kind args).2
        refine .file hlt hhit hentered htask (says_event (.file _) henv rfl ?_)
        simp [variantMembers, fileMembers, finishFileEvent, hkind, hpathA, hpathB]
      | _ => cases henter
    | rawExit nr ret =>
      cases hexit
      cases enter with
      | rawEnter nr' args =>
        cases henter
        obtain rfl := Option.some.inj hmade
        refine .syscall hlt hhit hentered htask (says_event (.syscall _) henv rfl ?_)
        simp [variantMembers, syscallMembers, finishSyscallEvent, syscallPayload, fillSyscall]
      | _ => cases henter
    | exitNetwork kind ret =>
      cases hexit
      cases enter with
      | enterNetwork kind' args =>
        cases henter
        obtain rfl := Option.some.inj hmade
        obtain ⟨hhdr, hkind, hret⟩ := finishNetworkEvent_envelope env kind ret (networkPayload enterEnv kind args)
        obtain ⟨hfd, hdirection⟩ := networkRecord_says enterEnv env kind args ret
        rw [(networkPayload_envelope enterEnv kind args).2] at hkind
        have hts : (finishNetworkEvent env kind ret (networkPayload enterEnv kind args)).hdr.tsNs = env.ktimeExit := by
          rw [hhdr]
        refine .network hlt hhit hentered htask (says_event (.network _) henv hts ?_)
        simp [variantMembers, networkMembers, hkind, hret, hfd, hdirection, networkEventKindToString_code,
          networkDirectionToString_code]
      | _ => cases henter
    | _ => cases hexit

/-! ## The lines of a run -/

/-- The hit is not one of the daemon itself. -/
def foreignHit (steps : List Step) (selfTgid : UInt32) (o : RecordOrigin) : Bool :=
  (steps[o.hit]?).any fun step => step.tgid != selfTgid

theorem foreignHit_of_made {maps : ProbeMaps} {steps : List Step} {o : RecordOrigin} {record : EventVariant}
    (h : Made maps steps o record) (selfTgid : UInt32) :
    foreignHit steps selfTgid o = !isSelfEvent record selfTgid := by
  obtain ⟨env, hook, hhit, htgid⟩ : ∃ env hook, steps[o.hit]? = some (.deliver env hook) ∧
      record.hdr.tgid = env.tgid := by
    cases h with
    | reported hhit hkind => exact ⟨_, _, hhit, (processRecord_envelope _ _ _).1.tgid⟩
    | @completed i n env enterEnv hook enter slot record hhit hexit hgate hroom hopen hmade =>
      have hsource : Source (steps.take i) env hook record :=
        .paired (List.mem_of_getElem? hopen.hit) hopen.saves.task hopen.saves.enters hexit hmade
      exact ⟨env, hook, hhit, hsource.envelope.tgid⟩
  rw [foreignHit, hhit, isSelfEvent, htgid]
  rfl

section
variable {maps : ProbeMaps} {selfTgid : UInt32} {senv : SinkEnv} {file : Option Bytes} {limit : UInt64}

/-- The records that are written, each with the hits it comes from. -/
theorem written_made (maps : ProbeMaps) (selfTgid : UInt32) (sink : JsonSink) (moves : List Move)
    {made : List (RecordOrigin × EventVariant)}
    (hrecords : made.map Prod.snd = (Bpf.run maps (Feed.produced moves)).events.records) :
    (events maps selfTgid sink moves).map Prod.snd =
      ((made.take (run maps selfTgid sink moves).taken).filter fun m => !isSelfEvent m.2 selfTgid).map Prod.snd := by
  have htake := List.prefix_iff_eq_take.mp (@told_records maps selfTgid sink moves)
  rw [List.length_map, ← run_taken] at htake
  unfold records at htake
  rw [events_records, htake, ← hrecords, ← List.map_take, List.filter_map]
  rfl

/-- Two lists that agree where they are mapped to, as a list of pairs. -/
theorem exists_pairs {α β γ : Type} {f : α → γ} {g : β → γ} {as : List α} {bs : List β}
    (h : as.map f = bs.map g) : ∃ pairs : List (α × β), pairs.map Prod.fst = as ∧ pairs.map Prod.snd = bs ∧
      ∀ p ∈ pairs, f p.1 = g p.2 := by
  induction as generalizing bs with
  | nil =>
    obtain rfl : bs = [] := List.map_eq_nil_iff.mp h.symm
    exact ⟨[], rfl, rfl, fun p hp => absurd hp List.not_mem_nil⟩
  | cons a as ih =>
    obtain ⟨b, bs, rfl, hb, hbs⟩ := List.map_eq_cons_iff.mp h.symm
    obtain ⟨pairs, rfl, rfl, hpairs⟩ := ih hbs.symm
    exact ⟨(a, b) :: pairs, rfl, rfl, List.forall_mem_cons.mpr ⟨hb.symm, hpairs⟩⟩

/-- The objects of a run, each with the hits that it tells of: of every hit that made a record, as far as the records
were taken. -/
theorem objects_explained (maps : ProbeMaps) (selfTgid : UInt32) (sink : JsonSink) (moves : List Move) :
    ∃ (origins : List RecordOrigin) (lines : List (RecordOrigin × Json)),
      InTurn origins ∧ (∀ o, o ∈ origins ↔ ∃ record, Made maps (Feed.produced moves) o record) ∧
      objects maps selfTgid sink moves = lines.map (fun l => some l.2) ∧
      lines.map Prod.fst = (origins.take (run maps selfTgid sink moves).taken).filter
        (foreignHit (Feed.produced moves) selfTgid) ∧
      ∀ l ∈ lines, Explains (Feed.produced moves) l.1 l.2 := by
  obtain ⟨made, hrecords, hmade, hordered⟩ := records_made maps (Feed.produced moves)
  obtain ⟨pairs, hmine, hevents, hsame⟩ := exists_pairs (written_made maps selfTgid sink moves hrecords).symm
  have hfrom : ∀ m ∈ made.take (run maps selfTgid sink moves).taken, Made maps (Feed.produced moves) m.1 m.2 :=
    fun m hm => (hmade m).mp (List.mem_of_mem_take hm)
  refine ⟨made.map Prod.fst, pairs.map fun p => (p.1.1, eventJson p.2.1 p.2.2), ?_, fun o => ?_, ?_, ?_, ?_⟩
  · exact inTurn_of_made (fun m hm => (hmade m).mp hm) hordered
  · constructor
    · intro ho
      obtain ⟨m, hm, rfl⟩ := List.mem_map.mp ho
      exact ⟨m.2, (hmade m).mp hm⟩
    · rintro ⟨record, hrecord⟩
      exact List.mem_map.mpr ⟨(o, record), (hmade _).mpr hrecord, rfl⟩
  · rw [objects, ← hevents, List.map_map, List.map_map]
    rfl
  · have hfst : (pairs.map fun p => (p.1.1, eventJson p.2.1 p.2.2)).map Prod.fst = (pairs.map Prod.fst).map Prod.fst := by
      rw [List.map_map, List.map_map]
      rfl
    rw [hfst, hmine, ← List.map_take, List.filter_map]
    refine congrArg (List.map Prod.fst) (List.filter_congr fun m hm => ?_)
    exact (foreignHit_of_made (hfrom m hm) selfTgid).symm
  · intro l hl
    obtain ⟨p, hp, rfl⟩ := List.mem_map.mp hl
    have hmem : p.1 ∈ pairs.map Prod.fst := List.mem_map_of_mem hp
    rw [hmine] at hmem
    have hexplains := explains_of_made (hfrom p.1 (List.mem_of_mem_filter hmem)) p.2.1
    rwa [hsame p hp] at hexplains

/-- **The file is the trace.** A reader that splits at the newlines gets what was there before, and then one object
for each process hook that was let in and each exit that was let through with its call open, of what was taken and is
not about the daemon itself: in the order of the hits, no call twice, and each telling of its hit and of the enter of
its call. If the file was started anew, it gets the last of these. -/
theorem lines_explained {moves : List Move}
    (hworks : SinkWorks maps selfTgid (JsonSink.create senv file limit) moves)
    (hbase : file.getD [] = [] ∨ (file.getD []).getLast? = some 0x0A) :
    ∃ (origins : List RecordOrigin) (before : List (Option Json)) (lines : List (RecordOrigin × Json)),
      InTurn origins ∧ (∀ o, o ∈ origins ↔ ∃ record, Made maps (Feed.produced moves) o record) ∧
      readLines (run maps selfTgid (JsonSink.create senv file limit) moves).consumer.sink.content =
        before ++ lines.map (fun l => some l.2) ∧
      (before = readLines (file.getD []) ∧ lines.map Prod.fst =
          (origins.take (run maps selfTgid (JsonSink.create senv file limit) moves).taken).filter
            (foreignHit (Feed.produced moves) selfTgid) ∨
        limit ≠ 0 ∧ before = [] ∧ lines ≠ [] ∧ lines.map Prod.fst <:+
          (origins.take (run maps selfTgid (JsonSink.create senv file limit) moves).taken).filter
            (foreignHit (Feed.produced moves) selfTgid)) ∧
      ∀ l ∈ lines, Explains (Feed.produced moves) l.1 l.2 := by
  obtain ⟨origins, lines, hturn, hexact, hlines, horigins, hexplains⟩ :=
    objects_explained maps selfTgid (JsonSink.create senv file limit) moves
  rcases content_reads hworks hbase with hall | ⟨hlimit, kept, hne, hsuffix, hread⟩
  · rw [hlines] at hall
    exact ⟨origins, _, lines, hturn, hexact, hall, Or.inl ⟨rfl, horigins⟩, hexplains⟩
  · rw [hlines] at hsuffix
    obtain ⟨mine, hmine, rfl⟩ := List.suffix_map_iff.mp hsuffix
    refine ⟨origins, [], mine, hturn, hexact, hread, Or.inr ⟨hlimit, rfl, ?_, ?_⟩, fun l hl => ?_⟩
    · exact fun hnil => hne (by rw [hnil, List.map_nil])
    · rw [← horigins]
      exact hmine.map _
    · exact hexplains l (hmine.subset hl)

end

/-- The line of a fork. -/
theorem lines_explained_fork : ∃ (origins : List RecordOrigin) (lines : List (RecordOrigin × Json)),
    (∀ o, o ∈ origins ↔ ∃ record, Made allProbes (Feed.produced forkTaken) o record) ∧
    readLines (run allProbes 1 (JsonSink.create JsonSink.calmEnv none 0) forkTaken).consumer.sink.content =
      lines.map (fun l => some l.2) ∧
    lines.map Prod.fst = (origins.take 1).filter (foreignHit (Feed.produced forkTaken) 1) ∧
    ∀ l ∈ lines, Explains (Feed.produced forkTaken) l.1 l.2 := by
  obtain ⟨origins, before, lines, -, hexact, hread, ⟨rfl, hall⟩ | ⟨hlimit, -⟩, hexplains⟩ :=
    lines_explained forkTaken_works (Or.inl rfl)
  · exact ⟨origins, lines, hexact, hread, hall, hexplains⟩
  · exact absurd rfl hlimit

end System

end ETraceGen
