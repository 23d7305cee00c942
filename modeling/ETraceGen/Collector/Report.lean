import ETraceGen.Collector.Start

/-!
# The startup report

Each step of a start adds its reasons to the report and its entries to the maps. A report is degraded exactly if
it gives a reason.

* `Consistent` : degraded exactly with a reason;
* `Adds` : what a step adds, with rules for the parts of a step;
* `configure_adds` : what all steps add together.
-/

namespace ETraceGen.Collector

open Config

/-! ## Reasons -/

/-- The report is degraded exactly if it gives a reason. -/
def Consistent (report : CollectorStartupReport) : Prop :=
  report.degraded = true ↔ report.degradeReason ≠ []

theorem Consistent.appendDegradeReason {report : CollectorStartupReport} (h : Consistent report)
    (message : Bytes) : Consistent (appendDegradeReason report message) := by
  by_cases hmessage : message = []
  · rwa [Collector.appendDegradeReason, if_pos hmessage]
  · rw [Collector.appendDegradeReason, if_neg hmessage]
    exact iff_of_true rfl (List.append_ne_nil_of_right_ne_nil _ hmessage)

/-- A reason changes the two fields that tell of it. -/
theorem appendDegradeReason_eq (report : CollectorStartupReport) (message : Bytes) :
    ∃ degraded reason, appendDegradeReason report message =
      { report with degraded := degraded, degradeReason := reason } := by
  unfold appendDegradeReason
  by_cases hmessage : message = []
  · exact ⟨report.degraded, report.degradeReason, if_pos hmessage⟩
  · exact ⟨_, _, if_neg hmessage⟩

theorem degraded_append {report : CollectorStartupReport} {message : Bytes} (h : message ≠ []) :
    (appendDegradeReason report message).degraded = true := by
  rw [appendDegradeReason, if_neg h]

theorem str_ne_nil {message : String} (h : message ≠ "") : str message ≠ [] := by
  intro hnil
  exact h (String.toList_eq_nil_iff.mp (List.map_eq_nil_iff.mp hnil))

namespace Startup
variable (s : Startup) (u : Updates) (failed : Bool) (message : String)

@[simp] theorem push_report : (s.push u).report = s.report := rfl
@[simp] theorem push_entries : (s.push u).entries = s.entries ++ u.written := rfl

@[simp] theorem degradeIf_entries : (s.degradeIf failed message).entries = s.entries := by
  unfold degradeIf
  split_ifs <;> rfl

@[simp] theorem degradeIf_degraded {message : String} (h : message ≠ "") :
    (s.degradeIf failed message).report.degraded = (s.report.degraded || failed) := by
  cases failed with
  | false => exact (Bool.or_false _).symm
  | true =>
    rw [Bool.or_true]
    exact degraded_append (str_ne_nil h)

variable {s} in
theorem degradeIf_consistent (h : Consistent s.report) : Consistent (s.degradeIf failed message).report := by
  unfold degradeIf
  split_ifs
  · exact h.appendDegradeReason _
  · exact h

end Startup

/-! ## Updates -/

section Updates
variable {host : Host} {map : MapName} {entries : List (UInt32 × UInt32)}

theorem foldl_updateElem (l : List ((UInt32 × UInt32) × Nat)) (u : Updates) :
    l.foldl (updateElem host map) u =
      { allOk := u.allOk && l.all fun e => host.updates map e.2
        applied := u.applied + .ofNat (l.countP fun e => host.updates map e.2)
        written := u.written ++
          (l.filter fun e => host.updates map e.2).map fun e => ⟨map, e.1.1, e.1.2⟩ } := by
  induction l generalizing u with
  | nil => simp
  | cons e l ih =>
    rw [List.foldl_cons, ih, updateElem]
    cases hok : host.updates map e.2 with
    | false => simp [hok]
    | true =>
      have hcount : u.applied + 1 + UInt32.ofNat (l.countP fun e => host.updates map e.2) =
          u.applied + UInt32.ofNat ((l.countP fun e => host.updates map e.2) + 1) := by
        rw [UInt32.ofNat_add, UInt32.add_assoc, UInt32.add_comm 1]
        rfl
      simp [hok, hcount]

theorem updateElems_of_found (h : host.found map = true) (entries : List (UInt32 × UInt32)) :
    updateElems host map entries =
      { allOk := entries.zipIdx.all fun e => host.updates map e.2
        applied := .ofNat (entries.zipIdx.countP fun e => host.updates map e.2)
        written := (entries.zipIdx.filter fun e => host.updates map e.2).map fun e => ⟨map, e.1.1, e.1.2⟩ } := by
  rw [updateElems, if_pos h, foldl_updateElem]
  simp

/-- The updates of a map all succeed. -/
def AllAccepted (host : Host) (map : MapName) (count : Nat) : Prop := ∀ i < count, host.updates map i = true

theorem updateElems_allOk_iff :
    (updateElems host map entries).allOk = true ↔
      host.found map = true ∧ AllAccepted host map entries.length := by
  by_cases hfound : host.found map = true
  · rw [updateElems_of_found hfound, and_iff_right hfound]
    dsimp only
    rw [List.all_eq_true]
    constructor
    · intro hall i hi
      exact hall (entries[i], i) (List.mem_zipIdx_iff_getElem?.mpr (List.getElem?_eq_getElem hi))
    · intro hall e he
      apply hall
      exact (List.getElem?_eq_some_iff.mp (List.mem_zipIdx_iff_getElem?.mp he)).1
  · rw [updateElems, if_neg hfound]
    exact iff_of_false Bool.false_ne_true fun h => hfound h.1

theorem updateElems_applied (h : host.found map = true) :
    (updateElems host map entries).applied =
      .ofNat ((List.range entries.length).countP (host.updates map)) := by
  rw [updateElems_of_found h, List.range_eq_range', ← List.zipIdx_map_snd, List.countP_map]
  rfl

theorem mem_written (h : host.found map = true) {key value : UInt32} :
    ⟨map, key, value⟩ ∈ (updateElems host map entries).written ↔
      ∃ i, entries[i]? = some (key, value) ∧ host.updates map i = true := by
  rw [updateElems_of_found h]
  dsimp only
  rw [List.mem_map]
  constructor
  · rintro ⟨⟨⟨key', value'⟩, i⟩, hmem, heq⟩
    obtain ⟨hmem, hok⟩ := List.mem_filter.mp hmem
    obtain ⟨-, rfl, rfl⟩ := MapEntry.mk.inj heq
    exact ⟨i, List.mem_zipIdx_iff_getElem?.mp hmem, hok⟩
  · rintro ⟨i, hget, hok⟩
    exact ⟨((key, value), i), List.mem_filter.mpr ⟨List.mem_zipIdx_iff_getElem?.mpr hget, hok⟩, rfl⟩

theorem mem_written_of_allOk (h : (updateElems host map entries).allOk = true) {key value : UInt32}
    (hmem : (key, value) ∈ entries) : ⟨map, key, value⟩ ∈ (updateElems host map entries).written := by
  obtain ⟨hfound, hall⟩ := updateElems_allOk_iff.mp h
  obtain ⟨i, hget⟩ := List.mem_iff_getElem?.mp hmem
  exact (mem_written hfound).mpr ⟨i, hget, hall i (List.getElem?_eq_some_iff.mp hget).1⟩

theorem map_of_mem_written {e : MapEntry} (h : e ∈ (updateElems host map entries).written) : e.map = map := by
  by_cases hfound : host.found map = true
  · rw [updateElems_of_found hfound] at h
    obtain ⟨_, -, rfl⟩ := List.mem_map.mp h
    rfl
  · rw [updateElems, if_neg hfound] at h
    cases h

end Updates

/-! ## Steps -/

/-- A step adds a reason if it fails, and what it wrote. -/
structure Adds (s s' : Startup) (fails : Prop) (written : List MapEntry) : Prop where
  degraded : s'.report.degraded = true ↔ s.report.degraded = true ∨ fails
  consistent : Consistent s.report → Consistent s'.report
  entries : s'.entries = s.entries ++ written

namespace Adds
variable {s s' s'' : Startup} {fails fails' : Prop} {written written' : List MapEntry}

theorem refl (s : Startup) : Adds s s False [] where
  degraded := by rw [or_false]
  consistent := id
  entries := (List.append_nil _).symm

theorem trans (h : Adds s s' fails written) (h' : Adds s' s'' fails' written') :
    Adds s s'' (fails ∨ fails') (written ++ written') where
  degraded := by rw [h'.degraded, h.degraded, or_assoc]
  consistent hs := h'.consistent (h.consistent hs)
  entries := by rw [h'.entries, h.entries, List.append_assoc]

theorem congr (h : Adds s s' fails written) (hfails : fails ↔ fails') (hwritten : written = written') :
    Adds s s' fails' written' := by
  rwa [← hfails, ← hwritten]

theorem degradeIf (h : Adds s s' fails written) (failed : Bool) {message : String} (hmessage : message ≠ "") :
    Adds s (s'.degradeIf failed message) (fails ∨ failed = true) written where
  degraded := by
    rw [Startup.degradeIf_degraded s' failed hmessage, Bool.or_eq_true, h.degraded, or_assoc]
  consistent hs := Startup.degradeIf_consistent failed message (h.consistent hs)
  entries := by rw [Startup.degradeIf_entries, h.entries]

theorem push (h : Adds s s' fails written) (u : Updates) :
    Adds s (s'.push u) fails (written ++ u.written) where
  degraded := h.degraded
  consistent := h.consistent
  entries := by rw [Startup.push_entries, h.entries, List.append_assoc]

/-- Other fields of the report say nothing of failures. -/
theorem note (h : Adds s s' fails written) {f : CollectorStartupReport → CollectorStartupReport}
    (hf : ∀ report, (f report).degraded = report.degraded ∧ (f report).degradeReason = report.degradeReason) :
    Adds s (s'.note f) fails written where
  degraded := by
    rw [← h.degraded]
    exact iff_of_eq (congrArg (· = true) (hf s'.report).1)
  consistent hs := by
    show (f s'.report).degraded = true ↔ (f s'.report).degradeReason ≠ []
    rw [(hf s'.report).1, (hf s'.report).2]
    exact h.consistent hs
  entries := h.entries

/-- Updates that are told if one of them fails. -/
theorem pushIf (h : Adds s s' fails written) (u : Updates) {message : String} (hmessage : message ≠ "") :
    Adds s ((s'.push u).degradeIf (!u.allOk) message) (fails ∨ u.allOk = false) (written ++ u.written) :=
  ((h.push u).degradeIf (!u.allOk) hmessage).congr (by rw [Bool.not_eq_true']) rfl

end Adds

/-- What later steps read of the report. -/
def readAgain (report : CollectorStartupReport) : Bool × UInt32 × UInt32 × UInt32 × UInt32 :=
  (report.mapEventsFound, report.pidAllowlistAppliedCount, report.uidAllowlistAppliedCount,
    report.syscallAllowlistAppliedCount, report.networkPortAllowlistAppliedCount)

theorem readAgain_append (report : CollectorStartupReport) (message : Bytes) :
    readAgain (appendDegradeReason report message) = readAgain report := by
  obtain ⟨degraded, reason, heq⟩ := appendDegradeReason_eq report message
  rw [heq]
  rfl

theorem append_events (report : CollectorStartupReport) (message : Bytes) :
    (appendDegradeReason report message).mapEventsFound = report.mapEventsFound :=
  congrArg (·.1) (readAgain_append report message)

@[simp] theorem readAgain_degradeIf (s : Startup) (failed : Bool) (message : String) :
    readAgain (s.degradeIf failed message).report = readAgain s.report := by
  unfold Startup.degradeIf
  split_ifs
  · exact readAgain_append s.report _
  · rfl

/-! ## Lists of updates -/

/-- Updates of one map after another. -/
abbrev MapUpdates := List (MapName × List (UInt32 × UInt32))

def FailsIn (host : Host) (ps : MapUpdates) : Prop := ∃ p ∈ ps, (updateElems host p.1 p.2).allOk = false

def writtenIn (host : Host) (ps : MapUpdates) : List MapEntry :=
  ps.flatMap fun p => (updateElems host p.1 p.2).written

section
variable (host : Host) (p : MapName × List (UInt32 × UInt32)) (ps ps' : MapUpdates)

theorem failsIn_nil : FailsIn host [] ↔ False := iff_of_false (fun ⟨_, h, _⟩ => List.not_mem_nil h) id

theorem failsIn_cons :
    FailsIn host (p :: ps) ↔ (updateElems host p.1 p.2).allOk = false ∨ FailsIn host ps :=
  List.exists_mem_cons_iff ..

theorem writtenIn_nil : writtenIn host [] = [] := rfl

theorem writtenIn_cons : writtenIn host (p :: ps) = (updateElems host p.1 p.2).written ++ writtenIn host ps :=
  List.flatMap_cons

theorem writtenIn_append : writtenIn host (ps ++ ps') = writtenIn host ps ++ writtenIn host ps' :=
  List.flatMap_append

end

/-- The toggles of the probes. -/
def probeToggles (cfg : RuntimeConfig) : MapUpdates :=
  let file := effectiveFileProbes cfg
  [(.processProbeEnabled, processProbeKeys.map fun kind => (kind.code, flag cfg.domains.process)),
    (.syscallProbeEnabled, [(0, flag cfg.domains.syscall)]),
    (.fileProbeEnabled,
      [(FileEventKind.openat.code, flag file.openat), (FileEventKind.unlinkat.code, flag file.unlinkat),
        (FileEventKind.renameat2.code, flag file.renameat2)]),
    (.networkProbeEnabled, networkProbeKeys.map fun kind => (kind.code, flag cfg.domains.networkSocket))]

def filterFlags (cfg : RuntimeConfig) : MapUpdates :=
  [(.pidFilterEnabled, [(0, flag (!cfg.pidAllowlist.isEmpty))]),
    (.uidFilterEnabled, [(0, flag (!cfg.uidAllowlist.isEmpty))]),
    (.networkPortFilterEnabled, [(0, flag (!cfg.network.portAllowlist.isEmpty))])]

/-- The allowlists that a start writes. -/
def allowlistsInEffect (cfg : RuntimeConfig) : List (MapName × List UInt32) :=
  [(.pidAllowlist, cfg.pidAllowlist), (.uidAllowlist, cfg.uidAllowlist),
    (.syscallAllowlist, (effectiveSyscallAllowlist cfg).map Int32.toUInt32),
    (.networkPortAllowlist, cfg.network.portAllowlist)]

def allowlistEntries (allowlist : List UInt32) : List (UInt32 × UInt32) := allowlist.map fun key => (key, 1)

def allowlistUpdates (cfg : RuntimeConfig) : MapUpdates :=
  (allowlistsInEffect cfg).map fun l => (l.1, allowlistEntries l.2)

section Counts
variable (s : Startup) (failed : Bool) (message : String)

theorem degradeIf_uids :
    (s.degradeIf failed message).report.uidAllowlistAppliedCount = s.report.uidAllowlistAppliedCount :=
  congrArg (·.2.2.1) (readAgain_degradeIf s failed message)

theorem degradeIf_syscalls :
    (s.degradeIf failed message).report.syscallAllowlistAppliedCount = s.report.syscallAllowlistAppliedCount :=
  congrArg (·.2.2.2.1) (readAgain_degradeIf s failed message)

theorem degradeIf_ports :
    (s.degradeIf failed message).report.networkPortAllowlistAppliedCount =
      s.report.networkPortAllowlistAppliedCount :=
  congrArg (·.2.2.2.2) (readAgain_degradeIf s failed message)

end Counts

section Steps
variable (host : Host) (cfg : RuntimeConfig) (s : Startup)

theorem reportConfig_adds : Adds s (reportConfig host s) ((loadConfig host).1 = false) [] := by
  refine Adds.congr (((Adds.refl s).note ?_).degradeIf (!(loadConfig host).1) ?_) ?_ rfl
  · exact fun report => ⟨rfl, rfl⟩
  · decide
  · rw [false_or, Bool.not_eq_true']

theorem foldl_degradeIf_adds {ms : List (MapName × String)} (hms : ∀ m ∈ ms, m.2 ≠ "") :
    Adds s (ms.foldl (fun s m => s.degradeIf (!host.found m.1) m.2) s) (∃ m ∈ ms, host.found m.1 = false) [] ∧
      readAgain (ms.foldl (fun s m => s.degradeIf (!host.found m.1) m.2) s).report = readAgain s.report := by
  induction ms generalizing s with
  | nil => exact ⟨⟨by simp, id, (List.append_nil _).symm⟩, rfl⟩
  | cons m ms ih =>
    obtain ⟨hadds, hread⟩ := ih (s.degradeIf (!host.found m.1) m.2) fun m' h => hms m' (List.mem_cons_of_mem m h)
    have hboth := ((Adds.refl s).degradeIf (!host.found m.1) (hms m List.mem_cons_self)).trans hadds
    rw [false_or, Bool.not_eq_true'] at hboth
    rw [List.exists_mem_cons_iff]
    exact ⟨hboth, hread.trans (readAgain_degradeIf s _ _)⟩

theorem missingMessages_ne : ∀ m ∈ missingMessages, m.2 ≠ "" := by decide

theorem reportMaps_adds : Adds s (reportMaps host s) (∃ m ∈ missingMessages, host.found m.1 = false) [] := by
  refine Adds.congr (Adds.trans ((Adds.refl s).note ?_) (foldl_degradeIf_adds host _ missingMessages_ne).1) ?_ rfl
  · exact fun report => ⟨rfl, rfl⟩
  · rw [false_or]

theorem applyToggles_adds :
    Adds s (applyToggles host cfg s) (FailsIn host (probeToggles cfg)) (writtenIn host (probeToggles cfg)) := by
  refine Adds.congr
    ((((((Adds.refl s).pushIf _ ?_).pushIf _ ?_).push _).note ?_).degradeIf _ ?_ |>.push _ |>.note ?_ |>.degradeIf _ ?_)
    ?_ ?_
  · decide
  · decide
  · exact fun report => ⟨rfl, rfl⟩
  · decide
  · exact fun report => ⟨rfl, rfl⟩
  · decide
  · simp only [probeToggles, failsIn_cons, failsIn_nil, false_or, or_false, or_assoc, Bool.not_eq_true']
    rfl
  · simp only [probeToggles, writtenIn_cons, writtenIn_nil, List.nil_append, List.append_nil, List.append_assoc]
    rfl

theorem applyAllowlists_adds :
    Adds s (applyAllowlists host cfg s) False (writtenIn host (allowlistUpdates cfg)) := by
  unfold applyAllowlists
  refine Adds.congr ((((((Adds.refl s).push _).push _).push _).push _).note ?_) Iff.rfl ?_
  · exact fun report => ⟨rfl, rfl⟩
  · simp only [allowlistUpdates, allowlistsInEffect, List.map_cons, List.map_nil, writtenIn_cons, writtenIn_nil,
      List.nil_append, List.append_nil, List.append_assoc]
    rfl

theorem applyFilters_adds : Adds s (applyFilters host cfg s)
    (FailsIn host (filterFlags cfg) ∨
      host.found .suppressTgid = true ∧ FailsIn host [(.suppressTgid, [(0, host.pid)])])
    (writtenIn host (filterFlags cfg ++ [(.suppressTgid, [(0, host.pid)])])) := by
  unfold applyFilters
  dsimp only
  have hflags := (((Adds.refl s).pushIf (setAllowlistEnabled host .pidFilterEnabled (!cfg.pidAllowlist.isEmpty))
    (show "pid filter enable flag apply failed" ≠ "" by decide)).pushIf
      (setAllowlistEnabled host .uidFilterEnabled (!cfg.uidAllowlist.isEmpty))
    (show "uid filter enable flag apply failed" ≠ "" by decide)).pushIf
      (setAllowlistEnabled host .networkPortFilterEnabled (!cfg.network.portAllowlist.isEmpty))
    (show "network port filter enable flag apply failed" ≠ "" by decide)
  by_cases hfound : host.found .suppressTgid = true
  · rw [if_pos hfound]
    refine (hflags.pushIf _ (by decide)).congr ?_ ?_
    · simp only [filterFlags, failsIn_cons, failsIn_nil, false_or, or_false, or_assoc, hfound, true_and]
      rfl
    · simp only [filterFlags, List.cons_append, List.nil_append, writtenIn_cons, writtenIn_nil, List.append_nil,
        List.append_assoc]
      rfl
  · rw [if_neg hfound]
    refine hflags.congr ?_ ?_
    · simp only [filterFlags, failsIn_cons, failsIn_nil, false_or, or_false, or_assoc, hfound,
        Bool.false_eq_true, false_and]
      rfl
    · have hnone : (updateElems host .suppressTgid [(0, host.pid)]).written = [] := by
        rw [updateElems, if_neg hfound]
      simp only [filterFlags, List.cons_append, List.nil_append, writtenIn_cons, writtenIn_nil, hnone,
        List.append_nil, List.append_assoc]
      rfl

/-- An allowlist that is not empty and of which nothing was applied. -/
def Unapplied {α : Type} (allowlist : List α) (applied : UInt32) : Prop := allowlist ≠ [] ∧ applied = 0

theorem unapplied_iff {α : Type} (allowlist : List α) (applied : UInt32) :
    (!allowlist.isEmpty && applied == 0) = true ↔ Unapplied allowlist applied := by
  rw [Bool.and_eq_true, Bool.not_eq_true', List.isEmpty_eq_false_iff, beq_iff_eq, Unapplied]

theorem unapplied_map {α β : Type} (f : α → β) (allowlist : List α) (applied : UInt32) :
    Unapplied (allowlist.map f) applied ↔ Unapplied allowlist applied := by
  unfold Unapplied
  rw [ne_eq, List.map_eq_nil_iff]

theorem reportAllowlists_adds : Adds s (reportAllowlists cfg s)
    (Unapplied cfg.pidAllowlist s.report.pidAllowlistAppliedCount ∨
      Unapplied cfg.uidAllowlist s.report.uidAllowlistAppliedCount ∨
      Unapplied (effectiveSyscallAllowlist cfg) s.report.syscallAllowlistAppliedCount ∨
      Unapplied cfg.network.portAllowlist s.report.networkPortAllowlistAppliedCount) [] := by
  refine Adds.congr (((((Adds.refl s).degradeIf _ ?_).degradeIf _ ?_).degradeIf _ ?_).degradeIf _ ?_) ?_ rfl
  · decide
  · decide
  · decide
  · decide
  · simp only [unapplied_iff, degradeIf_uids, degradeIf_syscalls, degradeIf_ports, false_or, or_assoc]

theorem failedPrograms_isEmpty_iff :
    (failedPrograms host).isEmpty = true ↔ ¬ ∃ prog ∈ host.programs, prog.attaches = false := by
  unfold failedPrograms
  rw [List.isEmpty_iff, List.map_eq_nil_iff, List.filter_eq_nil_iff]
  simp

theorem attachPrograms_adds :
    Adds s (attachPrograms host s) (∃ prog ∈ host.programs, prog.attaches = false) [] := by
  have hlinked : Adds s { s with links := host.programs.filter (·.attaches) } False [] :=
    ⟨by rw [or_false], id, (List.append_nil _).symm⟩
  have hcounted := hlinked.note (f := fun report => { report with
    programsTotal := .ofNat host.programs.length
    programsAttached := .ofNat (host.programs.filter (·.attaches)).length
    programsAttachFailed := .ofNat (failedPrograms host).length }) fun report => ⟨rfl, rfl⟩
  unfold attachPrograms
  dsimp only
  by_cases hfailed : (failedPrograms host).isEmpty = true
  · rw [if_pos hfailed]
    exact hcounted.congr (iff_of_false id ((failedPrograms_isEmpty_iff host).mp hfailed)) rfl
  · rw [if_neg hfailed]
    have hmessage : str "attach failures=" ++ (str ",").intercalate (failedPrograms host) ≠ [] :=
      List.append_ne_nil_of_left_ne_nil (by decide) _
    exact ⟨iff_of_true (degraded_append hmessage)
      (Or.inr (not_not.mp fun h => hfailed ((failedPrograms_isEmpty_iff host).mpr h))),
      fun hs => (hcounted.consistent hs).appendDegradeReason _, hcounted.entries⟩

/-! ## What later steps read -/

theorem reportMaps_events : (reportMaps host s).report.mapEventsFound = host.found .events :=
  congrArg (·.1) (foldl_degradeIf_adds host _ missingMessages_ne).2

theorem readAgain_applyToggles : readAgain (applyToggles host cfg s).report = readAgain s.report := by
  unfold applyToggles
  rw [readAgain_degradeIf]
  refine (readAgain_degradeIf _ _ _).trans ?_
  refine (readAgain_degradeIf _ _ _).trans ?_
  exact readAgain_degradeIf _ _ _

theorem readAgain_applyFilters : readAgain (applyFilters host cfg s).report = readAgain s.report := by
  unfold applyFilters
  dsimp only
  split_ifs
  · simp only [readAgain_degradeIf, Startup.push_report]
  · simp only [readAgain_degradeIf, Startup.push_report]

theorem reportAllowlists_events : (reportAllowlists cfg s).report.mapEventsFound = s.report.mapEventsFound := by
  refine congrArg (·.1) (show readAgain (reportAllowlists cfg s).report = readAgain s.report from ?_)
  simp only [reportAllowlists, readAgain_degradeIf]

theorem attachPrograms_events : (attachPrograms host s).report.mapEventsFound = s.report.mapEventsFound := by
  unfold attachPrograms
  dsimp only
  split_ifs
  · rfl
  · exact append_events _ _

theorem attachPrograms_links : (attachPrograms host s).links = host.programs.filter (·.attaches) := by
  unfold attachPrograms
  dsimp only
  split_ifs <;> rfl

end Steps

/-! ## The whole configuration -/

section Configure
variable (host : Host) (cfg : RuntimeConfig) (s : Startup)

/-- The allowlists, with the counts of what was applied of them. -/
theorem allowlists_adds :
    Adds s (reportAllowlists cfg (applyFilters host cfg (applyAllowlists host cfg s)))
      ((FailsIn host (filterFlags cfg) ∨
        host.found .suppressTgid = true ∧ FailsIn host [(.suppressTgid, [(0, host.pid)])]) ∨
        ∃ l ∈ allowlistsInEffect cfg, Unapplied l.2 (updateElems host l.1 (allowlistEntries l.2)).applied)
      (writtenIn host (allowlistUpdates cfg ++ (filterFlags cfg ++ [(.suppressTgid, [(0, host.pid)])]))) := by
  have hadds := ((applyAllowlists_adds host cfg s).trans (applyFilters_adds host cfg _)).trans
    (reportAllowlists_adds cfg _)
  have hread := readAgain_applyFilters host cfg (applyAllowlists host cfg s)
  have hpids : (applyFilters host cfg (applyAllowlists host cfg s)).report.pidAllowlistAppliedCount =
      (applyU32AllowlistConfig host .pidAllowlist cfg.pidAllowlist).applied := congrArg (·.2.1) hread
  have huids : (applyFilters host cfg (applyAllowlists host cfg s)).report.uidAllowlistAppliedCount =
      (applyU32AllowlistConfig host .uidAllowlist cfg.uidAllowlist).applied := congrArg (·.2.2.1) hread
  have hsyscalls : (applyFilters host cfg (applyAllowlists host cfg s)).report.syscallAllowlistAppliedCount =
      (applySyscallAllowlistConfig host (effectiveSyscallAllowlist cfg)).applied := congrArg (·.2.2.2.1) hread
  have hports : (applyFilters host cfg (applyAllowlists host cfg s)).report.networkPortAllowlistAppliedCount =
      (applyU32AllowlistConfig host .networkPortAllowlist cfg.network.portAllowlist).applied :=
    congrArg (·.2.2.2.2) hread
  rw [hpids, huids, hsyscalls, hports] at hadds
  refine hadds.congr ?_ ?_
  · simp only [allowlistsInEffect, List.exists_mem_cons_iff, List.not_mem_nil, false_and, exists_false, or_false,
      false_or, unapplied_map]
    rfl
  · rw [writtenIn_append host (allowlistUpdates cfg), List.append_nil]

/-- Every update that a start makes. -/
def updated (cfg : RuntimeConfig) : MapUpdates :=
  probeToggles cfg ++ (allowlistUpdates cfg ++ (filterFlags cfg ++ [(.suppressTgid, [(0, host.pid)])]))

theorem configure_adds :
    Adds s (configure host s)
      (((loadConfig host).1 = false ∨ ∃ m ∈ missingMessages, host.found m.1 = false) ∨
        FailsIn host (probeToggles (loadConfig host).2) ∨
        ((FailsIn host (filterFlags (loadConfig host).2) ∨
          host.found .suppressTgid = true ∧ FailsIn host [(.suppressTgid, [(0, host.pid)])]) ∨
          ∃ l ∈ allowlistsInEffect (loadConfig host).2,
            Unapplied l.2 (updateElems host l.1 (allowlistEntries l.2)).applied) ∨
        ∃ prog ∈ host.programs, prog.attaches = false)
      (writtenIn host (updated host (loadConfig host).2)) := by
  have hadds := ((((reportConfig_adds host s).trans (reportMaps_adds host _)).trans
    (applyToggles_adds host (loadConfig host).2 _)).trans (allowlists_adds host (loadConfig host).2 _)).trans
    (attachPrograms_adds host _)
  refine hadds.congr ?_ ?_
  · rw [or_assoc, or_assoc]
  · rw [updated, writtenIn_append host (probeToggles _), List.append_nil, List.nil_append, List.nil_append]

theorem configure_events : (configure host s).report.mapEventsFound = host.found .events := by
  have hread : readAgain (applyFilters host (loadConfig host).2 (applyAllowlists host (loadConfig host).2
      (applyToggles host (loadConfig host).2 (reportMaps host (reportConfig host s))))).report = _ :=
    readAgain_applyFilters host _ _
  have htoggles := readAgain_applyToggles host (loadConfig host).2 (reportMaps host (reportConfig host s))
  rw [configure, attachPrograms_events, reportAllowlists_events]
  exact (congrArg (·.1) hread).trans ((congrArg (·.1) htoggles).trans (reportMaps_events host _))

theorem configure_links : (configure host s).links = host.programs.filter (·.attaches) :=
  attachPrograms_links host _

end Configure

end ETraceGen.Collector
