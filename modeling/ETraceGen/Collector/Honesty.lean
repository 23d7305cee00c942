import ETraceGen.Collector.Report

/-!
# Honest reports

A start that returns true and is not degraded should have done all that was asked for. The toggles and flags are
told if one update of them fails, an allowlist only if nothing of it was applied.

* `start_clean_iff` : what a clean report comes down to;
* `Complete` : what was asked for;
* `start_honest_iff` : the report is honest unless an allowlist is written in part and nothing else fails.
-/

namespace ETraceGen.Collector

open Config

/-! ## Starts -/

/-- The toggle of a file probe. -/
def enabled (cfg : FileProbeConfig) : FileEventKind → Bool
  | .openat => cfg.openat
  | .unlinkat => cfg.unlinkat
  | .renameat2 => cfg.renameat2

section Start
variable (host : Host) (callback : Bool)

theorem opened_consistent : Consistent (opened host).report := iff_of_false Bool.false_ne_true fun h => h rfl

/-- Whatever comes of a start, its report is degraded exactly if it gives a reason. -/
theorem start_consistent : Consistent (start host callback).2.report := by
  have hopened := opened_consistent host
  have hconfigured := (configure_adds host (opened host)).consistent hopened
  unfold start
  dsimp only
  split_ifs
  · exact Startup.degradeIf_consistent _ _ hopened
  · exact Startup.degradeIf_consistent _ _ hopened
  · exact Startup.degradeIf_consistent _ _ hopened
  · exact Startup.degradeIf_consistent _ _ hconfigured
  · exact Startup.degradeIf_consistent _ _ hconfigured
  · exact Startup.degradeIf_consistent _ _ hconfigured
  · exact hconfigured

/-- What makes the collector run. -/
structure Runs : Prop where
  callback : callback = true
  opens : host.opens = true
  loads : host.loads = true
  attached : ∃ prog ∈ host.programs, prog.attaches = true
  events : host.found .events = true
  ringBuffer : host.ringBuffer = true

theorem start_fst_iff : (start host callback).1 = true ↔ Runs host callback := by
  have hlinks : (configure host (opened host)).links.isEmpty = true ↔
      ¬ ∃ prog ∈ host.programs, prog.attaches = true := by
    rw [configure_links, List.isEmpty_iff, List.filter_eq_nil_iff]
    simp
  unfold start
  dsimp only
  rw [configure_events]
  split_ifs with hcallback hopens hloads hempty hevents hring
  · exact iff_of_false not_false fun h => by simp [h.callback] at hcallback
  · exact iff_of_false not_false fun h => by simp [h.opens] at hopens
  · exact iff_of_false not_false fun h => by simp [h.loads] at hloads
  · exact iff_of_false not_false fun h => hlinks.mp hempty h.attached
  · exact iff_of_false not_false fun h => by simp [h.events] at hevents
  · exact iff_of_false not_false fun h => by simp [h.ringBuffer] at hring
  · refine iff_of_true rfl ⟨?_, ?_, ?_, ?_, ?_, ?_⟩
    · simpa using hcallback
    · simpa using hopens
    · simpa using hloads
    · exact not_not.mp fun h => hempty (hlinks.mpr h)
    · simpa using hevents
    · simpa using hring

variable {host callback} in
theorem start_snd (h : Runs host callback) : (start host callback).2 = configure host (opened host) := by
  have hrun := (start_fst_iff host callback).mpr h
  unfold start at hrun ⊢
  dsimp only at hrun ⊢
  split_ifs at hrun ⊢
  rfl

/-- Every other call that a start makes succeeds. -/
structure OtherCalls : Prop where
  runs : Runs host callback
  config : (loadConfig host).1 = true
  maps : ∀ map, host.found map = true
  toggles : ∀ p ∈ probeToggles (loadConfig host).2 ++ filterFlags (loadConfig host).2 ++
    [(.suppressTgid, [(0, host.pid)])], AllAccepted host p.1 p.2.length
  programs : ∀ prog ∈ host.programs, prog.attaches = true

/-- At least one entry of an allowlist is written, counted as the code counts. -/
def SomeApplied (l : MapName × List UInt32) : Prop :=
  l.2 = [] ∨ UInt32.ofNat ((List.range l.2.length).countP (host.updates l.1)) ≠ 0

theorem not_failsIn_iff (ps : MapUpdates) :
    ¬FailsIn host ps ↔ ∀ p ∈ ps, host.found p.1 = true ∧ AllAccepted host p.1 p.2.length := by
  unfold FailsIn
  push Not
  refine forall₂_congr fun p _ => ?_
  rw [ne_eq, Bool.not_eq_false, updateElems_allOk_iff]

theorem not_unapplied_iff {l : MapName × List UInt32} (h : host.found l.1 = true) :
    ¬Unapplied l.2 (updateElems host l.1 (allowlistEntries l.2)).applied ↔ SomeApplied host l := by
  rw [updateElems_applied h, allowlistEntries, List.length_map, Unapplied, SomeApplied, not_and_or, not_not]

/-- Every map but that of the events has a message. -/
theorem found_of_missingMessages (hevents : host.found .events = true)
    (h : ∀ m ∈ missingMessages, host.found m.1 = true) (map : MapName) : host.found map = true := by
  have hmap : map = .events ∨ map ∈ missingMessages.map Prod.fst := by
    cases map <;> decide
  rcases hmap with rfl | hmem
  · exact hevents
  · obtain ⟨m, hm, rfl⟩ := List.mem_map.mp hmem
    exact h m hm

theorem configure_degraded_iff (hruns : Runs host callback) :
    (configure host (opened host)).report.degraded = false ↔
      OtherCalls host callback ∧ ∀ l ∈ allowlistsInEffect (loadConfig host).2, SomeApplied host l := by
  have hclean : (opened host).report.degraded = true ↔ False := iff_of_false Bool.false_ne_true id
  rw [← Bool.not_eq_true, (configure_adds host (opened host)).degraded, hclean, false_or]
  simp only [not_or, not_and, not_failsIn_iff, not_exists, Bool.not_eq_false]
  constructor
  · rintro ⟨⟨hconfig, hmaps⟩, hprobes, ⟨⟨hflags, hsuppress⟩, hlists⟩, hprograms⟩
    have hfound := found_of_missingMessages host hruns.events hmaps
    refine ⟨⟨hruns, hconfig, hfound, ?_, hprograms⟩, ?_⟩
    · intro p hp
      rcases List.mem_append.mp hp with hp | hp
      · rcases List.mem_append.mp hp with hp | hp
        · exact (hprobes p hp).2
        · exact (hflags p hp).2
      · exact (hsuppress (hfound _) p hp).2
    · intro l hl
      exact (not_unapplied_iff host (hfound l.1)).mp (hlists l hl)
  · rintro ⟨hothers, hlists⟩
    refine ⟨⟨hothers.config, fun m _ => hothers.maps m.1⟩, ?_, ⟨⟨?_, ?_⟩, ?_⟩, hothers.programs⟩
    · intro p hp
      exact ⟨hothers.maps p.1, hothers.toggles p (List.mem_append_left _ (List.mem_append_left _ hp))⟩
    · intro p hp
      exact ⟨hothers.maps p.1, hothers.toggles p (List.mem_append_left _ (List.mem_append_right _ hp))⟩
    · intro _ p hp
      exact ⟨hothers.maps p.1, hothers.toggles p (List.mem_append_right _ hp)⟩
    · intro l hl
      exact (not_unapplied_iff host (hothers.maps l.1)).mpr (hlists l hl)

/-- **A clean report** comes of a start whose other calls all succeed and that writes something of each
allowlist. -/
theorem start_clean_iff :
    (start host callback).1 = true ∧ (start host callback).2.report.degraded = false ↔
      OtherCalls host callback ∧ ∀ l ∈ allowlistsInEffect (loadConfig host).2, SomeApplied host l := by
  rw [start_fst_iff]
  constructor
  · rintro ⟨hruns, hclean⟩
    rw [start_snd hruns] at hclean
    exact (configure_degraded_iff host callback hruns).mp hclean
  · intro h
    refine ⟨h.1.runs, ?_⟩
    rw [start_snd h.1.runs]
    exact (configure_degraded_iff host callback h.1.runs).mpr h

/-! ## Honesty -/

/-- Everything that was asked for is done. -/
structure Complete (s : Startup) : Prop where
  config : (loadConfig host).1 = true
  maps : ∀ map, host.found map = true
  process : ∀ kind : ProcessEventKind,
    ⟨.processProbeEnabled, kind.code, flag (loadConfig host).2.domains.process⟩ ∈ s.entries
  file : ∀ kind : FileEventKind,
    ⟨.fileProbeEnabled, kind.code, flag (enabled (effectiveFileProbes (loadConfig host).2) kind)⟩ ∈ s.entries
  syscall : ⟨.syscallProbeEnabled, 0, flag (loadConfig host).2.domains.syscall⟩ ∈ s.entries
  network : ∀ kind : NetworkEventKind,
    ⟨.networkProbeEnabled, kind.code, flag (loadConfig host).2.domains.networkSocket⟩ ∈ s.entries
  pidFilter : ⟨.pidFilterEnabled, 0, flag (!(loadConfig host).2.pidAllowlist.isEmpty)⟩ ∈ s.entries
  uidFilter : ⟨.uidFilterEnabled, 0, flag (!(loadConfig host).2.uidAllowlist.isEmpty)⟩ ∈ s.entries
  portFilter :
    ⟨.networkPortFilterEnabled, 0, flag (!(loadConfig host).2.network.portAllowlist.isEmpty)⟩ ∈ s.entries
  suppress : ⟨.suppressTgid, 0, host.pid⟩ ∈ s.entries
  allowlists : ∀ l ∈ allowlistsInEffect (loadConfig host).2, ∀ key ∈ l.2, ⟨l.1, key, 1⟩ ∈ s.entries
  programs : s.links = host.programs

theorem mem_entries {e : MapEntry} : e ∈ (configure host (opened host)).entries ↔
    ∃ p ∈ updated host (loadConfig host).2, e ∈ (updateElems host p.1 p.2).written := by
  rw [(configure_adds host (opened host)).entries, writtenIn]
  show e ∈ [] ++ _ ↔ _
  rw [List.nil_append, List.mem_flatMap]

theorem updated_nodup (cfg : RuntimeConfig) : ((updated host cfg).map Prod.fst).Nodup := by
  show [MapName.processProbeEnabled, .syscallProbeEnabled, .fileProbeEnabled, .networkProbeEnabled, .pidAllowlist,
    .uidAllowlist, .syscallAllowlist, .networkPortAllowlist, .pidFilterEnabled, .uidFilterEnabled,
    .networkPortFilterEnabled, .suppressTgid].Nodup
  decide

variable {host callback} in
theorem OtherCalls.toggle_mem (h : OtherCalls host callback) {p : MapName × List (UInt32 × UInt32)}
    (hp : p ∈ probeToggles (loadConfig host).2 ++ filterFlags (loadConfig host).2 ++
      [(.suppressTgid, [(0, host.pid)])]) {key value : UInt32} (hmem : (key, value) ∈ p.2) :
    ⟨p.1, key, value⟩ ∈ (configure host (opened host)).entries := by
  have hupdated : p ∈ updated host (loadConfig host).2 := by
    simp only [updated, List.mem_append] at hp ⊢
    tauto
  refine (mem_entries host).mpr ⟨p, hupdated, mem_written_of_allOk ?_ hmem⟩
  exact updateElems_allOk_iff.mpr ⟨h.maps p.1, h.toggles p hp⟩

/-- An entry of an allowlist is in its map exactly if an update for it succeeded. -/
theorem allowlist_mem_iff (hfound : ∀ map, host.found map = true) {l : MapName × List UInt32}
    (hl : l ∈ allowlistsInEffect (loadConfig host).2) (key : UInt32) :
    ⟨l.1, key, 1⟩ ∈ (configure host (opened host)).entries ↔
      ∃ i, l.2[i]? = some key ∧ host.updates l.1 i = true := by
  have hupdated : (l.1, allowlistEntries l.2) ∈ updated host (loadConfig host).2 := by
    refine List.mem_append_right _ (List.mem_append_left _ ?_)
    exact List.mem_map.mpr ⟨l, hl, rfl⟩
  have hwritten : ⟨l.1, key, 1⟩ ∈ (updateElems host l.1 (allowlistEntries l.2)).written ↔
      ∃ i, l.2[i]? = some key ∧ host.updates l.1 i = true := by
    rw [mem_written (hfound l.1)]
    simp [allowlistEntries]
  rw [mem_entries, ← hwritten]
  constructor
  · rintro ⟨p, hp, hmem⟩
    have hmap : l.1 = p.1 := map_of_mem_written hmem
    have hsame : p = (l.1, allowlistEntries l.2) :=
      List.inj_on_of_nodup_map (updated_nodup host _) hp hupdated hmap.symm
    rwa [hsame] at hmem
  · intro hmem
    exact ⟨_, hupdated, hmem⟩

theorem mem_processProbeKeys (kind : ProcessEventKind) : kind ∈ processProbeKeys := by
  cases kind <;> decide

theorem mem_networkProbeKeys (kind : NetworkEventKind) : kind ∈ networkProbeKeys := by
  cases kind <;> decide

variable {host callback} in
/-- Behind a clean report only the entries of the allowlists are in question. -/
theorem OtherCalls.complete_iff (h : OtherCalls host callback) :
    Complete host (configure host (opened host)) ↔
      ∀ l ∈ allowlistsInEffect (loadConfig host).2, ∀ key ∈ l.2,
        ∃ i, l.2[i]? = some key ∧ host.updates l.1 i = true := by
  constructor
  · intro hcomplete l hl key hkey
    exact (allowlist_mem_iff host h.maps hl key).mp (hcomplete.allowlists l hl key hkey)
  · intro hwritten
    have htoggle := @OtherCalls.toggle_mem host callback h
    refine
      { config := h.config, maps := h.maps, process := ?_, file := ?_, syscall := ?_, network := ?_,
        pidFilter := ?_, uidFilter := ?_, portFilter := ?_, suppress := ?_, allowlists := ?_, programs := ?_ }
    · intro kind
      exact htoggle (.head _) (List.mem_map.mpr ⟨kind, mem_processProbeKeys kind, rfl⟩)
    · intro kind
      refine htoggle (.tail _ (.tail _ (.head _))) ?_
      cases kind <;> simp [enabled]
    · exact htoggle (.tail _ (.head _)) List.mem_cons_self
    · intro kind
      exact htoggle (.tail _ (.tail _ (.tail _ (.head _))))
        (List.mem_map.mpr ⟨kind, mem_networkProbeKeys kind, rfl⟩)
    · exact htoggle (.tail _ (.tail _ (.tail _ (.tail _ (.head _))))) List.mem_cons_self
    · exact htoggle (.tail _ (.tail _ (.tail _ (.tail _ (.tail _ (.head _)))))) List.mem_cons_self
    · exact htoggle (.tail _ (.tail _ (.tail _ (.tail _ (.tail _ (.tail _ (.head _))))))) List.mem_cons_self
    · exact htoggle (List.mem_append_right _ List.mem_cons_self) List.mem_cons_self
    · intro l hl key hkey
      exact (allowlist_mem_iff host h.maps hl key).mpr (hwritten l hl key hkey)
    · rw [configure_links, List.filter_eq_self]
      exact h.programs

/-- The report tells of everything that failed. -/
structure Honest : Prop where
  complete : (start host callback).1 = true → (start host callback).2.report.degraded = false →
    Complete host (start host callback).2
  consistent : Consistent (start host callback).2.report

/-- An allowlist is written in part, something of each other one is written, and nothing else fails. -/
structure WritesInPart : Prop where
  others : OtherCalls host callback
  applied : ∀ l ∈ allowlistsInEffect (loadConfig host).2, SomeApplied host l
  part : ∃ l ∈ allowlistsInEffect (loadConfig host).2, ∃ key ∈ l.2,
    ∀ i, l.2[i]? = some key → host.updates l.1 i = false

variable {host callback} in
theorem WritesInPart.not_honest (h : WritesInPart host callback) : ¬Honest host callback := by
  intro hhonest
  obtain ⟨hstarted, hclean⟩ := (start_clean_iff host callback).mpr ⟨h.others, h.applied⟩
  have hcomplete := hhonest.complete hstarted hclean
  rw [start_snd h.others.runs] at hcomplete
  obtain ⟨l, hl, key, hkey, hpart⟩ := h.part
  obtain ⟨i, hget, hok⟩ := h.others.complete_iff.mp hcomplete l hl key hkey
  rw [hpart i hget] at hok
  cases hok

/-- **The startup report is honest** exactly if no allowlist is written in part while nothing else fails. -/
theorem start_honest_iff : Honest host callback ↔ ¬WritesInPart host callback := by
  constructor
  · exact fun hhonest hpart => hpart.not_honest hhonest
  · intro hpart
    refine ⟨fun hstarted hclean => ?_, start_consistent host callback⟩
    obtain ⟨hothers, happlied⟩ := (start_clean_iff host callback).mp ⟨hstarted, hclean⟩
    rw [start_snd hothers.runs, hothers.complete_iff]
    intro l hl key hkey
    by_contra hnone
    push Not at hnone
    refine hpart ⟨hothers, happlied, l, hl, key, hkey, fun i hget => ?_⟩
    exact Bool.eq_false_iff.mpr (hnone i hget)

end Start

/-- Two pids are configured, and the update for the second fails. -/
def secondFails : Host where
  envBpfObject := none
  defaultBpfObjectPath := str "bpf/event_logger.bpf.o"
  envConfig := none
  opens := true
  loads := true
  config := some (str "pid_allowlist: [1, 2]\n")
  found _ := true
  updates map i := !(map == .pidAllowlist && i == 1)
  programs := [{ name := some (str "on_sched_exec"), attaches := true }]
  ringBuffer := true
  pid := 100

theorem loadConfig_secondFails : loadConfig secondFails = (true, { pidAllowlist := [1, 2] }) := by decide

/-- The report of such a start is clean, with one pid of the two in the map. -/
theorem not_start_honest : ¬ ∀ (host : Host) (callback : Bool), Honest host callback := by
  intro h
  refine WritesInPart.not_honest { others := ?_, applied := ?_, part := ?_ } (h secondFails true)
  · refine
      { runs := ⟨rfl, rfl, rfl, ⟨_, List.mem_cons_self, rfl⟩, rfl, rfl⟩
        config := by rw [loadConfig_secondFails]
        maps := fun _ => rfl, toggles := ?_, programs := ?_ }
    · intro p hp i _
      have hmap : p.1 ≠ .pidAllowlist := by
        have hmaps : ∀ m ∈ (probeToggles (loadConfig secondFails).2 ++ filterFlags (loadConfig secondFails).2 ++
            [(MapName.suppressTgid, [(0, secondFails.pid)])]).map Prod.fst, m ≠ .pidAllowlist := by
          rw [loadConfig_secondFails]
          decide
        exact hmaps p.1 (List.mem_map.mpr ⟨p, hp, rfl⟩)
      show (!(p.1 == .pidAllowlist && i == 1)) = true
      rw [beq_eq_false_iff_ne.mpr hmap]
      rfl
    · intro prog hprog
      rw [List.mem_singleton.mp hprog]
  · rw [loadConfig_secondFails]
    intro l hl
    simp only [allowlistsInEffect, List.mem_cons, List.not_mem_nil, or_false] at hl
    rcases hl with rfl | rfl | rfl | rfl
    · exact Or.inr (by decide)
    · exact Or.inl rfl
    · exact Or.inl rfl
    · exact Or.inl rfl
  · rw [loadConfig_secondFails]
    refine ⟨_, List.mem_cons_self, 2, by decide, fun i hget => ?_⟩
    rcases i with _ | _ | i
    · exact absurd hget (by decide)
    · rfl
    · simp at hget

end ETraceGen.Collector
