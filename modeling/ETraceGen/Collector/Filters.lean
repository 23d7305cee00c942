import ETraceGen.Collector.Honesty
import ETraceGen.Bpf.Gates

/-!
# What the configuration lets through

The toggles are array maps, zero until a start writes them, so what a start could not enable stays off.

* `probeMaps` : the toggles as the handlers look them up;
* `gates_of_start` : which of them are on;
* `records_configured` : every record of a run behind a start is one that its configuration asks for;
* `allowlists_unused` : the four allowlists decide nothing.
-/

namespace ETraceGen.Collector

open Config Bpf

/-- A slot of an array map. -/
def arrayValue (entries : List MapEntry) (map : MapName) (key : UInt32) : UInt32 :=
  (((entries.filter (·.map == map)).filter (·.key == key)).getLast?.map MapEntry.value).getD 0

/-- `bpf_map_lookup_elem` of an array map with that many slots. -/
def arrayLookup (maxEntries : Nat) (entries : List MapEntry) (map : MapName) (key : UInt32) : Option UInt32 :=
  if key.toNat < maxEntries then some (arrayValue entries map key) else none

/-- The toggle maps of the object after these updates. -/
def probeMaps (entries : List MapEntry) : ProbeMaps where
  fileProbeEnabled key := (arrayLookup 4 entries .fileProbeEnabled key).map UInt32.toUInt8
  processProbeEnabled key := (arrayLookup 8 entries .processProbeEnabled key).map UInt32.toUInt8
  syscallProbeEnabled := (arrayLookup 1 entries .syscallProbeEnabled 0).map UInt32.toUInt8
  networkProbeEnabled key := (arrayLookup 32 entries .networkProbeEnabled key).map UInt32.toUInt8
  suppressTgid := arrayLookup 1 entries .suppressTgid 0

/-! ## The slots -/

section Slots
variable {host : Host} {cfg : RuntimeConfig}

theorem filter_written {ps : MapUpdates} (hps : (ps.map Prod.fst).Nodup) {p : MapName × List (UInt32 × UInt32)}
    (hp : p ∈ ps) : (writtenIn host ps).filter (·.map == p.1) = (updateElems host p.1 p.2).written := by
  have hother : ∀ {map : MapName} {q : MapName × List (UInt32 × UInt32)}, q.1 ≠ map →
      (updateElems host q.1 q.2).written.filter (·.map == map) = [] := by
    intro map q hne
    rw [List.filter_eq_nil_iff]
    intro e he heq
    exact hne ((map_of_mem_written he).symm.trans (beq_iff_eq.mp heq))
  have hothers : ∀ {map : MapName} {qs : MapUpdates}, map ∉ qs.map Prod.fst →
      (writtenIn host qs).filter (·.map == map) = [] := by
    intro map qs hmap
    rw [writtenIn, List.filter_flatMap, List.flatMap_eq_nil_iff]
    intro q hq
    exact hother fun heq => hmap (List.mem_map.mpr ⟨q, hq, heq⟩)
  have hown : (updateElems host p.1 p.2).written.filter (·.map == p.1) = (updateElems host p.1 p.2).written := by
    rw [List.filter_eq_self]
    intro e he
    exact beq_iff_eq.mpr (map_of_mem_written he)
  induction ps with
  | nil => cases hp
  | cons q ps ih =>
    rw [List.map_cons, List.nodup_cons] at hps
    rw [writtenIn_cons, List.filter_append]
    rcases List.mem_cons.mp hp with rfl | hp
    · rw [hown, hothers hps.1, List.append_nil]
    · have hne : q.1 ≠ p.1 := fun heq => hps.1 (heq ▸ List.mem_map.mpr ⟨p, hp, rfl⟩)
      rw [hother hne, List.nil_append]
      exact ih hps.2 hp

/-- An update of that key succeeds. -/
def wrote (host : Host) (p : MapName × List (UInt32 × UInt32)) (key : UInt32) : Bool :=
  host.found p.1 && p.2.zipIdx.any fun e => e.1.1 == key && host.updates p.1 e.2

theorem wrote_iff {p : MapName × List (UInt32 × UInt32)} {key : UInt32} :
    wrote host p key = true ↔
      host.found p.1 = true ∧ ∃ i value, p.2[i]? = some (key, value) ∧ host.updates p.1 i = true := by
  simp only [wrote, Bool.and_eq_true, List.any_eq_true, beq_iff_eq]
  refine and_congr_right fun _ => ?_
  constructor
  · rintro ⟨⟨⟨key', value⟩, i⟩, hmem, rfl, hok⟩
    exact ⟨i, value, List.mem_zipIdx_iff_getElem?.mp hmem, hok⟩
  · rintro ⟨i, value, hget, hok⟩
    exact ⟨((key, value), i), List.mem_zipIdx_iff_getElem?.mpr hget, rfl, hok⟩

theorem mem_written_iff {p : MapName × List (UInt32 × UInt32)} {e : MapEntry} :
    e ∈ (updateElems host p.1 p.2).written ↔
      e.map = p.1 ∧ host.found p.1 = true ∧ ∃ i, p.2[i]? = some (e.key, e.value) ∧ host.updates p.1 i = true := by
  constructor
  · intro he
    have hmap := map_of_mem_written he
    by_cases hfound : host.found p.1 = true
    · obtain ⟨map, key, value⟩ := e
      obtain rfl : map = p.1 := hmap
      exact ⟨rfl, hfound, (mem_written hfound).mp he⟩
    · rw [updateElems, if_neg hfound] at he
      cases he
  · obtain ⟨map, key, value⟩ := e
    rintro ⟨hmap, hfound, hupdate⟩
    obtain rfl : map = p.1 := hmap
    exact (mem_written hfound).mpr hupdate

/-- The slot of a key that is updated with one value only. -/
theorem arrayValue_eq {ps : MapUpdates} (hps : (ps.map Prod.fst).Nodup)
    {p : MapName × List (UInt32 × UInt32)} (hp : p ∈ ps) {key value : UInt32}
    (hvalue : ∀ value', (key, value') ∈ p.2 → value' = value) :
    arrayValue (writtenIn host ps) p.1 key = if wrote host p key then value else 0 := by
  unfold arrayValue
  rw [filter_written hps hp]
  cases hlast : ((updateElems host p.1 p.2).written.filter (·.key == key)).getLast? with
  | none =>
    rw [if_neg]
    · rfl
    · intro hwrote
      obtain ⟨hfound, i, value', hget, hok⟩ := wrote_iff.mp hwrote
      have hmem : ⟨p.1, key, value'⟩ ∈ (updateElems host p.1 p.2).written.filter (·.key == key) :=
        List.mem_filter.mpr ⟨mem_written_iff.mpr ⟨rfl, hfound, i, hget, hok⟩, beq_self_eq_true key⟩
      rw [List.getLast?_eq_none_iff.mp hlast] at hmem
      cases hmem
  | some e =>
    obtain ⟨hmem, hkey⟩ := List.mem_filter.mp (List.mem_of_getLast? hlast)
    obtain ⟨-, hfound, i, hget, hok⟩ := mem_written_iff.mp hmem
    rw [beq_iff_eq.mp hkey] at hget
    rw [if_pos (wrote_iff.mpr ⟨hfound, i, e.value, hget, hok⟩)]
    exact hvalue e.value (List.mem_of_getElem? hget)

end Slots

/-! ## The gates -/

section Start
variable (host : Host) (callback : Bool)

/-- The toggles behind a start. -/
def startMaps : ProbeMaps := probeMaps (start host callback).2.entries

/-- An update of that key of that map is made, and succeeds. -/
def updateSucceeds (map : MapName) (key : UInt32) : Bool :=
  (updated host (loadConfig host).2).any fun p => p.1 == map && wrote host p key

variable {host callback}

theorem updateSucceeds_eq {p : MapName × List (UInt32 × UInt32)} (hp : p ∈ updated host (loadConfig host).2)
    (key : UInt32) : updateSucceeds host p.1 key = wrote host p key := by
  rw [Bool.eq_iff_iff, updateSucceeds, List.any_eq_true]
  constructor
  · rintro ⟨q, hq, hwrote⟩
    obtain ⟨hmap, hwrote⟩ := Bool.and_eq_true_iff.mp hwrote
    rwa [List.inj_on_of_nodup_map (updated_nodup host _) hq hp (beq_iff_eq.mp hmap)] at hwrote
  · exact fun hwrote => ⟨p, hp, Bool.and_eq_true_iff.mpr ⟨beq_self_eq_true p.1, hwrote⟩⟩

/-- The slot of a toggle: zero, unless its update succeeds. -/
theorem slot_eq (hruns : Runs host callback) {p : MapName × List (UInt32 × UInt32)}
    (hp : p ∈ updated host (loadConfig host).2) {key value : UInt32}
    (hvalue : ∀ value', (key, value') ∈ p.2 → value' = value) :
    arrayValue (start host callback).2.entries p.1 key = if updateSucceeds host p.1 key then value else 0 := by
  have hentries : (start host callback).2.entries = writtenIn host (updated host (loadConfig host).2) := by
    rw [start_snd hruns, (configure_adds host (opened host)).entries]
    rfl
  rw [hentries, arrayValue_eq (updated_nodup host _) hp hvalue, updateSucceeds_eq hp]

theorem flag_toggle (on ok : Bool) : ((if ok then flag on else 0).toUInt8 != 0) = (on && ok) := by
  cases on <;> cases ok <;> rfl

/-- What a handler finds under a key that the updates set to this flag. -/
theorem lookup_eq (hruns : Runs host callback) {map : MapName} {entries : List (UInt32 × UInt32)}
    (hp : (map, entries) ∈ updated host (loadConfig host).2) {key value : UInt32}
    (hvalue : ∀ value', (key, value') ∈ entries → value' = value) {maxEntries : Nat} (hkey : key.toNat < maxEntries) :
    arrayLookup maxEntries (start host callback).2.entries map key =
      some (if updateSucceeds host map key then value else 0) := by
  rw [arrayLookup, if_pos hkey]
  exact congrArg some (slot_eq hruns hp hvalue)

theorem processGate_eq (hruns : Runs host callback) (kind : ProcessEventKind) :
    isProcessProbeEnabled (startMaps host callback) kind =
      ((loadConfig host).2.domains.process && updateSucceeds host .processProbeEnabled kind.code) := by
  have hvalue : ∀ value', (kind.code, value') ∈ processProbeKeys.map (fun kind =>
      (kind.code, flag (loadConfig host).2.domains.process)) → value' = flag (loadConfig host).2.domains.process := by
    intro value' hmem
    obtain ⟨_, -, heq⟩ := List.mem_map.mp hmem
    exact (Prod.mk.inj heq).2.symm
  have hkey : kind.code.toNat < 8 := by
    cases kind <;> decide
  have hlook := lookup_eq hruns (.head _) hvalue hkey
  unfold isProcessProbeEnabled startMaps probeMaps
  dsimp only
  rw [hlook]
  exact flag_toggle _ _

theorem fileGate_eq (hruns : Runs host callback) (kind : FileEventKind) :
    isFileProbeEnabled (startMaps host callback) kind =
      (enabled (effectiveFileProbes (loadConfig host).2) kind && updateSucceeds host .fileProbeEnabled kind.code) := by
  set file := effectiveFileProbes (loadConfig host).2
  have hvalue : ∀ value', (kind.code, value') ∈ [(FileEventKind.openat.code, flag file.openat),
      (FileEventKind.unlinkat.code, flag file.unlinkat), (FileEventKind.renameat2.code, flag file.renameat2)] →
      value' = flag (enabled file kind) := by
    intro value' hmem
    cases kind <;> simpa [FileEventKind.code, enabled] using hmem
  have hkey : kind.code.toNat < 4 := by
    cases kind <;> decide
  have hlook := lookup_eq hruns (.tail _ (.tail _ (.head _))) hvalue hkey
  unfold isFileProbeEnabled startMaps probeMaps
  dsimp only
  rw [hlook]
  exact flag_toggle _ _

theorem syscallGate_eq (hruns : Runs host callback) :
    isSyscallProbeEnabled (startMaps host callback) =
      ((loadConfig host).2.domains.syscall && updateSucceeds host .syscallProbeEnabled 0) := by
  have hvalue : ∀ value', ((0 : UInt32), value') ∈ [((0 : UInt32), flag (loadConfig host).2.domains.syscall)] →
      value' = flag (loadConfig host).2.domains.syscall := by
    intro value' hmem
    exact (Prod.mk.inj (List.mem_singleton.mp hmem)).2
  have hlook := lookup_eq hruns (.tail _ (.head _)) hvalue (Nat.one_pos)
  unfold isSyscallProbeEnabled startMaps probeMaps
  dsimp only
  rw [hlook]
  exact flag_toggle _ _

theorem networkGate_eq (hruns : Runs host callback) (kind : NetworkEventKind) :
    isNetworkProbeEnabled (startMaps host callback) kind =
      ((loadConfig host).2.domains.networkSocket && updateSucceeds host .networkProbeEnabled kind.code) := by
  have hvalue : ∀ value', (kind.code, value') ∈ networkProbeKeys.map (fun kind =>
      (kind.code, flag (loadConfig host).2.domains.networkSocket)) →
      value' = flag (loadConfig host).2.domains.networkSocket := by
    intro value' hmem
    obtain ⟨_, -, heq⟩ := List.mem_map.mp hmem
    exact (Prod.mk.inj heq).2.symm
  have hkey : kind.code.toNat < 32 := by
    cases kind <;> decide
  have hlook := lookup_eq hruns (.tail _ (.tail _ (.tail _ (.head _)))) hvalue hkey
  unfold isNetworkProbeEnabled startMaps probeMaps
  dsimp only
  rw [hlook]
  exact flag_toggle _ _

theorem suppressTgid_eq (hruns : Runs host callback) :
    (startMaps host callback).suppressTgid = some (if updateSucceeds host .suppressTgid 0 then host.pid else 0) := by
  have hvalue : ∀ value', ((0 : UInt32), value') ∈ [((0 : UInt32), host.pid)] → value' = host.pid := by
    intro value' hmem
    exact (Prod.mk.inj (List.mem_singleton.mp hmem)).2
  have hp : (MapName.suppressTgid, [((0 : UInt32), host.pid)]) ∈ updated host (loadConfig host).2 :=
    List.mem_append_right _ (List.mem_append_right _ (List.mem_append_right _ List.mem_cons_self))
  exact lookup_eq hruns hp hvalue Nat.one_pos

/-- **Behind a start** a probe is on exactly if the configuration has it on and the update that turns it on
succeeded, and the collector's own process is suppressed exactly if that update did. -/
theorem gates_of_start (h : (start host callback).1 = true) :
    (∀ kind, isProcessProbeEnabled (startMaps host callback) kind =
        ((loadConfig host).2.domains.process && updateSucceeds host .processProbeEnabled kind.code)) ∧
      (∀ kind, isFileProbeEnabled (startMaps host callback) kind =
        (enabled (effectiveFileProbes (loadConfig host).2) kind && updateSucceeds host .fileProbeEnabled kind.code)) ∧
      isSyscallProbeEnabled (startMaps host callback) =
        ((loadConfig host).2.domains.syscall && updateSucceeds host .syscallProbeEnabled 0) ∧
      (∀ kind, isNetworkProbeEnabled (startMaps host callback) kind =
        ((loadConfig host).2.domains.networkSocket && updateSucceeds host .networkProbeEnabled kind.code)) ∧
      (startMaps host callback).suppressTgid = some (if updateSucceeds host .suppressTgid 0 then host.pid else 0) := by
  have hruns := (start_fst_iff host callback).mp h
  exact ⟨processGate_eq hruns, fileGate_eq hruns, syscallGate_eq hruns, networkGate_eq hruns, suppressTgid_eq hruns⟩

/-- The configuration asks for records of this kind. -/
def AskedFor (cfg : RuntimeConfig) : EventVariant → Prop
  | .process _ => cfg.domains.process = true
  | .file ev =>
    cfg.domains.file = true ∧ ∃ kind : FileEventKind, ev.kind = kind.code ∧ enabled cfg.fileProbes kind = true
  | .syscall _ => cfg.domains.syscall = true
  | .network _ => cfg.domains.networkSocket = true

theorem enabled_effectiveFileProbes {cfg : RuntimeConfig} {kind : FileEventKind}
    (h : enabled (effectiveFileProbes cfg) kind = true) :
    cfg.domains.file = true ∧ enabled cfg.fileProbes kind = true := by
  unfold effectiveFileProbes at h
  split_ifs at h with hfile
  · exact ⟨hfile, h⟩
  · cases kind <;> cases h

/-- **Whatever fails at a start** and whatever runs afterwards, every record is one that the configuration asks for,
and none is about the collector itself if that could be told to the handlers. -/
theorem records_configured (h : (start host callback).1 = true) {steps : List Step} {record : EventVariant}
    (hmem : record ∈ (run (startMaps host callback) steps).events.records) :
    AskedFor (loadConfig host).2 record ∧
      (updateSucceeds host .suppressTgid 0 = true → host.pid ≠ 0 → record.hdr.tgid ≠ host.pid) := by
  have hruns := (start_fst_iff host callback).mp h
  obtain ⟨hprobe, hsuppressed⟩ := mem_records_allowed hmem
  constructor
  · cases record with
    | process ev =>
      obtain ⟨kind, -, hon⟩ := hprobe
      rw [processGate_eq hruns] at hon
      exact (Bool.and_eq_true_iff.mp hon).1
    | file ev =>
      obtain ⟨kind, hkind, hon⟩ := hprobe
      rw [fileGate_eq hruns] at hon
      obtain ⟨hfile, hkindOn⟩ := enabled_effectiveFileProbes (Bool.and_eq_true_iff.mp hon).1
      exact ⟨hfile, kind, hkind, hkindOn⟩
    | syscall ev =>
      have hon : isSyscallProbeEnabled (startMaps host callback) = true := hprobe
      rw [syscallGate_eq hruns] at hon
      exact (Bool.and_eq_true_iff.mp hon).1
    | network ev =>
      obtain ⟨kind, -, hon⟩ := hprobe
      rw [networkGate_eq hruns] at hon
      exact (Bool.and_eq_true_iff.mp hon).1
  · intro hupdate hpid
    refine hsuppressed host.pid ?_ hpid
    rw [suppressTgid_eq hruns, if_pos hupdate]

/-- A start that fails leaves the toggles as they are made. -/
theorem entries_of_failed (h : (start host callback).1 = false) : (start host callback).2.entries = [] := by
  unfold start at h ⊢
  dsimp only at h ⊢
  split_ifs at h ⊢
  · exact Startup.degradeIf_entries _ _ _
  · exact Startup.degradeIf_entries _ _ _
  all_goals rfl

end Start

section Allowlists
variable {host : Host} {callback : Bool} {config : Option Bytes}

theorem arrayValue_start (hruns : Runs host callback) {p : MapName × List (UInt32 × UInt32)}
    (hp : p ∈ updated host (loadConfig host).2) (key : UInt32) :
    arrayValue (start host callback).2.entries p.1 key =
      (((updateElems host p.1 p.2).written.filter (·.key == key)).getLast?.map MapEntry.value).getD 0 := by
  have hentries : (start host callback).2.entries = writtenIn host (updated host (loadConfig host).2) := by
    rw [start_snd hruns, (configure_adds host (opened host)).entries]
    rfl
  rw [hentries, arrayValue, filter_written (updated_nodup host _) hp]

theorem probeMaps_congr {entries entries' : List MapEntry}
    (h : ∀ map ∈ [MapName.processProbeEnabled, .syscallProbeEnabled, .fileProbeEnabled, .networkProbeEnabled,
      .suppressTgid], arrayValue entries map = arrayValue entries' map) : probeMaps entries = probeMaps entries' := by
  have hlook : ∀ map ∈ [MapName.processProbeEnabled, .syscallProbeEnabled, .fileProbeEnabled, .networkProbeEnabled,
      .suppressTgid], ∀ maxEntries, arrayLookup maxEntries entries map = arrayLookup maxEntries entries' map := by
    intro map hmap maxEntries
    funext key
    rw [arrayLookup, arrayLookup, h map hmap]
  unfold probeMaps
  rw [hlook .processProbeEnabled (by decide), hlook .syscallProbeEnabled (by decide),
    hlook .fileProbeEnabled (by decide), hlook .networkProbeEnabled (by decide), hlook .suppressTgid (by decide)]

/-- The toggles come of the domains and of the file probes only. -/
theorem startMaps_congr (hdomains : (loadConfig { host with config }).2.domains = (loadConfig host).2.domains)
    (hprobes : (loadConfig { host with config }).2.fileProbes = (loadConfig host).2.fileProbes) :
    startMaps { host with config } callback = startMaps host callback := by
  have hfile : effectiveFileProbes (loadConfig { host with config }).2 = effectiveFileProbes (loadConfig host).2 := by
    rw [effectiveFileProbes, effectiveFileProbes, hdomains, hprobes]
  have htoggles : probeToggles (loadConfig { host with config }).2 = probeToggles (loadConfig host).2 := by
    rw [probeToggles, probeToggles, hdomains, hfile]
  by_cases hruns : Runs host callback
  · have hruns' : Runs { host with config } callback :=
      ⟨hruns.callback, hruns.opens, hruns.loads, hruns.attached, hruns.events, hruns.ringBuffer⟩
    have hvalue : ∀ p ∈ probeToggles (loadConfig host).2 ++ [(MapName.suppressTgid, [(0, host.pid)])],
        arrayValue (start { host with config } callback).2.entries p.1 =
          arrayValue (start host callback).2.entries p.1 := by
      intro p hp
      funext key
      have hmem : ∀ lists flags : MapUpdates,
          p ∈ probeToggles (loadConfig host).2 ++ (lists ++ (flags ++ [(MapName.suppressTgid, [(0, host.pid)])])) := by
        intro lists flags
        simp only [List.mem_append] at hp ⊢
        tauto
      have hp' : p ∈ updated { host with config } (loadConfig { host with config }).2 := by
        rw [updated, htoggles]
        exact hmem _ _
      rw [arrayValue_start hruns' hp' key, arrayValue_start hruns (hmem _ _) key]
      rfl
    refine probeMaps_congr fun map hmap => ?_
    obtain ⟨p, hp, rfl⟩ : ∃ p ∈ probeToggles (loadConfig host).2 ++ [(MapName.suppressTgid, [(0, host.pid)])],
        p.1 = map := by
      rw [← List.mem_map]
      exact hmap
    exact hvalue p hp
  · have hfailed : ∀ host' : Host, ¬Runs host' callback → (start host' callback).2.entries = [] := fun host' hno =>
      entries_of_failed (Bool.eq_false_iff.mpr (mt (start_fst_iff host' callback).mp hno))
    have hruns' : ¬Runs { host with config } callback := fun h =>
      hruns ⟨h.callback, h.opens, h.loads, h.attached, h.events, h.ringBuffer⟩
    rw [startMaps, startMaps, hfailed host hruns, hfailed _ hruns']

/-- **The allowlists decide nothing**: two configurations with the same domains and the same file probes give the same
records of every run, whatever their allowlists of pids, uids, system calls and ports are. -/
theorem allowlists_unused (hdomains : (loadConfig { host with config }).2.domains = (loadConfig host).2.domains)
    (hprobes : (loadConfig { host with config }).2.fileProbes = (loadConfig host).2.fileProbes) (steps : List Step) :
    (run (startMaps { host with config } callback) steps).events.records =
      (run (startMaps host callback) steps).events.records := by
  rw [startMaps_congr hdomains hprobes]

end Allowlists

/-! ## A start with the defaults -/

theorem start_secondFails : (start secondFails true).1 = true :=
  (start_fst_iff _ _).mpr ⟨rfl, rfl, rfl, ⟨_, List.mem_cons_self, rfl⟩, rfl, rfl⟩

theorem gates_of_start_secondFails : isFileProbeEnabled (startMaps secondFails true) .openat = true := by
  rw [(gates_of_start start_secondFails).2.1 .openat, updateSucceeds, loadConfig_secondFails]
  decide

/-- Without a configuration file nothing else is recorded than with an allowlist of two pids. -/
theorem allowlists_unused_none :
    (run (startMaps { secondFails with config := none } true) [.deliver env7 (.schedFork 8)]).events.records =
      (run (startMaps secondFails true) [.deliver env7 (.schedFork 8)]).events.records :=
  allowlists_unused (by rw [loadConfig_secondFails]; rfl) (by rw [loadConfig_secondFails]; rfl) _

end ETraceGen.Collector
