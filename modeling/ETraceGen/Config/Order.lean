import ETraceGen.Config.Runtime
import ETraceGen.Config.Sink

/-!
# The order of sections

Both loaders forget at a header which section they were in, and what they set in one section they set in no
other. The sections of a file may stand in any order.

* `RuntimeStep`, `SinkStep` : what a line does;
* `runtimeReader`, `sinkReader` : the loops as readers;
* `WellCut` : a file in blocks that share neither a section nor an allowlist;
* `loadConfig_perm` : the same configuration for every order of the blocks.
-/

namespace ETraceGen.Config

open Sections (Reader)

/-! ## The collector's loop -/

/-- Where a header leads. -/
def sectionOf (trimmed : Bytes) : InSection :=
  if trimmed = str "file_probes:" then { fileProbes := true }
  else if trimmed = str "domains:" then { domains := true }
  else if trimmed = str "network_filters:" then { networkFilters := true }
  else {}

/-- What a line does to the place and the configuration. -/
inductive RuntimeStep (place : InSection) (trimmed : Bytes) :
    InSection → (RuntimeConfig → RuntimeConfig) → Prop where
  | header (h : isHeader trimmed = true) : RuntimeStep place trimmed (sectionOf trimmed) id
  | skip (h : isHeader trimmed = false) : RuntimeStep place trimmed place id
  | pids (h : isHeader trimmed = false) (hkey : hasKey "pid_allowlist:" trimmed = true) :
    RuntimeStep place trimmed place fun cfg =>
      { cfg with pidAllowlist := parseUint32AllowlistInline trimmed cfg.pidAllowlist }
  | uids (h : isHeader trimmed = false) (hkey : hasKey "uid_allowlist:" trimmed = true) :
    RuntimeStep place trimmed place fun cfg =>
      { cfg with uidAllowlist := parseUint32AllowlistInline trimmed cfg.uidAllowlist }
  | syscalls (h : isHeader trimmed = false) (hkey : hasKey "syscall_allowlist:" trimmed = true) :
    RuntimeStep place trimmed place fun cfg =>
      { cfg with syscallAllowlist := parseInt32AllowlistInline trimmed cfg.syscallAllowlist }
  | ports (h : isHeader trimmed = false) (hplace : place.networkFilters = true) :
    RuntimeStep place trimmed place fun cfg =>
      { cfg with
        network := { portAllowlist := parseUint32AllowlistInline trimmed cfg.network.portAllowlist } }
  | fileProbe (h : isHeader trimmed = false) (hplace : place.fileProbes = true) (key value : Bytes) :
    RuntimeStep place trimmed place fun cfg =>
      { cfg with fileProbes := setFileProbe key value cfg.fileProbes }
  | domain (h : isHeader trimmed = false) (hplace : place.domains = true) (key value : Bytes) :
    RuntimeStep place trimmed place fun cfg => { cfg with domains := setDomain key value cfg.domains }

/-- The line with a colon behind all the tests. -/
theorem runtimeStep_split {place : InSection} {trimmed : Bytes} (h : isHeader trimmed = false) :
    ∃ f, RuntimeStep place trimmed place f ∧ ∀ cfg : RuntimeConfig,
      (match splitColon trimmed with
        | none => (place, cfg)
        | some (key, value) =>
          if place.fileProbes then (place, { cfg with fileProbes := setFileProbe key value cfg.fileProbes })
          else if place.domains then (place, { cfg with domains := setDomain key value cfg.domains })
          else (place, cfg)) = (place, f cfg) := by
  cases splitColon trimmed with
  | none => exact ⟨_, .skip h, fun cfg => rfl⟩
  | some pair =>
    obtain ⟨key, value⟩ := pair
    by_cases hprobes : place.fileProbes = true
    · exact ⟨_, .fileProbe h hprobes key value, fun cfg => if_pos hprobes⟩
    · by_cases hdomains : place.domains = true
      · exact ⟨_, .domain h hdomains key value, fun cfg => (if_neg hprobes).trans (if_pos hdomains)⟩
      · exact ⟨_, .skip h, fun cfg => (if_neg hprobes).trans (if_neg hdomains)⟩

theorem runtimeLine_step (place : InSection) (line : Bytes) :
    ∃ place' f, RuntimeStep place (cleaned line) place' f ∧
      ∀ cfg, runtimeLine (place, cfg) line = (place', f cfg) := by
  unfold runtimeLine
  dsimp only
  generalize cleaned line = trimmed
  by_cases hempty : trimmed = []
  · exact ⟨_, _, .skip (by rw [hempty]; rfl), fun cfg => if_pos hempty⟩
  simp only [if_neg hempty]
  by_cases hfile : trimmed = str "file_probes:"
  · refine ⟨_, _, .header (by rw [hfile]; decide), fun cfg => ?_⟩
    rw [if_pos hfile, sectionOf, if_pos hfile]
    rfl
  by_cases hdomains : trimmed = str "domains:"
  · refine ⟨_, _, .header (by rw [hdomains]; decide), fun cfg => ?_⟩
    rw [if_neg hfile, if_pos hdomains, sectionOf, if_neg hfile, if_pos hdomains]
    rfl
  by_cases hnetwork : trimmed = str "network_filters:"
  · refine ⟨_, _, .header (by rw [hnetwork]; decide), fun cfg => ?_⟩
    rw [if_neg hfile, if_neg hdomains, if_pos hnetwork, sectionOf, if_neg hfile, if_neg hdomains,
      if_pos hnetwork]
    rfl
  simp only [if_neg hfile, if_neg hdomains, if_neg hnetwork]
  by_cases hheader : isHeader trimmed = true
  · refine ⟨_, _, .header hheader, fun cfg => ?_⟩
    rw [if_pos hheader, sectionOf, if_neg hfile, if_neg hdomains, if_neg hnetwork]
    rfl
  have hline : isHeader trimmed = false := Bool.not_eq_true _ ▸ hheader
  simp only [if_neg hheader]
  by_cases hpids : hasKey "pid_allowlist:" trimmed = true
  · exact ⟨_, _, .pids hline hpids, fun cfg => if_pos hpids⟩
  by_cases huids : hasKey "uid_allowlist:" trimmed = true
  · exact ⟨_, _, .uids hline huids, fun cfg => (if_neg hpids).trans (if_pos huids)⟩
  by_cases hsyscalls : hasKey "syscall_allowlist:" trimmed = true
  · exact ⟨_, _, .syscalls hline hsyscalls,
      fun cfg => (if_neg hpids).trans ((if_neg huids).trans (if_pos hsyscalls))⟩
  simp only [if_neg hpids, if_neg huids, if_neg hsyscalls]
  by_cases hports : (place.networkFilters && hasKey "port_allowlist:" trimmed) = true
  · exact ⟨_, _, .ports hline (Bool.and_eq_true_iff.mp hports).1, fun cfg => if_pos hports⟩
  simp only [if_neg hports]
  obtain ⟨f, hf, heq⟩ := @runtimeStep_split place trimmed hline
  exact ⟨place, f, hf, heq⟩

def runtimeReader : Reader Bytes InSection RuntimeConfig where
  next place line := (runtimeLine (place, {}) line).1
  edit place line cfg := (runtimeLine (place, cfg) line).2

theorem runtimeReader_step (place : InSection) (line : Bytes) :
    RuntimeStep place (cleaned line) (runtimeReader.next place line) (runtimeReader.edit place line) ∧
      ∀ cfg, runtimeLine (place, cfg) line =
        (runtimeReader.next place line, runtimeReader.edit place line cfg) := by
  obtain ⟨place', f, hstep, heq⟩ := runtimeLine_step place line
  have hnext : runtimeReader.next place line = place' := congrArg Prod.fst (heq {})
  have hedit : runtimeReader.edit place line = f := funext fun cfg => congrArg Prod.snd (heq cfg)
  rw [hnext, hedit]
  exact ⟨hstep, heq⟩

theorem loadRuntimeConfig_eq (text : Bytes) (cfg : RuntimeConfig) :
    loadRuntimeConfig (some text) cfg = (true, (runtimeReader.read ({}, cfg) (lines text)).2) := by
  have hline : runtimeLine = fun p l => (runtimeReader.next p.1 l, runtimeReader.edit p.1 l p.2) := by
    funext p line
    exact (runtimeReader_step p.1 line).2 p.2
  rw [loadRuntimeConfig, hline]
  rfl

/-! ## The loop of the sink -/

inductive SinkStep (inSink : Bool) (trimmed : Bytes) : Bool → (SinkRuntimeConfig → SinkRuntimeConfig) → Prop where
  | header (h : isHeader trimmed = true) : SinkStep inSink trimmed (decide (trimmed = str "sink:")) id
  | skip (h : isHeader trimmed = false) : SinkStep inSink trimmed inSink id
  | set (h : isHeader trimmed = false) (hplace : inSink = true) (key value : Bytes) :
    SinkStep inSink trimmed inSink (setSinkKey key value)

theorem sinkLine_step (inSink : Bool) (line : Bytes) :
    ∃ inSink' f, SinkStep inSink (cleaned line) inSink' f ∧
      ∀ cfg, sinkLine (inSink, cfg) line = (inSink', f cfg) := by
  unfold sinkLine
  dsimp only
  generalize cleaned line = trimmed
  by_cases hempty : trimmed = []
  · exact ⟨_, _, .skip (by rw [hempty]; rfl), fun cfg => if_pos hempty⟩
  simp only [if_neg hempty]
  by_cases hsink : trimmed = str "sink:"
  · refine ⟨_, _, .header (by rw [hsink]; decide), fun cfg => ?_⟩
    rw [if_pos hsink, decide_eq_true hsink]
    rfl
  simp only [if_neg hsink]
  by_cases hheader : isHeader trimmed = true
  · refine ⟨_, _, .header hheader, fun cfg => ?_⟩
    rw [if_pos hheader, decide_eq_false hsink]
    rfl
  have hline : isHeader trimmed = false := Bool.not_eq_true _ ▸ hheader
  simp only [if_neg hheader]
  cases inSink with
  | false => exact ⟨_, _, .skip hline, fun cfg => if_pos rfl⟩
  | true =>
    cases splitColon trimmed with
    | none => exact ⟨_, _, .skip hline, fun cfg => if_neg Bool.false_ne_true⟩
    | some pair => exact ⟨_, _, .set hline rfl pair.1 (unquote pair.2), fun cfg => if_neg Bool.false_ne_true⟩

def sinkReader : Reader Bytes Bool SinkRuntimeConfig where
  next inSink line := (sinkLine (inSink, {}) line).1
  edit inSink line cfg := (sinkLine (inSink, cfg) line).2

theorem sinkReader_step (inSink : Bool) (line : Bytes) :
    SinkStep inSink (cleaned line) (sinkReader.next inSink line) (sinkReader.edit inSink line) ∧
      ∀ cfg, sinkLine (inSink, cfg) line =
        (sinkReader.next inSink line, sinkReader.edit inSink line cfg) := by
  obtain ⟨inSink', f, hstep, heq⟩ := sinkLine_step inSink line
  have hnext : sinkReader.next inSink line = inSink' := congrArg Prod.fst (heq {})
  have hedit : sinkReader.edit inSink line = f := funext fun cfg => congrArg Prod.snd (heq cfg)
  rw [hnext, hedit]
  exact ⟨hstep, heq⟩

theorem loadSinkRuntimeConfig_eq (text : Bytes) :
    loadSinkRuntimeConfig (some text) = (sinkReader.read (false, {}) (lines text)).2 := by
  have hline : sinkLine = fun p l => (sinkReader.next p.1 l, sinkReader.edit p.1 l p.2) := by
    funext p line
    exact (sinkReader_step p.1 line).2 p.2
  rw [loadSinkRuntimeConfig, hline]
  rfl

/-! ## Headers -/

/-- A line of the block, behind which the section of that name begins. -/
def HasHeader (name : String) (block : List Bytes) : Prop := ∃ line ∈ block, cleaned line = str name

/-- A line of the block with that allowlist. -/
def HasAllowlist (key : String) (block : List Bytes) : Prop :=
  ∃ line ∈ block, isHeader (cleaned line) = false ∧ hasKey key (cleaned line) = true

instance (name : String) (block : List Bytes) : Decidable (HasHeader name block) :=
  inferInstanceAs (Decidable (∃ line ∈ block, cleaned line = str name))

instance (key : String) (block : List Bytes) : Decidable (HasAllowlist key block) :=
  inferInstanceAs (Decidable (∃ line ∈ block, isHeader (cleaned line) = false ∧ hasKey key (cleaned line) = true))

theorem HasHeader.append {name : String} {block : List Bytes} (h : HasHeader name block) (rest : List Bytes) :
    HasHeader name (block ++ rest) := by
  obtain ⟨line, hmem, hname⟩ := h
  exact ⟨line, List.mem_append_left _ hmem, hname⟩

theorem runtimeReader_resets {line : Bytes} (h : isHeader (cleaned line) = true) :
    runtimeReader.Resets line := by
  refine @Reader.resets_of_const _ _ _ runtimeReader line (sectionOf (cleaned line)) id fun place => ?_
  have hstep := (runtimeReader_step place line).1
  generalize runtimeReader.next place line = place' at hstep ⊢
  generalize runtimeReader.edit place line = f at hstep ⊢
  cases hstep with
  | header => exact ⟨rfl, rfl⟩
  | _ h' => cases h.symm.trans h'

theorem sinkReader_resets {line : Bytes} (h : isHeader (cleaned line) = true) : sinkReader.Resets line := by
  refine @Reader.resets_of_const _ _ _ sinkReader line (decide (cleaned line = str "sink:")) id fun inSink => ?_
  have hstep := (sinkReader_step inSink line).1
  generalize sinkReader.next inSink line = inSink' at hstep ⊢
  generalize sinkReader.edit inSink line = f at hstep ⊢
  cases hstep with
  | header => exact ⟨rfl, rfl⟩
  | _ h' => cases h.symm.trans h'

/-- A section is entered at its header. -/
structure Entered (place : InSection) (before : List Bytes) : Prop where
  fileProbes : place.fileProbes = true → HasHeader "file_probes:" before
  domains : place.domains = true → HasHeader "domains:" before
  networkFilters : place.networkFilters = true → HasHeader "network_filters:" before

theorem entered_sectionOf {line : Bytes} {before : List Bytes} (hmem : line ∈ before) :
    Entered (sectionOf (cleaned line)) before := by
  unfold sectionOf
  by_cases hfile : cleaned line = str "file_probes:"
  · rw [if_pos hfile]
    exact ⟨fun _ => ⟨line, hmem, hfile⟩, nofun, nofun⟩
  by_cases hdomains : cleaned line = str "domains:"
  · rw [if_neg hfile, if_pos hdomains]
    exact ⟨nofun, fun _ => ⟨line, hmem, hdomains⟩, nofun⟩
  by_cases hnetwork : cleaned line = str "network_filters:"
  · rw [if_neg hfile, if_neg hdomains, if_pos hnetwork]
    exact ⟨nofun, nofun, fun _ => ⟨line, hmem, hnetwork⟩⟩
  · rw [if_neg hfile, if_neg hdomains, if_neg hnetwork]
    exact ⟨nofun, nofun, nofun⟩

theorem entered_foldl (before : List Bytes) : Entered (before.foldl runtimeReader.next {}) before := by
  induction before using List.reverseRecOn with
  | nil => exact ⟨nofun, nofun, nofun⟩
  | append_singleton before line ih =>
    rw [List.foldl_append, List.foldl_cons, List.foldl_nil]
    generalize before.foldl runtimeReader.next {} = place at ih ⊢
    have hkept : Entered place (before ++ [line]) :=
      ⟨fun h => (ih.fileProbes h).append _, fun h => (ih.domains h).append _,
        fun h => (ih.networkFilters h).append _⟩
    have hstep := (runtimeReader_step place line).1
    generalize runtimeReader.next place line = place' at hstep ⊢
    generalize runtimeReader.edit place line = f at hstep
    cases hstep with
    | header => exact entered_sectionOf (List.mem_append_right _ (List.mem_singleton_self line))
    | _ => exact hkept

theorem hasHeader_of_inSink (before : List Bytes) (h : before.foldl sinkReader.next false = true) :
    HasHeader "sink:" before := by
  induction before using List.reverseRecOn with
  | nil => cases h
  | append_singleton before line ih =>
    rw [List.foldl_append, List.foldl_cons, List.foldl_nil] at h
    generalize before.foldl sinkReader.next false = inSink at ih h
    have hstep := (sinkReader_step inSink line).1
    generalize sinkReader.next inSink line = inSink' at hstep h
    generalize sinkReader.edit inSink line = f at hstep
    cases hstep with
    | header =>
      exact ⟨line, List.mem_append_right _ (List.mem_singleton_self line), of_decide_eq_true h⟩
    | _ => exact (ih h).append _

/-! ## What a block may set -/

/-- The parts of the configuration that different sections and allowlists set. -/
inductive Field where
  | domains | fileProbes | pidAllowlist | uidAllowlist | syscallAllowlist | network

inductive OnField : Field → (RuntimeConfig → RuntimeConfig) → Prop where
  | domains (g : DomainConfig → DomainConfig) : OnField .domains fun cfg => { cfg with domains := g cfg.domains }
  | fileProbes (g : FileProbeConfig → FileProbeConfig) :
    OnField .fileProbes fun cfg => { cfg with fileProbes := g cfg.fileProbes }
  | pidAllowlist (g : List UInt32 → List UInt32) :
    OnField .pidAllowlist fun cfg => { cfg with pidAllowlist := g cfg.pidAllowlist }
  | uidAllowlist (g : List UInt32 → List UInt32) :
    OnField .uidAllowlist fun cfg => { cfg with uidAllowlist := g cfg.uidAllowlist }
  | syscallAllowlist (g : List Int32 → List Int32) :
    OnField .syscallAllowlist fun cfg => { cfg with syscallAllowlist := g cfg.syscallAllowlist }
  | network (g : NetworkConfig → NetworkConfig) : OnField .network fun cfg => { cfg with network := g cfg.network }

theorem OnField.comm {k k' : Field} {f g : RuntimeConfig → RuntimeConfig} (hf : OnField k f) (hg : OnField k' g)
    (h : k ≠ k') : Function.Commute f g := by
  intro cfg
  cases hf <;> cases hg <;> first | rfl | exact absurd rfl h

/-- The block has what it takes to set that part. -/
def Owns (block : List Bytes) : Field → Prop
  | .domains => HasHeader "domains:" block
  | .fileProbes => HasHeader "file_probes:" block
  | .network => HasHeader "network_filters:" block
  | .pidAllowlist => HasAllowlist "pid_allowlist:" block
  | .uidAllowlist => HasAllowlist "uid_allowlist:" block
  | .syscallAllowlist => HasAllowlist "syscall_allowlist:" block

theorem runtimeEdits_owned {block : List Bytes} {f : RuntimeConfig → RuntimeConfig}
    (h : f ∈ runtimeReader.edits {} block) : f = id ∨ ∃ field, OnField field f ∧ Owns block field := by
  obtain ⟨before, line, after, rfl, rfl⟩ := Reader.mem_edits _ h
  have hentered := entered_foldl before
  have hmem : line ∈ before ++ line :: after := by simp
  generalize before.foldl runtimeReader.next {} = place at hentered ⊢
  have hstep := (runtimeReader_step place line).1
  generalize runtimeReader.next place line = place' at hstep
  generalize runtimeReader.edit place line = f at hstep ⊢
  cases hstep with
  | header => exact Or.inl rfl
  | skip => exact Or.inl rfl
  | pids h hkey => exact Or.inr ⟨_, .pidAllowlist _, line, hmem, h, hkey⟩
  | uids h hkey => exact Or.inr ⟨_, .uidAllowlist _, line, hmem, h, hkey⟩
  | syscalls h hkey => exact Or.inr ⟨_, .syscallAllowlist _, line, hmem, h, hkey⟩
  | ports h hplace =>
    exact Or.inr ⟨_, .network fun n => { portAllowlist := parseUint32AllowlistInline _ n.portAllowlist },
      (hentered.networkFilters hplace).append _⟩
  | fileProbe h hplace key value =>
    exact Or.inr ⟨_, .fileProbes _, (hentered.fileProbes hplace).append _⟩
  | domain h hplace key value => exact Or.inr ⟨_, .domains _, (hentered.domains hplace).append _⟩

theorem sinkEdits_owned {block : List Bytes} {f : SinkRuntimeConfig → SinkRuntimeConfig}
    (h : f ∈ sinkReader.edits false block) : f = id ∨ HasHeader "sink:" block := by
  obtain ⟨before, line, after, rfl, rfl⟩ := Reader.mem_edits _ h
  have hsink := hasHeader_of_inSink before
  generalize before.foldl sinkReader.next false = inSink at hsink ⊢
  have hstep := (sinkReader_step inSink line).1
  generalize sinkReader.next inSink line = inSink' at hstep
  generalize sinkReader.edit inSink line = f at hstep ⊢
  cases hstep with
  | header => exact Or.inl rfl
  | skip => exact Or.inl rfl
  | set h hplace key value => exact Or.inr ((hsink hplace).append _)

/-! ## Blocks in any order -/

/-- At most one of the blocks is like that. -/
def AtMostOne (P : List Bytes → Prop) (blocks : List (List Bytes)) : Prop :=
  ∀ block ∈ blocks, ∀ block' ∈ blocks, P block → P block' → block = block'

theorem atMostOne_pair {P : List Bytes → Prop} {block block' : List Bytes} (h : ¬ (P block ∧ P block')) :
    AtMostOne P [block, block'] := by
  intro b hb b' hb' hP hP'
  rw [List.mem_pair] at hb hb'
  rcases hb with rfl | rfl <;> rcases hb' with rfl | rfl
  · rfl
  · exact absurd ⟨hP, hP'⟩ h
  · exact absurd ⟨hP', hP⟩ h
  · rfl

/-- A file in blocks that begin with a header and share neither a section that is looked for nor an allowlist.
The allowlist of ports is looked for in one section only. -/
structure WellCut (blocks : List (List Bytes)) : Prop where
  headed : ∀ block ∈ blocks, ∃ header rest, block = header :: rest ∧ isHeader (cleaned header) = true
  sections : ∀ name ∈ ["file_probes:", "domains:", "network_filters:", "sink:"],
    AtMostOne (HasHeader name) blocks
  allowlists : ∀ key ∈ ["pid_allowlist:", "uid_allowlist:", "syscall_allowlist:"],
    AtMostOne (HasAllowlist key) blocks

section
variable {blocks blocks' : List (List Bytes)}

theorem WellCut.atMostOne_owns (h : WellCut blocks) (field : Field) :
    AtMostOne (fun block => Owns block field) blocks := by
  cases field with
  | domains => exact h.sections "domains:" (by decide)
  | fileProbes => exact h.sections "file_probes:" (by decide)
  | network => exact h.sections "network_filters:" (by decide)
  | pidAllowlist => exact h.allowlists "pid_allowlist:" (by decide)
  | uidAllowlist => exact h.allowlists "uid_allowlist:" (by decide)
  | syscallAllowlist => exact h.allowlists "syscall_allowlist:" (by decide)

theorem runtimeRead_perm (h : WellCut blocks) (hperm : blocks.Perm blocks') (cfg : RuntimeConfig) :
    (runtimeReader.read ({}, cfg) blocks.flatten).2 = (runtimeReader.read ({}, cfg) blocks'.flatten).2 := by
  refine @Reader.read_perm _ _ _ runtimeReader _ _ (fun block hmem => ?_) hperm {} ?_ {} cfg
  · obtain ⟨header, rest, heq, hheader⟩ := h.headed block hmem
    exact ⟨header, rest, heq, runtimeReader_resets hheader⟩
  · intro block hmem block' hmem' hne f hf g hg
    rcases runtimeEdits_owned hf with rfl | ⟨k, honf, howns⟩
    · exact fun cfg => rfl
    rcases runtimeEdits_owned hg with rfl | ⟨k', hong, howns'⟩
    · exact fun cfg => rfl
    refine honf.comm hong fun hsame => hne ?_
    subst hsame
    exact h.atMostOne_owns k block hmem block' hmem' howns howns'

theorem sinkRead_perm (h : WellCut blocks) (hperm : blocks.Perm blocks') (cfg : SinkRuntimeConfig) :
    (sinkReader.read (false, cfg) blocks.flatten).2 = (sinkReader.read (false, cfg) blocks'.flatten).2 := by
  refine Reader.read_perm (fun block hmem => ?_) hperm false ?_ false cfg
  · obtain ⟨header, rest, heq, hheader⟩ := h.headed block hmem
    exact ⟨header, rest, heq, sinkReader_resets hheader⟩
  · intro block hmem block' hmem' hne f hf g hg
    rcases sinkEdits_owned hf with rfl | hsink
    · exact fun cfg => rfl
    rcases sinkEdits_owned hg with rfl | hsink'
    · exact fun cfg => rfl
    exact absurd (h.sections "sink:" (by decide) block hmem block' hmem' hsink hsink') hne

/-- **The order of the sections does not matter.** A file whose lines are those blocks, and one whose lines are
the blocks in another order, give both loaders the same configuration. -/
theorem loadConfig_perm (h : WellCut blocks) (hperm : blocks.Perm blocks') {text text' : Bytes}
    (htext : lines text = blocks.flatten) (htext' : lines text' = blocks'.flatten) (cfg : RuntimeConfig) :
    loadRuntimeConfig (some text) cfg = loadRuntimeConfig (some text') cfg ∧
      loadSinkRuntimeConfig (some text) = loadSinkRuntimeConfig (some text') := by
  rw [loadRuntimeConfig_eq, loadRuntimeConfig_eq, loadSinkRuntimeConfig_eq, loadSinkRuntimeConfig_eq, htext,
    htext', runtimeRead_perm h hperm, sinkRead_perm h hperm]
  exact ⟨rfl, rfl⟩

end

theorem loadConfig_perm_pair :
    loadRuntimeConfig (some (str "domains:\n file: false\nsink:\n path: x")) {} =
        loadRuntimeConfig (some (str "sink:\n path: x\ndomains:\n file: false\n")) {} ∧
      loadSinkRuntimeConfig (some (str "domains:\n file: false\nsink:\n path: x")) =
        loadSinkRuntimeConfig (some (str "sink:\n path: x\ndomains:\n file: false\n")) := by
  refine @loadConfig_perm [[str "domains:", str " file: false"], [str "sink:", str " path: x"]] _
    { headed := ?_, sections := ?_, allowlists := ?_ } (List.Perm.swap _ _ _) _ _ (by decide) (by decide) {}
  · intro block hmem
    rw [List.mem_pair] at hmem
    rcases hmem with rfl | rfl
    · exact ⟨_, _, rfl, by decide⟩
    · exact ⟨_, _, rfl, by decide⟩
  · intro name hname
    apply atMostOne_pair
    revert name
    decide
  · intro key hkey
    apply atMostOne_pair
    revert key
    decide

end ETraceGen.Config
