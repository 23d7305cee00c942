import ETraceGen.Config.Order

/-!
# A whole configuration file

A configuration that is written to a file is read back by both loaders: in whatever order the sections stand, however
the lines are indented and commented, and whatever lines stand between them that neither loader knows.

* `settings` : what is left of a text;
* `sections` : what is written of a configuration;
* `config_reads_back` : every text of which that is left.
-/

namespace ETraceGen.Config

open Proc (isSpace isDigit decimal stoull)
open Sections (Reader pieces)

/-! ## What is left of a text -/

/-- The keys of the sections, and those of the lists. -/
def sectionKeys : List Bytes :=
  ["process", "file", "syscall", "network_socket", "openat", "unlinkat", "renameat2", "path",
    "max_file_size_bytes"].map str

def listKeys : List String := ["pid_allowlist:", "uid_allowlist:", "syscall_allowlist:", "port_allowlist:"]

/-- Nothing that a loader looks at: an empty line, or one that is no header and has none of the keys. -/
def inert (trimmed : Bytes) : Bool :=
  trimmed == [] || !isHeader trimmed && listKeys.all (fun key => !hasKey key trimmed) &&
    (splitColon trimmed).all fun pair => !sectionKeys.contains pair.1

/-- The lines of a text without comments and margins, and without those that are inert. -/
def settings (text : Bytes) : List Bytes := ((lines text).map cleaned).filter fun line => !inert line

theorem trim_trim (s : Bytes) : trim (trim s) = trim s := by
  have hback : (trim s).rdropWhile isSpace = trim s := List.rdropWhile_idempotent _ _
  calc trim (trim s) = ((trim s).dropWhile isSpace).rdropWhile isSpace := rfl
    _ = trim s := by rw [dropWhile_trim, hback]

theorem cleaned_cleaned (line : Bytes) : cleaned (cleaned line) = cleaned line := by
  have hstrip := stripComment_of_not_mem (not_mem_cleaned line)
  rw [cleaned, hstrip, cleaned, trim_trim]

section Inert
variable {trimmed : Bytes}

theorem inert_cases (h : inert trimmed = true) : trimmed = [] ∨ isHeader trimmed = false ∧
    (∀ key ∈ listKeys, hasKey key trimmed = false) ∧
      ∀ key value, splitColon trimmed = some (key, value) → key ∉ sectionKeys := by
  unfold inert at h
  rw [Bool.or_eq_true, beq_iff_eq] at h
  refine h.imp_right fun h => ?_
  rw [Bool.and_eq_true, Bool.and_eq_true, Bool.not_eq_true', List.all_eq_true] at h
  obtain ⟨⟨hheader, hlists⟩, hkeys⟩ := h
  refine ⟨hheader, fun key hkey => by simpa using hlists key hkey, fun key value hsplit hmem => ?_⟩
  rw [hsplit, Option.all_some, Bool.not_eq_true', List.contains_eq_mem, decide_eq_false_iff_not] at hkeys
  exact hkeys hmem

theorem setFileProbe_of_notMem {key : Bytes} (h : key ∉ sectionKeys) (value : Bytes) (cfg : FileProbeConfig) :
    setFileProbe key value cfg = cfg := by
  have hne : ∀ name ∈ sectionKeys, key ≠ name := fun name hname heq => h (heq ▸ hname)
  rw [setFileProbe, if_neg (hne _ (by decide)), if_neg (hne _ (by decide)), if_neg (hne _ (by decide))]

theorem setDomain_of_notMem {key : Bytes} (h : key ∉ sectionKeys) (value : Bytes) (cfg : DomainConfig) :
    setDomain key value cfg = cfg := by
  have hne : ∀ name ∈ sectionKeys, key ≠ name := fun name hname heq => h (heq ▸ hname)
  rw [setDomain, if_neg (hne _ (by decide)), if_neg (hne _ (by decide)), if_neg (hne _ (by decide)),
    if_neg (hne _ (by decide))]

theorem setSinkKey_of_notMem {key : Bytes} (h : key ∉ sectionKeys) (value : Bytes) (cfg : SinkRuntimeConfig) :
    setSinkKey key value cfg = cfg := by
  have hne : ∀ name ∈ sectionKeys, key ≠ name := fun name hname heq => h (heq ▸ hname)
  rw [setSinkKey, if_neg (hne _ (by decide)), if_neg (hne _ (by decide))]

end Inert

/-- A line that is no header has none of these names. -/
theorem ne_header {trimmed name : Bytes} (hheader : isHeader trimmed = false) (hname : isHeader name = true) :
    trimmed ≠ name := by
  rintro rfl
  rw [hheader] at hname
  cases hname

/-- What the collector's loop does at a line that is no header. -/
theorem runtimeLine_plain {line : Bytes} (hne : cleaned line ≠ []) (hheader : isHeader (cleaned line) = false)
    (place : InSection) (cfg : RuntimeConfig) :
    runtimeLine (place, cfg) line =
      if hasKey "pid_allowlist:" (cleaned line) then
        (place, { cfg with pidAllowlist := parseUint32AllowlistInline (cleaned line) cfg.pidAllowlist })
      else if hasKey "uid_allowlist:" (cleaned line) then
        (place, { cfg with uidAllowlist := parseUint32AllowlistInline (cleaned line) cfg.uidAllowlist })
      else if hasKey "syscall_allowlist:" (cleaned line) then
        (place, { cfg with syscallAllowlist := parseInt32AllowlistInline (cleaned line) cfg.syscallAllowlist })
      else if place.networkFilters && hasKey "port_allowlist:" (cleaned line) then
        (place, { cfg with
          network := { portAllowlist := parseUint32AllowlistInline (cleaned line) cfg.network.portAllowlist } })
      else
        match splitColon (cleaned line) with
        | none => (place, cfg)
        | some (key, value) =>
          if place.fileProbes then (place, { cfg with fileProbes := setFileProbe key value cfg.fileProbes })
          else if place.domains then (place, { cfg with domains := setDomain key value cfg.domains })
          else (place, cfg) := by
  unfold runtimeLine
  dsimp only
  refine (if_neg hne).trans ?_
  refine (if_neg (ne_header hheader (by decide))).trans ?_
  refine (if_neg (ne_header hheader (by decide))).trans ?_
  refine (if_neg (ne_header hheader (by decide))).trans ?_
  exact if_neg (by rw [hheader]; exact Bool.false_ne_true)

theorem runtimeLine_inert {line : Bytes} (h : inert (cleaned line) = true) (p : InSection × RuntimeConfig) :
    runtimeLine p line = p := by
  obtain ⟨place, cfg⟩ := p
  by_cases hempty : cleaned line = []
  · unfold runtimeLine
    dsimp only
    rw [if_pos hempty]
  obtain ⟨hheader, hlists, hkeys⟩ := (inert_cases h).resolve_left hempty
  have hno : ∀ key ∈ listKeys, ¬hasKey key (cleaned line) = true := fun key hkey => by
    rw [hlists key hkey]
    exact Bool.false_ne_true
  rw [runtimeLine_plain hempty hheader, if_neg (hno _ (by decide)), if_neg (hno _ (by decide)),
    if_neg (hno _ (by decide)), hlists "port_allowlist:" (by decide), Bool.and_false, if_neg Bool.false_ne_true]
  cases hsplit : splitColon (cleaned line) with
  | none => rfl
  | some pair =>
    have hkey := hkeys pair.1 pair.2 hsplit
    dsimp only
    rw [setFileProbe_of_notMem hkey, setDomain_of_notMem hkey, ite_self, ite_self]

theorem sinkLine_inert {line : Bytes} (h : inert (cleaned line) = true) (p : Bool × SinkRuntimeConfig) :
    sinkLine p line = p := by
  obtain ⟨inSink, cfg⟩ := p
  unfold sinkLine
  dsimp only
  rcases inert_cases h with hempty | ⟨hheader, -, hkeys⟩
  · rw [if_pos hempty]
  · by_cases hempty : cleaned line = []
    · rw [if_pos hempty]
    rw [if_neg hempty, if_neg (ne_header hheader (by decide)), if_neg (by rw [hheader]; exact Bool.false_ne_true)]
    cases hsplit : splitColon (cleaned line) with
    | none => rw [ite_self]
    | some pair =>
      dsimp only
      rw [setSinkKey_of_notMem (hkeys pair.1 pair.2 hsplit), ite_self]

/-- A loop that looks at cleaned lines only, and at no inert one, needs to be told no more. -/
theorem foldl_settings {C : Type} {f : C → Bytes → C} (hclean : ∀ c line, f c (cleaned line) = f c line)
    (hinert : ∀ c line, inert (cleaned line) = true → f c line = c) (ls : List Bytes) (c : C) :
    ls.foldl f c = ((ls.map cleaned).filter fun line => !inert line).foldl f c := by
  induction ls generalizing c with
  | nil => rfl
  | cons line ls ih =>
    rw [List.foldl_cons, List.map_cons, ih]
    cases hline : inert (cleaned line) with
    | true => rw [List.filter_cons_of_neg (by simp [hline]), hinert c line hline]
    | false => rw [List.filter_cons_of_pos (by simp [hline]), List.foldl_cons, hclean]

theorem runtimeReader_read (p : InSection × RuntimeConfig) (ls : List Bytes) :
    runtimeReader.read p ls = ls.foldl runtimeLine p := by
  have hline : runtimeLine = fun p l => (runtimeReader.next p.1 l, runtimeReader.edit p.1 l p.2) := by
    funext p line
    exact (runtimeReader_step p.1 line).2 p.2
  rw [hline]
  rfl

theorem sinkReader_read (p : Bool × SinkRuntimeConfig) (ls : List Bytes) :
    sinkReader.read p ls = ls.foldl sinkLine p := by
  have hline : sinkLine = fun p l => (sinkReader.next p.1 l, sinkReader.edit p.1 l p.2) := by
    funext p line
    exact (sinkReader_step p.1 line).2 p.2
  rw [hline]
  rfl

theorem loadRuntimeConfig_settings (text : Bytes) (cfg : RuntimeConfig) :
    loadRuntimeConfig (some text) cfg = (true, (runtimeReader.read ({}, cfg) (settings text)).2) := by
  have hclean : ∀ p line, runtimeLine p (cleaned line) = runtimeLine p line := fun p line => by
    unfold runtimeLine
    rw [cleaned_cleaned]
  rw [runtimeReader_read, settings, ← foldl_settings hclean fun p line h => runtimeLine_inert h p]
  rfl

theorem loadSinkRuntimeConfig_settings (text : Bytes) :
    loadSinkRuntimeConfig (some text) = (sinkReader.read (false, {}) (settings text)).2 := by
  have hclean : ∀ p line, sinkLine p (cleaned line) = sinkLine p line := fun p line => by
    unfold sinkLine
    rw [cleaned_cleaned]
  rw [sinkReader_read, settings, ← foldl_settings hclean fun p line h => sinkLine_inert h p]
  rfl

/-! ## Lists of numbers -/

/-- A token that is written as it is read. -/
structure PlainToken (tok : Bytes) : Prop where
  nonempty : tok ≠ []
  trimmed : Trimmed tok
  noComma : 0x2c ∉ tok

/-- A space in front of a list belongs to no token. -/
theorem tokens_cons_space {s : Bytes} (h : s ≠ []) : tokens (0x20 :: s) = tokens s := by
  obtain ⟨c, s, rfl⟩ := List.exists_cons_of_ne_nil h
  unfold tokens
  rw [pieces, if_neg (by decide)]
  cases hpieces : pieces 0x2c (c :: s) with
  | nil =>
    rw [pieces] at hpieces
    split_ifs at hpieces
    split at hpieces <;> cases hpieces
  | cons piece rest =>
    dsimp only
    rw [List.map_cons, List.map_cons, trim_cons_space (by decide)]

theorem tokens_intercalate {texts : List Bytes} (h : ∀ tok ∈ texts, PlainToken tok) :
    tokens ((str ", ").intercalate texts) = texts := by
  have hsep : str ", " = [0x2c, 0x20] := by decide
  induction texts with
  | nil => rfl
  | cons tok texts ih =>
    obtain ⟨htok, htexts⟩ := List.forall_mem_cons.mp h
    cases texts with
    | nil =>
      rw [List.intercalate_singleton, tokens, Sections.pieces_of_notMem htok.noComma htok.nonempty, List.map_singleton,
        trim_of_trimmed htok.trimmed]
    | cons tok' texts =>
      have hne : (str ", ").intercalate (tok' :: texts) ≠ [] := by
        intro hnil
        have hread := ih htexts
        rw [hnil] at hread
        cases hread
      have hsplit : tokens ((str ", ").intercalate (tok :: tok' :: texts)) =
          trim tok :: tokens (0x20 :: (str ", ").intercalate (tok' :: texts)) := by
        rw [List.intercalate_cons_cons, hsep, List.append_assoc, tokens]
        exact congrArg _ (Sections.pieces_append_cons htok.noComma _)
      rw [hsplit, tokens_cons_space hne, ih htexts, trim_of_trimmed htok.trimmed]

/-- The text of a number: digits, and maybe a sign. -/
structure Numeric (tok : Bytes) : Prop where
  nonempty : tok ≠ []
  chars : ∀ c ∈ tok, c = 0x2d ∨ isDigit c = true

theorem Numeric.notMem {tok : Bytes} (h : Numeric tok) {c : UInt8} (hc : c ≠ 0x2d) (hdigit : isDigit c = false) :
    c ∉ tok := by
  intro hmem
  rcases h.chars c hmem with heq | heq
  · exact hc heq
  · rw [hdigit] at heq
    cases heq

theorem Numeric.plain {tok : Bytes} (h : Numeric tok) : PlainToken tok := by
  refine ⟨h.nonempty, trimmed_of_noSpace fun c hc => ?_, h.notMem (by decide) (by decide)⟩
  rcases h.chars c hc with rfl | hdigit
  · decide
  · exact Proc.isSpace_of_isDigit hdigit

theorem numeric_dec (n : Nat) : Numeric (dec n) := ⟨dec_ne_nil n, fun _ hc => Or.inr (isDigit_of_mem_dec hc)⟩

theorem numeric_decInt (i : Int) : Numeric (decInt i) := by
  unfold decInt
  split_ifs
  · refine ⟨List.cons_ne_nil _ _, fun c hc => ?_⟩
    rcases List.mem_cons.mp hc with rfl | hc
    · exact Or.inl rfl
    · exact Or.inr (isDigit_of_mem_dec hc)
  · exact numeric_dec i.natAbs

/-- The numeral of a written number is that number, whole. -/
theorem numeral_decInt (i : Int) : (numeral (decInt i)).digits ≠ [] ∧ (numeral (decInt i)).value = i := by
  have hdigits : ∀ n : Nat, (dec n).takeWhile isDigit = dec n := fun n =>
    List.takeWhile_eq_self_iff.mpr fun c hc => isDigit_of_mem_dec hc
  have hdecimal : ∀ n : Nat, decimal (dec n) = n := ofDigits_dec
  unfold decInt
  split_ifs with hneg
  · have hminus : (str "-" ++ dec i.natAbs).head? = some 0x2d := rfl
    rw [numeral_minus hminus, Numeral.value]
    show (dec i.natAbs).takeWhile isDigit ≠ [] ∧ -(decimal ((dec i.natAbs).takeWhile isDigit) : Int) = i
    rw [hdigits, hdecimal]
    exact ⟨dec_ne_nil _, by omega⟩
  · have hhead : ∀ c, isDigit c = false → (dec i.natAbs).head? ≠ some c := fun c hc hhead => by
      have hdigit : isDigit c = true := isDigit_of_mem_dec (List.mem_of_mem_head? hhead)
      rw [hc] at hdigit
      cases hdigit
    rw [numeral_unsigned (hhead _ (by decide)) (hhead _ (by decide)), Numeral.value]
    show (dec i.natAbs).takeWhile isDigit ≠ [] ∧ (decimal ((dec i.natAbs).takeWhile isDigit) : Int) = i
    rw [hdigits, hdecimal]
    exact ⟨dec_ne_nil _, by omega⟩

theorem uint32Entry_dec (n : UInt32) : uint32Entry (dec n.toNat) = some n := by
  have hread : stoul (dec n.toNat) = some n.toUInt64 := stoull_dec n.toUInt64
  have hle : n.toUInt64 ≤ 0xffffffff := by
    have hlt := n.toNat_lt
    rw [UInt64.le_iff_toNat_le, UInt32.toNat_toUInt64, show (0xffffffff : UInt64).toNat = 0xffffffff from rfl]
    omega
  rw [uint32Entry, if_neg (dec_ne_nil _), hread]
  dsimp only
  rw [if_pos hle, UInt32.toUInt32_toUInt64]

theorem int32Entry_decInt (i : Int32) : int32Entry (decInt i.toInt) = some i := by
  obtain ⟨hdigits, hvalue⟩ := numeral_decInt i.toInt
  have hfront : (decInt i.toInt).dropWhile isSpace = decInt i.toInt := by
    rw [← trim_of_trimmed (numeric_decInt i.toInt).plain.trimmed, dropWhile_trim]
  have hlow := i.le_toInt
  have hhigh := i.toInt_lt
  rw [int32Entry_eq hfront, hvalue, if_pos ⟨hdigits, by omega, by omega⟩, Int32.ofInt_toInt]

/-! ### A list in its line -/

/-- A key, and its list in brackets. -/
def allowlist (key : String) (texts : List Bytes) : Bytes :=
  listValue (str key ++ str " ") ((str ", ").intercalate texts)

def uint32Texts (ns : List UInt32) : List Bytes := ns.map fun n => dec n.toNat

def int32Texts (ns : List Int32) : List Bytes := ns.map fun n => decInt n.toInt

theorem numeric_uint32 {ns : List UInt32} : ∀ tok ∈ uint32Texts ns, Numeric tok := by
  intro tok htok
  obtain ⟨n, -, rfl⟩ := List.mem_map.mp htok
  exact numeric_dec _

theorem numeric_int32 {ns : List Int32} : ∀ tok ∈ int32Texts ns, Numeric tok := by
  intro tok htok
  obtain ⟨n, -, rfl⟩ := List.mem_map.mp htok
  exact numeric_decInt _

section Allowlist
variable {key : String} {texts : List Bytes} (hkey : key ∈ listKeys) (h : ∀ tok ∈ texts, Numeric tok)

include h in
theorem notMem_texts {c : UInt8} (hc : c ∉ str ", -") (hdigit : isDigit c = false) :
    c ∉ (str ", ").intercalate texts := by
  have hsep : c ∉ str ", " := fun hmem => hc (List.mem_append_left (str "-") hmem)
  have hsign : c ≠ 0x2d := by
    rintro rfl
    exact hc (by decide)
  induction texts with
  | nil => exact List.not_mem_nil
  | cons tok texts ih =>
    obtain ⟨htok, htexts⟩ := List.forall_mem_cons.mp h
    have hnot := htok.notMem hsign hdigit
    cases texts with
    | nil =>
      rw [List.intercalate_singleton]
      exact hnot
    | cons tok' texts =>
      rw [List.intercalate_cons_cons, List.mem_append, List.mem_append, not_or, not_or]
      exact ⟨⟨hnot, hsep⟩, ih htexts⟩

include h in
theorem noBrackets_texts : NoBrackets ((str ", ").intercalate texts) :=
  ⟨notMem_texts h (by decide) (by decide), notMem_texts h (by decide) (by decide)⟩

include hkey h in
theorem allowlist_clean : cleaned (allowlist key texts) = allowlist key texts ∧
    isHeader (allowlist key texts) = false ∧ allowlist key texts ≠ [] := by
  have hback : (allowlist key texts).getLast? = some 0x5d := List.getLast?_append_of_ne_nil _ (by decide)
  have hkeys : ∀ key ∈ listKeys, 0x23 ∉ str key ++ str " " ∧ str key ++ str " " ≠ [] ∧
      (str key ++ str " ").head?.all (fun c => !isSpace c) = true := by decide
  obtain ⟨hhash, hne, hfront⟩ := hkeys key hkey
  have hnone : 0x23 ∉ allowlist key texts := by
    unfold allowlist listValue
    rw [List.mem_append, List.mem_append, not_or, not_or]
    refine ⟨⟨hhash, ?_⟩, by decide⟩
    exact List.not_mem_cons_of_ne_of_not_mem (by decide) (notMem_texts h (by decide) (by decide))
  have htrimmed : Trimmed (allowlist key texts) := by
    constructor
    · intro c hc
      unfold allowlist listValue at hc
      rw [List.append_assoc, List.head?_append_of_ne_nil _ hne] at hc
      rw [hc, Option.all_some, Bool.not_eq_true'] at hfront
      exact hfront
    · intro c hc
      rw [hback] at hc
      cases hc
      decide
  refine ⟨?_, ?_, List.ne_nil_of_mem (List.mem_of_mem_getLast? hback)⟩
  · rw [cleaned, stripComment_of_not_mem hnone, trim_of_trimmed htrimmed]
  · rw [isHeader, hback]
    rfl

include hkey h in
theorem tokens_allowlist : listBody (allowlist key texts) = some ((str ", ").intercalate texts) ∧
    tokens ((str ", ").intercalate texts) = texts := by
  have hkeys : ∀ key ∈ listKeys, NoBrackets (str key ++ str " ") := by decide
  exact ⟨listBody_listValue (hkeys key hkey) (noBrackets_texts h),
    tokens_intercalate fun tok htok => (h tok htok).plain⟩

end Allowlist

section Lists
variable {key : String} (hkey : key ∈ listKeys)

include hkey

theorem parseUint32_allowlist (ns out : List UInt32) :
    parseUint32AllowlistInline (allowlist key (uint32Texts ns)) out = out ++ ns := by
  obtain ⟨hbody, htokens⟩ := tokens_allowlist hkey (@numeric_uint32 ns)
  have hread : (uint32Texts ns).filterMap uint32Entry = ns := by
    rw [uint32Texts, List.filterMap_map, show uint32Entry ∘ (fun n : UInt32 => dec n.toNat) = some from
      funext uint32Entry_dec, List.filterMap_some]
  rw [parseUint32AllowlistInline, hbody]
  dsimp only
  rw [htokens, hread]

theorem parseInt32_allowlist (ns out : List Int32) :
    parseInt32AllowlistInline (allowlist key (int32Texts ns)) out = out ++ ns := by
  obtain ⟨hbody, htokens⟩ := tokens_allowlist hkey (@numeric_int32 ns)
  have hread : (int32Texts ns).filterMap int32Entry = ns := by
    rw [int32Texts, List.filterMap_map, show int32Entry ∘ (fun n : Int32 => decInt n.toInt) = some from
      funext int32Entry_decInt, List.filterMap_some]
  rw [parseInt32AllowlistInline, hbody]
  dsimp only
  rw [htokens, hread]

end Lists

/-! ## What is written of a configuration -/

def setting (key : String) (value : Bytes) : Bytes := str key ++ str ": " ++ value

def toggle (key : String) (value : Bool) : Bytes := setting key (str (if value then "true" else "false"))

def domainsSection (d : DomainConfig) : List Bytes :=
  [str "domains:", toggle "process" d.process, toggle "file" d.file, toggle "syscall" d.syscall,
    toggle "network_socket" d.networkSocket]

def fileProbesSection (p : FileProbeConfig) : List Bytes :=
  [str "file_probes:", toggle "openat" p.openat, toggle "unlinkat" p.unlinkat, toggle "renameat2" p.renameat2]

def networkSection (n : NetworkConfig) : List Bytes :=
  [str "network_filters:", allowlist "port_allowlist:" (uint32Texts n.portAllowlist)]

/-- The other allowlists belong to no section of their own. -/
def collectorSection (cfg : RuntimeConfig) : List Bytes :=
  [str "collector:", allowlist "pid_allowlist:" (uint32Texts cfg.pidAllowlist),
    allowlist "uid_allowlist:" (uint32Texts cfg.uidAllowlist),
    allowlist "syscall_allowlist:" (int32Texts cfg.syscallAllowlist)]

def sinkSection (quoted : Bool) (sink : SinkRuntimeConfig) : List Bytes :=
  [str "sink:", setting "path" (writePath quoted sink.path),
    setting "max_file_size_bytes" (dec sink.maxFileSizeBytes.toNat)]

/-- The sections by their headers. -/
def named (quoted : Bool) (cfg : RuntimeConfig) (sink : SinkRuntimeConfig) : List (String × List Bytes) :=
  [("collector:", collectorSection cfg), ("domains:", domainsSection cfg.domains),
    ("file_probes:", fileProbesSection cfg.fileProbes), ("network_filters:", networkSection cfg.network),
    ("sink:", sinkSection quoted sink)]

def sections (quoted : Bool) (cfg : RuntimeConfig) (sink : SinkRuntimeConfig) : List (List Bytes) :=
  (named quoted cfg sink).map Prod.snd

/-- A path that can be written, with quotes or without. -/
structure WritablePath (quoted : Bool) (path : Bytes) : Prop where
  plain : PlainPath path
  noHash : 0x23 ∉ path
  kept : quoted = true ∨ path ≠ [] ∧ path.getLast? ≠ some 0x3a

/-- A line that is written as it is read, and is no header. -/
structure PlainLine (line : Bytes) : Prop where
  clean : cleaned line = line
  nonempty : line ≠ []
  noHeader : isHeader line = false

/-- None of the lists that are looked for in every section. -/
def NoList (line : Bytes) : Prop :=
  ∀ key ∈ ["pid_allowlist:", "uid_allowlist:", "syscall_allowlist:"], hasKey key line = false

theorem noList_of_three {line : Bytes} (hpid : hasKey "pid_allowlist:" line = false)
    (huid : hasKey "uid_allowlist:" line = false) (hsyscall : hasKey "syscall_allowlist:" line = false) :
    NoList line := by
  unfold NoList
  simp [hpid, huid, hsyscall]

theorem plainLine_setting {key : String} {value : Bytes} (hkey : PlainKey (str key)) (hvalue : Trimmed value)
    (hne : value ≠ []) (hhash : 0x23 ∉ value) (hback : value.getLast? ≠ some 0x3a) :
    PlainLine (setting key value) := by
  refine ⟨?_, List.append_ne_nil_of_right_ne_nil _ hne, ?_⟩
  · rw [setting, ← cleaned_pair hkey hvalue hne hhash, cleaned_cleaned]
  · rw [isHeader, setting, List.getLast?_append_of_ne_nil _ hne]
    exact beq_eq_false_iff_ne.mpr hback

theorem plainLine_toggle {key : String} (hkey : PlainKey (str key)) (value : Bool) : PlainLine (toggle key value) := by
  cases value <;> exact plainLine_setting hkey (trimmed_of_all (by decide)) (by decide) (by decide) (by decide)

theorem plainLine_allowlist {key : String} (hkey : key ∈ listKeys) {texts : List Bytes}
    (h : ∀ tok ∈ texts, Numeric tok) : PlainLine (allowlist key texts) :=
  have hclean := allowlist_clean hkey h
  ⟨hclean.1, hclean.2.2, hclean.2.1⟩

section SinkLines
variable {quoted : Bool} {path : Bytes} (h : WritablePath quoted path)

include h

theorem WritablePath.written : Trimmed (writePath quoted path) ∧ writePath quoted path ≠ [] ∧
    0x23 ∉ writePath quoted path ∧ (writePath quoted path).getLast? ≠ some 0x3a := by
  have htrimmed := trimmed_writePath h.plain quoted
  cases quoted with
  | true =>
    have hback : (writePath true path).getLast? = some 0x22 := List.getLast?_append_of_ne_nil _ (by decide)
    refine ⟨htrimmed, List.cons_ne_nil _ _, ?_, by rw [hback]; decide⟩
    show 0x23 ∉ 0x22 :: (path ++ [0x22])
    simp [h.noHash]
  | false =>
    obtain ⟨hne, hback⟩ := h.kept.resolve_left Bool.false_ne_true
    exact ⟨htrimmed, hne, h.noHash, hback⟩

theorem plainLine_path : PlainLine (setting "path" (writePath quoted path)) := by
  obtain ⟨htrimmed, hne, hhash, hback⟩ := h.written
  exact plainLine_setting plainKey_path htrimmed hne hhash hback

end SinkLines

theorem plainLine_size (size : UInt64) : PlainLine (setting "max_file_size_bytes" (dec size.toNat)) := by
  have hnumeric := numeric_dec size.toNat
  refine plainLine_setting plainKey_maxFileSizeBytes (trimmed_dec _) (dec_ne_nil _) ?_ fun h => ?_
  · exact hnumeric.notMem (by decide) (by decide)
  · exact hnumeric.notMem (by decide) (by decide) (List.mem_of_mem_getLast? h)

/-! ### The collector reads it -/

section Read
variable (place : InSection) (cfg : RuntimeConfig)

theorem runtimeLine_header {header : Bytes} (hclean : cleaned header = header) (hheader : isHeader header = true) :
    runtimeLine (place, cfg) header = (sectionOf header, cfg) := by
  obtain ⟨place', f, hstep, heq⟩ := runtimeLine_step place header
  rw [hclean] at hstep
  rw [heq cfg]
  cases hstep with
  | header => rfl
  | _ h => cases h.symm.trans hheader

theorem readLine_pids (ns : List UInt32) : runtimeLine (place, cfg) (allowlist "pid_allowlist:" (uint32Texts ns)) =
    (place, { cfg with pidAllowlist := cfg.pidAllowlist ++ ns }) := by
  have hkey : "pid_allowlist:" ∈ listKeys := by decide
  obtain ⟨hclean, hheader, hne⟩ := allowlist_clean hkey (@numeric_uint32 ns)
  have hmine : hasKey "pid_allowlist:" (allowlist "pid_allowlist:" (uint32Texts ns)) = true := rfl
  rw [runtimeLine_plain (by rwa [hclean]) (by rwa [hclean]), hclean, hmine, if_pos rfl, parseUint32_allowlist hkey]

theorem readLine_uids (ns : List UInt32) : runtimeLine (place, cfg) (allowlist "uid_allowlist:" (uint32Texts ns)) =
    (place, { cfg with uidAllowlist := cfg.uidAllowlist ++ ns }) := by
  have hkey : "uid_allowlist:" ∈ listKeys := by decide
  obtain ⟨hclean, hheader, hne⟩ := allowlist_clean hkey (@numeric_uint32 ns)
  have hpid : hasKey "pid_allowlist:" (allowlist "uid_allowlist:" (uint32Texts ns)) = false := rfl
  have hmine : hasKey "uid_allowlist:" (allowlist "uid_allowlist:" (uint32Texts ns)) = true := rfl
  rw [runtimeLine_plain (by rwa [hclean]) (by rwa [hclean]), hclean, hpid, if_neg Bool.false_ne_true, hmine,
    if_pos rfl, parseUint32_allowlist hkey]

theorem readLine_syscalls (ns : List Int32) :
    runtimeLine (place, cfg) (allowlist "syscall_allowlist:" (int32Texts ns)) =
      (place, { cfg with syscallAllowlist := cfg.syscallAllowlist ++ ns }) := by
  have hkey : "syscall_allowlist:" ∈ listKeys := by decide
  obtain ⟨hclean, hheader, hne⟩ := allowlist_clean hkey (@numeric_int32 ns)
  have hpid : hasKey "pid_allowlist:" (allowlist "syscall_allowlist:" (int32Texts ns)) = false := rfl
  have huid : hasKey "uid_allowlist:" (allowlist "syscall_allowlist:" (int32Texts ns)) = false := rfl
  have hmine : hasKey "syscall_allowlist:" (allowlist "syscall_allowlist:" (int32Texts ns)) = true := rfl
  rw [runtimeLine_plain (by rwa [hclean]) (by rwa [hclean]), hclean, hpid, if_neg Bool.false_ne_true, huid,
    if_neg Bool.false_ne_true, hmine, if_pos rfl, parseInt32_allowlist hkey]

theorem readLine_ports (hplace : place.networkFilters = true) (ns : List UInt32) :
    runtimeLine (place, cfg) (allowlist "port_allowlist:" (uint32Texts ns)) =
      (place, { cfg with network := { portAllowlist := cfg.network.portAllowlist ++ ns } }) := by
  have hkey : "port_allowlist:" ∈ listKeys := by decide
  obtain ⟨hclean, hheader, hne⟩ := allowlist_clean hkey (@numeric_uint32 ns)
  have hpid : hasKey "pid_allowlist:" (allowlist "port_allowlist:" (uint32Texts ns)) = false := rfl
  have huid : hasKey "uid_allowlist:" (allowlist "port_allowlist:" (uint32Texts ns)) = false := rfl
  have hsyscall : hasKey "syscall_allowlist:" (allowlist "port_allowlist:" (uint32Texts ns)) = false := rfl
  have hmine : hasKey "port_allowlist:" (allowlist "port_allowlist:" (uint32Texts ns)) = true := rfl
  rw [runtimeLine_plain (by rwa [hclean]) (by rwa [hclean]), hclean, hpid, if_neg Bool.false_ne_true, huid,
    if_neg Bool.false_ne_true, hsyscall, if_neg Bool.false_ne_true, hplace, hmine, Bool.true_and, if_pos rfl,
    parseUint32_allowlist hkey]

/-- A toggle of the section that is being read. -/
theorem readLine_toggle (value : Bool) :
    runtimeLine ({ domains := true }, cfg) (toggle "process" value) =
        ({ domains := true }, { cfg with domains := { cfg.domains with process := value } }) ∧
      runtimeLine ({ domains := true }, cfg) (toggle "file" value) =
        ({ domains := true }, { cfg with domains := { cfg.domains with file := value } }) ∧
      runtimeLine ({ domains := true }, cfg) (toggle "syscall" value) =
        ({ domains := true }, { cfg with domains := { cfg.domains with syscall := value } }) ∧
      runtimeLine ({ domains := true }, cfg) (toggle "network_socket" value) =
        ({ domains := true }, { cfg with domains := { cfg.domains with networkSocket := value } }) := by
  cases value <;> exact ⟨rfl, rfl, rfl, rfl⟩

theorem readLine_probe (value : Bool) :
    runtimeLine ({ fileProbes := true }, cfg) (toggle "openat" value) =
        ({ fileProbes := true }, { cfg with fileProbes := { cfg.fileProbes with openat := value } }) ∧
      runtimeLine ({ fileProbes := true }, cfg) (toggle "unlinkat" value) =
        ({ fileProbes := true }, { cfg with fileProbes := { cfg.fileProbes with unlinkat := value } }) ∧
      runtimeLine ({ fileProbes := true }, cfg) (toggle "renameat2" value) =
        ({ fileProbes := true }, { cfg with fileProbes := { cfg.fileProbes with renameat2 := value } }) := by
  cases value <;> exact ⟨rfl, rfl, rfl⟩

theorem read_domains (d : DomainConfig) : (domainsSection d).foldl runtimeLine (place, cfg) =
    ({ domains := true }, { cfg with domains := d }) := by
  have hheader : runtimeLine (place, cfg) (str "domains:") = ({ domains := true }, cfg) :=
    runtimeLine_header place cfg (by decide) (by decide)
  simp only [domainsSection, List.foldl_cons, List.foldl_nil, hheader, readLine_toggle]

theorem read_fileProbes (p : FileProbeConfig) : (fileProbesSection p).foldl runtimeLine (place, cfg) =
    ({ fileProbes := true }, { cfg with fileProbes := p }) := by
  have hheader : runtimeLine (place, cfg) (str "file_probes:") = ({ fileProbes := true }, cfg) :=
    runtimeLine_header place cfg (by decide) (by decide)
  simp only [fileProbesSection, List.foldl_cons, List.foldl_nil, hheader, readLine_probe]

theorem read_network (n : NetworkConfig) : (networkSection n).foldl runtimeLine (place, cfg) =
    ({ networkFilters := true }, { cfg with
      network := { portAllowlist := cfg.network.portAllowlist ++ n.portAllowlist } }) := by
  have hheader : runtimeLine (place, cfg) (str "network_filters:") = ({ networkFilters := true }, cfg) :=
    runtimeLine_header place cfg (by decide) (by decide)
  simp only [networkSection, List.foldl_cons, List.foldl_nil, hheader, readLine_ports]

theorem read_collector (other : RuntimeConfig) : (collectorSection other).foldl runtimeLine (place, cfg) =
    ({}, { cfg with
      pidAllowlist := cfg.pidAllowlist ++ other.pidAllowlist
      uidAllowlist := cfg.uidAllowlist ++ other.uidAllowlist
      syscallAllowlist := cfg.syscallAllowlist ++ other.syscallAllowlist }) := by
  have hheader : runtimeLine (place, cfg) (str "collector:") = ({}, cfg) :=
    runtimeLine_header place cfg (by decide) (by decide)
  simp only [collectorSection, List.foldl_cons, List.foldl_nil, hheader, readLine_pids, readLine_uids,
    readLine_syscalls]

/-- Outside of the sections that the collector knows, a line without a list is nothing to it. -/
theorem runtimeLine_outside {line : Bytes} (h : PlainLine line) (hlist : NoList line) :
    runtimeLine ({}, cfg) line = ({}, cfg) := by
  rw [runtimeLine_plain (by rw [h.clean]; exact h.nonempty) (by rw [h.clean]; exact h.noHeader), h.clean,
    hlist _ (by decide), hlist _ (by decide), hlist _ (by decide)]
  cases splitColon line <;> rfl

theorem read_sink {quoted : Bool} {sink : SinkRuntimeConfig} (h : WritablePath quoted sink.path) :
    (sinkSection quoted sink).foldl runtimeLine (place, cfg) = ({}, cfg) := by
  have hheader : runtimeLine (place, cfg) (str "sink:") = ({}, cfg) :=
    runtimeLine_header place cfg (by decide) (by decide)
  have hpath := runtimeLine_outside cfg (plainLine_path h) (noList_of_three rfl rfl rfl)
  have hsize := runtimeLine_outside cfg (plainLine_size sink.maxFileSizeBytes) (noList_of_three rfl rfl rfl)
  simp only [sinkSection, List.foldl_cons, List.foldl_nil, hheader, hpath, hsize]

end Read

/-! ### The loop of the sink reads it -/

section ReadSink
variable (cfg : SinkRuntimeConfig)

theorem sinkLine_outside {line : Bytes} (h : cleaned line ≠ str "sink:") :
    sinkLine (false, cfg) line = (false, cfg) := by
  unfold sinkLine
  dsimp only
  rw [if_neg h]
  split_ifs with hempty hheader hout
  · rfl
  · rfl
  · rfl
  · exact absurd rfl hout

/-- A section of the collector is passed over. -/
theorem sinkRead_outside {block : List Bytes} (h : ¬HasHeader "sink:" block) :
    block.foldl sinkLine (false, cfg) = (false, cfg) := by
  induction block with
  | nil => rfl
  | cons line block ih =>
    rw [List.foldl_cons, sinkLine_outside cfg fun heq => h ⟨line, List.mem_cons_self, heq⟩]
    exact ih fun ⟨l, hl, heq⟩ => h ⟨l, List.mem_cons_of_mem _ hl, heq⟩

/-- The margin of a line does not matter. -/
theorem sinkLine_margin {line : Bytes} (h : cleaned (str "  " ++ line) = line) (p : Bool × SinkRuntimeConfig) :
    sinkLine p line = sinkLine p (str "  " ++ line) := by
  have hclean : cleaned line = line := by rw [← h, cleaned_cleaned]
  unfold sinkLine
  rw [hclean, h]

theorem sinkRead_sink {quoted : Bool} {sink : SinkRuntimeConfig} (h : WritablePath quoted sink.path) :
    (sinkSection quoted sink).foldl sinkLine (false, cfg) = (true, sink) := by
  have hheader : sinkLine (false, cfg) (str "sink:") = (true, cfg) := rfl
  have hpath : sinkLine (true, cfg) (setting "path" (writePath quoted sink.path)) =
      (true, { cfg with path := sink.path }) := by
    obtain ⟨htrimmed, hne, hhash, -⟩ := h.written
    rw [setting, sinkLine_margin (cleaned_pair plainKey_path htrimmed hne hhash)]
    exact (sinkLine_path h.plain h.noHash quoted cfg).trans (if_pos h.kept)
  have hsize : ∀ cfg, sinkLine (true, cfg) (setting "max_file_size_bytes" (dec sink.maxFileSizeBytes.toNat)) =
      (true, { cfg with maxFileSizeBytes := sink.maxFileSizeBytes }) := fun cfg => by
    have hhash : 0x23 ∉ dec sink.maxFileSizeBytes.toNat := (numeric_dec _).notMem (by decide) (by decide)
    rw [setting, sinkLine_margin (cleaned_pair plainKey_maxFileSizeBytes (trimmed_dec _) (dec_ne_nil _) hhash)]
    exact sinkLine_size sink.maxFileSizeBytes true cfg
  simp only [sinkSection, List.foldl_cons, List.foldl_nil, hheader, hpath, hsize]

end ReadSink

/-! ## Sections of others -/

/-- A section that neither loader looks for, and that has none of the lists in it. -/
structure Foreign (block : List Bytes) : Prop where
  headed : ∃ header rest, block = header :: rest ∧ isHeader (cleaned header) = true
  sections : ∀ name ∈ ["file_probes:", "domains:", "network_filters:", "sink:"], ¬HasHeader name block
  allowlists : ∀ key ∈ ["pid_allowlist:", "uid_allowlist:", "syscall_allowlist:"], ¬HasAllowlist key block

section Foreign
variable {others : List (List Bytes)} (h : ∀ block ∈ others, Foreign block)

include h

theorem runtimeRead_foreign (place : InSection) (cfg : RuntimeConfig) :
    (runtimeReader.read (place, cfg) others.flatten).2 = cfg := by
  have hheaded : runtimeReader.Headed others := fun block hmem => by
    obtain ⟨header, rest, heq, hheader⟩ := (h block hmem).headed
    exact ⟨header, rest, heq, runtimeReader_resets hheader⟩
  have hid : ∀ block ∈ others, ∀ f ∈ runtimeReader.edits {} block, f = id := by
    intro block hmem f hf
    obtain ⟨-, hsections, hlists⟩ := h block hmem
    refine (runtimeEdits_owned hf).resolve_right ?_
    rintro ⟨field, -, howns⟩
    cases field with
    | domains => exact hsections "domains:" (by decide) howns
    | fileProbes => exact hsections "file_probes:" (by decide) howns
    | network => exact hsections "network_filters:" (by decide) howns
    | pidAllowlist => exact hlists "pid_allowlist:" (by decide) howns
    | uidAllowlist => exact hlists "uid_allowlist:" (by decide) howns
    | syscallAllowlist => exact hlists "syscall_allowlist:" (by decide) howns
  exact Reader.read_idle hheaded {} hid place cfg

theorem sinkRead_foreign (inSink : Bool) (cfg : SinkRuntimeConfig) :
    (sinkReader.read (inSink, cfg) others.flatten).2 = cfg := by
  have hheaded : sinkReader.Headed others := fun block hmem => by
    obtain ⟨header, rest, heq, hheader⟩ := (h block hmem).headed
    exact ⟨header, rest, heq, sinkReader_resets hheader⟩
  have hid : ∀ block ∈ others, ∀ f ∈ sinkReader.edits false block, f = id := fun block hmem f hf =>
    (sinkEdits_owned hf).resolve_right ((h block hmem).sections "sink:" (by decide))
  exact Reader.read_idle hheaded false hid inSink cfg

end Foreign

/-! ## A file of sections -/

/-- A section as it is written: its header, and lines that are none. -/
structure Written (name : String) (block : List Bytes) : Prop where
  headed : ∃ rest, block = str name :: rest ∧ ∀ line ∈ rest, PlainLine line
  clean : cleaned (str name) = str name
  header : isHeader (str name) = true

section Written
variable {name : String} {block : List Bytes} (h : Written name block)

include h

/-- It has no other header. -/
theorem Written.hasHeader {other : String} (hother : isHeader (str other) = true) (hhas : HasHeader other block) :
    str name = str other := by
  obtain ⟨rest, rfl, hrest⟩ := h.headed
  obtain ⟨line, hmem, heq⟩ := hhas
  rcases List.mem_cons.mp hmem with rfl | hmem
  · exact h.clean.symm.trans heq
  · rw [(hrest line hmem).clean] at heq
    exact absurd heq (ne_header (hrest line hmem).noHeader hother)

theorem Written.not_hasAllowlist (hlists : ∀ line ∈ block.tail, NoList line) {key : String}
    (hkey : key ∈ ["pid_allowlist:", "uid_allowlist:", "syscall_allowlist:"]) : ¬HasAllowlist key block := by
  rintro ⟨line, hmem, hheader, hhas⟩
  obtain ⟨rest, rfl, hrest⟩ := h.headed
  rcases List.mem_cons.mp hmem with rfl | hmem
  · rw [h.clean, h.header] at hheader
    cases hheader
  · rw [(hrest line hmem).clean, hlists line hmem key hkey] at hhas
    cases hhas

end Written

theorem plainKey_toggle {key : String} (h : key ∈ ["process", "file", "syscall", "network_socket", "openat",
    "unlinkat", "renameat2"]) : PlainKey (str key) := by
  have hkeys : ∀ key ∈ ["process", "file", "syscall", "network_socket", "openat", "unlinkat", "renameat2"],
      str key ≠ [] ∧ (str key).all (fun c => !isSpace c) = true ∧ 0x3a ∉ str key ∧ 0x23 ∉ str key := by decide
  obtain ⟨hne, htrimmed, hcolon, hhash⟩ := hkeys key h
  exact ⟨hne, trimmed_of_all htrimmed, hcolon, hhash⟩

theorem noList_toggle {key : String} (h : key ∈ ["process", "file", "syscall", "network_socket", "openat",
    "unlinkat", "renameat2"]) (value : Bool) : NoList (toggle key value) := by
  have hkeys : ∀ key ∈ ["process", "file", "syscall", "network_socket", "openat", "unlinkat", "renameat2"],
      ∀ value, ∀ list ∈ ["pid_allowlist:", "uid_allowlist:", "syscall_allowlist:"],
        hasKey list (toggle key value) = false := by decide
  exact hkeys key h value

section Sections
variable (cfg : RuntimeConfig) {quoted : Bool} {sink : SinkRuntimeConfig} (h : WritablePath quoted sink.path)

theorem written_collector : Written "collector:" (collectorSection cfg) := by
  refine ⟨⟨_, rfl, ?_⟩, by decide, by decide⟩
  simp only [List.forall_mem_cons]
  exact ⟨plainLine_allowlist (by decide) numeric_uint32, plainLine_allowlist (by decide) numeric_uint32,
    plainLine_allowlist (by decide) numeric_int32, nofun⟩

theorem written_domains (d : DomainConfig) : Written "domains:" (domainsSection d) := by
  refine ⟨⟨_, rfl, ?_⟩, by decide, by decide⟩
  simp only [List.forall_mem_cons]
  exact ⟨plainLine_toggle (plainKey_toggle (by decide)) _, plainLine_toggle (plainKey_toggle (by decide)) _,
    plainLine_toggle (plainKey_toggle (by decide)) _, plainLine_toggle (plainKey_toggle (by decide)) _, nofun⟩

theorem written_fileProbes (p : FileProbeConfig) : Written "file_probes:" (fileProbesSection p) := by
  refine ⟨⟨_, rfl, ?_⟩, by decide, by decide⟩
  simp only [List.forall_mem_cons]
  exact ⟨plainLine_toggle (plainKey_toggle (by decide)) _, plainLine_toggle (plainKey_toggle (by decide)) _,
    plainLine_toggle (plainKey_toggle (by decide)) _, nofun⟩

theorem written_network (n : NetworkConfig) : Written "network_filters:" (networkSection n) := by
  refine ⟨⟨_, rfl, ?_⟩, by decide, by decide⟩
  simp only [List.forall_mem_cons]
  exact ⟨plainLine_allowlist (by decide) numeric_uint32, nofun⟩

theorem written_sink (h : WritablePath quoted sink.path) : Written "sink:" (sinkSection quoted sink) := by
  refine ⟨⟨_, rfl, ?_⟩, by decide, by decide⟩
  simp only [List.forall_mem_cons]
  exact ⟨plainLine_path h, plainLine_size _, nofun⟩

include h

theorem written_named : ∀ s ∈ named quoted cfg sink, Written s.1 s.2 := by
  simp only [named, List.forall_mem_cons]
  exact ⟨written_collector cfg, written_domains _, written_fileProbes _, written_network _, written_sink h, nofun⟩

/-- The lists that are looked for in every section are those of the collector. -/
theorem hasAllowlist_named {key : String} (hkey : key ∈ ["pid_allowlist:", "uid_allowlist:", "syscall_allowlist:"]) :
    ∀ s ∈ named quoted cfg sink, HasAllowlist key s.2 → s.2 = collectorSection cfg := by
  simp only [named, List.forall_mem_cons]
  refine ⟨fun _ => trivial, fun hhas => absurd hhas ?_, fun hhas => absurd hhas ?_, fun hhas => absurd hhas ?_,
    fun hhas => absurd hhas ?_, nofun⟩
  · refine (written_domains _).not_hasAllowlist ?_ hkey
    simp only [domainsSection, List.tail_cons, List.forall_mem_cons]
    exact ⟨noList_toggle (by decide) _, noList_toggle (by decide) _, noList_toggle (by decide) _,
      noList_toggle (by decide) _, nofun⟩
  · refine (written_fileProbes _).not_hasAllowlist ?_ hkey
    simp only [fileProbesSection, List.tail_cons, List.forall_mem_cons]
    exact ⟨noList_toggle (by decide) _, noList_toggle (by decide) _, noList_toggle (by decide) _, nofun⟩
  · refine (written_network _).not_hasAllowlist ?_ hkey
    simp only [networkSection, List.tail_cons, List.forall_mem_cons]
    exact ⟨noList_of_three rfl rfl rfl, nofun⟩
  · refine (written_sink h).not_hasAllowlist ?_ hkey
    simp only [sinkSection, List.tail_cons, List.forall_mem_cons]
    exact ⟨noList_of_three rfl rfl rfl, noList_of_three rfl rfl rfl, nofun⟩

/-- The sections of a configuration, and those of others, share nothing. -/
theorem wellCut_sections {others : List (List Bytes)} (hothers : ∀ block ∈ others, Foreign block) :
    WellCut (sections quoted cfg sink ++ others) := by
  have hwritten := written_named cfg h
  have hnames : ∀ s ∈ named quoted cfg sink, ∀ s' ∈ named quoted cfg sink, str s.1 = str s'.1 → s = s' := by
    have hnodup : ((named quoted cfg sink).map fun s => str s.1).Nodup := by
      have hheaders : (["collector:", "domains:", "file_probes:", "network_filters:", "sink:"].map str).Nodup := by
        decide
      exact hheaders
    exact fun s hs s' hs' heq => List.inj_on_of_nodup_map hnodup hs hs' heq
  constructor
  · intro block hmem
    rcases List.mem_append.mp hmem with hmem | hmem
    · obtain ⟨s, hs, rfl⟩ := List.mem_map.mp hmem
      obtain ⟨rest, heq, -⟩ := (hwritten s hs).headed
      refine ⟨_, rest, heq, ?_⟩
      rw [(hwritten s hs).clean]
      exact (hwritten s hs).header
    · exact (hothers block hmem).headed
  · intro name hname block hmem block' hmem' hhas hhas'
    have hheaders : ∀ name ∈ ["file_probes:", "domains:", "network_filters:", "sink:"],
        isHeader (str name) = true := by decide
    have hheader := hheaders name hname
    have hmine : ∀ {block}, block ∈ sections quoted cfg sink ++ others → HasHeader name block →
        ∃ s ∈ named quoted cfg sink, s.2 = block := fun hmem hhas => by
      rcases List.mem_append.mp hmem with hmem | hmem
      · exact List.mem_map.mp hmem
      · exact absurd hhas ((hothers _ hmem).sections name hname)
    obtain ⟨s, hs, rfl⟩ := hmine hmem hhas
    obtain ⟨s', hs', rfl⟩ := hmine hmem' hhas'
    have hsame := ((hwritten s hs).hasHeader hheader hhas).trans ((hwritten s' hs').hasHeader hheader hhas').symm
    rw [hnames s hs s' hs' hsame]
  · intro key hkey block hmem block' hmem' hhas hhas'
    have hmine : ∀ {block}, block ∈ sections quoted cfg sink ++ others → HasAllowlist key block →
        block = collectorSection cfg := fun hmem hhas => by
      rcases List.mem_append.mp hmem with hmem | hmem
      · obtain ⟨s, hs, rfl⟩ := List.mem_map.mp hmem
        exact hasAllowlist_named cfg h hkey s hs hhas
      · exact absurd hhas ((hothers _ hmem).allowlists key hkey)
    rw [hmine hmem hhas, hmine hmem' hhas']

/-- In this order the collector's loop sets one part of the configuration after the other. -/
theorem runtimeRead_sections : runtimeReader.read ({}, {}) (sections quoted cfg sink).flatten = ({}, cfg) := by
  have hflat : (sections quoted cfg sink).flatten = collectorSection cfg ++ (domainsSection cfg.domains ++
      (fileProbesSection cfg.fileProbes ++ (networkSection cfg.network ++ sinkSection quoted sink))) := by
    simp [sections, named]
  rw [runtimeReader_read, hflat, List.foldl_append, List.foldl_append, List.foldl_append, List.foldl_append,
    read_collector, read_domains, read_fileProbes, read_network, read_sink _ _ h]
  rfl

theorem sinkRead_sections : sinkReader.read (false, {}) (sections quoted cfg sink).flatten = (true, sink) := by
  have hflat : (sections quoted cfg sink).flatten = collectorSection cfg ++ (domainsSection cfg.domains ++
      (fileProbesSection cfg.fileProbes ++ (networkSection cfg.network ++ sinkSection quoted sink))) := by
    simp [sections, named]
  have hcollector : ¬HasHeader "sink:" (collectorSection cfg) := fun hhas =>
    absurd ((written_collector cfg).hasHeader (by decide) hhas) (by decide)
  have hdomains : ¬HasHeader "sink:" (domainsSection cfg.domains) := fun hhas =>
    absurd ((written_domains _).hasHeader (by decide) hhas) (by decide)
  have hprobes : ¬HasHeader "sink:" (fileProbesSection cfg.fileProbes) := fun hhas =>
    absurd ((written_fileProbes _).hasHeader (by decide) hhas) (by decide)
  have hnetwork : ¬HasHeader "sink:" (networkSection cfg.network) := fun hhas =>
    absurd ((written_network _).hasHeader (by decide) hhas) (by decide)
  rw [sinkReader_read, hflat, List.foldl_append, List.foldl_append, List.foldl_append, List.foldl_append,
    sinkRead_outside _ hcollector, sinkRead_outside _ hdomains, sinkRead_outside _ hprobes,
    sinkRead_outside _ hnetwork, sinkRead_sink _ h]

end Sections

/-- **A configuration is read back** from every text in which its sections are left, in any order, and with the
sections of others between them. -/
theorem config_reads_back {quoted : Bool} {cfg : RuntimeConfig} {sink : SinkRuntimeConfig}
    {others blocks : List (List Bytes)} {text : Bytes} (hpath : WritablePath quoted sink.path)
    (hothers : ∀ block ∈ others, Foreign block) (hperm : blocks.Perm (sections quoted cfg sink ++ others))
    (htext : settings text = blocks.flatten) :
    loadRuntimeConfig (some text) {} = (true, cfg) ∧ loadSinkRuntimeConfig (some text) = sink := by
  have hcut := wellCut_sections cfg hpath hothers
  rw [loadRuntimeConfig_settings, loadSinkRuntimeConfig_settings, htext]
  constructor
  · rw [← runtimeRead_perm hcut hperm.symm, List.flatten_append, Reader.read_append, runtimeRead_sections cfg hpath,
      runtimeRead_foreign hothers]
  · rw [← sinkRead_perm hcut hperm.symm, List.flatten_append, Reader.read_append, sinkRead_sections cfg hpath,
      sinkRead_foreign hothers]

/-! ### A file -/

def sampleConfig : RuntimeConfig where
  domains := { file := false, syscall := false, networkSocket := true }
  fileProbes := { renameat2 := false }
  pidAllowlist := [7, 8]
  syscallAllowlist := [-1, 59]
  network := { portAllowlist := [443] }

def sampleSink : SinkRuntimeConfig where
  path := str "/tmp/e.ndjson"
  maxFileSizeBytes := 4096

def sampleText : Bytes :=
  str "# sample\nsink:\n  path: \"/tmp/e.ndjson\" # rotated\n  max_file_size_bytes: 4096\n\ndomains:\n" ++
    str "  process: true\n  file: false\n\n  dns: false\n  syscall: false\n  network_socket: true\nlog:\n" ++
    str "  level: 2\ncollector:\n  poll_timeout_ms: 200\n  pid_allowlist: [7, 8]\n  uid_allowlist: []\n" ++
    str "  syscall_allowlist: [-1, 59]\nnetwork_filters:\n  port_allowlist: [443]\nfile_probes:\n" ++
    str "  openat: true\n  unlinkat: true\n  renameat2: false\n"

theorem config_reads_back_sample :
    loadRuntimeConfig (some sampleText) {} = (true, sampleConfig) ∧
      loadSinkRuntimeConfig (some sampleText) = sampleSink := by
  have hpath : WritablePath true sampleSink.path :=
    ⟨plainPath_of_all (by decide), by decide, Or.inl rfl⟩
  have hforeign : ∀ block ∈ [[str "log:"]], Foreign block := by
    intro block hblock
    rw [List.mem_singleton.mp hblock]
    exact ⟨⟨_, _, rfl, by decide⟩, by decide, by decide⟩
  have hperm : List.Perm [sinkSection true sampleSink, domainsSection sampleConfig.domains, [str "log:"],
      collectorSection sampleConfig, networkSection sampleConfig.network, fileProbesSection sampleConfig.fileProbes]
      (sections true sampleConfig sampleSink ++ [[str "log:"]]) := by decide +kernel
  exact config_reads_back hpath hforeign hperm (by decide +kernel)

end ETraceGen.Config
