import ETraceGen.Config.Lines

/-!
# The configuration of the sink

`LoadSinkRuntimeConfig` of `main.cpp`: the path and the size limit under `sink:`.

* `sinkLine` : one step of the loop over the lines;
* `hash_notMem_path` : no configuration file gives a path with a `#`;
* `sinkConfig_round_trip_iff` : the paths that are read as they are written.
-/

namespace ETraceGen.Config

open Proc (isSpace stoull)
open Sections (Reader)

structure SinkRuntimeConfig where
  path : Bytes := str "/var/log/etracegen/events.ndjson"
  maxFileSizeBytes : UInt64 := 100 * 1024 * 1024
  deriving DecidableEq

/-- Quotes around a value are taken off. -/
def unquote (value : Bytes) : Bytes :=
  if 2 ≤ value.length ∧ (value.head? = some 0x22 ∧ value.getLast? = some 0x22 ∨
      value.head? = some 0x27 ∧ value.getLast? = some 0x27) then
    (value.drop 1).dropLast
  else value

def setSinkKey (key value : Bytes) (cfg : SinkRuntimeConfig) : SinkRuntimeConfig :=
  if key = str "path" then { cfg with path := value }
  else if key = str "max_file_size_bytes" then
    match stoull value with
    | some size => { cfg with maxFileSizeBytes := size }
    | none => cfg
  else cfg

/-- One line: whether the section is `sink:`, and the configuration. -/
def sinkLine (p : Bool × SinkRuntimeConfig) (line : Bytes) : Bool × SinkRuntimeConfig :=
  let (inSink, cfg) := p
  let trimmed := cleaned line
  if trimmed = [] then (inSink, cfg)
  else if trimmed = str "sink:" then (true, cfg)
  else if isHeader trimmed then (false, cfg)
  else if !inSink then (inSink, cfg)
  else
    match splitColon trimmed with
    | none => (inSink, cfg)
    | some (key, value) => (inSink, setSinkKey key (unquote value) cfg)

/-- `none` where the file cannot be opened. -/
def loadSinkRuntimeConfig : Option Bytes → SinkRuntimeConfig
  | none => {}
  | some text => ((lines text).foldl sinkLine (false, {})).2

/-! ## What a path is made of -/

theorem mem_of_mem_unquote {value : Bytes} {c : UInt8} (h : c ∈ unquote value) : c ∈ value := by
  unfold unquote at h
  split_ifs at h
  · exact List.mem_of_mem_drop ((List.dropLast_sublist _).subset h)
  · exact h

theorem setSinkKey_path (key value : Bytes) (cfg : SinkRuntimeConfig) :
    (setSinkKey key value cfg).path = cfg.path ∨ (setSinkKey key value cfg).path = value := by
  unfold setSinkKey
  split_ifs
  · exact Or.inr rfl
  · cases stoull value <;> exact Or.inl rfl
  · exact Or.inl rfl

theorem hash_notMem_sinkLine {p : Bool × SinkRuntimeConfig} (h : 0x23 ∉ p.2.path) (line : Bytes) :
    0x23 ∉ (sinkLine p line).2.path := by
  obtain ⟨inSink, cfg⟩ := p
  unfold sinkLine
  dsimp only
  split_ifs
  · exact h
  · exact h
  · exact h
  · exact h
  · cases hsplit : splitColon (cleaned line) with
    | none => exact h
    | some pair =>
      obtain ⟨key, value⟩ := pair
      rcases setSinkKey_path key (unquote value) cfg with heq | heq
      · show 0x23 ∉ (setSinkKey key (unquote value) cfg).path
        rw [heq]
        exact h
      · show 0x23 ∉ (setSinkKey key (unquote value) cfg).path
        rw [heq]
        exact fun hmem => not_mem_cleaned line (splitColon_mem hsplit (mem_of_mem_unquote hmem))

theorem hash_notMem_foldl {p : Bool × SinkRuntimeConfig} (h : 0x23 ∉ p.2.path) (ls : List Bytes) :
    0x23 ∉ (ls.foldl sinkLine p).2.path := by
  induction ls generalizing p with
  | nil => exact h
  | cons line rest ih => exact ih (hash_notMem_sinkLine h line)

/-- **No file gives a path with a `#`.** -/
theorem hash_notMem_path (contents : Option Bytes) : 0x23 ∉ (loadSinkRuntimeConfig contents).path := by
  have hdefault : 0x23 ∉ ({} : SinkRuntimeConfig).path := by decide
  cases contents with
  | none => exact hdefault
  | some text => exact hash_notMem_foldl hdefault (lines text)

/-! ## What is written -/

/-- A path as it stands in the file. -/
def writePath (quoted : Bool) (path : Bytes) : Bytes := if quoted then str "\"" ++ path ++ str "\"" else path

def sinkText (quoted : Bool) (path : Bytes) (size : Nat) : Bytes :=
  str "sink:\n  path: " ++ writePath quoted path ++ str "\n  max_file_size_bytes: " ++ dec size ++ str "\n"

/-- A path with no line break and no quotes in it, and no whitespace at its ends. -/
structure PlainPath (path : Bytes) : Prop where
  noNewline : 0x0a ∉ path
  noDouble : 0x22 ∉ path
  noSingle : 0x27 ∉ path
  trimmed : Trimmed path

theorem lines_sinkText (quoted : Bool) {path : Bytes} (h : PlainPath path) (size : Nat) :
    lines (sinkText quoted path size) =
      [str "sink:", str "  path: " ++ writePath quoted path, str "  max_file_size_bytes: " ++ dec size] := by
  have hpath : 0x0a ∉ str "  path: " ++ writePath quoted path := by
    have hwritten : 0x0a ∉ writePath quoted path := by
      have := h.noNewline
      unfold writePath
      split_ifs <;> simp [str, this]
    rw [List.mem_append, not_or]
    exact ⟨by decide, hwritten⟩
  have hsize : 0x0a ∉ str "  max_file_size_bytes: " ++ dec size := by
    rw [List.mem_append, not_or]
    exact ⟨by decide, fun hmem => absurd (isDigit_of_mem_dec hmem) (by decide)⟩
  have htext : sinkText quoted path size = str "sink:" ++ 0x0a :: ((str "  path: " ++ writePath quoted path) ++
      0x0a :: ((str "  max_file_size_bytes: " ++ dec size) ++ 0x0a :: [])) := by
    simp [sinkText, str]
  rw [lines, htext, Sections.pieces_append_cons (by decide), Sections.pieces_append_cons hpath,
    Sections.pieces_append_cons hsize]
  rfl

/-! ## Reading it back -/

/-- A key that has neither a colon nor a `#` in it. -/
structure PlainKey (key : Bytes) : Prop where
  nonempty : key ≠ []
  trimmed : Trimmed key
  noColon : 0x3a ∉ key
  noHash : 0x23 ∉ key

theorem cleaned_indented {line : Bytes} (hhash : 0x23 ∉ line) : cleaned (str "  " ++ line) = trim line := by
  have hspaces : 0x23 ∉ str "  " ++ line := by
    rw [List.mem_append, not_or]
    exact ⟨by decide, hhash⟩
  rw [cleaned, stripComment_of_not_mem hspaces]
  show trim (0x20 :: 0x20 :: line) = trim line
  rw [trim_cons_space (by decide), trim_cons_space (by decide)]

section KeyLine
variable {key value : Bytes} (hkey : PlainKey key) (hvalue : Trimmed value) (hne : value ≠ [])
  (hhash : 0x23 ∉ value) (cfg : SinkRuntimeConfig)

include hkey hvalue hne hhash

theorem cleaned_pair :
    cleaned (str "  " ++ (key ++ str ": " ++ value)) = key ++ str ": " ++ value := by
  have hnone : 0x23 ∉ key ++ str ": " ++ value := by
    rw [List.mem_append, List.mem_append, not_or, not_or]
    exact ⟨⟨hkey.noHash, by decide⟩, hhash⟩
  rw [cleaned_indented hnone]
  apply trim_of_trimmed
  constructor
  · intro c hc
    rw [List.append_assoc, List.head?_append_of_ne_nil _ hkey.nonempty] at hc
    exact hkey.trimmed.front c hc
  · intro c hc
    rw [List.getLast?_append_of_ne_nil _ hne] at hc
    exact hvalue.back c hc

/-- The line is a key and its value, unless the value ends like a header. -/
theorem sinkLine_pair (inSink : Bool) :
    sinkLine (inSink, cfg) (str "  " ++ (key ++ str ": " ++ value)) =
      if value.getLast? = some 0x3a then (false, cfg)
      else (inSink, if inSink then setSinkKey key (unquote value) cfg else cfg) := by
  have hspace : 0x20 ∈ key ++ str ": " ++ value := by simp [str]
  have hsink : key ++ str ": " ++ value ≠ str "sink:" := by
    intro h
    rw [h] at hspace
    exact absurd hspace (by decide)
  unfold sinkLine
  dsimp only
  rw [cleaned_pair hkey hvalue hne hhash, if_neg (List.ne_nil_of_mem hspace), if_neg hsink, isHeader,
    List.getLast?_append_of_ne_nil _ hne, splitColon_pair hkey.noColon hkey.trimmed hvalue]
  simp only [beq_iff_eq]
  cases inSink <;> rfl

end KeyLine

theorem plainKey_path : PlainKey (str "path") :=
  ⟨by decide, trimmed_of_all (by decide), by decide, by decide⟩

theorem plainKey_maxFileSizeBytes : PlainKey (str "max_file_size_bytes") :=
  ⟨by decide, trimmed_of_all (by decide), by decide, by decide⟩

section WrittenPath
variable {path : Bytes} (h : PlainPath path)

include h

theorem unquote_writePath (quoted : Bool) : unquote (writePath quoted path) = path := by
  cases quoted with
  | true =>
    have hwritten : writePath true path = 0x22 :: (path ++ [0x22]) := rfl
    have hquotes : 2 ≤ (writePath true path).length ∧ (writePath true path).head? = some 0x22 ∧
        (writePath true path).getLast? = some 0x22 := by
      rw [hwritten]
      refine ⟨by simp, rfl, ?_⟩
      rw [← List.cons_append, List.getLast?_append_of_ne_nil _ (by decide)]
      rfl
    rw [unquote, if_pos ⟨hquotes.1, Or.inl hquotes.2⟩, hwritten, List.drop_one, List.tail_cons,
      List.dropLast_concat]
  | false =>
    have hno : ∀ c ∉ path, path.head? ≠ some c := fun c hc hhead => hc (List.mem_of_mem_head? hhead)
    show unquote path = path
    rw [unquote, if_neg]
    rintro ⟨-, ⟨hhead, -⟩ | ⟨hhead, -⟩⟩
    · exact hno 0x22 h.noDouble hhead
    · exact hno 0x27 h.noSingle hhead

theorem trimmed_writePath (quoted : Bool) : Trimmed (writePath quoted path) := by
  cases quoted with
  | true =>
    have hback : (writePath true path).getLast? = some 0x22 := List.getLast?_append_of_ne_nil _ (by decide)
    constructor
    · intro c hc
      obtain rfl := Option.some.inj hc
      decide
    · intro c hc
      rw [hback] at hc
      obtain rfl := Option.some.inj hc
      decide
  | false => exact h.trimmed

end WrittenPath

/-- The text of a number is no header, and reads as the number. -/
theorem trimmed_dec (n : Nat) : Trimmed (dec n) := by
  have hdigit : ∀ c ∈ dec n, isSpace c = false := fun c hc => Proc.isSpace_of_isDigit (isDigit_of_mem_dec hc)
  exact ⟨fun c hc => hdigit c (List.mem_of_mem_head? hc), fun c hc => hdigit c (List.mem_of_mem_getLast? hc)⟩

theorem stoull_dec (n : UInt64) : stoull (dec n.toNat) = some n := by
  have hvalue : Proc.decimal (dec n.toNat) = n.toNat := ofDigits_dec n.toNat
  have hdigits : ∀ c ∈ dec n.toNat, Proc.isDigit c = true := fun c hc => isDigit_of_mem_dec hc
  rw [Proc.stoull_of_digits (dec_ne_nil _) hdigits (by rw [hvalue]; exact n.toNat_lt), hvalue,
    UInt64.ofNat_toNat]

theorem unquote_dec (n : Nat) : unquote (dec n) = dec n := by
  rw [unquote, if_neg]
  rintro ⟨-, ⟨hhead, -⟩ | ⟨hhead, -⟩⟩
  all_goals exact absurd (isDigit_of_mem_dec (List.mem_of_mem_head? hhead)) (by decide)

theorem sinkLine_size (size : UInt64) (inSink : Bool) (cfg : SinkRuntimeConfig) :
    sinkLine (inSink, cfg) (str "  max_file_size_bytes: " ++ dec size.toNat) =
      (inSink, if inSink then { cfg with maxFileSizeBytes := size } else cfg) := by
  have hcolon : (dec size.toNat).getLast? ≠ some 0x3a := fun h =>
    absurd (isDigit_of_mem_dec (List.mem_of_mem_getLast? h)) (by decide)
  have hhash : 0x23 ∉ dec size.toNat := fun h => absurd (isDigit_of_mem_dec h) (by decide)
  have hset : setSinkKey (str "max_file_size_bytes") (dec size.toNat) cfg =
      { cfg with maxFileSizeBytes := size } := by
    rw [setSinkKey, if_neg (by decide), if_pos rfl, stoull_dec]
  have hline := sinkLine_pair plainKey_maxFileSizeBytes (trimmed_dec _) (dec_ne_nil _) hhash cfg inSink
  rw [if_neg hcolon, unquote_dec, hset] at hline
  exact hline

/-- What the line of a path without a `#` does in the section. -/
theorem sinkLine_path {path : Bytes} (h : PlainPath path) (hhash : 0x23 ∉ path) (quoted : Bool)
    (cfg : SinkRuntimeConfig) :
    sinkLine (true, cfg) (str "  path: " ++ writePath quoted path) =
      if quoted = true ∨ path ≠ [] ∧ path.getLast? ≠ some 0x3a then (true, { cfg with path := path })
      else (false, cfg) := by
  have hset : setSinkKey (str "path") path cfg = { cfg with path := path } := if_pos rfl
  have hpair : writePath quoted path ≠ [] → 0x23 ∉ writePath quoted path →
      sinkLine (true, cfg) (str "  path: " ++ writePath quoted path) =
        if (writePath quoted path).getLast? = some 0x3a then (false, cfg)
        else (true, { cfg with path := path }) := by
    intro hne hwritten
    have hline := sinkLine_pair plainKey_path (trimmed_writePath h quoted) hne hwritten cfg true
    rw [unquote_writePath h, hset] at hline
    exact hline
  cases quoted with
  | true =>
    have hwritten : 0x23 ∉ writePath true path := by
      show 0x23 ∉ 0x22 :: (path ++ [0x22])
      simp [hhash]
    have hback : (writePath true path).getLast? ≠ some 0x3a := by
      rw [show (writePath true path).getLast? = some 0x22 from List.getLast?_append_of_ne_nil _ (by decide)]
      decide
    rw [hpair (List.cons_ne_nil _ _) hwritten, if_neg hback, if_pos (Or.inl rfl)]
  | false =>
    by_cases hempty : path = []
    · subst hempty
      rfl
    · rw [hpair hempty hhash, show writePath false path = path from rfl]
      by_cases hback : path.getLast? = some 0x3a
      · rw [if_pos hback, if_neg (by simp [hback])]
      · rw [if_neg hback, if_pos (Or.inr ⟨hempty, hback⟩)]

/-- **The configuration of the sink round trips** exactly if the path has no `#`, and, unless it is quoted, is
not empty and does not end in a colon. -/
theorem sinkConfig_round_trip_iff (quoted : Bool) {path : Bytes} (h : PlainPath path) (size : UInt64) :
    loadSinkRuntimeConfig (some (sinkText quoted path size.toNat)) =
        { path := path, maxFileSizeBytes := size } ↔
      0x23 ∉ path ∧ (quoted = true ∨ path ≠ [] ∧ path.getLast? ≠ some 0x3a) := by
  by_cases hhash : 0x23 ∈ path
  · have hnone := hash_notMem_path (some (sinkText quoted path size.toNat))
    refine iff_of_false (fun heq => hnone ?_) (fun hand => hand.1 hhash)
    rw [heq]
    exact hhash
  rw [and_iff_right hhash]
  have hsection : sinkLine (false, {}) (str "sink:") = (true, {}) := rfl
  rw [loadSinkRuntimeConfig, lines_sinkText quoted h, List.foldl_cons, hsection, List.foldl_cons,
    sinkLine_path h hhash, List.foldl_cons, List.foldl_nil]
  by_cases hread : quoted = true ∨ path ≠ [] ∧ path.getLast? ≠ some 0x3a
  · rw [if_pos hread, sinkLine_size]
    exact iff_of_true rfl hread
  · rw [if_neg hread, sinkLine_size]
    -- the defaults are neither empty nor a header
    refine iff_of_false (fun heq => hread ?_) hread
    have hpath : str "/var/log/etracegen/events.ndjson" = path := congrArg SinkRuntimeConfig.path heq
    rw [← hpath]
    exact Or.inr ⟨by decide, by decide⟩

theorem plainPath_of_all {path : Bytes}
    (h : path.all (fun c => c != 0x0a && c != 0x22 && c != 0x27 && !isSpace c) = true) : PlainPath path := by
  have hall : ∀ c ∈ path, c ≠ 0x0a ∧ c ≠ 0x22 ∧ c ≠ 0x27 ∧ isSpace c = false := by
    simpa [List.all_eq_true, and_assoc] using h
  exact ⟨fun hc => (hall _ hc).1 rfl, fun hc => (hall _ hc).2.1 rfl, fun hc => (hall _ hc).2.2.1 rfl,
    trimmed_of_noSpace fun c hc => (hall c hc).2.2.2⟩

theorem sinkConfig_round_trip_iff_tmp :
    loadSinkRuntimeConfig (some (sinkText false (str "/tmp/events.ndjson") 4096)) =
      { path := str "/tmp/events.ndjson", maxFileSizeBytes := 4096 } :=
  (sinkConfig_round_trip_iff false (plainPath_of_all (by decide)) 4096).mpr
    ⟨by decide, Or.inr ⟨by decide, by decide⟩⟩

/-- A `#` cuts the path short, also between quotes. -/
theorem not_sinkConfig_round_trip :
    ¬ ∀ (quoted : Bool) (path : Bytes), PlainPath path → ∀ size : UInt64,
      loadSinkRuntimeConfig (some (sinkText quoted path size.toNat)) =
        { path := path, maxFileSizeBytes := size } := by
  intro h
  have hread := h true (str "/tmp/a#b") (plainPath_of_all (by decide)) 4096
  exact absurd hread (by decide)

end ETraceGen.Config
