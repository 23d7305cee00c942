import ETraceGen.Sink.Format
import ETraceGen.Lib.Utf8

/-!
# The encoding of a line

The escapes leave every byte from 0x80 on as it is, so a line is UTF-8 exactly if the texts read for it are
(`valid_serialized_iff`), and is so whatever lies behind the record exactly if they end inside their arrays, too
(`utf8_iff`).
-/

namespace ETraceGen.JsonSink

open Utf8 (Ascii Pending Valid run)

theorem escapeByte_ascii {c : UInt8} (h : c < 0x80) : Ascii (escapeByte c) ∧ escapeByte c ≠ [] := by
  have hall : ∀ k < 128, Ascii (escapeByte (UInt8.ofNat k)) ∧ escapeByte (UInt8.ofNat k) ≠ [] := by decide
  have hc := hall c.toNat (UInt8.lt_iff_toNat_lt.mp h)
  rwa [UInt8.ofNat_toNat] at hc

theorem escapeByte_of_le {c : UInt8} (h : 0x80 ≤ c) : escapeByte c = [c] := by
  have hne : ∀ d : UInt8, d < 0x80 → c ≠ d := by
    rintro d hd rfl
    exact UInt8.not_lt.mpr h hd
  unfold escapeByte
  rw [if_neg (hne _ (by decide)), if_neg (hne _ (by decide)), if_neg (hne _ (by decide)),
    if_neg (hne _ (by decide)), if_neg (hne _ (by decide)), if_neg (hne _ (by decide)),
    if_neg (hne _ (by decide)), if_neg (UInt8.not_lt.mpr (UInt8.le_trans (by decide) h))]

/-- To a reader of characters, an escaped byte is the byte. -/
theorem run_escapeByte {q : List ByteRange} (hq : Pending q) (c : UInt8) : run q (escapeByte c) = run q [c] := by
  by_cases hc : c < 0x80
  · obtain ⟨hascii, hne⟩ := escapeByte_ascii hc
    have hone : Ascii [c] := List.forall_mem_singleton.mpr hc
    rw [Utf8.run_pending_ascii hq hascii hne, Utf8.run_pending_ascii hq hone (List.cons_ne_nil _ _)]
  · rw [escapeByte_of_le (UInt8.not_lt.mp hc)]

theorem run_jsonEscape {q : List ByteRange} (hq : Pending q) (s : Bytes) :
    run q (jsonEscape s) = run q s := by
  induction s generalizing q with
  | nil => rfl
  | cons c s ih =>
    rw [jsonEscape, Utf8.run_append, run_escapeByte hq, ← List.singleton_append (x := c) (l := s),
      Utf8.run_append q [c]]
    cases hstep : run q [c] with
    | none => rfl
    | some q' => exact ih (Utf8.pending_run hq hstep)

theorem valid_jsonEscape (s : Bytes) : Valid (jsonEscape s) ↔ Valid s := by
  rw [Utf8.valid_iff, Utf8.valid_iff, run_jsonEscape Utf8.pending_nil]

/-! ## Pieces -/

section Pieces
variable {rest : Bytes}

theorem valid_str {s : String} (h : Ascii (str s)) : Valid (str s ++ rest) ↔ Valid rest :=
  Utf8.valid_ascii_append h rest

theorem ascii_of_isDigit {b : UInt8} (h : isDigit b = true) : b < 0x80 := by
  rw [isDigit, Bool.and_eq_true, decide_eq_true_eq, decide_eq_true_eq] at h
  exact UInt8.lt_of_le_of_lt h.2 (by decide)

theorem ascii_dec (n : Nat) : Ascii (dec n) := fun _ hb => ascii_of_isDigit (isDigit_of_mem_dec hb)

theorem valid_dec (n : Nat) : Valid (dec n ++ rest) ↔ Valid rest := Utf8.valid_ascii_append (ascii_dec n) rest

theorem valid_decInt (i : Int) : Valid (decInt i ++ rest) ↔ Valid rest := by
  unfold decInt
  split_ifs
  · rw [List.append_assoc, valid_str (by decide), valid_dec]
  · exact valid_dec _

theorem valid_key {name : String} (h : Ascii (str name)) : Valid (key name ++ rest) ↔ Valid rest := by
  simp only [key, List.flatten_cons, List.flatten_nil, List.append_assoc, List.nil_append]
  rw [valid_str (by decide), valid_str h, valid_str (by decide)]

theorem valid_quoted (s : Bytes) : Valid (quoted s ++ rest) ↔ Valid s ∧ Valid rest := by
  simp only [quoted, List.flatten_cons, List.flatten_nil, List.append_assoc, List.nil_append]
  rw [valid_str (by decide), Utf8.valid_append_ascii s (by decide) (by decide)]

theorem valid_ascii {s : Bytes} (h : Ascii s) : Valid s := by
  rw [Utf8.valid_iff, Utf8.run_ascii h]

end Pieces

/-! ## The texts of a line -/

def entityTexts : Option ProcessEntity → List Bytes
  | some e => [e.execPath, e.cmdline, e.cwd, e.parentComm]
  | none => []

def variantTexts : EventVariant → List Bytes
  | .process _ => []
  | .file ev => [ev.pathA.cstr, ev.pathB.cstr]
  | .syscall _ => []
  | .network ev => [ev.optvalPrefix.toList, ev.localEp.path.cstr, ev.remoteEp.path.cstr]

/-- The texts of an event and of its entity that a line shows. -/
def writtenTexts (canonical : CanonicalEvent) (event : EventVariant) : List Bytes :=
  event.hdr.comm.cstr :: (entityTexts canonical.subjectProcess ++ variantTexts event)

/-- What is read from a pointer on. -/
def readText (array behind : Bytes) : Bytes := (array ++ behind).takeWhile (· != 0)

/-- The texts of a record as they are read. -/
def readTexts (behind : Behind) : EventVariant → List Bytes
  | .process _ => []
  | .file ev => [readText ev.pathA.toList behind.pathA, readText ev.pathB.toList behind.pathB]
  | .syscall _ => []
  | .network ev => [ev.optvalPrefix.toList, readText ev.localEp.path.toList behind.localPath,
      readText ev.remoteEp.path.toList behind.remotePath]

section Writers
variable {rest : Bytes} (behind : Behind)

theorem valid_text (s : Bytes) : Valid (quoted (jsonEscape s) ++ rest) ↔ Valid s ∧ Valid rest := by
  rw [valid_quoted, valid_jsonEscape]

theorem valid_label {s : String} (h : Ascii (str s)) : Valid (quoted (str s) ++ rest) ↔ Valid rest := by
  rw [valid_quoted, and_iff_right (valid_ascii h)]

theorem valid_hex (bytes : Bytes) (size : Nat) :
    Valid (quoted (bytesToHex bytes size) ++ rest) ↔ Valid rest := by
  have hascii : Ascii (bytesToHex bytes size) :=
    bytesToHex_cases (P := fun c => c < 0x80) (by decide) bytes size
  rw [valid_quoted, and_iff_right (valid_ascii hascii)]

theorem valid_cstr (array behind : Bytes) :
    Valid (quoted (jsonEscapeC (array ++ behind)) ++ rest) ↔ Valid (readText array behind) ∧ Valid rest := by
  rw [jsonEscapeC_eq]
  exact valid_text _

theorem valid_header (h : EventHeader) :
    Valid (writeHeader h behind ++ rest) ↔ Valid (readText h.comm.toList behind.comm) ∧ Valid rest := by
  have htype : Ascii (str (eventTypeToString h.type)) :=
    labelOf_cases (P := fun l => Ascii (str l)) (by decide) (by decide) h.type
  simp (disch := decide) only [writeHeader, List.flatten_cons, List.flatten_nil, List.append_assoc,
    List.nil_append, valid_key, valid_str, valid_dec, valid_label htype, valid_cstr]

/-- The entity's texts, and none if there is no entity. -/
theorem forall_entityTexts (pe : Option ProcessEntity) : (∀ s ∈ entityTexts pe, Valid s) ↔
    Valid (entityText pe ProcessEntity.execPath) ∧ Valid (entityText pe ProcessEntity.cmdline) ∧
      Valid (entityText pe ProcessEntity.cwd) ∧ Valid (entityText pe ProcessEntity.parentComm) := by
  cases pe with
  | none => exact iff_of_true (List.forall_mem_nil _) ⟨.nil, .nil, .nil, .nil⟩
  | some e => simp [entityTexts, entityText]

theorem valid_processInfo (h : EventHeader) (pe : Option ProcessEntity) :
    Valid (writeProcessInfo h pe behind ++ rest) ↔
      Valid (readText h.comm.toList behind.comm) ∧ (∀ s ∈ entityTexts pe, Valid s) ∧ Valid rest := by
  simp (disch := decide) only [writeProcessInfo, processInfoBody, List.flatten_cons, List.flatten_nil,
    List.append_assoc, List.nil_append, valid_key, valid_str, valid_dec, valid_text, valid_cstr,
    forall_entityTexts, and_assoc]

theorem valid_endpoint {label : String} (hlabel : label ∈ ["local", "remote"]) (ep : NetworkEndpoint)
    (behind : Bytes) :
    Valid (writeNetworkEndpoint label ep behind ++ rest) ↔ Valid (readText ep.path.toList behind) ∧ Valid rest := by
  have hall : ∀ l ∈ ["local", "remote"], ∀ s ∈ ["_family", "_port", "_addr_len", "_addr", "_path"],
      Ascii (str (l ++ s)) := by decide
  have hname : ∀ s ∈ ["_family", "_port", "_addr_len", "_addr", "_path"], ∀ t,
      Valid (key (label ++ s) ++ t) ↔ Valid t := fun s hs _ => valid_key (hall label hlabel s hs)
  simp (disch := decide) only [writeNetworkEndpoint, List.flatten_cons, List.flatten_nil, List.append_assoc,
    List.nil_append, hname, valid_str, valid_dec, valid_hex, valid_cstr]

theorem valid_variant (pe : Option ProcessEntity) (event : EventVariant) (hentity : ∀ s ∈ entityTexts pe, Valid s) :
    Valid (writeVariant pe event behind ++ rest) ↔ (∀ s ∈ readTexts behind event, Valid s) ∧ Valid rest := by
  cases event with
  | process ev =>
    obtain ⟨hexec, hcmdline, hcwd, hparent⟩ := (forall_entityTexts pe).mp hentity
    simp (disch := decide) only [writeVariant, writeProcessEvent, List.flatten_cons, List.flatten_nil,
      List.append_assoc, List.nil_append, valid_key, valid_str, valid_dec, valid_text]
    simp [readTexts, hexec, hcmdline, hcwd, hparent]
  | file ev =>
    simp (disch := decide) only [writeVariant, writeFileEvent, List.flatten_cons, List.flatten_nil,
      List.append_assoc, List.nil_append, valid_key, valid_str, valid_dec, valid_decInt, valid_cstr]
    simp [readTexts, and_assoc]
  | syscall ev =>
    simp (disch := decide) only [writeVariant, writeSyscallEvent, List.flatten_cons, List.flatten_nil,
      List.append_assoc, List.nil_append, valid_key, valid_str, valid_dec, valid_decInt]
    simp [readTexts]
  | network ev =>
    have hkind : Ascii (str (networkEventKindToString ev.kind)) :=
      labelOf_cases (P := fun l => Ascii (str l)) (by decide) (by decide) ev.kind
    have hdirection : Ascii (str (networkDirectionToString ev.direction)) :=
      labelOf_cases (P := fun l => Ascii (str l)) (by decide) (by decide) ev.direction
    have htransport : Ascii (str (networkTransportToString ev.transport)) :=
      labelOf_cases (P := fun l => Ascii (str l)) (by decide) (by decide) ev.transport
    simp (disch := decide) only [writeVariant, writeNetworkEvent, List.flatten_cons, List.flatten_nil,
      List.append_assoc, List.nil_append, valid_key, valid_str, valid_dec, valid_decInt, valid_text,
      valid_label hkind, valid_label hdirection, valid_label htransport, valid_endpoint]
    simp [readTexts, and_assoc]

end Writers

theorem valid_object (id : Nat) (rest : Bytes) : Valid (writeObject id ++ rest) ↔ Valid rest := by
  unfold writeObject
  split_ifs
  · simp (disch := decide) only [List.flatten_cons, List.flatten_nil, List.append_assoc, List.nil_append,
      valid_key, valid_str, valid_dec]
  · exact Iff.rfl

section
variable (canonical : CanonicalEvent) (event : EventVariant)

/-- A line is UTF-8 exactly if every text read for it is, wherever it ends. -/
theorem valid_serialized_iff (behind : Behind) :
    Valid (serialized canonical event behind) ↔ Valid (readText event.hdr.comm.toList behind.comm) ∧
      (∀ s ∈ entityTexts canonical.subjectProcess, Valid s) ∧ ∀ s ∈ readTexts behind event, Valid s := by
  have hparts : Valid (serialized canonical event behind) ↔ Valid (readText event.hdr.comm.toList behind.comm) ∧
      (∀ s ∈ entityTexts canonical.subjectProcess, Valid s) ∧
      Valid (writeVariant canonical.subjectProcess event behind ++ str "\x7d\n") := by
    simp (disch := decide) only [serialized, writeEventBody, List.flatten_cons, List.flatten_nil,
      List.append_assoc, List.append_nil, valid_header, valid_processInfo, valid_key, valid_str, valid_dec,
      valid_object]
    exact ⟨fun h => h.2, fun h => ⟨h.1, h⟩⟩
  rw [hparts]
  refine and_congr_right fun _ => and_congr_right fun hentity => ?_
  rw [valid_variant behind _ _ hentity, and_iff_left (valid_ascii (by decide))]

/-- Inside the arrays. -/
theorem valid_serialized : Valid (serialized canonical event) ↔ ∀ s ∈ writtenTexts canonical event, Valid s := by
  have hcomm : readText event.hdr.comm.toList [] = event.hdr.comm.cstr := by
    rw [readText, List.append_nil]
    rfl
  have hvariant : readTexts {} event = variantTexts event := by
    cases event <;> simp [readTexts, variantTexts, readText, CharBuf.cstr]
  rw [valid_serialized_iff, hcomm, hvariant, writtenTexts, List.forall_mem_cons, List.forall_mem_append]

/-- A text that is UTF-8 whatever is behind its array ends inside it. -/
theorem terminated_of_valid {array : Bytes} (h : ∀ behind, Valid (readText array behind)) : 0 ∈ array := by
  by_contra hzero
  have hread : ∀ behind, 0 ∉ behind → readText array behind = array ++ behind := by
    intro behind hbehind
    have hall : ∀ b ∈ array ++ behind, (b != 0) = true := by
      intro b hb
      rw [bne_iff_ne]
      rintro rfl
      exact (List.mem_append.mp hb).elim hzero hbehind
    exact List.takeWhile_eq_self_iff.mpr hall
  have harray := h []
  have hbad := h [0xFF]
  rw [hread _ (by decide), Utf8.valid_iff] at harray hbad
  rw [List.append_nil] at harray
  rw [Utf8.run_append, harray] at hbad
  exact absurd ((Utf8.valid_iff [0xFF]).mpr hbad) (by decide)

/-- **A line is UTF-8**, whatever memory holds behind the record, exactly if every text of the record ends inside its
array and every text written into the line is UTF-8. -/
theorem utf8_iff : (∀ behind, Valid (serialized canonical event behind)) ↔
    Terminated event ∧ ∀ s ∈ writtenTexts canonical event, Valid s := by
  constructor
  · intro h
    refine ⟨?_, (valid_serialized canonical event).mp (h {})⟩
    have hparts := fun behind => (valid_serialized_iff canonical event behind).mp (h behind)
    have hcomm : 0 ∈ event.hdr.comm.toList := terminated_of_valid fun b => (hparts { comm := b }).1
    refine List.forall_mem_cons.mpr ⟨hcomm, ?_⟩
    cases event with
    | process ev => exact List.forall_mem_nil _
    | file ev =>
      have hA := terminated_of_valid fun b => (hparts { pathA := b }).2.2 _ List.mem_cons_self
      have hB := terminated_of_valid fun b =>
        (hparts { pathB := b }).2.2 _ (List.mem_cons_of_mem _ List.mem_cons_self)
      exact List.forall_mem_cons.mpr ⟨hA, List.forall_mem_singleton.mpr hB⟩
    | syscall ev => exact List.forall_mem_nil _
    | network ev =>
      have hlocal := terminated_of_valid fun b =>
        (hparts { localPath := b }).2.2 _ (List.mem_cons_of_mem _ List.mem_cons_self)
      have hremote := terminated_of_valid fun b =>
        (hparts { remotePath := b }).2.2 _ (List.mem_cons_of_mem _ (List.mem_cons_of_mem _ List.mem_cons_self))
      exact List.forall_mem_cons.mpr ⟨hlocal, List.forall_mem_singleton.mpr hremote⟩
  · rintro ⟨hterminated, htexts⟩ behind
    rw [serialized_behind canonical hterminated]
    exact (valid_serialized canonical event).mpr htexts

end

/-- A file event with a name that is not text. -/
def latinOpen : FileEvent :=
  { (default : FileEvent) with pathA := (Vector.replicate pathLen 0).setIfInBounds 0 0xFF }

/-- A file name need not be UTF-8, and the line shows it as it is. -/
theorem not_utf8 : ¬ ∀ (canonical : CanonicalEvent) (event : EventVariant) (behind : Behind),
    Valid (serialized canonical event behind) := by
  intro h
  have htexts := (valid_serialized _ _).mp (h { raw := some (.file latinOpen) } (.file latinOpen) {})
  have hpath := htexts latinOpen.pathA.cstr (by simp [writtenTexts, variantTexts])
  exact absurd hpath (by decide +kernel)

end ETraceGen.JsonSink
