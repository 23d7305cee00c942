import Mathlib.Algebra.Group.Nat.Defs
import ETraceGen.Sink.Format
import ETraceGen.Lib.Rollover

/-!
# The output file

`JsonSink` as it opens, writes, flushes and rolls over its file. The stream holds back what it has not handed
on yet; `content` is what the file says once it has. A run whose opens and writes succeed is the
`Rollover` of its lines (`Run.refines`).
-/

namespace ETraceGen

/-- The longest a file can be. -/
def maxOff : Nat := 2 ^ 63 - 1

/-- `std::ofstream`: what it holds back, and whether a write has failed since it was opened. -/
structure OFStream where
  isOpen : Bool := false
  bad : Bool := false
  buffer : Bytes := []

/-- What one call of the sink meets: the clock where it is read, whether the file system does what it is asked
to, and how much of its buffer the stream hands on by itself. -/
structure SinkEnv where
  nowRotate : UInt64
  nowFlush : UInt64
  removeOk : Bool
  truncOk : Bool
  appOk : Bool
  writeOk : Bool
  spill : Nat

/-- `file` is what stands at the path, if anything does. -/
structure JsonSink where
  file : Option Bytes
  fileOut : OFStream := {}
  maxFileSizeBytes : UInt64
  currentFileSizeBytes : UInt64 := 0
  pendingRecordsSinceFlush : UInt64 := 0
  lastFlushMonoNs : UInt64 := 0
  ready : Bool := false

namespace JsonSink

/-! ## The stream -/

/-- What the file says once the stream has handed on everything. -/
def content (s : JsonSink) : Bytes := s.file.getD [] ++ s.fileOut.buffer

/-- `open(std::ios::app)`; a file that is too long cannot be opened. -/
def openApp (ok : Bool) (s : JsonSink) : JsonSink :=
  if ok ∧ (s.file.getD []).length ≤ maxOff then
    { s with file := some (s.file.getD []), fileOut := { isOpen := true } }
  else { s with fileOut := {} }

/-- `open(std::ios::trunc)` -/
def openTrunc (ok : Bool) (s : JsonSink) : JsonSink :=
  if ok then { s with file := some [], fileOut := { isOpen := true } } else { s with fileOut := {} }

/-- The stream hands on everything. -/
def sync (s : JsonSink) : JsonSink :=
  { s with file := some s.content, fileOut := { s.fileOut with buffer := [] } }

/-- `file_out_.flush()`; a stream that failed does nothing more. -/
def flush (s : JsonSink) : JsonSink := if s.fileOut.bad then s else s.sync

/-- `file_out_.close()` -/
def close (s : JsonSink) : JsonSink := { s.sync with fileOut := {} }

/-- `file_out_ << line`. A write that fails, as one beyond the longest file does, only marks the stream here:
nothing is said of what it leaves behind. -/
def put (env : SinkEnv) (line : Bytes) (s : JsonSink) : JsonSink :=
  if s.fileOut.bad then s
  else if env.writeOk ∧ s.content.length + line.length ≤ maxOff then
    { s with
      file := some (s.file.getD [] ++ (s.fileOut.buffer ++ line).take env.spill)
      fileOut := { s.fileOut with buffer := (s.fileOut.buffer ++ line).drop env.spill } }
  else { s with fileOut := { s.fileOut with bad := true } }

/-! ## The sink -/

def openFileAppend (env : SinkEnv) (s : JsonSink) : Bool × JsonSink :=
  let s := { s with currentFileSizeBytes := 0 }
  let s :=
    match s.file with
    | some bytes => { s with currentFileSizeBytes := UInt64.ofNat bytes.length }
    | none => s
  let s := s.openApp env.appOk
  (s.fileOut.isOpen, s)

/-- The constructor, on the file that is there. -/
def create (env : SinkEnv) (file : Option Bytes) (maxFileSizeBytes : UInt64) : JsonSink :=
  let s : JsonSink := { file, maxFileSizeBytes, lastFlushMonoNs := env.nowFlush }
  let (ready, s) := s.openFileAppend env
  { s with ready }

def forceFlush (now : UInt64) (s : JsonSink) : JsonSink :=
  if !s.fileOut.isOpen then s
  else { s.flush with pendingRecordsSinceFlush := 0, lastFlushMonoNs := now }

/-- `std::filesystem::remove`, whose errors nobody looks at. -/
def remove (ok : Bool) (s : JsonSink) : JsonSink := if ok then { s with file := none } else s

def rotateIfNeeded (env : SinkEnv) (nextRecordBytes : UInt64) (s : JsonSink) : Bool × JsonSink :=
  if s.maxFileSizeBytes = 0 then (true, s)
  else if s.currentFileSizeBytes + nextRecordBytes ≤ s.maxFileSizeBytes then (true, s)
  else
    let s := (s.forceFlush env.nowRotate).close.remove env.removeOk
    let s := { s with currentFileSizeBytes := 0 }.openTrunc env.truncOk
    if !s.fileOut.isOpen then (false, s)
    else
      let s := s.close.openApp env.appOk
      (s.fileOut.isOpen, s)

def kFlushEveryRecords : UInt64 := 256
def kFlushIntervalNs : UInt64 := 250000000

def maybeFlush (now : UInt64) (s : JsonSink) : JsonSink :=
  if !s.fileOut.isOpen then s
  else if s.pendingRecordsSinceFlush < kFlushEveryRecords ∧ now - s.lastFlushMonoNs < kFlushIntervalNs then s
  else { s.flush with pendingRecordsSinceFlush := 0, lastFlushMonoNs := now }

def write (env : SinkEnv) (canonical : CanonicalEvent) (s : JsonSink) : JsonSink :=
  if !s.ready then s
  else
    match canonical.raw with
    | none => s
    | some event =>
      let line := serialized canonical event
      let (rotated, s) := s.rotateIfNeeded env (UInt64.ofNat line.length)
      if !rotated then { s with ready := false }
      else
        let s := s.put env line
        let s := { s with
          currentFileSizeBytes := s.currentFileSizeBytes + UInt64.ofNat line.length
          pendingRecordsSinceFlush := s.pendingRecordsSinceFlush + 1 }
        s.maybeFlush env.nowFlush

/-! ## What each operation does to the content -/

theorem content_sync (s : JsonSink) : s.sync.content = s.content := by
  simp [sync, content]

theorem content_flush (s : JsonSink) : s.flush.content = s.content := by
  unfold flush
  split_ifs
  · rfl
  · exact content_sync s

theorem content_maybeFlush (now : UInt64) (s : JsonSink) : (s.maybeFlush now).content = s.content := by
  unfold maybeFlush
  split_ifs
  · rfl
  · rfl
  · exact content_flush s

/-- Flushing changes neither the state of the stream nor what is counted. -/
theorem maybeFlush_same (now : UInt64) (s : JsonSink) :
    (s.maybeFlush now).fileOut.bad = s.fileOut.bad ∧ (s.maybeFlush now).fileOut.isOpen = s.fileOut.isOpen ∧
      (s.maybeFlush now).currentFileSizeBytes = s.currentFileSizeBytes ∧
      (s.maybeFlush now).maxFileSizeBytes = s.maxFileSizeBytes ∧ (s.maybeFlush now).ready = s.ready := by
  unfold maybeFlush flush
  split_ifs <;> exact ⟨rfl, rfl, rfl, rfl, rfl⟩

/-- A write that succeeds adds the line at the end. -/
theorem content_put {env : SinkEnv} {line : Bytes} {s : JsonSink} (h : (s.put env line).fileOut.bad = false) :
    (s.put env line).content = s.content ++ line ∧ s.content.length + line.length ≤ maxOff ∧
      (s.put env line).fileOut.isOpen = s.fileOut.isOpen := by
  unfold put at h ⊢
  split_ifs at h ⊢ with hbad hok
  · rw [hbad] at h
    cases h
  · refine ⟨?_, hok.2, rfl⟩
    simp [content]

theorem put_same (env : SinkEnv) (line : Bytes) (s : JsonSink) :
    (s.put env line).currentFileSizeBytes = s.currentFileSizeBytes ∧
      (s.put env line).maxFileSizeBytes = s.maxFileSizeBytes ∧ (s.put env line).ready = s.ready := by
  unfold put
  split_ifs <;> exact ⟨rfl, rfl, rfl⟩

/-! ## Runs -/

/-- Every open and every write has succeeded. -/
def Good (s : JsonSink) : Prop := s.ready = true ∧ s.fileOut.bad = false

instance (s : JsonSink) : Decidable s.Good := inferInstanceAs (Decidable (_ ∧ _))

/-- What `write` appends. -/
def lines (canonical : CanonicalEvent) : List Bytes :=
  match canonical.raw with
  | none => []
  | some event => [serialized canonical event]

/-- A sink on which every open and every write succeeds, and the lines written so far. -/
inductive Run (file : Option Bytes) (limit : UInt64) : List Bytes → JsonSink → Prop where
  | create {env : SinkEnv} (h : (create env file limit).Good) : Run file limit [] (create env file limit)
  | write {records : List Bytes} {s : JsonSink} (h : Run file limit records s) {env : SinkEnv}
    {canonical : CanonicalEvent} (hgood : (s.write env canonical).Good) :
    Run file limit (records ++ lines canonical) (s.write env canonical)

/-- The sink stands for a log: same content, and the counter is its length. -/
structure Refines (limit : UInt64) (s : JsonSink) (log : Rollover UInt8) : Prop where
  content : s.content = log.content
  fits : s.content.length ≤ maxOff
  size : s.currentFileSizeBytes = UInt64.ofNat s.content.length
  isOpen : s.fileOut.isOpen = true
  limit : s.maxFileSizeBytes = limit

theorem openApp_of_isOpen {ok : Bool} {s : JsonSink} (h : (s.openApp ok).fileOut.isOpen = true) :
    (s.file.getD []).length ≤ maxOff ∧
      s.openApp ok = { s with file := some (s.file.getD []), fileOut := { isOpen := true } } := by
  unfold openApp at h ⊢
  split_ifs at h ⊢ with hok
  exact ⟨hok.2, rfl⟩

theorem Refines.create {env : SinkEnv} {file : Option Bytes} {limit : UInt64}
    (h : (create env file limit).Good) :
    Refines limit (JsonSink.create env file limit) (Rollover.run limit.toNat (file.getD []) []) := by
  have hready := h.1
  unfold JsonSink.create openFileAppend at hready ⊢
  dsimp only at hready ⊢
  obtain ⟨hfits, hopened⟩ := openApp_of_isOpen hready
  cases file with
  | none =>
    dsimp only at hopened ⊢
    rw [hopened]
    exact ⟨rfl, Nat.zero_le _, rfl, rfl, rfl⟩
  | some bytes =>
    dsimp only at hopened hfits ⊢
    rw [hopened]
    exact ⟨by simp [JsonSink.content, Rollover.run, Rollover.content],
      by simpa [JsonSink.content] using hfits, by simp [JsonSink.content], rfl, rfl⟩

section Rotate
variable {s : JsonSink} {n : UInt64} (env : SinkEnv)

theorem rotate_keep (h : s.maxFileSizeBytes ≠ 0 → s.currentFileSizeBytes + n ≤ s.maxFileSizeBytes) :
    s.rotateIfNeeded env n = (true, s) := by
  by_cases hzero : s.maxFileSizeBytes = 0
  · rw [rotateIfNeeded, if_pos hzero]
  · rw [rotateIfNeeded, if_neg hzero, if_pos (h hzero)]

theorem maxFileSizeBytes_removed (now : UInt64) (ok : Bool) :
    ((s.forceFlush now).close.remove ok).maxFileSizeBytes = s.maxFileSizeBytes := by
  unfold remove forceFlush close flush
  split_ifs <;> rfl

/-- A rollover leaves an open stream on an empty file. -/
theorem rotate_new (hzero : s.maxFileSizeBytes ≠ 0)
    (hsize : ¬s.currentFileSizeBytes + n ≤ s.maxFileSizeBytes) (hok : (s.rotateIfNeeded env n).1 = true) :
    (s.rotateIfNeeded env n).2.maxFileSizeBytes = s.maxFileSizeBytes ∧
      (s.rotateIfNeeded env n).2.content = [] ∧ (s.rotateIfNeeded env n).2.currentFileSizeBytes = 0 ∧
      (s.rotateIfNeeded env n).2.fileOut.isOpen = true := by
  have hmax := maxFileSizeBytes_removed (s := s) env.nowRotate env.removeOk
  unfold rotateIfNeeded openTrunc at hok ⊢
  rw [if_neg hzero, if_neg hsize] at hok ⊢
  cases htrunc : env.truncOk with
  | false =>
    rw [htrunc] at hok
    cases hok
  | true =>
    simp only [htrunc, ↓reduceIte, Bool.not_true, Bool.false_eq_true] at hok ⊢
    rw [(openApp_of_isOpen hok).2]
    exact ⟨hmax, rfl, rfl, rfl⟩

end Rotate

section Write
variable {limit : UInt64} {s : JsonSink} {log : Rollover UInt8}

/-- The counter decides as the length does. -/
theorem Refines.exceeds_iff (h : Refines limit s log) {line : Bytes} (hline : line.length ≤ maxOff) :
    Rollover.Exceeds limit.toNat log line ↔
      s.maxFileSizeBytes ≠ 0 ∧
        ¬s.currentFileSizeBytes + UInt64.ofNat line.length ≤ s.maxFileSizeBytes := by
  have hfits := h.fits
  have hsum : (s.currentFileSizeBytes + UInt64.ofNat line.length).toNat =
      log.content.length + line.length := by
    rw [h.size, ← UInt64.ofNat_add, UInt64.toNat_ofNat', h.content]
    rw [h.content] at hfits
    unfold maxOff at hfits hline
    exact Nat.mod_eq_of_lt (by omega)
  have hzero : limit.toNat ≠ 0 ↔ limit ≠ 0 := by
    rw [ne_eq, ne_eq, ← UInt64.toNat_inj]
    rfl
  rw [Rollover.Exceeds, h.limit, UInt64.le_iff_toNat_le, hsum, hzero, Nat.not_le]

/-- A rotation that succeeds leaves the same file, or an empty one if the line does not fit. -/
theorem Refines.rotate (h : Refines limit s log) (env : SinkEnv) {line : Bytes} (hline : line.length ≤ maxOff)
    (hok : (s.rotateIfNeeded env (UInt64.ofNat line.length)).1 = true) :
    Refines limit (s.rotateIfNeeded env (UInt64.ofNat line.length)).2
      (if Rollover.Exceeds limit.toNat log line then ⟨none, []⟩ else log) := by
  by_cases hexc : Rollover.Exceeds limit.toNat log line
  · obtain ⟨hzero, hsize⟩ := (h.exceeds_iff hline).mp hexc
    obtain ⟨hmax, hcontent, hcount, hopen⟩ := rotate_new env hzero hsize hok
    rw [if_pos hexc]
    refine ⟨hcontent, ?_, ?_, hopen, hmax.trans h.limit⟩
    · rw [hcontent]
      exact Nat.zero_le _
    · rw [hcontent]
      exact hcount
  · rw [if_neg hexc, rotate_keep env fun hzero => not_not.mp fun hsize =>
      hexc ((h.exceeds_iff hline).mpr ⟨hzero, hsize⟩)]
    exact h

/-- A line behind what a rotation has left. -/
theorem Refines.counted (h : Refines limit s log) {env : SinkEnv} {line : Bytes}
    (hgood : (s.put env line).fileOut.bad = false) :
    Refines limit
      (({ s.put env line with
        currentFileSizeBytes := (s.put env line).currentFileSizeBytes + UInt64.ofNat line.length
        pendingRecordsSinceFlush := (s.put env line).pendingRecordsSinceFlush + 1 } : JsonSink).maybeFlush
          env.nowFlush)
      ⟨log.base, log.kept ++ [line]⟩ := by
  obtain ⟨hcontent, hfits, hopen⟩ := content_put hgood
  obtain ⟨hcount, hmax, -⟩ := put_same env line s
  generalize hcounted : ({ s.put env line with
    currentFileSizeBytes := (s.put env line).currentFileSizeBytes + UInt64.ofNat line.length
    pendingRecordsSinceFlush := (s.put env line).pendingRecordsSinceFlush + 1 } : JsonSink) = counted
  have hflushed := maybeFlush_same env.nowFlush counted
  have hsame : counted.content = s.content ++ line := by rw [← hcounted, ← hcontent]; rfl
  refine ⟨?_, ?_, ?_, ?_, ?_⟩
  · rw [content_maybeFlush, hsame, h.content]
    simp [Rollover.content]
  · rw [content_maybeFlush, hsame, List.length_append]
    exact hfits
  · rw [hflushed.2.2.1, content_maybeFlush, hsame, List.length_append, UInt64.ofNat_add, ← h.size, ← hcount,
      ← hcounted]
  · rw [hflushed.2.1, ← hcounted]
    exact hopen.trans h.isOpen
  · rw [hflushed.2.2.2.1, ← hcounted]
    exact hmax.trans h.limit

/-- **One write** of a sink on which all succeeds is an append to its log. -/
theorem Refines.write (h : Refines limit s log) {env : SinkEnv} {canonical : CanonicalEvent}
    (hgood : (s.write env canonical).Good) :
    Refines limit (s.write env canonical)
      ((lines canonical).foldl (Rollover.append limit.toNat) log) := by
  unfold JsonSink.write at hgood ⊢
  split_ifs at hgood ⊢ with hready
  · rw [Bool.not_eq_true', ← Bool.not_eq_true] at hready
    exact absurd hgood.1 hready
  · unfold lines
    cases hraw : canonical.raw with
    | none => exact h
    | some event =>
      rw [hraw] at hgood
      dsimp only at hgood ⊢
      rw [List.foldl_cons, List.foldl_nil]
      generalize serialized canonical event = line at hgood ⊢
      cases hok : (s.rotateIfNeeded env (UInt64.ofNat line.length)).1 with
      | false =>
        rw [hok] at hgood
        cases hgood.1
      | true =>
        rw [hok] at hgood
        rw [Bool.not_true, if_neg Bool.false_ne_true] at hgood ⊢
        have hput := (maybeFlush_same env.nowFlush _).1.symm.trans hgood.2
        have hfits := (content_put hput).2.1
        have hrotated := h.rotate env (by omega) hok
        have hwritten := hrotated.counted hput
        rw [Rollover.append]
        split_ifs with hexc
        · rw [if_pos hexc] at hwritten
          exact hwritten
        · rw [if_neg hexc] at hwritten
          exact hwritten

end Write

theorem Run.refines {file : Option Bytes} {limit : UInt64} {records : List Bytes} {s : JsonSink}
    (h : Run file limit records s) :
    Refines limit s (Rollover.run limit.toNat (file.getD []) records) := by
  induction h with
  | create hgood => exact .create hgood
  | write _ hgood ih =>
    rw [Rollover.run, List.foldl_append]
    exact ih.write hgood

/-- **What the file says.** After any writes that succeed it is what was there and all lines, or the last lines
without a gap; the counter is its length; without a limit it is everything; with one it is longer only as a
single line; and a write discards something only if the line did not fit. -/
theorem run_content {file : Option Bytes} {limit : UInt64} {records : List Bytes} {s : JsonSink}
    (h : Run file limit records s) :
    (s.content = file.getD [] ++ records.flatten ∨
      ∃ kept, kept ≠ [] ∧ kept <:+ records ∧ s.content = kept.flatten) ∧
    s.currentFileSizeBytes.toNat = s.content.length ∧
    (limit = 0 → s.content = file.getD [] ++ records.flatten) ∧
    (limit ≠ 0 → records ≠ [] → s.content.length ≤ limit.toNat ∨
      ∃ record, records.getLast? = some record ∧ s.content = record) ∧
    ∀ (env : SinkEnv) (canonical : CanonicalEvent), (s.write env canonical).Good →
      (s.write env canonical).content = s.content ++ (lines canonical).flatten ∨
        limit ≠ 0 ∧ limit.toNat < s.content.length + (lines canonical).flatten.length := by
  have hrefines := h.refines
  refine ⟨?_, ?_, ?_, ?_, ?_⟩
  · rw [hrefines.content, Rollover.content]
    rcases Rollover.run_cases limit.toNat (file.getD []) records with
      ⟨hbase, hkept⟩ | ⟨hbase, hne, hsuffix⟩
    · exact Or.inl (by rw [hbase, hkept]; rfl)
    · exact Or.inr ⟨_, hne, hsuffix, by rw [hbase]; rfl⟩
  · have hfits := hrefines.fits
    rw [hrefines.size, UInt64.toNat_ofNat']
    unfold maxOff at hfits
    exact Nat.mod_eq_of_lt (by omega)
  · rintro rfl
    rw [hrefines.content]
    exact Rollover.run_unlimited rfl
  · intro hlimit hne
    rw [hrefines.content]
    exact Rollover.run_bounded (fun hzero => hlimit (UInt64.toNat_inj.mp hzero)) hne
  · intro env canonical hgood
    rw [(hrefines.write hgood).content, hrefines.content]
    unfold lines
    cases canonical.raw with
    | none => exact Or.inl (List.append_nil _).symm
    | some event =>
      simp only [List.foldl_cons, List.foldl_nil, List.flatten_cons, List.flatten_nil, List.append_nil,
        Rollover.content_append]
      split_ifs with hexc
      · exact Or.inr ⟨fun hzero => hexc.1 (by rw [hzero]; rfl), hexc.2⟩
      · exact Or.inl rfl

def calmEnv : SinkEnv where
  nowRotate := 0
  nowFlush := 0
  removeOk := true
  truncOk := true
  appOk := true
  writeOk := true
  spill := 0

/-- A sink on a file of one byte, after the line of a system call that is longer than the limit. -/
def rolledOver : JsonSink :=
  (create calmEnv (some [0x0A]) 4).write calmEnv { raw := some (.syscall default) }

/-- The file is the one line. -/
theorem run_content_rolledOver :
    (rolledOver.content = [0x0A] ++ (lines { raw := some (.syscall default) }).flatten ∨
      ∃ kept, kept ≠ [] ∧ kept <:+ lines { raw := some (.syscall default) } ∧
        rolledOver.content = kept.flatten) ∧
    rolledOver.currentFileSizeBytes.toNat = rolledOver.content.length := by
  have hrun : Run (some [0x0A]) 4 ([] ++ lines { raw := some (.syscall default) }) rolledOver :=
    .write (.create (by decide)) (by decide +kernel)
  have hcontent := run_content hrun
  exact ⟨hcontent.1, hcontent.2.1⟩

end JsonSink

end ETraceGen
