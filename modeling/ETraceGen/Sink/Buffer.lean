import ETraceGen.Sink.File

/-!
# What the stream holds back

The stream may keep lines to itself until the sink flushes it. A flush is due with the 256th line, and at the first
write that comes 250 ms or more after the last one. Nothing else flushes, so a sink that is not written to keeps what
it has.

* `onDisk` : what stands in the file;
* `Held` : the lines that may not stand there yet;
* `held_writes` : after any writes that succeed.
-/

namespace ETraceGen.JsonSink

/-- What the stream has handed on. -/
def onDisk (s : JsonSink) : Bytes := s.file.getD []

/-- The lines of a write, with the time that its flush goes by. -/
def written (env : SinkEnv) (canonical : CanonicalEvent) : List (UInt64 × Bytes) :=
  (lines canonical).map fun line => (env.nowFlush, line)

/-- The last lines of the log, of which the stream may hold something back: those since the last flush, at most 255,
all of them written within the interval behind it. -/
structure Held (all : List (UInt64 × Bytes)) (log : Rollover UInt8) (s : JsonSink) : Prop where
  few : s.pendingRecordsSinceFlush < kFlushEveryRecords
  split : ∃ (done : List Bytes) (held : List (UInt64 × Bytes)),
    log.kept = done ++ held.map Prod.snd ∧ held <:+ all ∧ held.length = s.pendingRecordsSinceFlush.toNat ∧
      s.fileOut.buffer <:+ (held.map Prod.snd).flatten ∧ ∀ w ∈ held, w.1 - s.lastFlushMonoNs < kFlushIntervalNs

section
variable {all : List (UInt64 × Bytes)} {log : Rollover UInt8} {limit : UInt64} {s : JsonSink} {env : SinkEnv}

/-- Nothing is held back. -/
theorem held_of_flushed (all : List (UInt64 × Bytes)) (log : Rollover UInt8)
    (hpending : s.pendingRecordsSinceFlush = 0) (hbuffer : s.fileOut.buffer = []) : Held all log s := by
  refine ⟨by rw [hpending]; decide, log.kept, [], ?_, List.nil_suffix, ?_, ?_, nofun⟩
  · rw [List.map_nil, List.append_nil]
  · rw [hpending]
    rfl
  · rw [hbuffer]
    exact List.nil_suffix

theorem held_create (file : Option Bytes) : Held [] log (create env file limit) := by
  apply held_of_flushed
  · unfold create openFileAppend openApp
    dsimp only
    cases file <;> dsimp only <;> split_ifs <;> rfl
  · unfold create openFileAppend openApp
    dsimp only
    cases file <;> dsimp only <;> split_ifs <;> rfl

/-- One line more, and a flush if one is due. -/
theorem Held.put (h : Held all log s) (hopen : s.fileOut.isOpen = true) {line : Bytes}
    (hgood : (s.put env line).fileOut.bad = false) :
    Held (all ++ [(env.nowFlush, line)]) ⟨log.base, log.kept ++ [line]⟩
      (({ s.put env line with
        currentFileSizeBytes := (s.put env line).currentFileSizeBytes + UInt64.ofNat line.length
        pendingRecordsSinceFlush := (s.put env line).pendingRecordsSinceFlush + 1 } : JsonSink).maybeFlush
          env.nowFlush) := by
  have hput : ∃ file, s.put env line =
      { s with file := some file, fileOut := { s.fileOut with buffer := (s.fileOut.buffer ++ line).drop env.spill } } ∧
      s.fileOut.bad = false := by
    unfold JsonSink.put at hgood ⊢
    split_ifs at hgood ⊢ with hbad hok
    · rw [hbad] at hgood
      cases hgood
    · exact ⟨_, rfl, Bool.not_eq_true _ ▸ hbad⟩
  obtain ⟨file, hput, hbad⟩ := hput
  have hcount : (s.pendingRecordsSinceFlush + 1).toNat = s.pendingRecordsSinceFlush.toNat + 1 := by
    have hfew := UInt64.lt_iff_toNat_lt.mp h.few
    have hlimit : kFlushEveryRecords.toNat = 256 := rfl
    rw [UInt64.toNat_add, UInt64.toNat_one]
    omega
  rw [hput]
  unfold maybeFlush flush
  dsimp only
  rw [hopen, hbad, Bool.not_true, if_neg Bool.false_ne_true, if_neg Bool.false_ne_true]
  split_ifs with hwait
  · obtain ⟨done, held, hkept, hlast, hlength, hbuffer, htimes⟩ := h.split
    refine ⟨hwait.1, done, held ++ [(env.nowFlush, line)], ?_, ?_, ?_, ?_, ?_⟩
    · show log.kept ++ [line] = _
      rw [hkept, List.map_append, List.append_assoc]
      rfl
    · obtain ⟨front, rfl⟩ := hlast
      exact ⟨front, by rw [List.append_assoc]⟩
    · rw [List.length_append, List.length_singleton, hlength, hcount]
    · refine (List.drop_suffix _ _).trans ?_
      obtain ⟨front, hfront⟩ := hbuffer
      refine ⟨front, ?_⟩
      rw [List.map_append, List.flatten_append, ← hfront, List.append_assoc]
      simp
    · intro w hw
      rcases List.mem_append.mp hw with hw | hw
      · exact htimes w hw
      · rw [List.mem_singleton.mp hw]
        exact hwait.2
  · exact held_of_flushed _ _ rfl rfl

/-- A rollover flushes the file that it gives up. -/
theorem Held.rotate (h : Held all log s) (hrefines : Refines limit s log) {line : Bytes}
    (hline : line.length ≤ maxOff) (hok : (s.rotateIfNeeded env (UInt64.ofNat line.length)).1 = true) :
    Held all (if Rollover.Exceeds limit.toNat log line then ⟨none, []⟩ else log)
      (s.rotateIfNeeded env (UInt64.ofNat line.length)).2 := by
  by_cases hexc : Rollover.Exceeds limit.toNat log line
  · obtain ⟨hzero, hsize⟩ := (hrefines.exceeds_iff hline).mp hexc
    rw [if_pos hexc]
    unfold rotateIfNeeded openTrunc at hok ⊢
    rw [if_neg hzero, if_neg hsize] at hok ⊢
    cases htrunc : env.truncOk with
    | false =>
      rw [htrunc] at hok
      cases hok
    | true =>
      simp only [htrunc, ↓reduceIte, Bool.not_true, Bool.false_eq_true] at hok ⊢
      rw [(openApp_of_isOpen hok).2]
      refine held_of_flushed _ _ ?_ rfl
      unfold remove forceFlush close flush
      rw [hrefines.isOpen]
      split_ifs <;> first | rfl | contradiction
  · rw [if_neg hexc, rotate_keep env fun hzero => not_not.mp fun hsize =>
      hexc ((hrefines.exceeds_iff hline).mpr ⟨hzero, hsize⟩)]
    exact h

/-- **One write.** -/
theorem Held.write (h : Held all log s) (hrefines : Refines limit s log) {canonical : CanonicalEvent}
    (hgood : (s.write env canonical).Good) :
    Held (all ++ written env canonical) ((lines canonical).foldl (Rollover.append limit.toNat) log)
      (s.write env canonical) := by
  unfold JsonSink.write at hgood ⊢
  split_ifs at hgood ⊢ with hready
  · rw [Bool.not_eq_true', ← Bool.not_eq_true] at hready
    exact absurd hgood.1 hready
  · unfold written lines
    cases hraw : canonical.raw with
    | none =>
      rw [List.map_nil, List.append_nil]
      exact h
    | some event =>
      rw [hraw] at hgood
      dsimp only at hgood ⊢
      rw [List.map_singleton, List.foldl_cons, List.foldl_nil]
      generalize serialized canonical event = line at hgood ⊢
      cases hok : (s.rotateIfNeeded env (UInt64.ofNat line.length)).1 with
      | false =>
        rw [hok] at hgood
        cases hgood.1
      | true =>
        rw [hok] at hgood
        rw [Bool.not_true, if_neg Bool.false_ne_true] at hgood ⊢
        have hput := (maybeFlush_same env.nowFlush _).1.symm.trans hgood.2
        have hfits := (content_put hput).2.1
        have hline : line.length ≤ maxOff := by omega
        have hheld := (h.rotate hrefines hline hok).put (hrefines.rotate env hline hok).isOpen hput
        rw [Rollover.append]
        split_ifs with hexc
        · rw [if_pos hexc] at hheld
          exact hheld
        · rw [if_neg hexc] at hheld
          exact hheld

end

/-- **What may not stand in the file yet**, after any writes that succeed. -/
theorem held_writes {env : SinkEnv} {file : Option Bytes} {limit : UInt64} {writes : List (SinkEnv × CanonicalEvent)}
    (hworks : ∀ before, before <+: writes →
      (before.foldl (fun s w => s.write w.1 w.2) (create env file limit)).Good) :
    Held (writes.flatMap fun w => written w.1 w.2)
        (Rollover.run limit.toNat (file.getD []) (writes.flatMap fun w => lines w.2))
        (writes.foldl (fun s w => s.write w.1 w.2) (create env file limit)) ∧
      Refines limit (writes.foldl (fun s w => s.write w.1 w.2) (create env file limit))
        (Rollover.run limit.toNat (file.getD []) (writes.flatMap fun w => lines w.2)) := by
  induction writes using List.reverseRecOn with
  | nil => exact ⟨held_create file, .create (hworks [] (List.prefix_refl _))⟩
  | append_singleton writes w ih =>
    obtain ⟨hheld, hrefines⟩ := ih fun before hinit => hworks before (hinit.trans (List.prefix_append _ _))
    have hgood := hworks _ (List.prefix_refl _)
    rw [List.foldl_concat] at hgood ⊢
    rw [List.flatMap_append, List.flatMap_append, List.flatMap_singleton, List.flatMap_singleton, Rollover.run,
      List.foldl_append, ← Rollover.run]
    exact ⟨hheld.write hrefines hgood, hrefines.write hgood⟩

end ETraceGen.JsonSink
