import ETraceGen.Sink.Buffer
import ETraceGen.System.Output

/-!
# When the daemon is killed

What the stream holds back is lost with the daemon. The file then ends somewhere in a line, and a reader that goes
line by line gets everything but the last lines, and after it at most one that was cut.

* `crash_reads` : the file at any moment of any interleaving.
-/

namespace ETraceGen

open Bpf Normalizer EntityRegistry

namespace JsonSink

/-- Whole lines end with a newline. -/
theorem lines_end {base : Bytes} (hbase : base = [] ∨ base.getLast? = some 0x0A)
    (es : List (CanonicalEvent × EventVariant)) :
    base ++ (es.map fun e => object e.1 e.2 ++ [0x0A]).flatten = [] ∨
      List.getLast? (base ++ (es.map fun e => object e.1 e.2 ++ [0x0A]).flatten) = some 0x0A := by
  rcases List.eq_nil_or_concat' es with rfl | ⟨es, e, rfl⟩
  · rw [List.map_nil, List.flatten_nil, List.append_nil]
    exact hbase
  · right
    rw [List.map_append, List.flatten_append, List.map_singleton, List.flatten_singleton, ← List.append_assoc,
      ← List.append_assoc, List.getLast?_concat]

/-- Lines that are cut off somewhere are some of them, and what is left of the next. -/
theorem exists_take_of_cut {es : List (CanonicalEvent × EventVariant)} {written : Bytes}
    (h : written <+: (es.map fun e => object e.1 e.2 ++ [0x0A]).flatten) :
    ∃ n part, n ≤ es.length ∧
      written = ((es.take n).map fun e => object e.1 e.2 ++ [0x0A]).flatten ++ part ∧ 0x0A ∉ part := by
  have hmap : (es.map fun e => object e.1 e.2 ++ [0x0A]) = (es.map fun e => object e.1 e.2).map (· ++ [0x0A]) := by
    rw [List.map_map]
    rfl
  have hlines : ∀ piece ∈ es.map fun e => object e.1 e.2, 0x0A ∉ piece := by
    intro piece hmem
    obtain ⟨e, -, rfl⟩ := List.mem_map.mp hmem
    exact newline_not_mem_object e.1 e.2
  rw [hmap] at h
  obtain ⟨n, part, hn, hwritten, hpart⟩ := Sections.exists_take_of_prefix h hlines
  rw [List.length_map] at hn
  refine ⟨n, part, hn, ?_, hpart⟩
  rw [hwritten, ← List.map_take, List.map_map]
  rfl

/-- What is read of whole lines and a cut one. -/
theorem readLines_cut {base : Bytes} (hbase : base = [] ∨ base.getLast? = some 0x0A)
    (es : List (CanonicalEvent × EventVariant)) {part : Bytes} (hpart : 0x0A ∉ part) :
    ∃ tail, tail.length ≤ 1 ∧
      readLines (base ++ ((es.map fun e => object e.1 e.2 ++ [0x0A]).flatten ++ part)) =
        readLines base ++ (es.map fun e => some (eventJson e.1 e.2)) ++ tail := by
  refine ⟨(Sections.pieces 0x0A part).map Json.parse, ?_, ?_⟩
  · rw [List.length_map]
    exact Sections.length_pieces_le hpart
  · rw [← List.append_assoc base, readLines, Sections.pieces_append (lines_end hbase _), List.map_append, ← readLines,
      System.readLines_written hbase]

end JsonSink

namespace System

section
variable {maps : ProbeMaps} {selfTgid : UInt32} {senv : SinkEnv} {file : Option Bytes} {limit : UInt64}

/-- The writes that the daemon makes along the moves. -/
def writes (maps : ProbeMaps) (selfTgid : UInt32) (sink : JsonSink) (moves : List Move) :
    List (SinkEnv × CanonicalEvent) :=
  Daemon.writes {} (Daemon.foreign selfTgid (samples maps selfTgid sink moves))

theorem length_writes (sink : JsonSink) (moves : List Move) :
    (writes maps selfTgid sink moves).length = (events maps selfTgid sink moves).length := by
  have hevents := congrArg List.length (Daemon.events_records {} (Daemon.foreign selfTgid
    (samples maps selfTgid sink moves)))
  rw [List.length_map, List.length_map] at hevents
  exact (Daemon.length_writes _ _).trans hevents.symm

/-- A move writes once or not at all. -/
theorem writes_snoc (sink : JsonSink) (moves : List Move) (move : Move) :
    ∃ more, writes maps selfTgid sink (moves ++ [move]) = writes maps selfTgid sink moves ++ more ∧
      more.length ≤ 1 := by
  have happend := Daemon.writes_append {} (Daemon.foreign selfTgid (samples maps selfTgid sink moves))
    (Daemon.foreign selfTgid ((Feed.answer records (run maps selfTgid sink moves) move).toList.map sampleOf))
  rw [← Daemon.foreign_append, ← samples_snoc] at happend
  refine ⟨_, happend, ?_⟩
  rw [Daemon.length_writes]
  refine (List.length_filter_le _ _).trans ?_
  rw [List.length_map]
  cases Feed.answer records (run maps selfTgid sink moves) move with
  | none => exact Nat.zero_le _
  | some _ => exact Nat.le_refl _

/-- Each of the writes succeeds, and so did those before it. -/
theorem writes_good {sink : JsonSink} {moves : List Move} (hworks : SinkWorks maps selfTgid sink moves) :
    ∀ before, before <+: writes maps selfTgid sink moves → (Daemon.writeAll sink before).Good := by
  induction moves using List.reverseRecOn with
  | nil =>
    intro before hinit
    obtain rfl := List.prefix_nil.mp hinit
    exact hworks [] (List.prefix_refl _)
  | append_singleton moves move ih =>
    intro before hinit
    have hearlier := ih fun early hearly => hworks early (hearly.trans (List.prefix_append _ _))
    have hlast := hworks _ (List.prefix_refl _)
    rw [run_sink, ← writes] at hlast
    obtain ⟨more, hmore, hfew⟩ := @writes_snoc maps selfTgid sink moves move
    rw [hmore] at hinit hlast
    cases more with
    | nil =>
      rw [List.append_nil] at hinit
      exact hearlier before hinit
    | cons w rest =>
      obtain rfl : rest = [] := List.length_eq_zero_iff.mp (by rw [List.length_cons] at hfew; omega)
      rcases List.prefix_concat_iff.mp hinit with rfl | hinit
      · exact hlast
      · exact hearlier before hinit

/-- Every write is of one line. -/
theorem written_writes {registry : EntityRegistry} {taken : List Daemon.Sample} {w : SinkEnv × CanonicalEvent}
    (h : w ∈ Daemon.writes registry taken) : ∃ line, JsonSink.written w.1 w.2 = [(w.1.nowFlush, line)] := by
  induction taken generalizing registry with
  | nil => cases h
  | cons sample rest ih =>
    rcases List.mem_cons.mp h with hw | h
    · subst hw
      refine ⟨JsonSink.serialized (ingest sample.call.env sample.call.ev registry).2 sample.2.event, ?_⟩
      dsimp only
      rw [JsonSink.written, JsonSink.lines, Daemon.ingest_normalize_raw]
      rfl
    · exact ih h

/-- The last writes are among the lines that are held back. -/
theorem held_of_mem_drop {ws : List (SinkEnv × CanonicalEvent)}
    (hone : ∀ w ∈ ws, ∃ line, JsonSink.written w.1 w.2 = [(w.1.nowFlush, line)]) {held : List (UInt64 × Bytes)}
    (hlast : held <:+ ws.flatMap fun w => JsonSink.written w.1 w.2) {lost : Nat} (hlost : lost ≤ held.length)
    {w : SinkEnv × CanonicalEvent} (hw : w ∈ ws.drop (ws.length - lost)) : ∃ line, (w.1.nowFlush, line) ∈ held := by
  have hlength : ∀ l : List (SinkEnv × CanonicalEvent),
      (∀ w ∈ l, ∃ line, JsonSink.written w.1 w.2 = [(w.1.nowFlush, line)]) →
        (l.flatMap fun w => JsonSink.written w.1 w.2).length = l.length := by
    intro l hl
    induction l with
    | nil => rfl
    | cons w l ih =>
      obtain ⟨hw, hrest⟩ := List.forall_mem_cons.mp hl
      obtain ⟨line, hline⟩ := hw
      rw [List.flatMap_cons, hline, List.length_append, ih hrest, List.length_singleton, List.length_cons, Nat.add_comm]
  have hback : ((ws.drop (ws.length - lost)).flatMap fun w => JsonSink.written w.1 w.2) <:+
      ws.flatMap fun w => JsonSink.written w.1 w.2 := by
    refine ⟨(ws.take (ws.length - lost)).flatMap fun w => JsonSink.written w.1 w.2, ?_⟩
    rw [← List.flatMap_append, List.take_append_drop]
  have hshort : ((ws.drop (ws.length - lost)).flatMap fun w => JsonSink.written w.1 w.2).length ≤ held.length := by
    rw [hlength _ fun w hw => hone w (List.mem_of_mem_drop hw), List.length_drop]
    omega
  obtain ⟨line, hline⟩ := hone w (List.mem_of_mem_drop hw)
  refine ⟨line, (List.suffix_of_suffix_length_le hback hlast hshort).subset (List.mem_flatMap.mpr ⟨w, hw, ?_⟩)⟩
  rw [hline]
  exact List.mem_singleton_self _

/-- What stands in the file, of lines that the log keeps. -/
theorem onDisk_held {sink : JsonSink} {all : List (UInt64 × Bytes)} {log : Rollover UInt8}
    (hheld : JsonSink.Held all log sink) (hcontent : sink.content = log.content)
    {es : List (CanonicalEvent × EventVariant)} (hkept : log.kept = es.map fun e => JsonSink.object e.1 e.2 ++ [0x0A]) :
    ∃ (lost : Nat) (part : Bytes) (held : List (UInt64 × Bytes)), held <:+ all ∧ lost ≤ held.length ∧ lost < 256 ∧
      (∀ w ∈ held, w.1 - sink.lastFlushMonoNs < JsonSink.kFlushIntervalNs) ∧ 0x0A ∉ part ∧
      sink.onDisk = log.base.getD [] ++
        (((es.take (es.length - lost)).map fun e => JsonSink.object e.1 e.2 ++ [0x0A]).flatten ++ part) := by
  obtain ⟨done, held, hsplit, hlast, hlength, hbuffer, htimes⟩ := hheld.split
  have hfew := UInt64.lt_iff_toNat_lt.mp hheld.few
  have hlimit : JsonSink.kFlushEveryRecords.toNat = 256 := rfl
  rw [hkept] at hsplit
  obtain ⟨esDone, esHeld, rfl, rfl, hheldLines⟩ := List.map_eq_append_iff.mp hsplit
  have hcount : esHeld.length = held.length := by
    have := congrArg List.length hheldLines
    rwa [List.length_map, List.length_map] at this
  obtain ⟨written, hwritten⟩ := hbuffer
  have hdisk : sink.onDisk = log.base.getD [] ++
      ((esDone.map fun e => JsonSink.object e.1 e.2 ++ [0x0A]).flatten ++ written) := by
    have hall : sink.onDisk ++ sink.fileOut.buffer = (log.base.getD [] ++
        ((esDone.map fun e => JsonSink.object e.1 e.2 ++ [0x0A]).flatten ++ written)) ++ sink.fileOut.buffer := by
      refine hcontent.trans ?_
      rw [Rollover.content, hkept, List.map_append, List.flatten_append, hheldLines, ← hwritten]
      simp only [List.append_assoc]
    exact List.append_cancel_right hall
  have hcut : written <+: (esHeld.map fun e => JsonSink.object e.1 e.2 ++ [0x0A]).flatten := by
    rw [hheldLines, ← hwritten]
    exact List.prefix_append _ _
  obtain ⟨n, part, hn, rfl, hpart⟩ := JsonSink.exists_take_of_cut hcut
  refine ⟨esHeld.length - n, part, held, hlast, by omega, by omega, htimes, hpart, ?_⟩
  have htake : (esDone ++ esHeld).length - (esHeld.length - n) = esDone.length + n := by
    rw [List.length_append]
    omega
  rw [hdisk, htake, List.take_append, List.take_of_length_le (Nat.le_add_right _ _), Nat.add_sub_cancel_left,
    List.map_append, List.flatten_append, List.append_assoc]

/-- What is read of it. -/
theorem readLines_held {sink : JsonSink} {all : List (UInt64 × Bytes)} {log : Rollover UInt8}
    (hheld : JsonSink.Held all log sink) (hcontent : sink.content = log.content)
    (hbase : log.base.getD [] = [] ∨ (log.base.getD []).getLast? = some 0x0A)
    {es : List (CanonicalEvent × EventVariant)} (hkept : log.kept = es.map fun e => JsonSink.object e.1 e.2 ++ [0x0A]) :
    ∃ (lost : Nat) (tail : List (Option Json)) (held : List (UInt64 × Bytes)), held <:+ all ∧ lost ≤ held.length ∧
      lost < 256 ∧ tail.length ≤ 1 ∧ (∀ w ∈ held, w.1 - sink.lastFlushMonoNs < JsonSink.kFlushIntervalNs) ∧
      JsonSink.readLines sink.onDisk = JsonSink.readLines (log.base.getD []) ++
        (es.take (es.length - lost)).map (fun e => some (JsonSink.eventJson e.1 e.2)) ++ tail := by
  obtain ⟨lost, part, held, hlast, hlost, hfew, htimes, hpart, hdisk⟩ := onDisk_held hheld hcontent hkept
  obtain ⟨tail, htail, hread⟩ := JsonSink.readLines_cut hbase (es.take (es.length - lost)) hpart
  exact ⟨lost, tail, held, hlast, hlost, hfew, htail, htimes, by rw [hdisk, hread]⟩

/-- The sink behind a run keeps a log of the lines of its events. -/
theorem held_events {moves : List Move} (hworks : SinkWorks maps selfTgid (JsonSink.create senv file limit) moves) :
    JsonSink.Held
        ((writes maps selfTgid (JsonSink.create senv file limit) moves).flatMap fun w => JsonSink.written w.1 w.2)
        (Rollover.run limit.toNat (file.getD [])
          ((events maps selfTgid (JsonSink.create senv file limit) moves).map fun e =>
            JsonSink.object e.1 e.2 ++ [0x0A]))
        (run maps selfTgid (JsonSink.create senv file limit) moves).consumer.sink ∧
      (run maps selfTgid (JsonSink.create senv file limit) moves).consumer.sink.content =
        (Rollover.run limit.toNat (file.getD [])
          ((events maps selfTgid (JsonSink.create senv file limit) moves).map fun e =>
            JsonSink.object e.1 e.2 ++ [0x0A])).content := by
  obtain ⟨hheld, hrefines⟩ := JsonSink.held_writes (writes_good hworks)
  have hrun : (writes maps selfTgid (JsonSink.create senv file limit) moves).foldl (fun s w => s.write w.1 w.2)
      (JsonSink.create senv file limit) =
        (run maps selfTgid (JsonSink.create senv file limit) moves).consumer.sink := (run_sink _ moves).symm
  have hlines : (writes maps selfTgid (JsonSink.create senv file limit) moves).flatMap (fun w => JsonSink.lines w.2) =
      (events maps selfTgid (JsonSink.create senv file limit) moves).map fun e =>
        JsonSink.object e.1 e.2 ++ [0x0A] := Daemon.lines_writes _ _
  rw [hrun, hlines] at hheld hrefines
  exact ⟨hheld, hrefines.content⟩

/-- **The file of a daemon that is killed.** Whatever the interleaving, as long as its file works, what stands in it
is what was there before and an object for each record that the daemon took, in their order and without those about
itself, but for fewer than 256 of the last, and perhaps the beginning of the next; or, if the file was started anew,
the same of the lines since then. Those that are missing were all written within 250 ms of the last flush. -/
theorem crash_reads {moves : List Move} (hworks : SinkWorks maps selfTgid (JsonSink.create senv file limit) moves)
    (hbase : file.getD [] = [] ∨ (file.getD []).getLast? = some 0x0A) :
    ∃ (taken : List EventVariant) (log : Rollover UInt8) (tail : List (Option Json)) (lost : Nat),
      taken <+: (Bpf.run maps (Feed.produced moves)).events.records ∧
      taken.length = (run maps selfTgid (JsonSink.create senv file limit) moves).taken ∧
      List.Forall₂ MadeOf (taken.filter fun record => !isSelfEvent record selfTgid)
        (objects maps selfTgid (JsonSink.create senv file limit) moves) ∧
      log = Rollover.run limit.toNat (file.getD [])
        ((events maps selfTgid (JsonSink.create senv file limit) moves).map fun e =>
          JsonSink.object e.1 e.2 ++ [0x0A]) ∧
      lost < 256 ∧ tail.length ≤ 1 ∧
      (∀ w ∈ (writes maps selfTgid (JsonSink.create senv file limit) moves).drop
          ((objects maps selfTgid (JsonSink.create senv file limit) moves).length - lost),
        w.1.nowFlush - (run maps selfTgid (JsonSink.create senv file limit) moves).consumer.sink.lastFlushMonoNs <
          JsonSink.kFlushIntervalNs) ∧
      (log.base = some (file.getD []) ∧
          JsonSink.readLines (run maps selfTgid (JsonSink.create senv file limit) moves).consumer.sink.onDisk =
            JsonSink.readLines (file.getD []) ++
              (objects maps selfTgid (JsonSink.create senv file limit) moves).take
                ((objects maps selfTgid (JsonSink.create senv file limit) moves).length - lost) ++ tail ∨
        limit ≠ 0 ∧ log.base = none ∧ ∃ kept, kept ≠ [] ∧
          kept <:+ objects maps selfTgid (JsonSink.create senv file limit) moves ∧ kept.length = log.kept.length ∧
          JsonSink.readLines (run maps selfTgid (JsonSink.create senv file limit) moves).consumer.sink.onDisk =
            kept.take (kept.length - lost) ++ tail) := by
  set sink := JsonSink.create senv file limit with hsink
  obtain ⟨hheld, hcontent⟩ := held_events hworks
  rw [← hsink] at hheld hcontent
  have hlength' : (objects maps selfTgid sink moves).length = (events maps selfTgid sink moves).length :=
    List.length_map _
  have htimely : ∀ {held : List (UInt64 × Bytes)} {lost : Nat},
      held <:+ (writes maps selfTgid sink moves).flatMap (fun w => JsonSink.written w.1 w.2) → lost ≤ held.length →
      (∀ w ∈ held, w.1 - (run maps selfTgid sink moves).consumer.sink.lastFlushMonoNs < JsonSink.kFlushIntervalNs) →
      ∀ w ∈ (writes maps selfTgid sink moves).drop ((objects maps selfTgid sink moves).length - lost),
        w.1.nowFlush - (run maps selfTgid sink moves).consumer.sink.lastFlushMonoNs < JsonSink.kFlushIntervalNs := by
    intro held lost hlast hlost htimes w hw
    rw [hlength', ← length_writes] at hw
    obtain ⟨line, hmem⟩ := held_of_mem_drop (fun w hw => written_writes hw) hlast hlost hw
    exact htimes _ hmem
  refine ⟨(told maps selfTgid sink moves).map Prod.snd, Rollover.run limit.toNat (file.getD [])
    ((events maps selfTgid sink moves).map fun e => JsonSink.object e.1 e.2 ++ [0x0A]), ?_⟩
  rcases Rollover.run_cases limit.toNat (file.getD [])
    ((events maps selfTgid sink moves).map fun e => JsonSink.object e.1 e.2 ++ [0x0A]) with
    ⟨hkeep, hkept⟩ | ⟨hnew, hne, hsuffix⟩
  · obtain ⟨lost, tail, held, hlast, hlost, hfew, htail, htimes, hread⟩ :=
      readLines_held hheld hcontent (by rw [hkeep]; exact hbase) hkept
    refine ⟨tail, lost, told_records moves, ?_, objects_madeOf sink moves, rfl, hfew, htail,
      htimely hlast hlost htimes, Or.inl ⟨hkeep, ?_⟩⟩
    · rw [List.length_map, run_taken]
    · rw [hread, hkeep, hlength', objects, List.map_take]
      rfl
  · obtain ⟨es, hes, hkept⟩ := List.suffix_map_iff.mp hsuffix
    obtain ⟨lost, tail, held, hlast, hlost, hfew, htail, htimes, hread⟩ :=
      readLines_held hheld hcontent (by rw [hnew]; exact Or.inl rfl) hkept
    refine ⟨tail, lost, told_records moves, ?_, objects_madeOf sink moves, rfl, hfew, htail,
      htimely hlast hlost htimes, Or.inr ⟨?_, hnew, es.map fun e => some (JsonSink.eventJson e.1 e.2), ?_, hes.map _,
        ?_, ?_⟩⟩
    · rw [List.length_map, run_taken]
    · intro hzero
      rw [Rollover.run_of_unlimited (by rw [hzero]; rfl)] at hnew
      cases hnew
    · rw [hkept] at hne
      simpa using hne
    · rw [hkept, List.length_map, List.length_map]
    · rw [hread, hnew, List.length_map, List.map_take]
      rfl

end

/-- The stream hands nothing on, and the sink waits for more lines. -/
theorem crash_reads_fork : ∃ (tail : List (Option Json)) (lost : Nat),
    JsonSink.readLines (run allProbes 1 (JsonSink.create JsonSink.calmEnv none 0) forkTaken).consumer.sink.onDisk =
        (objects allProbes 1 (JsonSink.create JsonSink.calmEnv none 0) forkTaken).take
          ((objects allProbes 1 (JsonSink.create JsonSink.calmEnv none 0) forkTaken).length - lost) ++ tail ∧
      lost < 256 ∧ tail.length ≤ 1 := by
  obtain ⟨-, log, tail, lost, -, -, -, -, hlost, htail, -, hread⟩ := crash_reads forkTaken_works (Or.inl rfl)
  refine ⟨tail, lost, ?_, hlost, htail⟩
  rcases hread with ⟨-, hread⟩ | ⟨hlimit, -⟩
  · exact hread
  · exact absurd rfl hlimit

end System

end ETraceGen
