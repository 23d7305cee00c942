import ETraceGen.Lib.Sections
import ETraceGen.Sink.RoundTrip
import ETraceGen.System.Run

/-!
# What the file says

A reader of the output file splits it at the newlines and parses each line. It gets back the records that the daemon
took, in their order, each as one object.

* `Daemon.events` : the events that are written;
* `System.SinkWorks` : every open and every write of a run succeeds;
* `content_reads` : the file of such a run, read back.
-/

namespace ETraceGen

open Bpf Normalizer EntityRegistry

/-! ## Lines -/

namespace JsonSink

/-- A line without its newline. -/
def object (canonical : CanonicalEvent) (event : EventVariant) : Bytes :=
  0x7B :: (writeEventBody canonical event ++ [0x7D])

theorem serialized_eq_object (canonical : CanonicalEvent) (event : EventVariant) :
    serialized canonical event = object canonical event ++ [0x0A] :=
  serialized_line canonical event

theorem newline_not_mem_object (canonical : CanonicalEvent) (event : EventVariant) : 0x0A ∉ object canonical event :=
  fun hmem => absurd ((writeEventBody_line canonical event).printable _ hmem) (by decide)

theorem parse_object (canonical : CanonicalEvent) (event : EventVariant) :
    Json.parse (object canonical event) = some (eventJson canonical event) := by
  have htext : Json.Text (object canonical event) (eventJson canonical event) :=
    ⟨[], object canonical event, [], by rw [List.append_nil, List.nil_append], nofun, nofun,
      (writeEventBody_line canonical event).derives⟩
  exact htext.parse_eq

/-- What a reader makes of a file, line by line. -/
def readLines (content : Bytes) : List (Option Json) := (Sections.pieces 0x0A content).map Json.parse

end JsonSink

/-! ## Events -/

namespace Daemon

theorem ingest_normalize_raw (sample : Sample) (registry : EntityRegistry) :
    (ingest sample.call.env sample.call.ev registry).2.raw = some sample.2.event := by
  have hpass := ingest_raw sample.call.env sample.call.ev sample.call.ev.raw registry
  have hraw : (ingest sample.call.env sample.call.ev registry).2.raw = sample.call.ev.raw :=
    congrArg (fun p => p.2.raw) hpass
  exact hraw.trans (normalize_raw sample.2.event)

/-- The events that are written of these samples, each with the record it is made of. -/
def events (registry : EntityRegistry) (samples : List Sample) : List (CanonicalEvent × EventVariant) :=
  ((writes registry samples).map Prod.snd).zip (samples.map fun sample => sample.2.event)

theorem lines_writes (registry : EntityRegistry) (samples : List Sample) :
    (writes registry samples).flatMap (fun w => JsonSink.lines w.2) =
      (events registry samples).map fun e => JsonSink.object e.1 e.2 ++ [0x0A] := by
  induction samples generalizing registry with
  | nil => rfl
  | cons sample rest ih =>
    have hlines : JsonSink.lines (ingest sample.call.env sample.call.ev registry).2 =
        [JsonSink.object (ingest sample.call.env sample.call.ev registry).2 sample.2.event ++ [0x0A]] := by
      rw [JsonSink.lines, ingest_normalize_raw]
      exact congrArg ([·]) (JsonSink.serialized_eq_object _ _)
    show JsonSink.lines _ ++ (writes _ rest).flatMap _ = _ :: (events _ rest).map _
    rw [hlines, ih]
    rfl

theorem events_records (registry : EntityRegistry) (samples : List Sample) :
    (events registry samples).map Prod.snd = samples.map fun sample => sample.2.event := by
  rw [events, List.map_snd_zip]
  rw [List.length_map, List.length_map, length_writes]

end Daemon

/-! ## Runs -/

namespace System

section
variable {maps : ProbeMaps} {selfTgid : UInt32} {senv : SinkEnv} {file : Option Bytes} {limit : UInt64}

/-- Every open and every write of the sink succeeds. -/
def SinkWorks (maps : ProbeMaps) (selfTgid : UInt32) (sink : JsonSink) (moves : List Move) : Prop :=
  ∀ before, before <+: moves → (run maps selfTgid sink before).consumer.sink.Good

/-- The events that are written along the moves. -/
def events (maps : ProbeMaps) (selfTgid : UInt32) (sink : JsonSink) (moves : List Move) :
    List (CanonicalEvent × EventVariant) :=
  Daemon.events {} (Daemon.foreign selfTgid (samples maps selfTgid sink moves))

/-- They are made of the records that the daemon took, in their order, without those about itself. -/
theorem events_records (sink : JsonSink) (moves : List Move) :
    (events maps selfTgid sink moves).map Prod.snd =
      ((told maps selfTgid sink moves).map Prod.snd).filter fun record => !isSelfEvent record selfTgid := by
  rw [events, Daemon.events_records, ← events_samples, Daemon.foreign, List.filter_map]
  rfl

theorem run_sink (sink : JsonSink) (moves : List Move) : (run maps selfTgid sink moves).consumer.sink =
    Daemon.writeAll sink (Daemon.writes {} (Daemon.foreign selfTgid (samples maps selfTgid sink moves))) := by
  rw [run_daemon, Daemon.run_eq (samples_named moves)]

theorem samples_snoc (sink : JsonSink) (moves : List Move) (move : Move) :
    samples maps selfTgid sink (moves ++ [move]) = samples maps selfTgid sink moves ++
      ((Feed.answer records (run maps selfTgid sink moves) move).toList.map sampleOf) := by
  rw [samples, told, Feed.told_append, List.map_append]
  simp only [Feed.told, List.append_nil]
  rfl

/-- One write more, or none. -/
theorem run_writeAll {lines : List Bytes} {s : JsonSink} (h : JsonSink.Run file limit lines s)
    {writes : List (SinkEnv × CanonicalEvent)} (hfew : writes.length ≤ 1) (hgood : (Daemon.writeAll s writes).Good) :
    JsonSink.Run file limit (lines ++ writes.flatMap fun w => JsonSink.lines w.2) (Daemon.writeAll s writes) := by
  cases writes with
  | nil =>
    rw [List.flatMap_nil, List.append_nil]
    exact h
  | cons w rest =>
    obtain rfl : rest = [] := List.length_eq_zero_iff.mp (by rw [List.length_cons] at hfew; omega)
    have hone : Daemon.writeAll s [w] = s.write w.1 w.2 := rfl
    rw [hone] at hgood ⊢
    rw [List.flatMap_singleton]
    exact h.write hgood

/-- The sink has been given the lines of the events, one after the other. -/
theorem sink_run {moves : List Move} (hworks : SinkWorks maps selfTgid (JsonSink.create senv file limit) moves) :
    JsonSink.Run file limit
      ((events maps selfTgid (JsonSink.create senv file limit) moves).map fun e =>
        JsonSink.object e.1 e.2 ++ [0x0A])
      (run maps selfTgid (JsonSink.create senv file limit) moves).consumer.sink := by
  simp only [events, ← Daemon.lines_writes]
  induction moves using List.reverseRecOn with
  | nil => exact .create (hworks [] (List.prefix_refl _))
  | append_singleton moves move ih =>
    have hbefore := ih fun before hinit => hworks before (hinit.trans (List.prefix_append _ _))
    have hgood := hworks _ (List.prefix_refl _)
    rw [run_sink] at hbefore hgood ⊢
    rw [samples_snoc, Daemon.foreign_append, Daemon.writes_append, Daemon.writeAll, List.foldl_append] at hgood ⊢
    rw [List.flatMap_append]
    refine run_writeAll hbefore ?_ hgood
    rw [Daemon.length_writes]
    refine (List.length_filter_le _ _).trans ?_
    rw [List.length_map]
    cases Feed.answer records (run maps selfTgid (JsonSink.create senv file limit) moves) move with
    | none => exact Nat.zero_le _
    | some _ => exact Nat.le_refl _

theorem readLines_written {base : Bytes} (hbase : base = [] ∨ base.getLast? = some 0x0A)
    (es : List (CanonicalEvent × EventVariant)) :
    JsonSink.readLines (base ++ (es.map fun e => JsonSink.object e.1 e.2 ++ [0x0A]).flatten) =
      JsonSink.readLines base ++ es.map fun e => some (JsonSink.eventJson e.1 e.2) := by
  have hmap : (es.map fun e => JsonSink.object e.1 e.2 ++ [0x0A]) =
      (es.map fun e => JsonSink.object e.1 e.2).map (· ++ [0x0A]) := by
    rw [List.map_map]
    rfl
  have hlines : ∀ piece ∈ es.map fun e => JsonSink.object e.1 e.2, 0x0A ∉ piece := by
    intro piece hmem
    obtain ⟨e, -, rfl⟩ := List.mem_map.mp hmem
    exact JsonSink.newline_not_mem_object e.1 e.2
  have hpieces := Sections.pieces_flatten hlines []
  rw [List.append_nil] at hpieces
  rw [JsonSink.readLines, Sections.pieces_append hbase, hmap, hpieces, Sections.pieces, List.append_nil,
    List.map_append, List.map_map]
  refine congrArg _ (List.map_congr_left fun e _ => ?_)
  exact JsonSink.parse_object e.1 e.2

/-- An object that says what the record holds. -/
def MadeOf (record : EventVariant) (object : Option Json) : Prop :=
  ∃ canonical, object = some (JsonSink.eventJson canonical record)

/-- The objects of the events that are written. -/
def objects (maps : ProbeMaps) (selfTgid : UInt32) (sink : JsonSink) (moves : List Move) : List (Option Json) :=
  (events maps selfTgid sink moves).map fun e => some (JsonSink.eventJson e.1 e.2)

/-- One for each record that the daemon took, in their order, without those about itself. -/
theorem objects_madeOf (sink : JsonSink) (moves : List Move) :
    List.Forall₂ MadeOf
      (((told maps selfTgid sink moves).map Prod.snd).filter fun record => !isSelfEvent record selfTgid)
      (objects maps selfTgid sink moves) := by
  rw [← events_records, objects, List.forall₂_map_left_iff, List.forall₂_map_right_iff, List.forall₂_same]
  exact fun e _ => ⟨e.1, rfl⟩

/-- **The output, read back.** A reader that splits at the newlines gets what was there before and then the objects;
or, if the file was started anew, the last of them without a gap. -/
theorem content_reads {moves : List Move} (hworks : SinkWorks maps selfTgid (JsonSink.create senv file limit) moves)
    (hbase : file.getD [] = [] ∨ (file.getD []).getLast? = some 0x0A) :
    JsonSink.readLines (run maps selfTgid (JsonSink.create senv file limit) moves).consumer.sink.content =
        JsonSink.readLines (file.getD []) ++ objects maps selfTgid (JsonSink.create senv file limit) moves ∨
      limit ≠ 0 ∧ ∃ kept, kept ≠ [] ∧ kept <:+ objects maps selfTgid (JsonSink.create senv file limit) moves ∧
        JsonSink.readLines (run maps selfTgid (JsonSink.create senv file limit) moves).consumer.sink.content =
          kept := by
  set sink := JsonSink.create senv file limit with hsink
  have hcontent := (sink_run hworks).refines.content
  rw [← hsink] at hcontent
  rw [hcontent, Rollover.content]
  rcases Rollover.run_cases limit.toNat (file.getD [])
    ((events maps selfTgid sink moves).map fun e => JsonSink.object e.1 e.2 ++ [0x0A]) with
    ⟨hkeep, hkept⟩ | ⟨hnew, hne, hsuffix⟩
  · left
    rw [hkeep, hkept]
    exact readLines_written hbase _
  · right
    have hlimit : limit ≠ 0 := by
      intro hzero
      rw [Rollover.run_of_unlimited (by rw [hzero]; rfl)] at hnew
      cases hnew
    obtain ⟨es, hes, hlines⟩ := List.suffix_map_iff.mp hsuffix
    rw [hlines] at hne
    rw [hnew, hlines]
    refine ⟨hlimit, es.map fun e => some (JsonSink.eventJson e.1 e.2), ?_, hes.map _, ?_⟩
    · simpa using hne
    · exact readLines_written (Or.inl rfl) es

end

/-! ## A fork, taken at once -/

def calmAsk : Ask where
  env := { ingest := {}, sink := JsonSink.calmEnv }
  hdrPad := Vector.replicate 4 0
  pad := Vector.replicate 4 0

def forkTaken : List Move := [.produce (.deliver env7 (.schedFork 8)), .consume calmAsk]

theorem forkTaken_works : SinkWorks allProbes 1 (JsonSink.create JsonSink.calmEnv none 0) forkTaken := by
  intro before hbefore
  rcases List.prefix_cons_iff.mp hbefore with rfl | ⟨rest, rfl, hrest⟩
  · decide +kernel
  · rcases List.prefix_cons_iff.mp hrest with rfl | ⟨last, rfl, hlast⟩
    · decide +kernel
    · rw [List.prefix_nil.mp hlast]
      decide +kernel

end System

end ETraceGen
