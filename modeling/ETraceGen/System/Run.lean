import ETraceGen.Bpf.Effects
import ETraceGen.Lib.Feed
import ETraceGen.System.Daemon

/-!
# The kernel and the daemon together

The handlers submit records whenever a hook is hit; the daemon takes them from the ring buffer when it polls. They
share nothing but the records, so a run of both in any interleaving is the handlers' run and then the daemon's on the
first of its records.

* `System.run` : any interleaving;
* `run_sequential` : what it comes to.
-/

namespace ETraceGen

open Bpf

/-- A record in its slot of the ring buffer. -/
def EventVariant.object (hdrPad pad : Pad) : EventVariant → EventObject
  | .process ev => .process ev hdrPad pad
  | .file ev => .file ev hdrPad pad
  | .syscall ev => .syscall ev hdrPad
  | .network ev => .network ev hdrPad pad

theorem EventVariant.event_object (record : EventVariant) (hdrPad pad : Pad) :
    (record.object hdrPad pad).event = record := by
  cases record <;> rfl

/-- The daemon asks for the next record: what that meets, and the bytes between its members. -/
structure Ask where
  env : SampleEnv
  hdrPad : Pad
  pad : Pad

/-- A record that is taken. -/
def sampleOf (taken : Ask × EventVariant) : Daemon.Sample :=
  (taken.1.env, taken.2.object taken.1.hdrPad taken.1.pad)

abbrev System := Feed Kernel Daemon

namespace System

abbrev Move := Feed.Move Step Ask

def take (selfTgid : UInt32) (d : Daemon) (taken : Ask × EventVariant) : Daemon :=
  d.onRawEvent selfTgid (sampleOf taken).1 (sampleOf taken).2.image

def records (k : Kernel) : List EventVariant := k.events.records

section
variable (maps : ProbeMaps) (selfTgid : UInt32) (sink : JsonSink) (moves : List Move)

def start : System := { producer := {}, consumer := { sink } }

/-- The handlers and the daemon, from the start of both. -/
def run : System := Feed.run (exec maps) records (take selfTgid) (start sink) moves

/-- What the daemon takes along the moves. -/
def told : List (Ask × EventVariant) := Feed.told (exec maps) records (take selfTgid) (start sink) moves

def samples : List Daemon.Sample := (told maps selfTgid sink moves).map sampleOf

variable {maps} in
theorem records_exec (k : Kernel) (step : Step) :
    records (exec maps k step) = records k ++ (effect maps k step).ring.record?.toList := by
  unfold records
  rw [exec_eq]
  exact RingMove.records_apply _ _

theorem grows : Feed.Grows (exec maps) records := fun k step => ⟨_, (records_exec k step).symm⟩

variable {maps selfTgid sink}

theorem run_kernel : (run maps selfTgid sink moves).producer = Bpf.run maps (Feed.produced moves) :=
  Feed.run_producer moves

theorem run_taken : (run maps selfTgid sink moves).taken = (told maps selfTgid sink moves).length :=
  (Feed.run_taken moves).trans (Nat.zero_add _)

theorem told_records :
    (told maps selfTgid sink moves).map Prod.snd <+: records (Bpf.run maps (Feed.produced moves)) := by
  have hlog : (told maps selfTgid sink moves).map Prod.snd <+: records (run maps selfTgid sink moves).producer :=
    Feed.told_log (s := start sink) (grows maps) moves
  rwa [run_kernel] at hlog

theorem events_samples :
    (samples maps selfTgid sink moves).map (fun sample => sample.2.event) =
      (told maps selfTgid sink moves).map Prod.snd := by
  have hevent : (fun sample : Daemon.Sample => sample.2.event) ∘ sampleOf = Prod.snd := by
    funext pair
    exact EventVariant.event_object pair.2 pair.1.hdrPad pair.1.pad
  rw [samples, List.map_map, hevent]

/-- A sample's record is one that the handlers submitted. -/
theorem mem_samples {sample : Daemon.Sample} (h : sample ∈ samples maps selfTgid sink moves) :
    sample.2.event ∈ (Bpf.run maps (Feed.produced moves)).events.records := by
  have hmem : sample.2.event ∈ (samples maps selfTgid sink moves).map fun sample => sample.2.event :=
    List.mem_map.mpr ⟨sample, h, rfl⟩
  rw [events_samples] at hmem
  exact (told_records moves).subset hmem

theorem samples_named : Daemon.Named (samples maps selfTgid sink moves) := by
  intro sample hsample
  obtain ⟨before, env, hook, after, -, hsource⟩ := mem_records (mem_samples moves hsample)
  exact hsource.selfNamed

theorem run_daemon :
    (run maps selfTgid sink moves).consumer = Daemon.run selfTgid { sink } (samples maps selfTgid sink moves) := by
  have hconsumer : (run maps selfTgid sink moves).consumer =
      (told maps selfTgid sink moves).foldl (take selfTgid) { sink } := Feed.run_consumer moves
  rw [hconsumer, Daemon.run, samples, List.foldl_map]
  rfl

end

/-- **Any interleaving** is the handlers' run, and the daemon's on the first of its records: the daemon has received
and decoded each of these once and dropped none, its registry is the one of the `Ingest` calls on them, and its sink
has been given their events, in their order. -/
theorem run_sequential (maps : ProbeMaps) (selfTgid : UInt32) (sink : JsonSink) (moves : List Move) :
    ∃ told : List (Ask × EventVariant), (told.map Prod.fst).Sublist (Feed.asked moves) ∧
      told.map Prod.snd <+: records (Bpf.run maps (Feed.produced moves)) ∧
      (run maps selfTgid sink moves).producer = Bpf.run maps (Feed.produced moves) ∧
      (run maps selfTgid sink moves).taken = told.length ∧
      (run maps selfTgid sink moves).consumer =
        { metrics := { received := .ofNat told.length, decoded := .ofNat told.length, dropped := 0 }
          registry := EntityRegistry.run (Daemon.calls selfTgid (told.map sampleOf))
          sink := Daemon.writeAll sink (Daemon.writes {} (Daemon.foreign selfTgid (told.map sampleOf))) } := by
  refine ⟨System.told maps selfTgid sink moves, Feed.told_asked moves, told_records moves, run_kernel moves,
    run_taken moves, ?_⟩
  rw [run_daemon, Daemon.run_eq (samples_named moves), samples, List.length_map]

end System

end ETraceGen
