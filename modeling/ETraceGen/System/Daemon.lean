import ETraceGen.Pipeline
import ETraceGen.Registry.Creation
import ETraceGen.Sink.File

/-!
# The daemon

What `main` keeps: the counters, the registry and the sink, and the callback that takes a sample through all of them.

* `Daemon.onRawEvent` : one sample;
* `Daemon.run_eq` : any samples of the handlers' records, one after the other.
-/

namespace ETraceGen

open Normalizer EntityRegistry

structure Metrics where
  received : UInt64 := 0
  decoded : UInt64 := 0
  dropped : UInt64 := 0
  deriving DecidableEq

namespace Metrics

def incrementReceived (m : Metrics) : Metrics := { m with received := m.received + 1 }
def incrementDecoded (m : Metrics) : Metrics := { m with decoded := m.decoded + 1 }
def incrementDropped (m : Metrics) : Metrics := { m with dropped := m.dropped + 1 }

end Metrics

/-- What a sample meets on its way. -/
structure SampleEnv where
  ingest : IngestEnv
  sink : SinkEnv

structure Daemon where
  metrics : Metrics := {}
  registry : EntityRegistry := {}
  sink : JsonSink

namespace Daemon

/-- The callback of `main`. -/
def onRawEvent (selfTgid : UInt32) (env : SampleEnv) (raw : Bytes) (d : Daemon) : Daemon :=
  let d := { d with metrics := d.metrics.incrementReceived }
  match Decoder.decode raw with
  | none => { d with metrics := d.metrics.incrementDropped }
  | some decoded =>
    let d := { d with metrics := d.metrics.incrementDecoded }
    let event := decoded.event
    if isSelfEvent event selfTgid then d
    else
      let (registry, canonical) := ingest env.ingest (Normalizer.normalize event) d.registry
      let d := { d with registry }
      if !PolicyEngine.allow event then d else { d with sink := d.sink.write env.sink canonical }

/-- A record as it lies in the ring buffer, and what it meets. -/
abbrev Sample := SampleEnv × EventObject

def run (selfTgid : UInt32) (d : Daemon) (samples : List Sample) : Daemon :=
  samples.foldl (fun d sample => d.onRawEvent selfTgid sample.1 sample.2.image) d

/-- The samples that are not about the daemon itself. -/
def foreign (selfTgid : UInt32) (samples : List Sample) : List Sample :=
  samples.filter fun sample => !isSelfEvent sample.2.event selfTgid

def Sample.call (sample : Sample) : EntityRegistry.Call :=
  { env := sample.1.ingest, ev := Normalizer.normalize sample.2.event }

/-- The `Ingest` calls on the samples. -/
def calls (selfTgid : UInt32) (samples : List Sample) : List EntityRegistry.Call :=
  (foreign selfTgid samples).map Sample.call

def ingestAll (registry : EntityRegistry) (calls : List EntityRegistry.Call) : EntityRegistry :=
  calls.foldl (fun r c => (ingest c.env c.ev r).1) registry

/-- What is written of these samples, by a registry that has seen others before. -/
def writes (registry : EntityRegistry) : List Sample → List (SinkEnv × CanonicalEvent)
  | [] => []
  | sample :: rest =>
    let out := ingest sample.call.env sample.call.ev registry
    (sample.1.sink, out.2) :: writes out.1 rest

def writeAll (sink : JsonSink) (writes : List (SinkEnv × CanonicalEvent)) : JsonSink :=
  writes.foldl (fun s w => s.write w.1 w.2) sink

/-- Every record names itself, as those of the handlers do. -/
def Named (samples : List Sample) : Prop := ∀ sample ∈ samples, sample.2.event.SelfNamed

section Run
variable {selfTgid : UInt32} {d : Daemon}

/-- **One sample** whose record names itself. -/
theorem onRawEvent_image {sample : Sample} (h : sample.2.event.SelfNamed) :
    d.onRawEvent selfTgid sample.1 sample.2.image =
      { metrics := d.metrics.incrementReceived.incrementDecoded
        registry := ingestAll d.registry (calls selfTgid [sample])
        sink := writeAll d.sink (writes d.registry (foreign selfTgid [sample])) } := by
  have hdecode := Decoder.decode_image h []
  rw [List.append_nil] at hdecode
  unfold onRawEvent calls foreign
  rw [hdecode, List.filter_singleton]
  cases hself : isSelfEvent sample.2.event selfTgid with
  | true => simp [hself, writes, ingestAll, writeAll]
  | false => simp [hself, writes, ingestAll, writeAll, Sample.call, PolicyEngine.allow]

theorem run_snoc (samples : List Sample) (sample : Sample) :
    run selfTgid d (samples ++ [sample]) = (run selfTgid d samples).onRawEvent selfTgid sample.1 sample.2.image :=
  List.foldl_concat ..

theorem foreign_append (samples more : List Sample) :
    foreign selfTgid (samples ++ more) = foreign selfTgid samples ++ foreign selfTgid more :=
  List.filter_append ..

theorem calls_append (samples more : List Sample) :
    calls selfTgid (samples ++ more) = calls selfTgid samples ++ calls selfTgid more := by
  rw [calls, foreign_append, List.map_append, ← calls, ← calls]

theorem writes_append (registry : EntityRegistry) (samples more : List Sample) :
    writes registry (samples ++ more) =
      writes registry samples ++ writes (ingestAll registry (samples.map Sample.call)) more := by
  induction samples generalizing registry with
  | nil => rfl
  | cons sample rest ih =>
    show (_, _) :: writes _ (rest ++ more) = (_, _) :: (writes _ rest ++ _)
    rw [ih]
    rfl

theorem length_writes (registry : EntityRegistry) (samples : List Sample) :
    (writes registry samples).length = samples.length := by
  induction samples generalizing registry with
  | nil => rfl
  | cons sample rest ih => rw [writes, List.length_cons, List.length_cons, ih]

/-- **Any samples.** Each is received and decoded, and the registry and the sink take those of other processes in
their order. -/
theorem run_eq {sink : JsonSink} {samples : List Sample} (h : Named samples) :
    run selfTgid { sink } samples =
      { metrics := { received := .ofNat samples.length, decoded := .ofNat samples.length }
        registry := EntityRegistry.run (calls selfTgid samples)
        sink := writeAll sink (writes {} (foreign selfTgid samples)) } := by
  induction samples using List.reverseRecOn with
  | nil => rfl
  | append_singleton samples sample ih =>
    have hsample := h sample (List.mem_append_right _ (List.mem_singleton_self sample))
    have hbefore := ih fun other hmem => h other (List.mem_append_left _ hmem)
    have hcount : UInt64.ofNat (samples ++ [sample]).length = UInt64.ofNat samples.length + 1 := by
      rw [List.length_append, List.length_singleton, UInt64.ofNat_add]
      rfl
    rw [run_snoc, hbefore, onRawEvent_image hsample, hcount, calls_append, foreign_append, writes_append]
    simp only [EntityRegistry.run, ingestAll, writeAll, List.foldl_append]
    rfl

end Run

end Daemon

end ETraceGen
