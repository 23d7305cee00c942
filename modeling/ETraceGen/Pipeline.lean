import ETraceGen.Bpf.Leftover
import ETraceGen.Normalizer
import ETraceGen.Registry.Ingest
import ETraceGen.Sink.Format
import ETraceGen.Wire

/-!
# From the ring buffer to the line

The callback `main` hands the collector: the bytes of a sample are decoded, normalized, taken into the
registry and written. What comes out of it, the registry and the line, depends on nothing a handler has left
unwritten in its slots (`line_unaffected`).
-/

namespace ETraceGen

open Normalizer EntityRegistry JsonSink

/-! ## The callback -/

def isSelfEvent (event : EventVariant) (selfTgid : UInt32) : Bool := event.hdr.tgid == selfTgid

/-- `PolicyEngine::Allow`, the permissive policy. -/
def PolicyEngine.allow (_event : EventVariant) : Bool := true

/-- The line `JsonSink::Write` makes of an event, if it has a raw record. -/
def JsonSink.line (canonical : CanonicalEvent) : Option Bytes := canonical.raw.map fun event => serialized canonical event

/-- What one sample does: the registry after it, and the line it adds. -/
def rawCallback (selfTgid : UInt32) (env : IngestEnv) (raw : Bytes) (registry : EntityRegistry) :
    EntityRegistry × Option Bytes :=
  match Decoder.decode raw with
  | none => (registry, none)
  | some decoded =>
    let event := decoded.event
    if isSelfEvent event selfTgid then (registry, none)
    else
      let (registry, canonical) := ingest env (Normalizer.normalize event) registry
      if !PolicyEngine.allow event then (registry, none) else (registry, line canonical)

/-- The registry hands the raw record on. -/
theorem ingest_raw (env : IngestEnv) (ev : CanonicalEvent) (raw : Option EventVariant) (r : EntityRegistry) :
    ingest env { ev with raw := raw } r =
      ((ingest env ev r).1, { (ingest env ev r).2 with raw := raw }) := by
  unfold ingest
  dsimp only
  split_ifs <;> rfl

theorem normalize_raw (event : EventVariant) : (Normalizer.normalize event).raw = some event := by
  cases event with
  | process ev =>
    unfold Normalizer.normalize normalizeProcess
    dsimp only
    split_ifs <;> rfl
  | file ev => rfl
  | syscall ev => rfl
  | network ev => rfl

/-- A record of another process gives its line. -/
theorem rawCallback_image {obj : EventObject} (h : obj.event.SelfNamed) (selfTgid : UInt32)
    (env : IngestEnv) (registry : EntityRegistry) :
    rawCallback selfTgid env obj.image registry =
      if isSelfEvent obj.event selfTgid then (registry, none)
      else
        ((ingest env (Normalizer.normalize obj.event) registry).1,
          some (serialized (ingest env (Normalizer.normalize obj.event) registry).2 obj.event)) := by
  have hdecode := Decoder.decode_image h []
  rw [List.append_nil] at hdecode
  have hraw : (ingest env (Normalizer.normalize obj.event) registry).2.raw = some obj.event := by
    have hpass := ingest_raw env (Normalizer.normalize obj.event) (Normalizer.normalize obj.event).raw registry
    rw [show (ingest env (Normalizer.normalize obj.event) registry).2.raw = (Normalizer.normalize obj.event).raw from
      congrArg (fun p => p.2.raw) hpass, normalize_raw]
  unfold rawCallback
  simp only [hdecode, line, hraw, PolicyEngine.allow, Option.map_some, Bool.not_true, Bool.false_eq_true,
    if_false]

/-! ## Records that agree -/

theorem EventVariant.Agree.hdr {a b : EventVariant} (h : a.Agree b) : a.hdr = b.hdr := by
  cases h with
  | process h => rw [h.eq]; rfl
  | file h => rw [h.eq]; rfl
  | syscall ev => rfl
  | network h => rw [h.eq]; rfl

theorem EventVariant.Agree.selfNamed {a b : EventVariant} (h : a.Agree b) (ha : a.SelfNamed) :
    b.SelfNamed := by
  have htype : a.type = b.type := by cases h <;> rfl
  unfold EventVariant.SelfNamed at ha ⊢
  rwa [← h.hdr, ← htype]

/-- They become the same event, but for the record it points at. -/
theorem normalize_agree {a b : EventVariant} (h : a.Agree b) :
    Normalizer.normalize a = { Normalizer.normalize b with raw := some a } := by
  cases h with
  | process h =>
    have hhead := h.execPath.head (by decide)
    have hcstr := h.execPath.cstr
    rw [h.eq]
    unfold Normalizer.normalize normalizeProcess
    dsimp only
    rw [hhead, hcstr]
    split_ifs <;> rfl
  | file h =>
    have hA := h.pathA.cstr
    have hB := h.pathB.cstr
    rw [h.eq]
    unfold Normalizer.normalize normalizeFile
    dsimp only
    rw [hA, hB]
    rfl
  | syscall ev => rfl
  | network h =>
    rw [h.eq]
    rfl

theorem jsonEscapeC_agree {n : Nat} {a b : CharBuf n} (h : a.Agree b) :
    jsonEscapeC (a.toList ++ []) = jsonEscapeC (b.toList ++ []) := by
  have hcstr := h.cstr
  unfold CharBuf.cstr at hcstr
  rw [jsonEscapeC_eq, jsonEscapeC_eq, List.append_nil, List.append_nil, hcstr]

theorem writeNetworkEndpoint_agree (label : String) {a b : NetworkEndpoint} (h : a.Agree b) :
    writeNetworkEndpoint label a = writeNetworkEndpoint label b := by
  have hpath := jsonEscapeC_agree h.path
  rw [h.eq]
  unfold writeNetworkEndpoint
  rw [hpath]

theorem writeVariant_agree (pe : Option ProcessEntity) {a b : EventVariant} (h : a.Agree b) :
    writeVariant pe a = writeVariant pe b := by
  cases h with
  | process h =>
    rw [h.eq]
    rfl
  | file h =>
    have hA := jsonEscapeC_agree h.pathA
    have hB := jsonEscapeC_agree h.pathB
    rw [h.eq]
    simp only [writeVariant, writeFileEvent, hA, hB]
  | syscall ev => rfl
  | network h =>
    have hl := writeNetworkEndpoint_agree "local" h.localEp
    have hr := writeNetworkEndpoint_agree "remote" h.remoteEp
    rw [h.eq]
    simp only [writeVariant, writeNetworkEvent, hl, hr]

theorem serialized_agree (canonical : CanonicalEvent) {a b : EventVariant} (h : a.Agree b) :
    serialized canonical a = serialized canonical b := by
  unfold serialized writeEventBody
  rw [h.hdr, writeVariant_agree canonical.subjectProcess h]

/-- The same is made of the two records, whatever lies between their members in memory. -/
def SameLine (a b : EventVariant) : Prop :=
  ∀ obj obj' : EventObject, obj.event = a → obj'.event = b →
    ∀ (selfTgid : UInt32) (env : IngestEnv) (registry : EntityRegistry),
      rawCallback selfTgid env obj.image registry = rawCallback selfTgid env obj'.image registry

theorem sameLine_of_agree {a b : EventVariant} (h : a.Agree b) (ha : a.SelfNamed) : SameLine a b := by
  rintro obj obj' rfl rfl selfTgid env registry
  have hself : isSelfEvent obj.event selfTgid = isSelfEvent obj'.event selfTgid := by
    unfold isSelfEvent
    rw [h.hdr]
  have hingest := ingest_raw env (Normalizer.normalize obj'.event) (some obj.event) registry
  rw [← normalize_agree h] at hingest
  rw [rawCallback_image ha, rawCallback_image (h.selfNamed ha), hself, hingest, serialized_agree _ h]
  rfl

/-! ## The strings of a record -/

/-- The C strings that are read out of a record. -/
def EventVariant.strings (event : EventVariant) : List Bytes :=
  event.hdr.comm.toList ::
    match event with
    | .process ev => [ev.execPath.toList]
    | .file ev => [ev.pathA.toList, ev.pathB.toList]
    | .syscall _ => []
    | .network ev => [ev.localEp.path.toList, ev.remoteEp.path.toList]

theorem EventVariant.Agree.terminated {a b : EventVariant} (h : a.Agree b)
    (hcomm : 0 ∈ a.hdr.comm.toList) : ∀ s ∈ a.strings, 0 ∈ s := by
  refine List.forall_mem_cons.mpr ⟨hcomm, ?_⟩
  cases h with
  | process h => exact List.forall_mem_singleton.mpr h.execPath.mem
  | file h => exact List.forall_mem_cons.mpr ⟨h.pathA.mem, List.forall_mem_singleton.mpr h.pathB.mem⟩
  | syscall ev => exact List.forall_mem_nil _
  | network h =>
    exact List.forall_mem_cons.mpr ⟨h.localEp.path.mem, List.forall_mem_singleton.mpr h.remoteEp.path.mem⟩

open Bpf

/-- `bpf_get_current_comm` fills its buffer with a string and the NUL behind it. -/
def CommFilled (steps : List Step) : Prop := ∀ env hook, Step.deliver env hook ∈ steps → 0 ∈ env.comm.toList

theorem mem_refill {left : Nat → Leftover} {steps : List Step} {step : Step} (h : step ∈ refill left steps) :
    ∃ step' ∈ steps, ∃ l, step = step'.withLeftover l := by
  obtain ⟨i, hi, rfl⟩ := List.mem_mapIdx.mp h
  exact ⟨steps[i], List.getElem_mem hi, left i, rfl⟩

theorem CommFilled.refill {steps : List Step} (h : CommFilled steps) (left : Nat → Leftover) :
    CommFilled (refill left steps) := by
  intro env hook hmem
  obtain ⟨step, hstep, l, heq⟩ := mem_refill hmem
  cases step with
  | deliver env' hook' =>
    obtain ⟨rfl, rfl⟩ := Step.deliver.inj heq
    exact h env' _ hstep
  | _ => cases heq

theorem CommFilled.hdr {maps : ProbeMaps} {steps : List Step} (h : CommFilled steps) {record : EventVariant}
    (hrecord : record ∈ (run maps steps).events.records) : 0 ∈ record.hdr.comm.toList := by
  obtain ⟨before, env, hook, after, rfl, hsource⟩ := mem_records hrecord
  rcases hsource.comm with hcomm | ⟨enterEnv, enter, hmem, hcomm⟩
  · rw [hcomm]
    exact h env hook (by simp)
  · rw [hcomm]
    exact h enterEnv enter (List.mem_append_left _ hmem)

/-- **What a slot held before does not reach a line.** Two runs of the same hooks that find different bytes in
the slots they reserve submit records the same lines are made of, from any registry and with any answers of
`/proc`; and each string that is read to make them ends inside its buffer. -/
theorem line_unaffected (maps : ProbeMaps) {steps : List Step} (hcomm : CommFilled steps)
    (left left' : Nat → Leftover) :
    List.Forall₂ SameLine (run maps (refill left steps)).events.records
        (run maps (refill left' steps)).events.records ∧
      ∀ record ∈ (run maps (refill left steps)).events.records, ∀ s ∈ record.strings, 0 ∈ s := by
  have hagree := (run_agree maps left left' steps).records
  constructor
  · have hnamed : ∀ record ∈ (run maps (refill left steps)).events.records, record.SelfNamed := by
      intro record hrecord
      obtain ⟨before, env, hook, after, -, hsource⟩ := mem_records hrecord
      exact hsource.selfNamed
    exact ((List.forall₂_and_left _ _).mpr ⟨hnamed, hagree⟩).imp fun a b h => sameLine_of_agree h.2 h.1
  · have hfilled : ∀ record ∈ (run maps (refill left steps)).events.records, 0 ∈ record.hdr.comm.toList :=
      fun record hrecord => (hcomm.refill left).hdr hrecord
    have hboth := (List.forall₂_and_left _ _).mpr ⟨hfilled, hagree⟩
    exact ((List.forall₂_and_left _ _).mp (hboth.imp fun a b h => ⟨h.2.terminated h.1, h⟩)).1

/-- An `openat` whose path cannot be read, in slots full of ones and in slots full of zeroes. -/
theorem line_unaffected_openat :
    CommFilled [.deliver env7 (.enterFile .openat default), .deliver env7 (.exitFile .openat 3)] ∧
      List.Forall₂ SameLine
        (run allProbes (refill (fun _ => { (default : Leftover) with
            file.pathA := Vector.replicate pathLen 1, file.pathB := Vector.replicate pathLen 1 })
          [.deliver env7 (.enterFile .openat default), .deliver env7 (.exitFile .openat 3)])).events.records
        (run allProbes (refill (fun _ => default)
          [.deliver env7 (.enterFile .openat default), .deliver env7 (.exitFile .openat 3)])).events.records := by
  have hcomm : CommFilled
      [.deliver env7 (.enterFile .openat default), .deliver env7 (.exitFile .openat 3)] := by
    intro env hook hmem
    have henv : env = env7 := by simp at hmem; tauto
    rw [henv]
    decide
  exact ⟨hcomm, (line_unaffected allProbes hcomm _ _).1⟩

end ETraceGen
