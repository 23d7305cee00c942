import ETraceGen.Bpf.Records
import ETraceGen.Decoder

/-!
# The wire format

What the kernel submits and what the decoder accepts. The handlers' records name themselves, so each is
decoded from its bytes, its padding whatever the ring buffer slot held; and the decoder takes exactly the
spans that begin with such a record.
-/

namespace ETraceGen

open Bpf Decoder

/-- **Producer and decoder agree**: a submitted record is decoded from its bytes whatever follows them;
a span is decoded exactly if it holds a record of one of the families; and what is decoded is the bytes
that the header counts, and depends on no others. -/
theorem wire_agrees :
    (∀ (maps : ProbeMaps) (steps : List Step) (obj : EventObject) (suffix : Bytes),
      obj.event ∈ (run maps steps).events.records → decode (obj.image ++ suffix) = some obj) ∧
    (∀ data, (decode data).isSome ↔ ∃ t, Holds data t) ∧
    ∀ data obj, decode data = some obj →
      (header data).type = obj.event.type.code ∧ (header data).size = obj.event.type.size ∧
      obj.image = data.take (header data).size.toNat ∧
      ∀ data' : Bytes, data'.take (header data).size.toNat = data.take (header data).size.toNat →
        decode data' = some obj := by
  refine ⟨fun maps steps obj suffix h => ?_, decode_isSome_iff, fun data obj h => ?_⟩
  · obtain ⟨before, env, hook, after, -, hsource⟩ := mem_records h
    exact decode_image hsource.selfNamed suffix
  · obtain ⟨himage, htype⟩ := image_of_decode h
    obtain ⟨t, hholds, rfl⟩ := decode_eq_some_iff.mp h
    refine ⟨htype, ?_, himage, fun data' ht => decode_of_take_eq h ht⟩
    rw [hholds.size, copyOut_type]

/-- A fork that is reported, with other bytes behind its record. -/
theorem wire_agrees_fork :
    decode ((EventObject.process (processRecord env7 (.schedFork 8) .fork) (Vector.replicate 4 255)
        (Vector.replicate 4 1)).image ++ [1, 2, 3]) =
      some (.process (processRecord env7 (.schedFork 8) .fork) (Vector.replicate 4 255)
        (Vector.replicate 4 1)) :=
  wire_agrees.1 allProbes [.deliver env7 (.schedFork 8)] _ [1, 2, 3] (by
    rw [run, List.foldl_cons, List.foldl_nil, exec, handle_process_records allProbes env7 rfl]
    exact List.mem_singleton_self _)

end ETraceGen
