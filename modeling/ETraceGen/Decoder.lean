import ETraceGen.Lib.Layout
import ETraceGen.Schema

/-!
# The decoder

The records as objects in memory (`include/event_schema.h` under the 64-bit ABI of both sides), and
`Decoder::Decode` (`decoder/decoder.cpp`), which copies such an object out of the bytes it is handed
once the header says that it is one.

* `EventObject` : a record with its padding, and `image` its bytes;
* `decode_image` : an object whose header names it is decoded from its bytes, whatever follows;
* `decode_isSome_iff`, `image_of_decode` : what is accepted, and that it is the bytes that were there.
-/

namespace ETraceGen

open Layout

/-! ## Records in memory -/

/-- The bytes the alignment of the next member leaves unused. -/
abbrev Pad := CharBuf 4

def headerLayout : Layout (EventHeader × Pad) :=
  Layout.map
    (u64.pair <| u32.pair <| u32.pair <| u32.pair <| u32.pair <| u32.pair <| u32.pair <| u32.pair <|
      (bytes commLen).pair (bytes 4))
    { toFun := fun (tsNs, type, size, pid, tgid, ppid, uid, gid, comm, pad) =>
        ({ tsNs, type, size, pid, tgid, ppid, uid, gid, comm }, pad)
      invFun := fun (h, pad) =>
        (h.tsNs, h.type, h.size, h.pid, h.tgid, h.ppid, h.uid, h.gid, h.comm, pad)
      left_inv := fun _ => rfl
      right_inv := fun _ => rfl }

def processLayout : Layout (ProcessEvent × Pad × Pad) :=
  Layout.map
    (headerLayout.pair <| u32.pair <| u32.pair <| u32.pair <| (bytes pathLen).pair <|
      (bytes pathLen).pair <| (bytes pathLen).pair <| (bytes pathLen).pair <|
      (bytes commLen).pair <| (bytes 4).pair u64)
    { toFun := fun ((hdr, hdrPad), kind, exitCode, childPid, filename, execPath, cmdline, cwd,
          parentComm, pad, startTimeTicks) =>
        ({ hdr, kind, exitCode, childPid, filename, execPath, cmdline, cwd, parentComm,
           startTimeTicks }, hdrPad, pad)
      invFun := fun (ev, hdrPad, pad) =>
        ((ev.hdr, hdrPad), ev.kind, ev.exitCode, ev.childPid, ev.filename, ev.execPath, ev.cmdline,
          ev.cwd, ev.parentComm, pad, ev.startTimeTicks)
      left_inv := fun _ => rfl
      right_inv := fun _ => rfl }

def fileLayout : Layout (FileEvent × Pad × Pad) :=
  Layout.map
    (headerLayout.pair <| u32.pair <| i32.pair <| i32.pair <| i32.pair <| i32.pair <|
      (bytes pathLen).pair <| (bytes pathLen).pair (bytes 4))
    { toFun := fun ((hdr, hdrPad), kind, dfd, flags, mode, ret, pathA, pathB, pad) =>
        ({ hdr, kind, dfd, flags, mode, ret, pathA, pathB }, hdrPad, pad)
      invFun := fun (ev, hdrPad, pad) =>
        ((ev.hdr, hdrPad), ev.kind, ev.dfd, ev.flags, ev.mode, ev.ret, ev.pathA, ev.pathB, pad)
      left_inv := fun _ => rfl
      right_inv := fun _ => rfl }

def syscallLayout : Layout (SyscallEvent × Pad) :=
  Layout.map
    (headerLayout.pair <| u32.pair <| i32.pair <| i64.pair <| i64.pair <| i64.pair i64)
    { toFun := fun ((hdr, hdrPad), isEnter, syscallNr, arg0, arg1, arg2, ret) =>
        ({ hdr, isEnter, syscallNr, arg0, arg1, arg2, ret }, hdrPad)
      invFun := fun (ev, hdrPad) =>
        ((ev.hdr, hdrPad), ev.isEnter, ev.syscallNr, ev.arg0, ev.arg1, ev.arg2, ev.ret)
      left_inv := fun _ => rfl
      right_inv := fun _ => rfl }

def endpointLayout : Layout NetworkEndpoint :=
  Layout.map (u32.pair <| u32.pair <| u32.pair <| (bytes 16).pair (bytes unixPathLen))
    { toFun := fun (family, port, addrLen, addr, path) => { family, port, addrLen, addr, path }
      invFun := fun ep => (ep.family, ep.port, ep.addrLen, ep.addr, ep.path)
      left_inv := fun _ => rfl
      right_inv := fun _ => rfl }

def networkLayout : Layout (NetworkEvent × Pad × Pad) :=
  Layout.map
    (headerLayout.pair <| u32.pair <| i32.pair <| i32.pair <| i32.pair <| i32.pair <| i32.pair <|
      i32.pair <| i32.pair <| i32.pair <| i32.pair <| i32.pair <| i32.pair <| i32.pair <|
      (bytes 16).pair <| (bytes 4).pair <| u64.pair <| u64.pair <| u32.pair <| u32.pair <|
      u64.pair <| u64.pair <| u32.pair <| u32.pair <| endpointLayout.pair endpointLayout)
    { toFun := fun ((hdr, hdrPad), kind, fd, peerFd, ret, domain, sockType, protocol, flags, backlog,
          how, optLevel, optName, optLen, optvalPrefix, pad, flowId, socketId, direction, transport,
          bytesRequested, bytesTransferred, bytesCaptured, bytesTruncated, localEp, remoteEp) =>
        ({ hdr, kind, fd, peerFd, ret, domain, sockType, protocol, flags, backlog, how, optLevel,
           optName, optLen, optvalPrefix, flowId, socketId, direction, transport, bytesRequested,
           bytesTransferred, bytesCaptured, bytesTruncated, localEp, remoteEp }, hdrPad, pad)
      invFun := fun (ev, hdrPad, pad) =>
        ((ev.hdr, hdrPad), ev.kind, ev.fd, ev.peerFd, ev.ret, ev.domain, ev.sockType, ev.protocol,
          ev.flags, ev.backlog, ev.how, ev.optLevel, ev.optName, ev.optLen, ev.optvalPrefix, pad,
          ev.flowId, ev.socketId, ev.direction, ev.transport, ev.bytesRequested,
          ev.bytesTransferred, ev.bytesCaptured, ev.bytesTruncated, ev.localEp, ev.remoteEp)
      left_inv := fun _ => rfl
      right_inv := fun _ => rfl }

/-! The sizes are those the schema's assertions name. -/

example : headerLayout.size = sizeofEventHeader.toNat := rfl

theorem size_processLayout : processLayout.size = sizeofProcessEvent.toNat := rfl
theorem size_fileLayout : fileLayout.size = sizeofFileEvent.toNat := rfl
theorem size_syscallLayout : syscallLayout.size = sizeofSyscallEvent.toNat := rfl
theorem size_networkLayout : networkLayout.size = sizeofNetworkEvent.toNat := rfl

/-- A record as it lies in memory, the bytes between its members included. -/
inductive EventObject where
  | process (ev : ProcessEvent) (hdrPad pad : Pad)
  | file (ev : FileEvent) (hdrPad pad : Pad)
  | syscall (ev : SyscallEvent) (hdrPad : Pad)
  | network (ev : NetworkEvent) (hdrPad pad : Pad)

namespace EventObject

def event : EventObject → EventVariant
  | .process ev _ _ => .process ev
  | .file ev _ _ => .file ev
  | .syscall ev _ => .syscall ev
  | .network ev _ _ => .network ev

def image : EventObject → Bytes
  | .process ev hdrPad pad => processLayout.write (ev, hdrPad, pad)
  | .file ev hdrPad pad => fileLayout.write (ev, hdrPad, pad)
  | .syscall ev hdrPad => syscallLayout.write (ev, hdrPad)
  | .network ev hdrPad pad => networkLayout.write (ev, hdrPad, pad)

end EventObject

/-! ## Decoding -/

namespace Decoder

/-- `reinterpret_cast<const event_header*>(data.data())`. -/
def header (data : Bytes) : EventHeader := (headerLayout.read data).1

/-- `std::memcpy(&ev, data.data(), sizeof(ev))` into the structure of a family. -/
def copyOut (data : Bytes) : EventType → EventObject
  | .process => let (ev, hdrPad, pad) := processLayout.read data; .process ev hdrPad pad
  | .file => let (ev, hdrPad, pad) := fileLayout.read data; .file ev hdrPad pad
  | .syscall => let (ev, hdrPad) := syscallLayout.read data; .syscall ev hdrPad
  | .network => let (ev, hdrPad, pad) := networkLayout.read data; .network ev hdrPad pad

def decode (data : Bytes) : Option EventObject :=
  if data.length < sizeofEventHeader.toNat then none
  else
    let hdr := header data
    let wireSize := hdr.size
    if wireSize < sizeofEventHeader ∨ data.length < wireSize.toNat then none
    else if hdr.type = EventType.process.code ∧ wireSize = sizeofProcessEvent ∧
        sizeofProcessEvent.toNat ≤ data.length then
      some (copyOut data .process)
    else if hdr.type = EventType.file.code ∧ wireSize = sizeofFileEvent ∧
        sizeofFileEvent.toNat ≤ data.length then
      some (copyOut data .file)
    else if hdr.type = EventType.syscall.code ∧ wireSize = sizeofSyscallEvent ∧
        sizeofSyscallEvent.toNat ≤ data.length then
      some (copyOut data .syscall)
    else if hdr.type = EventType.network.code ∧ wireSize = sizeofNetworkEvent ∧
        sizeofNetworkEvent.toNat ≤ data.length then
      some (copyOut data .network)
    else none

/-! ## What is decoded -/

/-- The span begins with a record of the family: its header is there and names the family and the
family's size, and that many bytes are there. -/
structure Holds (data : Bytes) (t : EventType) : Prop where
  header : sizeofEventHeader.toNat ≤ data.length
  type : (Decoder.header data).type = t.code
  size : (Decoder.header data).size = t.size
  fits : (Decoder.header data).size.toNat ≤ data.length

theorem Holds.size_le {data : Bytes} {t : EventType} (h : Holds data t) :
    t.size.toNat ≤ data.length := by
  have hfits := h.fits
  rwa [h.size] at hfits

theorem decode_eq_some_iff {data : Bytes} {obj : EventObject} :
    decode data = some obj ↔ ∃ t, Holds data t ∧ obj = copyOut data t := by
  constructor
  · intro h
    unfold decode at h
    dsimp only at h
    split_ifs at h with hshort hsize hp hf hs hn
    all_goals
      obtain ⟨-, hfits⟩ := not_or.mp hsize
      rw [Nat.not_lt] at hshort hfits
    · exact ⟨.process, ⟨hshort, hp.1, hp.2.1, hfits⟩, (Option.some.inj h).symm⟩
    · exact ⟨.file, ⟨hshort, hf.1, hf.2.1, hfits⟩, (Option.some.inj h).symm⟩
    · exact ⟨.syscall, ⟨hshort, hs.1, hs.2.1, hfits⟩, (Option.some.inj h).symm⟩
    · exact ⟨.network, ⟨hshort, hn.1, hn.2.1, hfits⟩, (Option.some.inj h).symm⟩
  · rintro ⟨t, h, rfl⟩
    have hle := h.size_le
    have hbig : ¬(header data).size < sizeofEventHeader := by
      rw [h.size]
      cases t <;> decide
    -- the branches of the other families are not taken
    have hother : ∀ u : EventType, t.code ≠ u.code → ∀ p : Prop, ¬(t.code = u.code ∧ p) :=
      fun _ hne _ hc => hne hc.1
    unfold decode
    dsimp only
    rw [if_neg (Nat.not_lt.mpr h.header), if_neg (not_or.mpr ⟨hbig, Nat.not_lt.mpr h.fits⟩), h.type,
      h.size]
    cases t with
    | process => rw [if_pos ⟨rfl, rfl, hle⟩]
    | file => rw [if_neg (hother .process (by decide) _), if_pos ⟨rfl, rfl, hle⟩]
    | syscall =>
      rw [if_neg (hother .process (by decide) _), if_neg (hother .file (by decide) _),
        if_pos ⟨rfl, rfl, hle⟩]
    | network =>
      rw [if_neg (hother .process (by decide) _), if_neg (hother .file (by decide) _),
        if_neg (hother .syscall (by decide) _), if_pos ⟨rfl, rfl, hle⟩]

theorem decode_isSome_iff (data : Bytes) : (decode data).isSome ↔ ∃ t, Holds data t := by
  rw [Option.isSome_iff_exists]
  constructor
  · rintro ⟨obj, h⟩
    obtain ⟨t, hholds, -⟩ := decode_eq_some_iff.mp h
    exact ⟨t, hholds⟩
  · rintro ⟨t, h⟩
    exact ⟨_, decode_eq_some_iff.mpr ⟨t, h, rfl⟩⟩

/-- What is copied out is the bytes that were there. -/
theorem image_copyOut {data : Bytes} {t : EventType} (h : t.size.toNat ≤ data.length) :
    (copyOut data t).image = data.take t.size.toNat := by
  cases t with
  | process => exact processLayout.write_read data h
  | file => exact fileLayout.write_read data h
  | syscall => exact syscallLayout.write_read data h
  | network => exact networkLayout.write_read data h

theorem copyOut_type (data : Bytes) (t : EventType) :
    (copyOut data t).event.type = t := by
  cases t <;> rfl

theorem image_of_decode {data : Bytes} {obj : EventObject} (h : decode data = some obj) :
    obj.image = data.take (header data).size.toNat ∧ (header data).type = obj.event.type.code := by
  obtain ⟨t, hholds, rfl⟩ := decode_eq_some_iff.mp h
  rw [hholds.size, hholds.type, copyOut_type]
  exact ⟨image_copyOut hholds.size_le, rfl⟩

/-! ## Decoding an image -/

theorem header_image (obj : EventObject) (rest : Bytes) :
    header (obj.image ++ rest) = obj.event.hdr := by
  have hread : ∀ (hdr : EventHeader) (pad : Pad) (tail : Bytes),
      header (headerLayout.write (hdr, pad) ++ tail ++ rest) = hdr := by
    intro hdr pad tail
    rw [header, List.append_assoc, headerLayout.read_write]
  cases obj with
  | process ev hdrPad pad => exact hread ev.hdr hdrPad _
  | file ev hdrPad pad => exact hread ev.hdr hdrPad _
  | syscall ev hdrPad => exact hread ev.hdr hdrPad _
  | network ev hdrPad pad => exact hread ev.hdr hdrPad _

theorem length_image (obj : EventObject) : obj.image.length = obj.event.type.size.toNat := by
  cases obj with
  | process ev hdrPad pad => exact (processLayout.length_write _).trans size_processLayout
  | file ev hdrPad pad => exact (fileLayout.length_write _).trans size_fileLayout
  | syscall ev hdrPad => exact (syscallLayout.length_write _).trans size_syscallLayout
  | network ev hdrPad pad => exact (networkLayout.length_write _).trans size_networkLayout

theorem copyOut_image (obj : EventObject) (rest : Bytes) :
    copyOut (obj.image ++ rest) obj.event.type = obj := by
  unfold copyOut EventObject.event EventVariant.type EventObject.image
  cases obj with
  | process ev hdrPad pad => simp only [processLayout.read_write]
  | file ev hdrPad pad => simp only [fileLayout.read_write]
  | syscall ev hdrPad => simp only [syscallLayout.read_write]
  | network ev hdrPad pad => simp only [networkLayout.read_write]

theorem decode_image {obj : EventObject} (h : obj.event.SelfNamed) (rest : Bytes) :
    decode (obj.image ++ rest) = some obj := by
  have hlen : obj.event.type.size.toNat ≤ (obj.image ++ rest).length := by
    rw [List.length_append, length_image]
    omega
  have hbig : sizeofEventHeader.toNat ≤ obj.event.type.size.toNat := by
    cases obj.event.type <;> decide
  refine decode_eq_some_iff.mpr ⟨obj.event.type, ⟨hbig.trans hlen, ?_, ?_, ?_⟩, ?_⟩
  · rw [header_image]
    exact h.1
  · rw [header_image]
    exact h.2
  · rw [header_image, h.2]
    exact hlen
  · rw [copyOut_image]

/-- Bytes after the record never matter. -/
theorem decode_of_take_eq {data data' : Bytes} {obj : EventObject} (h : decode data = some obj)
    (ht : data'.take (header data).size.toNat = data.take (header data).size.toNat) :
    decode data' = some obj := by
  obtain ⟨himage, htype⟩ := image_of_decode h
  obtain ⟨t, hholds, rfl⟩ := decode_eq_some_iff.mp h
  have hsplit : ∀ bs : Bytes, bs.take (header data).size.toNat = (copyOut data t).image →
      bs = (copyOut data t).image ++ bs.drop (header data).size.toNat := by
    intro bs hbs
    rw [← hbs, List.take_append_drop]
  have hnamed : (copyOut data t).event.SelfNamed := by
    have hhdr := header_image (copyOut data t) (data.drop (header data).size.toNat)
    rw [← hsplit data himage.symm] at hhdr
    refine ⟨?_, ?_⟩
    · rw [← hhdr, htype]
    · rw [← hhdr, hholds.size, copyOut_type]
  rw [hsplit data' (ht.trans himage.symm)]
  exact decode_image hnamed _

end Decoder

end ETraceGen
