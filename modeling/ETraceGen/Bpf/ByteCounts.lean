import ETraceGen.Bpf.Mmsg
import ETraceGen.Bpf.ReturnedAddress

/-!
# The byte counts of a call that sends

An enter adds up what the caller offers and an exit keeps what the kernel took. Of a vector the enter adds
up the first `maxIovecEntries` entries, the kernel may take more.

* `totalLength`, `countedLength` : what a call offers, and what the enter makes of it;
* `byteCounts_iff` : the record says no more bytes were sent than asked for exactly if the first entries
  have room for them.
-/

namespace ETraceGen.Bpf

open Finset

/-- The calls that send one buffer, or one vector of them. -/
def sendsBytes : NetworkEventKind → Bool
  | .write | .writev | .sendto | .sendmsg => true
  | _ => false

def hasVector (kind : NetworkEventKind) : Bool := kind == .writev || kind == .sendmsg

namespace FinishedCall
variable (c : FinishedCall)

/-! ## What is offered -/

/-- The vector of the call: its argument, or what its message header says. -/
def iov : UInt64 := if c.kind = .writev then c.args.iov else msgIov c.env.mem c.args.msg

def iovcnt : Nat := (if c.kind = .writev then c.args.iovcnt else msgIovlen c.env.mem c.args.msg).toNat

/-- What the first `n` entries add up to. -/
def firstLengths (n : Nat) : Nat := ∑ j ∈ range (min c.iovcnt n), iovLen c.env.mem c.iov j

/-- All that the call offers: every entry of its vector, or its one buffer. -/
def totalLength : Nat := if hasVector c.kind then c.firstLengths c.iovcnt else c.args.len.toNat

/-- What is counted of it. -/
def countedLength : Nat :=
  if hasVector c.kind then c.firstLengths maxIovecEntries else c.args.len.toNat

/-- The message header, if there is one, and all entries of the vector can be read. Nothing is at address
0. -/
structure ReadableVector : Prop where
  header : c.kind = .sendmsg →
    c.args.msg ≠ 0 ∧ (c.env.mem.read c.args.msg sizeofMsghdrMin).isSome
  entries : hasVector c.kind = true → ∀ j < c.iovcnt,
    (c.env.mem.read (elemPtr c.iov j sizeofIovecMin) sizeofIovecMin).isSome

variable {c}

theorem firstLengths_mono {m n : Nat} (h : m ≤ n) : c.firstLengths m ≤ c.firstLengths n := by
  have hrange : range (min c.iovcnt m) ⊆ range (min c.iovcnt n) := range_mono (by omega)
  exact sum_le_sum_of_subset hrange

theorem firstLengths_of_le {n : Nat} (h : c.iovcnt ≤ n) : c.firstLengths n = c.firstLengths c.iovcnt := by
  rw [firstLengths, firstLengths, Nat.min_eq_left h, Nat.min_self]

theorem firstLengths_le (n : Nat) : c.firstLengths n ≤ c.firstLengths c.iovcnt := by
  rcases Nat.le_total n c.iovcnt with h | h
  · exact firstLengths_mono h
  · rw [firstLengths_of_le h]

theorem countedLength_le_totalLength : c.countedLength ≤ c.totalLength := by
  unfold countedLength totalLength
  split_ifs
  · exact firstLengths_le maxIovecEntries
  · exact Nat.le_refl _

/-- A vector that is not too long is counted whole. -/
theorem countedLength_eq_totalLength (h : hasVector c.kind = true → c.iovcnt ≤ maxIovecEntries) :
    c.countedLength = c.totalLength := by
  unfold countedLength totalLength
  split_ifs with hvector
  · exact firstLengths_of_le (h hvector)
  · rfl

/-! ## What the enter counts -/

/-- The header a handler reads names the vector at its offsets. -/
theorem msghdr_of_read {mem : UserMem} {msg : UInt64} {bs : Bytes}
    (h : mem.read msg sizeofMsghdrMin = some bs) :
    (MsghdrMin.ofBytes bs).msgIov = msgIov mem msg ∧
      (MsghdrMin.ofBytes bs).msgIovlen = msgIovlen mem msg := by
  have hiov := word64_of_read h (a := 16) (by decide)
  have hlen := word64_of_read h (a := 24) (by decide)
  exact ⟨hiov.symm, hlen.symm⟩

theorem fillMsghdr_bytesRequested (env : HookEnv) {msg : UInt64} {ev : NetworkEvent} (hmsg : msg ≠ 0)
    (hread : (env.mem.read msg sizeofMsghdrMin).isSome) :
    (fillMsghdr env msg ev).bytesRequested =
      sumIovecLengths env.mem (msgIov env.mem msg) (msgIovlen env.mem msg) := by
  obtain ⟨bs, hbs⟩ := Option.isSome_iff_exists.mp hread
  obtain ⟨hiov, hlen⟩ := msghdr_of_read hbs
  unfold fillMsghdr
  rw [if_neg hmsg, hbs]
  dsimp only
  rw [hiov, hlen]
  split_ifs <;> rfl

theorem payload_bytesRequested (hkind : sendsBytes c.kind = true) (h : c.ReadableVector) :
    (networkPayload c.env c.kind c.args).ev.bytesRequested =
      if hasVector c.kind then sumIovecLengths c.env.mem c.iov (UInt64.ofNat c.iovcnt) else c.args.len := by
  have hheader := h.header
  unfold iov iovcnt
  cases hc : c.kind <;> rw [hc] at hkind hheader <;> cases hkind
  · rfl
  · obtain ⟨hmsg, hread⟩ := hheader rfl
    have hother : ¬NetworkEventKind.sendmsg = .writev := by decide
    rw [if_pos (show hasVector .sendmsg = true from rfl), if_neg hother, if_neg hother, UInt64.ofNat_toNat]
    exact fillMsghdr_bytesRequested c.env hmsg hread
  · rfl
  · rw [if_pos rfl, if_pos rfl, UInt64.ofNat_toNat]
    rfl

theorem iovcnt_lt (c : FinishedCall) : c.iovcnt < UInt64.size := UInt64.toNat_lt _

theorem payload_requested_toNat (hkind : sendsBytes c.kind = true) (h : c.ReadableVector)
    (hsum : c.totalLength < 2 ^ 63) :
    (networkPayload c.env c.kind c.args).ev.bytesRequested.toNat = c.countedLength := by
  have hle := c.countedLength_le_totalLength
  rw [payload_bytesRequested hkind h]
  unfold countedLength at hle ⊢
  split_ifs at hle ⊢ with hvector
  · rw [sumIovecLengths_toNat, UInt64.toNat_ofNat_of_lt' c.iovcnt_lt]
    exact Nat.mod_eq_of_lt (by unfold firstLengths at hle; omega)
  · rfl

/-! ## What the exit keeps -/

theorem toNat_toUInt64_of_nonneg {ret : Int64} (h : 0 ≤ ret) : ret.toUInt64.toNat = ret.toInt.toNat := by
  have hnonneg : 0 ≤ ret.toInt := Int64.le_iff_toInt_le.mp h
  have hmsb : ret.toBitVec.msb = false := by
    rw [BitVec.msb_eq_toInt]
    exact decide_eq_false (not_lt.mpr hnonneg)
  show ret.toBitVec.toNat = ret.toBitVec.toInt.toNat
  rw [BitVec.toInt_eq_toNat_of_msb hmsb, Int.toNat_natCast]

theorem movedBytes_of_sends (hkind : sendsBytes c.kind = true) :
    movedBytes c.env' c.kind c.ret (networkPayload c.env c.kind c.args)
      (networkPayload c.env c.kind c.args).ev.bytesTransferred = c.ret.toUInt64 := by
  have hbytes : returnsBytes c.kind = true ∧ returnsMessages c.kind = false := by
    cases hc : c.kind <;> rw [hc] at hkind <;> first | exact ⟨rfl, rfl⟩ | cases hkind
  rw [movedBytes, hbytes.1, hbytes.2, if_neg (fun h => Bool.false_ne_true h.1), if_pos ⟨rfl, c.succeeded⟩]

/-- The byte counts of the record. -/
theorem emitted_byteCounts {out : NetworkEvent} (hout : c.Emits out) (hkind : sendsBytes c.kind = true)
    (h : c.ReadableVector) (hsum : c.totalLength < 2 ^ 63) :
    out.bytesTransferred.toNat = c.ret.toInt.toNat ∧ out.bytesRequested.toNat = c.countedLength := by
  obtain ⟨fd, peerFd, remoteEp, flowId, localEp, optLen, optvalPrefix, heq⟩ :=
    finishNetworkEvent_eq c.env' c.kind c.ret (networkPayload c.env c.kind c.args)
  rw [(c.emits_iff out).mp hout, heq]
  constructor
  · dsimp only
    rw [movedBytes_of_sends hkind, toNat_toUInt64_of_nonneg c.succeeded]
  · exact payload_requested_toNat hkind h hsum

end FinishedCall

/-- **The byte counts of a call that sends.** The record has the kernel's result for the bytes transferred
and the first entries of the vector for those requested, so that it has no more transferred than requested
exactly if the result is at most what these entries add up to, and always with no more than that many. -/
theorem byteCounts_iff (c : FinishedCall) (hkind : sendsBytes c.kind = true) (hread : c.ReadableVector)
    (hsum : c.totalLength < 2 ^ 63) (hkernel : c.ret.toInt.toNat ≤ c.totalLength) {out : NetworkEvent}
    (hout : c.Emits out) :
    out.bytesTransferred.toNat = c.ret.toInt.toNat ∧
      out.bytesRequested.toNat = c.countedLength ∧
      (out.bytesTransferred ≤ out.bytesRequested ↔ c.ret.toInt.toNat ≤ c.countedLength) ∧
      ((hasVector c.kind = true → c.iovcnt ≤ maxIovecEntries) →
        out.bytesTransferred ≤ out.bytesRequested) := by
  obtain ⟨htransferred, hrequested⟩ := FinishedCall.emitted_byteCounts hout hkind hread hsum
  have hiff : out.bytesTransferred ≤ out.bytesRequested ↔ c.ret.toInt.toNat ≤ c.countedLength := by
    rw [UInt64.le_iff_toNat_le, htransferred, hrequested]
  refine ⟨htransferred, hrequested, hiff, fun hfew => hiff.mpr ?_⟩
  rw [FinishedCall.countedLength_eq_totalLength hfew]
  exact hkernel

/-! ### Nine entries of one byte -/

/-- Entries of length 1 at 0x2000. -/
def unitVector : UserMem := fun ptr =>
  if 0x2000 ≤ ptr ∧ ptr < 0x2090 then some (if ptr &&& 15 = 8 then 1 else 0) else none

def vectorEnv : HookEnv := { env7 with mem := unitVector }

/-- `writev` of the first `n` of them on a tracked socket. -/
def vectorArgs (n : UInt64) : SyscallArgs := .of 3 0x2000 n 0 0 0

def vectorCall (n : UInt64) (ret : Int64) (hret : 0 ≤ ret) : FinishedCall where
  maps := allProbes
  before := socketThree
  env := vectorEnv
  kind := .writev
  args := vectorArgs n
  mid := []
  env' := vectorEnv
  ret := ret
  completed :=
    { entered := by
        show networkEnterGate allProbes vectorEnv .writev (vectorArgs 0) (run allProbes socketThree) = true
        decide
      helpers := ⟨rfl, rfl, rfl⟩
      vacant := by decide
      untouched := fun _ h => nomatch h
      same_task := rfl
      reserved := rfl }
  succeeded := hret

theorem vectorCall_readable {n : UInt64} (hn : n.toNat ≤ 9) (ret : Int64) (hret : 0 ≤ ret) :
    (vectorCall n ret hret).ReadableVector where
  header := fun h => nomatch h
  entries := by
    have hnine : ∀ j < 9, (unitVector.read (elemPtr 0x2000 j sizeofIovecMin) sizeofIovecMin).isSome := by decide
    intro _ j hj
    exact hnine j (Nat.lt_of_lt_of_le hj hn)

/-- Eight of them are sent. -/
def eightSent : FinishedCall := vectorCall 8 8 (by decide)

theorem byteCounts_iff_eightSent : ∃ out, eightSent.Emits out ∧
    out.bytesTransferred.toNat = 8 ∧ out.bytesRequested.toNat = 8 ∧
      out.bytesTransferred ≤ out.bytesRequested := by
  obtain ⟨out, hout⟩ := eightSent.exists_emits
  have hcounts := byteCounts_iff eightSent rfl (vectorCall_readable (by decide) _ _) (by decide) (by decide) hout
  exact ⟨out, hout, hcounts.1, hcounts.2.1.trans (by decide), hcounts.2.2.2 fun _ => by decide⟩

/-- All nine are sent. -/
def nineSent : FinishedCall := vectorCall 9 9 (by decide)

theorem nineSent_lengths : nineSent.totalLength = 9 ∧ nineSent.countedLength = 8 := by decide

/-- The record of the nine says that eight were asked for. -/
theorem not_byteCounts :
    ¬ ∀ c : FinishedCall, sendsBytes c.kind = true → c.ReadableVector → c.totalLength < 2 ^ 63 →
      c.ret.toInt.toNat ≤ c.totalLength → ∀ out, c.Emits out →
        out.bytesTransferred.toNat = c.ret.toInt.toNat ∧ out.bytesTransferred ≤ out.bytesRequested := by
  intro h
  obtain ⟨out, hout⟩ := nineSent.exists_emits
  have hread : nineSent.ReadableVector := vectorCall_readable (by decide) _ _
  have hle := (h nineSent rfl hread (by decide) (by decide) out hout).2
  obtain ⟨htransferred, hrequested⟩ := FinishedCall.emitted_byteCounts hout rfl hread (by decide)
  rw [UInt64.le_iff_toNat_le, htransferred, hrequested, nineSent_lengths.2] at hle
  exact absurd hle (by decide)

end ETraceGen.Bpf
