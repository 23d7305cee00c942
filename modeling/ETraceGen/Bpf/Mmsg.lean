import ETraceGen.Bpf.Reads
import ETraceGen.Bpf.Records
import Mathlib.Algebra.BigOperators.Intervals
import Mathlib.Algebra.Order.BigOperators.Group.Finset

/-!
# The message vectors of `sendmmsg` and `recvmmsg`

The two message sums walk the user's array with the stride and the offsets of `struct mmsghdr_min`, 40
bytes with the length word at 32, where Linux has 64 bytes with the length word at 56. The sums are
computed exactly (`sumMmsghdrLengths_toNat`, `sumMmsghdrTransfers_toNat`), and a record is right exactly
if the words at the two layouts add up to the same (`mmsgBytes_iff`).
-/

namespace ETraceGen.Bpf

open Finset

/-! ## The layouts -/

section Layouts
variable (mem : UserMem)

/-- The 64-bit word at an address, 0 where it cannot be read. -/
def word64 (ptr : UInt64) : UInt64 := ((mem.read ptr 8).map leU64).getD 0

def word32 (ptr : UInt64) : UInt32 := (mem.readU32 ptr).getD 0

/-- `iov_len` of the iovec at index `j`, 0 where the iovec cannot be read. -/
def iovLen (iov : UInt64) (j : Nat) : Nat :=
  ((mem.read (elemPtr iov j sizeofIovecMin) sizeofIovecMin).map
    fun item => (leU64 (item.drop 8)).toNat).getD 0

/-- `msg_iov` and `msg_iovlen` of a message header, at the offsets both layouts have. -/
def msgIov (hdr : UInt64) : UInt64 := word64 mem (hdr + 16)
def msgIovlen (hdr : UInt64) : UInt64 := word64 mem (hdr + 24)

/-- What the iovecs of a message header add up to, at most 8 of them. -/
def msgLengths (hdr : UInt64) : Nat :=
  ∑ j ∈ range (min (msgIovlen mem hdr).toNat maxIovecEntries), iovLen mem (msgIov mem hdr) j

/-- What the first `n` messages of an array add up to, for headers `stride` bytes apart. -/
def lengthsAt (stride : Nat) (msgs : UInt64) (n : Nat) : Nat :=
  ∑ i ∈ range n, msgLengths mem (elemPtr msgs i stride)

/-- What the 32-bit words at the same offset in the first `n` messages add up to. -/
def wordsAt (stride offset : Nat) (msgs : UInt64) (n : Nat) : Nat :=
  ∑ i ∈ range n, (word32 mem (elemPtr msgs i stride + UInt64.ofNat offset)).toNat

/-- `struct mmsghdr` of 64-bit Linux: `msg_len` is at 56, and the next message 64 bytes on. -/
def sizeofMmsghdr : Nat := 64
def offsetofMsgLen : Nat := 56

/-- What the first `n` messages of the array `msgs` ask for: every `iov_len` of every message. -/
def requestedBytes (msgs : UInt64) (n : Nat) : Nat :=
  ∑ i ∈ range n, ∑ j ∈ range (msgIovlen mem (elemPtr msgs i sizeofMmsghdr)).toNat,
    iovLen mem (msgIov mem (elemPtr msgs i sizeofMmsghdr)) j

/-- What the first `n` messages of the array `msgs` have moved: their `msg_len`. -/
def transferredBytes (msgs : UInt64) (n : Nat) : Nat :=
  wordsAt mem sizeofMmsghdr offsetofMsgLen msgs n

theorem lengthsAt_sizeofMmsghdr {msgs : UInt64} {n : Nat}
    (h : ∀ i < n, (msgIovlen mem (elemPtr msgs i sizeofMmsghdr)).toNat ≤ maxIovecEntries) :
    lengthsAt mem sizeofMmsghdr msgs n = requestedBytes mem msgs n := by
  refine Finset.sum_congr rfl fun i hi => ?_
  rw [msgLengths, Nat.min_eq_left (h i (Finset.mem_range.mp hi))]

end Layouts

/-! ## The sums the handlers compute -/

/-- A bounded loop from `i`, seen from its first step. -/
theorem sum_Ico_step (f : Nat → Nat) {i count left : Nat} (h : i < count) :
    ∑ k ∈ Ico i (min count (i + (left + 1))), f k =
      f i + ∑ k ∈ Ico (i + 1) (min count (i + 1 + left)), f k := by
  rw [Finset.sum_eq_sum_Ico_succ_bot (by omega), show i + (left + 1) = i + 1 + left by omega]

section Sums
variable (mem : UserMem)

theorem sumIovecFrom_toNat (iov count : UInt64) (left i : Nat) (total : UInt64) :
    (sumIovecFrom mem iov count left i total).toNat =
      (total.toNat + ∑ j ∈ Ico i (min count.toNat (i + left)), iovLen mem iov j) % 2 ^ 64 := by
  induction left generalizing i total with
  | zero =>
    have hempty : Ico i (min count.toNat (i + 0)) = ∅ := Finset.Ico_eq_empty (by omega)
    rw [sumIovecFrom, hempty, Finset.sum_empty, Nat.add_zero, Nat.mod_eq_of_lt total.toNat_lt]
  | succ left ih =>
    rw [sumIovecFrom]
    split_ifs with hdone
    · have hempty : Ico i (min count.toNat (i + (left + 1))) = ∅ := Finset.Ico_eq_empty (by omega)
      rw [hempty, Finset.sum_empty, Nat.add_zero, Nat.mod_eq_of_lt total.toNat_lt]
    · rw [sum_Ico_step _ (Nat.not_le.mp hdone)]
      cases hread : mem.read (elemPtr iov i sizeofIovecMin) sizeofIovecMin with
      | none =>
        have hlen : iovLen mem iov i = 0 := by rw [iovLen, hread]; rfl
        dsimp only
        rw [ih, hlen, Nat.zero_add]
      | some item =>
        have hlen : iovLen mem iov i = (leU64 (item.drop 8)).toNat := by rw [iovLen, hread]; rfl
        dsimp only
        rw [ih, hlen, UInt64.toNat_add, Nat.mod_add_mod, Nat.add_assoc]

theorem sumIovecLengths_toNat (iov count : UInt64) :
    (sumIovecLengths mem iov count).toNat =
      (∑ j ∈ range (min count.toNat maxIovecEntries), iovLen mem iov j) % 2 ^ 64 := by
  rw [sumIovecLengths, sumIovecFrom_toNat, Nat.zero_add, ← Finset.range_eq_Ico]
  simp

/-- What one message of an array adds in the loop the two sums share. -/
theorem sumMmsghdrFrom_toNat (f : Bytes → UInt64) (msgs : UInt64) (count : UInt32) (left i : Nat)
    (total : UInt64) :
    (sumMmsghdrFrom mem f msgs count left i total).toNat =
      (total.toNat + ∑ k ∈ Ico i (min count.toNat (i + left)),
        ((mem.read (elemPtr msgs k sizeofMmsghdrMin) sizeofMmsghdrMin).map
          fun item => (f item).toNat).getD 0) % 2 ^ 64 := by
  induction left generalizing i total with
  | zero =>
    have hempty : Ico i (min count.toNat (i + 0)) = ∅ := Finset.Ico_eq_empty (by omega)
    rw [sumMmsghdrFrom, hempty, Finset.sum_empty, Nat.add_zero, Nat.mod_eq_of_lt total.toNat_lt]
  | succ left ih =>
    rw [sumMmsghdrFrom]
    split_ifs with hdone
    · have hempty : Ico i (min count.toNat (i + (left + 1))) = ∅ := Finset.Ico_eq_empty (by omega)
      rw [hempty, Finset.sum_empty, Nat.add_zero, Nat.mod_eq_of_lt total.toNat_lt]
    · rw [sum_Ico_step _ (Nat.not_le.mp hdone)]
      cases hread : mem.read (elemPtr msgs i sizeofMmsghdrMin) sizeofMmsghdrMin with
      | none =>
        dsimp only
        rw [ih]
        simp
      | some item =>
        dsimp only
        rw [ih, UInt64.toNat_add, Nat.mod_add_mod, Nat.add_assoc]
        rfl

/-- The bytes of an array of `n` Linux message headers can be read. -/
def ReadableArray (msgs : UInt64) (n : Nat) : Prop :=
  ∀ k < sizeofMmsghdr * n, (mem (msgs + UInt64.ofNat k)).isSome

variable {mem} {msgs : UInt64} {n : Nat}

/-- The smaller structures that the loops walk lie within the array. -/
theorem ReadableArray.read_min (h : ReadableArray mem msgs n) {i : Nat} (hi : i < n) :
    ∃ item, mem.read (elemPtr msgs i sizeofMmsghdrMin) sizeofMmsghdrMin = some item := by
  refine UserMem.read_of_isSome fun k hk => ?_
  have hwithin := h (i * sizeofMmsghdrMin + k) (by
    unfold sizeofMmsghdr sizeofMmsghdrMin at *
    omega)
  rwa [UInt64.ofNat_add, ← UInt64.add_assoc] at hwithin

theorem leU64_take (bs : Bytes) : leU64 (bs.take 8) = leU64 bs := by
  rw [leU64, List.take_take, leU64]
  rfl

theorem leU32_take (bs : Bytes) : leU32 (bs.take 4) = leU32 bs := by
  rw [leU32, List.take_take, leU32]
  rfl

theorem word64_of_read {ptr : UInt64} {n : Nat} {item : Bytes} (h : mem.read ptr n = some item)
    {a : Nat} (ha : a + 8 ≤ n) : word64 mem (ptr + UInt64.ofNat a) = leU64 (item.drop a) := by
  rw [word64, UserMem.read_slice h a 8 ha, Option.map_some, Option.getD_some, leU64_take]

theorem word32_of_read {ptr : UInt64} {n : Nat} {item : Bytes} (h : mem.read ptr n = some item)
    {a : Nat} (ha : a + 4 ≤ n) : word32 mem (ptr + UInt64.ofNat a) = leU32 (item.drop a) := by
  rw [word32, UserMem.readU32, UserMem.read_slice h a 4 ha, Option.map_some, Option.getD_some,
    leU32_take]

/-- The sum of all lengths, of the messages where the code looks for them. -/
theorem sumMmsghdrLengths_toNat {count : UInt32} (h : ReadableArray mem msgs count.toNat)
    (hcount : count.toNat ≤ maxMmsghdrEntries) :
    (sumMmsghdrLengths mem msgs count).toNat =
      lengthsAt mem sizeofMmsghdrMin msgs count.toNat % 2 ^ 64 := by
  rw [sumMmsghdrLengths, sumMmsghdrFrom_toNat, Nat.zero_add, Nat.min_eq_left hcount,
    ← Finset.range_eq_Ico, lengthsAt, UInt64.toNat_zero, Nat.zero_add, Finset.sum_nat_mod,
    Finset.sum_nat_mod (range count.toNat) _ fun i => msgLengths _ _]
  congr 1
  refine Finset.sum_congr rfl fun i hi => ?_
  obtain ⟨item, hitem⟩ := h.read_min (Finset.mem_range.mp hi)
  have hiov := word64_of_read hitem (a := 16) (by decide)
  have hlen := word64_of_read hitem (a := 24) (by decide)
  rw [hitem, Option.map_some, Option.getD_some, sumIovecLengths_toNat, Nat.mod_mod, msgLengths,
    msgIovlen, msgIov]
  rw [show (UInt64.ofNat 16) = 16 from rfl] at hiov
  rw [show (UInt64.ofNat 24) = 24 from rfl] at hlen
  rw [hiov, hlen]
  rfl

/-- The sum of the words the code takes for `msg_len`. -/
theorem sumMmsghdrTransfers_toNat {count : UInt32} (h : ReadableArray mem msgs count.toNat)
    (hcount : count.toNat ≤ maxMmsghdrEntries) :
    (sumMmsghdrTransfers mem msgs count).toNat =
      wordsAt mem sizeofMmsghdrMin sizeofMsghdrMin msgs count.toNat % 2 ^ 64 := by
  rw [sumMmsghdrTransfers, sumMmsghdrFrom_toNat, Nat.zero_add, Nat.min_eq_left hcount,
    ← Finset.range_eq_Ico, wordsAt, UInt64.toNat_zero, Nat.zero_add]
  congr 1
  refine Finset.sum_congr rfl fun i hi => ?_
  obtain ⟨item, hitem⟩ := h.read_min (Finset.mem_range.mp hi)
  rw [hitem, Option.map_some, Option.getD_some, word32_of_read hitem (a := sizeofMsghdrMin) (by decide),
    UInt32.toNat_toUInt64]

end Sums

/-! ## The record of a call -/

/-- The words found 40 bytes apart add up to what those found 64 bytes apart do: the lengths of the
`vlen` messages, and the words at 32 of all of them to the words at 56 of the first `n`. The exit does not
look at an array at address 0. -/
structure LayoutsAgree (mem mem' : UserMem) (msgs : UInt64) (vlen n : Nat) : Prop where
  lengths : lengthsAt mem sizeofMmsghdrMin msgs vlen % 2 ^ 64 =
    lengthsAt mem sizeofMmsghdr msgs vlen % 2 ^ 64
  words : (if msgs = 0 then 0 else wordsAt mem' sizeofMmsghdrMin sizeofMsghdrMin msgs vlen) =
    wordsAt mem' sizeofMmsghdr offsetofMsgLen msgs n

/-- The byte counts of a call on an array of `vlen` messages, of which the first `n` were moved. The array
is read at the enter and again at the exit. -/
structure CountsBytes (out : NetworkEvent) (mem mem' : UserMem) (msgs : UInt64) (vlen n : Nat) :
    Prop where
  requested : out.bytesRequested.toNat = requestedBytes mem msgs vlen % 2 ^ 64
  transferred : out.bytesTransferred.toNat = transferredBytes mem' msgs n

theorem wordsAt_lt (mem : UserMem) (stride offset : Nat) (msgs : UInt64) {n : Nat}
    (hn : n ≤ maxMmsghdrEntries) : wordsAt mem stride offset msgs n < 2 ^ 64 := by
  have hle : wordsAt mem stride offset msgs n ≤ ∑ _i ∈ range n, 2 ^ 32 :=
    Finset.sum_le_sum fun i _ => Nat.le_of_lt (UInt32.toNat_lt _)
  rw [Finset.sum_const, Finset.card_range, nsmul_eq_mul] at hle
  have hle : wordsAt mem stride offset msgs n ≤ n * 2 ^ 32 := hle
  unfold maxMmsghdrEntries at hn
  omega

section Record
variable {env env' : HookEnv} {kind : NetworkEventKind} {args : SyscallArgs} {ret : Int64}

/-- What `sendmmsg` and `recvmmsg` save at their enter of the byte counts and the array. -/
theorem networkPayload_mmsg (env : HookEnv) (args : SyscallArgs)
    (hkind : returnsMessages kind = true) :
    (networkPayload env kind args).ev.bytesRequested =
        sumMmsghdrLengths env.mem args.msgs args.vlen.toUInt32 ∧
      (networkPayload env kind args).ev.bytesTransferred = 0 ∧
      (networkPayload env kind args).mmsgPtr = args.msgs ∧
      (networkPayload env kind args).mmsgCount = args.vlen := by
  cases kind <;> first | exact ⟨rfl, rfl, rfl, rfl⟩ | cases hkind

theorem movedBytes_mmsg (env : HookEnv) (hkind : returnsMessages kind = true) (hret : 0 ≤ ret)
    (hvlen : args.vlen.toUInt32.toNat ≤ maxMmsghdrEntries)
    (hmem : ReadableArray env'.mem args.msgs args.vlen.toUInt32.toNat) :
    (movedBytes env' kind ret (networkPayload env kind args) 0).toNat =
      if args.msgs = 0 then 0
      else wordsAt env'.mem sizeofMmsghdrMin sizeofMsghdrMin args.msgs args.vlen.toUInt32.toNat := by
  obtain ⟨-, -, hmsgs, hmmsgs⟩ := networkPayload_mmsg env args hkind
  have hbytes : returnsBytes kind = false := by
    cases kind <;> first | rfl | cases hkind
  rw [movedBytes, hmsgs, hmmsgs, hbytes]
  by_cases hptr : args.msgs = 0
  · simp [hptr]
  · rw [if_neg hptr]
    by_cases hcount : args.vlen = 0
    · have hnone : args.vlen.toUInt32.toNat = 0 := by rw [hcount]; rfl
      rw [hnone]
      simp [hcount, wordsAt]
    · rw [if_pos ⟨hkind, hret, hptr, hcount⟩, sumMmsghdrTransfers_toNat hmem hvlen,
        Nat.mod_eq_of_lt (wordsAt_lt _ _ _ _ hvlen)]

theorem countsBytes_iff (hkind : returnsMessages kind = true) (hret : 0 ≤ ret)
    (hvlen : args.vlen.toUInt32.toNat ≤ maxMmsghdrEntries)
    (hmem : ReadableArray env.mem args.msgs args.vlen.toUInt32.toNat)
    (hmem' : ReadableArray env'.mem args.msgs args.vlen.toUInt32.toNat)
    (hiov : ∀ i < args.vlen.toUInt32.toNat,
      (msgIovlen env.mem (elemPtr args.msgs i sizeofMmsghdr)).toNat ≤ maxIovecEntries) (n : Nat) :
    CountsBytes (finishNetworkEvent env' kind ret (networkPayload env kind args)) env.mem env'.mem
        args.msgs args.vlen.toUInt32.toNat n ↔
      LayoutsAgree env.mem env'.mem args.msgs args.vlen.toUInt32.toNat n := by
  obtain ⟨hrequested, hzero, -, -⟩ := networkPayload_mmsg env args hkind
  obtain ⟨fd, peerFd, remoteEp, flowId, localEp, optLen, optvalPrefix, heq⟩ :=
    finishNetworkEvent_eq env' kind ret (networkPayload env kind args)
  have hlengths := sumMmsghdrLengths_toNat hmem hvlen
  have hwords := movedBytes_mmsg env hkind hret hvlen hmem'
  constructor
  · rintro ⟨hreq, htrans⟩
    rw [heq] at hreq htrans
    dsimp only at hreq htrans
    rw [hrequested, hlengths] at hreq
    rw [hzero, hwords] at htrans
    exact ⟨by rw [hreq, lengthsAt_sizeofMmsghdr _ hiov], htrans⟩
  · rintro ⟨hreq, htrans⟩
    rw [heq]
    refine ⟨?_, ?_⟩
    · dsimp only
      rw [hrequested, hlengths, hreq, lengthsAt_sizeofMmsghdr _ hiov]
    · dsimp only
      rw [hzero, hwords, htrans]
      rfl

/-- **The byte counts of `sendmmsg` and `recvmmsg`.** A call on a readable array of at most 8 messages with
at most 8 iovecs each is counted right exactly if the two layouts agree on the array. -/
theorem mmsgBytes_iff {maps : ProbeMaps} {before mid : List Step}
    (hcall : CompletedCall maps before env kind args mid env') (hkind : returnsMessages kind = true)
    (hret : 0 ≤ ret) (hvlen : args.vlen.toUInt32.toNat ≤ maxMmsghdrEntries)
    (hmem : ReadableArray env.mem args.msgs args.vlen.toUInt32.toNat)
    (hmem' : ReadableArray env'.mem args.msgs args.vlen.toUInt32.toNat)
    (hiov : ∀ i < args.vlen.toUInt32.toNat,
      (msgIovlen env.mem (elemPtr args.msgs i sizeofMmsghdr)).toNat ≤ maxIovecEntries) :
    (∃ out, (run maps (before ++ .deliver env (.enterNetwork kind args) :: mid ++
        [.deliver env' (.exitNetwork kind ret)])).events.records =
          (run maps (before ++ .deliver env (.enterNetwork kind args) :: mid)).events.records ++
            [.network out] ∧
        CountsBytes out env.mem env'.mem args.msgs args.vlen.toUInt32.toNat ret.toInt.toNat) ↔
      LayoutsAgree env.mem env'.mem args.msgs args.vlen.toUInt32.toNat ret.toInt.toNat := by
  rw [← countsBytes_iff hkind hret hvlen hmem hmem' hiov]
  exact hcall.exists_record_iff ret fun out =>
    CountsBytes out env.mem env'.mem args.msgs args.vlen.toUInt32.toNat ret.toInt.toNat

end Record

/-- One message with one iovec of 5 bytes, the given `msg_control` and the given `msg_len`. -/
def oneMessage (msgLen : UInt8) (msgControl : UInt8 := 0) : UserMem := fun ptr =>
  if 0x1000 ≤ ptr ∧ ptr < 0x1040 then
    some (if ptr = 0x1011 then 0x20 else if ptr = 0x1018 then 1 else if ptr = 0x1020 then msgControl
      else if ptr = 0x1038 then msgLen else 0)
  else if 0x2000 ≤ ptr ∧ ptr < 0x2010 then some (if ptr = 0x2008 then 5 else 0)
  else none

def mmsgArgs : SyscallArgs := .of 3 0x1000 1 0 0 0

def mmsgEnv (msgLen : UInt8) (msgControl : UInt8 := 0) : HookEnv := { env7 with mem := oneMessage msgLen msgControl }

def socketThree : List Step :=
  [.deliver env7 (.enterNetwork .socket (.of 2 1 0 0 0 0)), .deliver env7 (.exitNetwork .socket 3)]

theorem completedCall_mmsg (msgLen msgControl : UInt8) :
    CompletedCall allProbes socketThree (mmsgEnv 0 msgControl) .recvmmsg mmsgArgs [] (mmsgEnv msgLen msgControl) where
  entered := by
    show networkEnterGate allProbes env7 .recvmmsg mmsgArgs (run allProbes socketThree) = true
    decide
  helpers := ⟨rfl, rfl, rfl⟩
  vacant := by
    show (run allProbes socketThree).networkEnterState.lookup (makeNetworkKey env7 .recvmmsg) = none
    decide
  untouched := fun _ h => nomatch h
  same_task := rfl
  reserved := rfl

theorem readableArray_oneMessage (msgLen msgControl : UInt8) :
    ReadableArray (oneMessage msgLen msgControl) mmsgArgs.msgs mmsgArgs.vlen.toUInt32.toNat := by
  have hall : ∀ k < sizeofMmsghdr * mmsgArgs.vlen.toUInt32.toNat,
      (0x1000 : UInt64) ≤ mmsgArgs.msgs + UInt64.ofNat k ∧ mmsgArgs.msgs + UInt64.ofNat k < 0x1040 := by decide
  intro k hk
  rw [oneMessage, if_pos (hall k hk)]
  rfl

theorem msgIovlen_oneMessage : ∀ i < mmsgArgs.vlen.toUInt32.toNat,
    (msgIovlen (oneMessage 0) (elemPtr mmsgArgs.msgs i sizeofMmsghdr)).toNat ≤ maxIovecEntries := by
  decide

/-- A datagram of 5 bytes is received, and the word at 32 happens to be 5 as well. -/
theorem mmsgBytes_iff_five :
    (∃ out, (run allProbes (socketThree ++ .deliver (mmsgEnv 0 5) (.enterNetwork .recvmmsg mmsgArgs) :: [] ++
        [.deliver (mmsgEnv 5 5) (.exitNetwork .recvmmsg 1)])).events.records =
          (run allProbes (socketThree ++
            .deliver (mmsgEnv 0 5) (.enterNetwork .recvmmsg mmsgArgs) :: [])).events.records ++
              [.network out] ∧
        CountsBytes out (oneMessage 0 5) (oneMessage 5 5) 0x1000 1 1) ∧
      transferredBytes (oneMessage 5 5) 0x1000 1 = 5 :=
  ⟨(mmsgBytes_iff (completedCall_mmsg 5 5) rfl (by decide) (by decide) (readableArray_oneMessage 0 5)
    (readableArray_oneMessage 5 5) (by decide)).mpr ⟨by decide, by decide⟩, by decide⟩

theorem not_countsBytes_five :
    ¬CountsBytes (finishNetworkEvent (mmsgEnv 5) .recvmmsg 1
      (networkPayload (mmsgEnv 0) .recvmmsg mmsgArgs)) (oneMessage 0) (oneMessage 5) 0x1000 1 1 := by
  intro h
  have hagree : LayoutsAgree (mmsgEnv 0).mem (mmsgEnv 5).mem mmsgArgs.msgs mmsgArgs.vlen.toUInt32.toNat 1 :=
    (@countsBytes_iff (mmsgEnv 0) (mmsgEnv 5) .recvmmsg mmsgArgs 1 rfl (by decide) (by decide)
      (readableArray_oneMessage 0 0) (readableArray_oneMessage 5 0) msgIovlen_oneMessage 1).mp h
  exact absurd hagree.words (by decide)

/-- A datagram of 5 bytes is received, and the record says that none were. -/
theorem not_mmsgBytes :
    ¬ ∀ (maps : ProbeMaps) (before : List Step) (env : HookEnv) (kind : NetworkEventKind)
      (args : SyscallArgs) (mid : List Step) (env' : HookEnv) (ret : Int64),
      CompletedCall maps before env kind args mid env' → returnsMessages kind = true →
      0 ≤ ret → ret.toInt ≤ args.vlen.toUInt32.toNat → args.vlen.toUInt32.toNat ≤ maxMmsghdrEntries →
      ReadableArray env.mem args.msgs args.vlen.toUInt32.toNat →
      ReadableArray env'.mem args.msgs args.vlen.toUInt32.toNat →
      (∀ i < args.vlen.toUInt32.toNat,
        (msgIovlen env.mem (elemPtr args.msgs i sizeofMmsghdr)).toNat ≤ maxIovecEntries) →
      ∃ out, (run maps (before ++ .deliver env (.enterNetwork kind args) :: mid ++
          [.deliver env' (.exitNetwork kind ret)])).events.records =
            (run maps (before ++ .deliver env (.enterNetwork kind args) :: mid)).events.records ++
              [.network out] ∧
          CountsBytes out env.mem env'.mem args.msgs args.vlen.toUInt32.toNat ret.toInt.toNat := by
  intro h
  have hcall := completedCall_mmsg 5 0
  have hrecord := h _ _ _ _ _ _ _ 1 hcall rfl (by decide) (by decide) (by decide)
    (readableArray_oneMessage 0 0) (readableArray_oneMessage 5 0) msgIovlen_oneMessage
  rw [hcall.exists_record_iff 1 fun out => CountsBytes out (mmsgEnv 0).mem (mmsgEnv 5).mem
    mmsgArgs.msgs mmsgArgs.vlen.toUInt32.toNat (Int64.toInt 1).toNat] at hrecord
  exact not_countsBytes_five hrecord

end ETraceGen.Bpf
