import ETraceGen.Bpf.Finish
import ETraceGen.Bpf.Sockaddr
import ETraceGen.Lib.Layout

/-!
# Addresses the kernel returns

The exits of `accept`, `accept4`, `recvfrom`, `getsockname` and `getpeername` parse the caller's buffer for as
long as the returned length word says, and the kernel has written no more of it than the capacity the caller
gave at enter.

* `FinishedCall` : a call whose record is emitted;
* `FinishedCall.shows_address` : the record shows the address in the caller's buffer;
* `addressAt_of_parsed` : an address whose parsed bytes are among the first of the buffer;
* `returnedAddress_iff` : the record depends on the written bytes alone exactly if no others are parsed.
-/

namespace ETraceGen.Bpf

/-! ## Calls that leave a record -/

structure FinishedCall where
  maps : ProbeMaps
  before : List Step
  env : HookEnv
  kind : NetworkEventKind
  args : SyscallArgs
  mid : List Step
  env' : HookEnv
  ret : Int64
  completed : CompletedCall maps before env kind args mid env'
  succeeded : 0 ≤ ret

/-- The record that the exit adds to those of the run. -/
def FinishedCall.Emits (c : FinishedCall) (out : NetworkEvent) : Prop :=
  (run c.maps (c.before ++ .deliver c.env (.enterNetwork c.kind c.args) :: c.mid ++
      [.deliver c.env' (.exitNetwork c.kind c.ret)])).events.records =
    (run c.maps (c.before ++ .deliver c.env (.enterNetwork c.kind c.args) :: c.mid)).events.records ++
      [.network out]

theorem FinishedCall.emits_iff (c : FinishedCall) (out : NetworkEvent) :
    c.Emits out ↔ out = finishNetworkEvent c.env' c.kind c.ret (networkPayload c.env c.kind c.args) := by
  have hrecords := c.completed.records c.ret
  unfold Emits
  rw [hrecords]
  constructor
  · intro h
    exact (EventVariant.network.inj (List.singleton_inj.mp (List.append_cancel_left h))).symm
  · intro h
    rw [h]

theorem FinishedCall.exists_emits (c : FinishedCall) : ∃ out, c.Emits out :=
  ⟨_, (c.emits_iff _).mpr rfl⟩

/-! ## Where an address is returned -/

/-- The calls that give an address back through pointers kept at enter. -/
def returnsAddress (kind : NetworkEventKind) : Bool := returnsRemoteAddress kind || kind == .getsockname

namespace FinishedCall
variable (c : FinishedCall)

def buffer : UInt64 := if c.kind = .recvfrom then c.args.srcAddr else c.args.addr

def lenPtr : UInt64 := if c.kind = .recvfrom then c.args.srcLen else c.args.addrLen

/-- The room the caller says its buffer has. -/
def capacity : Nat := (returnedLen c.env.mem c.lenPtr).toNat

/-- The full length of the address, as the kernel gives it. -/
def returned : Nat := (returnedLen c.env'.mem c.lenPtr).toNat

/-- What the kernel has written: of the address as much as there is room for. -/
def written : Option Bytes := c.env'.mem.read c.buffer (min c.capacity c.returned)

/-- The side of the connection that the address is of. -/
def endpoint (out : NetworkEvent) : NetworkEndpoint :=
  if c.kind = .getsockname then out.localEp else out.remoteEp

/-- The address in the buffer at the exit. -/
def address : Address := addressAt c.env'.mem c.buffer c.returned

end FinishedCall

/-- An enter keeps the two pointers, and no endpoint. -/
theorem networkPayload_pointers (c : FinishedCall) (h : returnsAddress c.kind = true) :
    (networkPayload c.env c.kind c.args).sockaddrPtr = c.buffer ∧
      (networkPayload c.env c.kind c.args).sockaddrLenPtr = c.lenPtr := by
  unfold FinishedCall.buffer FinishedCall.lenPtr
  cases hkind : c.kind <;> rw [hkind] at h <;> first | exact ⟨rfl, rfl⟩ | cases h

theorem networkPayload_endpoints (env : HookEnv) {kind : NetworkEventKind} (args : SyscallArgs)
    (h : returnsAddress kind = true) :
    Shows (networkPayload env kind args).ev.localEp {} ∧ Shows (networkPayload env kind args).ev.remoteEp {} := by
  cases kind <;> first | exact ⟨shows_family _ 0, shows_family _ 0⟩ | cases h

theorem addressAt_zero (mem : UserMem) (len : Nat) : addressAt mem 0 len = {} := by
  rw [addressAt, if_pos (Or.inl rfl)]

/-- An endpoint that is parsed at the exit unless there is no buffer. -/
theorem shows_returned (env : HookEnv) {state : NetworkStateValue} {ep : NetworkEndpoint} (h : Shows ep {}) :
    Shows (if state.sockaddrPtr ≠ 0 then returnedEndpoint env state ep else ep)
      (addressAt env.mem state.sockaddrPtr (returnedLen env.mem state.sockaddrLenPtr).toNat) := by
  split_ifs with hbuffer
  · exact parseSockaddrUser_shows env.mem state.sockaddrPtr _ ep
  · rw [not_not.mp hbuffer, addressAt_zero]
    exact h

/-- **The record shows the address in the caller's buffer.** -/
theorem FinishedCall.shows_address (c : FinishedCall) (h : returnsAddress c.kind = true) {out : NetworkEvent}
    (hout : c.Emits out) : Shows (c.endpoint out) c.address := by
  obtain ⟨hbuffer, hlen⟩ := networkPayload_pointers c h
  obtain ⟨hlocal, hremote⟩ := networkPayload_endpoints c.env c.args h
  rw [(c.emits_iff out).mp hout]
  unfold endpoint address returned
  rw [← hbuffer, ← hlen]
  by_cases hname : c.kind = .getsockname
  · rw [if_pos hname, finishNetworkEvent_localEp]
    simp only [hname, c.succeeded, true_and]
    rw [hname] at hlocal
    exact shows_returned c.env' hlocal
  · have hkind : returnsRemoteAddress c.kind = true := by
      rw [returnsAddress, Bool.or_eq_true, beq_iff_eq] at h
      exact h.resolve_right hname
    rw [if_neg hname, finishNetworkEvent_remoteEp]
    simp only [hkind, c.succeeded, true_and]
    exact shows_returned c.env' hremote

/-! ## The bytes that are parsed -/

/-- How many bytes of a buffer the parse of an address of that length looks at. -/
def parsedBytes (mem : UserMem) (ptr : UInt64) (len : Nat) : Nat :=
  if ptr = 0 ∨ len < 2 then 0
  else
    match mem.read ptr 2 with
    | none => 2
    | some fam => extent (familyOf fam) len

theorem extent_le (family : UInt32) {len : Nat} (h : 2 ≤ len) : extent family len ≤ len := by
  unfold extent sizeofSockaddrIn sizeofSockaddrIn6 sizeofSockaddrUn
  split_ifs <;> omega

theorem parsedBytes_le (mem : UserMem) (ptr : UInt64) (len : Nat) : parsedBytes mem ptr len ≤ len := by
  unfold parsedBytes
  split_ifs with hnone
  · exact Nat.zero_le len
  · have hlen : 2 ≤ len := not_lt.mp (not_or.mp hnone).2
    split
    · exact hlen
    · exact extent_le _ hlen

theorem extent_le_sizeofSockaddrUn (family : UInt32) (len : Nat) :
    extent family len ≤ sizeofSockaddrUn := by
  unfold extent sizeofSockaddrIn sizeofSockaddrIn6 sizeofSockaddrUn unixPathLen
  split_ifs <;> omega

section Prefix
variable {mem : UserMem} {ptr : UInt64} {n : Nat} {bs : Bytes} (hptr : ptr ≠ 0)
  (hread : mem.read ptr n = some bs) (len : Nat)

include hptr hread

/-- Whether the first `n` bytes are enough can be told from these. -/
theorem parsedBytes_le_iff : parsedBytes mem ptr len ≤ n ↔ len < 2 ∨ extent (familyOf bs) len ≤ n := by
  unfold parsedBytes
  by_cases hlen : len < 2
  · rw [if_pos (Or.inr hlen)]
    exact ⟨fun _ => Or.inl hlen, fun _ => Nat.zero_le n⟩
  rw [if_neg (not_or.mpr ⟨hptr, hlen⟩), or_iff_right hlen]
  have htwo := two_le_extent (familyOf bs) (not_lt.mp hlen)
  by_cases hn : 2 ≤ n
  · rw [UserMem.read_take hread hn]
    dsimp only
    rw [familyOf_take (le_refl 2)]
  · have hfew : ¬extent (familyOf bs) len ≤ n := by omega
    refine iff_of_false (fun h => ?_) hfew
    cases hfam : mem.read ptr 2 with
    | none =>
      rw [hfam] at h
      exact hn h
    | some fam =>
      rw [hfam] at h
      exact hn ((two_le_extent (familyOf fam) (not_lt.mp hlen)).trans h)

/-- An address whose parsed bytes are among the first `n`. -/
theorem addressAt_of_parsed (h : len < 2 ∨ extent (familyOf bs) len ≤ n) :
    addressAt mem ptr len =
      if len < 2 then {} else decodeAddress len (bs.take (extent (familyOf bs) len)) := by
  split_ifs with hlen
  · rw [addressAt, if_pos (Or.inr hlen)]
  · have hn := h.resolve_left hlen
    have htwo := two_le_extent (familyOf bs) (not_lt.mp hlen)
    apply addressAt_of_read hptr (not_lt.mp hlen)
    rw [familyOf_take htwo]
    exact UserMem.read_take hread hn

end Prefix

/-! ## The bytes that were written -/

/-- The other call has a buffer if this one has, and the kernel has given it the same. -/
structure FinishedCall.SameReturn (c d : FinishedCall) : Prop where
  buffer : d.buffer = 0 ↔ c.buffer = 0
  returned : d.returned = c.returned
  written : d.written = c.written

/-- The endpoint in the record is a function of the returned length and the bytes the kernel wrote. -/
def FinishedCall.DependsOnWritten (c : FinishedCall) : Prop :=
  ∀ d : FinishedCall, returnsAddress d.kind = true → c.SameReturn d →
    ∀ out out', c.Emits out → d.Emits out' → (c.endpoint out).Same (d.endpoint out')

/-- What the two records of a comparison show. -/
theorem FinishedCall.DependsOnWritten.address_eq {c d : FinishedCall} (h : c.DependsOnWritten)
    (hsame : c.SameReturn d) (hc : returnsAddress c.kind = true) (hd : returnsAddress d.kind = true) :
    c.address = d.address := by
  obtain ⟨out, hout⟩ := c.exists_emits
  obtain ⟨out', hout'⟩ := d.exists_emits
  exact ((c.shows_address hc hout).same_iff (d.shows_address hd hout')).mp (h d hd hsame out out' hout hout')

theorem FinishedCall.dependsOnWritten_of_parsed {c : FinishedCall} (hc : returnsAddress c.kind = true)
    (hwrote : c.buffer ≠ 0 → c.written.isSome)
    (hparsed : parsedBytes c.env'.mem c.buffer c.returned ≤ c.capacity) : c.DependsOnWritten := by
  intro d hd hsame out out' hout hout'
  refine ((c.shows_address hc hout).same_iff (d.shows_address hd hout')).mpr ?_
  unfold address
  by_cases hbuffer : c.buffer = 0
  · rw [hbuffer, hsame.buffer.mpr hbuffer, addressAt_zero, addressAt_zero]
  have hbuffer' : d.buffer ≠ 0 := fun h => hbuffer (hsame.buffer.mp h)
  obtain ⟨bs, hbs⟩ := Option.isSome_iff_exists.mp (hwrote hbuffer)
  have hbs' : d.written = some bs := hsame.written.trans hbs
  have hroom : c.returned < 2 ∨ extent (familyOf bs) c.returned ≤ min c.capacity c.returned := by
    rw [← parsedBytes_le_iff hbuffer hbs, le_min_iff]
    exact ⟨hparsed, parsedBytes_le _ _ _⟩
  have hmin : min d.capacity d.returned = min c.capacity c.returned := by
    rw [← UserMem.read_length hbs', UserMem.read_length hbs]
  have hroom' : d.returned < 2 ∨ extent (familyOf bs) d.returned ≤ min d.capacity d.returned := by
    rw [hmin, hsame.returned]
    exact hroom
  rw [addressAt_of_parsed hbuffer hbs _ hroom, addressAt_of_parsed hbuffer' hbs' _ hroom', hsame.returned]

/-! ## The same call in another memory

The length word is at 16 and the buffer behind it, and nothing else is mapped. -/

def placedMem (len : Nat) (bs : Bytes) : UserMem := UserMem.holding 16 (Layout.toLE 4 len ++ bs)

section PlacedMem
variable (len : Nat) (bs : Bytes)

theorem read_placedMem_all (hsize : bs.length + 4 ≤ UInt64.size) :
    (placedMem len bs).read 16 (bs.length + 4) = some (Layout.toLE 4 len ++ bs) := by
  have hlength : (Layout.toLE 4 len ++ bs).length = bs.length + 4 := by
    rw [List.length_append, Layout.length_toLE, Nat.add_comm]
  rw [← hlength] at hsize ⊢
  exact UserMem.read_holding 16 hsize

theorem returnedLen_placedMem (hsize : bs.length + 4 ≤ UInt64.size) (hlen : len < UInt32.size) :
    (returnedLen (placedMem len bs) 16).toNat = len := by
  have hword := UserMem.read_take (read_placedMem_all len bs hsize) (Nat.le_add_left 4 _)
  rw [List.take_left' (Layout.length_toLE 4 len)] at hword
  have hback : leNat (Layout.toLE 4 len) = len := Layout.ofLE_toLE hlen
  rw [returnedLen, if_neg (by decide), UserMem.readU32, hword, Option.map_some, Option.getD_some, leU32,
    List.take_of_length_le (Nat.le_of_eq (Layout.length_toLE 4 len)), hback, UInt32.toNat_ofNat_of_lt' hlen]

theorem read_placedMem (hsize : bs.length + 4 ≤ UInt64.size) {m : Nat} (hm : m ≤ bs.length) :
    (placedMem len bs).read 20 m = some (bs.take m) := by
  have hslice := UserMem.read_slice (read_placedMem_all len bs hsize) 4 m (by omega)
  rwa [List.drop_left' (Layout.length_toLE 4 len)] at hslice

theorem read_placedMem_none (hsize : bs.length + 4 < UInt64.size) {m : Nat} (hm : bs.length < m) :
    (placedMem len bs).read 20 m = none := by
  apply UserMem.read_eq_none hm
  have hoffset : (20 + UInt64.ofNat bs.length - 16).toNat = bs.length + 4 := by
    rw [show 20 + UInt64.ofNat bs.length - 16 = UInt64.ofNat (bs.length + 4) by
      rw [UInt64.ofNat_add, UInt64.add_comm, UInt64.sub_eq_add_neg, UInt64.add_assoc]
      rfl]
    exact UInt64.toNat_ofNat_of_lt' hsize
  rw [placedMem, UserMem.holding, hoffset, List.getElem?_eq_none_iff, List.length_append, Layout.length_toLE]
  omega

end PlacedMem

/-- An enter that is not gated by its descriptor is handled whatever its arguments and the memory are. -/
theorem CompletedCall.of_mem {maps : ProbeMaps} {before mid : List Step} {env env' : HookEnv}
    {kind : NetworkEventKind} {args : SyscallArgs} (h : CompletedCall maps before env kind args mid env')
    (hkind : isGated kind = false) (args' : SyscallArgs) (mem mem' : UserMem) :
    CompletedCall maps before { env with mem := mem } kind args' mid { env' with mem := mem' } where
  entered := by
    have hentered := h.entered
    rw [networkEnterGate, gateFd, hkind] at hentered ⊢
    exact hentered
  helpers := h.helpers
  vacant := h.vacant
  untouched := h.untouched
  same_task := h.same_task
  reserved := h.reserved

theorem not_isGated_of_returnsAddress {kind : NetworkEventKind} (h : returnsAddress kind = true) :
    isGated kind = false := by
  cases kind <;> first | rfl | cases h

def FinishedCall.placed (c : FinishedCall) (h : returnsAddress c.kind = true) (capacity returned : Nat)
    (bs : Bytes) : FinishedCall :=
  { c with
    args := .of 0 20 16 0 20 16
    env := { c.env with mem := placedMem capacity [] }
    env' := { c.env' with mem := placedMem returned bs }
    completed := c.completed.of_mem (not_isGated_of_returnsAddress h) _ _ _ }

namespace FinishedCall
variable (c : FinishedCall) (h : returnsAddress c.kind = true) (capacity returned : Nat) (bs : Bytes)

theorem placed_buffer : (c.placed h capacity returned bs).buffer = 20 := ite_self _

theorem placed_lenPtr : (c.placed h capacity returned bs).lenPtr = 16 := ite_self _

theorem placed_capacity (hlen : capacity < UInt32.size) :
    (c.placed h capacity returned bs).capacity = capacity := by
  rw [FinishedCall.capacity, placed_lenPtr]
  exact returnedLen_placedMem capacity [] (by decide) hlen

theorem placed_returned (hsize : bs.length + 4 ≤ UInt64.size) (hlen : returned < UInt32.size) :
    (c.placed h capacity returned bs).returned = returned := by
  rw [FinishedCall.returned, placed_lenPtr]
  exact returnedLen_placedMem returned bs hsize hlen

theorem placed_written (hsize : bs.length + 4 ≤ UInt64.size) (hcapacity : capacity < UInt32.size)
    (hreturned : returned < UInt32.size) (hm : min capacity returned ≤ bs.length) :
    (c.placed h capacity returned bs).written = some (bs.take (min capacity returned)) := by
  rw [FinishedCall.written, placed_buffer, placed_capacity c h capacity returned bs hcapacity,
    placed_returned c h capacity returned bs hsize hreturned]
  exact read_placedMem returned bs hsize hm

end FinishedCall

/-! ### Bytes behind the written ones -/

theorem unixName_ne_nil {bs : Bytes} (h : bs.any (· != 0) = true) : unixName bs ≠ [] := by
  cases bs with
  | nil => cases h
  | cons b rest =>
    rw [unixName]
    split_ifs with hzero hany
    · exact List.cons_ne_nil _ _
    · rw [List.any_cons, hzero] at h
      exact absurd h hany
    · have hbyte : (b != 0) = true := bne_iff_ne.mpr hzero
      rw [show unixPathLen - 1 = unixPathLen - 2 + 1 from rfl, List.take_succ_cons,
        List.takeWhile_cons_of_pos (p := (· != 0)) hbyte]
      exact List.cons_ne_nil _ _

theorem decodeAddress_family (len : Nat) (bs : Bytes) : (decodeAddress len bs).family = familyOf bs := by
  unfold decodeAddress
  split_ifs with hin hin6 hun
  · exact hin.1.symm
  · exact hin6.1.symm
  · exact hun.symm
  · rfl

/-- More than the family is told of an address that is longer. -/
theorem decodeAddress_ne_family {len : Nat} {bs : Bytes} {family : UInt32} (hfamily : familyOf bs = family)
    (h : bs.length = extent family len) (hlong : 2 < bs.length) (hbyte : (bs.drop 2).any (· != 0) = true) :
    decodeAddress len bs ≠ { family := family } := by
  subst hfamily
  unfold decodeAddress
  unfold extent at h
  split_ifs at h ⊢ with hin hin6 hun
  · intro heq
    have haddr := congrArg (List.length ∘ Address.addr) heq
    simp [h, sizeofSockaddrIn] at haddr
  · intro heq
    have haddr := congrArg (List.length ∘ Address.addr) heq
    simp [h, sizeofSockaddrIn6] at haddr
  · intro heq
    exact unixName_ne_nil hbyte (congrArg Address.name heq)
  · omega

/-- What the caller may have had behind the bytes the kernel writes. -/
def staleTail : Bytes := List.replicate sizeofSockaddrUn 1

theorem familyOf_stale {bs : Bytes} (h : bs.length < 2) : familyOf (bs ++ staleTail) ≠ 0 := by
  have htake : ∃ b : UInt8, (bs ++ staleTail).take 2 = [b, 1] := by
    match bs, h with
    | [], _ => exact ⟨1, rfl⟩
    | [b], _ => exact ⟨b, rfl⟩
  obtain ⟨b, hb⟩ := htake
  have hlt := b.toNat_lt
  have hword : leNat [b, 1] = b.toNat + 256 := rfl
  rw [familyOf, hb, hword]
  intro hzero
  have hnat := congrArg UInt32.toNat hzero
  rw [UInt32.toNat_ofNat_of_lt' (by unfold UInt32.size; omega)] at hnat
  exact absurd hnat (Nat.succ_ne_zero _)

theorem take_stale {bs : Bytes} {n : Nat} (h : bs.length < n) (hn : n ≤ sizeofSockaddrUn) :
    (bs ++ staleTail).take n = bs ++ List.replicate (n - bs.length) 1 := by
  rw [List.take_append, List.take_of_length_le (by omega), staleTail, List.take_replicate,
    Nat.min_eq_left (by omega)]

section Stale
variable {len : Nat} {bs : Bytes} (hlen : 2 ≤ len)

include hlen

/-- Nothing behind the written bytes can be read: at most the family is told. -/
theorem addressAt_unmapped (hsize : bs.length + 4 < UInt64.size) (hext : bs.length < extent (familyOf bs) len) :
    addressAt (placedMem len bs) 20 len = if bs.length < 2 then {} else { family := familyOf bs } := by
  rw [addressAt, if_neg (not_or.mpr ⟨by decide, by omega⟩)]
  split_ifs with hfew
  · rw [read_placedMem_none len bs hsize hfew]
  · rw [read_placedMem len bs hsize.le (not_lt.mp hfew)]
    dsimp only
    rw [familyOf_take (le_refl 2), read_placedMem_none len bs hsize hext]

/-- Everything behind the written bytes can be read: more is told. -/
theorem addressAt_stale_ne (hsize : bs.length + 4 + sizeofSockaddrUn < UInt64.size)
    (hext : bs.length < extent (familyOf bs) len) :
    addressAt (placedMem len (bs ++ staleTail)) 20 len ≠
      if bs.length < 2 then {} else { family := familyOf bs } := by
  have htail : (bs ++ staleTail).length = bs.length + sizeofSockaddrUn := by
    rw [List.length_append, staleTail, List.length_replicate]
  have hread := read_placedMem len (bs ++ staleTail) (by omega) (le_refl _)
  rw [List.take_length] at hread
  have hle := extent_le_sizeofSockaddrUn (familyOf (bs ++ staleTail)) len
  have htwo := two_le_extent (familyOf (bs ++ staleTail)) hlen
  rw [addressAt_of_parsed (by decide) hread len (Or.inr (by omega)), if_neg (by omega)]
  have hfamily : familyOf ((bs ++ staleTail).take (extent (familyOf (bs ++ staleTail)) len)) =
      familyOf (bs ++ staleTail) :=
    familyOf_take htwo _
  split_ifs with hfew
  · intro heq
    have hzero := congrArg Address.family heq
    rw [decodeAddress_family, hfamily] at hzero
    exact familyOf_stale hfew hzero
  · have hsame : familyOf (bs ++ staleTail) = familyOf bs := by
      rw [← familyOf_take (le_refl 2), List.take_append_of_le_length (not_lt.mp hfew),
        familyOf_take (le_refl 2)]
    rw [hsame] at hfamily hle ⊢
    have htake := take_stale hext hle
    have hlength : ((bs ++ staleTail).take (extent (familyOf bs) len)).length = extent (familyOf bs) len := by
      rw [List.length_take]
      omega
    apply decodeAddress_ne_family hfamily hlength
    · omega
    · rw [htake, List.drop_append_of_le_length (not_lt.mp hfew)]
      refine List.any_eq_true.mpr ⟨1, List.mem_append_right _ ?_, by decide⟩
      exact List.mem_replicate.mpr ⟨by omega, rfl⟩

end Stale

namespace FinishedCall
variable {c : FinishedCall} (hc : returnsAddress c.kind = true)

include hc

theorem sameReturn_placed {bs : Bytes} (hbuffer : c.buffer ≠ 0) (hbs : c.written = some bs) (tail : Bytes)
    (hsize : bs.length + tail.length + 4 ≤ UInt64.size) :
    c.SameReturn (c.placed hc c.capacity c.returned (bs ++ tail)) := by
  have hlength : (bs ++ tail).length = bs.length + tail.length := List.length_append
  have hmin : min c.capacity c.returned = bs.length := (UserMem.read_length hbs).symm
  have hcapacity : c.capacity < UInt32.size := UInt32.toNat_lt_size _
  have hreturned : c.returned < UInt32.size := UInt32.toNat_lt_size _
  refine ⟨?_, placed_returned c hc _ _ _ (by omega) hreturned, ?_⟩
  · rw [placed_buffer]
    exact iff_of_false (by decide) hbuffer
  · rw [hbs, placed_written c hc _ _ _ (by omega) hcapacity hreturned (by omega), hmin, List.take_left]

theorem DependsOnWritten.parsed (h : c.DependsOnWritten) (hwrote : c.buffer ≠ 0 → c.written.isSome) :
    parsedBytes c.env'.mem c.buffer c.returned ≤ c.capacity := by
  by_contra hmore
  have hbuffer : c.buffer ≠ 0 := by
    intro hzero
    rw [parsedBytes, if_pos (Or.inl hzero)] at hmore
    exact hmore (Nat.zero_le _)
  obtain ⟨bs, hbs⟩ := Option.isSome_iff_exists.mp (hwrote hbuffer)
  have hnot : ¬(c.returned < 2 ∨ extent (familyOf bs) c.returned ≤ min c.capacity c.returned) := by
    rw [← parsedBytes_le_iff hbuffer hbs]
    omega
  obtain ⟨hshort, hext⟩ := not_or.mp hnot
  have hlen : 2 ≤ c.returned := not_lt.mp hshort
  rw [← UserMem.read_length hbs, not_le] at hext
  have hfits : bs.length < sizeofSockaddrUn := Nat.lt_of_lt_of_le hext (extent_le_sizeofSockaddrUn _ _)
  have hsize : sizeofSockaddrUn + sizeofSockaddrUn + 4 < UInt64.size := by decide
  -- one memory ends with the written bytes, the other goes on
  have haddress : ∀ tail : Bytes, tail.length ≤ sizeofSockaddrUn →
      c.address = addressAt (placedMem c.returned (bs ++ tail)) 20 c.returned := by
    intro tail htail
    have hsame := sameReturn_placed hc hbuffer hbs tail (by omega)
    rw [h.address_eq hsame hc hc, FinishedCall.address, hsame.returned, placed_buffer]
    rfl
  have hunmapped := haddress [] (Nat.zero_le _)
  rw [List.append_nil, addressAt_unmapped hlen (by omega) hext] at hunmapped
  have hstale := haddress staleTail (Nat.le_of_eq List.length_replicate)
  exact addressAt_stale_ne hlen (by omega) hext (hstale.symm.trans hunmapped)

/-- **The endpoint depends on the written bytes alone** exactly if the parse stays within the capacity. -/
theorem returnedAddress_iff (hwrote : c.buffer ≠ 0 → c.written.isSome) :
    c.DependsOnWritten ↔ parsedBytes c.env'.mem c.buffer c.returned ≤ c.capacity :=
  ⟨fun h => h.parsed hc hwrote, dependsOnWritten_of_parsed hc hwrote⟩

end FinishedCall

/-! ### A truncated address -/

/-- The first call of a run with every probe enabled. -/
def plainCall (kind : NetworkEventKind) (hkind : isGated kind = false) (args : SyscallArgs)
    (mem mem' : UserMem) : FinishedCall where
  maps := allProbes
  before := []
  env := { env7 with mem := mem }
  kind := kind
  args := args
  mid := []
  env' := { env7 with mem := mem' }
  ret := 5
  completed :=
    { entered := by cases kind <;> first | rfl | cases hkind
      helpers := ⟨rfl, rfl, rfl⟩
      vacant := rfl
      untouched := fun _ h => nomatch h
      same_task := rfl
      reserved := rfl }
  succeeded := by decide

def acceptCall : FinishedCall := plainCall .accept rfl (.of 3 0 0 0 0 0) (fun _ => none) (fun _ => none)

theorem acceptCall_returns : returnsAddress acceptCall.kind = true := rfl

/-- Port 53 of 10.0.0.`host`. -/
def inetAddress (host : UInt8) : Bytes := [2, 0, 0, 53, 10, 0, 0, host, 0, 0, 0, 0, 0, 0, 0, 0]

/-- Its 16 bytes, in a buffer that has room for so many of them. -/
def acceptInto (capacity : Nat) (host : UInt8) : FinishedCall :=
  acceptCall.placed acceptCall_returns capacity 16 (inetAddress host)

theorem acceptInto_buffer (capacity : Nat) (host : UInt8) : (acceptInto capacity host).buffer = 20 :=
  FinishedCall.placed_buffer acceptCall acceptCall_returns _ _ _

theorem acceptInto_returned (capacity : Nat) (host : UInt8) : (acceptInto capacity host).returned = 16 :=
  FinishedCall.placed_returned acceptCall acceptCall_returns _ _ _ (show 20 ≤ UInt64.size by decide) (by decide)

theorem acceptInto_written {capacity : Nat} (h : capacity ≤ 16) (host : UInt8) :
    (acceptInto capacity host).written = some ((inetAddress host).take capacity) := by
  have hwritten := FinishedCall.placed_written acceptCall acceptCall_returns capacity 16 (inetAddress host)
    (show 20 ≤ UInt64.size by decide) (show capacity < 4294967296 by omega) (by decide)
    (Nat.min_le_right _ _)
  rwa [Nat.min_eq_left h] at hwritten

theorem acceptInto_address (capacity : Nat) (host : UInt8) :
    (acceptInto capacity host).address = decodeAddress 16 ((inetAddress host).take 8) := by
  rw [FinishedCall.address, acceptInto_returned]
  have hread := read_placedMem 16 (inetAddress host) (show 20 ≤ UInt64.size by decide)
    (show 8 ≤ 16 by decide)
  exact addressAt_of_read (show (20 : UInt64) ≠ 0 by decide) (by decide) hread

theorem returnedAddress_iff_fits : (acceptInto 16 1).DependsOnWritten := by
  have hwritten := acceptInto_written (le_refl 16) 1
  refine (FinishedCall.returnedAddress_iff (c := acceptInto 16 1) acceptCall_returns ?_).mpr ?_
  · intro _
    rw [hwritten]
    rfl
  · have hcapacity : (acceptInto 16 1).capacity = 16 :=
      FinishedCall.placed_capacity acceptCall acceptCall_returns _ _ _ (by decide)
    have hread := read_placedMem 16 (inetAddress 1) (show 20 ≤ UInt64.size by decide) (le_refl 16)
    rw [acceptInto_returned, hcapacity]
    exact (parsedBytes_le_iff (by decide) hread 16).mpr (by decide)

theorem not_returnedAddress :
    ¬ ∀ c : FinishedCall, returnsAddress c.kind = true → (c.buffer ≠ 0 → c.written.isSome) →
      c.DependsOnWritten := by
  intro h
  have hdepends : (acceptInto 4 1).DependsOnWritten := by
    apply h (acceptInto 4 1) acceptCall_returns
    intro _
    rw [acceptInto_written (by decide) 1]
    rfl
  have hsame : (acceptInto 4 1).SameReturn (acceptInto 4 2) := by
    refine ⟨?_, ?_, ?_⟩
    · rw [acceptInto_buffer, acceptInto_buffer]
    · rw [acceptInto_returned, acceptInto_returned]
    · rw [acceptInto_written (by decide), acceptInto_written (by decide)]
      rfl
  have haddress := hdepends.address_eq hsame acceptCall_returns acceptCall_returns
  rw [acceptInto_address, acceptInto_address] at haddress
  exact absurd haddress (by decide)

end ETraceGen.Bpf
