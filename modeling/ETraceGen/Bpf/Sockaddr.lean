import ETraceGen.Bpf.Reads
import Mathlib.Data.List.TakeWhile

/-!
# What an endpoint shows of a socket address

`parse_sockaddr_user` leaves in an endpoint a family, a port, an address and a C string, with whatever the
buffers held behind them.

* `CharBuf.Holds` : a buffer holds a string, and its NUL;
* `copyUnixSockaddrPath_holds` : the path is `unixName` of the bytes of the name;
* `Address`, `addressAt` : what there is to tell of the address in a memory;
* `parseSockaddrUser_shows` : the endpoint shows it, whatever it was before.
-/

namespace ETraceGen

/-! ## Strings in buffers -/

namespace CharBuf

variable {n : Nat} {buf : CharBuf n} {s : Bytes}

/-- The string, its NUL, and anything behind it. -/
structure Holds (buf : CharBuf n) (s : Bytes) : Prop where
  take : buf.toList.take s.length = s
  nul : buf.toList[s.length]? = some 0
  plain : 0 ∉ s

theorem Holds.cstr (h : buf.Holds s) : buf.cstr = s := by
  have hlt : s.length < buf.toList.length := (List.getElem?_eq_some_iff.mp h.nul).1
  have hzero : buf.toList[s.length] = 0 := (List.getElem?_eq_some_iff.mp h.nul).2
  have hall : ∀ b ∈ s, (b != 0) = true := fun b hb => bne_iff_ne.mpr fun h0 => h.plain (h0 ▸ hb)
  have hsplit : buf.toList = s ++ 0 :: buf.toList.drop (s.length + 1) := by
    calc buf.toList = buf.toList.take s.length ++ buf.toList.drop s.length :=
          (List.take_append_drop _ _).symm
      _ = s ++ 0 :: buf.toList.drop (s.length + 1) := by
          rw [h.take, List.drop_eq_getElem_cons hlt, hzero]
  rw [CharBuf.cstr, hsplit, List.takeWhile_append_of_pos hall, List.takeWhile_cons_of_neg (by decide),
    List.append_nil]

theorem Holds.terminated (h : buf.Holds s) : 0 ∈ buf.toList := List.mem_of_getElem? h.nul

/-- A NUL behind the bytes of a string. -/
theorem holds_set_nul {m : Nat} (htake : buf.toList.take m = s) (hm : m < n) (hplain : 0 ∉ s) :
    Holds (buf.setIfInBounds m 0) s := by
  have hlen : s.length = m := by
    rw [← htake, List.length_take, Vector.length_toList]
    omega
  refine ⟨?_, ?_, hplain⟩
  · rw [hlen, Vector.toList_setIfInBounds, List.take_set_of_le (le_refl m), htake]
  · rw [hlen, Vector.toList_setIfInBounds, List.getElem?_set_self]
    rw [Vector.length_toList]
    exact hm

/-- A NUL behind the NUL. -/
theorem Holds.set_nul {m : Nat} (h : buf.Holds s) (hm : s.length < m) :
    Holds (buf.setIfInBounds m 0) s := by
  refine ⟨?_, ?_, h.plain⟩
  · rw [Vector.toList_setIfInBounds, List.take_set_of_le (by omega), h.take]
  · rw [Vector.toList_setIfInBounds, List.getElem?_set_ne (by omega), h.nul]

theorem take_set_succ {m : Nat} (hm : m < n) (c : UInt8) :
    (buf.setIfInBounds m c).toList.take (m + 1) = buf.toList.take m ++ [c] := by
  have hlen : m < (buf.toList.set m c).length := by
    rw [List.length_set, Vector.length_toList]
    exact hm
  rw [Vector.toList_setIfInBounds, ← List.take_append_getElem hlen, List.take_set_of_le (le_refl m),
    List.getElem_set_self]

end CharBuf

namespace Bpf

/-! ## Names of UNIX sockets -/

/-- The string a path is left with, from the bytes of the name. -/
def unixName : Bytes → Bytes
  | [] => []
  | b :: rest =>
    if b = 0 then
      if rest.any (· != 0) then 64 :: (rest.take (unixPathLen - 2)).takeWhile (· != 0) else []
    else ((b :: rest).take (unixPathLen - 1)).takeWhile (· != 0)

section Loops
variable (un : CharBuf unixPathLen) (nameLen : Nat)

/-- The bytes of the name from an index on. -/
theorem drop_name {i : Nat} (hi : i < nameLen) (hlen : i < unixPathLen) :
    (un.toList.take nameLen).drop i = un.getD i 0 :: (un.toList.take nameLen).drop (i + 1) := by
  have hlt : i < (un.toList.take nameLen).length := by
    rw [List.length_take, Vector.length_toList]
    omega
  have hget : un.getD i 0 = un[i] := by simp [Vector.getD, hlen]
  rw [List.drop_eq_getElem_cons hlt, List.getElem_take, Vector.getElem_toList, hget]

theorem drop_name_nil {i : Nat} (hi : nameLen ≤ i) : (un.toList.take nameLen).drop i = [] :=
  List.drop_eq_nil_of_le (by rw [List.length_take]; omega)

theorem unHasName_eq (left i : Nat) (h : i + left ≤ unixPathLen) :
    unHasName un nameLen left i = (((un.toList.take nameLen).drop i).take left).any (· != 0) := by
  induction left generalizing i with
  | zero => rw [unHasName, List.take_zero, List.any_nil]
  | succ left ih =>
    rw [unHasName]
    split_ifs with hend hbyte
    · rw [drop_name_nil un nameLen hend, List.take_nil, List.any_nil]
    · rw [drop_name un nameLen (by omega) (by omega), List.take_succ_cons, List.any_cons,
        bne_iff_ne.mpr hbyte, Bool.true_or]
    · rw [drop_name un nameLen (by omega) (by omega), List.take_succ_cons, List.any_cons,
        ih (i + 1) (by omega), bne_eq_false_iff_eq.mpr (not_not.mp hbyte), Bool.false_or]

/-- What a copy loop of `left` iterations goes over from index `i` before it meets a NUL. -/
def unSegment (left i : Nat) : Bytes :=
  (((un.toList.take nameLen).drop i).take left).takeWhile (· != 0)

theorem unSegment_plain (left i : Nat) : 0 ∉ unSegment un nameLen left i := by
  intro hmem
  exact absurd (List.mem_takeWhile_imp hmem) (by decide)

theorem length_unSegment_le (left i : Nat) :
    (unSegment un nameLen left i).length ≤ min left (nameLen - i) := by
  refine (List.takeWhile_prefix _).length_le.trans ?_
  rw [List.length_take, List.length_drop, List.length_take]
  omega

theorem unSegment_zero (i : Nat) : unSegment un nameLen 0 i = [] := rfl

theorem unSegment_end {left i : Nat} (h : nameLen ≤ i) : unSegment un nameLen (left + 1) i = [] := by
  rw [unSegment, drop_name_nil un nameLen h, List.take_nil, List.takeWhile_nil]

theorem unSegment_nul {left i : Nat} (hi : i < nameLen) (hlen : i < unixPathLen) (h : un.getD i 0 = 0) :
    unSegment un nameLen (left + 1) i = [] := by
  rw [unSegment, drop_name un nameLen hi hlen, List.take_succ_cons, h,
    List.takeWhile_cons_of_neg (by decide)]

theorem unSegment_byte {left i : Nat} (hi : i < nameLen) (hlen : i < unixPathLen) (h : un.getD i 0 ≠ 0) :
    unSegment un nameLen (left + 1) i = un.getD i 0 :: unSegment un nameLen left (i + 1) := by
  have hbyte : (un.getD i 0 != 0) = true := bne_iff_ne.mpr h
  rw [unSegment, drop_name un nameLen hi hlen, List.take_succ_cons,
    List.takeWhile_cons_of_pos (p := (· != 0)) hbyte, unSegment]

theorem unCopyAbstract_eq (left i : Nat) (dst : CharBuf unixPathLen) (outIdx : Nat)
    (hi : i + left ≤ unixPathLen) (hout : outIdx + left < unixPathLen) :
    ∃ path, unCopyAbstract un nameLen left i dst outIdx =
        (path, outIdx + (unSegment un nameLen left i).length) ∧
      path.toList.take (outIdx + (unSegment un nameLen left i).length) =
        dst.toList.take outIdx ++ unSegment un nameLen left i := by
  induction left generalizing i dst outIdx with
  | zero => exact ⟨dst, rfl, (List.append_nil _).symm⟩
  | succ left ih =>
    rw [unCopyAbstract]
    split_ifs with hend hbyte
    · rw [unSegment_end un nameLen hend]
      exact ⟨dst, rfl, (List.append_nil _).symm⟩
    · rw [unSegment_nul un nameLen (by omega) (by omega) hbyte]
      exact ⟨dst, rfl, (List.append_nil _).symm⟩
    · obtain ⟨path, hpath, htake⟩ :=
        ih (i + 1) (dst.setIfInBounds outIdx (un.getD i 0)) (outIdx + 1) (by omega) (by omega)
      rw [unSegment_byte un nameLen (by omega) (by omega) hbyte, List.length_cons,
        Nat.add_comm (unSegment un nameLen left (i + 1)).length, ← Nat.add_assoc]
      refine ⟨path, hpath, ?_⟩
      rw [htake, CharBuf.take_set_succ (by omega), List.append_assoc]
      rfl

/-- The copy of a pathname: what it has copied, and the NUL it stopped at. -/
theorem unCopyPath_eq (left i : Nat) (dst : CharBuf unixPathLen) (hi : i + left < unixPathLen) :
    (unCopyPath un nameLen left i dst).toList.take (i + (unSegment un nameLen left i).length) =
        dst.toList.take i ++ unSegment un nameLen left i ∧
      (i + (unSegment un nameLen left i).length < min nameLen (i + left) →
        (unCopyPath un nameLen left i dst).toList[i + (unSegment un nameLen left i).length]? = some 0) := by
  induction left generalizing i dst with
  | zero => exact ⟨(List.append_nil _).symm, fun h => by rw [unSegment_zero, List.length_nil] at h; omega⟩
  | succ left ih =>
    rw [unCopyPath]
    split_ifs with hend hbyte
    · rw [unSegment_end un nameLen hend]
      exact ⟨(List.append_nil _).symm, fun h => by rw [List.length_nil] at h; omega⟩
    · rw [unSegment_nul un nameLen (by omega) (by omega) hbyte, List.length_nil, Nat.add_zero,
        List.append_nil, Vector.toList_setIfInBounds, List.take_set_of_le (le_refl i)]
      refine ⟨rfl, fun _ => ?_⟩
      rw [List.getElem?_set_self]
      rw [Vector.length_toList]
      omega
    · obtain ⟨htake, hnul⟩ := ih (i + 1) (dst.setIfInBounds i (un.getD i 0)) (by omega)
      rw [unSegment_byte un nameLen (by omega) (by omega) hbyte, List.length_cons,
        Nat.add_comm (unSegment un nameLen left (i + 1)).length, ← Nat.add_assoc]
      refine ⟨?_, fun h => hnul (by omega)⟩
      rw [htake, CharBuf.take_set_succ (by omega), List.append_assoc]
      rfl

/-- An index with room for a NUL in the buffer. -/
theorem holds_unCopyPath (dst : CharBuf unixPathLen) :
    CharBuf.Holds ((unCopyPath un nameLen (unixPathLen - 1) 0 dst).setIfInBounds
        (min nameLen (unixPathLen - 1)) 0)
      (unSegment un nameLen (unixPathLen - 1) 0) := by
  obtain ⟨htake, hnul⟩ := unCopyPath_eq un nameLen (unixPathLen - 1) 0 dst (by decide)
  have hplain := unSegment_plain un nameLen (unixPathLen - 1) 0
  have hroom : min nameLen (unixPathLen - 1) < unixPathLen :=
    Nat.lt_of_le_of_lt (Nat.min_le_right _ _) (by decide)
  have hle := length_unSegment_le un nameLen (unixPathLen - 1) 0
  rw [Nat.zero_add] at htake hnul
  rw [Nat.min_comm, Nat.sub_zero] at hle
  rcases Nat.lt_or_eq_of_le hle with hlt | heq
  · have hfound : (unCopyPath un nameLen (unixPathLen - 1) 0 dst).Holds
        (unSegment un nameLen (unixPathLen - 1) 0) := ⟨htake, hnul (by omega), hplain⟩
    exact hfound.set_nul hlt
  · rw [heq] at htake
    exact CharBuf.holds_set_nul htake hroom hplain

theorem copyUnixSockaddrPath_eq (endpoint : NetworkEndpoint) :
    ∃ path, copyUnixSockaddrPath un nameLen endpoint = { endpoint with path := path } := by
  unfold copyUnixSockaddrPath
  split_ifs <;> exact ⟨_, rfl⟩

/-- **The path of a UNIX socket**, in an endpoint whose path was cleared. -/
theorem copyUnixSockaddrPath_holds {endpoint : NetworkEndpoint} (hclear : endpoint.path.Holds []) :
    (copyUnixSockaddrPath un nameLen endpoint).path.Holds (unixName (un.toList.take nameLen)) := by
  unfold copyUnixSockaddrPath
  by_cases hempty : nameLen = 0
  · rw [if_pos hempty, hempty, List.take_zero]
    exact hclear
  have hname : un.toList.take nameLen = un.getD 0 0 :: (un.toList.take nameLen).drop 1 := by
    have hfirst := drop_name un nameLen (Nat.pos_of_ne_zero hempty) (i := 0) (by decide)
    rwa [List.drop_zero] at hfirst
  rw [if_neg hempty, hname, unixName]
  by_cases hzero : un.getD 0 0 = 0
  · have hscan : unHasName un nameLen (unixPathLen - 1) 1 =
        ((un.toList.take nameLen).drop 1).any (· != 0) := by
      rw [unHasName_eq un nameLen _ _ (by decide), List.take_of_length_le]
      rw [List.length_drop, List.length_take, Vector.length_toList]
      omega
    rw [if_pos hzero, if_pos hzero, hscan]
    split_ifs with hany
    · obtain ⟨path, hpath, htake⟩ := unCopyAbstract_eq un nameLen (unixPathLen - 2) 1
        (endpoint.path.setIfInBounds 0 64) 1 (by decide) (by decide)
      rw [CharBuf.take_set_succ (by decide) 64, List.take_zero, List.nil_append] at htake
      have hplain : 0 ∉ 64 :: unSegment un nameLen (unixPathLen - 2) 1 :=
        List.not_mem_cons_of_ne_of_not_mem (by decide) (unSegment_plain un nameLen _ _)
      have hlen := length_unSegment_le un nameLen (unixPathLen - 2) 1
      rw [hpath]
      exact CharBuf.holds_set_nul htake (by unfold unixPathLen at hlen ⊢; omega) hplain
    · exact hclear
  · rw [if_neg hzero, if_neg hzero, ← hname]
    have hholds := holds_unCopyPath un nameLen endpoint.path
    rw [unSegment, List.drop_zero] at hholds
    split_ifs with hlong
    · rwa [Nat.min_eq_right hlong] at hholds
    · rwa [Nat.min_eq_left (by omega)] at hholds

end Loops

end Bpf

/-! ## Endpoints -/

/-- What a consumer reads of two endpoints is the same: the numbers, the address, the path as a string. -/
structure NetworkEndpoint.Same (a b : NetworkEndpoint) : Prop where
  family : a.family = b.family
  port : a.port = b.port
  addrLen : a.addrLen = b.addrLen
  addr : a.addr = b.addr
  path : a.path.cstr = b.path.cstr

theorem NetworkEndpoint.Same.of_eq {p q : NetworkEndpoint} (h : p = q) : p.Same q := by
  rw [h]
  exact ⟨rfl, rfl, rfl, rfl, rfl⟩

namespace Bpf

theorem overwrite_take {n : Nat} (dst : CharBuf n) {bs : Bytes} (h : bs.length ≤ n) :
    (overwrite dst bs).toList.take bs.length = bs := by
  apply List.ext_getElem
  · rw [List.length_take, Vector.length_toList]
    omega
  · intro i hi hi'
    simp [overwrite, List.getElem?_eq_getElem hi']

/-- An address as an endpoint can tell it: none of its fields where there is nothing to tell. -/
structure Address where
  family : UInt32 := 0
  port : UInt32 := 0
  addr : Bytes := []
  name : Bytes := []
  deriving DecidableEq

/-- The endpoint says this of its address, and has nothing else in it. -/
structure Shows (endpoint : NetworkEndpoint) (a : Address) : Prop where
  family : endpoint.family = a.family
  port : endpoint.port = a.port
  fits : a.addr.length ≤ 16
  addrLen : endpoint.addrLen = UInt32.ofNat a.addr.length
  addr : endpoint.addr = overwrite (Vector.replicate 16 0) a.addr
  path : endpoint.path.Holds a.name

/-- Endpoints that show the same address are read alike, and no others are. -/
theorem Shows.same_iff {p q : NetworkEndpoint} {a b : Address} (hp : Shows p a) (hq : Shows q b) :
    p.Same q ↔ a = b := by
  constructor
  · intro h
    have hlen : a.addr.length = b.addr.length := by
      have hword := hp.addrLen.symm.trans (h.addrLen.trans hq.addrLen)
      have hnat := congrArg UInt32.toNat hword
      have hfits := hp.fits
      have hfits' := hq.fits
      rwa [UInt32.toNat_ofNat_of_lt' (by unfold UInt32.size; omega),
        UInt32.toNat_ofNat_of_lt' (by unfold UInt32.size; omega)] at hnat
    have haddr : a.addr = b.addr := by
      calc a.addr = (overwrite (Vector.replicate 16 0) a.addr).toList.take a.addr.length :=
            (overwrite_take _ hp.fits).symm
        _ = (overwrite (Vector.replicate 16 0) b.addr).toList.take b.addr.length := by
            rw [← hp.addr, h.addr, hq.addr, hlen]
        _ = b.addr := overwrite_take _ hq.fits
    have hname : a.name = b.name := by rw [← hp.path.cstr, h.path, hq.path.cstr]
    have hfamily := hp.family.symm.trans (h.family.trans hq.family)
    have hport := hp.port.symm.trans (h.port.trans hq.port)
    cases a
    cases b
    simp_all
  · intro h
    subst h
    exact ⟨hp.family.trans hq.family.symm, hp.port.trans hq.port.symm, hp.addrLen.trans hq.addrLen.symm,
      hp.addr.trans hq.addr.symm, hp.path.cstr.trans hq.path.cstr.symm⟩

/-! ## Addresses in memory -/

def familyOf (bs : Bytes) : UInt32 := UInt32.ofNat (leNat (bs.take 2))

/-- How many bytes of an address are read, by its family and its length. -/
def extent (family : UInt32) (len : Nat) : Nat :=
  if family = afInet ∧ sizeofSockaddrIn ≤ len then sizeofSockaddrIn
  else if family = afInet6 ∧ sizeofSockaddrIn6 ≤ len then sizeofSockaddrIn6
  else if family = afUnix then min len sizeofSockaddrUn
  else 2

/-- The address in the bytes of an extent. -/
def decodeAddress (len : Nat) (bs : Bytes) : Address :=
  if familyOf bs = afInet ∧ sizeofSockaddrIn ≤ len then
    { family := afInet, port := portOf (bs.drop 2), addr := (bs.drop 4).take 4 }
  else if familyOf bs = afInet6 ∧ sizeofSockaddrIn6 ≤ len then
    { family := afInet6, port := portOf (bs.drop 2), addr := (bs.drop 8).take 16 }
  else if familyOf bs = afUnix then { family := afUnix, name := unixName (bs.drop 2) }
  else { family := familyOf bs }

/-- The address of `len` bytes at `ptr`. Where the rest of it cannot be read there is its family. -/
def addressAt (mem : UserMem) (ptr : UInt64) (len : Nat) : Address :=
  if ptr = 0 ∨ len < 2 then {}
  else
    match mem.read ptr 2 with
    | none => {}
    | some fam =>
      match mem.read ptr (extent (familyOf fam) len) with
      | none => { family := familyOf fam }
      | some bs => decodeAddress len bs

theorem two_le_extent (family : UInt32) {len : Nat} (h : 2 ≤ len) : 2 ≤ extent family len := by
  unfold extent sizeofSockaddrIn sizeofSockaddrIn6 sizeofSockaddrUn unixPathLen
  split_ifs <;> omega

/-- The family is in the first two bytes. -/
theorem familyOf_take {n : Nat} (h : 2 ≤ n) (bs : Bytes) : familyOf (bs.take n) = familyOf bs := by
  rw [familyOf, familyOf, List.take_take, Nat.min_eq_left h]

/-- An address that can be read. -/
theorem addressAt_of_read {mem : UserMem} {ptr : UInt64} {len : Nat} {bs : Bytes} (hptr : ptr ≠ 0)
    (hlen : 2 ≤ len) (hread : mem.read ptr (extent (familyOf bs) len) = some bs) :
    addressAt mem ptr len = decodeAddress len bs := by
  have hfam := UserMem.read_take hread (two_le_extent (familyOf bs) hlen)
  unfold addressAt
  rw [if_neg (not_or.mpr ⟨hptr, by omega⟩), hfam]
  dsimp only
  rw [familyOf_take (le_refl 2), hread]

theorem holds_clear (buf : CharBuf unixPathLen) : CharBuf.Holds (overwrite buf [0]) [] := by
  refine ⟨rfl, ?_, List.not_mem_nil⟩
  simp [overwrite, unixPathLen]

/-- A cleared endpoint of a family. -/
theorem shows_family (endpoint : NetworkEndpoint) (family : UInt32) :
    Shows { resetNetworkEndpoint endpoint with family := family } { family := family } := by
  refine ⟨rfl, rfl, Nat.zero_le _, rfl, ?_, holds_clear endpoint.path⟩
  apply Vector.ext
  intro i hi
  simp [resetNetworkEndpoint, overwrite]

/-- A cleared endpoint that is given the port and the address bytes of what was read. -/
theorem shows_ip (endpoint : NetworkEndpoint) (family : UInt32) {mem : UserMem} {ptr : UInt64} {n : Nat}
    {bs : Bytes} (hread : mem.read ptr n = some bs) {start m : Nat} (hroom : start + m ≤ n) (hfits : m ≤ 16) :
    Shows { resetNetworkEndpoint endpoint with
      family := family
      port := portOf (bs.drop 2)
      addrLen := UInt32.ofNat m
      addr := overwrite (resetNetworkEndpoint endpoint).addr ((bs.drop start).take m) }
      { family := family, port := portOf (bs.drop 2), addr := (bs.drop start).take m } := by
  have hlen : ((bs.drop start).take m).length = m := by
    rw [List.length_take, List.length_drop, UserMem.read_length hread]
    omega
  refine ⟨rfl, rfl, ?_, ?_, rfl, holds_clear endpoint.path⟩
  · show ((bs.drop start).take m).length ≤ 16
    rwa [hlen]
  · show UInt32.ofNat m = UInt32.ofNat ((bs.drop start).take m).length
    rw [hlen]

/-- A cleared endpoint that is given the name of a UNIX socket. -/
theorem shows_unix (endpoint : NetworkEndpoint) {un : Bytes} (h : un.length ≤ unixPathLen) :
    Shows (copyUnixSockaddrPath (overwrite (Vector.replicate unixPathLen 0) un) un.length
      { resetNetworkEndpoint endpoint with family := afUnix }) { family := afUnix, name := unixName un } := by
  have hbase := shows_family endpoint afUnix
  have hpath := copyUnixSockaddrPath_holds (overwrite (Vector.replicate unixPathLen 0) un) un.length hbase.path
  rw [overwrite_take _ h] at hpath
  obtain ⟨path, heq⟩ := copyUnixSockaddrPath_eq (overwrite (Vector.replicate unixPathLen 0) un) un.length
    { resetNetworkEndpoint endpoint with family := afUnix }
  rw [heq] at hpath ⊢
  exact ⟨hbase.family, hbase.port, hbase.fits, hbase.addrLen, hbase.addr, hpath⟩

section Parse
variable {mem : UserMem} {ptr : UInt64} {len : UInt32} {fam : Bytes}

theorem familyOf_of_read (hfam : mem.read ptr 2 = some fam) : UInt32.ofNat (leNat fam) = familyOf fam := by
  rw [familyOf, List.take_of_length_le (Nat.le_of_eq (UserMem.read_length hfam))]

theorem familyOf_of_longer (hfam : mem.read ptr 2 = some fam) {n : Nat} (hn : 2 ≤ n) {bs : Bytes}
    (hbs : mem.read ptr n = some bs) : familyOf bs = familyOf fam := by
  have hfirst := UserMem.read_take hbs hn
  rw [hfam] at hfirst
  rw [Option.some.inj hfirst, familyOf_take (le_refl 2)]

/-- **A parsed endpoint shows the address in memory**, whatever it held before. -/
theorem parseSockaddrUser_shows (mem : UserMem) (ptr : UInt64) (len : UInt32) (endpoint : NetworkEndpoint) :
    Shows (parseSockaddrUser mem ptr len endpoint) (addressAt mem ptr len.toNat) := by
  have hclear : Shows (resetNetworkEndpoint endpoint) {} := shows_family endpoint 0
  unfold parseSockaddrUser addressAt
  dsimp only
  by_cases hnone : ptr = 0 ∨ len.toNat < 2
  · rw [if_pos hnone, if_pos hnone]
    exact hclear
  rw [if_neg hnone, if_neg hnone]
  cases hfam : mem.read ptr 2 with
  | none => exact hclear
  | some fam =>
    dsimp only
    rw [familyOf_of_read hfam]
    have hfamily := shows_family endpoint (familyOf fam)
    by_cases hin : familyOf fam = afInet ∧ sizeofSockaddrIn ≤ len.toNat
    · rw [if_pos hin, extent, if_pos hin]
      cases hread : mem.read ptr sizeofSockaddrIn with
      | none => exact hfamily
      | some bs =>
        dsimp only
        have hsame := familyOf_of_longer hfam (by decide) hread
        rw [decodeAddress, hsame, if_pos hin, hin.1]
        exact shows_ip endpoint afInet hread (by decide) (by decide)
    rw [if_neg hin]
    by_cases hin6 : familyOf fam = afInet6 ∧ sizeofSockaddrIn6 ≤ len.toNat
    · rw [if_pos hin6, extent, if_neg hin, if_pos hin6]
      cases hread : mem.read ptr sizeofSockaddrIn6 with
      | none => exact hfamily
      | some bs =>
        dsimp only
        have hsame := familyOf_of_longer hfam (by decide) hread
        rw [decodeAddress, hsame, if_neg hin, if_pos hin6, hin6.1]
        exact shows_ip endpoint afInet6 hread (by decide) (by decide)
    rw [if_neg hin6]
    by_cases hun : familyOf fam = afUnix
    · rw [if_pos hun, extent, if_neg hin, if_neg hin6, if_pos hun]
      cases hread : mem.read ptr (min len.toNat sizeofSockaddrUn) with
      | none => exact hfamily
      | some bs =>
        dsimp only
        have hlong : 2 ≤ min len.toNat sizeofSockaddrUn := by
          unfold sizeofSockaddrUn unixPathLen
          omega
        have hsame := familyOf_of_longer hfam hlong hread
        have hlen : (bs.drop 2).length = min len.toNat sizeofSockaddrUn - 2 := by
          rw [List.length_drop, UserMem.read_length hread]
        rw [decodeAddress, hsame, if_neg hin, if_neg hin6, if_pos hun, hun, ← hlen]
        refine shows_unix endpoint ?_
        rw [hlen]
        unfold sizeofSockaddrUn
        omega
    · rw [if_neg hun, extent, if_neg hin, if_neg hin6, if_neg hun, hfam]
      dsimp only
      rw [decodeAddress, if_neg hin, if_neg hin6, if_neg hun]
      exact hfamily

end Parse

end Bpf

end ETraceGen
