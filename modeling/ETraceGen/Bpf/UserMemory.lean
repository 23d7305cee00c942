import ETraceGen.Schema

/-!
# Reading user memory

What the handlers read of the traced task's memory: bounded copies and C strings
(`bpf_probe_read_user`, `bpf_probe_read_user_str`), socket addresses, and the iovec and message
arrays whose lengths are summed. A handler sees one state of the memory; a byte that cannot be read
makes the whole read fail.
-/

namespace ETraceGen.Bpf

/-- The memory of the current task; `none` where a read faults. -/
abbrev UserMem := UInt64 → Option UInt8

namespace UserMem

/-- `bpf_probe_read_user(dst, n, ptr)`: all `n` bytes, or a failure. -/
def read (mem : UserMem) (ptr : UInt64) : Nat → Option Bytes
  | 0 => some []
  | n + 1 =>
    match mem ptr with
    | none => none
    | some b => (read mem (ptr + 1) n).map (b :: ·)

/-- The bytes of the string at `ptr` before its NUL, at most `n` of them; fails on a fault. -/
def readStr (mem : UserMem) (ptr : UInt64) : Nat → Option Bytes
  | 0 => some []
  | n + 1 =>
    match mem ptr with
    | none => none
    | some b => if b = 0 then some [] else (readStr mem (ptr + 1) n).map (b :: ·)

/-- A memory with those bytes at `base`, and nothing else mapped. -/
def holding (base : UInt64) (bs : Bytes) : UserMem := fun ptr => bs[(ptr - base).toNat]?

end UserMem

/-- A little-endian unsigned integer. -/
def leNat (bs : Bytes) : Nat := bs.foldr (fun b n => b.toNat + 256 * n) 0

def leU32 (bs : Bytes) : UInt32 := UInt32.ofNat (leNat (bs.take 4))
def leU64 (bs : Bytes) : UInt64 := UInt64.ofNat (leNat (bs.take 8))

/-- Reads `sizeof(__u32)` bytes. -/
def UserMem.readU32 (mem : UserMem) (ptr : UInt64) : Option UInt32 := (mem.read ptr 4).map leU32

/-- `(__s32)` of a system call argument. -/
def s32 (x : UInt64) : Int32 := x.toUInt32.toInt32

/-- Write `bs` at the start of a buffer and keep the rest of it. -/
def overwrite {n : Nat} (dst : CharBuf n) (bs : Bytes) : CharBuf n :=
  Vector.ofFn fun i => bs.getD i dst[i]

/-- A string copy into a buffer of `n` bytes: the first `n - 1` bytes at most, and a NUL. -/
def overwriteStr {n : Nat} (dst : CharBuf n) (str : Bytes) : CharBuf n :=
  overwrite dst (str.take (n - 1) ++ [0])

def copyUserPath (mem : UserMem) (dst : CharBuf pathLen) (userPtr : UInt64) : CharBuf pathLen :=
  if userPtr = 0 then overwrite dst [0]
  else
    match mem.readStr userPtr pathLen with
    | some str => overwriteStr dst str
    | none => overwrite dst [0]

/-- A failed read leaves the prefix as it was: its callers have zeroed it. -/
def copyOptvalPrefix (mem : UserMem) (dst : CharBuf 16) (userPtr : UInt64) (len : UInt32) :
    CharBuf 16 :=
  if userPtr = 0 ∨ len = 0 then dst
  else
    match mem.read userPtr (min len.toNat 16) with
    | some bs => overwrite dst bs
    | none => dst

/-! ## Socket addresses -/

def resetNetworkEndpoint (endpoint : NetworkEndpoint) : NetworkEndpoint :=
  { endpoint with
    family := 0
    port := 0
    addrLen := 0
    path := overwrite endpoint.path [0]
    addr := Vector.replicate 16 0 }

def afUnix : UInt32 := 1
def afInet : UInt32 := 2
def afInet6 : UInt32 := 10

def sizeofSockaddrIn : Nat := 8
def sizeofSockaddrIn6 : Nat := 28
def sizeofSockaddrUn : Nat := 2 + unixPathLen

/-- `bpf_ntohs` of the two bytes of a port field. -/
def portOf (bs : Bytes) : UInt32 := UInt32.ofNat ((bs.getD 0 0).toNat * 256 + (bs.getD 1 0).toNat)

/-- The scan for a byte of an abstract name: `i` from the given index, `left` more iterations. -/
def unHasName (un : CharBuf unixPathLen) (nameLen : Nat) : (left i : Nat) → Bool
  | 0, _ => false
  | left + 1, i =>
    if nameLen ≤ i then false
    else if un.getD i 0 ≠ 0 then true
    else unHasName un nameLen left (i + 1)

/-- The copy of an abstract name: the buffer and the index after its last byte. -/
def unCopyAbstract (un : CharBuf unixPathLen) (nameLen : Nat) :
    (left i : Nat) → (dst : CharBuf unixPathLen) → (outIdx : Nat) → CharBuf unixPathLen × Nat
  | 0, _, dst, outIdx => (dst, outIdx)
  | left + 1, i, dst, outIdx =>
    if nameLen ≤ i then (dst, outIdx)
    else if un.getD i 0 = 0 then (dst, outIdx)
    else unCopyAbstract un nameLen left (i + 1) (dst.setIfInBounds outIdx (un.getD i 0)) (outIdx + 1)

/-- The copy of a pathname, its NUL included if it is in range. -/
def unCopyPath (un : CharBuf unixPathLen) (nameLen : Nat) :
    (left i : Nat) → (dst : CharBuf unixPathLen) → CharBuf unixPathLen
  | 0, _, dst => dst
  | left + 1, i, dst =>
    if nameLen ≤ i then dst
    else if un.getD i 0 = 0 then dst.setIfInBounds i 0
    else unCopyPath un nameLen left (i + 1) (dst.setIfInBounds i (un.getD i 0))

def copyUnixSockaddrPath (un : CharBuf unixPathLen) (nameLen : Nat) (endpoint : NetworkEndpoint) :
    NetworkEndpoint :=
  if nameLen = 0 then endpoint
  else if un.getD 0 0 = 0 then
    if unHasName un nameLen (unixPathLen - 1) 1 then
      let (path, outIdx) :=
        unCopyAbstract un nameLen (unixPathLen - 2) 1 (endpoint.path.setIfInBounds 0 64) 1
      { endpoint with path := path.setIfInBounds outIdx 0 }
    else endpoint
  else
    let path := unCopyPath un nameLen (unixPathLen - 1) 0 endpoint.path
    if unixPathLen - 1 ≤ nameLen then
      { endpoint with path := path.setIfInBounds (unixPathLen - 1) 0 }
    else { endpoint with path := path.setIfInBounds nameLen 0 }

/-- Parse the socket address at `userPtr` into an endpoint that is reset first. -/
def parseSockaddrUser (mem : UserMem) (userPtr : UInt64) (len : UInt32)
    (endpoint : NetworkEndpoint) : NetworkEndpoint :=
  let endpoint := resetNetworkEndpoint endpoint
  if userPtr = 0 ∨ len.toNat < 2 then endpoint
  else
    match mem.read userPtr 2 with
    | none => endpoint
    | some fam =>
      let fam := UInt32.ofNat (leNat fam)
      let endpoint := { endpoint with family := fam }
      if fam = afInet ∧ sizeofSockaddrIn ≤ len.toNat then
        match mem.read userPtr sizeofSockaddrIn with
        | some in4 =>
          { endpoint with
            port := portOf (in4.drop 2)
            addrLen := 4
            addr := overwrite endpoint.addr ((in4.drop 4).take 4) }
        | none => endpoint
      else if fam = afInet6 ∧ sizeofSockaddrIn6 ≤ len.toNat then
        match mem.read userPtr sizeofSockaddrIn6 with
        | some in6 =>
          { endpoint with
            port := portOf (in6.drop 2)
            addrLen := 16
            addr := overwrite endpoint.addr ((in6.drop 8).take 16) }
        | none => endpoint
      else if fam = afUnix then
        let copyLen := min len.toNat sizeofSockaddrUn
        match mem.read userPtr copyLen with
        | some un =>
          copyUnixSockaddrPath (overwrite (Vector.replicate unixPathLen 0) (un.drop 2)) (copyLen - 2)
            endpoint
        | none => endpoint
      else endpoint

/-! ## Message vectors -/

def maxIovecEntries : Nat := 8
def maxMmsghdrEntries : Nat := 8

def sizeofIovecMin : Nat := 16
def sizeofMsghdrMin : Nat := 32
def sizeofMmsghdrMin : Nat := 40

/-- `struct msghdr_min`, read in one piece. -/
structure MsghdrMin where
  msgName : UInt64
  msgNamelen : UInt32
  msgIov : UInt64
  msgIovlen : UInt64

def MsghdrMin.ofBytes (bs : Bytes) : MsghdrMin where
  msgName := leU64 bs
  msgNamelen := leU32 (bs.drop 8)
  msgIov := leU64 (bs.drop 16)
  msgIovlen := leU64 (bs.drop 24)

/-- The address of element `i` of an array of elements of `size` bytes. -/
def elemPtr (base : UInt64) (i size : Nat) : UInt64 := base + UInt64.ofNat (i * size)

def sumIovecFrom (mem : UserMem) (iov count : UInt64) : (left i : Nat) → UInt64 → UInt64
  | 0, _, total => total
  | left + 1, i, total =>
    if count.toNat ≤ i then total
    else
      match mem.read (elemPtr iov i sizeofIovecMin) sizeofIovecMin with
      | some item => sumIovecFrom mem iov count left (i + 1) (total + leU64 (item.drop 8))
      | none => sumIovecFrom mem iov count left (i + 1) total

def sumIovecLengths (mem : UserMem) (iov count : UInt64) : UInt64 :=
  sumIovecFrom mem iov count maxIovecEntries 0 0

/-- The loop the two message sums share: `f` is what one `struct mmsghdr_min` adds. -/
def sumMmsghdrFrom (mem : UserMem) (f : Bytes → UInt64) (msgs : UInt64) (count : UInt32) :
    (left i : Nat) → UInt64 → UInt64
  | 0, _, total => total
  | left + 1, i, total =>
    if count.toNat ≤ i then total
    else
      match mem.read (elemPtr msgs i sizeofMmsghdrMin) sizeofMmsghdrMin with
      | some item => sumMmsghdrFrom mem f msgs count left (i + 1) (total + f item)
      | none => sumMmsghdrFrom mem f msgs count left (i + 1) total

def sumMmsghdrLengths (mem : UserMem) (msgs : UInt64) (count : UInt32) : UInt64 :=
  sumMmsghdrFrom mem
    (fun item =>
      let hdr := MsghdrMin.ofBytes item
      sumIovecLengths mem hdr.msgIov hdr.msgIovlen)
    msgs count maxMmsghdrEntries 0 0

def sumMmsghdrTransfers (mem : UserMem) (msgs : UInt64) (count : UInt32) : UInt64 :=
  sumMmsghdrFrom mem (fun item => (leU32 (item.drop sizeofMsghdrMin)).toUInt64) msgs count
    maxMmsghdrEntries 0 0

end ETraceGen.Bpf
