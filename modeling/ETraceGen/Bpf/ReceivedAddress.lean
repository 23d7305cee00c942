import ETraceGen.Bpf.ReturnedAddress

/-!
# The sender's address, received in two ways

`recvfrom` parses the buffer for the sender's address at its exit. `recvmsg` finds the same buffer through its
message header, and parses it at its enter: its record tells what the buffer held before the call.

* `FinishedCall.shows_named` : the record of `recvmsg`;
* `FinishedCall.address_of_fits` : `recvfrom` tells the sender's address where the buffer has room for it;
* `receivedAddress_iff` : when both records tell what the kernel wrote.
-/

namespace ETraceGen.Bpf

/-! ## What `recvmsg` records -/

section Header
variable {msg : UInt64} {hdr : Bytes}

/-- The length word of the header, by itself. -/
theorem returnedLen_msghdr {mem : UserMem} (hread : mem.read msg sizeofMsghdrMin = some hdr) (h : msg + 8 ≠ 0) :
    returnedLen mem (msg + 8) = leU32 (hdr.drop 8) := by
  have hword : mem.read (msg + 8) 4 = some ((hdr.drop 8).take 4) :=
    UserMem.read_slice hread 8 4 (by decide)
  rw [returnedLen, if_neg h, UserMem.readU32, hword, Option.map_some, Option.getD_some, leU32, List.take_take,
    Nat.min_self, leU32]

theorem fillMsghdr_shows (env : HookEnv) (hmsg : msg ≠ 0)
    (hread : env.mem.read msg sizeofMsghdrMin = some hdr) (hname : leU64 hdr ≠ 0) {ev : NetworkEvent}
    (hclear : Shows ev.remoteEp {}) :
    Shows (fillMsghdr env msg ev).remoteEp
      (addressAt env.mem (leU64 hdr) (leU32 (hdr.drop 8)).toNat) := by
  unfold fillMsghdr
  rw [if_neg hmsg, hread]
  dsimp only [MsghdrMin.ofBytes]
  split_ifs with hparsed
  · exact parseSockaddrUser_shows env.mem (leU64 hdr) (leU32 (hdr.drop 8)) ev.remoteEp
  · have hzero : ¬0 < leU32 (hdr.drop 8) := fun h => hparsed ⟨hname, h⟩
    have hlen : (leU32 (hdr.drop 8)).toNat < 2 := by
      rw [UInt32.lt_iff_toNat_lt, UInt32.toNat_zero] at hzero
      omega
    rw [addressAt, if_pos (Or.inr hlen)]
    exact hclear

end Header

/-- **`recvmsg` records what its buffer held at enter.** -/
theorem FinishedCall.shows_named (c : FinishedCall) (hkind : c.kind = .recvmsg) (hmsg : c.args.msg ≠ 0)
    {hdr : Bytes} (hread : c.env.mem.read c.args.msg sizeofMsghdrMin = some hdr) (hname : leU64 hdr ≠ 0)
    {out : NetworkEvent} (hout : c.Emits out) :
    Shows out.remoteEp (addressAt c.env.mem (leU64 hdr) (leU32 (hdr.drop 8)).toNat) := by
  rw [(c.emits_iff out).mp hout, finishNetworkEvent_remoteEp, hkind, if_neg fun h => by cases h.1]
  exact fillMsghdr_shows c.env hmsg hread hname (shows_family _ 0)

/-! ## What the kernel wrote -/

/-- The address that the bytes of a socket address are. -/
def addressOf (bs : Bytes) : Address :=
  if bs.length < 2 then {} else decodeAddress bs.length (bs.take (extent (familyOf bs) bs.length))

/-- The kernel returns the length of the sender's address, and writes as much of it as there is room for. -/
structure FinishedCall.Delivers (c : FinishedCall) (sender : Bytes) : Prop where
  returned : c.returned = sender.length
  written : c.written = some (sender.take c.capacity)

/-- Where the buffer has room for the sender's address, that is the address in it at the exit. -/
theorem FinishedCall.address_of_fits {c : FinishedCall} {sender : Bytes} (h : c.Delivers sender)
    (hbuffer : c.buffer ≠ 0) (hfits : sender.length ≤ c.capacity) :
    c.address = addressOf (sender.take c.capacity) := by
  have hmin : min c.capacity c.returned = sender.length := by
    rw [h.returned, Nat.min_eq_right hfits]
  have hread := h.written
  rw [List.take_of_length_le hfits, written, hmin] at hread
  have henough : sender.length < 2 ∨ extent (familyOf sender) sender.length ≤ sender.length := by
    rcases Nat.lt_or_ge sender.length 2 with hlt | hge
    · exact Or.inl hlt
    · exact Or.inr (extent_le _ hge)
  rw [address, h.returned, addressAt_of_parsed hbuffer hread _ henough, List.take_of_length_le hfits, addressOf]

/-! ## One buffer, two calls -/

/-- A `recvmsg` and a `recvfrom` in the same memories, with one buffer for the sender's address and one length
word, that of the message header. -/
structure SameBuffer (m f : FinishedCall) : Prop where
  recvmsg : m.kind = .recvmsg
  recvfrom : f.kind = .recvfrom
  enter : f.env.mem = m.env.mem
  exit : f.env'.mem = m.env'.mem
  msg : m.args.msg ≠ 0
  header : ∃ hdr, m.env.mem.read m.args.msg sizeofMsghdrMin = some hdr ∧ leU64 hdr = f.buffer
  buffer : f.buffer ≠ 0
  lenPtr : f.lenPtr = m.args.msg + 8
  hasLen : f.lenPtr ≠ 0

section Receive
variable {m f : FinishedCall} (h : SameBuffer m f) {out out' : NetworkEvent}

include h

theorem SameBuffer.shows_before (hm : m.Emits out) :
    Shows out.remoteEp (addressAt f.env.mem f.buffer f.capacity) := by
  obtain ⟨hdr, hread, hname⟩ := h.header
  have hword : m.args.msg + 8 ≠ 0 := by
    rw [← h.lenPtr]
    exact h.hasLen
  have hshows := m.shows_named h.recvmsg h.msg hread (by rw [hname]; exact h.buffer) hm
  rw [FinishedCall.capacity, h.enter, h.lenPtr, returnedLen_msghdr hread hword, ← hname]
  exact hshows

theorem SameBuffer.shows_after (hf : f.Emits out') : Shows out'.remoteEp f.address := by
  have hshows := f.shows_address (by rw [h.recvfrom]; rfl) hf
  rwa [FinishedCall.endpoint, if_neg (by rw [h.recvfrom]; decide)] at hshows

/-- **Both records tell what the kernel wrote** exactly if the buffer held that address before the call, and
nothing behind a truncated one changes it. -/
theorem receivedAddress_iff {sender : Bytes} (hsender : f.Delivers sender) (hm : m.Emits out)
    (hf : f.Emits out') :
    (out.remoteEp.Same out'.remoteEp ∧ Shows out'.remoteEp (addressOf (sender.take f.capacity))) ↔
      addressAt f.env.mem f.buffer f.capacity = addressOf (sender.take f.capacity) ∧
        (f.capacity < sender.length →
          addressAt f.env'.mem f.buffer sender.length = addressOf (sender.take f.capacity)) := by
  have hbefore := h.shows_before hm
  have hafter := h.shows_after hf
  have haddress : f.address = addressAt f.env'.mem f.buffer sender.length := by
    rw [FinishedCall.address, hsender.returned]
  constructor
  · intro hboth
    have hsent : f.address = addressOf (sender.take f.capacity) :=
      (hafter.same_iff hboth.2).mp (NetworkEndpoint.Same.of_eq rfl)
    exact ⟨((hbefore.same_iff hafter).mp hboth.1).trans hsent, fun _ => haddress.symm.trans hsent⟩
  · intro hboth
    have hsent : f.address = addressOf (sender.take f.capacity) := by
      rcases Nat.lt_or_ge f.capacity sender.length with hlt | hge
      · exact haddress.trans (hboth.2 hlt)
      · exact FinishedCall.address_of_fits hsender h.buffer hge
    rw [hsent] at hafter
    exact ⟨(hbefore.same_iff hafter).mpr hboth.1, hafter⟩

end Receive

/-! ### A buffer that held the previous sender -/

/-- A message header at 16 with its name at 48, and there the address of `host`. -/
def receiveBytes (host : UInt8) : Bytes :=
  [48, 0, 0, 0, 0, 0, 0, 0, 16] ++ List.replicate 23 0 ++ inetAddress host

def receiveMem (host : UInt8) : UserMem := UserMem.holding 16 (receiveBytes host)

def recvmsgCall (host host' : UInt8) : FinishedCall :=
  plainCall .recvmsg rfl (.of 3 16 0 0 0 0) (receiveMem host) (receiveMem host')

def recvfromCall (host host' : UInt8) : FinishedCall :=
  plainCall .recvfrom rfl (.of 3 0 0 0 48 24) (receiveMem host) (receiveMem host')

theorem read_receiveMem (host : UInt8) : (receiveMem host).read 16 48 = some (receiveBytes host) :=
  UserMem.read_holding 16 (show 48 ≤ UInt64.size by decide)

theorem msgName_receiveBytes (host : UInt8) :
    leU64 ((receiveBytes host).take sizeofMsghdrMin) = 48 := by
  have hname : ((receiveBytes host).take sizeofMsghdrMin).take 8 = [48, 0, 0, 0, 0, 0, 0, 0] := rfl
  rw [leU64, hname]
  decide

theorem returnedLen_receiveMem (host : UInt8) : (returnedLen (receiveMem host) 24).toNat = 16 := by
  have hhdr := UserMem.read_take (read_receiveMem host) (show sizeofMsghdrMin ≤ 48 by decide)
  have hlen := returnedLen_msghdr hhdr (by decide)
  rw [show (24 : UInt64) = 16 + 8 from rfl, hlen]
  rfl

theorem sameBuffer_receive (host host' : UInt8) :
    SameBuffer (recvmsgCall host host') (recvfromCall host host') where
  recvmsg := rfl
  recvfrom := rfl
  enter := rfl
  exit := rfl
  msg := show (16 : UInt64) ≠ 0 by decide
  header := ⟨_, UserMem.read_take (read_receiveMem host) (show sizeofMsghdrMin ≤ 48 by decide),
    msgName_receiveBytes host⟩
  buffer := show (48 : UInt64) ≠ 0 by decide
  lenPtr := show (24 : UInt64) = 16 + 8 from rfl
  hasLen := show (24 : UInt64) ≠ 0 by decide

theorem delivers_receive (host host' : UInt8) : (recvfromCall host host').Delivers (inetAddress host') := by
  have hcapacity : (recvfromCall host host').capacity = 16 := returnedLen_receiveMem host
  have hreturned : (recvfromCall host host').returned = 16 := returnedLen_receiveMem host'
  refine ⟨hreturned, ?_⟩
  rw [FinishedCall.written, hcapacity, hreturned]
  exact UserMem.read_slice (read_receiveMem host') 32 16 (by decide)

theorem addressAt_receiveMem (host : UInt8) :
    addressAt (receiveMem host) 48 16 = decodeAddress 16 ((inetAddress host).take 8) := by
  have hread : (receiveMem host).read 48 8 = some ((inetAddress host).take 8) :=
    UserMem.read_slice (read_receiveMem host) 32 8 (by decide)
  exact addressAt_of_read (show (48 : UInt64) ≠ 0 by decide) (by decide) hread

/-- The sender is the one of the message before. -/
theorem receivedAddress_iff_again : ∃ out out', (recvmsgCall 1 1).Emits out ∧ (recvfromCall 1 1).Emits out' ∧
    out.remoteEp.Same out'.remoteEp ∧ Shows out'.remoteEp (addressOf (inetAddress 1)) := by
  obtain ⟨out, hm⟩ := (recvmsgCall 1 1).exists_emits
  obtain ⟨out', hf⟩ := (recvfromCall 1 1).exists_emits
  have hcapacity : (recvfromCall 1 1).capacity = 16 := returnedLen_receiveMem 1
  have hboth := receivedAddress_iff (sameBuffer_receive 1 1) (delivers_receive 1 1) hm hf
  rw [hcapacity] at hboth
  refine ⟨out, out', hm, hf, hboth.mpr ⟨?_, fun hlt => absurd hlt (by decide)⟩⟩
  exact addressAt_receiveMem 1

/-- The buffer holds 10.0.0.1 and 10.0.0.2 sends. -/
theorem not_receivedAddress :
    ¬ ∀ (m f : FinishedCall) (sender : Bytes) (out out' : NetworkEvent), SameBuffer m f → f.Delivers sender →
      m.Emits out → f.Emits out' →
      out.remoteEp.Same out'.remoteEp ∧ Shows out'.remoteEp (addressOf (sender.take f.capacity)) := by
  intro h
  obtain ⟨out, hm⟩ := (recvmsgCall 1 2).exists_emits
  obtain ⟨out', hf⟩ := (recvfromCall 1 2).exists_emits
  have hboth := h _ _ _ out out' (sameBuffer_receive 1 2) (delivers_receive 1 2) hm hf
  have hbefore := (sameBuffer_receive 1 2).shows_before hm
  have hafter := (sameBuffer_receive 1 2).shows_after hf
  have hsame := (hbefore.same_iff hafter).mp hboth.1
  have hcapacity : (recvfromCall 1 2).capacity = 16 := returnedLen_receiveMem 1
  have hreturned : (recvfromCall 1 2).returned = 16 := returnedLen_receiveMem 2
  rw [FinishedCall.address, hcapacity, hreturned] at hsame
  have hhosts : decodeAddress 16 ((inetAddress 1).take 8) = decodeAddress 16 ((inetAddress 2).take 8) :=
    (addressAt_receiveMem 1).symm.trans (hsame.trans (addressAt_receiveMem 2))
  exact absurd hhosts (by decide)

end ETraceGen.Bpf
