import ETraceGen.Bpf.Sockaddr
import ETraceGen.Sink.RoundTrip

/-!
# Addresses in the log

The family, the port and the address members of an endpoint are read back from its JSON text.

* `readBack` : the reading, by the grammar of JSON and hex digit by hex digit;
* `readBack_writeNetworkEndpoint` : it gives what the endpoint holds;
* `endpoint_survives` : the address of a parsed endpoint is the one in memory, byte by byte.
-/

namespace ETraceGen.JsonSink

open Json (Line Tail units)

/-! ## Hex texts -/

/-- The value of a code unit that is a hex digit. -/
def hexValue? (u : UInt16) : Option UInt8 := (Json.hexDigit? u.toUInt8).map UInt16.toUInt8

def hexBytes? : List UInt16 → Option Bytes
  | [] => some []
  | [_] => none
  | u :: v :: us =>
    match hexValue? u, hexValue? v, hexBytes? us with
    | some a, some b, some bs => some ((a <<< 4 ||| b) :: bs)
    | _, _, _ => none

/-- The two digits of a byte, read back. -/
theorem hexValue_digits (b : UInt8) :
    hexValue? (hexDigit (b >>> 4 &&& 0x0F)).toUInt16 = some (b >>> 4 &&& 0x0F) ∧
      hexValue? (hexDigit (b &&& 0x0F)).toUInt16 = some (b &&& 0x0F) ∧
      (b >>> 4 &&& 0x0F) <<< 4 ||| (b &&& 0x0F) = b := by
  have hall : ∀ k < 256,
      hexValue? (hexDigit (UInt8.ofNat k >>> 4 &&& 0x0F)).toUInt16 = some (UInt8.ofNat k >>> 4 &&& 0x0F) ∧
        hexValue? (hexDigit (UInt8.ofNat k &&& 0x0F)).toUInt16 = some (UInt8.ofNat k &&& 0x0F) ∧
        (UInt8.ofNat k >>> 4 &&& 0x0F) <<< 4 ||| (UInt8.ofNat k &&& 0x0F) = UInt8.ofNat k := by
    decide +kernel
  have hb := hall b.toNat b.toNat_lt
  rwa [UInt8.ofNat_toNat] at hb

/-- **A hex text reads back** as the bytes it was made of. -/
theorem hexBytes_bytesToHex (bytes : Bytes) (size : Nat) :
    hexBytes? (units (bytesToHex bytes size)) = some (bytes.take size) := by
  unfold bytesToHex
  generalize bytes.take size = bs
  induction bs with
  | nil => rfl
  | cons b bs ih =>
    obtain ⟨hhigh, hlow, hboth⟩ := hexValue_digits b
    rw [List.flatMap_cons]
    show hexBytes? ((hexDigit (b >>> 4 &&& 0x0F)).toUInt16 :: (hexDigit (b &&& 0x0F)).toUInt16 ::
      units (bs.flatMap _)) = _
    rw [hexBytes?, hhigh, hlow, ih]
    dsimp only
    rw [hboth]

/-! ## Reading the members -/

/-- An endpoint as its JSON says it. -/
structure EndpointText where
  family : Nat
  port : Nat
  addr : Bytes
  deriving DecidableEq

def member? (name : String) (ms : List (List UInt16 × Json)) : Option Json :=
  (ms.find? fun m => m.1 = units (str name)).map Prod.snd

def nat? : Json → Option Nat
  | .num m e => if e = 0 ∧ 0 ≤ m then some m.toNat else none
  | _ => none

def hex? : Json → Option Bytes
  | .str us => hexBytes? us
  | _ => none

def readEndpoint (label : String) : Json → Option EndpointText
  | .obj ms =>
    match (member? (label ++ "_family") ms).bind nat?, (member? (label ++ "_port") ms).bind nat?,
      (member? (label ++ "_addr") ms).bind hex? with
    | some family, some port, some addr => some ⟨family, port, addr⟩
    | _, _, _ => none
  | _ => none

/-- The members of an endpoint, as an object of their own, read as JSON. -/
def readBack (label : String) (ep : NetworkEndpoint) : Option EndpointText :=
  (Json.parse (.flatten [str "\x7b", (writeNetworkEndpoint label ep).drop 1, str "\x7d"])).bind
    (readEndpoint label)

theorem nat?_int (n : Nat) : nat? (int n) = some n := by
  rw [int, nat?, if_pos ⟨rfl, Int.natCast_nonneg n⟩, Int.toNat_natCast]

/-- The members of an endpoint say what it holds. -/
theorem readEndpoint_members {label : String} (hlabel : label ∈ ["local", "remote"]) (ep : NetworkEndpoint) :
    readEndpoint label (.obj (endpointMembers label ep)) =
      some ⟨ep.family.toNat, ep.port.toNat, ep.addr.toList.take (min ep.addrLen.toNat 16)⟩ := by
  have hfind : ∀ l ∈ ["local", "remote"],
      units (str (l ++ "_family")) ≠ units (str (l ++ "_port")) ∧
        units (str (l ++ "_family")) ≠ units (str (l ++ "_addr")) ∧
        units (str (l ++ "_port")) ≠ units (str (l ++ "_addr")) ∧
        units (str (l ++ "_addr_len")) ≠ units (str (l ++ "_addr")) := by
    decide
  obtain ⟨hfp, hfa, hpa, hla⟩ := hfind label hlabel
  have hfamily : member? (label ++ "_family") (endpointMembers label ep) = some (int ep.family.toNat) := by
    simp [member?, endpointMembers, field]
  have hport : member? (label ++ "_port") (endpointMembers label ep) = some (int ep.port.toNat) := by
    simp [member?, endpointMembers, field, hfp]
  have haddr : member? (label ++ "_addr") (endpointMembers label ep) =
      some (text (bytesToHex ep.addr.toList (min ep.addrLen.toNat 16))) := by
    simp [member?, endpointMembers, field, hfa, hpa, hla]
  rw [readEndpoint, hfamily, hport, haddr, Option.bind_some, Option.bind_some, Option.bind_some, nat?_int,
    nat?_int, text, hex?, hexBytes_bytesToHex]

/-- **The text of an endpoint reads back** as its family, its port and the bytes of its address. -/
theorem readBack_writeNetworkEndpoint {label : String} (hlabel : label ∈ ["local", "remote"])
    (ep : NetworkEndpoint) :
    readBack label ep =
      some ⟨ep.family.toNat, ep.port.toNat, ep.addr.toList.take (min ep.addrLen.toNat 16)⟩ := by
  have htail := writeNetworkEndpoint_tail hlabel ep .nil
  rw [List.append_nil, List.append_nil] at htail
  generalize hwritten : writeNetworkEndpoint label ep = written at htail
  generalize hmembers : endpointMembers label ep = members at htail
  cases htail with
  | nil => cases hmembers
  | cons hline =>
    next s =>
      have htext : Json.Text (0x7B :: (s ++ [0x7D])) (.obj members) :=
        ⟨[], _, [], by rw [List.append_nil, List.nil_append], nofun, nofun, hline.obj.derives⟩
      have hparse : Json.parse (.flatten [str "\x7b", s, str "\x7d"]) = some (.obj members) := by
        simp only [List.flatten_cons, List.flatten_nil, List.append_nil]
        exact htext.parse_eq
      rw [readBack, hwritten, List.drop_one, List.tail_cons, hparse, Option.bind_some, ← hmembers,
        readEndpoint_members hlabel]

/-! ## From memory to the log -/

open Bpf

/-- An IP address in memory: one of the family, as long as it must be, and readable. -/
structure IpAddressAt (mem : UserMem) (ptr : UInt64) (len : UInt32) (family : UInt32) (size : Nat)
    (bs : Bytes) : Prop where
  nonnull : ptr ≠ 0
  long : size ≤ len.toNat
  read : mem.read ptr size = some bs
  family : familyOf bs = family

/-- The port of an address, in host order. -/
def hostPort (bs : Bytes) : Nat := (bs.getD 2 0).toNat * 256 + (bs.getD 3 0).toNat

theorem toNat_portOf_drop (bs : Bytes) : (portOf (bs.drop 2)).toNat = hostPort bs := by
  have hport : portOf (bs.drop 2) = UInt32.ofNat (hostPort bs) := by
    simp [portOf, hostPort, List.getD_eq_getElem?_getD]
  have hhigh := (bs.getD 2 0).toNat_lt
  have hlow := (bs.getD 3 0).toNat_lt
  rw [hport, UInt32.toNat_ofNat_of_lt']
  unfold hostPort UInt32.size
  omega

section
variable {mem : UserMem} {ptr : UInt64} {len : UInt32} {bs : Bytes}

theorem IpAddressAt.addressAt_inet (h : IpAddressAt mem ptr len afInet sizeofSockaddrIn bs) :
    addressAt mem ptr len.toNat =
      { family := afInet, port := portOf (bs.drop 2), addr := (bs.drop 4).take 4 } := by
  have hin : familyOf bs = afInet ∧ sizeofSockaddrIn ≤ len.toNat := ⟨h.family, h.long⟩
  have hextent : extent (familyOf bs) len.toNat = sizeofSockaddrIn := if_pos hin
  have hlen : 2 ≤ len.toNat := Nat.le_trans (by decide) h.long
  rw [addressAt_of_read h.nonnull hlen (by rw [hextent, h.read]), decodeAddress, if_pos hin]

theorem IpAddressAt.addressAt_inet6 (h : IpAddressAt mem ptr len afInet6 sizeofSockaddrIn6 bs) :
    addressAt mem ptr len.toNat =
      { family := afInet6, port := portOf (bs.drop 2), addr := (bs.drop 8).take 16 } := by
  have hnot : ¬(familyOf bs = afInet ∧ sizeofSockaddrIn ≤ len.toNat) := by
    rw [h.family]
    exact fun hin => absurd hin.1 (by decide)
  have hin : familyOf bs = afInet6 ∧ sizeofSockaddrIn6 ≤ len.toNat := ⟨h.family, h.long⟩
  have hextent : extent (familyOf bs) len.toNat = sizeofSockaddrIn6 := by
    rw [extent, if_neg hnot, if_pos hin]
  have hlen : 2 ≤ len.toNat := Nat.le_trans (by decide) h.long
  rw [addressAt_of_read h.nonnull hlen (by rw [hextent, h.read]), decodeAddress, if_neg hnot, if_pos hin]

/-- Any other address has neither a port nor address bytes. -/
theorem addressAt_of_no_ip (h : ∀ bs, ¬IpAddressAt mem ptr len afInet sizeofSockaddrIn bs)
    (h6 : ∀ bs, ¬IpAddressAt mem ptr len afInet6 sizeofSockaddrIn6 bs) :
    (addressAt mem ptr len.toNat).port = 0 ∧ (addressAt mem ptr len.toNat).addr = [] := by
  unfold addressAt
  by_cases hnone : ptr = 0 ∨ len.toNat < 2
  · rw [if_pos hnone]
    exact ⟨rfl, rfl⟩
  obtain ⟨hptr, hlen⟩ := not_or.mp hnone
  rw [if_neg hnone]
  cases hfam : mem.read ptr 2 with
  | none => exact ⟨rfl, rfl⟩
  | some fam =>
    dsimp only
    cases hread : mem.read ptr (extent (familyOf fam) len.toNat) with
    | none => exact ⟨rfl, rfl⟩
    | some bs =>
      have hsame := familyOf_of_longer hfam (two_le_extent _ (by omega)) hread
      have hin : ¬(familyOf bs = afInet ∧ sizeofSockaddrIn ≤ len.toNat) := by
        intro hin
        rw [← hsame, extent, if_pos hin] at hread
        exact h bs ⟨hptr, hin.2, hread, hin.1⟩
      have hin6 : ¬(familyOf bs = afInet6 ∧ sizeofSockaddrIn6 ≤ len.toNat) := by
        intro hin6
        rw [← hsame, extent, if_neg hin, if_pos hin6] at hread
        exact h6 bs ⟨hptr, hin6.2, hread, hin6.1⟩
      dsimp only
      rw [decodeAddress, if_neg hin, if_neg hin6]
      split_ifs <;> exact ⟨rfl, rfl⟩

end

/-- The reading of a parsed endpoint is that of the address in memory. -/
theorem readBack_parseSockaddrUser {label : String} (hlabel : label ∈ ["local", "remote"]) (mem : UserMem)
    (ptr : UInt64) (len : UInt32) (endpoint : NetworkEndpoint) :
    readBack label (parseSockaddrUser mem ptr len endpoint) =
      some ⟨(addressAt mem ptr len.toNat).family.toNat, (addressAt mem ptr len.toNat).port.toNat,
        (addressAt mem ptr len.toNat).addr⟩ := by
  have hshows := parseSockaddrUser_shows mem ptr len endpoint
  have hfits := hshows.fits
  have hlen : (UInt32.ofNat (addressAt mem ptr len.toNat).addr.length).toNat =
      (addressAt mem ptr len.toNat).addr.length :=
    UInt32.toNat_ofNat_of_lt' (by unfold UInt32.size; omega)
  rw [readBack_writeNetworkEndpoint hlabel, hshows.family, hshows.port, hshows.addrLen, hshows.addr, hlen,
    Nat.min_eq_left hfits, overwrite_take _ hfits]

/-- **IP addresses survive** from the memory of the traced task to the log, port and bytes; and an endpoint
that is given no IP address has none. -/
theorem endpoint_survives {label : String} (hlabel : label ∈ ["local", "remote"]) (mem : UserMem)
    (ptr : UInt64) (len : UInt32) (endpoint : NetworkEndpoint) :
    (∀ bs, IpAddressAt mem ptr len afInet sizeofSockaddrIn bs →
      readBack label (parseSockaddrUser mem ptr len endpoint) = some ⟨2, hostPort bs, (bs.drop 4).take 4⟩) ∧
    (∀ bs, IpAddressAt mem ptr len afInet6 sizeofSockaddrIn6 bs →
      readBack label (parseSockaddrUser mem ptr len endpoint) =
        some ⟨10, hostPort bs, (bs.drop 8).take 16⟩) ∧
    ((∀ bs, ¬IpAddressAt mem ptr len afInet sizeofSockaddrIn bs) →
      (∀ bs, ¬IpAddressAt mem ptr len afInet6 sizeofSockaddrIn6 bs) →
      (parseSockaddrUser mem ptr len endpoint).port = 0 ∧
        (parseSockaddrUser mem ptr len endpoint).addrLen = 0 ∧
        (parseSockaddrUser mem ptr len endpoint).addr = Vector.replicate 16 0 ∧
        (readBack label (parseSockaddrUser mem ptr len endpoint)).map EndpointText.addr = some []) := by
  rw [readBack_parseSockaddrUser hlabel]
  refine ⟨fun bs h => ?_, fun bs h => ?_, fun h h6 => ?_⟩
  · rw [h.addressAt_inet, toNat_portOf_drop]
    rfl
  · rw [h.addressAt_inet6, toNat_portOf_drop]
    rfl
  · obtain ⟨hport, haddr⟩ := addressAt_of_no_ip h h6
    have hshows := parseSockaddrUser_shows mem ptr len endpoint
    have hempty : overwrite (Vector.replicate 16 0) [] = Vector.replicate 16 0 := by
      apply Vector.ext
      intro i hi
      simp [overwrite]
    refine ⟨hshows.port.trans hport, ?_, ?_, congrArg some haddr⟩
    · rw [hshows.addrLen, haddr]
      rfl
    · rw [hshows.addr, haddr, hempty]

/-- Port 53 of 10.0.0.1. -/
theorem endpoint_survives_inet :
    readBack "remote" (parseSockaddrUser (.holding 0x1000 [2, 0, 0, 53, 10, 0, 0, 1]) 0x1000 16 default) =
      some ⟨2, 53, [10, 0, 0, 1]⟩ :=
  (endpoint_survives (by decide) _ _ _ _).1 [2, 0, 0, 53, 10, 0, 0, 1] ⟨by decide, by decide, rfl, rfl⟩

end ETraceGen.JsonSink
