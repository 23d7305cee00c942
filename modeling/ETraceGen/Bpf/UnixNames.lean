import ETraceGen.Bpf.Sockaddr

/-!
# Names of UNIX sockets

Linux names a UNIX socket by all the path bytes of its address or, for a pathname, by those before the first
NUL. A path is one C string for all of them, with `@` where an abstract name has its leading NUL.

* `UnixName`, `linuxName` : the names, and the one an address has;
* `MarkerClash` : the two names that the marker makes one;
* `unixPath_faithful` : the path is a string, of the bytes of the name only, and tells apart the names that
  do not clash.
-/

namespace ETraceGen.Bpf

/-! ## Names -/

inductive UnixName where
  | unnamed
  | pathname (path : Bytes)
  | abstract (name : Bytes)
  deriving DecidableEq

/-- The name of an address with those path bytes. -/
def linuxName : Bytes → UnixName
  | [] => .unnamed
  | b :: rest => if b = 0 then .abstract (b :: rest) else .pathname ((b :: rest).takeWhile (· != 0))

/-- An abstract name has no further NUL. -/
def UnixName.Plain : UnixName → Prop
  | .abstract name => 0 ∉ name.tail
  | _ => True

/-- The string the path of an endpoint has for a plain name. -/
def markedName : UnixName → Bytes
  | .unnamed => []
  | .pathname path => path
  | .abstract name => if name.tail = [] then [] else 64 :: name.tail

/-- Two names with one string: an abstract name and the pathname that spells it with the marker, and the
unnamed socket and the abstract name without a byte. -/
inductive MarkerClash : UnixName → UnixName → Prop where
  | spelled (name : Bytes) (h : name ≠ []) : MarkerClash (.abstract (0 :: name)) (.pathname (64 :: name))
  | empty : MarkerClash .unnamed (.abstract [0])

theorem takeWhile_plain {s : Bytes} (h : 0 ∉ s) : s.takeWhile (· != 0) = s :=
  List.takeWhile_eq_self_iff.mpr fun _ hb => bne_iff_ne.mpr fun h0 => h (h0 ▸ hb)

/-- The string of a plain name of 106 bytes at most. -/
theorem unixName_eq {path : Bytes} (hlen : path.length ≤ 106) (hplain : (linuxName path).Plain) :
    unixName path = markedName (linuxName path) := by
  cases path with
  | nil => rfl
  | cons b rest =>
    rw [List.length_cons] at hlen
    rw [unixName, linuxName] at *
    by_cases hzero : b = 0
    · rw [if_pos hzero] at hplain ⊢
      rw [if_pos hzero]
      have hrest : 0 ∉ rest := hplain
      rw [List.take_of_length_le (by unfold unixPathLen; omega), takeWhile_plain hrest]
      cases rest with
      | nil => rfl
      | cons c rest =>
        have hc : (c != 0) = true := bne_iff_ne.mpr fun h0 => hrest (h0 ▸ List.mem_cons_self)
        rw [List.any_cons, hc, Bool.true_or, if_pos rfl]
        rfl
    · rw [if_neg hzero, if_neg hzero, List.take_of_length_le (by rw [List.length_cons]; unfold unixPathLen; omega)]
      rfl

/-- An address has one of the three forms of names. -/
theorem linuxName_cases (path : Bytes) :
    linuxName path = .unnamed ∨ (∃ c s, linuxName path = .pathname (c :: s)) ∨
      ∃ s, linuxName path = .abstract (0 :: s) := by
  cases path with
  | nil => exact Or.inl rfl
  | cons b rest =>
    rw [linuxName]
    by_cases hzero : b = 0
    · rw [if_pos hzero, hzero]
      exact Or.inr (Or.inr ⟨rest, rfl⟩)
    · rw [if_neg hzero, List.takeWhile_cons_of_pos (p := (· != 0)) (bne_iff_ne.mpr hzero)]
      exact Or.inr (Or.inl ⟨b, _, rfl⟩)

theorem MarkerClash.markedName_eq {u v : UnixName} (h : MarkerClash u v) : markedName u = markedName v := by
  cases h with
  | spelled name hname => exact if_neg hname
  | empty => rfl

theorem markedName_abstract (s : Bytes) :
    markedName (.abstract (0 :: s)) = if s = [] then [] else 64 :: s :=
  rfl

theorem markedName_abstract_inj {s t : Bytes}
    (h : markedName (.abstract (0 :: s)) = markedName (.abstract (0 :: t))) : s = t := by
  rw [markedName_abstract, markedName_abstract] at h
  by_cases hs : s = []
  · by_cases ht : t = []
    · rw [hs, ht]
    · rw [if_pos hs, if_neg ht] at h
      cases h
  · by_cases ht : t = []
    · rw [if_neg hs, if_pos ht] at h
      cases h
    · rw [if_neg hs, if_neg ht] at h
      exact (List.cons.inj h).2

theorem eq_or_clash_symm {name name' : UnixName}
    (h : name = name' ∨ MarkerClash name name' ∨ MarkerClash name' name) :
    name' = name ∨ MarkerClash name' name ∨ MarkerClash name name' :=
  h.imp Eq.symm Or.symm

/-- A name that shares its string with an abstract one. -/
theorem eq_or_clash_of_abstract {path s : Bytes}
    (h : markedName (linuxName path) = markedName (.abstract (0 :: s))) :
    linuxName path = .abstract (0 :: s) ∨ MarkerClash (linuxName path) (.abstract (0 :: s)) ∨
      MarkerClash (.abstract (0 :: s)) (linuxName path) := by
  rcases linuxName_cases path with hname | ⟨c, t, hname⟩ | ⟨t, hname⟩
  · rw [hname, markedName_abstract] at h
    split_ifs at h with hs
    · rw [hname, hs]
      exact Or.inr (Or.inl .empty)
    · cases h
  · rw [hname, markedName_abstract] at h
    split_ifs at h with hs
    · cases h
    · obtain ⟨rfl, rfl⟩ := List.cons.inj h
      rw [hname]
      exact Or.inr (Or.inr (.spelled t hs))
  · rw [hname] at h ⊢
    rw [markedName_abstract_inj h]
    exact Or.inl rfl

/-- **Two names have one string** when they are one, or clash. -/
theorem markedName_eq_iff (path path' : Bytes) :
    markedName (linuxName path) = markedName (linuxName path') ↔
      linuxName path = linuxName path' ∨ MarkerClash (linuxName path) (linuxName path') ∨
        MarkerClash (linuxName path') (linuxName path) := by
  constructor
  · intro h
    rcases linuxName_cases path' with hname' | ⟨c', s', hname'⟩ | ⟨s', hname'⟩
    · rcases linuxName_cases path with hname | ⟨c, s, hname⟩ | ⟨s, hname⟩
      · exact Or.inl (hname.trans hname'.symm)
      · rw [hname, hname'] at h
        cases h
      · rw [hname] at h ⊢
        exact eq_or_clash_symm (eq_or_clash_of_abstract h.symm)
    · rcases linuxName_cases path with hname | ⟨c, s, hname⟩ | ⟨s, hname⟩
      · rw [hname, hname'] at h
        cases h
      · rw [hname, hname'] at h ⊢
        exact Or.inl (congrArg UnixName.pathname h)
      · rw [hname] at h ⊢
        exact eq_or_clash_symm (eq_or_clash_of_abstract h.symm)
    · rw [hname'] at h ⊢
      exact eq_or_clash_of_abstract h
  · rintro (heq | hclash | hclash)
    · rw [heq]
    · exact hclash.markedName_eq
    · exact hclash.markedName_eq.symm

/-! ## Paths -/

/-- A `sockaddr_un` in memory: its family, and the path bytes its length covers. -/
structure UnixAddressAt (mem : UserMem) (ptr : UInt64) (len : UInt32) (path : Bytes) : Prop where
  nonnull : ptr ≠ 0
  length : len.toNat = 2 + path.length
  fits : path.length ≤ unixPathLen
  read : mem.read ptr len.toNat = some (1 :: 0 :: path)

theorem UnixAddressAt.addressAt_eq {mem : UserMem} {ptr : UInt64} {len : UInt32} {path : Bytes}
    (h : UnixAddressAt mem ptr len path) :
    addressAt mem ptr len.toNat = { family := afUnix, name := unixName path } := by
  have hlen := h.length
  have hfits := h.fits
  have hfamily : familyOf (1 :: 0 :: path) = afUnix := rfl
  have hextent : extent afUnix len.toNat = len.toNat := by
    rw [extent, if_neg fun hin => absurd hin.1 (by decide), if_neg fun hin => absurd hin.1 (by decide),
      if_pos rfl]
    unfold sizeofSockaddrUn
    omega
  rw [addressAt_of_read h.nonnull (by omega) (by rw [hfamily, hextent, h.read]), decodeAddress, hfamily,
    if_neg fun hin => absurd hin.1 (by decide), if_neg fun hin => absurd hin.1 (by decide), if_pos rfl]
  rfl

/-- What the path of a parsed endpoint holds. -/
theorem UnixAddressAt.holds {mem : UserMem} {ptr : UInt64} {len : UInt32} {path : Bytes}
    (h : UnixAddressAt mem ptr len path) (endpoint : NetworkEndpoint) :
    (parseSockaddrUser mem ptr len endpoint).path.Holds (unixName path) := by
  have hshows := parseSockaddrUser_shows mem ptr len endpoint
  rw [h.addressAt_eq] at hshows
  exact hshows.path

/-- **The path of a UNIX socket** is a string, made of the bytes of the name and of nothing else, and two plain
names have different ones unless they clash. -/
theorem unixPath_faithful {mem mem' : UserMem} {ptr ptr' : UInt64} {len len' : UInt32} {path path' : Bytes}
    (h : UnixAddressAt mem ptr len path) (h' : UnixAddressAt mem' ptr' len' path')
    (endpoint endpoint' : NetworkEndpoint) :
    0 ∈ (parseSockaddrUser mem ptr len endpoint).path.toList ∧
      (path = path' → (parseSockaddrUser mem ptr len endpoint).path.cstr =
        (parseSockaddrUser mem' ptr' len' endpoint').path.cstr) ∧
      (path.length ≤ 106 → path'.length ≤ 106 → (linuxName path).Plain → (linuxName path').Plain →
        linuxName path ≠ linuxName path' →
        ((parseSockaddrUser mem ptr len endpoint).path.cstr ≠
            (parseSockaddrUser mem' ptr' len' endpoint').path.cstr ↔
          ¬MarkerClash (linuxName path) (linuxName path') ∧
            ¬MarkerClash (linuxName path') (linuxName path))) := by
  have hholds := h.holds endpoint
  have hholds' := h'.holds endpoint'
  rw [hholds.cstr, hholds'.cstr]
  refine ⟨hholds.terminated, fun hpath => by rw [hpath], fun hlen hlen' hplain hplain' hne => ?_⟩
  rw [unixName_eq hlen hplain, unixName_eq hlen' hplain', ne_eq, markedName_eq_iff, not_or, not_or]
  exact and_iff_right hne

/-! ### The marker -/

/-- The address of a name, in a memory that holds nothing else. -/
def unixMem (path : Bytes) : UserMem := .holding 0x1000 (1 :: 0 :: path)

def unixLen (path : Bytes) : UInt32 := UInt32.ofNat (2 + path.length)

theorem unixAddressAt_unixMem {path : Bytes} (h : path.length ≤ unixPathLen) :
    UnixAddressAt (unixMem path) 0x1000 (unixLen path) path := by
  have hlen : (unixLen path).toNat = 2 + path.length := by
    unfold unixPathLen at h
    exact UInt32.toNat_ofNat_of_lt' (by unfold UInt32.size; omega)
  refine ⟨by decide, hlen, h, ?_⟩
  have hread := UserMem.read_holding 0x1000 (show (1 :: 0 :: path).length ≤ UInt64.size by
    unfold unixPathLen at h
    unfold UInt64.size
    rw [List.length_cons, List.length_cons]
    omega)
  rwa [List.length_cons, List.length_cons, Nat.add_assoc, Nat.add_comm, ← hlen] at hread

/-- `foo` in the working directory, and `foo` in the abstract namespace. -/
theorem unixPath_faithful_foo :
    (parseSockaddrUser (unixMem [102, 111, 111]) 0x1000 5 default).path.cstr ≠
      (parseSockaddrUser (unixMem [0, 102, 111, 111]) 0x1000 6 default).path.cstr :=
  ((unixPath_faithful (unixAddressAt_unixMem (show ([102, 111, 111] : Bytes).length ≤ unixPathLen by decide))
    (unixAddressAt_unixMem (show ([0, 102, 111, 111] : Bytes).length ≤ unixPathLen by decide)) default default).2.2 (by decide)
    (by decide) trivial (show 0 ∉ [102, 111, 111] by decide) (by decide)).mpr ⟨nofun, nofun⟩

/-- `@foo` in the working directory has the path that `foo` has in the abstract namespace. -/
theorem not_unixPath_faithful :
    ¬ ∀ (mem mem' : UserMem) (ptr ptr' : UInt64) (len len' : UInt32) (path path' : Bytes)
      (endpoint endpoint' : NetworkEndpoint), UnixAddressAt mem ptr len path →
      UnixAddressAt mem' ptr' len' path' →
      0 ∈ (parseSockaddrUser mem ptr len endpoint).path.toList ∧
        (path = path' → (parseSockaddrUser mem ptr len endpoint).path.cstr =
          (parseSockaddrUser mem' ptr' len' endpoint').path.cstr) ∧
        (path.length ≤ 106 → path'.length ≤ 106 → linuxName path ≠ linuxName path' →
          (parseSockaddrUser mem ptr len endpoint).path.cstr ≠
            (parseSockaddrUser mem' ptr' len' endpoint').path.cstr) := by
  intro h
  have hpathname := unixAddressAt_unixMem (show ([64, 102, 111, 111] : Bytes).length ≤ unixPathLen by decide)
  have habstract := unixAddressAt_unixMem (show ([0, 102, 111, 111] : Bytes).length ≤ unixPathLen by decide)
  refine (h _ _ _ _ _ _ _ _ default default hpathname habstract).2.2 (by decide) (by decide) (by decide) ?_
  rw [(hpathname.holds default).cstr, (habstract.holds default).cstr]
  rfl

end ETraceGen.Bpf
