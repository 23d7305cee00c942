import ETraceGen.Bpf.UserMemory

/-!
# Parts of what is read

A read fails with any of its bytes, and otherwise is those bytes. So a part of what was read can be read by
itself, and a memory that holds some bytes is read as those.
-/

namespace ETraceGen.Bpf

variable {mem : UserMem}

theorem UserMem.read_of_isSome {ptr : UInt64} {n : Nat}
    (h : ∀ k < n, (mem (ptr + UInt64.ofNat k)).isSome) : ∃ bs, mem.read ptr n = some bs := by
  induction n generalizing ptr with
  | zero => exact ⟨[], rfl⟩
  | succ n ih =>
    have hfirst := h 0 (Nat.succ_pos n)
    rw [show ptr + UInt64.ofNat 0 = ptr by simp] at hfirst
    obtain ⟨b, hb⟩ := Option.isSome_iff_exists.mp hfirst
    have hrest : ∀ k < n, (mem (ptr + 1 + UInt64.ofNat k)).isSome := by
      intro k hk
      have hnext := h (k + 1) (by omega)
      rwa [UInt64.ofNat_add, UInt64.add_comm (UInt64.ofNat k), ← UInt64.add_assoc] at hnext
    obtain ⟨bs, hbs⟩ := ih hrest
    exact ⟨b :: bs, by rw [UserMem.read, hb]; simp [hbs]⟩

theorem UserMem.read_succ {ptr : UInt64} {n : Nat} {bs : Bytes}
    (h : mem.read ptr (n + 1) = some bs) :
    ∃ b rest, bs = b :: rest ∧ mem ptr = some b ∧ mem.read (ptr + 1) n = some rest := by
  rw [UserMem.read] at h
  cases hb : mem ptr with
  | none => rw [hb] at h; cases h
  | some b =>
    rw [hb] at h
    obtain ⟨rest, hrest, rfl⟩ := Option.map_eq_some_iff.mp h
    exact ⟨b, rest, rfl, rfl, hrest⟩

/-- A part of what was read, read by itself. -/
theorem UserMem.read_slice {ptr : UInt64} {n : Nat} {bs : Bytes} (h : mem.read ptr n = some bs)
    (a m : Nat) (ham : a + m ≤ n) :
    mem.read (ptr + UInt64.ofNat a) m = some ((bs.drop a).take m) := by
  induction a generalizing ptr n bs with
  | zero =>
    rw [show ptr + UInt64.ofNat 0 = ptr by simp, List.drop_zero]
    induction m generalizing ptr n bs with
    | zero => rfl
    | succ m ih =>
      obtain ⟨n, rfl⟩ : ∃ n', n = n' + 1 := ⟨n - 1, by omega⟩
      obtain ⟨b, rest, rfl, hb, hrest⟩ := UserMem.read_succ h
      rw [UserMem.read, hb]
      dsimp only
      rw [ih hrest (by omega), List.take_succ_cons]
      rfl
  | succ a ih =>
    obtain ⟨n, rfl⟩ : ∃ n', n = n' + 1 := ⟨n - 1, by omega⟩
    obtain ⟨b, rest, rfl, -, hrest⟩ := UserMem.read_succ h
    have hslice := ih hrest (by omega)
    rwa [UInt64.add_assoc, UInt64.add_comm 1, ← UInt64.ofNat_one, ← UInt64.ofNat_add] at hslice

theorem UserMem.read_take {ptr : UInt64} {n m : Nat} {bs : Bytes} (h : mem.read ptr n = some bs)
    (hm : m ≤ n) : mem.read ptr m = some (bs.take m) := by
  have hslice := UserMem.read_slice h 0 m (by omega)
  rwa [show ptr + UInt64.ofNat 0 = ptr by simp, List.drop_zero] at hslice

theorem UserMem.read_length {ptr : UInt64} {n : Nat} {bs : Bytes} (h : mem.read ptr n = some bs) :
    bs.length = n := by
  induction n generalizing ptr bs with
  | zero =>
    obtain rfl := Option.some.inj h
    rfl
  | succ n ih =>
    obtain ⟨b, rest, rfl, -, hrest⟩ := UserMem.read_succ h
    rw [List.length_cons, ih hrest]

/-- The address of the byte that comes next. -/
theorem ptr_succ (ptr : UInt64) (k : Nat) : ptr + 1 + UInt64.ofNat k = ptr + UInt64.ofNat (k + 1) := by
  rw [UInt64.ofNat_add, UInt64.add_comm (UInt64.ofNat k), ← UInt64.add_assoc]
  rfl

theorem UserMem.read_getElem? {ptr : UInt64} {n : Nat} {bs : Bytes} (h : mem.read ptr n = some bs) {k : Nat}
    (hk : k < n) : bs[k]? = mem (ptr + UInt64.ofNat k) := by
  have hone := UserMem.read_slice h k 1 (by omega)
  obtain ⟨b, rest, hbs, hb, -⟩ := UserMem.read_succ hone
  have hhead : ((bs.drop k).take 1).head? = some b := by rw [hbs]; rfl
  rw [List.head?_take, if_neg Nat.one_ne_zero, List.head?_drop] at hhead
  rw [hb, hhead]

/-- A memory that has those bytes from an address on. -/
theorem UserMem.read_of_getElem? {ptr : UInt64} {bs : Bytes}
    (h : ∀ k < bs.length, mem (ptr + UInt64.ofNat k) = bs[k]?) : mem.read ptr bs.length = some bs := by
  induction bs generalizing ptr with
  | nil => rfl
  | cons b bs ih =>
    have hfirst := h 0 (Nat.succ_pos _)
    rw [show ptr + UInt64.ofNat 0 = ptr by simp] at hfirst
    have hrest : mem.read (ptr + 1) bs.length = some bs := by
      apply ih
      intro k hk
      rw [ptr_succ, h (k + 1) (Nat.succ_lt_succ hk), List.getElem?_cons_succ]
    rw [List.length_cons, UserMem.read, hfirst]
    dsimp only [List.getElem?_cons_zero]
    rw [hrest]
    rfl

theorem UserMem.read_holding (base : UInt64) {bs : Bytes} (h : bs.length ≤ UInt64.size) :
    (UserMem.holding base bs).read base bs.length = some bs := by
  apply UserMem.read_of_getElem?
  intro k hk
  rw [UserMem.holding, UInt64.add_comm, UInt64.add_sub_cancel, UInt64.toNat_ofNat_of_lt' (Nat.lt_of_lt_of_le hk h)]

theorem UserMem.read_eq_none {ptr : UInt64} {n k : Nat} (hk : k < n)
    (h : mem (ptr + UInt64.ofNat k) = none) : mem.read ptr n = none := by
  rw [Option.eq_none_iff_forall_not_mem]
  intro bs hbs
  have hlt : k < bs.length := by
    rw [UserMem.read_length hbs]
    exact hk
  have hsome := UserMem.read_getElem? hbs hk
  rw [h, List.getElem?_eq_getElem hlt] at hsome
  cases hsome

end ETraceGen.Bpf
