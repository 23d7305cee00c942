import Mathlib.Data.List.TakeDrop
import Mathlib.Logic.Equiv.Basic
import Mathlib.Tactic.Ring

/-!
# Memory layouts

A `Layout α` says which bytes a value of `α` occupies: `write` and `read` are inverse to each other on
exactly `size` bytes, so that nothing of a value is lost in memory and nothing of the memory is lost in
the value. Layouts of machine words, byte arrays and pairs are composed into structures, whose padding
bytes are fields like any other.
-/

namespace ETraceGen

namespace Layout

/-! ## Little-endian numbers -/

/-- The number with the given little-endian bytes. -/
def ofLE (bs : List UInt8) : Nat := bs.foldr (fun b n => b.toNat + 256 * n) 0

/-- The `w` little-endian bytes of a number. -/
def toLE : (w : Nat) → Nat → List UInt8
  | 0, _ => []
  | w + 1, n => UInt8.ofNat n :: toLE w (n / 256)

@[simp] theorem ofLE_nil : ofLE [] = 0 := rfl

@[simp] theorem ofLE_cons (b : UInt8) (bs : List UInt8) :
    ofLE (b :: bs) = b.toNat + 256 * ofLE bs := rfl

@[simp] theorem length_toLE (w n : Nat) : (toLE w n).length = w := by
  induction w generalizing n with
  | zero => rfl
  | succ w ih => rw [toLE, List.length_cons, ih]

theorem ofLE_lt (bs : List UInt8) : ofLE bs < 256 ^ bs.length := by
  induction bs with
  | nil => simp
  | cons b bs ih =>
    have hb : b.toNat < 256 := b.toNat_lt
    rw [ofLE_cons, List.length_cons, pow_succ]
    omega

theorem ofLE_toLE {w n : Nat} (h : n < 256 ^ w) : ofLE (toLE w n) = n := by
  induction w generalizing n with
  | zero =>
    rw [pow_zero] at h
    rw [toLE, ofLE_nil]
    omega
  | succ w ih =>
    rw [pow_succ] at h
    have hlow : (UInt8.ofNat n).toNat = n % 256 := UInt8.toNat_ofNat'
    rw [toLE, ofLE_cons, ih (by omega), hlow]
    omega

theorem toLE_ofLE (bs : List UInt8) : toLE bs.length (ofLE bs) = bs := by
  induction bs with
  | nil => rfl
  | cons b bs ih =>
    have hb : b.toNat < 256 := b.toNat_lt
    have hhigh : (b.toNat + 256 * ofLE bs) / 256 = ofLE bs := by omega
    have hlow : UInt8.ofNat (b.toNat + 256 * ofLE bs) = b := by
      apply UInt8.toNat_inj.mp
      rw [UInt8.toNat_ofNat']
      omega
    rw [List.length_cons, toLE, ofLE_cons, hhigh, ih, hlow]

end Layout

structure Layout (α : Type) where
  size : Nat
  write : α → List UInt8
  read : List UInt8 → α
  length_write : ∀ a, (write a).length = size
  read_write : ∀ a rest, read (write a ++ rest) = a
  write_read : ∀ bs, size ≤ bs.length → write (read bs) = bs.take size

namespace Layout

variable {α β : Type}

/-- A word of `w` bytes, for a type numbered below `256 ^ w`. -/
def word (w : Nat) (toNat : α → Nat) (ofNat : Nat → α) (hlt : ∀ a, toNat a < 256 ^ w)
    (hof : ∀ a, ofNat (toNat a) = a) (hto : ∀ n, n < 256 ^ w → toNat (ofNat n) = n) : Layout α where
  size := w
  write := fun a => toLE w (toNat a)
  read := fun bs => ofNat (ofLE (bs.take w))
  length_write := fun a => length_toLE w _
  read_write := by
    intro a rest
    rw [List.take_left' (length_toLE w _), ofLE_toLE (hlt a), hof]
  write_read := by
    intro bs h
    have hlen : (bs.take w).length = w := List.length_take_of_le h
    have hbound := ofLE_lt (bs.take w)
    have hback := toLE_ofLE (bs.take w)
    rw [hlen] at hbound hback
    rw [hto _ hbound, hback]

def u32 : Layout UInt32 :=
  word 4 UInt32.toNat UInt32.ofNat (fun a => a.toNat_lt) (fun _ => UInt32.ofNat_toNat)
    (fun _ h => UInt32.toNat_ofNat_of_lt h)

def u64 : Layout UInt64 :=
  word 8 UInt64.toNat UInt64.ofNat (fun a => a.toNat_lt) (fun _ => UInt64.ofNat_toNat)
    (fun _ h => UInt64.toNat_ofNat_of_lt h)

/-- A fixed array of bytes. -/
def bytes (n : Nat) : Layout (Vector UInt8 n) where
  size := n
  write := Vector.toList
  read := fun bs => Vector.ofFn fun i => bs.getD i 0
  length_write := fun a => a.length_toList
  read_write := by
    intro a rest
    ext i hi
    have hlen : i < a.toList.length := by simpa using hi
    rw [Vector.getElem_ofFn, List.getD_eq_getElem?_getD, List.getElem?_append_left hlen,
      List.getElem?_eq_getElem hlen, Option.getD_some, Vector.getElem_toList]
  write_read := by
    intro bs h
    apply List.ext_getElem
    · rw [Vector.length_toList, List.length_take_of_le h]
    · intro i hi hi'
      have hlen : i < bs.length := by
        rw [Vector.length_toList] at hi
        omega
      rw [Vector.getElem_toList, Vector.getElem_ofFn, List.getElem_take,
        List.getD_eq_getElem?_getD, List.getElem?_eq_getElem hlen, Option.getD_some]

/-- One value right after the other. -/
def pair (l : Layout α) (m : Layout β) : Layout (α × β) where
  size := l.size + m.size
  write := fun p => l.write p.1 ++ m.write p.2
  read := fun bs => (l.read bs, m.read (bs.drop l.size))
  length_write := fun p => by rw [List.length_append, l.length_write, m.length_write]
  read_write := by
    rintro ⟨a, b⟩ rest
    have hdrop : (l.write a ++ (m.write b ++ rest)).drop l.size = m.write b ++ rest :=
      List.drop_left' (l.length_write a)
    rw [List.append_assoc, l.read_write, hdrop, m.read_write]
  write_read := by
    intro bs h
    have hdrop : m.size ≤ (bs.drop l.size).length := by
      rw [List.length_drop]
      omega
    rw [l.write_read bs (by omega), m.write_read _ hdrop, List.take_add]

/-- The layout of a type that is another one under different names. -/
def map (l : Layout α) (e : α ≃ β) : Layout β where
  size := l.size
  write := fun b => l.write (e.symm b)
  read := fun bs => e (l.read bs)
  length_write := fun b => l.length_write _
  read_write := fun b rest => by rw [l.read_write, e.apply_symm_apply]
  write_read := fun bs h => by rw [e.symm_apply_apply, l.write_read bs h]

def i32 : Layout Int32 := u32.map ⟨UInt32.toInt32, Int32.toUInt32, fun _ => rfl, fun _ => rfl⟩

def i64 : Layout Int64 := u64.map ⟨UInt64.toInt64, Int64.toUInt64, fun _ => rfl, fun _ => rfl⟩

end Layout

end ETraceGen
