import Mathlib.Logic.Function.Basic

/-!
# Machine words

Mixing and packing of fixed-width words.

* `xorShift` : the shifts of a mixing function, undone by themselves when they are by half the width
  at least;
* `mul_injective` : multiplication by a constant that has an inverse;
* `hi`, `lo` : the halves of a double word, and what `^^^` and shifted words put in each.
-/

namespace ETraceGen.Words

/-! ## Mixing -/

section Mixing
variable {w : Nat}

def xorShift (s : Nat) (x : BitVec w) : BitVec w := x ^^^ (x >>> s)

theorem xorShift_xorShift {s : Nat} (hs : w ≤ 2 * s) (x : BitVec w) :
    xorShift s (xorShift s x) = x := by
  have hout : x >>> s >>> s = 0#w := by
    apply BitVec.eq_of_getLsbD_eq
    intro i hi
    rw [BitVec.getLsbD_ushiftRight, BitVec.getLsbD_ushiftRight, BitVec.getLsbD_of_ge x _ (by omega),
      BitVec.getLsbD_zero]
  unfold xorShift
  rw [BitVec.ushiftRight_xor_distrib, hout, BitVec.xor_zero, BitVec.xor_assoc, BitVec.xor_self,
    BitVec.xor_zero]

theorem xorShift_injective {s : Nat} (hs : w ≤ 2 * s) :
    Function.Injective (xorShift s : BitVec w → BitVec w) :=
  Function.LeftInverse.injective (xorShift_xorShift hs)

theorem mul_injective {m inverse : BitVec w} (h : m * inverse = 1#w) :
    Function.Injective fun x : BitVec w => x * m := by
  intro x y hxy
  have hback := congrArg (· * inverse) hxy
  simpa only [BitVec.mul_assoc, h, BitVec.mul_one] using hback

end Mixing

/-! ## Packing

A word of `n` bits, widened and shifted, seen in the two halves of a double word. -/

section Packing
variable {n w s : Nat} (a : BitVec n)

theorem extract_high_of_le (hw : n + n ≤ w) (hs : n ≤ s) :
    (a.setWidth w <<< s).extractLsb' n n = a <<< (s - n) := by
  apply BitVec.eq_of_getLsbD_eq
  intro i hi
  have hin : n + i < w := by omega
  have hin' : i - (s - n) < w := by omega
  have hshift : n + i - s = i - (s - n) := by omega
  have hlt : (n + i < s) = (i < s - n) := propext (by omega)
  simp only [BitVec.getLsbD_extractLsb', BitVec.getLsbD_shiftLeft, BitVec.getLsbD_setWidth, hi, hin,
    hin', hshift, hlt, decide_true, Bool.true_and]

theorem extract_high_of_ge (hw : n + n ≤ w) (hs : s ≤ n) :
    (a.setWidth w <<< s).extractLsb' n n = a >>> (n - s) := by
  apply BitVec.eq_of_getLsbD_eq
  intro i hi
  have hin : n + i < w := by omega
  have hin' : n - s + i < w := by omega
  have hshift : n + i - s = n - s + i := by omega
  have hlt : ¬n + i < s := by omega
  simp only [BitVec.getLsbD_extractLsb', BitVec.getLsbD_shiftLeft, BitVec.getLsbD_setWidth,
    BitVec.getLsbD_ushiftRight, hi, hin, hin', hshift, hlt, decide_true, decide_false, Bool.true_and,
    Bool.not_false]

theorem extract_low (hw : n ≤ w) : (a.setWidth w <<< s).extractLsb' 0 n = a <<< s := by
  apply BitVec.eq_of_getLsbD_eq
  intro i hi
  have hin : i < w := by omega
  have hin' : i - s < w := by omega
  simp only [BitVec.getLsbD_extractLsb', BitVec.getLsbD_shiftLeft, BitVec.getLsbD_setWidth, hi, hin,
    hin', Nat.zero_add, decide_true, Bool.true_and]

theorem eq_iff_extract (x y : BitVec (n + n)) :
    x = y ↔ x.extractLsb' n n = y.extractLsb' n n ∧ x.extractLsb' 0 n = y.extractLsb' 0 n := by
  constructor
  · intro h
    rw [h]
    exact ⟨rfl, rfl⟩
  · intro ⟨hhigh, hlow⟩
    apply BitVec.eq_of_getLsbD_eq
    intro i hi
    by_cases h : i < n
    · have hbit := congrArg (fun z => z.getLsbD i) hlow
      simpa only [BitVec.getLsbD_extractLsb', h, Nat.zero_add, decide_true, Bool.true_and] using hbit
    · have hbit := congrArg (fun z => z.getLsbD (i - n)) hhigh
      have hin : i - n < n := by omega
      have hback : n + (i - n) = i := by omega
      simpa only [BitVec.getLsbD_extractLsb', hin, hback, decide_true, Bool.true_and] using hbit

end Packing

/-! ## Halves of a `UInt64` -/

def hi (x : UInt64) : UInt32 := (x >>> 32).toUInt32
def lo (x : UInt64) : UInt32 := x.toUInt32

section Halves
variable (x y : UInt64)

theorem toBitVec_hi : (hi x).toBitVec = x.toBitVec.extractLsb' 32 32 := by
  unfold hi
  ext i h
  simp

theorem toBitVec_lo : (lo x).toBitVec = x.toBitVec.extractLsb' 0 32 := by
  unfold lo
  ext i h
  simp

theorem eq_iff_halves : x = y ↔ hi x = hi y ∧ lo x = lo y := by
  rw [← UInt64.toBitVec_inj, ← UInt32.toBitVec_inj, ← UInt32.toBitVec_inj, toBitVec_hi, toBitVec_hi,
    toBitVec_lo, toBitVec_lo]
  exact eq_iff_extract (n := 32) _ _

@[simp] theorem hi_xor : hi (x ^^^ y) = hi x ^^^ hi y := by
  apply UInt32.toBitVec_inj.mp
  rw [UInt32.toBitVec_xor, toBitVec_hi, toBitVec_hi, toBitVec_hi, UInt64.toBitVec_xor,
    BitVec.extractLsb'_xor]

@[simp] theorem lo_xor : lo (x ^^^ y) = lo x ^^^ lo y := UInt64.toUInt32_xor x y

end Halves

/-! A word in each place it is shifted to. -/

section Shifted
variable (a : UInt32)

@[simp] theorem hi_shift16 : hi (a.toUInt64 <<< 16) = a >>> 16 := by
  apply UInt32.toBitVec_inj.mp
  rw [toBitVec_hi]
  exact extract_high_of_ge a.toBitVec (by decide) (by decide)

@[simp] theorem hi_shift32 : hi (a.toUInt64 <<< 32) = a := by
  apply UInt32.toBitVec_inj.mp
  rw [toBitVec_hi]
  refine (extract_high_of_ge a.toBitVec (by decide) (by decide)).trans ?_
  exact BitVec.ushiftRight_zero _

@[simp] theorem hi_shift48 : hi (a.toUInt64 <<< 48) = a <<< 16 := by
  apply UInt32.toBitVec_inj.mp
  rw [toBitVec_hi]
  exact extract_high_of_le a.toBitVec (by decide) (by decide)

@[simp] theorem hi_word : hi a.toUInt64 = 0 := by
  have hlt := a.toNat_lt
  apply UInt32.toNat_inj.mp
  simp only [hi, UInt64.toNat_toUInt32, UInt64.toNat_shiftRight, UInt32.toNat_toUInt64]
  rw [Nat.shiftRight_eq_div_pow, Nat.div_eq_of_lt (by simpa using hlt)]
  rfl

@[simp] theorem lo_shift16 : lo (a.toUInt64 <<< 16) = a <<< 16 := by
  apply UInt32.toBitVec_inj.mp
  rw [toBitVec_lo]
  exact extract_low a.toBitVec (by decide)

@[simp] theorem lo_shift32 : lo (a.toUInt64 <<< 32) = 0 := by
  apply UInt32.toBitVec_inj.mp
  rw [toBitVec_lo]
  refine (extract_low a.toBitVec (by decide)).trans ?_
  exact BitVec.shiftLeft_eq_zero (by decide)

@[simp] theorem lo_shift48 : lo (a.toUInt64 <<< 48) = 0 := by
  apply UInt32.toBitVec_inj.mp
  rw [toBitVec_lo]
  refine (extract_low a.toBitVec (by decide)).trans ?_
  exact BitVec.shiftLeft_eq_zero (by decide)

@[simp] theorem lo_word : lo a.toUInt64 = a := UInt32.toUInt32_toUInt64 a

end Shifted

end ETraceGen.Words
