import Mathlib.Data.List.Basic

/-!
# Text as bytes

String literals and decimal numbers as the bytes a stream receives, and what a sequence of digits stands
for: `dec n` is the number `n` again, and begins with 0 for 0 alone.
-/

namespace ETraceGen

/-- The bytes of an ASCII literal. -/
def str (s : String) : List UInt8 := s.toList.map fun c => UInt8.ofNat c.toNat

def isDigit (b : UInt8) : Bool := 0x30 ≤ b && b ≤ 0x39

/-- The number a sequence of digits stands for. -/
def ofDigits (ds : List UInt8) : Nat := ds.foldl (fun n b => 10 * n + (b.toNat - 0x30)) 0

/-- A number in decimal, without leading zeros. -/
def dec (n : Nat) : List UInt8 := (Nat.toDigits 10 n).map fun c => UInt8.ofNat c.toNat

def decInt (i : Int) : List UInt8 := if i < 0 then str "-" ++ dec i.natAbs else dec i.natAbs

theorem dec_ne_nil (n : Nat) : dec n ≠ [] := by
  intro h
  exact Nat.toDigits_ne_nil (List.map_eq_nil_iff.mp h)

/-- A digit is one byte. -/
theorem toNat_of_isDigit {c : Char} (h : c.isDigit = true) :
    (UInt8.ofNat c.toNat).toNat = c.toNat := by
  have hle : c.toNat ≤ 57 := (Char.isDigit_iff_toNat.mp h).2
  rw [UInt8.toNat_ofNat']
  exact Nat.mod_eq_of_lt (by omega)

theorem isDigit_of_mem_dec {n : Nat} {b : UInt8} (h : b ∈ dec n) : isDigit b = true := by
  obtain ⟨c, hc, rfl⟩ := List.mem_map.mp h
  have hdigit := Nat.isDigit_of_mem_toDigits (by decide) (by decide) hc
  have hval := toNat_of_isDigit hdigit
  have hrange := Char.isDigit_iff_toNat.mp hdigit
  rw [isDigit, Bool.and_eq_true, decide_eq_true_eq, decide_eq_true_eq, UInt8.le_iff_toNat_le,
    UInt8.le_iff_toNat_le, hval]
  exact hrange

theorem ofDigits_dec (n : Nat) : ofDigits (dec n) = n := by
  have hdigits : ∀ c ∈ Nat.toDigits 10 n, c.isDigit = true := fun c hc =>
    Nat.isDigit_of_mem_toDigits (by decide) (by decide) hc
  have hvalue := Nat.ofDigitChars_toDigits (n := n) (show 1 < 10 by decide) (by decide)
  rw [Nat.ofDigitChars_eq_foldl] at hvalue
  rw [ofDigits, dec, List.foldl_map]
  refine Eq.trans (List.foldl_ext _ _ 0 fun m c hc => ?_) hvalue
  rw [toNat_of_isDigit (hdigits c hc)]
  rfl

theorem dec_of_ten_le {n : Nat} (h : 10 ≤ n) : dec n = dec (n / 10) ++ dec (n % 10) := by
  rw [dec, Nat.toDigits_of_base_le (by decide) h, List.map_append, dec, dec,
    Nat.toDigits_of_lt_base (Nat.mod_lt n (by decide))]

/-- The first digit of a positive number is not 0. -/
theorem head_dec {n : Nat} (h : 0 < n) : ∃ d ds, dec n = d :: ds ∧ d ≠ 0x30 := by
  induction n using Nat.strongRecOn with
  | ind n ih =>
    by_cases hlt : n < 10
    · revert h
      rw [dec, Nat.toDigits_of_lt_base hlt]
      have hall : ∀ k < 10, 0 < k → UInt8.ofNat (Nat.digitChar k).toNat ≠ 0x30 := by decide
      exact fun h => ⟨_, [], rfl, hall n hlt h⟩
    · obtain ⟨d, ds, hds, hd⟩ := ih (n / 10) (by omega) (by omega)
      exact ⟨d, ds ++ dec (n % 10), by rw [dec_of_ten_le (Nat.not_lt.mp hlt), hds, List.cons_append], hd⟩

end ETraceGen
