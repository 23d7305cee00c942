import ETraceGen.Lib.Json

/-!
# Writing JSON on one line

Rules for a writer that puts no whitespace between the tokens. `Line rule s j` says that `s` derives `j`
without a control character, so that the text fits on one line; an object is written member by member, and
`Tail` is what is still to come of it.
-/

namespace ETraceGen.Json

/-- The code units of a byte string. -/
def units (s : List UInt8) : List UInt16 := s.map UInt8.toUInt16

/-! ## Strings -/

theorem Chars.append {s t : List UInt8} {us vs : List UInt16} (hs : Chars s us) (ht : Chars t vs) :
    Chars (s ++ t) (us ++ vs) := by
  induction hs with
  | nil => exact ht
  | plain hb _ ih => exact .plain hb ih
  | short hb _ ih => exact .short hb ih
  | hex hu _ ih => exact .hex hu ih

theorem Chars.of_plain {s : List UInt8} (h : ∀ b ∈ s, isPlain b = true) : Chars s (units s) := by
  induction s with
  | nil => exact .nil
  | cons b s ih => exact .plain (h b List.mem_cons_self) (ih fun c hc => h c (List.mem_cons_of_mem _ hc))

/-! ## Printable texts -/

/-- No control characters. -/
def Printable (s : List UInt8) : Prop := ∀ b ∈ s, 0x20 ≤ b

instance (s : List UInt8) : Decidable (Printable s) := List.decidableBAll (fun b => 0x20 ≤ b) s

theorem printable_nil : Printable [] := nofun

theorem Printable.append {s t : List UInt8} (hs : Printable s) (ht : Printable t) : Printable (s ++ t) := by
  intro b hb
  rcases List.mem_append.mp hb with hb | hb
  · exact hs b hb
  · exact ht b hb

theorem Printable.cons {b : UInt8} {s : List UInt8} (hb : 0x20 ≤ b) (hs : Printable s) :
    Printable (b :: s) :=
  List.forall_mem_cons.mpr ⟨hb, hs⟩

theorem printable_dec (n : Nat) : Printable (dec n) := by
  intro b hb
  have hdigit := isDigit_of_mem_dec hb
  rw [isDigit, Bool.and_eq_true, decide_eq_true_eq] at hdigit
  exact UInt8.le_trans (by decide) hdigit.1

theorem printable_decInt (i : Int) : Printable (decInt i) := by
  unfold decInt
  split_ifs
  · exact .append (by decide) (printable_dec _)
  · exact printable_dec _

theorem printable_of_shortEscape {b u : UInt8} (h : shortEscape? b = some u) : 0x20 ≤ b := by
  unfold shortEscape? at h
  split_ifs at h with h₁ h₂ h₃ h₄ h₅ h₆ h₇ h₈ <;> subst b <;> decide

theorem printable_of_hexDigit {b : UInt8} {u : UInt16} (h : hexDigit? b = some u) : 0x20 ≤ b := by
  unfold hexDigit? at h
  split_ifs at h with h₁ h₂ h₃
  · exact UInt8.le_trans (by decide) h₁.1
  · exact UInt8.le_trans (by decide) h₂.1
  · exact UInt8.le_trans (by decide) h₃.1

/-- A string has no control characters, whatever it stands for. -/
theorem Chars.printable {s : List UInt8} {us : List UInt16} (h : Chars s us) : Printable s := by
  induction h with
  | nil => exact printable_nil
  | plain hb _ ih =>
    rw [isPlain, Bool.and_eq_true, Bool.and_eq_true, decide_eq_true_eq] at hb
    exact .cons hb.1.1 ih
  | short hb _ ih => exact .cons (by decide) (.cons (printable_of_shortEscape hb) ih)
  | @hex a b c d u s us hu _ ih =>
    unfold hexUnit? at hu
    split at hu
    · next _ _ _ _ ha hb hc hd =>
      exact .cons (by decide) (.cons (by decide) (.cons (printable_of_hexDigit ha)
        (.cons (printable_of_hexDigit hb) (.cons (printable_of_hexDigit hc)
          (.cons (printable_of_hexDigit hd) ih)))))
    · cases hu

/-! ## Values -/

/-- A derived text without control characters. -/
structure Line (rule : Rule) (s : List UInt8) (j : Json) : Prop where
  derives : Derives rule s j
  printable : Printable s

theorem intPart_dec (n : Nat) : IntPart (dec n) := by
  refine ⟨⟨dec_ne_nil n, fun b hb => isDigit_of_mem_dec hb⟩, fun hhead => ?_⟩
  rcases Nat.eq_zero_or_pos n with rfl | hpos
  · rfl
  · obtain ⟨d, ds, hds, hd⟩ := head_dec hpos
    rw [hds] at hhead
    exact absurd (Option.some.inj hhead) hd

theorem number_dec (neg : Bool) (n : Nat) :
    Number ((if neg then [0x2D] else []) ++ dec n) (signed neg n) 0 := by
  have hnumber : Number ((if neg then [0x2D] else []) ++ (dec n ++ ([] ++ [])))
      (signed neg (ofDigits (dec n ++ []))) (0 - ([] : List UInt8).length) :=
    .mk (intPart_dec n) .none .none
  rw [List.append_nil, List.append_nil, ofDigits_dec] at hnumber
  exact hnumber

theorem number_decInt (i : Int) : Number (decInt i) i 0 := by
  by_cases hneg : i < 0
  · have hnumber := number_dec true i.natAbs
    rw [signed, if_pos rfl, if_pos rfl, Int.ofNat_natAbs_of_nonpos (by omega), Int.neg_neg] at hnumber
    rw [decInt, if_pos hneg]
    exact hnumber
  · have hnumber := number_dec false i.natAbs
    rw [signed, if_neg Bool.false_ne_true, if_neg Bool.false_ne_true,
      Int.natAbs_of_nonneg (by omega)] at hnumber
    rw [decInt, if_neg hneg]
    exact hnumber

theorem Line.int (i : Int) : Line .value (decInt i) (.num i 0) :=
  ⟨.num (number_decInt i), printable_decInt i⟩

theorem Line.nat (n : Nat) : Line .value (dec n) (.num n 0) :=
  Line.int n

theorem Line.str {s : List UInt8} {us : List UInt16} (h : Chars s us) :
    Line .value (0x22 :: (s ++ [0x22])) (.str us) :=
  ⟨.str h, .cons (by decide) (h.printable.append (by decide))⟩

/-! ## Objects -/

/-- The rest of an object's members: nothing, or a comma and more of them. -/
inductive Tail : List UInt8 → List (List UInt16 × Json) → Prop where
  | nil : Tail [] []
  | cons {s : List UInt8} {ms : List (List UInt16 × Json)} (h : Line .members s (.obj ms)) :
    Tail (0x2C :: s) ms

theorem Line.obj {s : List UInt8} {ms : List (List UInt16 × Json)} (h : Line .members s (.obj ms)) :
    Line .value (0x7B :: (s ++ [0x7D])) (.obj ms) :=
  ⟨.obj h.derives, .cons (by decide) (h.printable.append (by decide))⟩

/-- A member and the rest of the object. -/
theorem Tail.member {name s rest : List UInt8} {us : List UInt16} {j : Json}
    {ms : List (List UInt16 × Json)} (hname : Chars name us) (h : Line .value s j) (hrest : Tail rest ms) :
    Line .members (0x22 :: (name ++ 0x22 :: 0x3A :: (s ++ rest))) (.obj ((us, j) :: ms)) := by
  have hws : Ws [] := nofun
  have hp : ∀ {t}, Printable t → Printable (0x22 :: (name ++ 0x22 :: 0x3A :: (s ++ t))) := fun ht =>
    .cons (by decide) (hname.printable.append (.cons (by decide) (.cons (by decide) (h.printable.append ht))))
  cases hrest with
  | nil => exact ⟨by simpa using Derives.member hws hws hws hws hname h.derives, hp printable_nil⟩
  | cons hrest =>
    exact ⟨.members hws hws hws hws hname h.derives hrest.derives, hp (.cons (by decide) hrest.printable)⟩

end ETraceGen.Json
