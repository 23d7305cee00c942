import ETraceGen.Config.Lines
import Mathlib.Algebra.Group.Int.Defs

/-!
# Inline allowlists

`ParseUint32AllowlistInline` and `ParseInt32AllowlistInline`: the numbers between the brackets of a value, by way
of `std::stoul` and `std::stol`, which stop at the first character that is no digit.

* `wholeUint32`, `wholeInt32` : the tokens that are numbers of the type;
* `MisreadUint32`, `MisreadInt32` : the others that are taken for one;
* `allowlists_exact_iff` : a list is read as its numbers exactly if no token of it is misread.
-/

namespace ETraceGen.Config

open Proc (isSpace isDigit decimal stoull)
open Sections (pieces)

/-! ## The parsers -/

/-- `std::stoul`: an `unsigned long` has 64 bits. -/
def stoul (tok : Bytes) : Option UInt64 := stoull tok

/-- `std::stol`, `none` where it throws. -/
def stol (tok : Bytes) : Option Int64 :=
  let tok := tok.dropWhile isSpace
  let negative := tok.head? == some 0x2d
  let signed := negative || tok.head? == some 0x2b
  let digits := (if signed then tok.tail else tok).takeWhile isDigit
  let value : Int := if negative then -decimal digits else decimal digits
  if digits = [] then none
  else if value < -2 ^ 63 ∨ 2 ^ 63 ≤ value then none
  else some (Int64.ofInt value)

/-- What is between the first `[` and the first `]` behind it. -/
def listBody (value : Bytes) : Option Bytes :=
  match value.idxOf? 0x5b, value.idxOf? 0x5d with
  | some l, some r => if r ≤ l then none else some ((value.take r).drop (l + 1))
  | _, _ => none

def tokens (body : Bytes) : List Bytes := (pieces 0x2c body).map trim

def uint32Entry (tok : Bytes) : Option UInt32 :=
  if tok = [] then none
  else
    match stoul tok with
    | none => none
    | some parsed => if parsed ≤ 0xffffffff then some parsed.toUInt32 else none

def int32Entry (tok : Bytes) : Option Int32 := if tok = [] then none else (stol tok).map Int64.toInt32

def parseUint32AllowlistInline (value : Bytes) (out : List UInt32) : List UInt32 :=
  match listBody value with
  | none => out
  | some body => out ++ (tokens body).filterMap uint32Entry

def parseInt32AllowlistInline (value : Bytes) (out : List Int32) : List Int32 :=
  match listBody value with
  | none => out
  | some body => out ++ (tokens body).filterMap int32Entry

/-! ## The grammar -/

/-- A whole decimal number. -/
def IsNumber (tok : Bytes) : Prop := tok ≠ [] ∧ tok.all isDigit = true

instance (tok : Bytes) : Decidable (IsNumber tok) := inferInstanceAs (Decidable (_ ∧ _))

/-- The number of a token that is one of 32 bits. -/
def wholeUint32 (tok : Bytes) : Option UInt32 :=
  if IsNumber tok ∧ decimal tok < 2 ^ 32 then some (UInt32.ofNat (decimal tok)) else none

/-- The same with an optional minus sign, in two's complement. -/
def wholeInt32 (tok : Bytes) : Option Int32 :=
  if tok.head? = some 0x2d then
    if IsNumber tok.tail ∧ decimal tok.tail ≤ 2 ^ 31 then some (Int32.ofInt (-decimal tok.tail)) else none
  else if IsNumber tok ∧ decimal tok < 2 ^ 31 then some (Int32.ofInt (decimal tok)) else none

/-! ## What the number functions look at -/

/-- A token as a sign, digits, and what is behind them. -/
structure Numeral where
  negative : Bool
  plus : Bool
  digits : Bytes
  rest : Bytes

def numeral (tok : Bytes) : Numeral :=
  let negative := tok.head? == some 0x2d
  let plus := tok.head? == some 0x2b
  let unsigned := if negative || plus then tok.tail else tok
  { negative := negative, plus := plus, digits := unsigned.takeWhile isDigit, rest := unsigned.dropWhile isDigit }

namespace Numeral

def value (n : Numeral) : Int := if n.negative then -decimal n.digits else decimal n.digits

end Numeral

/-- Taken for an unsigned number: digits that are not the whole token, of which the 64-bit word fits. -/
def MisreadUint32 (tok : Bytes) : Prop :=
  (numeral tok).digits ≠ [] ∧ decimal (numeral tok).digits < 2 ^ 64 ∧ (numeral tok).value % 2 ^ 64 < 2 ^ 32 ∧
    ¬((numeral tok).negative = false ∧ (numeral tok).plus = false ∧ (numeral tok).rest = [])

/-- Taken for a signed number: a number of 64 bits that has a plus sign or more behind it, or is none of 32
bits. -/
def MisreadInt32 (tok : Bytes) : Prop :=
  (numeral tok).digits ≠ [] ∧ (-2 ^ 63 ≤ (numeral tok).value ∧ (numeral tok).value < 2 ^ 63) ∧
    ¬((numeral tok).plus = false ∧ (numeral tok).rest = [] ∧
      -2 ^ 31 ≤ (numeral tok).value ∧ (numeral tok).value < 2 ^ 31)

instance (tok : Bytes) : Decidable (MisreadUint32 tok) := inferInstanceAs (Decidable (_ ∧ _ ∧ _ ∧ ¬_))
instance (tok : Bytes) : Decidable (MisreadInt32 tok) := inferInstanceAs (Decidable (_ ∧ (_ ∧ _) ∧ ¬_))

section Tokens
variable {tok : Bytes}

/-- A number begins with a digit, and nothing is left behind its digits. -/
theorem isNumber_iff (ds : Bytes) : IsNumber ds ↔ ds.takeWhile isDigit ≠ [] ∧ ds.dropWhile isDigit = [] := by
  unfold IsNumber
  rw [List.all_eq_true, List.dropWhile_eq_nil_iff]
  constructor
  · intro ⟨hne, hall⟩
    rw [List.takeWhile_eq_self_iff.mpr hall]
    exact ⟨hne, hall⟩
  · intro ⟨hne, hall⟩
    refine ⟨fun hnil => hne ?_, hall⟩
    rw [hnil]
    rfl

theorem takeWhile_of_isNumber {ds : Bytes} (h : IsNumber ds) : ds.takeWhile isDigit = ds :=
  List.takeWhile_eq_self_iff.mpr (List.all_eq_true.mp h.2)

theorem not_isNumber_of_head {c : UInt8} (hc : isDigit c = false) (h : tok.head? = some c) : ¬IsNumber tok := by
  intro hnumber
  rw [List.all_eq_true.mp hnumber.2 c (List.mem_of_mem_head? h)] at hc
  cases hc

theorem numeral_minus (h : tok.head? = some 0x2d) :
    numeral tok = ⟨true, false, tok.tail.takeWhile isDigit, tok.tail.dropWhile isDigit⟩ := by
  unfold numeral
  rw [h]
  rfl

theorem numeral_plus (h : tok.head? = some 0x2b) :
    numeral tok = ⟨false, true, tok.tail.takeWhile isDigit, tok.tail.dropWhile isDigit⟩ := by
  unfold numeral
  rw [h]
  rfl

theorem numeral_unsigned (h : tok.head? ≠ some 0x2d) (h' : tok.head? ≠ some 0x2b) :
    numeral tok = ⟨false, false, tok.takeWhile isDigit, tok.dropWhile isDigit⟩ := by
  unfold numeral
  rw [beq_eq_false_iff_ne.mpr h, beq_eq_false_iff_ne.mpr h']
  rfl

theorem wholeUint32_eq (tok : Bytes) :
    wholeUint32 tok =
      if ((numeral tok).negative = false ∧ (numeral tok).plus = false ∧ (numeral tok).rest = []) ∧
          (numeral tok).digits ≠ [] ∧ decimal (numeral tok).digits < 2 ^ 32 then
        some (UInt32.ofNat (decimal (numeral tok).digits))
      else none := by
  unfold wholeUint32
  by_cases hminus : tok.head? = some 0x2d
  · rw [numeral_minus hminus, if_neg fun h => not_isNumber_of_head (by decide) hminus h.1,
      if_neg fun h => Bool.false_ne_true h.1.1.symm]
  by_cases hplus : tok.head? = some 0x2b
  · rw [numeral_plus hplus, if_neg fun h => not_isNumber_of_head (by decide) hplus h.1,
      if_neg fun h => Bool.false_ne_true h.1.2.1.symm]
  rw [numeral_unsigned hminus hplus]
  dsimp only
  by_cases hnumber : IsNumber tok
  · have hsplit := (isNumber_iff tok).mp hnumber
    rw [takeWhile_of_isNumber hnumber] at hsplit ⊢
    simp only [hnumber, hsplit, true_and, ne_eq, not_false_eq_true]
  · rw [if_neg fun h => hnumber h.1, if_neg fun h => hnumber ((isNumber_iff tok).mpr ⟨h.2.1, h.1.2.2⟩)]

theorem wholeInt32_eq (tok : Bytes) :
    wholeInt32 tok =
      if ((numeral tok).plus = false ∧ (numeral tok).rest = [] ∧
          -2 ^ 31 ≤ (numeral tok).value ∧ (numeral tok).value < 2 ^ 31) ∧ (numeral tok).digits ≠ [] then
        some (Int32.ofInt (numeral tok).value)
      else none := by
  unfold wholeInt32 Numeral.value
  by_cases hminus : tok.head? = some 0x2d
  · rw [if_pos hminus, numeral_minus hminus]
    dsimp only
    by_cases hnumber : IsNumber tok.tail
    · have hsplit := (isNumber_iff tok.tail).mp hnumber
      rw [takeWhile_of_isNumber hnumber] at hsplit ⊢
      refine if_congr ?_ rfl rfl
      simp only [hnumber, hsplit, true_and, ne_eq, not_false_eq_true, and_true, if_true]
      omega
    · rw [if_neg fun h => hnumber h.1,
        if_neg fun h => hnumber ((isNumber_iff tok.tail).mpr ⟨h.2, h.1.2.1⟩)]
  rw [if_neg hminus]
  by_cases hplus : tok.head? = some 0x2b
  · rw [numeral_plus hplus, if_neg fun h => not_isNumber_of_head (by decide) hplus h.1,
      if_neg fun h => Bool.false_ne_true h.1.1.symm]
  rw [numeral_unsigned hminus hplus]
  dsimp only
  by_cases hnumber : IsNumber tok
  · have hsplit := (isNumber_iff tok).mp hnumber
    rw [takeWhile_of_isNumber hnumber] at hsplit ⊢
    refine if_congr ?_ rfl rfl
    simp only [hnumber, hsplit, true_and, ne_eq, not_false_eq_true, and_true, Bool.false_eq_true, if_false]
    omega
  · rw [if_neg fun h => hnumber h.1, if_neg fun h => hnumber ((isNumber_iff tok).mpr ⟨h.2, h.1.2.1⟩)]

/-! ## What the entries are -/

/-- The word that `std::stoul` returns. -/
theorem stoul_eq (hspace : tok.dropWhile isSpace = tok) :
    stoul tok =
      if (numeral tok).digits = [] then none
      else if 2 ^ 64 ≤ decimal (numeral tok).digits then none
      else if (numeral tok).negative then some (-UInt64.ofNat (decimal (numeral tok).digits))
      else some (UInt64.ofNat (decimal (numeral tok).digits)) := by
  unfold stoul stoull
  rw [hspace]
  rfl

theorem stol_eq (hspace : tok.dropWhile isSpace = tok) :
    stol tok =
      if (numeral tok).digits = [] then none
      else if (numeral tok).value < -2 ^ 63 ∨ 2 ^ 63 ≤ (numeral tok).value then none
      else some (Int64.ofInt (numeral tok).value) := by
  unfold stol
  rw [hspace]
  rfl

theorem exists_stoul (hspace : tok.dropWhile isSpace = tok) (hdigits : (numeral tok).digits ≠ [])
    (hlt : decimal (numeral tok).digits < 2 ^ 64) :
    ∃ parsed, stoul tok = some parsed ∧ (parsed.toNat : Int) = (numeral tok).value % 2 ^ 64 := by
  have hword : (UInt64.ofNat (decimal (numeral tok).digits)).toNat = decimal (numeral tok).digits :=
    UInt64.toNat_ofNat_of_lt' hlt
  rw [stoul_eq hspace, if_neg hdigits, if_neg (Nat.not_le.mpr hlt)]
  unfold Numeral.value
  cases (numeral tok).negative with
  | true =>
    refine ⟨_, rfl, ?_⟩
    rw [UInt64.toNat_neg, hword, UInt64.size, if_pos rfl]
    omega
  | false =>
    refine ⟨_, rfl, ?_⟩
    rw [hword, if_neg Bool.false_ne_true]
    omega

theorem uint32Entry_eq (hspace : tok.dropWhile isSpace = tok) :
    uint32Entry tok =
      if (numeral tok).digits ≠ [] ∧ decimal (numeral tok).digits < 2 ^ 64 ∧
          (numeral tok).value % 2 ^ 64 < 2 ^ 32 then
        some (UInt32.ofInt (numeral tok).value)
      else none := by
  unfold uint32Entry
  by_cases hempty : tok = []
  · subst hempty
    rfl
  rw [if_neg hempty]
  by_cases hdigits : (numeral tok).digits = []
  · rw [stoul_eq hspace, if_pos hdigits, if_neg fun h => h.1 hdigits]
  by_cases hlt : decimal (numeral tok).digits < 2 ^ 64
  · obtain ⟨parsed, hparsed, hvalue⟩ := exists_stoul hspace hdigits hlt
    have hfits : parsed ≤ 0xffffffff ↔ (numeral tok).value % 2 ^ 64 < 2 ^ 32 := by
      rw [UInt64.le_iff_toNat_le, show (0xffffffff : UInt64).toNat = 0xffffffff from rfl]
      omega
    have hword : parsed.toUInt32 = UInt32.ofInt (numeral tok).value := by
      apply UInt32.toNat_inj.mp
      rw [UInt64.toNat_toUInt32, UInt32.ofInt, UInt32.toNat_ofNat']
      omega
    rw [hparsed]
    dsimp only
    rw [hword]
    refine if_congr ?_ rfl rfl
    simp only [hfits, hdigits, hlt, ne_eq, not_false_eq_true, true_and]
  · rw [stoul_eq hspace, if_neg hdigits, if_pos (Nat.not_lt.mp hlt), if_neg fun h => hlt h.2.1]

theorem toInt32_ofInt {value : Int} (h : -2 ^ 63 ≤ value ∧ value < 2 ^ 63) :
    (Int64.ofInt value).toInt32 = Int32.ofInt value := by
  have hwide : (Int64.ofInt value).toInt = value := Int64.toInt_ofInt_of_le h.1 (by omega)
  apply Int32.toInt_inj.mp
  rw [Int64.toInt_toInt32, hwide, Int32.toInt_ofInt]

theorem int32Entry_eq (hspace : tok.dropWhile isSpace = tok) :
    int32Entry tok =
      if (numeral tok).digits ≠ [] ∧ -2 ^ 63 ≤ (numeral tok).value ∧ (numeral tok).value < 2 ^ 63 then
        some (Int32.ofInt (numeral tok).value)
      else none := by
  unfold int32Entry
  by_cases hempty : tok = []
  · subst hempty
    rfl
  rw [if_neg hempty, stol_eq hspace]
  by_cases hdigits : (numeral tok).digits = []
  · rw [if_pos hdigits, if_neg fun h => h.1 hdigits]
    rfl
  rw [if_neg hdigits]
  by_cases hrange : -2 ^ 63 ≤ (numeral tok).value ∧ (numeral tok).value < 2 ^ 63
  · rw [if_neg (by omega), if_pos ⟨hdigits, hrange⟩, Option.map_some, toInt32_ofInt hrange]
  · rw [if_pos (by omega), if_neg fun h => hrange h.2]
    rfl

/-! ## Tokens that are misread -/

/-- A misread token is no number, and any other token is read as the number it is, if it is one. -/
theorem uint32Entry_cases (hspace : tok.dropWhile isSpace = tok) :
    MisreadUint32 tok ∧ wholeUint32 tok = none ∧ (uint32Entry tok).isSome ∨
      ¬MisreadUint32 tok ∧ uint32Entry tok = wholeUint32 tok := by
  rw [uint32Entry_eq hspace, wholeUint32_eq]
  unfold MisreadUint32
  by_cases hclean : (numeral tok).negative = false ∧ (numeral tok).plus = false ∧ (numeral tok).rest = []
  · right
    have hvalue : (numeral tok).value = decimal (numeral tok).digits := by
      rw [Numeral.value, hclean.1, if_neg Bool.false_ne_true]
    have hword : UInt32.ofInt (numeral tok).value = UInt32.ofNat (decimal (numeral tok).digits) := by
      rw [hvalue]
      apply UInt32.toNat_inj.mp
      rw [UInt32.ofInt, UInt32.toNat_ofNat', UInt32.toNat_ofNat']
      omega
    refine ⟨fun h => h.2.2.2 hclean, ?_⟩
    rw [hword]
    refine if_congr ?_ rfl rfl
    rw [hvalue]
    simp only [hclean, true_and]
    refine and_congr_right fun _ => ?_
    omega
  · rw [if_neg fun h => hclean h.1]
    by_cases hread : (numeral tok).digits ≠ [] ∧ decimal (numeral tok).digits < 2 ^ 64 ∧
        (numeral tok).value % 2 ^ 64 < 2 ^ 32
    · left
      rw [if_pos hread]
      exact ⟨⟨hread.1, hread.2.1, hread.2.2, hclean⟩, rfl, rfl⟩
    · right
      rw [if_neg hread]
      exact ⟨fun h => hread ⟨h.1, h.2.1, h.2.2.1⟩, rfl⟩

theorem int32Entry_cases (hspace : tok.dropWhile isSpace = tok) :
    MisreadInt32 tok ∧ wholeInt32 tok = none ∧ (int32Entry tok).isSome ∨
      ¬MisreadInt32 tok ∧ int32Entry tok = wholeInt32 tok := by
  rw [int32Entry_eq hspace, wholeInt32_eq]
  unfold MisreadInt32
  by_cases hclean : (numeral tok).plus = false ∧ (numeral tok).rest = [] ∧
      -2 ^ 31 ≤ (numeral tok).value ∧ (numeral tok).value < 2 ^ 31
  · right
    refine ⟨fun h => h.2.2 hclean, if_congr ?_ rfl rfl⟩
    have hwide : -2 ^ 63 ≤ (numeral tok).value ∧ (numeral tok).value < 2 ^ 63 := by
      obtain ⟨-, -, hlow, hhigh⟩ := hclean
      omega
    simp only [hclean, hwide, and_true, true_and]
  · rw [if_neg fun h => hclean h.1]
    by_cases hread : (numeral tok).digits ≠ [] ∧ -2 ^ 63 ≤ (numeral tok).value ∧ (numeral tok).value < 2 ^ 63
    · left
      rw [if_pos hread]
      exact ⟨⟨hread.1, hread.2, hclean⟩, rfl, rfl⟩
    · right
      rw [if_neg hread]
      exact ⟨fun h => hread ⟨h.1, h.2.1⟩, rfl⟩

end Tokens

/-! ## Lists -/

section Lists
variable {α β : Type} {f g : α → Option β} {bad : α → Prop} {l : List α}
  (h : ∀ a ∈ l, bad a ∧ g a = none ∧ (f a).isSome ∨ ¬bad a ∧ f a = g a)

include h

theorem length_filterMap_le : (l.filterMap g).length ≤ (l.filterMap f).length := by
  induction l with
  | nil => exact Nat.le_refl _
  | cons a l ih =>
    obtain ⟨ha, hl⟩ := List.forall_mem_cons.mp h
    have hle := ih hl
    rw [List.filterMap_cons, List.filterMap_cons]
    rcases ha with ⟨-, hnone, hsome⟩ | ⟨-, hsame⟩
    · obtain ⟨b, hb⟩ := Option.isSome_iff_exists.mp hsome
      rw [hnone, hb]
      exact Nat.le_succ_of_le hle
    · rw [hsame]
      cases g a with
      | none => exact hle
      | some b => exact Nat.succ_le_succ hle

/-- Two readings of a list agree exactly if the one does not read what the other leaves out. -/
theorem filterMap_eq_iff : l.filterMap f = l.filterMap g ↔ ∀ a ∈ l, ¬bad a := by
  induction l with
  | nil => exact iff_of_true rfl (List.forall_mem_nil _)
  | cons a l ih =>
    obtain ⟨ha, hl⟩ := List.forall_mem_cons.mp h
    rw [List.filterMap_cons, List.filterMap_cons, List.forall_mem_cons]
    rcases ha with ⟨hbad, hnone, hsome⟩ | ⟨hgood, hsame⟩
    · obtain ⟨b, hb⟩ := Option.isSome_iff_exists.mp hsome
      rw [hnone, hb]
      refine iff_of_false (fun heq => ?_) (fun hand => hand.1 hbad)
      have hlength : (l.filterMap f).length + 1 = (l.filterMap g).length := congrArg List.length heq
      have hle := length_filterMap_le hl
      omega
    · rw [hsame, and_iff_right hgood, ← ih hl]
      cases g a with
      | none => exact Iff.rfl
      | some b => exact List.cons_inj_right b

end Lists

/-- A token is trimmed before it is read. -/
theorem dropWhile_of_mem_tokens {body tok : Bytes} (h : tok ∈ tokens body) : tok.dropWhile isSpace = tok := by
  obtain ⟨piece, -, rfl⟩ := List.mem_map.mp h
  exact dropWhile_trim piece

/-! ## Brackets -/

theorem idxOf?_append_cons {a : UInt8} {s : Bytes} (h : a ∉ s) (rest : Bytes) :
    (s ++ a :: rest).idxOf? a = some s.length := by
  induction s with
  | nil =>
    rw [List.nil_append, List.idxOf?_cons, if_pos (beq_self_eq_true a)]
    rfl
  | cons b s ih =>
    have hne : (b == a) = false := beq_eq_false_iff_ne.mpr (List.ne_of_not_mem_cons h).symm
    rw [List.cons_append, List.idxOf?_cons, hne, ih (List.not_mem_of_not_mem_cons h)]
    rfl

def NoBrackets (s : Bytes) : Prop := 0x5b ∉ s ∧ 0x5d ∉ s

instance (s : Bytes) : Decidable (NoBrackets s) := inferInstanceAs (Decidable (_ ∧ _))

/-- A value with no other brackets than those around its list. -/
def listValue (before body : Bytes) : Bytes := before ++ 0x5b :: body ++ [0x5d]

theorem listBody_listValue {before body : Bytes} (hbefore : NoBrackets before) (hbody : NoBrackets body) :
    listBody (listValue before body) = some body := by
  have hopen : (listValue before body).idxOf? 0x5b = some before.length := by
    rw [listValue, List.append_assoc, List.cons_append]
    exact idxOf?_append_cons hbefore.1 _
  have hclose : (listValue before body).idxOf? 0x5d = some (before ++ 0x5b :: body).length := by
    have hnone : 0x5d ∉ before ++ 0x5b :: body := by
      rw [List.mem_append, not_or]
      exact ⟨hbefore.2, List.not_mem_cons_of_ne_of_not_mem (by decide) hbody.2⟩
    exact idxOf?_append_cons hnone []
  have hlength : (before ++ 0x5b :: body).length = before.length + 1 + body.length := by
    rw [List.length_append, List.length_cons]
    omega
  unfold listBody
  rw [hopen, hclose]
  dsimp only
  rw [if_neg (by omega), listValue, List.take_left' rfl, ← List.drop_drop, List.drop_left, List.drop_one,
    List.tail_cons]

/-! ## The two parsers -/

/-- **Inline allowlists are read exactly** if no token of the list is misread: what is added to the output is
then the numbers among the tokens, in their order. -/
theorem allowlists_exact_iff {before body : Bytes} (hbefore : NoBrackets before) (hbody : NoBrackets body)
    (out : List UInt32) (out' : List Int32) :
    (parseUint32AllowlistInline (listValue before body) out = out ++ (tokens body).filterMap wholeUint32 ↔
        ∀ tok ∈ tokens body, ¬MisreadUint32 tok) ∧
      (parseInt32AllowlistInline (listValue before body) out' = out' ++ (tokens body).filterMap wholeInt32 ↔
        ∀ tok ∈ tokens body, ¬MisreadInt32 tok) := by
  unfold parseUint32AllowlistInline parseInt32AllowlistInline
  rw [listBody_listValue hbefore hbody]
  dsimp only
  rw [List.append_cancel_left_eq, List.append_cancel_left_eq]
  exact ⟨filterMap_eq_iff fun tok h => uint32Entry_cases (dropWhile_of_mem_tokens h),
    filterMap_eq_iff fun tok h => int32Entry_cases (dropWhile_of_mem_tokens h)⟩

theorem allowlists_exact_iff_uids :
    parseUint32AllowlistInline (listValue (str "uid_allowlist: ") (str "0, x, 1000")) [] = [0, 1000] ∧
      parseInt32AllowlistInline (listValue (str "uid_allowlist: ") (str "0, x, 1000")) [] = [0, 1000] := by
  have hread : NoBrackets (str "uid_allowlist: ") ∧ NoBrackets (str "0, x, 1000") := by decide
  have hexact := allowlists_exact_iff hread.1 hread.2 [] []
  exact ⟨(hexact.1.mpr (by decide)).trans (by decide), (hexact.2.mpr (by decide)).trans (by decide)⟩

/-- Twelve and more characters are taken for twelve, and a system call number of 33 bits for its lower ones. -/
theorem not_allowlists_exact :
    ¬ ∀ before body : Bytes, NoBrackets before → NoBrackets body → ∀ (out : List UInt32) (out' : List Int32),
      parseUint32AllowlistInline (listValue before body) out = out ++ (tokens body).filterMap wholeUint32 ∧
        parseInt32AllowlistInline (listValue before body) out' = out' ++ (tokens body).filterMap wholeInt32 := by
  intro h
  have hread := h (str "pid_allowlist: ") (str "12abc, 4294967297") (by decide) (by decide) [] []
  exact absurd hread.1 (by decide)

end ETraceGen.Config
