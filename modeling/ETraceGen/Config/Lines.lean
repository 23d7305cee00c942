import ETraceGen.Lib.Sections
import ETraceGen.Lib.Text
import ETraceGen.Proc

/-!
# Lines of a configuration file

What both loaders do to a line before they look at it: a comment is cut off at the first `#`, and the
whitespace at both ends. A line that ends in a colon is then a header, any other is split at its first colon.
-/

namespace ETraceGen.Config

open Proc (isSpace)

def trim (s : Bytes) : Bytes := (s.dropWhile isSpace).rdropWhile isSpace

def stripComment (line : Bytes) : Bytes := line.takeWhile (· != 0x23)

def cleaned (line : Bytes) : Bytes := trim (stripComment line)

/-- `trimmed.back() == ':'` -/
def isHeader (trimmed : Bytes) : Bool := trimmed.getLast? == some 0x3a

/-- The key and the value of a line with a colon. -/
def splitColon (trimmed : Bytes) : Option (Bytes × Bytes) :=
  if 0x3a ∈ trimmed then
    some (trim (trimmed.takeWhile (· != 0x3a)), trim ((trimmed.dropWhile (· != 0x3a)).drop 1))
  else none

/-- The lines that `std::getline` reads from a file. -/
def lines (text : Bytes) : List Bytes := Sections.pieces 0x0a text

/-! ## Trimming -/

section Trim
variable {s : Bytes}

theorem mem_of_mem_trim {c : UInt8} (h : c ∈ trim s) : c ∈ s :=
  (List.dropWhile_sublist _).subset ((List.rdropWhile_prefix _ _).subset h)

/-- Neither end is whitespace. -/
structure Trimmed (s : Bytes) : Prop where
  front : ∀ c ∈ s.head?, isSpace c = false
  back : ∀ c ∈ s.getLast?, isSpace c = false

theorem trimmed_of_noSpace (h : ∀ c ∈ s, isSpace c = false) : Trimmed s :=
  ⟨fun c hc => h c (List.mem_of_mem_head? hc), fun c hc => h c (List.mem_of_mem_getLast? hc)⟩

theorem trimmed_of_all (h : s.all (fun c => !isSpace c) = true) : Trimmed s := by
  apply trimmed_of_noSpace
  simpa only [List.all_eq_true, Bool.not_eq_true'] using h

theorem trim_of_trimmed (h : Trimmed s) : trim s = s := by
  have hfront : s.dropWhile isSpace = s := by
    cases s with
    | nil => rfl
    | cons c s => rw [List.dropWhile_cons, h.front c rfl, if_neg Bool.false_ne_true]
  rw [trim, hfront, List.rdropWhile_eq_self_iff]
  intro hne
  rw [h.back _ (List.getLast?_eq_some_getLast hne)]
  exact Bool.false_ne_true

/-- Nothing is left to trim in front. -/
theorem dropWhile_trim (s : Bytes) : (trim s).dropWhile isSpace = trim s := by
  obtain ⟨rest, hrest⟩ := List.rdropWhile_prefix isSpace (s.dropWhile isSpace)
  have hhead := List.head?_dropWhile_not isSpace s
  rw [← hrest] at hhead
  unfold trim
  cases hkept : (s.dropWhile isSpace).rdropWhile isSpace with
  | nil => rfl
  | cons c kept =>
    rw [hkept] at hhead
    rw [List.dropWhile_cons, show isSpace c = false from hhead, if_neg Bool.false_ne_true]

theorem trim_cons_space {c : UInt8} (hc : isSpace c = true) : trim (c :: s) = trim s := by
  rw [trim, List.dropWhile_cons, if_pos hc, trim]

end Trim

theorem not_mem_cleaned (line : Bytes) : 0x23 ∉ cleaned line := by
  intro h
  have hkept := List.mem_takeWhile_imp (mem_of_mem_trim h)
  exact absurd hkept (by decide)

theorem stripComment_of_not_mem {line : Bytes} (h : 0x23 ∉ line) : stripComment line = line := by
  apply List.takeWhile_eq_self_iff.mpr
  intro c hc
  rw [bne_iff_ne]
  rintro rfl
  exact h hc

/-! ## Keys and values -/

section Split
variable {key value : Bytes}

theorem splitColon_mem {trimmed : Bytes} (h : splitColon trimmed = some (key, value)) {c : UInt8}
    (hc : c ∈ value) : c ∈ trimmed := by
  unfold splitColon at h
  split_ifs at h
  obtain ⟨-, rfl⟩ := Prod.mk.inj (Option.some.inj h)
  exact (List.dropWhile_sublist _).subset (List.mem_of_mem_drop (mem_of_mem_trim hc))

/-- The first colon is the one behind the key. -/
theorem splitColon_pair (hkey : 0x3a ∉ key) (htrimmed : Trimmed key) (hvalue : Trimmed value) :
    splitColon (key ++ str ": " ++ value) = some (key, value) := by
  have hcolon : str ": " = [0x3a, 0x20] := by decide
  have hmem : 0x3a ∈ key ++ str ": " ++ value := by
    rw [hcolon]
    simp
  have hall : ∀ c ∈ key, (c != 0x3a) = true := by
    intro c hc
    rw [bne_iff_ne]
    rintro rfl
    exact hkey hc
  rw [splitColon, if_pos hmem, hcolon, List.append_assoc]
  have htake : (key ++ ([0x3a, 0x20] ++ value)).takeWhile (· != 0x3a) = key := by
    rw [List.takeWhile_append_of_pos hall]
    exact List.append_nil key
  have hdrop : (key ++ ([0x3a, 0x20] ++ value)).dropWhile (· != 0x3a) = 0x3a :: 0x20 :: value := by
    rw [List.dropWhile_append_of_pos hall]
    rfl
  rw [htake, hdrop, List.drop_one, List.tail_cons, trim_of_trimmed htrimmed, trim_cons_space (by decide),
    trim_of_trimmed hvalue]

end Split

end ETraceGen.Config
