import Mathlib.Algebra.Group.Nat.Defs
import Mathlib.Data.List.DropRight
import ETraceGen.Schema

/-!
# Reading `/proc`

The helpers of `util/proc_util.cpp`. What the file system answers is an argument: the target of a
symbolic link, or the contents of a file, and `none` where the link cannot be read or the file
cannot be opened.
-/

namespace ETraceGen.Proc

/-- `readlink` fills at most `sizeof(buf) - 1` bytes, and the buffer is read back as a C string. -/
def readProcSymlink (target : Option Bytes) : Bytes :=
  match target with
  | none => []
  | some path => (path.take (pathLen - 1)).takeWhile (· != 0)

def readTextFile (contents : Option Bytes) : Bytes := contents.getD []

def normalizeCmdline (raw : Bytes) : Bytes :=
  (raw.map fun c => if c == 0 then 0x20 else c).rdropWhile (· == 0x20)

def rStrip (s : Bytes) : Bytes := s.rdropWhile fun c => c == 0x0a || c == 0x0d || c == 0x20

/-! ## The start time of a task -/

/-- `isspace` in the C locale. -/
def isSpace (c : UInt8) : Bool := c == 0x20 || (0x09 ≤ c && c ≤ 0x0d)

def isDigit (c : UInt8) : Bool := 0x30 ≤ c && c ≤ 0x39

/-- The position of the last `") "`. -/
def rfindCloseParen : Bytes → Option Nat
  | [] => none
  | c :: rest =>
    match rfindCloseParen rest with
    | some pos => some (pos + 1)
    | none => if c == 0x29 && rest.head? == some 0x20 then some 0 else none

/-- The words `iss >> tok` reads. -/
def words (s : Bytes) : List Bytes := (s.splitOnP isSpace).filter (· ≠ [])

def decimal (digits : Bytes) : Nat := digits.foldl (fun n c => 10 * n + (c.toNat - 0x30)) 0

/-- `std::stoull`, `none` where it throws: the number at the front, with an optional sign. -/
def stoull (tok : Bytes) : Option UInt64 :=
  let tok := tok.dropWhile isSpace
  let negative := tok.head? == some 0x2d
  let signed := negative || tok.head? == some 0x2b
  let digits := (if signed then tok.tail else tok).takeWhile isDigit
  if digits = [] then none
  else if 2 ^ 64 ≤ decimal digits then none
  else if negative then some (-UInt64.ofNat (decimal digits))
  else some (UInt64.ofNat (decimal digits))

section Digits
variable {digits : Bytes}

/-- The next character of a word that is all digits is one, or there is none. -/
theorem head?_of_digits (h : ∀ c ∈ digits, isDigit c = true) {c : UInt8} (hc : isDigit c = false) :
    (digits.head? == some c) = false := by
  rw [beq_eq_false_iff_ne]
  intro hhead
  rw [h c (List.mem_of_mem_head? hhead)] at hc
  cases hc

theorem isSpace_of_isDigit {c : UInt8} (h : isDigit c = true) : isSpace c = false := by
  have hlow : 0x30 ≤ c := of_decide_eq_true (Bool.and_eq_true_iff.mp h).1
  have hne : c ≠ 0x20 := by
    rintro rfl
    exact absurd hlow (by decide)
  have hgt : ¬c ≤ 0x0d := fun hle => absurd (UInt8.le_trans hlow hle) (by decide)
  rw [isSpace, beq_eq_false_iff_ne.mpr hne, decide_eq_false hgt, Bool.and_false, Bool.or_false]

/-- A word of digits is the number it shows. -/
theorem stoull_of_digits (hne : digits ≠ []) (h : ∀ c ∈ digits, isDigit c = true)
    (hlt : decimal digits < 2 ^ 64) : stoull digits = some (UInt64.ofNat (decimal digits)) := by
  have hspaces : digits.dropWhile isSpace = digits := by
    rw [List.dropWhile_eq_self_iff]
    intro hpos
    rw [isSpace_of_isDigit (h _ (List.getElem_mem hpos))]
    exact Bool.false_ne_true
  have htake : digits.takeWhile isDigit = digits := List.takeWhile_eq_self_iff.mpr h
  unfold stoull
  simp only [hspaces, head?_of_digits h (show isDigit 0x2d = false by decide),
    head?_of_digits h (show isDigit 0x2b = false by decide), Bool.or_self, Bool.false_eq_true, if_false, htake,
    if_neg hne, if_neg (Nat.not_le.mpr hlt)]

end Digits

/-- Field 22 of a `/proc/<pid>/stat` line, counted from behind the `comm` field; 0 where there is no
such field or it is no number. -/
def parseStartTimeTicks (statLine : Bytes) : UInt64 :=
  match rfindCloseParen statLine with
  | none => 0
  | some closeParen =>
    if statLine.length ≤ closeParen + 2 then 0
    else
      match (words (statLine.drop (closeParen + 2)))[19]? with
      | none => 0
      | some tok => (stoull tok).getD 0

/-- A `comm` of `a) b` hides nothing behind it. -/
example : parseStartTimeTicks
    ("7 (a) b) S 1 7 7 0 -1 4 9 0 0 0 1 2 0 0 20 0 1 0 5512 8".toList.map fun c => c.toUInt8) = 5512 := by
  decide

end ETraceGen.Proc
