import Mathlib.Data.List.Forall2

/-!
# UTF-8

The byte sequences of UTF-8 (RFC 3629): each character is a first byte and the ranges its other bytes lie in.
`run` reads a sequence byte by byte, with the ranges still to come as its state (`valid_iff`), so that what an
ASCII byte splits is judged piece by piece (`valid_append_ascii`).
-/

namespace ETraceGen

/-- The bytes from `lo` to `hi`. -/
structure ByteRange where
  lo : UInt8
  hi : UInt8

def ByteRange.contains (r : ByteRange) (b : UInt8) : Bool := r.lo ≤ b && b ≤ r.hi

namespace Utf8

def tail : ByteRange := ⟨0x80, 0xBF⟩

/-- What follows the first byte of a character; `none` for a byte that begins none. -/
def follow? (b : UInt8) : Option (List ByteRange) :=
  if b < 0x80 then some []
  else if b < 0xC2 then none
  else if b ≤ 0xDF then some [tail]
  else if b = 0xE0 then some [⟨0xA0, 0xBF⟩, tail]
  else if b = 0xED then some [⟨0x80, 0x9F⟩, tail]
  else if b ≤ 0xEF then some [tail, tail]
  else if b = 0xF0 then some [⟨0x90, 0xBF⟩, tail, tail]
  else if b ≤ 0xF3 then some [tail, tail, tail]
  else if b = 0xF4 then some [⟨0x80, 0x8F⟩, tail, tail]
  else none

/-- A sequence of characters. -/
inductive Valid : List UInt8 → Prop where
  | nil : Valid []
  | char {b : UInt8} {cs s : List UInt8} {rs : List ByteRange} (hb : follow? b = some rs)
    (hcs : List.Forall₂ (fun r c => r.contains c = true) rs cs) (hs : Valid s) : Valid (b :: (cs ++ s))

/-! ## Reading byte by byte -/

def step : List ByteRange → UInt8 → Option (List ByteRange)
  | [], b => follow? b
  | r :: rs, b => if r.contains b then some rs else none

def run : List ByteRange → List UInt8 → Option (List ByteRange)
  | q, [] => some q
  | q, b :: s => (step q b).bind fun q => run q s

theorem run_append (q : List ByteRange) (s t : List UInt8) :
    run q (s ++ t) = (run q s).bind fun q => run q t := by
  induction s generalizing q with
  | nil => rfl
  | cons b s ih =>
    rw [List.cons_append, run, run]
    cases step q b with
    | none => rfl
    | some q' => exact ih q'

theorem run_ranges {rs : List ByteRange} {cs : List UInt8}
    (h : List.Forall₂ (fun r c => r.contains c = true) rs cs) (s : List UInt8) :
    run rs (cs ++ s) = run [] s := by
  induction h with
  | nil => rfl
  | cons hc _ ih =>
    rw [List.cons_append, run, step, if_pos hc]
    exact ih

/-- What brings the reader to the end of a character. -/
theorem ranges_of_run {rs : List ByteRange} {s : List UInt8} (h : run rs s = some []) :
    ∃ cs t, s = cs ++ t ∧ List.Forall₂ (fun r c => r.contains c = true) rs cs ∧ run [] t = some [] := by
  induction rs generalizing s with
  | nil => exact ⟨[], s, rfl, .nil, h⟩
  | cons r rs ih =>
    cases s with
    | nil => cases h
    | cons b s =>
      rw [run, step] at h
      split_ifs at h with hb
      · obtain ⟨cs, t, rfl, hcs, ht⟩ := ih h
        exact ⟨b :: cs, t, rfl, .cons hb hcs, ht⟩
      · cases h

/-- **The reader accepts the sequences of characters.** -/
theorem valid_iff (s : List UInt8) : Valid s ↔ run [] s = some [] := by
  constructor
  · intro h
    induction h with
    | nil => rfl
    | char hb hcs _ ih =>
      rw [run, step, hb, Option.bind_some, run_ranges hcs]
      exact ih
  · intro h
    induction hn : s.length using Nat.strongRecOn generalizing s with
    | ind n ih =>
      cases s with
      | nil => exact .nil
      | cons b s =>
        rw [run, step] at h
        obtain ⟨rs, hb, hrs⟩ := Option.bind_eq_some_iff.mp h
        obtain ⟨cs, t, rfl, hcs, ht⟩ := ranges_of_run hrs
        refine .char hb hcs (ih t.length ?_ t ht rfl)
        rw [← hn, List.length_cons, List.length_append]
        omega

instance (s : List UInt8) : Decidable (Valid s) :=
  decidable_of_iff ((run [] s).map List.isEmpty = some true) (by
    rw [valid_iff]
    cases run [] s with
    | none => simp
    | some q => cases q <;> simp)

/-! ## ASCII -/

/-- Only bytes from 0x80 on are to come. -/
def Pending (q : List ByteRange) : Prop := ∀ r ∈ q, 0x80 ≤ r.lo

theorem pending_nil : Pending [] := nofun

theorem pending_follow {b : UInt8} {rs : List ByteRange} (h : follow? b = some rs) : Pending rs := by
  unfold follow? at h
  split_ifs at h <;> obtain rfl := Option.some.inj h <;> simp [Pending, tail]

theorem pending_step {q q' : List ByteRange} {b : UInt8} (h : Pending q) (hstep : step q b = some q') :
    Pending q' := by
  cases q with
  | nil => exact pending_follow hstep
  | cons r rs =>
    rw [step] at hstep
    split_ifs at hstep
    obtain rfl := Option.some.inj hstep
    exact fun r hr => h r (List.mem_cons_of_mem _ hr)

theorem pending_run {q q' : List ByteRange} {s : List UInt8} (h : Pending q) (hrun : run q s = some q') :
    Pending q' := by
  induction s generalizing q with
  | nil =>
    obtain rfl := Option.some.inj hrun
    exact h
  | cons b s ih =>
    obtain ⟨q₁, hstep, hrest⟩ := Option.bind_eq_some_iff.mp hrun
    exact ih (pending_step h hstep) hrest

/-- An ASCII byte is a character of its own, and no other character's. -/
theorem step_ascii {q : List ByteRange} (h : Pending q) {b : UInt8} (hb : b < 0x80) :
    step q b = if q.isEmpty then some [] else none := by
  cases q with
  | nil => rw [step, follow?, if_pos hb]; rfl
  | cons r rs =>
    have hlo := h r List.mem_cons_self
    have hout : r.contains b = false := by
      rw [ByteRange.contains, Bool.and_eq_false_iff]
      exact Or.inl (decide_eq_false fun hle => absurd (UInt8.lt_of_lt_of_le hb hlo) (UInt8.not_lt.mpr hle))
    rw [step, hout]
    rfl

def Ascii (s : List UInt8) : Prop := ∀ b ∈ s, b < 0x80

instance (s : List UInt8) : Decidable (Ascii s) := List.decidableBAll (fun b => b < 0x80) s

theorem run_ascii {s : List UInt8} (h : Ascii s) : run [] s = some [] := by
  induction s with
  | nil => rfl
  | cons b s ih =>
    have hstep := step_ascii pending_nil (h b List.mem_cons_self)
    rw [run, hstep]
    exact ih fun c hc => h c (List.mem_cons_of_mem _ hc)

/-- A non-empty ASCII text can only stand between characters. -/
theorem run_pending_ascii {q : List ByteRange} (h : Pending q) {s : List UInt8} (hs : Ascii s)
    (hne : s ≠ []) : run q s = if q.isEmpty then some [] else none := by
  obtain ⟨b, s, rfl⟩ := List.exists_cons_of_ne_nil hne
  rw [run, step_ascii h (hs b List.mem_cons_self)]
  split_ifs
  · exact run_ascii fun c hc => hs c (List.mem_cons_of_mem _ hc)
  · rfl

theorem valid_ascii_append {s : List UInt8} (h : Ascii s) (t : List UInt8) : Valid (s ++ t) ↔ Valid t := by
  rw [valid_iff, valid_iff, run_append, run_ascii h]
  rfl

/-- **An ASCII text splits a sequence.** -/
theorem valid_append_ascii (s : List UInt8) {a : List UInt8} (ha : Ascii a) (hne : a ≠ []) (t : List UInt8) :
    Valid (s ++ (a ++ t)) ↔ Valid s ∧ Valid t := by
  rw [valid_iff, valid_iff, valid_iff, run_append]
  cases hs : run [] s with
  | none => simp
  | some q =>
    have hq : Pending q := pending_run pending_nil hs
    rw [Option.bind_some, run_append, run_pending_ascii hq ha hne]
    cases q with
    | nil => simp
    | cons r rs => simp

end Utf8

end ETraceGen
