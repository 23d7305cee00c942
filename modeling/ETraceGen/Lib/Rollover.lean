import Mathlib.Data.List.Infix

/-!
# A log with a size limit

Records are appended to what was there before; one that would make the log longer than the limit (0 for no
limit) starts it anew. Over any run the log is everything, or the last records without a gap
(`run_cases`), and it is longer than the limit only for a single record (`run_bounded`).
-/

namespace ETraceGen

variable {α : Type}

/-- What was there before, while it is kept, and the records appended since. -/
structure Rollover (α : Type) where
  base : Option (List α)
  kept : List (List α)

namespace Rollover

def content (log : Rollover α) : List α := log.base.getD [] ++ log.kept.flatten

/-- The record does not fit behind what is there. -/
def Exceeds (limit : Nat) (log : Rollover α) (record : List α) : Prop :=
  limit ≠ 0 ∧ limit < log.content.length + record.length

instance (limit : Nat) (log : Rollover α) (record : List α) : Decidable (Exceeds limit log record) :=
  inferInstanceAs (Decidable (_ ∧ _))

def append (limit : Nat) (log : Rollover α) (record : List α) : Rollover α :=
  if Exceeds limit log record then ⟨none, [record]⟩ else ⟨log.base, log.kept ++ [record]⟩

def run (limit : Nat) (base : List α) (records : List (List α)) : Rollover α :=
  records.foldl (append limit) ⟨some base, []⟩

section
variable {limit : Nat} {log : Rollover α} {base record : List α} {records : List (List α)}

theorem run_snoc : run limit base (records ++ [record]) = append limit (run limit base records) record :=
  List.foldl_concat ..

theorem content_append :
    (append limit log record).content =
      if Exceeds limit log record then record else log.content ++ record := by
  unfold append
  split_ifs
  · simp [content]
  · simp [content, List.flatten_append]

variable (limit base records) in
/-- The log is everything, or the records since it was last started anew. -/
theorem run_cases :
    ((run limit base records).base = some base ∧ (run limit base records).kept = records) ∨
      ((run limit base records).base = none ∧ (run limit base records).kept ≠ [] ∧
        (run limit base records).kept <:+ records) := by
  induction records using List.reverseRecOn with
  | nil => exact Or.inl ⟨rfl, rfl⟩
  | append_singleton records record ih =>
    rw [run_snoc, append]
    split_ifs
    · exact Or.inr ⟨rfl, List.cons_ne_nil _ _, List.suffix_append _ _⟩
    · rcases ih with ⟨hbase, hkept⟩ | ⟨hbase, hne, hsuffix⟩
      · exact Or.inl ⟨hbase, by rw [hkept]⟩
      · refine Or.inr ⟨hbase, by simp, ?_⟩
        obtain ⟨pre, hpre⟩ := hsuffix
        exact ⟨pre, by rw [← List.append_assoc, hpre]⟩

/-- Without a limit nothing is ever discarded. -/
theorem run_unlimited (h : limit = 0) : (run limit base records).content = base ++ records.flatten := by
  induction records using List.reverseRecOn with
  | nil => simp [run, content]
  | append_singleton records record ih =>
    rw [run_snoc, content_append, if_neg fun hex => hex.1 h, ih]
    simp

theorem run_of_unlimited (h : limit = 0) : run limit base records = ⟨some base, records⟩ := by
  induction records using List.reverseRecOn with
  | nil => rfl
  | append_singleton records record ih => rw [run_snoc, ih, append, if_neg fun hex => hex.1 h]

/-- A limit is kept but by a record that is longer by itself. -/
theorem run_bounded (h : limit ≠ 0) (hne : records ≠ []) :
    (run limit base records).content.length ≤ limit ∨
      ∃ record, records.getLast? = some record ∧ (run limit base records).content = record := by
  obtain ⟨records, record, rfl⟩ := List.eq_nil_or_concat' records |>.resolve_left hne
  rw [run_snoc, content_append]
  split_ifs with hex
  · exact Or.inr ⟨record, by simp, rfl⟩
  · refine Or.inl ?_
    rw [List.length_append]
    by_contra hlt
    exact hex ⟨h, Nat.not_le.mp hlt⟩

end

end Rollover

end ETraceGen
