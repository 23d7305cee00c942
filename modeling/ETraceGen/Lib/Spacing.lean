import Mathlib.Data.List.Chain
import Mathlib.Data.List.Induction

/-!
# Logs with a gap

A log of names with times. The entries of one name are spaced if each is later than the one before it by a gap,
whatever happens to other names in between.

* `last?_snoc`, `spaced_snoc` : one entry more;
* `Spaced.last?_le` : the last time of a name never goes back.
-/

namespace ETraceGen.Spacing

structure Stamp (α : Type) where
  name : α
  time : Nat
  deriving DecidableEq

variable {α : Type} [DecidableEq α]

/-- The entries of one name. -/
def entriesOf (a : α) (log : List (Stamp α)) : List (Stamp α) := log.filter fun s => s.name = a

/-- The time of the last entry of a name. -/
def last? (a : α) (log : List (Stamp α)) : Option Nat := (entriesOf a log).getLast?.map Stamp.time

def Spaced (gap : Nat) (log : List (Stamp α)) : Prop :=
  ∀ a, (entriesOf a log).IsChain fun s s' => s.time + gap ≤ s'.time

section
variable {gap : Nat} {log : List (Stamp α)}

theorem entriesOf_snoc (a : α) (log : List (Stamp α)) (s : Stamp α) :
    entriesOf a (log ++ [s]) = entriesOf a log ++ if s.name = a then [s] else [] := by
  unfold entriesOf
  rw [List.filter_append, List.filter_singleton]
  by_cases h : s.name = a
  · rw [if_pos h, decide_eq_true h]
    rfl
  · rw [if_neg h, decide_eq_false h]
    rfl

theorem last?_snoc (a : α) (log : List (Stamp α)) (s : Stamp α) :
    last? a (log ++ [s]) = if s.name = a then some s.time else last? a log := by
  unfold last?
  rw [entriesOf_snoc]
  split_ifs
  · simp
  · rw [List.append_nil]

theorem last?_eq_none {a : α} (h : ∀ s ∈ log, s.name ≠ a) : last? a log = none := by
  have hnone : entriesOf a log = [] := by
    apply List.filter_eq_nil_iff.mpr
    intro s hs
    rw [decide_eq_true_eq]
    exact h s hs
  rw [last?, hnone]
  rfl

theorem spaced_nil : Spaced gap ([] : List (Stamp α)) := fun _ => List.isChain_nil

/-- A new entry is compared with the last one of its name. -/
theorem spaced_snoc {s : Stamp α} :
    Spaced gap (log ++ [s]) ↔ Spaced gap log ∧ ∀ t, last? s.name log = some t → t + gap ≤ s.time := by
  have hlast : (∀ t, last? s.name log = some t → t + gap ≤ s.time) ↔
      ∀ x ∈ (entriesOf s.name log).getLast?, ∀ y ∈ [s].head?, x.time + gap ≤ y.time := by
    unfold last?
    cases (entriesOf s.name log).getLast? with
    | none => simp
    | some x => simp
  unfold Spaced
  constructor
  · intro h
    have hself := h s.name
    rw [entriesOf_snoc, if_pos rfl, List.isChain_append] at hself
    refine ⟨fun a => ?_, hlast.mpr hself.2.2⟩
    have ha := h a
    rw [entriesOf_snoc] at ha
    exact ha.left_of_append
  · rintro ⟨h, hnew⟩ a
    rw [entriesOf_snoc]
    split_ifs with hname
    · subst hname
      exact (h s.name).append (List.isChain_singleton s) (hlast.mp hnew)
    · rw [List.append_nil]
      exact h a

theorem Spaced.of_append {more : List (Stamp α)} (h : Spaced gap (log ++ more)) : Spaced gap log := by
  intro a
  have ha := h a
  rw [entriesOf, List.filter_append] at ha
  exact ha.left_of_append

/-- The last time of a name never goes back. -/
theorem Spaced.exists_last? {more : List (Stamp α)} (h : Spaced gap (log ++ more)) {a : α} {t : Nat}
    (ht : last? a log = some t) : ∃ t', last? a (log ++ more) = some t' ∧ t ≤ t' := by
  induction more using List.reverseRecOn with
  | nil => exact ⟨t, by rwa [List.append_nil], Nat.le_refl t⟩
  | append_singleton more s ih =>
    rw [← List.append_assoc] at h ⊢
    obtain ⟨hbefore, hnew⟩ := spaced_snoc.mp h
    obtain ⟨u, hu, hle⟩ := ih hbefore
    rw [last?_snoc]
    split_ifs with hname
    · have hgap := hnew u (hname ▸ hu)
      exact ⟨s.time, rfl, by omega⟩
    · exact ⟨u, hu, hle⟩

theorem Spaced.last?_le {more : List (Stamp α)} (h : Spaced gap (log ++ more)) {a : α} {t t' : Nat}
    (ht : last? a log = some t) (ht' : last? a (log ++ more) = some t') : t ≤ t' := by
  obtain ⟨u, hu, hle⟩ := h.exists_last? ht
  rw [hu] at ht'
  rwa [← Option.some.inj ht']

/-- No later entry of a name is earlier than its last time so far. -/
theorem Spaced.le_of_mem {more : List (Stamp α)} (h : Spaced gap (log ++ more)) {s : Stamp α} (hs : s ∈ more)
    {t : Nat} (ht : last? s.name log = some t) : t ≤ s.time := by
  obtain ⟨before, after, rfl⟩ := List.append_of_mem hs
  rw [List.append_cons, ← List.append_assoc, ← List.append_assoc] at h
  obtain ⟨hbefore, hnew⟩ := spaced_snoc.mp h.of_append
  obtain ⟨u, hu, hle⟩ := hbefore.exists_last? ht
  have hgap := hnew u hu
  omega

end

end ETraceGen.Spacing
