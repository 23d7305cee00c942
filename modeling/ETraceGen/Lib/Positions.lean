import Mathlib.Logic.Basic

/-!
# Positions along a run

What is said of an action is often said of the actions before it as well. The actions of a run are told apart by
their positions.

* `At` : the action at a position, after those before it, is of some kind;
* `at_snoc` : one action more;
* `latch_iff` : what some positions set and others clear.
-/

namespace ETraceGen

variable {A : Type}

/-- The action at position `i` is in `P`, after those before it. -/
def At (P : List A → A → Prop) (as : List A) (i : Nat) : Prop := ∃ a, as[i]? = some a ∧ P (as.take i) a

section
variable {P : List A → A → Prop} {as : List A} {a : A} {i : Nat}

theorem At.lt (h : At P as i) : i < as.length := by
  obtain ⟨a, ha, -⟩ := h
  exact (List.getElem?_eq_some_iff.mp ha).1

theorem at_snoc_of_lt (hlt : i < as.length) : At P (as ++ [a]) i ↔ At P as i := by
  unfold At
  rw [List.getElem?_append_left hlt, List.take_append_of_le_length (Nat.le_of_lt hlt)]

theorem at_snoc_last : At P (as ++ [a]) as.length ↔ P as a := by
  unfold At
  rw [List.getElem?_concat_length, List.take_left]
  constructor
  · rintro ⟨b, hb, h⟩
    obtain rfl := Option.some.inj hb
    exact h
  · exact fun h => ⟨a, rfl, h⟩

theorem at_snoc : At P (as ++ [a]) i ↔ At P as i ∨ i = as.length ∧ P as a := by
  rcases Nat.lt_trichotomy i as.length with hlt | rfl | hgt
  · rw [at_snoc_of_lt hlt]
    exact ⟨Or.inl, fun h => h.resolve_right fun heq => Nat.ne_of_lt hlt heq.1⟩
  · rw [at_snoc_last]
    exact ⟨fun h => Or.inr ⟨rfl, h⟩, fun h => (h.resolve_left fun h => Nat.lt_irrefl _ h.lt).2⟩
  · constructor
    · intro h
      have hlt := h.lt
      rw [List.length_append, List.length_singleton] at hlt
      omega
    · rintro (h | ⟨heq, -⟩)
      · exact absurd h.lt (Nat.lt_asymm hgt)
      · exact absurd heq (Nat.ne_of_gt hgt)

end

/-- **When a latch is on** after `n` steps, each of which may set it or else clear it. -/
theorem latch_iff {on sets clears : Nat → Prop} (hinit : ¬on 0)
    (hstep : ∀ n, on (n + 1) ↔ sets n ∨ on n ∧ ¬clears n) (n : Nat) :
    on n ↔ ∃ i, i < n ∧ sets i ∧ ∀ j, i < j → j < n → ¬clears j := by
  induction n with
  | zero => exact ⟨fun h => absurd h hinit, fun ⟨i, hi, _⟩ => absurd hi (Nat.not_lt_zero i)⟩
  | succ n ih =>
    rw [hstep]
    constructor
    · rintro (hset | ⟨hon, hclear⟩)
      · exact ⟨n, Nat.lt_succ_self n, hset, fun j hj hjn => absurd hjn (by omega)⟩
      · obtain ⟨i, hi, hset, hkept⟩ := ih.mp hon
        refine ⟨i, Nat.lt_succ_of_lt hi, hset, fun j hj hjn => ?_⟩
        rcases Nat.lt_succ_iff_lt_or_eq.mp hjn with hjn | rfl
        · exact hkept j hj hjn
        · exact hclear
    · rintro ⟨i, hi, hset, hkept⟩
      rcases Nat.lt_succ_iff_lt_or_eq.mp hi with hi | rfl
      · refine Or.inr ⟨ih.mpr ⟨i, hi, hset, fun j hj hjn => ?_⟩, hkept n hi (Nat.lt_succ_self n)⟩
        exact hkept j hj (Nat.lt_succ_of_lt hjn)
      · exact Or.inl hset

end ETraceGen
