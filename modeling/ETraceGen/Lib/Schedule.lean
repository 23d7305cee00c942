import Mathlib.Data.List.Induction

/-!
# Schedules

Steps that have owners. Two schedules give the owners the same turns if each owner takes the same steps in the
same order, whatever the others do in between.

* `foldl_filter` : a run seen from some of the owners is the run of their own steps;
* `SameTurns.sum_eq` : a measure that adds up over the owners is the same for every schedule.
-/

namespace ETraceGen.Schedule

section Projection
variable {σ τ α : Type} {step : σ → α → σ} {step' : τ → α → τ} {R : σ → τ → Prop} {p : α → Bool}

/-- A relation that the owners' steps keep on both sides and every other step on its own side. -/
theorem foldl_filter (hown : ∀ s t a, R s t → p a = true → R (step s a) (step' t a))
    (hother : ∀ s t a, R s t → p a = false → R (step s a) t) {s : σ} {t : τ} (h : R s t) (steps : List α) :
    R (steps.foldl step s) ((steps.filter p).foldl step' t) := by
  induction steps generalizing s t with
  | nil => exact h
  | cons a steps ih =>
    cases hp : p a with
    | true =>
      rw [List.filter_cons_of_pos hp, List.foldl_cons, List.foldl_cons]
      exact ih (hown s t a h hp)
    | false =>
      rw [List.filter_cons_of_neg (by simp [hp]), List.foldl_cons]
      exact ih (hother s t a h hp)

end Projection

variable {α ι : Type} [DecidableEq ι] (owner : α → ι)

/-- The steps of one owner. -/
def turns (i : ι) (steps : List α) : List α := steps.filter fun a => owner a = i

/-- Every owner takes the same steps in the same order. -/
def SameTurns (steps steps' : List α) : Prop := ∀ i, turns owner i steps = turns owner i steps'

/-- The steps of everybody else. -/
def others (i : ι) (steps : List α) : List α := steps.filter fun a => owner a ≠ i

/-- What is measured adds up over the owners. -/
def AddsUp (f : List α → Nat) : Prop :=
  ∀ i steps, f steps = f (turns owner i steps) + f (others owner i steps)

variable {owner} {steps steps' : List α}

theorem SameTurns.others (h : SameTurns owner steps steps') (i : ι) :
    SameTurns owner (others owner i steps) (others owner i steps') := by
  intro j
  have hswap : ∀ l : List α, turns owner j (Schedule.others owner i l) = Schedule.others owner i (turns owner j l) := by
    intro l
    unfold turns Schedule.others
    rw [List.filter_filter, List.filter_filter]
    congr 1
    funext a
    exact Bool.and_comm _ _
  rw [hswap, hswap, h j]

theorem SameTurns.nil (h : SameTurns owner [] steps) : steps = [] := by
  rw [List.eq_nil_iff_forall_not_mem]
  intro a ha
  have hturn : a ∈ turns owner (owner a) steps := List.mem_filter.mpr ⟨ha, decide_eq_true rfl⟩
  rw [← h (owner a)] at hturn
  cases hturn

/-- **What adds up over the owners** is the same for every schedule of their steps. -/
theorem SameTurns.sum_eq {f : List α → Nat} (hf : AddsUp owner f) (h : SameTurns owner steps steps') :
    f steps = f steps' := by
  induction hn : steps.length using Nat.strongRecOn generalizing steps steps' with
  | ind n ih =>
    cases steps with
    | nil => rw [h.nil]
    | cons a rest =>
      have hfewer : (Schedule.others owner (owner a) (a :: rest)).length < n := by
        have hle := List.length_filter_le (fun b => decide (owner b ≠ owner a)) rest
        rw [← hn, Schedule.others, List.filter_cons_of_neg (by simp), List.length_cons]
        exact Nat.lt_succ_of_le hle
      rw [hf (owner a) (a :: rest), hf (owner a) steps', h (owner a),
        ih _ hfewer (h.others (owner a)) rfl]

end ETraceGen.Schedule
