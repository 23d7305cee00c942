import Mathlib.Data.Finset.Card
import Mathlib.Logic.Function.Basic
import Mathlib.Logic.Relation

/-!
# Parent links

A partial function `up` gives each node its parent, if it has one. Climbing from a node comes by no node
twice exactly if no node is its own ancestor (`acyclic_iff`); giving a root a parent closes a cycle
exactly if the root is an ancestor of that parent (`acyclic_update`); and without cycles every climb
among finitely many nodes ends (`Acyclic.ends`).
-/

namespace ETraceGen.ParentLinks

open Relation (TransGen ReflTransGen)

variable {α : Type} {up up' : α → Option α} {a b : α}

/-- `b` is the parent of `a`. -/
def Link (up : α → Option α) (a b : α) : Prop := up a = some b

/-- `b` is `a` or an ancestor of `a`. -/
abbrev Reaches (up : α → Option α) : α → α → Prop := ReflTransGen (Link up)

/-- Where `n` steps up from `a` lead. -/
def climb (up : α → Option α) : Nat → α → Option α
  | 0, a => some a
  | n + 1, a => (climb up n a).bind up

/-- No climb comes by a node twice. -/
def Acyclic (up : α → Option α) : Prop :=
  ∀ a b m n, m < n → climb up m a = some b → climb up n a ≠ some b

/-! ## Climbs -/

theorem climb_add (m n : Nat) (a : α) : climb up (m + n) a = (climb up m a).bind (climb up n) := by
  induction n with
  | zero =>
    change climb up m a = (climb up m a).bind some
    rw [Option.bind_fun_some]
  | succ n ih =>
    rw [← Nat.add_assoc, climb, ih, Option.bind_assoc]
    rfl

theorem climb_succ_iff {n : Nat} : climb up (n + 1) a = some b ↔ ∃ c, climb up n a = some c ∧ up c = some b :=
  Option.bind_eq_some_iff

/-- A climb that goes on for `n` steps went on before. -/
theorem climb_of_le {m n : Nat} (hmn : m ≤ n) (h : climb up n a = some b) :
    ∃ c, climb up m a = some c := by
  obtain ⟨d, rfl⟩ := Nat.exists_eq_add_of_le hmn
  rw [climb_add] at h
  obtain ⟨c, hc, -⟩ := Option.bind_eq_some_iff.mp h
  exact ⟨c, hc⟩

theorem transGen_iff_climb : TransGen (Link up) a b ↔ ∃ n, climb up (n + 1) a = some b := by
  constructor
  · intro h
    induction h with
    | single hab => exact ⟨0, climb_succ_iff.mpr ⟨a, rfl, hab⟩⟩
    | tail _ hbc ih =>
      obtain ⟨n, hn⟩ := ih
      exact ⟨n + 1, climb_succ_iff.mpr ⟨_, hn, hbc⟩⟩
  · rintro ⟨n, hn⟩
    induction n generalizing b with
    | zero =>
      obtain ⟨c, hc, hcb⟩ := climb_succ_iff.mp hn
      obtain rfl := Option.some.inj hc
      exact .single hcb
    | succ n ih =>
      obtain ⟨c, hc, hcb⟩ := climb_succ_iff.mp hn
      exact (ih hc).tail hcb

/-! ## Cycles -/

theorem acyclic_iff : Acyclic up ↔ ∀ a, ¬TransGen (Link up) a a := by
  constructor
  · intro h a hcycle
    obtain ⟨n, hn⟩ := transGen_iff_climb.mp hcycle
    exact h a a 0 (n + 1) (Nat.succ_pos n) rfl hn
  · intro h a b m n hmn hm hn
    obtain ⟨d, rfl⟩ := Nat.exists_eq_add_of_lt hmn
    rw [Nat.add_assoc, climb_add, hm] at hn
    exact h b (transGen_iff_climb.mpr ⟨d, hn⟩)

/-- Fewer links make no cycle. -/
theorem Acyclic.mono (h : Acyclic up) (hle : ∀ a b, up' a = some b → up a = some b) : Acyclic up' := by
  rw [acyclic_iff] at h ⊢
  exact fun a hcycle => h a (Relation.TransGen.mono hle _ _ hcycle)

section Update
variable [DecidableEq α] {k s : α} (hk : up k = none)
include hk

theorem le_update (a b : α) (h : up a = some b) : Function.update up k (some s) a = some b := by
  have hne : a ≠ k := by
    rintro rfl
    rw [hk] at h
    cases h
  rw [Function.update_of_ne hne, h]

omit hk in
/-- A path with the new link in it goes up to the root, and on from its new parent. -/
theorem transGen_update (h : TransGen (Link (Function.update up k (some s))) a b) :
    TransGen (Link up) a b ∨ Reaches up a k ∧ Reaches up s b := by
  have hstep : ∀ x y, Link (Function.update up k (some s)) x y → Link up x y ∨ x = k ∧ y = s := by
    intro x y hxy
    unfold Link at hxy
    by_cases hx : x = k
    · subst hx
      rw [Function.update_self] at hxy
      exact Or.inr ⟨rfl, (Option.some.inj hxy).symm⟩
    · rw [Function.update_of_ne hx] at hxy
      exact Or.inl hxy
  induction h with
  | single hab =>
    rcases hstep _ _ hab with hold | ⟨rfl, rfl⟩
    · exact Or.inl (.single hold)
    · exact Or.inr ⟨.refl, .refl⟩
  | tail _ hbc ih =>
    rcases hstep _ _ hbc with hold | ⟨rfl, rfl⟩
    · rcases ih with hpath | ⟨hto, hfrom⟩
      · exact Or.inl (hpath.tail hold)
      · exact Or.inr ⟨hto, hfrom.tail hold⟩
    · rcases ih with hpath | ⟨hto, -⟩
      · exact Or.inr ⟨hpath.to_reflTransGen, .refl⟩
      · exact Or.inr ⟨hto, .refl⟩

/-- Giving the root `k` the parent `s`. -/
theorem acyclic_update :
    Acyclic (Function.update up k (some s)) ↔ Acyclic up ∧ ¬Reaches up s k := by
  constructor
  · intro h
    refine ⟨h.mono (le_update hk), fun hreach => ?_⟩
    rw [acyclic_iff] at h
    have hlink : Link (Function.update up k (some s)) k s := by
      unfold Link
      rw [Function.update_self]
    have hback : Reaches (Function.update up k (some s)) s k :=
      Relation.ReflTransGen.mono (le_update hk) _ _ hreach
    exact h k (.head' hlink hback)
  · rintro ⟨h, hreach⟩
    rw [acyclic_iff] at h ⊢
    intro a hcycle
    rcases transGen_update hcycle with hold | ⟨hto, hfrom⟩
    · exact h a hold
    · exact hreach (hfrom.trans hto)

end Update

/-- Where only the nodes of `nodes` have parents, a climb ends after as many steps. -/
theorem Acyclic.ends [DecidableEq α] (h : Acyclic up) {nodes : Finset α}
    (hnodes : ∀ a b, up a = some b → a ∈ nodes) (a : α) : climb up (nodes.card + 1) a = none := by
  rw [Option.eq_none_iff_forall_ne_some]
  intro b hb
  have hstep : ∀ n ∈ Finset.range (nodes.card + 1), ∃ c, climb up n a = some c ∧ c ∈ nodes := by
    intro n hn
    obtain ⟨d, hd⟩ := climb_of_le (Nat.succ_le_of_lt (Finset.mem_range.mp hn)) hb
    obtain ⟨c, hc, hup⟩ := climb_succ_iff.mp hd
    exact ⟨c, hc, hnodes c d hup⟩
  obtain ⟨m, hm, n, hn, hne, heq⟩ := Finset.exists_ne_map_eq_of_card_lt_of_maps_to
    (t := nodes) (f := fun n => (climb up n a).getD a)
    (by rw [Finset.card_range]; exact Nat.lt_succ_self _) fun n hn => by
      obtain ⟨c, hc, hmem⟩ := hstep n hn
      change (climb up n a).getD a ∈ nodes
      rw [hc]
      exact hmem
  obtain ⟨c, hc, -⟩ := hstep m hm
  obtain ⟨d, hd, -⟩ := hstep n hn
  simp only [hc, hd, Option.getD_some] at heq
  subst heq
  rcases Nat.lt_or_gt_of_ne hne with hlt | hlt
  · exact h a c m n hlt hc hd
  · exact h a c n m hlt hd hc

end ETraceGen.ParentLinks
