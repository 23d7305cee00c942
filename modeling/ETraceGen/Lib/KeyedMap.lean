import Mathlib.Data.List.AList
import Mathlib.Data.Finset.Card

/-!
# Finite keyed maps

`KeyedMap K V` is Mathlib's association list at a constant value type: at most one value for each
key, with the entries in a definite (unspecified) order. What is added here is the reading of
`insert` and `erase` by one lookup equation each, the number of entries, and the relation `Rel` of two maps
that agree up to a relation of their values.
-/

namespace ETraceGen

/-- A finite map from `K` to `V`. -/
abbrev KeyedMap (K V : Type) := AList fun _ : K => V

namespace KeyedMap

variable {K V W : Type}

/-- The number of entries. -/
def size (m : KeyedMap K V) : Nat := m.keys.length

theorem size_eq_entries (m : KeyedMap K V) : m.size = m.entries.length := by
  simp [size, AList.keys, List.keys]

variable [DecidableEq K]

/-! ## Lookups -/

theorem lookup_insert_ite (m : KeyedMap K V) (a k : K) (v : V) :
    (m.insert a v).lookup k = if k = a then some v else m.lookup k := by
  by_cases h : k = a
  · subst h
    rw [if_pos rfl, AList.lookup_insert]
  · rw [if_neg h, AList.lookup_insert_ne h]

theorem lookup_erase_ite (m : KeyedMap K V) (a k : K) :
    (m.erase a).lookup k = if k = a then none else m.lookup k := by
  by_cases h : k = a
  · subst h
    rw [if_pos rfl, AList.lookup_erase]
  · rw [if_neg h, AList.lookup_erase_ne h]

theorem lookup_erase_eq_some {m : KeyedMap K V} {a k : K} {v : V} :
    (m.erase a).lookup k = some v ↔ k ≠ a ∧ m.lookup k = some v := by
  rw [lookup_erase_ite]
  split_ifs with h
  · exact iff_of_false nofun fun hand => hand.1 h
  · exact (and_iff_right h).symm

theorem mem_of_lookup {m : KeyedMap K V} {k : K} {v : V} (h : m.lookup k = some v) : k ∈ m :=
  AList.lookup_isSome.mp (by rw [h]; rfl)

theorem exists_lookup {m : KeyedMap K V} {k : K} (h : k ∈ m) : ∃ v, m.lookup k = some v :=
  Option.isSome_iff_exists.mp (AList.lookup_isSome.mpr h)

theorem mem_entries_iff {m : KeyedMap K V} {k : K} {v : V} :
    (⟨k, v⟩ : Sigma fun _ : K => V) ∈ m.entries ↔ m.lookup k = some v :=
  AList.mem_lookup_iff.symm

/-! ## Sizes -/

theorem size_erase_of_mem {m : KeyedMap K V} {k : K} (h : k ∈ m) :
    size (m.erase k) + 1 = m.size := by
  have hk : k ∈ m.keys := h
  rw [size, size, AList.keys_erase, List.length_erase_of_mem hk]
  have := List.length_pos_of_mem hk
  omega

theorem erase_of_notMem {m : KeyedMap K V} {k : K} (h : k ∉ m) : m.erase k = m := by
  apply AList.ext
  exact List.kerase_of_notMem_keys h

theorem size_insert_of_notMem {m : KeyedMap K V} {k : K} (v : V) (h : k ∉ m) :
    size (m.insert k v) = m.size + 1 := by
  have hk : k ∉ m.keys := h
  rw [size, size, AList.keys_insert, List.length_cons, List.erase_of_not_mem hk]

theorem size_insert_of_mem {m : KeyedMap K V} {k : K} (v : V) (h : k ∈ m) :
    size (m.insert k v) = m.size := by
  have hk : k ∈ m.keys := h
  rw [size, size, AList.keys_insert, List.length_cons, List.length_erase_of_mem hk]
  have := List.length_pos_of_mem hk
  omega

/-- A map whose keys inject into the keys of another is no larger than it. -/
theorem size_le_of_injOn {L : Type} [DecidableEq L] {m : KeyedMap K V} {m' : KeyedMap L W}
    (f : K → L) (hf : ∀ k ∈ m, f k ∈ m')
    (hinj : ∀ k ∈ m, ∀ k' ∈ m, f k = f k' → k = k') : m.size ≤ m'.size := by
  have hcard : m.keys.toFinset.card ≤ m'.keys.toFinset.card := by
    apply Finset.card_le_card_of_injOn f
    · intro k hk
      exact List.mem_toFinset.mpr (hf k (List.mem_toFinset.mp hk))
    · intro k hk k' hk' h
      exact hinj k (List.mem_toFinset.mp hk) k' (List.mem_toFinset.mp hk') h
  rwa [List.toFinset_card_of_nodup m.keys_nodup, List.toFinset_card_of_nodup m'.keys_nodup] at hcard

/-! ## Maps that agree -/

/-- The maps have the same keys, with related values. -/
def Rel (R : V → W → Prop) (m : KeyedMap K V) (m' : KeyedMap K W) : Prop :=
  ∀ k, Option.Rel R (m.lookup k) (m'.lookup k)

section Rel
variable {R : V → W → Prop} {m : KeyedMap K V} {m' : KeyedMap K W}

theorem Rel.empty : Rel R (∅ : KeyedMap K V) (∅ : KeyedMap K W) := fun _ => .none

theorem Rel.insert (h : Rel R m m') (a : K) {v : V} {w : W} (hv : R v w) :
    Rel R (m.insert a v) (m'.insert a w) := by
  intro k
  rw [lookup_insert_ite, lookup_insert_ite]
  split_ifs
  · exact .some hv
  · exact h k

theorem Rel.erase (h : Rel R m m') (a : K) : Rel R (m.erase a) (m'.erase a) := by
  intro k
  rw [lookup_erase_ite, lookup_erase_ite]
  split_ifs
  · exact .none
  · exact h k

theorem Rel.cases (h : Rel R m m') (k : K) :
    m.lookup k = none ∧ m'.lookup k = none ∨
      ∃ v w, m.lookup k = some v ∧ m'.lookup k = some w ∧ R v w := by
  have hk := h k
  generalize m.lookup k = v, m'.lookup k = w at hk ⊢
  cases hk with
  | none => exact Or.inl ⟨rfl, rfl⟩
  | some hvw => exact Or.inr ⟨_, _, rfl, rfl, hvw⟩

theorem Rel.isSome_eq (h : Rel R m m') (k : K) : (m.lookup k).isSome = (m'.lookup k).isSome := by
  rcases h.cases k with ⟨hk, hk'⟩ | ⟨v, w, hk, hk', -⟩ <;> rw [hk, hk'] <;> rfl

end Rel

end KeyedMap

end ETraceGen
