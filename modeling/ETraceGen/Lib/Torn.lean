import ETraceGen.Lib.Sections

/-!
# A text that may be torn

Writers append pieces to a text, one writer after the other, and some of them are cut off in the middle of a piece.
What such a one has left of it is read as one piece with the first piece of the next writer.

* `Survives` : pieces that are read as they were written, and how many others are read with them;
* `Survives.append` : what one more writer does to it;
* `Survives.reads` : what a reader gets.
-/

namespace ETraceGen.Sections

variable {α : Type} [DecidableEq α] {d : α} {text : List α}

theorem notMem_of_mem_pieces {piece : List α} (h : piece ∈ pieces d text) : d ∉ piece := by
  induction text generalizing piece with
  | nil => cases h
  | cons c text ih =>
    rw [pieces] at h
    split_ifs at h with hc
    · rcases List.mem_cons.mp h with rfl | h
      · exact List.not_mem_nil
      · exact ih h
    · cases hpieces : pieces d text with
      | nil =>
        rw [hpieces] at h
        obtain rfl := List.mem_singleton.mp h
        simpa using Ne.symm hc
      | cons first rest =>
        rw [hpieces] at h ih
        rcases List.mem_cons.mp h with rfl | h
        · rw [List.mem_cons, not_or]
          exact ⟨Ne.symm hc, ih List.mem_cons_self⟩
        · exact ih (List.mem_cons_of_mem _ h)

/-- A text that ends with a separator is its pieces. -/
theorem flatten_pieces (h : text = [] ∨ text.getLast? = some d) :
    ((pieces d text).map (· ++ [d])).flatten = text := by
  induction text with
  | nil => rfl
  | cons c text ih =>
    have hrest : c = d ∨ text ≠ [] := by
      by_contra hboth
      rw [not_or, not_not] at hboth
      rw [hboth.2] at h
      exact hboth.1 (by simpa using h)
    have hlast : text = [] ∨ text.getLast? = some d := by
      cases text with
      | nil => exact Or.inl rfl
      | cons c' text => exact Or.inr (by simpa using h)
    have htext := ih hlast
    rw [pieces]
    split_ifs with hc
    · rw [List.map_cons, List.flatten_cons, htext, hc]
      rfl
    · cases hpieces : pieces d text with
      | nil =>
        rw [hpieces] at htext
        exact absurd htext.symm (hrest.resolve_left hc)
      | cons first rest =>
        rw [hpieces, List.map_cons, List.flatten_cons] at htext
        rw [List.map_cons, List.flatten_cons, List.cons_append, List.cons_append, htext]

omit [DecidableEq α] in
/-- What is left of the last pieces without some of them is the last of what is left of all. -/
theorem take_suffix {last all : List α} (h : last <:+ all) (lost : Nat) :
    last.take (last.length - lost) <:+ all.take (all.length - lost) := by
  obtain ⟨before, rfl⟩ := h
  have hback : before.length + last.length - lost - before.length = last.length - lost := by omega
  rw [List.take_append, List.length_append, hback]
  exact List.suffix_append _ _

/-- These pieces are read as they were written, in this order, and at most so many others between them. -/
def Survives (d : α) (kept : List (List α)) (torn : Nat) (text : List α) : Prop :=
  ∃ ps part, text = (ps.map (· ++ [d])).flatten ++ part ∧ (∀ piece ∈ ps, d ∉ piece) ∧ d ∉ part ∧
    kept.Sublist ps ∧ ps.length + (if part = [] then 0 else 1) ≤ kept.length + torn

theorem survives_pieces (h : text = [] ∨ text.getLast? = some d) : Survives d (pieces d text) 0 text :=
  ⟨pieces d text, [], by rw [List.append_nil, flatten_pieces h], fun _ hmem => notMem_of_mem_pieces hmem,
    List.not_mem_nil, List.Sublist.refl _, Nat.le_refl _⟩

section
variable {kept : List (List α)} {torn : Nat}

omit [DecidableEq α] in
theorem Survives.mono (h : Survives d kept torn text) {torn' : Nat} (hle : torn ≤ torn') :
    Survives d kept torn' text := by
  obtain ⟨ps, part, htext, hps, hpart, hsub, hfew⟩ := h
  exact ⟨ps, part, htext, hps, hpart, hsub, Nat.le_trans hfew (Nat.add_le_add_left hle _)⟩

theorem Survives.reads (h : Survives d kept torn text) :
    kept.Sublist (pieces d text) ∧ (pieces d text).length ≤ kept.length + torn := by
  obtain ⟨ps, part, rfl, hps, hpart, hsub, hfew⟩ := h
  rw [pieces_flatten hps]
  refine ⟨hsub.trans (List.sublist_append_left _ _), ?_⟩
  rw [List.length_append]
  by_cases hnone : part = []
  · rw [hnone] at hfew ⊢
    exact hfew
  · rw [pieces_of_notMem hpart hnone]
    rw [if_neg hnone] at hfew
    exact hfew

omit [DecidableEq α] in
/-- **One writer more**: its pieces are read, but for the first if the text was torn, and it may be cut off itself. -/
theorem Survives.append (h : Survives d kept torn text) {lines : List (List α)} {part : List α}
    (hlines : ∀ piece ∈ lines, d ∉ piece) (hpart : d ∉ part) :
    ∃ first, first ≤ 1 ∧ (text = [] ∨ text.getLast? = some d → first = 0) ∧
      Survives d (kept ++ lines.drop first) (torn + if part = [] then 0 else 1)
        (text ++ ((lines.map (· ++ [d])).flatten ++ part)) := by
  obtain ⟨ps, left, rfl, hps, hleft, hsub, hfew⟩ := h
  cases lines with
  | nil =>
    refine ⟨0, Nat.zero_le _, fun _ => rfl, ps, left ++ part, ?_, hps, ?_, ?_, ?_⟩
    · rw [List.map_nil, List.flatten_nil, List.nil_append, List.append_assoc]
    · rw [List.mem_append, not_or]
      exact ⟨hleft, hpart⟩
    · rw [List.drop_nil, List.append_nil]
      exact hsub
    · rw [List.drop_nil, List.append_nil]
      by_cases hnone : part = []
      · rw [hnone, List.append_nil]
        exact hfew
      · rw [if_neg hnone, if_neg fun hboth => hnone (List.append_eq_nil_iff.mp hboth).2]
        omega
  | cons line lines =>
    obtain ⟨hline, hrest⟩ := List.forall_mem_cons.mp hlines
    refine ⟨if left = [] then 0 else 1, ?_, fun hwhole => if_pos ?_, ps ++ (left ++ line) :: lines, part, ?_, ?_, hpart,
      ?_, ?_⟩
    · split_ifs <;> omega
    · by_contra hne
      rcases hwhole with hnil | hlast
      · exact hne (List.append_eq_nil_iff.mp hnil).2
      · rw [List.getLast?_append_of_ne_nil _ hne] at hlast
        exact hleft (List.mem_of_mem_getLast? hlast)
    · simp only [List.map_append, List.map_cons, List.flatten_append, List.flatten_cons, List.append_assoc]
    · intro piece hmem
      rcases List.mem_append.mp hmem with hmem | hmem
      · exact hps piece hmem
      · rcases List.mem_cons.mp hmem with rfl | hmem
        · rw [List.mem_append, not_or]
          exact ⟨hleft, hline⟩
        · exact hrest piece hmem
    · refine hsub.append ?_
      split_ifs with hnone
      · rw [hnone]
        exact List.Sublist.refl _
      · exact List.sublist_cons_self _ _
    · rw [List.length_append, List.length_append, List.length_cons]
      by_cases hnone : left = []
      · rw [if_pos hnone] at hfew ⊢
        rw [List.drop_zero, List.length_cons]
        omega
      · rw [if_neg hnone] at hfew ⊢
        rw [List.drop_one, List.tail_cons]
        omega

end

end ETraceGen.Sections
