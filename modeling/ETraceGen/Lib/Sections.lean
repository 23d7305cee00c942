import Mathlib.Data.List.Basic
import Mathlib.Logic.Function.Conjugate

/-!
# Texts made of sections

A text is read piece by piece, up to a separator, by a reader that keeps its place and edits a value. Lines that
begin a section set the place whatever it was before, so that what a block of lines does to the value is its own
affair, and blocks whose edits commute may stand in any order.

* `pieces_append_cons` : a piece is read up to its separator;
* `Reader.read_blocks` : the value behind a text is what the blocks do to it, one after another;
* `Reader.read_perm` : the same for every order of blocks whose edits commute.
-/

namespace ETraceGen.Sections

/-! ## Pieces -/

section Pieces
variable {α : Type} [DecidableEq α]

/-- What repeated reads up to a separator give. There is no empty piece behind the last separator. -/
def pieces (d : α) : List α → List (List α)
  | [] => []
  | c :: s =>
    if c = d then [] :: pieces d s
    else
      match pieces d s with
      | [] => [[c]]
      | piece :: rest => (c :: piece) :: rest

theorem pieces_append_cons {d : α} {piece : List α} (h : d ∉ piece) (rest : List α) :
    pieces d (piece ++ d :: rest) = piece :: pieces d rest := by
  induction piece with
  | nil => exact if_pos rfl
  | cons c piece ih =>
    rw [List.cons_append, pieces, if_neg (List.ne_of_not_mem_cons h).symm, ih (List.not_mem_of_not_mem_cons h)]

/-- What is read of pieces with a separator behind each. -/
theorem pieces_flatten {d : α} {ps : List (List α)} (h : ∀ piece ∈ ps, d ∉ piece) (rest : List α) :
    pieces d ((ps.map (· ++ [d])).flatten ++ rest) = ps ++ pieces d rest := by
  induction ps with
  | nil => rfl
  | cons piece ps ih =>
    obtain ⟨hpiece, hps⟩ := List.forall_mem_cons.mp h
    rw [List.map_cons, List.flatten_cons, List.append_assoc, List.append_assoc, List.singleton_append,
      pieces_append_cons hpiece, ih hps, List.cons_append]

/-- A text that ends with a separator is read by itself. -/
theorem pieces_append {d : α} {s : List α} (h : s = [] ∨ s.getLast? = some d) (rest : List α) :
    pieces d (s ++ rest) = pieces d s ++ pieces d rest := by
  induction s with
  | nil => rfl
  | cons c s ih =>
    have hlast : s = [] ∧ c = d ∨ s.getLast? = some d := by
      cases s with
      | nil => exact Or.inl ⟨rfl, Option.some.inj (h.resolve_left (List.cons_ne_nil _ _))⟩
      | cons c' s => exact Or.inr (by simpa using h)
    rcases hlast with ⟨rfl, rfl⟩ | hlast
    · simp [pieces]
    · rw [List.cons_append, pieces, pieces, ih (Or.inr hlast)]
      split_ifs
      · rfl
      · cases hpieces : pieces d s with
        | nil =>
          cases s with
          | nil => cases hlast
          | cons c' s =>
            rw [pieces] at hpieces
            split_ifs at hpieces
            split at hpieces <;> cases hpieces
        | cons piece ps => rfl

/-- A text without a separator is one piece. -/
theorem pieces_of_notMem {d : α} {s : List α} (h : d ∉ s) (hne : s ≠ []) : pieces d s = [s] := by
  induction s with
  | nil => exact absurd rfl hne
  | cons c s ih =>
    rw [pieces, if_neg (List.ne_of_not_mem_cons h).symm]
    by_cases hlast : s = []
    · rw [hlast]
      rfl
    · rw [ih (List.not_mem_of_not_mem_cons h) hlast]

theorem length_pieces_le {d : α} {s : List α} (h : d ∉ s) : (pieces d s).length ≤ 1 := by
  induction s with
  | nil => exact Nat.zero_le _
  | cons c s ih =>
    have hrest := ih (List.not_mem_of_not_mem_cons h)
    rw [pieces, if_neg (List.ne_of_not_mem_cons h).symm]
    cases hpieces : pieces d s with
    | nil => exact Nat.le_refl _
    | cons piece rest =>
      rw [hpieces] at hrest
      exact hrest

omit [DecidableEq α] in
/-- A text that is cut off somewhere is some of its pieces, and what is left of the next. -/
theorem exists_take_of_prefix {d : α} {ps : List (List α)} {s : List α} (h : s <+: (ps.map (· ++ [d])).flatten)
    (hpieces : ∀ piece ∈ ps, d ∉ piece) :
    ∃ n part, n ≤ ps.length ∧ s = ((ps.take n).map (· ++ [d])).flatten ++ part ∧ d ∉ part := by
  induction ps generalizing s with
  | nil =>
    obtain rfl := List.prefix_nil.mp h
    exact ⟨0, [], Nat.le_refl _, rfl, List.not_mem_nil⟩
  | cons piece ps ih =>
    obtain ⟨hpiece, hps⟩ := List.forall_mem_cons.mp hpieces
    rw [List.map_cons, List.flatten_cons] at h
    rcases List.prefix_or_prefix_of_prefix h (List.prefix_append _ _) with hcut | ⟨rest, hrest⟩
    · rcases List.prefix_concat_iff.mp hcut with rfl | hcut
      · exact ⟨1, [], by simp, by simp, List.not_mem_nil⟩
      · exact ⟨0, s, Nat.zero_le _, rfl, fun hmem => hpiece (hcut.subset hmem)⟩
    · subst hrest
      obtain ⟨n, part, hn, hsplit, hpart⟩ := ih ((List.prefix_append_right_inj _).mp h) hps
      refine ⟨n + 1, part, Nat.succ_le_succ hn, ?_, hpart⟩
      rw [hsplit, List.take_succ_cons, List.map_cons, List.flatten_cons, List.append_assoc _ _ part]

end Pieces

/-! ## Readers -/

/-- How a line of type `L` moves the place and edits the value. -/
structure Reader (L S C : Type) where
  next : S → L → S
  edit : S → L → C → C

namespace Reader
variable {L S C : Type} (r : Reader L S C)

def read (p : S × C) (ls : List L) : S × C := ls.foldl (fun p l => (r.next p.1 l, r.edit p.1 l p.2)) p

/-- The line begins a section: nothing of the place before it counts. -/
def Resets (l : L) : Prop := ∀ s s', r.next s l = r.next s' l ∧ r.edit s l = r.edit s' l

/-- The edits that a reader makes from a place on. -/
def edits (s : S) : List L → List (C → C)
  | [] => []
  | l :: ls => r.edit s l :: edits (r.next s l) ls

def apply (fs : List (C → C)) (c : C) : C := fs.foldl (fun c f => f c) c

theorem read_append (p : S × C) (ls ls' : List L) : r.read p (ls ++ ls') = r.read (r.read p ls) ls' :=
  List.foldl_append

theorem read_eq (s : S) (c : C) (ls : List L) :
    r.read (s, c) ls = (ls.foldl r.next s, apply (r.edits s ls) c) := by
  induction ls generalizing s c with
  | nil => rfl
  | cons l ls ih => exact ih (r.next s l) (r.edit s l c)

theorem mem_edits {s : S} {ls : List L} {f : C → C} (h : f ∈ r.edits s ls) :
    ∃ before l after, ls = before ++ l :: after ∧ f = r.edit (before.foldl r.next s) l := by
  induction ls generalizing s with
  | nil => cases h
  | cons l ls ih =>
    rcases List.mem_cons.mp h with rfl | h
    · exact ⟨[], l, ls, rfl, rfl⟩
    · obtain ⟨before, l', after, rfl, rfl⟩ := ih h
      exact ⟨l :: before, l', after, rfl, rfl⟩

variable {r}

theorem resets_of_const {l : L} {s₀ : S} {f : C → C} (h : ∀ s, r.next s l = s₀ ∧ r.edit s l = f) :
    r.Resets l := by
  intro s s'
  rw [(h s).1, (h s').1, (h s).2, (h s').2]
  exact ⟨rfl, rfl⟩

/-- A block that begins a section makes the same edits from every place. -/
theorem Resets.edits_eq {l : L} (h : r.Resets l) (ls : List L) (s s' : S) :
    r.edits s (l :: ls) = r.edits s' (l :: ls) := by
  rw [edits, edits, (h s s').1, (h s s').2]

/-! ## Blocks -/

variable {blocks blocks' : List (List L)}

/-- A text that is cut where sections begin. -/
def Headed (r : Reader L S C) (blocks : List (List L)) : Prop :=
  ∀ block ∈ blocks, ∃ l ls, block = l :: ls ∧ r.Resets l

/-- **The blocks one after another**: each makes the edits it would make from any place. -/
theorem read_blocks (h : r.Headed blocks) (s s₀ : S) (c : C) :
    (r.read (s, c) blocks.flatten).2 = blocks.foldl (fun c block => apply (r.edits s₀ block) c) c := by
  induction blocks generalizing s c with
  | nil => rfl
  | cons block blocks ih =>
    obtain ⟨hblock, hblocks⟩ := List.forall_mem_cons.mp h
    obtain ⟨l, ls, rfl, hreset⟩ := hblock
    rw [List.flatten_cons, read_append, r.read_eq s c (l :: ls), ih hblocks, hreset.edits_eq ls s s₀,
      List.foldl_cons]

theorem apply_id {fs : List (C → C)} (h : ∀ f ∈ fs, f = id) (c : C) : apply fs c = c := by
  induction fs generalizing c with
  | nil => rfl
  | cons f fs ih =>
    obtain ⟨rfl, hfs⟩ := List.forall_mem_cons.mp h
    exact ih hfs c

/-- Blocks that edit nothing leave the value as it is. -/
theorem read_idle (h : r.Headed blocks) (s₀ : S) (hid : ∀ block ∈ blocks, ∀ f ∈ r.edits s₀ block, f = id) (s : S)
    (c : C) : (r.read (s, c) blocks.flatten).2 = c := by
  rw [read_blocks h s s₀]
  clear h
  induction blocks with
  | nil => rfl
  | cons block blocks ih =>
    obtain ⟨hblock, hblocks⟩ := List.forall_mem_cons.mp hid
    rw [List.foldl_cons, apply_id hblock]
    exact ih hblocks

theorem apply_comm {f : C → C} {gs : List (C → C)} (h : ∀ g ∈ gs, Function.Commute f g) (c : C) :
    apply gs (f c) = f (apply gs c) := by
  induction gs generalizing c with
  | nil => rfl
  | cons g gs ih =>
    obtain ⟨hg, hgs⟩ := List.forall_mem_cons.mp h
    show apply gs (g (f c)) = f (apply gs (g c))
    rw [← hg c, ih hgs]

theorem apply_apply_comm {fs gs : List (C → C)} (h : ∀ f ∈ fs, ∀ g ∈ gs, Function.Commute f g) (c : C) :
    apply gs (apply fs c) = apply fs (apply gs c) := by
  induction fs generalizing c with
  | nil => rfl
  | cons f fs ih =>
    obtain ⟨hf, hfs⟩ := List.forall_mem_cons.mp h
    show apply gs (apply fs (f c)) = apply fs (f (apply gs c))
    rw [ih hfs, apply_comm hf]

/-- **Sections in any order**: two blocks whose edits commute may be exchanged. -/
theorem read_perm (h : r.Headed blocks) (hperm : blocks.Perm blocks') (s₀ : S)
    (hcomm : ∀ block ∈ blocks, ∀ block' ∈ blocks, block ≠ block' →
      ∀ f ∈ r.edits s₀ block, ∀ g ∈ r.edits s₀ block', Function.Commute f g) (s : S) (c : C) :
    (r.read (s, c) blocks.flatten).2 = (r.read (s, c) blocks'.flatten).2 := by
  have hheaded : r.Headed blocks' := fun block hmem => h block (hperm.mem_iff.mpr hmem)
  rw [read_blocks h s s₀, read_blocks hheaded s s₀]
  refine hperm.foldl_eq' (fun block hmem block' hmem' c => ?_) c
  by_cases hsame : block = block'
  · rw [hsame]
  · exact apply_apply_comm (hcomm block hmem block' hmem' hsame) c

end Reader

end ETraceGen.Sections
