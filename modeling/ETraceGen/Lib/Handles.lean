import Mathlib.Data.List.Nodup

/-!
# Handles

What a program does with the handles a library gives it: each is acquired, used and released. A log of it is
disciplined if no handle is given out twice, and each is used and released only between its acquisition and its release.

* `Disciplined.once` : no handle is released twice;
* `Holds`, `Tight`, `Lost` : the handles a program still knows of, all of them or all but one;
* `Rules` : what each operation does to such a statement.
-/

namespace ETraceGen.Handles

inductive Use (H : Type) where
  | acquire (h : H)
  | use (h : H)
  | release (h : H)
  deriving DecidableEq

variable {H : Type} [DecidableEq H]

def acquired (h : H) (log : List (Use H)) : Nat := log.count (.acquire h)

def released (h : H) (log : List (Use H)) : Nat := log.count (.release h)

/-- Given out and not given back. -/
def Live (log : List (Use H)) (h : H) : Prop := released h log < acquired h log

def Allowed (log : List (Use H)) : Use H → Prop
  | .acquire h => acquired h log = 0
  | .use h | .release h => Live log h

inductive Disciplined : List (Use H) → Prop where
  | nil : Disciplined []
  | snoc {log : List (Use H)} {u : Use H} (h : Disciplined log) (hu : Allowed log u) : Disciplined (log ++ [u])

section Counts
variable {log : List (Use H)} {h h' : H}

theorem acquired_snoc (u : Use H) : acquired h (log ++ [u]) = acquired h log + if u = .acquire h then 1 else 0 := by
  simp [acquired, List.count_singleton]

theorem released_snoc (u : Use H) : released h (log ++ [u]) = released h log + if u = .release h then 1 else 0 := by
  simp [released, List.count_singleton]

theorem live_acquire : Live (log ++ [.acquire h']) h ↔ Live log h ∨ h = h' ∧ released h log = acquired h log := by
  unfold Live
  rw [acquired_snoc, released_snoc, if_neg (by simp)]
  by_cases heq : h' = h
  · subst heq
    simp only [if_true, true_and]
    omega
  · rw [if_neg (by simp [heq]), Nat.add_zero, Nat.add_zero]
    simp [Ne.symm heq]

theorem live_use : Live (log ++ [.use h']) h ↔ Live log h := by
  unfold Live
  rw [acquired_snoc, released_snoc, if_neg (by simp), if_neg (by simp), Nat.add_zero, Nat.add_zero]

theorem live_release_of_ne (hne : h ≠ h') : Live (log ++ [.release h']) h ↔ Live log h := by
  have hother : Use.release h' ≠ Use.release h := fun heq => hne (Use.release.inj heq).symm
  have hkind : Use.release h' ≠ Use.acquire h := nofun
  unfold Live
  rw [acquired_snoc, released_snoc, if_neg hother, if_neg hkind, Nat.add_zero, Nat.add_zero]

/-- A handle is given out once, and given back once at most. -/
theorem Disciplined.once (hlog : Disciplined log) (h : H) : acquired h log ≤ 1 ∧ released h log ≤ acquired h log := by
  induction hlog with
  | nil => exact ⟨Nat.zero_le _, Nat.le_refl _⟩
  | @snoc log u _ hu ih =>
    obtain ⟨honce, hback⟩ := ih
    rw [acquired_snoc, released_snoc]
    cases u with
    | acquire h' =>
      by_cases heq : h' = h
      · subst heq
        have hnew : acquired h' log = 0 := hu
        simp
        omega
      · simp [heq, honce, hback]
    | use h' => simp [honce, hback]
    | release h' =>
      by_cases heq : h' = h
      · subst heq
        have hlive : released h' log < acquired h' log := hu
        simp
        omega
      · simp [heq, honce, hback]

theorem Disciplined.not_live_release (hlog : Disciplined log) (h : H) : ¬Live (log ++ [.release h]) h := by
  have honce := hlog.once h
  have hkind : Use.release h ≠ Use.acquire h := nofun
  unfold Live
  rw [acquired_snoc, released_snoc, if_pos rfl, if_neg hkind]
  omega

end Counts

/-! ## What the program knows of -/

/-- These handles are live, and the log so far is disciplined. -/
structure Holds (log : List (Use H)) (held : List H) : Prop where
  disciplined : Disciplined log
  nodup : held.Nodup
  live : ∀ h ∈ held, Live log h

/-- And there is no other. -/
structure Tight (log : List (Use H)) (held : List H) : Prop extends Holds log held where
  all : ∀ h, Live log h → h ∈ held

/-- And there is this one, which the program does not know of. -/
structure Lost (lost : H) (log : List (Use H)) (held : List H) : Prop extends Holds log held where
  stays : Live log lost
  unknown : lost ∉ held

/-- What each operation does to such a statement. -/
structure Rules (P : List (Use H) → List H → Prop) : Prop where
  perm {log : List (Use H)} {held rest : List H} : P log held → held.Perm rest → P log rest
  acquire {log : List (Use H)} {held : List H} {h : H} :
    P log held → acquired h log = 0 → P (log ++ [.acquire h]) (h :: held)
  use {log : List (Use H)} {held : List H} {h : H} : P log held → h ∈ held → P (log ++ [.use h]) held
  release {log : List (Use H)} {rest : List H} {h : H} : P log (h :: rest) → P (log ++ [.release h]) rest

/-- Handles may be forgotten. -/
def Forgets (P : List (Use H) → List H → Prop) : Prop :=
  ∀ {log : List (Use H)} {held rest : List H}, P log held → rest.Sublist held → P log rest

theorem Rules.releaseAll {P : List (Use H) → List H → Prop} (hrules : Rules P) {log : List (Use H)} {hs rest : List H}
    (h : P log (hs ++ rest)) : P (log ++ hs.map .release) rest := by
  induction hs generalizing log with
  | nil => simpa using h
  | cons h' hs ih =>
    rw [List.map_cons, List.append_cons]
    exact ih (hrules.release h)

section Holds
variable {log : List (Use H)} {held rest : List H} {h lost : H}

theorem holds_nil : Holds ([] : List (Use H)) [] := ⟨.nil, List.nodup_nil, nofun⟩

theorem tight_nil : Tight ([] : List (Use H)) [] := ⟨holds_nil, fun _ hlive => absurd hlive (Nat.lt_irrefl 0)⟩

theorem Holds.acquire (hh : Holds log held) (hnew : acquired h log = 0) : Holds (log ++ [.acquire h]) (h :: held) := by
  have hnot : h ∉ held := fun hmem => by
    have hlive := hh.live h hmem
    unfold Live at hlive
    omega
  refine ⟨hh.disciplined.snoc hnew, List.nodup_cons.mpr ⟨hnot, hh.nodup⟩, ?_⟩
  intro h' hmem
  rcases List.mem_cons.mp hmem with rfl | hmem
  · have hback := (hh.disciplined.once h').2
    exact live_acquire.mpr (Or.inr ⟨rfl, by omega⟩)
  · exact live_acquire.mpr (Or.inl (hh.live h' hmem))

theorem Holds.release (hh : Holds log (h :: rest)) : Holds (log ++ [.release h]) rest := by
  obtain ⟨hnot, hnodup⟩ := List.nodup_cons.mp hh.nodup
  refine ⟨hh.disciplined.snoc (hh.live h List.mem_cons_self), hnodup, ?_⟩
  intro h' hmem
  have hne : h' ≠ h := fun heq => hnot (heq ▸ hmem)
  exact (live_release_of_ne hne).mpr (hh.live h' (List.mem_cons_of_mem _ hmem))

theorem holds_rules : Rules (Holds (H := H)) where
  perm hh hperm :=
    ⟨hh.disciplined, hperm.nodup_iff.mp hh.nodup, fun h hmem => hh.live h (hperm.mem_iff.mpr hmem)⟩
  acquire := Holds.acquire
  use hh hmem := ⟨hh.disciplined.snoc (hh.live _ hmem), hh.nodup, fun h' hmem' => live_use.mpr (hh.live h' hmem')⟩
  release := Holds.release

theorem holds_forgets : Forgets (Holds (H := H)) := fun hh hsub =>
  ⟨hh.disciplined, hh.nodup.sublist hsub, fun h hmem => hh.live h (hsub.subset hmem)⟩

theorem Tight.acquire (ht : Tight log held) (hnew : acquired h log = 0) : Tight (log ++ [.acquire h]) (h :: held) := by
  refine ⟨ht.toHolds.acquire hnew, fun h' hlive => ?_⟩
  rcases live_acquire.mp hlive with hbefore | ⟨rfl, -⟩
  · exact List.mem_cons_of_mem _ (ht.all h' hbefore)
  · exact List.mem_cons_self

theorem Tight.release (ht : Tight log (h :: rest)) : Tight (log ++ [.release h]) rest := by
  refine ⟨ht.toHolds.release, fun h' hlive => ?_⟩
  have hne : h' ≠ h := by
    rintro rfl
    exact ht.disciplined.not_live_release h' hlive
  rcases List.mem_cons.mp (ht.all h' ((live_release_of_ne hne).mp hlive)) with heq | hmem
  · exact absurd heq hne
  · exact hmem

theorem tight_rules : Rules (Tight (H := H)) where
  perm ht hperm := ⟨holds_rules.perm ht.toHolds hperm, fun h hlive => hperm.mem_iff.mp (ht.all h hlive)⟩
  acquire := Tight.acquire
  use ht hmem := ⟨holds_rules.use ht.toHolds hmem, fun h' hlive => ht.all h' (live_use.mp hlive)⟩
  release := Tight.release

theorem Lost.acquire (hl : Lost lost log held) (hnew : acquired h log = 0) :
    Lost lost (log ++ [.acquire h]) (h :: held) := by
  have hne : lost ≠ h := by
    rintro rfl
    have hlive := hl.stays
    unfold Live at hlive
    omega
  exact ⟨hl.toHolds.acquire hnew, live_acquire.mpr (Or.inl hl.stays),
    fun hmem => (List.mem_cons.mp hmem).elim hne hl.unknown⟩

theorem Lost.release (hl : Lost lost log (h :: rest)) : Lost lost (log ++ [.release h]) rest := by
  obtain ⟨hne, hrest⟩ := not_or.mp fun hor => hl.unknown (List.mem_cons.mpr hor)
  exact ⟨hl.toHolds.release, (live_release_of_ne hne).mpr hl.stays, hrest⟩

/-- A lost handle stays lost. -/
theorem lost_rules (lost : H) : Rules (Lost lost) where
  perm hl hperm :=
    ⟨holds_rules.perm hl.toHolds hperm, hl.stays, fun hmem => hl.unknown (hperm.mem_iff.mpr hmem)⟩
  acquire := Lost.acquire
  use hl hmem := ⟨holds_rules.use hl.toHolds hmem, live_use.mpr hl.stays, hl.unknown⟩
  release := Lost.release

theorem lost_forgets (lost : H) : Forgets (Lost lost) := fun hl hsub =>
  ⟨holds_forgets hl.toHolds hsub, hl.stays, fun hmem => hl.unknown (hsub.subset hmem)⟩

/-- **With nothing left**, every handle that was given out has been given back exactly once. -/
theorem Holds.balanced (hh : Holds log held) (hnone : ∀ h, ¬Live log h) (h : H) :
    released h log = acquired h log ∧ acquired h log ≤ 1 := by
  have honce := hh.disciplined.once h
  have hdead := hnone h
  unfold Live at hdead
  omega

end Holds

end ETraceGen.Handles
