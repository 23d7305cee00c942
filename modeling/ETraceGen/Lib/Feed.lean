import Mathlib.Data.List.Infix

/-!
# A feed

A producer appends to a log, and a consumer takes its records one by one, at its own pace. Whatever the
interleaving, the consumer is told the first records of the log, in their order, each once.

* `Feed.told` : what the consumer is told along the moves;
* `run_producer`, `run_consumer` : neither notices the other but for that;
* `told_log` : it is the first records of the log.
-/

namespace ETraceGen

variable {P A R E C : Type}

/-- The producer, how many records were taken, and the consumer. -/
structure Feed (P C : Type) where
  producer : P
  taken : Nat := 0
  consumer : C

namespace Feed

/-- The producer does something, or the consumer asks for a record. -/
inductive Move (A E : Type) where
  | produce (a : A)
  | consume (e : E)

def Move.produced? : Move A E → Option A
  | .produce a => some a
  | .consume _ => none

def Move.asked? : Move A E → Option E
  | .produce _ => none
  | .consume e => some e

/-- What the producer does along the moves. -/
def produced (moves : List (Move A E)) : List A := moves.filterMap Move.produced?

def asked (moves : List (Move A E)) : List E := moves.filterMap Move.asked?

variable (produce : P → A → P) (log : P → List R) (consume : C → E × R → C)

/-- The record that the question gets, if there is another one. -/
def answer (s : Feed P C) : Move A E → Option (E × R)
  | .produce _ => none
  | .consume e => (log s.producer)[s.taken]?.map fun record => (e, record)

def step (s : Feed P C) (move : Move A E) : Feed P C where
  producer := match move with
    | .produce a => produce s.producer a
    | .consume _ => s.producer
  taken := s.taken + (answer log s move).toList.length
  consumer := (answer log s move).toList.foldl consume s.consumer

def run (s : Feed P C) (moves : List (Move A E)) : Feed P C := moves.foldl (step produce log consume) s

def told (s : Feed P C) : List (Move A E) → List (E × R)
  | [] => []
  | move :: moves => (answer log s move).toList ++ told (step produce log consume s move) moves

/-- The log is only appended to. -/
def Grows : Prop := ∀ p a, log p <+: log (produce p a)

variable {produce log consume} {s : Feed P C}

theorem run_producer (moves : List (Move A E)) :
    (run produce log consume s moves).producer = (produced moves).foldl produce s.producer := by
  induction moves generalizing s with
  | nil => rfl
  | cons move moves ih =>
    show (run produce log consume (step produce log consume s move) moves).producer = _
    rw [ih]
    cases move <;> rfl

theorem run_consumer (moves : List (Move A E)) :
    (run produce log consume s moves).consumer = (told produce log consume s moves).foldl consume s.consumer := by
  induction moves generalizing s with
  | nil => rfl
  | cons move moves ih =>
    rw [told, List.foldl_append]
    exact ih

theorem run_taken (moves : List (Move A E)) :
    (run produce log consume s moves).taken = s.taken + (told produce log consume s moves).length := by
  induction moves generalizing s with
  | nil => rfl
  | cons move moves ih =>
    rw [told, List.length_append, ← Nat.add_assoc]
    exact ih

theorem told_append (moves more : List (Move A E)) :
    told produce log consume s (moves ++ more) =
      told produce log consume s moves ++ told produce log consume (run produce log consume s moves) more := by
  induction moves generalizing s with
  | nil => rfl
  | cons move moves ih => rw [List.cons_append, told, told, ih, List.append_assoc]; rfl

/-- Each answer is to a question of its own. -/
theorem told_asked (moves : List (Move A E)) :
    ((told produce log consume s moves).map Prod.fst).Sublist (asked moves) := by
  induction moves generalizing s with
  | nil => exact List.Sublist.slnil
  | cons move moves ih =>
    rw [told, List.map_append, asked, List.filterMap_cons]
    cases move with
    | produce a => exact ih
    | consume e =>
      show List.Sublist _ (e :: asked moves)
      cases hanswer : (log s.producer)[s.taken]? with
      | none => simpa [answer, hanswer] using ih.cons e
      | some record => simpa [answer, hanswer] using ih.cons_cons e

theorem Grows.foldl (h : Grows produce log) (p : P) (as : List A) : log p <+: log (as.foldl produce p) := by
  induction as generalizing p with
  | nil => exact List.prefix_refl _
  | cons a as ih => exact (h p a).trans (ih (produce p a))

/-- **What the consumer is told** is what follows in the log on the records taken before. -/
theorem told_log (hgrows : Grows produce log) (moves : List (Move A E)) :
    (told produce log consume s moves).map Prod.snd <+:
      (log (run produce log consume s moves).producer).drop s.taken := by
  induction moves generalizing s with
  | nil => exact List.nil_prefix
  | cons move moves ih =>
    have hrest := ih (s := step produce log consume s move)
    rw [told, List.map_append]
    cases hanswer : answer log s move with
    | none =>
      have htaken : (step produce log consume s move).taken = s.taken := by
        show s.taken + (answer log s move).toList.length = s.taken
        rw [hanswer]
        rfl
      rw [htaken] at hrest
      exact hrest
    | some told =>
      cases move with
      | produce a => cases hanswer
      | consume e =>
        obtain ⟨record, hget, rfl⟩ := Option.map_eq_some_iff.mp hanswer
        have htaken : (step produce log consume s (.consume e)).taken = s.taken + 1 := by
          show s.taken + (answer log s (.consume e)).toList.length = s.taken + 1
          rw [hanswer]
          rfl
        rw [htaken] at hrest
        have hlog : log s.producer <+: log (run produce log consume s (.consume e :: moves)).producer := by
          rw [run_producer]
          exact hgrows.foldl _ _
        obtain ⟨hlt, hrecord⟩ := List.getElem?_eq_some_iff.mp hget
        have hat : (log (run produce log consume s (.consume e :: moves)).producer)[s.taken]? = some record :=
          (List.getElem?_eq_getElem (Nat.lt_of_lt_of_le hlt hlog.length_le)).trans
            (congrArg some ((hlog.getElem hlt).symm.trans hrecord))
        obtain ⟨hlt', hrecord'⟩ := List.getElem?_eq_some_iff.mp hat
        rw [List.drop_eq_getElem_cons hlt', hrecord']
        exact (List.prefix_cons_inj record).mpr hrest

end Feed

end ETraceGen
