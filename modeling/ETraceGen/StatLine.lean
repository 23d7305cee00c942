import ETraceGen.Lib.Text
import ETraceGen.Proc

/-!
# The stat line of a task

The kernel prints the pid, the name in parentheses and the other fields on one line, with one space between
any two. The name is the task's own choice and may hold any bytes, a `") "` or a line break among them.

* `rfindCloseParen_append` : the last `") "` is the one behind the name;
* `words_statFields` : the words behind it are the fields;
* `parseStartTimeTicks_statLine` : the start time is that of field 22, whatever the name is.
-/

namespace ETraceGen.Proc

/-- The fields behind the name, and the end of the line. -/
def statFields (fields : List Bytes) : Bytes := [0x20].intercalate fields ++ [0x0a]

/-- `pid (comm) f3 f4 ...` -/
def statLine (pid : Nat) (comm : Bytes) (fields : List Bytes) : Bytes :=
  dec pid ++ str " (" ++ comm ++ str ") " ++ statFields fields

/-- A field is not empty, and has neither a space nor a closing parenthesis in it. -/
structure IsStatField (field : Bytes) : Prop where
  nonempty : field ≠ []
  noSpace : ∀ c ∈ field, isSpace c = false
  noParen : 0x29 ∉ field

/-! ## The end of the name -/

theorem rfindCloseParen_of_not_mem {s : Bytes} (h : 0x29 ∉ s) : rfindCloseParen s = none := by
  induction s with
  | nil => rfl
  | cons c s ih =>
    have hne : (c == 0x29) = false := beq_eq_false_iff_ne.mpr (List.ne_of_not_mem_cons h).symm
    rw [rfindCloseParen, ih (List.not_mem_of_not_mem_cons h), hne]
    rfl

theorem rfindCloseParen_append (s : Bytes) {rest : Bytes} (h : 0x29 ∉ rest) :
    rfindCloseParen (s ++ str ") " ++ rest) = some s.length := by
  induction s with
  | nil =>
    have hrest : rfindCloseParen (0x20 :: rest) = none :=
      rfindCloseParen_of_not_mem (List.not_mem_cons_of_ne_of_not_mem (by decide) h)
    show rfindCloseParen (0x29 :: 0x20 :: rest) = some 0
    rw [rfindCloseParen, hrest]
    rfl
  | cons c s ih =>
    show rfindCloseParen (c :: (s ++ str ") " ++ rest)) = _
    rw [rfindCloseParen, ih]
    rfl

/-! ## The fields -/

theorem words_append_space {field rest : Bytes} (h : IsStatField field) {c : UInt8} (hc : isSpace c = true) :
    words (field ++ c :: rest) = field :: words rest := by
  unfold words
  rw [List.splitOnP_append_cons _ _ hc, List.splitOnP_eq_singleton h.noSpace, List.singleton_append]
  exact List.filter_cons_of_pos (decide_eq_true h.nonempty)

theorem words_statFields {fields : List Bytes} (h : ∀ field ∈ fields, IsStatField field) :
    words (statFields fields) = fields := by
  unfold statFields
  induction fields with
  | nil => rfl
  | cons field fields ih =>
    obtain ⟨hfield, hfields⟩ := List.forall_mem_cons.mp h
    cases fields with
    | nil =>
      rw [List.intercalate_singleton, words_append_space hfield (by decide)]
      rfl
    | cons next rest =>
      rw [List.intercalate_cons_cons, List.append_assoc, List.append_assoc, List.singleton_append,
        words_append_space hfield (by decide), ih hfields]

theorem closeParen_notMem_statFields {fields : List Bytes} (h : ∀ field ∈ fields, IsStatField field) :
    0x29 ∉ statFields fields := by
  unfold statFields
  induction fields with
  | nil => decide
  | cons field fields ih =>
    obtain ⟨hfield, hfields⟩ := List.forall_mem_cons.mp h
    cases fields with
    | nil =>
      rw [List.intercalate_singleton, List.mem_append, not_or]
      exact ⟨hfield.noParen, by decide⟩
    | cons next rest =>
      rw [List.intercalate_cons_cons, List.append_assoc, List.append_assoc, List.mem_append, not_or]
      exact ⟨hfield.noParen, List.not_mem_cons_of_ne_of_not_mem (by decide) (ih hfields)⟩

/-! ## The start time -/

/-- What is looked up is the field at index 19 of those behind the name. -/
theorem parseStartTimeTicks_eq (pid : Nat) (comm : Bytes) {fields : List Bytes}
    (h : ∀ field ∈ fields, IsStatField field) :
    parseStartTimeTicks (statLine pid comm fields) =
      match fields[19]? with
      | none => 0
      | some tok => (stoull tok).getD 0 := by
  have hpos : 0 < (statFields fields).length := by
    rw [statFields, List.length_append]
    exact Nat.succ_pos _
  unfold statLine parseStartTimeTicks
  generalize dec pid ++ str " (" ++ comm = s
  have hlength : (s ++ str ") ").length = s.length + 2 := List.length_append
  rw [rfindCloseParen_append s (closeParen_notMem_statFields h)]
  dsimp only
  rw [List.length_append, ← hlength, if_neg (by omega), List.drop_left]
  exact congrArg
    (fun ws : List Bytes =>
      match ws[19]? with
      | none => (0 : UInt64)
      | some tok => (stoull tok).getD 0)
    (words_statFields h)

/-- **The start time of a task** is the number in field 22, the twentieth behind the name, whatever bytes the
name has; and 0 where there are fewer fields. -/
theorem parseStartTimeTicks_statLine (pid : Nat) (comm : Bytes) {fields : List Bytes}
    (h : ∀ field ∈ fields, IsStatField field) :
    (∀ tok, fields[19]? = some tok → (∀ c ∈ tok, isDigit c = true) → decimal tok < 2 ^ 64 →
      (parseStartTimeTicks (statLine pid comm fields)).toNat = decimal tok) ∧
    (fields.length < 20 → parseStartTimeTicks (statLine pid comm fields) = 0) := by
  rw [parseStartTimeTicks_eq pid comm h]
  constructor
  · intro tok htok hdigits hlt
    have hfield := h tok (List.mem_of_getElem? htok)
    rw [htok]
    dsimp only
    rw [stoull_of_digits hfield.nonempty hdigits hlt, Option.getD_some]
    exact UInt64.toNat_ofNat_of_lt' hlt
  · intro hfew
    rw [List.getElem?_eq_none (by omega)]

theorem isStatField_of_digits {digits : Bytes} (hne : digits ≠ []) (h : ∀ c ∈ digits, isDigit c = true) :
    IsStatField digits where
  nonempty := hne
  noSpace := fun c hc => isSpace_of_isDigit (h c hc)
  noParen := fun hmem => absurd (h 0x29 hmem) (by decide)

/-- A name that looks like the fields behind it. -/
theorem parseStartTimeTicks_statLine_imitation :
    (parseStartTimeTicks (statLine 7 (str "a) 1 2 3") (List.replicate 19 (str "4") ++ [str "5512"]))).toNat =
      5512 := by
  have hfields : ∀ field ∈ List.replicate 19 (str "4") ++ [str "5512"], IsStatField field := by
    intro field hmem
    rcases List.mem_append.mp hmem with hmem | hmem
    · rw [List.eq_of_mem_replicate hmem]
      exact isStatField_of_digits (by decide) (List.all_eq_true.mp (by decide))
    · rw [List.mem_singleton.mp hmem]
      exact isStatField_of_digits (by decide) (List.all_eq_true.mp (by decide))
  exact (parseStartTimeTicks_statLine 7 _ hfields).1 (str "5512") (by decide)
    (List.all_eq_true.mp (by decide)) (by decide)

end ETraceGen.Proc
