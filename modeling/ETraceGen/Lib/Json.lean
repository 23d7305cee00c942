import ETraceGen.Lib.Text
import Mathlib.Data.List.TakeWhile

/-!
# JSON texts

* `Derives` : the grammar of RFC 8259 over bytes, where a byte from 0x80 on is an ordinary character of a
  string, with the value that a text stands for;
* `parse` : a reader for it;
* `Derives.reads` : the reader accepts whatever the grammar derives, with the value it derives it with, so
  that a text stands for one value only (`Derives.unique`).
-/

namespace ETraceGen

/-- A string is its 16-bit code units, a number `mantissa * 10 ^ exponent`, and an object its members in
the order of the text. -/
inductive Json where
  | null
  | bool (b : Bool)
  | num (mantissa exponent : Int)
  | str (units : List UInt16)
  | arr (elements : List Json)
  | obj (members : List (List UInt16 × Json))

namespace Json

/-! ## The grammar -/

/-- `ws` -/
def isWs (b : UInt8) : Bool := b == 0x20 || b == 0x09 || b == 0x0A || b == 0x0D

def Ws (w : List UInt8) : Prop := ∀ b ∈ w, isWs b = true

/-- An `unescaped` character. -/
def isPlain (b : UInt8) : Bool := 0x20 ≤ b && b != 0x22 && b != 0x5C

/-- What `escape` and the character stand for. -/
def shortEscape? (b : UInt8) : Option UInt8 :=
  if b = 0x22 then some 0x22
  else if b = 0x5C then some 0x5C
  else if b = 0x2F then some 0x2F
  else if b = 0x62 then some 0x08
  else if b = 0x66 then some 0x0C
  else if b = 0x6E then some 0x0A
  else if b = 0x72 then some 0x0D
  else if b = 0x74 then some 0x09
  else none

/-- `HEXDIG`, in either case. -/
def hexDigit? (b : UInt8) : Option UInt16 :=
  if 0x30 ≤ b ∧ b ≤ 0x39 then some (b.toUInt16 - 0x30)
  else if 0x41 ≤ b ∧ b ≤ 0x46 then some (b.toUInt16 - 0x37)
  else if 0x61 ≤ b ∧ b ≤ 0x66 then some (b.toUInt16 - 0x57)
  else none

/-- The code unit of `\uXXXX`. -/
def hexUnit? (a b c d : UInt8) : Option UInt16 :=
  match hexDigit? a, hexDigit? b, hexDigit? c, hexDigit? d with
  | some a, some b, some c, some d => some (((a * 16 + b) * 16 + c) * 16 + d)
  | _, _, _, _ => none

/-- The characters between the quotation marks of a string, and its code units. -/
inductive Chars : List UInt8 → List UInt16 → Prop where
  | nil : Chars [] []
  | plain {b : UInt8} {s : List UInt8} {us : List UInt16} (hb : isPlain b = true) (hs : Chars s us) :
    Chars (b :: s) (b.toUInt16 :: us)
  | short {b u : UInt8} {s : List UInt8} {us : List UInt16} (hb : shortEscape? b = some u)
    (hs : Chars s us) : Chars (0x5C :: b :: s) (u.toUInt16 :: us)
  | hex {a b c d : UInt8} {u : UInt16} {s : List UInt8} {us : List UInt16}
    (hu : hexUnit? a b c d = some u) (hs : Chars s us) :
    Chars (0x5C :: 0x75 :: a :: b :: c :: d :: s) (u :: us)

/-- `1*DIGIT` -/
def Digits (ds : List UInt8) : Prop := ds ≠ [] ∧ ∀ b ∈ ds, isDigit b = true

/-- `int` -/
def IntPart (ds : List UInt8) : Prop := Digits ds ∧ (ds.head? = some 0x30 → ds = [0x30])

/-- `[ frac ]`, and its digits. -/
inductive Frac : List UInt8 → List UInt8 → Prop where
  | none : Frac [] []
  | some {ds : List UInt8} (h : Digits ds) : Frac (0x2E :: ds) ds

/-- `[ minus / plus ]` -/
inductive Sign : List UInt8 → Bool → Prop where
  | none : Sign [] false
  | plus : Sign [0x2B] false
  | minus : Sign [0x2D] true

def signed (neg : Bool) (n : Nat) : Int := if neg then -(n : Int) else n

/-- `[ exp ]`, and its value. -/
inductive Exp : List UInt8 → Int → Prop where
  | none : Exp [] 0
  | some {e : UInt8} {sign ds : List UInt8} {neg : Bool} (he : e = 0x65 ∨ e = 0x45)
    (hsign : Sign sign neg) (hds : Digits ds) :
    Exp (e :: (sign ++ ds)) (signed neg (ofDigits ds))

/-- `number`, with its digits as one integer and the power of ten. -/
inductive Number : List UInt8 → Int → Int → Prop where
  | mk {neg : Bool} {int frac ds exp : List UInt8} {e : Int} (hint : IntPart int)
    (hfrac : Frac frac ds) (hexp : Exp exp e) :
    Number ((if neg then [0x2D] else []) ++ (int ++ (frac ++ exp))) (signed neg (ofDigits (int ++ ds)))
      (e - ds.length)

/-- What a text is read as. -/
inductive Rule where
  | value | elements | members

/-- The rules of the grammar. The elements of an array and the members of an object have the whitespace
around them, and stand for the array and for the object. -/
inductive Derives : Rule → List UInt8 → Json → Prop where
  | null : Derives .value (ETraceGen.str "null") .null
  | true : Derives .value (ETraceGen.str "true") (.bool true)
  | false : Derives .value (ETraceGen.str "false") (.bool false)
  | num {s : List UInt8} {m e : Int} (h : Number s m e) : Derives .value s (.num m e)
  | str {s : List UInt8} {us : List UInt16} (h : Chars s us) :
    Derives .value (0x22 :: (s ++ [0x22])) (.str us)
  | emptyArr {w : List UInt8} (hw : Ws w) : Derives .value (0x5B :: (w ++ [0x5D])) (.arr [])
  | arr {s : List UInt8} {js : List Json} (h : Derives .elements s (.arr js)) :
    Derives .value (0x5B :: (s ++ [0x5D])) (.arr js)
  | emptyObj {w : List UInt8} (hw : Ws w) : Derives .value (0x7B :: (w ++ [0x7D])) (.obj [])
  | obj {s : List UInt8} {ms : List (List UInt16 × Json)} (h : Derives .members s (.obj ms)) :
    Derives .value (0x7B :: (s ++ [0x7D])) (.obj ms)
  | element {w w' s : List UInt8} {j : Json} (hw : Ws w) (hw' : Ws w') (h : Derives .value s j) :
    Derives .elements (w ++ (s ++ w')) (.arr [j])
  | elements {w w' s rest : List UInt8} {j : Json} {js : List Json} (hw : Ws w) (hw' : Ws w')
    (h : Derives .value s j) (hrest : Derives .elements rest (.arr js)) :
    Derives .elements (w ++ (s ++ (w' ++ 0x2C :: rest))) (.arr (j :: js))
  | member {w₁ w₂ w₃ w₄ name s : List UInt8} {us : List UInt16} {j : Json} (hw₁ : Ws w₁) (hw₂ : Ws w₂)
    (hw₃ : Ws w₃) (hw₄ : Ws w₄) (hname : Chars name us) (h : Derives .value s j) :
    Derives .members (w₁ ++ 0x22 :: (name ++ 0x22 :: (w₂ ++ 0x3A :: (w₃ ++ (s ++ w₄))))) (.obj [(us, j)])
  | members {w₁ w₂ w₃ w₄ name s rest : List UInt8} {us : List UInt16} {j : Json}
    {ms : List (List UInt16 × Json)} (hw₁ : Ws w₁) (hw₂ : Ws w₂) (hw₃ : Ws w₃) (hw₄ : Ws w₄)
    (hname : Chars name us) (h : Derives .value s j) (hrest : Derives .members rest (.obj ms)) :
    Derives .members
      (w₁ ++ 0x22 :: (name ++ 0x22 :: (w₂ ++ 0x3A :: (w₃ ++ (s ++ (w₄ ++ 0x2C :: rest))))))
      (.obj ((us, j) :: ms))

/-- `JSON-text` -/
def Text (s : List UInt8) (j : Json) : Prop :=
  ∃ w body w', s = w ++ (body ++ w') ∧ Ws w ∧ Ws w' ∧ Derives .value body j

/-! ## The reader -/

def skipWs (s : List UInt8) : List UInt8 := s.dropWhile isWs

/-- The characters up to the closing quotation mark, and what is behind it. -/
def readChars : List UInt8 → Option (List UInt16 × List UInt8)
  | [] => none
  | 0x22 :: s => some ([], s)
  | 0x5C :: 0x75 :: a :: b :: c :: d :: s =>
    match hexUnit? a b c d, readChars s with
    | some u, some (us, rest) => some (u :: us, rest)
    | _, _ => none
  | 0x5C :: b :: s =>
    match shortEscape? b, readChars s with
    | some u, some (us, rest) => some (u.toUInt16 :: us, rest)
    | _, _ => none
  | b :: s =>
    if isPlain b then (readChars s).map fun (us, rest) => (b.toUInt16 :: us, rest) else none

/-- A non-empty run of digits. -/
def readDigits (s : List UInt8) : Option (List UInt8 × List UInt8) :=
  match s.takeWhile isDigit with
  | [] => none
  | ds => some (ds, s.dropWhile isDigit)

def readFrac : List UInt8 → Option (List UInt8 × List UInt8)
  | 0x2E :: s => readDigits s
  | s => some ([], s)

def readSign : List UInt8 → Bool × List UInt8
  | 0x2B :: s => (false, s)
  | 0x2D :: s => (true, s)
  | s => (false, s)

def readExp : List UInt8 → Option (Int × List UInt8)
  | [] => some (0, [])
  | e :: s =>
    if e = 0x65 ∨ e = 0x45 then
      (readDigits (readSign s).2).map fun (ds, rest) => (signed (readSign s).1 (ofDigits ds), rest)
    else some (0, e :: s)

def readMinus : List UInt8 → Bool × List UInt8
  | 0x2D :: s => (true, s)
  | s => (false, s)

def readNumber (s : List UInt8) : Option (Json × List UInt8) :=
  match readDigits (readMinus s).2 with
  | none => none
  | some (int, s₁) =>
    if int.head? = some 0x30 ∧ int ≠ [0x30] then none
    else
      match readFrac s₁ with
      | none => none
      | some (ds, s₂) =>
        (readExp s₂).map fun (e, rest) =>
          (.num (signed (readMinus s).1 (ofDigits (int ++ ds))) (e - ds.length), rest)

/-- The values that are neither strings nor structures. -/
def readScalar (s : List UInt8) : Option (Json × List UInt8) :=
  if s.take 4 = ETraceGen.str "null" then some (.null, s.drop 4)
  else if s.take 4 = ETraceGen.str "true" then some (.bool true, s.drop 4)
  else if s.take 5 = ETraceGen.str "false" then some (.bool false, s.drop 5)
  else readNumber s

/-- Reads by a rule of the grammar, with the given fuel: a value, or what is between the brackets of an
array or an object and the closing bracket. -/
def read : Nat → Rule → List UInt8 → Option (Json × List UInt8)
  | 0, _, _ => none
  | n + 1, .value, s =>
    match s with
    | 0x22 :: s => (readChars s).map fun (us, rest) => (.str us, rest)
    | 0x5B :: s =>
      match skipWs s with
      | 0x5D :: rest => some (.arr [], rest)
      | _ => read n .elements s
    | 0x7B :: s =>
      match skipWs s with
      | 0x7D :: rest => some (.obj [], rest)
      | _ => read n .members s
    | s => readScalar s
  | n + 1, .elements, s =>
    match read n .value (skipWs s) with
    | none => none
    | some (j, s₁) =>
      match skipWs s₁ with
      | 0x5D :: rest => some (.arr [j], rest)
      | 0x2C :: s₂ =>
        match read n .elements s₂ with
        | some (.arr js, rest) => some (.arr (j :: js), rest)
        | _ => none
      | _ => none
  | n + 1, .members, s =>
    match skipWs s with
    | 0x22 :: s₁ =>
      match readChars s₁ with
      | none => none
      | some (us, s₂) =>
        match skipWs s₂ with
        | 0x3A :: s₃ =>
          match read n .value (skipWs s₃) with
          | none => none
          | some (j, s₄) =>
            match skipWs s₄ with
            | 0x7D :: rest => some (.obj [(us, j)], rest)
            | 0x2C :: s₅ =>
              match read n .members s₅ with
              | some (.obj ms, rest) => some (.obj ((us, j) :: ms), rest)
              | _ => none
            | _ => none
        | _ => none
    | _ => none

/-- The value of a whole text. -/
def parse (s : List UInt8) : Option Json :=
  match read (s.length + 1) .value (skipWs s) with
  | some (j, rest) => if (skipWs rest).isEmpty then some j else none
  | none => none

/-! ## What the reader does on derived texts -/

theorem skipWs_append {w : List UInt8} (hw : Ws w) (s : List UInt8) : skipWs (w ++ s) = skipWs s :=
  List.dropWhile_append_of_pos hw

theorem skipWs_cons {b : UInt8} (hb : isWs b = false) (s : List UInt8) : skipWs (b :: s) = b :: s := by
  rw [skipWs, List.dropWhile_cons, hb]
  rfl

/-- What may be behind a value: nothing, whitespace, a separator or a closing bracket. -/
def Ends (rest : List UInt8) : Prop :=
  ∀ b, rest.head? = some b → isWs b = true ∨ b = 0x2C ∨ b = 0x5D ∨ b = 0x7D

theorem ends_append {w : List UInt8} (hw : Ws w) {rest : List UInt8} (h : Ends rest) : Ends (w ++ rest) := by
  cases w with
  | nil => exact h
  | cons b w =>
    intro c hc
    obtain rfl := Option.some.inj hc
    exact Or.inl (hw b List.mem_cons_self)

theorem ends_cons {b : UInt8} {rest : List UInt8} (h : b = 0x2C ∨ b = 0x5D ∨ b = 0x7D) :
    Ends (b :: rest) := by
  intro c hc
  obtain rfl := Option.some.inj hc
  exact Or.inr h

theorem Ends.not_digit {rest : List UInt8} (h : Ends rest) {b : UInt8} (hb : rest.head? = some b) :
    isDigit b = false ∧ b ≠ 0x2E ∧ b ≠ 0x65 ∧ b ≠ 0x45 := by
  have hall : ∀ b : UInt8, isWs b = true ∨ b = 0x2C ∨ b = 0x5D ∨ b = 0x7D →
      isDigit b = false ∧ b ≠ 0x2E ∧ b ≠ 0x65 ∧ b ≠ 0x45 := by
    intro b hb
    rw [isWs, Bool.or_eq_true, Bool.or_eq_true, Bool.or_eq_true, beq_iff_eq, beq_iff_eq, beq_iff_eq,
      beq_iff_eq] at hb
    rcases hb with (((rfl | rfl) | rfl) | rfl) | rfl | rfl | rfl <;> decide
  exact hall b (h b hb)

theorem readChars_append {s : List UInt8} {us : List UInt16} (h : Chars s us) (rest : List UInt8) :
    readChars (s ++ 0x22 :: rest) = some (us, rest) := by
  induction h with
  | nil => rfl
  | @plain b s us hb hs ih =>
    have hne : b ≠ 0x22 ∧ b ≠ 0x5C := by
      constructor <;> rintro rfl <;> cases hb
    rw [List.cons_append, readChars, if_pos hb, ih]
    · rfl
    · exact hne.1
    · exact fun _ _ _ _ _ h => absurd h hne.2
    · exact fun _ _ h => absurd h hne.2
  | @short b u s us hb hs ih =>
    rw [List.cons_append, List.cons_append, readChars, hb, ih]
    rintro _ _ _ _ _ rfl
    cases hb
  | hex hu hs ih =>
    simp only [List.cons_append]
    rw [readChars, hu, ih]

/-- No digit is behind the text. -/
def NoDigit (rest : List UInt8) : Prop := ∀ b, rest.head? = some b → isDigit b = false

theorem takeWhile_digits {ds rest : List UInt8} (hds : ∀ b ∈ ds, isDigit b = true)
    (hrest : NoDigit rest) :
    (ds ++ rest).takeWhile isDigit = ds ∧ (ds ++ rest).dropWhile isDigit = rest := by
  rw [List.takeWhile_append_of_pos hds, List.dropWhile_append_of_pos hds]
  cases rest with
  | nil => simp
  | cons b rest =>
    have hb := hrest b rfl
    rw [List.takeWhile_cons, List.dropWhile_cons, hb]
    simp

theorem readDigits_append {ds rest : List UInt8} (h : Digits ds) (hrest : NoDigit rest) :
    readDigits (ds ++ rest) = some (ds, rest) := by
  obtain ⟨htake, hdrop⟩ := takeWhile_digits h.2 hrest
  rw [readDigits, htake, hdrop]
  cases ds with
  | nil => exact absurd rfl h.1
  | cons d ds => rfl

theorem readSign_append {sign ds rest : List UInt8} {neg : Bool} (h : Sign sign neg) (hds : Digits ds) :
    readSign (sign ++ (ds ++ rest)) = (neg, ds ++ rest) := by
  cases h with
  | plus => rfl
  | minus => rfl
  | none =>
    obtain ⟨d, ds, rfl⟩ := List.exists_cons_of_ne_nil hds.1
    have hd := hds.2 d List.mem_cons_self
    rw [List.nil_append, List.cons_append, readSign]
    · intro _ h
      obtain rfl := List.head_eq_of_cons_eq h
      cases hd
    · intro _ h
      obtain rfl := List.head_eq_of_cons_eq h
      cases hd

theorem readExp_append {exp rest : List UInt8} {e : Int} (h : Exp exp e) (hrest : Ends rest) :
    readExp (exp ++ rest) = some (e, rest) := by
  cases h with
  | none =>
    cases rest with
    | nil => rfl
    | cons b rest =>
      obtain ⟨-, -, he, hE⟩ := hrest.not_digit (b := b) rfl
      rw [List.nil_append, readExp, if_neg (not_or.mpr ⟨he, hE⟩)]
  | @some e sign ds neg he hsign hds =>
    rw [List.cons_append, readExp, if_pos he, List.append_assoc, readSign_append hsign hds]
    dsimp only
    rw [readDigits_append hds fun b hb => (hrest.not_digit hb).1]
    rfl

theorem noDigit_exp {exp rest : List UInt8} {e : Int} (h : Exp exp e) (hrest : Ends rest) :
    NoDigit (exp ++ rest) := by
  intro b hb
  cases h with
  | none => exact (hrest.not_digit hb).1
  | some he hsign hds =>
    obtain rfl := Option.some.inj hb
    rcases he with rfl | rfl <;> rfl

theorem readFrac_append {frac ds exp rest : List UInt8} {e : Int} (h : Frac frac ds) (hexp : Exp exp e)
    (hrest : Ends rest) : readFrac (frac ++ (exp ++ rest)) = some (ds, exp ++ rest) := by
  cases h with
  | some hds => rw [List.cons_append, readFrac, readDigits_append hds (noDigit_exp hexp hrest)]
  | none =>
    rw [List.nil_append]
    cases hexp with
    | some he hsign hds =>
      rw [List.cons_append, readFrac]
      intro _ h
      obtain rfl := List.head_eq_of_cons_eq h
      rcases he with he | he <;> cases he
    | none =>
      cases rest with
      | nil => rfl
      | cons b rest =>
        rw [List.nil_append, readFrac]
        exact fun _ h => (hrest.not_digit (b := b) rfl).2.1 (List.head_eq_of_cons_eq h)

theorem readNumber_append {s rest : List UInt8} {m e : Int} (h : Number s m e) (hrest : Ends rest) :
    readNumber (s ++ rest) = some (.num m e, rest) := by
  cases h with
  | @mk neg int frac ds exp e hint hfrac hexp =>
    have hminus : readMinus ((if neg then [0x2D] else []) ++ (int ++ (frac ++ exp)) ++ rest) =
        (neg, int ++ (frac ++ (exp ++ rest))) := by
      simp only [List.append_assoc]
      cases neg with
      | true => rfl
      | false =>
        obtain ⟨d, int, rfl⟩ := List.exists_cons_of_ne_nil hint.1.1
        have hd := hint.1.2 d List.mem_cons_self
        rw [if_neg Bool.false_ne_true, List.nil_append, List.cons_append, readMinus]
        intro _ h
        obtain rfl := List.head_eq_of_cons_eq h
        cases hd
    have hnext : NoDigit (frac ++ (exp ++ rest)) := by
      cases hfrac with
      | none =>
        rw [List.nil_append]
        exact noDigit_exp hexp hrest
      | some hds =>
        intro b hb
        obtain rfl := Option.some.inj hb
        rfl
    rw [readNumber, hminus]
    dsimp only
    rw [readDigits_append hint.1 hnext]
    dsimp only
    rw [if_neg fun h => h.2 (hint.2 h.1), readFrac_append hfrac hexp hrest]
    dsimp only
    rw [readExp_append hexp hrest]
    rfl

/-- The first character of a number. -/
theorem Number.head {s : List UInt8} {m e : Int} (h : Number s m e) :
    ∃ b t, s = b :: t ∧ (b = 0x2D ∨ isDigit b = true) := by
  cases h with
  | @mk neg int frac ds exp e hint hfrac hexp =>
    cases neg with
    | true => exact ⟨0x2D, _, rfl, Or.inl rfl⟩
    | false =>
      obtain ⟨d, int, rfl⟩ := List.exists_cons_of_ne_nil hint.1.1
      exact ⟨d, _, rfl, Or.inr (hint.1.2 d List.mem_cons_self)⟩

/-- No other value, and no whitespace, begins as a number does. -/
theorem number_head {b : UInt8} (h : b = 0x2D ∨ isDigit b = true) :
    isWs b = false ∧ ∀ c ∈ ETraceGen.str "[]\x7b\"ntf", b ≠ c := by
  constructor
  · by_contra hws
    rw [Bool.not_eq_false, isWs, Bool.or_eq_true, Bool.or_eq_true, Bool.or_eq_true, beq_iff_eq,
      beq_iff_eq, beq_iff_eq, beq_iff_eq] at hws
    rcases hws with ((rfl | rfl) | rfl) | rfl <;> rcases h with h | h <;> cases h
  · rintro c hc rfl
    have hall : (ETraceGen.str "[]\x7b\"ntf").all (fun c => c != 0x2D && !isDigit c) = true := by decide
    have hb := List.all_eq_true.mp hall b hc
    obtain ⟨hminus, hdigit⟩ : b ≠ 0x2D ∧ isDigit b = false := by simpa using hb
    rcases h with h | h
    · exact hminus h
    · rw [hdigit] at h
      cases h

/-- A value begins with a character that is neither whitespace nor a closing bracket. -/
theorem Derives.head {s : List UInt8} {j : Json} (h : Derives .value s j) :
    ∃ b t, s = b :: t ∧ isWs b = Bool.false ∧ b ≠ 0x5D := by
  cases h with
  | num h =>
    obtain ⟨b, t, rfl, hb⟩ := h.head
    exact ⟨b, t, rfl, (number_head hb).1, (number_head hb).2 _ (by decide)⟩
  | _ => exact ⟨_, _, rfl, rfl, by decide⟩

theorem readScalar_number {s rest : List UInt8} {m e : Int} (h : Number s m e) (hrest : Ends rest) :
    readScalar (s ++ rest) = some (.num m e, rest) := by
  obtain ⟨b, t, hs, hb⟩ := h.head
  have hne := (number_head hb).2
  have hnull : (s ++ rest).take 4 ≠ ETraceGen.str "null" := by
    rw [hs]
    intro heq
    exact hne 0x6E (by decide) (List.head_eq_of_cons_eq heq)
  have htrue : (s ++ rest).take 4 ≠ ETraceGen.str "true" := by
    rw [hs]
    intro heq
    exact hne 0x74 (by decide) (List.head_eq_of_cons_eq heq)
  have hfalse : (s ++ rest).take 5 ≠ ETraceGen.str "false" := by
    rw [hs]
    intro heq
    exact hne 0x66 (by decide) (List.head_eq_of_cons_eq heq)
  rw [readScalar, if_neg hnull, if_neg htrue, if_neg hfalse, readNumber_append h hrest]

/-- What closes the text of a rule. -/
def Rule.close : Rule → List UInt8
  | .value => []
  | .elements => [0x5D]
  | .members => [0x7D]

theorem close_value (rest : List UInt8) : Rule.value.close ++ rest = rest := rfl

/-- The fuel the text of a rule needs beyond its length. -/
def Rule.fuel : Rule → Nat
  | .value => 0
  | .elements | .members => 1

/-- An array or an object with something in it does not close at once. -/
theorem Derives.open {rule : Rule} {s : List UInt8} {j : Json} (h : Derives rule s j)
    (hrule : rule ≠ .value) (tail rest : List UInt8) : skipWs (s ++ tail) ≠ rule.close ++ rest := by
  cases h with
  | element hw hw' h =>
    obtain ⟨b, t, rfl, hws, hb⟩ := h.head
    rw [List.append_assoc, skipWs_append hw, List.append_assoc, List.cons_append, skipWs_cons hws]
    exact fun heq => hb (List.head_eq_of_cons_eq heq)
  | elements hw hw' h hrest =>
    obtain ⟨b, t, rfl, hws, hb⟩ := h.head
    rw [List.append_assoc, skipWs_append hw, List.append_assoc, List.cons_append, skipWs_cons hws]
    exact fun heq => hb (List.head_eq_of_cons_eq heq)
  | member hw₁ hw₂ hw₃ hw₄ hname h =>
    rw [List.append_assoc, skipWs_append hw₁, List.cons_append, skipWs_cons rfl]
    exact fun heq => absurd (List.head_eq_of_cons_eq heq) (by decide)
  | members hw₁ hw₂ hw₃ hw₄ hname h hrest =>
    rw [List.append_assoc, skipWs_append hw₁, List.cons_append, skipWs_cons rfl]
    exact fun heq => absurd (List.head_eq_of_cons_eq heq) (by decide)
  | _ => exact absurd rfl hrule

section Steps
variable (n : Nat)

attribute [local simp] read

theorem read_arr {s : List UInt8} (h : ∀ rest, skipWs s ≠ 0x5D :: rest) :
    read (n + 1) .value (0x5B :: s) = read n .elements s := by
  rw [read]
  split
  · exact absurd ‹_› (h _)
  · rfl

theorem read_obj {s : List UInt8} (h : ∀ rest, skipWs s ≠ 0x7D :: rest) :
    read (n + 1) .value (0x7B :: s) = read n .members s := by
  rw [read]
  split
  · exact absurd ‹_› (h _)
  · rfl

theorem read_element {s s₁ rest : List UInt8} {j : Json} (hj : read n .value (skipWs s) = some (j, s₁))
    (hclose : skipWs s₁ = 0x5D :: rest) : read (n + 1) .elements s = some (.arr [j], rest) := by
  simp [hj, hclose]

theorem read_elements {s s₁ s₂ rest : List UInt8} {j : Json} {js : List Json}
    (hj : read n .value (skipWs s) = some (j, s₁)) (hcomma : skipWs s₁ = 0x2C :: s₂)
    (hjs : read n .elements s₂ = some (.arr js, rest)) :
    read (n + 1) .elements s = some (.arr (j :: js), rest) := by
  simp [hj, hcomma, hjs]

theorem read_member {s s₁ s₂ s₃ s₄ rest : List UInt8} {us : List UInt16} {j : Json}
    (hquote : skipWs s = 0x22 :: s₁) (hname : readChars s₁ = some (us, s₂))
    (hcolon : skipWs s₂ = 0x3A :: s₃) (hj : read n .value (skipWs s₃) = some (j, s₄))
    (hclose : skipWs s₄ = 0x7D :: rest) : read (n + 1) .members s = some (.obj [(us, j)], rest) := by
  simp [hquote, hname, hcolon, hj, hclose]

theorem read_members {s s₁ s₂ s₃ s₄ s₅ rest : List UInt8} {us : List UInt16} {j : Json}
    {ms : List (List UInt16 × Json)} (hquote : skipWs s = 0x22 :: s₁)
    (hname : readChars s₁ = some (us, s₂)) (hcolon : skipWs s₂ = 0x3A :: s₃)
    (hj : read n .value (skipWs s₃) = some (j, s₄)) (hcomma : skipWs s₄ = 0x2C :: s₅)
    (hms : read n .members s₅ = some (.obj ms, rest)) :
    read (n + 1) .members s = some (.obj ((us, j) :: ms), rest) := by
  simp [hquote, hname, hcolon, hj, hcomma, hms]

end Steps

/-- A value in front of which there is whitespace. -/
theorem Derives.skipWs_value {s w : List UInt8} {j : Json} (h : Derives .value s j) (hw : Ws w)
    (tail : List UInt8) : skipWs (w ++ (s ++ tail)) = s ++ tail := by
  obtain ⟨b, t, rfl, hws, -⟩ := h.head
  rw [skipWs_append hw, List.cons_append, skipWs_cons hws]

/-- **The reader accepts what the grammar derives**, and takes nothing of what is behind it. -/
theorem Derives.reads {rule : Rule} {s : List UInt8} {j : Json} (h : Derives rule s j) :
    ∀ (n : Nat) (rest : List UInt8), s.length + rule.fuel < n → (rule = .value → Ends rest) →
      read n rule (s ++ (rule.close ++ rest)) = some (j, rest) := by
  induction h with
  | num h =>
    rintro (_ | n) rest hn hends
    · cases hn
    · obtain ⟨b, t, hs, hb⟩ := h.head
      have hne := (number_head hb).2
      have hscalar := readScalar_number h (hends rfl)
      rw [hs, List.cons_append] at hscalar ⊢
      rw [read]
      · exact hscalar
      · exact fun _ h => hne 0x22 (by decide) (List.head_eq_of_cons_eq h)
      · exact fun _ h => hne 0x5B (by decide) (List.head_eq_of_cons_eq h)
      · exact fun _ h => hne 0x7B (by decide) (List.head_eq_of_cons_eq h)
  | str h =>
    rintro (_ | n) rest hn hends
    · cases hn
    · rw [List.cons_append, List.append_assoc, read]
      rw [close_value, List.singleton_append, readChars_append h]
      rfl
  | emptyArr hw =>
    rintro (_ | n) rest hn hends
    · cases hn
    · rw [List.cons_append, List.append_assoc, read, skipWs_append hw, List.singleton_append,
        skipWs_cons rfl]
      rfl
  | emptyObj hw =>
    rintro (_ | n) rest hn hends
    · cases hn
    · rw [List.cons_append, List.append_assoc, read, skipWs_append hw, List.singleton_append,
        skipWs_cons rfl]
      rfl
  | arr h ih =>
    rintro (_ | n) rest hn hends
    · cases hn
    · rw [List.cons_append, List.append_assoc, read_arr n fun r => h.open nofun _ r]
      refine ih n rest ?_ nofun
      simp only [List.length_cons, List.length_append, List.length_nil, Rule.fuel] at hn ⊢
      omega
  | obj h ih =>
    rintro (_ | n) rest hn hends
    · cases hn
    · rw [List.cons_append, List.append_assoc, read_obj n fun r => h.open nofun _ r]
      refine ih n rest ?_ nofun
      simp only [List.length_cons, List.length_append, List.length_nil, Rule.fuel] at hn ⊢
      omega
  | @element w w' s j hw hw' h ih =>
    rintro (_ | n) rest hn hends
    · cases hn
    · simp only [List.append_assoc]
      have hvalue := ih n (w' ++ 0x5D :: rest)
        (by
          simp only [List.length_append, Rule.fuel] at hn ⊢
          omega)
        fun _ => ends_append hw' (ends_cons (by decide))
      rw [close_value, ← h.skipWs_value hw] at hvalue
      exact read_element n hvalue (by rw [skipWs_append hw', skipWs_cons rfl])
  | @elements w w' s text j js hw hw' h hrest ih ihrest =>
    rintro (_ | n) rest hn hends
    · cases hn
    · simp only [List.append_assoc, List.cons_append]
      simp only [List.length_append, List.length_cons, Rule.fuel] at hn
      have hvalue := ih n (w' ++ 0x2C :: (text ++ (Rule.elements.close ++ rest)))
        (by
          simp only [Rule.fuel]
          omega)
        fun _ => ends_append hw' (ends_cons (by decide))
      have hmore := ihrest n rest
        (by
          simp only [Rule.fuel]
          omega)
        nofun
      rw [close_value, ← h.skipWs_value hw] at hvalue
      exact read_elements n hvalue (by rw [skipWs_append hw', skipWs_cons rfl]) hmore
  | @member w₁ w₂ w₃ w₄ name s us j hw₁ hw₂ hw₃ hw₄ hname h ih =>
    rintro (_ | n) rest hn hends
    · cases hn
    · simp only [List.append_assoc, List.cons_append]
      simp only [List.length_append, List.length_cons, Rule.fuel] at hn
      have hvalue := ih n (w₄ ++ (Rule.members.close ++ rest))
        (by
          simp only [Rule.fuel]
          omega)
        fun _ => ends_append hw₄ (ends_cons (by decide))
      rw [close_value, ← h.skipWs_value hw₃] at hvalue
      exact read_member n (by rw [skipWs_append hw₁, skipWs_cons rfl]) (readChars_append hname _)
        (by rw [skipWs_append hw₂, skipWs_cons rfl]) hvalue
        (by rw [skipWs_append hw₄]; exact skipWs_cons rfl rest)
  | @members w₁ w₂ w₃ w₄ name s text us j ms hw₁ hw₂ hw₃ hw₄ hname h hrest ih ihrest =>
    rintro (_ | n) rest hn hends
    · cases hn
    · simp only [List.append_assoc, List.cons_append]
      simp only [List.length_append, List.length_cons, Rule.fuel] at hn
      have hvalue := ih n (w₄ ++ 0x2C :: (text ++ (Rule.members.close ++ rest)))
        (by
          simp only [Rule.fuel]
          omega)
        fun _ => ends_append hw₄ (ends_cons (by decide))
      have hmore := ihrest n rest
        (by
          simp only [Rule.fuel]
          omega)
        nofun
      rw [close_value, ← h.skipWs_value hw₃] at hvalue
      exact read_members n (by rw [skipWs_append hw₁, skipWs_cons rfl]) (readChars_append hname _)
        (by rw [skipWs_append hw₂, skipWs_cons rfl]) hvalue
        (by rw [skipWs_append hw₄, skipWs_cons rfl]) hmore
  | _ =>
    rintro (_ | n) rest hn hends
    · cases hn
    · rfl

/-- **A text the grammar derives is read** as the value it stands for. -/
theorem Text.parse_eq {s : List UInt8} {j : Json} (h : Text s j) : parse s = some j := by
  obtain ⟨w, body, w', rfl, hw, hw', hbody⟩ := h
  have hends : Ends w' := fun b hb => Or.inl (hw' b (List.mem_of_mem_head? hb))
  have hread := hbody.reads ((w ++ (body ++ w')).length + 1) w'
    (by
      simp only [List.length_append, Rule.fuel]
      omega)
    fun _ => hends
  have hrest : skipWs w' = [] := List.dropWhile_eq_nil_iff.mpr hw'
  rw [parse, hbody.skipWs_value hw]
  rw [close_value] at hread
  rw [hread]
  dsimp only
  rw [hrest]
  rfl

/-- A text stands for one value. -/
theorem Text.unique {s : List UInt8} {j j' : Json} (h : Text s j) (h' : Text s j') : j = j' :=
  Option.some.inj (h.parse_eq.symm.trans h'.parse_eq)

/-- No object has two members of one name. -/
inductive Distinct : Json → Prop where
  | null : Distinct .null
  | bool (b : Bool) : Distinct (.bool b)
  | num (m e : Int) : Distinct (.num m e)
  | str (us : List UInt16) : Distinct (.str us)
  | arr {js : List Json} (h : ∀ j ∈ js, Distinct j) : Distinct (.arr js)
  | obj {ms : List (List UInt16 × Json)} (hnames : (ms.map Prod.fst).Nodup)
    (h : ∀ m ∈ ms, Distinct m.2) : Distinct (.obj ms)

end Json

end ETraceGen
