import Mathlib.Data.List.Basic

/-!
# Fresh names

A directory gives every key it is asked for a name: a number it has given to nobody before, which it
keeps giving to that key until the key is retired. `Note`s are what an observer writes down, and
`Faithful` says that the names written down are those the directory gave. Two notes of one directory
carry the same name exactly when they are about the same key and the key was not retired in between
(`Faithful.same_name_iff`).
-/

namespace ETraceGen.FreshNames

/-- `given key id`: asked for `key`, the directory answered `id`. -/
inductive Note (K : Type) where
  | given (key : K) (id : Nat)
  | retired (key : K)

structure Directory (K : Type) where
  current : K → Option Nat := fun _ => none
  next : Nat := 1

namespace Directory

variable {K : Type} [DecidableEq K]

/-- The name a key is given when it is asked for. -/
def idOf (d : Directory K) (key : K) : Nat := (d.current key).getD d.next

def ask (d : Directory K) (key : K) : Directory K :=
  match d.current key with
  | some _ => d
  | none => { current := Function.update d.current key (some d.next), next := d.next + 1 }

def retire (d : Directory K) (key : K) : Directory K :=
  { d with current := Function.update d.current key none }

def note (d : Directory K) : Note K → Directory K
  | .given key _ => d.ask key
  | .retired key => d.retire key

def replay (d : Directory K) (notes : List (Note K)) : Directory K := notes.foldl note d

/-- Every name written down is the one the directory gave. -/
def Faithful (d : Directory K) : List (Note K) → Prop
  | [] => True
  | n :: notes => (∀ key id, n = .given key id → id = d.idOf key) ∧ Faithful (d.note n) notes

/-! ## One step -/

theorem ask_current (d : Directory K) (key k : K) :
    (d.ask key).current k = if k = key then some (d.idOf key) else d.current k := by
  unfold ask idOf
  cases h : d.current key with
  | some id =>
    split_ifs with hk
    · rw [hk, h, Option.getD_some]
    · rfl
  | none => exact Function.update_apply _ _ _ _

theorem retire_current (d : Directory K) (key k : K) :
    (d.retire key).current k = if k = key then none else d.current k := by
  exact Function.update_apply _ _ _ _

theorem ask_next (d : Directory K) (key : K) : d.next ≤ (d.ask key).next := by
  unfold ask
  split <;> simp

theorem note_next (d : Directory K) (n : Note K) : d.next ≤ (d.note n).next := by
  cases n with
  | given key id => exact ask_next d key
  | retired key => exact Nat.le_refl _

@[simp] theorem replay_nil (d : Directory K) : d.replay [] = d := rfl

@[simp] theorem replay_cons (d : Directory K) (n : Note K) (notes : List (Note K)) :
    d.replay (n :: notes) = (d.note n).replay notes := rfl

@[simp] theorem replay_append (d : Directory K) (notes more : List (Note K)) :
    d.replay (notes ++ more) = (d.replay notes).replay more := by
  rw [replay, replay, replay, List.foldl_append]

theorem replay_next (d : Directory K) (notes : List (Note K)) : d.next ≤ (d.replay notes).next := by
  induction notes generalizing d with
  | nil => exact Nat.le_refl _
  | cons n notes ih => exact Nat.le_trans (note_next d n) (ih _)

theorem faithful_append {d : Directory K} {notes more : List (Note K)} :
    d.Faithful (notes ++ more) ↔ d.Faithful notes ∧ (d.replay notes).Faithful more := by
  induction notes generalizing d with
  | nil => simp [Faithful]
  | cons n notes ih => simp [Faithful, ih, and_assoc]

/-! ## Soundness -/

/-- Names in use have been given before, each to one key. -/
structure Sound (d : Directory K) : Prop where
  pos : 0 < d.next
  given_before : ∀ key id, d.current key = some id → 0 < id ∧ id < d.next
  one_key : ∀ key key' id, d.current key = some id → d.current key' = some id → key = key'

omit [DecidableEq K] in
theorem Sound.idOf_pos {d : Directory K} (hd : d.Sound) (key : K) : 0 < d.idOf key := by
  unfold idOf
  cases h : d.current key with
  | none => exact hd.pos
  | some id => exact (hd.given_before key id h).1

omit [DecidableEq K] in
/-- The name given is the key's own, or one nobody has. -/
theorem Sound.idOf_eq {d : Directory K} (hd : d.Sound) {key key' : K}
    (h : d.current key' = some (d.idOf key)) : key' = key := by
  cases hk : d.current key with
  | none =>
    have hlt := (hd.given_before key' _ h).2
    simp [idOf, hk] at hlt
  | some id =>
    have hid : d.idOf key = id := by rw [idOf, hk, Option.getD_some]
    exact hd.one_key key' key id (hid ▸ h) hk

theorem Sound.ask {d : Directory K} (hd : d.Sound) (key : K) : (d.ask key).Sound := by
  refine ⟨Nat.lt_of_lt_of_le hd.pos (ask_next d key), ?_, ?_⟩
  · intro k id h
    rw [ask_current] at h
    split_ifs at h with hk
    · obtain rfl := Option.some.inj h
      refine ⟨hd.idOf_pos key, ?_⟩
      cases hc : d.current key with
      | none => simp [idOf, Directory.ask, hc]
      | some id =>
        have := (hd.given_before key id hc).2
        simpa [idOf, Directory.ask, hc] using this
    · have := hd.given_before k id h
      exact ⟨this.1, Nat.lt_of_lt_of_le this.2 (ask_next d key)⟩
  · intro k k' id h h'
    rw [ask_current] at h h'
    split_ifs at h h' with hk hk' hk'
    · rw [hk, hk']
    · exact hk.trans (hd.idOf_eq (h ▸ h')).symm
    · exact (hd.idOf_eq (h' ▸ h)).trans hk'.symm
    · exact hd.one_key k k' id h h'

theorem Sound.retire {d : Directory K} (hd : d.Sound) (key : K) : (d.retire key).Sound := by
  refine ⟨hd.pos, ?_, ?_⟩
  · intro k id h
    rw [retire_current] at h
    split_ifs at h
    exact hd.given_before k id h
  · intro k k' id h h'
    rw [retire_current] at h h'
    split_ifs at h h'
    exact hd.one_key k k' id h h'

theorem Sound.note {d : Directory K} (hd : d.Sound) (n : Note K) : (d.note n).Sound := by
  cases n with
  | given key id => exact hd.ask key
  | retired key => exact hd.retire key

theorem Sound.replay {d : Directory K} (hd : d.Sound) (notes : List (Note K)) :
    (d.replay notes).Sound := by
  induction notes generalizing d with
  | nil => exact hd
  | cons n notes ih => exact ih (hd.note n)

/-! ## Names kept and names gone -/

/-- A key keeps its name until it is retired. -/
theorem replay_current_of_not_retired {d : Directory K} {key : K} {id : Nat}
    (h : d.current key = some id) {notes : List (Note K)} (hn : .retired key ∉ notes) :
    (d.replay notes).current key = some id := by
  induction notes generalizing d with
  | nil => exact h
  | cons n notes ih =>
    rw [replay_cons]
    refine ih ?_ fun hm => hn (List.mem_cons_of_mem _ hm)
    cases n with
    | given k i =>
      rw [note, ask_current]
      split_ifs with hk
      · rw [← hk, idOf, h, Option.getD_some]
      · exact h
    | retired k =>
      rw [note, retire_current, if_neg]
      · exact h
      · rintro rfl
        exact hn List.mem_cons_self

/-- A name that was given and belongs to no key. -/
def Gone (d : Directory K) (id : Nat) : Prop := id < d.next ∧ ∀ key, d.current key ≠ some id

omit [DecidableEq K] in
theorem Gone.idOf_ne {d : Directory K} {id : Nat} (hg : d.Gone id) (key : K) : d.idOf key ≠ id := by
  unfold idOf
  cases h : d.current key with
  | none => exact Ne.symm (Nat.ne_of_lt hg.1)
  | some i =>
    rintro rfl
    exact hg.2 key h

theorem Gone.note {d : Directory K} {id : Nat} (hg : d.Gone id) (n : Note K) : (d.note n).Gone id := by
  refine ⟨Nat.lt_of_lt_of_le hg.1 (note_next d n), fun key h => ?_⟩
  cases n with
  | given k i =>
    rw [Directory.note, ask_current] at h
    split_ifs at h with hk
    · exact hg.idOf_ne k (Option.some.inj h)
    · exact hg.2 key h
  | retired k =>
    rw [Directory.note, retire_current] at h
    split_ifs at h
    exact hg.2 key h

/-- A name that is gone never comes back. -/
theorem Gone.replay {d : Directory K} {id : Nat} (hg : d.Gone id) (notes : List (Note K)) :
    (d.replay notes).Gone id := by
  induction notes generalizing d with
  | nil => exact hg
  | cons n notes ih => exact ih (hg.note n)

theorem Sound.gone_of_retired {d : Directory K} (hd : d.Sound) {key : K} {id : Nat}
    (h : d.current key = some id) {notes : List (Note K)} (hn : .retired key ∈ notes) :
    (d.replay notes).Gone id := by
  induction notes generalizing d with
  | nil => simp at hn
  | cons n notes ih =>
    by_cases hr : n = .retired key
    · subst hr
      have hgone : (d.retire key).Gone id := by
        refine ⟨(hd.given_before key id h).2, fun k hk => ?_⟩
        rw [retire_current] at hk
        split_ifs at hk with he
        exact he (hd.one_key k key id hk h)
      exact hgone.replay notes
    · have hstill : (d.replay [n]).current key = some id :=
        replay_current_of_not_retired h (by simpa using Ne.symm hr)
      exact ih (hd.note n) hstill ((List.mem_cons.mp hn).resolve_left (Ne.symm hr))

/-! ## The notes of one directory -/

/-- Two notes carry the same name exactly when they are about one key that was not retired between
them. -/
theorem Faithful.same_name_iff {d : Directory K} (hd : d.Sound) {pre mid post : List (Note K)}
    {a b : K} {i j : Nat} (h : d.Faithful (pre ++ .given a i :: mid ++ .given b j :: post)) :
    i = j ↔ a = b ∧ .retired a ∉ mid := by
  rw [faithful_append, faithful_append] at h
  obtain ⟨⟨-, hi, -⟩, hj, -⟩ := h
  have hi := hi a i rfl
  have hj := hj b j rfl
  rw [replay_append, replay_cons] at hj
  set d₁ := (d.replay pre).note (.given a i) with hd₁
  have hs₁ : d₁.Sound := (hd.replay pre).note _
  have ha : d₁.current a = some i := by
    rw [hd₁, note, ask_current, if_pos rfl, hi]
  constructor
  · rintro rfl
    have hmid : .retired a ∉ mid := fun hm => (hs₁.gone_of_retired ha hm).idOf_ne b hj.symm
    have ha₂ := replay_current_of_not_retired ha hmid
    rw [hj] at ha₂
    exact ⟨(hs₁.replay mid).idOf_eq ha₂, hmid⟩
  · rintro ⟨rfl, hmid⟩
    rw [hj, idOf, replay_current_of_not_retired ha hmid, Option.getD_some]

/-- A key still has the name it was given exactly if it was not retired since. -/
theorem Faithful.current_given_iff {d : Directory K} (hd : d.Sound) {pre post : List (Note K)} {a : K}
    {i : Nat} (h : d.Faithful (pre ++ .given a i :: post)) :
    (d.replay (pre ++ .given a i :: post)).current a = some i ↔ .retired a ∉ post := by
  rw [faithful_append] at h
  have hi := h.2.1 a i rfl
  have hs : ((d.replay pre).note (.given a i)).Sound := (hd.replay pre).note _
  have ha : ((d.replay pre).note (.given a i)).current a = some i := by
    rw [note, ask_current, if_pos rfl, hi]
  rw [replay_append, replay_cons]
  exact ⟨fun hc hm => (hs.gone_of_retired ha hm).2 a hc, replay_current_of_not_retired ha⟩

/-- A key has a name exactly when that name was given to it and the key was not retired since. -/
theorem Faithful.current_iff {d : Directory K} {notes : List (Note K)} (h : d.Faithful notes)
    {key : K} {id : Nat} :
    (d.replay notes).current key = some id ↔
      (d.current key = some id ∧ .retired key ∉ notes) ∨
        ∃ pre post, notes = pre ++ .given key id :: post ∧ .retired key ∉ post := by
  constructor
  · intro hc
    induction notes generalizing d with
    | nil => exact Or.inl ⟨hc, by simp⟩
    | cons n notes ih =>
      rcases ih h.2 hc with ⟨hn, hr⟩ | ⟨pre, post, rfl, hr⟩
      · cases n with
        | given k i =>
          rw [note, ask_current] at hn
          split_ifs at hn with hk
          · have hi : i = d.idOf k := h.1 k i rfl
            subst hk
            rw [← hi] at hn
            obtain rfl := Option.some.inj hn
            exact Or.inr ⟨[], notes, rfl, hr⟩
          · exact Or.inl ⟨hn, by simpa using hr⟩
        | retired k =>
          rw [note, retire_current] at hn
          split_ifs at hn with hk
          exact Or.inl ⟨hn, by simpa [hk] using hr⟩
      · exact Or.inr ⟨n :: pre, post, rfl, hr⟩
  · rintro (⟨hc, hr⟩ | ⟨pre, post, rfl, hr⟩)
    · exact replay_current_of_not_retired hc hr
    · rw [faithful_append] at h
      rw [replay_append, replay_cons]
      refine replay_current_of_not_retired ?_ hr
      rw [note, ask_current, if_pos rfl, ← h.2.1 key id rfl]

/-- A key that is not retired is given the name it has. -/
theorem Faithful.given_eq {d : Directory K} {notes : List (Note K)} (h : d.Faithful notes) {key : K}
    {id i : Nat} (hc : d.current key = some id) (hr : .retired key ∉ notes)
    (hm : .given key i ∈ notes) : i = id := by
  obtain ⟨pre, post, rfl⟩ := List.append_of_mem hm
  rw [faithful_append] at h
  have hpre : .retired key ∉ pre := fun hp => hr (List.mem_append_left _ hp)
  rw [h.2.1 key i rfl, idOf, replay_current_of_not_retired hc hpre, Option.getD_some]

/-- Every name given is positive, and smaller than the next one. -/
theorem Faithful.given_lt {d : Directory K} (hd : d.Sound) {notes : List (Note K)}
    (h : d.Faithful notes) {key : K} {id : Nat} (hm : .given key id ∈ notes) :
    0 < id ∧ id < (d.replay notes).next := by
  induction notes generalizing d with
  | nil => simp at hm
  | cons n notes ih =>
    rcases List.mem_cons.mp hm with hn | hm
    · subst hn
      have hid := h.1 key id rfl
      have hcur : (d.note (.given key id)).current key = some id := by
        rw [note, ask_current, if_pos rfl, hid]
      have hlt := (hd.note _).given_before key id hcur
      exact ⟨hlt.1, Nat.lt_of_lt_of_le hlt.2 (replay_next _ notes)⟩
    · exact ih (hd.note n) h.2 hm

end Directory

end ETraceGen.FreshNames
