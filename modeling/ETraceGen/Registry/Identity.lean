import ETraceGen.Registry.Reachable

/-!
# Stable identity

While nothing is evicted and no start time changes, the log of a run is its history, and the registry
is a plain directory: two mentions get the same id exactly when they are of one key that did not exit
in between (`same_id_iff`).
-/

namespace ETraceGen.EntityRegistry

open FreshNames

/-! ## Positions in a list -/

section Positions
variable {α : Type} {l : List α}

theorem split_of_getElem? {i : Nat} {a : α} (h : l[i]? = some a) :
    ∃ pre post, l = pre ++ a :: post ∧ pre.length = i := by
  obtain ⟨hlt, hget⟩ := List.getElem?_eq_some_iff.mp h
  refine ⟨l.take i, l.drop (i + 1), ?_, List.length_take_of_le (Nat.le_of_lt hlt)⟩
  rw [← hget, List.getElem_cons_drop, List.take_append_drop]

/-- Two positions cut a list into three, and the middle part is what stands strictly between them. -/
theorem split_of_two_getElem? {i j : Nat} {a b : α} (hij : i < j) (hi : l[i]? = some a)
    (hj : l[j]? = some b) :
    ∃ pre mid post, l = pre ++ a :: mid ++ b :: post ∧
      (pre.length = i ∧ pre.length + 1 + mid.length = j) ∧
      ∀ x, x ∈ mid ↔ ∃ p, i < p ∧ p < j ∧ l[p]? = some x := by
  obtain ⟨pre, rest, rfl, hpre⟩ := split_of_getElem? hi
  have hafter : ∀ p, i < p → (pre ++ a :: rest)[p]? = rest[p - (i + 1)]? := by
    intro p hp
    rw [List.getElem?_append_right (by omega), List.getElem?_cons, if_neg (by omega), hpre]
    congr 1
  rw [hafter j hij] at hj
  obtain ⟨mid, post, rfl, hmid⟩ := split_of_getElem? hj
  refine ⟨pre, mid, post, by simp, ⟨hpre, by omega⟩, fun x => ?_⟩
  rw [List.mem_iff_getElem?]
  constructor
  · rintro ⟨q, hq⟩
    have hlt := (List.getElem?_eq_some_iff.mp hq).1
    refine ⟨q + (i + 1), by omega, by omega, ?_⟩
    rw [hafter _ (by omega), Nat.add_sub_cancel, List.getElem?_append_left hlt, hq]
  · rintro ⟨p, hip, hpj, hp⟩
    rw [hafter p hip, List.getElem?_append_left (by omega)] at hp
    exact ⟨_, hp⟩

end Positions

/-- A list cut at two entries that a filter keeps. -/
theorem split_filter {α : Type} {f : α → Bool} {l pre mid post : List α} {a b : α}
    (h : l.filter f = pre ++ a :: mid ++ b :: post) :
    ∃ pre' mid' post', l = pre' ++ a :: mid' ++ b :: post' ∧ pre'.filter f = pre ∧
      mid'.filter f = mid ∧ post'.filter f = post := by
  obtain ⟨front, back, rfl, hfront, hback⟩ := List.filter_eq_append_iff.mp h
  obtain ⟨pre₁, rest, rfl, hpre₁, hrest⟩ := List.filter_eq_append_iff.mp hfront
  obtain ⟨skip, mid₁, rfl, hskip, -, hmid₁⟩ := List.filter_eq_cons_iff.mp hrest
  obtain ⟨skip', post₁, rfl, hskip', -, hpost₁⟩ := List.filter_eq_cons_iff.mp hback
  refine ⟨pre₁ ++ skip, mid₁ ++ skip', post₁, by simp, ?_, ?_, hpost₁⟩
  · rw [List.filter_append, hpre₁, List.filter_eq_nil_iff.mpr hskip, List.append_nil]
  · rw [List.filter_append, hmid₁, List.filter_eq_nil_iff.mpr hskip', List.append_nil]

/-! ## Runs without retirements of the registry's own -/

/-- An eviction needs more entities than the cap, and so more ids. -/
theorem Edits.evicted_lt {r r' : EntityRegistry} {log : List Entry} (h : Edits r log r')
    (hr : r.Consistent) {key : UInt32} {id : Nat} (hm : .evicted key id ∈ log) :
    kMaxEntries + 1 < r'.nextId := by
  induction h with
  | refl => simp at hm
  | @tail log more r₁ r₂ hpre he ih =>
    rcases List.mem_append.mp hm with hm | hm
    · exact Nat.lt_of_lt_of_le (ih hm) he.extends.next
    · have hcount := (hpre.consistent hr).processCount_lt
      cases he with
      | evictLive _ _ hover =>
        change _ < r₁.nextId
        omega
      | retire _ _ _ _ _ _ hentry =>
        rcases hentry with rfl | rfl <;> simp at hm
      | see => simp at hm
      | create => simp at hm
      | exitGone => simp at hm
      | evictExited => simp at hm
      | amend => simp at hm

/-- With at most as many entities created as the cap allows and no start time changed, the history is
the whole log. -/
theorem history_edits {calls : List Call} (hfew : (run calls).nextId ≤ kMaxEntries + 1)
    (hsame : SameStarts calls) : Edits {} (history calls) (run calls) := by
  obtain ⟨log, hlog, hseen, hreused⟩ := (run_logs calls).exists_log
  have hall : log.filter Entry.observed = log := by
    rw [List.filter_eq_self]
    intro x hx
    cases x with
    | mention => rfl
    | exited => rfl
    | reused key => exact absurd hx (hreused key hsame.of)
    | evicted key id =>
      have := hlog.evicted_lt consistent_empty hx
      omega
  rw [← hseen, hall]
  exact hlog

/-- What retires a key in a log. -/
theorem retired_mem_notes {key : UInt32} {log : List Entry} :
    .retired key ∈ log.map Entry.note ↔
      .exited key ∈ log ∨ .reused key ∈ log ∨ ∃ id, .evicted key id ∈ log := by
  rw [List.mem_map]
  constructor
  · rintro ⟨x, hx, hnote⟩
    cases x with
    | mention k id ts => cases hnote
    | exited k =>
      obtain rfl := Note.retired.inj hnote
      exact Or.inl hx
    | reused k =>
      obtain rfl := Note.retired.inj hnote
      exact Or.inr (Or.inl hx)
    | evicted k id =>
      obtain rfl := Note.retired.inj hnote
      exact Or.inr (Or.inr ⟨id, hx⟩)
  · rintro (h | h | ⟨id, h⟩) <;> exact ⟨_, h, rfl⟩

/-- What gives a key an id in a log. -/
theorem given_mem_notes {key : UInt32} {id : Nat} {log : List Entry} :
    .given key id ∈ log.map Entry.note ↔ ∃ ts, .mention key id ts ∈ log := by
  rw [List.mem_map]
  constructor
  · rintro ⟨x, hx, hnote⟩
    cases x with
    | mention k i ts =>
      obtain ⟨rfl, rfl⟩ := Note.given.inj hnote
      exact ⟨ts, hx⟩
    | _ => cases hnote
  · rintro ⟨ts, h⟩
    exact ⟨_, h, rfl⟩

/-- Two mentions of a log carry the same id exactly when they are of one key that was not retired
between them. -/
theorem Edits.same_id_iff_key {r r' : EntityRegistry} {pre mid post : List Entry} {key key' : UInt32}
    {id id' : Nat} {ts ts' : UInt64} (hr : r.Consistent)
    (h : Edits r (pre ++ .mention key id ts :: mid ++ .mention key' id' ts' :: post) r') :
    id = id' ↔ key = key' ∧
      ¬(.exited key ∈ mid ∨ .reused key ∈ mid ∨ ∃ id, .evicted key id ∈ mid) := by
  have hfaith := h.names.2
  rw [List.map_append, List.map_append, List.map_cons, List.map_cons] at hfaith
  rw [← retired_mem_notes]
  exact hfaith.same_name_iff hr.names_sound

/-- The history tells apart what the registry observed from what it did by itself. -/
theorem history_observed {calls : List Call} {x : Entry} (hx : x ∈ history calls) :
    x.observed = true := by
  obtain ⟨log, -, hseen, -⟩ := (run_logs calls).exists_log
  rw [← hseen] at hx
  exact (List.mem_filter.mp hx).2

/-- Among what was observed, only an exit retires a key. -/
theorem retires_iff_exited {key : UInt32} {log : List Entry} (h : ∀ x ∈ log, x.observed = true) :
    (.exited key ∈ log ∨ .reused key ∈ log ∨ ∃ id, .evicted key id ∈ log) ↔ .exited key ∈ log := by
  constructor
  · rintro (hm | hm | ⟨id, hm⟩)
    · exact hm
    · cases h _ hm
    · cases h _ hm
  · exact Or.inl

/-- Every id attached to a mention is positive. -/
theorem history_id_pos {calls : List Call} {key : UInt32} {id : Nat} {ts : UInt64}
    (hm : .mention key id ts ∈ history calls) : 0 < id := by
  obtain ⟨log, hlog, hseen, -⟩ := (run_logs calls).exists_log
  rw [← hseen] at hm
  exact (hlog.mention_lt consistent_empty (List.mem_of_mem_filter hm)).1

/-! ## Keys that stay indexed -/

/-- Every id attached to the key belongs to a live entity, which the key is indexed with. -/
def Kept (calls : List Call) (key : UInt32) : Prop :=
  ∀ id ts, .mention key id ts ∈ history calls →
    (run calls).tgidIndex.lookup key = some id ∧
      ∃ e, (run calls).findProcess id = some e ∧ e.exited = false

section Indexed
variable {calls : List Call} {key : UInt32} {id : Nat} (hfew : (run calls).nextId ≤ kMaxEntries + 1)
  (hsame : SameStarts calls)
include hfew hsame

/-- A key is still indexed with the id of a mention exactly if it did not exit since. -/
theorem history_indexed_iff {pre post : List Entry} {ts : UInt64}
    (h : history calls = pre ++ .mention key id ts :: post) :
    (run calls).tgidIndex.lookup key = some id ↔ .exited key ∉ post := by
  have hedits := history_edits hfew hsame
  have hown : ∀ x ∈ post, x.observed = true := by
    intro x hx
    have hmem : x ∈ history calls := by
      rw [h]
      exact List.mem_append_right _ (List.mem_cons_of_mem _ hx)
    exact history_observed hmem
  obtain ⟨hnames, hfaith⟩ := hedits.names
  rw [h, List.map_append, List.map_cons] at hnames hfaith
  rw [← retires_iff_exited hown, ← retired_mem_notes,
    ← hfaith.current_given_iff consistent_empty.names_sound]
  exact Eq.congr_left (congrArg (fun d => d.current key) hnames)

/-- What a key is indexed with was attached to it. -/
theorem mention_of_history_indexed (h : (run calls).tgidIndex.lookup key = some id) :
    ∃ ts, .mention key id ts ∈ history calls := by
  obtain ⟨hnames, hfaith⟩ := (history_edits hfew hsame).names
  have hcur : ((names {}).replay ((history calls).map Entry.note)).current key = some id := by
    rw [← hnames]
    exact h
  rw [← given_mem_notes]
  rcases hfaith.current_iff.mp hcur with ⟨hold, -⟩ | ⟨pre, post, hnotes, -⟩
  · cases hold
  · rw [hnotes]
    exact List.mem_append_right _ List.mem_cons_self

theorem kept_iff : Kept calls key ↔ ¬∃ c ∈ calls, c.Exits key := by
  constructor
  · rintro hkept ⟨c, hc, hexit⟩
    obtain ⟨before, after, rfl⟩ := List.append_of_mem hc
    have hhistory : history (before ++ c :: after) = history before ++
        .mention key (c.out (run before)).subject.id c.ev.tsNs ::
          .exited key :: historyFrom (c.next (run before)) after := by
      have hchild : ¬c.StartsChild := by
        rintro ⟨hstart, -⟩
        rw [hexit.1] at hstart
        cases hstart
      have hown : c.history (run before) =
          [.mention key (c.out (run before)).subject.id c.ev.tsNs, .exited key] := by
        rw [Call.history, if_neg hchild, if_pos hexit.1, hexit.2.1, if_neg hexit.2.2]
        rfl
      rw [history, historyFrom_append, historyFrom]
      change history before ++ (c.history (run before) ++ _) = _
      rw [hown]
      rfl
    have hm : .mention key (c.out (run before)).subject.id c.ev.tsNs ∈ history (before ++ c :: after) := by
      rw [hhistory]
      exact List.mem_append_right _ List.mem_cons_self
    exact (history_indexed_iff hfew hsame hhistory).mp (hkept _ _ hm).1 List.mem_cons_self
  · intro hno id ts hm
    obtain ⟨pre, post, hsplit⟩ := List.append_of_mem hm
    have hindex : (run calls).tgidIndex.lookup key = some id := by
      rw [history_indexed_iff hfew hsame hsplit]
      intro hexit
      have hmem : .exited key ∈ history calls := by
        rw [hsplit]
        exact List.mem_append_right _ (List.mem_cons_of_mem _ hexit)
      exact hno (exited_mem_historyFrom.mp hmem)
    obtain ⟨e, he, hlive, -⟩ := (run_consistent calls).indexed key id hindex
    exact ⟨hindex, e, he, hlive⟩

end Indexed

/-! ## Stable ids -/

/-- In a run that creates at most as many entities as the cap allows, and in which every start-time read
for an indexed entity returns 0 or the recorded value, two mentions get the same id exactly when they
are of one key and no exit of the key lies between them; and no id attached is 0. -/
theorem same_id_iff (calls : List Call) (hfew : (run calls).nextId ≤ kMaxEntries + 1)
    (hsame : SameStarts calls) :
    (∀ key id ts, Entry.mention key id ts ∈ history calls → id ≠ 0) ∧
      ∀ (i j : Nat) key key' id id' ts ts', i ≤ j →
        (history calls)[i]? = some (Entry.mention key id ts) →
        (history calls)[j]? = some (Entry.mention key' id' ts') →
          (id = id' ↔ key = key' ∧
            ∀ p, i ≤ p → p < j → (history calls)[p]? ≠ some (Entry.exited key)) := by
  refine ⟨fun key id ts hm => Nat.pos_iff_ne_zero.mp (history_id_pos hm), ?_⟩
  intro i j key key' id id' ts ts' hij hi hj
  rcases Nat.lt_or_eq_of_le hij with hlt | rfl
  · obtain ⟨pre, mid, post, hsplit, -, hmid⟩ := split_of_two_getElem? hlt hi hj
    have hedits := history_edits hfew hsame
    rw [hsplit] at hedits
    rw [hedits.same_id_iff_key consistent_empty]
    have hown : ∀ x ∈ mid, x.observed = true := by
      intro x hx
      have hmem : x ∈ history calls := by
        rw [hsplit]
        simp [hx]
      exact history_observed hmem
    rw [retires_iff_exited hown, hmid]
    refine and_congr_right fun _ => ⟨fun h p hip hpj hp => ?_, fun h => ?_⟩
    · refine h ⟨p, Nat.lt_of_le_of_ne hip ?_, hpj, hp⟩
      rintro rfl
      rw [hi] at hp
      cases hp
    · rintro ⟨p, hip, hpj, hp⟩
      exact h p (Nat.le_of_lt hip) hpj hp
  · rw [hi] at hj
    obtain ⟨rfl, rfl, rfl⟩ := Entry.mention.inj (Option.some.inj hj)
    refine iff_of_true rfl ⟨rfl, fun p hip hpi => ?_⟩
    omega

/-- A process, its exit, and a process that is given its number. -/
def exitReuse : List Call :=
  [processCall 100 .processExeced 1 0, processCall 100 .processExited 2 0,
    processCall 100 .processExeced 3 0]

/-- Nothing is read where nothing is readable. -/
theorem sameStarts_of_unreadable {calls : List Call}
    (h : ∀ c ∈ calls, c.env.subject.proc.identityStat = none ∧ c.env.child.proc.identityStat = none) :
    SameStarts calls := by
  rintro pre c post rfl
  obtain ⟨hs, hc⟩ := h c (by simp)
  refine ⟨fun _ _ _ _ _ => Or.inl ?_, fun _ _ _ _ _ _ => Or.inl ?_⟩
  · rw [hs]
    rfl
  · rw [hc]
    rfl

theorem same_id_iff_exitReuse :
    (history exitReuse)[0]? = some (Entry.mention 100 1 1) ∧
      (history exitReuse)[3]? = some (Entry.mention 100 2 3) ∧
      ((1 : Nat) = 2 ↔ (100 : UInt32) = 100 ∧
        ∀ p, 0 ≤ p → p < 3 → (history exitReuse)[p]? ≠ some (Entry.exited 100)) := by
  have hfirst : (history exitReuse)[0]? = some (Entry.mention 100 1 1) := by decide
  have hlast : (history exitReuse)[3]? = some (Entry.mention 100 2 3) := by decide
  have hfew : (run exitReuse).nextId ≤ kMaxEntries + 1 := by decide
  have hsame : SameStarts exitReuse := sameStarts_of_unreadable (by simp [exitReuse, processCall])
  exact ⟨hfirst, hlast,
    (same_id_iff exitReuse hfew hsame).2 0 3 100 100 1 2 1 3 (by decide) hfirst hlast⟩

end ETraceGen.EntityRegistry
