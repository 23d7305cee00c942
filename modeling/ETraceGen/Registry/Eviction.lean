import ETraceGen.Registry.Identity

/-!
# Eviction

The registry retains at most `kMaxEntries` entities, exited ones included, and gives up the one seen
least recently. An entity is evicted only when that many others were mentioned no earlier than its own
last mention (`Edits.evictions_justified`), so a process that has not exited keeps its id as long as
fewer than that were (`keeps_id`); short-lived processes alone can push it out (`not_keeps_id`).
-/

namespace ETraceGen.EntityRegistry

/-! ## What the log says of the stored entities -/

/-- Every stored entity was mentioned when it was last seen. -/
def Stamped (r : EntityRegistry) (log : List Entry) : Prop :=
  ∀ id e, r.findProcess id = some e → ∃ key, .mention key id e.lastSeenNs ∈ log

/-- No entry mentions `key`. -/
def Unmentioned (key : UInt32) (log : List Entry) : Prop := ∀ id ts, .mention key id ts ∉ log

/-- The last mention of a live entity's key is of the entity itself, when it was last seen. -/
def LastMentioned (r : EntityRegistry) (log : List Entry) : Prop :=
  ∀ id e, r.findProcess id = some e → e.exited = false →
    ∃ pre post, log = pre ++ .mention e.key id e.lastSeenNs :: post ∧ Unmentioned e.key post

theorem Edit.stamped {r r' : EntityRegistry} {log more : List Entry} (h : Edit r more r')
    (hs : Stamped r log) : Stamped r' (log ++ more) := by
  have hold : ∀ id e, r.findProcess id = some e → ∃ key, .mention key id e.lastSeenNs ∈ log ++ more := by
    intro id e he
    obtain ⟨key, hm⟩ := hs id e he
    exact ⟨key, List.mem_append_left _ hm⟩
  -- an entity overwritten without being seen keeps its stamp
  have hover : ∀ {id : Nat} {e e' : ProcessEntity}, r.findProcess id = some e →
      e'.lastSeenNs = e.lastSeenNs → ∀ k f, (r.store id e').findProcess k = some f →
        ∃ key, .mention key k f.lastSeenNs ∈ log ++ more := by
    intro id e e' hstored hseen k f hf
    rw [findProcess_store] at hf
    split_ifs at hf with hk
    · obtain rfl := Option.some.inj hf
      rw [hseen, hk]
      exact hold id e hstored
    · exact hold k f hf
  intro id f hf
  cases h with
  | @see key k e e' hindex =>
    rw [findProcess_store] at hf
    split_ifs at hf with hk
    · obtain rfl := Option.some.inj hf
      exact ⟨key, by rw [hk]; simp⟩
    · exact hold id f hf
  | @create e =>
    rw [add_findProcess] at hf
    split_ifs at hf with hk
    · obtain rfl := Option.some.inj hf
      exact ⟨e.key, by rw [hk]; simp⟩
    · exact hold id f hf
  | retire hstored _ _ _ _ hseen => exact hover hstored hseen id f hf
  | exitGone => exact hold id f hf
  | evictLive =>
    rw [drop_findProcess] at hf
    split_ifs at hf
    exact hold id f hf
  | evictExited =>
    rw [drop_findProcess] at hf
    split_ifs at hf
    exact hold id f hf
  | amend hstored _ _ _ hseen => exact hover hstored hseen id f hf

/-- Entries that mention nothing leave the last mentions alone. -/
theorem LastMentioned.append {log more : List Entry} {key : UInt32} {id : Nat} {ts : UInt64}
    (h : ∃ pre post, log = pre ++ .mention key id ts :: post ∧ Unmentioned key post)
    (hmore : Unmentioned key more) :
    ∃ pre post, log ++ more = pre ++ .mention key id ts :: post ∧ Unmentioned key post := by
  obtain ⟨pre, post, rfl, hpost⟩ := h
  refine ⟨pre, post ++ more, by rw [List.append_assoc, List.cons_append], fun i t hm => ?_⟩
  rcases List.mem_append.mp hm with hm | hm
  · exact hpost i t hm
  · exact hmore i t hm

theorem Edit.lastMentioned {r r' : EntityRegistry} {log more : List Entry} (h : Edit r more r')
    (hr : r.Consistent) (hs : LastMentioned r log) : LastMentioned r' (log ++ more) := by
  intro id f hf hlive
  cases h with
  | @see key k e e' hindex hstored hsame =>
    have hkey := (hr.of_indexed hindex hstored).2
    rw [findProcess_store] at hf
    split_ifs at hf with hk
    · obtain rfl := Option.some.inj hf
      refine ⟨log, [], ?_, fun _ _ => List.not_mem_nil⟩
      rw [hsame.key, hkey, hk]
    · refine LastMentioned.append (hs id f hf hlive) fun i t hm => ?_
      obtain ⟨hkey', -⟩ := Entry.mention.inj (List.mem_singleton.mp hm)
      have hlook := hr.live id f hf hlive
      rw [hkey', hindex] at hlook
      exact hk (Option.some.inj hlook).symm
  | @create e hindex hid hnew =>
    rw [add_findProcess] at hf
    split_ifs at hf with hk
    · obtain rfl := Option.some.inj hf
      exact ⟨log, [], by rw [hk], fun _ _ => List.not_mem_nil⟩
    · refine LastMentioned.append (hs id f hf hlive) fun i t hm => ?_
      obtain ⟨hkey', -⟩ := Entry.mention.inj (List.mem_singleton.mp hm)
      have hlook := hr.live id f hf hlive
      rw [hkey', hindex] at hlook
      cases hlook
  | @retire entry k e e' _ _ _ hexit _ _ hentry =>
    rw [unindex_findProcess, findProcess_store] at hf
    split_ifs at hf with hk
    · obtain rfl := Option.some.inj hf
      rw [hexit] at hlive
      cases hlive
    · refine LastMentioned.append (hs id f hf hlive) fun i t hm => ?_
      rcases hentry with rfl | rfl <;> cases List.mem_singleton.mp hm
  | exitGone => exact LastMentioned.append (hs id f hf hlive) fun i t hm => by simp at hm
  | evictLive =>
    rw [drop_findProcess] at hf
    split_ifs at hf
    exact LastMentioned.append (hs id f hf hlive) fun i t hm => by simp at hm
  | evictExited =>
    rw [drop_findProcess] at hf
    split_ifs at hf
    exact LastMentioned.append (hs id f hf hlive) fun i t hm => by simp at hm
  | @amend k e e' hstored hsame hexit _ hseen =>
    rw [findProcess_store] at hf
    split_ifs at hf with hk
    · obtain rfl := Option.some.inj hf
      rw [hsame.key, hseen, hk]
      exact LastMentioned.append (hs k e hstored (hexit ▸ hlive)) fun i t hm => by simp at hm
    · exact LastMentioned.append (hs id f hf hlive) fun i t hm => by simp at hm

theorem Edits.stamped {r : EntityRegistry} {log : List Entry} (h : Edits {} log r) :
    Stamped r log ∧ LastMentioned r log := by
  induction h with
  | refl =>
    refine ⟨fun id e he => ?_, fun id e he _ => ?_⟩
    · simp [findProcess] at he
    · simp [findProcess] at he
  | tail hpre he ih =>
    exact ⟨he.stamped ih.1, he.lastMentioned (hpre.consistent consistent_empty) ih.2⟩

/-! ## Evictions -/

/-- The id of an entity other than `id` that the entry mentions at `ts` or later. -/
def Entry.otherSince (id : Nat) (ts : UInt64) : Entry → Option Nat
  | .mention _ id' ts' => if id' ≠ id ∧ ts ≤ ts' then some id' else none
  | _ => none

/-- The entities other than `id` that are mentioned at `ts` or later. -/
def others (log : List Entry) (id : Nat) (ts : UInt64) : Finset Nat :=
  (log.filterMap (Entry.otherSince id ts)).toFinset

theorem mem_others {log : List Entry} {id id' : Nat} {ts : UInt64} :
    id' ∈ others log id ts ↔ id' ≠ id ∧ ∃ key ts', ts ≤ ts' ∧ .mention key id' ts' ∈ log := by
  unfold others
  rw [List.mem_toFinset, List.mem_filterMap]
  constructor
  · rintro ⟨x, hx, hsome⟩
    cases x with
    | mention key i t =>
      change (if i ≠ id ∧ ts ≤ t then some i else none) = some id' at hsome
      split_ifs at hsome with hc
      obtain rfl := Option.some.inj hsome
      exact ⟨hc.1, key, t, hc.2, hx⟩
    | exited => cases hsome
    | reused => cases hsome
    | evicted => cases hsome
  · rintro ⟨hne, key, ts', hle, hx⟩
    exact ⟨_, hx, if_pos ⟨hne, hle⟩⟩

theorem others_filter (log : List Entry) (id : Nat) (ts : UInt64) :
    others (log.filter Entry.observed) id ts = others log id ts := by
  ext id'
  rw [mem_others, mem_others]
  simp [Entry.observed]

/-- Every eviction of the log hits an entity whose last mention is no later than those of as many other
entities as the cap allows. -/
def EvictionsJustified (log : List Entry) : Prop :=
  ∀ pre key id post, log = pre ++ .evicted key id :: post →
    ∃ before ts since, pre = before ++ .mention key id ts :: since ∧ Unmentioned key since ∧
      kMaxEntries ≤ (others pre id ts).card

/-- Whoever else is stored when an entity is the one seen least recently was mentioned since. -/
theorem card_others {r : EntityRegistry} {log : List Entry} (hs : Stamped r log) {id : Nat}
    {e : ProcessEntity} (hstored : r.findProcess id = some e) (hover : kMaxEntries < r.processCount)
    (hleast : ∀ id' e', r.findProcess id' = some e' → e.lastSeenNs ≤ e'.lastSeenNs) :
    kMaxEntries ≤ (others log id e.lastSeenNs).card := by
  have hsub : r.processesById.keys.toFinset.erase id ⊆ others log id e.lastSeenNs := by
    intro id' hid'
    obtain ⟨hne, hmem⟩ := Finset.mem_erase.mp hid'
    obtain ⟨e', he'⟩ := KeyedMap.exists_lookup (List.mem_toFinset.mp hmem)
    obtain ⟨key, hm⟩ := hs id' e' he'
    exact mem_others.mpr ⟨hne, key, e'.lastSeenNs, hleast id' e' he', hm⟩
  have hid : id ∈ r.processesById.keys.toFinset :=
    List.mem_toFinset.mpr (KeyedMap.mem_of_lookup hstored)
  have hcard := Finset.card_le_card hsub
  rw [Finset.card_erase_of_mem hid, List.toFinset_card_of_nodup r.processesById.keys_nodup] at hcard
  change r.processCount - 1 ≤ _ at hcard
  omega

theorem Edits.evictions_justified {r : EntityRegistry} {log : List Entry} (h : Edits {} log r) :
    EvictionsJustified log := by
  induction h with
  | refl =>
    intro pre key id post heq
    simp at heq
  | @tail log more r₁ r₂ hpre he ih =>
    intro pre key id post heq
    have hplace : (∃ as, pre = log ++ as ∧ more = as ++ .evicted key id :: post) ∨
        ∃ bs, log = pre ++ .evicted key id :: bs := by
      rcases List.append_eq_append_iff.mp heq with h | ⟨bs, hlog, hbs⟩
      · exact Or.inl h
      · cases bs with
        | nil => exact Or.inl ⟨[], by simp [hlog], hbs.symm⟩
        | cons b bs =>
          obtain ⟨rfl, -⟩ := List.cons.inj hbs
          exact Or.inr ⟨bs, hlog⟩
    rcases hplace with ⟨as, rfl, hmore⟩ | ⟨bs, hlog⟩
    · -- the eviction is the last edit
      obtain ⟨hstamped, hlast⟩ := hpre.stamped
      cases he with
      | @evictLive k e hstored hlive hover hleast =>
        cases as with
        | nil =>
          obtain ⟨rfl, rfl⟩ := Entry.evicted.inj (List.cons.inj hmore).1
          obtain ⟨before, since, hsplit, hsince⟩ := hlast k e hstored hlive
          rw [List.append_nil]
          exact ⟨before, e.lastSeenNs, since, hsplit, hsince, card_others hstamped hstored hover hleast⟩
        | cons a as => simp at hmore
      | retire _ _ _ _ _ _ hentry =>
        rcases hentry with rfl | rfl <;> cases as <;> simp at hmore
      | see => cases as <;> simp at hmore
      | create => cases as <;> simp at hmore
      | exitGone => cases as <;> simp at hmore
      | evictExited => simp at hmore
      | amend => simp at hmore
    · exact ih pre key id bs hlog

/-! ## The ids of processes that have not exited -/

/-- Position `p` holds the latest mention of `key` before position `q`. -/
structure LatestMention (h : List Entry) (key : UInt32) (p q : Nat) (id : Nat) (ts : UInt64) : Prop where
  lt : p < q
  mention : h[p]? = some (.mention key id ts)
  latest : ∀ s, p < s → s < q → ∀ id' ts', h[s]? ≠ some (.mention key id' ts')

/-- An eviction between two positions of the history, seen from the history: there is a point in between
at which as many others as the cap allows had been mentioned since the latest mention of the key. -/
theorem justified_position {log pre mid post : List Entry} {key : UInt32} {id : Nat} {ts : UInt64}
    {b : Entry} (hjust : EvictionsJustified log)
    (hlog : log = pre ++ .mention key id ts :: mid ++ b :: post) {k : Nat}
    (hm : .evicted key k ∈ mid) :
    ∃ p q id₀ t, (pre.filter Entry.observed).length < q ∧
      q ≤ (pre.filter Entry.observed).length + 1 + (mid.filter Entry.observed).length ∧
      LatestMention (log.filter Entry.observed) key p q id₀ t ∧
      kMaxEntries ≤ (others ((log.filter Entry.observed).take q) id₀ t).card := by
  obtain ⟨mid₁, mid₂, rfl⟩ := List.append_of_mem hm
  have hcut : log = (pre ++ .mention key id ts :: mid₁) ++ .evicted key k :: (mid₂ ++ b :: post) := by
    rw [hlog]
    simp
  obtain ⟨before, t, since, hpre, hsince, hcard⟩ := hjust _ _ _ _ hcut
  obtain ⟨front, hfront⟩ : ∃ front, front = pre ++ .mention key id ts :: mid₁ := ⟨_, rfl⟩
  rw [← hfront] at hcut hpre hcard
  have hlen : (front.filter Entry.observed).length =
      (pre.filter Entry.observed).length + 1 + (mid₁.filter Entry.observed).length := by
    rw [hfront, List.filter_append, List.filter_cons_of_pos rfl, List.length_append, List.length_cons]
    omega
  have htake : (log.filter Entry.observed).take (front.filter Entry.observed).length =
      front.filter Entry.observed := by
    rw [hcut, List.filter_append, List.take_left]
  have hbefore : front.filter Entry.observed =
      before.filter Entry.observed ++ .mention key k t :: since.filter Entry.observed := by
    rw [hpre, List.filter_append, List.filter_cons_of_pos rfl]
  refine ⟨(before.filter Entry.observed).length, (front.filter Entry.observed).length, k, t, ?_, ?_,
    ⟨?_, ?_, ?_⟩, ?_⟩
  · omega
  · rw [List.filter_append, List.length_append]
    omega
  · rw [hbefore, List.length_append, List.length_cons]
    omega
  · rw [hcut, List.filter_append, hbefore, List.append_assoc, List.cons_append,
      List.getElem?_append_right (Nat.le_refl _), Nat.sub_self]
    rfl
  · intro s hps hsq i t' hs
    have hget : (front.filter Entry.observed)[s]? = some (.mention key i t') := by
      rw [← htake, List.getElem?_take_of_lt hsq]
      exact hs
    rw [hbefore, List.getElem?_append_right (Nat.le_of_lt hps)] at hget
    obtain ⟨d, hd⟩ := Nat.exists_eq_add_of_lt hps
    have hidx : s - (before.filter Entry.observed).length = d + 1 := by omega
    rw [hidx, List.getElem?_cons_succ] at hget
    exact hsince i t' (List.mem_of_mem_filter (List.mem_of_getElem? hget))
  · rw [htake, others_filter]
    exact hcard

/-- In a run in which every start-time read for an indexed entity returns 0 or the recorded value, a
process that does not exit between two mentions has the same id at both, as long as at every point in
between fewer than `kMaxEntries` other entities had been mentioned no earlier than its latest
mention. -/
theorem keeps_id (calls : List Call) (hsame : SameStarts calls) {i j : Nat} (hij : i ≤ j)
    {key : UInt32} {id id' : Nat} {ts ts' : UInt64}
    (hi : (history calls)[i]? = some (.mention key id ts))
    (hj : (history calls)[j]? = some (.mention key id' ts'))
    (hexit : ∀ p, i ≤ p → p < j → (history calls)[p]? ≠ some (.exited key))
    (hfew : ∀ p q id₀ t, i < q → q ≤ j → LatestMention (history calls) key p q id₀ t →
      (others ((history calls).take q) id₀ t).card < kMaxEntries) :
    id = id' := by
  rcases Nat.lt_or_eq_of_le hij with hlt | rfl
  · obtain ⟨pre, mid, post, hsplit, ⟨hpre, hlen⟩, hmid⟩ := split_of_two_getElem? hlt hi hj
    obtain ⟨log, hlog, hseen, hreused⟩ := (run_logs calls).exists_log
    rw [← hseen] at hsplit
    obtain ⟨pre', mid', post', heq, hpre', hmid', -⟩ := split_filter hsplit
    rw [heq] at hlog
    refine (hlog.same_id_iff_key consistent_empty).mpr ⟨rfl, ?_⟩
    rintro (h | h | ⟨k, h⟩)
    · have hm : .exited key ∈ mid := hmid' ▸ List.mem_filter.mpr ⟨h, rfl⟩
      obtain ⟨p, hip, hpj, hp⟩ := (hmid _).mp hm
      exact hexit p (Nat.le_of_lt hip) hpj hp
    · exact hreused key hsame.of (by rw [heq]; simp [h])
    · have hjust : EvictionsJustified log := heq ▸ hlog.evictions_justified
      obtain ⟨p, q, id₀, t, hq, hqj, hlatest, hcard⟩ := justified_position hjust heq h
      rw [hseen] at hlatest hcard
      have := hfew p q id₀ t (by rw [hpre', hpre] at hq; exact hq)
        (by rw [hpre', hmid'] at hqj; omega) hlatest
      omega
  · rw [hi] at hj
    exact (Entry.mention.inj (Option.some.inj hj)).2.1

theorem card_others_le (log : List Entry) (id : Nat) (ts : UInt64) :
    (others log id ts).card ≤ log.length :=
  Nat.le_trans (List.toFinset_card_le _) (List.length_filterMap_le _ _)

/-- A process that is seen again after another one came and went. -/
def acrossExit : List Call :=
  [processCall 100 .processExeced 1 0, processCall 200 .processExited 2 0, processCall 100 .unknown 3 0]

theorem keeps_id_acrossExit :
    ∃ id, (history acrossExit)[0]? = some (.mention 100 id 1) ∧
      (history acrossExit)[3]? = some (.mention 100 id 3) := by
  have hfirst : (history acrossExit)[0]? = some (.mention 100 1 1) := by decide
  have hlast : (history acrossExit)[3]? = some (.mention 100 1 3) := by decide
  have hlen : (history acrossExit).length = 4 := by decide
  have hsame : SameStarts acrossExit := sameStarts_of_unreadable (by simp [acrossExit, processCall])
  have hid := keeps_id acrossExit hsame (Nat.zero_le 3) hfirst hlast (by decide) (by
    intro p q id₀ t _ _ _
    have hcard := card_others_le ((history acrossExit).take q) id₀ t
    rw [List.length_take, hlen] at hcard
    unfold kMaxEntries
    omega)
  exact ⟨1, hfirst, hid ▸ hlast⟩

/-! ## Churn

Process 1, and then processes that the registry learns of when they exit. -/

section Churn

/-- The exit of the `n`-th short-lived process. -/
def shortLived (n : Nat) : Call :=
  processCall (UInt32.ofNat (n + 2)) .processExited (UInt64.ofNat (n + 2)) 0

def churn (n : Nat) : List Call :=
  processCall 1 .processExeced 1 0 :: (List.range n).map shortLived

theorem churn_succ (n : Nat) : churn (n + 1) = churn n ++ [shortLived n] := by
  rw [churn, churn, List.range_succ, List.map_append, List.cons_append]
  rfl

variable {r : EntityRegistry}

/-- The identity a process acts under. -/
abbrev task (tgid : UInt32) : ActorIdentity := { pid := tgid, tgid := tgid }

theorem task_key {tgid : UInt32} (h : tgid ≠ 0) : (task tgid).key = tgid := if_pos h

/-- The registry with a process that acts for the first time in it, before eviction. -/
def withTask (r : EntityRegistry) (tgid : UInt32) (ts : UInt64) : EntityRegistry :=
  r.add (newProcess {} (task tgid).key (task tgid) ts r.nextId)

theorem processCall_resolved {tgid : UInt32} (hkey : tgid ≠ 0) (action : CanonicalAction) (ts : UInt64)
    (hindex : r.tgidIndex.lookup tgid = none) :
    (processCall tgid action ts 0).resolved r =
      (evictIfNeeded default (withTask r tgid ts), r.nextId) := by
  have hnew := resolveProcess_new {} (task tgid) ts (action == .processExeced) (r := r)
    ((task_key hkey).symm ▸ hkey) ((task_key hkey).symm ▸ hindex)
  rw [createProcess_eq] at hnew
  exact hnew

theorem withTask_stored (r : EntityRegistry) {tgid : UInt32} (hkey : tgid ≠ 0) (ts : UInt64) :
    ∃ e, (withTask r tgid ts).findProcess r.nextId = some e ∧ e.exited = false ∧ e.key = tgid ∧
      e.lastSeenNs = ts := by
  obtain ⟨-, hk, hlive, -, hseen⟩ := newProcess_spec {} (task tgid).key (task tgid) ts r.nextId
  refine ⟨_, ?_, hlive, hk.trans (task_key hkey), hseen⟩
  rw [withTask, add_findProcess, if_pos rfl]

theorem withTask_lookup (r : EntityRegistry) {tgid : UInt32} (hkey : tgid ≠ 0) (ts : UInt64)
    (k : UInt32) :
    (withTask r tgid ts).tgidIndex.lookup k =
      if k = tgid then some r.nextId else r.tgidIndex.lookup k := by
  rw [withTask, add_lookup, (newProcess_spec _ _ _ _ _).2.1, task_key hkey]

theorem withTask_findProcess (r : EntityRegistry) (tgid : UInt32) (ts : UInt64) {id : Nat}
    (hid : id ≠ r.nextId) : (withTask r tgid ts).findProcess id = r.findProcess id := by
  rw [withTask, add_findProcess, if_neg hid]

theorem withTask_consistent (hr : r.Consistent) {tgid : UInt32} (hkey : tgid ≠ 0) (ts : UInt64)
    (hindex : r.tgidIndex.lookup tgid = none) : (withTask r tgid ts).Consistent :=
  (withNew_edit {} (task tgid) ts ((task_key hkey).symm ▸ hindex)).consistent hr

theorem processCall_next {tgid : UInt32} (hkey : tgid ≠ 0) {action : CanonicalAction}
    (hexit : action ≠ .processExited) (ts : UInt64) (hindex : r.tgidIndex.lookup tgid = none) :
    (processCall tgid action ts 0).next r = evictIfNeeded default (withTask r tgid ts) := by
  have hstart : ¬(processCall tgid action ts 0).StartsChild := fun h => h.2 rfl
  have hexit' : (processCall tgid action ts 0).ev.action ≠ .processExited := hexit
  rw [Call.next_eq, Call.acted, if_neg hexit', if_neg hstart, processCall_resolved hkey action ts hindex]
  rfl

/-- The registry after a process nobody has heard of exits: its entity stays, exited, in what eviction
leaves. -/
theorem exit_next {tgid : UInt32} (hkey : tgid ≠ 0) (ts : UInt64)
    (hindex : r.tgidIndex.lookup tgid = none) {kept : EntityRegistry} (hkeptc : kept.Consistent)
    (hkept : evictIfNeeded default (withTask r tgid ts) = kept) {e : ProcessEntity}
    (hstored : kept.findProcess r.nextId = some e) (hlive : e.exited = false) (hk : e.key = tgid) :
    (processCall tgid .processExited ts 0).next r =
      (kept.store r.nextId { e with exited := true, exitNs := ts, exitCode := 0 }).unindex tgid := by
  have hres := processCall_resolved hkey .processExited ts hindex
  rw [hkept] at hres
  have hmark := markExited_eq ts hkeptc hstored hlive 0
  rw [hk] at hmark
  have haction : (processCall tgid .processExited ts 0).ev.action = .processExited := rfl
  rw [Call.next_eq, Call.acted, if_pos haction, hres]
  exact hmark

/-- The registry while it still has room, after `n` short-lived processes. -/
structure Churned (n : Nat) (r : EntityRegistry) : Prop where
  consistent : r.Consistent
  next : r.nextId = n + 2
  count : r.processCount = n + 1
  index : ∀ key, r.tgidIndex.lookup key = if key = 1 then some 1 else none
  seen : ∃ e, r.findProcess 1 = some e ∧ e.exited = false ∧ e.key = 1 ∧ e.lastSeenNs = 1
  later : ∀ id e, r.findProcess id = some e → id ≠ 1 → 1 < e.lastSeenNs

theorem shortLived_ne {n : Nat} (hn : n < kMaxEntries) :
    UInt32.ofNat (n + 2) ≠ 0 ∧ UInt32.ofNat (n + 2) ≠ 1 ∧ 1 < UInt64.ofNat (n + 2) := by
  unfold kMaxEntries at hn
  refine ⟨?_, ?_, ?_⟩
  · intro h
    have := congrArg UInt32.toNat h
    simp at this
    omega
  · intro h
    have := congrArg UInt32.toNat h
    simp at this
    omega
  · rw [UInt64.lt_iff_toNat_lt]
    simp
    omega

theorem Churned.shortLived {n : Nat} (h : Churned n r) (hroom : n + 1 < kMaxEntries) :
    Churned (n + 1) ((EntityRegistry.shortLived n).next r) := by
  obtain ⟨hzero, hone, hts⟩ := shortLived_ne (n := n) (by omega)
  generalize htgid : UInt32.ofNat (n + 2) = tgid at hzero hone
  generalize hstamp : UInt64.ofNat (n + 2) = ts at hts
  have hindex : r.tgidIndex.lookup tgid = none := by rw [h.index, if_neg hone]
  have hcons := withTask_consistent h.consistent hzero ts hindex
  have hcount := h.consistent.processCount_add (newProcess {} (task tgid).key (task tgid) ts r.nextId)
  change (withTask r tgid ts).processCount = _ at hcount
  rw [h.count] at hcount
  have hkept : evictIfNeeded default (withTask r tgid ts) = withTask r tgid ts :=
    if_pos (by change (withTask r tgid ts).processCount ≤ _; omega)
  obtain ⟨e, hstored, hlive, hk, hseen⟩ := withTask_stored r hzero ts
  have hnext := exit_next hzero ts hindex hcons hkept hstored hlive hk
  have hcall : EntityRegistry.shortLived n = processCall tgid .processExited ts 0 := by
    rw [EntityRegistry.shortLived, htgid, hstamp]
  rw [hcall]
  have hne : (1 : Nat) ≠ r.nextId := by
    rw [h.next]
    omega
  refine ⟨((Call.next_logs _ h.consistent).consistent h.consistent), ?_, ?_, ?_, ?_, ?_⟩
  · rw [hnext, unindex_nextId, store_nextId, withTask, add_nextId, h.next]
  · rw [hnext]
    exact (processCount_store _ hstored _).trans hcount
  · intro key
    rw [hnext, unindex_lookup, store_tgidIndex, withTask_lookup r hzero]
    split_ifs with h1 h2
    · exact absurd (h1.symm.trans h2) hone
    · rfl
    · rw [h.index, if_pos ‹_›]
    · rw [h.index, if_neg ‹_›]
  · obtain ⟨f, hf, hrest⟩ := h.seen
    refine ⟨f, ?_, hrest⟩
    rw [hnext, unindex_findProcess, findProcess_store, if_neg hne, withTask_findProcess r tgid ts hne, hf]
  · intro id f hf hid
    rw [hnext, unindex_findProcess, findProcess_store] at hf
    split_ifs at hf with hnew
    · obtain rfl := Option.some.inj hf
      exact hseen ▸ hts
    · rw [withTask_findProcess r tgid ts hnew] at hf
      exact h.later id f hf hid

theorem one_ne : (1 : UInt32) ≠ 0 := by decide

theorem churned_zero : Churned 0 (run (churn 0)) := by
  have hkept : run (churn 0) = withTask {} 1 1 := by
    change (processCall 1 .processExeced 1 0).next {} = _
    rw [processCall_next one_ne (by decide) 1 rfl]
    exact if_pos (by decide)
  have hcons := withTask_consistent consistent_empty one_ne 1 rfl
  refine ⟨hkept ▸ hcons, by rw [hkept]; rfl, by rw [hkept]; rfl, ?_, ?_, ?_⟩
  · intro key
    rw [hkept, withTask_lookup {} (by decide)]
    rfl
  · rw [hkept]
    exact withTask_stored {} (by decide) 1
  · intro id e he hid
    rw [hkept, withTask_findProcess {} 1 1 hid] at he
    simp [findProcess] at he

theorem run_churned {n : Nat} (hn : n < kMaxEntries) : Churned n (run (churn n)) := by
  induction n with
  | zero => exact churned_zero
  | succ n ih =>
    rw [churn_succ, run_snoc]
    exact (ih (by omega)).shortLived hn

/-- With the store full, the next short-lived process pushes out the one seen least recently: the only
live one. -/
theorem Churned.evicts (h : Churned (kMaxEntries - 1) r) :
    ((EntityRegistry.shortLived (kMaxEntries - 1)).next r).nextId = kMaxEntries + 2 ∧
      ∀ key, ((EntityRegistry.shortLived (kMaxEntries - 1)).next r).tgidIndex.lookup key = none := by
  obtain ⟨hzero, hone, hts⟩ := shortLived_ne (n := kMaxEntries - 1) (by decide)
  generalize htgid : UInt32.ofNat (kMaxEntries - 1 + 2) = tgid at hzero hone
  generalize hstamp : UInt64.ofNat (kMaxEntries - 1 + 2) = ts at hts
  have hnextId : r.nextId = kMaxEntries + 1 := h.next
  have hindex : r.tgidIndex.lookup tgid = none := by rw [h.index, if_neg hone]
  have hcons := withTask_consistent h.consistent hzero ts hindex
  have hcount := h.consistent.processCount_add (newProcess {} (task tgid).key (task tgid) ts r.nextId)
  change (withTask r tgid ts).processCount = _ at hcount
  have hfull : r.processCount = kMaxEntries := h.count
  have hne : (1 : Nat) ≠ r.nextId := by
    rw [hnextId]
    decide
  obtain ⟨e, hstored, hlive, hk, hseen⟩ := withTask_stored r hzero ts
  obtain ⟨f, hf, hflive, hfk, hfseen⟩ := h.seen
  have hf' : (withTask r tgid ts).findProcess 1 = some f := by
    rw [withTask_findProcess r tgid ts hne, hf]
  have hkept : evictIfNeeded default (withTask r tgid ts) = ((withTask r tgid ts).unindex 1).drop 1 := by
    rcases evictIfNeeded_cases hcons default with ⟨-, hle⟩ | ⟨id, v, -, hv, hleast, heq⟩
    · omega
    · have hid : id = 1 := by
        by_contra hid
        have hle := hleast 1 f hf'
        rw [hfseen] at hle
        have hlt : 1 < v.lastSeenNs := by
          by_cases hnew : id = r.nextId
          · subst hnew
            rw [hstored] at hv
            obtain rfl := Option.some.inj hv
            exact hseen ▸ hts
          · rw [withTask_findProcess r tgid ts hnew] at hv
            exact h.later id v hv hid
        exact absurd hle (UInt64.not_le.mpr hlt)
      subst hid
      rw [hf'] at hv
      obtain rfl := Option.some.inj hv
      rw [heq, hflive, hfk]
      rfl
  have hkeptc : (((withTask r tgid ts).unindex 1).drop 1).Consistent := hfk ▸ hcons.evict hf' hflive
  have hstored' : (((withTask r tgid ts).unindex 1).drop 1).findProcess r.nextId = some e := by
    rw [drop_findProcess, if_neg (Ne.symm hne), unindex_findProcess, hstored]
  have hnext := exit_next hzero ts hindex hkeptc hkept hstored' hlive hk
  have hcall : EntityRegistry.shortLived (kMaxEntries - 1) = processCall tgid .processExited ts 0 := by
    rw [EntityRegistry.shortLived, htgid, hstamp]
  rw [hcall, hnext]
  refine ⟨?_, fun key => ?_⟩
  · rw [unindex_nextId, store_nextId, drop_nextId, unindex_nextId, withTask, add_nextId, hnextId]
  · rw [unindex_lookup, store_tgidIndex, drop_tgidIndex, unindex_lookup, withTask_lookup r hzero]
    split_ifs with h1 h2
    · rfl
    · rfl
    · rw [h.index, if_neg h2]

theorem shortLived_history (n : Nat) (hn : n < kMaxEntries) (r : EntityRegistry) :
    Entry.exited 1 ∉ (EntityRegistry.shortLived n).history r := by
  obtain ⟨hzero, hone, -⟩ := shortLived_ne hn
  have hkey : (EntityRegistry.shortLived n).ev.actor.key = UInt32.ofNat (n + 2) := task_key hzero
  have hexit : (EntityRegistry.shortLived n).ev.action = .processExited := rfl
  have hstart : ¬(EntityRegistry.shortLived n).StartsChild := by
    rintro ⟨h, -⟩
    cases h
  generalize UInt32.ofNat (n + 2) = tgid at hzero hone hkey
  unfold Call.history
  rw [hkey, if_neg hzero, if_pos hexit, if_neg hstart]
  simp [Ne.symm hone]

theorem churn_history {n : Nat} (hn : n ≤ kMaxEntries) :
    ∃ rest, history (churn n) = .mention 1 1 1 :: rest ∧ Entry.exited 1 ∉ rest := by
  induction n with
  | zero => exact ⟨[], by decide, List.not_mem_nil⟩
  | succ n ih =>
    obtain ⟨rest, hrest, hnot⟩ := ih (by omega)
    refine ⟨rest ++ (shortLived n).history (run (churn n)), ?_, fun hm => ?_⟩
    · rw [churn_succ, history_snoc, hrest, List.cons_append]
    · rcases List.mem_append.mp hm with hm | hm
      · exact hnot hm
      · exact shortLived_history n hn _ hm

/-- Process 1, one short-lived process more than the store has room for, and process 1 again. -/
def churnRun : List Call := churn kMaxEntries ++ [processCall 1 .unknown 10000 0]

theorem prefix_churn {n : Nat} {pre : List Call} (h : pre <+: churn n) :
    pre = [] ∨ ∃ m ≤ n, pre = churn m := by
  induction n with
  | zero =>
    rcases List.prefix_concat_iff.mp (show pre <+: [] ++ [processCall 1 .processExeced 1 0] from h) with
      rfl | h
    · exact Or.inr ⟨0, Nat.le_refl 0, rfl⟩
    · exact Or.inl (List.prefix_nil.mp h)
  | succ n ih =>
    rw [churn_succ] at h
    rcases List.prefix_concat_iff.mp h with rfl | h
    · exact Or.inr ⟨n + 1, Nat.le_refl _, (churn_succ n).symm⟩
    · rcases ih h with rfl | ⟨m, hm, rfl⟩
      · exact Or.inl rfl
      · exact Or.inr ⟨m, Nat.le_succ_of_le hm, rfl⟩

theorem churn_full :
    (run (churn kMaxEntries)).nextId = kMaxEntries + 2 ∧
      ∀ key, (run (churn kMaxEntries)).tgidIndex.lookup key = none := by
  have hrun : run (churn kMaxEntries) =
      (shortLived (kMaxEntries - 1)).next (run (churn (kMaxEntries - 1))) := by
    rw [← run_snoc, ← churn_succ]
    rfl
  rw [hrun]
  exact (run_churned (by decide)).evicts

/-- After none of the calls any other process than number 1 is un-exited. -/
theorem churnRun_live {pre : List Call} (h : pre <+: churnRun) (id : Nat) (e : ProcessEntity)
    (he : (run pre).findProcess id = some e) (hlive : e.exited = false) : e.key = 1 := by
  have hlook := (run_consistent pre).live id e he hlive
  rcases List.prefix_concat_iff.mp h with rfl | h
  · have hcons := run_consistent (churn kMaxEntries)
    have hlook' : (run churnRun).tgidIndex.lookup e.key = some id := hlook
    rw [churnRun, run_snoc, processCall_next one_ne (by decide) 10000 (churn_full.2 1)] at hlook'
    have hmid := evictIfNeeded_lookup
      (withTask_consistent hcons one_ne 10000 (churn_full.2 1)) default hlook'
    rw [withTask_lookup _ one_ne] at hmid
    by_contra hkey
    rw [if_neg hkey, churn_full.2] at hmid
    cases hmid
  · rcases prefix_churn h with rfl | ⟨m, hm, rfl⟩
    · simp [run, findProcess] at he
    · rcases Nat.lt_or_eq_of_le hm with hlt | rfl
      · rw [(run_churned hlt).index] at hlook
        by_contra hkey
        rw [if_neg hkey] at hlook
        cases hlook
      · rw [churn_full.2] at hlook
        cases hlook

theorem churnRun_times : (churnRun.map fun c => c.ev.tsNs).Pairwise (· < ·) := by
  have hmap : churnRun.map (fun c => c.ev.tsNs) =
      1 :: ((List.range kMaxEntries).map fun n => UInt64.ofNat (n + 2)) ++ [10000] := by
    unfold churnRun churn
    rw [List.map_append, List.map_cons, List.map_map]
    rfl
  have hbound : ∀ n ∈ List.range kMaxEntries, 1 < UInt64.ofNat (n + 2) ∧ UInt64.ofNat (n + 2) < 10000 := by
    intro n hn
    have hlt := List.mem_range.mp hn
    unfold kMaxEntries at hlt
    refine ⟨(shortLived_ne hlt).2.2, ?_⟩
    rw [UInt64.lt_iff_toNat_lt]
    simp
    omega
  rw [hmap, List.pairwise_append, List.pairwise_cons, List.pairwise_map]
  refine ⟨⟨?_, ?_⟩, by simp, ?_⟩
  · intro t ht
    obtain ⟨n, hn, rfl⟩ := List.mem_map.mp ht
    exact (hbound n hn).1
  · refine List.Pairwise.imp_of_mem ?_ List.pairwise_lt_range
    intro n m hn hm hlt
    have hn' := List.mem_range.mp hn
    have hm' := List.mem_range.mp hm
    unfold kMaxEntries at hn' hm'
    rw [UInt64.lt_iff_toNat_lt]
    simp
    omega
  · intro t ht t' ht'
    obtain rfl := List.mem_singleton.mp ht'
    rcases List.mem_cons.mp ht with rfl | ht
    · decide
    · obtain ⟨n, hn, rfl⟩ := List.mem_map.mp ht
      exact (hbound n hn).2

/-- With increasing timestamps, single-threaded processes whose start times never change and at most one
process un-exited after any call, process 1 does not exit and is given a second id. -/
theorem not_keeps_id :
    (churnRun.map fun c => c.ev.tsNs).Pairwise (· < ·) ∧
      (∀ c ∈ churnRun, c.ev.actor.pid = c.ev.actor.tgid) ∧ SameStarts churnRun ∧
      (∀ pre, pre <+: churnRun → ∀ id e, (run pre).findProcess id = some e → e.exited = false →
        e.key = 1) ∧
      Entry.exited 1 ∉ history churnRun ∧
      (history churnRun).head? = some (.mention 1 1 1) ∧
      (history churnRun).getLast? = some (.mention 1 8194 10000) := by
  have hcall : ∀ c ∈ churnRun, ∃ tgid action ts, c = processCall tgid action ts 0 := by
    intro c hc
    rcases List.mem_append.mp hc with hc | hc
    · rcases List.mem_cons.mp hc with rfl | hc
      · exact ⟨_, _, _, rfl⟩
      · obtain ⟨n, -, rfl⟩ := List.mem_map.mp hc
        exact ⟨_, _, _, rfl⟩
    · exact ⟨_, _, _, List.mem_singleton.mp hc⟩
  have hlast : (processCall 1 .unknown 10000 0).history (run (churn kMaxEntries)) =
      [.mention 1 8194 10000] := by
    rw [Call.history, Call.out_subject, processCall_resolved one_ne .unknown 10000 (churn_full.2 1),
      churn_full.1]
    rfl
  obtain ⟨rest, hrest, hnot⟩ := churn_history (Nat.le_refl kMaxEntries)
  have hhist : history churnRun = .mention 1 1 1 :: rest ++ [.mention 1 8194 10000] := by
    rw [churnRun, history_snoc, hrest, hlast]
  refine ⟨churnRun_times, ?_, ?_, fun pre hpre => churnRun_live hpre, ?_, ?_, ?_⟩
  · intro c hc
    obtain ⟨tgid, action, ts, rfl⟩ := hcall c hc
    rfl
  · refine sameStarts_of_unreadable fun c hc => ?_
    obtain ⟨tgid, action, ts, rfl⟩ := hcall c hc
    exact ⟨rfl, rfl⟩
  · rw [hhist]
    simp [hnot]
  · rw [hhist]
    rfl
  · rw [hhist, List.getLast?_append]
    rfl

end Churn

end ETraceGen.EntityRegistry
