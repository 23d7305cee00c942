import Mathlib.Order.Interval.Finset.Nat
import ETraceGen.Registry.Ingest

/-!
# The edits of the registry

Everything an `Ingest` does to the two maps is a sequence of edits: an indexed entity is seen again,
an entity is created, retired, evicted or amended. `Consistent` is what the maps agree on, every edit
keeps it, and from a consistent registry every function of the registry is a sequence of edits. The
entries an edit leaves behind are the log the later modules reason about.
-/

namespace ETraceGen.EntityRegistry

/-! ## Lookups -/

section Lookups
variable (r : EntityRegistry)

@[simp] theorem findProcess_store (id k : Nat) (e : ProcessEntity) :
    (r.store id e).findProcess k = if k = id then some e else r.findProcess k :=
  KeyedMap.lookup_insert_ite _ _ _ _

@[simp] theorem store_tgidIndex (id : Nat) (e : ProcessEntity) :
    (r.store id e).tgidIndex = r.tgidIndex := rfl

@[simp] theorem store_nextId (id : Nat) (e : ProcessEntity) : (r.store id e).nextId = r.nextId := rfl

theorem store_store (id : Nat) (e e' : ProcessEntity) : (r.store id e).store id e' = r.store id e' := by
  unfold store
  rw [AList.insert_insert]

theorem processCount_store {id : Nat} {e : ProcessEntity} (h : r.findProcess id = some e)
    (e' : ProcessEntity) : (r.store id e').processCount = r.processCount :=
  KeyedMap.size_insert_of_mem e' (KeyedMap.mem_of_lookup h)

/-- Take the index entry of a key away. -/
def unindex (key : UInt32) : EntityRegistry := { r with tgidIndex := r.tgidIndex.erase key }

/-- Take the entity stored under an id away. -/
def drop (id : Nat) : EntityRegistry := { r with processesById := r.processesById.erase id }

/-- Store a new entity under the next id, and index it. -/
def add (e : ProcessEntity) : EntityRegistry where
  processesById := r.processesById.insert r.nextId e
  tgidIndex := r.tgidIndex.insert e.key r.nextId
  nextId := r.nextId + 1

@[simp] theorem unindex_lookup (key k : UInt32) :
    (r.unindex key).tgidIndex.lookup k = if k = key then none else r.tgidIndex.lookup k :=
  KeyedMap.lookup_erase_ite _ _ _

@[simp] theorem unindex_findProcess (key : UInt32) (id : Nat) :
    (r.unindex key).findProcess id = r.findProcess id := rfl

@[simp] theorem unindex_nextId (key : UInt32) : (r.unindex key).nextId = r.nextId := rfl

@[simp] theorem drop_findProcess (id k : Nat) :
    (r.drop id).findProcess k = if k = id then none else r.findProcess k :=
  KeyedMap.lookup_erase_ite _ _ _

@[simp] theorem drop_tgidIndex (id : Nat) : (r.drop id).tgidIndex = r.tgidIndex := rfl

@[simp] theorem drop_nextId (id : Nat) : (r.drop id).nextId = r.nextId := rfl

@[simp] theorem add_findProcess (e : ProcessEntity) (k : Nat) :
    (r.add e).findProcess k = if k = r.nextId then some e else r.findProcess k :=
  KeyedMap.lookup_insert_ite _ _ _ _

@[simp] theorem add_lookup (e : ProcessEntity) (k : UInt32) :
    (r.add e).tgidIndex.lookup k = if k = e.key then some r.nextId else r.tgidIndex.lookup k :=
  KeyedMap.lookup_insert_ite _ _ _ _

@[simp] theorem add_nextId (e : ProcessEntity) : (r.add e).nextId = r.nextId + 1 := rfl

end Lookups

/-! ## Consistency -/

/-- The two maps agree: every entity is stored under its own id, an id that was issued; exactly the
entities that have not exited are indexed, each under its own key; a parent is an id that was issued,
or 0. -/
structure Consistent (r : EntityRegistry) : Prop where
  own_id : ∀ id e, r.findProcess id = some e → e.id = id ∧ 0 < id ∧ id < r.nextId
  indexed : ∀ key id, r.tgidIndex.lookup key = some id →
    ∃ e, r.findProcess id = some e ∧ e.exited = false ∧ e.key = key
  live : ∀ id e, r.findProcess id = some e → e.exited = false → r.tgidIndex.lookup e.key = some id
  parent : ∀ id e, r.findProcess id = some e → e.parentId < r.nextId
  pos : 0 < r.nextId

theorem consistent_empty : Consistent {} := by
  refine ⟨?_, ?_, ?_, ?_, Nat.one_pos⟩
  · intro id e h
    simp [findProcess] at h
  · intro key id h
    simp at h
  · intro id e h
    simp [findProcess] at h
  · intro id e h
    simp [findProcess] at h

namespace Consistent

variable {r : EntityRegistry}

/-- An indexed entity is live, and of its key. -/
theorem of_indexed (hr : r.Consistent) {key : UInt32} {id : Nat} {e : ProcessEntity}
    (hindex : r.tgidIndex.lookup key = some id) (hstored : r.findProcess id = some e) :
    e.exited = false ∧ e.key = key := by
  obtain ⟨f, hf, hlive, hkey⟩ := hr.indexed key id hindex
  rw [hstored] at hf
  obtain rfl := Option.some.inj hf
  exact ⟨hlive, hkey⟩

/-- No two live entities are of one key. -/
theorem live_inj (hr : r.Consistent) {id id' : Nat} {e e' : ProcessEntity}
    (h : r.findProcess id = some e) (hlive : e.exited = false) (h' : r.findProcess id' = some e')
    (hlive' : e'.exited = false) (hkey : e.key = e'.key) : id = id' := by
  have hindex := hr.live id e h hlive
  rw [hkey, hr.live id' e' h' hlive'] at hindex
  exact (Option.some.inj hindex).symm

/-- No id is indexed twice. -/
theorem index_inj (hr : r.Consistent) {key key' : UInt32} {id : Nat}
    (h : r.tgidIndex.lookup key = some id) (h' : r.tgidIndex.lookup key' = some id) : key = key' := by
  obtain ⟨e, he, -, hk⟩ := hr.indexed key id h
  exact hk.symm.trans (hr.of_indexed h' he).2

theorem lookup_lt (hr : r.Consistent) {key : UInt32} {id : Nat}
    (h : r.tgidIndex.lookup key = some id) : 0 < id ∧ id < r.nextId := by
  obtain ⟨e, he, -⟩ := hr.indexed key id h
  exact (hr.own_id id e he).2

theorem findProcess_nextId (hr : r.Consistent) : r.findProcess r.nextId = none := by
  cases h : r.findProcess r.nextId with
  | none => rfl
  | some e => exact absurd (hr.own_id _ e h).2.2 (Nat.lt_irrefl _)

theorem processCount_add (hr : r.Consistent) (e : ProcessEntity) :
    (r.add e).processCount = r.processCount + 1 := by
  refine KeyedMap.size_insert_of_notMem _ fun hmem => ?_
  obtain ⟨f, hf⟩ := KeyedMap.exists_lookup hmem
  have hnone := hr.findProcess_nextId
  unfold findProcess at hnone
  rw [hnone] at hf
  cases hf

/-- Every index entry stands for an entity of its own. -/
theorem index_size_le (hr : r.Consistent) : r.tgidIndex.size ≤ r.processCount := by
  refine KeyedMap.size_le_of_injOn (fun key => (r.tgidIndex.lookup key).getD 0) ?_ ?_
  · intro key hkey
    obtain ⟨id, hid⟩ := KeyedMap.exists_lookup hkey
    obtain ⟨e, he, -⟩ := hr.indexed key id hid
    rw [hid, Option.getD_some]
    exact KeyedMap.mem_of_lookup he
  · intro key hkey key' hkey' h
    obtain ⟨id, hid⟩ := KeyedMap.exists_lookup hkey
    obtain ⟨id', hid'⟩ := KeyedMap.exists_lookup hkey'
    simp only [hid, hid', Option.getD_some] at h
    exact hr.index_inj hid (h ▸ hid')

/-- Fewer entities are stored than ids were issued, 0 being no id. -/
theorem processCount_lt (hr : r.Consistent) : r.processCount < r.nextId := by
  have hsub : r.processesById.keys.toFinset ⊆ Finset.Ioo 0 r.nextId := by
    intro id hid
    obtain ⟨e, he⟩ := KeyedMap.exists_lookup (List.mem_toFinset.mp hid)
    exact Finset.mem_Ioo.mpr (hr.own_id id e he).2
  have hcard := Finset.card_le_card hsub
  rw [List.toFinset_card_of_nodup r.processesById.keys_nodup, Nat.card_Ioo] at hcard
  have hpos := hr.pos
  unfold processCount KeyedMap.size
  omega

end Consistent

/-! ## Edits -/

/-- What is written down about the registry: a key was mentioned and `id` attached, an exit of the
key was handled, or the registry gave the key's entity up by itself. -/
inductive Entry where
  | mention (key : UInt32) (id : Nat) (tsNs : UInt64)
  | exited (key : UInt32)
  | reused (key : UInt32)
  | evicted (key : UInt32) (id : Nat)
  deriving DecidableEq

/-- The entity is still the same one, as the maps see it. -/
structure SameEntity (e e' : ProcessEntity) : Prop where
  id : e'.id = e.id
  key : e'.key = e.key
  first : e'.firstSeenNs = e.firstSeenNs

inductive Edit (r : EntityRegistry) : List Entry → EntityRegistry → Prop where
  | see {key : UInt32} {id : Nat} {e e' : ProcessEntity} (hindex : r.tgidIndex.lookup key = some id)
      (hstored : r.findProcess id = some e) (hsame : SameEntity e e') (hexit : e'.exited = e.exited)
      (hparent : e'.parentId = e.parentId) : Edit r [.mention key id e'.lastSeenNs] (r.store id e')
  | create {e : ProcessEntity} (hindex : r.tgidIndex.lookup e.key = none) (hid : e.id = r.nextId)
      (hlive : e.exited = false) (hparent : e.parentId = 0) :
      Edit r [.mention e.key r.nextId e.lastSeenNs] (r.add e)
  | retire {entry : Entry} {id : Nat} {e e' : ProcessEntity} (hstored : r.findProcess id = some e)
      (hlive : e.exited = false) (hsame : SameEntity e e') (hexit : e'.exited = true)
      (hparent : e'.parentId = e.parentId) (hseen : e'.lastSeenNs = e.lastSeenNs)
      (hentry : entry = .exited e.key ∨ entry = .reused e.key) :
      Edit r [entry] ((r.store id e').unindex e.key)
  | exitGone {key : UInt32} (hindex : r.tgidIndex.lookup key = none) : Edit r [.exited key] r
  | evictLive {id : Nat} {e : ProcessEntity} (hstored : r.findProcess id = some e)
      (hlive : e.exited = false) (hover : kMaxEntries < r.processCount)
      (hleast : ∀ id' e', r.findProcess id' = some e' → e.lastSeenNs ≤ e'.lastSeenNs) :
      Edit r [.evicted e.key id] ((r.unindex e.key).drop id)
  | evictExited {id : Nat} {e : ProcessEntity} (hstored : r.findProcess id = some e)
      (hexited : e.exited = true) : Edit r [] (r.drop id)
  | amend {id : Nat} {e e' : ProcessEntity} (hstored : r.findProcess id = some e)
      (hsame : SameEntity e e') (hexit : e'.exited = e.exited) (hparent : e'.parentId < r.nextId)
      (hseen : e'.lastSeenNs = e.lastSeenNs) : Edit r [] (r.store id e')

/-- A sequence of edits, with the entries they leave behind in order. -/
inductive Edits (r : EntityRegistry) : List Entry → EntityRegistry → Prop where
  | refl : Edits r [] r
  | tail {log more : List Entry} {r' r'' : EntityRegistry} (h : Edits r log r')
      (he : Edit r' more r'') : Edits r (log ++ more) r''

theorem Edit.edits {r r' : EntityRegistry} {log : List Entry} (h : Edit r log r') : Edits r log r' :=
  Edits.tail .refl h

theorem Edits.trans {r r' r'' : EntityRegistry} {log more : List Entry} (h : Edits r log r')
    (h' : Edits r' more r'') : Edits r (log ++ more) r'' := by
  induction h' with
  | refl => rwa [List.append_nil]
  | tail _ he ih =>
    rw [← List.append_assoc]
    exact ih.tail he

/-! ## Every edit keeps the registry consistent -/

/-- Overwriting a stored entity by one that is still the same. -/
theorem Consistent.store {r : EntityRegistry} (hr : r.Consistent) {id : Nat} {e e' : ProcessEntity}
    (hstored : r.findProcess id = some e) (hsame : SameEntity e e') (hexit : e'.exited = e.exited)
    (hparent : e'.parentId < r.nextId) : (r.store id e').Consistent := by
  refine ⟨?_, ?_, ?_, ?_, hr.pos⟩
  · intro k f h
    rw [findProcess_store] at h
    split_ifs at h with hk
    · obtain rfl := Option.some.inj h
      rw [hsame.id, hk]
      exact hr.own_id id e hstored
    · exact hr.own_id k f h
  · intro key k h
    obtain ⟨f, hf, hlive, hkey⟩ := hr.indexed key k h
    rw [findProcess_store]
    split_ifs with hk
    · subst hk
      obtain ⟨hold, hkeyOld⟩ := hr.of_indexed h hstored
      exact ⟨e', rfl, hexit.trans hold, hsame.key.trans hkeyOld⟩
    · exact ⟨f, hf, hlive, hkey⟩
  · intro k f h hlive
    rw [findProcess_store] at h
    split_ifs at h with hk
    · obtain rfl := Option.some.inj h
      rw [store_tgidIndex, hsame.key, hk]
      exact hr.live id e hstored (hexit ▸ hlive)
    · exact hr.live k f h hlive
  · intro k f h
    rw [findProcess_store] at h
    split_ifs at h
    · obtain rfl := Option.some.inj h
      exact hparent
    · exact hr.parent k f h

theorem Consistent.add {r : EntityRegistry} (hr : r.Consistent) {e : ProcessEntity}
    (hid : e.id = r.nextId) (hlive : e.exited = false)
    (hparent : e.parentId = 0) (hindex : r.tgidIndex.lookup e.key = none) : (r.add e).Consistent := by
  refine ⟨?_, ?_, ?_, ?_, Nat.succ_pos _⟩
  · intro k f h
    rw [add_findProcess] at h
    rw [add_nextId]
    split_ifs at h with hk
    · obtain rfl := Option.some.inj h
      have := hr.pos
      omega
    · have := hr.own_id k f h
      omega
  · intro key k h
    rw [add_lookup] at h
    split_ifs at h with hk
    · obtain rfl := Option.some.inj h
      rw [add_findProcess, if_pos rfl]
      exact ⟨e, rfl, hlive, hk.symm⟩
    · obtain ⟨f, hf, hflive, hkey⟩ := hr.indexed key k h
      have hne : k ≠ r.nextId := Nat.ne_of_lt (hr.own_id k f hf).2.2
      rw [add_findProcess, if_neg hne]
      exact ⟨f, hf, hflive, hkey⟩
  · intro k f h hflive
    rw [add_findProcess] at h
    rw [add_lookup]
    split_ifs at h with hk
    · obtain rfl := Option.some.inj h
      rw [if_pos rfl, hk]
    · have hlook := hr.live k f h hflive
      rw [if_neg, hlook]
      intro hkey
      rw [hkey, hindex] at hlook
      cases hlook
  · intro k f h
    rw [add_findProcess] at h
    rw [add_nextId]
    split_ifs at h
    · obtain rfl := Option.some.inj h
      omega
    · have := hr.parent k f h
      omega

/-- Marking an entity exited and taking its index entry away. -/
theorem Consistent.retire {r : EntityRegistry} (hr : r.Consistent) {id : Nat} {e e' : ProcessEntity}
    (hstored : r.findProcess id = some e) (hlive : e.exited = false) (hsame : SameEntity e e')
    (hexit : e'.exited = true) (hparent : e'.parentId = e.parentId) :
    ((r.store id e').unindex e.key).Consistent := by
  have hlook := hr.live id e hstored hlive
  refine ⟨?_, ?_, ?_, ?_, hr.pos⟩
  · intro k f h
    rw [unindex_findProcess, findProcess_store] at h
    split_ifs at h with hk
    · obtain rfl := Option.some.inj h
      rw [hsame.id, hk]
      exact hr.own_id id e hstored
    · exact hr.own_id k f h
  · intro key k h
    rw [unindex_lookup] at h
    split_ifs at h with hkey
    rw [unindex_findProcess, findProcess_store, if_neg]
    · exact hr.indexed key k h
    · rintro rfl
      exact hkey (hr.index_inj h hlook)
  · intro k f h hflive
    rw [unindex_findProcess, findProcess_store] at h
    split_ifs at h with hk
    · obtain rfl := Option.some.inj h
      rw [hexit] at hflive
      cases hflive
    · rw [unindex_lookup, if_neg]
      · exact hr.live k f h hflive
      · exact fun hkey => hk (hr.live_inj h hflive hstored hlive hkey)
  · intro k f h
    rw [unindex_findProcess, findProcess_store] at h
    split_ifs at h
    · obtain rfl := Option.some.inj h
      rw [hparent]
      exact hr.parent id e hstored
    · exact hr.parent k f h

/-- Taking a live entity away with its index entry. -/
theorem Consistent.evict {r : EntityRegistry} (hr : r.Consistent) {id : Nat} {e : ProcessEntity}
    (hstored : r.findProcess id = some e) (hlive : e.exited = false) :
    ((r.unindex e.key).drop id).Consistent := by
  have hlook := hr.live id e hstored hlive
  refine ⟨?_, ?_, ?_, ?_, hr.pos⟩
  · intro k f h
    rw [drop_findProcess] at h
    split_ifs at h
    exact hr.own_id k f h
  · intro key k h
    rw [drop_tgidIndex, unindex_lookup] at h
    split_ifs at h with hkey
    rw [drop_findProcess, if_neg, unindex_findProcess]
    · exact hr.indexed key k h
    · rintro rfl
      exact hkey (hr.index_inj h hlook)
  · intro k f h hflive
    rw [drop_findProcess] at h
    split_ifs at h with hk
    rw [drop_tgidIndex, unindex_lookup, if_neg]
    · exact hr.live k f h hflive
    · exact fun hkey => hk (hr.live_inj h hflive hstored hlive hkey)
  · intro k f h
    rw [drop_findProcess] at h
    split_ifs at h
    exact hr.parent k f h

/-- Taking an exited entity away: no key is indexed to it. -/
theorem Consistent.drop {r : EntityRegistry} (hr : r.Consistent) {id : Nat} {e : ProcessEntity}
    (hstored : r.findProcess id = some e) (hexited : e.exited = true) : (r.drop id).Consistent := by
  refine ⟨?_, ?_, ?_, ?_, hr.pos⟩
  · intro k f h
    rw [drop_findProcess] at h
    split_ifs at h
    exact hr.own_id k f h
  · intro key k h
    obtain ⟨f, hf, hflive, hkey⟩ := hr.indexed key k h
    rw [drop_findProcess, if_neg]
    · exact ⟨f, hf, hflive, hkey⟩
    · rintro rfl
      rw [(hr.of_indexed h hstored).1] at hexited
      cases hexited
  · intro k f h hflive
    rw [drop_findProcess] at h
    split_ifs at h
    exact hr.live k f h hflive
  · intro k f h
    rw [drop_findProcess] at h
    split_ifs at h
    exact hr.parent k f h

theorem Edit.consistent {r r' : EntityRegistry} {log : List Entry} (h : Edit r log r')
    (hr : r.Consistent) : r'.Consistent := by
  cases h with
  | see _ hstored hsame hexit hparent =>
    exact hr.store hstored hsame hexit (hparent ▸ hr.parent _ _ hstored)
  | create hindex hid hlive hparent => exact hr.add hid hlive hparent hindex
  | retire hstored hlive hsame hexit hparent => exact hr.retire hstored hlive hsame hexit hparent
  | exitGone _ => exact hr
  | evictLive hstored hlive => exact hr.evict hstored hlive
  | evictExited hstored hexited => exact hr.drop hstored hexited
  | amend hstored hsame hexit hparent => exact hr.store hstored hsame hexit hparent

theorem Edits.consistent {r r' : EntityRegistry} {log : List Entry} (h : Edits r log r')
    (hr : r.Consistent) : r'.Consistent := by
  induction h with
  | refl => exact hr
  | tail _ he ih => exact he.consistent ih

/-! ## Ids are issued once -/

/-- Everything stored later was stored before, under the same id and as the same entity, or has an id
that had not been issued. -/
structure Extends (r r' : EntityRegistry) : Prop where
  next : r.nextId ≤ r'.nextId
  carried : ∀ id e', r'.findProcess id = some e' →
    (∃ e, r.findProcess id = some e ∧ SameEntity e e') ∨ r.nextId ≤ id

theorem SameEntity.refl (e : ProcessEntity) : SameEntity e e := ⟨rfl, rfl, rfl⟩

theorem SameEntity.trans {e e' e'' : ProcessEntity} (h : SameEntity e e') (h' : SameEntity e' e'') :
    SameEntity e e'' :=
  ⟨h'.id.trans h.id, h'.key.trans h.key, h'.first.trans h.first⟩

theorem Extends.refl (r : EntityRegistry) : Extends r r :=
  ⟨Nat.le_refl _, fun _ e h => Or.inl ⟨e, h, .refl e⟩⟩

theorem Extends.trans {r r' r'' : EntityRegistry} (h : Extends r r') (h' : Extends r' r'') :
    Extends r r'' := by
  refine ⟨Nat.le_trans h.next h'.next, fun id e'' hid => ?_⟩
  rcases h'.carried id e'' hid with ⟨e', he', hsame'⟩ | hle
  · rcases h.carried id e' he' with ⟨e, he, hsame⟩ | hle
    · exact Or.inl ⟨e, he, hsame.trans hsame'⟩
    · exact Or.inr hle
  · exact Or.inr (Nat.le_trans h.next hle)

theorem extends_store {r : EntityRegistry} {id : Nat} {e e' : ProcessEntity}
    (hstored : r.findProcess id = some e) (hsame : SameEntity e e') : Extends r (r.store id e') := by
  refine ⟨Nat.le_refl _, fun k f h => ?_⟩
  rw [findProcess_store] at h
  split_ifs at h with hk
  · obtain rfl := Option.some.inj h
    exact Or.inl ⟨e, hk ▸ hstored, hsame⟩
  · exact Or.inl ⟨f, h, .refl f⟩

theorem extends_drop (r : EntityRegistry) (id : Nat) : Extends r (r.drop id) := by
  refine ⟨Nat.le_refl _, fun k f h => ?_⟩
  rw [drop_findProcess] at h
  split_ifs at h
  exact Or.inl ⟨f, h, .refl f⟩

theorem extends_unindex (r : EntityRegistry) (key : UInt32) : Extends r (r.unindex key) :=
  ⟨Nat.le_refl _, fun _ f h => Or.inl ⟨f, h, .refl f⟩⟩

theorem extends_add (r : EntityRegistry) (e : ProcessEntity) : Extends r (r.add e) := by
  refine ⟨Nat.le_succ _, fun k f h => ?_⟩
  rw [add_findProcess] at h
  split_ifs at h with hk
  · exact Or.inr (Nat.le_of_eq hk.symm)
  · exact Or.inl ⟨f, h, .refl f⟩

theorem Edit.extends {r r' : EntityRegistry} {log : List Entry} (h : Edit r log r') :
    Extends r r' := by
  cases h with
  | see _ hstored hsame => exact extends_store hstored hsame
  | create => exact extends_add r _
  | retire hstored _ hsame => exact (extends_store hstored hsame).trans (extends_unindex _ _)
  | exitGone _ => exact .refl r
  | evictLive => exact (extends_unindex r _).trans (extends_drop _ _)
  | evictExited => exact extends_drop r _
  | amend hstored hsame => exact extends_store hstored hsame

theorem Edits.extends {r r' : EntityRegistry} {log : List Entry} (h : Edits r log r') :
    Extends r r' := by
  induction h with
  | refl => exact .refl r
  | tail _ he ih => exact ih.trans he.extends

end ETraceGen.EntityRegistry
