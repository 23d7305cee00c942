import ETraceGen.Registry.Reachable

/-!
# Where a stored entity comes from

One `Ingest`, seen from a single entity. An entity stored after `ResolveProcess` was stored before and
kept, seen again or retired, or it is the one that was created (`resolveProcess_origin`); one that was
stored before is still stored, or it was evicted (`resolveProcess_fate`). The other steps of the call
write one entity each.
-/

namespace ETraceGen

/-! ## What is written into an entity -/

namespace ProcessEntity

/-- A start time that is known is not read again. -/
theorem refreshRich_startTimeTicks (answers : ProcAnswers) (key : UInt32) {e : ProcessEntity}
    (h : e.startTimeTicks ≠ 0) : (refreshRich answers key e).startTimeTicks = e.startTimeTicks := by
  unfold refreshRich
  dsimp only
  split_ifs <;> rfl

/-- A name that is known is not read again. -/
theorem refreshRich_comm (answers : ProcAnswers) (key : UInt32) {e : ProcessEntity} (h : e.comm ≠ []) :
    (refreshRich answers key e).comm = e.comm := by
  unfold refreshRich
  dsimp only
  split_ifs <;> rfl

section Touched
variable (env : ResolveEnv) (actor : ActorIdentity) (nowNs : UInt64) (refresh : Bool) (e : ProcessEntity)

theorem touched_startTimeTicks (h : e.startTimeTicks ≠ 0) :
    (touched env actor nowNs refresh e).startTimeTicks = e.startTimeTicks := by
  obtain ⟨checked, hchecked⟩ := isReused_snd env.proc.identityStat nowNs e
  unfold touched
  rw [hchecked]
  dsimp only
  split_ifs
  · exact refreshRich_startTimeTicks env.proc actor.key h
  · rfl

theorem touched_credentials :
    (touched env actor nowNs refresh e).uid = actor.uid ∧
      (touched env actor nowNs refresh e).gid = actor.gid := by
  unfold touched
  dsimp only
  split_ifs
  · have huid := refreshRich_keeps ProcessEntity.uid (fun _ _ _ _ _ _ _ => rfl) env.proc actor.key
    have hgid := refreshRich_keeps ProcessEntity.gid (fun _ _ _ _ _ _ _ => rfl) env.proc actor.key
    exact ⟨huid _, hgid _⟩
  · exact ⟨rfl, rfl⟩

end Touched

/-- The entity after `MarkExited`. -/
def markedExited (nowNs : UInt64) (exitCode : Int64) (e : ProcessEntity) : ProcessEntity :=
  { e with exited := true, exitNs := nowNs, exitCode := exitCode }

/-- The entity of a reused key once it is retired. -/
def retired (env : ResolveEnv) (nowNs : UInt64) (e : ProcessEntity) : ProcessEntity :=
  markedExited nowNs 0 (isReused env.proc.identityStat nowNs e).2

/-- The entity after `ResolveChild` gave it a parent, if it had none. -/
def linked (parentId : Nat) (e : ProcessEntity) : ProcessEntity :=
  if e.parentId = 0 then { e with parentId := parentId } else e

/-- The entity after it was offered the path of its exec. -/
def hinted (hint : Bytes) (e : ProcessEntity) : ProcessEntity :=
  if hint ≠ [] ∧ e.execPath = [] then { e with execPath := hint } else e

section Keeps
variable {β : Type} (g : ProcessEntity → β)

/-- What has nothing to do with the exit and the checks is kept by a retirement. -/
theorem retired_keeps (hg : ∀ e checked nowNs exitCode,
      g (markedExited nowNs exitCode { e with lastIdentityCheckNs := checked }) = g e)
    (env : ResolveEnv) (nowNs : UInt64) (e : ProcessEntity) : g (retired env nowNs e) = g e := by
  obtain ⟨checked, hchecked⟩ := isReused_snd env.proc.identityStat nowNs e
  rw [retired, hchecked, hg]

theorem linked_keeps (hg : ∀ e parentId, g { e with parentId := parentId } = g e) (parentId : Nat)
    (e : ProcessEntity) : g (linked parentId e) = g e := by
  unfold linked
  split_ifs
  · exact hg e parentId
  · rfl

theorem hinted_keeps (hg : ∀ e path, g { e with execPath := path } = g e) (hint : Bytes)
    (e : ProcessEntity) : g (hinted hint e) = g e := by
  unfold hinted
  split_ifs
  · exact hg e hint
  · rfl

end Keeps

end ProcessEntity

namespace EntityRegistry

open ProcessEntity (isReused touched markedExited retired linked hinted)

/-! ## The steps that write one entity -/

/-- Nothing is stored that was not, and only the entity stored under `id` is written. -/
def Writes (id : Nat) (f : ProcessEntity → ProcessEntity) (r r' : EntityRegistry) : Prop :=
  ∀ k, r'.findProcess k = if k = id then (r.findProcess k).map f else r.findProcess k

section Writes
variable {r r' : EntityRegistry} {id : Nat} {f : ProcessEntity → ProcessEntity}

theorem Writes.ne (h : Writes id f r r') {k : Nat} (hk : k ≠ id) : r'.findProcess k = r.findProcess k :=
  (h k).trans (if_neg hk)

theorem Writes.self (h : Writes id f r r') : r'.findProcess id = (r.findProcess id).map f :=
  (h id).trans (if_pos rfl)

/-- An entity stored after the step is the one stored before, possibly written. -/
theorem Writes.origin (h : Writes id f r r') {k : Nat} {e' : ProcessEntity}
    (he' : r'.findProcess k = some e') :
    ∃ e, r.findProcess k = some e ∧ (e' = e ∨ k = id ∧ e' = f e) := by
  rw [h k] at he'
  split_ifs at he' with hk
  · obtain ⟨e, he, rfl⟩ := Option.map_eq_some_iff.mp he'
    exact ⟨e, he, Or.inr ⟨hk, rfl⟩⟩
  · exact ⟨e', he', Or.inl rfl⟩

/-- What the step does not write into an entity stays as it is. -/
theorem Writes.keeps (h : Writes id f r r') {β : Type} (g : ProcessEntity → β) (hf : ∀ e, g (f e) = g e)
    {k : Nat} {e : ProcessEntity} (hstored : r.findProcess k = some e) :
    ∃ e', r'.findProcess k = some e' ∧ g e' = g e := by
  rw [h k, hstored]
  split_ifs
  · exact ⟨f e, rfl, hf e⟩
  · exact ⟨e, rfl, rfl⟩

/-- A step that does nothing where nothing is stored, and stores `f e` over a stored `e`. -/
theorem Writes.of_lookup (hnone : r.findProcess id = none → r' = r)
    (hsome : ∀ e, r.findProcess id = some e → ∀ k, r'.findProcess k = (r.store id (f e)).findProcess k) :
    Writes id f r r' := by
  intro k
  cases h : r.findProcess id with
  | none =>
    rw [hnone h]
    split_ifs with hk
    · rw [hk, h, Option.map_none]
    · rfl
  | some e =>
    rw [hsome e h k, findProcess_store]
    split_ifs with hk
    · rw [hk, h, Option.map_some]
    · rfl

theorem store_self {e : ProcessEntity} (h : r.findProcess id = some e) (k : Nat) :
    (r.store id e).findProcess k = r.findProcess k := by
  rw [findProcess_store]
  split_ifs with hk
  · rw [hk, h]
  · rfl

theorem retireIndex_findProcess (r : EntityRegistry) (key : UInt32) (id k : Nat) :
    (r.retireIndex key id).findProcess k = r.findProcess k := by
  unfold retireIndex
  split_ifs <;> rfl

theorem markExited_writes (r : EntityRegistry) (id : Nat) (nowNs : UInt64) (exitCode : Int64) :
    Writes id (markedExited nowNs exitCode) r (r.markExited id nowNs exitCode) := by
  refine Writes.of_lookup (fun hnone => ?_) fun e he k => ?_
  · unfold findProcess at hnone
    rw [markExited, hnone]
  · unfold findProcess at he
    rw [markExited, he]
    exact retireIndex_findProcess _ _ _ k

theorem linkParent_writes (r : EntityRegistry) (id parentId : Nat) :
    Writes id (linked parentId) r (r.linkParent id parentId) := by
  refine Writes.of_lookup (fun hnone => ?_) fun e he k => ?_
  · unfold findProcess at hnone
    rw [linkParent, hnone]
  · have hstored := he
    unfold findProcess at he
    rw [linkParent, he]
    dsimp only
    unfold linked
    split_ifs
    · rfl
    · exact (store_self hstored k).symm

theorem useExecPathHint_writes (r : EntityRegistry) (id : Nat) (hint : Bytes) :
    Writes id (hinted hint) r (r.useExecPathHint id hint) := by
  refine Writes.of_lookup (fun hnone => ?_) fun e he k => ?_
  · unfold findProcess at hnone
    rw [useExecPathHint, hnone, ite_self]
  · have hstored := he
    unfold findProcess at he
    rw [useExecPathHint, he]
    unfold hinted
    by_cases hhint : hint = []
    · rw [if_pos hhint, if_neg fun h => h.1 hhint]
      exact (store_self hstored k).symm
    · rw [if_neg hhint]
      dsimp only
      by_cases hpath : e.execPath = []
      · rw [if_pos hpath, if_pos ⟨hhint, hpath⟩]
      · rw [if_neg hpath, if_neg fun h => hpath h.2]
        exact (store_self hstored k).symm

end Writes

/-! ## `ResolveProcess` -/

section Resolve
variable (env : ResolveEnv) (actor : ActorIdentity) (nowNs : UInt64) (refresh : Bool)
  (r : EntityRegistry)

/-- The registry `CreateProcess` starts from: as it was if the key was not indexed, and with the old
entity retired if its key was reused. -/
inductive Cleared : EntityRegistry → Prop where
  | unindexed (hindex : r.tgidIndex.lookup actor.key = none) : Cleared r
  | reused {id : Nat} {e : ProcessEntity} (hindex : r.tgidIndex.lookup actor.key = some id)
      (hstored : r.findProcess id = some e)
      (hreused : (isReused env.proc.identityStat nowNs e).1 = true) :
      Cleared (afterReuse env nowNs id e r)

/-- The entity the key is indexed with is found, and its key is not reused. -/
structure Finds (id : Nat) (e : ProcessEntity) : Prop where
  index : r.tgidIndex.lookup actor.key = some id
  stored : r.findProcess id = some e
  same : (isReused env.proc.identityStat nowNs e).1 = false

variable {r} (hr : r.Consistent)
include hr

/-- `ResolveProcess` sees the entity it finds, or creates one. -/
theorem resolveProcess_paths (hkey : actor.key ≠ 0) :
    (∃ id e, Finds env actor nowNs r id e ∧
        resolveProcess env actor nowNs refresh r =
          (r.store id (touched env actor nowNs refresh e), id)) ∨
      ∃ r₀, Cleared env actor nowNs r r₀ ∧
        resolveProcess env actor nowNs refresh r =
          (evictIfNeeded env.order (withNew env actor nowNs r₀), r₀.nextId) := by
  cases hindex : r.tgidIndex.lookup actor.key with
  | none =>
    refine Or.inr ⟨r, .unindexed hindex, ?_⟩
    rw [resolveProcess_new env actor nowNs refresh hkey hindex, createProcess_eq]
  | some id =>
    obtain ⟨e, hstored, -⟩ := hr.indexed _ _ hindex
    cases hreused : (isReused env.proc.identityStat nowNs e).1 with
    | false =>
      exact Or.inl ⟨id, e, ⟨hindex, hstored, hreused⟩,
        resolveProcess_found env actor nowNs refresh hkey hindex hstored hreused⟩
    | true =>
      refine Or.inr ⟨_, .reused hindex hstored hreused, ?_⟩
      rw [resolveProcess_reused env actor nowNs refresh hkey hindex hstored hreused, createProcess_eq]
      rfl

variable {env actor nowNs}

theorem Cleared.spec {r₀ : EntityRegistry} (h : Cleared env actor nowNs r r₀) :
    r₀.Consistent ∧ r₀.tgidIndex.lookup actor.key = none ∧ r₀.nextId = r.nextId := by
  cases h with
  | unindexed hindex => exact ⟨hr, hindex, rfl⟩
  | reused hindex hstored _ =>
    obtain ⟨hedit, hnone, hnext, -⟩ := afterReuse_edit env actor nowNs hr hindex hstored
    exact ⟨hedit.consistent hr, hnone, hnext⟩

omit hr in
theorem afterReuse_writes {id : Nat} {e : ProcessEntity} (hstored : r.findProcess id = some e) :
    Writes id (fun _ => retired env nowNs e) r (afterReuse env nowNs id e r) := by
  intro k
  rw [afterReuse, markExited_writes, findProcess_store]
  split_ifs with hk
  · rw [hk, hstored]
    rfl
  · rfl

omit hr in
theorem withNew_findProcess (env : ResolveEnv) (actor : ActorIdentity) (nowNs : UInt64)
    (r : EntityRegistry) (k : Nat) :
    (withNew env actor nowNs r).findProcess k =
      if k = r.nextId then some (newProcess env.proc actor.key actor nowNs r.nextId)
      else r.findProcess k :=
  add_findProcess _ _ _

theorem Cleared.withNew_consistent {r₀ : EntityRegistry} (h : Cleared env actor nowNs r r₀) :
    (withNew env actor nowNs r₀).Consistent :=
  (withNew_edit env actor nowNs (h.spec hr).2.1).consistent (h.spec hr).1

variable (env actor nowNs)

omit hr in
/-- Where an entity that is stored after `ResolveProcess` comes from. -/
inductive Origin (r : EntityRegistry) (k : Nat) (e' : ProcessEntity) : Prop where
  | kept (hne : k ≠ (resolveProcess env actor nowNs refresh r).2)
      (hindex : actor.key ≠ 0 → r.tgidIndex.lookup actor.key ≠ some k)
      (hstored : r.findProcess k = some e')
  | seen {e : ProcessEntity} (hid : k = (resolveProcess env actor nowNs refresh r).2)
      (hfinds : Finds env actor nowNs r k e) (heq : e' = touched env actor nowNs refresh e)
  | retired {e : ProcessEntity} (hne : k ≠ (resolveProcess env actor nowNs refresh r).2)
      (hindex : r.tgidIndex.lookup actor.key = some k) (hstored : r.findProcess k = some e)
      (hreused : (isReused env.proc.identityStat nowNs e).1 = true) (heq : e' = retired env nowNs e)
  | created (hid : k = (resolveProcess env actor nowNs refresh r).2) (hnew : k = r.nextId)
      (heq : e' = newProcess env.proc actor.key actor nowNs k)

theorem resolveProcess_origin {k : Nat} {e' : ProcessEntity}
    (h : (resolveProcess env actor nowNs refresh r).1.findProcess k = some e') :
    Origin env actor nowNs refresh r k e' := by
  by_cases hkey : actor.key = 0
  · rw [resolveProcess_zero env actor nowNs refresh hkey] at h
    refine .kept ?_ (fun hne => absurd hkey hne) h
    rw [resolveProcess_zero env actor nowNs refresh hkey]
    exact Nat.pos_iff_ne_zero.mp (hr.own_id k e' h).2.1
  rcases resolveProcess_paths env actor nowNs refresh hr hkey with
    ⟨id, e, hfinds, heq⟩ | ⟨r₀, hclear, heq⟩
  · have hid : (resolveProcess env actor nowNs refresh r).2 = id := by rw [heq]
    rw [heq, findProcess_store] at h
    split_ifs at h with hk
    · obtain rfl := Option.some.inj h
      subst hk
      exact .seen hid.symm hfinds rfl
    · refine .kept (hid ▸ hk) (fun _ hindex => hk ?_) h
      rw [hfinds.index] at hindex
      exact (Option.some.inj hindex).symm
  · obtain ⟨-, -, hnext⟩ := hclear.spec hr
    have hid : (resolveProcess env actor nowNs refresh r).2 = r.nextId := by rw [heq, hnext]
    rw [heq] at h
    have hstored := evictIfNeeded_findProcess (hclear.withNew_consistent hr) env.order h
    rw [withNew_findProcess, hnext] at hstored
    split_ifs at hstored with hk
    · obtain rfl := Option.some.inj hstored
      rw [← hk]
      exact .created (hk.trans hid.symm) hk rfl
    · cases hclear with
      | unindexed hindex =>
        refine .kept (hid ▸ hk) (fun _ h => ?_) hstored
        rw [hindex] at h
        cases h
      | @reused id e hindex hold hreused =>
        rw [afterReuse_writes hold] at hstored
        split_ifs at hstored with hid'
        · subst hid'
          rw [hold] at hstored
          exact .retired (hid ▸ hk) hindex hold hreused (Option.some.inj hstored).symm
        · refine .kept (hid ▸ hk) (fun _ h => hid' ?_) hstored
          rw [hindex] at h
          exact (Option.some.inj h).symm

/-- The resolution ended with the eviction of the entity: more were stored than the cap allows, and none
was seen less recently. -/
def EvictedFrom (order : BucketOrder) (r' : EntityRegistry) (k : Nat) (e : ProcessEntity) : Prop :=
  ∃ s : EntityRegistry, r' = evictIfNeeded order s ∧ kMaxEntries < s.processCount ∧
    s.findProcess k = some e ∧
    (∀ id e', s.findProcess id = some e' → e.lastSeenNs ≤ e'.lastSeenNs) ∧ r'.findProcess k = none

omit hr in
theorem EvictedFrom.gone {order : BucketOrder} {r' : EntityRegistry} {k : Nat} {e : ProcessEntity}
    (h : EvictedFrom order r' k e) : r'.findProcess k = none := by
  obtain ⟨-, -, -, -, -, hgone⟩ := h
  exact hgone

omit hr in
/-- Eviction takes at most one entity away. -/
theorem evictIfNeeded_fate {s : EntityRegistry} (hs : s.Consistent) (order : BucketOrder) {k : Nat}
    {e : ProcessEntity} (h : s.findProcess k = some e) :
    (evictIfNeeded order s).findProcess k = some e ∨ EvictedFrom order (evictIfNeeded order s) k e := by
  rcases evictIfNeeded_cases hs order with ⟨heq, -⟩ | ⟨id, v, hover, hv, hleast, heq⟩
  · rw [heq]
    exact Or.inl h
  · by_cases hk : k = id
    · subst hk
      rw [h] at hv
      obtain rfl := Option.some.inj hv
      refine Or.inr ⟨s, rfl, hover, h, hleast, ?_⟩
      rw [heq]
      split_ifs <;> rw [drop_findProcess, if_pos rfl]
    · left
      rw [heq]
      split_ifs
      · rw [drop_findProcess, if_neg hk, h]
      · rw [drop_findProcess, if_neg hk, unindex_findProcess, h]

/-- An entity that was stored still is after `ResolveProcess`, or it was evicted. -/
theorem resolveProcess_fate {k : Nat} {e : ProcessEntity} (h : r.findProcess k = some e) :
    (∃ e', (resolveProcess env actor nowNs refresh r).1.findProcess k = some e') ∨
      ∃ e', (e' = e ∨ r.tgidIndex.lookup actor.key = some k ∧ e' = retired env nowNs e) ∧
        EvictedFrom env.order (resolveProcess env actor nowNs refresh r).1 k e' := by
  by_cases hkey : actor.key = 0
  · rw [resolveProcess_zero env actor nowNs refresh hkey]
    exact Or.inl ⟨e, h⟩
  rcases resolveProcess_paths env actor nowNs refresh hr hkey with
    ⟨id, f, -, heq⟩ | ⟨r₀, hclear, heq⟩
  · left
    rw [heq, findProcess_store]
    split_ifs
    · exact ⟨_, rfl⟩
    · exact ⟨e, h⟩
  · have hlt : k ≠ r₀.nextId := by
      rw [(hclear.spec hr).2.2]
      exact Nat.ne_of_lt (hr.own_id k e h).2.2
    obtain ⟨e', hbefore, he'⟩ :
        ∃ e', (e' = e ∨ r.tgidIndex.lookup actor.key = some k ∧ e' = retired env nowNs e) ∧
          (withNew env actor nowNs r₀).findProcess k = some e' := by
      rw [withNew_findProcess, if_neg hlt]
      cases hclear with
      | unindexed _ => exact ⟨e, Or.inl rfl, h⟩
      | @reused id f hindex hold _ =>
        rw [afterReuse_writes hold, h]
        split_ifs with hk
        · subst hk
          rw [h] at hold
          obtain rfl := Option.some.inj hold
          exact ⟨_, Or.inr ⟨hindex, rfl⟩, rfl⟩
        · exact ⟨e, Or.inl rfl, rfl⟩
    rw [heq]
    rcases evictIfNeeded_fate (hclear.withNew_consistent hr) env.order he' with h | h
    · exact Or.inl ⟨e', h⟩
    · exact Or.inr ⟨e', hbefore, h⟩

/-- `ResolveProcess` sees the entity it finds, or returns a new id. -/
theorem resolveProcess_seen_or_new (hkey : actor.key ≠ 0) :
    (∃ id e, Finds env actor nowNs r id e ∧
        resolveProcess env actor nowNs refresh r =
          (r.store id (touched env actor nowNs refresh e), id)) ∨
      (resolveProcess env actor nowNs refresh r).2 = r.nextId := by
  rcases resolveProcess_paths env actor nowNs refresh hr hkey with hseen | ⟨r₀, hclear, heq⟩
  · exact Or.inl hseen
  · refine Or.inr ?_
    rw [heq]
    exact (hclear.spec hr).2.2

/-- The id `ResolveProcess` returns is that of the entity it finds, or a new one. -/
theorem resolveProcess_id (hkey : actor.key ≠ 0) :
    (∃ e, Finds env actor nowNs r (resolveProcess env actor nowNs refresh r).2 e) ∨
      (resolveProcess env actor nowNs refresh r).2 = r.nextId := by
  rcases resolveProcess_seen_or_new env actor nowNs refresh hr hkey with ⟨id, e, hfinds, heq⟩ | hnew
  · rw [heq]
    exact Or.inl ⟨e, hfinds⟩
  · exact Or.inr hnew

/-- The id `ResolveProcess` returns is issued, or 0. -/
theorem resolveProcess_issued :
    (resolveProcess env actor nowNs refresh r).2 < (resolveProcess env actor nowNs refresh r).1.nextId := by
  by_cases hkey : actor.key = 0
  · rw [resolveProcess_zero env actor nowNs refresh hkey]
    exact hr.pos
  rcases resolveProcess_paths env actor nowNs refresh hr hkey with
    ⟨id, e, hfinds, heq⟩ | ⟨r₀, hclear, heq⟩
  · rw [heq]
    exact (hr.lookup_lt hfinds.index).2
  · rw [heq, evictIfNeeded_nextId]
    exact Nat.lt_succ_self _

end Resolve

/-! ## `Ingest` -/

namespace Call

variable (c : Call) {r : EntityRegistry}

theorem resolved_consistent (hr : r.Consistent) : (c.resolved r).1.Consistent :=
  (c.resolved_logs hr).consistent hr

theorem acted_child (hstart : c.StartsChild) :
    c.acted r = (c.childResolved r).1.linkParent (c.childResolved r).2 (c.resolved r).2 := by
  have hexit : c.ev.action ≠ .processExited := by
    rw [hstart.1]
    decide
  rw [acted, if_neg hexit, if_pos hstart]

/-- What is neither lineage nor path stays as the child's resolution leaves it. -/
theorem next_keeps_child (hstart : c.StartsChild) {β : Type} (g : ProcessEntity → β)
    (hlinked : ∀ e parentId, g { e with parentId := parentId } = g e)
    (hhinted : ∀ e path, g { e with execPath := path } = g e)
    {k : Nat} {e : ProcessEntity} (hstored : (c.childResolved r).1.findProcess k = some e) :
    ∃ e', (c.next r).findProcess k = some e' ∧ g e' = g e := by
  obtain ⟨f, hf, hsame⟩ := (linkParent_writes (c.childResolved r).1 (c.childResolved r).2
    (c.resolved r).2).keeps g (ProcessEntity.linked_keeps g hlinked _) hstored
  rw [← c.acted_child hstart] at hf
  obtain ⟨e', he', hsame'⟩ := (useExecPathHint_writes (c.acted r) (c.resolved r).2
    c.ev.execPathHint).keeps g (ProcessEntity.hinted_keeps g hhinted _) hf
  rw [← next_eq] at he'
  exact ⟨e', he', hsame'.trans hsame⟩

end Call

end EntityRegistry

end ETraceGen
