import ETraceGen.Registry.Edits

/-!
# Runs as edits

What each function of the registry does, as the edits it makes: the entity it resolves or creates, the
indexes it retires, and what it leaves as it was.
-/

namespace ETraceGen

/-! ## What is written into an entity -/

namespace ProcessEntity

/-- The enrichment writes the `/proc` fields alone. -/
theorem refreshRich_eq (answers : ProcAnswers) (key : UInt32) (e : ProcessEntity) :
    ∃ execPath cwd cmdline comm parentComm startTimeTicks, refreshRich answers key e =
      { e with
        execPath := execPath
        cwd := cwd
        cmdline := cmdline
        comm := comm
        parentComm := parentComm
        startTimeTicks := startTimeTicks } := by
  unfold refreshRich
  dsimp only
  split_ifs <;> exact ⟨_, _, _, _, _, _, rfl⟩

/-- What is none of the `/proc` fields is kept by the enrichment. -/
theorem refreshRich_keeps {β : Type} (g : ProcessEntity → β)
    (hg : ∀ e execPath cwd cmdline comm parentComm startTimeTicks,
      g { e with
        execPath := execPath
        cwd := cwd
        cmdline := cmdline
        comm := comm
        parentComm := parentComm
        startTimeTicks := startTimeTicks } = g e)
    (answers : ProcAnswers) (key : UInt32) (e : ProcessEntity) : g (refreshRich answers key e) = g e := by
  obtain ⟨execPath, cwd, cmdline, comm, parentComm, startTimeTicks, hrich⟩ := refreshRich_eq answers key e
  rw [hrich, hg]

/-- The identity check writes its own time alone. -/
theorem isReused_snd (identityStat : Option Bytes) (nowNs : UInt64) (e : ProcessEntity) :
    ∃ checked, (isReused identityStat nowNs e).2 = { e with lastIdentityCheckNs := checked } := by
  unfold isReused
  dsimp only
  split_ifs <;> exact ⟨_, rfl⟩

/-- Whether the identity check reads `/proc` at all. -/
def ChecksIdentity (nowNs : UInt64) (e : ProcessEntity) : Prop :=
  e.startTimeTicks ≠ 0 ∧ ¬nowNs - e.lastIdentityCheckNs < kIdentityCheckNs

/-- Reuse is detected when a start time is read that is not the recorded one. -/
theorem isReused_iff {identityStat : Option Bytes} {nowNs : UInt64} {e : ProcessEntity} :
    (isReused identityStat nowNs e).1 = true ↔
      e.ChecksIdentity nowNs ∧ readStartTimeTicks identityStat ≠ 0 ∧
        readStartTimeTicks identityStat ≠ e.startTimeTicks := by
  unfold isReused ChecksIdentity
  dsimp only
  split_ifs <;> simp_all

/-- What `ResolveProcess` makes of the entity it finds. -/
def touched (env : ResolveEnv) (actor : ActorIdentity) (nowNs : UInt64) (refresh : Bool)
    (e : ProcessEntity) : ProcessEntity :=
  let e := updateFast actor nowNs (isReused env.proc.identityStat nowNs e).2
  if refresh then refreshRich env.proc actor.key e else e

theorem touched_spec (env : ResolveEnv) {actor : ActorIdentity} (nowNs : UInt64) (refresh : Bool)
    {e : ProcessEntity} (hkey : e.key = actor.key) :
    EntityRegistry.SameEntity e (touched env actor nowNs refresh e) ∧
      (touched env actor nowNs refresh e).exited = e.exited ∧
      (touched env actor nowNs refresh e).parentId = e.parentId ∧
      (touched env actor nowNs refresh e).lastSeenNs = nowNs := by
  obtain ⟨checked, hchecked⟩ := isReused_snd env.proc.identityStat nowNs e
  unfold touched
  rw [hchecked]
  dsimp only
  split_ifs
  · obtain ⟨_, _, _, _, _, _, hrich⟩ := refreshRich_eq env.proc actor.key
      (updateFast actor nowNs { e with lastIdentityCheckNs := checked })
    rw [hrich]
    exact ⟨⟨rfl, hkey.symm, rfl⟩, rfl, rfl, rfl⟩
  · exact ⟨⟨rfl, hkey.symm, rfl⟩, rfl, rfl, rfl⟩

end ProcessEntity

namespace EntityRegistry

open ProcessEntity (updateFast refreshRich isReused touched touched_spec refreshRich_eq)

theorem newProcess_spec (answers : ProcAnswers) (key : UInt32) (actor : ActorIdentity)
    (nowNs : UInt64) (id : Nat) :
    (newProcess answers key actor nowNs id).id = id ∧
      (newProcess answers key actor nowNs id).key = actor.key ∧
      (newProcess answers key actor nowNs id).exited = false ∧
      (newProcess answers key actor nowNs id).parentId = 0 ∧
      (newProcess answers key actor nowNs id).lastSeenNs = nowNs := by
  unfold newProcess
  obtain ⟨_, _, _, _, _, _, hrich⟩ := refreshRich_eq answers key
    { updateFast actor nowNs { id := id } with firstSeenNs := nowNs, lastIdentityCheckNs := nowNs }
  rw [hrich]
  exact ⟨rfl, rfl, rfl, rfl, rfl⟩

theorem newProcess_checked (answers : ProcAnswers) (key : UInt32) (actor : ActorIdentity) (nowNs : UInt64)
    (id : Nat) : (newProcess answers key actor nowNs id).lastIdentityCheckNs = nowNs :=
  ProcessEntity.refreshRich_keeps ProcessEntity.lastIdentityCheckNs (fun _ _ _ _ _ _ _ => rfl) answers key _

/-! ## Eviction -/

section Eviction

abbrev StoredEntry : Type := Sigma fun _ : Nat => ProcessEntity

/-- The fold keeps an entry it has seen, and none it has seen was seen less recently. -/
theorem foldl_victim (entries : List StoredEntry) (v : StoredEntry) :
    ∃ w, entries.foldl (fun victim it =>
        match victim with
        | none => some it
        | some v => if it.2.lastSeenNs < v.2.lastSeenNs then some it else some v) (some v) = some w ∧
      w ∈ v :: entries ∧ ∀ it ∈ v :: entries, w.2.lastSeenNs ≤ it.2.lastSeenNs := by
  induction entries generalizing v with
  | nil => exact ⟨v, rfl, List.mem_cons_self, by simp⟩
  | cons it rest ih =>
    rw [List.foldl_cons]
    dsimp only
    split_ifs with hlt
    · obtain ⟨w, hw, hmem, hle⟩ := ih it
      refine ⟨w, hw, List.mem_cons_of_mem _ hmem, fun x hx => ?_⟩
      rcases List.mem_cons.mp hx with rfl | hx
      · exact UInt64.le_trans (hle it List.mem_cons_self) (UInt64.le_of_lt hlt)
      · exact hle x hx
    · obtain ⟨w, hw, hmem, hle⟩ := ih v
      have hv := hle v List.mem_cons_self
      refine ⟨w, hw, ?_, fun x hx => ?_⟩
      · rcases List.mem_cons.mp hmem with rfl | hm
        · exact List.mem_cons_self
        · exact List.mem_cons_of_mem _ (List.mem_cons_of_mem _ hm)
      · rcases List.mem_cons.mp hx with rfl | hx
        · exact hv
        · rcases List.mem_cons.mp hx with rfl | hx
          · exact UInt64.le_trans hv (UInt64.not_lt.mp hlt)
          · exact hle x (List.mem_cons_of_mem _ hx)

theorem evictionVictim_spec {entries : List StoredEntry} (hne : entries ≠ []) :
    ∃ w, evictionVictim entries = some w ∧ w ∈ entries ∧
      ∀ it ∈ entries, w.2.lastSeenNs ≤ it.2.lastSeenNs := by
  cases entries with
  | nil => exact absurd rfl hne
  | cons v rest => exact foldl_victim rest v

theorem mem_visit_iff (order : BucketOrder) (r : EntityRegistry) (it : StoredEntry) :
    it ∈ order.visit r.processesById.entries ↔ r.findProcess it.1 = some it.2 :=
  (order.perm _).mem_iff.trans KeyedMap.mem_entries_iff

variable {r : EntityRegistry}

theorem retireIndex_of_live (hr : r.Consistent) {id : Nat} {e : ProcessEntity}
    (h : r.findProcess id = some e) (hlive : e.exited = false) :
    r.retireIndex e.key id = r.unindex e.key := by
  rw [retireIndex, if_pos (hr.live id e h hlive)]
  rfl

theorem retireIndex_of_exited (hr : r.Consistent) {id : Nat} {e : ProcessEntity}
    (h : r.findProcess id = some e) (hexited : e.exited = true) : r.retireIndex e.key id = r := by
  rw [retireIndex, if_neg]
  intro hlook
  obtain ⟨e', he', hlive, -⟩ := hr.indexed _ _ hlook
  rw [h] at he'
  obtain rfl := Option.some.inj he'
  rw [hexited] at hlive
  cases hlive

/-- Past the cap, an entity nobody has been seen less recently than is taken away, with its index
entry if it is live. -/
theorem evictIfNeeded_cases (hr : r.Consistent) (order : BucketOrder) :
    (evictIfNeeded order r = r ∧ r.processCount ≤ kMaxEntries) ∨
      ∃ id e, kMaxEntries < r.processCount ∧ r.findProcess id = some e ∧
        (∀ id' e', r.findProcess id' = some e' → e.lastSeenNs ≤ e'.lastSeenNs) ∧
        evictIfNeeded order r = if e.exited then r.drop id else (r.unindex e.key).drop id := by
  unfold evictIfNeeded
  by_cases hsize : r.processesById.size ≤ kMaxEntries
  · exact Or.inl ⟨if_pos hsize, hsize⟩
  · right
    rw [if_neg hsize]
    have hne : order.visit r.processesById.entries ≠ [] := by
      intro hnil
      have hlen := (order.perm r.processesById.entries).length_eq
      rw [hnil, List.length_nil, ← KeyedMap.size_eq_entries] at hlen
      omega
    obtain ⟨⟨id, e⟩, hw, hmem, hleast⟩ := evictionVictim_spec hne
    have hstored : r.findProcess id = some e := (mem_visit_iff order r ⟨id, e⟩).mp hmem
    have hid : e.id = id := (hr.own_id id e hstored).1
    refine ⟨id, e, Nat.lt_of_not_le hsize, hstored, ?_, ?_⟩
    · intro id' e' h'
      exact hleast ⟨id', e'⟩ ((mem_visit_iff order r ⟨id', e'⟩).mpr h')
    · rw [hw]
      dsimp only
      rw [hid]
      cases hexited : e.exited with
      | false =>
        rw [retireIndex_of_live hr hstored hexited]
        rfl
      | true =>
        rw [retireIndex_of_exited hr hstored hexited]
        rfl

/-- Eviction indexes nothing. -/
theorem evictIfNeeded_lookup (hr : r.Consistent) (order : BucketOrder) {key : UInt32} {id : Nat}
    (h : (evictIfNeeded order r).tgidIndex.lookup key = some id) :
    r.tgidIndex.lookup key = some id := by
  rcases evictIfNeeded_cases hr order with ⟨heq, -⟩ | ⟨k, e, -, -, -, heq⟩
  · rwa [heq] at h
  · rw [heq] at h
    split_ifs at h
    · exact h
    · rw [drop_tgidIndex, unindex_lookup] at h
      split_ifs at h
      exact h

/-- Eviction stores nothing. -/
theorem evictIfNeeded_findProcess (hr : r.Consistent) (order : BucketOrder) {id : Nat}
    {e : ProcessEntity} (h : (evictIfNeeded order r).findProcess id = some e) :
    r.findProcess id = some e := by
  rcases evictIfNeeded_cases hr order with ⟨heq, -⟩ | ⟨k, v, -, -, -, heq⟩
  · rwa [heq] at h
  · rw [heq] at h
    split_ifs at h
    · rw [drop_findProcess] at h
      split_ifs at h
      exact h
    · rw [drop_findProcess] at h
      split_ifs at h
      exact h

/-- The entries eviction leaves behind. -/
def OnlyEvictions (log : List Entry) : Prop := ∀ x ∈ log, ∃ key id, x = .evicted key id

theorem evictIfNeeded_edits (hr : r.Consistent) (order : BucketOrder) :
    ∃ log, Edits r log (evictIfNeeded order r) ∧ OnlyEvictions log := by
  rcases evictIfNeeded_cases hr order with ⟨heq, -⟩ | ⟨id, e, hover, hstored, hleast, heq⟩
  · rw [heq]
    exact ⟨[], .refl, by simp [OnlyEvictions]⟩
  · rw [heq]
    cases hexited : e.exited with
    | false =>
      refine ⟨_, (Edit.evictLive hstored hexited hover hleast).edits, ?_⟩
      simp [OnlyEvictions]
    | true => exact ⟨[], (Edit.evictExited hstored hexited).edits, by simp [OnlyEvictions]⟩

theorem processCount_drop {id : Nat} {e : ProcessEntity} (h : r.findProcess id = some e) :
    (r.drop id).processCount + 1 = r.processCount :=
  KeyedMap.size_erase_of_mem (KeyedMap.mem_of_lookup h)

/-- One entity over the cap is one too many, and it is taken away. -/
theorem evictIfNeeded_processCount (hr : r.Consistent) (order : BucketOrder)
    (hsize : r.processCount ≤ kMaxEntries + 1) :
    (evictIfNeeded order r).processCount ≤ kMaxEntries := by
  rcases evictIfNeeded_cases hr order with ⟨heq, hle⟩ | ⟨id, e, -, hstored, -, heq⟩
  · rw [heq]
    exact hle
  · have hdrop := processCount_drop hstored
    have hdrop' : ((r.unindex e.key).drop id).processCount + 1 = r.processCount :=
      processCount_drop (r := r.unindex e.key) hstored
    rw [heq]
    split_ifs <;> omega

end Eviction

/-! ## Creating and resolving -/

section Resolve
variable {r : EntityRegistry} (env : ResolveEnv) (actor : ActorIdentity) (nowNs : UInt64)
  (refresh : Bool)

/-- The registry with the new entity in it, before eviction. -/
def withNew (r : EntityRegistry) : EntityRegistry :=
  r.add (newProcess env.proc actor.key actor nowNs r.nextId)

theorem createProcess_eq (r : EntityRegistry) :
    createProcess env actor.key actor nowNs r =
      (evictIfNeeded env.order (withNew env actor nowNs r), r.nextId) := by
  unfold createProcess withNew add
  rw [(newProcess_spec env.proc actor.key actor nowNs r.nextId).2.1]
  rfl

theorem withNew_edit (hindex : r.tgidIndex.lookup actor.key = none) :
    Edit r [.mention actor.key r.nextId nowNs] (withNew env actor nowNs r) := by
  obtain ⟨hid, hkey, hlive, hparent, hseen⟩ :=
    newProcess_spec env.proc actor.key actor nowNs r.nextId
  have hedit := Edit.create (hkey.symm ▸ hindex) hid hlive hparent
  rwa [hkey, hseen] at hedit

theorem createProcess_edits (hr : r.Consistent) (hindex : r.tgidIndex.lookup actor.key = none) :
    ∃ post, Edits r (.mention actor.key r.nextId nowNs :: post)
        (createProcess env actor.key actor nowNs r).1 ∧ OnlyEvictions post := by
  have hnew := withNew_edit env actor nowNs hindex
  obtain ⟨post, hpost, honly⟩ := evictIfNeeded_edits (hnew.consistent hr) env.order
  rw [createProcess_eq]
  exact ⟨post, hnew.edits.trans hpost, honly⟩

theorem markExited_eq (hr : r.Consistent) {id : Nat} {e : ProcessEntity}
    (hstored : r.findProcess id = some e) (hlive : e.exited = false) (exitCode : Int64) :
    r.markExited id nowNs exitCode =
      (r.store id { e with exited := true, exitNs := nowNs, exitCode := exitCode }).unindex e.key := by
  have hlook := hr.live id e hstored hlive
  unfold markExited
  unfold findProcess at hstored
  rw [hstored]
  dsimp only
  rw [retireIndex, store_tgidIndex, if_pos hlook]
  rfl

theorem markExited_edit (hr : r.Consistent) {id : Nat} {e : ProcessEntity}
    (hstored : r.findProcess id = some e) (hlive : e.exited = false) (exitCode : Int64) {entry : Entry}
    (hentry : entry = .exited e.key ∨ entry = .reused e.key) :
    Edit r [entry] (r.markExited id nowNs exitCode) := by
  rw [markExited_eq nowNs hr hstored hlive]
  exact Edit.retire hstored hlive ⟨rfl, rfl, rfl⟩ rfl rfl rfl hentry

/-! `ResolveProcess`, one equation for each path through it. -/

theorem resolveProcess_zero (hkey : actor.key = 0) :
    resolveProcess env actor nowNs refresh r = (r, 0) := by
  rw [resolveProcess, if_pos hkey]

theorem resolveProcess_new (hkey : actor.key ≠ 0) (hindex : r.tgidIndex.lookup actor.key = none) :
    resolveProcess env actor nowNs refresh r = createProcess env actor.key actor nowNs r := by
  rw [resolveProcess, if_neg hkey, hindex]

theorem resolveProcess_found (hkey : actor.key ≠ 0) {id : Nat} {e : ProcessEntity}
    (hindex : r.tgidIndex.lookup actor.key = some id) (hstored : r.findProcess id = some e)
    (hsame : (isReused env.proc.identityStat nowNs e).1 = false) :
    resolveProcess env actor nowNs refresh r =
      (r.store id (touched env actor nowNs refresh e), id) := by
  unfold findProcess at hstored
  rw [resolveProcess, if_neg hkey, hindex]
  dsimp only
  rw [hstored]
  dsimp only
  unfold touched
  generalize isReused env.proc.identityStat nowNs e = checked at hsame ⊢
  obtain ⟨reused, e⟩ := checked
  subst hsame
  rfl

theorem resolveProcess_reused (hkey : actor.key ≠ 0) {id : Nat} {e : ProcessEntity}
    (hindex : r.tgidIndex.lookup actor.key = some id) (hstored : r.findProcess id = some e)
    (hreused : (isReused env.proc.identityStat nowNs e).1 = true) :
    resolveProcess env actor nowNs refresh r =
      createProcess env actor.key actor nowNs
        ((r.store id (isReused env.proc.identityStat nowNs e).2).markExited id nowNs 0) := by
  unfold findProcess at hstored
  rw [resolveProcess, if_neg hkey, hindex]
  dsimp only
  rw [hstored]
  dsimp only
  generalize isReused env.proc.identityStat nowNs e = checked at hreused ⊢
  obtain ⟨reused, e⟩ := checked
  subst hreused
  rfl

/-- The registry after the entity of a reused key is retired. -/
def afterReuse (id : Nat) (e : ProcessEntity) (r : EntityRegistry) : EntityRegistry :=
  (r.store id (isReused env.proc.identityStat nowNs e).2).markExited id nowNs 0

theorem afterReuse_edit (hr : r.Consistent) {id : Nat} {e : ProcessEntity}
    (hindex : r.tgidIndex.lookup actor.key = some id) (hstored : r.findProcess id = some e) :
    Edit r [.reused actor.key] (afterReuse env nowNs id e r) ∧
      (afterReuse env nowNs id e r).tgidIndex.lookup actor.key = none ∧
      (afterReuse env nowNs id e r).nextId = r.nextId ∧
      (afterReuse env nowNs id e r).processCount = r.processCount := by
  obtain ⟨hlive, hkey⟩ := hr.of_indexed hindex hstored
  obtain ⟨checked, hchecked⟩ := ProcessEntity.isReused_snd env.proc.identityStat nowNs e
  have hstore : (r.store id { e with lastIdentityCheckNs := checked }).Consistent :=
    hr.store hstored ⟨rfl, rfl, rfl⟩ rfl (hr.parent id e hstored)
  have heq : afterReuse env nowNs id e r = (r.store id { e with
      lastIdentityCheckNs := checked, exited := true, exitNs := nowNs, exitCode := 0 }).unindex
        actor.key := by
    unfold afterReuse
    rw [hchecked, markExited_eq (e := { e with lastIdentityCheckNs := checked }) nowNs hstore
      (by rw [findProcess_store, if_pos rfl]) hlive, store_store, ← hkey]
    rfl
  rw [heq]
  refine ⟨?_, ?_, rfl, processCount_store r hstored _⟩
  · rw [← hkey]
    exact Edit.retire hstored hlive ⟨rfl, rfl, rfl⟩ rfl rfl rfl (Or.inr rfl)
  · rw [unindex_lookup, if_pos rfl]

/-- The start-time read `IsReused` makes, if it makes one, returns 0 or the recorded value. -/
def SameStart (r : EntityRegistry) : Prop :=
  ∀ id e, r.tgidIndex.lookup actor.key = some id → r.findProcess id = some e →
    e.ChecksIdentity nowNs →
      ProcessEntity.readStartTimeTicks env.proc.identityStat = 0 ∨
        ProcessEntity.readStartTimeTicks env.proc.identityStat = e.startTimeTicks

/-- From a consistent registry the dangling branch is not taken: the entity found is seen again, or an
entity is created where none is indexed, after the one found was retired if its key was reused. -/
theorem resolveProcess_cases (hr : r.Consistent) (hkey : actor.key ≠ 0) :
    (∃ id e, r.tgidIndex.lookup actor.key = some id ∧ r.findProcess id = some e ∧
        (isReused env.proc.identityStat nowNs e).1 = false ∧
        resolveProcess env actor nowNs refresh r =
          (r.store id (touched env actor nowNs refresh e), id)) ∨
      ∃ pre r₀, Edits r pre r₀ ∧ (pre = [] ∨ pre = [.reused actor.key]) ∧
        (SameStart env actor nowNs r → pre = []) ∧ r₀.tgidIndex.lookup actor.key = none ∧
        r₀.nextId = r.nextId ∧ r₀.processCount = r.processCount ∧
        resolveProcess env actor nowNs refresh r = createProcess env actor.key actor nowNs r₀ := by
  cases hindex : r.tgidIndex.lookup actor.key with
  | none =>
    exact Or.inr ⟨[], r, .refl, Or.inl rfl, fun _ => rfl, hindex, rfl, rfl,
      resolveProcess_new env actor nowNs refresh hkey hindex⟩
  | some id =>
    obtain ⟨e, hstored, -, -⟩ := hr.indexed _ _ hindex
    cases hreused : (isReused env.proc.identityStat nowNs e).1 with
    | false =>
      exact Or.inl ⟨id, e, rfl, hstored, hreused,
        resolveProcess_found env actor nowNs refresh hkey hindex hstored hreused⟩
    | true =>
      obtain ⟨hedit, hnone, hnext, hcount⟩ := afterReuse_edit env actor nowNs hr hindex hstored
      refine Or.inr ⟨_, _, hedit.edits, Or.inr rfl, fun hsame => ?_, hnone, hnext, hcount,
        resolveProcess_reused env actor nowNs refresh hkey hindex hstored hreused⟩
      obtain ⟨hcheck, hzero, hne⟩ := ProcessEntity.isReused_iff.mp hreused
      rcases hsame id e hindex hstored hcheck with h | h
      · exact absurd h hzero
      · exact absurd h hne

/-- The key is mentioned once, after its old entity was retired if it was reused, and before an
eviction if there is one. -/
theorem resolveProcess_edits (hr : r.Consistent) (hkey : actor.key ≠ 0) :
    ∃ pre post, Edits r
        (pre ++ .mention actor.key (resolveProcess env actor nowNs refresh r).2 nowNs :: post)
        (resolveProcess env actor nowNs refresh r).1 ∧
      (pre = [] ∨ pre = [.reused actor.key]) ∧ (SameStart env actor nowNs r → pre = []) ∧
      OnlyEvictions post := by
  rcases resolveProcess_cases env actor nowNs refresh hr hkey with
    ⟨id, e, hindex, hstored, -, heq⟩ | ⟨pre, r₀, hpre, hshape, hsame, hnone, -, -, heq⟩
  · have hk := (hr.of_indexed hindex hstored).2
    obtain ⟨hid, hexit, hparent, hseen⟩ := touched_spec env nowNs refresh hk
    have hsee := Edit.see hindex hstored hid hexit hparent
    rw [hseen] at hsee
    rw [heq]
    exact ⟨[], [], hsee.edits, Or.inl rfl, fun _ => rfl, by simp [OnlyEvictions]⟩
  · obtain ⟨post, hpost, honly⟩ := createProcess_edits env actor nowNs (hpre.consistent hr) hnone
    have hid : (createProcess env actor.key actor nowNs r₀).2 = r₀.nextId := by
      rw [createProcess_eq]
    rw [heq, hid]
    exact ⟨pre, post, hpre.trans hpost, hshape, hsame, honly⟩

theorem createProcess_stored (hr : r.Consistent) (hindex : r.tgidIndex.lookup actor.key = none) :
    let res := createProcess env actor.key actor nowNs r
    (res.1.findProcess res.2 = none ∧ res.1.tgidIndex.lookup actor.key = none) ∨
      ∃ e, res.1.findProcess res.2 = some e ∧ e.exited = false ∧ e.key = actor.key := by
  intro res
  obtain ⟨hid, hkey, hlive, -⟩ := newProcess_spec env.proc actor.key actor nowNs r.nextId
  have hnew : (withNew env actor nowNs r).findProcess r.nextId =
      some (newProcess env.proc actor.key actor nowNs r.nextId) := by
    rw [withNew, add_findProcess, if_pos rfl]
  have hcons := (withNew_edit env actor nowNs hindex).consistent hr
  have hlook := hcons.live _ _ hnew hlive
  rw [hkey] at hlook
  have hres : res = (evictIfNeeded env.order (withNew env actor nowNs r), r.nextId) :=
    createProcess_eq env actor nowNs r
  rw [hres]
  dsimp only
  rcases evictIfNeeded_cases hcons env.order with ⟨heq, -⟩ | ⟨id, e, -, hstored, -, heq⟩
  · rw [heq]
    exact Or.inr ⟨_, hnew, hlive, hkey⟩
  · by_cases hvictim : id = r.nextId
    · -- the new entity itself is the victim
      subst hvictim
      rw [hnew] at hstored
      obtain rfl := Option.some.inj hstored
      rw [heq, hlive, hkey]
      left
      simp
    · right
      refine ⟨_, ?_, hlive, hkey⟩
      rw [heq]
      split_ifs
      · rw [drop_findProcess, if_neg (Ne.symm hvictim), hnew]
      · rw [drop_findProcess, if_neg (Ne.symm hvictim), unindex_findProcess, hnew]

/-- The entity a call resolves is stored and live, or was evicted on the spot. -/
theorem resolveProcess_stored (hr : r.Consistent) (hkey : actor.key ≠ 0) :
    let res := resolveProcess env actor nowNs refresh r
    (res.1.findProcess res.2 = none ∧ res.1.tgidIndex.lookup actor.key = none) ∨
      ∃ e, res.1.findProcess res.2 = some e ∧ e.exited = false ∧ e.key = actor.key := by
  intro res
  rcases resolveProcess_cases env actor nowNs refresh hr hkey with
    ⟨id, e, hindex, hstored, -, heq⟩ | ⟨pre, r₀, hpre, -, -, hnone, -, -, heq⟩
  · obtain ⟨hlive, hk⟩ := hr.of_indexed hindex hstored
    obtain ⟨hid, hexit, -, -⟩ := touched_spec env nowNs refresh hk
    have hres : res = (r.store id (touched env actor nowNs refresh e), id) := heq
    rw [hres]
    right
    exact ⟨_, by rw [findProcess_store, if_pos rfl], hexit.trans hlive, hid.key.trans hk⟩
  · have hres : res = createProcess env actor.key actor nowNs r₀ := heq
    rw [hres]
    exact createProcess_stored env actor nowNs (hpre.consistent hr) hnone

theorem resolveProcess_processCount (hr : r.Consistent) (hsize : r.processCount ≤ kMaxEntries) :
    (resolveProcess env actor nowNs refresh r).1.processCount ≤ kMaxEntries := by
  by_cases hkey : actor.key = 0
  · rw [resolveProcess_zero env actor nowNs refresh hkey]
    exact hsize
  · rcases resolveProcess_cases env actor nowNs refresh hr hkey with
      ⟨id, e, -, hstored, -, heq⟩ | ⟨pre, r₀, hpre, -, -, hnone, -, hcount, heq⟩
    · rw [heq]
      exact Nat.le_trans (Nat.le_of_eq (processCount_store r hstored _)) hsize
    · have hr₀ := hpre.consistent hr
      have hcons := (withNew_edit env actor nowNs hnone).consistent hr₀
      have hadd := hr₀.processCount_add (newProcess env.proc actor.key actor nowNs r₀.nextId)
      rw [heq, createProcess_eq]
      refine evictIfNeeded_processCount hcons env.order ?_
      unfold withNew
      omega

end Resolve

end EntityRegistry

end ETraceGen
