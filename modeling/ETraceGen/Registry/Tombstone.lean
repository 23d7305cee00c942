import ETraceGen.Registry.Origin

/-!
# Tombstones

An entity that has exited stays in the registry until it is evicted. No function looks at its flag: it
is left alone because every id a call resolves is that of an indexed entity or a new one, and an exited
entity is not indexed (`Retired`). What a stored entity may become while it is stored is `Grows`.
-/

namespace ETraceGen.EntityRegistry

open ProcessEntity (isReused touched markedExited retired linked hinted)

/-! ## Growth -/

/-- What a stored entity may become: its id and its first sight are fixed, an exit is not undone, and a
start time or a parent is filled in once. -/
structure Grows (e e' : ProcessEntity) : Prop where
  id : e'.id = e.id
  first : e'.firstSeenNs = e.firstSeenNs
  exited : e.exited = true → e'.exited = true
  start : e.startTimeTicks ≠ 0 → e'.startTimeTicks = e.startTimeTicks
  parent : e.parentId ≠ 0 → e'.parentId = e.parentId

theorem Grows.refl (e : ProcessEntity) : Grows e e := ⟨rfl, rfl, fun h => h, fun _ => rfl, fun _ => rfl⟩

theorem Grows.trans {e e' e'' : ProcessEntity} (h : Grows e e') (h' : Grows e' e'') : Grows e e'' := by
  refine ⟨h'.id.trans h.id, h'.first.trans h.first, fun he => h'.exited (h.exited he), fun he => ?_,
    fun he => ?_⟩
  · have hstart := h.start he
    exact (h'.start (hstart ▸ he)).trans hstart
  · have hparent := h.parent he
    exact (h'.parent (hparent ▸ he)).trans hparent

theorem grows_markedExited (nowNs : UInt64) (exitCode : Int64) (e : ProcessEntity) :
    Grows e (markedExited nowNs exitCode e) := ⟨rfl, rfl, fun _ => rfl, fun _ => rfl, fun _ => rfl⟩

theorem grows_linked (parentId : Nat) (e : ProcessEntity) : Grows e (linked parentId e) := by
  unfold linked
  split_ifs with h
  · exact ⟨rfl, rfl, fun he => he, fun _ => rfl, fun he => absurd h he⟩
  · exact .refl e

theorem grows_hinted (hint : Bytes) (e : ProcessEntity) : Grows e (hinted hint e) := by
  unfold hinted
  split_ifs
  · exact ⟨rfl, rfl, fun he => he, fun _ => rfl, fun _ => rfl⟩
  · exact .refl e

theorem grows_retired (env : ResolveEnv) (nowNs : UInt64) (e : ProcessEntity) :
    Grows e (retired env nowNs e) := by
  obtain ⟨checked, hchecked⟩ := ProcessEntity.isReused_snd env.proc.identityStat nowNs e
  unfold retired
  rw [hchecked]
  exact ⟨rfl, rfl, fun _ => rfl, fun _ => rfl, fun _ => rfl⟩

theorem grows_touched (env : ResolveEnv) {actor : ActorIdentity} (nowNs : UInt64) (refresh : Bool)
    {e : ProcessEntity} (hkey : e.key = actor.key) : Grows e (touched env actor nowNs refresh e) := by
  obtain ⟨hsame, hexit, hparent, -⟩ := ProcessEntity.touched_spec env nowNs refresh hkey
  exact ⟨hsame.id, hsame.first, fun he => hexit.trans he,
    ProcessEntity.touched_startTimeTicks env actor nowNs refresh e, fun _ => hparent⟩

/-- Everything stored later grew from what was stored before under the same id, or has an id that had
not been issued. -/
structure Grown (r r' : EntityRegistry) : Prop where
  next : r.nextId ≤ r'.nextId
  carried : ∀ k e', r'.findProcess k = some e' →
    (∃ e, r.findProcess k = some e ∧ Grows e e') ∨ r.nextId ≤ k

theorem Grown.refl (r : EntityRegistry) : Grown r r :=
  ⟨Nat.le_refl _, fun _ e h => Or.inl ⟨e, h, .refl e⟩⟩

theorem Grown.trans {r r' r'' : EntityRegistry} (h : Grown r r') (h' : Grown r' r'') :
    Grown r r'' := by
  refine ⟨Nat.le_trans h.next h'.next, fun k e'' hk => ?_⟩
  rcases h'.carried k e'' hk with ⟨e', he', hgrows'⟩ | hle
  · rcases h.carried k e' he' with ⟨e, he, hgrows⟩ | hle
    · exact Or.inl ⟨e, he, hgrows.trans hgrows'⟩
    · exact Or.inr hle
  · exact Or.inr (Nat.le_trans h.next hle)

theorem Writes.grown {r r' : EntityRegistry} {id : Nat} {f : ProcessEntity → ProcessEntity}
    (h : Writes id f r r') (hnext : r'.nextId = r.nextId) (hf : ∀ e, Grows e (f e)) : Grown r r' := by
  refine ⟨Nat.le_of_eq hnext.symm, fun k e' hk => ?_⟩
  obtain ⟨e, he, rfl | ⟨-, rfl⟩⟩ := h.origin hk
  · exact Or.inl ⟨e', he, .refl e'⟩
  · exact Or.inl ⟨e, he, hf e⟩

section Pieces
variable {r : EntityRegistry} (hr : r.Consistent)
include hr

theorem resolveProcess_grown (env : ResolveEnv) (actor : ActorIdentity) (nowNs : UInt64)
    (refresh : Bool) : Grown r (resolveProcess env actor nowNs refresh r).1 := by
  refine ⟨?_, fun k e' hk => ?_⟩
  · obtain ⟨log, hlog, -⟩ := (resolveProcess_logs hr env actor nowNs refresh).exists_log
    exact hlog.extends.next
  cases resolveProcess_origin env actor nowNs refresh hr hk with
  | kept _ _ hstored => exact Or.inl ⟨e', hstored, .refl e'⟩
  | @seen e _ hfinds heq =>
    have hkey := (hr.of_indexed hfinds.index hfinds.stored).2
    exact Or.inl ⟨e, hfinds.stored, heq ▸ grows_touched env nowNs refresh hkey⟩
  | @retired e _ _ hstored _ heq => exact Or.inl ⟨e, hstored, heq ▸ grows_retired env nowNs e⟩
  | created _ hnew _ => exact Or.inr (Nat.le_of_eq hnew.symm)

end Pieces

namespace Call

variable (c : Call) {r : EntityRegistry} (hr : r.Consistent)
include hr

theorem resolved_grown : Grown r (c.resolved r).1 := resolveProcess_grown hr _ _ _ _

theorem childResolved_grown : Grown (c.resolved r).1 (c.childResolved r).1 :=
  resolveProcess_grown (c.resolved_consistent hr) _ _ _ _

theorem acted_grown : Grown (c.resolved r).1 (c.acted r) := by
  unfold acted
  split_ifs
  · exact (markExited_writes _ _ _ _).grown (markExited_nextId _ _ _) (grows_markedExited _ _)
  · exact (c.childResolved_grown hr).trans
      ((linkParent_writes _ _ _).grown (linkParent_nextId _ _) (grows_linked _))
  · exact .refl _

omit hr in
theorem acted_next_grown : Grown (c.acted r) (c.next r) := by
  rw [next_eq]
  exact (useExecPathHint_writes _ _ _).grown (useExecPathHint_nextId _ _) (grows_hinted _)

theorem resolved_next_grown : Grown (c.resolved r).1 (c.next r) :=
  (c.acted_grown hr).trans c.acted_next_grown

theorem next_grown : Grown r (c.next r) := (c.resolved_grown hr).trans (c.resolved_next_grown hr)

end Call

theorem run_grown (calls more : List Call) : Grown (run calls) (run (calls ++ more)) := by
  induction more using List.reverseRecOn with
  | nil =>
    rw [List.append_nil]
    exact .refl _
  | append_singleton more c ih =>
    rw [← List.append_assoc, run_snoc]
    exact ih.trans (c.next_grown (run_consistent _))

/-! ## Ids that no call resolves -/

/-- The id was issued, and no live entity is stored under it. -/
structure Retired (r : EntityRegistry) (k : Nat) : Prop where
  pos : 0 < k
  lt : k < r.nextId
  exited : ∀ e, r.findProcess k = some e → e.exited = true

theorem Retired.mono {r r' : EntityRegistry} {k : Nat} (h : Retired r k) (hgrown : Grown r r') :
    Retired r' k := by
  refine ⟨h.pos, Nat.lt_of_lt_of_le h.lt hgrown.next, fun e' he' => ?_⟩
  rcases hgrown.carried k e' he' with ⟨e, he, hgrows⟩ | hle
  · exact hgrows.exited (h.exited e he)
  · exact absurd h.lt (Nat.not_lt.mpr hle)

theorem Consistent.retired {r : EntityRegistry} (hr : r.Consistent) {k : Nat} {e : ProcessEntity}
    (hstored : r.findProcess k = some e) (hexited : e.exited = true) : Retired r k := by
  obtain ⟨-, hpos, hlt⟩ := hr.own_id k e hstored
  refine ⟨hpos, hlt, fun f hf => ?_⟩
  rw [hstored] at hf
  exact Option.some.inj hf ▸ hexited

/-- An indexed id is not retired. -/
theorem Retired.not_indexed {r : EntityRegistry} (hr : r.Consistent) {k : Nat} (h : Retired r k)
    (key : UInt32) : r.tgidIndex.lookup key ≠ some k := by
  intro hindex
  obtain ⟨e, he, hlive, -⟩ := hr.indexed key k hindex
  have hexited := h.exited e he
  rw [hlive] at hexited
  cases hexited

section Resolve
variable {r : EntityRegistry} (hr : r.Consistent) (env : ResolveEnv) (actor : ActorIdentity)
  (nowNs : UInt64) (refresh : Bool)
include hr

theorem Retired.ne_resolved {k : Nat} (h : Retired r k) :
    k ≠ (resolveProcess env actor nowNs refresh r).2 := by
  intro hk
  by_cases hkey : actor.key = 0
  · rw [resolveProcess_zero env actor nowNs refresh hkey] at hk
    exact Nat.pos_iff_ne_zero.mp h.pos hk
  · rcases resolveProcess_id env actor nowNs refresh hr hkey with ⟨e, hfinds⟩ | hnew
    · exact h.not_indexed hr _ (hk ▸ hfinds.index)
    · exact Nat.ne_of_lt h.lt (hk.trans hnew)

/-- What is stored under an id that the resolution does not find stays as it is, or is evicted. -/
theorem resolveProcess_unindexed {k : Nat}
    (hne : k ≠ (resolveProcess env actor nowNs refresh r).2)
    (hindex : r.tgidIndex.lookup actor.key ≠ some k) :
    (resolveProcess env actor nowNs refresh r).1.findProcess k = r.findProcess k ∨
      ∃ e, r.findProcess k = some e ∧
        EvictedFrom env.order (resolveProcess env actor nowNs refresh r).1 k e := by
  have hback : ∀ e', (resolveProcess env actor nowNs refresh r).1.findProcess k = some e' →
      r.findProcess k = some e' := by
    intro e' he'
    cases resolveProcess_origin env actor nowNs refresh hr he' with
    | kept _ _ hstored => exact hstored
    | seen hid => exact absurd hid hne
    | retired _ hold => exact absurd hold hindex
    | created hid => exact absurd hid hne
  cases hstored : r.findProcess k with
  | none =>
    left
    rw [Option.eq_none_iff_forall_ne_some]
    intro e' he'
    rw [hback e' he'] at hstored
    cases hstored
  | some e =>
    rcases resolveProcess_fate env actor nowNs refresh hr hstored with
      ⟨e', he'⟩ | ⟨e', rfl | ⟨hold, -⟩, hevicted⟩
    · rw [he', ← hback e' he', hstored]
      exact Or.inl rfl
    · exact Or.inr ⟨e', rfl, hevicted⟩
    · exact absurd hold hindex

/-- What is stored under a retired id stays as it is, or is evicted. -/
theorem Retired.resolveProcess {k : Nat} (h : Retired r k) :
    (resolveProcess env actor nowNs refresh r).1.findProcess k = r.findProcess k ∨
      ∃ e, r.findProcess k = some e ∧
        EvictedFrom env.order (resolveProcess env actor nowNs refresh r).1 k e :=
  resolveProcess_unindexed hr env actor nowNs refresh (h.ne_resolved hr env actor nowNs refresh)
    (h.not_indexed hr actor.key)

end Resolve

/-- One of the two resolutions of the call ended with the eviction of the entity. -/
def Call.Evicts (c : Call) (r : EntityRegistry) (k : Nat) (e : ProcessEntity) : Prop :=
  EvictedFrom c.env.subject.order (c.resolved r).1 k e ∨
    c.StartsChild ∧ EvictedFrom c.env.child.order (c.childResolved r).1 k e

/-- What a call does to a tombstone: nothing, or it evicts it; and one that is gone does not come
back. -/
def Call.Respects (c : Call) (r : EntityRegistry) (k : Nat) (e : ProcessEntity) : Prop :=
  r.findProcess k = some e ∧
      ((c.next r).findProcess k = some e ∨ (c.next r).findProcess k = none ∧ c.Evicts r k e) ∨
    r.findProcess k = none ∧ (c.next r).findProcess k = none

namespace Call

variable (c : Call) {r : EntityRegistry} (hr : r.Consistent) {k : Nat}
include hr

/-- Past the subject's resolution the call writes the ids it resolved, and evicts for the child. -/
theorem acted_retired (h : Retired r k) :
    (c.acted r).findProcess k = (c.resolved r).1.findProcess k ∨
      c.StartsChild ∧ (c.acted r).findProcess k = none ∧
        ∃ e, (c.resolved r).1.findProcess k = some e ∧
          EvictedFrom c.env.child.order (c.childResolved r).1 k e := by
  have hmid := h.mono (c.resolved_grown hr)
  have hcons := c.resolved_consistent hr
  unfold acted
  split_ifs with hexit hstart
  · exact Or.inl ((markExited_writes _ _ _ _).ne (h.ne_resolved hr _ _ _ _))
  · have hne : k ≠ (c.childResolved r).2 := hmid.ne_resolved hcons _ _ _ _
    rw [(linkParent_writes _ _ _).ne hne]
    rcases hmid.resolveProcess hcons c.env.child c.child c.ev.tsNs true with hsame | ⟨e, he, hevicted⟩
    · exact Or.inl hsame
    · exact Or.inr ⟨hstart, hevicted.gone, e, he, hevicted⟩
  · exact Or.inl rfl

theorem next_retired (h : Retired r k) :
    (c.next r).findProcess k = r.findProcess k ∨
      (c.next r).findProcess k = none ∧ ∃ e, r.findProcess k = some e ∧ c.Evicts r k e := by
  have hnext : (c.next r).findProcess k = (c.acted r).findProcess k := by
    rw [next_eq]
    exact (useExecPathHint_writes _ _ _).ne (h.ne_resolved hr _ _ _ _)
  rw [hnext]
  have hsubject := h.resolveProcess hr c.env.subject c.ev.actor c.ev.tsNs
    (c.ev.action == .processExeced)
  change (c.resolved r).1.findProcess k = _ ∨ _ at hsubject
  rcases c.acted_retired hr h with hsame | ⟨hstart, hgone, e, he, hevicted⟩
  · rw [hsame]
    rcases hsubject with hsame' | ⟨e, he, hevicted⟩
    · exact Or.inl hsame'
    · exact Or.inr ⟨hevicted.gone, e, he, Or.inl hevicted⟩
  · rcases hsubject with hsame' | ⟨f, -, hevicted'⟩
    · exact Or.inr ⟨hgone, e, hsame' ▸ he, Or.inr ⟨hstart, hevicted⟩⟩
    · have hnone : (c.resolved r).1.findProcess k = none := hevicted'.gone
      rw [hnone] at he
      cases he

/-- A tombstone is respected. -/
theorem respects {e : ProcessEntity} (h : Retired r k)
    (hstored : r.findProcess k = some e ∨ r.findProcess k = none) : c.Respects r k e := by
  have hnext := c.next_retired hr h
  rcases hstored with hstored | hnone
  · left
    refine ⟨hstored, ?_⟩
    rw [hstored] at hnext
    rcases hnext with hsame | ⟨hgone, f, hf, hevicts⟩
    · exact Or.inl hsame
    · obtain rfl := Option.some.inj hf
      exact Or.inr ⟨hgone, hevicts⟩
  · right
    refine ⟨hnone, ?_⟩
    rw [hnone] at hnext
    rcases hnext with hsame | ⟨hgone, -⟩
    · exact hsame
    · exact hgone

end Call

/-- A tombstone stands until it is evicted. -/
theorem run_tombstone {calls : List Call} {k : Nat} {e : ProcessEntity}
    (hstored : (run calls).findProcess k = some e) (hexited : e.exited = true) (more : List Call) :
    (run (calls ++ more)).findProcess k = some e ∨ (run (calls ++ more)).findProcess k = none := by
  have hretired := (run_consistent calls).retired hstored hexited
  induction more using List.reverseRecOn with
  | nil =>
    rw [List.append_nil]
    exact Or.inl hstored
  | append_singleton more c ih =>
    rw [← List.append_assoc, run_snoc]
    rcases c.respects (run_consistent _) (hretired.mono (run_grown calls more)) ih with
      ⟨-, hsame | ⟨hgone, -⟩⟩ | ⟨-, hgone⟩
    · exact Or.inl hsame
    · exact Or.inr hgone
    · exact Or.inr hgone

/-! ## The calls of `MarkExited` that take effect -/

/-- The id whose entity `ResolveProcess` retires, its key being reused. -/
def reuseMarks (env : ResolveEnv) (actor : ActorIdentity) (nowNs : UInt64) (r : EntityRegistry) :
    List Nat :=
  if actor.key = 0 then []
  else
    match r.tgidIndex.lookup actor.key with
    | none => []
    | some id =>
      match r.findProcess id with
      | none => []
      | some e => if (isReused env.proc.identityStat nowNs e).1 then [id] else []

/-- The same for the rest of a call, after its subject is resolved: an exit, or the child. -/
def Call.laterMarks (c : Call) (r : EntityRegistry) : List Nat :=
  if c.ev.action = .processExited then
    if ((c.resolved r).1.findProcess (c.resolved r).2).isSome then [(c.resolved r).2] else []
  else if c.StartsChild then reuseMarks c.env.child c.child c.ev.tsNs (c.resolved r).1
  else []

/-- The ids at which the call's `MarkExited` finds an entity, in order. -/
def Call.marks (c : Call) (r : EntityRegistry) : List Nat :=
  reuseMarks c.env.subject c.ev.actor c.ev.tsNs r ++ c.laterMarks r

def marksFrom : EntityRegistry → List Call → List Nat
  | _, [] => []
  | r, c :: calls => c.marks r ++ marksFrom (c.next r) calls

section Marks
variable {r : EntityRegistry} (hr : r.Consistent)
include hr

/-- A reused key's entity was live, is retired, and is not the one that is resolved. -/
theorem reuseMarks_cases (env : ResolveEnv) (actor : ActorIdentity) (nowNs : UInt64) (refresh : Bool) :
    reuseMarks env actor nowNs r = [] ∨
      ∃ k, reuseMarks env actor nowNs r = [k] ∧ ¬Retired r k ∧
        Retired (resolveProcess env actor nowNs refresh r).1 k ∧
        k ≠ (resolveProcess env actor nowNs refresh r).2 := by
  unfold reuseMarks
  split_ifs with hkey
  · exact Or.inl rfl
  split
  · exact Or.inl rfl
  · rename_i k hindex
    split
    · exact Or.inl rfl
    · rename_i e hstored
      split_ifs with hreused
      · right
        obtain ⟨-, hpos, hlt⟩ := hr.own_id k e hstored
        have hid : (resolveProcess env actor nowNs refresh r).2 = r.nextId := by
          have hclear : Cleared env actor nowNs r (afterReuse env nowNs k e r) :=
            .reused hindex hstored hreused
          rw [resolveProcess_reused env actor nowNs refresh hkey hindex hstored hreused,
            createProcess_eq]
          exact (hclear.spec hr).2.2
        have hne : k ≠ (resolveProcess env actor nowNs refresh r).2 := by
          rw [hid]
          exact Nat.ne_of_lt hlt
        have hnext := (resolveProcess_grown hr env actor nowNs refresh).next
        refine ⟨k, rfl, fun h => h.not_indexed hr _ hindex,
          ⟨hpos, Nat.lt_of_lt_of_le hlt hnext, fun e' he' => ?_⟩, hne⟩
        cases resolveProcess_origin env actor nowNs refresh hr he' with
        | kept _ hother => exact absurd hindex (hother hkey)
        | seen hid' => exact absurd hid' hne
        | retired _ _ _ _ heq => exact heq ▸ rfl
        | created hid' => exact absurd hid' hne
      · exact Or.inl rfl

theorem Call.laterMarks_cases (c : Call) :
    c.laterMarks r = [] ∨
      ∃ k, c.laterMarks r = [k] ∧ ¬Retired (c.resolved r).1 k ∧ Retired (c.acted r) k := by
  have hcons := c.resolved_consistent hr
  unfold laterMarks acted
  split_ifs with hexit hsome hstart
  · right
    obtain ⟨e, hstored⟩ := Option.isSome_iff_exists.mp hsome
    obtain ⟨-, hpos, hlt⟩ := hcons.own_id _ e hstored
    refine ⟨_, rfl, fun h => ?_, hpos, ?_, fun e' he' => ?_⟩
    · -- what the call just resolved is live
      have hkey : c.ev.actor.key ≠ 0 := by
        intro hkey
        rw [resolved, resolveProcess_zero _ _ _ _ hkey] at hpos
        exact absurd hpos (Nat.lt_irrefl 0)
      rcases resolveProcess_stored c.env.subject c.ev.actor c.ev.tsNs (c.ev.action == .processExeced)
        hr hkey with ⟨hnone, -⟩ | ⟨f, hf, hlive, -⟩
      · change (c.resolved r).1.findProcess (c.resolved r).2 = none at hnone
        rw [hnone] at hstored
        cases hstored
      · rw [h.exited f hf] at hlive
        cases hlive
    · rw [markExited_nextId]
      exact hlt
    · rw [(markExited_writes _ _ _ _).self] at he'
      obtain ⟨f, -, rfl⟩ := Option.map_eq_some_iff.mp he'
      rfl
  · exact Or.inl rfl
  · rcases reuseMarks_cases hcons c.env.child c.child c.ev.tsNs true with hnil | ⟨k, hk, hold, hnew, -⟩
    · exact Or.inl hnil
    · exact Or.inr ⟨k, hk, hold,
        hnew.mono ((linkParent_writes _ _ _).grown (linkParent_nextId _ _) (grows_linked _))⟩
  · exact Or.inl rfl

/-- What is marked in a call is marked once; it was not retired before, and is afterwards. -/
theorem Call.marks_spec (c : Call) :
    (c.marks r).Nodup ∧ ∀ k ∈ c.marks r, ¬Retired r k ∧ Retired (c.next r) k := by
  have hfirst := reuseMarks_cases hr c.env.subject c.ev.actor c.ev.tsNs (c.ev.action == .processExeced)
  have hlater := c.laterMarks_cases hr
  refine ⟨?_, fun k hk => ?_⟩
  · unfold marks
    rcases hfirst with hnil | ⟨k, hk, -, hretired, -⟩ <;>
      rcases hlater with hnil' | ⟨k', hk', hlive, -⟩
    · rw [hnil, hnil']
      exact List.nodup_nil
    · rw [hnil, hk']
      exact List.nodup_singleton k'
    · rw [hk, hnil']
      exact List.nodup_singleton k
    · rw [hk, hk', List.singleton_append, List.nodup_cons, List.mem_singleton]
      refine ⟨?_, List.nodup_singleton k'⟩
      rintro rfl
      exact hlive hretired
  · rcases List.mem_append.mp hk with hk | hk
    · rcases hfirst with hnil | ⟨k', hk', hold, hretired, -⟩
      · rw [hnil] at hk
        cases hk
      · rw [hk'] at hk
        obtain rfl := List.mem_singleton.mp hk
        exact ⟨hold, hretired.mono (c.resolved_next_grown hr)⟩
    · rcases hlater with hnil | ⟨k', hk', hlive, hretired⟩
      · rw [hnil] at hk
        cases hk
      · rw [hk'] at hk
        obtain rfl := List.mem_singleton.mp hk
        exact ⟨fun h => hlive (h.mono (c.resolved_grown hr)), hretired.mono c.acted_next_grown⟩

/-- Over a run, nothing that was retired at its start is marked, and nothing is marked twice. -/
theorem marksFrom_spec (calls : List Call) :
    (marksFrom r calls).Nodup ∧ ∀ k ∈ marksFrom r calls, ¬Retired r k := by
  induction calls generalizing r with
  | nil => exact ⟨List.nodup_nil, fun k hk => by cases hk⟩
  | cons c calls ih =>
    obtain ⟨hnodup, hmarks⟩ := c.marks_spec hr
    obtain ⟨hrest, hlater⟩ := ih ((c.next_logs hr).consistent hr)
    refine ⟨List.nodup_append'.mpr ⟨hnodup, hrest, fun k hk hk' => ?_⟩, fun k hk => ?_⟩
    · exact hlater k hk' (hmarks k hk).2
    · rcases List.mem_append.mp hk with hk | hk
      · exact (hmarks k hk).1
      · exact fun h => hlater k hk (h.mono (c.next_grown hr))

end Marks

/-- Over every run: once an entity is exited at the end of a call, every later call leaves all of it
unchanged or removes it by eviction; stored entities only grow; and `MarkExited` takes effect at most
once for an id. -/
theorem tombstones (calls : List Call) :
    (∀ k e, (run calls).findProcess k = some e → e.exited = true →
        ∀ (more : List Call) (c : Call), c.Respects (run (calls ++ more)) k e) ∧
      (∀ (more : List Call) k e e', (run calls).findProcess k = some e →
        (run (calls ++ more)).findProcess k = some e' → Grows e e') ∧
      (marksFrom {} calls).Nodup := by
  have hr := run_consistent calls
  refine ⟨fun k e hstored hexited more c => ?_, fun more k e e' hstored hstored' => ?_,
    (marksFrom_spec consistent_empty calls).1⟩
  · exact c.respects (run_consistent _) ((hr.retired hstored hexited).mono (run_grown calls more))
      (run_tombstone hstored hexited more)
  · rcases (run_grown calls more).carried k e' hstored' with ⟨f, hf, hgrows⟩ | hle
    · rw [hstored] at hf
      exact Option.some.inj hf ▸ hgrows
    · exact absurd (hr.own_id k e hstored).2.2 (Nat.not_lt.mpr hle)

end ETraceGen.EntityRegistry
