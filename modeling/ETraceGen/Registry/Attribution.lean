import ETraceGen.Registry.Eviction
import ETraceGen.Registry.Origin

/-!
# Attribution

The record of an event is written with the context of the entity its `Ingest` attached. One `Ingest` can
create two entities, and each creation may evict; with strictly increasing timestamps an eviction hits an
entity that was last seen before the call, so the two that the call resolved are there at its end
(`attribution`).
-/

namespace ETraceGen

namespace ProcessEntity

/-- An identity check writes the time it is made at. -/
theorem isReused_snd_cases (identityStat : Option Bytes) (nowNs : UInt64) (e : ProcessEntity) :
    ¬e.ChecksIdentity nowNs ∧ (isReused identityStat nowNs e).2 = e ∨
      (isReused identityStat nowNs e).2 = { e with lastIdentityCheckNs := nowNs } := by
  unfold isReused ChecksIdentity
  dsimp only
  split_ifs with hzero hthrottled
  · exact Or.inl ⟨fun h => h.1 hzero, rfl⟩
  · exact Or.inl ⟨fun h => h.2 hthrottled, rfl⟩
  · exact Or.inr rfl
  · exact Or.inr rfl

theorem not_due {nowNs : UInt64} {e : ProcessEntity} (h : e.lastIdentityCheckNs = nowNs) :
    ¬e.ChecksIdentity nowNs := by
  rintro ⟨-, hdue⟩
  apply hdue
  rw [h, UInt64.sub_self]
  decide

/-- What was just looked at is not due for a check at the same time. -/
theorem touched_not_due (env : ResolveEnv) (actor : ActorIdentity) (nowNs : UInt64)
    (e : ProcessEntity) : ¬(touched env actor nowNs false e).ChecksIdentity nowNs := by
  rcases isReused_snd_cases env.proc.identityStat nowNs e with ⟨hcheck, heq⟩ | heq
  · unfold touched
    rw [heq]
    exact hcheck
  · apply not_due
    unfold touched
    rw [heq]
    rfl

/-- What says whose entity it is, and when it was last seen. -/
def sight (e : ProcessEntity) : UInt32 × UInt64 := (e.key, e.lastSeenNs)

end ProcessEntity

namespace EntityRegistry

open ProcessEntity (isReused touched markedExited retired linked hinted)

/-! ## Times -/

theorem Call.mention_time {c : Call} {r : EntityRegistry} {key : UInt32} {id : Nat} {ts : UInt64}
    (h : .mention key id ts ∈ c.history r) : ts = c.ev.tsNs := by
  unfold Call.history at h
  rcases List.mem_append.mp h with h | h
  · split_ifs at h <;> simp_all
  · split_ifs at h <;> simp_all

theorem mention_time {calls : List Call} {r : EntityRegistry} {key : UInt32} {id : Nat} {ts : UInt64}
    (h : .mention key id ts ∈ historyFrom r calls) : ∃ c ∈ calls, ts = c.ev.tsNs := by
  induction calls generalizing r with
  | nil => cases h
  | cons c calls ih =>
    rcases List.mem_append.mp h with h | h
    · exact ⟨c, List.mem_cons_self, Call.mention_time h⟩
    · obtain ⟨d, hd, hts⟩ := ih h
      exact ⟨d, List.mem_cons_of_mem c hd, hts⟩

/-- Every stored entity was last seen at the time of some event. -/
theorem lastSeen_time {calls : List Call} {id : Nat} {e : ProcessEntity}
    (h : (run calls).findProcess id = some e) : ∃ c ∈ calls, e.lastSeenNs = c.ev.tsNs := by
  obtain ⟨log, hlog, hseen, -⟩ := (run_logs calls).exists_log
  obtain ⟨key, hm⟩ := hlog.stamped.1 id e h
  have hhistory : .mention key id e.lastSeenNs ∈ history calls := by
    rw [← hseen]
    exact List.mem_filter.mpr ⟨hm, rfl⟩
  exact mention_time hhistory

/-- Every stored entity but those with the given ids was last seen before. -/
def OlderBut (nowNs : UInt64) (ids : List Nat) (r : EntityRegistry) : Prop :=
  ∀ id e, r.findProcess id = some e → id ∉ ids → e.lastSeenNs < nowNs

theorem run_older {calls : List Call} {nowNs : UInt64} (h : ∀ c ∈ calls, c.ev.tsNs < nowNs) :
    OlderBut nowNs [] (run calls) := by
  intro id e he _
  obtain ⟨c, hc, hseen⟩ := lastSeen_time he
  rw [hseen]
  exact h c hc

/-! ## Evictions hit older entities -/

/-- With more entities than the cap allows, some are older. -/
theorem exists_older {r : EntityRegistry} {nowNs : UInt64} {ids : List Nat} (h : OlderBut nowNs ids r)
    (hids : ids.length ≤ 2) (hover : kMaxEntries < r.processCount) :
    ∃ id e, r.findProcess id = some e ∧ e.lastSeenNs < nowNs := by
  by_contra hnone
  have hsub : r.processesById.keys.toFinset ⊆ ids.toFinset := by
    intro id hid
    obtain ⟨e, he⟩ := KeyedMap.exists_lookup (List.mem_toFinset.mp hid)
    rw [List.mem_toFinset]
    by_contra hother
    exact hnone ⟨id, e, he, h id e he hother⟩
  have hcard := Nat.le_trans (Finset.card_le_card hsub) (List.toFinset_card_le ids)
  rw [List.toFinset_card_of_nodup r.processesById.keys_nodup] at hcard
  change r.processCount ≤ _ at hcard
  unfold kMaxEntries at hover
  omega

/-- An entity that was seen now is not the victim. -/
theorem evictIfNeeded_keeps {r : EntityRegistry} (hr : r.Consistent) (order : BucketOrder)
    {nowNs : UInt64} {ids : List Nat} (h : OlderBut nowNs ids r) (hids : ids.length ≤ 2) {k : Nat}
    {e : ProcessEntity} (hstored : r.findProcess k = some e) (hseen : e.lastSeenNs = nowNs) :
    (evictIfNeeded order r).findProcess k = some e := by
  rcases evictIfNeeded_cases hr order with ⟨heq, -⟩ | ⟨id, v, hover, hv, hleast, heq⟩
  · rw [heq, hstored]
  · obtain ⟨old, f, hf, holder⟩ := exists_older h hids hover
    have hne : k ≠ id := by
      rintro rfl
      rw [hstored] at hv
      obtain rfl := Option.some.inj hv
      have hle := hleast old f hf
      rw [hseen] at hle
      exact absurd holder (UInt64.not_lt.mpr hle)
    rw [heq]
    split_ifs
    · rw [drop_findProcess, if_neg hne, hstored]
    · rw [drop_findProcess, if_neg hne, unindex_findProcess, hstored]

section Resolve
variable {r : EntityRegistry} (hr : r.Consistent) (env : ResolveEnv) (actor : ActorIdentity)
  (nowNs : UInt64) (refresh : Bool) {ids : List Nat} (hold : OlderBut nowNs ids r)
include hr hold

theorem resolveProcess_older :
    OlderBut nowNs ((resolveProcess env actor nowNs refresh r).2 :: ids)
      (resolveProcess env actor nowNs refresh r).1 := by
  intro k e' hk hother
  rw [List.mem_cons, not_or] at hother
  obtain ⟨hne, hids⟩ := hother
  cases resolveProcess_origin env actor nowNs refresh hr hk with
  | kept _ _ hstored => exact hold k e' hstored hids
  | seen hid => exact absurd hid hne
  | @retired e _ _ hstored _ heq =>
    rw [heq, ProcessEntity.retired_keeps ProcessEntity.lastSeenNs fun _ _ _ _ => rfl]
    exact hold k e hstored hids
  | created hid => exact absurd hid hne

omit hr in
/-- The registry an eviction starts from. -/
theorem Cleared.older {r₀ : EntityRegistry} (h : Cleared env actor nowNs r r₀) :
    OlderBut nowNs (r₀.nextId :: ids) (withNew env actor nowNs r₀) := by
  intro k e' hk hother
  rw [List.mem_cons, not_or] at hother
  obtain ⟨hne, hids⟩ := hother
  rw [withNew_findProcess, if_neg hne] at hk
  cases h with
  | unindexed _ => exact hold k e' hk hids
  | @reused id e _ hstored _ =>
    rw [afterReuse_writes hstored] at hk
    split_ifs at hk with hid
    · subst hid
      rw [hstored] at hk
      obtain rfl := Option.some.inj hk
      rw [ProcessEntity.retired_keeps ProcessEntity.lastSeenNs fun _ _ _ _ => rfl]
      exact hold k e hstored hids
    · exact hold k e' hk hids

variable (hids : ids.length ≤ 1)
include hids

/-- What a call resolves is stored under the id it gets, seen now, and not due for a check if it was not
refreshed. -/
theorem resolveProcess_present (hkey : actor.key ≠ 0) :
    ∃ e, (resolveProcess env actor nowNs refresh r).1.findProcess
          (resolveProcess env actor nowNs refresh r).2 = some e ∧
        e.key = actor.key ∧ e.lastSeenNs = nowNs ∧ (refresh = false → ¬e.ChecksIdentity nowNs) := by
  rcases resolveProcess_paths env actor nowNs refresh hr hkey with
    ⟨id, e, hfinds, heq⟩ | ⟨r₀, hclear, heq⟩
  · have hk := (hr.of_indexed hfinds.index hfinds.stored).2
    obtain ⟨hsame, -, -, hseen⟩ := ProcessEntity.touched_spec env nowNs refresh hk
    refine ⟨touched env actor nowNs refresh e, ?_, hsame.key.trans hk, hseen, ?_⟩
    · rw [heq, findProcess_store, if_pos rfl]
    · rintro rfl
      exact ProcessEntity.touched_not_due env actor nowNs e
  · obtain ⟨-, hk, -, -, hseen⟩ := newProcess_spec env.proc actor.key actor nowNs r₀.nextId
    refine ⟨newProcess env.proc actor.key actor nowNs r₀.nextId, ?_, hk, hseen, fun _ hcheck => ?_⟩
    · rw [heq]
      refine evictIfNeeded_keeps (hclear.withNew_consistent hr) env.order
        (hclear.older env actor nowNs hold) (by simp; omega) ?_ hseen
      rw [withNew_findProcess, if_pos rfl]
    · exact ProcessEntity.not_due (newProcess_checked env.proc actor.key actor nowNs r₀.nextId) hcheck

/-- An entity that was seen now and is not due for a check is still there after another key is
resolved. -/
theorem resolveProcess_keeps {k : Nat} {e : ProcessEntity} (hstored : r.findProcess k = some e)
    (hseen : e.lastSeenNs = nowNs) (hcheck : ¬e.ChecksIdentity nowNs) :
    ∃ e', (resolveProcess env actor nowNs refresh r).1.findProcess k = some e' ∧
      e'.key = e.key ∧ e'.lastSeenNs = nowNs := by
  by_cases hkey : actor.key = 0
  · rw [resolveProcess_zero env actor nowNs refresh hkey]
    exact ⟨e, hstored, rfl, hseen⟩
  rcases resolveProcess_paths env actor nowNs refresh hr hkey with
    ⟨id, f, hfinds, heq⟩ | ⟨r₀, hclear, heq⟩
  · rw [heq, findProcess_store]
    split_ifs with hk
    · subst hk
      have hk := (hr.of_indexed hfinds.index hfinds.stored).2
      have hstored' := hfinds.stored
      rw [hstored] at hstored'
      obtain rfl := Option.some.inj hstored'
      obtain ⟨hsame, -, -, hseen'⟩ := ProcessEntity.touched_spec env nowNs refresh hk
      exact ⟨_, rfl, hsame.key, hseen'⟩
    · exact ⟨e, hstored, rfl, hseen⟩
  · refine ⟨e, ?_, rfl, hseen⟩
    rw [heq]
    refine evictIfNeeded_keeps (hclear.withNew_consistent hr) env.order
      (hclear.older env actor nowNs hold) (by simp; omega) ?_ hseen
    rw [withNew_findProcess, if_neg]
    · cases hclear with
      | unindexed _ => exact hstored
      | @reused id f _ hold' hreused =>
        rw [(afterReuse_writes hold').ne, hstored]
        rintro rfl
        rw [hstored] at hold'
        obtain rfl := Option.some.inj hold'
        exact hcheck (ProcessEntity.isReused_iff.mp hreused).1
    · rw [(hclear.spec hr).2.2]
      exact Nat.ne_of_lt (hr.own_id k e hstored).2.2

end Resolve

/-! ## One call -/

namespace Call

variable (c : Call) {r : EntityRegistry} (hr : r.Consistent) (hold : OlderBut c.ev.tsNs [] r)

theorem out_subjectProcess : (c.out r).subjectProcess = (c.next r).findProcess (c.resolved r).2 := by
  unfold out next ingest
  dsimp only
  split_ifs <;> rfl

include hr hold

/-- The subject is there once the exit or the child of the event is handled. -/
theorem acted_subject (hkey : c.ev.actor.key ≠ 0) :
    ∃ e, (c.acted r).findProcess (c.resolved r).2 = some e ∧
      e.sight = (c.ev.actor.key, c.ev.tsNs) := by
  obtain ⟨e, hstored, hk, hseen, hcheck⟩ := resolveProcess_present hr c.env.subject c.ev.actor c.ev.tsNs
    (c.ev.action == .processExeced) hold (by simp) hkey
  change (c.resolved r).1.findProcess (c.resolved r).2 = some e at hstored
  have hsight : e.sight = (c.ev.actor.key, c.ev.tsNs) := Prod.ext hk hseen
  unfold acted
  split_ifs with hexit hstart
  · obtain ⟨e', he', hsame⟩ := (markExited_writes (c.resolved r).1 (c.resolved r).2 c.ev.tsNs
      c.ev.outcome).keeps ProcessEntity.sight (fun _ => rfl) hstored
    exact ⟨e', he', hsame.trans hsight⟩
  · have hnoexec : (c.ev.action == .processExeced) = false := by
      rw [hstart.1]
      rfl
    have hmid := resolveProcess_older hr c.env.subject c.ev.actor c.ev.tsNs
      (c.ev.action == .processExeced) hold
    obtain ⟨e', he', hk', hseen'⟩ := resolveProcess_keeps (c.resolved_consistent hr) c.env.child c.child
      c.ev.tsNs true hmid (by simp) hstored hseen (hcheck hnoexec)
    change (c.childResolved r).1.findProcess (c.resolved r).2 = some e' at he'
    have hsight' : e'.sight = (c.ev.actor.key, c.ev.tsNs) := Prod.ext (hk'.trans hk) hseen'
    obtain ⟨e'', he'', hsame⟩ := (linkParent_writes (c.childResolved r).1 (c.childResolved r).2
      (c.resolved r).2).keeps ProcessEntity.sight (ProcessEntity.linked_keeps _ (fun _ _ => rfl) _) he'
    exact ⟨e'', he'', hsame.trans hsight'⟩
  · exact ⟨e, hstored, hsight⟩

theorem next_subject (hkey : c.ev.actor.key ≠ 0) :
    ∃ e, (c.next r).findProcess (c.resolved r).2 = some e ∧
      e.sight = (c.ev.actor.key, c.ev.tsNs) := by
  obtain ⟨e, hstored, hsight⟩ := c.acted_subject hr hold hkey
  obtain ⟨e', he', hsame⟩ := (useExecPathHint_writes (c.acted r) (c.resolved r).2
    c.ev.execPathHint).keeps ProcessEntity.sight (ProcessEntity.hinted_keeps _ (fun _ _ => rfl) _) hstored
  rw [← next_eq] at he'
  exact ⟨e', he', hsame.trans hsight⟩

theorem next_child (h : c.StartsChild) :
    ∃ e, (c.next r).findProcess (c.childResolved r).2 = some e ∧
      e.sight = (c.ev.object.childPid, c.ev.tsNs) := by
  have hkey : c.child.key ≠ 0 := (c.child_key h.2).symm ▸ h.2
  have hmid := resolveProcess_older hr c.env.subject c.ev.actor c.ev.tsNs
    (c.ev.action == .processExeced) hold
  obtain ⟨e, hstored, hk, hseen, -⟩ := resolveProcess_present (c.resolved_consistent hr) c.env.child
    c.child c.ev.tsNs true hmid (by simp) hkey
  change (c.childResolved r).1.findProcess (c.childResolved r).2 = some e at hstored
  have hsight : e.sight = (c.ev.object.childPid, c.ev.tsNs) := Prod.ext (hk.trans (c.child_key h.2)) hseen
  obtain ⟨e', he', hsame⟩ := c.next_keeps_child h ProcessEntity.sight (fun _ _ => rfl) (fun _ _ => rfl) hstored
  exact ⟨e', he', hsame.trans hsight⟩

end Call

/-! ## Every call -/

/-- With strictly increasing timestamps, an event with an actor is given the entity of the actor's key,
seen at the event's time; the child a creation reports is stored after it; and an event without an actor
is given no entity. -/
theorem attribution (calls : List Call) (c : Call)
    (htimes : ((calls ++ [c]).map fun c => c.ev.tsNs).Pairwise (· < ·)) :
    (c.ev.actor.key ≠ 0 → ∃ e, (c.out (run calls)).subjectProcess = some e ∧
        e.id = (c.out (run calls)).subject.id ∧ e.key = c.ev.actor.key ∧ e.lastSeenNs = c.ev.tsNs) ∧
      (c.StartsChild → ∃ f, (c.next (run calls)).findProcess (c.out (run calls)).objectRef.id = some f ∧
        f.key = c.ev.object.childPid) ∧
      (c.ev.actor.key = 0 → (c.out (run calls)).subjectProcess = none) := by
  have hr := run_consistent calls
  have hnext := (c.next_logs hr).consistent hr
  have hold : OlderBut c.ev.tsNs [] (run calls) := by
    refine run_older fun d hd => ?_
    rw [List.map_append, List.pairwise_append] at htimes
    exact htimes.2.2 _ (List.mem_map_of_mem hd) _ (List.mem_singleton_self _)
  refine ⟨fun hkey => ?_, fun hstart => ?_, fun hkey => ?_⟩
  · obtain ⟨e, he, hsight⟩ := c.next_subject hr hold hkey
    obtain ⟨hk, hseen⟩ := Prod.mk.inj hsight
    refine ⟨e, ?_, ?_, hk, hseen⟩
    · rw [c.out_subjectProcess, he]
    · rw [c.out_subject]
      exact (hnext.own_id _ e he).1
  · obtain ⟨f, hf, hsight⟩ := c.next_child hr hold hstart
    refine ⟨f, ?_, (Prod.mk.inj hsight).1⟩
    rw [c.out_objectRef _ hstart, hf]
  · have hzero : (c.resolved (run calls)).2 = 0 := by
      rw [Call.resolved, resolveProcess_zero _ _ _ _ hkey]
    rw [c.out_subjectProcess, hzero, Option.eq_none_iff_forall_ne_some]
    intro e he
    exact Nat.lt_irrefl 0 (hnext.own_id 0 e he).2.1

/-- Process 100 forks process 200. -/
theorem attribution_fork :
    ∃ e, ((processCall 100 .processStarted 2 200).out (run [processCall 100 .processExeced 1 0])).subjectProcess =
        some e ∧ e.id = 1 ∧ e.key = 100 ∧ e.lastSeenNs = 2 := by
  have h := attribution [processCall 100 .processExeced 1 0] (processCall 100 .processStarted 2 200)
    (by decide)
  exact h.1 (by decide)

end EntityRegistry

end ETraceGen
