import ETraceGen.Registry.Creation
import ETraceGen.Registry.Lineage
import ETraceGen.Registry.Tombstone

/-!
# What a report of a creation writes

* `resolveProcess_other` : a resolution leaves the entities of other keys as they are, or evicts them;
* `Call.Creates.linksOnly` : a report of a creation writes the entities of the actor and of the process
  it names, and those only.
-/

namespace ETraceGen.EntityRegistry

open ProcessEntity (touched linked hinted)

/-! ## A resolution and the other processes -/

section Resolve
variable {r : EntityRegistry} (hr : r.Consistent) (env : ResolveEnv) (actor : ActorIdentity)
  (nowNs : UInt64) (refresh : Bool)
include hr

/-- The entity of another key is not the one resolved. -/
theorem resolveProcess_ne {k : Nat} {e : ProcessEntity} (hstored : r.findProcess k = some e)
    (hkey : e.key ≠ actor.key) :
    k ≠ (resolveProcess env actor nowNs refresh r).2 ∧ r.tgidIndex.lookup actor.key ≠ some k := by
  have hindex : r.tgidIndex.lookup actor.key ≠ some k := by
    intro hindex
    exact hkey (hr.of_indexed hindex hstored).2
  obtain ⟨-, hpos, hlt⟩ := hr.own_id k e hstored
  refine ⟨fun hk => ?_, hindex⟩
  by_cases hzero : actor.key = 0
  · rw [resolveProcess_zero env actor nowNs refresh hzero] at hk
    omega
  · rcases resolveProcess_id env actor nowNs refresh hr hzero with ⟨f, hfinds⟩ | hnew
    · exact hindex (hk ▸ hfinds.index)
    · omega

/-- And it stays as it is, or is evicted. -/
theorem resolveProcess_other {k : Nat} {e : ProcessEntity} (hstored : r.findProcess k = some e)
    (hkey : e.key ≠ actor.key) :
    (resolveProcess env actor nowNs refresh r).1.findProcess k = some e ∨
      EvictedFrom env.order (resolveProcess env actor nowNs refresh r).1 k e := by
  obtain ⟨hne, hindex⟩ := resolveProcess_ne hr env actor nowNs refresh hstored hkey
  rcases resolveProcess_unindexed hr env actor nowNs refresh hne hindex with hsame | ⟨f, hf, hevicted⟩
  · exact Or.inl (hsame.trans hstored)
  · rw [hstored] at hf
    exact Or.inr (Option.some.inj hf ▸ hevicted)

/-- The entity resolved has the actor's key. It is stored, if it is not evicted on the spot. -/
theorem resolveProcess_result (hkey : actor.key ≠ 0) :
    ∃ e, e.key = actor.key ∧
      ((resolveProcess env actor nowNs refresh r).1.findProcess
          (resolveProcess env actor nowNs refresh r).2 = some e ∨
        EvictedFrom env.order (resolveProcess env actor nowNs refresh r).1
          (resolveProcess env actor nowNs refresh r).2 e) := by
  rcases resolveProcess_paths env actor nowNs refresh hr hkey with
    ⟨id, e, hfinds, heq⟩ | ⟨r₀, hclear, heq⟩
  · have hsame := (hr.of_indexed hfinds.index hfinds.stored).2
    obtain ⟨hid, -⟩ := ProcessEntity.touched_spec env nowNs refresh hsame
    refine ⟨touched env actor nowNs refresh e, hid.key.trans hsame, Or.inl ?_⟩
    rw [heq, findProcess_store, if_pos rfl]
  · obtain ⟨-, hnew, -⟩ := newProcess_spec env.proc actor.key actor nowNs r₀.nextId
    have hstored : (withNew env actor nowNs r₀).findProcess r₀.nextId =
        some (newProcess env.proc actor.key actor nowNs r₀.nextId) := by
      rw [withNew_findProcess, if_pos rfl]
    rw [heq]
    exact ⟨_, hnew, evictIfNeeded_fate (hclear.withNew_consistent hr) env.order hstored⟩

end Resolve

/-! ## A report and the other processes -/

/-- The process the report names is the child of the event's subject, unless it had a parent before or was
evicted on the spot. -/
def Call.LinksChild (c : Call) (r : EntityRegistry) (pid : UInt32) : Prop :=
  (∃ f, (c.next r).findProcess (c.out r).objectRef.id = some f ∧ f.key = pid ∧
      (f.parentId = (c.out r).subject.id ∨ parentOf r (c.out r).objectRef.id = some f.parentId)) ∨
    ∃ e, e.key = pid ∧
      EvictedFrom c.env.child.order (c.childResolved r).1 (c.out r).objectRef.id e

/-- The report links the process to the subject, and leaves the entities of processes other than the
actor and this one as they are, or evicts them. -/
structure Call.LinksOnly (c : Call) (r : EntityRegistry) (pid : UInt32) : Prop where
  child : c.LinksChild r pid
  others : ∀ k e, r.findProcess k = some e → e.key ≠ c.ev.actor.key → e.key ≠ pid →
    (c.next r).findProcess k = some e ∨ (c.next r).findProcess k = none ∧ c.Evicts r k e

section Report
variable {c : Call} {r : EntityRegistry} (hr : r.Consistent)
include hr

theorem Call.StartsChild.linksChild (h : c.StartsChild) : c.LinksChild r c.ev.object.childPid := by
  have hcons := c.resolved_consistent hr
  have hkey : c.child.key ≠ 0 := (c.child_key h.2).symm ▸ h.2
  have hid : (c.out r).objectRef.id = (c.childResolved r).2 := c.out_objectRef r h
  have hsubject : (c.out r).subject.id = (c.resolved r).2 := by
    rw [c.out_subject]
  unfold LinksChild
  rw [hid, hsubject]
  obtain ⟨e, he, hfate⟩ := resolveProcess_result hcons c.env.child c.child c.ev.tsNs true hkey
  rw [c.child_key h.2] at he
  rcases hfate with hstored | hevicted
  · left
    change (c.childResolved r).1.findProcess (c.childResolved r).2 = some e at hstored
    have hlinked := (linkParent_writes (c.childResolved r).1 (c.childResolved r).2 (c.resolved r).2).self
    rw [← c.acted_child h, hstored, Option.map_some] at hlinked
    obtain ⟨f, hf, hsame⟩ := (useExecPathHint_writes (c.acted r) (c.resolved r).2
      c.ev.execPathHint).keeps (fun f => (f.key, f.parentId))
      (ProcessEntity.hinted_keeps (fun f => (f.key, f.parentId)) (fun _ _ => rfl) _) hlinked
    rw [← c.next_eq] at hf
    obtain ⟨hfkey, hfparent⟩ := Prod.mk.inj hsame
    refine ⟨f, hf, ?_, ?_⟩
    · rw [hfkey, ProcessEntity.linked_keeps ProcessEntity.key fun _ _ => rfl, he]
    · rw [hfparent]
      unfold linked
      split_ifs with hroot
      · exact Or.inl rfl
      · -- a parent it has was there before the call
        right
        have hparent : parentOf (c.childResolved r).1 (c.childResolved r).2 = some e.parentId :=
          parentOf_eq_some.mpr ⟨e, hstored, rfl, hroot⟩
        exact resolveProcess_parentOf hr _ _ _ _ (resolveProcess_parentOf hcons _ _ _ _ hparent)
  · exact Or.inr ⟨e, he, hevicted⟩

theorem Call.StartsChild.others (h : c.StartsChild) {k : Nat} {e : ProcessEntity}
    (hstored : r.findProcess k = some e) (hactor : e.key ≠ c.ev.actor.key)
    (hchild : e.key ≠ c.ev.object.childPid) :
    (c.next r).findProcess k = some e ∨ (c.next r).findProcess k = none ∧ c.Evicts r k e := by
  have hcons := c.resolved_consistent hr
  have hchildKey : e.key ≠ c.child.key := (c.child_key h.2).symm ▸ hchild
  have hfirst := resolveProcess_other hr c.env.subject c.ev.actor c.ev.tsNs
    (c.ev.action == .processExeced) hstored hactor
  change (c.resolved r).1.findProcess k = some e ∨ _ at hfirst
  rcases hfirst with hmid | hevicted
  · have hsubject : k ≠ (c.resolved r).2 := (resolveProcess_ne hr c.env.subject c.ev.actor c.ev.tsNs
      (c.ev.action == .processExeced) hstored hactor).1
    have hne : k ≠ (c.childResolved r).2 :=
      (resolveProcess_ne hcons c.env.child c.child c.ev.tsNs true hmid hchildKey).1
    have hnext : (c.next r).findProcess k = (c.childResolved r).1.findProcess k := by
      rw [c.next_eq, c.acted_child h, (useExecPathHint_writes _ _ _).ne hsubject,
        (linkParent_writes _ _ _).ne hne]
    have hsecond := resolveProcess_other hcons c.env.child c.child c.ev.tsNs true hmid hchildKey
    rw [hnext]
    rcases hsecond with hkept | hevicted
    · exact Or.inl hkept
    · exact Or.inr ⟨hevicted.gone, Or.inr ⟨h, hevicted⟩⟩
  · -- an id that is gone is not issued again
    refine Or.inr ⟨?_, Or.inl hevicted⟩
    have hgone : (c.resolved r).1.findProcess k = none := hevicted.gone
    rw [Option.eq_none_iff_forall_ne_some]
    intro e' he'
    rcases (c.resolved_next_grown hr).carried k e' he' with ⟨f, hf, -⟩ | hle
    · rw [hgone] at hf
      cases hf
    · have hold := (hr.own_id k e hstored).2.2
      have hmore := (c.resolved_grown hr).next
      omega

theorem Call.Creates.linksOnly {pid : UInt32} (h : c.Creates pid) : c.LinksOnly r pid := by
  have hstart := h.starts
  rw [← h.childPid]
  exact ⟨hstart.linksChild hr, fun k e hstored hactor hchild => hstart.others hr hstored hactor hchild⟩

end Report

end ETraceGen.EntityRegistry
