import ETraceGen.Lib.ParentLinks
import ETraceGen.Registry.Origin

/-!
# Lineage

The parents of the stored entities as links to climb. Only the report of a creation writes one, into an
entity that has none; where an exit was lost, that entity can be an ancestor of the very process that is
reported as its parent. No ancestry comes by an entity twice exactly if no report is of that kind
(`ancestryEnds_iff`).
-/

namespace ETraceGen.EntityRegistry

open ParentLinks
open ProcessEntity (isReused touched markedExited retired linked hinted)

/-! ## Parents -/

/-- The parent recorded in a stored entity. -/
def parentOf (r : EntityRegistry) (id : Nat) : Option Nat :=
  (r.findProcess id).bind fun e => if e.parentId = 0 then none else some e.parentId

section Parents
variable {r r' : EntityRegistry}

theorem parentOf_eq_some {id p : Nat} :
    parentOf r id = some p ↔ ∃ e, r.findProcess id = some e ∧ e.parentId = p ∧ p ≠ 0 := by
  unfold parentOf
  rw [Option.bind_eq_some_iff]
  refine exists_congr fun e => and_congr_right fun _ => ?_
  split_ifs with h
  · refine iff_of_false (by simp) ?_
    rintro ⟨rfl, hne⟩
    exact hne h
  · constructor
    · intro heq
      obtain rfl := Option.some.inj heq
      exact ⟨rfl, h⟩
    · rintro ⟨rfl, -⟩
      rfl

theorem parentOf_root {id : Nat} {e : ProcessEntity} (hstored : r.findProcess id = some e)
    (hroot : e.parentId = 0) : parentOf r id = none := by
  rw [parentOf, hstored, Option.bind_some, if_pos hroot]

theorem Writes.parentOf {id : Nat} {f : ProcessEntity → ProcessEntity} (h : Writes id f r r')
    (hf : ∀ e, (f e).parentId = e.parentId) : parentOf r' = parentOf r := by
  funext k
  unfold EntityRegistry.parentOf
  rw [h k]
  split_ifs
  · cases r.findProcess k with
    | none => rfl
    | some e =>
      rw [Option.map_some, Option.bind_some, Option.bind_some, hf]
  · rfl

theorem parentOf_store {id : Nat} {e e' : ProcessEntity} (hstored : r.findProcess id = some e)
    (hparent : e'.parentId = e.parentId) : parentOf (r.store id e') = parentOf r := by
  funext k
  unfold EntityRegistry.parentOf
  rw [findProcess_store]
  split_ifs with hk
  · rw [hk, hstored, Option.bind_some, Option.bind_some, hparent]
  · rfl

theorem Finds.touched_parentId {env : ResolveEnv} {actor : ActorIdentity} {nowNs : UInt64} {id : Nat}
    {e : ProcessEntity} (hr : r.Consistent) (h : Finds env actor nowNs r id e) (refresh : Bool) :
    (touched env actor nowNs refresh e).parentId = e.parentId :=
  (ProcessEntity.touched_spec env nowNs refresh (hr.of_indexed h.index h.stored).2).2.2.1

/-- `ResolveProcess` gives no entity a parent. -/
theorem resolveProcess_parentOf (hr : r.Consistent) (env : ResolveEnv) (actor : ActorIdentity)
    (nowNs : UInt64) (refresh : Bool) {id p : Nat}
    (h : parentOf (resolveProcess env actor nowNs refresh r).1 id = some p) :
    parentOf r id = some p := by
  obtain ⟨e', hstored', hparent, hne⟩ := parentOf_eq_some.mp h
  refine parentOf_eq_some.mpr ?_
  cases resolveProcess_origin env actor nowNs refresh hr hstored' with
  | kept _ _ hstored => exact ⟨e', hstored, hparent, hne⟩
  | @seen e _ hfinds heq =>
    rw [heq, hfinds.touched_parentId hr] at hparent
    exact ⟨e, hfinds.stored, hparent, hne⟩
  | @retired e _ _ hstored _ heq =>
    rw [heq, ProcessEntity.retired_keeps ProcessEntity.parentId fun _ _ _ _ => rfl] at hparent
    exact ⟨e, hstored, hparent, hne⟩
  | created _ _ heq =>
    obtain ⟨-, -, -, hroot, -⟩ := newProcess_spec env.proc actor.key actor nowNs id
    rw [heq, hroot] at hparent
    exact absurd hparent.symm hne

section Found
variable (hr : r.Consistent) (env : ResolveEnv) (actor : ActorIdentity) (nowNs : UInt64) (refresh : Bool)
  (hkey : actor.key ≠ 0)

include hr hkey

/-- An entity that has a parent was found. -/
theorem resolveProcess_finds_of_parent {y : Nat}
    (h : parentOf r (resolveProcess env actor nowNs refresh r).2 = some y) :
    ∃ s e, Finds env actor nowNs r s e ∧
      resolveProcess env actor nowNs refresh r = (r.store s (touched env actor nowNs refresh e), s) := by
  rcases resolveProcess_seen_or_new env actor nowNs refresh hr hkey with hseen | hnew
  · exact hseen
  · obtain ⟨f, hf, -⟩ := parentOf_eq_some.mp h
    rw [hnew, hr.findProcess_nextId] at hf
    cases hf

/-- And so was one that has a child. -/
theorem resolveProcess_finds_of_child {x : Nat}
    (h : parentOf r x = some (resolveProcess env actor nowNs refresh r).2) :
    ∃ s e, Finds env actor nowNs r s e ∧
      resolveProcess env actor nowNs refresh r = (r.store s (touched env actor nowNs refresh e), s) := by
  rcases resolveProcess_seen_or_new env actor nowNs refresh hr hkey with hseen | hnew
  · exact hseen
  · obtain ⟨f, hf, hparent, -⟩ := parentOf_eq_some.mp h
    have hlt := hr.parent x f hf
    rw [hparent, hnew] at hlt
    exact absurd hlt (Nat.lt_irrefl _)

end Found

/-- The link `ResolveChild` writes closes a cycle. -/
def Closes (id p : Nat) (r : EntityRegistry) : Prop :=
  ∃ e, r.findProcess id = some e ∧ e.parentId = 0 ∧ p ≠ 0 ∧ Reaches (parentOf r) p id

theorem linkParent_acyclic (id p : Nat) (h : Acyclic (parentOf r)) :
    Acyclic (parentOf (r.linkParent id p)) ↔ ¬Closes id p r := by
  have hwrites := linkParent_writes r id p
  by_cases hlinks : ∃ e, r.findProcess id = some e ∧ e.parentId = 0 ∧ p ≠ 0
  · obtain ⟨e, hstored, hroot, hp⟩ := hlinks
    have hupdate : parentOf (r.linkParent id p) = Function.update (parentOf r) id (some p) := by
      funext k
      rw [Function.update_apply]
      unfold EntityRegistry.parentOf
      rw [hwrites k]
      split_ifs with hk
      · rw [hk, hstored, Option.map_some, Option.bind_some, linked, if_pos hroot]
        exact if_neg hp
      · rfl
    rw [hupdate, acyclic_update (parentOf_root hstored hroot)]
    constructor
    · rintro ⟨-, hreach⟩ ⟨-, -, -, -, hreach'⟩
      exact hreach hreach'
    · exact fun hopen => ⟨h, fun hreach => hopen ⟨e, hstored, hroot, hp, hreach⟩⟩
  · have hsame : parentOf (r.linkParent id p) = parentOf r := by
      funext k
      unfold EntityRegistry.parentOf
      rw [hwrites k]
      split_ifs with hk
      · subst hk
        cases hstored : r.findProcess k with
        | none => rfl
        | some e =>
          rw [Option.map_some, Option.bind_some, Option.bind_some, linked]
          by_cases hroot : e.parentId = 0
          · have hp : p = 0 := by
              by_contra hp
              exact hlinks ⟨e, hstored, hroot, hp⟩
            rw [if_pos hroot, if_pos hroot, hp]
            rfl
          · rw [if_neg hroot]
      · rfl
    rw [hsame]
    refine iff_of_true h ?_
    rintro ⟨e, hstored, hroot, hp, -⟩
    exact hlinks ⟨e, hstored, hroot, hp⟩

end Parents

/-! ## One call -/

/-- The creation is reported of a process whose entity is found, has no parent and is an ancestor of the
actor's entity, which is found as well. -/
structure Call.ClosesCycle (c : Call) (r : EntityRegistry) : Prop where
  starts : c.StartsChild
  key : c.ev.actor.key ≠ 0
  cycle : ∃ s e k f, Finds c.env.subject c.ev.actor c.ev.tsNs r s e ∧
    Finds c.env.child c.child c.ev.tsNs r k f ∧ f.parentId = 0 ∧ Reaches (parentOf r) s k

namespace Call

variable (c : Call) {r : EntityRegistry} (hr : r.Consistent)

theorem next_parentOf : parentOf (c.next r) = parentOf (c.acted r) := by
  rw [next_eq]
  exact (useExecPathHint_writes _ _ _).parentOf
    (ProcessEntity.hinted_keeps ProcessEntity.parentId (fun _ _ => rfl) _)

include hr

theorem resolved_acyclic (h : Acyclic (parentOf r)) : Acyclic (parentOf (c.resolved r).1) :=
  h.mono fun _ _ hlink => resolveProcess_parentOf hr _ _ _ _ hlink

/-- Only the link to the child can close a cycle. -/
theorem next_acyclic (h : Acyclic (parentOf r)) :
    Acyclic (parentOf (c.next r)) ↔
      (c.StartsChild → ¬Closes (c.childResolved r).2 (c.resolved r).2 (c.childResolved r).1) := by
  have hmid := c.resolved_acyclic hr h
  rw [next_parentOf]
  by_cases hstart : c.StartsChild
  · have hchild : Acyclic (parentOf (c.childResolved r).1) :=
      hmid.mono fun _ _ hlink => resolveProcess_parentOf (c.resolved_consistent hr) _ _ _ _ hlink
    rw [c.acted_child hstart, linkParent_acyclic _ _ hchild]
    exact ⟨fun hopen _ => hopen, fun hopen => hopen hstart⟩
  · refine iff_of_true ?_ fun h => absurd h hstart
    unfold acted
    rw [if_neg hstart]
    split_ifs
    · rw [(markExited_writes _ _ _ _).parentOf fun _ => rfl]
      exact hmid
    · exact hmid

/-- Where both entities are found, nothing but what was seen is written before the link. -/
theorem ClosesCycle.closes (hself : c.ev.object.childPid ≠ c.ev.actor.key) (h : c.ClosesCycle r) :
    Closes (c.childResolved r).2 (c.resolved r).2 (c.childResolved r).1 := by
  obtain ⟨hstart, hkey, s, e, k, f, hsubject, hchild, hroot, hreach⟩ := h
  have hckey : c.child.key = c.ev.object.childPid := c.child_key hstart.2
  have hne : k ≠ s := by
    rintro rfl
    exact hself (hckey.symm.trans (hr.index_inj hchild.index hsubject.index))
  have hmid : c.resolved r =
      (r.store s (touched c.env.subject c.ev.actor c.ev.tsNs (c.ev.action == .processExeced) e), s) :=
    resolveProcess_found _ _ _ _ hkey hsubject.index hsubject.stored hsubject.same
  have hstored : (c.resolved r).1.findProcess k = some f := by
    rw [hmid, findProcess_store, if_neg hne, hchild.stored]
  have hindex : (c.resolved r).1.tgidIndex.lookup c.child.key = some k := by
    rw [hmid]
    exact hchild.index
  have hres : c.childResolved r =
      ((c.resolved r).1.store k (touched c.env.child c.child c.ev.tsNs true f), k) :=
    resolveProcess_found _ _ _ _ (hckey.symm ▸ hstart.2) hindex hstored hchild.same
  have hparent := hchild.touched_parentId hr true
  have hlinks : parentOf (c.childResolved r).1 = parentOf r := by
    rw [hres, parentOf_store hstored hparent, hmid]
    exact parentOf_store hsubject.stored (hsubject.touched_parentId hr _)
  refine ⟨touched c.env.child c.child c.ev.tsNs true f, ?_, hparent.trans hroot, ?_, ?_⟩
  · rw [hres, findProcess_store, if_pos rfl]
  · rw [hmid]
    exact Nat.pos_iff_ne_zero.mp (hr.own_id s e hsubject.stored).2.1
  · rw [hlinks, hres, hmid]
    exact hreach

/-- The entity of the actor and that of the child are two. -/
theorem child_ne_subject (hstart : c.StartsChild) (hself : c.ev.object.childPid ≠ c.ev.actor.key)
    (hkey : c.ev.actor.key ≠ 0) : (c.childResolved r).2 ≠ (c.resolved r).2 := by
  have hckey : c.child.key = c.ev.object.childPid := c.child_key hstart.2
  intro heq
  rcases resolveProcess_id c.env.child c.child c.ev.tsNs true (c.resolved_consistent hr)
    (hckey.symm ▸ hstart.2) with ⟨f, hfinds⟩ | hnew
  · obtain ⟨e, he, -, hk⟩ := (c.resolved_consistent hr).indexed _ _ hfinds.index
    rcases resolveProcess_stored c.env.subject c.ev.actor c.ev.tsNs (c.ev.action == .processExeced) hr
      hkey with ⟨hnone, -⟩ | ⟨g, hg, -, hk'⟩
    · change (c.resolved r).1.findProcess (c.resolved r).2 = none at hnone
      rw [← heq] at hnone
      exact absurd (hnone.symm.trans hfinds.stored) (by simp)
    · change (c.resolved r).1.findProcess (c.resolved r).2 = some g at hg
      rw [← heq] at hg
      have hsame : e = g := Option.some.inj (he.symm.trans hg)
      exact hself (hckey.symm.trans (hk.symm.trans (hsame ▸ hk')))
  · have hlt := resolveProcess_issued c.env.subject c.ev.actor c.ev.tsNs
      (c.ev.action == .processExeced) hr
    exact absurd (heq.symm.trans hnew) (Nat.ne_of_lt hlt)

/-- A new entity has no parent and no child, so both entities of a cycle are found. -/
theorem closesCycle_of_closes (hstart : c.StartsChild)
    (hself : c.ev.object.childPid ≠ c.ev.actor.key)
    (h : Closes (c.childResolved r).2 (c.resolved r).2 (c.childResolved r).1) : c.ClosesCycle r := by
  have hcons := c.resolved_consistent hr
  have hckey : c.child.key = c.ev.object.childPid := c.child_key hstart.2
  obtain ⟨g, hg, hroot, hp, hreach⟩ := h
  have hkey : c.ev.actor.key ≠ 0 := by
    intro hkey
    rw [resolved, resolveProcess_zero _ _ _ _ hkey] at hp
    exact hp rfl
  have hne := c.child_ne_subject hr hstart hself hkey
  have hlinks : ∀ a b, parentOf (c.childResolved r).1 a = some b → parentOf (c.resolved r).1 a = some b :=
    fun _ _ hlink => resolveProcess_parentOf hcons _ _ _ _ hlink
  -- the path from the one entity to the other is not empty
  obtain ⟨s, e, hsubject, hmid⟩ : ∃ s e, Finds c.env.subject c.ev.actor c.ev.tsNs r s e ∧
      c.resolved r =
        (r.store s (touched c.env.subject c.ev.actor c.ev.tsNs (c.ev.action == .processExeced) e), s) := by
    rcases Relation.ReflTransGen.cases_head hreach with hnil | ⟨y, hlink, -⟩
    · exact absurd hnil.symm hne
    · exact resolveProcess_finds_of_parent hr _ _ _ _ hkey
        (resolveProcess_parentOf hr _ _ _ _ (hlinks _ _ hlink))
  have hs : (c.resolved r).2 = s := by rw [hmid]
  obtain ⟨k, f, hchild, hres⟩ : ∃ k f, Finds c.env.child c.child c.ev.tsNs (c.resolved r).1 k f ∧
      c.childResolved r =
        ((c.resolved r).1.store k (touched c.env.child c.child c.ev.tsNs true f), k) := by
    rcases Relation.ReflTransGen.cases_tail hreach with hnil | ⟨x, -, hlink⟩
    · exact absurd hnil hne
    · exact resolveProcess_finds_of_child hcons _ _ _ _ (hckey.symm ▸ hstart.2) (hlinks _ _ hlink)
  have hk : (c.childResolved r).2 = k := by rw [hres]
  rw [hs, hk] at hne
  have hchild' : Finds c.env.child c.child c.ev.tsNs r k f := by
    obtain ⟨hindex, hstored, hsame⟩ := hchild
    rw [hmid] at hindex hstored
    rw [findProcess_store, if_neg hne] at hstored
    exact ⟨hindex, hstored, hsame⟩
  have hparent := hchild'.touched_parentId hr true
  refine ⟨hstart, hkey, s, e, k, f, hsubject, hchild', ?_, ?_⟩
  · rw [hres, findProcess_store, if_pos rfl] at hg
    rw [← hparent, Option.some.inj hg, hroot]
  · rw [hres, parentOf_store hchild.stored hparent, hmid,
      parentOf_store hsubject.stored (hsubject.touched_parentId hr _)] at hreach
    exact hreach

theorem next_acyclic_iff (hself : c.StartsChild → c.ev.object.childPid ≠ c.ev.actor.key)
    (h : Acyclic (parentOf r)) : Acyclic (parentOf (c.next r)) ↔ ¬c.ClosesCycle r := by
  rw [c.next_acyclic hr h]
  constructor
  · intro hopen hcycle
    exact hopen hcycle.starts (hcycle.closes c hr (hself hcycle.starts))
  · intro hopen hstart hcloses
    exact hopen (c.closesCycle_of_closes hr hstart (hself hstart) hcloses)

end Call

/-! ## Runs -/

/-- Climbing from any entity comes by no entity twice, and ends. -/
structure AncestryEnds (r : EntityRegistry) : Prop where
  acyclic : Acyclic (parentOf r)
  ends : ∀ id, climb (parentOf r) (r.processCount + 1) id = none

theorem ancestryEnds_of_acyclic {r : EntityRegistry} (h : Acyclic (parentOf r)) : AncestryEnds r := by
  have hnodes : ∀ a b, parentOf r a = some b → a ∈ r.processesById.keys.toFinset := by
    intro a b hlink
    obtain ⟨e, he, -⟩ := parentOf_eq_some.mp hlink
    exact List.mem_toFinset.mpr (KeyedMap.mem_of_lookup he)
  refine ⟨h, fun id => ?_⟩
  have hends := h.ends hnodes id
  rw [List.toFinset_card_of_nodup r.processesById.keys_nodup] at hends
  exact hends

theorem acyclic_empty : Acyclic (parentOf {}) := by
  intro a b m n hmn _ hn
  obtain ⟨c, hc⟩ := climb_of_le (Nat.succ_le_of_lt (Nat.lt_of_le_of_lt (Nat.zero_le m) hmn)) hn
  obtain ⟨d, -, hup⟩ := climb_succ_iff.mp hc
  obtain ⟨e, he, -⟩ := parentOf_eq_some.mp hup
  simp [findProcess] at he

/-- In a run in which no report of a creation names its own actor, every ancestry ends after every call
exactly if no report names a process whose entity, found and without a parent, is an ancestor of the
entity found for the actor. -/
theorem ancestryEnds_iff (calls : List Call)
    (hself : ∀ c ∈ calls, c.StartsChild → c.ev.object.childPid ≠ c.ev.actor.key) :
    (∀ pre, pre <+: calls → AncestryEnds (run pre)) ↔
      ∀ pre c post, calls = pre ++ c :: post → ¬c.ClosesCycle (run pre) := by
  constructor
  · rintro hends pre c post rfl
    have hbefore := (hends pre ⟨_, rfl⟩).acyclic
    have hafter := (hends (pre ++ [c]) ⟨post, by simp⟩).acyclic
    rw [run_snoc] at hafter
    exact (c.next_acyclic_iff (run_consistent pre) (hself c (by simp)) hbefore).mp hafter
  · intro hopen pre hpre
    apply ancestryEnds_of_acyclic
    obtain ⟨post, rfl⟩ := hpre
    induction pre using List.reverseRecOn generalizing post with
    | nil => exact acyclic_empty
    | append_singleton pre c ih =>
      have hbefore := ih (c :: post) (by simpa using hself) fun before d after hsplit =>
        hopen before d after (by rw [List.append_assoc]; exact hsplit)
      rw [run_snoc]
      exact (c.next_acyclic_iff (run_consistent pre) (hself c (by simp)) hbefore).mpr
        (hopen pre c post (by simp))

/-- Process 100 creates process 200, and that the next process 300, whose exit was lost. -/
def lateParent : List Call :=
  [processCall 300 .processExeced 1 0, processCall 100 .processStarted 2 200, processCall 200 .processStarted 3 300]

/-- The entity of the first process 300 has no parent and is found, but it is no ancestor of process 200. -/
theorem ancestryEnds_iff_lateParent :
    AncestryEnds (run lateParent) ∧ parentOf (run lateParent) 1 = some 3 ∧ parentOf (run lateParent) 3 = some 2 := by
  refine ⟨(ancestryEnds_iff lateParent (by decide)).mpr ?_ lateParent (List.prefix_refl _), by decide, by decide⟩
  rintro pre c post hsplit ⟨hstart, -, s, e, k, f, hsubject, hchild, -, hreach⟩
  rcases pre with _ | ⟨c₁, _ | ⟨c₂, _ | ⟨c₃, pre⟩⟩⟩
  · obtain ⟨rfl, -⟩ := List.cons.inj hsplit
    exact absurd hstart.1 (by decide)
  · obtain ⟨rfl, hrest⟩ := List.cons.inj hsplit
    obtain ⟨rfl, -⟩ := List.cons.inj hrest
    have hnone : (run [processCall 300 .processExeced 1 0]).tgidIndex.lookup 100 = none := by decide
    exact absurd (hnone.symm.trans hsubject.index) (by simp)
  · obtain ⟨rfl, htail⟩ := List.cons.inj hsplit
    obtain ⟨rfl, hlast⟩ := List.cons.inj htail
    obtain ⟨rfl, -⟩ := List.cons.inj hlast
    have htwo : (run (lateParent.take 2)).tgidIndex.lookup 200 = some 3 := by decide
    have hthree : (run (lateParent.take 2)).tgidIndex.lookup 300 = some 1 := by decide
    obtain rfl : 3 = s := Option.some.inj (htwo.symm.trans hsubject.index)
    obtain rfl : 1 = k := Option.some.inj (hthree.symm.trans hchild.index)
    have hup : parentOf (run (lateParent.take 2)) 3 = some 2 := by decide
    have htop : parentOf (run (lateParent.take 2)) 2 = none := by decide
    rcases Relation.ReflTransGen.cases_head hreach with heq | ⟨mid, hmid, hreach⟩
    · cases heq
    · obtain rfl : 2 = mid := Option.some.inj (hup.symm.trans hmid)
      rcases Relation.ReflTransGen.cases_head hreach with heq | ⟨last, hlast, -⟩
      · cases heq
      · cases htop.symm.trans hlast
  · have hlen := congrArg List.length hsplit
    simp only [lateParent, List.length_append, List.length_cons, List.length_nil] at hlen
    omega

/-- Process 100 creates process 200; its exit is lost, and process 200 creates the next process 100. -/
def lostExit : List Call := [processCall 100 .processStarted 1 200, processCall 200 .processStarted 2 100]

/-- Each of the two is the other's parent. -/
theorem not_ancestryEnds :
    (∀ c ∈ lostExit, c.StartsChild → c.ev.object.childPid ≠ c.ev.actor.key) ∧
      ¬∀ pre, pre <+: lostExit → AncestryEnds (run pre) := by
  refine ⟨by decide, fun h => ?_⟩
  have hacyclic := (h lostExit (List.prefix_refl _)).acyclic
  have hback : climb (parentOf (run lostExit)) 2 1 = some 1 := by decide
  exact hacyclic 1 1 0 2 (by decide) rfl hback

end ETraceGen.EntityRegistry
