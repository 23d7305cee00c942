import ETraceGen.Registry.History

/-!
# Reachable registries

What holds of the registry after any sequence of `Ingest` calls, with any events, timestamps and
`/proc` answers: the two maps agree, their sizes are bounded, and ids are issued once
(`reachable_consistent`). The id counter grows by at most two a call (`nextId_le`), so it stays far from
its 64-bit wrap.
-/

namespace ETraceGen.EntityRegistry

/-! ## The id counter -/

section NextId
variable {r : EntityRegistry}

theorem retireIndex_nextId (key : UInt32) (id : Nat) : (r.retireIndex key id).nextId = r.nextId := by
  unfold retireIndex
  split_ifs <;> rfl

theorem markExited_nextId (id : Nat) (nowNs : UInt64) (exitCode : Int64) :
    (r.markExited id nowNs exitCode).nextId = r.nextId := by
  unfold markExited
  split
  · rfl
  · exact retireIndex_nextId _ _

theorem evictIfNeeded_nextId (order : BucketOrder) : (evictIfNeeded order r).nextId = r.nextId := by
  unfold evictIfNeeded
  split_ifs
  · rfl
  · split
    · rfl
    · exact retireIndex_nextId _ _

theorem linkParent_nextId (id parentId : Nat) : (r.linkParent id parentId).nextId = r.nextId := by
  unfold linkParent
  split
  · rfl
  · split_ifs <;> rfl

theorem useExecPathHint_nextId (id : Nat) (hint : Bytes) :
    (r.useExecPathHint id hint).nextId = r.nextId := by
  unfold useExecPathHint
  split_ifs
  · rfl
  · split
    · rfl
    · split_ifs <;> rfl

theorem resolveProcess_nextId (hr : r.Consistent) (env : ResolveEnv) (actor : ActorIdentity)
    (nowNs : UInt64) (refresh : Bool) :
    (resolveProcess env actor nowNs refresh r).1.nextId ≤ r.nextId + 1 := by
  by_cases hkey : actor.key = 0
  · rw [resolveProcess_zero env actor nowNs refresh hkey]
    exact Nat.le_succ _
  · rcases resolveProcess_cases env actor nowNs refresh hr hkey with
      ⟨id, e, -, -, -, heq⟩ | ⟨pre, r₀, -, -, -, -, hnext, -, heq⟩
    · rw [heq]
      exact Nat.le_succ _
    · rw [heq, createProcess_eq, evictIfNeeded_nextId, withNew, add_nextId, hnext]

theorem Call.next_nextId (c : Call) (hr : r.Consistent) : (c.next r).nextId ≤ r.nextId + 2 := by
  have hsubject := resolveProcess_nextId hr c.env.subject c.ev.actor c.ev.tsNs
    (c.ev.action == .processExeced)
  have hchild := resolveProcess_nextId ((c.resolved_logs hr).consistent hr) c.env.child c.child
    c.ev.tsNs true
  change (c.resolved r).1.nextId ≤ _ at hsubject
  change (c.childResolved r).1.nextId ≤ _ at hchild
  rw [next_eq, useExecPathHint_nextId]
  unfold acted
  split_ifs
  · rw [markExited_nextId]
    omega
  · rw [linkParent_nextId]
    omega
  · omega

end NextId

/-- A call creates at most two entities. -/
theorem nextId_le (calls : List Call) : (run calls).nextId ≤ 2 * calls.length + 1 := by
  induction calls using List.reverseRecOn with
  | nil => exact Nat.le_refl _
  | append_singleton calls c ih =>
    have hnext := c.next_nextId (run_consistent calls)
    rw [run_snoc, List.length_append, List.length_singleton]
    omega

/-! ## The number of entities -/

section Count
variable {r : EntityRegistry}

theorem retireIndex_processCount (key : UInt32) (id : Nat) :
    (r.retireIndex key id).processCount = r.processCount := by
  unfold retireIndex
  split_ifs <;> rfl

theorem markExited_processCount (id : Nat) (nowNs : UInt64) (exitCode : Int64) :
    (r.markExited id nowNs exitCode).processCount = r.processCount := by
  unfold markExited
  split
  · rfl
  · rename_i e hstored
    rw [retireIndex_processCount]
    exact processCount_store r hstored _

theorem linkParent_processCount (id parentId : Nat) :
    (r.linkParent id parentId).processCount = r.processCount := by
  unfold linkParent
  split
  · rfl
  · rename_i e hstored
    split_ifs
    · exact processCount_store r hstored _
    · rfl

theorem useExecPathHint_processCount (id : Nat) (hint : Bytes) :
    (r.useExecPathHint id hint).processCount = r.processCount := by
  unfold useExecPathHint
  split_ifs
  · rfl
  · split
    · rfl
    · rename_i e hstored
      split_ifs
      · exact processCount_store r hstored _
      · rfl

theorem Call.next_processCount (c : Call) (hr : r.Consistent) (hsize : r.processCount ≤ kMaxEntries) :
    (c.next r).processCount ≤ kMaxEntries := by
  have hsubject : (c.resolved r).1.processCount ≤ kMaxEntries :=
    resolveProcess_processCount _ _ _ _ hr hsize
  have hchild : (c.childResolved r).1.processCount ≤ kMaxEntries :=
    resolveProcess_processCount _ _ _ _ ((c.resolved_logs hr).consistent hr) hsubject
  rw [next_eq, useExecPathHint_processCount]
  unfold acted
  split_ifs
  · rw [markExited_processCount]
    exact hsubject
  · rw [linkParent_processCount]
    exact hchild
  · exact hsubject

theorem run_processCount (calls : List Call) : (run calls).processCount ≤ kMaxEntries := by
  induction calls using List.reverseRecOn with
  | nil => exact Nat.zero_le _
  | append_singleton calls c ih =>
    rw [run_snoc]
    exact c.next_processCount (run_consistent calls) ih

end Count

/-! ## Every reachable registry -/

theorem Call.next_extends (c : Call) {r : EntityRegistry} (hr : r.Consistent) :
    Extends r (c.next r) := by
  obtain ⟨log, hlog, -⟩ := (c.next_logs hr).exists_log
  exact hlog.extends

/-- A later registry issues no id again. -/
theorem run_extends (calls more : List Call) : Extends (run calls) (run (calls ++ more)) := by
  induction more using List.reverseRecOn with
  | nil =>
    rw [List.append_nil]
    exact .refl _
  | append_singleton more c ih =>
    rw [← List.append_assoc, run_snoc]
    exact ih.trans (c.next_extends (run_consistent _))

/-- After any sequence of calls the maps agree, also between the two `ResolveProcess` calls of the next
one; no id is indexed twice; the index is no larger than the store, and the store no larger than the
cap; and whatever happens next, no id is issued twice. -/
theorem reachable_consistent (calls : List Call) :
    (run calls).Consistent ∧
      (∀ c : Call, (c.resolved (run calls)).1.Consistent) ∧
      (∀ key key' id, (run calls).tgidIndex.lookup key = some id →
        (run calls).tgidIndex.lookup key' = some id → key = key') ∧
      (run calls).tgidIndex.size ≤ (run calls).processCount ∧
      (run calls).processCount ≤ kMaxEntries ∧
      ∀ more, Extends (run calls) (run (calls ++ more)) := by
  have hr := run_consistent calls
  refine ⟨hr, fun c => (c.resolved_logs hr).consistent hr, ?_, hr.index_size_le, run_processCount calls,
    run_extends calls⟩
  intro key key' id h h'
  exact hr.index_inj h h'

end ETraceGen.EntityRegistry
