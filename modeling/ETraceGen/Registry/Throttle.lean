import ETraceGen.Lib.Spacing
import ETraceGen.Registry.Attribution
import ETraceGen.Registry.Creation
import ETraceGen.Registry.Credentials

/-!
# The throttle of the identity check

`IsReused` reads `/proc` only if its event is 500 ms past the last check, by the difference of the two words. The
difference with a later time is a large word, so an event that was stamped earlier is taken for one far past it.

* `stamps` : the creations and checks of a run, by entity;
* `LastChecks` : `last_identity_check_ns` is the time of the last of them;
* `throttled_iff` : the checks are spaced exactly if no event comes too early for the entity it finds.
-/

namespace ETraceGen

open Spacing (Stamp last? Spaced)

namespace ProcessEntity

instance (nowNs : UInt64) (e : ProcessEntity) : Decidable (e.ChecksIdentity nowNs) :=
  inferInstanceAs (Decidable (_ ∧ ¬_))

/-- 500 ms. -/
def checkGap : Nat := kIdentityCheckNs.toNat

/-- Stamped earlier than the last check, by no more than what makes the difference of the words large. -/
def TooEarly (nowNs : UInt64) (e : ProcessEntity) : Prop :=
  e.startTimeTicks ≠ 0 ∧ nowNs < e.lastIdentityCheckNs ∧
    e.lastIdentityCheckNs.toNat + checkGap ≤ 2 ^ 64 + nowNs.toNat

section Due
variable {nowNs : UInt64} {e : ProcessEntity}

/-- A read is due behind the gap, and also too early. -/
theorem checksIdentity_iff : e.ChecksIdentity nowNs ↔
    e.startTimeTicks ≠ 0 ∧ e.lastIdentityCheckNs.toNat + checkGap ≤ nowNs.toNat ∨ e.TooEarly nowNs := by
  have hnow := UInt64.toNat_lt nowNs
  have hlast := UInt64.toNat_lt e.lastIdentityCheckNs
  have hgap : kIdentityCheckNs.toNat = 500000000 := by decide
  unfold ChecksIdentity TooEarly checkGap
  rw [UInt64.lt_iff_toNat_lt, UInt64.lt_iff_toNat_lt, UInt64.toNat_sub, hgap]
  constructor
  · rintro ⟨hstart, hdue⟩
    by_cases hlater : e.lastIdentityCheckNs.toNat ≤ nowNs.toNat
    · left
      refine ⟨hstart, ?_⟩
      omega
    · right
      refine ⟨hstart, by omega, ?_⟩
      omega
  · rintro (⟨hstart, hdue⟩ | ⟨hstart, hearlier, hdue⟩)
    · refine ⟨hstart, ?_⟩
      omega
    · refine ⟨hstart, ?_⟩
      omega

theorem TooEarly.checks (h : e.TooEarly nowNs) : e.ChecksIdentity nowNs := checksIdentity_iff.mpr (Or.inr h)

/-- A check is behind the gap exactly if it is not too early. -/
theorem ChecksIdentity.spaced_iff (h : e.ChecksIdentity nowNs) :
    e.lastIdentityCheckNs.toNat + checkGap ≤ nowNs.toNat ↔ ¬e.TooEarly nowNs := by
  constructor
  · intro hspaced hearly
    have hlt := UInt64.lt_iff_toNat_lt.mp hearly.2.1
    omega
  · intro hnot
    exact ((checksIdentity_iff.mp h).resolve_right hnot).2

end Due

/-! ## The field -/

theorem isReused_checked (identityStat : Option Bytes) (nowNs : UInt64) (e : ProcessEntity) :
    (isReused identityStat nowNs e).2.lastIdentityCheckNs =
      if e.ChecksIdentity nowNs then nowNs else e.lastIdentityCheckNs := by
  unfold isReused ChecksIdentity
  dsimp only
  split_ifs with hzero hthrottled hread <;> first | rfl | simp_all

theorem touched_checked (env : ResolveEnv) (actor : ActorIdentity) (nowNs : UInt64) (refresh : Bool)
    (e : ProcessEntity) : (touched env actor nowNs refresh e).lastIdentityCheckNs =
      if e.ChecksIdentity nowNs then nowNs else e.lastIdentityCheckNs := by
  rw [← isReused_checked env.proc.identityStat]
  unfold touched
  dsimp only
  split_ifs
  · exact refreshRich_keeps lastIdentityCheckNs (fun _ _ _ _ _ _ _ => rfl) env.proc actor.key _
  · rfl

theorem retired_checked (env : ResolveEnv) (nowNs : UInt64) (e : ProcessEntity) :
    (retired env nowNs e).lastIdentityCheckNs =
      if e.ChecksIdentity nowNs then nowNs else e.lastIdentityCheckNs :=
  isReused_checked env.proc.identityStat nowNs e

end ProcessEntity

namespace EntityRegistry

open ProcessEntity (isReused touched retired linked hinted markedExited checkGap)

/-! ## The stamps of a call -/

section Resolve
variable (env : ResolveEnv) (actor : ActorIdentity) (nowNs : UInt64) (r : EntityRegistry)

/-- The checks and creations of one `ResolveProcess`, by the ids of their entities. -/
def stampsOf : List (Stamp Nat) :=
  if actor.key = 0 then []
  else
    match (r.tgidIndex.lookup actor.key).bind fun id => (r.findProcess id).map fun e => (id, e) with
    | none => [⟨r.nextId, nowNs.toNat⟩]
    | some (id, e) =>
      if e.ChecksIdentity nowNs then
        if (isReused env.proc.identityStat nowNs e).1 then [⟨id, nowNs.toNat⟩, ⟨r.nextId, nowNs.toNat⟩]
        else [⟨id, nowNs.toNat⟩]
      else []

/-- The event does not come too early for the entity it finds. -/
def InTime : Prop :=
  ∀ id e, actor.key ≠ 0 → r.tgidIndex.lookup actor.key = some id → r.findProcess id = some e →
    ¬e.TooEarly nowNs

/-- One case for each thing that `ResolveProcess` can do. -/
inductive Looks : List (Stamp Nat) → Prop where
  | zero (hkey : actor.key = 0) : Looks []
  | new (hkey : actor.key ≠ 0) (hindex : r.tgidIndex.lookup actor.key = none) :
    Looks [⟨r.nextId, nowNs.toNat⟩]
  | spared {id : Nat} {e : ProcessEntity} (hkey : actor.key ≠ 0)
      (hindex : r.tgidIndex.lookup actor.key = some id) (hstored : r.findProcess id = some e)
      (hchecks : ¬e.ChecksIdentity nowNs) : Looks []
  | checked {id : Nat} {e : ProcessEntity} (hkey : actor.key ≠ 0)
      (hindex : r.tgidIndex.lookup actor.key = some id) (hstored : r.findProcess id = some e)
      (hchecks : e.ChecksIdentity nowNs) (hsame : (isReused env.proc.identityStat nowNs e).1 = false) :
    Looks [⟨id, nowNs.toNat⟩]
  | reused {id : Nat} {e : ProcessEntity} (hkey : actor.key ≠ 0)
      (hindex : r.tgidIndex.lookup actor.key = some id) (hstored : r.findProcess id = some e)
      (hchecks : e.ChecksIdentity nowNs) (hreused : (isReused env.proc.identityStat nowNs e).1 = true) :
    Looks [⟨id, nowNs.toNat⟩, ⟨r.nextId, nowNs.toNat⟩]

variable {r} in
theorem stampsOf_looks (hr : r.Consistent) : Looks env actor nowNs r (stampsOf env actor nowNs r) := by
  unfold stampsOf
  by_cases hkey : actor.key = 0
  · rw [if_pos hkey]
    exact .zero hkey
  rw [if_neg hkey]
  cases hindex : r.tgidIndex.lookup actor.key with
  | none => exact .new hkey hindex
  | some id =>
    obtain ⟨e, hstored, -⟩ := hr.indexed _ _ hindex
    rw [Option.bind_some, hstored, Option.map_some]
    dsimp only
    split_ifs with hchecks hreused
    · exact .reused hkey hindex hstored hchecks hreused
    · exact .checked hkey hindex hstored hchecks (Bool.not_eq_true _ ▸ hreused)
    · exact .spared hkey hindex hstored hchecks

variable {env actor nowNs} {r}

theorem Finds.unique {id id' : Nat} {e e' : ProcessEntity} (hindex : r.tgidIndex.lookup actor.key = some id)
    (hstored : r.findProcess id = some e) (h : Finds env actor nowNs r id' e') : id' = id ∧ e' = e := by
  have hid : id' = id := by
    have hboth := h.index
    rw [hindex] at hboth
    exact (Option.some.inj hboth).symm
  subst hid
  have hboth := h.stored
  rw [hstored] at hboth
  exact ⟨rfl, (Option.some.inj hboth).symm⟩

theorem isReused_false_of_not_checks {e : ProcessEntity} (h : ¬e.ChecksIdentity nowNs) :
    (isReused env.proc.identityStat nowNs e).1 = false := by
  apply Bool.eq_false_iff.mpr
  intro hreused
  exact h (ProcessEntity.isReused_iff.mp hreused).1

theorem inTime_iff {id : Nat} {e : ProcessEntity} (hkey : actor.key ≠ 0)
    (hindex : r.tgidIndex.lookup actor.key = some id) (hstored : r.findProcess id = some e) :
    InTime actor nowNs r ↔ ¬e.TooEarly nowNs := by
  constructor
  · intro h
    exact h id e hkey hindex hstored
  · intro hearly id' e' _ hindex' hstored'
    rw [hindex] at hindex'
    obtain rfl := Option.some.inj hindex'
    rw [hstored] at hstored'
    obtain rfl := Option.some.inj hstored'
    exact hearly

/-- Each entity shows the time of its last stamp, and the stamps are of ids that were issued. -/
structure LastChecks (r : EntityRegistry) (log : List (Stamp Nat)) : Prop where
  shown : ∀ id e, r.findProcess id = some e → last? id log = some e.lastIdentityCheckNs.toNat
  issued : ∀ s ∈ log, s.name < r.nextId

variable {log : List (Stamp Nat)}

theorem LastChecks.last?_nextId (h : LastChecks r log) : last? r.nextId log = none :=
  Spacing.last?_eq_none fun s hs => Nat.ne_of_lt (h.issued s hs)

/-- A stamp for the entity that was found. -/
theorem LastChecks.spaced_snoc_iff (h : LastChecks r log) {id : Nat} {e : ProcessEntity}
    (hstored : r.findProcess id = some e) (hchecks : e.ChecksIdentity nowNs) :
    Spaced checkGap (log ++ [⟨id, nowNs.toNat⟩]) ↔ Spaced checkGap log ∧ ¬e.TooEarly nowNs := by
  rw [Spacing.spaced_snoc, h.shown id e hstored, ← hchecks.spaced_iff]
  refine and_congr_right fun _ => ⟨fun hall => hall _ rfl, fun hgap t ht => ?_⟩
  rw [← Option.some.inj ht]
  exact hgap

/-- The new stamps are spaced exactly if the event is in time. -/
theorem LastChecks.spaced_iff (hr : r.Consistent) (h : LastChecks r log) {new : List (Stamp Nat)}
    (hlooks : Looks env actor nowNs r new) :
    Spaced checkGap (log ++ new) ↔ Spaced checkGap log ∧ InTime actor nowNs r := by
  cases hlooks with
  | zero hkey =>
    rw [List.append_nil]
    exact (and_iff_left fun id e hne => absurd hkey hne).symm
  | new hkey hindex =>
    have hintime : InTime actor nowNs r := by
      intro id e _ hfound
      rw [hindex] at hfound
      cases hfound
    rw [Spacing.spaced_snoc, h.last?_nextId]
    exact and_congr_right fun _ => iff_of_true (fun t ht => by cases ht) hintime
  | spared hkey hindex hstored hchecks =>
    rw [List.append_nil, inTime_iff hkey hindex hstored]
    exact (and_iff_left fun hearly => hchecks hearly.checks).symm
  | checked hkey hindex hstored hchecks =>
    rw [inTime_iff hkey hindex hstored]
    exact h.spaced_snoc_iff hstored hchecks
  | @reused id e hkey hindex hstored hchecks hreused =>
    -- the new entity has no stamp yet
    have hne : id ≠ r.nextId := Nat.ne_of_lt (hr.own_id id e hstored).2.2
    have hsplit : log ++ [⟨id, nowNs.toNat⟩, ⟨r.nextId, nowNs.toNat⟩] =
        log ++ [⟨id, nowNs.toNat⟩] ++ [⟨r.nextId, nowNs.toNat⟩] := by
      rw [List.append_assoc]
      rfl
    rw [inTime_iff hkey hindex hstored, ← h.spaced_snoc_iff hstored hchecks, hsplit, Spacing.spaced_snoc,
      Spacing.last?_snoc, if_neg hne, h.last?_nextId]
    exact and_iff_left fun t ht => by cases ht

variable (refresh : Bool)

theorem resolved_eq_nextId (hr : r.Consistent) (hkey : actor.key ≠ 0)
    (hnone : ∀ id e, ¬Finds env actor nowNs r id e) :
    (resolveProcess env actor nowNs refresh r).2 = r.nextId := by
  rcases resolveProcess_id env actor nowNs refresh hr hkey with ⟨e, hfinds⟩ | hnew
  · exact absurd hfinds (hnone _ e)
  · exact hnew

theorem not_finds_of_none (hindex : r.tgidIndex.lookup actor.key = none) (id : Nat) (e : ProcessEntity) :
    ¬Finds env actor nowNs r id e := by
  intro hfinds
  have hlook := hfinds.index
  rw [hindex] at hlook
  cases hlook

theorem not_finds_of_reused {id : Nat} {e : ProcessEntity} (hindex : r.tgidIndex.lookup actor.key = some id)
    (hstored : r.findProcess id = some e) (hreused : (isReused env.proc.identityStat nowNs e).1 = true)
    (id' : Nat) (e' : ProcessEntity) : ¬Finds env actor nowNs r id' e' := by
  intro hfinds
  obtain ⟨rfl, rfl⟩ := hfinds.unique hindex hstored
  have hsame := hfinds.same
  rw [hreused] at hsame
  cases hsame

/-- The stamps are of ids that are issued after the resolution. -/
theorem Looks.issued (hr : r.Consistent) {new : List (Stamp Nat)} (hlooks : Looks env actor nowNs r new) :
    ∀ s ∈ new, s.name < (resolveProcess env actor nowNs refresh r).1.nextId := by
  have hnext := (resolveProcess_grown hr env actor nowNs refresh).next
  have hissued := resolveProcess_issued env actor nowNs refresh hr
  intro s hs
  cases hlooks with
  | zero => cases hs
  | spared => cases hs
  | new hkey hindex =>
    rw [List.mem_singleton.mp hs]
    rwa [resolved_eq_nextId refresh hr hkey (not_finds_of_none hindex)] at hissued
  | checked _ _ hstored =>
    rw [List.mem_singleton.mp hs]
    exact Nat.lt_of_lt_of_le (hr.own_id _ _ hstored).2.2 hnext
  | reused hkey hindex hstored _ hreused =>
    rcases List.mem_pair.mp hs with rfl | rfl
    · exact Nat.lt_of_lt_of_le (hr.own_id _ _ hstored).2.2 hnext
    · rwa [resolved_eq_nextId refresh hr hkey (not_finds_of_reused hindex hstored hreused)] at hissued

/-- The resolution of an entity that was found. -/
theorem LastChecks.found (h : LastChecks r log) {id : Nat} {e : ProcessEntity}
    (hkey : actor.key ≠ 0) (hindex : r.tgidIndex.lookup actor.key = some id)
    (hstored : r.findProcess id = some e) (hsame : (isReused env.proc.identityStat nowNs e).1 = false)
    {k : Nat} {e' : ProcessEntity}
    (hk : (resolveProcess env actor nowNs refresh r).1.findProcess k = some e') :
    last? k (log ++ if e.ChecksIdentity nowNs then [⟨id, nowNs.toNat⟩] else []) =
      some e'.lastIdentityCheckNs.toNat := by
  rw [resolveProcess_found env actor nowNs refresh hkey hindex hstored hsame, findProcess_store] at hk
  by_cases hid : k = id
  · subst hid
    rw [if_pos rfl] at hk
    rw [← Option.some.inj hk, ProcessEntity.touched_checked]
    split_ifs
    · rw [Spacing.last?_snoc, if_pos rfl]
    · rw [List.append_nil]
      exact h.shown k e hstored
  · rw [if_neg hid] at hk
    split_ifs
    · rw [Spacing.last?_snoc, if_neg (Ne.symm hid)]
      exact h.shown k e' hk
    · rw [List.append_nil]
      exact h.shown k e' hk

/-- The creation of an entity, from a registry that shows its last checks. -/
theorem LastChecks.created (h : LastChecks r log) (hcons : (withNew env actor nowNs r).Consistent) {k : Nat}
    {e' : ProcessEntity} (hk : (evictIfNeeded env.order (withNew env actor nowNs r)).findProcess k = some e') :
    last? k (log ++ [⟨r.nextId, nowNs.toNat⟩]) = some e'.lastIdentityCheckNs.toNat := by
  have hstored := evictIfNeeded_findProcess hcons env.order hk
  rw [withNew_findProcess] at hstored
  rw [Spacing.last?_snoc]
  split_ifs at hstored ⊢ with hnew hid hid
  · rw [← Option.some.inj hstored, newProcess_checked]
  · exact absurd hnew.symm hid
  · exact absurd hid.symm hnew
  · exact h.shown k e' hstored

/-- The retirement of the entity of a reused key is stamped by the check. -/
theorem LastChecks.afterReuse (hr : r.Consistent) (h : LastChecks r log) {id : Nat} {e : ProcessEntity}
    (hindex : r.tgidIndex.lookup actor.key = some id) (hstored : r.findProcess id = some e)
    (hchecks : e.ChecksIdentity nowNs) :
    LastChecks (afterReuse env nowNs id e r) (log ++ [⟨id, nowNs.toNat⟩]) where
  shown k e' hk := by
    rw [afterReuse_writes hstored] at hk
    rw [Spacing.last?_snoc]
    by_cases hid : k = id
    · rw [if_pos hid, hid, hstored, Option.map_some] at hk
      rw [if_pos hid.symm, ← Option.some.inj hk, ProcessEntity.retired_checked, if_pos hchecks]
    · rw [if_neg hid] at hk
      rw [if_neg (Ne.symm hid)]
      exact h.shown k e' hk
  issued s hs := by
    rw [(afterReuse_edit env actor nowNs hr hindex hstored).2.2.1]
    rcases List.mem_append.mp hs with hs | hs
    · exact h.issued s hs
    · rw [List.mem_singleton.mp hs]
      exact (hr.own_id id e hstored).2.2

theorem LastChecks.resolveProcess (hr : r.Consistent) (h : LastChecks r log) {new : List (Stamp Nat)}
    (hlooks : Looks env actor nowNs r new) :
    LastChecks (resolveProcess env actor nowNs refresh r).1 (log ++ new) where
  shown k e' hk := by
    cases hlooks with
    | zero hkey =>
      rw [resolveProcess_zero env actor nowNs refresh hkey] at hk
      rw [List.append_nil]
      exact h.shown k e' hk
    | new hkey hindex =>
      rw [resolveProcess_new env actor nowNs refresh hkey hindex, createProcess_eq] at hk
      exact h.created ((withNew_edit env actor nowNs hindex).consistent hr) hk
    | spared hkey hindex hstored hchecks =>
      have hfound := h.found refresh hkey hindex hstored (isReused_false_of_not_checks hchecks) hk
      rwa [if_neg hchecks] at hfound
    | checked hkey hindex hstored hchecks hsame =>
      have hfound := h.found refresh hkey hindex hstored hsame hk
      rwa [if_pos hchecks] at hfound
    | reused hkey hindex hstored hchecks hreused =>
      obtain ⟨hedit, hnone, hnext, -⟩ := afterReuse_edit env actor nowNs hr hindex hstored
      rw [resolveProcess_reused env actor nowNs refresh hkey hindex hstored hreused, createProcess_eq] at hk
      have hcreated := (h.afterReuse hr hindex hstored hchecks).created
        ((withNew_edit env actor nowNs hnone).consistent (hedit.consistent hr)) hk
      rw [hnext, List.append_assoc] at hcreated
      exact hcreated
  issued s hs := by
    rcases List.mem_append.mp hs with hs | hs
    · exact Nat.lt_of_lt_of_le (h.issued s hs) (resolveProcess_grown hr env actor nowNs refresh).next
    · exact hlooks.issued refresh hr s hs

end Resolve

/-- A step that writes other fields leaves the times of the checks alone. -/
theorem Writes.lastChecks {r r' : EntityRegistry} {id : Nat} {f : ProcessEntity → ProcessEntity}
    {log : List (Stamp Nat)} (hwrites : Writes id f r r') (hnext : r'.nextId = r.nextId)
    (hf : ∀ e, (f e).lastIdentityCheckNs = e.lastIdentityCheckNs) (h : LastChecks r log) :
    LastChecks r' log where
  shown k e' hk := by
    obtain ⟨e, hstored, rfl | ⟨-, rfl⟩⟩ := hwrites.origin hk
    · exact h.shown k _ hstored
    · rw [hf]
      exact h.shown k e hstored
  issued s hs := by
    rw [hnext]
    exact h.issued s hs

/-! ## Calls -/

namespace Call
variable (c : Call) (r : EntityRegistry)

/-- The checks and creations of one `Ingest`. -/
def stamps : List (Stamp Nat) :=
  stampsOf c.env.subject c.ev.actor c.ev.tsNs r ++
    if c.StartsChild then stampsOf c.env.child c.child c.ev.tsNs (c.resolved r).1 else []

/-- The event comes too early for neither of the entities it finds. -/
def Timely : Prop :=
  InTime c.ev.actor c.ev.tsNs r ∧ (c.StartsChild → InTime c.child c.ev.tsNs (c.resolved r).1)

variable {c r} {log : List (Stamp Nat)}

theorem resolved_lastChecks (hr : r.Consistent) (h : LastChecks r log) :
    LastChecks (c.resolved r).1 (log ++ stampsOf c.env.subject c.ev.actor c.ev.tsNs r) :=
  h.resolveProcess _ hr (stampsOf_looks _ _ _ hr)

theorem childResolved_lastChecks (hr : r.Consistent) (h : LastChecks (c.resolved r).1 log) :
    LastChecks (c.childResolved r).1 (log ++ stampsOf c.env.child c.child c.ev.tsNs (c.resolved r).1) :=
  h.resolveProcess _ (c.resolved_consistent hr) (stampsOf_looks _ _ _ (c.resolved_consistent hr))

theorem next_lastChecks (hr : r.Consistent) (h : LastChecks r log) :
    LastChecks (c.next r) (log ++ c.stamps r) := by
  have hresolved := resolved_lastChecks (c := c) hr h
  have hacted : LastChecks (c.acted r) (log ++ c.stamps r) := by
    unfold acted stamps
    by_cases hexit : c.ev.action = .processExited
    · have hstart : ¬c.StartsChild := by
        rintro ⟨hstarted, -⟩
        rw [hexit] at hstarted
        cases hstarted
      rw [if_pos hexit, if_neg hstart, List.append_nil]
      exact (markExited_writes _ _ _ _).lastChecks (markExited_nextId _ _ _) (fun _ => rfl) hresolved
    · rw [if_neg hexit]
      by_cases hstart : c.StartsChild
      · rw [if_pos hstart, if_pos hstart, ← List.append_assoc]
        exact (linkParent_writes _ _ _).lastChecks (linkParent_nextId _ _) (ProcessEntity.linked_keeps _ (fun _ _ => rfl) _)
          (childResolved_lastChecks hr hresolved)
      · rw [if_neg hstart, if_neg hstart, List.append_nil]
        exact hresolved
  rw [next_eq]
  exact (useExecPathHint_writes _ _ _).lastChecks (useExecPathHint_nextId _ _) (ProcessEntity.hinted_keeps _ (fun _ _ => rfl) _) hacted

theorem spaced_stamps_iff (hr : r.Consistent) (h : LastChecks r log) :
    Spaced checkGap (log ++ c.stamps r) ↔ Spaced checkGap log ∧ c.Timely r := by
  have hsubject := h.spaced_iff hr (stampsOf_looks c.env.subject c.ev.actor c.ev.tsNs hr)
  unfold stamps Timely
  by_cases hstart : c.StartsChild
  · have hconsistent := c.resolved_consistent hr
    have hchild := (resolved_lastChecks (c := c) hr h).spaced_iff hconsistent
      (stampsOf_looks c.env.child c.child c.ev.tsNs hconsistent)
    rw [if_pos hstart, ← List.append_assoc, hchild, hsubject, and_assoc, imp_iff_right hstart]
  · rw [if_neg hstart, List.append_nil, hsubject]
    exact and_congr_right fun _ => (and_iff_left fun h => absurd h hstart).symm

end Call

/-! ## Runs -/

def stampsFrom : EntityRegistry → List Call → List (Stamp Nat)
  | _, [] => []
  | r, c :: calls => c.stamps r ++ stampsFrom (c.next r) calls

/-- The checks and creations of a run. -/
def stamps (calls : List Call) : List (Stamp Nat) := stampsFrom {} calls

theorem stampsFrom_append (r : EntityRegistry) (calls more : List Call) :
    stampsFrom r (calls ++ more) = stampsFrom r calls ++ stampsFrom (calls.foldl (fun r c => c.next r) r) more := by
  induction calls generalizing r with
  | nil => rfl
  | cons c calls ih =>
    rw [List.cons_append, stampsFrom, stampsFrom, ih, List.append_assoc]
    rfl

theorem stamps_append (calls more : List Call) :
    stamps (calls ++ more) = stamps calls ++ stampsFrom (run calls) more :=
  stampsFrom_append {} calls more

theorem stamps_snoc (calls : List Call) (c : Call) : stamps (calls ++ [c]) = stamps calls ++ c.stamps (run calls) := by
  rw [stamps_append, stampsFrom, stampsFrom, List.append_nil]

/-- `last_identity_check_ns` is the time of the entity's last check or of its creation. -/
theorem run_lastChecks (calls : List Call) : LastChecks (run calls) (stamps calls) := by
  induction calls using List.reverseRecOn with
  | nil => exact ⟨fun id e h => by simp [run, findProcess] at h, fun s hs => by cases hs⟩
  | append_singleton calls c ih =>
    rw [run_snoc, stamps_snoc]
    exact Call.next_lastChecks (run_consistent calls) ih

theorem spaced_iff (calls : List Call) :
    Spaced checkGap (stamps calls) ↔ ∀ pre c post, calls = pre ++ c :: post → c.Timely (run pre) := by
  induction calls using List.reverseRecOn with
  | nil =>
    refine iff_of_true Spacing.spaced_nil ?_
    intro pre c post h
    simp at h
  | append_singleton calls c ih =>
    rw [stamps_snoc, Call.spaced_stamps_iff (run_consistent calls) (run_lastChecks calls), ih]
    constructor
    · rintro ⟨hbefore, hlast⟩ pre d post hsplit
      rcases List.eq_nil_or_concat post with rfl | ⟨post, x, rfl⟩
      · obtain ⟨rfl, hd⟩ := List.append_inj' hsplit rfl
        obtain rfl := (List.singleton_inj.mp hd)
        exact hlast
      · refine hbefore pre d post ?_
        rw [List.concat_eq_append, ← List.cons_append, ← List.append_assoc] at hsplit
        exact (List.append_inj' hsplit rfl).1
    · intro hall
      refine ⟨fun pre d post hsplit => hall pre d (post ++ [c]) ?_, hall calls c [] rfl⟩
      rw [hsplit, List.append_assoc, List.cons_append]

/-- The identity checks of a run are throttled: each check of an entity is 500 ms later than its last check or its
creation, none is made by an event that was stamped before that, and the recorded time never goes back. -/
structure Throttled (calls : List Call) : Prop where
  spaced : Spaced checkGap (stamps calls)
  ordered : ∀ pre c post, calls = pre ++ c :: post → ∀ s ∈ c.stamps (run pre), ∀ t,
    last? s.name (stamps pre) = some t → t ≤ s.time
  forward : ∀ pre c post, calls = pre ++ c :: post → ∀ id e e', (run pre).findProcess id = some e →
    (run (pre ++ [c])).findProcess id = some e' → e.lastIdentityCheckNs ≤ e'.lastIdentityCheckNs

theorem throttled_of_spaced {calls : List Call} (h : Spaced checkGap (stamps calls)) : Throttled calls where
  spaced := h
  ordered pre c post hsplit s hs t ht := by
    rw [hsplit, List.append_cons, stamps_append] at h
    have hnow := h.of_append
    rw [stamps_snoc] at hnow
    exact hnow.le_of_mem hs ht
  forward pre c post hsplit id e e' hstored hstored' := by
    rw [hsplit, List.append_cons, stamps_append] at h
    have hnow := h.of_append
    rw [stamps_snoc] at hnow
    have hshown' := (run_lastChecks (pre ++ [c])).shown id e' hstored'
    rw [stamps_snoc] at hshown'
    exact UInt64.le_iff_toNat_le.mpr
      (hnow.last?_le ((run_lastChecks pre).shown id e hstored) hshown')

/-- **The throttle of the identity check** holds in a run exactly if no event of it comes too early for an entity
that it finds. The time that an entity records is always that of its last check or of its creation. -/
theorem throttled_iff (calls : List Call) :
    (∀ id e, (run calls).findProcess id = some e →
      last? id (stamps calls) = some e.lastIdentityCheckNs.toNat) ∧
      (Throttled calls ↔ ∀ pre c post, calls = pre ++ c :: post → c.Timely (run pre)) := by
  refine ⟨(run_lastChecks calls).shown, ?_⟩
  rw [← spaced_iff]
  exact ⟨Throttled.spaced, throttled_of_spaced⟩

/-- Process 200, whose start time is read at its creation and again later. -/
def seenAt (tsNs : UInt64) : Call :=
  { processCall 200 .processExeced tsNs 0 with
    env := { subject := { proc := { identityStat := statOf 53, stat := statOf 53 } } } }

/-- An event that was stamped a nanosecond before the one that created the entity. -/
theorem not_throttled : ¬ ∀ calls, Throttled calls := by
  intro h
  have hspaced := (h [seenAt 1000, seenAt 999]).spaced
  have hstamps : stamps [seenAt 1000, seenAt 999] = [⟨1, 1000⟩, ⟨1, 999⟩] := by decide
  rw [hstamps] at hspaced
  have hgap := (Spacing.spaced_snoc.mp (show Spaced checkGap ([⟨1, 1000⟩] ++ [⟨1, 999⟩]) from hspaced)).2 1000 rfl
  exact absurd hgap (by decide)

end EntityRegistry

end ETraceGen
