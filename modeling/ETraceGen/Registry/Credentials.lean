import ETraceGen.Registry.Tombstone

/-!
# Observed credentials

What an entity's uid, gid and name are against what its own events said last. A creation report goes
through the update an observation goes through, as an actor whose unknown fields are zero: the name is
guarded there, the credentials are not. They survive a run exactly if no report names a process that
last acted with other credentials than zero (`observed_iff`).
-/

namespace ETraceGen

theorem CharBuf.cstr_eq_nil_iff {n : Nat} (hn : 0 < n) (buf : CharBuf n) : buf.cstr = [] ↔ buf[0] = 0 := by
  have hlen : 0 < buf.toList.length := by
    rw [Vector.length_toList]
    exact hn
  have hhead : buf.toList.get ⟨0, hlen⟩ = buf[0] := by simp
  unfold CharBuf.cstr
  rw [List.takeWhile_eq_nil_iff]
  constructor
  · intro h
    have hzero := h hlen
    rw [hhead] at hzero
    simpa using hzero
  · intro h _
    rw [hhead, h]
    decide

namespace ProcessEntity

/-- The credentials of an entity. -/
def credentials (e : ProcessEntity) : UInt32 × UInt32 := (e.uid, e.gid)

theorem updateFast_comm (actor : ActorIdentity) (nowNs : UInt64) (e : ProcessEntity) :
    (updateFast actor nowNs e).comm = if actor.comm.cstr = [] then e.comm else actor.comm.cstr := by
  have hnil := CharBuf.cstr_eq_nil_iff (by decide) actor.comm
  unfold updateFast
  dsimp only
  split_ifs with hset hempty hempty
  · exact absurd (hnil.mp hempty) hset
  · rfl
  · rfl
  · exact absurd (hnil.mpr (not_not.mp hset)) hempty

section Touched
variable (env : ResolveEnv) (actor : ActorIdentity) (nowNs : UInt64) (refresh : Bool) (e : ProcessEntity)

/-- A name that is known after the update is the one the entity has after the enrichment. -/
theorem touched_comm {comm : Bytes} (hne : comm ≠ [])
    (h : (if actor.comm.cstr = [] then e.comm else actor.comm.cstr) = comm) :
    (touched env actor nowNs refresh e).comm = comm := by
  obtain ⟨checked, hchecked⟩ := isReused_snd env.proc.identityStat nowNs e
  have hfast : (updateFast actor nowNs { e with lastIdentityCheckNs := checked }).comm = comm := by
    rw [updateFast_comm]
    exact h
  unfold touched
  rw [hchecked]
  dsimp only
  split_ifs
  · rw [refreshRich_comm env.proc actor.key (hfast ▸ hne)]
    exact hfast
  · exact hfast

end Touched

end ProcessEntity

namespace EntityRegistry

open ProcessEntity (isReused touched markedExited retired linked hinted credentials)

theorem newProcess_credentials (answers : ProcAnswers) (key : UInt32) (actor : ActorIdentity)
    (nowNs : UInt64) (id : Nat) :
    (newProcess answers key actor nowNs id).credentials = (actor.uid, actor.gid) :=
  ProcessEntity.refreshRich_keeps ProcessEntity.credentials (fun _ _ _ _ _ _ _ => rfl) answers key _

theorem newProcess_comm (answers : ProcAnswers) (key : UInt32) {actor : ActorIdentity} (nowNs : UInt64)
    (id : Nat) (h : actor.comm.cstr ≠ []) :
    (newProcess answers key actor nowNs id).comm = actor.comm.cstr := by
  have hfast : (ProcessEntity.updateFast actor nowNs { id := id }).comm = actor.comm.cstr := by
    rw [ProcessEntity.updateFast_comm, if_neg h]
  unfold newProcess
  rw [ProcessEntity.refreshRich_comm]
  · exact hfast
  · exact hfast ▸ h

/-! ## Own events -/

/-- The events of a run that starts at `r`: the entity each is attributed to, and its actor. -/
def ownEvents : EntityRegistry → List Call → List (Nat × ActorIdentity)
  | _, [] => []
  | r, c :: calls => ((c.out r).subject.id, c.ev.actor) :: ownEvents (c.next r) calls

theorem ownEvents_snoc (r : EntityRegistry) (calls : List Call) (c : Call) :
    ownEvents r (calls ++ [c]) = ownEvents r calls ++
      [((c.out (calls.foldl (fun r c => c.next r) r)).subject.id, c.ev.actor)] := by
  induction calls generalizing r with
  | nil => rfl
  | cons d calls ih =>
    rw [List.cons_append, ownEvents, ih]
    rfl

/-- The actor of an entity's latest own event among those with the property. -/
def latestOwn (p : ActorIdentity → Bool) (calls : List Call) (id : Nat) : Option ActorIdentity :=
  (((ownEvents {} calls).reverse.find? fun own => own.1 == id && p own.2)).map Prod.snd

theorem latestOwn_snoc (p : ActorIdentity → Bool) (calls : List Call) (c : Call) (id : Nat) :
    latestOwn p (calls ++ [c]) id =
      if (c.resolved (run calls)).2 = id ∧ p c.ev.actor = true then some c.ev.actor
      else latestOwn p calls id := by
  have hsubject : (c.out (calls.foldl (fun r c => c.next r) {})).subject.id = (c.resolved (run calls)).2 := by
    rw [c.out_subject]
    rfl
  unfold latestOwn
  rw [ownEvents_snoc, hsubject, List.reverse_append, List.reverse_singleton, List.singleton_append,
    List.find?_cons]
  split_ifs with h
  · rw [h.1, h.2]
    simp
  · have hfalse : ((c.resolved (run calls)).2 == id && p c.ev.actor) = false := by
      rw [Bool.and_eq_false_iff, beq_eq_false_iff_ne]
      by_cases hid : (c.resolved (run calls)).2 = id
      · exact Or.inr (Bool.eq_false_iff.mpr fun hp => h ⟨hid, hp⟩)
      · exact Or.inl hid
    rw [hfalse]

/-- Own events are those of ids that were issued. -/
theorem latestOwn_issued {p : ActorIdentity → Bool} {calls : List Call} {id : Nat} {a : ActorIdentity}
    (h : latestOwn p calls id = some a) : id < (run calls).nextId := by
  induction calls using List.reverseRecOn with
  | nil => cases h
  | append_singleton calls c ih =>
    have hr := run_consistent calls
    rw [latestOwn_snoc] at h
    rw [run_snoc]
    split_ifs at h with hown
    · have hlt := resolveProcess_issued c.env.subject c.ev.actor c.ev.tsNs
        (c.ev.action == .processExeced) hr
      rw [← hown.1]
      exact Nat.lt_of_lt_of_le hlt (c.resolved_next_grown hr).next
    · exact Nat.lt_of_lt_of_le (ih h) (c.next_grown hr).next

/-! ## What entities show -/

/-- Every stored entity shows what was last noted of it. -/
def Shows {β : Type} (shown : ProcessEntity → β) (noted : Nat → Option β) (r : EntityRegistry) : Prop :=
  ∀ k e b, r.findProcess k = some e → noted k = some b → shown e = b

section Shows
variable {β : Type} {shown : ProcessEntity → β} {noted : Nat → Option β} {r r' : EntityRegistry}

theorem Writes.shows {id : Nat} {f : ProcessEntity → ProcessEntity} (h : Writes id f r r')
    (hf : ∀ e, shown (f e) = shown e) (hshows : Shows shown noted r) : Shows shown noted r' := by
  intro k e' b hk hb
  obtain ⟨e, he, rfl | ⟨-, rfl⟩⟩ := h.origin hk
  · exact hshows k e' b he hb
  · rw [hf]
    exact hshows k e b he hb

/-- What `ResolveProcess` shows, if only the entity it resolves is noted anew. -/
theorem Shows.resolveProcess (hr : r.Consistent) (env : ResolveEnv) (actor : ActorIdentity)
    (nowNs : UInt64) (refresh : Bool) (hshows : Shows shown noted r) (noted' : Nat → Option β)
    (hother : ∀ k, k ≠ (resolveProcess env actor nowNs refresh r).2 → noted' k = noted k)
    (hretired : ∀ e, shown (retired env nowNs e) = shown e)
    (hseen : ∀ e b, Finds env actor nowNs r (resolveProcess env actor nowNs refresh r).2 e →
      noted' (resolveProcess env actor nowNs refresh r).2 = some b →
        shown (touched env actor nowNs refresh e) = b)
    (hnew : ∀ b, noted' r.nextId = some b → (resolveProcess env actor nowNs refresh r).2 = r.nextId →
      shown (newProcess env.proc actor.key actor nowNs r.nextId) = b) :
    Shows shown noted' (resolveProcess env actor nowNs refresh r).1 := by
  intro k e' b hk hb
  cases resolveProcess_origin env actor nowNs refresh hr hk with
  | kept hne _ hstored =>
    rw [hother k hne] at hb
    exact hshows k e' b hstored hb
  | @seen e hid hfinds heq =>
    rw [heq]
    exact hseen e b (hid ▸ hfinds) (hid ▸ hb)
  | @retired e hne _ hstored _ heq =>
    rw [hother k hne] at hb
    rw [heq, hretired]
    exact hshows k e b hstored hb
  | created hid hid' heq =>
    rw [heq, hid']
    exact hnew b (hid' ▸ hb) (hid' ▸ hid.symm)

end Shows

/-- The credentials of the latest own event. -/
def lastCredentials (calls : List Call) (id : Nat) : Option (UInt32 × UInt32) :=
  (latestOwn (fun _ => true) calls id).map fun a => (a.uid, a.gid)

/-- The name in the latest own event that has one. -/
def lastComm (calls : List Call) (id : Nat) : Option Bytes :=
  (latestOwn (fun a => a.comm.cstr != []) calls id).map fun a => a.comm.cstr

/-- Every stored entity has the credentials of its latest own event, and its name where one was
given. -/
structure Observed (calls : List Call) : Prop where
  credentials : Shows ProcessEntity.credentials (lastCredentials calls) (run calls)
  comm : Shows ProcessEntity.comm (lastComm calls) (run calls)

/-- A report of a creation names no process whose entity, not found reused, last acted with other
credentials than zero. -/
def Call.Spares (pre : List Call) (c : Call) : Prop :=
  c.StartsChild → ∀ id e b, Finds c.env.child c.child c.ev.tsNs (c.resolved (run pre)).1 id e →
    lastCredentials (pre ++ [c]) id = some b → b = (0, 0)

/-! ## One call -/

section Step
variable (pre : List Call) (c : Call)

theorem lastCredentials_snoc (id : Nat) :
    lastCredentials (pre ++ [c]) id =
      if (c.resolved (run pre)).2 = id then some (c.ev.actor.uid, c.ev.actor.gid)
      else lastCredentials pre id := by
  unfold lastCredentials
  rw [latestOwn_snoc]
  simp only [and_true]
  split_ifs <;> rfl

theorem lastComm_snoc (id : Nat) :
    lastComm (pre ++ [c]) id =
      if (c.resolved (run pre)).2 = id ∧ c.ev.actor.comm.cstr ≠ [] then some c.ev.actor.comm.cstr
      else lastComm pre id := by
  unfold lastComm
  rw [latestOwn_snoc]
  simp only [bne_iff_ne]
  split_ifs <;> rfl

/-- A name that was given is not empty. -/
theorem lastComm_ne_nil {calls : List Call} {id : Nat} {comm : Bytes}
    (h : lastComm calls id = some comm) : comm ≠ [] := by
  obtain ⟨a, ha, rfl⟩ := Option.map_eq_some_iff.mp h
  obtain ⟨own, hown, rfl⟩ := Option.map_eq_some_iff.mp ha
  have hp := List.find?_some hown
  rw [Bool.and_eq_true] at hp
  exact bne_iff_ne.mp hp.2

/-- What was noted before the call or of its subject is of an entity issued before the child is. -/
theorem latestOwn_snoc_issued {p : ActorIdentity → Bool} {id : Nat} {a : ActorIdentity}
    (h : latestOwn p (pre ++ [c]) id = some a) : id < (c.resolved (run pre)).1.nextId := by
  have hr := run_consistent pre
  rw [latestOwn_snoc] at h
  split_ifs at h with hown
  · rw [← hown.1]
    exact resolveProcess_issued c.env.subject c.ev.actor c.ev.tsNs (c.ev.action == .processExeced) hr
  · exact Nat.lt_of_lt_of_le (latestOwn_issued h) (c.resolved_grown hr).next

variable {pre}

theorem resolved_credentials (h : Observed pre) :
    Shows ProcessEntity.credentials (lastCredentials (pre ++ [c])) (c.resolved (run pre)).1 := by
  refine h.credentials.resolveProcess (run_consistent pre) c.env.subject c.ev.actor c.ev.tsNs _ _ ?_
    (ProcessEntity.retired_keeps credentials (fun _ _ _ _ => rfl) _ _) ?_ ?_
  · intro k (hne : k ≠ (c.resolved (run pre)).2)
    rw [lastCredentials_snoc, if_neg (Ne.symm hne)]
  · intro e b _ (hb : lastCredentials (pre ++ [c]) (c.resolved (run pre)).2 = some b)
    rw [lastCredentials_snoc, if_pos rfl] at hb
    obtain ⟨huid, hgid⟩ := ProcessEntity.touched_credentials c.env.subject c.ev.actor c.ev.tsNs
      (c.ev.action == .processExeced) e
    rw [← Option.some.inj hb]
    exact Prod.ext huid hgid
  · intro b hb (hnew : (c.resolved (run pre)).2 = (run pre).nextId)
    rw [lastCredentials_snoc, if_pos hnew] at hb
    rw [← Option.some.inj hb]
    exact newProcess_credentials _ _ _ _ _

theorem resolved_comm (h : Observed pre) :
    Shows ProcessEntity.comm (lastComm (pre ++ [c])) (c.resolved (run pre)).1 := by
  refine h.comm.resolveProcess (run_consistent pre) c.env.subject c.ev.actor c.ev.tsNs _ _ ?_
    (ProcessEntity.retired_keeps ProcessEntity.comm (fun _ _ _ _ => rfl) _ _) ?_ ?_
  · intro k (hne : k ≠ (c.resolved (run pre)).2)
    rw [lastComm_snoc, if_neg fun hown => hne hown.1.symm]
  · intro e b hfinds (hb : lastComm (pre ++ [c]) (c.resolved (run pre)).2 = some b)
    apply ProcessEntity.touched_comm _ _ _ _ _ (lastComm_ne_nil hb)
    rw [lastComm_snoc] at hb
    by_cases hempty : c.ev.actor.comm.cstr = []
    · rw [if_neg fun hown => hown.2 hempty] at hb
      rw [if_pos hempty]
      exact h.comm _ e b hfinds.stored hb
    · rw [if_pos ⟨rfl, hempty⟩] at hb
      rw [if_neg hempty]
      exact Option.some.inj hb
  · intro b hb (hnew : (c.resolved (run pre)).2 = (run pre).nextId)
    rw [lastComm_snoc] at hb
    split_ifs at hb with hown
    · rw [← Option.some.inj hb]
      exact newProcess_comm _ _ _ _ hown.2
    · obtain ⟨a, ha, -⟩ := Option.map_eq_some_iff.mp hb
      exact absurd (latestOwn_issued ha) (Nat.lt_irrefl _)

theorem childResolved_credentials (hspares : c.Spares pre) (hstart : c.StartsChild)
    (h : Shows ProcessEntity.credentials (lastCredentials (pre ++ [c])) (c.resolved (run pre)).1) :
    Shows ProcessEntity.credentials (lastCredentials (pre ++ [c])) (c.childResolved (run pre)).1 := by
  have hr := c.resolved_consistent (run_consistent pre)
  refine h.resolveProcess hr c.env.child c.child c.ev.tsNs true _ (fun _ _ => rfl)
    (ProcessEntity.retired_keeps credentials (fun _ _ _ _ => rfl) _ _) ?_ ?_
  · intro e b hfinds hb
    obtain ⟨huid, hgid⟩ := ProcessEntity.touched_credentials c.env.child c.child c.ev.tsNs true e
    rw [hspares hstart _ e b hfinds hb]
    exact Prod.ext huid hgid
  · intro b hb _
    obtain ⟨a, ha, -⟩ := Option.map_eq_some_iff.mp hb
    exact absurd (latestOwn_snoc_issued pre c ha) (Nat.lt_irrefl _)

theorem childResolved_comm
    (h : Shows ProcessEntity.comm (lastComm (pre ++ [c])) (c.resolved (run pre)).1) :
    Shows ProcessEntity.comm (lastComm (pre ++ [c])) (c.childResolved (run pre)).1 := by
  have hr := c.resolved_consistent (run_consistent pre)
  refine h.resolveProcess hr c.env.child c.child c.ev.tsNs true _ (fun _ _ => rfl)
    (ProcessEntity.retired_keeps ProcessEntity.comm (fun _ _ _ _ => rfl) _ _) ?_ ?_
  · intro e b hfinds hb
    apply ProcessEntity.touched_comm _ _ _ _ _ (lastComm_ne_nil hb)
    -- the child's identity has no name
    have hempty : c.child.comm.cstr = [] := (CharBuf.cstr_eq_nil_iff (by decide) _).mpr rfl
    rw [if_pos hempty]
    exact h _ e b hfinds.stored hb
  · intro b hb _
    obtain ⟨a, ha, -⟩ := Option.map_eq_some_iff.mp hb
    exact absurd (latestOwn_snoc_issued pre c ha) (Nat.lt_irrefl _)

/-- What is neither flag nor lineage nor path is written by the resolutions alone. -/
theorem Call.next_shows {β : Type} {shown : ProcessEntity → β} {noted : Nat → Option β}
    {r : EntityRegistry} (hmarked : ∀ nowNs exitCode e, shown (markedExited nowNs exitCode e) = shown e)
    (hlinked : ∀ e parentId, shown { e with parentId := parentId } = shown e)
    (hhinted : ∀ e path, shown { e with execPath := path } = shown e)
    (hresolved : Shows shown noted (c.resolved r).1)
    (hchild : c.StartsChild → Shows shown noted (c.childResolved r).1) :
    Shows shown noted (c.next r) := by
  rw [next_eq]
  refine (useExecPathHint_writes _ _ _).shows (ProcessEntity.hinted_keeps shown hhinted _) ?_
  unfold acted
  split_ifs with hexit hstart
  · exact (markExited_writes _ _ _ _).shows (hmarked _ _) hresolved
  · exact (linkParent_writes _ _ _).shows (ProcessEntity.linked_keeps shown hlinked _) (hchild hstart)
  · exact hresolved

theorem Observed.snoc (h : Observed pre) (hspares : c.Spares pre) : Observed (pre ++ [c]) := by
  have hcredentials := resolved_credentials c h
  have hcomm := resolved_comm c h
  refine ⟨?_, ?_⟩
  · rw [run_snoc]
    exact c.next_shows (fun _ _ _ => rfl) (fun _ _ => rfl) (fun _ _ => rfl) hcredentials fun hstart => childResolved_credentials c hspares hstart hcredentials
  · rw [run_snoc]
    exact c.next_shows (fun _ _ _ => rfl) (fun _ _ => rfl) (fun _ _ => rfl) hcomm fun _ => childResolved_comm c hcomm

end Step

/-! ## Runs -/

/-- A report that names the entity leaves it without credentials. -/
theorem Call.child_credentials (c : Call) {r : EntityRegistry} (hstart : c.StartsChild) {id : Nat}
    {e : ProcessEntity} (hfinds : Finds c.env.child c.child c.ev.tsNs (c.resolved r).1 id e) :
    ∃ f, (c.next r).findProcess id = some f ∧ f.credentials = (0, 0) := by
  have hkey : c.child.key ≠ 0 := (c.child_key hstart.2).symm ▸ hstart.2
  have hres : c.childResolved r =
      ((c.resolved r).1.store id (touched c.env.child c.child c.ev.tsNs true e), id) :=
    resolveProcess_found c.env.child c.child c.ev.tsNs true hkey hfinds.index hfinds.stored hfinds.same
  have hstored : (c.childResolved r).1.findProcess id =
      some (touched c.env.child c.child c.ev.tsNs true e) := by
    rw [hres, findProcess_store, if_pos rfl]
  have hzero : (touched c.env.child c.child c.ev.tsNs true e).credentials = (0, 0) := by
    obtain ⟨huid, hgid⟩ := ProcessEntity.touched_credentials c.env.child c.child c.ev.tsNs true e
    exact Prod.ext huid hgid
  obtain ⟨f, hf, hsame⟩ := c.next_keeps_child hstart credentials (fun _ _ => rfl) (fun _ _ => rfl) hstored
  exact ⟨f, hf, hsame.trans hzero⟩

theorem observed_nil : Observed [] := by
  refine ⟨fun k e b hk => ?_, fun k e b hk => ?_⟩ <;> simp [run, findProcess] at hk

/-- After every call of a run each entity has the credentials and the name its own events gave it last,
exactly if no report of a creation names a process whose entity, not found reused, last acted with other
credentials than zero. -/
theorem observed_iff (calls : List Call) :
    (∀ pre, pre <+: calls → Observed pre) ↔
      ∀ pre c post, calls = pre ++ c :: post → c.Spares pre := by
  constructor
  · rintro hobserved pre c post rfl hstart id e b hfinds hb
    have hafter : Observed (pre ++ [c]) := hobserved _ ⟨post, by simp⟩
    obtain ⟨f, hf, hzero⟩ := c.child_credentials hstart hfinds
    rw [← run_snoc] at hf
    rw [← hafter.credentials id f b hf hb, hzero]
  · intro hspares pre hpre
    induction calls using List.reverseRecOn generalizing pre with
    | nil => exact (List.prefix_nil.mp hpre) ▸ observed_nil
    | append_singleton calls c ih =>
      have hcalls : ∀ pre, pre <+: calls → Observed pre := by
        refine fun pre hpre => ih (fun pre d post hsplit => hspares pre d (post ++ [c]) ?_) pre hpre
        rw [hsplit, List.append_assoc, List.cons_append]
      rcases List.prefix_concat_iff.mp hpre with rfl | hpre
      · exact (hcalls calls (List.prefix_refl calls)).snoc c (hspares calls c [] rfl)
      · exact hcalls pre hpre

/-! ## A creation that is reported twice -/

/-- An event of process 200 as user 1000. -/
def userCall (tsNs : UInt64) : Call where
  ev := { (processCall 200 .processExeced tsNs 0).ev with
    actor := { pid := 200, tgid := 200, uid := 1000, gid := 1000 } }

/-- A `vfork`: its creation is reported, the child execs, and the creation is reported once more when the
parent goes on. -/
def reportedTwice : List Call :=
  [processCall 100 .processStarted 1 200, userCall 2, processCall 100 .processStarted 3 200]

/-- The second report takes the child's credentials. -/
theorem not_observed : ¬∀ pre, pre <+: reportedTwice → Observed pre := by
  intro h
  have hcredentials : ((run reportedTwice).findProcess 2).map ProcessEntity.credentials = some (0, 0) := by
    decide
  obtain ⟨e, he, hzero⟩ := Option.map_eq_some_iff.mp hcredentials
  have hlast : lastCredentials reportedTwice 2 = some (1000, 1000) := by decide
  have hshown := (h reportedTwice (List.prefix_refl _)).credentials 2 e _ he hlast
  rw [hzero] at hshown
  exact absurd hshown (by decide)

end EntityRegistry

end ETraceGen
