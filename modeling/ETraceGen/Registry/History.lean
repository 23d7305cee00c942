import ETraceGen.Lib.FreshNames
import ETraceGen.Registry.Trace

/-!
# The history of a run

The history of a run of `Ingest` calls is what its events say and what the registry attaches: the keys
mentioned, with their ids, and the exits. A run is a sequence of edits whose log is the history with
the registry's own retirements in between (`run_logs`), and the index together with the id counter is
a directory of fresh names that replays the log (`Edits.names`).
-/

namespace ETraceGen.EntityRegistry

open FreshNames

/-! ## One call -/

namespace Call

variable (c : Call) (r : EntityRegistry)

def next : EntityRegistry := (ingest c.env c.ev r).1

/-- The event as the call leaves it, with its references filled. -/
def out : CanonicalEvent := (ingest c.env c.ev r).2

/-- The subject's `ResolveProcess`. -/
def resolved : EntityRegistry × Nat :=
  resolveProcess c.env.subject c.ev.actor c.ev.tsNs (c.ev.action == .processExeced) r

/-- The event reports the creation of a task. -/
abbrev StartsChild : Prop := c.ev.action = .processStarted ∧ c.ev.object.childPid ≠ 0

def child : ActorIdentity := childIdentity c.ev.object.childPid c.ev.actor

/-- The child's `ResolveProcess`. -/
def childResolved : EntityRegistry × Nat :=
  resolveProcess c.env.child c.child c.ev.tsNs true (c.resolved r).1

/-- The registry after the exit or the child of the event is handled. -/
def acted : EntityRegistry :=
  if c.ev.action = .processExited then
    (c.resolved r).1.markExited (c.resolved r).2 c.ev.tsNs c.ev.outcome
  else if c.StartsChild then
    (c.childResolved r).1.linkParent (c.childResolved r).2 (c.resolved r).2
  else (c.resolved r).1

/-- The keys the event mentions, with the ids attached, and its exit. -/
def history : List Entry :=
  (if c.ev.actor.key = 0 then []
    else .mention c.ev.actor.key (c.out r).subject.id c.ev.tsNs ::
      if c.ev.action = .processExited then [.exited c.ev.actor.key] else []) ++
  if c.StartsChild then [.mention c.ev.object.childPid (c.out r).objectRef.id c.ev.tsNs] else []

/-- Every start-time read the call makes for an indexed entity returns 0 or the recorded value. -/
def SameStarts : Prop :=
  SameStart c.env.subject c.ev.actor c.ev.tsNs r ∧
    (c.StartsChild → SameStart c.env.child c.child c.ev.tsNs (c.resolved r).1)

/-- The same of the reads for one key. -/
def SameStartOf (key : UInt32) : Prop :=
  (c.ev.actor.key = key → SameStart c.env.subject c.ev.actor c.ev.tsNs r) ∧
    (c.StartsChild → c.ev.object.childPid = key →
      SameStart c.env.child c.child c.ev.tsNs (c.resolved r).1)

variable {c r} in
theorem SameStarts.of {key : UInt32} (h : c.SameStarts r) : c.SameStartOf r key :=
  ⟨fun _ => h.1, fun hstart _ => h.2 hstart⟩

theorem resolveChild_eq (h : c.ev.object.childPid ≠ 0) :
    resolveChild c.env.child c.ev.object.childPid (c.resolved r).2 c.ev.actor c.ev.tsNs
        (c.resolved r).1 =
      ((c.childResolved r).1.linkParent (c.childResolved r).2 (c.resolved r).2,
        (c.childResolved r).2) := by
  rw [resolveChild, if_neg h]
  rfl

theorem next_eq : c.next r = (c.acted r).useExecPathHint (c.resolved r).2 c.ev.execPathHint := by
  unfold next ingest acted
  by_cases hexit : c.ev.action = .processExited
  · dsimp only
    rw [if_pos hexit, if_pos hexit]
    rfl
  · by_cases hstart : c.StartsChild
    · dsimp only
      rw [if_neg hexit, if_neg hexit, if_pos hstart, if_pos hstart]
      exact congrArg (fun res : EntityRegistry × Nat => res.1.useExecPathHint _ _)
        (c.resolveChild_eq r hstart.2)
    · dsimp only
      rw [if_neg hexit, if_neg hexit, if_neg hstart, if_neg hstart]
      rfl

theorem out_subject : (c.out r).subject = { kind := .process, id := (c.resolved r).2 } := by
  unfold out ingest
  dsimp only
  split_ifs <;> rfl

theorem out_objectRef (h : c.StartsChild) : (c.out r).objectRef.id = (c.childResolved r).2 := by
  have hexit : c.ev.action ≠ .processExited := by
    rw [h.1]
    decide
  unfold out ingest
  dsimp only
  rw [if_neg hexit, if_pos h]
  have hchild := congrArg Prod.snd (c.resolveChild_eq r h.2)
  exact hchild

theorem child_key (h : c.ev.object.childPid ≠ 0) : c.child.key = c.ev.object.childPid := by
  unfold child childIdentity ActorIdentity.key taskKey
  rw [if_pos h]

end Call

/-! ## The index is a directory of fresh names -/

/-- The index and the id counter. -/
def names (r : EntityRegistry) : Directory UInt32 where
  current := fun key => r.tgidIndex.lookup key
  next := r.nextId

def Entry.note : Entry → Note UInt32
  | .mention key id _ => .given key id
  | .exited key | .reused key | .evicted key _ => .retired key

theorem Consistent.names_sound {r : EntityRegistry} (hr : r.Consistent) : r.names.Sound :=
  ⟨hr.pos, fun _ _ h => hr.lookup_lt h, fun _ _ _ h h' => hr.index_inj h h'⟩

theorem names_unindex (r : EntityRegistry) (key : UInt32) :
    (r.unindex key).names = r.names.retire key := by
  unfold names Directory.retire
  congr 1
  funext k
  rw [unindex_lookup, Function.update_apply]

theorem names_add {r : EntityRegistry} {e : ProcessEntity}
    (hindex : r.tgidIndex.lookup e.key = none) : (r.add e).names = r.names.ask e.key := by
  have hask : r.names.current e.key = none := hindex
  unfold Directory.ask
  rw [hask]
  unfold names
  congr 1
  funext k
  rw [add_lookup, Function.update_apply]

/-- Each edit replays its entries, and a mention carries the name the directory gave. -/
theorem Edit.names {r r' : EntityRegistry} {log : List Entry} (h : Edit r log r') :
    r'.names = r.names.replay (log.map Entry.note) ∧ r.names.Faithful (log.map Entry.note) := by
  cases h with
  | see hindex =>
    have hcur := hindex
    change r.names.current _ = some _ at hcur
    refine ⟨?_, ?_, trivial⟩
    · change r.names = r.names.ask _
      rw [Directory.ask, hcur]
    · intro k i hki
      obtain ⟨rfl, rfl⟩ := Note.given.inj hki
      rw [Directory.idOf, hcur, Option.getD_some]
  | create hindex =>
    have hcur := hindex
    change r.names.current _ = none at hcur
    refine ⟨names_add hindex, ?_, trivial⟩
    intro k i hki
    obtain ⟨rfl, rfl⟩ := Note.given.inj hki
    rw [Directory.idOf, hcur, Option.getD_none]
    rfl
  | retire _ _ _ _ _ _ hentry =>
    refine ⟨?_, ?_, trivial⟩
    · rcases hentry with rfl | rfl <;> exact names_unindex _ _
    · intro k i hki
      rcases hentry with rfl | rfl <;> cases hki
  | @exitGone key hindex =>
    refine ⟨?_, ?_, trivial⟩
    · change r.names = r.names.retire key
      have hupd : Function.update r.names.current key none = r.names.current :=
        Function.update_eq_self_iff.mpr hindex.symm
      rw [Directory.retire, hupd]
    · intro k i hki
      cases hki
  | evictLive =>
    refine ⟨names_unindex _ _, ?_, trivial⟩
    intro k i hki
    cases hki
  | evictExited => exact ⟨rfl, trivial⟩
  | amend => exact ⟨rfl, trivial⟩

/-- The registry refines the directory: the index after a run of edits is the directory that replays
the log. -/
theorem Edits.names {r r' : EntityRegistry} {log : List Entry} (h : Edits r log r') :
    r'.names = r.names.replay (log.map Entry.note) ∧ r.names.Faithful (log.map Entry.note) := by
  induction h with
  | refl => exact ⟨rfl, trivial⟩
  | tail _ he ih =>
    obtain ⟨hnames, hfaith⟩ := he.names
    rw [ih.1] at hnames hfaith
    rw [List.map_append, Directory.replay_append, Directory.faithful_append]
    exact ⟨hnames, ih.2, hfaith⟩

/-- Every id attached has been issued. -/
theorem Edits.mention_lt {r r' : EntityRegistry} {log : List Entry} (h : Edits r log r')
    (hr : r.Consistent) {key : UInt32} {id : Nat} {tsNs : UInt64}
    (hm : .mention key id tsNs ∈ log) : 0 < id ∧ id < r'.nextId := by
  obtain ⟨hnames, hfaith⟩ := h.names
  have hlt := hfaith.given_lt hr.names_sound (List.mem_map_of_mem (f := Entry.note) hm)
  rw [← hnames] at hlt
  exact hlt

/-! ## The edits of one call -/

def Entry.observed : Entry → Bool
  | .mention _ _ _ | .exited _ => true
  | .reused _ | .evicted _ _ => false

/-- The log is what is observed with the registry's own retirements in between; a reused key is
retired only if its start time changed. -/
structure Logs (r : EntityRegistry) (seen : List Entry) (same : UInt32 → Prop)
    (r' : EntityRegistry) : Prop where
  exists_log : ∃ log, Edits r log r' ∧ log.filter Entry.observed = seen ∧
    ∀ key, same key → .reused key ∉ log

theorem Logs.trans {r r' r'' : EntityRegistry} {seen seen' : List Entry} {same same' : UInt32 → Prop}
    (h : Logs r seen same r') (h' : Logs r' seen' same' r'') :
    Logs r (seen ++ seen') (fun key => same key ∧ same' key) r'' := by
  obtain ⟨log, hlog, hseen, hsame⟩ := h.exists_log
  obtain ⟨log', hlog', hseen', hsame'⟩ := h'.exists_log
  refine ⟨log ++ log', hlog.trans hlog', ?_, fun key hs hm => ?_⟩
  · rw [List.filter_append, hseen, hseen']
  · rcases List.mem_append.mp hm with hm | hm
    · exact hsame key hs.1 hm
    · exact hsame' key hs.2 hm

theorem Logs.consistent {r r' : EntityRegistry} {seen : List Entry} {same : UInt32 → Prop}
    (h : Logs r seen same r') (hr : r.Consistent) : r'.Consistent := by
  obtain ⟨log, hlog, -⟩ := h.exists_log
  exact hlog.consistent hr

theorem Logs.mono {r r' : EntityRegistry} {seen : List Entry} {same same' : UInt32 → Prop}
    (h : Logs r seen same r') (hs : ∀ key, same' key → same key) : Logs r seen same' r' := by
  obtain ⟨log, hlog, hseen, hsame⟩ := h.exists_log
  exact ⟨log, hlog, hseen, fun key h' => hsame key (hs key h')⟩

theorem Logs.refl (r : EntityRegistry) : Logs r [] (fun _ => True) r := ⟨[], .refl, rfl, by simp⟩

theorem Edit.logs {r r' : EntityRegistry} {log : List Entry} (h : Edit r log r')
    (hobs : log.filter Entry.observed = log) : Logs r log (fun _ => True) r' := by
  refine ⟨log, h.edits, hobs, fun key _ hm => ?_⟩
  rw [← hobs] at hm
  simpa [Entry.observed] using (List.mem_filter.mp hm).2

section Pieces
variable {r : EntityRegistry} (hr : r.Consistent)
include hr

theorem resolveProcess_logs (env : ResolveEnv) (actor : ActorIdentity) (nowNs : UInt64)
    (refresh : Bool) :
    Logs r (if actor.key = 0 then []
        else [.mention actor.key (resolveProcess env actor nowNs refresh r).2 nowNs])
      (fun key => actor.key = key → SameStart env actor nowNs r)
      (resolveProcess env actor nowNs refresh r).1 := by
  by_cases hkey : actor.key = 0
  · rw [if_pos hkey, resolveProcess_zero env actor nowNs refresh hkey]
    exact (Logs.refl r).mono fun _ _ => trivial
  · rw [if_neg hkey]
    obtain ⟨pre, post, hlog, hpre, hsame, honly⟩ := resolveProcess_edits env actor nowNs refresh hr hkey
    have hpost : post.filter Entry.observed = [] := by
      rw [List.filter_eq_nil_iff]
      intro x hx
      obtain ⟨key, id, rfl⟩ := honly x hx
      simp [Entry.observed]
    have hpost' : ∀ key, .reused key ∉ post := by
      intro key hm
      obtain ⟨k, id, h⟩ := honly _ hm
      cases h
    refine ⟨_, hlog, ?_, fun key hs hm => ?_⟩
    · rw [List.filter_append, List.filter_cons, hpost]
      rcases hpre with rfl | rfl <;> rfl
    · rcases List.mem_append.mp hm with hm | hm
      · -- only the key that was asked for can be found reused
        have hown : actor.key = key := by
          rcases hpre with rfl | rfl
          · simp at hm
          · simpa using (List.mem_singleton.mp hm).symm
        rw [hsame (hs hown)] at hm
        simp at hm
      · rcases List.mem_cons.mp hm with h | h
        · cases h
        · exact hpost' key h

omit hr in
theorem linkParent_logs {id parentId : Nat} (hparent : parentId < r.nextId) :
    Logs r [] (fun _ => True) (r.linkParent id parentId) := by
  unfold linkParent
  cases hstored : r.processesById.lookup id with
  | none => exact .refl r
  | some e =>
    dsimp only
    split_ifs
    · have hedit : Edit r [] (r.store id { e with parentId := parentId }) :=
        .amend hstored ⟨rfl, rfl, rfl⟩ rfl hparent rfl
      exact hedit.logs rfl
    · exact .refl r

theorem useExecPathHint_logs (id : Nat) (hint : Bytes) :
    Logs r [] (fun _ => True) (r.useExecPathHint id hint) := by
  unfold useExecPathHint
  split_ifs
  · exact .refl r
  · cases hstored : r.processesById.lookup id with
    | none => exact .refl r
    | some e =>
      dsimp only
      split_ifs
      · have hedit : Edit r [] (r.store id { e with execPath := hint }) :=
          .amend hstored ⟨rfl, rfl, rfl⟩ rfl (hr.parent id e hstored) rfl
        exact hedit.logs rfl
      · exact .refl r

end Pieces

namespace Call

variable (c : Call) {r : EntityRegistry}

theorem resolved_logs (hr : r.Consistent) :
    Logs r (if c.ev.actor.key = 0 then []
        else [.mention c.ev.actor.key (c.resolved r).2 c.ev.tsNs])
      (fun key => c.ev.actor.key = key → SameStart c.env.subject c.ev.actor c.ev.tsNs r)
      (c.resolved r).1 :=
  resolveProcess_logs hr _ _ _ _

/-- The exit of the subject that was just resolved; where it was evicted on the spot nothing is left to
retire. -/
theorem exit_logs (hr : r.Consistent) :
    Logs (c.resolved r).1 (if c.ev.actor.key = 0 then [] else [.exited c.ev.actor.key])
      (fun _ => True)
      ((c.resolved r).1.markExited (c.resolved r).2 c.ev.tsNs c.ev.outcome) := by
  have hcons := (c.resolved_logs hr).consistent hr
  by_cases hkey : c.ev.actor.key = 0
  · have hzero : (c.resolved r).2 = 0 := by
      rw [resolved, resolveProcess_zero _ _ _ _ hkey]
    have hnone : (c.resolved r).1.processesById.lookup 0 = none := by
      cases h : (c.resolved r).1.processesById.lookup 0 with
      | none => rfl
      | some e => exact absurd (hcons.own_id 0 e h).2.1 (Nat.lt_irrefl 0)
    rw [if_pos hkey, hzero, markExited, hnone]
    exact .refl _
  · rw [if_neg hkey]
    rcases resolveProcess_stored c.env.subject c.ev.actor c.ev.tsNs (c.ev.action == .processExeced) hr
      hkey with ⟨hnone, hindex⟩ | ⟨e, hstored, hlive, hk⟩
    · have hgone : (c.resolved r).1.markExited (c.resolved r).2 c.ev.tsNs c.ev.outcome =
          (c.resolved r).1 := by
        unfold findProcess at hnone
        unfold resolved markExited
        rw [hnone]
      rw [hgone]
      exact (Edit.exitGone hindex).logs rfl
    · rw [← hk]
      exact (markExited_edit c.ev.tsNs hcons hstored hlive c.ev.outcome (Or.inl rfl)).logs rfl

theorem child_logs (hr : r.Consistent) (h : c.StartsChild) :
    Logs (c.resolved r).1 [.mention c.ev.object.childPid (c.childResolved r).2 c.ev.tsNs]
      (fun key => c.ev.object.childPid = key →
        SameStart c.env.child c.child c.ev.tsNs (c.resolved r).1)
      ((c.childResolved r).1.linkParent (c.childResolved r).2 (c.resolved r).2) := by
  have hcons := (c.resolved_logs hr).consistent hr
  have hchild := resolveProcess_logs hcons c.env.child c.child c.ev.tsNs true
  rw [c.child_key h.2, if_neg h.2] at hchild
  have hsubject : (c.resolved r).2 < (c.childResolved r).1.nextId := by
    obtain ⟨log, hlog, hseen, -⟩ := (c.resolved_logs hr).exists_log
    obtain ⟨log', hlog', -⟩ := hchild.exists_log
    refine Nat.lt_of_lt_of_le ?_ hlog'.extends.next
    by_cases hkey : c.ev.actor.key = 0
    · rw [resolved, resolveProcess_zero _ _ _ _ hkey]
      exact hr.pos
    · rw [if_neg hkey] at hseen
      have hm : .mention c.ev.actor.key (c.resolved r).2 c.ev.tsNs ∈ log :=
        List.mem_of_mem_filter (hseen ▸ List.mem_singleton_self _)
      exact (hlog.mention_lt hr hm).2
  exact (hchild.trans (linkParent_logs hsubject)).mono fun _ h => ⟨h, trivial⟩

/-- One call is a sequence of edits, and its log shows what its event says. -/
theorem next_logs (hr : r.Consistent) : Logs r (c.history r) (c.SameStartOf r) (c.next r) := by
  have hres := c.resolved_logs hr
  have hacted : Logs r (c.history r) (c.SameStartOf r) (c.acted r) := by
    unfold history acted
    rw [out_subject]
    dsimp only
    by_cases hexit : c.ev.action = .processExited
    · have hstart : ¬c.StartsChild := by
        rintro ⟨h, -⟩
        rw [h] at hexit
        cases hexit
      rw [if_pos hexit, if_pos hexit, if_neg hstart, List.append_nil]
      have h := (hres.trans (c.exit_logs hr)).mono fun key (h : c.SameStartOf r key) => ⟨h.1, trivial⟩
      split_ifs at h ⊢ <;> exact h
    · rw [if_neg hexit, if_neg hexit]
      by_cases hstart : c.StartsChild
      · rw [if_pos hstart, if_pos hstart, c.out_objectRef r hstart]
        exact (hres.trans (c.child_logs hr hstart)).mono fun _ h => ⟨h.1, h.2 hstart⟩
      · rw [if_neg hstart, if_neg hstart, List.append_nil]
        exact hres.mono fun _ h => h.1
  have hhint := useExecPathHint_logs (hacted.consistent hr) (c.resolved r).2 c.ev.execPathHint
  rw [next_eq]
  have h := (hacted.trans hhint).mono fun key (h : c.SameStartOf r key) => ⟨h, trivial⟩
  rwa [List.append_nil] at h

end Call

/-! ## Runs -/

theorem run_snoc (calls : List Call) (c : Call) : run (calls ++ [c]) = c.next (run calls) := by
  rw [run, List.foldl_append]
  rfl

theorem run_append (calls rest : List Call) :
    run (calls ++ rest) = rest.foldl (fun r c => c.next r) (run calls) := by
  rw [run, List.foldl_append]
  rfl

/-- The history of a run that starts at `r`. -/
def historyFrom : EntityRegistry → List Call → List Entry
  | _, [] => []
  | r, c :: calls => c.history r ++ historyFrom (c.next r) calls

def history (calls : List Call) : List Entry := historyFrom {} calls

/-- Every start-time read of the run for an indexed entity returns 0 or the recorded value. -/
def SameStarts (calls : List Call) : Prop :=
  ∀ pre c post, calls = pre ++ c :: post → c.SameStarts (run pre)

theorem historyFrom_append (r : EntityRegistry) (calls rest : List Call) :
    historyFrom r (calls ++ rest) =
      historyFrom r calls ++ historyFrom (calls.foldl (fun r c => c.next r) r) rest := by
  induction calls generalizing r with
  | nil => rfl
  | cons c calls ih => rw [List.cons_append, historyFrom, ih, historyFrom, List.append_assoc]; rfl

theorem historyFrom_snoc (r : EntityRegistry) (calls : List Call) (c : Call) :
    historyFrom r (calls ++ [c]) =
      historyFrom r calls ++ c.history (calls.foldl (fun r c => c.next r) r) := by
  rw [historyFrom_append, historyFrom, historyFrom, List.append_nil]

theorem history_snoc (calls : List Call) (c : Call) :
    history (calls ++ [c]) = history calls ++ c.history (run calls) :=
  historyFrom_snoc {} calls c

/-- Every start-time read for the key returns 0 or the recorded value, in a run that starts at `r`. -/
def SameStartFrom : EntityRegistry → List Call → UInt32 → Prop
  | _, [], _ => True
  | r, c :: calls, key => c.SameStartOf r key ∧ SameStartFrom (c.next r) calls key

theorem sameStartFrom_run (pre : List Call) {calls : List Call} {key : UInt32}
    (h : ∀ mid c post, calls = mid ++ c :: post → c.SameStarts (run (pre ++ mid))) :
    SameStartFrom (run pre) calls key := by
  induction calls generalizing pre with
  | nil => trivial
  | cons c calls ih =>
    have hfirst := h [] c calls rfl
    rw [List.append_nil] at hfirst
    refine ⟨hfirst.of, ?_⟩
    rw [← run_snoc]
    refine ih (pre ++ [c]) fun mid d post heq => ?_
    have hlater := h (c :: mid) d post (by rw [heq, List.cons_append])
    rwa [List.append_assoc]

theorem SameStarts.of {calls : List Call} {key : UInt32} (h : SameStarts calls) :
    SameStartFrom {} calls key :=
  sameStartFrom_run [] h

theorem SameStarts.of_append {calls more : List Call} (h : SameStarts (calls ++ more)) :
    SameStarts calls := fun pre c post hsplit => h pre c (post ++ more) (by rw [hsplit]; simp)

/-- A run is a sequence of edits, and its log shows its history. -/
theorem historyFrom_logs {r : EntityRegistry} (hr : r.Consistent) (calls : List Call) :
    Logs r (historyFrom r calls) (SameStartFrom r calls) (calls.foldl (fun r c => c.next r) r) := by
  induction calls generalizing r with
  | nil => exact (Logs.refl r).mono fun _ _ => trivial
  | cons c calls ih =>
    have hnext := c.next_logs hr
    exact (hnext.trans (ih (hnext.consistent hr))).mono fun _ h => h

theorem run_logs (calls : List Call) :
    Logs {} (history calls) (SameStartFrom {} calls) (run calls) :=
  historyFrom_logs consistent_empty calls

theorem run_consistent (calls : List Call) : (run calls).Consistent :=
  (run_logs calls).consistent consistent_empty

/-! ## Exits in a history -/

/-- The event reports the exit of the key's process. -/
def Call.Exits (key : UInt32) (c : Call) : Prop :=
  c.ev.action = .processExited ∧ c.ev.actor.key = key ∧ key ≠ 0

theorem Call.exited_mem_history {c : Call} {r : EntityRegistry} {key : UInt32} :
    .exited key ∈ c.history r ↔ c.Exits key := by
  unfold Call.history Call.Exits
  constructor
  · intro h
    rcases List.mem_append.mp h with h | h
    · by_cases hkey : c.ev.actor.key = 0
      · simp [hkey] at h
      · by_cases hexit : c.ev.action = .processExited
        · rw [if_neg hkey, if_pos hexit] at h
          obtain rfl : key = c.ev.actor.key := by simpa using h
          exact ⟨hexit, rfl, hkey⟩
        · simp [hkey, hexit] at h
    · by_cases hstart : c.StartsChild <;> simp [hstart] at h
  · rintro ⟨hexit, rfl, hkey⟩
    rw [if_neg hkey, if_pos hexit]
    simp

theorem exited_mem_historyFrom {calls : List Call} {r : EntityRegistry} {key : UInt32} :
    .exited key ∈ historyFrom r calls ↔ ∃ c ∈ calls, c.Exits key := by
  induction calls generalizing r with
  | nil => simp [historyFrom]
  | cons c calls ih => rw [historyFrom, List.mem_append, Call.exited_mem_history, ih]; simp

/-! ## Mentions in a history -/

/-- The event names the key, as its actor or as the child it reports. -/
def Call.Mentions (key : UInt32) (c : Call) : Prop :=
  key ≠ 0 ∧ (c.ev.actor.key = key ∨ c.StartsChild ∧ c.ev.object.childPid = key)

theorem Call.mention_mem_history {c : Call} {r : EntityRegistry} {key : UInt32} :
    (∃ id ts, .mention key id ts ∈ c.history r) ↔ c.Mentions key := by
  unfold Call.history Call.Mentions
  constructor
  · rintro ⟨id, ts, h⟩
    rcases List.mem_append.mp h with h | h
    · by_cases hkey : c.ev.actor.key = 0
      · simp [hkey] at h
      · have hactor : c.ev.actor.key = key := by
          by_cases hexit : c.ev.action = .processExited <;> simp_all
        exact ⟨hactor ▸ hkey, Or.inl hactor⟩
    · by_cases hstart : c.StartsChild
      · have hchild : c.ev.object.childPid = key := by simp_all
        exact ⟨hchild ▸ hstart.2, Or.inr ⟨hstart, hchild⟩⟩
      · simp [hstart] at h
  · rintro ⟨hne, rfl | ⟨hstart, rfl⟩⟩
    · rw [if_neg hne]
      exact ⟨_, _, List.mem_append_left _ List.mem_cons_self⟩
    · rw [if_pos hstart]
      exact ⟨_, _, List.mem_append_right _ List.mem_cons_self⟩

theorem mention_mem_historyFrom {calls : List Call} {r : EntityRegistry} {key : UInt32} :
    (∃ id ts, .mention key id ts ∈ historyFrom r calls) ↔ ∃ c ∈ calls, c.Mentions key := by
  induction calls generalizing r with
  | nil => simp [historyFrom]
  | cons c calls ih =>
    simp only [historyFrom, List.mem_append, exists_or, Call.mention_mem_history, ih, List.mem_cons,
      or_and_right, exists_eq_left]

end ETraceGen.EntityRegistry
