import ETraceGen.Lib.Handles
import ETraceGen.Collector.Honesty

/-!
# Life of the collector

`LibbpfCollector` holds the object, its links and the reader of the ring buffer from a `Start` to a `Stop`. Here is
every sequence of calls of it, with a log of what it asks of the library.

* `Session.start`, `Session.pollOnce`, `Session.readKernelBpfStats`, `Session.stop` : the calls;
* `Session.start_report` : the report of a start;
* `Session.Forwards.run` : every record that a poll takes reaches the callback;
* `run_disciplined` : the library gets no handle that it has not given or that it has been given back;
* `released_iff` : `Stop` gives everything back, unless a `Start` found the object open.
-/

namespace ETraceGen.Collector

open Handles

/-- What `bpf_object__open_file`, `bpf_program__attach` and `ring_buffer__new` give. -/
inductive Handle where
  | object (id : Nat)
  | link (id : Nat)
  | ring (id : Nat)
  deriving DecidableEq

def Handle.id : Handle → Nat
  | .object id | .link id | .ring id => id

structure LibbpfCollector where
  cb : Bool := false
  obj : Option Handle := none
  rb : Option Handle := none
  links : List Handle := []
  started : Bool := false
  startupReport : CollectorStartupReport := {}
  startupReportAvailable : Bool := false

/-- In the order in which `Stop` gives them back. -/
def LibbpfCollector.held (c : LibbpfCollector) : List Handle := c.rb.toList ++ c.links ++ c.obj.toList

/-- The collector, what it asked of the library, how many handles it was given, and the records that a poll took
and those that the callback got. -/
structure Session where
  collector : LibbpfCollector := {}
  log : List (Use Handle) := []
  given : Nat := 0
  polled : List Bytes := []
  forwarded : List Bytes := []

namespace Session

def edit (s : Session) (f : LibbpfCollector → LibbpfCollector) : Session := { s with collector := f s.collector }

/-- A call that needs the handle. -/
def useHandle (s : Session) (h : Option Handle) : Session := { s with log := s.log ++ (h.toList.map .use) }

/-- The library gives a handle that was not there before. -/
def giveHandle (s : Session) (h : Handle) : Session :=
  { s with log := s.log ++ [.acquire h], given := s.given + 1 }

def openFile (s : Session) : Session :=
  let h := Handle.object s.given
  (s.giveHandle h).edit fun c => { c with obj := some h }

def attach (s : Session) (prog : Program) : Session :=
  let s := s.useHandle s.collector.obj
  if prog.attaches then
    let h := Handle.link s.given
    (s.giveHandle h).edit fun c => { c with links := c.links ++ [h] }
  else s

def newRingBuffer (s : Session) : Session :=
  let h := Handle.ring s.given
  (s.giveHandle h).edit fun c => { c with rb := some h }

def stop (s : Session) : Session :=
  let s := { s with log := s.log ++ s.collector.held.map Use.release }
  s.edit fun c => { c with started := false, rb := none, links := [], obj := none, cb := false }

def dropObj (s : Session) : Session := s.edit fun c => { c with obj := none }

def dropRb (s : Session) : Session := s.edit fun c => { c with rb := none }

def setStarted (s : Session) : Session := s.edit fun c => { c with started := true }

/-- The object is loaded: its maps are found and updated, and its programs are attached. -/
def connect (host : Host) (s : Session) : Bool × Session :=
  let s := host.programs.foldl attach (s.useHandle s.collector.obj)
  if (host.programs.filter (·.attaches)).isEmpty then (false, s.stop)
  else if !host.found .events then (false, s.stop)
  else if !host.ringBuffer then (false, s.dropRb.stop)
  else (true, s.dropRb.newRingBuffer.setStarted)

def begin (host : Host) (callback : Bool) (s : Session) : Session :=
  s.edit fun c => { c with
    cb := callback
    startupReport := (Collector.start host callback).2.report
    startupReportAvailable := true }

/-- `Start`, which overwrites what the collector holds; its report is the one of `Collector.start`. -/
def start (host : Host) (callback : Bool) (s : Session) : Bool × Session :=
  let s := s.begin host callback
  if !callback then (false, s)
  else if !host.opens then (false, s.dropObj)
  else
    let s := s.dropObj.openFile
    -- the load
    let s := s.useHandle s.collector.obj
    if !host.loads then (false, s.stop) else s.connect host

/-- `OnRingBufferEvent` for each of the records that `ring_buffer__poll` takes. -/
def pollOnce (records : List Bytes) (s : Session) : Session :=
  if !s.collector.started || s.collector.rb.isNone then s
  else
    let s := s.useHandle s.collector.rb
    { s with
      polled := s.polled ++ records
      forwarded := s.forwarded ++ if s.collector.cb then records else [] }

/-- Only what it asks of the library. -/
def readKernelBpfStats (s : Session) : Session := s.useHandle s.collector.obj

def readStartupReport (s : Session) : Option CollectorStartupReport :=
  if s.collector.startupReportAvailable then some s.collector.startupReport else none

end Session

inductive Act where
  | start (host : Host) (callback : Bool)
  | pollOnce (records : List Bytes)
  | readKernelBpfStats
  | stop

def Session.step (s : Session) : Act → Session
  | .start host callback => (s.start host callback).2
  | .pollOnce records => s.pollOnce records
  | .readKernelBpfStats => s.readKernelBpfStats
  | .stop => s.stop

def Session.run (s : Session) (acts : List Act) : Session := acts.foldl step s

namespace Session
variable {s : Session} {host : Host} {callback : Bool} {P : List (Use Handle) → List Handle → Prop}

/-- The next handle is a new one. -/
def Fresh (s : Session) : Prop := ∀ h : Handle, s.given ≤ h.id → acquired h s.log = 0

/-- `P` holds of what the collector asked and holds, and the library gives new handles. -/
structure Has (P : List (Use Handle) → List Handle → Prop) (s : Session) : Prop where
  held : P s.log s.collector.held
  fresh : s.Fresh

/-! ## The calls, under the rules -/

theorem held_use (hrules : Rules P) {log : List (Use Handle)} {held : List Handle} {h : Option Handle} (hp : P log held)
    (hmem : h.toList ⊆ held) : P (log ++ h.toList.map .use) held := by
  cases h with
  | none => simpa using hp
  | some h => exact hrules.use hp (hmem List.mem_cons_self)

theorem fresh_append {log : List (Use Handle)} {uses : List (Use Handle)} {n : Nat}
    (hfresh : ∀ h : Handle, n ≤ h.id → acquired h log = 0) (huses : ∀ h, Use.acquire h ∉ uses) :
    ∀ h : Handle, n ≤ h.id → acquired h (log ++ uses) = 0 := by
  intro h hle
  rw [acquired, List.count_append, ← acquired, hfresh h hle, List.count_eq_zero_of_not_mem (huses h)]

theorem Has.use (hrules : Rules P) (hs : s.Has P) {h : Option Handle} (hmem : h.toList ⊆ s.collector.held) :
    (s.useHandle h).Has P := by
  refine ⟨held_use hrules hs.held hmem, fresh_append hs.fresh fun h' hmem' => ?_⟩
  obtain ⟨_, -, heq⟩ := List.mem_map.mp hmem'
  cases heq

theorem obj_sub : s.collector.obj.toList ⊆ s.collector.held := List.subset_append_right _ _

theorem rb_sub : s.collector.rb.toList ⊆ s.collector.held :=
  fun _ hmem => List.mem_append_left _ (List.mem_append_left _ hmem)

/-- A new handle, and the collector knows of it. -/
theorem Has.give (hrules : Rules P) (hs : s.Has P) {h : Handle} (hid : h.id = s.given)
    {f : LibbpfCollector → LibbpfCollector} (hperm : (h :: s.collector.held).Perm (f s.collector).held) :
    ((s.giveHandle h).edit f).Has P := by
  have hnew : acquired h s.log = 0 := hs.fresh h (Nat.le_of_eq hid.symm)
  refine ⟨hrules.perm (hrules.acquire hs.held hnew) hperm, ?_⟩
  intro h' hle
  have hgiven : s.given + 1 ≤ h'.id := hle
  have hne : Use.acquire h ≠ Use.acquire h' := fun heq => by
    have := Use.acquire.inj heq
    subst this
    omega
  show acquired h' (s.log ++ [.acquire h]) = 0
  rw [acquired_snoc, if_neg hne, hs.fresh h' (by omega)]

theorem Has.edit (hs : s.Has P) {f : LibbpfCollector → LibbpfCollector} (hf : (f s.collector).held = s.collector.held) :
    (s.edit f).Has P :=
  ⟨hf.symm ▸ hs.held, hs.fresh⟩

theorem Has.openFile (hrules : Rules P) (hs : s.Has P) (hnone : s.collector.obj = none) : s.openFile.Has P := by
  refine hs.give (h := .object s.given) (f := fun c => { c with obj := some (.object s.given) }) hrules rfl ?_
  show List.Perm (_ :: (_ ++ _)) (_ ++ [_])
  rw [hnone, Option.toList_none, List.append_nil]
  exact (List.perm_append_singleton _ _).symm

theorem Has.attach (hrules : Rules P) (hs : s.Has P) (prog : Program) : (s.attach prog).Has P := by
  have hused := hs.use hrules obj_sub
  unfold Session.attach
  by_cases hattaches : prog.attaches = true
  · rw [if_pos hattaches]
    refine hused.give hrules rfl ?_
    show List.Perm (_ :: (_ ++ _ ++ _)) (_ ++ (_ ++ [_]) ++ _)
    rw [← List.append_assoc, List.append_assoc _ [_]]
    exact List.perm_middle.symm
  · rw [if_neg hattaches]
    exact hused

theorem Has.attachAll (hrules : Rules P) (hs : s.Has P) (progs : List Program) :
    (progs.foldl Session.attach s).Has P := by
  induction progs generalizing s with
  | nil => exact hs
  | cons prog progs ih => exact ih (hs.attach hrules prog)

theorem Has.newRingBuffer (hrules : Rules P) (hs : s.Has P) (hnone : s.collector.rb = none) :
    s.newRingBuffer.Has P := by
  refine hs.give (h := .ring s.given) (f := fun c => { c with rb := some (.ring s.given) }) hrules rfl ?_
  show List.Perm (_ :: (_ ++ _ ++ _)) ([_] ++ _ ++ _)
  rw [hnone, Option.toList_none, List.nil_append]
  exact List.Perm.refl _

theorem Has.stop (hrules : Rules P) (hs : s.Has P) : s.stop.Has P := by
  refine ⟨?_, fresh_append hs.fresh fun h hmem => ?_⟩
  · have hall : P s.log (s.collector.held ++ []) := by
      rw [List.append_nil]
      exact hs.held
    show P (s.log ++ s.collector.held.map Use.release) []
    exact hrules.releaseAll hall
  · obtain ⟨_, -, heq⟩ := List.mem_map.mp hmem
    cases heq

/-- What the collector holds may have to be forgotten, unless it is nothing. -/
theorem Has.clear (hs : s.Has P) {f : LibbpfCollector → LibbpfCollector}
    (hsub : (f s.collector).held.Sublist s.collector.held)
    (hclear : Forgets P ∨ (f s.collector).held = s.collector.held) : (s.edit f).Has P := by
  rcases hclear with hforgets | heq
  · exact ⟨hforgets hs.held hsub, hs.fresh⟩
  · exact hs.edit heq

theorem Has.dropObj (hs : s.Has P) (hclear : Forgets P ∨ s.collector.obj = none) : s.dropObj.Has P := by
  refine hs.clear ?_ (hclear.imp_right fun hnone => ?_)
  · show List.Sublist (_ ++ []) (_ ++ _)
    exact List.Sublist.append (List.Sublist.refl _) (List.nil_sublist _)
  · show _ ++ [] = _ ++ _
    rw [hnone, Option.toList_none]

theorem Has.dropRb (hs : s.Has P) (hclear : Forgets P ∨ s.collector.rb = none) : s.dropRb.Has P := by
  refine hs.clear ?_ (hclear.imp_right fun hnone => ?_)
  · show List.Sublist (([] ++ _) ++ _) ((_ ++ _) ++ _)
    exact List.Sublist.append (List.Sublist.append (List.nil_sublist _) (List.Sublist.refl _)) (List.Sublist.refl _)
  · show ([] ++ _) ++ _ = (_ ++ _) ++ _
    rw [hnone, Option.toList_none]

/-- Attaching adds a link for each program that is attached, and changes nothing else of the collector. -/
theorem attachAll_collector (progs : List Program) : ∃ links : List Handle,
    links.length = (progs.filter (·.attaches)).length ∧
      (progs.foldl attach s).collector = { s.collector with links := s.collector.links ++ links } := by
  induction progs generalizing s with
  | nil => exact ⟨[], rfl, by rw [List.append_nil]; rfl⟩
  | cons prog progs ih =>
    obtain ⟨links, hlength, hcollector⟩ := ih (s := s.attach prog)
    rw [List.foldl_cons, hcollector, List.filter_cons]
    unfold attach
    split
    · refine ⟨.link s.given :: links, congrArg (· + 1) hlength, ?_⟩
      simp [edit, giveHandle, useHandle]
    · exact ⟨links, hlength, rfl⟩

theorem attachAll_rb (progs : List Program) : (progs.foldl attach s).collector.rb = s.collector.rb := by
  obtain ⟨links, -, hcollector⟩ := attachAll_collector (s := s) progs
  rw [hcollector]

theorem Has.connect (hrules : Rules P) (hs : s.Has P) (hclear : Forgets P ∨ s.collector.rb = none) :
    (s.connect host).2.Has P := by
  have hattached := (hs.use hrules obj_sub).attachAll hrules host.programs
  have hdropped := hattached.dropRb (hclear.imp_right (attachAll_rb host.programs).trans)
  unfold Session.connect
  dsimp only
  split_ifs
  · exact hattached.stop hrules
  · exact hattached.stop hrules
  · exact hdropped.stop hrules
  · have hread := hdropped.newRingBuffer hrules rfl
    exact ⟨hread.held, hread.fresh⟩

/-- **A start**, where the rules let it forget what it overwrites, or where there is nothing. -/
theorem Has.start (hrules : Rules P) (hs : s.Has P)
    (hclear : callback = true → Forgets P ∨ s.collector.obj = none ∧ s.collector.rb = none) :
    (s.start host callback).2.Has P := by
  have hbegun : (s.begin host callback).Has P := ⟨hs.held, hs.fresh⟩
  unfold Session.start
  dsimp only
  split_ifs with hcallback hopens hloads
  · exact hbegun
  all_goals
    rw [Bool.not_eq_true, Bool.not_eq_false'] at hcallback
    have hforget := hclear hcallback
    have hdropped := hbegun.dropObj (hforget.imp_right And.left)
  · exact hdropped
  · exact ((hdropped.openFile hrules rfl).use hrules obj_sub).stop hrules
  · exact ((hdropped.openFile hrules rfl).use hrules obj_sub).connect hrules (hforget.imp_right And.right)

theorem Has.pollOnce (hrules : Rules P) (hs : s.Has P) (records : List Bytes) : (s.pollOnce records).Has P := by
  unfold Session.pollOnce
  split
  · exact hs
  · have hused := hs.use hrules rb_sub
    exact ⟨hused.held, hused.fresh⟩

theorem Has.step (hrules : Rules P) (hs : s.Has P) (act : Act)
    (hclear : ∀ host, act = .start host true → Forgets P ∨ s.collector.obj = none ∧ s.collector.rb = none) :
    (s.step act).Has P := by
  cases act with
  | start host callback =>
    refine hs.start hrules fun hcallback => hclear host ?_
    rw [hcallback]
  | pollOnce records => exact hs.pollOnce hrules records
  | readKernelBpfStats => exact hs.use hrules obj_sub
  | stop => exact hs.stop hrules

theorem Has.run (hrules : Rules P) (hforgets : Forgets P) (hs : s.Has P) (acts : List Act) : (s.run acts).Has P := by
  induction acts generalizing s with
  | nil => exact hs
  | cons act acts ih => exact ih (hs.step hrules act fun _ _ => Or.inl hforgets)

theorem has_init (hp : P [] []) : ({} : Session).Has P := ⟨hp, fun _ _ => rfl⟩

/-! ## Between the calls -/

/-- It holds nothing. -/
structure Idle (c : LibbpfCollector) : Prop where
  obj : c.obj = none
  rb : c.rb = none
  links : c.links = []
  started : c.started = false

/-- It holds all that a poll and a report need. -/
structure Running (c : LibbpfCollector) : Prop where
  obj : c.obj.isSome = true
  rb : c.rb.isSome = true
  links : c.links ≠ []
  started : c.started = true

theorem idle_stop (s : Session) : Idle s.stop.collector := ⟨rfl, rfl, rfl, rfl⟩

theorem connect_ends (hobj : s.collector.obj.isSome = true) :
    (s.connect host).1 = true ∧ Running (s.connect host).2.collector ∨
      (s.connect host).1 = false ∧ Idle (s.connect host).2.collector := by
  unfold connect
  dsimp only
  split_ifs with hattached
  · exact Or.inr ⟨rfl, idle_stop _⟩
  · exact Or.inr ⟨rfl, idle_stop _⟩
  · exact Or.inr ⟨rfl, idle_stop _⟩
  · obtain ⟨links, hlength, hcollector⟩ := attachAll_collector (s := s.useHandle s.collector.obj) host.programs
    have hpos := List.length_pos_iff.mpr (mt List.isEmpty_iff.mpr hattached)
    refine Or.inl ⟨rfl, ?_, rfl, ?_, rfl⟩
    · show (host.programs.foldl attach _).collector.obj.isSome = true
      rw [hcollector]
      exact hobj
    · show (host.programs.foldl attach _).collector.links ≠ []
      rw [hcollector]
      exact List.append_ne_nil_of_right_ne_nil _ (List.ne_nil_of_length_pos (hlength ▸ hpos))

/-- A start of an idle collector runs it or leaves it idle. -/
theorem start_ends (hidle : Idle s.collector) :
    (s.start host callback).1 = true ∧ Running (s.start host callback).2.collector ∨
      (s.start host callback).1 = false ∧ Idle (s.start host callback).2.collector := by
  unfold start
  dsimp only
  split_ifs
  · exact Or.inr ⟨rfl, hidle.obj, hidle.rb, hidle.links, hidle.started⟩
  · exact Or.inr ⟨rfl, rfl, hidle.rb, hidle.links, hidle.started⟩
  · exact Or.inr ⟨rfl, idle_stop _⟩
  · exact connect_ends rfl

theorem start_fst : (s.start host callback).1 = (Collector.start host callback).1 := by
  unfold start connect Collector.start
  dsimp only
  rw [configure_links, configure_events]
  split_ifs <;> rfl

theorem start_report :
    (s.start host callback).2.collector.startupReport = (Collector.start host callback).2.report := by
  unfold start connect
  dsimp only
  split_ifs
  · rfl
  · rfl
  · rfl
  all_goals
    show (host.programs.foldl attach _).collector.startupReport = _
    obtain ⟨links, -, hcollector⟩ := attachAll_collector
      (s := ((s.begin host callback).dropObj.openFile.useHandle (some (.object s.given))).useHandle
        (some (.object s.given))) host.programs
    exact congrArg LibbpfCollector.startupReport hcollector

/-! ## Every sequence of calls -/

/-- No start that gets a callback finds the object open. -/
def NoRestart (s : Session) (acts : List Act) : Prop :=
  ∀ before host after, acts = before ++ .start host true :: after → (s.run before).collector.obj = none

theorem noRestart_cons {act : Act} {acts : List Act} :
    s.NoRestart (act :: acts) ↔
      (∀ host, act = .start host true → s.collector.obj = none) ∧ (s.step act).NoRestart acts := by
  constructor
  · intro h
    refine ⟨fun host heq => h [] host acts (by rw [heq]; rfl), fun before host after heq => ?_⟩
    exact h (act :: before) host after (by rw [heq]; rfl)
  · rintro ⟨hfirst, hrest⟩ before host after heq
    cases before with
    | nil => exact hfirst host (List.cons.inj heq).1
    | cons first before =>
      obtain ⟨rfl, htail⟩ := List.cons.inj heq
      exact hrest before host after htail

/-- Without a restart the collector is idle or it runs, and it knows of every handle. -/
structure Sound (s : Session) : Prop where
  state : Idle s.collector ∨ Running s.collector
  known : s.Has Tight

theorem Sound.step (hs : s.Sound) (act : Act) (hclear : ∀ host, act = .start host true → s.collector.obj = none) :
    (s.step act).Sound := by
  have hidle : s.collector.obj = none → Idle s.collector := fun hnone =>
    hs.state.resolve_right fun hrunning => by
      have hsome := hrunning.obj
      rw [hnone] at hsome
      cases hsome
  refine ⟨?_, hs.known.step tight_rules act fun host heq => Or.inr ?_⟩
  · cases act with
    | start host callback =>
      cases callback with
      | false =>
        exact hs.state.imp (fun h => ⟨h.obj, h.rb, h.links, h.started⟩) fun h => ⟨h.obj, h.rb, h.links, h.started⟩
      | true =>
        exact (start_ends (hidle (hclear host rfl))).elim (fun h => Or.inr h.2) fun h => Or.inl h.2
    | pollOnce records =>
      show Idle (s.pollOnce records).collector ∨ Running (s.pollOnce records).collector
      unfold pollOnce
      split <;> exact hs.state
    | readKernelBpfStats => exact hs.state
    | stop => exact Or.inl (idle_stop s)
  · have hnone := hclear host heq
    exact ⟨hnone, (hidle hnone).rb⟩

theorem Sound.run (hs : s.Sound) {acts : List Act} (hacts : s.NoRestart acts) : (s.run acts).Sound := by
  induction acts generalizing s with
  | nil => exact hs
  | cons act acts ih =>
    obtain ⟨hfirst, hrest⟩ := noRestart_cons.mp hacts
    exact ih (hs.step act hfirst) hrest

/-- The object that a start finds open is lost. -/
theorem Has.lost (hs : s.Has Holds) {h : Handle} (hobj : s.collector.obj = some h) : s.dropObj.Has (Lost h) := by
  have hheld : s.collector.held = s.collector.rb.toList ++ s.collector.links ++ [h] := by
    rw [LibbpfCollector.held, hobj, Option.toList_some]
  have hnodup := hs.held.nodup
  rw [hheld, List.nodup_append] at hnodup
  have hdropped := hs.dropObj (Or.inl holds_forgets)
  refine ⟨⟨hdropped.held, hs.held.live h ?_, fun hmem => ?_⟩, hdropped.fresh⟩
  · rw [hheld]
    exact List.mem_append_right _ List.mem_cons_self
  · have hmem : h ∈ s.collector.rb.toList ++ s.collector.links ++ [] := hmem
    rw [List.append_nil] at hmem
    exact hnodup.2.2 h hmem h List.mem_cons_self rfl

theorem start_dropObj : s.start host true = s.dropObj.start host true := rfl

variable (host) in
theorem Has.restart (hs : s.Has Holds) {h : Handle} (hobj : s.collector.obj = some h) :
    (s.start host true).2.Has (Lost h) := by
  rw [start_dropObj]
  exact (hs.lost hobj).start (lost_rules h) fun _ => Or.inl (lost_forgets h)

theorem sound_init : ({} : Session).Sound := ⟨Or.inl ⟨rfl, rfl, rfl, rfl⟩, has_init tight_nil⟩

/-! ## The records of the polls -/

/-- The callback gets what a poll takes. -/
structure Forwards (s : Session) : Prop where
  cb : s.collector.started = true → s.collector.cb = true
  all : s.forwarded = s.polled

theorem attachAll_records (progs : List Program) :
    (progs.foldl attach s).polled = s.polled ∧ (progs.foldl attach s).forwarded = s.forwarded := by
  induction progs generalizing s with
  | nil => exact ⟨rfl, rfl⟩
  | cons prog progs ih =>
    rw [List.foldl_cons, ih.1, ih.2]
    unfold attach
    split <;> exact ⟨rfl, rfl⟩

theorem Forwards.connect (hs : s.Forwards) (hcb : s.collector.cb = true) : (s.connect host).2.Forwards := by
  have hrecords := attachAll_records (s := s.useHandle s.collector.obj) host.programs
  have hall := hrecords.2.trans (hs.all.trans hrecords.1.symm)
  unfold Session.connect
  dsimp only
  split_ifs
  · exact ⟨nofun, hall⟩
  · exact ⟨nofun, hall⟩
  · exact ⟨nofun, hall⟩
  · refine ⟨fun _ => ?_, hall⟩
    show (host.programs.foldl attach _).collector.cb = true
    obtain ⟨links, -, hcollector⟩ := attachAll_collector (s := s.useHandle s.collector.obj) host.programs
    rw [hcollector]
    exact hcb

theorem Forwards.start (hs : s.Forwards) (hclear : callback = false → s.collector.started = false) :
    (s.start host callback).2.Forwards := by
  unfold Session.start
  dsimp only
  split_ifs with hcallback
  · rw [Bool.not_eq_true'] at hcallback
    exact ⟨fun hstarted => absurd ((hclear hcallback).symm.trans hstarted) Bool.false_ne_true, hs.all⟩
  all_goals rw [Bool.not_eq_true, Bool.not_eq_false'] at hcallback
  · exact ⟨fun _ => hcallback, hs.all⟩
  · exact ⟨nofun, hs.all⟩
  · exact Forwards.connect ⟨fun _ => hcallback, hs.all⟩ hcallback

theorem Forwards.step (hs : s.Forwards) (act : Act)
    (hclear : ∀ host, act = .start host false → s.collector.started = false) : (s.step act).Forwards := by
  cases act with
  | start host callback => exact hs.start fun hcallback => hclear host (by rw [hcallback])
  | pollOnce records =>
    show (s.pollOnce records).Forwards
    unfold Session.pollOnce
    split_ifs with hoff
    · exact hs
    · rw [Bool.or_eq_true, not_or, Bool.not_eq_true, Bool.not_eq_false'] at hoff
      refine ⟨hs.cb, ?_⟩
      show s.forwarded ++ (if s.collector.cb = true then records else []) = s.polled ++ records
      rw [if_pos (hs.cb hoff.1), hs.all]
  | readKernelBpfStats => exact ⟨hs.cb, hs.all⟩
  | stop => exact ⟨nofun, hs.all⟩

/-- Unless a start without a callback is made while it polls, every record that a poll takes reaches the callback. -/
theorem Forwards.run (hs : s.Forwards) {acts : List Act}
    (hacts : ∀ before host after, acts = before ++ .start host false :: after →
      (s.run before).collector.started = false) : (s.run acts).Forwards := by
  induction acts generalizing s with
  | nil => exact hs
  | cons act acts ih =>
    refine ih (hs.step act fun host heq => hacts [] host acts (by rw [heq]; rfl)) fun before host after heq => ?_
    exact hacts (act :: before) host after (by rw [heq]; rfl)

end Session

/-- **Whatever is called, and in whatever order**, the library is only asked for handles that it has given and that
it has not been given back, and no handle is given back twice. -/
theorem run_disciplined (acts : List Act) : Disciplined (({} : Session).run acts).log :=
  (Session.Has.run holds_rules holds_forgets (Session.has_init holds_nil) acts).held.disciplined

/-- **After a `Stop`** every handle has been given back, exactly if no `Start` found the object open. -/
theorem released_iff (acts : List Act) :
    (∀ h, ¬Live (({} : Session).run (acts ++ [.stop])).log h) ↔ ({} : Session).NoRestart acts := by
  rw [Session.run, List.foldl_append]
  constructor
  · intro hnone before host after heq
    by_contra hobj
    obtain ⟨h, hheld⟩ := Option.ne_none_iff_exists'.mp hobj
    have hbefore := Session.Has.run holds_rules holds_forgets (Session.has_init holds_nil) before
    have hlost := (hbefore.restart host hheld).run (lost_rules h) (lost_forgets h) after
    refine hnone h ?_
    rw [heq, List.foldl_append]
    exact (hlost.stop (lost_rules h)).held.stays
  · intro hacts h hlive
    have hstopped := (Session.sound_init.run hacts).known.stop tight_rules
    exact List.not_mem_nil (hstopped.held.all h hlive)

end ETraceGen.Collector
