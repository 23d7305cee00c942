import Mathlib.Data.List.Forall2
import ETraceGen.Lib.Torn
import ETraceGen.System.Crash
import ETraceGen.System.Main

/-!
# Start after start

The program is started again and again, each time with a configuration and a host of its own, and each time it is
stopped by a signal or killed. It appends to the file that it finds, and knows nothing of how the last one ended.

* `Launch` : one start, and what follows it;
* `after` : the files behind a number of them;
* `restarts_read` : what is read of a file then.
-/

namespace ETraceGen

open Bpf Collector

namespace JsonSink

/-- Whether or not the file can be opened, nothing is written yet. -/
theorem onDisk_create (env : SinkEnv) (file : Option Bytes) (limit : UInt64) :
    (create env file limit).onDisk = file.getD [] ∧ (create env file limit).content = file.getD [] := by
  unfold create openFileAppend openApp onDisk content
  dsimp only
  cases file <;> dsimp only <;> split_ifs <;> exact ⟨rfl, List.append_nil _⟩

theorem bad_create (env : SinkEnv) (file : Option Bytes) (limit : UInt64) :
    (create env file limit).fileOut.bad = false := by
  unfold create openFileAppend openApp
  dsimp only
  cases file <;> dsimp only <;> split_ifs <;> rfl

end JsonSink

namespace World

/-- While the program runs: what has come of these turns, if it has got to its loop. -/
def running (w : World) (now : Nat) (turns : List Turn) : System :=
  if !w.buildSink.ready then System.start w.buildSink
  else
    let (started, session) := Session.start w.host true {}
    if !started then System.start w.buildSink else (w.loop (w.enter session now) turns).system

/-- What happens in them. -/
def moves (w : World) (turns : List Turn) : List System.Move :=
  if w.buildSink.ready && (Session.start w.host true {}).1 then turns.flatMap Turn.moves else []

section
variable (w : World) (now : Nat) (turns : List Turn)

theorem running_eq : w.running now turns = System.run w.maps w.host.pid w.buildSink (w.moves turns) := by
  unfold running moves
  dsimp only
  by_cases hready : w.buildSink.ready = true
  · by_cases hstarted : (Session.start w.host true {}).1 = true
    · rw [hready, hstarted]
      exact loop_system w _ turns
    · rw [hready, Bool.eq_false_iff.mpr hstarted]
      rfl
  · rw [Bool.eq_false_iff.mpr hready]
    rfl

theorem main_running (answers : BpfStatKey → Option UInt64) (closed : UInt64) :
    (w.main now turns answers closed).system = destroySink closed (w.running now turns) := by
  unfold main running
  dsimp only
  split_ifs <;> rfl

end

end World

/-- One start of the program, with all that it finds but the files. It is closed at that time, or killed. -/
structure Launch where
  host : Collector.Host
  sinkEnv : SinkEnv
  now : Nat
  turns : List Turn
  answers : BpfStatKey → Option UInt64
  closed : Option UInt64

namespace Launch

/-- The file that it writes to, and how long that may get. -/
def path (l : Launch) : Bytes := (Config.loadSinkRuntimeConfig l.host.config).path
def limit (l : Launch) : UInt64 := (Config.loadSinkRuntimeConfig l.host.config).maxFileSizeBytes

def world (l : Launch) (files : Bytes → Option Bytes) : World := ⟨l.host, files, l.sinkEnv⟩

/-- The sink at the end. -/
def sink (l : Launch) (files : Bytes → Option Bytes) : JsonSink :=
  match l.closed with
  | some closed => ((l.world files).main l.now l.turns l.answers closed).system.consumer.sink
  | none => ((l.world files).running l.now l.turns).consumer.sink

/-- What it leaves. -/
def leave (l : Launch) (files : Bytes → Option Bytes) : Bytes → Option Bytes :=
  Function.update files l.path (l.sink files).file

/-- The events that are written. -/
def events (l : Launch) (files : Bytes → Option Bytes) : List (CanonicalEvent × EventVariant) :=
  System.events (l.world files).maps l.host.pid (l.world files).buildSink ((l.world files).moves l.turns)

/-- The records that the daemon is told, without those about itself. -/
def taken (l : Launch) (files : Bytes → Option Bytes) : List EventVariant :=
  ((System.told (l.world files).maps l.host.pid (l.world files).buildSink ((l.world files).moves l.turns)).map
    Prod.snd).filter fun record => !isSelfEvent record l.host.pid

/-- If it gets its file open, every write to it succeeds. -/
def Works (l : Launch) (files : Bytes → Option Bytes) : Prop :=
  (l.world files).buildSink.ready = true →
    System.SinkWorks (l.world files).maps l.host.pid (l.world files).buildSink ((l.world files).moves l.turns)

/-- What is to be read of it: an object for each record, but for the last ones if it was killed, and for the first if
it found the file torn. -/
def Lasts (l : Launch) (files : Bytes → Option Bytes) (objects : List (Option Json)) : Prop :=
  ∃ lost first,
    List.Forall₂ System.MadeOf (((l.taken files).take ((l.taken files).length - lost)).drop first) objects ∧
      lost < 256 ∧ first ≤ 1 ∧ (l.closed.isSome = true → lost = 0) ∧
      ((files l.path).getD [] = [] ∨ ((files l.path).getD []).getLast? = some 0x0A → first = 0)

end Launch

/-- The launches, each with the files that it finds. -/
def found (files : Bytes → Option Bytes) : List Launch → List ((Bytes → Option Bytes) × Launch)
  | [] => []
  | l :: launches => (files, l) :: found (l.leave files) launches

def after (files : Bytes → Option Bytes) (launches : List Launch) : Bytes → Option Bytes :=
  launches.foldl (fun files l => l.leave files) files

section
variable {files : Bytes → Option Bytes} {l : Launch} {launches : List Launch}

theorem found_snoc : found files (launches ++ [l]) = found files launches ++ [(after files launches, l)] := by
  induction launches generalizing files with
  | nil => rfl
  | cons first launches ih =>
    show (files, first) :: found _ (launches ++ [l]) = _
    rw [ih]
    rfl

theorem after_snoc : after files (launches ++ [l]) = l.leave (after files launches) := List.foldl_concat ..

/-! ## One launch -/

namespace Launch

theorem onDisk_sink : (l.sink files).onDisk =
    if l.closed.isSome then
      (System.run (l.world files).maps l.host.pid (l.world files).buildSink
        ((l.world files).moves l.turns)).consumer.sink.content
    else
      (System.run (l.world files).maps l.host.pid (l.world files).buildSink
        ((l.world files).moves l.turns)).consumer.sink.onDisk := by
  unfold sink
  cases l.closed with
  | none =>
    dsimp only
    rw [World.running_eq]
    rfl
  | some closed =>
    dsimp only
    rw [World.main_running, World.running_eq]
    exact JsonSink.onDisk_destroy closed _

/-- Some of the lines, and what is left of the next, behind what was there before; or of those since the file was
started anew. -/
theorem onDisk_cut (hworks : l.Works files) :
    ∃ (base : Bytes) (es : List (CanonicalEvent × EventVariant)) (lost : Nat) (part : Bytes),
      (l.sink files).onDisk = base ++
        (((es.take (es.length - lost)).map fun e => JsonSink.object e.1 e.2 ++ [0x0A]).flatten ++ part) ∧
      0x0A ∉ part ∧ lost < 256 ∧ (l.closed.isSome = true → lost = 0 ∧ part = []) ∧
      (base = (files l.path).getD [] ∧ es = l.events files ∨ l.limit ≠ 0 ∧ base = [] ∧ es <:+ l.events files) := by
  rw [onDisk_sink]
  by_cases hready : (l.world files).buildSink.ready = true
  · obtain ⟨hheld, hcontent⟩ := System.held_events (hworks hready)
    have hcases := Rollover.run_cases l.limit.toNat ((files l.path).getD [])
      ((l.events files).map fun e => JsonSink.object e.1 e.2 ++ [0x0A])
    have hlog : ∃ (base : Bytes) (es : List (CanonicalEvent × EventVariant)),
        (Rollover.run l.limit.toNat ((files l.path).getD [])
          ((l.events files).map fun e => JsonSink.object e.1 e.2 ++ [0x0A])).base.getD [] = base ∧
        (Rollover.run l.limit.toNat ((files l.path).getD [])
          ((l.events files).map fun e => JsonSink.object e.1 e.2 ++ [0x0A])).kept =
            (es.map fun e => JsonSink.object e.1 e.2 ++ [0x0A]) ∧
        (base = (files l.path).getD [] ∧ es = l.events files ∨ l.limit ≠ 0 ∧ base = [] ∧ es <:+ l.events files) := by
      rcases hcases with ⟨hkeep, hkept⟩ | ⟨hnew, -, hsuffix⟩
      · exact ⟨_, _, by rw [hkeep]; rfl, hkept, Or.inl ⟨rfl, rfl⟩⟩
      · obtain ⟨es, hes, hkept⟩ := List.suffix_map_iff.mp hsuffix
        refine ⟨[], es, by rw [hnew]; rfl, hkept, Or.inr ⟨fun hzero => ?_, rfl, hes⟩⟩
        rw [Rollover.run_of_unlimited (by rw [hzero]; rfl)] at hnew
        cases hnew
    obtain ⟨base, es, hbase, hkept, hwhich⟩ := hlog
    by_cases hclosed : l.closed.isSome = true
    · refine ⟨base, es, 0, [], ?_, List.not_mem_nil, by omega, fun _ => ⟨rfl, rfl⟩, hwhich⟩
      rw [if_pos hclosed, Nat.sub_zero, List.take_length, List.append_nil, ← hbase, ← hkept]
      exact hcontent
    · obtain ⟨lost, part, -, -, -, hfew, -, hpart, hdisk⟩ := System.onDisk_held hheld hcontent hkept
      refine ⟨base, es, lost, part, ?_, hpart, hfew, fun h => absurd h hclosed, hwhich⟩
      rw [if_neg hclosed, ← hbase]
      exact hdisk
  · have hmoves : (l.world files).moves l.turns = [] := by
      unfold World.moves
      rw [Bool.eq_false_iff.mpr hready]
      rfl
    have hnone : l.events files = [] := by
      unfold events
      rw [hmoves]
      rfl
    obtain ⟨hdisk, hcontent⟩ := JsonSink.onDisk_create l.sinkEnv (files l.path) l.limit
    refine ⟨(files l.path).getD [], [], 0, [], ?_, List.not_mem_nil, by omega, fun _ => ⟨rfl, rfl⟩,
      Or.inl ⟨rfl, hnone.symm⟩⟩
    rw [hmoves, List.take_nil, List.map_nil, List.flatten_nil, List.append_nil, List.append_nil]
    split_ifs
    · exact hcontent
    · exact hdisk

theorem forall₂_taken : List.Forall₂ System.MadeOf (l.taken files)
    ((l.events files).map fun e => some (JsonSink.eventJson e.1 e.2)) :=
  System.objects_madeOf _ _

theorem lasts_events {lost first : Nat} (hlost : lost < 256) (hfirst : first ≤ 1)
    (hclosed : l.closed.isSome = true → lost = 0)
    (hwhole : (files l.path).getD [] = [] ∨ ((files l.path).getD []).getLast? = some 0x0A → first = 0) :
    l.Lasts files (((((l.events files).take ((l.events files).length - lost)).map fun e =>
      JsonSink.object e.1 e.2).drop first).map Json.parse) := by
  have hmade := @forall₂_taken files l
  have hlength := hmade.length_eq
  rw [List.length_map] at hlength
  have hparse : ((l.events files).map fun e => JsonSink.object e.1 e.2).map Json.parse =
      (l.events files).map fun e => some (JsonSink.eventJson e.1 e.2) := by
    rw [List.map_map]
    exact List.map_congr_left fun e _ => JsonSink.parse_object e.1 e.2
  refine ⟨lost, first, ?_, hlost, hfirst, hclosed, hwhole⟩
  rw [List.map_drop, List.map_take, List.map_take, hparse, hlength]
  exact List.forall₂_drop _ (List.forall₂_take _ hmade)

/-- **One launch more.** -/
theorem survives_leave {kept : List Bytes} {torn : Nat} (hworks : l.Works files)
    (h : Sections.Survives 0x0A kept torn ((files l.path).getD [])) :
    ∃ lines kept' : List Bytes, l.Lasts files (lines.map Json.parse) ∧ kept' <:+ kept ++ lines ∧
      (l.limit = 0 → kept' = kept ++ lines) ∧
      Sections.Survives 0x0A kept' (torn + if l.closed.isSome then 0 else 1) ((l.leave files l.path).getD []) := by
  obtain ⟨base, es, lost, part, hdisk, hpart, hlost, hclosed, hwhich⟩ := onDisk_cut hworks
  have hleft : (l.leave files l.path).getD [] = base ++
      ((((es.take (es.length - lost)).map fun e => JsonSink.object e.1 e.2).map (· ++ [0x0A])).flatten ++ part) := by
    rw [leave, Function.update_self, List.map_map]
    exact hdisk
  have hlines : ∀ piece ∈ (es.take (es.length - lost)).map fun e => JsonSink.object e.1 e.2, 0x0A ∉ piece := by
    intro piece hmem
    obtain ⟨e, -, rfl⟩ := List.mem_map.mp hmem
    exact JsonSink.newline_not_mem_object e.1 e.2
  have hcut : (if part = [] then 0 else 1) ≤ if l.closed.isSome then 0 else 1 := by
    by_cases hstop : l.closed.isSome = true
    · rw [(hclosed hstop).2, if_pos rfl]
      exact Nat.zero_le _
    · rw [if_neg hstop]
      split_ifs <;> omega
  rw [hleft]
  rcases hwhich with ⟨rfl, rfl⟩ | ⟨hlimit, rfl, hes⟩
  · obtain ⟨first, hfirst, hwhole, hsurvives⟩ := h.append hlines hpart
    exact ⟨_, _, lasts_events hlost hfirst (fun hstop => (hclosed hstop).1) hwhole, List.suffix_refl _, fun _ => rfl,
      hsurvives.mono (Nat.add_le_add_left hcut _)⟩
  · have hempty : Sections.Survives 0x0A [] 0 ([] : Bytes) := Sections.survives_pieces (Or.inl rfl)
    obtain ⟨first, -, hwhole, hsurvives⟩ := hempty.append hlines hpart
    obtain rfl := hwhole (Or.inl rfl)
    refine ⟨_, _, lasts_events hlost (Nat.zero_le 1) (fun hstop => (hclosed hstop).1) fun _ => rfl, ?_,
      fun hnone => absurd hnone hlimit, hsurvives.mono ?_⟩
    · rw [List.nil_append, List.drop_zero, List.drop_zero]
      exact ((Sections.take_suffix hes lost).map _).trans (List.suffix_append _ _)
    · omega

end Launch

/-! ## Many -/

/-- The lines of a file behind these launches that read as they were written, and what they are read of. -/
structure Remains (files : Bytes → Option Bytes) (path : Bytes) (launches : List Launch)
    (lasting : List (List (Option Json))) (kept : List Bytes) : Prop where
  lasts : List.Forall₂ (fun p objects => p.2.Lasts p.1 objects)
    ((found files launches).filter fun p => p.2.path = path) lasting
  last : kept.map Json.parse <:+ JsonSink.readLines ((files path).getD []) ++ lasting.flatten
  all : (∀ l ∈ launches, l.path = path → l.limit = 0) →
    kept.map Json.parse = JsonSink.readLines ((files path).getD []) ++ lasting.flatten
  survives : Sections.Survives 0x0A kept (launches.countP fun l => l.path = path ∧ l.closed = none)
    ((after files launches path).getD [])

section
variable {path : Bytes} {lasting : List (List (Option Json))} {kept : List Bytes}

theorem remains_nil (hbase : (files path).getD [] = [] ∨ ((files path).getD []).getLast? = some 0x0A) :
    Remains files path [] [] (Sections.pieces 0x0A ((files path).getD [])) := by
  have hread : (Sections.pieces 0x0A ((files path).getD [])).map Json.parse =
      JsonSink.readLines ((files path).getD []) ++ ([] : List (List (Option Json))).flatten := by
    rw [List.flatten_nil, List.append_nil]
    rfl
  exact ⟨List.Forall₂.nil, by rw [hread], fun _ => hread, Sections.survives_pieces hbase⟩

/-- A launch that writes to the file. -/
theorem Remains.write (h : Remains files l.path launches lasting kept) (hworks : l.Works (after files launches)) :
    ∃ objects kept', Remains files l.path (launches ++ [l]) (lasting ++ [objects]) kept' := by
  obtain ⟨lines, kept', hlasting, hkept, hsame, hmore⟩ := Launch.survives_leave hworks h.survives
  refine ⟨lines.map Json.parse, kept', ?_, ?_, ?_, ?_⟩
  · rw [found_snoc, List.filter_append]
    refine List.rel_append h.lasts ?_
    simpa using hlasting
  · have hmap := hkept.map Json.parse
    rw [List.map_append] at hmap
    obtain ⟨before, hbefore⟩ := h.last
    rw [List.flatten_append, List.flatten_singleton, ← List.append_assoc, ← hbefore, List.append_assoc]
    exact hmap.trans (List.suffix_append _ _)
  · intro hzero
    have hearlier := h.all fun l' hl' => hzero l' (List.mem_append_left _ hl')
    rw [hsame (hzero l List.mem_concat_self rfl), List.map_append, hearlier, List.flatten_append,
      List.flatten_singleton, List.append_assoc]
  · have hcount : (if l.closed.isSome = true then 0 else 1) =
        [l].countP fun l' => l'.path = l.path ∧ l'.closed = none := by
      cases hclosed : l.closed with
      | none => simp [hclosed]
      | some closed => simp [hclosed]
    rw [after_snoc, List.countP_append, ← hcount]
    exact hmore

/-- A launch that writes to another one. -/
theorem Remains.pass (h : Remains files path launches lasting kept) (hpath : l.path ≠ path) :
    Remains files path (launches ++ [l]) lasting kept := by
  refine ⟨?_, h.last, fun hzero => h.all fun l' hl' => hzero l' (List.mem_append_left _ hl'), ?_⟩
  · rw [found_snoc, List.filter_append]
    simpa [hpath] using h.lasts
  · have hother : l.leave (after files launches) path = after files launches path :=
      Function.update_of_ne (Ne.symm hpath) _ _
    have hcount : ([l].countP fun l' => l'.path = path ∧ l'.closed = none) = 0 := by simp [hpath]
    rw [after_snoc, hother, List.countP_append, hcount]
    exact h.survives

theorem exists_remains (hworks : ∀ p ∈ found files launches, p.2.Works p.1)
    (hbase : (files path).getD [] = [] ∨ ((files path).getD []).getLast? = some 0x0A) :
    ∃ lasting kept, Remains files path launches lasting kept := by
  induction launches using List.reverseRecOn with
  | nil => exact ⟨_, _, remains_nil hbase⟩
  | append_singleton launches l ih =>
    rw [found_snoc] at hworks
    obtain ⟨lasting, kept, h⟩ := ih fun p hp => hworks p (List.mem_append_left _ hp)
    by_cases hpath : l.path = path
    · subst hpath
      obtain ⟨objects, kept', hmore⟩ := h.write (hworks _ List.mem_concat_self)
      exact ⟨_, _, hmore⟩
    · exact ⟨_, _, h.pass hpath⟩

end

/-- **Start after start.** However often the program is started, stopped and killed, the file reads as what was there
at first and what lasts of each launch that wrote to it, in their order, or as the last of these without a gap if there
is a limit; and there is at most one line besides for each launch that was killed. -/
theorem restarts_read {path : Bytes} (hworks : ∀ p ∈ found files launches, p.2.Works p.1)
    (hbase : (files path).getD [] = [] ∨ ((files path).getD []).getLast? = some 0x0A) :
    ∃ lasting : List (List (Option Json)),
      List.Forall₂ (fun p objects => p.2.Lasts p.1 objects)
        ((found files launches).filter fun p => p.2.path = path) lasting ∧
      ∃ kept, kept <:+ JsonSink.readLines ((files path).getD []) ++ lasting.flatten ∧
        ((∀ l ∈ launches, l.path = path → l.limit = 0) →
          kept = JsonSink.readLines ((files path).getD []) ++ lasting.flatten) ∧
        kept.Sublist (JsonSink.readLines ((after files launches path).getD [])) ∧
        (JsonSink.readLines ((after files launches path).getD [])).length ≤
          kept.length + launches.countP fun l => l.path = path ∧ l.closed = none := by
  obtain ⟨lasting, kept, h⟩ := exists_remains hworks hbase
  obtain ⟨hsub, hfew⟩ := h.survives.reads
  refine ⟨lasting, h.lasts, kept.map Json.parse, h.last, h.all, hsub.map _, ?_⟩
  rw [List.length_map, JsonSink.readLines, List.length_map]
  exact hfew

end

/-! ## A kill and a start -/

/-- A fork is reported, and the program is killed. -/
def killedLaunch : Launch where
  host := secondFails
  sinkEnv := JsonSink.calmEnv
  now := 0
  turns := [World.longTurn]
  answers := fun _ => none
  closed := none

/-- It is started once more, and stopped at once. -/
def idleLaunch : Launch := { killedLaunch with turns := [], closed := some 5 }

theorem killedLaunch_works : killedLaunch.Works fun _ => none := by
  intro _
  have henters := (World.main_code World.calmWorld 0 [World.longTurn] (fun _ => some 0) 0).mp (World.calmWorld_code 0)
  have hmoves : (killedLaunch.world fun _ => none).moves killedLaunch.turns = System.forkTaken := by
    show World.calmWorld.moves [World.longTurn] = _
    unfold World.moves
    rw [henters.ready, henters.started]
    rfl
  rw [hmoves]
  exact World.calmWorld_works

theorem idleLaunch_works (files : Bytes → Option Bytes) : idleLaunch.Works files := by
  intro hready before hbefore
  have hnone : (idleLaunch.world files).moves idleLaunch.turns = [] := by
    unfold World.moves
    split_ifs <;> rfl
  rw [hnone] at hbefore
  obtain rfl := List.prefix_nil.mp hbefore
  exact ⟨hready, JsonSink.bad_create _ _ _⟩

theorem restarts_read_killed : ∃ (lasting : List (List (Option Json))) (kept : List (Option Json)),
    kept <:+ lasting.flatten ∧
      kept.Sublist (JsonSink.readLines
        ((after (fun _ => none) [killedLaunch, idleLaunch] killedLaunch.path).getD [])) ∧
      (JsonSink.readLines ((after (fun _ => none) [killedLaunch, idleLaunch] killedLaunch.path).getD [])).length ≤
        kept.length + 1 := by
  have hworks : ∀ p ∈ found (fun _ => none) [killedLaunch, idleLaunch], p.2.Works p.1 := by
    intro p hp
    rcases List.mem_cons.mp hp with rfl | hp
    · exact killedLaunch_works
    · rw [List.mem_singleton.mp hp]
      exact idleLaunch_works _
  have hcount : ([killedLaunch, idleLaunch].countP fun l => l.path = killedLaunch.path ∧ l.closed = none) = 1 := by
    decide
  obtain ⟨lasting, -, kept, hlast, -, hsub, hfew⟩ := restarts_read hworks (Or.inl rfl)
  rw [hcount] at hfew
  exact ⟨lasting, kept, hlast, hsub, hfew⟩

end ETraceGen
