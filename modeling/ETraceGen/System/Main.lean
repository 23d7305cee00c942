import ETraceGen.Collector.Filters
import ETraceGen.Collector.Lifecycle
import ETraceGen.Collector.Stats
import ETraceGen.Config.Sink
import ETraceGen.Sink.Buffer
import ETraceGen.System.Output

/-!
# The program

`main` from its start to its end: it builds the sink, starts the collector, polls until a signal comes, and stops.
Which records there are follows from the configuration file, by way of the maps that the start fills.

* `World.main` : any world, and any turns of the loop;
* `main_gives_back` : on every way out the library has been given back what it gave;
* `main_output` : what the file says at the end, and what it is made of;
* `reports_regular` : when the counters are reported.
-/

namespace ETraceGen

open Bpf Collector

namespace JsonSink

/-- The destructor, and the one of its stream. -/
def destroy (now : UInt64) (s : JsonSink) : JsonSink := (s.forceFlush now).close

theorem content_forceFlush (now : UInt64) (s : JsonSink) : (s.forceFlush now).content = s.content := by
  unfold forceFlush
  split_ifs
  · rfl
  · exact content_flush s

/-- Behind it the file says everything. -/
theorem onDisk_destroy (now : UInt64) (s : JsonSink) : (s.destroy now).onDisk = s.content := content_forceFlush now s

end JsonSink

/-- What the program finds. -/
structure World where
  host : Collector.Host
  /-- What stands at a path. -/
  files : Bytes → Option Bytes
  sinkEnv : SinkEnv

/-- One turn of the loop: what happens until its poll is over, the clock then, and how the counters can be read. -/
structure Turn where
  moves : List System.Move
  now : Nat
  answers : BpfStatKey → Option UInt64

/-- What `main` keeps while it loops, with the reports that it has printed. -/
structure MainLoop where
  session : Session
  system : System
  nextStatsReport : Nat
  periodic : List (Nat × KernelBpfStats) := []

/-- How `main` ended. -/
structure MainExit where
  code : Nat
  session : Session := {}
  system : System
  periodic : List (Nat × KernelBpfStats) := []
  final : Option KernelBpfStats := none

namespace World

def sinkConfig (w : World) : Config.SinkRuntimeConfig := Config.loadSinkRuntimeConfig w.host.config

/-- What is there before. -/
def base (w : World) : Option Bytes := w.files w.sinkConfig.path

def buildSink (w : World) : JsonSink := JsonSink.create w.sinkEnv w.base w.sinkConfig.maxFileSizeBytes

/-- The toggles that the handlers find: the start fills them before it attaches any. -/
def maps (w : World) : ProbeMaps := startMaps w.host true

/-- Thirty seconds. -/
def statsInterval : Nat := 30000000000

def pollOnce (w : World) (moves : List System.Move) (m : MainLoop) : MainLoop :=
  let told := Feed.told (exec w.maps) System.records (System.take w.host.pid) m.system moves
  { m with
    session := m.session.pollOnce (told.map fun taken => (sampleOf taken).2.image)
    system := Feed.run (exec w.maps) System.records (System.take w.host.pid) m.system moves }

def readStats (w : World) (answers : BpfStatKey → Option UInt64) (session : Session) : Option KernelBpfStats :=
  readKernelBpfStats session.collector.obj.isSome (w.host.found .bpfStats) answers

def turn (w : World) (m : MainLoop) (t : Turn) : MainLoop :=
  let m := w.pollOnce t.moves m
  if m.nextStatsReport ≤ t.now then
    { m with
      session := m.session.readKernelBpfStats
      nextStatsReport := t.now + statsInterval
      periodic := m.periodic ++ (w.readStats t.answers m.session).toList.map (t.now, ·) }
  else m

def loop (w : World) (m : MainLoop) (turns : List Turn) : MainLoop := turns.foldl w.turn m

/-- The loop as it begins at that time. -/
def enter (w : World) (session : Session) (now : Nat) : MainLoop where
  session := session
  system := System.start w.buildSink
  nextStatsReport := now + statsInterval

def destroySink (closed : UInt64) (s : System) : System :=
  { s with consumer := { s.consumer with sink := s.consumer.sink.destroy closed } }

def main (w : World) (now : Nat) (turns : List Turn) (answers : BpfStatKey → Option UInt64) (closed : UInt64) :
    MainExit :=
  let sink := w.buildSink
  if !sink.ready then { code := 1, system := destroySink closed (System.start sink) }
  else
    let (started, session) := Session.start w.host true {}
    if !started then { code := 1, session, system := destroySink closed (System.start sink) }
    else
      let m := w.loop (w.enter session now) turns
      { code := 0
        session := m.session.readKernelBpfStats.stop
        system := destroySink closed m.system
        periodic := m.periodic
        final := w.readStats answers m.session }

/-! ## The loop -/

section Loop
variable (w : World)

theorem turn_system (m : MainLoop) (t : Turn) :
    (w.turn m t).system = Feed.run (exec w.maps) System.records (System.take w.host.pid) m.system t.moves := by
  unfold turn
  dsimp only
  split_ifs <;> rfl

theorem loop_system (m : MainLoop) (turns : List Turn) :
    (w.loop m turns).system =
      Feed.run (exec w.maps) System.records (System.take w.host.pid) m.system (turns.flatMap Turn.moves) := by
  induction turns generalizing m with
  | nil => rfl
  | cons t turns ih =>
    show (w.loop (w.turn m t) turns).system = _
    rw [ih, turn_system, List.flatMap_cons]
    exact List.foldl_append.symm

/-- The samples that the polls take along the turns. -/
def polls (w : World) (m : MainLoop) (turns : List Turn) : List Bytes :=
  (Feed.told (exec w.maps) System.records (System.take w.host.pid) m.system (turns.flatMap Turn.moves)).map
    fun taken => (sampleOf taken).2.image

/-- The collector runs, knows of every handle, and forwards what it is polled for. -/
structure Polling (m : MainLoop) : Prop where
  known : m.session.Has Handles.Tight
  running : Session.Running m.session.collector
  forwards : m.session.Forwards

variable {w} {m : MainLoop}

theorem pollOnce_running {s : Session} (h : Session.Running s.collector) (records : List Bytes) :
    (s.pollOnce records).collector = s.collector ∧ (s.pollOnce records).polled = s.polled ++ records := by
  have hon : ¬(!s.collector.started || s.collector.rb.isNone) = true := by
    obtain ⟨ring, hring⟩ := Option.isSome_iff_exists.mp h.rb
    rw [h.started, hring]
    exact Bool.false_ne_true
  unfold Session.pollOnce
  rw [if_neg hon]
  exact ⟨rfl, rfl⟩

theorem Polling.pollOnce (h : Polling m) (moves : List System.Move) : Polling (w.pollOnce moves m) := by
  refine ⟨h.known.pollOnce Handles.tight_rules _, ?_, h.forwards.step (.pollOnce _) fun _ heq => by cases heq⟩
  have hsame := (pollOnce_running h.running
    ((Feed.told (exec w.maps) System.records (System.take w.host.pid) m.system moves).map
      fun taken => (sampleOf taken).2.image)).1
  show Session.Running (m.session.pollOnce _).collector
  rw [hsame]
  exact h.running

theorem Polling.read (h : Polling m) {next : Nat} {printed : List (Nat × KernelBpfStats)} :
    Polling { m with
      session := m.session.readKernelBpfStats
      nextStatsReport := next
      periodic := printed } :=
  ⟨h.known.use Handles.tight_rules Session.obj_sub, h.running,
    h.forwards.step .readKernelBpfStats fun _ heq => by cases heq⟩

/-- **One turn.** -/
theorem Polling.turn (h : Polling m) (t : Turn) :
    Polling (w.turn m t) ∧ (w.turn m t).session.polled = m.session.polled ++ w.polls m [t] := by
  have hpolled : (w.pollOnce t.moves m).session.polled = m.session.polled ++ w.polls m [t] := by
    have hall := (pollOnce_running h.running
      ((Feed.told (exec w.maps) System.records (System.take w.host.pid) m.system t.moves).map
        fun taken => (sampleOf taken).2.image)).2
    rw [polls, List.flatMap_singleton]
    exact hall
  unfold World.turn
  dsimp only
  split_ifs
  · exact ⟨(h.pollOnce t.moves).read, hpolled⟩
  · exact ⟨h.pollOnce t.moves, hpolled⟩

theorem Polling.loop (h : Polling m) (turns : List Turn) :
    Polling (w.loop m turns) ∧ (w.loop m turns).session.polled = m.session.polled ++ w.polls m turns := by
  induction turns generalizing m with
  | nil => exact ⟨h, (List.append_nil _).symm⟩
  | cons t turns ih =>
    obtain ⟨hturn, hpolled⟩ := h.turn (w := w) t
    obtain ⟨hloop, hall⟩ := ih hturn
    refine ⟨hloop, hall.trans ?_⟩
    have htold : w.polls m (t :: turns) = w.polls m [t] ++ w.polls (w.turn m t) turns := by
      unfold polls
      rw [List.flatMap_cons, List.flatMap_singleton, Feed.told_append, List.map_append, ← turn_system]
    rw [hpolled, htold, List.append_assoc]

end Loop

/-! ## Beginning and end -/

section Ends
variable (w : World) (now : Nat) (turns : List Turn) (answers : BpfStatKey → Option UInt64) (closed : UInt64)

/-- The start leaves a collector that polls, or one that holds nothing. -/
theorem start_world : (Session.start w.host true {}).2.Has Handles.Tight ∧
    ((Session.start w.host true {}).1 = true ∧ Polling (w.enter (Session.start w.host true {}).2 now) ∨
      (Session.start w.host true {}).1 = false ∧ (Session.start w.host true {}).2.collector.held = []) := by
  have hknown : (Session.start w.host true {}).2.Has Handles.Tight :=
    (Session.has_init Handles.tight_nil).start Handles.tight_rules fun _ => Or.inr ⟨rfl, rfl⟩
  have hforwards : (Session.start w.host true {}).2.Forwards :=
    Session.Forwards.start (s := {}) ⟨nofun, rfl⟩ nofun
  refine ⟨hknown, ?_⟩
  rcases @Session.start_ends {} w.host true ⟨rfl, rfl, rfl, rfl⟩ with
    ⟨hok, hrunning⟩ | ⟨hfailed, hidle⟩
  · exact Or.inl ⟨hok, hknown, hrunning, hforwards⟩
  · refine Or.inr ⟨hfailed, ?_⟩
    rw [LibbpfCollector.held, hidle.rb, hidle.links, hidle.obj]
    rfl

/-- Past both guards. -/
structure Enters (w : World) : Prop where
  ready : w.buildSink.ready = true
  started : (Session.start w.host true {}).1 = true

theorem main_of_enters (h : w.Enters) : w.main now turns answers closed =
    { code := 0
      session := (w.loop (w.enter (Session.start w.host true {}).2 now) turns).session.readKernelBpfStats.stop
      system := destroySink closed (w.loop (w.enter (Session.start w.host true {}).2 now) turns).system
      periodic := (w.loop (w.enter (Session.start w.host true {}).2 now) turns).periodic
      final := w.readStats answers (w.loop (w.enter (Session.start w.host true {}).2 now) turns).session } := by
  unfold main
  dsimp only
  rw [h.ready, h.started]
  rfl

theorem main_code : (w.main now turns answers closed).code = 0 ↔ w.Enters := by
  constructor
  · intro hcode
    unfold main at hcode
    dsimp only at hcode
    split_ifs at hcode with hready hstarted
    exact ⟨by simpa using hready, by simpa using hstarted⟩
  · intro h
    rw [main_of_enters w now turns answers closed h]

/-- What the collector knows of at the end: nothing, and there is nothing else. -/
theorem main_session : Handles.Tight (w.main now turns answers closed).session.log [] := by
  by_cases henters : w.Enters
  · rw [main_of_enters w now turns answers closed henters]
    rcases (w.start_world now).2 with ⟨-, hpolling⟩ | ⟨hfailed, -⟩
    · have hend := (hpolling.loop (w := w) turns).1.known
      exact ((hend.use Handles.tight_rules Session.obj_sub).stop Handles.tight_rules).held
    · rw [henters.started] at hfailed
      cases hfailed
  · unfold main
    dsimp only
    split_ifs with hready hstarted
    · exact Handles.tight_nil
    · obtain ⟨hknown, hends⟩ := w.start_world now
      rcases hends with ⟨hok, -⟩ | ⟨-, hnone⟩
      · rw [hok] at hstarted
        cases hstarted
      · have hheld := hknown.held
        rwa [hnone] at hheld
    · exact absurd ⟨by simpa using hready, by simpa using hstarted⟩ henters

end Ends

/-- **On every way out** of `main`, whatever fails and whenever the signal comes, every handle of the library has been
used only while it was there, and given back exactly once; and the program reports success exactly if the file could be
opened and the collector be started. -/
theorem main_gives_back (w : World) (now : Nat) (turns : List Turn) (answers : BpfStatKey → Option UInt64)
    (closed : UInt64) :
    Handles.Disciplined (w.main now turns answers closed).session.log ∧
      (∀ h, Handles.released h (w.main now turns answers closed).session.log =
        Handles.acquired h (w.main now turns answers closed).session.log) ∧
      ((w.main now turns answers closed).code = 0 ↔
        w.buildSink.ready = true ∧ (Collector.start w.host true).1 = true) := by
  have htight := w.main_session now turns answers closed
  refine ⟨htight.disciplined, fun h => ?_, ?_⟩
  · exact (htight.balanced (fun h hlive => List.not_mem_nil (htight.all h hlive)) h).1
  · rw [main_code, ← Session.start_fst (s := {})]
    exact ⟨fun h => ⟨h.ready, h.started⟩, fun h => ⟨h.1, h.2⟩⟩

/-! ## What is written -/

theorem start_polled (host : Collector.Host) (s : Session) : (Session.start host true s).2.polled = s.polled := by
  unfold Session.start Session.connect
  dsimp only
  split_ifs <;> first | rfl | exact (Session.attachAll_records host.programs).1

section Output
variable {w : World} {now : Nat} {turns : List Turn} {answers : BpfStatKey → Option UInt64} {closed : UInt64}

/-- The kernel and the daemon behind the turns of the loop. -/
theorem main_system (h : w.Enters) : (w.main now turns answers closed).system =
    destroySink closed (System.run w.maps w.host.pid w.buildSink (turns.flatMap Turn.moves)) := by
  rw [main_of_enters w now turns answers closed h]
  exact congrArg (destroySink closed) (loop_system w _ turns)

/-- What the collector was polled for is what the daemon was told, record by record. -/
theorem main_polled (h : w.Enters) :
    (w.main now turns answers closed).session.forwarded = (w.main now turns answers closed).session.polled ∧
      ((w.main now turns answers closed).session.polled.map fun raw => (Decoder.decode raw).map EventObject.event) =
        (System.told w.maps w.host.pid w.buildSink (turns.flatMap Turn.moves)).map fun taken => some taken.2 := by
  rcases (w.start_world now).2 with ⟨-, hpolling⟩ | ⟨hfailed, -⟩
  · obtain ⟨hend, hpolled⟩ := hpolling.loop (w := w) turns
    rw [main_of_enters w now turns answers closed h]
    refine ⟨hend.forwards.all, ?_⟩
    show (w.loop _ turns).session.polled.map _ = _
    have hnone : (w.enter (Session.start w.host true {}).2 now).session.polled = [] := start_polled w.host {}
    rw [hpolled, hnone, List.nil_append, polls, List.map_map]
    refine List.map_congr_left fun taken hmem => ?_
    have hnamed := System.samples_named (turns.flatMap Turn.moves) (sampleOf taken) (List.mem_map_of_mem hmem)
    have hdecode := Decoder.decode_image hnamed []
    rw [List.append_nil] at hdecode
    show (Decoder.decode (sampleOf taken).2.image).map EventObject.event = some taken.2
    rw [hdecode]
    exact congrArg some (EventVariant.event_object taken.2 taken.1.hdrPad taken.1.pad)
  · rw [h.started] at hfailed
    cases hfailed

end Output

/-- **The output of a whole run.** If the program reports success and its writes succeed, then every record that was
polled is one that the configuration file asks for, and not about the program itself where that could be told to the
handlers; it was forwarded, decoded and counted; and the file that is left says what was there before and then one
object for each of them, in the order of the ring buffer and without those about itself; or, if it was started anew,
the last of these without a gap. -/
theorem main_output {w : World} {now : Nat} {turns : List Turn} {answers : BpfStatKey → Option UInt64}
    {closed : UInt64} (hcode : (w.main now turns answers closed).code = 0)
    (hworks : System.SinkWorks w.maps w.host.pid w.buildSink (turns.flatMap Turn.moves))
    (hbase : w.base.getD [] = [] ∨ (w.base.getD []).getLast? = some 0x0A) :
    ∃ (taken : List EventVariant) (objects : List (Option Json)),
      taken <+: (w.main now turns answers closed).system.producer.events.records ∧
      (∀ record ∈ taken, AskedFor (loadConfig w.host).2 record ∧
        (updateSucceeds w.host .suppressTgid 0 = true → w.host.pid ≠ 0 → record.hdr.tgid ≠ w.host.pid)) ∧
      (w.main now turns answers closed).session.forwarded = (w.main now turns answers closed).session.polled ∧
      ((w.main now turns answers closed).session.polled.map fun raw => (Decoder.decode raw).map EventObject.event) =
        taken.map some ∧
      (w.main now turns answers closed).system.consumer.metrics =
        { received := .ofNat taken.length, decoded := .ofNat taken.length, dropped := 0 } ∧
      List.Forall₂ System.MadeOf (taken.filter fun record => !isSelfEvent record w.host.pid) objects ∧
      (JsonSink.readLines (w.main now turns answers closed).system.consumer.sink.onDisk =
          JsonSink.readLines (w.base.getD []) ++ objects ∨
        w.sinkConfig.maxFileSizeBytes ≠ 0 ∧ ∃ kept, kept ≠ [] ∧ kept <:+ objects ∧
          JsonSink.readLines (w.main now turns answers closed).system.consumer.sink.onDisk = kept) := by
  have henters := (main_code w now turns answers closed).mp hcode
  obtain ⟨hforwarded, hpolled⟩ := @main_polled w now turns answers closed henters
  have hsystem := @main_system w now turns answers closed henters
  have hkernel : (w.main now turns answers closed).system.producer.events.records =
      System.records (Bpf.run w.maps (Feed.produced (turns.flatMap Turn.moves))) := by
    rw [hsystem]
    exact congrArg System.records (System.run_kernel (turns.flatMap Turn.moves))
  have hstarted : (Collector.start w.host true).1 = true := by
    rw [← Session.start_fst (s := {})]
    exact henters.started
  refine ⟨(System.told w.maps w.host.pid w.buildSink (turns.flatMap Turn.moves)).map Prod.snd,
    System.objects w.maps w.host.pid w.buildSink (turns.flatMap Turn.moves), ?_, ?_, hforwarded, ?_, ?_,
    System.objects_madeOf _ _, ?_⟩
  · rw [hkernel]
    exact System.told_records _
  · intro record hmem
    exact records_configured hstarted ((System.told_records _).subset hmem)
  · rw [hpolled, List.map_map]
    rfl
  · rw [hsystem]
    show (System.run w.maps w.host.pid w.buildSink (turns.flatMap Turn.moves)).consumer.metrics = _
    rw [System.run_daemon, Daemon.run_eq (System.samples_named _), System.samples, List.length_map, List.length_map]
  · have hdisk : (w.main now turns answers closed).system.consumer.sink.onDisk =
        (System.run w.maps w.host.pid w.buildSink (turns.flatMap Turn.moves)).consumer.sink.content := by
      rw [hsystem]
      exact JsonSink.onDisk_destroy closed _
    rw [hdisk]
    exact System.content_reads hworks hbase

/-- Two pids are configured and nothing is there yet. -/
def calmWorld : World := { host := secondFails, files := fun _ => none, sinkEnv := JsonSink.calmEnv }

/-- A turn of 31 seconds, in which a fork is reported. -/
def longTurn : Turn := { moves := System.forkTaken, now := 31000000000, answers := fun _ => some 0 }

theorem calmWorld_code (closed : UInt64) : (calmWorld.main 0 [longTurn] (fun _ => some 0) closed).code = 0 := by
  have hready : calmWorld.buildSink.ready = true := by decide +kernel
  refine (main_code _ _ _ _ _).mpr ⟨hready, Session.start_fst.trans ((start_fst_iff _ _).mpr ?_)⟩
  exact ⟨rfl, rfl, rfl, ⟨_, List.mem_cons_self, rfl⟩, rfl, rfl⟩

theorem calmWorld_works : System.SinkWorks calmWorld.maps calmWorld.host.pid calmWorld.buildSink System.forkTaken := by
  intro before hbefore
  rcases List.prefix_cons_iff.mp hbefore with rfl | ⟨rest, rfl, hrest⟩
  · decide +kernel
  · rcases List.prefix_cons_iff.mp hrest with rfl | ⟨last, rfl, hlast⟩
    · decide +kernel
    · rw [List.prefix_nil.mp hlast]
      decide +kernel

theorem main_output_fork : ∃ (taken : List EventVariant) (objects : List (Option Json)),
    (calmWorld.main 0 [longTurn] (fun _ => some 0) 1).system.consumer.metrics =
        { received := .ofNat taken.length, decoded := .ofNat taken.length, dropped := 0 } ∧
      List.Forall₂ System.MadeOf (taken.filter fun record => !isSelfEvent record 100) objects := by
  obtain ⟨taken, objects, -, -, -, -, hmetrics, hobjects, -⟩ :=
    main_output (calmWorld_code 1) (by exact calmWorld_works) (Or.inl rfl)
  exact ⟨taken, objects, hmetrics, hobjects⟩

/-! ## The reports -/

section Reports
variable {w : World} {start : Nat} {m : MainLoop}

/-- When the counters were reported last, or the loop was entered. -/
def lastReport (start : Nat) (m : MainLoop) : Nat := (m.periodic.map Prod.fst).getLast?.getD start

/-- The reports are as far apart as they should be, and so will the next one be. -/
structure Paced (start : Nat) (m : MainLoop) : Prop where
  chain : (start :: m.periodic.map Prod.fst).IsChain fun t t' => t + statsInterval ≤ t'
  next : lastReport start m + statsInterval ≤ m.nextStatsReport

theorem lastReport_eq (start : Nat) (m : MainLoop) :
    (start :: m.periodic.map Prod.fst).getLast? = some (lastReport start m) := by
  unfold lastReport
  rw [List.getLast?_cons]

theorem Paced.turn (h : Paced start m) (t : Turn) : Paced start (w.turn m t) := by
  unfold World.turn
  dsimp only
  split_ifs with hdue
  · have hlast := h.next
    have hnow : m.nextStatsReport ≤ t.now := hdue
    cases w.readStats t.answers (w.pollOnce t.moves m).session with
    | none =>
      refine ⟨?_, ?_⟩
      · show (start :: (m.periodic ++ []).map Prod.fst).IsChain _
        rw [List.append_nil]
        exact h.chain
      · show ((m.periodic ++ []).map Prod.fst).getLast?.getD start + statsInterval ≤ t.now + statsInterval
        rw [List.append_nil, ← lastReport]
        omega
    | some stats =>
      refine ⟨?_, ?_⟩
      · show (start :: (m.periodic ++ [(t.now, stats)]).map Prod.fst).IsChain _
        rw [List.map_append, ← List.cons_append, List.isChain_append]
        refine ⟨h.chain, List.isChain_singleton _, fun x hx y hy => ?_⟩
        rw [lastReport_eq] at hx
        obtain rfl := Option.some.inj hx
        obtain rfl := Option.some.inj hy
        show lastReport start m + statsInterval ≤ t.now
        omega
      · show ((m.periodic ++ [(t.now, stats)]).map Prod.fst).getLast?.getD start + statsInterval ≤ t.now + statsInterval
        simp
  · exact ⟨h.chain, h.next⟩

theorem Paced.loop (h : Paced start m) (turns : List Turn) : Paced start (w.loop m turns) := by
  induction turns generalizing m with
  | nil => exact h
  | cons t turns ih => exact ih (h.turn t)

/-- Where the counters can be read, a turn leaves no report due. -/
theorem turn_reports (hpolling : Polling m) (hnext : m.nextStatsReport = lastReport start m + statsInterval)
    (hfound : w.host.found .bpfStats = true) {t : Turn} (hanswers : ∀ key, (t.answers key).isSome = true) :
    (w.turn m t).nextStatsReport = lastReport start (w.turn m t) + statsInterval ∧
      t.now < (w.turn m t).nextStatsReport := by
  have hread : (w.readStats t.answers (w.pollOnce t.moves m).session).isSome = true :=
    (readKernelBpfStats_isSome _ _).mpr ⟨(hpolling.pollOnce t.moves).running.obj, hfound, hanswers⟩
  obtain ⟨stats, hstats⟩ := Option.isSome_iff_exists.mp hread
  unfold World.turn
  dsimp only
  rw [hstats]
  split_ifs with hdue
  · refine ⟨?_, ?_⟩
    · show t.now + statsInterval = ((m.periodic ++ [(t.now, stats)]).map Prod.fst).getLast?.getD start + statsInterval
      simp
    · show t.now < t.now + statsInterval
      unfold statsInterval
      omega
  · exact ⟨hnext, Nat.not_le.mp hdue⟩

theorem loop_reports (hpolling : Polling m) (hnext : m.nextStatsReport = lastReport start m + statsInterval)
    (hfound : w.host.found .bpfStats = true) {turns : List Turn}
    (hanswers : ∀ t ∈ turns, ∀ key, (t.answers key).isSome = true) :
    (w.loop m turns).nextStatsReport = lastReport start (w.loop m turns) + statsInterval := by
  induction turns generalizing m with
  | nil => exact hnext
  | cons t turns ih =>
    obtain ⟨ht, hturns⟩ := List.forall_mem_cons.mp hanswers
    exact ih (hpolling.turn (w := w) t).1 (turn_reports hpolling hnext hfound ht).1 hturns

end Reports

/-- **The reports of the counters** are at least thirty seconds apart, whatever the turns take; and where the counters
can be read, the program is never stopped with its last report thirty seconds old or older at the last turn. -/
theorem reports_regular {w : World} {now : Nat} {turns : List Turn} {answers : BpfStatKey → Option UInt64}
    {closed : UInt64} (hcode : (w.main now turns answers closed).code = 0) :
    (now :: (w.main now turns answers closed).periodic.map Prod.fst).IsChain (fun t t' => t + statsInterval ≤ t') ∧
      (w.host.found .bpfStats = true → (∀ t ∈ turns, ∀ key, (t.answers key).isSome = true) →
        ∀ t ∈ turns.getLast?,
          t.now < ((w.main now turns answers closed).periodic.map Prod.fst).getLast?.getD now + statsInterval) := by
  have henters := (main_code w now turns answers closed).mp hcode
  rw [main_of_enters w now turns answers closed henters]
  have hpaced : Paced now (w.enter (Session.start w.host true {}).2 now) :=
    ⟨List.isChain_singleton _, Nat.le_refl _⟩
  refine ⟨(hpaced.loop turns).chain, fun hfound hanswers t hlast => ?_⟩
  rcases (w.start_world now).2 with ⟨-, hpolling⟩ | ⟨hfailed, -⟩
  · obtain ⟨before, rfl⟩ := List.getLast?_eq_some_iff.mp hlast
    obtain ⟨hbefore, ht⟩ := List.forall_mem_append.mp hanswers
    have hfirst : (w.enter (Session.start w.host true {}).2 now).nextStatsReport =
        lastReport now (w.enter (Session.start w.host true {}).2 now) + statsInterval := rfl
    have hnext := loop_reports hpolling hfirst hfound hbefore
    obtain ⟨hexact, hprompt⟩ := turn_reports (hpolling.loop (w := w) before).1 hnext hfound
      (ht t (List.mem_singleton_self t))
    have hloop : w.loop (w.enter (Session.start w.host true {}).2 now) (before ++ [t]) =
        w.turn (w.loop (w.enter (Session.start w.host true {}).2 now) before) t := List.foldl_concat ..
    show t.now < lastReport now (w.loop (w.enter (Session.start w.host true {}).2 now) (before ++ [t])) + statsInterval
    rw [hloop, ← hexact]
    exact hprompt
  · rw [henters.started] at hfailed
    cases hfailed

theorem reports_regular_long :
    ∃ t, ((calmWorld.main 0 [longTurn] (fun _ => some 0) 1).periodic.map Prod.fst).getLast? = some t ∧
      31000000000 < t + statsInterval := by
  obtain ⟨-, hprompt⟩ := reports_regular (calmWorld_code 1)
  have hlate := hprompt rfl (fun t ht key => by rw [List.mem_singleton.mp ht]; rfl) longTurn rfl
  cases hlast : ((calmWorld.main 0 [longTurn] (fun _ => some 0) 1).periodic.map Prod.fst).getLast? with
  | none =>
    rw [hlast] at hlate
    exact absurd hlate (by decide)
  | some t =>
    rw [hlast] at hlate
    exact ⟨t, rfl, hlate⟩

end World

end ETraceGen
