import ETraceGen.Lib.KeyedMap
import ETraceGen.Model
import ETraceGen.Proc

/-!
# The entity registry

`registry/entity_registry.cpp`: the flat stream of canonical events turned into process entities with
stable ids, lineage and lifecycle. What `/proc` answers to the reads of a call, and the order in which
a hash map is visited, come with the call.
-/

namespace ETraceGen

open Proc

/-! ## What a call finds around it -/

/-- What the `/proc` reads of one `ResolveProcess` call return, for the task's key and, for
`parentComm`, its parent's pid. `/proc/<key>/stat` is read by the identity check and by the
enrichment, at two different times. -/
structure ProcAnswers where
  identityStat : Option Bytes := none
  exe : Option Bytes := none
  cwd : Option Bytes := none
  cmdline : Option Bytes := none
  comm : Option Bytes := none
  parentComm : Option Bytes := none
  stat : Option Bytes := none

/-- The order in which iterating over `processes_by_id_` visits its entries. -/
structure BucketOrder where
  visit : List (Sigma fun _ : Nat => ProcessEntity) → List (Sigma fun _ : Nat => ProcessEntity)
  perm : ∀ entries, (visit entries).Perm entries

instance : Inhabited BucketOrder := ⟨⟨id, fun _ => List.Perm.refl _⟩⟩

structure ResolveEnv where
  proc : ProcAnswers := {}
  order : BucketOrder := default

/-! ## Entities -/

namespace ProcessEntity

def kIdentityCheckNs : UInt64 := 500 * 1000 * 1000

def readStartTimeTicks (stat : Option Bytes) : UInt64 := parseStartTimeTicks (readTextFile stat)

def updateFast (a : ActorIdentity) (nowNs : UInt64) (e : ProcessEntity) : ProcessEntity :=
  { e with
    pid := a.pid
    tgid := a.tgid
    ppid := a.ppid
    uid := a.uid
    gid := a.gid
    comm := if a.comm[0] ≠ 0 then a.comm.cstr else e.comm
    lastSeenNs := nowNs }

/-- `if (!value.empty()) field = value;` -/
def replaceBy (value field : Bytes) : Bytes := if value = [] then field else value

def refreshRich (answers : ProcAnswers) (key : UInt32) (e : ProcessEntity) : ProcessEntity :=
  if key = 0 then e
  else
    let e := { e with
      execPath := replaceBy (readProcSymlink answers.exe) e.execPath
      cwd := replaceBy (readProcSymlink answers.cwd) e.cwd
      cmdline := replaceBy (normalizeCmdline (readTextFile answers.cmdline)) e.cmdline }
    let e :=
      if e.comm = [] then { e with comm := replaceBy (rStrip (readTextFile answers.comm)) e.comm }
      else e
    let e :=
      if e.parentComm = [] ∧ e.ppid ≠ 0 then
        { e with parentComm := replaceBy (rStrip (readTextFile answers.parentComm)) e.parentComm }
      else e
    if e.startTimeTicks = 0 then { e with startTimeTicks := readStartTimeTicks answers.stat } else e

/-- Whether the task's number has passed to another process, and the entity with the time of the
check in it. -/
def isReused (identityStat : Option Bytes) (nowNs : UInt64) (e : ProcessEntity) :
    Bool × ProcessEntity :=
  if e.startTimeTicks = 0 then (false, e)
  else if nowNs - e.lastIdentityCheckNs < kIdentityCheckNs then (false, e)
  else
    let e := { e with lastIdentityCheckNs := nowNs }
    let current := readStartTimeTicks identityStat
    if current = 0 then (false, e) else (current != e.startTimeTicks, e)

end ProcessEntity

/-! ## The registry -/

structure EntityRegistry where
  processesById : KeyedMap Nat ProcessEntity := ∅
  tgidIndex : KeyedMap UInt32 Nat := ∅
  nextId : Nat := 1

namespace EntityRegistry

open ProcessEntity (updateFast refreshRich isReused)

def kMaxEntries : Nat := 8192

def findProcess (id : Nat) (r : EntityRegistry) : Option ProcessEntity := r.processesById.lookup id

def processCount (r : EntityRegistry) : Nat := r.processesById.size

/-- Overwrite the entity stored under `id`. -/
def store (id : Nat) (e : ProcessEntity) (r : EntityRegistry) : EntityRegistry :=
  { r with processesById := r.processesById.insert id e }

def retireIndex (key : UInt32) (id : Nat) (r : EntityRegistry) : EntityRegistry :=
  if r.tgidIndex.lookup key = some id then { r with tgidIndex := r.tgidIndex.erase key } else r

def markExited (id : Nat) (nowNs : UInt64) (exitCode : Int64) (r : EntityRegistry) :
    EntityRegistry :=
  match r.processesById.lookup id with
  | none => r
  | some e =>
    retireIndex e.key id (r.store id { e with exited := true, exitNs := nowNs, exitCode := exitCode })

/-- The first entry visited with the least `last_seen_ns`. -/
def evictionVictim (entries : List (Sigma fun _ : Nat => ProcessEntity)) :
    Option (Sigma fun _ : Nat => ProcessEntity) :=
  entries.foldl (fun victim it =>
    match victim with
    | none => some it
    | some v => if it.2.lastSeenNs < v.2.lastSeenNs then some it else some v) none

def evictIfNeeded (order : BucketOrder) (r : EntityRegistry) : EntityRegistry :=
  if r.processesById.size ≤ kMaxEntries then r
  else
    match evictionVictim (order.visit r.processesById.entries) with
    | none => r
    | some victim =>
      let r := retireIndex victim.2.key victim.2.id r
      { r with processesById := r.processesById.erase victim.1 }

/-- The entity `CreateProcess` builds. -/
def newProcess (answers : ProcAnswers) (key : UInt32) (actor : ActorIdentity) (nowNs : UInt64)
    (id : Nat) : ProcessEntity :=
  let e := updateFast actor nowNs { id := id }
  refreshRich answers key { e with firstSeenNs := nowNs, lastIdentityCheckNs := nowNs }

def createProcess (env : ResolveEnv) (key : UInt32) (actor : ActorIdentity) (nowNs : UInt64)
    (r : EntityRegistry) : EntityRegistry × Nat :=
  let id := r.nextId
  let r := { r with nextId := r.nextId + 1 }
  let r := r.store id (newProcess env.proc key actor nowNs id)
  let r := { r with tgidIndex := r.tgidIndex.insert key id }
  (evictIfNeeded env.order r, id)

def resolveProcess (env : ResolveEnv) (actor : ActorIdentity) (nowNs : UInt64) (refresh : Bool)
    (r : EntityRegistry) : EntityRegistry × Nat :=
  if actor.key = 0 then (r, 0)
  else
    match r.tgidIndex.lookup actor.key with
    | none => createProcess env actor.key actor nowNs r
    | some id =>
      match r.processesById.lookup id with
      | none =>
        -- a dangling index entry
        createProcess env actor.key actor nowNs { r with tgidIndex := r.tgidIndex.erase actor.key }
      | some e =>
        match isReused env.proc.identityStat nowNs e with
        | (false, e) =>
          let e := updateFast actor nowNs e
          (r.store id (if refresh then refreshRich env.proc actor.key e else e), id)
        | (true, e) => createProcess env actor.key actor nowNs ((r.store id e).markExited id nowNs 0)

/-- The identity a new task is given: it is treated as its own thread group leader. -/
def childIdentity (childPid : UInt32) (parent : ActorIdentity) : ActorIdentity where
  pid := childPid
  tgid := childPid
  ppid := parent.key

/-- `if (e.parent_id == 0) e.parent_id = parent_id;` on the entity stored under `id`. -/
def linkParent (id parentId : Nat) (r : EntityRegistry) : EntityRegistry :=
  match r.processesById.lookup id with
  | none => r
  | some e => if e.parentId = 0 then r.store id { e with parentId := parentId } else r

def resolveChild (env : ResolveEnv) (childPid : UInt32) (parentId : Nat) (parent : ActorIdentity)
    (nowNs : UInt64) (r : EntityRegistry) : EntityRegistry × Nat :=
  if childPid = 0 then (r, 0)
  else
    let (r, id) := resolveProcess env (childIdentity childPid parent) nowNs true r
    (r.linkParent id parentId, id)

/-- The kernel-captured path, where the entity has none. -/
def useExecPathHint (id : Nat) (hint : Bytes) (r : EntityRegistry) : EntityRegistry :=
  if hint = [] then r
  else
    match r.processesById.lookup id with
    | none => r
    | some e => if e.execPath = [] then r.store id { e with execPath := hint } else r

/-- What the two `ResolveProcess` calls of one `Ingest` find around them. -/
structure IngestEnv where
  subject : ResolveEnv := {}
  child : ResolveEnv := {}

def ingest (env : IngestEnv) (ev : CanonicalEvent) (r : EntityRegistry) :
    EntityRegistry × CanonicalEvent :=
  let isExec := ev.action == .processExeced
  let (r, subjectId) := resolveProcess env.subject ev.actor ev.tsNs isExec r
  let ev : CanonicalEvent := { ev with subject := { kind := .process, id := subjectId } }
  let (r, ev) :=
    if ev.action = .processExited then (r.markExited subjectId ev.tsNs ev.outcome, ev)
    else if ev.action = .processStarted ∧ ev.object.childPid ≠ 0 then
      let (r, childId) := resolveChild env.child ev.object.childPid subjectId ev.actor ev.tsNs r
      (r, { ev with objectRef := { kind := .process, id := childId } })
    else (r, ev)
  let r := r.useExecPathHint subjectId ev.execPathHint
  (r, { ev with subjectProcess := r.findProcess subjectId })

/-- An `Ingest` call: the event and the call's surroundings. -/
structure Call where
  env : IngestEnv := {}
  ev : CanonicalEvent

/-- The event of a process that acts as its own thread group leader, with nothing readable in `/proc`. -/
def processCall (tgid : UInt32) (action : CanonicalAction) (tsNs : UInt64) (childPid : UInt32) : Call where
  ev := {
    tsNs := tsNs
    action := action
    actor := { pid := tgid, tgid := tgid }
    object := { childPid := childPid }
    subject := { kind := .process } }

/-- The registry after a sequence of calls, from the empty one. -/
def run (calls : List Call) : EntityRegistry := calls.foldl (fun r c => (ingest c.env c.ev r).1) {}

end EntityRegistry

end ETraceGen
