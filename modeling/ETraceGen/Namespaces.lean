import ETraceGen.Registry.Credentials
import ETraceGen.Registry.Links
import ETraceGen.Threads

/-!
# Creations in a pid namespace

The fork tracepoint names the child by its number in the initial pid namespace, where the actors of all
records are numbered; the exit of `clone`, `clone3` or `vfork` names it by the call's result, its number
in the caller's namespace. The registry takes either as a key.

* `TaskCreation.namesChild_iff` : the two records of one creation name one process exactly if the
  caller's namespace numbers the child as the initial one does;
* `TaskCreation.takes_over` : where it does not, the process that has the number is written.
-/

namespace ETraceGen

open Bpf EntityRegistry

/-! ## Pid namespaces -/

/-- The numbers a pid namespace gives the tasks it sees, one each. -/
structure PidNamespace (Task : Type) where
  number : Task → Option UInt32
  injective : ∀ {t u n}, number t = some n → number u = some n → t = u
  range : ∀ {t n}, number t = some n → 0 < n ∧ n.toNat < 2147483648

/-- The system calls that create a task and report it at their exit. -/
inductive CreatingCall where
  | clone
  | clone3
  | vfork

def CreatingCall.kind : CreatingCall → ProcessEventKind
  | .clone => .clone
  | .clone3 => .clone3
  | .vfork => .vfork

def CreatingCall.exitHook (ret : Int64) : CreatingCall → Hook
  | .clone => .exitClone ret
  | .clone3 => .exitClone3 ret
  | .vfork => .exitVfork ret

/-- A creation of a task. The initial namespace sees the child, and so does the caller's. -/
structure TaskCreation (Task : Type) where
  call : CreatingCall
  initial : PidNamespace Task
  callers : PidNamespace Task
  child : Task
  pid : UInt32
  result : UInt32
  initial_number : initial.number child = some pid
  callers_number : callers.number child = some result

namespace TaskCreation

variable {Task : Type} (made : TaskCreation Task)

/-- What the call returns to its caller, a `pid_t` in a `long`. -/
def ret : Int64 := Int64.ofNat made.result.toNat

/-- The fork tracepoint of the creation, and the exit of the call in the caller. -/
def forkHook : Hook := .schedFork made.pid
def exitHook : Hook := made.call.exitHook made.ret

theorem ret_pos : 0 < made.ret := by
  obtain ⟨hpos, hlt⟩ := made.callers.range made.callers_number
  have hnat : 0 < made.result.toNat := UInt32.lt_iff_toNat_lt.mp hpos
  rw [ret, Int64.lt_iff_toInt_lt, Int64.toInt_ofNat_of_lt (by omega), Int64.toInt_zero]
  omega

theorem exitHook_child : made.exitHook.child = made.result := by
  have hchild : ∀ call : CreatingCall, (call.exitHook made.ret).child =
      if 0 < made.ret then made.ret.toUInt64.toUInt32 else 0 := by
    intro call
    cases call <;> rfl
  rw [exitHook, hchild, if_pos made.ret_pos, ret]
  simp

/-- The call's report names the process the fork's report names, in the numbers of the actors. The
registry links this process to the caller, and touches no third one. -/
structure NamesChild : Prop where
  same_child : ∀ maps env env' fork exit, WritesProcess maps env made.forkHook .fork fork →
    WritesProcess maps env' made.exitHook made.call.kind exit → exit.childPid = fork.childPid
  initial_number : ∀ maps env exit, WritesProcess maps env made.exitHook made.call.kind exit →
    made.initial.number made.child = some exit.childPid
  links : ∀ maps env exit, WritesProcess maps env made.exitHook made.call.kind exit →
    ∀ ingestEnv calls, (processReport ingestEnv exit).LinksOnly (run calls) made.pid

section Reports
variable {made} {maps : ProbeMaps} {env : HookEnv} {record : ProcessEvent}

theorem fork_childPid (h : WritesProcess maps env made.forkHook .fork record) :
    record.childPid = made.pid := by
  rw [h.record, processRecord_childPid]
  rfl

theorem exit_childPid (h : WritesProcess maps env made.exitHook made.call.kind record) :
    record.childPid = made.result := by
  rw [h.record, processRecord_childPid, made.exitHook_child]

/-- The call's report is one of the creation of the process that has the number. -/
theorem exit_creates (h : WritesProcess maps env made.exitHook made.call.kind record)
    (ingestEnv : IngestEnv) : (processReport ingestEnv record).Creates made.result := by
  have hkind : record.kind = made.call.kind.code := by
    rw [h.record, (processRecord_envelope env made.exitHook made.call.kind).2]
  have hstart : made.call.kind ∈ [ProcessEventKind.fork, .clone, .clone3, .vfork] := by
    cases made.call <;> simp [CreatingCall.kind]
  have hne : record.childPid ≠ 0 := by
    rw [exit_childPid h]
    exact UInt32.pos_iff_ne_zero.mp (made.callers.range made.callers_number).1
  rw [← exit_childPid h]
  exact processReport_creates ingestEnv hkind hstart hne

/-- The process that has the number is the one the registry takes for the child: the event refers to its
entity, which loses its credentials. -/
theorem takes_over (h : WritesProcess maps env made.exitHook made.call.kind record)
    (ingestEnv : IngestEnv) (r : EntityRegistry) {id : Nat} {e : ProcessEntity} :
    let c := processReport ingestEnv record
    c.child.key = made.result ∧ (Finds c.env.child c.child c.ev.tsNs (c.resolved r).1 id e →
      (c.out r).objectRef.id = id ∧
        ∃ f, (c.next r).findProcess id = some f ∧ f.credentials = (0, 0)) := by
  intro c
  have hcreates := exit_creates h ingestEnv
  have hstart : c.StartsChild := hcreates.starts
  have hkey : c.child.key = made.result := (c.child_key hstart.2).trans hcreates.childPid
  refine ⟨hkey, fun hfinds => ⟨?_, c.child_credentials hstart hfinds⟩⟩
  rw [c.out_objectRef r hstart, Call.childResolved, resolveProcess_found _ _ _ _
    (hkey.trans_ne hcreates.ne_zero) hfinds.index hfinds.stored hfinds.same]

theorem allProbes_gate (kind : ProcessEventKind) : processGate allProbes env7 kind = true := by
  cases kind <;> rfl

theorem NamesChild.result_eq (h : made.NamesChild) : made.result = made.pid := by
  have hkind : processKind? made.exitHook = some made.call.kind := by
    rw [exitHook]
    cases made.call <;> rfl
  have hfork : WritesProcess allProbes env7 made.forkHook .fork (processRecord env7 made.forkHook .fork) :=
    ⟨rfl, allProbes_gate .fork, rfl, rfl⟩
  have hexit : WritesProcess allProbes env7 made.exitHook made.call.kind
      (processRecord env7 made.exitHook made.call.kind) := ⟨hkind, allProbes_gate _, rfl, rfl⟩
  have hsame := h.same_child _ _ _ _ _ hfork hexit
  rwa [exit_childPid hexit, fork_childPid hfork] at hsame

theorem namesChild_of_eq (hsame : made.result = made.pid) : made.NamesChild := by
  refine ⟨fun maps env env' fork exit hfork hexit => ?_, fun maps env exit hexit => ?_,
    fun maps env exit hexit ingestEnv calls => ?_⟩
  · rw [exit_childPid hexit, fork_childPid hfork, hsame]
  · rw [exit_childPid hexit, hsame, made.initial_number]
  · rw [← hsame]
    exact (exit_creates hexit ingestEnv).linksOnly (run_consistent calls)

end Reports

/-- **Two reports of one creation** name one process exactly if the caller's namespace numbers the child
as the initial one does. -/
theorem namesChild_iff :
    made.NamesChild ↔ made.callers.number made.child = made.initial.number made.child := by
  rw [made.callers_number, made.initial_number, Option.some_inj]
  exact ⟨fun h => h.result_eq, namesChild_of_eq⟩

end TaskCreation

/-! ## A caller in a container -/

/-- The initial namespace, a task being known by its number there. -/
def initialPids : PidNamespace UInt32 where
  number t := if 0 < t ∧ t.toNat < 2147483648 then some t else none
  injective := by
    intro t u n ht hu
    split_ifs at ht hu
    exact (Option.some.inj ht).trans (Option.some.inj hu).symm
  range := by
    intro t n ht
    split_ifs at ht with hrange
    exact Option.some.inj ht ▸ hrange

/-- A container, in which task 199 is the first and 200 the fifth. -/
def containerPids : PidNamespace UInt32 where
  number t := if t = 199 then some 1 else if t = 200 then some 5 else none
  injective := by
    intro t u n ht hu
    split_ifs at ht hu with ht' hu' hu' ht' hu' hu'
    · exact ht'.trans hu'.symm
    · exact absurd (ht.trans hu.symm) (by decide)
    · exact absurd (ht.trans hu.symm) (by decide)
    · exact ht'.trans hu'.symm
  range := by
    intro t n ht
    split_ifs at ht
    · exact Option.some.inj ht ▸ by decide
    · exact Option.some.inj ht ▸ by decide

/-- Task 199 creates task 200. -/
def containerClone : TaskCreation UInt32 where
  call := .clone
  initial := initialPids
  callers := containerPids
  child := 200
  pid := 200
  result := 5
  initial_number := rfl
  callers_number := rfl

/-- The call's report names process 5. -/
theorem not_namesChild : ¬∀ (Task : Type) (made : TaskCreation Task), made.NamesChild := by
  intro h
  have hnumber : (5 : UInt32) = 200 := (h UInt32 containerClone).result_eq
  exact absurd hnumber (by decide)

end ETraceGen
