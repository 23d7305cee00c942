import ETraceGen.Bpf.Calls

/-!
# Conservation

Where every enter, every exit and every reserved record of a run has gone.

* `Family.collision`, `Family.submitted`, ... : what a family counts and what it holds;
* `passesEnter`, `passesExit`, `failsAtEnter`, ... : what the accounts count, as tests of one step;
* `RingSettled` : the ring buffer's half, kept by every step;
* `kernel_conservation` : the accounts of a whole run.
-/

namespace ETraceGen.Bpf

open Pairing

/-! ## The families' counters -/

namespace Family

def collision : Family → BpfStatKey
  | .file => .fileStateCollision
  | .syscall => .syscallStateCollision
  | .network => .networkStateCollision

def saveFail : Family → BpfStatKey
  | .file => .fileStateSaveFail
  | .syscall => .syscallStateSaveFail
  | .network => .networkStateSaveFail

def miss : Family → BpfStatKey
  | .file => .fileStateMiss
  | .syscall => .syscallStateMiss
  | .network => .networkStateMiss

/-- The number of records of the family submitted so far. -/
def submitted (k : Kernel) : Family → Nat
  | .file => (k.events.records.filterMap fileRecord?).length
  | .syscall => (k.events.records.filterMap syscallRecord?).length
  | .network => (k.events.records.filterMap networkRecord?).length

/-- The number of saved entries of the family that no exit has consumed yet. -/
def pending (k : Kernel) : Family → Nat
  | .file => KeyedMap.size k.fileEnterState
  | .syscall => KeyedMap.size k.syscallEnterState
  | .network => KeyedMap.size k.networkEnterState

end Family

/-! ## What is counted -/

section Tests
variable (maps : ProbeMaps)

/-- The delivery of an enter of the family that passes its gate. -/
def passesEnter : Family → Kernel → Step → Bool
  | .file, _, .deliver env (.enterFile kind _) => fileGate maps env kind
  | .syscall, _, .deliver env (.rawEnter _ _) => syscallGate maps env
  | .network, k, .deliver env (.enterNetwork kind args) => networkEnterGate maps env kind args k
  | _, _, _ => false

/-- The delivery of an exit of the family that passes its gate. -/
def passesExit : Family → Kernel → Step → Bool
  | .file, _, .deliver env (.exitFile kind _) => fileGate maps env kind
  | .syscall, _, .deliver env (.rawExit _ _) => syscallGate maps env
  | .network, _, .deliver env (.exitNetwork kind _) => networkGate maps env kind
  | _, _, _ => false

def failsAtEnter (F : Family) (k : Kernel) (step : Step) : Bool :=
  passesEnter maps F k step && reserveFails maps k step

def failsAtExit (F : Family) (k : Kernel) (step : Step) : Bool :=
  passesExit maps F k step && reserveFails maps k step

/-- A process handler finds no room for its record. -/
def failsInProcess (k : Kernel) : Step → Bool
  | .deliver env hook => (processKind? hook).isSome && reserveFails maps k (.deliver env hook)
  | _ => false

/-- The eviction of an entry that is there. -/
def evicts : Family → Kernel → Step → Bool
  | .file, k, .evictFile key => (k.fileEnterState.lookup key).isSome
  | .syscall, k, .evictSyscall key => (k.syscallEnterState.lookup key).isSome
  | .network, k, .evictNetwork key => (k.networkEnterState.lookup key).isSome
  | _, _, _ => false

/-- How often a test holds along a run. -/
def count (p : Kernel → Step → Bool) (steps : List Step) : Nat := tally (exec maps) {} p steps

theorem count_snoc (p : Kernel → Step → Bool) (steps : List Step) (step : Step) :
    count maps p (steps ++ [step]) = count maps p steps + (p (run maps steps) step).toNat :=
  tally_snoc _ _ _ _ _

/-- Every delivered handler finds its scratch slot, as an array map of one entry guarantees. -/
def ScratchFound (steps : List Step) : Prop :=
  ∀ env hook, .deliver env hook ∈ steps → env.scratchOk = true

end Tests

/-! ## The families' accounts -/

section Accounts
variable (maps : ProbeMaps)

/-- The two equations of one family. -/
structure Accounted (F : Family) (steps : List Step) : Prop where
  enters : count maps (passesEnter maps F) steps =
    F.submitted (run maps steps) + (run maps steps).bpfStats F.collision +
      (run maps steps).bpfStats F.saveFail + count maps (failsAtEnter maps F) steps +
      count maps (failsAtExit maps F) steps + F.pending (run maps steps) +
      count maps (evicts F) steps
  exits : count maps (passesExit maps F) steps =
    F.submitted (run maps steps) + (run maps steps).bpfStats F.miss +
      count maps (failsAtExit maps F) steps

/-- What the ledger counts of an operation is what the family counts of its step. -/
structure CountedAs {K P R : Type} [DecidableEq K] (F : Family) (k : Kernel) (step : Step)
    (t : Table K P R) (o : Op K P R) : Prop where
  entry : o.isEntry = passesEnter maps F k step
  exit : o.isExit = passesExit maps F k step
  refused : o.isRefused = failsAtEnter maps F k step
  dropped : o.isDropped t = failsAtExit maps F k step
  evicted : o.isEvicted t = evicts F k step

section Counted

attribute [local simp] passesEnter passesExit failsAtEnter failsAtExit evicts reserveFails reserves

theorem fileOp_counted (k : Kernel) (step : Step) :
    CountedAs maps .file k step (fileTable k) (fileOp maps step) := by
  cases step with
  | absent pidTgid hook => cases hook <;> exact ⟨rfl, rfl, rfl, rfl, rfl⟩
  | evictFile key => exact ⟨rfl, rfl, rfl, rfl, rfl⟩
  | evictSyscall key => exact ⟨rfl, rfl, rfl, rfl, rfl⟩
  | evictNetwork key => exact ⟨rfl, rfl, rfl, rfl, rfl⟩
  | deliver env hook =>
    cases hook with
    | enterFile kind args =>
      simp only [fileOp]
      split_ifs <;> constructor <;> simp_all
    | exitFile kind ret =>
      simp only [fileOp]
      split_ifs <;> constructor <;> simp_all [fileTable]
    | _ => exact ⟨rfl, rfl, rfl, rfl, rfl⟩

theorem syscallOp_counted (k : Kernel) (step : Step) :
    CountedAs maps .syscall k step (syscallTable k) (syscallOp maps step) := by
  cases step with
  | absent pidTgid hook => cases hook <;> exact ⟨rfl, rfl, rfl, rfl, rfl⟩
  | evictFile key => exact ⟨rfl, rfl, rfl, rfl, rfl⟩
  | evictSyscall key => exact ⟨rfl, rfl, rfl, rfl, rfl⟩
  | evictNetwork key => exact ⟨rfl, rfl, rfl, rfl, rfl⟩
  | deliver env hook =>
    cases hook with
    | rawEnter nr args =>
      simp only [syscallOp]
      split_ifs <;> constructor <;> simp_all
    | rawExit nr ret =>
      simp only [syscallOp]
      split_ifs <;> constructor <;> simp_all [syscallTable]
    | _ => exact ⟨rfl, rfl, rfl, rfl, rfl⟩

theorem networkOp_counted (k : Kernel) (step : Step)
    (hscratch : ∀ env hook, step = .deliver env hook → env.scratchOk = true) :
    CountedAs maps .network k step (networkTable k) (networkOp maps k step) := by
  cases step with
  | absent pidTgid hook => cases hook <;> exact ⟨rfl, rfl, rfl, rfl, rfl⟩
  | evictFile key => exact ⟨rfl, rfl, rfl, rfl, rfl⟩
  | evictSyscall key => exact ⟨rfl, rfl, rfl, rfl, rfl⟩
  | evictNetwork key => exact ⟨rfl, rfl, rfl, rfl, rfl⟩
  | deliver env hook =>
    cases hook with
    | enterNetwork kind args =>
      have hs := hscratch env _ rfl
      simp only [networkOp, hs]
      split_ifs <;> constructor <;> simp_all
    | exitNetwork kind ret =>
      simp only [networkOp]
      split_ifs <;> constructor <;> simp_all [networkTable]
    | _ => exact ⟨rfl, rfl, rfl, rfl, rfl⟩

end Counted

/-- A client's ledger in the family's own counts. -/
theorem ledger_of_counted {K P R : Type} [DecidableEq K] {F : Family} (c : Client Kernel Step K P R)
    (hstep : c.step = exec maps) {steps : List Step}
    (hcount : ∀ step ∈ steps, ∀ k, CountedAs maps F k step (c.table k) (c.op k step)) :
    (c.history {} steps).ledger =
      { enters := count maps (passesEnter maps F) steps
        exits := count maps (passesExit maps F) steps
        refused := count maps (failsAtEnter maps F) steps
        dropped := count maps (failsAtExit maps F) steps
        evicted := count maps (evicts F) steps } := by
  rw [Client.ledger_eq, hstep]
  simp only [count]
  congr 1
  · exact tally_congr _ _ _ fun step hs k => (hcount step hs k).entry
  · exact tally_congr _ _ _ fun step hs k => (hcount step hs k).exit
  · exact tally_congr _ _ _ fun step hs k => (hcount step hs k).refused
  · exact tally_congr _ _ _ fun step hs k => (hcount step hs k).dropped
  · exact tally_congr _ _ _ fun step hs k => (hcount step hs k).evicted

theorem accounted (F : Family) {steps : List Step} (hscratch : ScratchFound steps) :
    Accounted maps F steps := by
  cases F with
  | file =>
    have hb := Client.balanced (fileTable_init maps) steps
    rw [ledger_of_counted maps _ rfl fun step _ k => fileOp_counted maps k step] at hb
    exact ⟨hb.enters, hb.exits⟩
  | syscall =>
    have hb := Client.balanced (syscallTable_init maps) steps
    rw [ledger_of_counted maps _ rfl fun step _ k => syscallOp_counted maps k step] at hb
    exact ⟨hb.enters, hb.exits⟩
  | network =>
    have hb := Client.balanced (networkTable_init maps) steps
    rw [ledger_of_counted maps _ rfl fun step hs k =>
      networkOp_counted maps k step fun env hook he => hscratch env hook (he ▸ hs)] at hb
    exact ⟨hb.enters, hb.exits⟩

end Accounts

/-! ## Refused reservations -/

section Refusals
variable (maps : ProbeMaps)

/-- A refused reservation belongs to exactly one family, on exactly one side, or to a process
handler. -/
theorem reserveFails_split (k : Kernel) (step : Step) :
    (reserveFails maps k step).toNat =
      (failsAtEnter maps .file k step).toNat + (failsAtExit maps .file k step).toNat +
      (failsAtEnter maps .syscall k step).toNat + (failsAtExit maps .syscall k step).toNat +
      (failsAtEnter maps .network k step).toNat + (failsAtExit maps .network k step).toNat +
      (failsInProcess maps k step).toNat := by
  cases step with
  | deliver env hook =>
    cases hook <;>
      simp [failsAtEnter, failsAtExit, passesEnter, passesExit, failsInProcess, processKind?,
        reserveFails, reserves, Bool.and_assoc]
  | _ => rfl

theorem ringbufReserveFail_eq (steps : List Step) :
    (run maps steps).bpfStats .ringbufReserveFail =
      count maps (failsAtEnter maps .file) steps + count maps (failsAtExit maps .file) steps +
      count maps (failsAtEnter maps .syscall) steps + count maps (failsAtExit maps .syscall) steps +
      count maps (failsAtEnter maps .network) steps + count maps (failsAtExit maps .network) steps +
      count maps (failsInProcess maps) steps := by
  induction steps using List.reverseRecOn with
  | nil => rfl
  | append_singleton steps step ih =>
    have hsplit := reserveFails_split maps (run maps steps) step
    rw [run_snoc, (exec_moves maps _ step).fails, ih]
    simp only [count_snoc]
    cases hf : reserveFails maps (run maps steps) step <;>
      simp only [hf, Bool.toNat_true, Bool.toNat_false, Bool.false_eq_true, if_true, if_false]
        at hsplit ⊢ <;> omega

end Refusals

/-! ## The ring buffer -/

def RingOp.reserves (slot : Nat) : RingOp → Bool
  | .reserve s => s == slot
  | _ => false

/-- A submit or a discard of the slot. -/
def RingOp.settles (slot : Nat) : RingOp → Bool
  | .submit s _ | .discard s => s == slot
  | .reserve _ => false

/-- Every slot handed out was reserved once and submitted or discarded once, and no other slot was
touched. -/
def RingSettled (r : Ring) : Prop :=
  ∀ slot, r.log.countP (RingOp.reserves slot) = (if slot < r.next then 1 else 0) ∧
    r.log.countP (RingOp.settles slot) = (if slot < r.next then 1 else 0)

/-- Reserving the next slot and settling it at once. -/
theorem RingSettled.push {r : Ring} (h : RingSettled r) {e : RingOp}
    (hres : ∀ slot, e.reserves slot = false) (hset : ∀ slot, e.settles slot = (r.next == slot)) :
    RingSettled { next := r.next + 1, log := r.log ++ [.reserve r.next] ++ [e] } := by
  intro slot
  obtain ⟨h₁, h₂⟩ := h slot
  simp only [List.countP_append, h₁, h₂, List.countP_singleton, hres, hset]
  simp only [RingOp.reserves, RingOp.settles, beq_iff_eq, Bool.false_eq_true, if_false]
  constructor <;> split_ifs <;> omega

theorem RingSettled.step {r r' : Ring} (h : RingSettled r) (hr : r.Settles r') : RingSettled r' := by
  cases hr with
  | untouched => exact h
  | submitted record => exact h.push (fun _ => rfl) fun _ => rfl
  | discarded => exact h.push (fun _ => rfl) fun _ => rfl

theorem ringSettled_run (maps : ProbeMaps) (steps : List Step) :
    RingSettled (run maps steps).events := by
  induction steps using List.reverseRecOn with
  | nil => exact fun slot => ⟨rfl, rfl⟩
  | append_singleton steps step ih =>
    rw [run_snoc]
    exact ih.step (exec_moves maps _ step).ring

/-! ## The whole run -/

/-- **Conservation.** Along every run, each family's gated enters and exits are accounted for, the
refused reservations sum to their counter, no two records are made of one saved enter, and every
reserved record is submitted or discarded exactly once. -/
theorem kernel_conservation (maps : ProbeMaps) (steps : List Step)
    (hscratch : ScratchFound steps) :
    (∀ F, Accounted maps F steps) ∧
    (run maps steps).bpfStats .ringbufReserveFail =
      count maps (failsAtEnter maps .file) steps + count maps (failsAtExit maps .file) steps +
      count maps (failsAtEnter maps .syscall) steps + count maps (failsAtExit maps .syscall) steps +
      count maps (failsAtEnter maps .network) steps + count maps (failsAtExit maps .network) steps +
      count maps (failsInProcess maps) steps ∧
    (∃ enters : List Nat, enters.Nodup ∧
      List.Forall₂ ((fileClient maps).MadeFrom {} steps) enters
        ((run maps steps).events.records.filterMap fileRecord?)) ∧
    (∃ enters : List Nat, enters.Nodup ∧
      List.Forall₂ ((syscallClient maps).MadeFrom {} steps) enters
        ((run maps steps).events.records.filterMap syscallRecord?)) ∧
    (∃ enters : List Nat, enters.Nodup ∧
      List.Forall₂ ((networkClient maps).MadeFrom {} steps) enters
        ((run maps steps).events.records.filterMap networkRecord?)) ∧
    RingSettled (run maps steps).events :=
  ⟨fun F => accounted maps F hscratch, ringbufReserveFail_eq maps steps,
    Client.origins_nodup (fileTable_init maps) steps, Client.origins_nodup (syscallTable_init maps) steps,
    Client.origins_nodup (networkTable_init maps) steps, ringSettled_run maps steps⟩

/-- One `openat`, entered and exited. -/
theorem kernel_conservation_openat :
    ScratchFound [.deliver env7 (.enterFile .openat (Vector.replicate 6 0)),
      .deliver env7 (.exitFile .openat 3)] ∧
    Accounted allProbes .file [.deliver env7 (.enterFile .openat (Vector.replicate 6 0)),
      .deliver env7 (.exitFile .openat 3)] := by
  have hscratch : ScratchFound [.deliver env7 (.enterFile .openat (Vector.replicate 6 0)),
      .deliver env7 (.exitFile .openat 3)] := by
    intro env hook h
    simp only [List.mem_cons, Step.deliver.injEq, List.not_mem_nil, or_false] at h
    rcases h with ⟨rfl, -⟩ | ⟨rfl, -⟩ <;> rfl
  exact ⟨hscratch, (kernel_conservation allProbes _ hscratch).1 .file⟩

end ETraceGen.Bpf
