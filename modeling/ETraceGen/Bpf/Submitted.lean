import ETraceGen.Bpf.Gates

/-!
# Which records are submitted

The hits of a run decide it: one record for each process hook that is let in, and one for each exit that is let
through while its task's call is open. A call is opened by the first enter that is let in and finds room, and it is
open until an exit is let through or its entry is evicted.

* `OpenEnter` : the enter behind a saved payload;
* `fileEntry_iff`, `syscallEntry_iff`, `networkEntry_iff` : what the maps hold;
* `emitsNoLeftover_iff` : when no exit finds a leftover, by the hits alone;
* `Made` : a record, and the hits it comes from;
* `records_made` : the records of a run, all of them in their order.
-/

namespace ETraceGen.Bpf

open Pairing

/-! ## The enter behind a saved payload -/

section
variable (maps : ProbeMaps)

/-- The payload of the enter is saved, if the task has none in the slot. -/
structure Saves (k : Kernel) (env : HookEnv) (hook : Hook) (pidTgid : UInt64) (slot : Slot) : Prop where
  task : env.pidTgid = pidTgid
  enters : hook.entered? = some slot
  gate : passesEnter maps slot.family k (.deliver env hook) = true
  room : env.reserveOk = true ∧ env.updateOk = true
  scratch : slot.family = .network → env.scratchOk = true

/-- An exit that is let through completes the task's call. -/
def Step.Completes (pidTgid : UInt64) (slot : Slot) (step : Step) : Prop :=
  ∃ env hook, step = .deliver env hook ∧ env.pidTgid = pidTgid ∧ hook.exited? = some slot ∧
    hookGate maps env hook = true

/-- The loss of what the task has in the slot. -/
def Slot.eviction (pidTgid : UInt64) : Slot → Step
  | .file kind => .evictFile ⟨pidTgid, kind⟩
  | .syscall nr => .evictSyscall ⟨pidTgid, nr⟩
  | .network kind => .evictNetwork ⟨pidTgid, kind⟩

/-- Afterwards the task has nothing in the slot. -/
def Step.Clears (pidTgid : UInt64) (slot : Slot) (step : Step) : Prop :=
  step.Completes maps pidTgid slot ∨ step = slot.eviction pidTgid

/-- The enter whose payload the task has in the slot: the first one since the slot was last cleared. -/
structure OpenEnter (steps : List Step) (n : Nat) (enterEnv : HookEnv) (enter : Hook) (pidTgid : UInt64)
    (slot : Slot) : Prop where
  hit : steps[n]? = some (.deliver enterEnv enter)
  saves : Saves maps (run maps (steps.take n)) enterEnv enter pidTgid slot
  kept : ∀ m step, n < m → steps[m]? = some step → ¬step.Clears maps pidTgid slot
  first : ∀ m env hook, m < n → steps[m]? = some (.deliver env hook) →
    Saves maps (run maps (steps.take m)) env hook pidTgid slot →
    ∃ j step, m < j ∧ j < n ∧ steps[j]? = some step ∧ step.Clears maps pidTgid slot

variable {maps} {steps : List Step} {n : Nat} {enterEnv env : HookEnv} {enter hook : Hook} {pidTgid : UInt64}
  {slot : Slot}

theorem OpenEnter.lt (h : OpenEnter maps steps n enterEnv enter pidTgid slot) : n < steps.length :=
  (List.getElem?_eq_some_iff.mp h.hit).1

theorem OpenEnter.unique {n' : Nat} {enterEnv' : HookEnv} {enter' : Hook}
    (h : OpenEnter maps steps n enterEnv enter pidTgid slot)
    (h' : OpenEnter maps steps n' enterEnv' enter' pidTgid slot) : n = n' := by
  rcases Nat.lt_trichotomy n n' with hlt | heq | hgt
  · obtain ⟨j, step, hj, -, hstep, hclears⟩ := h'.first n enterEnv enter hlt h.hit h.saves
    exact absurd hclears (h.kept j step hj hstep)
  · exact heq
  · obtain ⟨j, step, hj, -, hstep, hclears⟩ := h.first n' enterEnv' enter' hgt h'.hit h'.saves
    exact absurd hclears (h'.kept j step hj hstep)

/-! ### In the tables -/

/-- A family's table holds the payload of the open enter. -/
theorem holds_iff {K P R : Type} [DecidableEq K] {c : Client Kernel Step K P R} {key : K}
    {payload? : HookEnv → Hook → Option P} (hrun : ∀ steps, c.run {} steps = run maps steps)
    (henter : ∀ k step p, c.op k step = .enter key p true ↔ ∃ env hook, step = .deliver env hook ∧
      Saves maps k env hook pidTgid slot ∧ payload? env hook = some p)
    (hsome : ∀ env hook, hook.entered? = some slot → (payload? env hook).isSome = true)
    (hremove : ∀ k step, (c.op k step).removesKey key ↔ step.Clears maps pidTgid slot) {p : P} :
    c.Holds {} steps n key p ↔ ∃ enterEnv enter, OpenEnter maps steps n enterEnv enter pidTgid slot ∧
      payload? enterEnv enter = some p := by
  constructor
  · rintro ⟨⟨step, hstep, hop⟩, hkept, hfirst⟩
    rw [hrun] at hop
    obtain ⟨enterEnv, enter, rfl, hsaves, hp⟩ := (henter _ _ _).mp hop
    refine ⟨enterEnv, enter, ⟨hstep, hsaves, ?_, ?_⟩, hp⟩
    · exact fun m step hm hstep hclears => hkept m _ hm ⟨step, hstep, rfl⟩ ((hremove _ _).mpr hclears)
    · intro m env hook hm hhit hsaves
      obtain ⟨q, hq⟩ := Option.isSome_iff_exists.mp (hsome env hook hsaves.enters)
      obtain ⟨j, -, hmj, hjn, ⟨step, hstep, rfl⟩, hremoves⟩ :=
        hfirst m q hm ⟨_, hhit, (henter _ _ _).mpr ⟨env, hook, rfl, hrun _ ▸ hsaves, hq⟩⟩
      exact ⟨j, step, hmj, hjn, hstep, (hremove _ _).mp hremoves⟩
  · rintro ⟨enterEnv, enter, ⟨hhit, hsaves, hkept, hfirst⟩, hp⟩
    refine ⟨⟨_, hhit, (henter _ _ _).mpr ⟨enterEnv, enter, rfl, hrun _ ▸ hsaves, hp⟩⟩, ?_, ?_⟩
    · rintro m - hm ⟨step, hstep, rfl⟩ hremoves
      exact hkept m step hm hstep ((hremove _ _).mp hremoves)
    · rintro m q hm ⟨step, hstep, hop⟩
      rw [hrun] at hop
      obtain ⟨env, hook, rfl, hsaves, -⟩ := (henter _ _ _).mp hop
      obtain ⟨j, step, hmj, hjn, hstep, hclears⟩ := hfirst m env hook hm hstep hsaves
      exact ⟨j, _, hmj, hjn, ⟨step, hstep, rfl⟩, (hremove _ _).mpr hclears⟩

def filePayload? (env : HookEnv) : Hook → Option FileEvent
  | .enterFile kind args => some (filePayload env kind args)
  | _ => none

def syscallPayload? (env : HookEnv) : Hook → Option SyscallEvent
  | .rawEnter nr args => some (syscallPayload env nr args)
  | _ => none

def networkPayload? (env : HookEnv) : Hook → Option NetworkStateValue
  | .enterNetwork kind args => some (networkPayload env kind args)
  | _ => none

theorem filePayload?_isSome {kind : FileEventKind} (h : hook.entered? = some (.file kind)) :
    (filePayload? env hook).isSome = true := by
  cases hook <;> first | rfl | cases h

theorem syscallPayload?_isSome {nr : Int32} (h : hook.entered? = some (.syscall nr)) :
    (syscallPayload? env hook).isSome = true := by
  cases hook <;> first | rfl | cases h

theorem networkPayload?_isSome {kind : NetworkEventKind} (h : hook.entered? = some (.network kind)) :
    (networkPayload? env hook).isSome = true := by
  cases hook <;> first | rfl | cases h

theorem fileOp_enter_iff (k : Kernel) {step : Step} {kind : FileEventKind} {p : FileEvent} :
    fileOp maps step = .enter ⟨pidTgid, kind⟩ p true ↔ ∃ env hook, step = .deliver env hook ∧
      Saves maps k env hook pidTgid (.file kind) ∧ filePayload? env hook = some p := by
  constructor
  · intro h
    obtain ⟨env, args, rfl, rfl, rfl⟩ := fileOp_eq_enter maps h
    rw [fileOp] at h
    split_ifs at h with hshut hroom
    have hgate : fileGate maps env kind = true := by simpa using hshut
    obtain ⟨-, -, hupdate⟩ := Op.enter.inj h
    exact ⟨env, _, rfl, ⟨rfl, rfl, hgate, ⟨hroom, hupdate⟩, fun h => by cases h⟩, rfl⟩
  · rintro ⟨env, hook, rfl, ⟨rfl, henters, hgate, ⟨hroom, hupdate⟩, -⟩, hp⟩
    cases hook with
    | enterFile kind' args =>
      cases henters
      cases hp
      have hopen : fileGate maps env kind = true := hgate
      simp [fileOp, hopen, hroom, hupdate, makeFileKey]
    | _ => cases henters

theorem syscallOp_enter_iff (k : Kernel) {step : Step} {nr : Int32} {p : SyscallEvent} :
    syscallOp maps step = .enter ⟨pidTgid, nr⟩ p true ↔ ∃ env hook, step = .deliver env hook ∧
      Saves maps k env hook pidTgid (.syscall nr) ∧ syscallPayload? env hook = some p := by
  constructor
  · intro h
    obtain ⟨env, args, rfl, rfl, rfl⟩ := syscallOp_eq_enter maps h
    rw [syscallOp] at h
    split_ifs at h with hshut hroom
    have hgate : syscallGate maps env = true := by simpa using hshut
    obtain ⟨-, -, hupdate⟩ := Op.enter.inj h
    exact ⟨env, _, rfl, ⟨rfl, rfl, hgate, ⟨hroom, hupdate⟩, fun h => by cases h⟩, rfl⟩
  · rintro ⟨env, hook, rfl, ⟨rfl, henters, hgate, ⟨hroom, hupdate⟩, -⟩, hp⟩
    cases hook with
    | rawEnter nr' args =>
      cases henters
      cases hp
      have hopen : syscallGate maps env = true := hgate
      simp [syscallOp, hopen, hroom, hupdate, makeSyscallKey]
    | _ => cases henters

theorem networkOp_enter_iff (k : Kernel) {step : Step} {kind : NetworkEventKind} {p : NetworkStateValue} :
    networkOp maps k step = .enter ⟨pidTgid, kind⟩ p true ↔ ∃ env hook, step = .deliver env hook ∧
      Saves maps k env hook pidTgid (.network kind) ∧ networkPayload? env hook = some p := by
  constructor
  · intro h
    obtain ⟨env, args, rfl, rfl, rfl, hroom⟩ := networkOp_eq_enter maps h
    rw [networkOp] at h
    split_ifs at h with hshut hfull hscratch
    have hgate : networkEnterGate maps env kind args k = true := by simpa using hshut
    obtain ⟨-, -, hupdate⟩ := Op.enter.inj h
    exact ⟨env, _, rfl, ⟨rfl, rfl, hgate, ⟨hroom, hupdate⟩, fun _ => hscratch⟩, rfl⟩
  · rintro ⟨env, hook, rfl, ⟨rfl, henters, hgate, ⟨hroom, hupdate⟩, hscratch⟩, hp⟩
    cases hook with
    | enterNetwork kind' args =>
      cases henters
      cases hp
      have hopen : networkEnterGate maps env kind args k = true := hgate
      simp [networkOp, hopen, hroom, hupdate, hscratch rfl, makeNetworkKey]
    | _ => cases henters

theorem fileOp_removes_iff {step : Step} {kind : FileEventKind} :
    (fileOp maps step).removesKey ⟨pidTgid, kind⟩ ↔ step.Clears maps pidTgid (.file kind) := by
  constructor
  · intro h
    cases step with
    | deliver env hook =>
      cases hook with
      | enterFile kind' args =>
        rw [fileOp] at h
        split_ifs at h <;> exact h.elim
      | exitFile kind' ret =>
        rw [fileOp] at h
        split_ifs at h with hshut
        · exact h.elim
        · obtain ⟨rfl, rfl⟩ := FileStateKey.mk.inj h
          have hgate : fileGate maps env kind' = true := by simpa using hshut
          exact Or.inl ⟨env, _, rfl, rfl, rfl, hgate⟩
      | _ => exact h.elim
    | absent p hook => cases hook <;> exact h.elim
    | evictFile key => exact Or.inr (congrArg Step.evictFile h)
    | _ => exact h.elim
  · rintro (⟨env, hook, rfl, rfl, hexit, hgate⟩ | rfl)
    · cases hook with
      | exitFile kind' ret =>
        cases hexit
        have hopen : fileGate maps env kind = true := hgate
        simp [fileOp, hopen, Op.removesKey, makeFileKey]
      | _ => cases hexit
    · rfl

theorem syscallOp_removes_iff {step : Step} {nr : Int32} :
    (syscallOp maps step).removesKey ⟨pidTgid, nr⟩ ↔ step.Clears maps pidTgid (.syscall nr) := by
  constructor
  · intro h
    cases step with
    | deliver env hook =>
      cases hook with
      | rawEnter nr' args =>
        rw [syscallOp] at h
        split_ifs at h <;> exact h.elim
      | rawExit nr' ret =>
        rw [syscallOp] at h
        split_ifs at h with hshut
        · exact h.elim
        · obtain ⟨rfl, rfl⟩ := SyscallStateKey.mk.inj h
          have hgate : syscallGate maps env = true := by simpa using hshut
          exact Or.inl ⟨env, _, rfl, rfl, rfl, hgate⟩
      | _ => exact h.elim
    | absent p hook => cases hook <;> exact h.elim
    | evictSyscall key => exact Or.inr (congrArg Step.evictSyscall h)
    | _ => exact h.elim
  · rintro (⟨env, hook, rfl, rfl, hexit, hgate⟩ | rfl)
    · cases hook with
      | rawExit nr' ret =>
        cases hexit
        have hopen : syscallGate maps env = true := hgate
        simp [syscallOp, hopen, Op.removesKey, makeSyscallKey]
      | _ => cases hexit
    · rfl

theorem networkOp_removes_iff (k : Kernel) {step : Step} {kind : NetworkEventKind} :
    (networkOp maps k step).removesKey ⟨pidTgid, kind⟩ ↔ step.Clears maps pidTgid (.network kind) := by
  constructor
  · intro h
    cases step with
    | deliver env hook =>
      cases hook with
      | enterNetwork kind' args =>
        rw [networkOp] at h
        split_ifs at h <;> exact h.elim
      | exitNetwork kind' ret =>
        rw [networkOp] at h
        split_ifs at h with hshut
        · exact h.elim
        · obtain ⟨rfl, rfl⟩ := NetworkStateKey.mk.inj h
          have hgate : networkGate maps env kind' = true := by simpa using hshut
          exact Or.inl ⟨env, _, rfl, rfl, rfl, hgate⟩
      | _ => exact h.elim
    | absent p hook => cases hook <;> exact h.elim
    | evictNetwork key => exact Or.inr (congrArg Step.evictNetwork h)
    | _ => exact h.elim
  · rintro (⟨env, hook, rfl, rfl, hexit, hgate⟩ | rfl)
    · cases hook with
      | exitNetwork kind' ret =>
        cases hexit
        have hopen : networkGate maps env kind = true := hgate
        simp [networkOp, hopen, Op.removesKey, makeNetworkKey]
      | _ => cases hexit
    · rfl

theorem file_holds_iff {kind : FileEventKind} {state : FileEvent} :
    (fileClient maps).Holds {} steps n ⟨pidTgid, kind⟩ state ↔ ∃ enterEnv enter,
      OpenEnter maps steps n enterEnv enter pidTgid (.file kind) ∧ filePayload? enterEnv enter = some state :=
  holds_iff (fun _ => rfl) (fun k _ _ => fileOp_enter_iff k) (fun _ _ => filePayload?_isSome) fun _ _ => fileOp_removes_iff

theorem syscall_holds_iff {nr : Int32} {state : SyscallEvent} :
    (syscallClient maps).Holds {} steps n ⟨pidTgid, nr⟩ state ↔ ∃ enterEnv enter,
      OpenEnter maps steps n enterEnv enter pidTgid (.syscall nr) ∧ syscallPayload? enterEnv enter = some state :=
  holds_iff (fun _ => rfl) (fun k _ _ => syscallOp_enter_iff k) (fun _ _ => syscallPayload?_isSome)
    fun _ _ => syscallOp_removes_iff

theorem network_holds_iff {kind : NetworkEventKind} {state : NetworkStateValue} :
    (networkClient maps).Holds {} steps n ⟨pidTgid, kind⟩ state ↔ ∃ enterEnv enter,
      OpenEnter maps steps n enterEnv enter pidTgid (.network kind) ∧
        networkPayload? enterEnv enter = some state :=
  holds_iff (fun _ => rfl) (fun k _ _ => networkOp_enter_iff k) (fun _ _ => networkPayload?_isSome)
    fun k _ => networkOp_removes_iff k

theorem fileEntry_iff {kind : FileEventKind} {state : FileEvent} :
    (run maps steps).fileEnterState.lookup ⟨pidTgid, kind⟩ = some state ↔ ∃ n enterEnv enter,
      OpenEnter maps steps n enterEnv enter pidTgid (.file kind) ∧ filePayload? enterEnv enter = some state :=
  (Client.lookup_iff (fileTable_init maps) steps).trans (exists_congr fun _ => file_holds_iff)

theorem syscallEntry_iff {nr : Int32} {state : SyscallEvent} :
    (run maps steps).syscallEnterState.lookup ⟨pidTgid, nr⟩ = some state ↔ ∃ n enterEnv enter,
      OpenEnter maps steps n enterEnv enter pidTgid (.syscall nr) ∧ syscallPayload? enterEnv enter = some state :=
  (Client.lookup_iff (syscallTable_init maps) steps).trans (exists_congr fun _ => syscall_holds_iff)

theorem networkEntry_iff {kind : NetworkEventKind} {state : NetworkStateValue} :
    (run maps steps).networkEnterState.lookup ⟨pidTgid, kind⟩ = some state ↔ ∃ n enterEnv enter,
      OpenEnter maps steps n enterEnv enter pidTgid (.network kind) ∧
        networkPayload? enterEnv enter = some state :=
  (Client.lookup_iff (networkTable_init maps) steps).trans (exists_congr fun _ => network_holds_iff)

/-- Something is saved just if a call is open. -/
theorem entry_isSome_iff {P : Type} {entry : Option P} {payload? : HookEnv → Hook → Option P}
    (hentry : ∀ state, entry = some state ↔ ∃ n enterEnv enter,
      OpenEnter maps steps n enterEnv enter pidTgid slot ∧ payload? enterEnv enter = some state)
    (hsome : ∀ enterEnv enter, enter.entered? = some slot → (payload? enterEnv enter).isSome = true) :
    entry.isSome = true ↔ ∃ n enterEnv enter, OpenEnter maps steps n enterEnv enter pidTgid slot := by
  rw [Option.isSome_iff_exists]
  constructor
  · rintro ⟨state, hstate⟩
    obtain ⟨n, enterEnv, enter, hopen, -⟩ := (hentry state).mp hstate
    exact ⟨n, enterEnv, enter, hopen⟩
  · rintro ⟨n, enterEnv, enter, hopen⟩
    obtain ⟨state, hstate⟩ := Option.isSome_iff_exists.mp (hsome enterEnv enter hopen.saves.enters)
    exact ⟨state, (hentry state).mpr ⟨n, enterEnv, enter, hopen, hstate⟩⟩

/-- An exit gets to reserve its record if it is let through while a call of its task is open. -/
theorem reserves_exit_iff (hexit : hook.exited? = some slot) :
    reserves maps (run maps steps) env hook = true ↔ hookGate maps env hook = true ∧
      ∃ n enterEnv enter, OpenEnter maps steps n enterEnv enter env.pidTgid slot := by
  cases hook with
  | exitFile kind ret =>
    cases hexit
    rw [reserves, Bool.and_eq_true]
    exact and_congr_right fun _ => entry_isSome_iff (fun _ => fileEntry_iff) fun _ _ => filePayload?_isSome
  | rawExit nr ret =>
    cases hexit
    rw [reserves, Bool.and_eq_true]
    exact and_congr_right fun _ => entry_isSome_iff (fun _ => syscallEntry_iff) fun _ _ => syscallPayload?_isSome
  | exitNetwork kind ret =>
    cases hexit
    rw [reserves, Bool.and_eq_true]
    exact and_congr_right fun _ => entry_isSome_iff (fun _ => networkEntry_iff) fun _ _ => networkPayload?_isSome
  | _ => cases hexit

/-! ### What is left over -/

/-- A key is entered again where the task enters the slot again. -/
theorem entersKey_iff {K P R : Type} [DecidableEq K] {c : Client Kernel Step K P R} {key : K}
    (henters : ∀ k step, (c.op k step).entersKey key ↔ step.Enters pidTgid slot) :
    (∃ m o, n < m ∧ Client.OpAt c {} steps m o ∧ o.entersKey key) ↔
      ∃ m step, n < m ∧ steps[m]? = some step ∧ step.Enters pidTgid slot := by
  constructor
  · rintro ⟨m, o, hm, ⟨step, hstep, rfl⟩, hagain⟩
    exact ⟨m, step, hm, hstep, (henters _ _).mp hagain⟩
  · rintro ⟨m, step, hm, hstep, hagain⟩
    exact ⟨m, _, hm, ⟨step, hstep, rfl⟩, (henters _ _).mpr hagain⟩

/-- What the open enter has saved is left over once the task has entered the slot again. -/
theorem OpenEnter.leftover_iff (h : OpenEnter maps steps n enterEnv enter pidTgid slot) :
    leftover maps steps pidTgid slot = true ↔
      ∃ m step, n < m ∧ steps[m]? = some step ∧ step.Enters pidTgid slot := by
  cases slot with
  | file kind =>
    have hsome : (filePayload? enterEnv enter).isSome = true := filePayload?_isSome h.saves.enters
    obtain ⟨state, hstate⟩ := Option.isSome_iff_exists.mp hsome
    have hholds := file_holds_iff.mpr ⟨enterEnv, enter, h, hstate⟩
    exact (Client.leftover_iff (fileTable_init maps) steps hholds).trans
      (entersKey_iff fun _ _ => fileOp_entersKey_iff maps)
  | syscall nr =>
    have hsome : (syscallPayload? enterEnv enter).isSome = true := syscallPayload?_isSome h.saves.enters
    obtain ⟨state, hstate⟩ := Option.isSome_iff_exists.mp hsome
    have hholds := syscall_holds_iff.mpr ⟨enterEnv, enter, h, hstate⟩
    exact (Client.leftover_iff (syscallTable_init maps) steps hholds).trans
      (entersKey_iff fun _ _ => syscallOp_entersKey_iff maps)
  | network kind =>
    have hsome : (networkPayload? enterEnv enter).isSome = true := networkPayload?_isSome h.saves.enters
    obtain ⟨state, hstate⟩ := Option.isSome_iff_exists.mp hsome
    have hholds := network_holds_iff.mpr ⟨enterEnv, enter, h, hstate⟩
    exact (Client.leftover_iff (networkTable_init maps) steps hholds).trans
      (entersKey_iff fun _ _ => networkOp_entersKey_iff maps)

/-- **No exit finds a leftover** just if no task enters a slot again between the open enter and an exit that is let
through with room. -/
theorem emitsNoLeftover_iff (maps : ProbeMaps) (steps : List Step) :
    EmitsNoLeftover maps steps ↔ ∀ i env exit slot n enterEnv enter,
      steps[i]? = some (.deliver env exit) → exit.exited? = some slot → hookGate maps env exit = true →
      env.reserveOk = true → OpenEnter maps (steps.take i) n enterEnv enter env.pidTgid slot →
      ∀ m step, n < m → m < i → steps[m]? = some step → ¬step.Enters env.pidTgid slot := by
  constructor
  · intro hfresh i env exit slot n enterEnv enter hhit hexit hgate hroom hopen m step hnm hmi hstep hagain
    have hsplit : steps = steps.take i ++ .deliver env exit :: steps.drop (i + 1) := by
      obtain ⟨hlt, hget⟩ := List.getElem?_eq_some_iff.mp hhit
      rw [← hget, ← List.drop_eq_getElem_cons hlt, List.take_append_drop]
    have hreserves := (reserves_exit_iff hexit).mpr ⟨hgate, n, enterEnv, enter, hopen⟩
    have hleft := hopen.leftover_iff.mpr ⟨m, step, hnm, (List.getElem?_take_of_lt hmi).trans hstep, hagain⟩
    rw [hfresh _ env exit _ slot hsplit hexit hreserves hroom] at hleft
    cases hleft
  · rintro h before env exit after slot rfl hexit hreserves hroom
    obtain ⟨hgate, n, enterEnv, enter, hopen⟩ := (reserves_exit_iff hexit).mp hreserves
    by_contra hleft
    obtain ⟨m, step, hnm, hstep, hagain⟩ := hopen.leftover_iff.mp (Bool.eq_true_of_not_eq_false hleft)
    obtain ⟨hm, -⟩ := List.getElem?_eq_some_iff.mp hstep
    refine h before.length env exit slot n enterEnv enter (by simp) hexit hgate hroom ?_ m step hnm hm
      ((List.getElem?_append_left hm).trans hstep) hagain
    rwa [List.take_left]

/-! ## The hits behind a record -/

theorem record_of_gated {gate : Bool} {P : Type} {family : Family} {entry : Option P} {dropped : Effect}
    {finish : P → Effect} {record : EventVariant} (hdropped : dropped.ring.record? = none) :
    (gated gate (emitEffect env family entry dropped finish)).ring.record? = some record ↔
      gate = true ∧ env.reserveOk = true ∧ ∃ state, entry = some state ∧
        (finish state).ring.record? = some record := by
  cases gate with
  | false => exact ⟨nofun, fun h => absurd h.1 Bool.false_ne_true⟩
  | true =>
    cases entry with
    | none => exact ⟨nofun, fun ⟨_, _, state, h, _⟩ => absurd h.symm (Option.some_ne_none state)⟩
    | some state =>
      show (if env.reserveOk then finish state else { dropped with stat := _ }).ring.record? = some record ↔ _
      split_ifs with hroom
      · exact ⟨fun h => ⟨rfl, hroom, state, rfl, h⟩, fun ⟨_, _, _, heq, h⟩ => Option.some.inj heq ▸ h⟩
      · exact ⟨fun h => absurd (hdropped.symm.trans h).symm (Option.some_ne_none record),
          fun h => absurd h.2.1 hroom⟩

/-- The saved payload, finished, is what is made of the open enter. -/
theorem finished_iff {P : Type} {entry : Option P} {payload? : HookEnv → Hook → Option P} {finish : P → EventVariant}
    {record : EventVariant}
    (hentry : ∀ state, entry = some state ↔ ∃ n enterEnv enter,
      OpenEnter maps steps n enterEnv enter pidTgid slot ∧ payload? enterEnv enter = some state)
    (hmake : ∀ enterEnv enter, enter.entered? = some slot →
      makeRecord enterEnv enter env hook = (payload? enterEnv enter).map finish) :
    (∃ state, entry = some state ∧ some (finish state) = some record) ↔ ∃ n enterEnv enter,
      OpenEnter maps steps n enterEnv enter pidTgid slot ∧ makeRecord enterEnv enter env hook = some record := by
  constructor
  · rintro ⟨state, hstate, hrecord⟩
    obtain ⟨n, enterEnv, enter, hopen, hp⟩ := (hentry state).mp hstate
    exact ⟨n, enterEnv, enter, hopen, by rw [hmake _ _ hopen.saves.enters, hp, Option.map_some, hrecord]⟩
  · rintro ⟨n, enterEnv, enter, hopen, hmade⟩
    rw [hmake _ _ hopen.saves.enters] at hmade
    obtain ⟨state, hp, rfl⟩ := Option.map_eq_some_iff.mp hmade
    exact ⟨state, (hentry state).mpr ⟨n, enterEnv, enter, hopen, hp⟩, rfl⟩

/-- What an exit submits. -/
theorem exit_record_iff {record : EventVariant} (hexit : hook.exited? = some slot) :
    (effect maps (run maps steps) (.deliver env hook)).ring.record? = some record ↔
      hookGate maps env hook = true ∧ env.reserveOk = true ∧ ∃ n enterEnv enter,
        OpenEnter maps steps n enterEnv enter env.pidTgid slot ∧
          makeRecord enterEnv enter env hook = some record := by
  cases hook with
  | exitFile kind ret =>
    cases hexit
    refine (record_of_gated rfl).trans (and_congr_right fun _ => and_congr_right fun _ => ?_)
    refine finished_iff (fun _ => fileEntry_iff) fun enterEnv enter _ => ?_
    cases enter <;> rfl
  | rawExit nr ret =>
    cases hexit
    refine (record_of_gated rfl).trans (and_congr_right fun _ => and_congr_right fun _ => ?_)
    refine finished_iff (fun _ => syscallEntry_iff) fun enterEnv enter _ => ?_
    cases enter <;> rfl
  | exitNetwork kind ret =>
    cases hexit
    refine (record_of_gated rfl).trans (and_congr_right fun _ => and_congr_right fun _ => ?_)
    refine finished_iff (fun _ => networkEntry_iff) fun enterEnv enter henters => ?_
    cases enter <;> first | (cases henters; rfl) | cases henters
  | _ => cases hexit

theorem process_effect {kind : ProcessEventKind} (hkind : processKind? hook = some kind) (k : Kernel) :
    effect maps k (.deliver env hook) = gated (processGate maps env kind) (reportEffect env hook kind) := by
  cases hook <;> cases hkind <;> rfl

/-- What a process hook submits. -/
theorem process_record_iff {kind : ProcessEventKind} {record : EventVariant} (hkind : processKind? hook = some kind)
    (k : Kernel) : (effect maps k (.deliver env hook)).ring.record? = some record ↔
      processGate maps env kind = true ∧ env.reserveOk = true ∧ record = .process (processRecord env hook kind) := by
  rw [process_effect hkind, gated, reportEffect]
  cases processGate maps env kind <;> cases env.reserveOk <;> simp [RingMove.record?, eq_comm]

/-- No other step submits a record. -/
theorem hook_of_record {k : Kernel} {step : Step} {record : EventVariant}
    (h : (effect maps k step).ring.record? = some record) :
    ∃ env hook, step = .deliver env hook ∧
      ((∃ kind, processKind? hook = some kind) ∨ ∃ slot, hook.exited? = some slot) := by
  cases step with
  | deliver env hook =>
    rcases hook.kinds with ⟨slot, henters⟩ | hexit | hkind
    · have hsame : (exec maps k (.deliver env hook)).events.records = k.events.records :=
        handle_enter_records maps env henters k
      rw [exec_eq] at hsame
      have hring := (RingMove.records_apply (effect maps k (.deliver env hook)).ring k.events).symm.trans hsame
      rw [h, List.append_right_eq_self] at hring
      cases hring
    · exact ⟨env, hook, rfl, Or.inr hexit⟩
    · exact ⟨env, hook, rfl, Or.inl hkind⟩
  | _ => cases h

/-- The position of the hit that submitted a record, and of the enter if the record is of a call. -/
structure RecordOrigin where
  hit : Nat
  entered : Option Nat

/-- The hits are in order, and no enter is named twice. -/
structure InTurn (origins : List RecordOrigin) : Prop where
  ordered : (origins.map RecordOrigin.hit).Pairwise (· < ·)
  once : (origins.filterMap RecordOrigin.entered).Nodup

variable (maps) in
/-- The record comes from these hits: of a call, the enter is the open one. -/
inductive Made (steps : List Step) : RecordOrigin → EventVariant → Prop where
  | reported {i : Nat} {env : HookEnv} {hook : Hook} {kind : ProcessEventKind}
    (hhit : steps[i]? = some (.deliver env hook)) (hkind : processKind? hook = some kind)
    (hgate : processGate maps env kind = true) (hroom : env.reserveOk = true) :
    Made steps ⟨i, none⟩ (.process (processRecord env hook kind))
  | completed {i n : Nat} {env enterEnv : HookEnv} {hook enter : Hook} {slot : Slot} {record : EventVariant}
    (hhit : steps[i]? = some (.deliver env hook)) (hexit : hook.exited? = some slot)
    (hgate : hookGate maps env hook = true) (hroom : env.reserveOk = true)
    (hopen : OpenEnter maps (steps.take i) n enterEnv enter env.pidTgid slot)
    (hmade : makeRecord enterEnv enter env hook = some record) : Made steps ⟨i, some n⟩ record

section
variable {o o' : RecordOrigin} {record record' : EventVariant}

theorem Made.lt (h : Made maps steps o record) : o.hit < steps.length := by
  cases h with
  | reported hhit => exact (List.getElem?_eq_some_iff.mp hhit).1
  | completed hhit => exact (List.getElem?_eq_some_iff.mp hhit).1

/-- What is told of a run is told of every run that continues it, and nothing more about its hits. -/
theorem made_snoc_iff (step : Step) (hlt : o.hit < steps.length) :
    Made maps (steps ++ [step]) o record ↔ Made maps steps o record := by
  constructor
  · intro h
    cases h with
    | reported hhit hkind hgate hroom =>
      exact .reported ((List.getElem?_append_left hlt).symm.trans hhit) hkind hgate hroom
    | completed hhit hexit hgate hroom hopen hmade =>
      rw [List.take_append_of_le_length hlt.le] at hopen
      exact .completed ((List.getElem?_append_left hlt).symm.trans hhit) hexit hgate hroom hopen hmade
  · intro h
    cases h with
    | reported hhit hkind hgate hroom =>
      exact .reported ((List.getElem?_append_left hlt).trans hhit) hkind hgate hroom
    | completed hhit hexit hgate hroom hopen hmade =>
      refine .completed ((List.getElem?_append_left hlt).trans hhit) hexit hgate hroom ?_ hmade
      rw [List.take_append_of_le_length hlt.le]
      exact hopen

/-- A record is submitted by the last hit just if it comes from it. -/
theorem made_last_iff {step : Step} : (∃ entered, Made maps (steps ++ [step]) ⟨steps.length, entered⟩ record) ↔
    (effect maps (run maps steps) step).ring.record? = some record := by
  constructor
  · rintro ⟨entered, h⟩
    cases h with
    | reported hhit hkind hgate hroom =>
      obtain rfl := Option.some.inj (List.getElem?_concat_length.symm.trans hhit)
      exact (process_record_iff hkind _).mpr ⟨hgate, hroom, rfl⟩
    | completed hhit hexit hgate hroom hopen hmade =>
      obtain rfl := Option.some.inj (List.getElem?_concat_length.symm.trans hhit)
      rw [List.take_left] at hopen
      exact (exit_record_iff hexit).mpr ⟨hgate, hroom, _, _, _, hopen, hmade⟩
  · intro h
    obtain ⟨env, hook, rfl, ⟨kind, hkind⟩ | ⟨slot, hexit⟩⟩ := hook_of_record h
    · obtain ⟨hgate, hroom, rfl⟩ := (process_record_iff hkind _).mp h
      exact ⟨none, .reported List.getElem?_concat_length hkind hgate hroom⟩
    · obtain ⟨hgate, hroom, n, enterEnv, enter, hopen, hmade⟩ := (exit_record_iff hexit).mp h
      exact ⟨some n, .completed List.getElem?_concat_length hexit hgate hroom (by rwa [List.take_left]) hmade⟩

/-- A hit makes one record at most, of one enter. -/
theorem Made.unique (h : Made maps steps o record) (h' : Made maps steps o' record') (hhit : o.hit = o'.hit) :
    o = o' ∧ record = record' := by
  cases h with
  | reported hstep hkind =>
    cases h' with
    | reported hstep' hkind' =>
      cases hhit
      cases hstep.symm.trans hstep'
      cases hkind.symm.trans hkind'
      exact ⟨rfl, rfl⟩
    | @completed i' n' env' enterEnv' hook' enter' slot' record' hstep' hexit' =>
      cases hhit
      cases hstep.symm.trans hstep'
      rw [processKind?_of_exited hexit'] at hkind
      cases hkind
  | @completed i n env enterEnv hook enter slot record hstep hexit hgate hroom hopen hmade =>
    cases h' with
    | reported hstep' hkind' =>
      cases hhit
      cases hstep.symm.trans hstep'
      rw [processKind?_of_exited hexit] at hkind'
      cases hkind'
    | @completed i' n' env' enterEnv' hook' enter' slot' record' hstep' hexit' hgate' hroom' hopen' hmade' =>
      cases hhit
      cases hstep.symm.trans hstep'
      cases hexit.symm.trans hexit'
      obtain rfl := hopen.unique hopen'
      cases hopen.hit.symm.trans hopen'.hit
      exact ⟨rfl, Option.some.inj (hmade.symm.trans hmade')⟩

/-- The exit that made the first of two records has taken out what its enter saved. -/
theorem Made.entered_ne (h : Made maps steps o record) (h' : Made maps steps o' record') (hlt : o.hit < o'.hit)
    {n : Nat} (hn : o.entered = some n) : o'.entered ≠ some n := by
  intro hn'
  cases h with
  | reported => cases hn
  | @completed i m env enterEnv hook enter slot record hhit hexit hgate hroom hopen hmade =>
    cases hn
    cases h' with
    | reported => cases hn'
    | @completed i' n' env' enterEnv' hook' enter' slot' record' hhit' hexit' hgate' hroom' hopen' hmade' =>
      cases hn'
      have hni : n < i := lt_of_lt_of_le hopen.lt (List.length_take_le i steps)
      have henter := (List.getElem?_take_of_lt hni).symm.trans hopen.hit
      have henter' := (List.getElem?_take_of_lt (hni.trans hlt)).symm.trans hopen'.hit
      cases henter.symm.trans henter'
      cases hopen.saves.enters.symm.trans hopen'.saves.enters
      have htask : env.pidTgid = env'.pidTgid := hopen.saves.task.symm.trans hopen'.saves.task
      exact hopen'.kept i _ hni ((List.getElem?_take_of_lt hlt).trans hhit)
        (Or.inl ⟨env, hook, rfl, htask, hexit, hgate⟩)

/-- **The records of a run**, each with the hits it comes from: in their order, and all that there are. -/
theorem records_made (maps : ProbeMaps) (steps : List Step) :
    ∃ made : List (RecordOrigin × EventVariant), made.map Prod.snd = (run maps steps).events.records ∧
      (∀ m, m ∈ made ↔ Made maps steps m.1 m.2) ∧ made.Pairwise fun m m' => m.1.hit < m'.1.hit := by
  induction steps using List.reverseRecOn with
  | nil =>
    refine ⟨[], rfl, fun m => ⟨nofun, fun h => absurd h.lt (Nat.not_lt_zero _)⟩, .nil⟩
  | append_singleton steps step ih =>
    obtain ⟨made, hrecords, hmade, hordered⟩ := ih
    have hnew : (run maps (steps ++ [step])).events.records =
        (run maps steps).events.records ++ (effect maps (run maps steps) step).ring.record?.toList := by
      rw [run_snoc, exec_eq]
      exact RingMove.records_apply _ _
    -- what is made before the last hit is as it was
    have hold : ∀ m : RecordOrigin × EventVariant, m ∈ made ↔
        m.1.hit < steps.length ∧ Made maps (steps ++ [step]) m.1 m.2 := fun m =>
      ⟨fun hm => ⟨((hmade m).mp hm).lt, (made_snoc_iff step ((hmade m).mp hm).lt).mpr ((hmade m).mp hm)⟩,
        fun hm => (hmade m).mpr ((made_snoc_iff step hm.1).mp hm.2)⟩
    have hhit : ∀ {m : RecordOrigin × EventVariant}, Made maps (steps ++ [step]) m.1 m.2 →
        ¬m.1.hit < steps.length → m.1 = ⟨steps.length, m.1.entered⟩ := by
      intro m hm hnot
      have hlt := hm.lt
      rw [List.length_append, List.length_singleton] at hlt
      have heq : m.1.hit = steps.length := by omega
      rw [← heq]
    cases hrecord : (effect maps (run maps steps) step).ring.record? with
    | none =>
      refine ⟨made, ?_, fun m => (hold m).trans ⟨And.right, fun hm => ⟨?_, hm⟩⟩, hordered⟩
      · rw [hnew, hrecord, hrecords, Option.toList_none, List.append_nil]
      · by_contra hnot
        have hlast := hm
        rw [hhit hm hnot] at hlast
        exact absurd (hrecord.symm.trans (made_last_iff.mp ⟨_, hlast⟩)) (Option.some_ne_none _).symm
    | some record =>
      obtain ⟨entered, hlast⟩ := made_last_iff.mpr hrecord
      refine ⟨made ++ [(⟨steps.length, entered⟩, record)], ?_, fun m => ?_, ?_⟩
      · rw [hnew, hrecord, List.map_append, hrecords, List.map_singleton, Option.toList_some]
      · rw [List.mem_append, List.mem_singleton, hold]
        constructor
        · rintro (hm | rfl)
          · exact hm.2
          · exact hlast
        · intro hm
          by_cases hlt : m.1.hit < steps.length
          · exact Or.inl ⟨hlt, hm⟩
          · have hsame := hm.unique hlast (by rw [hhit hm hlt])
            exact Or.inr (Prod.ext hsame.1 hsame.2)
      · rw [List.pairwise_append]
        refine ⟨hordered, List.pairwise_singleton _ _, fun m hm m' hm' => ?_⟩
        rw [List.mem_singleton.mp hm']
        exact ((hmade m).mp hm).lt

/-- Records in the order of their hits have no enter in common. -/
theorem inTurn_of_made {made : List (RecordOrigin × EventVariant)} (hmade : ∀ m ∈ made, Made maps steps m.1 m.2)
    (hordered : made.Pairwise fun m m' => m.1.hit < m'.1.hit) : InTurn (made.map Prod.fst) := by
  constructor
  · rw [List.map_map, List.pairwise_map]
    exact hordered
  · rw [List.filterMap_map, List.Nodup, List.pairwise_filterMap]
    refine hordered.imp_of_mem fun {m m'} hm hm' hlt n hn n' hn' heq => ?_
    subst heq
    exact (hmade m hm).entered_ne (hmade m' hm') hlt hn hn'

end

end

end ETraceGen.Bpf
