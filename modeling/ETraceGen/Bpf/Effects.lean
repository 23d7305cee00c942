import ETraceGen.Bpf.Conservation
import ETraceGen.Bpf.Records
import ETraceGen.Bpf.SocketFds

/-!
# What a step writes

A step increments one counter at most, settles one slot of the ring buffer at most, edits the entry of one saved
payload at most, and adds or deletes descriptors. `effect` is what it writes, decided by what it reads.

* `exec_eq` : a step is its effect;
* `effect_congr` : it reads the entries of its own process only;
* `effect_local` : it writes the entries of its own process only, and its record is about that process.
-/

namespace ETraceGen.Bpf

/-! ## Edits -/

/-- A change of one entry of a map. -/
inductive Edit (K V : Type) where
  | keep
  | put (key : K) (value : V)
  | drop (key : K)

namespace Edit

variable {K V : Type} [DecidableEq K]

def apply : Edit K V → KeyedMap K V → KeyedMap K V
  | .keep, m => m
  | .put key value, m => m.insert key value
  | .drop key, m => m.erase key

/-- The entry that is changed. -/
def key? : Edit K V → Option K
  | .keep => none
  | .put key _ | .drop key => some key

theorem lookup_apply_of_ne {e : Edit K V} {m : KeyedMap K V} {key : K} (h : e.key? ≠ some key) :
    (e.apply m).lookup key = m.lookup key := by
  cases e with
  | keep => rfl
  | put k v => exact AList.lookup_insert_ne fun heq => h (by rw [heq, key?])
  | drop k => exact AList.lookup_erase_ne fun heq => h (by rw [heq, key?])

theorem lookup_apply_congr (e : Edit K V) {m m' : KeyedMap K V} {key : K} (h : m.lookup key = m'.lookup key) :
    (e.apply m).lookup key = (e.apply m').lookup key := by
  cases e with
  | keep => exact h
  | put k v => rw [apply, apply, KeyedMap.lookup_insert_ite, KeyedMap.lookup_insert_ite, h]
  | drop k => rw [apply, apply, KeyedMap.lookup_erase_ite, KeyedMap.lookup_erase_ite, h]

/-! ### One edit after the other -/

def applyAll (es : List (Edit K V)) (m : KeyedMap K V) : KeyedMap K V := es.foldl (fun m e => e.apply m) m

theorem lookup_applyAll_of_ne {es : List (Edit K V)} {m : KeyedMap K V} {key : K}
    (h : ∀ e ∈ es, e.key? ≠ some key) : (applyAll es m).lookup key = m.lookup key := by
  induction es generalizing m with
  | nil => rfl
  | cons e es ih =>
    obtain ⟨he, hrest⟩ := List.forall_mem_cons.mp h
    exact (ih hrest).trans (lookup_apply_of_ne he)

theorem lookup_applyAll_congr (es : List (Edit K V)) {m m' : KeyedMap K V} {key : K}
    (h : m.lookup key = m'.lookup key) : (applyAll es m).lookup key = (applyAll es m').lookup key := by
  induction es generalizing m m' with
  | nil => exact h
  | cons e es ih => exact ih (e.lookup_apply_congr h)

/-- The entry is one of these, and so is what is put there. -/
def Mine (own : K → Prop) (ok : V → Prop) : Edit K V → Prop
  | .keep => True
  | .put key value => own key ∧ ok value
  | .drop key => own key

section Mine
variable {own : K → Prop} {ok : V → Prop} {e : Edit K V}

omit [DecidableEq K] in
theorem Mine.key (h : e.Mine own ok) {key : K} (hkey : e.key? = some key) : own key := by
  cases e with
  | keep => cases hkey
  | put k v => exact Option.some.inj hkey ▸ h.1
  | drop k => exact Option.some.inj hkey ▸ h

/-- What is found afterwards was put there, or was there before. -/
theorem Mine.of_lookup (h : e.Mine own ok) {m : KeyedMap K V} {key : K} {value : V}
    (hlook : (e.apply m).lookup key = some value) : own key ∧ ok value ∨ m.lookup key = some value := by
  cases e with
  | keep => exact Or.inr hlook
  | put k v =>
    rw [apply, KeyedMap.lookup_insert_ite] at hlook
    split_ifs at hlook with heq
    · obtain rfl := Option.some.inj hlook
      exact Or.inl (heq ▸ h)
    · exact Or.inr hlook
  | drop k => exact Or.inr (KeyedMap.lookup_erase_eq_some.mp hlook).2

end Mine

end Edit

/-- What is done to the ring buffer: one slot is reserved and settled, or none. -/
inductive RingMove where
  | untouched
  | submit (record : EventVariant)
  | discard

namespace RingMove

def apply : RingMove → Ring → Ring
  | .untouched, r => r
  | .submit record, r => r.reserve.submit r.next record
  | .discard, r => r.reserve.discard r.next

def record? : RingMove → Option EventVariant
  | .submit record => some record
  | _ => none

theorem records_apply (move : RingMove) (r : Ring) : (move.apply r).records = r.records ++ move.record?.toList := by
  cases move <;> simp [apply, record?]

end RingMove

/-! ## Effects -/

structure Effect where
  stat : Option BpfStatKey := none
  ring : RingMove := .untouched
  file : Edit FileStateKey FileEvent := .keep
  syscall : Edit SyscallStateKey SyscallEvent := .keep
  network : Edit NetworkStateKey NetworkStateValue := .keep
  fds : List (Edit SocketFdKey SocketFdValue) := []

/-- One more of what is counted, if anything is. -/
def bump : Option BpfStatKey → (BpfStatKey → Nat) → BpfStatKey → Nat
  | none, stats => stats
  | some key, stats => Function.update stats key (stats key + 1)

theorem bump_apply (stat : Option BpfStatKey) (stats : BpfStatKey → Nat) (key : BpfStatKey) :
    bump stat stats key = stats key + if stat = some key then 1 else 0 := by
  cases stat with
  | none => rfl
  | some counted =>
    show Function.update stats counted (stats counted + 1) key = _
    by_cases hkey : counted = key
    · subst hkey
      rw [Function.update_self, if_pos rfl]
    · rw [Function.update_of_ne (Ne.symm hkey), if_neg fun h => hkey (Option.some.inj h), Nat.add_zero]

def Effect.apply (e : Effect) (k : Kernel) : Kernel where
  fileEnterState := e.file.apply k.fileEnterState
  syscallEnterState := e.syscall.apply k.syscallEnterState
  networkEnterState := e.network.apply k.networkEnterState
  socketFdState := Edit.applyAll e.fds k.socketFdState
  bpfStats := bump e.stat k.bpfStats
  events := e.ring.apply k.events

/-- The edit of `addSocketFd`. -/
def addEdit (env : HookEnv) (ok : Bool) (fd : Int32) : Edit SocketFdKey SocketFdValue :=
  if ok then .put (socketFdKey env fd) ⟨1⟩ else .keep

/-- The edits of the descriptor map behind a finished call. -/
def fdEdits (env : HookEnv) (kind : NetworkEventKind) (ret : Int64) (state : NetworkStateValue) :
    List (Edit SocketFdKey SocketFdValue) :=
  if 0 ≤ ret then
    match kind with
    | .socket | .accept | .accept4 => [addEdit env env.addOk ret.toInt32]
    | .socketpair =>
      if state.peerFdPtr = 0 then []
      else
        match readFdPair env.mem state.peerFdPtr with
        | some (fd, peerFd) => [addEdit env env.addOk fd, addEdit env env.addPeerOk peerFd]
        | none => []
    | .close => [.drop (socketFdKey env state.ev.fd)]
    | _ => []
  else []

section Effects
variable (maps : ProbeMaps) (env : HookEnv)

/-- A payload is saved: `taken` if there is one already, and `saved` if all goes well. -/
def saveEffect (family : Family) (taken : Bool) (saved : Effect) : Effect :=
  if env.reserveOk then
    if taken then { stat := some family.collision, ring := .discard }
    else if env.updateOk then { saved with ring := .discard }
    else { stat := some family.saveFail, ring := .discard }
  else { stat := some .ringbufReserveFail }

/-- A saved payload is finished; its entry is dropped whether or not there is room for the record. -/
def emitEffect {P : Type} (family : Family) (entry : Option P) (dropped : Effect) (finish : P → Effect) : Effect :=
  match entry with
  | none => { stat := some family.miss }
  | some state => if env.reserveOk then finish state else { dropped with stat := some .ringbufReserveFail }

/-- A process hook submits its record, if there is room. -/
def reportEffect (hook : Hook) (kind : ProcessEventKind) : Effect :=
  if env.reserveOk then { ring := .submit (.process (processRecord env hook kind)) }
  else { stat := some .ringbufReserveFail }

/-- What a gated handler writes. -/
def gated (gate : Bool) (e : Effect) : Effect := if gate then e else {}

variable (k : Kernel)

def hookEffect : Hook → Effect
  | .enterFile kind args =>
    let key := makeFileKey env kind
    gated (fileGate maps env kind)
      (saveEffect env .file (k.fileEnterState.lookup key).isSome { file := .put key (filePayload env kind args) })
  | .exitFile kind ret =>
    let key := makeFileKey env kind
    gated (fileGate maps env kind) (emitEffect env .file (k.fileEnterState.lookup key) { file := .drop key }
      fun state => { ring := .submit (.file (finishFileEvent env ret state)), file := .drop key })
  | .rawEnter nr args =>
    let key := makeSyscallKey env nr
    gated (syscallGate maps env)
      (saveEffect env .syscall (k.syscallEnterState.lookup key).isSome
        { syscall := .put key (syscallPayload env nr args) })
  | .rawExit nr ret =>
    let key := makeSyscallKey env nr
    gated (syscallGate maps env) (emitEffect env .syscall (k.syscallEnterState.lookup key) { syscall := .drop key }
      fun state => { ring := .submit (.syscall (finishSyscallEvent env ret state)), syscall := .drop key })
  | .enterNetwork kind args =>
    let key := makeNetworkKey env kind
    gated (networkEnterGate maps env kind args k)
      (if env.reserveOk && !env.scratchOk then { ring := .discard }
      else
        saveEffect env .network (k.networkEnterState.lookup key).isSome
          { network := .put key (networkPayload env kind args) })
  | .exitNetwork kind ret =>
    let key := makeNetworkKey env kind
    gated (networkGate maps env kind)
      (emitEffect env .network (k.networkEnterState.lookup key) { network := .drop key } fun state =>
        { ring := .submit (.network (finishNetworkEvent env kind ret state)), network := .drop key
          fds := fdEdits env kind ret state })
  | hook =>
    match processKind? hook with
    | some kind => gated (processGate maps env kind) (reportEffect env hook kind)
    | none => {}

end Effects

def effect (maps : ProbeMaps) (k : Kernel) : Step → Effect
  | .deliver env hook => hookEffect maps env k hook
  | .absent _ _ => {}
  | .evictFile key => { file := .drop key }
  | .evictSyscall key => { syscall := .drop key }
  | .evictNetwork key => { network := .drop key }

/-! ## A step is its effect -/

section Exec
variable (maps : ProbeMaps) (env : HookEnv) (k : Kernel)

theorem addSocketFd_eq (ok : Bool) (fd : Int32) :
    (addSocketFd env ok fd k).socketFdState = (addEdit env ok fd).apply k.socketFdState := by
  cases ok <;> rfl

theorem trackSocketFds_eq (kind : NetworkEventKind) (ret : Int64) (state : NetworkStateValue) :
    (trackSocketFds env kind ret state k).socketFdState =
      Edit.applyAll (fdEdits env kind ret state) k.socketFdState := by
  unfold trackSocketFds fdEdits
  by_cases hret : 0 ≤ ret
  · rw [if_pos hret, if_pos hret]
    cases kind with
    | socketpair =>
      by_cases hptr : state.peerFdPtr = 0
      · simp only [if_pos hptr]
        rfl
      · simp only [if_neg hptr]
        cases readFdPair env.mem state.peerFdPtr with
        | none => rfl
        | some pair =>
          show (addSocketFd env env.addPeerOk pair.2 (addSocketFd env env.addOk pair.1 k)).socketFdState = _
          rw [addSocketFd_eq, addSocketFd_eq]
          rfl
    | socket => exact addSocketFd_eq env k _ _
    | accept => exact addSocketFd_eq env k _ _
    | accept4 => exact addSocketFd_eq env k _ _
    | _ => rfl
  · rw [if_neg hret, if_neg hret]
    rfl

theorem saveFile_eq (kind : FileEventKind) (ev : FileEvent) (hok : env.reserveOk = true) :
    saveFileEnterState env kind k.events.next ev k.reserve =
      (saveEffect env .file (k.fileEnterState.lookup (makeFileKey env kind)).isSome
        { file := .put (makeFileKey env kind) ev }).apply k := by
  have hsame : k.reserve.fileEnterState = k.fileEnterState := rfl
  unfold saveFileEnterState saveEffect
  dsimp only
  rw [if_pos hok, hsame]
  cases (k.fileEnterState.lookup (makeFileKey env kind)).isSome <;> cases env.updateOk <;> rfl

theorem saveSyscall_eq (nr : Int32) (ev : SyscallEvent) (hok : env.reserveOk = true) :
    saveSyscallEnterState env nr k.events.next ev k.reserve =
      (saveEffect env .syscall (k.syscallEnterState.lookup (makeSyscallKey env nr)).isSome
        { syscall := .put (makeSyscallKey env nr) ev }).apply k := by
  have hsame : k.reserve.syscallEnterState = k.syscallEnterState := rfl
  unfold saveSyscallEnterState saveEffect
  dsimp only
  rw [if_pos hok, hsame]
  cases (k.syscallEnterState.lookup (makeSyscallKey env nr)).isSome <;> cases env.updateOk <;> rfl

theorem saveNetwork_eq (kind : NetworkEventKind) (state : NetworkStateValue) (hok : env.reserveOk = true) :
    saveNetworkEnterState env kind k.events.next state k.reserve =
      (saveEffect env .network (k.networkEnterState.lookup (makeNetworkKey env kind)).isSome
        { network := .put (makeNetworkKey env kind) state }).apply k := by
  have hsame : k.reserve.networkEnterState = k.networkEnterState := rfl
  unfold saveNetworkEnterState saveEffect
  dsimp only
  rw [if_pos hok, hsame]
  cases (k.networkEnterState.lookup (makeNetworkKey env kind)).isSome <;> cases env.updateOk <;> rfl

theorem emitFile_eq (kind : FileEventKind) (ret : Int64) :
    emitFileExitEvent env kind ret k =
      (emitEffect env .file (k.fileEnterState.lookup (makeFileKey env kind)) { file := .drop (makeFileKey env kind) }
        fun state => { ring := .submit (.file (finishFileEvent env ret state)),
                       file := .drop (makeFileKey env kind) }).apply k := by
  cases h : k.fileEnterState.lookup (makeFileKey env kind) with
  | none =>
    rw [emitFileExitEvent_of_none env ret h]
    rfl
  | some state =>
    rw [emitFileExitEvent_of_some env ret h]
    unfold emitEffect
    dsimp only
    split_ifs <;> rfl

theorem emitSyscall_eq (nr : Int32) (ret : Int64) :
    emitSyscallExitEvent env nr ret k =
      (emitEffect env .syscall (k.syscallEnterState.lookup (makeSyscallKey env nr))
        { syscall := .drop (makeSyscallKey env nr) }
        fun state => { ring := .submit (.syscall (finishSyscallEvent env ret state)),
                       syscall := .drop (makeSyscallKey env nr) }).apply k := by
  cases h : k.syscallEnterState.lookup (makeSyscallKey env nr) with
  | none =>
    rw [emitSyscallExitEvent_of_none env ret h]
    rfl
  | some state =>
    rw [emitSyscallExitEvent_of_some env ret h]
    unfold emitEffect
    dsimp only
    split_ifs <;> rfl

theorem emitNetwork_eq (kind : NetworkEventKind) (ret : Int64) :
    emitNetworkExitEvent env kind ret k =
      (emitEffect env .network (k.networkEnterState.lookup (makeNetworkKey env kind))
        { network := .drop (makeNetworkKey env kind) } fun state =>
        { ring := .submit (.network (finishNetworkEvent env kind ret state)),
          network := .drop (makeNetworkKey env kind), fds := fdEdits env kind ret state }).apply k := by
  cases h : k.networkEnterState.lookup (makeNetworkKey env kind) with
  | none =>
    rw [emitNetworkExitEvent_of_none env ret h]
    rfl
  | some state =>
    rw [emitNetworkExitEvent_of_some env ret h, trackSocketFds_eq]
    unfold emitEffect
    dsimp only
    split_ifs <;> rfl

/-- Without room nothing is saved, and nothing is reported. -/
theorem saveEffect_refused {env : HookEnv} (h : ¬env.reserveOk = true) (family : Family) (taken : Bool)
    (saved : Effect) : saveEffect env family taken saved = { stat := some .ringbufReserveFail } := if_neg h

theorem process_eq {hook : Hook} {kind : ProcessEventKind} (h : processKind? hook = some kind) :
    handle maps env hook k = (gated (processGate maps env kind) (reportEffect env hook kind)).apply k := by
  rw [handle_process maps env h, emitProcess_eq, ← processGate]
  unfold gated reportEffect
  split_ifs <;> rfl

theorem handle_eq (hook : Hook) : handle maps env hook k = (hookEffect maps env k hook).apply k := by
  cases hook with
  | enterFile kind args =>
    rw [handle, handleEnterFile_eq, enterFile_eq, hookEffect]
    unfold gated
    split_ifs with hgate hok
    · exact saveFile_eq env k kind _ hok
    · rw [saveEffect_refused hok]
      rfl
    · rfl
  | exitFile kind ret =>
    rw [handle, handleExitFile_eq, exitFile_eq, hookEffect]
    unfold gated
    split_ifs
    · exact emitFile_eq env k kind ret
    · rfl
  | rawEnter nr args =>
    rw [handle, onRawSysEnter_eq, hookEffect]
    unfold gated
    split_ifs with hgate hok
    · exact saveSyscall_eq env k nr _ hok
    · rw [saveEffect_refused hok]
      rfl
    · rfl
  | rawExit nr ret =>
    rw [handle, onRawSysExit_eq, hookEffect]
    unfold gated
    split_ifs
    · exact emitSyscall_eq env k nr ret
    · rfl
  | enterNetwork kind args =>
    rw [handle, handleEnterNetwork_eq, enterNetwork_eq, hookEffect]
    unfold gated
    by_cases hgate : networkEnterGate maps env kind args k = true
    · rw [if_pos hgate, if_pos hgate]
      by_cases hok : env.reserveOk = true
      · rw [if_pos hok]
        by_cases hscratch : env.scratchOk = true
        · simp only [hok, hscratch, Bool.not_true, Bool.and_false, Bool.false_eq_true, if_true, if_false]
          exact saveNetwork_eq env k kind _ hok
        · simp only [hok, hscratch, Bool.not_false, Bool.and_self, if_true]
          rfl
      · rw [if_neg hok, saveEffect_refused hok]
        simp only [hok, Bool.false_and]
        rfl
    · rw [if_neg hgate, if_neg hgate]
      rfl
  | exitNetwork kind ret =>
    rw [handle, handleExitNetwork_eq, exitNetwork_eq, hookEffect]
    unfold gated
    split_ifs
    · exact emitNetwork_eq env k kind ret
    · rfl
  | schedExec filename => exact process_eq maps env k rfl
  | schedFork childPid => exact process_eq maps env k rfl
  | schedExit => exact process_eq maps env k rfl
  | exitClone ret => exact process_eq maps env k rfl
  | exitClone3 ret => exact process_eq maps env k rfl
  | exitVfork ret => exact process_eq maps env k rfl

/-- **A step is its effect.** -/
theorem exec_eq (step : Step) : exec maps k step = (effect maps k step).apply k := by
  cases step with
  | deliver env hook => exact handle_eq maps env k hook
  | _ => rfl

theorem bpfStats_exec (step : Step) (key : BpfStatKey) :
    (exec maps k step).bpfStats key = k.bpfStats key + if (effect maps k step).stat = some key then 1 else 0 := by
  rw [exec_eq]
  exact bump_apply _ _ key

end Exec

/-! ## The entries of a process -/

/-- The process of a task. -/
def tgidOf (pidTgid : UInt64) : UInt32 := (pidTgid >>> 32).toUInt32

/-- The process whose step it is; an eviction is its whose entry is evicted. -/
def Step.tgid : Step → UInt32
  | .deliver env _ => env.tgid
  | .absent pidTgid _ => tgidOf pidTgid
  | .evictFile key => tgidOf key.pidTgid
  | .evictSyscall key => tgidOf key.pidTgid
  | .evictNetwork key => tgidOf key.pidTgid

/-- The entries of these processes are the same. -/
structure AgreeOn (p : UInt32 → Bool) (k k' : Kernel) : Prop where
  file : ∀ key, p (tgidOf key.pidTgid) = true → k.fileEnterState.lookup key = k'.fileEnterState.lookup key
  syscall : ∀ key, p (tgidOf key.pidTgid) = true →
    k.syscallEnterState.lookup key = k'.syscallEnterState.lookup key
  network : ∀ key, p (tgidOf key.pidTgid) = true →
    k.networkEnterState.lookup key = k'.networkEnterState.lookup key
  fds : ∀ key : SocketFdKey, p key.tgid = true → k.socketFdState.lookup key = k'.socketFdState.lookup key

section Reads
variable {p : UInt32 → Bool} {k k' : Kernel} (maps : ProbeMaps)

theorem AgreeOn.networkEnterGate (h : AgreeOn p k k') {env : HookEnv} (hp : p env.tgid = true)
    (kind : NetworkEventKind) (args : SyscallArgs) :
    networkEnterGate maps env kind args k = networkEnterGate maps env kind args k' := by
  have hfd : ∀ fd, isSocketFd env fd k = isSocketFd env fd k' := by
    intro fd
    unfold isSocketFd
    rw [h.fds (socketFdKey env fd) hp]
  unfold Bpf.networkEnterGate
  simp only [hfd]

/-- **A step reads** the entries of its own process only. -/
theorem effect_congr (h : AgreeOn p k k') {step : Step} (hp : p step.tgid = true) :
    effect maps k step = effect maps k' step := by
  cases step with
  | deliver env hook =>
    cases hook with
    | enterFile kind args => simp only [effect, hookEffect, h.file (makeFileKey env kind) hp]
    | exitFile kind ret => simp only [effect, hookEffect, h.file (makeFileKey env kind) hp]
    | rawEnter nr args => simp only [effect, hookEffect, h.syscall (makeSyscallKey env nr) hp]
    | rawExit nr ret => simp only [effect, hookEffect, h.syscall (makeSyscallKey env nr) hp]
    | enterNetwork kind args =>
      simp only [effect, hookEffect, h.network (makeNetworkKey env kind) hp, h.networkEnterGate maps hp]
    | exitNetwork kind ret => simp only [effect, hookEffect, h.network (makeNetworkKey env kind) hp]
    | _ => rfl
  | _ => rfl

end Reads

/-! ## Locality -/

/-- Only entries of the process are written, and what is saved or submitted is about it. -/
structure Effect.Local (tgid : UInt32) (e : Effect) : Prop where
  file : e.file.Mine (fun key => tgidOf key.pidTgid = tgid) fun ev => ev.hdr.tgid = tgid
  syscall : e.syscall.Mine (fun key => tgidOf key.pidTgid = tgid) fun ev => ev.hdr.tgid = tgid
  network : e.network.Mine (fun key => tgidOf key.pidTgid = tgid) fun state => state.ev.hdr.tgid = tgid
  fds : ∀ edit ∈ e.fds, edit.Mine (fun key : SocketFdKey => key.tgid = tgid) fun _ => True
  record : ∀ record, e.ring.record? = some record → record.hdr.tgid = tgid

/-- Every saved payload is about the process it is saved for. -/
structure Labelled (k : Kernel) : Prop where
  file : ∀ key ev, k.fileEnterState.lookup key = some ev → ev.hdr.tgid = tgidOf key.pidTgid
  syscall : ∀ key ev, k.syscallEnterState.lookup key = some ev → ev.hdr.tgid = tgidOf key.pidTgid
  network : ∀ key state, k.networkEnterState.lookup key = some state → state.ev.hdr.tgid = tgidOf key.pidTgid

section Local
variable {tgid : UInt32}

theorem Effect.Local.counted (stat : Option BpfStatKey) : ({ stat } : Effect).Local tgid :=
  ⟨trivial, trivial, trivial, List.forall_mem_nil _, nofun⟩

theorem Effect.Local.discarded (stat : Option BpfStatKey) : ({ stat, ring := .discard } : Effect).Local tgid :=
  ⟨trivial, trivial, trivial, List.forall_mem_nil _, nofun⟩

theorem gated_local {e : Effect} (h : e.Local tgid) (gate : Bool) : (gated gate e).Local tgid := by
  cases gate with
  | true => exact h
  | false => exact .counted none

theorem saveEffect_local {saved : Effect} (h : saved.Local tgid) (env : HookEnv) (family : Family) (taken : Bool) :
    (saveEffect env family taken saved).Local tgid := by
  unfold saveEffect
  split_ifs
  · exact .discarded _
  · exact ⟨h.file, h.syscall, h.network, h.fds, nofun⟩
  · exact .discarded _
  · exact .counted _

theorem emitEffect_local {P : Type} {entry : Option P} {dropped : Effect} {finish : P → Effect}
    (hdropped : dropped.Local tgid) (hfinish : ∀ state, entry = some state → (finish state).Local tgid)
    (env : HookEnv) (family : Family) : (emitEffect env family entry dropped finish).Local tgid := by
  unfold emitEffect
  cases entry with
  | none => exact .counted _
  | some state =>
    dsimp only
    split_ifs
    · exact hfinish state rfl
    · exact ⟨hdropped.file, hdropped.syscall, hdropped.network, hdropped.fds, hdropped.record⟩

theorem fdEdits_mine (env : HookEnv) (kind : NetworkEventKind) (ret : Int64) (state : NetworkStateValue) :
    ∀ edit ∈ fdEdits env kind ret state, edit.Mine (fun key : SocketFdKey => key.tgid = env.tgid) fun _ => True := by
  have hadd : ∀ ok fd, (addEdit env ok fd).Mine (fun key : SocketFdKey => key.tgid = env.tgid) fun _ => True := by
    intro ok fd
    cases ok with
    | true => exact ⟨rfl, trivial⟩
    | false => trivial
  unfold fdEdits
  by_cases hret : 0 ≤ ret
  · rw [if_pos hret]
    cases kind with
    | socketpair =>
      dsimp only
      by_cases hptr : state.peerFdPtr = 0
      · rw [if_pos hptr]
        exact List.forall_mem_nil _
      · rw [if_neg hptr]
        cases readFdPair env.mem state.peerFdPtr with
        | none => exact List.forall_mem_nil _
        | some pair => exact List.forall_mem_cons.mpr ⟨hadd _ _, List.forall_mem_singleton.mpr (hadd _ _)⟩
    | socket => exact List.forall_mem_singleton.mpr (hadd _ _)
    | accept => exact List.forall_mem_singleton.mpr (hadd _ _)
    | accept4 => exact List.forall_mem_singleton.mpr (hadd _ _)
    | close => exact List.forall_mem_singleton.mpr rfl
    | _ => exact List.forall_mem_nil _
  · rw [if_neg hret]
    exact List.forall_mem_nil _

/-! The parts of an effect that write nothing but an entry, and those that submit its record. -/

section Parts
variable {e : Effect} {record : EventVariant}

theorem Effect.Local.submit (h : e.Local tgid) (hrecord : record.hdr.tgid = tgid) :
    ({ e with ring := .submit record } : Effect).Local tgid :=
  ⟨h.file, h.syscall, h.network, h.fds, fun _ heq => Option.some.inj heq ▸ hrecord⟩

theorem Effect.Local.ofFile {edit : Edit FileStateKey FileEvent}
    (h : edit.Mine (fun key => tgidOf key.pidTgid = tgid) fun ev => ev.hdr.tgid = tgid) :
    ({ file := edit } : Effect).Local tgid :=
  ⟨h, trivial, trivial, List.forall_mem_nil _, nofun⟩

theorem Effect.Local.ofSyscall {edit : Edit SyscallStateKey SyscallEvent}
    (h : edit.Mine (fun key => tgidOf key.pidTgid = tgid) fun ev => ev.hdr.tgid = tgid) :
    ({ syscall := edit } : Effect).Local tgid :=
  ⟨trivial, h, trivial, List.forall_mem_nil _, nofun⟩

theorem Effect.Local.ofNetwork {edit : Edit NetworkStateKey NetworkStateValue}
    {fds : List (Edit SocketFdKey SocketFdValue)}
    (h : edit.Mine (fun key => tgidOf key.pidTgid = tgid) fun state => state.ev.hdr.tgid = tgid)
    (hfds : ∀ fdEdit ∈ fds, fdEdit.Mine (fun key : SocketFdKey => key.tgid = tgid) fun _ => True) :
    ({ network := edit, fds := fds } : Effect).Local tgid :=
  ⟨trivial, trivial, h, hfds, nofun⟩

end Parts

theorem reportEffect_local (env : HookEnv) (hook : Hook) (kind : ProcessEventKind) :
    (reportEffect env hook kind).Local env.tgid := by
  unfold reportEffect
  split_ifs
  · exact Effect.Local.submit (.counted none) (processRecord_envelope env hook kind).1.tgid
  · exact .counted _

theorem hookEffect_local (maps : ProbeMaps) {k : Kernel} (hk : Labelled k) (env : HookEnv) (hook : Hook) :
    (hookEffect maps env k hook).Local env.tgid := by
  cases hook with
  | enterFile kind args =>
    have hput : ({ file := .put (makeFileKey env kind) (filePayload env kind args) } : Effect).Local env.tgid :=
      .ofFile (show _ ∧ _ from ⟨rfl, (filePayload_envelope env kind args).1.tgid⟩)
    exact gated_local (saveEffect_local hput env _ _) _
  | exitFile kind ret =>
    have hdrop : ({ file := .drop (makeFileKey env kind) } : Effect).Local env.tgid :=
      .ofFile (show tgidOf env.pidTgid = _ from rfl)
    refine gated_local (emitEffect_local hdrop ?_ env _) _
    intro state hstate
    have hlabel : (EventVariant.file (finishFileEvent env ret state)).hdr.tgid = env.tgid :=
      hk.file (makeFileKey env kind) state hstate
    exact hdrop.submit hlabel
  | rawEnter nr args =>
    have hput : ({ syscall := .put (makeSyscallKey env nr) (syscallPayload env nr args) } : Effect).Local env.tgid :=
      .ofSyscall (show _ ∧ _ from ⟨rfl, (syscallPayload_envelope env nr args).tgid⟩)
    exact gated_local (saveEffect_local hput env _ _) _
  | rawExit nr ret =>
    have hdrop : ({ syscall := .drop (makeSyscallKey env nr) } : Effect).Local env.tgid :=
      .ofSyscall (show tgidOf env.pidTgid = _ from rfl)
    refine gated_local (emitEffect_local hdrop ?_ env _) _
    intro state hstate
    have hlabel : (EventVariant.syscall (finishSyscallEvent env ret state)).hdr.tgid = env.tgid :=
      hk.syscall (makeSyscallKey env nr) state hstate
    exact hdrop.submit hlabel
  | enterNetwork kind args =>
    have hput : ({ network := .put (makeNetworkKey env kind) (networkPayload env kind args) } : Effect).Local
        env.tgid :=
      .ofNetwork (show _ ∧ _ from ⟨rfl, (networkPayload_envelope env kind args).1.tgid⟩) (List.forall_mem_nil _)
    rw [hookEffect]
    refine gated_local ?_ _
    split_ifs
    · exact .discarded _
    · exact saveEffect_local hput env _ _
  | exitNetwork kind ret =>
    have hkey : (Edit.drop (makeNetworkKey env kind) : Edit NetworkStateKey NetworkStateValue).Mine
        (fun key => tgidOf key.pidTgid = env.tgid) fun state => state.ev.hdr.tgid = env.tgid :=
      show tgidOf env.pidTgid = _ from rfl
    refine gated_local (emitEffect_local (.ofNetwork hkey (List.forall_mem_nil _)) ?_ env _) _
    intro state hstate
    have hlabel : (EventVariant.network (finishNetworkEvent env kind ret state)).hdr.tgid = env.tgid := by
      rw [EventVariant.hdr, (finishNetworkEvent_envelope env kind ret state).1]
      exact hk.network (makeNetworkKey env kind) state hstate
    exact (Effect.Local.ofNetwork hkey (fdEdits_mine env kind ret state)).submit hlabel
  | schedExec filename => exact gated_local (reportEffect_local env _ _) _
  | schedFork childPid => exact gated_local (reportEffect_local env _ _) _
  | schedExit => exact gated_local (reportEffect_local env _ _) _
  | exitClone ret => exact gated_local (reportEffect_local env _ _) _
  | exitClone3 ret => exact gated_local (reportEffect_local env _ _) _
  | exitVfork ret => exact gated_local (reportEffect_local env _ _) _

/-- **A step writes** the entries of its own process only, and submits records about it only. -/
theorem effect_local (maps : ProbeMaps) {k : Kernel} (hk : Labelled k) (step : Step) :
    (effect maps k step).Local step.tgid := by
  cases step with
  | deliver env hook => exact hookEffect_local maps hk env hook
  | absent pidTgid hook => exact .counted none
  | evictFile key => exact .ofFile (show tgidOf key.pidTgid = _ from rfl)
  | evictSyscall key => exact .ofSyscall (show tgidOf key.pidTgid = _ from rfl)
  | evictNetwork key => exact .ofNetwork (show tgidOf key.pidTgid = _ from rfl) (List.forall_mem_nil _)

theorem Labelled.step {k : Kernel} (h : Labelled k) (maps : ProbeMaps) (step : Step) :
    Labelled (exec maps k step) := by
  have hlocal := effect_local maps h step
  rw [exec_eq]
  constructor
  · intro key ev hlook
    rcases hlocal.file.of_lookup hlook with ⟨hkey, hev⟩ | hbefore
    · exact hev.trans hkey.symm
    · exact h.file key ev hbefore
  · intro key ev hlook
    rcases hlocal.syscall.of_lookup hlook with ⟨hkey, hev⟩ | hbefore
    · exact hev.trans hkey.symm
    · exact h.syscall key ev hbefore
  · intro key state hlook
    rcases hlocal.network.of_lookup hlook with ⟨hkey, hev⟩ | hbefore
    · exact hev.trans hkey.symm
    · exact h.network key state hbefore

end Local

end ETraceGen.Bpf
