import ETraceGen.Bpf.FlowId

/-!
# What a flow id is hashed from

`hash_fold64` is a bijection of the words, with `unfoldHash64` for its inverse. A record is hashed while its
exit is still finishing it, so the word that goes in is named after that state of the record and not after
the one that is sent, which `getsockname` gives a local endpoint afterwards.

* `HashedFrom` : the word that the flow id of a record of a run was hashed from;
* `flowId_eq_iff_hashedFrom` : the hash adds no collision of its own.
-/

namespace ETraceGen.Bpf

open Words

/-! ## The inverse -/

/-- The steps of `hash_fold64` undone, the last of them first. -/
def unfoldHash64 (x : UInt64) : UInt64 :=
  let x := x ^^^ (x >>> 33)
  let x := x * 0x9cb4b2f8129337db
  let x := x ^^^ (x >>> 33)
  let x := x * 0x4f74430c22a54005
  x ^^^ (x >>> 33)

theorem xor_shift33_twice (x : UInt64) : (x ^^^ (x >>> 33)) ^^^ ((x ^^^ (x >>> 33)) >>> 33) = x := by
  apply UInt64.toBitVec_inj.mp
  rw [toBitVec_xor_shift33, toBitVec_xor_shift33, xorShift_xorShift (by decide)]

theorem hashFold64_unfoldHash64 (x : UInt64) : hashFold64 (unfoldHash64 x) = x := by
  have hfirst : ∀ z : UInt64, z * 0x4f74430c22a54005 * 0xff51afd7ed558ccd = z := by
    intro z
    rw [UInt64.mul_assoc, show (0x4f74430c22a54005 : UInt64) * 0xff51afd7ed558ccd = 1 by decide,
      UInt64.mul_one]
  have hsecond : ∀ z : UInt64, z * 0x9cb4b2f8129337db * 0xc4ceb9fe1a85ec53 = z := by
    intro z
    rw [UInt64.mul_assoc, show (0x9cb4b2f8129337db : UInt64) * 0xc4ceb9fe1a85ec53 = 1 by decide,
      UInt64.mul_one]
  simp only [hashFold64, unfoldHash64, xor_shift33_twice, hfirst, hsecond]

theorem hashFold64_surjective : Function.Surjective hashFold64 :=
  fun x => ⟨unfoldHash64 x, hashFold64_unfoldHash64 x⟩

/-! ## The record as it is hashed -/

/-- An exit of the run made the record from what its enter had saved, and that is the word it hashed. -/
def HashedFrom (maps : ProbeMaps) (steps : List Step) (ev : NetworkEvent) (identity : UInt64) : Prop :=
  ∃ before env kind ret after state,
    steps = before ++ .deliver env (.exitNetwork kind ret) :: after ∧
      (run maps (before ++ [.deliver env (.exitNetwork kind ret)])).events.records =
        (run maps before).events.records ++ [.network ev] ∧
      (run maps before).networkEnterState.lookup (makeNetworkKey env kind) = some state ∧
      ev = finishNetworkEvent env kind ret state ∧
      identity = networkFlowIdentity env (recordAtHash env kind ret state)

section
variable {maps : ProbeMaps} {steps : List Step} {ev : NetworkEvent}

theorem pending_flowId {key : NetworkStateKey} {state : NetworkStateValue}
    (h : (run maps steps).networkEnterState.lookup key = some state) : state.ev.flowId = 0 := by
  obtain ⟨k, step, hmem, hop⟩ := enter_of_stored (networkTable_init maps) h
  obtain ⟨env, args, hstep, htask, hstate, -⟩ := networkOp_eq_enter maps hop
  rw [hstate]
  exact (networkPayload_identity env args key.kind).1

theorem HashedFrom.flowId {identity : UInt64} (h : HashedFrom maps steps ev identity) :
    ev.flowId = hashFold64 identity := by
  obtain ⟨before, env, kind, ret, after, state, -, -, hlook, rfl, rfl⟩ := h
  exact finishNetworkEvent_hashed env kind ret state (pending_flowId hlook)

/-- A network record is made by the exit of a network call. -/
theorem Source.exitNetwork {before : List Step} {env : HookEnv} {hook : Hook}
    (h : Source before env hook (.network ev)) : ∃ kind ret, hook = .exitNetwork kind ret := by
  generalize hrecord : EventVariant.network ev = record at h
  cases h with
  | process hkind => cases hrecord
  | paired hmem htask henter hexit hmade =>
    unfold makeRecord at hmade
    split at hmade
    · cases hmade
      cases hrecord
    · cases hmade
      cases hrecord
    · exact ⟨_, _, rfl⟩
    · cases hmade

theorem exists_hashedFrom (h : .network ev ∈ (run maps steps).events.records) :
    ∃ identity, HashedFrom maps steps ev identity := by
  obtain ⟨before, env, hook, after, hsteps, hmade⟩ := mem_records_submitted h
  obtain ⟨kind, ret, rfl⟩ := (record_source hmade).exitNetwork
  have hexec := hmade
  rw [run_snoc] at hexec
  obtain ⟨-, -, state, hlook, hrecord⟩ := record_of_exitNetwork hexec
  exact ⟨_, before, env, kind, ret, after, state, hsteps, hmade, hlook, EventVariant.network.inj hrecord,
    rfl⟩

end

/-- **The hash adds no collision of its own**: it is a bijection of the words, every network record has a
word it was hashed from, and two records of any two runs have one flow id exactly when they were hashed from
one word. -/
theorem flowId_eq_iff_hashedFrom :
    Function.Bijective hashFold64 ∧
      (∀ (maps : ProbeMaps) (steps : List Step) (ev : NetworkEvent),
        .network ev ∈ (run maps steps).events.records → ∃ identity, HashedFrom maps steps ev identity) ∧
      ∀ (maps maps' : ProbeMaps) (steps steps' : List Step) (ev ev' : NetworkEvent)
        (identity identity' : UInt64),
        HashedFrom maps steps ev identity → HashedFrom maps' steps' ev' identity' →
          (ev.flowId = ev'.flowId ↔ identity = identity') := by
  refine ⟨⟨hashFold64_injective, hashFold64_surjective⟩, fun maps steps ev h => exists_hashedFrom h, ?_⟩
  intro maps maps' steps steps' ev ev' identity identity' h h'
  rw [h.flowId, h'.flowId]
  exact hashFold64_injective.eq_iff

end ETraceGen.Bpf
