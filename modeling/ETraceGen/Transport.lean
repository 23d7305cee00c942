import ETraceGen.Bpf.ReturnedAddress
import ETraceGen.Sink.Endpoint

/-!
# Transports

`socket` and `socketpair` are given a family and a word with a base type in its low four bits and flags above
them. The handlers label the socket from the family and the whole word.

* `lineTransport_serialized` : the line has the label of the record;
* `RightLabel` : the label of a family and a base type;
* `rightTransport_iff` : when the label is the right one, in the record and in its line.
-/

namespace ETraceGen

open JsonSink Bpf

/-! ## The label in the line -/

namespace JsonSink

/-- The member of a name that no other member has. -/
theorem member?_of_mem {ms : List (List UInt16 × Json)} (hnames : (ms.map Prod.fst).Nodup) {name : String}
    {j : Json} (h : field name j ∈ ms) : member? name ms = some j := by
  unfold member?
  induction ms with
  | nil => cases h
  | cons m ms ih =>
    obtain ⟨hnew, hrest⟩ := List.nodup_cons.mp hnames
    rcases List.mem_cons.mp h with rfl | hmem
    · have hfind : (field name j :: ms).find? (fun m => decide (m.1 = Json.units (str name))) =
          some (field name j) := List.find?_cons_of_pos (decide_eq_true rfl)
      rw [hfind]
      rfl
    · have hne : m.1 ≠ Json.units (str name) := by
        intro heq
        apply hnew
        rw [heq]
        exact List.mem_map.mpr ⟨field name j, hmem, rfl⟩
      rw [List.find?_cons_of_neg (by simpa using hne)]
      exact ih hrest hmem

theorem serialized_text (canonical : CanonicalEvent) (event : EventVariant) :
    Json.Text (serialized canonical event) (eventJson canonical event) := by
  have hline := writeEventBody_line canonical event
  have hws : Json.Ws [0x0A] := by
    intro b hb
    rw [List.mem_singleton.mp hb]
    rfl
  exact ⟨[], _, [0x0A], serialized_line canonical event, nofun, hws, hline.derives⟩

/-- The label of the transport in a line. -/
def lineTransport? (line : Bytes) : Option (List UInt16) :=
  match Json.parse line with
  | some (.obj ms) =>
    match member? "transport" ms with
    | some (.str label) => some label
    | _ => none
  | _ => none

theorem lineTransport_serialized (canonical : CanonicalEvent) (ev : NetworkEvent) :
    lineTransport? (serialized canonical (.network ev)) =
      some (Json.units (str (networkTransportToString ev.transport))) := by
  have hnames : ((eventMembers canonical (.network ev)).map Prod.fst).Nodup :=
    (nodup_names .network).sublist (names_sublist canonical (.network ev))
  have hmem : field "transport" (text (str (networkTransportToString ev.transport))) ∈
      eventMembers canonical (.network ev) := by
    simp [eventMembers, variantMembers, networkMembers]
  unfold lineTransport?
  rw [(serialized_text canonical (.network ev)).parse_eq, eventJson]
  dsimp only
  rw [member?_of_mem hnames hmem, text]

end JsonSink

/-! ## The label of a socket -/

/-- `AF_INET` or `AF_INET6`. -/
def IsInet (domain : Int32) : Prop := domain = 2 ∨ domain = 10

instance (domain : Int32) : Decidable (IsInet domain) := inferInstanceAs (Decidable (_ ∨ _))

/-- No flags, `SOCK_NONBLOCK`, `SOCK_CLOEXEC`, or both. -/
def socketFlags : List UInt32 := [0, 0x800, 0x80000, 0x80800]

/-- The label says what the socket is, and is that of the base type on its own. -/
structure RightLabel (domain : Int32) (base : UInt32) (label : String) : Prop where
  unix : label = "unix" ↔ domain = 1
  tcp : label = "tcp" ↔ IsInet domain ∧ base = 1
  udp : label = "udp" ↔ IsInet domain ∧ base = 2
  flagless : label = (inferNetworkTransport domain base.toInt32).label

/-- So does the record, and so does its line whatever the registry adds to it. -/
structure RightTransport (domain : Int32) (base : UInt32) (out : NetworkEvent) : Prop where
  record : RightLabel domain base (networkTransportToString out.transport)
  line : ∀ canonical, ∃ label,
    lineTransport? (serialized canonical (.network out)) = some (Json.units (str label)) ∧
      RightLabel domain base label

/-- The labels that the handler gets right. -/
def RightlyInferred (domain : Int32) (base flags : UInt32) : Prop :=
  domain = 1 ∨ base ∉ [1, 2, 3] ∨ flags = 0 ∧ (IsInet domain ∨ base = 3)

section
variable {domain : Int32} {base flags : UInt32}

/-- The word is a base type alone exactly if it has no flags. -/
theorem type_eq_iff (hbase : base < 16) (hflags : flags ∈ socketFlags) {t : UInt32} (ht : t ∈ [1, 2, 3]) :
    (base ||| flags).toInt32 = t.toInt32 ↔ base = t ∧ flags = 0 := by
  have hall : ((List.range 16).all fun b => socketFlags.all fun f => [1, 2, 3].all fun t : UInt32 =>
      decide ((UInt32.ofNat b ||| f).toInt32 = t.toInt32 ↔ UInt32.ofNat b = t ∧ f = 0)) = true := by decide
  simp only [List.all_eq_true, List.mem_range, decide_eq_true_eq] at hall
  have hone := hall base.toNat (UInt32.lt_iff_toNat_lt.mp hbase) flags hflags t ht
  rwa [UInt32.ofNat_toNat] at hone

theorem label_injective : Function.Injective NetworkTransport.label := by
  intro a b h
  cases a <;> cases b <;> first | rfl | exact absurd h (by decide)

theorem inferNetworkTransport_word (hbase : base < 16) (hflags : flags ∈ socketFlags) :
    inferNetworkTransport domain (base ||| flags).toInt32 =
      if domain = 1 then .unix
      else if base = 1 ∧ flags = 0 then .tcp
      else if base = 2 ∧ flags = 0 then .udp
      else if base = 3 ∧ flags = 0 then .raw
      else .unknown := by
  have h₁ := type_eq_iff hbase hflags (t := 1) (by decide)
  have h₂ := type_eq_iff hbase hflags (t := 2) (by decide)
  have h₃ := type_eq_iff hbase hflags (t := 3) (by decide)
  unfold inferNetworkTransport
  exact if_congr Iff.rfl rfl (if_congr h₁ rfl (if_congr h₂ rfl (if_congr h₃ rfl rfl)))

/-- `AF_UNIX` is labelled whatever the type is. -/
theorem rightLabel_unix (type : UInt32) (base : UInt32) :
    RightLabel 1 base (inferNetworkTransport 1 type.toInt32).label := by
  have hnot : ¬IsInet 1 := by decide
  have hlabel : (inferNetworkTransport 1 type.toInt32).label = "unix" := rfl
  rw [hlabel]
  exact ⟨iff_of_true rfl rfl, iff_of_false (by decide) fun h => hnot h.1,
    iff_of_false (by decide) fun h => hnot h.1, rfl⟩

/-- A label of no family and no type. -/
theorem rightLabel_other (hdomain : domain ≠ 1) {transport : NetworkTransport}
    (hother : transport = .unknown ∨ transport = .raw)
    (hplain : inferNetworkTransport domain base.toInt32 = transport) (h₁ : base ≠ 1) (h₂ : base ≠ 2) :
    RightLabel domain base transport.label := by
  have hlabels : transport.label ≠ "unix" ∧ transport.label ≠ "tcp" ∧ transport.label ≠ "udp" := by
    rcases hother with rfl | rfl <;> decide
  obtain ⟨hunix, htcp, hudp⟩ := hlabels
  exact ⟨iff_of_false hunix hdomain, iff_of_false htcp fun h => h₁ h.2, iff_of_false hudp fun h => h₂ h.2,
    by rw [hplain]⟩

/-- With no flags, a label of an internet protocol wants an internet family. -/
theorem rightLabel_flagless_iff (hdomain : domain ≠ 1) (ht : base ∈ [1, 2, 3]) :
    RightLabel domain base (inferNetworkTransport domain base.toInt32).label ↔
      IsInet domain ∨ base = 3 := by
  simp only [List.mem_cons, List.not_mem_nil, or_false] at ht
  rcases ht with rfl | rfl | rfl
  · have hlabel : inferNetworkTransport domain (1 : UInt32).toInt32 = .tcp := if_neg hdomain
    rw [or_iff_left (by decide), hlabel]
    constructor
    · intro h
      exact (h.tcp.mp rfl).1
    · intro h
      exact ⟨iff_of_false (by decide) hdomain, iff_of_true rfl ⟨h, rfl⟩,
        iff_of_false (by decide) fun hand => absurd hand.2 (by decide), by rw [hlabel]⟩
  · have hlabel : inferNetworkTransport domain (2 : UInt32).toInt32 = .udp := if_neg hdomain
    rw [or_iff_left (by decide), hlabel]
    constructor
    · intro h
      exact (h.udp.mp rfl).1
    · intro h
      exact ⟨iff_of_false (by decide) hdomain, iff_of_false (by decide) fun hand => absurd hand.2 (by decide),
        iff_of_true rfl ⟨h, rfl⟩, by rw [hlabel]⟩
  · have hlabel : inferNetworkTransport domain (3 : UInt32).toInt32 = .raw := if_neg hdomain
    rw [hlabel]
    exact iff_of_true (rightLabel_other hdomain (Or.inr rfl) hlabel (by decide) (by decide)) (Or.inr rfl)

theorem rightLabel_iff (hbase : base < 16) (hflags : flags ∈ socketFlags) :
    RightLabel domain base (inferNetworkTransport domain (base ||| flags).toInt32).label ↔
      RightlyInferred domain base flags := by
  have hword := @inferNetworkTransport_word domain base flags hbase hflags
  have hplain := @inferNetworkTransport_word domain base 0 hbase (by decide)
  rw [UInt32.or_zero] at hplain
  unfold RightlyInferred
  by_cases hdomain : domain = 1
  · subst hdomain
    exact iff_of_true (rightLabel_unix _ base) (Or.inl rfl)
  rw [or_iff_right hdomain]
  rw [if_neg hdomain] at hword hplain
  by_cases ht : base ∈ [1, 2, 3]
  · rw [or_iff_right (not_not.mpr ht)]
    by_cases hzero : flags = 0
    · subst hzero
      rw [and_iff_right rfl, UInt32.or_zero]
      exact rightLabel_flagless_iff hdomain ht
    · -- the word is none of the types, the base type is one of them
      have hunknown : inferNetworkTransport domain (base ||| flags).toInt32 = .unknown := by
        simpa [hzero] using hword
      refine iff_of_false (fun h => ?_) (fun h => hzero h.1)
      have hsame := label_injective (hunknown ▸ h.flagless)
      rw [hplain] at hsame
      simp only [List.mem_cons, List.not_mem_nil, or_false] at ht
      rcases ht with rfl | rfl | rfl <;> exact absurd hsame (by decide)
  · have hnone : base ≠ 1 ∧ base ≠ 2 ∧ base ≠ 3 := by simpa using ht
    obtain ⟨h₁, h₂, h₃⟩ := hnone
    have hunknown : inferNetworkTransport domain (base ||| flags).toInt32 = .unknown := by
      simpa [h₁, h₂, h₃] using hword
    rw [hunknown]
    exact iff_of_true (rightLabel_other hdomain (Or.inl rfl) (by simpa [h₁, h₂, h₃] using hplain) h₁ h₂)
      (Or.inl ht)

/-! ## The record and its line -/

theorem networkTransportToString_code (transport : NetworkTransport) :
    networkTransportToString transport.code = transport.label := by
  cases transport <;> decide

/-- The calls that are given a family and a type. -/
def givesType : NetworkEventKind → Bool
  | .socket | .socketpair => true
  | _ => false

theorem finishNetworkEvent_transport {kind : NetworkEventKind} (hkind : givesType kind = true)
    (env env' : HookEnv) (args : SyscallArgs) (ret : Int64) :
    (finishNetworkEvent env' kind ret (networkPayload env kind args)).transport =
      (inferNetworkTransport args.domain args.type).code := by
  obtain ⟨fd, peerFd, remoteEp, flowId, localEp, optLen, optvalPrefix, heq⟩ :=
    finishNetworkEvent_eq env' kind ret (networkPayload env kind args)
  rw [heq]
  cases kind <;> first | rfl | cases hkind

theorem rightTransport_iff_label {out : NetworkEvent} :
    RightTransport domain base out ↔ RightLabel domain base (networkTransportToString out.transport) := by
  constructor
  · intro h
    exact h.record
  · intro h
    exact ⟨h, fun canonical => ⟨_, lineTransport_serialized canonical out, h⟩⟩

end

/-- **The transport of a new socket** is labelled right, in the record and in every line made of it, exactly if
the family is `AF_UNIX`, or the type has no label of its own, or there are no flags and a stream or datagram
type comes with an internet family. -/
theorem rightTransport_iff {maps : ProbeMaps} {before mid : List Step} {env env' : HookEnv}
    {kind : NetworkEventKind} {args : SyscallArgs}
    (hcall : CompletedCall maps before env kind args mid env') (hkind : givesType kind = true)
    {base flags : UInt32} (hbase : base < 16) (hflags : flags ∈ socketFlags)
    (htype : args.type = (base ||| flags).toInt32) (ret : Int64) :
    (∃ out, (run maps (before ++ .deliver env (.enterNetwork kind args) :: mid ++
        [.deliver env' (.exitNetwork kind ret)])).events.records =
          (run maps (before ++ .deliver env (.enterNetwork kind args) :: mid)).events.records ++
            [.network out] ∧ RightTransport args.domain base out) ↔
      RightlyInferred args.domain base flags := by
  rw [hcall.exists_record_iff ret (RightTransport args.domain base), rightTransport_iff_label,
    finishNetworkEvent_transport hkind, networkTransportToString_code, htype]
  exact rightLabel_iff hbase hflags

/-- `socket` with a family and a type. -/
def socketCall (domain type : UInt64) : FinishedCall :=
  plainCall .socket rfl (.of domain type 0 0 0 0) (fun _ => none) (fun _ => none)

/-- A stream socket of `AF_INET`. -/
theorem rightTransport_iff_stream : ∃ out, (socketCall 2 1).Emits out ∧ RightTransport 2 1 out :=
  (rightTransport_iff (socketCall 2 1).completed rfl (show (1 : UInt32) < 16 by decide)
    (show 0 ∈ socketFlags by decide) rfl (socketCall 2 1).ret).mpr (Or.inr (Or.inr ⟨rfl, Or.inl (Or.inl rfl)⟩))

/-- The same with `SOCK_CLOEXEC` is labelled "unknown". -/
theorem not_rightTransport :
    ¬ ∀ (maps : ProbeMaps) (before mid : List Step) (env env' : HookEnv) (kind : NetworkEventKind)
      (args : SyscallArgs) (base flags : UInt32) (ret : Int64),
      CompletedCall maps before env kind args mid env' → givesType kind = true → base < 16 →
      flags ∈ socketFlags → args.type = (base ||| flags).toInt32 →
      ∃ out, (run maps (before ++ .deliver env (.enterNetwork kind args) :: mid ++
          [.deliver env' (.exitNetwork kind ret)])).events.records =
            (run maps (before ++ .deliver env (.enterNetwork kind args) :: mid)).events.records ++
              [.network out] ∧ RightTransport args.domain base out := by
  intro h
  have hcall := (socketCall 2 0x80001).completed
  have hright := h _ _ _ _ _ _ _ 1 0x80000 5 hcall rfl (by decide) (by decide) rfl
  rw [hcall.exists_record_iff 5 (RightTransport _ 1), rightTransport_iff_label,
    finishNetworkEvent_transport (show givesType (socketCall 2 0x80001).kind = true from rfl)] at hright
  exact absurd hright.tcp (by decide)

end ETraceGen
