import ETraceGen.Sink.Format
import ETraceGen.Lib.JsonLine

/-!
# A line reads back as its event

* `eventJson` : the object a line stands for, field by field;
* `jsonEscape_chars` : what an escaped text stands for, byte by byte;
* `serialized_reads` : the line of an event is one line, and by the grammar of JSON exactly its object.
-/

namespace ETraceGen.JsonSink

open Json (Line Tail Chars units)

/-! ## The object of an event -/

def field (name : String) (j : Json) : List UInt16 × Json := (units (str name), j)

def int (i : Int) : Json := .num i 0

def text (s : Bytes) : Json := .str (units s)

def headerMembers (h : EventHeader) : List (List UInt16 × Json) :=
  [field "ts_ns" (int h.tsNs.toNat),
    field "type" (text (str (eventTypeToString h.type))),
    field "pid" (int h.pid.toNat),
    field "tgid" (int h.tgid.toNat),
    field "ppid" (int h.ppid.toNat),
    field "uid" (int h.uid.toNat),
    field "gid" (int h.gid.toNat),
    field "comm" (text h.comm.cstr)]

/-- What is said of the entity, and of one that is not resolved. -/
def entityMembers : Option ProcessEntity → List (List UInt16 × Json)
  | some e =>
    [field "exec_path" (text e.execPath),
      field "cmdline" (text e.cmdline),
      field "cwd" (text e.cwd),
      field "parent_comm" (text e.parentComm),
      field "start_time_ticks" (int e.startTimeTicks.toNat)]
  | none =>
    [field "exec_path" (text []),
      field "cmdline" (text []),
      field "cwd" (text []),
      field "parent_comm" (text []),
      field "start_time_ticks" (int 0)]

def processInfoMembers (h : EventHeader) (pe : Option ProcessEntity) : List (List UInt16 × Json) :=
  [field "pid" (int h.pid.toNat),
    field "tgid" (int h.tgid.toNat),
    field "ppid" (int h.ppid.toNat),
    field "uid" (int h.uid.toNat),
    field "gid" (int h.gid.toNat),
    field "comm" (text h.comm.cstr)] ++ entityMembers pe

def endpointMembers (label : String) (ep : NetworkEndpoint) : List (List UInt16 × Json) :=
  [field (label ++ "_family") (int ep.family.toNat),
    field (label ++ "_port") (int ep.port.toNat),
    field (label ++ "_addr_len") (int ep.addrLen.toNat),
    field (label ++ "_addr") (text (bytesToHex ep.addr.toList (min ep.addrLen.toNat 16))),
    field (label ++ "_path") (text ep.path.cstr)]

def processMembers (ev : ProcessEvent) (pe : Option ProcessEntity) : List (List UInt16 × Json) :=
  [field "kind" (int ev.kind.toNat),
    field "exit_code" (int ev.exitCode.toNat),
    field "child_pid" (int ev.childPid.toNat),
    field "filename" (match pe with | some e => text e.execPath | none => text [])] ++ entityMembers pe

def fileMembers (ev : FileEvent) : List (List UInt16 × Json) :=
  [field "kind" (int ev.kind.toNat),
    field "ret" (int ev.ret.toInt),
    field "path_a" (text ev.pathA.cstr),
    field "path_b" (text ev.pathB.cstr)]

def syscallMembers (ev : SyscallEvent) : List (List UInt16 × Json) :=
  [field "is_enter" (int ev.isEnter.toNat),
    field "syscall_nr" (int ev.syscallNr.toInt),
    field "ret" (int ev.ret.toInt)]

def networkMembers (ev : NetworkEvent) : List (List UInt16 × Json) :=
  [field "event_name" (text (str (networkEventKindToString ev.kind))),
    field "kind" (int ev.kind.toNat),
    field "fd" (int ev.fd.toInt),
    field "peer_fd" (int ev.peerFd.toInt),
    field "ret" (int ev.ret.toInt),
    field "domain" (int ev.domain.toInt),
    field "sock_type" (int ev.sockType.toInt),
    field "protocol" (int ev.protocol.toInt),
    field "flags" (int ev.flags.toInt),
    field "backlog" (int ev.backlog.toInt),
    field "how" (int ev.how.toInt),
    field "opt_level" (int ev.optLevel.toInt),
    field "opt_name" (int ev.optName.toInt),
    field "opt_len" (int ev.optLen.toInt),
    field "optval_prefix" (text ev.optvalPrefix.toList),
    field "flow_id" (int ev.flowId.toNat),
    field "socket_id" (int ev.socketId.toNat),
    field "direction" (text (str (networkDirectionToString ev.direction))),
    field "transport" (text (str (networkTransportToString ev.transport))),
    field "bytes_requested" (int ev.bytesRequested.toNat),
    field "bytes_transferred" (int ev.bytesTransferred.toNat),
    field "bytes_captured" (int ev.bytesCaptured.toNat),
    field "bytes_truncated" (int ev.bytesTruncated.toNat)] ++
  (endpointMembers "local" ev.localEp ++ endpointMembers "remote" ev.remoteEp)

def variantMembers (pe : Option ProcessEntity) : EventVariant → List (List UInt16 × Json)
  | .process ev => processMembers ev pe
  | .file ev => fileMembers ev
  | .syscall ev => syscallMembers ev
  | .network ev => networkMembers ev

/-- The reference to the entity acted on, if there is one. -/
def objectMembers (id : Nat) : List (List UInt16 × Json) :=
  if id ≠ 0 then [field "object_entity_id" (int id)] else []

def eventMembers (canonical : CanonicalEvent) (event : EventVariant) : List (List UInt16 × Json) :=
  headerMembers event.hdr ++
    (field "process_info" (.obj (processInfoMembers event.hdr canonical.subjectProcess)) ::
      field "entity_id" (int canonical.subject.id) ::
        (objectMembers canonical.objectRef.id ++ variantMembers canonical.subjectProcess event))

/-- What the line of an event says. -/
def eventJson (canonical : CanonicalEvent) (event : EventVariant) : Json := .obj (eventMembers canonical event)

/-! ## Escaped texts -/

theorem escapeByte_chars (c : UInt8) : Chars (escapeByte c) [c.toUInt16] := by
  unfold escapeByte
  split_ifs with h₁ h₂ h₃ h₄ h₅ h₆ h₇ h₈
  · subst h₁
    exact .short rfl .nil
  · subst h₂
    exact .short rfl .nil
  · subst h₃
    exact .short rfl .nil
  · subst h₄
    exact .short rfl .nil
  · subst h₅
    exact .short rfl .nil
  · subst h₆
    exact .short rfl .nil
  · subst h₇
    exact .short rfl .nil
  · have hall : ∀ k < 32, Json.hexUnit? 0x30 0x30 (hexDigit (UInt8.ofNat k >>> 4))
        (hexDigit (UInt8.ofNat k &&& 0x0F)) = some (UInt8.ofNat k).toUInt16 := by decide
    have hunit := hall c.toNat (UInt8.lt_iff_toNat_lt.mp h₈)
    rw [UInt8.ofNat_toNat] at hunit
    exact .hex hunit .nil
  · refine .plain ?_ .nil
    rw [Json.isPlain, Bool.and_eq_true, Bool.and_eq_true, decide_eq_true_eq, bne_iff_ne, bne_iff_ne]
    exact ⟨⟨UInt8.not_lt.mp h₈, h₁⟩, h₂⟩

/-- **An escaped text stands for its bytes**, NULs included. -/
theorem jsonEscape_chars (s : Bytes) : Chars (jsonEscape s) (units s) := by
  induction s with
  | nil => exact .nil
  | cons c s ih => exact (escapeByte_chars c).append ih

/-! ## Members -/

/-- A name that is written as it is. -/
def Plain (s : String) : Prop := ∀ b ∈ str s, Json.isPlain b = true

instance (s : String) : Decidable (Plain s) :=
  List.decidableBAll (fun b => Json.isPlain b = true) (str s)

section Members
variable {name : String} {s rest : Bytes} {j : Json} {ms : List (List UInt16 × Json)}

theorem line_member (hname : Plain name) (hj : Line .value s j) (h : Tail rest ms) :
    Line .members (key name ++ (s ++ rest)) (.obj (field name j :: ms)) := by
  have hmember := Tail.member (Chars.of_plain hname) hj h
  simp only [key, List.flatten_cons, List.flatten_nil, List.append_assoc, List.append_nil]
  exact hmember

/-- One more member, behind a comma. -/
theorem tail_member (hname : Plain name) (hj : Line .value s j) (h : Tail rest ms) :
    Tail (str "," ++ (key name ++ (s ++ rest))) (field name j :: ms) :=
  .cons (line_member hname hj h)

theorem line_quoted {us : List UInt16} (h : Chars s us) : Line .value (quoted s) (.str us) := by
  simp only [quoted, List.flatten_cons, List.flatten_nil, List.append_nil]
  exact .str h

theorem line_text (s : Bytes) : Line .value (quoted (jsonEscape s)) (text s) :=
  line_quoted (jsonEscape_chars s)

theorem line_cstr {n : Nat} (buf : CharBuf n) :
    Line .value (quoted (jsonEscapeC (buf.toList ++ []))) (text buf.cstr) := by
  rw [jsonEscapeC_eq, List.append_nil]
  exact line_text _

theorem line_label {label : String} (h : Plain label) : Line .value (quoted (str label)) (text (str label)) :=
  line_quoted (.of_plain h)

theorem line_hex (bytes : Bytes) (size : Nat) :
    Line .value (quoted (bytesToHex bytes size)) (text (bytesToHex bytes size)) :=
  line_quoted (.of_plain (bytesToHex_cases (P := fun c => Json.isPlain c = true) (by decide) bytes size))

end Members

/-! ## Writers -/

section Writers
variable {rest : Bytes} {ms : List (List UInt16 × Json)}

theorem writeHeader_line (h : EventHeader) (hrest : Tail rest ms) :
    Line .members (writeHeader h ++ rest) (.obj (headerMembers h ++ ms)) := by
  simp only [writeHeader, headerMembers, List.flatten_cons, List.flatten_nil, List.append_assoc,
    List.cons_append, List.nil_append]
  refine line_member (by decide) (.nat _) ?_
  refine tail_member (by decide) (line_label (labelOf_cases (by decide) (by decide) _)) ?_
  refine tail_member (by decide) (.nat _) ?_
  refine tail_member (by decide) (.nat _) ?_
  refine tail_member (by decide) (.nat _) ?_
  refine tail_member (by decide) (.nat _) ?_
  refine tail_member (by decide) (.nat _) ?_
  exact tail_member (by decide) (line_cstr _) hrest

/-- The writer's fields of an entity. -/
theorem entity_tail (pe : Option ProcessEntity) :
    Tail (str "," ++ (key "exec_path" ++ (quoted (jsonEscape (entityText pe ProcessEntity.execPath)) ++
      (str "," ++ (key "cmdline" ++ (quoted (jsonEscape (entityText pe ProcessEntity.cmdline)) ++
        (str "," ++ (key "cwd" ++ (quoted (jsonEscape (entityText pe ProcessEntity.cwd)) ++
          (str "," ++ (key "parent_comm" ++ (quoted (jsonEscape (entityText pe ProcessEntity.parentComm)) ++
            (str "," ++ (key "start_time_ticks" ++ (dec (startTimeTicks pe).toNat ++ [])))))))))))))))
      (entityMembers pe) := by
  cases pe with
  | none =>
    refine tail_member (by decide) (line_text _) ?_
    refine tail_member (by decide) (line_text _) ?_
    refine tail_member (by decide) (line_text _) ?_
    refine tail_member (by decide) (line_text _) ?_
    exact tail_member (by decide) (.nat _) .nil
  | some e =>
    refine tail_member (by decide) (line_text _) ?_
    refine tail_member (by decide) (line_text _) ?_
    refine tail_member (by decide) (line_text _) ?_
    refine tail_member (by decide) (line_text _) ?_
    exact tail_member (by decide) (.nat _) .nil

theorem processInfoBody_line (h : EventHeader) (pe : Option ProcessEntity) :
    Line .members (processInfoBody h pe) (.obj (processInfoMembers h pe)) := by
  simp only [processInfoBody, processInfoMembers, List.flatten_cons, List.flatten_nil, List.cons_append,
    List.nil_append]
  refine line_member (by decide) (.nat _) ?_
  refine tail_member (by decide) (.nat _) ?_
  refine tail_member (by decide) (.nat _) ?_
  refine tail_member (by decide) (.nat _) ?_
  refine tail_member (by decide) (.nat _) ?_
  exact tail_member (by decide) (line_cstr _) (entity_tail pe)

theorem writeProcessInfo_tail (h : EventHeader) (pe : Option ProcessEntity) (hrest : Tail rest ms) :
    Tail (writeProcessInfo h pe ++ rest) (field "process_info" (.obj (processInfoMembers h pe)) :: ms) := by
  have hinfo : Tail (str "," ++ (key "process_info" ++ ((0x7B :: (processInfoBody h pe ++ [0x7D])) ++ rest)))
      (field "process_info" (.obj (processInfoMembers h pe)) :: ms) :=
    tail_member (by decide) (processInfoBody_line h pe).obj hrest
  simp only [writeProcessInfo, List.flatten_cons, List.flatten_nil, List.append_nil, List.append_assoc]
  rw [List.cons_append, List.append_assoc] at hinfo
  exact hinfo

theorem writeNetworkEndpoint_tail {label : String} (hlabel : label ∈ ["local", "remote"])
    (ep : NetworkEndpoint) (hrest : Tail rest ms) :
    Tail (writeNetworkEndpoint label ep ++ rest) (endpointMembers label ep ++ ms) := by
  have hplain : ∀ l ∈ ["local", "remote"], ∀ s ∈ ["_family", "_port", "_addr_len", "_addr", "_path"],
      Plain (l ++ s) := by decide
  have hname := hplain label hlabel
  simp only [writeNetworkEndpoint, endpointMembers, List.flatten_cons, List.flatten_nil, List.append_assoc,
    List.cons_append, List.nil_append]
  refine tail_member (hname _ (by decide)) (.nat _) ?_
  refine tail_member (hname _ (by decide)) (.nat _) ?_
  refine tail_member (hname _ (by decide)) (.nat _) ?_
  refine tail_member (hname _ (by decide)) (line_hex _ _) ?_
  exact tail_member (hname _ (by decide)) (line_cstr _) hrest

theorem writeProcessEvent_tail (ev : ProcessEvent) (pe : Option ProcessEntity) :
    Tail (writeProcessEvent ev pe) (processMembers ev pe) := by
  have hfilename : Line .value (quoted (jsonEscape (entityText pe ProcessEntity.execPath)))
      (match pe with | some e => text e.execPath | none => text []) := by
    cases pe <;> exact line_text _
  simp only [writeProcessEvent, processMembers, List.flatten_cons, List.flatten_nil, List.cons_append,
    List.nil_append]
  refine tail_member (by decide) (.nat _) ?_
  refine tail_member (by decide) (.nat _) ?_
  refine tail_member (by decide) (.nat _) ?_
  exact tail_member (by decide) hfilename (entity_tail pe)

theorem writeFileEvent_tail (ev : FileEvent) : Tail (writeFileEvent ev) (fileMembers ev) := by
  simp only [writeFileEvent, fileMembers, List.flatten_cons, List.flatten_nil]
  refine tail_member (by decide) (.nat _) ?_
  refine tail_member (by decide) (.int _) ?_
  refine tail_member (by decide) (line_cstr _) ?_
  exact tail_member (by decide) (line_cstr _) .nil

theorem writeSyscallEvent_tail (ev : SyscallEvent) : Tail (writeSyscallEvent ev) (syscallMembers ev) := by
  simp only [writeSyscallEvent, syscallMembers, List.flatten_cons, List.flatten_nil]
  refine tail_member (by decide) (.nat _) ?_
  refine tail_member (by decide) (.int _) ?_
  exact tail_member (by decide) (.int _) .nil

theorem writeNetworkEvent_tail (ev : NetworkEvent) : Tail (writeNetworkEvent ev) (networkMembers ev) := by
  have hends : Tail (writeNetworkEndpoint "local" ev.localEp ++
      (writeNetworkEndpoint "remote" ev.remoteEp ++ []))
      (endpointMembers "local" ev.localEp ++ (endpointMembers "remote" ev.remoteEp ++ [])) :=
    writeNetworkEndpoint_tail (by decide) _ (writeNetworkEndpoint_tail (by decide) _ .nil)
  rw [List.append_nil (endpointMembers _ _)] at hends
  simp only [writeNetworkEvent, networkMembers, List.flatten_cons, List.flatten_nil, List.cons_append,
    List.nil_append]
  refine tail_member (by decide) (line_label (labelOf_cases (by decide) (by decide) _)) ?_
  refine tail_member (by decide) (.nat _) ?_
  refine tail_member (by decide) (.int _) ?_
  refine tail_member (by decide) (.int _) ?_
  refine tail_member (by decide) (.int _) ?_
  refine tail_member (by decide) (.int _) ?_
  refine tail_member (by decide) (.int _) ?_
  refine tail_member (by decide) (.int _) ?_
  refine tail_member (by decide) (.int _) ?_
  refine tail_member (by decide) (.int _) ?_
  refine tail_member (by decide) (.int _) ?_
  refine tail_member (by decide) (.int _) ?_
  refine tail_member (by decide) (.int _) ?_
  refine tail_member (by decide) (.int _) ?_
  refine tail_member (by decide) (line_text _) ?_
  refine tail_member (by decide) (.nat _) ?_
  refine tail_member (by decide) (.nat _) ?_
  refine tail_member (by decide) (line_label (labelOf_cases (by decide) (by decide) _)) ?_
  refine tail_member (by decide) (line_label (labelOf_cases (by decide) (by decide) _)) ?_
  refine tail_member (by decide) (.nat _) ?_
  refine tail_member (by decide) (.nat _) ?_
  refine tail_member (by decide) (.nat _) ?_
  exact tail_member (by decide) (.nat _) hends

theorem writeVariant_tail (pe : Option ProcessEntity) (event : EventVariant) :
    Tail (writeVariant pe event) (variantMembers pe event) := by
  cases event with
  | process ev => exact writeProcessEvent_tail ev pe
  | file ev => exact writeFileEvent_tail ev
  | syscall ev => exact writeSyscallEvent_tail ev
  | network ev => exact writeNetworkEvent_tail ev

theorem writeObject_tail (id : Nat) (hrest : Tail rest ms) :
    Tail (writeObject id ++ rest) (objectMembers id ++ ms) := by
  unfold writeObject objectMembers
  split_ifs
  · simp only [List.flatten_cons, List.flatten_nil, List.append_assoc, List.cons_append, List.nil_append]
    exact tail_member (by decide) (.nat _) hrest
  · exact hrest

theorem writeEventBody_line (canonical : CanonicalEvent) (event : EventVariant) :
    Line .value (0x7B :: (writeEventBody canonical event ++ [0x7D])) (eventJson canonical event) := by
  refine .obj ?_
  simp only [writeEventBody, List.flatten_cons, List.flatten_nil, List.append_nil]
  refine writeHeader_line _ (writeProcessInfo_tail _ _ ?_)
  refine tail_member (by decide) (.nat _) ?_
  exact writeObject_tail _ (writeVariant_tail _ _)

end Writers

/-! ## Names -/

/-- The members of a line, the optional one included. -/
def names (t : EventType) : List String :=
  ["ts_ns", "type", "pid", "tgid", "ppid", "uid", "gid", "comm", "process_info", "entity_id",
    "object_entity_id"] ++
  match t with
  | .process => ["kind", "exit_code", "child_pid", "filename", "exec_path", "cmdline", "cwd", "parent_comm",
      "start_time_ticks"]
  | .file => ["kind", "ret", "path_a", "path_b"]
  | .syscall => ["is_enter", "syscall_nr", "ret"]
  | .network => ["event_name", "kind", "fd", "peer_fd", "ret", "domain", "sock_type", "protocol", "flags",
      "backlog", "how", "opt_level", "opt_name", "opt_len", "optval_prefix", "flow_id", "socket_id",
      "direction", "transport", "bytes_requested", "bytes_transferred", "bytes_captured",
      "bytes_truncated", "local_family", "local_port", "local_addr_len", "local_addr", "local_path",
      "remote_family", "remote_port", "remote_addr_len", "remote_addr", "remote_path"]

theorem nodup_names (t : EventType) : ((names t).map fun name => units (str name)).Nodup := by
  cases t <;> decide

theorem nodup_processInfo (h : EventHeader) (pe : Option ProcessEntity) :
    ((processInfoMembers h pe).map Prod.fst).Nodup := by
  have hnames : (["pid", "tgid", "ppid", "uid", "gid", "comm", "exec_path", "cmdline", "cwd", "parent_comm",
      "start_time_ticks"].map fun name => units (str name)).Nodup := by decide
  cases pe <;> exact hnames

/-- The members of a line are those of its family, with or without the entity acted on. -/
theorem names_sublist (canonical : CanonicalEvent) (event : EventVariant) :
    ((eventMembers canonical event).map Prod.fst).Sublist
      ((names event.type).map fun name => units (str name)) := by
  have hvariant : ((objectMembers canonical.objectRef.id ++
      variantMembers canonical.subjectProcess event).map Prod.fst).Sublist
      (((names event.type).drop 10).map fun name => units (str name)) := by
    unfold objectMembers
    split_ifs
    · cases event <;> cases canonical.subjectProcess <;> exact List.Sublist.refl _
    · cases event <;> cases canonical.subjectProcess <;> exact List.sublist_cons_self _ _
  exact hvariant.append_left (((names event.type).take 10).map fun name => units (str name))

/-- A number or a text. -/
theorem distinct_field (name : String) :
    (∀ i, (field name (int i)).2.Distinct) ∧ ∀ s, (field name (text s)).2.Distinct :=
  ⟨fun _ => .num _ _, fun _ => .str _⟩

theorem distinct_processInfo (h : EventHeader) (pe : Option ProcessEntity) :
    (Json.obj (processInfoMembers h pe)).Distinct := by
  refine .obj (nodup_processInfo h pe) ?_
  cases pe <;> simp [processInfoMembers, entityMembers, distinct_field]

theorem distinct_variant (pe : Option ProcessEntity) (event : EventVariant) :
    ∀ m ∈ variantMembers pe event, m.2.Distinct := by
  cases event with
  | process ev => cases pe <;> simp [variantMembers, processMembers, entityMembers, distinct_field]
  | file ev => simp [variantMembers, fileMembers, distinct_field]
  | syscall ev => simp [variantMembers, syscallMembers, distinct_field]
  | network ev => simp [variantMembers, networkMembers, endpointMembers, distinct_field, or_imp, forall_and]

theorem distinct_eventJson (canonical : CanonicalEvent) (event : EventVariant) :
    (eventJson canonical event).Distinct := by
  refine .obj ((nodup_names event.type).sublist (names_sublist canonical event)) ?_
  have hheader : ∀ m ∈ headerMembers event.hdr, m.2.Distinct := by
    simp [headerMembers, distinct_field]
  have hobject : ∀ m ∈ objectMembers canonical.objectRef.id, m.2.Distinct := by
    unfold objectMembers
    split_ifs <;> simp [distinct_field]
  intro m hm
  rcases List.mem_append.mp hm with hm | hm
  · exact hheader m hm
  rcases List.mem_cons.mp hm with rfl | hm
  · exact distinct_processInfo _ _
  rcases List.mem_cons.mp hm with rfl | hm
  · exact (distinct_field _).1 _
  rcases List.mem_append.mp hm with hm | hm
  · exact hobject m hm
  · exact distinct_variant _ _ m hm

/-- A line whose texts end inside their arrays, or behind which a NUL stands. -/
theorem serialized_line (canonical : CanonicalEvent) (event : EventVariant) :
    serialized canonical event = (0x7B :: (writeEventBody canonical event ++ [0x7D])) ++ [0x0A] := by
  simp only [serialized, List.flatten_cons, List.flatten_nil, List.append_nil, List.cons_append,
    List.append_assoc]
  rfl

/-- **The line of an event** whose texts end inside their arrays is one line with one JSON object, which reads back as
the event, every integer and every text exactly; and the overloads of the escape agree where both apply. -/
theorem serialized_reads :
    (∀ (canonical : CanonicalEvent) (event : EventVariant) (behind : Behind), Terminated event → ∃ line,
      serialized canonical event behind = line ++ [0x0A] ∧ 0x0A ∉ line ∧
      Json.Text line (eventJson canonical event) ∧ (∀ j, Json.Text line j → j = eventJson canonical event) ∧
      Json.parse line = some (eventJson canonical event) ∧ (eventJson canonical event).Distinct) ∧
    ∀ s behind : Bytes, 0 ∉ s → jsonEscapeC (s ++ 0 :: behind) = jsonEscape s := by
  refine ⟨fun canonical event behind hterminated => ?_, fun s behind h => jsonEscapeC_eq_jsonEscape h behind⟩
  have hline := writeEventBody_line canonical event
  have htext : Json.Text (0x7B :: (writeEventBody canonical event ++ [0x7D])) (eventJson canonical event) :=
    ⟨[], _, [], by rw [List.append_nil, List.nil_append], nofun, nofun, hline.derives⟩
  refine ⟨_, ?_, fun hmem => absurd (hline.printable _ hmem) (by decide), htext, fun j hj => hj.unique htext,
    htext.parse_eq, distinct_eventJson canonical event⟩
  rw [serialized_behind canonical hterminated, serialized_line]

/-- An `openat` of a name with a quote and a newline in it, by an entity whose command line has NULs, with bytes behind
the arrays that are not read. -/
theorem serialized_reads_openat : ∃ line,
    serialized { subjectProcess := some { cmdline := [0x61, 0, 0x62], startTimeTicks := 5 } }
        (.file { (default : FileEvent) with
          pathA := ((Vector.replicate pathLen 0).setIfInBounds 0 0x22).setIfInBounds 1 0x0A })
        { comm := [0x22], pathA := [0x0A] } = line ++ [0x0A] ∧
      0x0A ∉ line ∧
      Json.parse line = some (eventJson
        { subjectProcess := some { cmdline := [0x61, 0, 0x62], startTimeTicks := 5 } }
        (.file { (default : FileEvent) with
          pathA := ((Vector.replicate pathLen 0).setIfInBounds 0 0x22).setIfInBounds 1 0x0A })) := by
  obtain ⟨line, hline, hone, -, -, hparse, -⟩ := serialized_reads.1
    { subjectProcess := some { cmdline := [0x61, 0, 0x62], startTimeTicks := 5 } }
    (.file { (default : FileEvent) with
      pathA := ((Vector.replicate pathLen 0).setIfInBounds 0 0x22).setIfInBounds 1 0x0A })
    { comm := [0x22], pathA := [0x0A] } (by decide +kernel)
  exact ⟨line, hline, hone, hparse⟩

end ETraceGen.JsonSink
