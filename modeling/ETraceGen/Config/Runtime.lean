import ETraceGen.Config.Allowlist

/-!
# The configuration of the collector

`LoadRuntimeConfig` of `collector_libbpf.cpp`: the toggles of the domains and of the file probes, and the
allowlists.
-/

namespace ETraceGen.Config

structure FileProbeConfig where
  openat : Bool := true
  unlinkat : Bool := true
  renameat2 : Bool := true
  deriving DecidableEq

structure DomainConfig where
  process : Bool := true
  file : Bool := true
  syscall : Bool := true
  networkSocket : Bool := false
  deriving DecidableEq

structure NetworkConfig where
  portAllowlist : List UInt32 := []
  deriving DecidableEq

structure RuntimeConfig where
  domains : DomainConfig := {}
  fileProbes : FileProbeConfig := {}
  pidAllowlist : List UInt32 := []
  uidAllowlist : List UInt32 := []
  syscallAllowlist : List Int32 := []
  network : NetworkConfig := {}
  deriving DecidableEq

/-- `tolower` in the C locale. -/
def toLower (c : UInt8) : UInt8 := if 0x41 ≤ c ∧ c ≤ 0x5a then c + 0x20 else c

/-- The toggle, as it was where the value is neither `true` nor `false`. -/
def parseBool (value : Bytes) (out : Bool) : Bool :=
  let value := (trim value).map toLower
  if value = str "true" then true else if value = str "false" then false else out

def setFileProbe (key value : Bytes) (cfg : FileProbeConfig) : FileProbeConfig :=
  if key = str "openat" then { cfg with openat := parseBool value cfg.openat }
  else if key = str "unlinkat" then { cfg with unlinkat := parseBool value cfg.unlinkat }
  else if key = str "renameat2" then { cfg with renameat2 := parseBool value cfg.renameat2 }
  else cfg

def setDomain (key value : Bytes) (cfg : DomainConfig) : DomainConfig :=
  if key = str "process" then { cfg with process := parseBool value cfg.process }
  else if key = str "file" then { cfg with file := parseBool value cfg.file }
  else if key = str "syscall" then { cfg with syscall := parseBool value cfg.syscall }
  else if key = str "network_socket" then { cfg with networkSocket := parseBool value cfg.networkSocket }
  else cfg

/-- The section that the loop is in, if it is one of these. -/
structure InSection where
  fileProbes : Bool := false
  domains : Bool := false
  networkFilters : Bool := false
  deriving DecidableEq

/-- `trimmed.rfind(key, 0) == 0` -/
def hasKey (key : String) (trimmed : Bytes) : Bool := (str key).isPrefixOf trimmed

def runtimeLine (p : InSection × RuntimeConfig) (line : Bytes) : InSection × RuntimeConfig :=
  let (place, cfg) := p
  let trimmed := cleaned line
  if trimmed = [] then (place, cfg)
  else if trimmed = str "file_probes:" then ({ fileProbes := true }, cfg)
  else if trimmed = str "domains:" then ({ domains := true }, cfg)
  else if trimmed = str "network_filters:" then ({ networkFilters := true }, cfg)
  else if isHeader trimmed then ({}, cfg)
  else if hasKey "pid_allowlist:" trimmed then
    (place, { cfg with pidAllowlist := parseUint32AllowlistInline trimmed cfg.pidAllowlist })
  else if hasKey "uid_allowlist:" trimmed then
    (place, { cfg with uidAllowlist := parseUint32AllowlistInline trimmed cfg.uidAllowlist })
  else if hasKey "syscall_allowlist:" trimmed then
    (place, { cfg with syscallAllowlist := parseInt32AllowlistInline trimmed cfg.syscallAllowlist })
  else if place.networkFilters && hasKey "port_allowlist:" trimmed then
    (place, { cfg with
      network := { portAllowlist := parseUint32AllowlistInline trimmed cfg.network.portAllowlist } })
  else
    match splitColon trimmed with
    | none => (place, cfg)
    | some (key, value) =>
      if place.fileProbes then (place, { cfg with fileProbes := setFileProbe key value cfg.fileProbes })
      else if place.domains then (place, { cfg with domains := setDomain key value cfg.domains })
      else (place, cfg)

/-- Whether the file could be opened, and the configuration. -/
def loadRuntimeConfig (contents : Option Bytes) (cfg : RuntimeConfig) : Bool × RuntimeConfig :=
  match contents with
  | none => (false, cfg)
  | some text => (true, ((lines text).foldl runtimeLine ({}, cfg)).2)

end ETraceGen.Config
