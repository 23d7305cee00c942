import ETraceGen.Config.Runtime
import ETraceGen.Schema

/-!
# Start of the collector

`LibbpfCollector::Start` opens and loads the object with the programs, reads the configuration, writes it into
the maps and attaches the programs. Each of these calls can fail, and the startup report tells what failed.

* `Host` : what succeeds;
* `start` : whether the collector runs, with its report and what was written and attached.
-/

namespace ETraceGen.Collector

open Config

/-- The maps that are looked up by name. -/
inductive MapName where
  | events | bpfStats | fileProbeEnabled | processProbeEnabled | syscallProbeEnabled | syscallAllowlist
  | pidAllowlist | uidAllowlist | pidFilterEnabled | uidFilterEnabled | networkProbeEnabled
  | networkPortAllowlist | networkPortFilterEnabled | suppressTgid
  deriving DecidableEq

/-- A program of the object, and whether it can be attached. A name is none where the library has none. -/
structure Program where
  name : Option Bytes
  attaches : Bool
  deriving DecidableEq

/-- What the library, the files and the environment give to a start. -/
structure Host where
  envBpfObject : Option Bytes
  defaultBpfObjectPath : Bytes
  envConfig : Option Bytes
  opens : Bool
  loads : Bool
  /-- The contents of the configuration file, if it can be opened. -/
  config : Option Bytes
  found : MapName → Bool
  /-- Whether the update of that number of a map succeeds. -/
  updates : MapName → Nat → Bool
  programs : List Program
  ringBuffer : Bool
  pid : UInt32

structure CollectorStartupReport where
  backendName : Bytes := []
  bpfObjectPath : Bytes := []
  configPath : Bytes := []
  programsTotal : UInt32 := 0
  programsAttached : UInt32 := 0
  programsAttachFailed : UInt32 := 0
  runtimeConfigLoaded : Bool := false
  mapEventsFound : Bool := false
  mapBpfStatsFound : Bool := false
  mapFileProbeEnabledFound : Bool := false
  mapSyscallAllowlistFound : Bool := false
  mapPidAllowlistFound : Bool := false
  mapUidAllowlistFound : Bool := false
  mapNetworkProbeEnabledFound : Bool := false
  mapNetworkPortAllowlistFound : Bool := false
  mapNetworkPortFilterEnabledFound : Bool := false
  mapSuppressTgidFound : Bool := false
  fileProbeTogglesApplied : Bool := false
  syscallAllowlistAppliedCount : UInt32 := 0
  pidAllowlistAppliedCount : UInt32 := 0
  uidAllowlistAppliedCount : UInt32 := 0
  networkProbeTogglesApplied : Bool := false
  networkPortAllowlistAppliedCount : UInt32 := 0
  degraded : Bool := false
  degradeReason : Bytes := []

def appendDegradeReason (report : CollectorStartupReport) (message : Bytes) : CollectorStartupReport :=
  if message = [] then report
  else
    let reason := if report.degradeReason ≠ [] then report.degradeReason ++ str "; " else report.degradeReason
    { report with degradeReason := reason ++ message, degraded := true }

/-! ## Updates of a map -/

/-- A key and a value that user space wrote into a map. -/
structure MapEntry where
  map : MapName
  key : UInt32
  value : UInt32
  deriving DecidableEq

/-- What a loop of updates comes to: whether all of them succeeded, how many did, and what they wrote. -/
structure Updates where
  allOk : Bool := true
  applied : UInt32 := 0
  written : List MapEntry := []

/-- `bpf_map_update_elem` in a loop. -/
def updateElem (host : Host) (map : MapName) (u : Updates) (entry : (UInt32 × UInt32) × Nat) : Updates :=
  if host.updates map entry.2 then
    { u with applied := u.applied + 1, written := u.written ++ [⟨map, entry.1.1, entry.1.2⟩] }
  else { u with allOk := false }

def updateElems (host : Host) (map : MapName) (entries : List (UInt32 × UInt32)) : Updates :=
  if host.found map then entries.zipIdx.foldl (updateElem host map) {} else { allOk := false }

/-- `enabled ? 1U : 0U` -/
def flag (enabled : Bool) : UInt32 := if enabled then 1 else 0

def applyFileProbeConfig (host : Host) (cfg : FileProbeConfig) : Updates :=
  updateElems host .fileProbeEnabled
    [(FileEventKind.openat.code, flag cfg.openat), (FileEventKind.unlinkat.code, flag cfg.unlinkat),
      (FileEventKind.renameat2.code, flag cfg.renameat2)]

def processProbeKeys : List ProcessEventKind := [.exec, .fork, .exit, .clone, .clone3, .vfork]

def applyProcessProbeConfig (host : Host) (enabled : Bool) : Updates :=
  updateElems host .processProbeEnabled (processProbeKeys.map fun kind => (kind.code, flag enabled))

def networkProbeKeys : List NetworkEventKind :=
  [.socket, .socketpair, .connect, .bind, .listen, .accept, .accept4, .getsockname, .getpeername, .setsockopt,
    .getsockopt, .close, .sendto, .recvfrom, .shutdown, .sendmsg, .recvmsg, .read, .write, .readv, .writev,
    .sendmmsg, .recvmmsg]

def applyNetworkProbeConfig (host : Host) (enabled : Bool) : Updates :=
  updateElems host .networkProbeEnabled (networkProbeKeys.map fun kind => (kind.code, flag enabled))

def applyU32AllowlistConfig (host : Host) (map : MapName) (allowlist : List UInt32) : Updates :=
  updateElems host map (allowlist.map fun key => (key, 1))

def applySyscallAllowlistConfig (host : Host) (allowlist : List Int32) : Updates :=
  applyU32AllowlistConfig host .syscallAllowlist (allowlist.map Int32.toUInt32)

def setAllowlistEnabled (host : Host) (map : MapName) (enabled : Bool) : Updates :=
  updateElems host map [(0, flag enabled)]

/-! ## The steps -/

/-- The report so far, what is in the maps and which programs are linked. -/
structure Startup where
  report : CollectorStartupReport := {}
  entries : List MapEntry := []
  links : List Program := []

namespace Startup

def push (s : Startup) (u : Updates) : Startup := { s with entries := s.entries ++ u.written }

def note (s : Startup) (f : CollectorStartupReport → CollectorStartupReport) : Startup :=
  { s with report := f s.report }

/-- `if (failed) AppendDegradeReason(&startup_report_, message)` -/
def degradeIf (s : Startup) (failed : Bool) (message : String) : Startup :=
  if failed then s.note (appendDegradeReason · (str message)) else s

/-- The object is closed, and its maps and links go with it. -/
def stop (s : Startup) : Startup := { s with entries := [], links := [] }

end Startup

def loadConfig (host : Host) : Bool × RuntimeConfig := loadRuntimeConfig host.config {}

def reportConfig (host : Host) (s : Startup) : Startup :=
  let loaded := (loadConfig host).1
  let s := s.note fun report => { report with
    configPath := host.envConfig.getD (str "config/default.yaml")
    runtimeConfigLoaded := loaded }
  s.degradeIf (!loaded) "runtime config not found; defaults used"

/-- The maps whose absence degrades the start, in the order of the messages. -/
def missingMessages : List (MapName × String) :=
  [(.bpfStats, "bpf_stats map missing; kernel diagnostics unavailable"),
    (.fileProbeEnabled, "file_probe_enabled map missing; runtime file toggles disabled"),
    (.processProbeEnabled, "process_probe_enabled map missing; runtime process toggles disabled"),
    (.syscallProbeEnabled, "syscall_probe_enabled map missing; runtime syscall domain toggle disabled"),
    (.syscallAllowlist, "syscall_allowlist map missing; runtime syscall gating disabled"),
    (.pidAllowlist, "pid_allowlist map missing; runtime pid filtering disabled"),
    (.uidAllowlist, "uid_allowlist map missing; runtime uid filtering disabled"),
    (.networkProbeEnabled, "network_probe_enabled map missing; runtime network probe toggles disabled"),
    (.networkPortAllowlist, "network_port_allowlist map missing; runtime network port filtering disabled"),
    (.networkPortFilterEnabled,
      "network_port_filter_enabled map missing; network port filter activation unavailable"),
    (.pidFilterEnabled, "pid_filter_enabled map missing; pid filtering activation unavailable"),
    (.uidFilterEnabled, "uid_filter_enabled map missing; uid filtering activation unavailable"),
    (.suppressTgid, "suppress_tgid map missing; self-event suppression in-kernel disabled")]

def reportMaps (host : Host) (s : Startup) : Startup :=
  let s := s.note fun report => { report with
    mapEventsFound := host.found .events
    mapBpfStatsFound := host.found .bpfStats
    mapFileProbeEnabledFound := host.found .fileProbeEnabled
    mapSyscallAllowlistFound := host.found .syscallAllowlist
    mapPidAllowlistFound := host.found .pidAllowlist
    mapUidAllowlistFound := host.found .uidAllowlist
    mapNetworkProbeEnabledFound := host.found .networkProbeEnabled
    mapNetworkPortAllowlistFound := host.found .networkPortAllowlist
    mapNetworkPortFilterEnabledFound := host.found .networkPortFilterEnabled
    mapSuppressTgidFound := host.found .suppressTgid }
  missingMessages.foldl (fun s m => s.degradeIf (!host.found m.1) m.2) s

/-- The file probes are all off where their domain is. -/
def effectiveFileProbes (cfg : RuntimeConfig) : FileProbeConfig :=
  if cfg.domains.file then cfg.fileProbes else { openat := false, unlinkat := false, renameat2 := false }

def effectiveSyscallAllowlist (cfg : RuntimeConfig) : List Int32 :=
  if cfg.domains.syscall then cfg.syscallAllowlist else []

def applyToggles (host : Host) (cfg : RuntimeConfig) (s : Startup) : Startup :=
  let process := applyProcessProbeConfig host cfg.domains.process
  let s := (s.push process).degradeIf (!process.allOk) "process probe toggle apply failed"
  let syscall := setAllowlistEnabled host .syscallProbeEnabled cfg.domains.syscall
  let s := (s.push syscall).degradeIf (!syscall.allOk) "syscall probe toggle apply failed"
  let file := applyFileProbeConfig host (effectiveFileProbes cfg)
  let s := (s.push file).note fun report => { report with fileProbeTogglesApplied := file.allOk }
  let s := s.degradeIf (!file.allOk) "file probe toggle apply failed"
  let network := applyNetworkProbeConfig host cfg.domains.networkSocket
  let s := (s.push network).note fun report => { report with networkProbeTogglesApplied := network.allOk }
  s.degradeIf (!network.allOk) "network probe toggle apply failed"

def applyAllowlists (host : Host) (cfg : RuntimeConfig) (s : Startup) : Startup :=
  let pids := applyU32AllowlistConfig host .pidAllowlist cfg.pidAllowlist
  let uids := applyU32AllowlistConfig host .uidAllowlist cfg.uidAllowlist
  let syscalls := applySyscallAllowlistConfig host (effectiveSyscallAllowlist cfg)
  let ports := applyU32AllowlistConfig host .networkPortAllowlist cfg.network.portAllowlist
  let s := (((s.push pids).push uids).push syscalls).push ports
  s.note fun report => { report with
    pidAllowlistAppliedCount := pids.applied
    uidAllowlistAppliedCount := uids.applied
    syscallAllowlistAppliedCount := syscalls.applied
    networkPortAllowlistAppliedCount := ports.applied }

def applyFilters (host : Host) (cfg : RuntimeConfig) (s : Startup) : Startup :=
  let pid := setAllowlistEnabled host .pidFilterEnabled (!cfg.pidAllowlist.isEmpty)
  let s := (s.push pid).degradeIf (!pid.allOk) "pid filter enable flag apply failed"
  let uid := setAllowlistEnabled host .uidFilterEnabled (!cfg.uidAllowlist.isEmpty)
  let s := (s.push uid).degradeIf (!uid.allOk) "uid filter enable flag apply failed"
  let port := setAllowlistEnabled host .networkPortFilterEnabled (!cfg.network.portAllowlist.isEmpty)
  let s := (s.push port).degradeIf (!port.allOk) "network port filter enable flag apply failed"
  if host.found .suppressTgid then
    let suppress := updateElems host .suppressTgid [(0, host.pid)]
    (s.push suppress).degradeIf (!suppress.allOk) "suppress_tgid apply failed"
  else s

/-- Only an allowlist of which nothing was applied is told. -/
def reportAllowlists (cfg : RuntimeConfig) (s : Startup) : Startup :=
  let s := s.degradeIf (!cfg.pidAllowlist.isEmpty && s.report.pidAllowlistAppliedCount == 0)
    "pid allowlist entries were not applied"
  let s := s.degradeIf (!cfg.uidAllowlist.isEmpty && s.report.uidAllowlistAppliedCount == 0)
    "uid allowlist entries were not applied"
  let s := s.degradeIf
    (!(effectiveSyscallAllowlist cfg).isEmpty && s.report.syscallAllowlistAppliedCount == 0)
    "syscall allowlist entries were not applied"
  s.degradeIf (!cfg.network.portAllowlist.isEmpty && s.report.networkPortAllowlistAppliedCount == 0)
    "network port allowlist entries were not applied"

/-- The programs that cannot be attached, by their names. -/
def failedPrograms (host : Host) : List Bytes :=
  (host.programs.filter (!·.attaches)).map fun prog => prog.name.getD (str "<unknown>")

def attachPrograms (host : Host) (s : Startup) : Startup :=
  let attached := host.programs.filter (·.attaches)
  let failed := failedPrograms host
  let s := { s with links := attached }
  let s := s.note fun report => { report with
    programsTotal := .ofNat host.programs.length
    programsAttached := .ofNat attached.length
    programsAttachFailed := .ofNat failed.length }
  if failed.isEmpty then s
  else s.note (appendDegradeReason · (str "attach failures=" ++ (str ",").intercalate failed))

/-- The object is loaded: the configuration, the maps and the programs. -/
def configure (host : Host) (s : Startup) : Startup :=
  let cfg := (loadConfig host).2
  let s := reportMaps host (reportConfig host s)
  let s := applyFilters host cfg (applyAllowlists host cfg (applyToggles host cfg s))
  attachPrograms host (reportAllowlists cfg s)

/-- The report is new. -/
def begun : Startup := { report := { backendName := str "libbpf" } }

/-- The object is about to be opened. -/
def opened (host : Host) : Startup :=
  begun.note fun report => { report with bpfObjectPath := host.envBpfObject.getD host.defaultBpfObjectPath }

/-- `Start`, given a callback or none. -/
def start (host : Host) (callback : Bool) : Bool × Startup :=
  if !callback then (false, begun.degradeIf true "missing callback")
  else
    let s := opened host
    if !host.opens then (false, s.degradeIf true "failed to open BPF object")
    else if !host.loads then (false, (s.degradeIf true "failed to load BPF object").stop)
    else
      let s := configure host s
      if s.links.isEmpty then (false, (s.degradeIf true "no BPF programs attached").stop)
      else if !s.report.mapEventsFound then (false, (s.degradeIf true "events map missing").stop)
      else if !host.ringBuffer then (false, (s.degradeIf true "failed to create ring buffer reader").stop)
      else (true, s)

end ETraceGen.Collector
