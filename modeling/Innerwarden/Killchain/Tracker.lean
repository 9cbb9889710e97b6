import Mathlib.Data.Fintype.Card
import Mathlib.Algebra.Order.Ring.Rat
import Innerwarden.Lib.IpAddr
import Innerwarden.Lib.Json
import Innerwarden.Lib.StateMachine
import Innerwarden.Lib.Text
import Innerwarden.Time

/-!
# The kill-chain tracker

The crate `crates/killchain`: the patterns, the state of a process, and
`PidTracker::process_event`.  An event sets one of nine bits for its process.  After each bit
the tracker looks at eight patterns of bits.  It reports a pattern as *forming* when a given
part of its bits is set, and as *detected* when all of them are, each once for a process.

Proximities are rational numbers, and so is a finite threshold.  The clock is read only for an
event without a timestamp that can be parsed, so each event comes with the time of the clock.
-/

namespace Innerwarden.Killchain

open Text

/-! ## Patterns -/

def chainSocket : BitVec 32 := 1#32 <<< 0
def chainDupStdin : BitVec 32 := 1#32 <<< 1
def chainDupStdout : BitVec 32 := 1#32 <<< 2
def chainDupStderr : BitVec 32 := 1#32 <<< 3
def chainBind : BitVec 32 := 1#32 <<< 4
def chainListen : BitVec 32 := 1#32 <<< 5
def chainPtrace : BitVec 32 := 1#32 <<< 6
def chainMprotect : BitVec 32 := 1#32 <<< 7
def chainSensitiveRead : BitVec 32 := 1#32 <<< 8

/-- The patterns, each with its flags. -/
def allPatterns : List (String × BitVec 32) :=
  [("reverse_shell", chainSocket ||| chainDupStdin ||| chainDupStdout),
   ("bind_shell", chainBind ||| chainListen ||| chainDupStdin ||| chainDupStdout),
   ("code_inject", chainPtrace ||| chainMprotect),
   ("exploit_shell", chainMprotect ||| chainDupStdin ||| chainDupStdout),
   ("inject_shell", chainPtrace ||| chainDupStdin),
   ("exploit_c2", chainMprotect ||| chainSocket),
   ("full_exploit", chainMprotect ||| chainPtrace ||| chainSocket),
   ("data_exfil", chainSensitiveRead ||| chainSocket)]

def allFlags : List (String × BitVec 32) :=
  [("socket", chainSocket), ("dup_stdin", chainDupStdin), ("dup_stdout", chainDupStdout),
   ("dup_stderr", chainDupStderr), ("bind", chainBind), ("listen", chainListen),
   ("ptrace", chainPtrace), ("mprotect", chainMprotect),
   ("sensitive_read", chainSensitiveRead)]

def countOnes (x : BitVec 32) : Nat := (Finset.univ.filter fun i : Fin 32 => x.getLsb i).card

def proximity (flags pattern : BitVec 32) : ℚ :=
  if countOnes pattern = 0 then 0 else countOnes (flags &&& pattern) / countOnes pattern

def epsilon : ℚ := 1 / 8388608

def flagNames (flags : BitVec 32) : List String :=
  (allFlags.filter fun f => flags &&& f.2 ≠ 0).map Prod.fst

def matchedFlagNames (currentFlags patternMask : BitVec 32) : List String :=
  flagNames (currentFlags &&& patternMask)

def missingFlagNames (currentFlags patternMask : BitVec 32) : List String :=
  flagNames (patternMask &&& ~~~currentFlags)

/-! ## The state of a process -/

/-- An event that set a flag. -/
structure ChainEvent where
  ts : DateTime
  syscall : String
  details : Json
  flagSet : BitVec 32

/-- What is known of a process. -/
structure PidChainState where
  pid : UInt32
  uid : UInt32
  comm : String
  host : String
  flags : BitVec 32
  events : List ChainEvent
  firstSeen : DateTime
  lastSeen : DateTime
  lastConnectIp : Option String
  lastConnectPort : Option UInt16
  lastSensitiveReadPath : Option String
  emittedPreChain : List String
  emittedFullMatch : List String

def PidChainState.new (pid uid : UInt32) (comm host : String) (ts : DateTime) : PidChainState where
  pid := pid
  uid := uid
  comm := comm
  host := host
  flags := 0#32
  events := []
  firstSeen := ts
  lastSeen := ts
  lastConnectIp := none
  lastConnectPort := none
  lastSensitiveReadPath := none
  emittedPreChain := []
  emittedFullMatch := []

def PidChainState.addFlag (state : PidChainState) (flag : BitVec 32) (event : ChainEvent) :
    PidChainState :=
  { state with
    flags := state.flags ||| flag
    lastSeen := event.ts
    events := state.events ++ [event] }

def isPrivateIp (ip : String) : Bool :=
  match (split '.' ip).mapM parseU8 with
  | some [a, b, c, _] =>
    a = 0 || a = 10 || a = 127 || (a = 169 && b = 254) ||
    (a = 172 && 16 ≤ b && b ≤ 31) || (a = 192 && b = 168) || (a = 192 && b = 0 && c = 2) ||
    (a = 198 && b = 51 && c = 100) || (a = 203 && b = 0 && c = 113)
  | _ => true

def extractC2 (state : PidChainState) : Option (String × UInt16) := do
  if state.flags &&& chainSocket = 0 then none
  let ip ← state.lastConnectIp
  let port ← state.lastConnectPort
  if isPrivateIp ip then none
  return (ip, port)

/-! ## Reading an event -/

def isSensitiveReadPath (path : String) : Bool :=
  ["/etc/shadow", "/etc/gshadow", "/etc/sudoers", ".ssh/id_", ".ssh/authorized_keys", "/.env",
   ".gnupg/", ".netrc", ".aws/credentials", ".docker/config.json",
   "gcloud/application_default_credentials.json", ".azure/accessTokens.json", ".kube/config",
   "/var/run/secrets/kubernetes.io/serviceaccount/token"].any (contains path)

def filePath (details : Json) : String :=
  (((details.get "filename").or (details.get "path")).bind Json.asStr).getD ""

/-- The flag of an event.  A kind that sets none ends the processing. -/
def eventFlag (kind : String) (details : Json) : Option (BitVec 32) :=
  match kind with
  | "network.outbound_connect" => some chainSocket
  | "network.bind_listen" => some chainBind
  | "network.listen" => some chainListen
  | "process.ptrace_attach" => some chainPtrace
  | "process.fd_redirect" =>
    match (details.get "newfd").bind Json.asU64 with
    | some 0 => some chainDupStdin
    | some 1 => some chainDupStdout
    | some 2 => some chainDupStderr
    | _ => none
  | "memory.mprotect_exec" =>
    if ((details.get "rwx").bind Json.asBool).getD false then some chainMprotect else none
  | "file.open" | "file.read_access" =>
    if isSensitiveReadPath (filePath details) then some chainSensitiveRead else none
  | _ => none

/-- The path `process_event` keeps. -/
def capturedSensitivePath (kind : String) (details : Json) : Option String :=
  match kind with
  | "file.open" | "file.read_access" => some (filePath details)
  | _ => none

/-- The crates the tracker calls. -/
structure ChainCrates where
  chrono : Chrono
  /-- `format("%Y-%m-%dT%H:%MZ")`. -/
  formatMinute : DateTime → String

/-- The value of an `f32`. -/
inductive Threshold where
  | finite (value : ℚ)
  | infinity
  | negInfinity
  | nan

/-- `x >= threshold`. -/
def Threshold.Le : Threshold → ℚ → Prop
  | finite value, x => value ≤ x
  | negInfinity, _ => True
  | infinity, _ | nan, _ => False

instance : ∀ (t : Threshold) (x : ℚ), Decidable (t.Le x)
  | .finite _, _ => inferInstanceAs (Decidable (_ ≤ _))
  | .negInfinity, _ => inferInstanceAs (Decidable True)
  | .infinity, _ | .nan, _ => inferInstanceAs (Decidable False)

/-- The configuration of a tracker. -/
structure TrackerConfig where
  preChainThreshold : Threshold
  excludedComms : List String

/-- What `process_event` takes from an event that sets a flag. -/
structure ChainContext where
  kind : String
  details : Json
  pid : UInt32
  uid : UInt32
  comm : String
  ts : DateTime
  host : String
  flag : BitVec 32

/-- The process of an event, `details.pid as u32`. -/
def eventPid (event : Json) : Option UInt32 :=
  ((event.get "details").bind fun details =>
    (details.get "pid").bind Json.asU64).map UInt32.ofNat

/-- The first part of `process_event`, up to the flag.  The event `process.clone` returns
before it and sets none. -/
def readEvent (crates : ChainCrates) (cfg : TrackerConfig) (event : Json) (now : DateTime) :
    Option ChainContext := do
  let kind ← (event.get "kind").bind Json.asStr
  let details ← event.get "details"
  let pid ← (details.get "pid").bind Json.asU64
  let comm := ((details.get "comm").bind Json.asStr).getD "unknown"
  if comm ∈ cfg.excludedComms then none
  let ts := (crates.chrono.fromStr (((event.get "ts").bind Json.asStr).getD "")).getD now
  let flag ← eventFlag kind details
  return {
    kind := kind
    details := details
    pid := UInt32.ofNat pid
    uid := UInt32.ofNat (((details.get "uid").bind Json.asU64).getD 0)
    comm := comm
    ts := ts
    host := ((event.get "host").bind Json.asStr).getD "unknown"
    flag := flag }

/-! ## Incidents -/

/-- How far a pattern has come. -/
inductive ChainStage where
  | preChain
  | detected
deriving DecidableEq

/-- What an incident is made of. -/
structure ChainIncident where
  stage : ChainStage
  pattern : String
  mask : BitVec 32
  /-- The event that gave rise to it. -/
  context : ChainContext
  /-- The process after the event. -/
  state : PidChainState

def ChainIncident.pid (i : ChainIncident) : UInt32 := i.context.pid

/-- `str::to_uppercase` on the name of a pattern. -/
def patternUpper (name : String) : String := String.ofList (name.toList.map Char.toUpper)

/-- The `f32` of a proximity that is less than one, as the `f64` it is written with. -/
def proximityBits (matched total : Nat) : UInt64 :=
  match matched, total with
  | 1, 4 => 0x3fd0000000000000
  | 1, 3 => 0x3fd5555560000000
  | 1, 2 | 2, 4 => 0x3fe0000000000000
  | 2, 3 => 0x3fe5555560000000
  | 3, 4 => 0x3fe8000000000000
  | _, _ => 0

/-- `{:02x}`. -/
def hex2 (n : Nat) : String :=
  let digits := Nat.toDigits 16 n
  String.ofList (List.replicate (2 - digits.length) '0' ++ digits)

section Render

variable (crates : ChainCrates) (i : ChainIncident)

def ChainIncident.incidentId (stage : String) : String :=
  "kill_chain:" ++ stage ++ ":" ++ patternUpper i.pattern ++ ":" ++ toString i.context.pid ++ ":" ++
    crates.formatMinute i.context.ts

/-- The events so far, as they are listed in the evidence. -/
def ChainIncident.timeline : Json :=
  .arr (i.state.events.map fun e =>
    .obj [("ts", .str (crates.chrono.toRfc3339 e.ts)), ("kind", .str e.syscall),
      ("flag", .str ((flagNames e.flagSet).head?.getD "unknown"))])

def ChainIncident.seen : List (String × Json) :=
  ((extractC2 i.state).map fun c2 =>
    [("c2_ip", .str c2.1), ("c2_port", .int c2.2.toNat)]).getD [] ++
  (i.state.lastSensitiveReadPath.map fun path => ("sensitive_file", Json.str path)).toList

/-- The address of the other side, if it is public. -/
def ChainIncident.entities : Json :=
  .arr ((extractC2 i.state).map fun c2 =>
    Json.obj [("type", .str "ip"), ("value", .str c2.1)]).toList

/-- The JSON of an incident. -/
def ChainIncident.toJson : Json :=
  let pid := toString i.context.pid
  let comm := i.context.comm
  let upper := patternUpper i.pattern
  match i.stage with
  | .preChain =>
    let matched := matchedFlagNames i.state.flags i.mask
    let total := countOnes i.mask
    let evidence := Json.obj
      ([("kind", .str "pre_chain_warning"), ("pattern", .str upper),
        ("proximity", .float (proximityBits (countOnes (i.state.flags &&& i.mask)) total)),
        ("matched_bits", .arr (matched.map Json.str)),
        ("missing_bits", .arr ((missingFlagNames i.state.flags i.mask).map Json.str)),
        ("timeline", i.timeline crates), ("pid", .int i.context.pid.toNat),
        ("comm", .str i.state.comm), ("uid", .int i.state.uid.toNat)] ++ i.seen)
    let recommended :=
      ((extractC2 i.state).map fun c2 =>
        "Block C2 IP preemptively: innerwarden block " ++ c2.1).toList ++
      ["Investigate PID " ++ pid ++ " (" ++ comm ++ ") immediately",
       "Review process tree: ps auxf | grep " ++ pid]
    .obj
      [("ts", .str (crates.chrono.toRfc3339 i.context.ts)), ("host", .str i.context.host),
       ("incident_id", .str (i.incidentId crates "pre_chain")), ("severity", .str "medium"),
       ("title", .str ("Kill chain forming: " ++ upper ++ " (" ++ toString matched.length ++ "/" ++
         toString total ++ " bits, PID " ++ pid ++ ")")),
       ("summary", .str ("PID " ++ pid ++ " (" ++ comm ++ ") has accumulated " ++
         toString matched.length ++ " of " ++ toString total ++ " syscall categories for " ++
         upper ++ ". Next syscall may trigger kernel LSM block.")),
       ("evidence", .arr [evidence]), ("recommended_checks", .arr (recommended.map Json.str)),
       ("tags", .arr [.str "kill_chain", .str "pre_chain", .str i.pattern]),
       ("entities", i.entities)]
  | .detected =>
    let matched := flagNames i.mask
    let uid := toString i.context.uid
    let evidence := Json.obj
      ([("kind", .str "kill_chain_detected"), ("pattern", .str upper),
        ("chain_flags", .str ("0x" ++ hex2 i.mask.toNat)),
        ("chain_bits", .arr (matched.map Json.str)), ("timeline", i.timeline crates),
        ("pid", .int i.context.pid.toNat), ("comm", .str i.state.comm),
        ("uid", .int i.context.uid.toNat)] ++ i.seen)
    let recommended :=
      ((extractC2 i.state).map fun c2 => "Block C2 IP: innerwarden block " ++ c2.1).toList ++
      ["Kill PID " ++ pid ++ " immediately: kill -9 " ++ pid,
       "Audit process: ps auxf | grep " ++ pid,
       "Check for persistence: crontab -l -u " ++ uid]
    .obj
      [("ts", .str (crates.chrono.toRfc3339 i.context.ts)), ("host", .str i.context.host),
       ("incident_id", .str (i.incidentId crates "detected")), ("severity", .str "critical"),
       ("title", .str ("Kill chain detected: " ++ upper ++ " (PID " ++ pid ++ ", " ++ comm ++
         ")")),
       ("summary", .str ("PID " ++ pid ++ " (" ++ comm ++ ") completed " ++ upper ++
         " pattern (" ++ String.intercalate " + " matched ++
         "). Kernel LSM will block next execve().")),
       ("evidence", .arr [evidence]), ("recommended_checks", .arr (recommended.map Json.str)),
       ("tags", .arr [.str "kill_chain", .str "detected", .str i.pattern]),
       ("entities", i.entities)]

end Render

/-! ## The loop over the patterns -/

/-- The tracker: the processes seen so far. -/
abbrev PidTracker := UInt32 → Option PidChainState

section Process

variable (cfg : TrackerConfig)

/-- The pattern is forming. -/
def Forming (flags mask : BitVec 32) : Prop :=
  cfg.preChainThreshold.Le (proximity flags mask) ∧ proximity flags mask < 1

instance (flags mask : BitVec 32) : Decidable (Forming cfg flags mask) :=
  inferInstanceAs (Decidable (_ ∧ _))

/-- The test for a full match. -/
def FullMatch (flags mask : BitVec 32) : Prop := |proximity flags mask - 1| < epsilon

instance (flags mask : BitVec 32) : Decidable (FullMatch flags mask) :=
  inferInstanceAs (Decidable (_ < _))

/-- The condition for an incident of each stage. -/
def ChainStage.Reached : ChainStage → (flags mask : BitVec 32) → Prop
  | preChain => Forming cfg
  | detected => FullMatch

instance : ∀ (stage : ChainStage) (flags mask : BitVec 32),
    Decidable (stage.Reached cfg flags mask)
  | .preChain, flags, mask => inferInstanceAs (Decidable (Forming cfg flags mask))
  | .detected, flags, mask => inferInstanceAs (Decidable (FullMatch flags mask))

def PidChainState.emitted (state : PidChainState) : ChainStage → List String
  | .preChain => state.emittedPreChain
  | .detected => state.emittedFullMatch

/-- The pattern is noted as reported. -/
def PidChainState.pushEmitted (state : PidChainState) (name : String) : ChainStage → PidChainState
  | .preChain => { state with emittedPreChain := state.emittedPreChain ++ [name] }
  | .detected => { state with emittedFullMatch := state.emittedFullMatch ++ [name] }

/-- Each of the two blocks of the loop: an incident, unless the pattern has been reported. -/
def reportStage (stage : ChainStage) (context : ChainContext) (state : PidChainState)
    (pattern : String × BitVec 32) : PidChainState × List ChainIncident :=
  if stage.Reached cfg state.flags pattern.2 ∧ pattern.1 ∉ state.emitted stage then
    let state := state.pushEmitted pattern.1 stage
    (state, [⟨stage, pattern.1, pattern.2, context, state⟩])
  else (state, [])

/-- One turn of the loop. -/
def checkPattern (context : ChainContext) (state : PidChainState) (pattern : String × BitVec 32) :
    PidChainState × List ChainIncident :=
  let warned := reportStage cfg .preChain context state pattern
  let matched := reportStage cfg .detected context warned.1 pattern
  (matched.1, warned.2 ++ matched.2)

/-- The loop over the patterns. -/
def checkPatterns (context : ChainContext) :
    PidChainState → List (String × BitVec 32) → PidChainState × List ChainIncident
  | state, [] => (state, [])
  | state, pattern :: patterns =>
    let r := checkPattern cfg context state pattern
    let rest := checkPatterns context r.1 patterns
    (rest.1, r.2 ++ rest.2)

/-- The state of the process with the event merged in. -/
def mergeEvent (context : ChainContext) (previous : Option PidChainState) : PidChainState :=
  let state := previous.getD
    (.new context.pid context.uid context.comm context.host context.ts)
  let state := { state.addFlag context.flag
    ⟨context.ts, context.kind, context.details, context.flag⟩ with comm := context.comm }
  let state :=
    if context.kind = "network.outbound_connect" then
      { state with
        lastConnectIp := ((context.details.get "dst_ip").bind Json.asStr).or state.lastConnectIp
        lastConnectPort := (((context.details.get "dst_port").bind Json.asU64).map
          UInt16.ofNat).or state.lastConnectPort }
    else state
  { state with
    lastSensitiveReadPath :=
      (capturedSensitivePath context.kind context.details).or state.lastSensitiveReadPath }

/-- `process_event`: the tracker after the event, and the incidents it returns. -/
def processEvent (crates : ChainCrates) (tracker : PidTracker) (event : Json × DateTime) :
    PidTracker × List ChainIncident :=
  match readEvent crates cfg event.1 event.2 with
  | none => (tracker, [])
  | some context =>
    let r := checkPatterns cfg context (mergeEvent context (tracker context.pid)) allPatterns
    (Function.update tracker context.pid (some r.1), r.2)

def trackerMachine (crates : ChainCrates) :
    StateMachine PidTracker (Json × DateTime) (List ChainIncident) where
  init := fun _ => none
  step := processEvent cfg crates

end Process

end Innerwarden.Killchain
