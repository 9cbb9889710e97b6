import Mathlib.Data.List.Destutter
import Innerwarden.Killchain.Endpoint

/-!
# Incidents for blocked programs

`process_lsm_blocked` of `crates/killchain/src/detector.rs`.  When the kernel has refused an
`execve` of a process, an incident is built from the event and from what the tracker knows.

The incidents of `process_event` pass over private and reserved addresses.
`process_lsm_blocked` takes `last_connect_ip` as it stands.  `onlyPublic_iff` says for which
events only public addresses surface.
-/

namespace Innerwarden.Killchain

open StateMachine Text List

/-! ## Patterns -/

/-- `Iterator::max_by_key` over the number of bits: of several the last. -/
def mostBits : List (String × BitVec 32) → Option (String × BitVec 32)
  | [] => none
  | pattern :: patterns =>
    match mostBits patterns with
    | none => some pattern
    | some best => if countOnes best.2 < countOnes pattern.2 then some pattern else some best

def bestMatch (flags : BitVec 32) : Option String :=
  (mostBits (allPatterns.filter fun P => flags &&& P.2 = P.2)).map Prod.fst

/-- Of patterns with three bits the last one is taken. -/
example : bestMatch (chainMprotect ||| chainPtrace ||| chainSocket ||| chainDupStdin |||
    chainDupStdout) = some "full_exploit" := by
  decide +kernel

/-! ## Reading an event -/

/-- What `process_lsm_blocked` takes from an event. -/
structure BlockedExec where
  filename : String
  pid : UInt32
  uid : UInt32
  comm : String
  ts : String
  host : String

/-- The first part of `process_lsm_blocked`. -/
def readBlocked (event : Json) : Option BlockedExec := do
  let kind ← (event.get "kind").bind Json.asStr
  if kind ≠ "lsm.exec_blocked" then none
  let details ← event.get "details"
  let filename ← (details.get "filename").bind Json.asStr
  if contains filename "KILL_CHAIN_BLOCKED" = false then none
  let pid ← (details.get "pid").bind Json.asU64
  let uid ← (details.get "uid").bind Json.asU64
  let comm ← details.get "comm"
  return {
    filename := filename
    pid := UInt32.ofNat pid
    uid := UInt32.ofNat uid
    comm := comm.asStr.getD "unknown"
    ts := ((event.get "ts").bind Json.asStr).getD "unknown"
    host := ((event.get "host").bind Json.asStr).getD "unknown" }

/-! ## The incident -/

section Render

variable (crates : ChainCrates) (blocked : BlockedExec)

/-- The incident for a process the tracker knows. -/
def enrichedIncident (state : PidChainState) : Json :=
  let patternName := patternUpper ((bestMatch state.flags).getD "unknown")
  let pid := toString blocked.pid
  let c2Ip := state.lastConnectIp.getD "unknown"
  let c2Port := state.lastConnectPort.getD 0
  let timeline := Json.arr (state.events.map fun ev =>
    .obj [("ts", .str (crates.chrono.toRfc3339 ev.ts)), ("syscall", .str ev.syscall),
      ("details", ev.details), ("flag_set", .int ev.flagSet.toNat)])
  let recommended :=
    ["Investigate process tree: pstree -p " ++ pid] ++
    (if c2Ip ≠ "unknown" then ["Block C2 IP: innerwarden block " ++ c2Ip] else []) ++
    ["Check for lateral movement from this host",
     "Review user account uid=" ++ toString blocked.uid ++ " for compromise"]
  let entities :=
    if c2Ip ≠ "unknown" then [Json.obj [("type", .str "ip"), ("value", .str c2Ip)]] else []
  let tags := ["kill_chain", "lsm_blocked", String.ofList (patternName.toList.map Char.toLower),
    "ebpf"].destutter (· ≠ ·)
  .obj
    [("ts", .str blocked.ts), ("host", .str blocked.host),
     ("incident_id",
       .str ("kill_chain:blocked:" ++ patternName ++ ":" ++ pid ++ ":" ++ blocked.ts)),
     ("severity", .str "critical"),
     ("title", .str ("Kill chain BLOCKED: " ++ patternName ++ " (PID " ++ pid ++ ", " ++
       blocked.comm ++ ")")),
     ("summary", .str ("Kernel LSM blocked execve() for PID " ++ pid ++ " (" ++ blocked.comm ++
       ") after detecting " ++ patternName ++ " pattern. The process was denied execution of " ++
       blocked.filename ++ ".")),
     ("evidence", .arr [.obj
       [("kind", .str "kill_chain_blocked"), ("pattern", .str patternName),
        ("pid", .int blocked.pid.toNat), ("uid", .int blocked.uid.toNat),
        ("comm", .str blocked.comm), ("filename", .str blocked.filename),
        ("chain_flags", .str ("0x" ++ hex2 state.flags.toNat)),
        ("chain_bits", .arr ((flagNames state.flags).map fun name => .str (patternUpper name))),
        ("c2_ip", .str c2Ip), ("c2_port", .int c2Port.toNat), ("timeline", timeline)]]),
     ("recommended_checks", .arr (recommended.map Json.str)), ("tags", .arr (tags.map Json.str)),
     ("entities", .arr entities)]

/-- The incident for a process the tracker does not know. -/
def basicIncident : Json :=
  let pid := toString blocked.pid
  .obj
    [("ts", .str blocked.ts), ("host", .str blocked.host),
     ("incident_id", .str ("kill_chain:blocked:UNKNOWN:" ++ pid ++ ":" ++ blocked.ts)),
     ("severity", .str "critical"),
     ("title", .str ("Kill chain BLOCKED: UNKNOWN (PID " ++ pid ++ ", " ++ blocked.comm ++ ")")),
     ("summary", .str ("Kernel LSM blocked execve() for PID " ++ pid ++ " (" ++ blocked.comm ++
       ") but no chain state was found in the tracker. The process was denied execution of " ++
       blocked.filename ++ ".")),
     ("evidence", .arr [.obj
       [("kind", .str "kill_chain_blocked"), ("pattern", .str "UNKNOWN"),
        ("pid", .int blocked.pid.toNat), ("uid", .int blocked.uid.toNat),
        ("comm", .str blocked.comm), ("filename", .str blocked.filename),
        ("chain_flags", .str "0x00"), ("chain_bits", .arr []), ("c2_ip", .null),
        ("c2_port", .null), ("timeline", .arr [])]]),
     ("recommended_checks", .arr (
       [Json.str ("Investigate process tree: pstree -p " ++ pid),
        .str "Check for lateral movement from this host",
        .str ("Review user account uid=" ++ toString blocked.uid ++ " for compromise")])),
     ("tags", .arr [.str "kill_chain", .str "lsm_blocked", .str "ebpf"]), ("entities", .arr [])]

end Render

def processLsmBlocked (crates : ChainCrates) (event : Json) (tracker : PidTracker) : Option Json :=
  (readBlocked event).map fun blocked =>
    match tracker blocked.pid with
    | some state => enrichedIncident crates blocked state
    | none => basicIncident blocked

/-! ## Public addresses -/

/-- Every entity of the type `ip` is a public address, and so is every `c2_ip` that is not
missing or `unknown`. -/
structure OnlyPublic (incident : Json) : Prop where
  entities : ∀ e ∈ entitiesOf incident, (e.get "type").bind Json.asStr = some "ip" →
    ∃ ip, (e.get "value").bind Json.asStr = some ip ∧ isPrivateIp ip = false
  evidence : ∀ e ∈ evidenceOf incident, ∀ ip, (e.get "c2_ip").bind Json.asStr = some ip →
    ip = "unknown" ∨ isPrivateIp ip = false

/-- What `extract_c2` lets through is public. -/
theorem onlyPublic_toJson (crates : ChainCrates) (i : ChainIncident) :
    OnlyPublic (i.toJson crates) := by
  obtain ⟨e, hevidence, hip, -⟩ := evidenceOf_toJson crates i
  have hpublic : ∀ c2, extractC2 i.state = some c2 → isPrivateIp c2.1 = false := fun c2 h =>
    (extractC2_eq_some_iff.mp h).2.1
  refine ⟨fun e' he' _ => ?_, fun e' he' ip hget => .inr ?_⟩
  · rw [entitiesOf_toJson] at he'
    cases hc2 : extractC2 i.state with
    | none =>
      rw [hc2] at he'
      cases he'
    | some c2 =>
      rw [hc2] at he'
      obtain rfl := mem_singleton.mp he'
      exact ⟨c2.1, rfl, hpublic c2 hc2⟩
  · rw [hevidence] at he'
    obtain rfl := mem_singleton.mp he'
    rw [hip] at hget
    cases hc2 : extractC2 i.state with
    | none =>
      rw [hc2] at hget
      cases hget
    | some c2 =>
      rw [hc2] at hget
      obtain rfl := Option.some.inj hget
      exact hpublic c2 hc2

theorem onlyPublic_basicIncident (blocked : BlockedExec) : OnlyPublic (basicIncident blocked) := by
  refine ⟨?_, fun e he ip hget => ?_⟩
  · intro e he
    cases he
  · obtain rfl := mem_singleton.mp he
    cases hget

/-- The address of a known process is taken as it stands. -/
theorem onlyPublic_enrichedIncident_iff (crates : ChainCrates) (blocked : BlockedExec)
    (state : PidChainState) :
    OnlyPublic (enrichedIncident crates blocked state) ↔
      ∀ ip, state.lastConnectIp = some ip → ip = "unknown" ∨ isPrivateIp ip = false := by
  constructor
  · intro h ip hip
    refine h.evidence _ (mem_singleton.mpr rfl) ip ?_
    change some (state.lastConnectIp.getD "unknown") = some ip
    rw [hip, Option.getD_some]
  · intro h
    have hknown : state.lastConnectIp.getD "unknown" = "unknown" ∨
        isPrivateIp (state.lastConnectIp.getD "unknown") = false := by
      cases hip : state.lastConnectIp with
      | none => exact .inl rfl
      | some ip => exact h ip hip
    refine ⟨fun e he _ => ?_, fun e he ip hget => ?_⟩
    · obtain ⟨hne, hmem⟩ : state.lastConnectIp.getD "unknown" ≠ "unknown" ∧
          e ∈ [Json.obj [("type", .str "ip"),
            ("value", .str (state.lastConnectIp.getD "unknown"))]] := by
        change e ∈ (if state.lastConnectIp.getD "unknown" ≠ "unknown" then _ else []) at he
        split at he
        next hne => exact ⟨hne, he⟩
        next => cases he
      obtain rfl := mem_singleton.mp hmem
      exact ⟨_, rfl, hknown.resolve_left hne⟩
    · obtain rfl := mem_singleton.mp he
      obtain rfl := Option.some.inj hget
      exact hknown

section Surface

variable (crates : ChainCrates) (cfg : TrackerConfig) (events : List (Json × DateTime))
  (event : Json)

def trackerAfter : PidTracker :=
  (trackerMachine cfg crates).exec (trackerMachine cfg crates).init events

/-- Only public addresses surface in the incidents for the events, and in the one for a
blocked program after them. -/
def SurfacesOnlyPublic : Prop :=
  (∀ incidents ∈ (trackerMachine cfg crates).trace (trackerMachine cfg crates).init events,
    ∀ i ∈ incidents, OnlyPublic (i.toJson crates)) ∧
  ∀ incident, processLsmBlocked crates event (trackerAfter crates cfg events) = some incident →
    OnlyPublic incident

/-- Only public addresses surface exactly when the last address the connects of the blocked
process carried, if any, is public. -/
theorem onlyPublic_iff :
    SurfacesOnlyPublic crates cfg events event ↔
      ∀ blocked, readBlocked event = some blocked →
        ∀ ip, lastAddress crates cfg blocked.pid events = some ip →
          ip = "unknown" ∨ isPrivateIp ip = false := by
  have haddress : ∀ p, (trackerAfter crates cfg events p).bind PidChainState.lastConnectIp =
      lastAddress crates cfg p events := fun p => (ledger_exec p events).address
  refine (and_iff_right fun _ _ i _ => onlyPublic_toJson crates i).trans ?_
  cases hread : readBlocked event with
  | none => simp [processLsmBlocked, hread]
  | some blocked =>
    simp only [processLsmBlocked, hread, Option.map_some, Option.some.injEq, forall_eq']
    rw [← haddress blocked.pid]
    cases trackerAfter crates cfg events blocked.pid with
    | none => exact iff_of_true (onlyPublic_basicIncident blocked) fun ip hip => by cases hip
    | some state => exact onlyPublic_enrichedIncident_iff crates blocked state

end Surface

def blockedEvent : Json :=
  .obj [("kind", .str "lsm.exec_blocked"), ("ts", .str "1970-01-01T00:00:00Z"),
    ("details", .obj [("filename", .str "KILL_CHAIN_BLOCKED:/bin/sh"), ("pid", .int 7),
      ("uid", .int 0), ("comm", .str "python3")])]

/-- The address of a host of the internal network surfaces. -/
theorem internal_address_surfaces :
    ¬ SurfacesOnlyPublic sampleCrates ⟨.finite (3 / 5), []⟩
      [sampleEvent "network.outbound_connect"
        [("dst_ip", .str "10.0.0.5"), ("dst_port", .int 5432)]]
      blockedEvent := by
  rintro ⟨-, h⟩
  have hsurfaces : (processLsmBlocked sampleCrates blockedEvent
      (trackerAfter sampleCrates ⟨.finite (3 / 5), []⟩ [sampleEvent "network.outbound_connect"
        [("dst_ip", .str "10.0.0.5"), ("dst_port", .int 5432)]])).any (fun incident =>
      (evidenceOf incident).any fun e => (e.get "c2_ip").bind Json.asStr = some "10.0.0.5") =
      true := by
    decide +kernel
  obtain ⟨incident, hincident, hevidence⟩ := (Option.any_eq_true _ _).mp hsurfaces
  obtain ⟨e, he, hip⟩ := any_eq_true.mp hevidence
  exact absurd ((h incident hincident).evidence e he "10.0.0.5" (of_decide_eq_true hip)) (by decide)

end Innerwarden.Killchain
