import Innerwarden.Lib.StateMachine
import Innerwarden.Lib.Text

/-!
# The process supervisor

`Supervisor::run` of `crates/supervisor/src/lib.rs`, with `Monitor` of `monitor.rs` and
`HealthChecker` of `health.rs`.  A run starts the agent, and then takes turns.  A turn polls the
child, asks the hook and restarts the agent if the poll says it is dead, and probes its health
when that is due.

What the operating system, the hook and the probe answer are inputs of a turn, and so is the
time that passes.  The state keeps a log of what was done.  `Revived` says what the restarting
half of a turn can do.

The arguments of the agent and the Telegram alerts are left out.
-/

namespace Innerwarden.Supervisor

open Text

/-- What a run does, oldest first in the log. -/
inductive Event where
  /-- `before_spawn` returned `Ok`. -/
  | hookAllowed
  /-- `before_spawn` returned an error. -/
  | hookRefused (message : String)
  /-- `ensure_not_symlink` passed. -/
  | symlinkPassed
  /-- `spawn_agent` returned a process. -/
  | spawned (pid : Nat)
  /-- `restart_agent` returned `Ok`. -/
  | restarted (pid : Nat) (time : Int)
  /-- The first spawn or a restart returned an error. -/
  | launchFailed (message : String)
  /-- The child was waited for. -/
  | reaped (pid : Nat)
  /-- SIGKILL was sent. -/
  | killed (pid : Nat)
deriving DecidableEq

/-! ## The monitor -/

/-- The agent, and when it was restarted. -/
structure Monitor where
  agentBinary : String
  agentPid : Option Nat
  /-- The process of the child handle. -/
  agentChild : Option Nat
  restartTimes : List Int
  maxRestartsPerHour : Nat

/-- What `Child::try_wait` answers. -/
inductive TryWait where
  | exited
  | running
  | failed

/-- What the system answers to a spawn: the error of the symlink check, if there is one,
and the result of `Command::spawn`. -/
structure Launch where
  symlink : Option String
  spawn : Except String Nat

namespace Monitor

def new (agentBinary : String) (maxRestartsPerHour : Nat) : Monitor where
  agentBinary := agentBinary
  agentPid := none
  agentChild := none
  restartTimes := []
  maxRestartsPerHour := maxRestartsPerHour

/-- The agent is started if its path is no symlink. -/
def spawnAgent (m : Monitor) (launch : Launch) : Monitor × Except String Nat × List Event :=
  match launch.symlink with
  | some message => (m, .error ("pre-spawn symlink check: " ++ message), [])
  | none =>
    match launch.spawn with
    | .error message => (m, .error ("spawn " ++ m.agentBinary ++ ": " ++ message), [.symlinkPassed])
    | .ok pid =>
      ({ m with agentPid := some pid, agentChild := some pid }, .ok pid,
        [.symlinkPassed, .spawned pid])

/-- `is_alive`.  `pidAlive` is the answer of `kill(pid, 0)`. -/
def isAlive (m : Monitor) (tryWait : TryWait) (pidAlive : Bool) : Monitor × Bool × List Event :=
  match m.agentChild with
  | some pid =>
    match tryWait with
    | .exited => ({ m with agentChild := none }, false, [.reaped pid])
    | .running => (m, true, [])
    | .failed => (m, false, [])
  | none => (m, m.agentPid.isSome && pidAlive, [])

def oneHour : Int := 3600 * 1000000000

def pruneOldRestarts (m : Monitor) (now : Int) : Monitor :=
  { m with restartTimes := m.restartTimes.filter fun t => now - oneHour < t }

def rateLimitMessage (count max : Nat) : String :=
  "restart " ++ "rate limit" ++ ": " ++ toString count ++ " in last hour (max " ++ toString max ++
    "). Manual intervention needed."

/-- The child that `restart_agent` waits for, if the wait succeeds. -/
def waitEvents (m : Monitor) (waited : Bool) : List Event :=
  match m.agentChild with
  | some pid => if waited then [.reaped pid] else []
  | none => []

theorem mem_waitEvents {m : Monitor} {waited : Bool} {e : Event} :
    e ∈ m.waitEvents waited ↔ ∃ pid, e = .reaped pid ∧ m.agentChild = some pid ∧ waited = true := by
  rw [waitEvents]
  cases m.agentChild with
  | none => simp
  | some child =>
    cases waited with
    | false => simp
    | true => simp

/-- `restart_agent`, with the clock at the pruning and at the end. -/
def restartAgent (m : Monitor) (waited : Bool) (pruneAt pushAt : Int) (launch : Launch) :
    Monitor × Except String Nat × List Event :=
  let reaped := m.waitEvents waited
  let m := { m with agentChild := none }
  let m := m.pruneOldRestarts pruneAt
  if m.maxRestartsPerHour ≤ m.restartTimes.length then
    (m, .error (rateLimitMessage m.restartTimes.length m.maxRestartsPerHour), reaped)
  else
    match m.spawnAgent launch with
    | (m, .ok pid, done) =>
      ({ m with restartTimes := m.restartTimes ++ [pushAt] }, .ok pid, reaped ++ done)
    | (m, .error message, done) => (m, .error message, reaped ++ done)

/-- The monitor when `restart_agent` comes to the rate limit. -/
def readied (m : Monitor) (pruneAt : Int) : Monitor :=
  { m.pruneOldRestarts pruneAt with agentChild := none }

end Monitor

/-! ## The health probe -/

/-- The failed checks in a row. -/
structure HealthChecker where
  consecutiveFailures : Nat
  maxFailures : Nat

def HealthChecker.new : HealthChecker := ⟨0, 3⟩

/-- `HealthChecker::check`: whether it returns an error.  `answered` says whether `/livez`
answered with a 2xx. -/
def HealthChecker.check (h : HealthChecker) (answered : Bool) : HealthChecker × Bool :=
  if answered then ({ h with consecutiveFailures := 0 }, false)
  else
    let failures := h.consecutiveFailures + 1
    ({ h with consecutiveFailures := failures }, h.maxFailures ≤ failures)

/-! ## The loop -/

/-- Where the loop is. -/
inductive Status where
  | starting
  | running
  | halted
deriving DecidableEq

/-- What the loop works on, the clock, and the log. -/
structure State where
  status : Status
  monitor : Monitor
  health : HealthChecker
  lastHealth : Int
  now : Int
  log : List Event

/-- What a turn gets from outside. -/
structure Turn where
  tryWait : TryWait
  pidAlive : Bool
  /-- The error of `before_spawn`, if it refuses. -/
  hook : Option String
  waited : Bool
  launch : Launch
  answered : Bool
  /-- The time that passes before each reading of the clock. -/
  beforePrune : Nat
  beforePush : Nat
  beforeProbe : Nat
  beforeReset : Nat

namespace State

/-- `monitor.is_alive()`. -/
def poll (s : State) (t : Turn) : State :=
  let (monitor, _, done) := s.monitor.isAlive t.tryWait t.pidAlive
  { s with monitor := monitor, log := s.log ++ done }

def finds (s : State) (t : Turn) : Bool := (s.monitor.isAlive t.tryWait t.pidAlive).2.1

def pruneAt (s : State) (t : Turn) : Int := s.now + t.beforePrune

def pushAt (s : State) (t : Turn) : Int := s.pruneAt t + t.beforePush

/-- What the loop does for an agent that has died.  It halts when the hook reports that the
binary was tampered with, and when the error of the restart is that of the rate limit. -/
def revive (s : State) (t : Turn) : State :=
  match t.hook with
  | some message =>
    { s with
      status := if contains message "TAMPERED" then .halted else s.status
      log := s.log ++ [.hookRefused message] }
  | none =>
    match s.monitor.restartAgent t.waited (s.pruneAt t) (s.pushAt t) t.launch with
    | (monitor, .ok pid, done) =>
      { s with
        monitor := monitor
        now := s.pushAt t
        log := s.log ++ (.hookAllowed :: done ++ [.restarted pid (s.pushAt t)]) }
    | (monitor, .error message, done) =>
      { s with
        status := if contains message "rate limit" then .halted else s.status
        monitor := monitor
        now := s.pushAt t
        log := s.log ++ (.hookAllowed :: done ++ [.launchFailed message]) }

/-- The process a restart would give: the rate limit has room, the binary is no symlink, and
the spawn succeeds. -/
def respawn (s : State) (t : Turn) : Option Nat :=
  if (s.monitor.readied (s.pruneAt t)).restartTimes.length < s.monitor.maxRestartsPerHour then
    match t.launch.symlink, t.launch.spawn with
    | none, .ok pid => some pid
    | _, _ => none
  else none

/-- The error of a restart that gives no process. -/
def failure (s : State) (t : Turn) : String :=
  if (s.monitor.readied (s.pruneAt t)).restartTimes.length < s.monitor.maxRestartsPerHour then
    match t.launch.symlink, t.launch.spawn with
    | some message, _ => "pre-spawn symlink check: " ++ message
    | none, .error message => "spawn " ++ s.monitor.agentBinary ++ ": " ++ message
    | none, .ok _ => ""
  else
    Monitor.rateLimitMessage (s.monitor.readied (s.pruneAt t)).restartTimes.length
      s.monitor.maxRestartsPerHour

/-- What `revive` can do. -/
inductive Revived (s : State) (t : Turn) : State → Prop where
  | refused (message : String) (hook : t.hook = some message) :
      Revived s t
        { s with
          status := if contains message "TAMPERED" then .halted else s.status
          log := s.log ++ [.hookRefused message] }
  | failed (hook : t.hook = none) (unable : s.respawn t = none) (checks : List Event)
      (hchecks : ∀ e ∈ checks, e = .symlinkPassed) :
      Revived s t
        { s with
          status := if contains (s.failure t) "rate limit" then .halted else s.status
          monitor := s.monitor.readied (s.pruneAt t)
          now := s.pushAt t
          log := s.log ++ (.hookAllowed :: (s.monitor.waitEvents t.waited ++ checks) ++
            [.launchFailed (s.failure t)]) }
  | spawned (hook : t.hook = none) (pid : Nat) (able : s.respawn t = some pid)
      (room : (s.monitor.readied (s.pruneAt t)).restartTimes.length <
        s.monitor.maxRestartsPerHour) :
      Revived s t
        { s with
          monitor :=
            { s.monitor.readied (s.pruneAt t) with
              agentPid := some pid
              agentChild := some pid
              restartTimes := (s.monitor.readied (s.pruneAt t)).restartTimes ++ [s.pushAt t] }
          now := s.pushAt t
          log := s.log ++ (.hookAllowed ::
            (s.monitor.waitEvents t.waited ++ [.symlinkPassed, .spawned pid]) ++
            [.restarted pid (s.pushAt t)]) }

theorem revive_result (s : State) (t : Turn) : Revived s t (s.revive t) := by
  cases hook : t.hook with
  | some message =>
    simp only [revive, hook]
    exact .refused message hook
  | none =>
    let m := s.monitor.readied (s.pruneAt t)
    simp only [revive, hook]
    by_cases full : m.maxRestartsPerHour ≤ m.restartTimes.length
    · have hrestart : s.monitor.restartAgent t.waited (s.pruneAt t) (s.pushAt t) t.launch =
          (m, .error (Monitor.rateLimitMessage m.restartTimes.length m.maxRestartsPerHour),
            s.monitor.waitEvents t.waited) := if_pos full
      have hmessage : s.failure t =
          Monitor.rateLimitMessage m.restartTimes.length m.maxRestartsPerHour :=
        if_neg (Nat.not_lt.mpr full)
      have h := Revived.failed hook (if_neg (Nat.not_lt.mpr full)) [] nofun
      rw [hrestart]
      rwa [List.append_nil, hmessage] at h
    · have room : (s.monitor.readied (s.pruneAt t)).restartTimes.length <
          s.monitor.maxRestartsPerHour := Nat.lt_of_not_le full
      have hrestart : s.monitor.restartAgent t.waited (s.pruneAt t) (s.pushAt t) t.launch =
          match m.spawnAgent t.launch with
          | (m, .ok pid, done) =>
            ({ m with restartTimes := m.restartTimes ++ [s.pushAt t] }, .ok pid,
              s.monitor.waitEvents t.waited ++ done)
          | (m, .error message, done) =>
            (m, .error message, s.monitor.waitEvents t.waited ++ done) := if_neg full
      rw [hrestart, Monitor.spawnAgent]
      cases hsymlink : t.launch.symlink with
      | some message =>
        have hmessage : s.failure t = "pre-spawn symlink check: " ++ message := by
          simp [failure, hsymlink, room]
        have hunable : s.respawn t = none := by simp [respawn, hsymlink]
        have h := Revived.failed hook hunable [] nofun
        rwa [hmessage] at h
      | none =>
        cases hspawn : t.launch.spawn with
        | error message =>
          have hmessage : s.failure t = "spawn " ++ s.monitor.agentBinary ++ ": " ++ message := by
            simp [failure, hsymlink, hspawn, room]
          have hunable : s.respawn t = none := by simp [respawn, hsymlink, hspawn]
          have h := Revived.failed hook hunable [.symlinkPassed] fun _ => List.mem_singleton.mp
          rwa [hmessage] at h
        | ok pid => exact .spawned hook pid (by simp [respawn, hsymlink, hspawn, room]) room

/-- The probe, when it is due.  An agent that does not answer is killed. -/
def probe (healthInterval : Int) (s : State) (t : Turn) : State :=
  let now := s.now + t.beforeProbe
  if healthInterval ≤ now - s.lastHealth then
    let (health, failed) := s.health.check t.answered
    let killed :=
      match failed, s.monitor.agentPid with
      | true, some pid => [Event.killed pid]
      | _, _ => []
    { s with
      health := health
      lastHealth := now + t.beforeReset
      now := now + t.beforeReset
      log := s.log ++ killed }
  else { s with now := now }

def turn (healthInterval : Int) (s : State) (t : Turn) : State :=
  let polled := s.poll t
  let s := if s.finds t then polled else polled.revive t
  if s.status = .halted then s else s.probe healthInterval t

/-- What comes before the loop: the hook and the first spawn. -/
def start (s : State) (hook : Option String) (launch : Launch) (took : Nat) : State :=
  match hook with
  | some message => { s with status := .halted, log := s.log ++ [.hookRefused message] }
  | none =>
    match s.monitor.spawnAgent launch with
    | (monitor, .ok _, done) =>
      { s with
        status := .running
        monitor := monitor
        now := s.now + took
        lastHealth := s.now + took
        log := s.log ++ .hookAllowed :: done }
    | (monitor, .error message, done) =>
      { s with
        status := .halted
        monitor := monitor
        log := s.log ++ (.hookAllowed :: done ++ [.launchFailed message]) }

end State

/-- What can happen to a supervisor. -/
inductive Op where
  | start (hook : Option String) (launch : Launch) (took : Nat)
  | turn (t : Turn)
  /-- SIGTERM or SIGINT: the loop ends before its next turn. -/
  | signal

/-- `Supervisor::run`.  Nothing happens after it has returned. -/
def machine (agentBinary : String) (maxRestartsPerHour : Nat) (healthInterval bootedAt : Int) :
    StateMachine State Op Unit where
  init := ⟨.starting, .new agentBinary maxRestartsPerHour, .new, bootedAt, bootedAt, []⟩
  step s op :=
    (match s.status, op with
      | .starting, .start hook launch took => s.start hook launch took
      | .running, .turn t => s.turn healthInterval t
      | .running, .signal => { s with status := .halted }
      | _, _ => s, ())

end Innerwarden.Supervisor
