import Innerwarden.Lib.StateMachine
import Innerwarden.Store.Incidents

/-!
# The correlation engine

`CorrelationEngine::observe` of `crates/agent/src/correlation_engine.rs`.  A rule is a list of
stages.  An event that fits the first stage of a rule starts a *pending chain*.  Each later
event moves every pending chain of which it fits the next stage.  A chain that has passed all
stages is emitted, unless the same rule and entity are in a cooldown.

The entities of a chain, a hash set, are a list without repetitions.  The code takes the first
entity the set yields, so an observation comes with a number for each chain it completes.

`observe` panics when a rule has no stage, and on a window `Duration::seconds` does not accept.
A panic ends the run.  `replace_rules` is not modelled.
-/

namespace Innerwarden.Correlation

open Text

/-! ## Events and rules -/

/-- Where an event was seen. -/
inductive Layer where
  | firmware
  | hypervisor
  | kernel
  | userspace
  | network
  | honeypot
deriving DecidableEq

/-- An event as the engine sees it. -/
structure CorrelationEvent where
  ts : DateTime
  layer : Layer
  source : String
  kind : String
  severity : Severity
  entities : List EntityRef
  details : Json
  incidentId : String

/-- A stage: an event it asks for. -/
structure RuleStage where
  /-- `none` is any layer. -/
  layer : Option Layer
  kindPatterns : List String
  entityMustMatch : Bool
deriving DecidableEq

/-- A rule: its stages, in order, within a window. -/
structure CorrelationRule where
  id : String
  name : String
  stages : List RuleStage
  windowSecs : UInt64
  /-- The bit pattern of an `f32`. -/
  minConfidence : UInt32
  severity : Severity
deriving DecidableEq

/-! ## Matching -/

def packageManagerComms : List String :=
  ["apt", "apt-get", "apt-cache", "apt-config", "aptitude", "apt-listchanges", "apt-listbugs",
   "dpkg", "dpkg-deb", "dpkg-query", "dpkg-divert", "dpkg-statoverri", "dpkg-trigger",
   "unattended-upgr", "needrestart", "snap", "snapd", "snap-update-ns", "snap-confine",
   "snap-mgmt", "yum", "dnf", "dnf5", "microdnf", "yumdownloader", "rpm", "rpm-ostree", "zypper",
   "pacman", "pacstrap", "makepkg", "yay", "paru", "apk", "abuild", "emerge", "ebuild",
   "portageq", "xbps-install", "xbps-remove", "xbps-query", "flatpak", "brew", "PackageKit",
   "packagekitd"]

def cl008ServiceDaemonComms : List String :=
  ["apache2", "httpd", "nginx", "caddy", "php-fpm", "php-fpm7.4", "php-fpm8.0", "php-fpm8.1",
   "php-fpm8.2", "php-fpm8.3", "mysqld", "mysqld_safe", "mariadbd", "postgres", "crowdsec",
   "cscli"]

def innerwardenSelfComms : List String :=
  ["innerwarden-age", "innerwarden-sen", "innerwarden-ctl", "innerwarden-watc"]

def ruleCommSuppressions (ruleId : String) : List String :=
  if ruleId = "CL-008" then packageManagerComms else []

def eventCommIsSuppressed (ruleId : String) (event : CorrelationEvent) : Bool :=
  match (event.details.get "comm").bind Json.asStr with
  | none => false
  | some comm =>
    innerwardenSelfComms.contains comm || (ruleId = "CL-008" && comm = "tokio-rt-worker") ||
    (ruleId = "CL-008" && cl008ServiceDaemonComms.contains comm) ||
    (ruleCommSuppressions ruleId).contains comm

/-- `pattern.trim_end_matches('*')`. -/
def trimStars (pattern : String) : String :=
  String.ofList (pattern.toList.reverse.dropWhile (· = '*')).reverse

def kindMatches (kind pattern : String) : Bool :=
  if '*' ∈ pattern.toList then startsWith kind (trimStars pattern)
  else if '|' ∈ pattern.toList then (split '|' pattern).any fun p => kind = trim p
  else kind = pattern

def stageMatches (stage : RuleStage) (event : CorrelationEvent) : Bool :=
  stage.layer.all (event.layer = ·) && stage.kindPatterns.any (kindMatches event.kind)

def entityKey (e : EntityRef) : String := e.type.tag ++ ":" ++ e.value

/-- With a shared entity where one is asked for, and no suppressed command. -/
def matchesStage (stage : RuleStage) (event : CorrelationEvent) (previousEntities : List String)
    (ruleId : String) : Bool :=
  stageMatches stage event &&
  !(stage.entityMustMatch && !previousEntities.isEmpty &&
    event.entities.all fun e => entityKey e ∉ previousEntities) &&
  !eventCommIsSuppressed ruleId event

/-! ## Chains -/

/-- A chain that has passed some stages. -/
structure PendingChain where
  ruleId : String
  matchedEvents : List CorrelationEvent
  matchedEntities : List String
  nextStage : Nat
  startedAt : DateTime
  expiresAt : DateTime

/-- A chain as it is reported. -/
structure AttackChain where
  chainId : String
  ruleId : String
  ruleName : String
  startTs : DateTime
  lastTs : DateTime
  events : List CorrelationEvent
  stagesMatched : Nat
  stagesTotal : Nat
  /-- The bit pattern of an `f32`. -/
  confidence : UInt32
  layersInvolved : List Layer
  severity : Severity
  summary : String

/-- The state of the engine. -/
structure CorrelationEngine where
  eventWindow : List CorrelationEvent
  pendingChains : List PendingChain
  chainCooldowns : String → Option DateTime
  nextChainId : Nat

/-- An event, and for each chain it completes a number that picks the entity its hash set
yields first. -/
structure Observation where
  event : CorrelationEvent
  pick : Nat → Nat

def addEntities (entities : List String) (event : CorrelationEvent) : List String :=
  event.entities.foldl (fun known e => known.insert (entityKey e)) entities

def primaryEntity (pick : Nat) (entities : List String) : String :=
  entities.getD (pick % entities.length) ""

/-- `format!("CHAIN-{:04}", id)`. -/
def chainIdText (id : Nat) : String :=
  let digits := (toString id).toList
  "CHAIN-" ++ String.ofList (List.replicate (4 - digits.length) '0' ++ digits)

/-- `chrono::Duration::seconds` of a window that is cast to `i64`.  It panics on more than
`i64::MAX / 1000` seconds either way. -/
def windowDuration (windowSecs : UInt64) : Option Int :=
  let secs := windowSecs.toInt64.toInt
  if -9223372036854775 ≤ secs ∧ secs ≤ 9223372036854775 then some (seconds secs) else none

def maxWindowSize : Nat := 10000

section Observe

variable (rules : List CorrelationRule)

/-- One pending chain sees an event.  The flag says that the chain has passed all stages. -/
def advanceChain (event : CorrelationEvent) (pc : PendingChain) : PendingChain × Bool :=
  match rules.find? (·.id = pc.ruleId) with
  | none => (pc, false)
  | some rule =>
    match rule.stages[pc.nextStage]? with
    | none => (pc, false)
    | some stage =>
      if matchesStage stage event pc.matchedEntities pc.ruleId then
        ({ pc with
            matchedEvents := pc.matchedEvents ++ [event]
            matchedEntities := addEntities pc.matchedEntities event
            nextStage := pc.nextStage + 1 },
          decide (rule.stages.length ≤ pc.nextStage + 1))
      else (pc, false)

/-- The chain that is emitted. -/
def attackChain (rule : CorrelationRule) (chainId : Nat) (now : DateTime) (pc : PendingChain) :
    AttackChain :=
  let layers := (pc.matchedEvents.map CorrelationEvent.layer).dedup
  let events := pc.matchedEvents.insertionSort fun a b => a.ts ≤ b.ts
  let startTs := (events.head?.map CorrelationEvent.ts).getD now
  let lastTs := (events.getLast?.map CorrelationEvent.ts).getD now
  { chainId := chainIdText chainId
    ruleId := rule.id
    ruleName := rule.name
    startTs := startTs
    lastTs := lastTs
    events := events
    stagesMatched := rule.stages.length
    stagesTotal := rule.stages.length
    -- 0.95, 0.85 and 0.70
    confidence := if 3 ≤ layers.length then 0x3f733333
      else if 2 ≤ layers.length then 0x3f59999a else 0x3f333333
    layersInvolved := layers
    severity := rule.severity
    summary := rule.name ++ ": " ++ toString events.length ++ " stages across " ++
      toString layers.length ++ " layers in " ++
      toString (Int.tdiv (lastTs - startTs) 1000000000) ++ "s" }

def cooldownKey (ruleId entity : String) : String := ruleId ++ ":" ++ entity

/-- A completed chain is emitted, unless it is in a cooldown. -/
def emitChain (now : DateTime) (pick : Nat) (s : CorrelationEngine) (pc : PendingChain) :
    CorrelationEngine × List AttackChain :=
  match rules.find? (·.id = pc.ruleId) with
  | none => (s, [])
  | some rule =>
    let key := cooldownKey pc.ruleId (primaryEntity pick pc.matchedEntities)
    if (s.chainCooldowns key).isSome then (s, [])
    else
      ({ s with
          pendingChains := s.pendingChains.filter fun p =>
            p.ruleId ≠ pc.ruleId ∨ p.startedAt ≠ pc.startedAt
          chainCooldowns := Function.update s.chainCooldowns key (some (now + seconds 600))
          nextChainId := s.nextChainId + 1 },
        [attackChain rule s.nextChainId now pc])

/-- The loop over the completed chains. -/
def emitChains (now : DateTime) (pick : Nat → Nat) :
    Nat → CorrelationEngine → List PendingChain → CorrelationEngine × List AttackChain
  | _, s, [] => (s, [])
  | k, s, pc :: completed =>
    let r := emitChain rules now (pick k) s pc
    let rest := emitChains now pick (k + 1) r.1 completed
    (rest.1, r.2 ++ rest.2)

/-- A chain that has passed its first stage. -/
def PendingChain.new (rule : CorrelationRule) (event : CorrelationEvent) (window : Int) :
    PendingChain where
  ruleId := rule.id
  matchedEvents := [event]
  matchedEntities := addEntities [] event
  nextStage := 1
  startedAt := event.ts
  expiresAt := event.ts + window

/-- The chain a rule starts with an event, if the event fits its first stage.  The outer
`none` is a panic. -/
def startChain (event : CorrelationEvent) (rule : CorrelationRule) : Option (Option PendingChain) :=
  match rule.stages with
  | [] => none
  | first :: _ =>
    if matchesStage first event [] rule.id then
      (windowDuration rule.windowSecs).map fun window => some (.new rule event window)
    else some none

/-- The chains that have not expired, each after it has seen the event. -/
def advanced (s : CorrelationEngine) (event : CorrelationEvent) : List (PendingChain × Bool) :=
  (s.pendingChains.filter fun pc => event.ts < pc.expiresAt).map (advanceChain rules event)

def newlyCompleted (s : CorrelationEngine) (event : CorrelationEvent) : List PendingChain :=
  ((advanced rules s event).filter Prod.snd).map Prod.fst

def beforeEmit (s : CorrelationEngine) (event : CorrelationEvent) : CorrelationEngine :=
  { s with
    pendingChains := (advanced rules s event).map Prod.fst
    chainCooldowns := fun key => (s.chainCooldowns key).filter (event.ts < ·) }

/-- The loop over the completed chains, as the call runs it. -/
def emission (s : CorrelationEngine) (op : Observation) : CorrelationEngine × List AttackChain :=
  emitChains rules op.event.ts op.pick 0 (beforeEmit rules s op.event)
    (newlyCompleted rules s op.event)

/-- `observe`: the engine after the call, unless it panics, and the chains it emits. -/
def observe (s : CorrelationEngine) (op : Observation) :
    Option CorrelationEngine × List AttackChain :=
  let r := emission rules s op
  let engine := (rules.mapM (startChain op.event)).map fun started =>
    { r.1 with
      pendingChains := r.1.pendingChains ++ started.reduceOption
      eventWindow :=
        (r.1.eventWindow ++ [op.event]).drop (r.1.eventWindow.length + 1 - maxWindowSize) }
  (engine, r.2)

/-- `with_rules`. -/
def CorrelationEngine.new : CorrelationEngine where
  eventWindow := []
  pendingChains := []
  chainCooldowns := fun _ => none
  nextChainId := 1

/-- An engine and the events it observes.  After a panic nothing is observed. -/
def correlationMachine :
    StateMachine (Option CorrelationEngine) Observation (List AttackChain) where
  init := some .new
  step
    | some s, op => observe rules s op
    | none, _ => (none, [])

end Observe

end Innerwarden.Correlation
