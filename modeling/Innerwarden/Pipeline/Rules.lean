import Innerwarden.Store.Incidents

/-!
# The rules of the event pipeline

`crates/sensor/src/event_pipeline/types.rs`: rules as they stand in a file, their compiled form,
and the test of an event against a compiled rule.  `MatchPredicates.holds` is what a match block
says, and `compileRule_holds` shows that the compiled tests say the same, but for
`pid_score_min`, which they leave to the caller.

An `f64` is a `Float`.  Of a hash set only the members matter.  `serde_yaml`, `globset` and the
text of an `f64` in an error are parameters.
-/

namespace Innerwarden.Pipeline

open Text

/-- An event of the sensor. -/
structure Event where
  ts : DateTime
  host : String
  source : String
  kind : String
  severity : Severity
  summary : String
  details : Json
  tags : List String
  entities : List EntityRef

/-! ## Rules in a file -/

/-- What a rule suppresses. -/
structure SuppressConfig where
  detector : Option String
  values : List String

/-- The actions a rule can name. -/
inductive ActionKind where
  | emit
  | forceEmit
  | drop
  | sample
  | scoreIncrement
  | suppressIncident
  | suppressResponse
deriving DecidableEq

/-- `{:?}` of an action. -/
def ActionKind.debug : ActionKind → String
  | .emit => "Emit"
  | .forceEmit => "ForceEmit"
  | .drop => "Drop"
  | .sample => "Sample"
  | .scoreIncrement => "ScoreIncrement"
  | .suppressIncident => "SuppressIncident"
  | .suppressResponse => "SuppressResponse"

/-- The match block of a rule. -/
structure MatchPredicates where
  source : Option String := none
  sourceIn : Option (List String) := none
  kind : Option String := none
  kindIn : Option (List String) := none
  comm : Option String := none
  commIn : Option (List String) := none
  commGlob : Option (List String) := none
  pathIn : Option (List String) := none
  pathGlob : Option (List String) := none
  pathPrefix : Option (List String) := none
  severityMin : Option String := none
  uidIn : Option (List UInt32) := none
  dstPortIn : Option (List UInt16) := none
  parentCommIn : Option (List String) := none
  pidScoreMin : Option UInt32 := none

/-- What is added to a score, and over how long it decays. -/
structure ScoreIncrementConfig where
  score : UInt32
  decayMinutes : UInt32

/-- A rule as it is written. -/
structure RawRule where
  id : String
  priority : UInt32 := 50
  matchPreds : Option MatchPredicates := none
  action : ActionKind
  dropReason : Option String := none
  tags : List String := []
  disabled : Bool := false
  expiresAt : Option String := none
  sample : Option Float := none
  scoreIncrement : Option ScoreIncrementConfig := none
  suppress : Option SuppressConfig := none

abbrev Lists := List (String × List String)

/-- A rule file, parsed. -/
structure RuleFile where
  version : UInt32
  lists : Lists := []
  rules : List RawRule := []

/-- The crates the loader calls. -/
structure PipelineCrates where
  /-- `serde_yaml::from_str::<RuleFile>`. -/
  parseRuleFile : String → Except String RuleFile
  /-- `{}` of an `f64`. -/
  displayF64 : Float → String
  /-- `Glob::new`: the error for a pattern that is not a glob. -/
  globNew : String → Except String Unit
  /-- `GlobSetBuilder::build`: whether a text matches one of the globs. -/
  globSet : List String → Except String (String → Bool)

/-! ## Compiled rules -/

/-- The actions on events. -/
inductive CompiledAction where
  | emit
  | forceEmit
  | drop
  | sample
  | scoreIncrement (score decayMinutes : UInt32)
deriving DecidableEq

def CompiledAction.isTerminal : CompiledAction → Bool
  | .forceEmit | .drop | .sample => true
  | .emit | .scoreIncrement .. => false

/-- A rule as it is evaluated. -/
structure CompiledRule where
  id : String
  priority : UInt32
  action : CompiledAction
  sampleRate : Float
  tags : List String
  dropReason : Option String
  sourceExact : Option String
  sourceSet : Option (List String)
  kindExact : Option String
  kindSet : Option (List String)
  kindGlob : Option (String → Bool)
  commExact : Option String
  commSet : Option (List String)
  commGlob : Option (String → Bool)
  pathSet : Option (List String)
  pathGlob : Option (String → Bool)
  pathPrefixes : Option (List String)
  severityMinRank : Option Nat
  uidSet : Option (List UInt32)
  dstPortSet : Option (List UInt16)
  parentCommSet : Option (List String)
  pidScoreMin : Option UInt32

def severityRank : Severity → Nat
  | .debug => 0
  | .info => 1
  | .low => 2
  | .medium => 3
  | .high => 4
  | .critical => 5

def severityStrToRank (s : String) : Nat :=
  match s with
  | "info" => 1
  | "low" => 2
  | "medium" => 3
  | "high" => 4
  | "critical" => 5
  | _ => 0

/-! ## What an event shows to a rule -/

namespace Event

/-- A text of the details, or the empty text. -/
def detailText (event : Event) (key : String) : String :=
  ((event.details.get key).bind Json.asStr).getD ""

/-- A number of the details, or `u64::MAX`. -/
def detailNumber (event : Event) (key : String) : Nat :=
  ((event.details.get key).bind Json.asU64).getD 18446744073709551615

def path (event : Event) : String :=
  (((event.details.get "filename").or (event.details.get "path")).bind Json.asStr).getD ""

/-- `details.pid as u32`. -/
def pid (event : Event) : Option UInt32 :=
  ((event.details.get "pid").bind Json.asU64).map UInt32.ofNat

end Event

/-- All the fields that are set agree. -/
def CompiledRule.matches (rule : CompiledRule) (event : Event) : Bool :=
  rule.sourceExact.all (event.source = ·) &&
  rule.sourceSet.all (event.source ∈ ·) &&
  rule.kindExact.all (event.kind = ·) &&
  rule.kindSet.all (event.kind ∈ ·) &&
  rule.kindGlob.all (· event.kind) &&
  rule.commExact.all (event.detailText "comm" = ·) &&
  rule.commSet.all (event.detailText "comm" ∈ ·) &&
  rule.commGlob.all (· (event.detailText "comm")) &&
  rule.pathSet.all (event.path ∈ ·) &&
  rule.pathGlob.all (· event.path) &&
  rule.pathPrefixes.all (·.any (startsWith event.path)) &&
  rule.severityMinRank.all (· ≤ severityRank event.severity) &&
  rule.uidSet.all (UInt32.ofNat (event.detailNumber "uid") ∈ ·) &&
  rule.dstPortSet.all (UInt16.ofNat (event.detailNumber "dst_port") ∈ ·) &&
  rule.parentCommSet.all (event.detailText "parent_comm" ∈ ·)

section Compile

variable (crates : PipelineCrates)

/-! ## Compiling -/

def hasGlobChars (s : String) : Bool := s.toList.any fun c => c = '*' || c = '?' || c = '['

/-- `Glob::new` on every pattern. -/
def checkGlobs (ruleId field : String) : List String → Except String Unit
  | [] => .ok ()
  | pattern :: patterns =>
    match crates.globNew pattern with
    | .ok _ => checkGlobs ruleId field patterns
    | .error e => .error
        ("rule '" ++ ruleId ++ "': invalid " ++ field ++ " glob '" ++ pattern ++ "': " ++ e)

/-- The set of some patterns. -/
def buildGlobs (ruleId field : String) (patterns : List String) : Except String (String → Bool) :=
  match checkGlobs crates ruleId field patterns with
  | .error e => .error e
  | .ok _ =>
    match crates.globSet patterns with
    | .ok globs => .ok globs
    | .error e => .error ("rule '" ++ ruleId ++ "': failed to build " ++ field ++ " globset: " ++ e)

def compileGlobSetOpt (pattern : Option String) (ruleId field : String) :
    Except String (Option (String → Bool)) :=
  match pattern with
  | none => .ok none
  | some p => if hasGlobChars p then (buildGlobs crates ruleId field [p]).map some else .ok none

def compileGlobSetListOpt (patterns : Option (List String)) (ruleId field : String) :
    Except String (Option (String → Bool)) :=
  match patterns with
  | none | some [] => .ok none
  | some ps => (buildGlobs crates ruleId field ps).map some

/-- The checks `compile_rule` makes first, and the compiled action. -/
def compileAction (raw : RawRule) : Except String CompiledAction :=
  if 1000 < raw.priority then
    .error ("rule '" ++ raw.id ++ "': priority " ++ toString raw.priority ++ " exceeds max 1000")
  else
    match raw.action with
    | .emit => .ok .emit
    | .forceEmit => .ok .forceEmit
    | .drop => .ok .drop
    | .sample =>
      let rate := raw.sample.getD 0.0
      if 0.0 ≤ rate ∧ rate ≤ 1.0 then .ok .sample
      else .error ("rule '" ++ raw.id ++ "': sample rate " ++ crates.displayF64 rate ++
        " not in [0.0, 1.0]")
    | .scoreIncrement =>
      match raw.scoreIncrement with
      | none => .error ("rule '" ++ raw.id ++
          "': score_increment action requires score_increment field")
      | some si =>
        if si.score = 0 ∨ 100 < si.score then
          .error ("rule '" ++ raw.id ++ "': score_increment.score " ++ toString si.score ++
            " not in [1, 100]")
        else .ok (.scoreIncrement si.score si.decayMinutes)
    | .suppressIncident | .suppressResponse =>
      .error ("rule '" ++ raw.id ++ "': " ++ raw.action.debug ++ " rules are handled separately")

/-- The rule that is put together when every part has been compiled. -/
def assembleRule (raw : RawRule) (mp : MatchPredicates) (action : CompiledAction)
    (kindGlob commGlob pathGlob : Option (String → Bool)) : CompiledRule where
  id := raw.id
  priority := raw.priority
  action := action
  sampleRate := raw.sample.getD 0.0
  tags := raw.tags
  dropReason := raw.dropReason
  sourceExact := mp.source
  sourceSet := mp.sourceIn
  kindExact := mp.kind.filter (!hasGlobChars ·)
  kindSet := mp.kindIn
  kindGlob := if mp.kind.any hasGlobChars then kindGlob else none
  commExact := mp.comm
  commSet := mp.commIn
  commGlob := commGlob
  pathSet := mp.pathIn
  pathGlob := pathGlob
  pathPrefixes := mp.pathPrefix
  severityMinRank := mp.severityMin.map severityStrToRank
  uidSet := mp.uidIn
  dstPortSet := mp.dstPortIn
  parentCommSet := mp.parentCommIn
  pidScoreMin := mp.pidScoreMin

def compileRule (raw : RawRule) : Except String CompiledRule := do
  let action ← compileAction crates raw
  match raw.matchPreds with
  | none => throw ("rule '" ++ raw.id ++ "': match block is required for action " ++
      raw.action.debug)
  | some mp =>
    let kindGlob ← compileGlobSetOpt crates mp.kind raw.id "kind"
    let commGlob ← compileGlobSetListOpt crates mp.commGlob raw.id "comm_glob"
    let pathGlob ← compileGlobSetListOpt crates mp.pathGlob raw.id "path_glob"
    return assembleRule raw mp action kindGlob commGlob pathGlob

def validateSuppressRule (raw : RawRule) : Except String (String × List String) :=
  match raw.suppress with
  | none => .error ("rule '" ++ raw.id ++ "': suppress_incident action requires suppress field")
  | some sc =>
    let detector := sc.detector.getD ""
    if detector = "" then
      .error ("rule '" ++ raw.id ++ "': suppress.detector must not be empty")
    else if sc.values = [] then
      .error ("rule '" ++ raw.id ++ "': suppress.values must not be empty")
    else .ok (detector, sc.values)

def expandListRefs (lists : Lists) (values : List String) : List String :=
  values.flatMap fun v =>
    match stripPrefix v "$" with
    | none => [v]
    | some name => (lists.lookup name).getD [v]

def expandAllListRefs (lists : Lists) (raw : RawRule) : RawRule :=
  { raw with
    matchPreds := raw.matchPreds.map fun mp =>
      { mp with
        sourceIn := mp.sourceIn.map (expandListRefs lists)
        kindIn := mp.kindIn.map (expandListRefs lists)
        commIn := mp.commIn.map (expandListRefs lists)
        commGlob := mp.commGlob.map (expandListRefs lists)
        pathIn := mp.pathIn.map (expandListRefs lists)
        pathGlob := mp.pathGlob.map (expandListRefs lists)
        pathPrefix := mp.pathPrefix.map (expandListRefs lists)
        parentCommIn := mp.parentCommIn.map (expandListRefs lists) }
    suppress := raw.suppress.map fun sc => { sc with values := expandListRefs lists sc.values } }

/-! ## The match block as it is written -/

def globHolds (patterns : List String) (text : String) : Bool :=
  match crates.globSet patterns with
  | .ok globs => globs text
  | .error _ => false

/-- Every predicate of the block but `pid_score_min` holds for the event.  A list of globs
without a glob is no predicate. -/
def MatchPredicates.holds (mp : MatchPredicates) (event : Event) : Bool :=
  mp.source.all (event.source = ·) &&
  mp.sourceIn.all (event.source ∈ ·) &&
  mp.kind.all (fun k =>
    if hasGlobChars k then globHolds crates [k] event.kind else event.kind = k) &&
  mp.kindIn.all (event.kind ∈ ·) &&
  mp.comm.all (event.detailText "comm" = ·) &&
  mp.commIn.all (event.detailText "comm" ∈ ·) &&
  mp.commGlob.all (fun ps => ps.isEmpty || globHolds crates ps (event.detailText "comm")) &&
  mp.pathIn.all (event.path ∈ ·) &&
  mp.pathGlob.all (fun ps => ps.isEmpty || globHolds crates ps event.path) &&
  mp.pathPrefix.all (·.any (startsWith event.path)) &&
  mp.severityMin.all (severityStrToRank · ≤ severityRank event.severity) &&
  mp.uidIn.all (UInt32.ofNat (event.detailNumber "uid") ∈ ·) &&
  mp.dstPortIn.all (UInt16.ofNat (event.detailNumber "dst_port") ∈ ·) &&
  mp.parentCommIn.all (event.detailText "parent_comm" ∈ ·)

variable {crates}

theorem globHolds_of_buildGlobs {ruleId field : String} {patterns : List String}
    {globs : String → Bool} (h : buildGlobs crates ruleId field patterns = .ok globs)
    (text : String) : globs text = globHolds crates patterns text := by
  unfold buildGlobs at h
  split at h
  · nomatch h
  · split at h
    next hset =>
      cases h
      rw [globHolds, hset]
    · nomatch h

theorem compileGlobSetOpt_all {pattern : Option String} {ruleId field : String}
    {globs : Option (String → Bool)}
    (h : compileGlobSetOpt crates pattern ruleId field = .ok globs) (text : String) :
    ((pattern.filter (!hasGlobChars ·)).all (text = ·) &&
      (if pattern.any hasGlobChars then globs else none).all (· text)) =
    pattern.all fun p => if hasGlobChars p then globHolds crates [p] text else text = p := by
  cases pattern with
  | none => rfl
  | some p =>
    rw [compileGlobSetOpt] at h
    cases hglob : hasGlobChars p with
    | false => simp [hglob]
    | true =>
      rw [if_pos hglob] at h
      cases hbuild : buildGlobs crates ruleId field [p] with
      | error e => rw [hbuild] at h; nomatch h
      | ok g =>
        rw [hbuild] at h
        cases h
        simp [hglob, globHolds_of_buildGlobs hbuild]

theorem compileGlobSetListOpt_all {patterns : Option (List String)} {ruleId field : String}
    {globs : Option (String → Bool)}
    (h : compileGlobSetListOpt crates patterns ruleId field = .ok globs) (text : String) :
    globs.all (· text) = patterns.all fun ps => ps.isEmpty || globHolds crates ps text := by
  cases patterns with
  | none => cases h; rfl
  | some ps =>
    cases ps with
    | nil => cases h; rfl
    | cons p ps =>
      change (buildGlobs crates ruleId field (p :: ps)).map some = .ok globs at h
      cases hbuild : buildGlobs crates ruleId field (p :: ps) with
      | error e => rw [hbuild] at h; nomatch h
      | ok g =>
        rw [hbuild] at h
        cases h
        simp [globHolds_of_buildGlobs hbuild]

/-- The parts of a rule that has been compiled. -/
theorem compileRule_eq_ok {raw : RawRule} {rule : CompiledRule}
    (h : compileRule crates raw = .ok rule) :
    ∃ mp action kindGlob commGlob pathGlob, raw.matchPreds = some mp ∧
      compileAction crates raw = .ok action ∧
      compileGlobSetOpt crates mp.kind raw.id "kind" = .ok kindGlob ∧
      compileGlobSetListOpt crates mp.commGlob raw.id "comm_glob" = .ok commGlob ∧
      compileGlobSetListOpt crates mp.pathGlob raw.id "path_glob" = .ok pathGlob ∧
      rule = assembleRule raw mp action kindGlob commGlob pathGlob := by
  unfold compileRule at h
  cases haction : compileAction crates raw with
  | error e => rw [haction] at h; nomatch h
  | ok action =>
    rw [haction] at h
    cases hmp : raw.matchPreds with
    | none => rw [hmp] at h; nomatch h
    | some mp =>
      rw [hmp] at h
      cases hkind : compileGlobSetOpt crates mp.kind raw.id "kind" with
      | error e => simp [hkind, bind, Except.bind] at h
      | ok kindGlob =>
        cases hcomm : compileGlobSetListOpt crates mp.commGlob raw.id "comm_glob" with
        | error e => simp [hkind, hcomm, bind, Except.bind] at h
        | ok commGlob =>
          cases hpath : compileGlobSetListOpt crates mp.pathGlob raw.id "path_glob" with
          | error e => simp [hkind, hcomm, hpath, bind, Except.bind] at h
          | ok pathGlob =>
            simp only [hkind, hcomm, hpath, bind, Except.bind, pure, Except.pure,
              Except.ok.injEq] at h
            exact ⟨mp, action, kindGlob, commGlob, pathGlob, rfl, rfl, hkind, hcomm,
              hpath, h.symm⟩

/-- A compiled rule tests its match block, but for the score. -/
theorem compileRule_holds {raw : RawRule} {mp : MatchPredicates} {rule : CompiledRule}
    (h : compileRule crates raw = .ok rule) (hmp : raw.matchPreds = some mp) (event : Event) :
    rule.matches event = mp.holds crates event ∧ rule.pidScoreMin = mp.pidScoreMin := by
  obtain ⟨mp', action, kindGlob, commGlob, pathGlob, hmp', -, hkind, hcomm, hpath, rfl⟩ :=
    compileRule_eq_ok h
  rw [hmp] at hmp'
  cases hmp'
  refine ⟨?_, rfl⟩
  have hseverity : (mp.severityMin.map severityStrToRank).all (· ≤ severityRank event.severity) =
      mp.severityMin.all (severityStrToRank · ≤ severityRank event.severity) := by
    cases mp.severityMin <;> rfl
  rw [MatchPredicates.holds, ← compileGlobSetOpt_all hkind, ← compileGlobSetListOpt_all hcomm,
    ← compileGlobSetListOpt_all hpath, ← hseverity]
  simp only [CompiledRule.matches, assembleRule]
  ac_rfl

end Compile

end Innerwarden.Pipeline
