import Innerwarden.Agent.DecisionLog

/-!
# Reading the decision log back

A line of the log is read as a `DecisionEntry` of `crates/agent/src/decisions.rs`.  The writer
copies the fields into `ChainedEntry`, which has no `decision_layer`.  `deserialize_line` says
what comes back: the entry, with the hash of the line before it and without its layer.
-/

namespace Innerwarden

open Digest Text List

/-- The whole `DecisionEntry`: what the append reads, and the two fields it does not. -/
structure FullDecisionEntry extends DecisionEntry where
  prevHash : Option String
  decisionLayer : Option String

/-- An `f32` that is neither infinite nor a NaN: the exponent is not all ones. -/
def isFiniteF32 (x : UInt32) : Bool := (x >>> 23) &&& 0xff != 0xff

/-! ## The derived reader -/

namespace DecisionReading

/-- The value of a field.  A field that stands twice is an error. -/
def field (members : List (String × Json)) (name : String) : Option (Option Json) :=
  if (members.filter fun m => m.1 = name).length ≤ 1 then some (members.lookup name) else none

def required (members : List (String × Json)) (name : String) : Option Json := do
  let value ← field members name
  value

/-- A field of type `String`. -/
def requiredStr (members : List (String × Json)) (name : String) : Option String := do
  let value ← required members name
  value.asStr

/-- A field of type `bool`. -/
def requiredBool (members : List (String × Json)) (name : String) : Option Bool := do
  let value ← required members name
  value.asBool

/-- A field of type `Option<String>`: `None` if it is missing or `null`. -/
def optionalStr (members : List (String × Json)) (name : String) : Option (Option String) := do
  let value ← field members name
  match value with
  | none => some none
  | some .null => some none
  | some v => v.asStr.map some

/-- `DecisionEntry::deserialize`, on the members of an object.  `toF32` is the crate's
conversion of a number.  Members of other names are ignored. -/
def ofMembers (chrono : Chrono) (toF32 : Json → Option UInt32) (members : List (String × Json)) :
    Option FullDecisionEntry := do
  let ts ← requiredStr members "ts"
  let ts ← chrono.fromStr ts
  let incidentId ← requiredStr members "incident_id"
  let host ← requiredStr members "host"
  let aiProvider ← requiredStr members "ai_provider"
  let actionType ← requiredStr members "action_type"
  let targetIp ← optionalStr members "target_ip"
  let targetUser ← optionalStr members "target_user"
  let skillId ← optionalStr members "skill_id"
  let confidence ← required members "confidence"
  let confidence ← toF32 confidence
  let autoExecuted ← requiredBool members "auto_executed"
  let dryRun ← requiredBool members "dry_run"
  let reason ← requiredStr members "reason"
  let estimatedThreat ← requiredStr members "estimated_threat"
  let executionResult ← requiredStr members "execution_result"
  let prevHash ← optionalStr members "prev_hash"
  let decisionLayer ← optionalStr members "decision_layer"
  return { ts, incidentId, host, aiProvider, actionType, targetIp, targetUser, skillId,
           confidence, autoExecuted, dryRun, reason, estimatedThreat, executionResult,
           prevHash, decisionLayer }

/-- `serde_json::from_str::<DecisionEntry>`. -/
def deserialize (crates : LogCrates) (toF32 : Json → Option UInt32) (line : String) :
    Option FullDecisionEntry := do
  let value ← crates.json.fromStr line
  let members ← value.asObject
  ofMembers crates.chrono toF32 members

/-! ## The tree of a written line -/

/-- The members of a written entry as values, its confidence as the given number. -/
def tree (chrono : Chrono) (number : Json) (e : ChainedEntry) : List (String × Json) :=
  [("ts", .str (chrono.serialize e.ts)),
   ("incident_id", .str e.incidentId),
   ("host", .str e.host),
   ("ai_provider", .str e.aiProvider),
   ("action_type", .str e.actionType),
   ("target_ip", Json.ofOption e.targetIp)] ++
  (e.targetUser.map fun u => ("target_user", Json.str u)).toList ++
  [("skill_id", Json.ofOption e.skillId),
   ("confidence", number),
   ("auto_executed", .bool e.autoExecuted),
   ("dry_run", .bool e.dryRun),
   ("reason", .str e.reason),
   ("estimated_threat", .str e.estimatedThreat),
   ("execution_result", .str e.executionResult)] ++
  (e.prevHash.map fun h => ("prev_hash", Json.str h)).toList

/-- The crates read back what they print: strings and options as they stand in a line,
instants, and finite floats, which are printed as the text of some number. -/
structure Faithful (crates : LogCrates) (toF32 : Json → Option UInt32) (e : ChainedEntry) :
    Prop where
  ts : crates.chrono.fromStr (crates.chrono.serialize e.ts) = some e.ts
  confidence : isFiniteF32 e.confidence = true → ∃ number : Json,
    number.toText crates.json.formatF64 = crates.json.formatF32 e.confidence ∧
    toF32 number = some e.confidence ∧
    crates.json.Reads (.obj (tree crates.chrono number e))

variable (formatF64 : UInt64 → String)

theorem toText_ofOption (o : Option String) :
    (Json.ofOption o).toText formatF64 = optionText o := by
  cases o with
  | none => rfl
  | some s => rfl

theorem toText_bool (b : Bool) : (Json.bool b).toText formatF64 = boolText b := by
  cases b with
  | false => rfl
  | true => rfl

theorem toText_str (s : String) : (Json.str s).toText formatF64 = Json.quote s := rfl

theorem memberTexts_toList (name : String) (o : Option String) :
    ((o.map fun s => (name, Json.str s)).toList.map
        fun m => (m.1, Json.toText formatF64 m.2)) =
      (o.map fun s => (name, Json.quote s)).toList := by
  cases o with
  | none => rfl
  | some s => rfl

variable {crates : LogCrates} {toF32 : Json → Option UInt32} {e : ChainedEntry} {number : Json}

theorem line_eq_toText
    (hnumber : number.toText crates.json.formatF64 = crates.json.formatF32 e.confidence) :
    e.line crates = crates.json.toString (.obj (tree crates.chrono number e)) := by
  have hmembers : Json.memberTexts crates.json.formatF64 (tree crates.chrono number e) =
      e.members crates := by
    simp only [tree, ChainedEntry.members, Json.memberTexts_eq_map, map_append,
      map_cons, map_nil, memberTexts_toList, toText_ofOption, toText_bool, toText_str,
      hnumber]
  rw [ChainedEntry.line, JsonCodec.toString, Json.toText, hmembers]

/-! ## What comes back -/

def readBack (e : ChainedEntry) : FullDecisionEntry :=
  { e.toDecisionEntry with prevHash := e.prevHash, decisionLayer := none }

theorem optionalStr_ofOption {members : List (String × Json)} {name : String} {o : Option String}
    (h : field members name = some (some (Json.ofOption o))) :
    optionalStr members name = some o := by
  cases o with
  | none | some s => simp [optionalStr, h, Json.ofOption]

theorem optionalStr_map {members : List (String × Json)} {name : String} {o : Option String}
    (h : field members name = some (o.map Json.str)) : optionalStr members name = some o := by
  cases o with
  | none | some s => simp [optionalStr, h]

/-- The fields of a written entry. -/
theorem field_tree (chrono : Chrono) (number : Json) (e : ChainedEntry) :
    let f := field (tree chrono number e)
    f "ts" = some (some (.str (chrono.serialize e.ts))) ∧
    f "incident_id" = some (some (.str e.incidentId)) ∧
    f "host" = some (some (.str e.host)) ∧
    f "ai_provider" = some (some (.str e.aiProvider)) ∧
    f "action_type" = some (some (.str e.actionType)) ∧
    f "target_ip" = some (some (Json.ofOption e.targetIp)) ∧
    f "target_user" = some (e.targetUser.map Json.str) ∧
    f "skill_id" = some (some (Json.ofOption e.skillId)) ∧
    f "confidence" = some (some number) ∧
    f "auto_executed" = some (some (.bool e.autoExecuted)) ∧
    f "dry_run" = some (some (.bool e.dryRun)) ∧
    f "reason" = some (some (.str e.reason)) ∧
    f "estimated_threat" = some (some (.str e.estimatedThreat)) ∧
    f "execution_result" = some (some (.str e.executionResult)) ∧
    f "prev_hash" = some (e.prevHash.map Json.str) ∧
    f "decision_layer" = some none := by
  cases huser : e.targetUser with
  | none | some u =>
    cases hprev : e.prevHash with
    | none | some h => simp [field, tree, huser, hprev, lookup_cons]

/-- A written tree is read as its entry. -/
theorem ofMembers_tree {chrono : Chrono} {toF32 : Json → Option UInt32} {number : Json}
    {e : ChainedEntry} (hts : chrono.fromStr (chrono.serialize e.ts) = some e.ts)
    (hnumber : toF32 number = some e.confidence) :
    ofMembers chrono toF32 (tree chrono number e) = some (readBack e) := by
  obtain ⟨ts, incidentId, host, aiProvider, actionType, targetIp, targetUser, skillId, confidence,
    autoExecuted, dryRun, reason, estimatedThreat, executionResult, prevHash, layer⟩ :=
    field_tree chrono number e
  have hip := optionalStr_ofOption targetIp
  have huser := optionalStr_map targetUser
  have hskill := optionalStr_ofOption skillId
  have hprev := optionalStr_map prevHash
  have hlayer := optionalStr_map (o := none) layer
  simp [ofMembers, requiredStr, requiredBool, required, ts, incidentId, host, aiProvider,
    actionType, confidence, autoExecuted, dryRun, reason, estimatedThreat, executionResult,
    hip, huser, hskill, hprev, hlayer, hts, hnumber, Json.asBool, readBack]

theorem deserialize_line (hfaithful : Faithful crates toF32 e)
    (hfinite : isFiniteF32 e.confidence = true) :
    deserialize crates toF32 (e.line crates) = some (readBack e) := by
  obtain ⟨number, htext, hnumber, hreads⟩ := hfaithful.confidence hfinite
  have hparse : crates.json.fromStr (e.line crates) =
      some (.obj (tree crates.chrono number e)) := by
    rw [line_eq_toText htext]
    exact hreads
  rw [deserialize, hparse]
  exact ofMembers_tree hfaithful.ts hnumber

/-! ## The round trip -/

/-- The hash stands for the last line of the text that is not blank, if there is one. -/
def IsLastHash (crates : LogCrates) (content : String) : Option String → Prop
  | none => ∀ l ∈ lines content, trim l = ""
  | some hash => ∃ pre l post, lines content = pre ++ l :: post ∧ trim l ≠ "" ∧
      (∀ l' ∈ post, trim l' = "") ∧ hash = sha256Hex crates l

/-- `read_last_hash` finds that line. -/
theorem isLastHash_readLastHash (crates : LogCrates) (content : String) :
    IsLastHash crates content (readLastHash crates content) := by
  rw [readLastHash]
  -- The filter keeps the lines that are not blank, so only blank ones come after its last.
  cases hlast : ((lines content).filter fun l => trim l ≠ "").getLast? with
  | none =>
    intro l hl
    rw [getLast?_eq_none_iff, filter_eq_nil_iff] at hlast
    simpa using hlast l hl
  | some l =>
    obtain ⟨kept, hkept⟩ := getLast?_eq_some_iff.mp hlast
    obtain ⟨front, back, hsplit, -, hback⟩ := filter_eq_append_iff.mp hkept
    obtain ⟨before, after, rfl, -, hl, hafter⟩ := filter_eq_cons_iff.mp hback
    refine ⟨front ++ before, l, after, by rw [hsplit, append_assoc], by simpa using hl,
      ?_, rfl⟩
    intro l' hl'
    simpa using filter_eq_nil_iff.mp hafter l' hl'

theorem appendChainedLocked_of_isIsoDate {today : String} (hdate : isIsoDate today = true)
    (crates : LogCrates) (content : String) (entry : DecisionEntry) :
    appendChainedLocked crates today content entry =
      .ok (content ++ (ChainedEntry.line crates ⟨entry, readLastHash crates content⟩ ++ "\n"),
        ChainedEntry.line crates ⟨entry, readLastHash crates content⟩) := by
  simp only [appendChainedLocked, hdate, if_true]

/-- The line that is written for an entry is read as the entry, but for `prev_hash`, which
is the hash of the last line before it that is not blank. -/
def RoundTrips (crates : LogCrates) (toF32 : Json → Option UInt32) (today content : String)
    (e : FullDecisionEntry) : Prop :=
  ∃ content' line hash,
    appendChainedLocked crates today content e.toDecisionEntry = .ok (content', line) ∧
    deserialize crates toF32 line = some { e with prevHash := hash } ∧
    IsLastHash crates content hash

theorem RoundTrips.decisionLayer_eq_none {today content : String} {e : FullDecisionEntry}
    (h : RoundTrips crates toF32 today content e) (hdate : isIsoDate today = true)
    (hfinite : isFiniteF32 e.confidence = true)
    (hfaithful : Faithful crates toF32 ⟨e.toDecisionEntry, readLastHash crates content⟩) :
    e.decisionLayer = none := by
  obtain ⟨content', line, hash, happend, hline, -⟩ := h
  rw [appendChainedLocked_of_isIsoDate hdate] at happend
  cases happend
  rw [deserialize_line hfaithful hfinite] at hline
  exact (congrArg FullDecisionEntry.decisionLayer (Option.some.inj hline)).symm

/-- An entry survives the log exactly when it has no layer to lose. -/
theorem roundTrips_iff_no_layer (crates : LogCrates) (toF32 : Json → Option UInt32)
    (today content : String) (e : FullDecisionEntry) (hdate : isIsoDate today = true)
    (hfinite : isFiniteF32 e.confidence = true)
    (hfaithful : Faithful crates toF32 ⟨e.toDecisionEntry, readLastHash crates content⟩) :
    RoundTrips crates toF32 today content e ↔ e.decisionLayer = none := by
  constructor
  · intro h
    exact h.decisionLayer_eq_none hdate hfinite hfaithful
  · intro hlayer
    refine ⟨_, _, _, appendChainedLocked_of_isIsoDate hdate crates content e.toDecisionEntry, ?_,
      isLastHash_readLastHash crates content⟩
    rw [deserialize_line hfaithful hfinite, readBack, hlayer]

/-! ## A decision of a gate -/

/-- A dismissal, with the layer that made it. -/
def gateDecision (layer : Option String) : FullDecisionEntry where
  ts := 0
  incidentId := "imds_ssrf:1"
  host := "h"
  aiProvider := "gate"
  actionType := "dismiss"
  targetIp := some "10.0.0.1"
  targetUser := none
  skillId := none
  confidence := 0x3f800000
  autoExecuted := true
  dryRun := false
  reason := "known"
  estimatedThreat := "none"
  executionResult := "ok"
  prevHash := none
  decisionLayer := layer

/-- The confidence of the decision, as it is read. -/
def one : Json := .float 0x3ff0000000000000

/-- The conversion of that number. -/
def oneToF32 : Json → Option UInt32
  | .float bits => if bits = 0x3ff0000000000000 then some 0x3f800000 else none
  | _ => none

/-- A file with one line, and the hash of the line. -/
def sampleLog : String := "\x7b\x7d\n"

def sampleHash : String := lowerHex (.ofNat 0)

/-- The line of the decision after that line. -/
def secondTree (e : FullDecisionEntry) : Json :=
  .obj (tree sampleChrono one ⟨e.toDecisionEntry, some sampleHash⟩)

/-- `serde_json` on that number, and on the text of one value. -/
def oneCodec (v : Json) : JsonCodec where
  formatF64 _ := "1.0"
  formatF32 _ := "1.0"
  fromStr s := if s = v.toText (fun _ => "1.0") then some v else none

theorem oneCodec_reads (v : Json) : (oneCodec v).Reads v := if_pos rfl

/-- The crates on that line. -/
def secondCrates (e : FullDecisionEntry) : LogCrates :=
  ⟨fun _ => .ofNat 0, oneCodec (secondTree e), sampleChrono⟩

theorem readLastHash_sampleLog (e : FullDecisionEntry) :
    readLastHash (secondCrates e) sampleLog = some sampleHash := by
  have hlines : ((lines sampleLog).filter fun l => trim l ≠ "") = ["\x7b\x7d"] := by decide +kernel
  rw [readLastHash, hlines]
  rfl

theorem faithful_secondCrates (layer : Option String) :
    Faithful (secondCrates (gateDecision layer)) oneToF32
      ⟨(gateDecision layer).toDecisionEntry,
        readLastHash (secondCrates (gateDecision layer)) sampleLog⟩ := by
  rw [readLastHash_sampleLog]
  exact ⟨(by decide : sampleChrono.Reads 0).2, fun _ => ⟨one, rfl, rfl, oneCodec_reads _⟩⟩

theorem gateDecision_without_layer_round_trips :
    RoundTrips (secondCrates (gateDecision none)) oneToF32 "2026-05-02" sampleLog
      (gateDecision none) :=
  (roundTrips_iff_no_layer (secondCrates (gateDecision none)) oneToF32 "2026-05-02" sampleLog
    (gateDecision none) (by decide) (by decide) (faithful_secondCrates none)).mpr rfl

/-- The layer of the gate is not in the log. -/
theorem gateDecision_loses_layer :
    ¬ RoundTrips (secondCrates (gateDecision (some "algorithm_gate"))) oneToF32 "2026-05-02"
      sampleLog (gateDecision (some "algorithm_gate")) := by
  intro h
  have hlayer := h.decisionLayer_eq_none (by decide) (by decide)
    (faithful_secondCrates (some "algorithm_gate"))
  cases hlayer

end DecisionReading

end Innerwarden
