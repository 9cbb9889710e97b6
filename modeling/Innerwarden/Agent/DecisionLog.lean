import Innerwarden.Lib.Digest
import Innerwarden.Lib.HashChain
import Innerwarden.Lib.Json
import Innerwarden.Lib.Text
import Innerwarden.Time

/-!
# The daily decision log

The model of `crates/agent/src/decisions.rs`.  A decision is appended to the file of its date
as one line of JSON that holds `prev_hash`, the SHA-256 of the last line that is not blank.
The lines a run of appends leaves are those of `chainedEntries` (`appendAll_empty`), and they
are linked (`linked_chainedEntries`).

The file is its text.  A failed write or lock leaves it as it was.
-/

namespace Innerwarden

open Digest HashChain Text List

/-! ## Entries -/

/-- A decision as the caller hands it to the log.  `decision_layer` and `prev_hash`
are not read by the append. -/
structure DecisionEntry where
  ts : DateTime
  incidentId : String
  host : String
  aiProvider : String
  actionType : String
  targetIp : Option String
  targetUser : Option String
  skillId : Option String
  /-- The bit pattern of an `f32`. -/
  confidence : UInt32
  autoExecuted : Bool
  dryRun : Bool
  reason : String
  estimatedThreat : String
  executionResult : String

/-- The entry that is written: a decision and the hash of the line before it. -/
structure ChainedEntry extends DecisionEntry where
  prevHash : Option String

/-- The text of a `bool`. -/
def boolText (b : Bool) : String := if b then "true" else "false"

def optionText : Option String → String
  | some s => Json.quote s
  | none => "null"

/-- The crates the log calls. -/
structure LogCrates where
  sha256 : ByteArray → Digest
  json : JsonCodec
  chrono : Chrono

variable (crates : LogCrates)

def sha256Hex (data : String) : String := lowerHex (crates.sha256 data.toByteArray)

/-- The members serde writes for an entry, in the order of the struct. -/
def ChainedEntry.members (e : ChainedEntry) : List (String × String) :=
  [("ts", Json.quote (crates.chrono.serialize e.ts)),
   ("incident_id", Json.quote e.incidentId),
   ("host", Json.quote e.host),
   ("ai_provider", Json.quote e.aiProvider),
   ("action_type", Json.quote e.actionType),
   ("target_ip", optionText e.targetIp)] ++
  (e.targetUser.map fun u => ("target_user", Json.quote u)).toList ++
  [("skill_id", optionText e.skillId),
   ("confidence", crates.json.formatF32 e.confidence),
   ("auto_executed", boolText e.autoExecuted),
   ("dry_run", boolText e.dryRun),
   ("reason", Json.quote e.reason),
   ("estimated_threat", Json.quote e.estimatedThreat),
   ("execution_result", Json.quote e.executionResult)] ++
  (e.prevHash.map fun h => ("prev_hash", Json.quote h)).toList

def ChainedEntry.line (e : ChainedEntry) : String := Json.objectText (e.members crates)

/-! ## Appending -/

def isIsoDate (s : String) : Bool :=
  match s.toList with
  | [y1, y2, y3, y4, '-', m1, m2, '-', d1, d2] =>
    [y1, y2, y3, y4, m1, m2, d1, d2].all Char.isDigit
  | _ => false

/-- `read_last_hash`, on the text of the file. -/
def readLastHash (content : String) : Option String :=
  ((lines content).filter fun l => trim l ≠ "").getLast?.map (sha256Hex crates)

/-- `append_chained_locked`: the text of the file after the append, and the line. -/
def appendChainedLocked (today : String) (content : String) (entry : DecisionEntry) :
    Except String (String × String) :=
  if isIsoDate today then
    let line := ChainedEntry.line crates ⟨entry, readLastHash crates content⟩
    .ok (content ++ (line ++ "\n"), line)
  else
    .error ("decisions append_chained_locked: refusing to construct path with non-ISO-date segment "
      ++ today.quote)

/-- The text of the file after a list of appends. -/
def appendAll (today : String) (content : String) : List DecisionEntry → String
  | [] => content
  | entry :: entries =>
    match appendChainedLocked crates today content entry with
    | .ok (content', _) => appendAll today content' entries
    | .error _ => appendAll today content entries

/-! ## The lines of the file -/

def chainedEntries (prev : Option String) : List DecisionEntry → List ChainedEntry
  | [] => []
  | entry :: entries =>
    let chained : ChainedEntry := ⟨entry, prev⟩
    chained :: chainedEntries (some (sha256Hex crates (chained.line crates))) entries

theorem linked_chainedEntries (entries : List DecisionEntry) (prev : Option String) :
    Linked ChainedEntry.prevHash (fun e => sha256Hex crates (e.line crates)) prev
      (chainedEntries crates prev entries) := by
  induction entries generalizing prev with
  | nil => trivial
  | cons entry entries ih => exact ⟨rfl, ih _⟩

variable {crates}

theorem lf_not_mem_boolText (b : Bool) : '\n' ∉ (boolText b).toList := by
  cases b <;> decide

theorem lf_not_mem_optionText (o : Option String) : '\n' ∉ (optionText o).toList := by
  cases o with
  | none => decide
  | some s => exact Json.lf_not_mem_quote s

theorem ChainedEntry.trim_line_ne_empty (e : ChainedEntry) : trim (e.line crates) ≠ "" :=
  trim_ne_empty (Json.brace_mem_objectText _) (by decide)

section Written

variable (hdigits : ∀ x, '\n' ∉ (crates.json.formatF32 x).toList)

include hdigits

theorem ChainedEntry.isLine (e : ChainedEntry) : IsLine (e.line crates) := by
  refine ⟨Json.lf_not_mem_objectText ?_, ?_⟩
  · simp [members, or_imp, forall_and, Json.lf_not_mem_quote, lf_not_mem_optionText,
      lf_not_mem_boolText, hdigits]
  · rw [ChainedEntry.line, Json.getLast?_objectText]
    decide

theorem lines_joinLines_entries (es : List ChainedEntry) :
    lines (joinLines (es.map (ChainedEntry.line crates))) = es.map (ChainedEntry.line crates) := by
  refine lines_joinLines fun l hl => ?_
  obtain ⟨e, -, rfl⟩ := mem_map.mp hl
  exact e.isLine hdigits

theorem readLastHash_joinLines (es : List ChainedEntry) :
    readLastHash crates (joinLines (es.map (ChainedEntry.line crates))) =
      anchor (fun e : ChainedEntry => sha256Hex crates (e.line crates)) none es := by
  have hkeep : (es.map (ChainedEntry.line crates)).filter (fun l => trim l ≠ "") =
      es.map (ChainedEntry.line crates) := by
    refine filter_eq_self.mpr fun l hl => ?_
    obtain ⟨e, -, rfl⟩ := mem_map.mp hl
    exact decide_eq_true e.trim_line_ne_empty
  rw [readLastHash, lines_joinLines_entries hdigits, hkeep, anchor_none, getLast?_map,
    Option.map_map]
  rfl

/-- Appending to a file of written entries. -/
theorem appendAll_joinLines {today : String} (hdate : isIsoDate today = true)
    (entries : List DecisionEntry) (es : List ChainedEntry) :
    appendAll crates today (joinLines (es.map (ChainedEntry.line crates))) entries =
      joinLines ((es ++ chainedEntries crates
        (anchor (fun e : ChainedEntry => sha256Hex crates (e.line crates)) none es) entries).map
          (ChainedEntry.line crates)) := by
  induction entries generalizing es with
  | nil => rw [appendAll, chainedEntries, append_nil]
  | cons entry entries ih =>
    have hlast := readLastHash_joinLines hdigits es
    have hstep := ih (es ++ [⟨entry, anchor (fun e : ChainedEntry =>
      sha256Hex crates (e.line crates)) none es⟩])
    rw [map_append, map_singleton, joinLines_concat, anchor_append] at hstep
    simp only [appendAll, appendChainedLocked, hdate, if_true, hlast, hstep, chainedEntries,
      anchor_cons, anchor_nil, append_assoc, singleton_append]

theorem appendAll_empty {today : String} (hdate : isIsoDate today = true)
    (entries : List DecisionEntry) :
    appendAll crates today "" entries =
      joinLines ((chainedEntries crates none entries).map (ChainedEntry.line crates)) :=
  appendAll_joinLines hdigits hdate entries []

end Written

/-- An append under anything but a date is refused. -/
theorem appendAll_of_not_isIsoDate {today : String} (hdate : isIsoDate today = false)
    (content : String) (entries : List DecisionEntry) :
    appendAll crates today content entries = content := by
  induction entries with
  | nil => rfl
  | cons entry entries ih =>
    simp only [appendAll, appendChainedLocked, hdate, Bool.false_eq_true, if_false, ih]

end Innerwarden
