import Innerwarden.Lib.KeyedTable
import Innerwarden.Pipeline.Rules

/-!
# Sigma rules

`crates/sensor/src/detectors/sigma_rule.rs`: `parseSigmaYaml` reads a rule, `SigmaRule.test`
tries it on an event, and `isSkipped` says on which events none is tried.

The parser scans the text line by line, keeps the sections of the detection block in a hash map
and does not use the condition.  In the end it puts the fields of all sections whose names begin
with `selection` in one list and those of the sections that begin with `filter` in another.  The
order of the hash map, the lower case of Unicode and the texts of JSON values are parameters.
The files, the built-in rules, the cooldown and the text of an incident are left out.
-/

namespace Innerwarden.Sigma

open Text
open Pipeline (Event)

/-! ## Rules -/

/-- How a field is compared. -/
inductive MatchOp where
  | equals
  | contains
  | startsWith
  | endsWith
  | regex
deriving DecidableEq

/-- A test of a field: one of the values is enough. -/
structure FieldMatcher where
  field : String
  op : MatchOp
  values : List String
deriving DecidableEq

/-- A rule as the detector tests it. -/
structure SigmaRule where
  id : String
  title : String
  level : Severity
  selection : List FieldMatcher
  filter : List FieldMatcher
  tags : List String
deriving DecidableEq

/-! ## Reading a rule -/

/-- The sections of a detection block, in the order in which they were first named. -/
abbrev Sections := List (String × List FieldMatcher)

/-- `sections.entry(name).or_default()`, changed by a function. -/
def Sections.update (name : String) (f : List FieldMatcher → List FieldMatcher)
    (sections : Sections) : Sections :=
  KeyedTable.upsert Prod.fst (fun s => (s.1, f s.2)) (name, f []) sections

/-- The variables of the loop over the lines. -/
structure ScanState where
  id : String := ""
  title : String := ""
  level : Severity := .medium
  tags : List String := []
  sections : Sections := []
  condition : String := ""
  currentSection : Option String := none
  inTags : Bool := false
  inDetection : Bool := false

def unquote (v : String) : String := trimMatches (· = '\'') (trimMatches (· = '"') (trim v))

def parseLevel (v : String) : Severity :=
  if v = "critical" then .critical
  else if v = "high" then .high
  else if v = "medium" then .medium
  else if v = "low" then .low
  else if v = "informational" then .info
  else .medium

def metadataKeys : List String :=
  ["logsource:", "status:", "description:", "references:", "author:", "date:", "modified:",
   "falsepositives:"]

/-- The keys of `logsource`, which are skipped in a detection block. -/
def logsourceKeys : List String := ["product:", "category:", "service:"]

/-- The field and the operation that a key stands for. -/
def parseSpec (spec : String) : String × MatchOp :=
  match stripSuffix spec "|contains" with
  | some f => (f, .contains)
  | none =>
  match stripSuffix spec "|startswith" with
  | some f => (f, .startsWith)
  | none =>
  match stripSuffix spec "|endswith" with
  | some f => (f, .endsWith)
  | none =>
  match stripSuffix spec "|re" with
  | some f => (f, .regex)
  | none =>
  match stripSuffix spec "|contains|all" with
  | some f => (f, .contains)
  | none => (spec, .equals)

/-- A value, unless it is empty, is added to the last matcher. -/
def pushValue (v : String) (matchers : List FieldMatcher) : List FieldMatcher :=
  if v = "" then matchers
  else
    match matchers.getLast? with
    | none => matchers
    | some m => matchers.dropLast ++ [{ m with values := m.values ++ [v] }]

def newMatcher (spec value : String) : FieldMatcher :=
  { field := (parseSpec spec).1
    op := (parseSpec spec).2
    values := if value = "" then [] else [value] }

/-- The line is the head of a section. -/
def isSectionHead (trimmed : String) (depth : Nat) : Bool :=
  endsWith trimmed ":" && !contains trimmed "|" && depth ≤ 8 && !startsWith trimmed "-" &&
    (startsWith (trimEndMatches (· = ':') trimmed) "selection" ||
      startsWith (trimEndMatches (· = ':') trimmed) "filter")

/-- A line of the current section, and whether the loop goes on to the next line. -/
def scanField (st : ScanState) (trimmed : String) : ScanState × Bool :=
  match st.currentSection with
  | none => (st, false)
  | some sec =>
    match stripPrefix trimmed "- " with
    | some rest =>
      -- The section is there, since its head has been read.
      ({ st with sections := st.sections.update sec (pushValue (unquote rest)) }, true)
    | none =>
      match splitOnce ':' trimmed with
      | none => (st, false)
      | some (spec, value) =>
        ({ st with
            sections := st.sections.update sec
              (· ++ [newMatcher (trim spec) (unquote value)]) }, false)

/-- A line of the detection block, and whether the loop goes on to the next line. -/
def scanDetection (st : ScanState) (trimmed : String) (depth : Nat) : ScanState × Bool :=
  match stripPrefix trimmed "condition:" with
  | some v => ({ st with condition := trim v, currentSection := none }, true)
  | none =>
    if logsourceKeys.any (startsWith trimmed) then (st, true)
    else if isSectionHead trimmed depth then
      let name := trimEndMatches (· = ':') trimmed
      ({ st with currentSection := some name, sections := st.sections.update name id }, true)
    else scanField st trimmed

def scanTag (st : ScanState) (trimmed : String) : ScanState :=
  if st.inTags then
    match stripPrefix trimmed "- " with
    | some rest => { st with tags := st.tags ++ [unquote rest] }
    | none => st
  else st

/-- A line that no block is left at. -/
def scanKey (st : ScanState) (trimmed : String) (depth : Nat) : ScanState :=
  match stripPrefix trimmed "id:" with
  | some v => { st with id := unquote v }
  | none =>
  match stripPrefix trimmed "title:" with
  | some v => { st with title := unquote v }
  | none =>
  match stripPrefix trimmed "level:" with
  | some v => { st with level := parseLevel (trim v) }
  | none =>
    if trimmed = "detection:" then { st with inDetection := true, inTags := false }
    else if startsWith trimmed "tags:" then
      { st with inTags := true, inDetection := false, currentSection := none }
    else if metadataKeys.any (startsWith trimmed) then
      { st with inDetection := false, inTags := false, currentSection := none }
    else if st.inDetection then
      match scanDetection st trimmed depth with
      | (st, true) => st
      | (st, false) => scanTag st trimmed
    else scanTag st trimmed

def isSignificant (line : String) : Bool := trim line ≠ "" && !startsWith (trim line) "#"

/-- One line. -/
def scanLine (st : ScanState) (line : String) : ScanState :=
  if isSignificant line = false then st
  else
    let st := if indent line = 0 then
        { st with currentSection := none, inTags := false, inDetection := false }
      else st
    scanKey st (trim line) (indent line)

/-- The fields of the selections and those of the filters. -/
def mergeSections (order : Sections → Sections) (sections : Sections) :
    List FieldMatcher × List FieldMatcher :=
  match sections with
  | [("selection", matchers)] => (matchers, [])
  | _ =>
    ((order sections).flatMap fun s => if startsWith s.1 "selection" then s.2 else [],
      (order sections).flatMap fun s =>
        if startsWith s.1 "selection" then [] else if startsWith s.1 "filter" then s.2 else [])

def parseSigmaYaml (order : Sections → Sections) (content : String) : Option SigmaRule :=
  let st := (lines content).foldl scanLine {}
  let (selection, filter) := mergeSections order st.sections
  if st.id = "" || st.title = "" || selection.isEmpty then none
  else some ⟨st.id, st.title, st.level, selection, filter, st.tags⟩

/-! ## Matching -/

/-- What the libraries do with texts. -/
structure Texts where
  /-- `str::to_lowercase`. -/
  toLowercase : String → String
  /-- `Value::to_string`. -/
  jsonText : Json → String

def aliasField (field : String) : String :=
  if field ∈ ["Image", "image", "OriginalFileName", "originalfilename", "TargetFilename",
      "targetfilename", "exe"] then "details.filename"
  else if field ∈ ["CommandLine", "commandline", "command_line"] then "details.command"
  else if field ∈ ["ParentImage", "parentimage"] then "details.parent"
  else if field ∈ ["ParentCommandLine", "parentcommandline"] then "details.parent_command"
  else if field ∈ ["User", "user"] then "details.user"
  else if field ∈ ["CurrentDirectory", "currentdirectory"] then "details.cwd"
  else if field ∈ ["Product", "product"] then "source"
  else if field ∈ ["Category", "category", "type"] then "kind"
  else if field ∈ ["DestinationIp", "destinationip", "dst_ip"] then "details.dst_ip"
  else if field ∈ ["DestinationPort", "destinationport", "dst_port"] then "details.dst_port"
  else if field ∈ ["SourceIp", "sourceip", "src_ip"] then "details.src_ip"
  else field

section Matching

variable (texts : Texts) (event : Event)

def detailText (key : String) : Option String :=
  (event.details.get key).map fun v => v.asStr.getD (texts.jsonText v)

/-- A field of the event, or else a text of its details. -/
def extractField (field : String) : Option String :=
  let field := aliasField field
  if field = "kind" then some event.kind
  else if field = "source" then some event.source
  else if field = "summary" then some event.summary
  else if field = "host" then some event.host
  else if field = "severity" then some event.severity.text
  else
    match stripPrefix field "details." with
    | some key => detailText texts event key
    | none => detailText texts event field

/-- The test of one value. -/
def valueMatches (op : MatchOp) (fieldValue expected : String) : Bool :=
  match op with
  | .equals => eqIgnoreAsciiCase fieldValue expected
  | .contains => contains (texts.toLowercase fieldValue) (texts.toLowercase expected)
  | .startsWith => startsWith (texts.toLowercase fieldValue) (texts.toLowercase expected)
  | .endsWith => endsWith (texts.toLowercase fieldValue) (texts.toLowercase expected)
  | .regex =>
    let pattern := String.ofList (expected.toList.filter (· ≠ '*'))
    contains (texts.toLowercase fieldValue) (texts.toLowercase pattern)

def matchesField (m : FieldMatcher) : Bool :=
  m.values.any (valueMatches texts m.op ((extractField texts event m.field).getD ""))

def SigmaRule.test (rule : SigmaRule) : Bool :=
  rule.selection.all (matchesField texts event) &&
    !(!rule.filter.isEmpty && rule.filter.all (matchesField texts event))

end Matching

/-! ## The detector -/

def isInnerwardenProcess (uid : Nat) (comm : String) : Bool :=
  let comm := trimMatches (fun c => c = '(' || c = ')') comm
  uid = 998 || startsWith comm "innerwarden" || comm = "tokio-rt-worker" || contains comm "warden"

def commInAllowlist (comm : String) (allowlist : List String) : Bool :=
  let base := trimMatches (fun c => c = '(' || c = ')') ((split '/' comm).getLastD comm)
  allowlist.any (startsWith base)

def sensitiveFileReaders : List String :=
  ["sshd", "sshd-session", "login", "su", "sudo", "polkitd", "systemd", "systemd-logind", "cron",
   "crond", "atd", "passwd", "chage", "chsh", "chfn", "adduser", "useradd", "usermod", "newusers",
   "chpasswd", "unix_chkpwd", "innerwarden", "osqueryd", "ossec-syscheckd", "rkhunter", "aide",
   "logcheck", "iptables", "lsb_release", "check-new-relea", "dumpe2fs", "accounts-daemon",
   "pam-auth-update", "pam-config", "cockpit-session", "dpkg", "apt", "apt-get", "snap",
   "needrestart"]

/-- The events that no rule is tried on. -/
def isSkipped (event : Event) : Bool :=
  let comm := ((event.details.get "comm").bind Json.asStr).getD ""
  let uid := ((event.details.get "uid").bind Json.asU64).getD (2 ^ 64 - 1)
  let path := (((event.details.get "filename").or (event.details.get "path")).bind
    Json.asStr).getD ""
  isInnerwardenProcess uid comm || commInAllowlist comm sensitiveFileReaders ||
    (event.kind = "file.read_access" &&
      (startsWith path "/etc/profile.d/" || startsWith path "/etc/skel/" ||
        startsWith path "/etc/bash_completion.d/" || contains path "/.git/" ||
        endsWith path "/.git/HEAD"))

end Innerwarden.Sigma
