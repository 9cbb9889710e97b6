import Innerwarden.Lib.Json
import Innerwarden.Lib.Text

/-!
# Inspection of tool calls

The model of `crates/agent-guard/src/threats.rs`, as far as the inspectors use it,
and of the inspectors of `crates/agent-guard/src/mcp.rs`.

The crate `regex` and the engine of agent threat rules are parameters.  The engine
is any three functions from a text to its matches.
-/

namespace Innerwarden.Guard

open Text

/-! ## Threat patterns -/

def injectionPatterns : List String :=
  ["ignore previous instructions", "ignore all instructions", "you are now", "your new role",
   "new system prompt", "forget everything above", "from now on you", "override your",
   "forward all emails to", "send this to", "exfiltrate", "download and execute",
   "execute this command", "now execute", "next you should", "important: run this",
   "before continuing you must", "skip the verification", "no need to verify", "override safety",
   "the admin says", "emergency override", "do not tell the user", "keep this secret"]

/-- A dangerous command, and whether it is blocked. -/
structure CommandPattern where
  pattern : String
  description : String
  block : Bool

def dangerousCommands : List CommandPattern :=
  [⟨"curl.*\\|.*(?:sh|bash)", "pipe to shell", true⟩,
   ⟨"wget.*\\|.*(?:sh|bash)", "pipe to shell", true⟩,
   ⟨"(?i)eval\\s*\\(", "eval()", true⟩,
   ⟨"(?i)exec\\s*\\(", "exec()", true⟩,
   ⟨"os\\.system\\s*\\(", "os.system()", true⟩,
   ⟨"subprocess\\.call.*shell.*True", "subprocess shell", true⟩,
   ⟨"child_process\\.exec\\s*\\(", "child_process.exec()", true⟩,
   ⟨"rm\\s+-rf\\s+/", "rm -rf /", true⟩,
   ⟨"(?i)DROP\\s+(?:TABLE|DATABASE)", "SQL drop", true⟩,
   ⟨"curl.*(?:-d|--data).*@", "curl POST file", true⟩,
   ⟨"chmod\\s+777", "world-writable", false⟩,
   ⟨"chmod\\s+u\\+s", "setuid", true⟩,
   ⟨"crontab\\s+-", "crontab edit", false⟩,
   ⟨"pickle\\.load", "pickle deserialization", false⟩]

def apiKeyPatterns : List (String × String) :=
  [("sk-ant-[a-zA-Z0-9_-]\x7b20,\x7d", "Anthropic API key"),
   ("sk-proj-[a-zA-Z0-9_-]\x7b20,\x7d", "OpenAI project key"),
   ("sk-[a-zA-Z0-9_-]\x7b40,\x7d", "OpenAI API key"),
   ("xoxb-[a-zA-Z0-9_-]\x7b20,\x7d", "Slack bot token"),
   ("ghp_[a-zA-Z0-9]\x7b36\x7d", "GitHub PAT"),
   ("AKIA[A-Z0-9]\x7b16\x7d", "AWS access key"),
   ("glpat-[a-zA-Z0-9_-]\x7b20,\x7d", "GitLab PAT")]

def sensitivePaths : List String :=
  [".ssh/", ".aws/", ".gnupg/", ".kube/", ".azure/", ".gcloud/", ".docker/config.json",
   ".git-credentials", ".npmrc", ".pypirc", ".env", ".pem", ".key", ".pfx"]

def supplyChainIocs : List String :=
  ["webhook.site", "LD_PRELOAD", "DYLD_INSERT", "NODE_OPTIONS=--require", "reverse.shell",
   "reverse_shell"]

/-- `str::to_lowercase`, as far as a text of ASCII characters can be found in the result.
Outside ASCII only U+212A (Kelvin) and U+0130 have a lower case that holds an ASCII
character.  The others are left alone. -/
def toLowercase (s : String) : String :=
  String.ofList (s.toList.flatMap fun c =>
    if c.toNat = 0x212a then ['k']
    else if c.toNat = 0x130 then ['i', Char.ofNat 0x307]
    else [c.toLower])

/-- The crates the inspectors call. -/
structure GuardCrates where
  /-- The digits of a finite float in a JSON text. -/
  formatF64 : UInt64 → String
  /-- The tree `serde_json` reads from a text, with its members in the order of the text
  and repeated keys kept. -/
  parseJson : String → Option Json
  /-- `Regex::is_match` of a pattern and a text. -/
  isMatch : String → String → Bool

def checkInjection (content : String) : Option String :=
  let lower := toLowercase content
  injectionPatterns.find? (contains lower)

def checkSensitivePath (content : String) : Option String :=
  sensitivePaths.find? (contains content)

/-- The indicator `inspect_tool_call` reports. -/
def checkSupplyChain (content : String) : Option String :=
  supplyChainIocs.find? fun ioc => contains (toLowercase content) (toLowercase ioc)

section Crates

variable (crates : GuardCrates)

def checkCredentials (content : String) : Option String :=
  (apiKeyPatterns.find? fun p => crates.isMatch p.1 content).map Prod.snd

def checkCommand (content : String) : Option (String × Bool) :=
  (dangerousCommands.find? fun c => crates.isMatch c.pattern content).map fun c =>
    (c.description, c.block)

end Crates

/-! ## Verdicts -/

/-- The references of a rule. -/
structure AtrReferences where
  owaspLlm : List String
  owaspAgentic : List String
  mitreAtlas : List String
  mitreAttack : List String

/-- A match of an agent threat rule. -/
structure AtrMatch where
  ruleId : String
  title : String
  severity : String
  category : String
  matchedCondition : String
  references : AtrReferences

/-- The engine of agent threat rules. -/
structure RuleEngine where
  checkToolArgs : String → List AtrMatch
  checkUserInput : String → List AtrMatch
  checkToolResponse : String → List AtrMatch

/-- A finding. -/
structure VerdictAlert where
  rule : String
  detail : String
  block : Bool
  category : Option String
  owasp : Option (List String)
  mitre : Option (List String)
deriving DecidableEq

/-- The result of inspecting a message. -/
structure Verdict where
  allowed : Bool
  alerts : List VerdictAlert
deriving DecidableEq

def VerdictAlert.builtin (rule detail : String) (block : Bool) : VerdictAlert :=
  ⟨rule, detail, block, none, none, none⟩

def nonEmpty (l : List String) : Option (List String) := if l.isEmpty then none else some l

/-- An alert of a threat rule. -/
def VerdictAlert.fromAtr (m : AtrMatch) (block : Bool) : VerdictAlert where
  rule := m.ruleId
  detail := m.title ++ ": " ++ m.matchedCondition
  block := block
  category := some m.category
  owasp := nonEmpty (m.references.owaspLlm ++ m.references.owaspAgentic)
  mitre := nonEmpty (m.references.mitreAtlas ++ m.references.mitreAttack)

def AtrMatch.blocks (m : AtrMatch) : Bool := m.severity = "critical" || m.severity = "high"

def Verdict.ofAlerts (alerts : List VerdictAlert) : Verdict where
  allowed := !alerts.any VerdictAlert.block
  alerts := alerts

/-! ## Inspectors -/

/-- Alerts of rules on user input, one per rule that has none yet. -/
def pushUnseen (alerts : List VerdictAlert) : List AtrMatch → List VerdictAlert
  | [] => alerts
  | m :: ms =>
    if alerts.any fun a => a.rule = m.ruleId then pushUnseen alerts ms
    else pushUnseen (alerts ++ [.fromAtr m m.blocks]) ms

section Inspectors

variable (crates : GuardCrates) (ruleEngine : Option RuleEngine)

/-- `inspect_tool_call`.  The name of the tool is not looked at. -/
def inspectToolCall (_toolName : String) (args : Json) : Verdict :=
  let argsStr := args.toText crates.formatF64
  let builtin :=
    ((checkCredentials crates argsStr).map fun desc =>
      VerdictAlert.builtin "AG-CRED" ("credential exposure: " ++ desc) true).toList ++
    ((checkCommand crates argsStr).map fun found =>
      VerdictAlert.builtin "AG-CMD" ("dangerous command: " ++ found.1) found.2).toList ++
    ((checkSensitivePath argsStr).map fun path =>
      VerdictAlert.builtin "AG-FILE" ("sensitive file: " ++ path) false).toList ++
    ((checkSupplyChain argsStr).map fun ioc =>
      VerdictAlert.builtin "AG-IOC" ("supply chain IOC: " ++ ioc) true).toList
  .ofAlerts
    (match ruleEngine with
      | none => builtin
      | some engine =>
        pushUnseen
          (builtin ++ (engine.checkToolArgs argsStr).map fun m => .fromAtr m m.blocks)
          (engine.checkUserInput argsStr))

def inspectToolDescription (toolName description : String) : Verdict :=
  .ofAlerts
    (((checkInjection description).map fun pattern =>
        VerdictAlert.builtin "AG-POISON"
          ("tool '" ++ toolName ++ "' poisoned: '" ++ pattern ++ "'") true).toList ++
      ((checkCredentials crates description).map fun desc =>
        VerdictAlert.builtin "AG-CRED-DESC"
          ("credential instruction in '" ++ toolName ++ "': " ++ desc) true).toList ++
      (ruleEngine.elim [] fun engine =>
        (engine.checkUserInput description).map fun m => .fromAtr m m.blocks))

/-- `inspect_response`.  A response is reported and never blocked. -/
def inspectResponse (content : String) : Verdict where
  allowed := true
  alerts :=
    ((checkInjection content).map fun pattern =>
      VerdictAlert.builtin "AG-RESP-INJECT" ("injection in response: '" ++ pattern ++ "'")
        false).toList ++
    ((checkCredentials crates content).map fun desc =>
      VerdictAlert.builtin "AG-RESP-CRED" ("credential in response: " ++ desc) false).toList ++
    (ruleEngine.elim [] fun engine =>
      (engine.checkToolResponse content).map fun m => .fromAtr m false)

end Inspectors

end Innerwarden.Guard
