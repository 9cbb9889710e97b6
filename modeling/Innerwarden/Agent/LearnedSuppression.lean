import Innerwarden.Agent.DecisionReading
import Innerwarden.Lib.Like
import Innerwarden.Store.Incidents

/-!
# Learned suppression

`crates/agent/src/learned_suppression.rs`, with the query `Store::shape_dismissal_stats`.  A
shape is a detector and an address.  When decisions have dismissed a shape often enough and
none has acted on it, the next incident of the shape is suppressed.

The query finds the rows of a shape by `LIKE`, with the wildcards and letters of the detector
in the pattern.  `suppressed_iff_undisturbed` says how far the rows found this way may differ
from those of the shape.  The counts are far below `u64`.  A query that fails answers nothing.
-/

namespace Innerwarden.LearnedSuppression

open Like Text

/-! ## The policy -/

def suppressionAiProvider : String := "learned-suppression"

def excludedDismissProviders : List String := ["orphan-recovery", suppressionAiProvider]

def actionedTypes : List String :=
  ["block_ip", "monitor", "kill_process", "suspend_user_sudo", "block_container", "honeypot"]

def mayLearnSuppress : Severity → Bool
  | .low => true
  | .medium => true
  | _ => false

/-- The detector of an id: what stands before its first colon. -/
def detectorOf (incidentId : String) : String := (split ':' incidentId).headD ""

def primaryIp (incident : Incident) : Option String :=
  (incident.entities.find? fun e => e.type = .ip).map EntityRef.value

/-- The answer of the query. -/
structure ShapeDismissalStats where
  genuineDismissals : Nat
  actioned : Nat

/-- Whether the incident goes on. -/
inductive LearnedVerdict where
  | passThrough
  | suppress (dismissals : Nat)
deriving DecidableEq

protected def decide (severity : Severity) (stats : ShapeDismissalStats)
    (minDismissals meshCorroboration : Nat) : LearnedVerdict :=
  if mayLearnSuppress severity = false then .passThrough
  else if 0 < stats.actioned then .passThrough
  else
    let n := max minDismissals 1
    let corroboration := if 1 ≤ stats.genuineDismissals then min meshCorroboration (n / 2) else 0
    let effective := stats.genuineDismissals + corroboration
    if n ≤ effective then .suppress stats.genuineDismissals else .passThrough

/-! ## The query -/

def detectorLike (detector : String) : String := detector ++ ":%"

def providerLike (provider : String) : String :=
  "%\x22ai_provider\x22:\x22" ++ provider ++ "\x22%"

/-- The row satisfies the first `WHERE` clause. -/
def countsDismissal (detector targetIp : String) (excluded : List String) (r : StoredDecision) :
    Bool :=
  r.targetIp = some targetIp && like r.incidentId (detectorLike detector) &&
    r.actionType = "dismiss" && excluded.all fun p => !like r.data (providerLike p)

def countsAction (detector targetIp : String) (actioned : List String) (r : StoredDecision) :
    Bool :=
  r.targetIp = some targetIp && like r.incidentId (detectorLike detector) &&
    actioned.contains r.actionType

def shapeDismissalStats (t : Decisions) (detector targetIp : String)
    (excluded actioned : List String) : ShapeDismissalStats where
  genuineDismissals := t.rows.countP (countsDismissal detector targetIp excluded)
  actioned :=
    if actioned.isEmpty then 0 else t.rows.countP (countsAction detector targetIp actioned)

/-- `evaluate`, given the answer of the store, which is `none` if the query fails. -/
def evaluate
    (query : String → String → List String → List String → Option ShapeDismissalStats)
    (incident : Incident) (minDismissals meshCorroboration : Nat) : LearnedVerdict :=
  if mayLearnSuppress incident.severity = false then .passThrough
  else
    match primaryIp incident with
    | none => .passThrough
    | some ip =>
      let detector := detectorOf incident.incidentId
      if detector = "" then .passThrough
      else
        match query detector ip excludedDismissProviders actionedTypes with
        | none => .passThrough
        | some stats =>
          LearnedSuppression.decide incident.severity stats minDismissals meshCorroboration

/-- The incident is suppressed, on a table whose query succeeds. -/
def Suppressed (t : Decisions) (incident : Incident) (minDismissals meshCorroboration : Nat) :
    Prop :=
  ∃ dismissals, evaluate (fun d ip ex ac => some (shapeDismissalStats t d ip ex ac)) incident
    minDismissals meshCorroboration = .suppress dismissals

/-! ## What it is for -/

section Shape

variable (codec : JsonCodec) (t : Decisions) (detector ip : String)

/-- The `ai_provider` in the data of a row. -/
def aiProvider (r : StoredDecision) : Option String :=
  (codec.fromStr r.data).bind fun v => (v.get "ai_provider").bind Json.asStr

def ofShape (r : StoredDecision) : Bool :=
  r.targetIp = some ip && detectorOf r.incidentId = detector

def isGenuine (r : StoredDecision) : Bool :=
  ofShape detector ip r && r.actionType = "dismiss" &&
    (aiProvider codec r).all fun p => !excludedDismissProviders.contains p

def isWeighty (r : StoredDecision) : Bool :=
  ofShape detector ip r && actionedTypes.contains r.actionType

def genuineDismissals : Nat := t.rows.countP (isGenuine codec detector ip)

def Weighty : Prop := ∃ r ∈ t.rows, isWeighty detector ip r = true

def needed (minDismissals meshCorroboration : Nat) : Nat :=
  minDismissals - min meshCorroboration (minDismissals / 2)

/-- A shape without weight that is dismissed often enough. -/
def Intended (severity : Severity) (minDismissals meshCorroboration : Nat) : Prop :=
  mayLearnSuppress severity = true ∧ ¬ Weighty t detector ip ∧
    (minDismissals ≤ genuineDismissals codec t detector ip ∨
      1 ≤ genuineDismissals codec t detector ip ∧
        minDismissals ≤ genuineDismissals codec t detector ip +
          min meshCorroboration (minDismissals / 2))

/-- The query takes the row for a dismissal of the shape.  Without a detector there is no
query. -/
def readsDismissal (r : StoredDecision) : Bool :=
  detector ≠ "" && countsDismissal detector ip excludedDismissProviders r

def readsAction (r : StoredDecision) : Bool :=
  detector ≠ "" && countsAction detector ip actionedTypes r

def stray : Nat :=
  t.rows.countP fun r => readsDismissal detector ip r && !isGenuine codec detector ip r

/-- The dismissals of the shape that are not counted. -/
def missed : Nat :=
  t.rows.countP fun r => isGenuine codec detector ip r && !readsDismissal detector ip r

/-- The rows that are not read as what they are do not turn the verdict. -/
structure Undisturbed (minDismissals meshCorroboration : Nat) : Prop where
  /-- A shape that is to be suppressed loses no dismissals it needs, and nothing looks like a
  weighty action on it. -/
  kept : ¬ Weighty t detector ip →
    needed minDismissals meshCorroboration ≤ genuineDismissals codec t detector ip →
    (∀ r ∈ t.rows, readsAction detector ip r = false) ∧
      needed minDismissals meshCorroboration + missed codec t detector ip ≤
        genuineDismissals codec t detector ip + stray codec t detector ip
  /-- Another shape does not gain the dismissals it lacks, unless something looks like a weighty
  action on it. -/
  lacking : Weighty t detector ip ∨
      genuineDismissals codec t detector ip < needed minDismissals meshCorroboration →
    (∀ r ∈ t.rows, readsAction detector ip r = false) →
      genuineDismissals codec t detector ip + stray codec t detector ip <
        needed minDismissals meshCorroboration + missed codec t detector ip

end Shape

/-! ## When the verdict is the right one -/

theorem decide_eq_suppress_iff (severity : Severity) (stats : ShapeDismissalStats) {n : Nat}
    (hn : 1 ≤ n) (corroboration : Nat) :
    (∃ k, LearnedSuppression.decide severity stats n corroboration = .suppress k) ↔
      mayLearnSuppress severity = true ∧ stats.actioned = 0 ∧
        needed n corroboration ≤ stats.genuineDismissals := by
  simp only [LearnedSuppression.decide, Nat.max_eq_left hn, needed]
  cases hseverity : mayLearnSuppress severity with
  | false => simp
  | true =>
    by_cases hactioned : 0 < stats.actioned
    · simp [hactioned, Nat.ne_of_gt hactioned]
    · have hzero : stats.actioned = 0 := by omega
      have henough : (n ≤ stats.genuineDismissals +
            if 1 ≤ stats.genuineDismissals then min corroboration (n / 2) else 0) ↔
          n - min corroboration (n / 2) ≤ stats.genuineDismissals := by
        split <;> omega
      simp only [if_false, henough, hzero, true_and, Bool.true_eq_false]
      constructor
      · rintro ⟨k, hk⟩
        by_contra hless
        rw [if_neg hless] at hk
        cases hk
      · intro hle
        exact ⟨_, if_pos hle⟩

theorem enough_iff {n : Nat} (hn : 1 ≤ n) (corroboration g : Nat) :
    (n ≤ g ∨ 1 ≤ g ∧ n ≤ g + min corroboration (n / 2)) ↔ needed n corroboration ≤ g := by
  unfold needed
  omega

/-- Counting by two conditions: they differ by what only one of them counts. -/
theorem countP_add_countP_not {α : Type*} (p q : α → Bool) (l : List α) :
    l.countP p + l.countP (fun x => q x && !p x) = l.countP q + l.countP fun x => p x && !q x := by
  induction l with
  | nil => rfl
  | cons x l ih =>
    simp only [List.countP_cons]
    cases p x <;> cases q x <;> simp <;> omega

section Verdict

variable {codec : JsonCodec} {t : Decisions} {incident : Incident} {ip : String}

theorem suppressed_iff (hip : primaryIp incident = some ip) {n : Nat} (hn : 1 ≤ n)
    (corroboration : Nat) :
    Suppressed t incident n corroboration ↔
      mayLearnSuppress incident.severity = true ∧
        (∀ r ∈ t.rows, readsAction (detectorOf incident.incidentId) ip r = false) ∧
        needed n corroboration ≤
          t.rows.countP (readsDismissal (detectorOf incident.incidentId) ip) := by
  have hneeded : 1 ≤ needed n corroboration := by
    unfold needed
    omega
  simp only [Suppressed, evaluate, hip]
  generalize detectorOf incident.incidentId = detector
  cases hseverity : mayLearnSuppress incident.severity with
  | false => simp
  | true =>
    by_cases hdetector : detector = ""
    · have hzero : t.rows.countP (readsDismissal "" ip) = 0 := by
        simp [readsDismissal]
      simp only [hdetector, hzero, if_true, Bool.true_eq_false, if_false]
      constructor
      · rintro ⟨k, hk⟩
        cases hk
      · rintro ⟨-, -, hle⟩
        omega
    · have hactions : readsAction detector ip = countsAction detector ip actionedTypes := by
        funext r
        simp [readsAction, hdetector]
      have hdismissals : readsDismissal detector ip =
          countsDismissal detector ip excludedDismissProviders := by
        funext r
        simp [readsDismissal, hdetector]
      simp only [Bool.true_eq_false, hdetector, if_false]
      rw [decide_eq_suppress_iff _ _ hn, hseverity, hactions, hdismissals]
      simp [shapeDismissalStats, actionedTypes, List.countP_eq_zero]

/-- The verdict is the right one exactly if the rows that are not read as what they are do not
turn it. -/
theorem suppressed_iff_undisturbed (codec : JsonCodec) (t : Decisions) (incident : Incident)
    (ip : String) (hip : primaryIp incident = some ip) (n corroboration : Nat) (hn : 1 ≤ n) :
    (Suppressed t incident n corroboration ↔
        Intended codec t (detectorOf incident.incidentId) ip incident.severity n corroboration) ↔
      (mayLearnSuppress incident.severity = true →
        Undisturbed codec t (detectorOf incident.incidentId) ip n corroboration) := by
  rw [suppressed_iff hip hn, Intended, enough_iff hn]
  generalize detectorOf incident.incidentId = detector
  have hcount := countP_add_countP_not (readsDismissal detector ip)
    (isGenuine codec detector ip) t.rows
  cases hseverity : mayLearnSuppress incident.severity with
  | false => simp
  | true =>
    have hreads : needed n corroboration ≤ t.rows.countP (readsDismissal detector ip) ↔
        needed n corroboration + missed codec t detector ip ≤
          genuineDismissals codec t detector ip + stray codec t detector ip := by
      unfold missed genuineDismissals stray
      omega
    simp only [true_and, forall_const, hreads]
    constructor
    · intro h
      refine ⟨fun hweighty henough => h.mpr ⟨hweighty, henough⟩, ?_⟩
      intro hlacking hquiet
      by_contra hless
      obtain ⟨hweighty, henough⟩ := h.mp ⟨hquiet, Nat.le_of_not_lt hless⟩
      rcases hlacking with hlacking | hlacking
      · exact hweighty hlacking
      · exact absurd henough (Nat.not_le_of_lt hlacking)
    · rintro ⟨hkept, hlacking⟩
      constructor
      · rintro ⟨hquiet, hreads⟩
        have hnot := fun h => Nat.not_lt_of_le hreads (hlacking h hquiet)
        exact ⟨fun hweighty => hnot (.inl hweighty),
          Nat.le_of_not_lt fun hless => hnot (.inr hless)⟩
      · rintro ⟨hweighty, henough⟩
        exact hkept hweighty henough

end Verdict

/-! ## A shape that is suppressed for another -/

def sampleIncident : Incident :=
  ⟨0, "h", "dns_c2:1", .low, "", "", .null, [], [], [⟨.ip, "9.9.9.9"⟩]⟩

/-- The data of a decision, and the tree of that text. -/
def sampleData : String := "\x7b\x22ai_provider\x22:\x22gate\x22\x7d"

def sampleCodec : JsonCodec where
  formatF64 _ := ""
  formatF32 _ := ""
  fromStr s := if s = sampleData then some (.obj [("ai_provider", .str "gate")]) else none

/-- One dismissal. -/
def sampleTable (incidentId : String) : Decisions where
  rows := [⟨1, "", incidentId, "dismiss", some "9.9.9.9", none, none, 0, none, none, "",
    sampleData⟩]
  sorted := List.pairwise_singleton _ _

/-- A dismissal of the shape itself counts. -/
theorem own_dismissal_counts :
    Suppressed (sampleTable "dns_c2:7") sampleIncident 1 0 ↔
      Intended sampleCodec (sampleTable "dns_c2:7") "dns_c2" "9.9.9.9" .low 1 0 := by
  have hquiet : ∀ r ∈ (sampleTable "dns_c2:7").rows,
      readsAction "dns_c2" "9.9.9.9" r = false ∧ isWeighty "dns_c2" "9.9.9.9" r = false := by
    decide +kernel
  have hcounts : genuineDismissals sampleCodec (sampleTable "dns_c2:7") "dns_c2" "9.9.9.9" = 1 ∧
      missed sampleCodec (sampleTable "dns_c2:7") "dns_c2" "9.9.9.9" = 0 := by
    decide +kernel
  refine (suppressed_iff_undisturbed sampleCodec _ sampleIncident "9.9.9.9" rfl 1 0
    (Nat.le_refl 1)).mpr fun _ => ?_
  have hdetector : detectorOf sampleIncident.incidentId = "dns_c2" := by decide +kernel
  rw [hdetector]
  refine ⟨fun _ _ => ⟨fun r hr => (hquiet r hr).1, ?_⟩, fun hlacking => ?_⟩
  · rw [hcounts.1, hcounts.2]
    exact Nat.le_add_right 1 _
  · rcases hlacking with ⟨r, hr, hweighty⟩ | hless
    · rw [(hquiet r hr).2] at hweighty
      cases hweighty
    · rw [hcounts.1] at hless
      exact absurd hless (Nat.lt_irrefl 1)

/-- A dismissal by another detector suppresses the shape. -/
theorem lookalike_dismissal_suppresses :
    ¬ (Suppressed (sampleTable "dns-c2:7") sampleIncident 1 0 ↔
      Intended sampleCodec (sampleTable "dns-c2:7") "dns_c2" "9.9.9.9" .low 1 0) := by
  have hsuppressed : Suppressed (sampleTable "dns-c2:7") sampleIncident 1 0 :=
    ⟨1, by decide +kernel⟩
  have hcount : genuineDismissals sampleCodec (sampleTable "dns-c2:7") "dns_c2" "9.9.9.9" = 0 := by
    decide +kernel
  intro h
  obtain ⟨-, -, henough⟩ := h.mp hsuppressed
  rw [hcount] at henough
  omega

end Innerwarden.LearnedSuppression
