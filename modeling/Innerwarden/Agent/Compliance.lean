import Mathlib.Data.List.Nodup
import Innerwarden.Agent.DecisionLog

/-!
# Verifying the decision log

`compliance::verify_hash_chain` of `crates/agent/src/dashboard/compliance.rs` hashes every
line that is not empty, and compares `prev_hash` with the hash of the line before when there
are both.  So the first line is never compared, and a line that is not JSON is only hashed.

`verifyHashChain_intact_iff` says what an intact answer means.  A line that is kept pins the
lines before it (`edit_before_kept_line_detected`).
-/

namespace Innerwarden.Compliance

open Digest HashChain Text List

/-- The `prev_hash` of a line, if the line is JSON and has one. -/
def linePrevHash (json : JsonCodec) (line : String) : Option String :=
  (json.value line).bind fun entry => (entry.index "prev_hash").asStr

def chainLines (content : String) : List String := (lines content).filter fun l => l ≠ ""

variable (crates : LogCrates)

/-- One line: whether the chain is intact so far, and the hash of the line. -/
def verifyLine (state : Bool × Option String) (line : String) : Bool × Option String :=
  let intact :=
    match linePrevHash crates.json line, state.2 with
    | some expected, some computed => if expected ≠ computed then false else state.1
    | _, _ => state.1
  (intact, some (sha256Hex crates line))

/-- `verify_hash_chain`: whether the chain is intact, its length and its last hash. -/
def verifyHashChain (content : String) : Bool × Nat × String :=
  let ls := chainLines content
  if ls = [] then (true, 0, "none")
  else
    let (intact, prev) := ls.foldl (verifyLine crates) (true, none)
    (intact, ls.length, prev.getD "none")

/-! ## What an intact answer means -/

/-- A line accepts the one before it: it has no `prev_hash`, or that line's hash. -/
def Accepts (before line : String) : Prop :=
  ∀ expected, linePrevHash crates.json line = some expected → expected = sha256Hex crates before

variable {crates}

theorem verifyLine_fst {intact : Bool} {before line : String} :
    (verifyLine crates (intact, some (sha256Hex crates before)) line).1 = true ↔
      intact = true ∧ Accepts crates before line := by
  unfold verifyLine Accepts
  cases linePrevHash crates.json line with
  | none => simp
  | some expected =>
    by_cases h : expected = sha256Hex crates before
    · simp [h]
    · simp [h]

theorem foldl_verifyLine {ls : List String} {intact : Bool} {before : String} :
    (ls.foldl (verifyLine crates) (intact, some (sha256Hex crates before))).1 = true ↔
      intact = true ∧ (before :: ls).IsChain (Accepts crates) := by
  induction ls generalizing intact before with
  | nil => simp
  | cons l ls ih =>
    rw [foldl_cons, show verifyLine crates (intact, some (sha256Hex crates before)) l =
      ((verifyLine crates (intact, some (sha256Hex crates before)) l).1,
        some (sha256Hex crates l)) from rfl, ih, verifyLine_fst, isChain_cons_cons, and_assoc]

theorem verifyHashChain_intact_iff (content : String) :
    (verifyHashChain crates content).1 = true ↔
      (chainLines content).IsChain (Accepts crates) := by
  unfold verifyHashChain
  cases chainLines content with
  | nil => simp
  | cons l ls =>
    have hfirst : verifyLine crates (true, none) l = (true, some (sha256Hex crates l)) := by
      unfold verifyLine
      cases linePrevHash crates.json l <;> rfl
    simp only [reduceCtorEq, if_false, foldl_cons, hfirst]
    rw [foldl_verifyLine]
    simp only [true_and]

/-! ## How far the chain reaches -/

/-- What serde_json has to do with the entries of a run: their digits hold no line
feed, and their `prev_hash` is read back. -/
structure ReadsLog (crates : LogCrates) (entries : List DecisionEntry) : Prop where
  digits : ∀ x, '\n' ∉ (crates.json.formatF32 x).toList
  prevHash : ∀ e ∈ chainedEntries crates none entries,
    linePrevHash crates.json (e.line crates) = e.prevHash

theorem lines_appendAll {entries : List DecisionEntry} (h : ReadsLog crates entries)
    {today : String} (hdate : isIsoDate today = true) :
    lines (appendAll crates today "" entries) =
      (chainedEntries crates none entries).map (ChainedEntry.line crates) := by
  rw [appendAll_empty h.digits hdate]
  exact lines_joinLines_entries h.digits _

theorem chainLines_joinLines (hdigits : ∀ x, '\n' ∉ (crates.json.formatF32 x).toList)
    (es : List ChainedEntry) :
    chainLines (joinLines (es.map (ChainedEntry.line crates))) =
      es.map (ChainedEntry.line crates) := by
  rw [chainLines, lines_joinLines_entries hdigits]
  refine filter_eq_self.mpr fun l hl => decide_eq_true ?_
  obtain ⟨e, -, rfl⟩ := mem_map.mp hl
  have hblank : trim (e.line crates) ≠ "" := e.trim_line_ne_empty
  exact fun hempty => hblank (by rw [hempty]; rfl)

theorem isChain_appendAll {entries : List DecisionEntry} (h : ReadsLog crates entries)
    (today : String) :
    (lines (appendAll crates today "" entries)).IsChain fun before line =>
      linePrevHash crates.json line = some (sha256Hex crates before) := by
  cases hdate : isIsoDate today with
  | false =>
    rw [appendAll_of_not_isIsoDate hdate]
    exact .nil
  | true =>
    rw [lines_appendAll h hdate, isChain_map]
    refine (linked_chainedEntries crates entries none).isChain.imp_of_mem_imp ?_
    intro before e _ he hprev
    rw [h.prevHash e he, hprev]

/-- A line of the log that is kept pins the lines before it.  If they are changed in
any way but by dropping the first of them, or by putting others in front of all of
them, the verifier reports it. -/
theorem edit_before_kept_line_detected (crates : LogCrates) (today : String)
    (entries : List DecisionEntry) (content : String) (hreads : ReadsLog crates entries)
    (hcollision : CollisionFree crates.sha256
      ((lines (appendAll crates today "" entries) ++ chainLines content).map String.toByteArray))
    (pre post pre' post' : List String) (line : String)
    (hlog : lines (appendAll crates today "" entries) = pre ++ line :: post)
    (hcontent : chainLines content = pre' ++ line :: post')
    (hdropped : ¬ pre' <:+ pre) (hinserted : ¬ pre <:+ pre') :
    (verifyHashChain crates content).1 = false := by
  by_contra hne
  have hintact := (verifyHashChain_intact_iff content).mp (eq_true_of_ne_false hne)
  have hchain := isChain_appendAll hreads today
  rw [hlog] at hchain hcollision
  rw [hcontent] at hintact hcollision
  have back : ∀ a ∈ pre, ∀ b ∈ pre', ∀ c,
      linePrevHash crates.json c = some (sha256Hex crates a) → Accepts crates b c → a = b := by
    intro a ha b hb c hprev haccepts
    have hdigest := lowerHex_injective (haccepts _ hprev)
    refine String.toByteArray_inj.mp (hcollision (mem_map_of_mem ?_) (mem_map_of_mem ?_)
      hdigest)
    · exact mem_append_left _ (mem_append_left _ ha)
    · exact mem_append_right _ (mem_append_left _ hb)
  rcases suffix_of_shared back (isChain_split.mp hchain).1 (isChain_split.mp hintact).1
    with h | h
  · exact hinserted h
  · exact hdropped h

/-! ## A log of two entries -/

/-- A decision taken on 2 May 2026. -/
def sampleEntry (actionType : String) : DecisionEntry where
  ts := seconds 1777680000
  incidentId := "inc-1"
  host := "web-1"
  aiProvider := "local"
  actionType := actionType
  targetIp := none
  targetUser := none
  skillId := none
  confidence := 0x3f000000
  autoExecuted := true
  dryRun := false
  reason := ""
  estimatedThreat := "high"
  executionResult := "ok"

/-- The text the entry starts with, up to its `prev_hash`. -/
def sampleText (actionType : String) : String :=
  "\x7b\"ts\":\"2026-05-02T00:00:00Z\",\"incident_id\":\"inc-1\",\"host\":\"web-1\"," ++
  "\"ai_provider\":\"local\",\"action_type\":\"" ++ actionType ++ "\",\"target_ip\":null," ++
  "\"skill_id\":null,\"confidence\":0.5,\"auto_executed\":true,\"dry_run\":false," ++
  "\"reason\":\"\",\"estimated_threat\":\"high\",\"execution_result\":\"ok\""

/-- The line of a block, with no line before it. -/
def firstLine : String := sampleText "block_ip" ++ "\x7d"

def firstHash : String := "4ea15eafda52e6ee4e27ba51cc6fbf2aca3644c7ba1fcf9d5f9dbf975df715c0"

def secondLine : String := sampleText "block_ip" ++ ",\"prev_hash\":\"" ++ firstHash ++ "\"\x7d"

def alteredLine : String := sampleText "ignore" ++ "\x7d"

/-- The value `serde_json` reads from a line. -/
def sampleValue (actionType : String) (prevHash : List (String × Json)) : Json :=
  .obj ([("ts", .str "2026-05-02T00:00:00Z"), ("incident_id", .str "inc-1"),
    ("host", .str "web-1"), ("ai_provider", .str "local"), ("action_type", .str actionType),
    ("target_ip", .null), ("skill_id", .null), ("confidence", .float 0x3fe0000000000000),
    ("auto_executed", .bool true), ("dry_run", .bool false), ("reason", .str ""),
    ("estimated_threat", .str "high"), ("execution_result", .str "ok")] ++ prevHash)

/-- The crates on these lines. -/
def sampleCrates : LogCrates where
  sha256 bytes :=
    if bytes.data = firstLine.toByteArray.data then
      .ofNat 0x4ea15eafda52e6ee4e27ba51cc6fbf2aca3644c7ba1fcf9d5f9dbf975df715c0
    else if bytes.data = secondLine.toByteArray.data then
      .ofNat 0x24ca34eb5a56640cfd1898a8140bc5c0caa71e711293f908d6d5101162325a1f
    else if bytes.data = alteredLine.toByteArray.data then
      .ofNat 0xc4af93d65e536e522033d2eaeac13a1d3ba02ce8bd58572b4c375e752bc851a3
    else .ofNat 0
  json :=
    { formatF64 := fun _ => ""
      formatF32 := fun x => if x = 0x3f000000 then "0.5" else ""
      fromStr := fun s =>
        if s = firstLine then some (sampleValue "block_ip" [])
        else if s = secondLine then some (sampleValue "block_ip" [("prev_hash", .str firstHash)])
        else if s = alteredLine then some (sampleValue "ignore" [])
        else none }
  chrono := sampleChrono

theorem sampleCrates_digits (x : UInt32) : '\n' ∉ (sampleCrates.json.formatF32 x).toList := by
  change '\n' ∉ (if x = 0x3f000000 then "0.5" else "").toList
  split <;> decide

theorem line_sample :
    ChainedEntry.line sampleCrates ⟨sampleEntry "block_ip", none⟩ = firstLine ∧
      ChainedEntry.line sampleCrates ⟨sampleEntry "block_ip", some firstHash⟩ = secondLine ∧
      ChainedEntry.line sampleCrates ⟨sampleEntry "ignore", none⟩ = alteredLine := by
  decide +kernel

theorem line_first : ChainedEntry.line sampleCrates ⟨sampleEntry "block_ip", none⟩ = firstLine :=
  line_sample.1

theorem line_second :
    ChainedEntry.line sampleCrates ⟨sampleEntry "block_ip", some firstHash⟩ = secondLine :=
  line_sample.2.1

theorem line_altered : ChainedEntry.line sampleCrates ⟨sampleEntry "ignore", none⟩ = alteredLine :=
  line_sample.2.2

theorem nodup_sample : [firstLine, secondLine, alteredLine].Nodup := by decide +kernel

theorem firstLine_ne_secondLine : firstLine ≠ secondLine :=
  fun h => (nodup_cons.1 nodup_sample).1 (by simp [h])

theorem firstLine_ne_alteredLine : firstLine ≠ alteredLine :=
  fun h => (nodup_cons.1 nodup_sample).1 (by simp [h])

theorem secondLine_ne_alteredLine : secondLine ≠ alteredLine :=
  fun h => (nodup_cons.1 (nodup_cons.1 nodup_sample).2).1 (by simp [h])

theorem sha256_firstLine : sampleCrates.sha256 firstLine.toByteArray =
    .ofNat 0x4ea15eafda52e6ee4e27ba51cc6fbf2aca3644c7ba1fcf9d5f9dbf975df715c0 := by
  simp only [sampleCrates, if_true]

theorem sha256_secondLine : sampleCrates.sha256 secondLine.toByteArray =
    .ofNat 0x24ca34eb5a56640cfd1898a8140bc5c0caa71e711293f908d6d5101162325a1f := by
  simp only [sampleCrates, ← ByteArray.ext_iff, String.toByteArray_inj,
    firstLine_ne_secondLine.symm, if_true, if_false]

theorem sha256_alteredLine : sampleCrates.sha256 alteredLine.toByteArray =
    .ofNat 0xc4af93d65e536e522033d2eaeac13a1d3ba02ce8bd58572b4c375e752bc851a3 := by
  simp only [sampleCrates, ← ByteArray.ext_iff, String.toByteArray_inj,
    firstLine_ne_alteredLine.symm, secondLine_ne_alteredLine.symm, if_true, if_false]

theorem sha256Hex_firstLine : sha256Hex sampleCrates firstLine = firstHash := by
  rw [sha256Hex, sha256_firstLine]
  decide

theorem chainedEntries_sample :
    chainedEntries sampleCrates none [sampleEntry "block_ip", sampleEntry "block_ip"] =
      [⟨sampleEntry "block_ip", none⟩, ⟨sampleEntry "block_ip", some firstHash⟩] := by
  simp only [chainedEntries, line_first, sha256Hex_firstLine]

theorem readsLog_sample :
    ReadsLog sampleCrates [sampleEntry "block_ip", sampleEntry "block_ip"] where
  digits := sampleCrates_digits
  prevHash := by
    have hfirst : linePrevHash sampleCrates.json firstLine = none := by
      simp only [linePrevHash, JsonCodec.value, sampleCrates, if_true]
      rfl
    have hsecond : linePrevHash sampleCrates.json secondLine = some firstHash := by
      simp only [linePrevHash, JsonCodec.value, sampleCrates, firstLine_ne_secondLine.symm, if_true,
        if_false]
      rfl
    rw [chainedEntries_sample]
    intro e he
    rcases mem_pair.mp he with rfl | rfl
    · rw [line_first, hfirst]
    · rw [line_second, hsecond]

theorem lines_sample :
    lines (appendAll sampleCrates "2026-05-02" ""
      [sampleEntry "block_ip", sampleEntry "block_ip"]) = [firstLine, secondLine] := by
  rw [lines_appendAll readsLog_sample (by decide), chainedEntries_sample]
  simp only [map_cons, map_nil, line_first, line_second]

/-- Replacing the only line of the log is not reported, and neither is removing the first
of two. -/
theorem altered_line_verifies :
    appendAll sampleCrates "2026-05-02" "" [sampleEntry "block_ip"] = joinLines [firstLine] ∧
    alteredLine ≠ firstLine ∧
    (verifyHashChain sampleCrates (joinLines [alteredLine])).1 = true ∧
    appendAll sampleCrates "2026-05-02" "" [sampleEntry "block_ip", sampleEntry "block_ip"] =
      joinLines [firstLine, secondLine] ∧
    (verifyHashChain sampleCrates (joinLines [secondLine])).1 = true := by
  have haltered := chainLines_joinLines sampleCrates_digits [⟨sampleEntry "ignore", none⟩]
  have hsecond := chainLines_joinLines sampleCrates_digits
    [⟨sampleEntry "block_ip", some firstHash⟩]
  rw [map_singleton, line_altered] at haltered
  rw [map_singleton, line_second] at hsecond
  refine ⟨?_, firstLine_ne_alteredLine.symm, ?_, ?_, ?_⟩
  · rw [appendAll_empty sampleCrates_digits (by decide)]
    simp only [chainedEntries, map_cons, map_nil, line_first]
  · rw [verifyHashChain_intact_iff, haltered]
    exact .singleton _
  · rw [appendAll_empty sampleCrates_digits (by decide), chainedEntries_sample]
    simp only [map_cons, map_nil, line_first, line_second]
  · rw [verifyHashChain_intact_iff, hsecond]
    exact .singleton _

theorem edit_before_kept_line_detected_altered :
    (verifyHashChain sampleCrates (joinLines [alteredLine, secondLine])).1 = false := by
  have hcontent := chainLines_joinLines sampleCrates_digits
    [⟨sampleEntry "ignore", none⟩, ⟨sampleEntry "block_ip", some firstHash⟩]
  simp only [map_cons, map_nil, line_altered, line_second] at hcontent
  refine edit_before_kept_line_detected sampleCrates "2026-05-02"
    [sampleEntry "block_ip", sampleEntry "block_ip"] (joinLines [alteredLine, secondLine])
    readsLog_sample ?_ [firstLine] [] [alteredLine] [] secondLine lines_sample hcontent ?_ ?_
  · rw [lines_sample, hcontent]
    have hdigests : ([firstLine.toByteArray, secondLine.toByteArray,
        alteredLine.toByteArray].map sampleCrates.sha256).Nodup := by
      simp only [map_cons, map_nil, sha256_firstLine, sha256_secondLine,
        sha256_alteredLine]
      decide
    have hlines : ∀ x ∈ ([firstLine, secondLine] ++ [alteredLine, secondLine]).map
        String.toByteArray,
        x ∈ [firstLine.toByteArray, secondLine.toByteArray, alteredLine.toByteArray] := by
      simp
    exact fun x hx y hy heq => inj_on_of_nodup_map hdigests (hlines x hx) (hlines y hy) heq
  · simp [suffix_cons_iff, firstLine_ne_alteredLine.symm]
  · simp [suffix_cons_iff, firstLine_ne_alteredLine]

end Innerwarden.Compliance
