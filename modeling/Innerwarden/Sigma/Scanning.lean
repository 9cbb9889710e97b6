import Innerwarden.Sigma.Documents

/-!
# What the parser finds in a text

A text that writes a block is read into the sections of the block, each with the tests of its
fields (`WritesRule.sections`).  The parser tells the lines of the block apart by what they begin
with (`scanLine_head`, `scanLine_field`, `scanLine_item`, `scanLine_condition`).  `Token.step` is
what a line does to the sections.

The tests are not quite the fields.  A field `id`, `title`, `level`, `product`, `category` or
`service` without a modifier is lost, and the values listed below it stray to the field before.
`|contains|all` is read as `|contains`.
-/

namespace Innerwarden.Sigma

open List
open Text

/-! ## What the parser makes of a block -/

def Field.isTaken (f : Field) : Bool := f.modifier = .none && f.key ∈ takenKeys

/-- The values as they are tested: without quotes, and not the empty ones. -/
def readValues (raws : List String) : List String := (raws.map unquote).filter (· ≠ "")

/-- The values listed below fields at the front that are taken for keys of the rule. -/
def strayValues : List Field → List String
  | [] => []
  | f :: fs => if f.isTaken then f.listed ++ strayValues fs else []

/-- The tests of a section: a field is tested for its own values and for those that stray
after it. -/
def fieldTests : List Field → List FieldMatcher
  | [] => []
  | f :: fs =>
    if f.isTaken then fieldTests fs
    else ⟨f.key, f.modifier.op, readValues (f.raws ++ strayValues fs)⟩ :: fieldTests fs

/-! ## Lines that begin with a key -/

section Keyed

variable {spec rest key : String} {modifier : Modifier}

/-- A word without a colon is at the front of a line exactly if the key begins with it. -/
theorem startsWith_keyed_word {word : String} (hword : ':' ∉ word.toList) :
    startsWith (spec ++ (":" ++ rest)) word = startsWith spec word := by
  rw [show ":" = String.singleton ':' from rfl]
  exact startsWith_append_of_notMem hword rest

theorem startsWith_key_modifier {word : String} (hword : '|' ∉ word.toList) :
    startsWith (key ++ modifier.text) word = startsWith key word := by
  cases modifier with
  | none => rw [Modifier.text, String.append_empty]
  | contains => exact startsWith_append_of_notMem hword "contains"
  | startswith => exact startsWith_append_of_notMem hword "startswith"
  | endswith => exact startsWith_append_of_notMem hword "endswith"
  | containsAll => exact startsWith_append_of_notMem hword "contains|all"

theorem colon_notMem_spec (h : IsFieldKey key) : ':' ∉ (key ++ modifier.text).toList := by
  rw [String.toList_append, mem_append, not_or]
  refine ⟨h.noColon, ?_⟩
  cases modifier <;> decide

/-- A key with a modifier is trimmed. -/
theorem trim_spec (h : IsFieldKey key) : trim (key ++ modifier.text) = key ++ modifier.text := by
  have hne : key.toList ≠ [] := by simpa using h.ne_empty
  obtain ⟨hhead, hlast⟩ := trim_eq_self_iff.1 h.trimmed
  rw [trim_eq_self_iff, String.toList_append, head?_append_of_ne_nil _ hne]
  refine ⟨hhead, ?_⟩
  cases modifier with
  | none => simpa [Modifier.text] using hlast
  | contains | startswith | endswith | containsAll => simp [Modifier.text]; decide

/-- The parser reads key and modifier as they are meant, but `|contains|all` as `|contains`. -/
theorem parseSpec_spec (h : IsFieldKey key) :
    parseSpec (key ++ modifier.text) = (key, modifier.op) := by
  cases modifier with
  | none =>
    have hno : ∀ suf : String, '|' ∈ suf.toList → stripSuffix key suf = none := fun suf hsuf =>
      stripSuffix_eq_none (endsWith_eq_false_of_notMem hsuf h.noBar)
    simp only [parseSpec, Modifier.text, String.append_empty]
    rw [hno "|contains" (by decide), hno "|startswith" (by decide), hno "|endswith" (by decide),
      hno "|re" (by decide), hno "|contains|all" (by decide)]
    rfl
  | contains => simp only [parseSpec, Modifier.text, stripSuffix_append]; rfl
  | startswith =>
    simp only [parseSpec, Modifier.text, stripSuffix_append]
    rw [stripSuffix_eq_none (by rw [endsWith_append_of_le (by decide)]; decide)]
    rfl
  | endswith =>
    have hlonger : endsWith (key ++ "|endswith") "|startswith" = false := by
      rw [← Bool.not_eq_true]
      exact fun hends => absurd (endsWith_of_endsWith_append (by decide) hends) (by decide)
    simp only [parseSpec, Modifier.text, stripSuffix_append]
    rw [stripSuffix_eq_none (by rw [endsWith_append_of_le (by decide)]; decide),
      stripSuffix_eq_none hlonger]
    rfl
  | containsAll =>
    simp only [parseSpec, Modifier.text, stripSuffix_append]
    rw [stripSuffix_eq_none (by rw [endsWith_append_of_le (by decide)]; decide),
      stripSuffix_eq_none (by rw [endsWith_append_of_le (by decide)]; decide),
      stripSuffix_eq_none (by rw [endsWith_append_of_le (by decide)]; decide),
      stripSuffix_eq_none (by rw [endsWith_append_of_le (by decide)]; decide)]
    rfl

end Keyed

/-! ## One line -/

/-- The scan is in the detection block, with these sections and this one being read. -/
structure ScanState.At (st : ScanState) (place : Sections × Option String) : Prop where
  inDetection : st.inDetection = true
  inTags : st.inTags = false
  sections : st.sections = place.1
  current : st.currentSection = place.2

/-- What a line does to the sections. -/
def Token.step (place : Sections × Option String) : Token → Sections × Option String
  | .head name => (place.1.update name id, some name)
  | .field key modifier inline =>
    if modifier = .none ∧ key ∈ takenKeys then place
    else
      match place.2 with
      | none => place
      | some sec =>
        (place.1.update sec (· ++ [⟨key, modifier.op, readValues inline.toList⟩]), some sec)
  | .item raw =>
    match place.2 with
    | none => place
    | some sec => (place.1.update sec (pushValue (unquote raw)), some sec)
  | .condition _ => (place.1, none)

/-- The tokens of a block. -/
def Token.Valid : Token → Prop
  | .head name => IsSectionName name
  | .field key _ _ => IsFieldKey key
  | .item _ => True
  | .condition _ => True

/-- The keys at which the scan leaves the section it is in, or reads the line for the rule. -/
def ruleKeys : List String := "id" :: "title" :: "level" :: formatKeys.erase "condition"

section Lines

variable {st : ScanState} {place : Sections × Option String} {trimmed line spec rest key : String}
  {modifier : Modifier} {depth : Nat}

theorem not_startsWith_keyed {k : String} (hk : ':' ∉ k.toList) (hspec : ':' ∉ spec.toList)
    (hne : k ≠ spec) : startsWith (spec ++ (":" ++ rest)) (k ++ ":") = false := by
  rw [startsWith_keyed k hk hspec, decide_eq_false hne]

theorem scanLine_of_indent (hsig : isSignificant line = true) (hindent : 0 < indent line) :
    scanLine st line = scanKey st (trim line) (indent line) := by
  simp [scanLine, hsig, hindent.ne']

theorem scanDetection_inTags (st : ScanState) (trimmed : String) (depth : Nat) :
    (scanDetection st trimmed depth).1.inTags = st.inTags := by
  simp only [scanDetection, scanField]
  repeat' split
  all_goals rfl

/-- A line of the block is read by the block. -/
theorem scanKey_of_block (hblock : ∀ k ∈ ruleKeys, startsWith trimmed (k ++ ":") = false)
    (hin : st.inDetection = true) (htags : st.inTags = false) :
    scanKey st trimmed depth = (scanDetection st trimmed depth).1 := by
  have hdetection : trimmed ≠ "detection:" := by
    rintro rfl
    exact absurd (hblock "detection" (by decide)) (by decide)
  have hmeta : metadataKeys.any (startsWith trimmed) = false := by
    rw [any_eq_false]
    intro key hkey
    have hsplit : ∃ k ∈ ruleKeys, key = k ++ ":" := by
      revert key
      decide
    obtain ⟨k, hk, rfl⟩ := hsplit
    rw [hblock k hk]
    decide
  have hscanTag : ∀ st' : ScanState, st'.inTags = false → scanTag st' trimmed = st' := by
    intro st' h
    simp [scanTag, h]
  have hid : stripPrefix trimmed "id:" = none := stripPrefix_eq_none (hblock "id" (by decide))
  have htitle : stripPrefix trimmed "title:" = none :=
    stripPrefix_eq_none (hblock "title" (by decide))
  have hlevel : stripPrefix trimmed "level:" = none :=
    stripPrefix_eq_none (hblock "level" (by decide))
  have hnotTags : startsWith trimmed "tags:" = false := hblock "tags" (by decide)
  simp only [scanKey, hid, htitle, hlevel, hdetection, hnotTags, hmeta, hin, if_true, if_false,
    Bool.false_eq_true]
  cases hrun : scanDetection st trimmed depth with
  | mk st' goesOn =>
    have htags' : st'.inTags = false := by
      have hkept := scanDetection_inTags st trimmed depth
      rw [hrun] at hkept
      exact hkept.trans htags
    cases goesOn with
    | false => exact hscanTag st' htags'
    | true => rfl

theorem scanDetection_of_section
    (hsection : ∀ k ∈ formatKeys ++ takenKeys, startsWith trimmed (k ++ ":") = false) :
    scanDetection st trimmed depth =
      if isSectionHead trimmed depth then
        ({ st with
            currentSection := some (trimEndMatches (· = ':') trimmed)
            sections := st.sections.update (trimEndMatches (· = ':') trimmed) id }, true)
      else scanField st trimmed := by
  have hcondition : stripPrefix trimmed "condition:" = none :=
    stripPrefix_eq_none (hsection "condition" (by decide))
  have hlogsource : logsourceKeys.any (startsWith trimmed) = false := by
    rw [any_eq_false]
    intro key hkey
    have hsplit : ∃ k ∈ formatKeys ++ takenKeys, key = k ++ ":" := by
      revert key
      decide
    obtain ⟨k, hk, rfl⟩ := hsplit
    rw [hsection k hk]
    decide
  simp only [scanDetection, hcondition, hlogsource, Bool.false_eq_true, if_false]

theorem scanKey_of_section
    (hsection : ∀ k ∈ formatKeys ++ takenKeys, startsWith trimmed (k ++ ":") = false)
    (hat : st.At place) :
    scanKey st trimmed depth =
      if isSectionHead trimmed depth then
        { st with
            currentSection := some (trimEndMatches (· = ':') trimmed)
            sections := st.sections.update (trimEndMatches (· = ':') trimmed) id }
      else (scanField st trimmed).1 := by
  have hblock : ∀ k ∈ ruleKeys, startsWith trimmed (k ++ ":") = false := by
    have hsub : ∀ k ∈ ruleKeys, k ∈ formatKeys ++ takenKeys := by decide
    exact fun k hk => hsection k (hsub k hk)
  rw [scanKey_of_block hblock hat.inDetection hat.inTags, scanDetection_of_section hsection]
  split <;> rfl

theorem section_of_startsWith {word : String} (h : startsWith trimmed word = true)
    (hword : ∀ k ∈ formatKeys ++ takenKeys,
      startsWith word (k ++ ":") = false ∧ startsWith (k ++ ":") word = false) :
    ∀ k ∈ formatKeys ++ takenKeys, startsWith trimmed (k ++ ":") = false :=
  fun k hk => startsWith_eq_false_of_startsWith h (hword k hk).1 (hword k hk).2

theorem section_of_keyed (rest : String) (hspec : ':' ∉ spec.toList)
    (hne : spec ∉ formatKeys ++ takenKeys) :
    ∀ k ∈ formatKeys ++ takenKeys, startsWith (spec ++ (":" ++ rest)) (k ++ ":") = false := by
  intro k hk
  have hcolon : ∀ k ∈ formatKeys ++ takenKeys, ':' ∉ k.toList := by decide
  exact not_startsWith_keyed (hcolon k hk) hspec (by rintro rfl; exact hne hk)

theorem unquote_append_of_blank {gap raw : String} (hgap : IsBlank gap) :
    unquote (gap ++ raw) = unquote raw := by
  rw [unquote, unquote, trim_append_of_blank hgap]

theorem writes_field {inline : Option String}
    (hwrites : Writes (.field key modifier inline) line) :
    0 < indent line ∧ ∃ rest, trim line = key ++ modifier.text ++ (":" ++ rest) ∧
      (newMatcher (key ++ modifier.text) (unquote rest)).values = readValues inline.toList := by
  cases inline with
  | none =>
    obtain ⟨htrim, hpos⟩ := hwrites
    exact ⟨hpos, "", htrim, rfl⟩
  | some raw =>
    obtain ⟨⟨gap, hgap, htrim⟩, hpos⟩ := hwrites
    refine ⟨hpos, gap ++ raw, by rw [htrim, String.append_assoc, String.append_assoc], ?_⟩
    simp only [newMatcher, unquote_append_of_blank hgap, readValues, Option.toList_some,
      map_cons, map_nil, filter_cons, filter_nil]
    by_cases hempty : unquote raw = "" <;> simp [hempty]

theorem spec_notMem {keys : List String} (hbar : ∀ k ∈ keys, '|' ∉ k.toList)
    (h : modifier = .none → key ∉ keys) : key ++ modifier.text ∉ keys := by
  cases modifier with
  | none =>
    rw [Modifier.text, String.append_empty]
    exact h rfl
  | contains | startswith | endswith | containsAll =>
    exact fun hmem => hbar _ hmem (by simp [Modifier.text])

/-- The keys of `logsource` are skipped in a block. -/
theorem scanKey_logsource (hkey : key ∈ ["product", "category", "service"]) (hat : st.At place) :
    scanKey st (key ++ (":" ++ rest)) depth = st := by
  have hcolon : ∀ k ∈ "condition" :: ruleKeys ++ ["product", "category", "service"],
      ':' ∉ k.toList := by decide
  have hother : ∀ k ∈ ["product", "category", "service"], k ∉ "condition" :: ruleKeys := by decide
  have hnot : ∀ k ∈ "condition" :: ruleKeys,
      startsWith (key ++ (":" ++ rest)) (k ++ ":") = false := by
    intro k hk
    refine not_startsWith_keyed (hcolon k (mem_append_left _ hk))
      (hcolon key (mem_append_right _ hkey)) ?_
    rintro rfl
    exact hother k hkey hk
  have hcondition : stripPrefix (key ++ (":" ++ rest)) "condition:" = none :=
    stripPrefix_eq_none (hnot "condition" mem_cons_self)
  have hlogsource : logsourceKeys.any (startsWith (key ++ (":" ++ rest))) = true := by
    rw [any_eq_true]
    have hmem : ∀ k ∈ ["product", "category", "service"], k ++ ":" ∈ logsourceKeys := by decide
    exact ⟨key ++ ":", hmem key hkey, by rw [← String.append_assoc]; exact startsWith_append _ _⟩
  rw [scanKey_of_block (fun k hk => hnot k (mem_cons_of_mem _ hk)) hat.inDetection hat.inTags,
    scanDetection, hcondition]
  simp only [hlogsource, if_true]

/-- A field with one of these keys leaves the sections as they are. -/
theorem scanKey_taken (hkey : key ∈ takenKeys) (hat : st.At place) :
    (scanKey st (key ++ (":" ++ rest)) depth).At place := by
  have hcases : key = "id" ∨ key = "title" ∨ key = "level" ∨
      key ∈ ["product", "category", "service"] := by
    revert key
    decide
  have hstays : ∀ id title level, ({ st with id, title, level } : ScanState).At place :=
    fun _ _ _ => ⟨hat.inDetection, hat.inTags, hat.sections, hat.current⟩
  have hother : ∀ k k' : String, startsWith k k' = false → startsWith k' k = false →
      stripPrefix (k ++ rest) k' = none := fun k k' h h' =>
    stripPrefix_eq_none (startsWith_eq_false_of_startsWith (startsWith_append k rest) h h')
  rw [← String.append_assoc]
  rcases hcases with rfl | rfl | rfl | hlogsource
  · rw [show "id" ++ ":" = "id:" from rfl, scanKey, stripPrefix_append]
    exact hstays _ _ _
  · rw [show "title" ++ ":" = "title:" from rfl, scanKey,
      hother "title:" "id:" (by decide) (by decide), stripPrefix_append]
    exact hstays _ _ _
  · rw [show "level" ++ ":" = "level:" from rfl, scanKey,
      hother "level:" "id:" (by decide) (by decide),
      hother "level:" "title:" (by decide) (by decide), stripPrefix_append]
    exact hstays _ _ _
  · rw [String.append_assoc, scanKey_logsource hlogsource hat]
    exact hat

section Read

variable (hsig : isSignificant line = true) (hat : st.At place)

include hsig hat

theorem scanLine_head {name : String} (hname : IsSectionName name)
    (hwrites : Writes (.head name) line) :
    (scanLine st line).At (Token.step place (.head name)) := by
  obtain ⟨htrim, hpos, hdepth⟩ := hwrites
  have hstart : ∀ word : String, ':' ∉ word.toList →
      startsWith (name ++ ":") word = startsWith name word :=
    fun word hword => startsWith_append_of_notMem hword ""
  have hkind : startsWith (name ++ ":") "selection" = true ∨
      startsWith (name ++ ":") "filter" = true := by
    rw [hstart "selection" (by decide), hstart "filter" (by decide)]
    exact hname.kind
  have hsection : ∀ k ∈ formatKeys ++ takenKeys, startsWith (name ++ ":") (k ++ ":") = false := by
    rcases hkind with h | h
    · exact section_of_startsWith h (by decide)
    · exact section_of_startsWith h (by decide)
  have hdash : startsWith (name ++ ":") "-" = false := by
    rcases hkind with h | h
    · exact startsWith_eq_false_of_startsWith h (by decide) (by decide)
    · exact startsWith_eq_false_of_startsWith h (by decide) (by decide)
  have hbar : contains (name ++ ":") "|" = false :=
    contains_eq_false_of_notMem (mem_singleton_self '|') (by simp [hname.noBar])
  have hends : endsWith (name ++ ":") ":" = true := by
    rw [endsWith_append_of_le (by decide)]
    decide
  have hname' : trimEndMatches (· = ':') (name ++ ":") = name :=
    trimEndMatches_append_singleton hname.noColon
  have hhead : isSectionHead (name ++ ":") (indent line) = true := by
    simp [isSectionHead, hends, hbar, hdepth, hdash, hname', hname.kind]
  rw [scanLine_of_indent hsig hpos, htrim, scanKey_of_section hsection hat, if_pos hhead, hname']
  exact ⟨hat.inDetection, hat.inTags, by rw [hat.sections]; rfl, rfl⟩

theorem scanLine_item {raw : String} (hwrites : Writes (.item raw) line) :
    (scanLine st line).At (Token.step place (.item raw)) := by
  obtain ⟨⟨gap, hgap, htrim⟩, hpos⟩ := hwrites
  rw [String.append_assoc] at htrim
  have hitem : startsWith ("- " ++ (gap ++ raw)) "- " = true := startsWith_append _ _
  have hhead : isSectionHead ("- " ++ (gap ++ raw)) (indent line) = false := by
    have hdash : startsWith ("- " ++ (gap ++ raw)) "-" = true := by
      rw [show "- " = "-" ++ " " from rfl, String.append_assoc]
      exact startsWith_append _ _
    simp [isSectionHead, hdash]
  rw [scanLine_of_indent hsig hpos, htrim,
    scanKey_of_section (section_of_startsWith hitem (by decide)) hat, hhead, scanField, hat.current]
  cases hcurrent : place.2 with
  | none => simpa [Token.step, hcurrent] using hat
  | some sec =>
    simp only [stripPrefix_append, unquote_append_of_blank hgap, Token.step, hcurrent]
    exact ⟨hat.inDetection, hat.inTags, by rw [← hat.sections]; rfl, rfl⟩

theorem scanLine_condition {c : Condition} (hwrites : Writes (.condition c) line) :
    (scanLine st line).At (Token.step place (.condition c)) := by
  obtain ⟨⟨gap, hgap, htrim⟩, hpos⟩ := hwrites
  have hblock : ∀ k ∈ ruleKeys,
      startsWith ("condition:" ++ (gap ++ c.text)) (k ++ ":") = false := by
    have hother : ∀ k ∈ ruleKeys, startsWith "condition:" (k ++ ":") = false ∧
      startsWith (k ++ ":") "condition:" = false := by decide
    exact fun k hk => startsWith_eq_false_of_startsWith (startsWith_append _ _) (hother k hk).1
      (hother k hk).2
  rw [scanLine_of_indent hsig hpos, htrim, String.append_assoc,
    scanKey_of_block hblock hat.inDetection hat.inTags, scanDetection, stripPrefix_append]
  exact ⟨hat.inDetection, hat.inTags, hat.sections, rfl⟩

theorem scanLine_field {inline : Option String} (hkey : IsFieldKey key)
    (hwrites : Writes (.field key modifier inline) line) :
    (scanLine st line).At (Token.step place (.field key modifier inline)) := by
  obtain ⟨hpos, rest, htrim, hvalues⟩ := writes_field hwrites
  rw [scanLine_of_indent hsig hpos, htrim, Token.step]
  split
  next htaken =>
    obtain ⟨rfl, hmem⟩ := htaken
    rw [Modifier.text, String.append_empty]
    exact scanKey_taken hmem hat
  next htaken =>
    have hspec : ':' ∉ (key ++ modifier.text).toList := colon_notMem_spec hkey
    have hsection := section_of_keyed rest hspec (spec_notMem (by decide) (by
      intro hnone hmem
      rcases mem_append.1 hmem with h | h
      · exact hkey.notFormat h
      · exact htaken ⟨hnone, h⟩))
    have hword : ∀ word : String, ':' ∉ word.toList → '|' ∉ word.toList →
        startsWith key word = false →
        startsWith (trimEndMatches (· = ':') (key ++ modifier.text ++ (":" ++ rest))) word =
          false := by
      intro word hcolon hbar hnot
      rw [← Bool.not_eq_true]
      intro h
      have hstart := startsWith_of_startsWith_trimEndMatches h
      rw [startsWith_keyed_word hcolon, startsWith_key_modifier hbar, hnot] at hstart
      cases hstart
    have hhead : isSectionHead (key ++ modifier.text ++ (":" ++ rest)) (indent line) = false := by
      simp [isSectionHead, hword "selection" (by decide) (by decide) hkey.notSelection,
        hword "filter" (by decide) (by decide) hkey.notFilter]
    have hitem : stripPrefix (key ++ modifier.text ++ (":" ++ rest)) "- " = none := by
      refine stripPrefix_eq_none ?_
      rw [startsWith_keyed_word (by decide), startsWith_key_modifier (by decide), hkey.notItem]
    have hsplit : splitOnce ':' (key ++ modifier.text ++ (":" ++ rest)) =
        some (key ++ modifier.text, rest) := splitOnce_append hspec
    have hmatcher : newMatcher (key ++ modifier.text) (unquote rest) =
        ⟨key, modifier.op, readValues inline.toList⟩ := by
      rw [← hvalues, newMatcher, parseSpec_spec hkey]
    rw [scanKey_of_section hsection hat, hhead, scanField, hat.current]
    cases hcurrent : place.2 with
    | none => simpa [hcurrent] using hat
    | some sec =>
      simp only [hitem, hsplit, trim_spec hkey, hmatcher]
      exact ⟨hat.inDetection, hat.inTags, by rw [← hat.sections]; rfl, rfl⟩

end Read

end Lines

/-! ## The sections of a block -/

def Field.push (tests : List FieldMatcher) (f : Field) : List FieldMatcher :=
  f.listed.foldl (fun tests raw => pushValue (unquote raw) tests)
    (if f.isTaken then tests else tests ++ [⟨f.key, f.modifier.op, readValues f.inline.toList⟩])

variable (raws : List String)

theorem readValues_append (raws' : List String) :
    readValues (raws ++ raws') = readValues raws ++ readValues raws' := by
  simp [readValues]

theorem foldl_pushValue_concat (tests : List FieldMatcher) (m : FieldMatcher) :
    raws.foldl (fun tests raw => pushValue (unquote raw) tests) (tests ++ [m]) =
      tests ++ [{ m with values := m.values ++ readValues raws }] := by
  induction raws generalizing m with
  | nil => simp [readValues]
  | cons raw raws ih =>
    rw [foldl_cons, pushValue]
    split
    next hempty => simp [ih, readValues, hempty]
    next hvalue => simp [ih, readValues, hvalue]

theorem foldl_pushValue_nil :
    raws.foldl (fun tests raw => pushValue (unquote raw) tests) [] = [] := by
  induction raws with
  | nil => rfl
  | cons raw raws ih => simpa [pushValue] using ih

theorem foldl_push_concat (fields : List Field) (tests : List FieldMatcher) (m : FieldMatcher) :
    fields.foldl Field.push (tests ++ [m]) =
      tests ++ { m with values := m.values ++ readValues (strayValues fields) } ::
        fieldTests fields := by
  induction fields generalizing tests m with
  | nil => simp [strayValues, fieldTests, readValues]
  | cons f fs ih =>
    rw [foldl_cons, Field.push]
    cases htaken : f.isTaken with
    | true =>
      simp [foldl_pushValue_concat, ih, strayValues, fieldTests, htaken, readValues_append]
    | false =>
      rw [if_neg (by decide), foldl_pushValue_concat, ih]
      simp [strayValues, fieldTests, htaken, Field.raws, readValues]

theorem foldl_push_nil (fields : List Field) : fields.foldl Field.push [] = fieldTests fields := by
  induction fields with
  | nil => rfl
  | cons f fs ih =>
    rw [foldl_cons, Field.push]
    cases htaken : f.isTaken with
    | true => simp [foldl_pushValue_nil, ih, fieldTests, htaken]
    | false =>
      rw [if_neg (by decide), foldl_pushValue_concat, foldl_push_concat]
      simp [fieldTests, htaken, readValues_append, Field.raws]

/-! ## Runs -/

section Runs

variable {st : ScanState} {place : Sections × Option String} {secs : Sections} {name : String}

section Fields

variable (hname : name ∉ secs.map Prod.fst) (tests : List FieldMatcher)

include hname

theorem update_concat (f : List FieldMatcher → List FieldMatcher) :
    Sections.update name f (secs ++ [(name, tests)]) = secs ++ [(name, f tests)] :=
  KeyedTable.upsert_concat hname rfl

theorem foldl_step_items (raws : List String) :
    (raws.map Token.item).foldl Token.step (secs ++ [(name, tests)], some name) =
      (secs ++ [(name, raws.foldl (fun tests raw => pushValue (unquote raw) tests) tests)],
        some name) := by
  induction raws generalizing tests with
  | nil => rfl
  | cons raw raws ih =>
    rw [map_cons, foldl_cons, foldl_cons, ← ih]
    simp only [Token.step, update_concat hname _ _]

theorem foldl_step_field (f : Field) :
    f.tokens.foldl Token.step (secs ++ [(name, tests)], some name) =
      (secs ++ [(name, f.push tests)], some name) := by
  rw [Field.tokens, foldl_cons, Field.push, ← foldl_step_items hname _ _, Token.step]
  by_cases htaken : f.modifier = .none ∧ f.key ∈ takenKeys
  · simp [Field.isTaken, htaken]
  · simp [Field.isTaken, htaken, update_concat hname _ _]

theorem foldl_step_fields (fields : List Field) :
    (fields.flatMap Field.tokens).foldl Token.step (secs ++ [(name, tests)], some name) =
      (secs ++ [(name, fields.foldl Field.push tests)], some name) := by
  induction fields generalizing tests with
  | nil => rfl
  | cons f fs ih =>
    rw [flatMap_cons, foldl_append, foldl_step_field hname _ _, ih, foldl_cons]

end Fields

def Section.entry (sec : Section) : String × List FieldMatcher := (sec.name, fieldTests sec.fields)

theorem foldl_step_section (sec : Section) (current : Option String)
    (hname : sec.name ∉ secs.map Prod.fst) :
    sec.tokens.foldl Token.step (secs, current) = (secs ++ [sec.entry], some sec.name) := by
  have hhead : secs.update sec.name id = secs ++ [(sec.name, [])] :=
    KeyedTable.upsert_of_notMem hname
  rw [Section.tokens, foldl_cons, Token.step, hhead, foldl_step_fields hname _ _,
    foldl_push_nil, Section.entry]

theorem foldl_step_sections (secs : Sections) (sections : List Section) (current : Option String)
    (hnodup : (secs.map Prod.fst ++ sections.map Section.name).Nodup) :
    ((sections.flatMap Section.tokens).foldl Token.step (secs, current)).1 =
      secs ++ sections.map Section.entry := by
  induction sections generalizing secs current with
  | nil => simp
  | cons sec sections ih =>
    have hname : sec.name ∉ secs.map Prod.fst := by
      intro hmem
      exact (nodup_append.1 hnodup).2.2 _ hmem _ mem_cons_self rfl
    rw [flatMap_cons, foldl_append, foldl_step_section _ _ hname, ih]
    · simp
    · simpa [Section.entry] using hnodup

theorem foldl_step_detection (d : Detection) :
    (d.tokens.foldl Token.step ([], none)).1 = d.sections.map Section.entry := by
  have hbefore := foldl_step_sections [] d.before none (by
    simpa using (nodup_append.1 (map_append ▸ d.nodup)).1)
  rw [Detection.tokens, foldl_append, foldl_cons, Token.step, hbefore,
    foldl_step_sections]
  · simp [Detection.sections]
  · simpa [Section.entry, Function.comp_def] using d.nodup

theorem scanLine_at {tok : Token} {line : String} (hvalid : tok.Valid) (hwrites : Writes tok line)
    (hsig : isSignificant line = true) (hat : st.At place) :
    (scanLine st line).At (tok.step place) := by
  cases tok with
  | head name => exact scanLine_head hsig hat hvalid hwrites
  | field key modifier inline => exact scanLine_field hsig hat hvalid hwrites
  | item raw => exact scanLine_item hsig hat hwrites
  | condition c => exact scanLine_condition hsig hat hwrites

theorem foldl_scanLine_at {toks : List Token} {ls : List String} (hvalid : ∀ tok ∈ toks, tok.Valid)
    (hwrites : List.Forall₂ Writes toks ls) (hsig : ∀ l ∈ ls, isSignificant l = true)
    (hat : st.At place) : (ls.foldl scanLine st).At (toks.foldl Token.step place) := by
  induction hwrites generalizing st place with
  | nil => exact hat
  | cons hline hrest ih =>
    rw [forall_mem_cons] at hvalid hsig
    exact ih hvalid.2 hsig.2 (scanLine_at hvalid.1 hline hsig.1 hat)

theorem Section.valid_of_mem_tokens (sec : Section) : ∀ tok ∈ sec.tokens, tok.Valid := by
  intro tok hmem
  rcases mem_cons.1 hmem with rfl | hmem
  · exact sec.isSectionName
  · obtain ⟨f, -, hmem⟩ := mem_flatMap.1 hmem
    rcases mem_cons.1 hmem with rfl | hmem
    · exact f.isFieldKey
    · obtain ⟨raw, -, rfl⟩ := mem_map.1 hmem
      trivial

theorem Detection.valid_of_mem_tokens (d : Detection) : ∀ tok ∈ d.tokens, tok.Valid := by
  intro tok hmem
  rcases mem_append.1 hmem with hmem | hmem
  · obtain ⟨sec, -, hmem⟩ := mem_flatMap.1 hmem
    exact sec.valid_of_mem_tokens tok hmem
  · rcases mem_cons.1 hmem with rfl | hmem
    · trivial
    · obtain ⟨sec, -, hmem⟩ := mem_flatMap.1 hmem
      exact sec.valid_of_mem_tokens tok hmem

theorem foldl_scanLine_filter (ls : List String) (st : ScanState) :
    (ls.filter isSignificant).foldl scanLine st = ls.foldl scanLine st := by
  rw [foldl_filter]
  congr 1
  funext st line
  cases hsig : isSignificant line <;> simp [scanLine, hsig]

theorem scanKey_outside {trimmed : String} {depth : Nat} (hout : st.inDetection = false)
    (hline : trimmed ≠ "detection:") :
    (scanKey st trimmed depth).inDetection = false ∧
      (scanKey st trimmed depth).sections = st.sections := by
  have htag : (scanTag st trimmed).inDetection = false ∧
      (scanTag st trimmed).sections = st.sections := by
    simp only [scanTag]
    repeat' split
    all_goals exact ⟨hout, rfl⟩
  simp only [scanKey, hline, hout, Bool.false_eq_true, if_false]
  repeat' split
  all_goals first | exact htag | exact ⟨rfl, rfl⟩

theorem scanLine_outside (st : ScanState) {line : String}
    (hout : st.inDetection = false ∨ indent line = 0)
    (hsig : isSignificant line = true) (hline : trim line ≠ "detection:") :
    (scanLine st line).inDetection = false ∧ (scanLine st line).sections = st.sections := by
  simp only [scanLine, hsig, Bool.true_eq_false, if_false]
  split
  next hzero => exact scanKey_outside rfl hline
  next hindent => exact scanKey_outside (hout.resolve_right hindent) hline

theorem foldl_scanLine_outside (st : ScanState) {ls : List String}
    (hout : st.inDetection = false)
    (hsig : ∀ l ∈ ls, isSignificant l = true) (hline : ∀ l ∈ ls, trim l ≠ "detection:") :
    (ls.foldl scanLine st).inDetection = false ∧ (ls.foldl scanLine st).sections = st.sections := by
  induction ls generalizing st with
  | nil => exact ⟨hout, rfl⟩
  | cons l ls ih =>
    rw [forall_mem_cons] at hsig hline
    obtain ⟨hout', hsections⟩ := scanLine_outside st (.inl hout) hsig.1 hline.1
    rw [foldl_cons, ← hsections]
    exact ih _ hout' hsig.2 hline.2

theorem foldl_scanLine_after {ls : List String} (hfirst : ∀ l ∈ ls.head?, indent l = 0)
    (hsig : ∀ l ∈ ls, isSignificant l = true) (hline : ∀ l ∈ ls, trim l ≠ "detection:") :
    (ls.foldl scanLine st).sections = st.sections := by
  cases ls with
  | nil => rfl
  | cons l ls =>
    rw [forall_mem_cons] at hsig hline
    obtain ⟨hout, hsections⟩ := scanLine_outside st (.inr (hfirst l rfl)) hsig.1 hline.1
    rw [foldl_cons, ← hsections]
    exact (foldl_scanLine_outside _ hout hsig.2 hline.2).2

theorem scanLine_detection (st : ScanState) {line : String} (hline : trim line = "detection:")
    (hindent : indent line = 0) : (scanLine st line).At (st.sections, none) := by
  have hsig : isSignificant line = true := by
    rw [isSignificant, hline]
    decide
  simp only [scanLine, hsig, hindent, hline, Bool.true_eq_false, if_true, if_false]
  exact ⟨rfl, rfl, rfl, rfl⟩

/-- The parser finds the sections of the block, whatever else the text has. -/
theorem WritesRule.sections {text : String} {d : Detection} (h : WritesRule text d) :
    ((lines text).foldl scanLine {}).sections = d.sections.map Section.entry := by
  obtain ⟨pre, head, body, post, htext, hother, hhead, hindent, hbody, hpost⟩ := h.exists_parts
  have hsig : ∀ ls : List String, ∀ l ∈ ls.filter isSignificant, isSignificant l = true :=
    fun ls l hl => (mem_filter.1 hl).2
  have hline : ∀ ls : List String, (∀ l ∈ ls, l ∈ pre ++ post) →
      ∀ l ∈ ls.filter isSignificant, trim l ≠ "detection:" :=
    fun ls hsub l hl => hother l (hsub l (mem_of_mem_filter hl))
  rw [htext, foldl_append, foldl_append, foldl_cons,
    ← foldl_scanLine_filter pre, ← foldl_scanLine_filter body, ← foldl_scanLine_filter post,
    foldl_scanLine_after hpost (hsig post) (hline post fun l hl => mem_append_right _ hl)]
  have hpre := foldl_scanLine_outside {} rfl (hsig pre)
    (hline pre fun l hl => mem_append_left _ hl)
  have hat := scanLine_detection ((pre.filter isSignificant).foldl scanLine {}) hhead hindent
  rw [hpre.2] at hat
  rw [(foldl_scanLine_at d.valid_of_mem_tokens hbody (hsig body) hat).sections]
  exact foldl_step_detection d

end Runs
end Innerwarden.Sigma
