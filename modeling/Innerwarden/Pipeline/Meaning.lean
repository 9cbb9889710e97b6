import Innerwarden.Pipeline.MatchBlock

/-!
# What a match block means

A predicate of a match block holds if the event has its field and the value of the field is
matched (`Means`).  The compiled tests let some other events pass (`Loose`):

* an event that lacks the field is tested as if it had the empty text, or the greatest number;
* a number is cut to the width of the numbers in the list;
* a list of globs that is empty is no test;
* a severity that does not exist is below all others.

`matches_iff` says that there are no other differences, and `meaning_preserved_iff` when the
block is tested as it means.
-/

namespace Innerwarden.Pipeline

open Text

/-! ## Fields of an event -/

namespace Event

def textField (event : Event) (key : String) : Option String :=
  (event.details.get key).bind Json.asStr

def numberField (event : Event) (key : String) : Option Nat :=
  (event.details.get key).bind Json.asU64

/-- The path of a file event is under `filename`, or under `path` if there is no such key. -/
def pathField (event : Event) : Option String :=
  ((event.details.get "filename").or (event.details.get "path")).bind Json.asStr

end Event

/-! ## Predicates -/

/-- The predicates of a match block, but for the score. -/
inductive Field where
  | source
  | sourceIn
  | kind
  | kindIn
  | comm
  | commIn
  | commGlob
  | pathIn
  | pathGlob
  | pathPrefix
  | severityMin
  | uidIn
  | dstPortIn
  | parentCommIn

section Predicates

variable {α β : Type*}

/-- If there is a list, there is a value, and an element of the list matches it. -/
def AnyOf (R : α → β → Prop) (value : Option β) (list : Option (List α)) : Prop :=
  ∀ l ∈ list, ∃ x ∈ value, ∃ a ∈ l, R a x

/-- There is no value, and an element of the list matches the one that is taken instead. -/
def Defaulted (R : α → β → Prop) (default : β) (value : Option β) (list : Option (List α)) :
    Prop :=
  value = none ∧ ∃ l ∈ list, ∃ a ∈ l, R a default

/-- A number that is cut to fewer bits, or the greatest one if there is none, is in the list. -/
def Cut (width : Nat) (value : Option Nat) (list : Option (List Nat)) : Prop :=
  ∃ l ∈ list, (value = none ∧ 2 ^ width - 1 ∈ l) ∨
    ∃ n ∈ value, 2 ^ width ≤ n ∧ n % 2 ^ width ∈ l

theorem anyOf_or_defaulted {R : α → β → Prop} {default : β} {value : Option β}
    {list : Option (List α)} :
    (∀ l ∈ list, ∃ a ∈ l, R a (value.getD default)) ↔
      AnyOf R value list ∨ Defaulted R default value list := by
  cases list with
  | none => simp [AnyOf]
  | some l => cases value <;> simp [AnyOf, Defaulted]

theorem anyOf_or_cut {width : Nat} (hmax : (2 ^ 64 - 1) % 2 ^ width = 2 ^ width - 1)
    {value : Option Nat} {list : Option (List Nat)}
    (hlist : ∀ l ∈ list, ∀ a ∈ l, a < 2 ^ width) :
    (∀ l ∈ list, value.getD (2 ^ 64 - 1) % 2 ^ width ∈ l) ↔
      AnyOf (· = ·) value list ∨ Cut width value list := by
  cases list with
  | none => simp [AnyOf]
  | some l =>
    have hlt : ∀ a ∈ l, a < 2 ^ width := hlist l rfl
    cases value with
    | none =>
      rw [Option.getD_none, hmax]
      simp [AnyOf, Cut]
    | some n =>
      by_cases hn : n < 2 ^ width
      · simp [AnyOf, Cut, Nat.mod_eq_of_lt hn, hn]
      · have hnot : n ∉ l := fun h => hn (hlt n h)
        simp [AnyOf, Cut, hnot, Nat.le_of_not_lt hn]

theorem not_anyOf_of_cut {width : Nat} {value : Option Nat} {list : Option (List Nat)}
    (hlist : ∀ l ∈ list, ∀ a ∈ l, a < 2 ^ width) (h : Cut width value list) :
    ¬ AnyOf (· = ·) value list := by
  obtain ⟨l, hl, ⟨rfl, -⟩ | ⟨n, rfl, hn, -⟩⟩ := h
  · intro hall
    obtain ⟨x, hx, -⟩ := hall l hl
    cases hx
  · intro hall
    obtain ⟨x, hx, a, ha, heq⟩ := hall l hl
    cases hx
    exact absurd (heq ▸ hlist l hl a ha) (Nat.not_lt.mpr hn)

theorem not_anyOf_of_defaulted {R : α → β → Prop} {default : β} {value : Option β}
    {list : Option (List α)} (h : Defaulted R default value list) : ¬ AnyOf R value list := by
  obtain ⟨rfl, l, hl, -⟩ := h
  intro hall
  obtain ⟨x, hx, -⟩ := hall l hl
  cases hx

end Predicates

section Means

variable (crates : PipelineCrates) (mp : MatchPredicates) (event : Event)

/-- A text matches one glob. -/
def GlobMatches (pattern text : String) : Prop := globHolds crates [pattern] text = true

/-- What each predicate says.  One that is not set says nothing. -/
def MatchPredicates.Means : Field → Prop
  | .source => ∀ s ∈ mp.source, event.source = s
  | .sourceIn => AnyOf (· = ·) (some event.source) mp.sourceIn
  | .kind => ∀ k ∈ mp.kind,
      if hasGlobChars k then GlobMatches crates k event.kind else event.kind = k
  | .kindIn => AnyOf (· = ·) (some event.kind) mp.kindIn
  | .comm => ∀ c ∈ mp.comm, event.textField "comm" = some c
  | .commIn => AnyOf (· = ·) (event.textField "comm") mp.commIn
  | .commGlob => AnyOf (GlobMatches crates) (event.textField "comm") mp.commGlob
  | .pathIn => AnyOf (· = ·) event.pathField mp.pathIn
  | .pathGlob => AnyOf (GlobMatches crates) event.pathField mp.pathGlob
  | .pathPrefix => AnyOf (fun p path => startsWith path p = true) event.pathField mp.pathPrefix
  | .severityMin => ∀ name ∈ mp.severityMin, ∃ severity : Severity, severity.text = name ∧
      severityRank severity ≤ severityRank event.severity
  | .uidIn => AnyOf (· = ·) (event.numberField "uid") (mp.uidIn.map (·.map UInt32.toNat))
  | .dstPortIn =>
    AnyOf (· = ·) (event.numberField "dst_port") (mp.dstPortIn.map (·.map UInt16.toNat))
  | .parentCommIn => AnyOf (· = ·) (event.textField "parent_comm") mp.parentCommIn

/-- A predicate that does not hold is passed all the same. -/
def MatchPredicates.Loose : Field → Prop
  | .comm => event.textField "comm" = none ∧ mp.comm = some ""
  | .commIn => Defaulted (· = ·) "" (event.textField "comm") mp.commIn
  | .commGlob => mp.commGlob = some [] ∨
      Defaulted (GlobMatches crates) "" (event.textField "comm") mp.commGlob
  | .pathIn => Defaulted (· = ·) "" event.pathField mp.pathIn
  | .pathGlob => mp.pathGlob = some [] ∨
      Defaulted (GlobMatches crates) "" event.pathField mp.pathGlob
  | .pathPrefix =>
    Defaulted (fun p path => startsWith path p = true) "" event.pathField mp.pathPrefix
  | .severityMin => ∃ name ∈ mp.severityMin, ∀ severity : Severity, severity.text ≠ name
  | .uidIn => Cut 32 (event.numberField "uid") (mp.uidIn.map (·.map UInt32.toNat))
  | .dstPortIn => Cut 16 (event.numberField "dst_port") (mp.dstPortIn.map (·.map UInt16.toNat))
  | .parentCommIn => Defaulted (· = ·) "" (event.textField "parent_comm") mp.parentCommIn
  | .source | .sourceIn | .kind | .kindIn => False

/-- The test that is compiled of each predicate. -/
def MatchPredicates.test : Field → Bool
  | .source => mp.source.all (event.source = ·)
  | .sourceIn => mp.sourceIn.all (event.source ∈ ·)
  | .kind => mp.kind.all fun k =>
    if hasGlobChars k then globHolds crates [k] event.kind else event.kind = k
  | .kindIn => mp.kindIn.all (event.kind ∈ ·)
  | .comm => mp.comm.all ((event.textField "comm").getD "" = ·)
  | .commIn => mp.commIn.all ((event.textField "comm").getD "" ∈ ·)
  | .commGlob => mp.commGlob.all fun ps =>
    ps.isEmpty || globHolds crates ps ((event.textField "comm").getD "")
  | .pathIn => mp.pathIn.all (event.pathField.getD "" ∈ ·)
  | .pathGlob => mp.pathGlob.all fun ps =>
    ps.isEmpty || globHolds crates ps (event.pathField.getD "")
  | .pathPrefix => mp.pathPrefix.all (·.any (startsWith (event.pathField.getD "")))
  | .severityMin => mp.severityMin.all (severityStrToRank · ≤ severityRank event.severity)
  | .uidIn => mp.uidIn.all
      (UInt32.ofNat ((event.numberField "uid").getD 18446744073709551615) ∈ ·)
  | .dstPortIn => mp.dstPortIn.all
      (UInt16.ofNat ((event.numberField "dst_port").getD 18446744073709551615) ∈ ·)
  | .parentCommIn => mp.parentCommIn.all ((event.textField "parent_comm").getD "" ∈ ·)

/-- A set of globs matches what one of them matches. -/
def AnyOfGlobs : Prop :=
  ∀ patterns globs, crates.globSet patterns = .ok globs →
    ∀ text, globs text = true ↔ ∃ p ∈ patterns, GlobMatches crates p text

end Means

/-! ## The compiled tests -/

section Tests

variable {crates : PipelineCrates} {mp : MatchPredicates} {event : Event}

theorem severityStrToRank_text (severity : Severity) :
    severityStrToRank severity.text = severityRank severity := by
  cases severity <;> rfl

theorem severityStrToRank_of_unknown {name : String}
    (h : ∀ severity : Severity, severity.text ≠ name) : severityStrToRank name = 0 := by
  unfold severityStrToRank
  split
  · exact absurd rfl (h .info)
  · exact absurd rfl (h .low)
  · exact absurd rfl (h .medium)
  · exact absurd rfl (h .high)
  · exact absurd rfl (h .critical)
  · rfl

theorem text_injective {a b : Severity} (h : a.text = b.text) : a = b := by
  revert h
  cases a <;> cases b <;> decide

theorem severity_test :
    (∀ name ∈ mp.severityMin, severityStrToRank name ≤ severityRank event.severity) ↔
      mp.Means crates event .severityMin ∨ mp.Loose crates event .severityMin := by
  show _ ↔ (∀ name ∈ mp.severityMin, _) ∨ ∃ name ∈ mp.severityMin, _
  cases mp.severityMin with
  | none => simp
  | some name =>
    by_cases hname : ∃ severity : Severity, severity.text = name
    · obtain ⟨severity, rfl⟩ := hname
      have hsame : (∃ other : Severity, other.text = severity.text ∧
          severityRank other ≤ severityRank event.severity) ↔
          severityRank severity ≤ severityRank event.severity :=
        ⟨fun ⟨_, htext, hle⟩ => text_injective htext ▸ hle, fun hle => ⟨severity, rfl, hle⟩⟩
      simp [severityStrToRank_text, hsame]
    · have hunknown : ∀ severity : Severity, severity.text ≠ name := not_exists.mp hname
      simp [severityStrToRank_of_unknown hunknown, hunknown]

variable {list : Option (List String)}

theorem exists_globSet {ruleId field : String} {globs : Option (String → Bool)}
    (h : compileGlobSetListOpt crates list ruleId field = .ok globs) :
    ∀ l ∈ list, l ≠ [] → ∃ set, crates.globSet l = .ok set := by
  rintro l rfl hne
  cases l with
  | nil => exact absurd rfl hne
  | cons p ps =>
    change (buildGlobs crates ruleId field (p :: ps)).map some = .ok globs at h
    unfold buildGlobs at h
    split at h
    · cases h
    · cases hset : crates.globSet (p :: ps) with
      | ok set => exact ⟨set, rfl⟩
      | error e =>
        rw [hset] at h
        cases h

theorem glob_test (hglob : AnyOfGlobs crates) {value : Option String}
    (hset : ∀ l ∈ list, l ≠ [] → ∃ set, crates.globSet l = .ok set) :
    (∀ l ∈ list, l.isEmpty = true ∨ globHolds crates l (value.getD "") = true) ↔
      AnyOf (GlobMatches crates) value list ∨
        (list = some [] ∨ Defaulted (GlobMatches crates) "" value list) := by
  cases list with
  | none => simp [AnyOf]
  | some l =>
    cases l with
    | nil => simp
    | cons p ps =>
      obtain ⟨set, hok⟩ := hset (p :: ps) rfl (List.cons_ne_nil p ps)
      have hholds : globHolds crates (p :: ps) (value.getD "") = true ↔
          ∀ l ∈ some (p :: ps), ∃ a ∈ l, GlobMatches crates a (value.getD "") := by
        rw [globHolds, hok]
        simpa using hglob (p :: ps) set hok (value.getD "")
      have hne : some (p :: ps) ≠ some [] := by simp
      rw [or_iff_right hne, ← anyOf_or_defaulted, ← hholds]
      simp

theorem all_iff {α : Type} {o : Option α} {test : α → Bool} {P : α → Prop}
    (h : ∀ a, test a = true ↔ P a) : o.all test = true ↔ ∀ a ∈ o, P a := by
  cases o <;> simp [h]

section Numbers

variable {α : Type} {toNat : α → Nat} {width : Nat}

theorem map_toNat_lt (hlt : ∀ a, toNat a < 2 ^ width) (list : Option (List α)) :
    ∀ l ∈ list.map (·.map toNat), ∀ n ∈ l, n < 2 ^ width := by
  intro l hl n hn
  obtain ⟨l, -, rfl⟩ := Option.mem_map.mp hl
  obtain ⟨a, -, rfl⟩ := List.mem_map.mp hn
  exact hlt a

theorem cut_test [DecidableEq α] {ofNat : Nat → α} (hinjective : Function.Injective toNat)
    (hofNat : ∀ n, toNat (ofNat n) = n % 2 ^ width) (hlt : ∀ a, toNat a < 2 ^ width)
    (hmax : (2 ^ 64 - 1) % 2 ^ width = 2 ^ width - 1) {value : Option Nat}
    {list : Option (List α)} :
    (list.all fun l => decide (ofNat (value.getD 18446744073709551615) ∈ l)) = true ↔
      AnyOf (· = ·) value (list.map (·.map toNat)) ∨ Cut width value (list.map (·.map toNat)) := by
  rw [← anyOf_or_cut hmax (map_toNat_lt hlt list), Option.forall_mem_map]
  refine all_iff fun l => decide_eq_true_iff.trans ?_
  rw [← hofNat, List.mem_map_of_injective hinjective]
  rfl

end Numbers

theorem member_test {value : Option String} :
    (list.all fun l => decide (value.getD "" ∈ l)) = true ↔
      AnyOf (· = ·) value list ∨ Defaulted (· = ·) "" value list := by
  rw [← anyOf_or_defaulted]
  exact all_iff fun l => by simp

theorem present_test {value : String} :
    (list.all fun l => decide (value ∈ l)) = true ↔ AnyOf (· = ·) (some value) list :=
  all_iff fun l => by simp

theorem comm_test : mp.test crates event .comm = true ↔
    mp.Means crates event .comm ∨ mp.Loose crates event .comm := by
  show mp.comm.all _ = true ↔ (∀ c ∈ mp.comm, _) ∨ (_ ∧ mp.comm = some "")
  cases mp.comm with
  | none => simp
  | some c => cases event.textField "comm" <;> simp [eq_comm]

/-- A test is passed exactly when its predicate holds or is passed loosely. -/
theorem test_iff (hglob : AnyOfGlobs crates)
    (hcomm : ∀ l ∈ mp.commGlob, l ≠ [] → ∃ set, crates.globSet l = .ok set)
    (hpath : ∀ l ∈ mp.pathGlob, l ≠ [] → ∃ set, crates.globSet l = .ok set) (f : Field) :
    mp.test crates event f = true ↔ mp.Means crates event f ∨ mp.Loose crates event f := by
  have hstrict {test : Bool} {P : Prop} (h : test = true ↔ P) : test = true ↔ P ∨ False :=
    h.trans (or_iff_left not_false).symm
  cases f with
  | source => exact hstrict (all_iff fun s => decide_eq_true_iff)
  | sourceIn | kindIn => exact hstrict present_test
  | kind =>
    refine hstrict (all_iff fun k => ?_)
    cases hasGlobChars k <;> simp [GlobMatches]
  | comm => exact comm_test
  | commIn | pathIn | parentCommIn => exact member_test
  | commGlob => exact (all_iff fun ps => Bool.or_eq_true_iff).trans (glob_test hglob hcomm)
  | pathGlob => exact (all_iff fun ps => Bool.or_eq_true_iff).trans (glob_test hglob hpath)
  | pathPrefix =>
    refine (all_iff fun l => List.any_eq_true).trans ?_
    exact anyOf_or_defaulted (R := fun p path => startsWith path p = true)
  | severityMin => exact (all_iff fun name => decide_eq_true_iff).trans severity_test
  | uidIn =>
    exact cut_test (fun _ _ => UInt32.toNat_inj.mp) (fun _ => UInt32.toNat_ofNat')
      UInt32.toNat_lt (by decide)
  | dstPortIn =>
    exact cut_test (fun _ _ => UInt16.toNat_inj.mp) (fun _ => UInt16.toNat_ofNat')
      UInt16.toNat_lt (by decide)

theorem holds_iff : mp.holds crates event = true ↔ ∀ f, mp.test crates event f = true := by
  simp only [MatchPredicates.holds, Bool.and_eq_true]
  constructor
  · rintro ⟨⟨⟨⟨⟨⟨⟨⟨⟨⟨⟨⟨⟨h1, h2⟩, h3⟩, h4⟩, h5⟩, h6⟩, h7⟩, h8⟩, h9⟩, h10⟩, h11⟩, h12⟩, h13⟩, h14⟩ f
    cases f <;> assumption
  · intro h
    exact ⟨⟨⟨⟨⟨⟨⟨⟨⟨⟨⟨⟨⟨h .source, h .sourceIn⟩, h .kind⟩, h .kindIn⟩, h .comm⟩, h .commIn⟩,
      h .commGlob⟩, h .pathIn⟩, h .pathGlob⟩, h .pathPrefix⟩, h .severityMin⟩, h .uidIn⟩,
      h .dstPortIn⟩, h .parentCommIn⟩

/-- An event passes a compiled rule exactly when each predicate of the block holds or is passed
loosely. -/
theorem matches_iff (hglob : AnyOfGlobs crates) {raw : RawRule} {rule : CompiledRule}
    (h : compileRule crates raw = .ok rule) (hmp : raw.matchPreds = some mp) :
    rule.matches event = true ↔ ∀ f, mp.Means crates event f ∨ mp.Loose crates event f := by
  obtain ⟨mp', action, kindGlob, commGlob, pathGlob, hmp', -, -, hcomm, hpath, -⟩ :=
    compileRule_eq_ok h
  cases hmp.symm.trans hmp'
  rw [(compileRule_holds h hmp event).1, holds_iff]
  exact forall_congr' (test_iff hglob (exists_globSet hcomm) (exists_globSet hpath))

theorem MatchPredicates.Loose.not_means {f : Field} (h : mp.Loose crates event f) :
    ¬ mp.Means crates event f := by
  cases f with
  | source | sourceIn | kind | kindIn => exact h.elim
  | comm =>
    obtain ⟨hnone, hcomm⟩ := h
    intro hall
    cases hnone.symm.trans (hall "" hcomm)
  | commIn | pathIn | pathPrefix | parentCommIn => exact not_anyOf_of_defaulted h
  | commGlob | pathGlob =>
    rcases h with hempty | h
    · intro hall
      obtain ⟨_, _, a, ha, _⟩ := hall [] hempty
      cases ha
    · exact not_anyOf_of_defaulted h
  | severityMin =>
    obtain ⟨name, hname, hunknown⟩ := h
    intro hall
    obtain ⟨severity, htext, -⟩ := hall name hname
    exact hunknown severity htext
  | uidIn => exact not_anyOf_of_cut (map_toNat_lt UInt32.toNat_lt mp.uidIn) h
  | dstPortIn => exact not_anyOf_of_cut (map_toNat_lt UInt16.toNat_lt mp.dstPortIn) h

end Tests

/-- A compiled rule tests what its match block means exactly when no predicate is passed
loosely, or another one fails. -/
theorem meaning_preserved_iff (crates : PipelineCrates) (hglob : AnyOfGlobs crates)
    {raw : RawRule} {mp : MatchPredicates} {rule : CompiledRule}
    (h : compileRule crates raw = .ok rule) (hmp : raw.matchPreds = some mp) (event : Event) :
    (rule.matches event = true ↔ ∀ f, mp.Means crates event f) ↔
      ((∃ f, mp.Loose crates event f) →
        ∃ f, ¬ mp.Means crates event f ∧ ¬ mp.Loose crates event f) := by
  rw [matches_iff hglob h hmp]
  constructor
  · rintro heq ⟨f, hf⟩
    by_contra hnone
    refine hf.not_means (heq.mp (fun g => ?_) f)
    by_contra hg
    exact hnone ⟨g, not_or.mp hg⟩
  · intro hother
    refine ⟨fun hall f => (hall f).resolve_right fun hf => ?_, fun hall f => .inl (hall f)⟩
    obtain ⟨g, hmeans, hloose⟩ := hother ⟨f, hf⟩
    exact (hall g).elim hmeans hloose

theorem anyOfGlobs_plain : AnyOfGlobs plainCrates := by
  intro patterns globs h text
  cases h
  simp [GlobMatches, globHolds, plainCrates]

theorem meaning_preserved_iff_probe :
    AnyOfGlobs plainCrates ∧
      compileRule plainCrates (dropProbe none) = .ok (dropProbeCompiled none) ∧
      ((dropProbeCompiled none).matches loginCall.event = true ↔
        ∀ f, MatchPredicates.Means plainCrates { source := some "ebpf" } loginCall.event f) := by
  have hcompiled : compileRule plainCrates (dropProbe none) = .ok (dropProbeCompiled none) := rfl
  refine ⟨anyOfGlobs_plain, hcompiled, ?_⟩
  refine (meaning_preserved_iff plainCrates anyOfGlobs_plain hcompiled rfl loginCall.event).mpr ?_
  rintro -
  refine ⟨.source, fun h => ?_, id⟩
  exact absurd (h "ebpf" rfl) (by decide)

def dropRule (mp : MatchPredicates) : RawRule where
  id := "drop"
  matchPreds := some mp
  action := .drop

/-- An empty list of globs matches every event, `uid_in: [0]` a user id that is no 32-bit number,
and a severity that is misspelt every severity. -/
theorem loose_predicates_pass :
    let event : Event := { loginCall.event with details := .obj [("uid", .int 4294967296)] }
    let Misses (mp : MatchPredicates) : Prop := ∃ rule,
      compileRule plainCrates (dropRule mp) = .ok rule ∧ rule.matches event = true ∧
        ¬ ∀ f, mp.Means plainCrates event f
    Misses { commGlob := some [] } ∧ Misses { uidIn := some [0] } ∧
      Misses { severityMin := some "hihg" } := by
  intro event Misses
  refine ⟨⟨_, rfl, by decide, fun h => ?_⟩, ⟨_, rfl, by decide, fun h => ?_⟩,
    ⟨_, rfl, by decide, fun h => ?_⟩⟩
  · obtain ⟨_, _, a, ha, _⟩ := h .commGlob [] rfl
    cases ha
  · obtain ⟨n, hn, uid, huid, heq⟩ := h .uidIn [0] rfl
    cases hn
    cases List.mem_singleton.mp huid
    cases heq
  · obtain ⟨severity, htext, -⟩ := h .severityMin "hihg" rfl
    revert htext
    cases severity <;> decide

end Innerwarden.Pipeline
