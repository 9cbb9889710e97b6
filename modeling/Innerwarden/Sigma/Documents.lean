import Innerwarden.Sigma.Rules

/-!
# What a Sigma rule says

`Detection` is the detection block of a rule as its author means it, and `Detection.Holds` is
what it says of an event.  A text writes a block when its lines are those of the block, in any
layout: indentation, blank lines, comments and all that stands before and after are left open
(`WritesRule`).  What YAML makes of a scalar is a parameter.
-/

namespace Innerwarden.Sigma

open Text
open Pipeline (Event)

/-! ## Blocks -/

/-- The modifier of a field. -/
inductive Modifier where
  | none
  | contains
  | startswith
  | endswith
  | containsAll
deriving DecidableEq

def Modifier.text : Modifier → String
  | .none => ""
  | .contains => "|contains"
  | .startswith => "|startswith"
  | .endswith => "|endswith"
  | .containsAll => "|contains|all"

def Modifier.op : Modifier → MatchOp
  | .none => .equals
  | .contains => .contains
  | .startswith => .startsWith
  | .endswith => .endsWith
  | .containsAll => .contains

def formatKeys : List String :=
  ["detection", "tags", "logsource", "status", "description", "references", "author", "date",
   "modified", "falsepositives", "condition"]

def takenKeys : List String := ["id", "title", "level", "product", "category", "service"]

/-- A key that names a field of an event. -/
structure IsFieldKey (key : String) : Prop where
  ne_empty : key ≠ ""
  trimmed : trim key = key
  noColon : ':' ∉ key.toList
  noBar : '|' ∉ key.toList
  notComment : startsWith key "#" = false
  notItem : startsWith key "- " = false
  notFormat : key ∉ formatKeys
  notSelection : startsWith key "selection" = false
  notFilter : startsWith key "filter" = false

/-- A scalar on one line. -/
structure IsScalar (raw : String) : Prop where
  ne_empty : raw ≠ ""
  trimmed : trim raw = raw

/-- A field with the value on its line and those listed below it. -/
structure Field where
  key : String
  modifier : Modifier
  inline : Option String
  listed : List String
  isFieldKey : IsFieldKey key
  isScalar : ∀ raw ∈ inline.toList ++ listed, IsScalar raw
  hasValue : inline.toList ++ listed ≠ []

def Field.raws (f : Field) : List String := f.inline.toList ++ f.listed

/-- A name of a section. -/
structure IsSectionName (name : String) : Prop where
  kind : startsWith name "selection" = true ∨ startsWith name "filter" = true
  trimmed : trim name = name
  noColon : ':' ∉ name.toList
  noBar : '|' ∉ name.toList

/-- A section of a detection block. -/
structure Section where
  name : String
  fields : List Field
  isSectionName : IsSectionName name

def Section.isSelection (sec : Section) : Bool := startsWith sec.name "selection"

/-- The conditions. -/
inductive Condition where
  | selection
  | selectionAndNotFilter
  | oneOfSelections
  | allOfSelections

def Condition.text : Condition → String
  | .selection => "selection"
  | .selectionAndNotFilter => "selection and not filter"
  | .oneOfSelections => "1 of selection*"
  | .allOfSelections => "all of selection*"

def Condition.names : Condition → List String
  | .selection => ["selection"]
  | .selectionAndNotFilter => ["selection", "filter"]
  | .oneOfSelections => []
  | .allOfSelections => []

/-- A detection block: the sections before the condition, the condition, and those after. -/
structure Detection where
  before : List Section
  condition : Condition
  after : List Section
  nodup : ((before ++ after).map Section.name).Nodup
  named : ∀ name ∈ condition.names, name ∈ (before ++ after).map Section.name

def Detection.sections (d : Detection) : List Section := d.before ++ d.after

/-! ## What a block says -/

section Meaning

variable (texts : Texts) (yaml : String → String) (event : Event)

/-- A value of a field, as YAML reads it, matches. -/
def Field.ValueMatches (f : Field) (raw : String) : Prop :=
  valueMatches texts f.modifier.op ((extractField texts event f.key).getD "") (yaml raw) = true

instance (f : Field) (raw : String) : Decidable (f.ValueMatches texts yaml event raw) :=
  inferInstanceAs (Decidable (_ = true))

/-- One of the values matches, or all of them. -/
def Field.Holds (f : Field) : Prop :=
  match f.modifier with
  | .containsAll => ∀ raw ∈ f.raws, f.ValueMatches texts yaml event raw
  | _ => ∃ raw ∈ f.raws, f.ValueMatches texts yaml event raw

/-- All fields hold. -/
def Section.Holds (sec : Section) : Prop := ∀ f ∈ sec.fields, f.Holds texts yaml event

/-- The section of this name holds. -/
def Detection.SectionHolds (d : Detection) (name : String) : Prop :=
  ∃ sec ∈ d.sections, sec.name = name ∧ sec.Holds texts yaml event

/-- The condition is true. -/
def Detection.Holds (d : Detection) : Prop :=
  match d.condition with
  | .selection => d.SectionHolds texts yaml event "selection"
  | .selectionAndNotFilter =>
    d.SectionHolds texts yaml event "selection" ∧ ¬ d.SectionHolds texts yaml event "filter"
  | .oneOfSelections => ∃ sec ∈ d.sections, sec.isSelection = true ∧ sec.Holds texts yaml event
  | .allOfSelections => ∀ sec ∈ d.sections, sec.isSelection = true → sec.Holds texts yaml event

end Meaning

/-! ## Texts of a block -/

/-- A line of a block. -/
inductive Token where
  | head (name : String)
  | field (key : String) (modifier : Modifier) (inline : Option String)
  | item (raw : String)
  | condition (c : Condition)

def Field.tokens (f : Field) : List Token :=
  .field f.key f.modifier f.inline :: f.listed.map .item

def Section.tokens (sec : Section) : List Token := .head sec.name :: sec.fields.flatMap Field.tokens

def Detection.tokens (d : Detection) : List Token :=
  d.before.flatMap Section.tokens ++ .condition d.condition :: d.after.flatMap Section.tokens

/-- A text of white space. -/
def IsBlank (s : String) : Prop := ∀ c ∈ s.toList, isWhitespace c = true

instance (s : String) : Decidable (IsBlank s) :=
  decidable_of_iff (s.toList.all isWhitespace = true) List.all_eq_true

/-- A line writes a token.  White space around it is left open. -/
def Writes : Token → String → Prop
  | .head name, line => trim line = name ++ ":" ∧ 0 < indent line ∧ indent line ≤ 8
  | .field key modifier none, line => trim line = key ++ modifier.text ++ ":" ∧ 0 < indent line
  | .field key modifier (some raw), line =>
    (∃ gap, IsBlank gap ∧ trim line = key ++ modifier.text ++ ":" ++ gap ++ raw) ∧
      0 < indent line
  | .item raw, line => (∃ gap, IsBlank gap ∧ trim line = "- " ++ gap ++ raw) ∧ 0 < indent line
  | .condition c, line =>
    (∃ gap, IsBlank gap ∧ trim line = "condition:" ++ gap ++ c.text) ∧ 0 < indent line

/-- The text has this detection block.  Nothing else in it begins such a block, and what
follows the block is not indented. -/
structure WritesRule (text : String) (d : Detection) : Prop where
  exists_parts : ∃ pre head body post, lines text = pre ++ head :: body ++ post ∧
    (∀ line ∈ pre ++ post, trim line ≠ "detection:") ∧
    trim head = "detection:" ∧ indent head = 0 ∧
    List.Forall₂ Writes d.tokens (body.filter isSignificant) ∧
    ∀ line ∈ (post.filter isSignificant).head?, indent line = 0

end Innerwarden.Sigma
