import Mathlib.Algebra.Ring.Int.Defs
import Mathlib.Algebra.Ring.Nat
import Mathlib.Data.List.Basic

/-!
# JSON values

Trees of JSON text as the crate `serde_json` writes and reads them: a number is an integer or a
float, the members of an object stand in the order of the text.  A derived `Serialize` writes the
fields of a struct as they are declared; a `Value` holds its members in a map sorted by key, which
`settle` builds.  `toText` is the compact text, and the accessors give `none` for a value of
another kind.  A `JsonCodec` stands for what is left to the crate: the digits of floats, and the
reading of a text.
-/

/-- A JSON value. -/
inductive Json where
  | null
  | bool (b : Bool)
  | int (n : Int)
  /-- A finite float, as its bit pattern. -/
  | float (bits : UInt64)
  | str (s : String)
  | arr (items : List Json)
  | obj (members : List (String × Json))

namespace Json

open List

/-! ## Accessors -/

/-- `Value::get` with a key. -/
def get (key : String) : Json → Option Json
  | .obj members => members.lookup key
  | _ => none

/-- `value[key]`: a missing member is `null`. -/
def index (v : Json) (key : String) : Json := (v.get key).getD .null

def asStr : Json → Option String
  | .str s => some s
  | _ => none

def asArray : Json → Option (List Json)
  | .arr items => some items
  | _ => none

def asObject : Json → Option (List (String × Json))
  | .obj members => some members
  | _ => none

def asBool : Json → Option Bool
  | .bool b => some b
  | _ => none

/-- `Value::as_f64`, given the conversion of integers. -/
def asF64 (ofInt : Int → UInt64) : Json → Option UInt64
  | .int n => some (ofInt n)
  | .float bits => some bits
  | _ => none

def asU64 : Json → Option Nat
  | .int (.ofNat n) => if n < 2 ^ 64 then some n else none
  | _ => none

def asI64 : Json → Option Int
  | .int n => if -2 ^ 63 ≤ n ∧ n < 2 ^ 63 then some n else none
  | _ => none

/-- An optional string, `null` when there is none. -/
def ofOption : Option String → Json
  | some s => .str s
  | none => .null

@[simp] theorem asStr_str (s : String) : (Json.str s).asStr = some s := rfl

@[simp] theorem asArray_arr (items : List Json) : (Json.arr items).asArray = some items := rfl

@[simp] theorem asStr_ofOption (o : Option String) : (ofOption o).asStr = o := by
  cases o <;> rfl

theorem asU64_natCast {n : Nat} (h : n < 2 ^ 64) : (Json.int n).asU64 = some n := by
  exact if_pos h

theorem asI64_int {n : Int} (h : -2 ^ 63 ≤ n ∧ n < 2 ^ 63) : (Json.int n).asI64 = some n := by
  rw [asI64, if_pos h]

/-! ## Text -/

/-- A character inside a JSON string. -/
def escapeChar (c : Char) : List Char :=
  if c = '\x22' then ['\\', '\x22']
  else if c = '\\' then ['\\', '\\']
  else if c.toNat = 8 then ['\\', 'b']
  else if c.toNat = 9 then ['\\', 't']
  else if c.toNat = 10 then ['\\', 'n']
  else if c.toNat = 12 then ['\\', 'f']
  else if c.toNat = 13 then ['\\', 'r']
  else if c.toNat < 32 then
    ['\\', 'u', '0', '0', Nat.digitChar (c.toNat / 16), Nat.digitChar (c.toNat % 16)]
  else [c]

def quote (s : String) : String := "\x22" ++ String.ofList (s.toList.flatMap escapeChar) ++ "\x22"

def commaSeparated : List String → String
  | [] => ""
  | [t] => t
  | t :: ts => t ++ "," ++ commaSeparated ts

/-- The text of an object, given the texts of its members' values. -/
def objectText (members : List (String × String)) : String :=
  "\x7b" ++ commaSeparated (members.map fun m => quote m.1 ++ ":" ++ m.2) ++ "\x7d"

mutual

/-- The compact text of a value. -/
def toText (formatF64 : UInt64 → String) : Json → String
  | .null => "null"
  | .bool true => "true"
  | .bool false => "false"
  | .int n => toString n
  | .float bits => formatF64 bits
  | .str s => quote s
  | .arr items => "[" ++ commaSeparated (itemTexts formatF64 items) ++ "]"
  | .obj members => objectText (memberTexts formatF64 members)

def itemTexts (formatF64 : UInt64 → String) : List Json → List String
  | [] => []
  | v :: vs => toText formatF64 v :: itemTexts formatF64 vs

def memberTexts (formatF64 : UInt64 → String) : List (String × Json) → List (String × String)
  | [] => []
  | (key, v) :: ms => (key, toText formatF64 v) :: memberTexts formatF64 ms

end

theorem memberTexts_eq_map (formatF64 : UInt64 → String) (members : List (String × Json)) :
    memberTexts formatF64 members = members.map fun m => (m.1, toText formatF64 m.2) := by
  induction members with
  | nil => rfl
  | cons m members ih => rw [memberTexts, ih, map_cons]

/-! ## Maps

The tree of a text may repeat a key.  A value built from it holds each key once, in order. -/

/-- `Map::insert`, where a map is sorted by key. -/
def insertMember (key : String) (v : Json) : List (String × Json) → List (String × Json)
  | [] => [(key, v)]
  | (k, w) :: ms =>
    if key < k then (key, v) :: (k, w) :: ms
    else if k = key then (k, v) :: ms
    else (k, w) :: insertMember key v ms

mutual

/-- The value `serde_json` builds from the tree of a text. -/
def settle : Json → Json
  | .arr items => .arr (settleItems items)
  | .obj members => .obj (settleMembers [] members)
  | v => v

def settleItems : List Json → List Json
  | [] => []
  | v :: vs => settle v :: settleItems vs

/-- The members of an object, after those already inserted. -/
def settleMembers : List (String × Json) → List (String × Json) → List (String × Json)
  | acc, [] => acc
  | acc, (key, v) :: ms => settleMembers (insertMember key (settle v) acc) ms

end

theorem lookup_insertMember (key : String) (v : Json) (k : String) (ms : List (String × Json)) :
    (insertMember key v ms).lookup k = if k = key then some v else ms.lookup k := by
  have hfront : ∀ ms : List (String × Json),
      ((key, v) :: ms).lookup k = if k = key then some v else ms.lookup k := by
    intro ms
    rw [lookup_cons]
    by_cases h : k = key
    · simp [h]
    · simp [h, beq_false_of_ne h]
  induction ms with
  | nil => exact hfront []
  | cons m ms ih =>
    obtain ⟨k', w⟩ := m
    rw [insertMember]
    by_cases hbefore : key < k'
    · rw [if_pos hbefore, hfront]
    rw [if_neg hbefore]
    by_cases hk : k' = key
    · subst hk
      rw [if_pos rfl, hfront, lookup_cons]
      by_cases h : k = k'
      · simp [h]
      · simp [h, beq_false_of_ne h]
    · rw [if_neg hk, lookup_cons, lookup_cons, ih]
      by_cases h : k = k'
      · simp [h, hk]
      · simp [beq_false_of_ne h]

theorem lookup_settleMembers (k : String) (ms acc : List (String × Json)) :
    (settleMembers acc ms).lookup k =
      (((ms.filter fun m => m.1 = k).getLast?.map fun m => settle m.2).or (acc.lookup k)) := by
  induction ms generalizing acc with
  | nil => simp [settleMembers]
  | cons m ms ih =>
    obtain ⟨key, v⟩ := m
    rw [settleMembers, ih, lookup_insertMember]
    by_cases h : k = key
    · subst h
      rw [filter_cons_of_pos (by simp), if_pos rfl]
      cases hrest : ms.filter fun m => m.1 = k with
      | nil => simp
      | cons a rest => simp [getLast?_cons]
    · rw [filter_cons_of_neg (by simpa using fun he => h he.symm), if_neg h]

theorem get_settle_obj (k : String) (ms : List (String × Json)) :
    (settle (.obj ms)).get k =
      (ms.filter fun m => m.1 = k).getLast?.map fun m => settle m.2 := by
  rw [settle, get, lookup_settleMembers, lookup_nil, Option.or_none]

/-! ## One line

A compact text is one line: line feeds inside strings are escaped. -/

theorem lf_not_mem_escapeChar (c : Char) : '\n' ∉ escapeChar c := by
  have digits : ∀ n < 16, Nat.digitChar n ≠ '\n' := by decide
  unfold escapeChar
  split_ifs with h1 h2 h3 h4 h5 h6 h7 h8
  any_goals decide
  · have high := digits (c.toNat / 16) (by omega)
    have low := digits (c.toNat % 16) (by omega)
    simp [Ne.symm high, Ne.symm low]
  · intro hmem
    rw [← mem_singleton.mp hmem] at h5
    exact h5 rfl

theorem lf_not_mem_quote (s : String) : '\n' ∉ (quote s).toList := by
  have inner : '\n' ∉ s.toList.flatMap escapeChar := by
    intro hmem
    obtain ⟨c, -, hc⟩ := mem_flatMap.mp hmem
    exact lf_not_mem_escapeChar c hc
  simp [quote, inner]

theorem lf_not_mem_commaSeparated {ts : List String} (h : ∀ t ∈ ts, '\n' ∉ t.toList) :
    '\n' ∉ (commaSeparated ts).toList := by
  induction ts with
  | nil => simp [commaSeparated]
  | cons t ts ih =>
    have ht := h t (mem_cons_self ..)
    have hts := ih fun u hu => h u (mem_cons_of_mem _ hu)
    cases ts with
    | nil => exact ht
    | cons u us => simpa [commaSeparated, ht] using hts

theorem lf_not_mem_objectText {members : List (String × String)}
    (h : ∀ m ∈ members, '\n' ∉ m.2.toList) : '\n' ∉ (objectText members).toList := by
  have inner : '\n' ∉ (commaSeparated
      (members.map fun m => quote m.1 ++ ":" ++ m.2)).toList := by
    refine lf_not_mem_commaSeparated fun t ht => ?_
    obtain ⟨m, hm, rfl⟩ := mem_map.mp ht
    simp [lf_not_mem_quote m.1, h m hm]
  simp [objectText, inner]

theorem lf_not_mem_toString_int (n : Int) : '\n' ∉ (toString n).toList := by
  have digits : ∀ m : Nat, '\n' ∉ Nat.toDigits 10 m := by
    intro m hmem
    exact absurd (Nat.isDigit_of_mem_toDigits (by decide) (by decide) hmem) (by decide)
  cases n with
  | ofNat m =>
    change '\n' ∉ (Nat.repr m).toList
    rw [Nat.toList_repr]
    exact digits m
  | negSucc m =>
    change '\n' ∉ ("-" ++ Nat.repr (m + 1)).toList
    simp [digits]

mutual

variable {formatF64 : UInt64 → String}

theorem lf_not_mem_toText (hdigits : ∀ x, '\n' ∉ (formatF64 x).toList) :
    ∀ v : Json, '\n' ∉ (v.toText formatF64).toList
  | .null => by simp [toText]
  | .bool true => by simp [toText]
  | .bool false => by simp [toText]
  | .int n => by
    rw [toText]
    exact lf_not_mem_toString_int n
  | .float bits => by
    rw [toText]
    exact hdigits bits
  | .str s => by
    rw [toText]
    exact lf_not_mem_quote s
  | .arr items => by
    have inner := lf_not_mem_commaSeparated (lf_not_mem_itemTexts hdigits items)
    simp [toText, inner]
  | .obj members => by
    rw [toText]
    exact lf_not_mem_objectText (lf_not_mem_memberTexts hdigits members)

theorem lf_not_mem_itemTexts (hdigits : ∀ x, '\n' ∉ (formatF64 x).toList) :
    ∀ items : List Json, ∀ t ∈ itemTexts formatF64 items, '\n' ∉ t.toList
  | [], t, h => by
    rw [itemTexts] at h
    cases h
  | v :: vs, t, h => by
    rw [itemTexts] at h
    rcases mem_cons.mp h with rfl | h
    · exact lf_not_mem_toText hdigits v
    · exact lf_not_mem_itemTexts hdigits vs t h

theorem lf_not_mem_memberTexts (hdigits : ∀ x, '\n' ∉ (formatF64 x).toList) :
    ∀ members : List (String × Json), ∀ m ∈ memberTexts formatF64 members, '\n' ∉ m.2.toList
  | [], m, h => by
    rw [memberTexts] at h
    cases h
  | m :: ms, t, h => by
    rw [memberTexts] at h
    rcases mem_cons.mp h with rfl | h
    · exact lf_not_mem_toText hdigits m.2
    · exact lf_not_mem_memberTexts hdigits ms t h

end

theorem getLast?_objectText (members : List (String × String)) :
    (objectText members).toList.getLast? = some '\x7d' := by
  rw [objectText, String.toList_append]
  exact getLast?_concat ..

theorem brace_mem_objectText (members : List (String × String)) :
    '\x7b' ∈ (objectText members).toList := by
  simp [objectText]

end Json

/-- What the crate does beyond `Json.toText`. -/
structure JsonCodec where
  /-- The digits of a finite float. -/
  formatF64 : UInt64 → String
  /-- The text of an `f32` field: its digits, or `null` if it is not finite. -/
  formatF32 : UInt32 → String
  /-- `serde_json::from_str`, as the tree of the text. -/
  fromStr : String → Option Json

/-- `serde_json::from_str::<Value>`. -/
def JsonCodec.value (codec : JsonCodec) (s : String) : Option Json :=
  (codec.fromStr s).map Json.settle

/-- `serde_json::to_string`. -/
def JsonCodec.toString (codec : JsonCodec) (v : Json) : String := v.toText codec.formatF64

/-- The text of the value is read back. -/
def JsonCodec.Reads (codec : JsonCodec) (v : Json) : Prop :=
  codec.fromStr (codec.toString v) = some v
