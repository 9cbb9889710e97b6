import Mathlib.Data.List.Infix
import Mathlib.Data.List.TakeWhile

/-!
# Text functions of the Rust standard library

The `str` methods the modelled programs call, as functions on the characters of
a string.
-/

namespace Text

open List

def startsWith (s pre : String) : Bool := pre.toList.isPrefixOf s.toList

theorem startsWith_append (pre rest : String) : startsWith (pre ++ rest) pre = true := by
  simp [startsWith]

variable {s : String} {c : Char} {l suf : String}

theorem startsWith_append_of_le {pre : String} (h : pre.toList.length ≤ s.toList.length)
    (rest : String) : startsWith (s ++ rest) pre = startsWith s pre := by
  rw [Bool.eq_iff_iff, startsWith, startsWith, isPrefixOf_iff_prefix,
    isPrefixOf_iff_prefix, String.toList_append]
  constructor
  · exact fun hpre => prefix_of_prefix_length_le hpre (prefix_append _ _) h
  · exact fun hpre => hpre.trans (prefix_append _ _)

def endsWith (s suf : String) : Bool := suf.toList.isSuffixOf s.toList

def stripPrefix (s pre : String) : Option String :=
  if startsWith s pre then some (String.ofList (s.toList.drop pre.toList.length)) else none

def stripSuffix (s suf : String) : Option String :=
  if endsWith s suf then
    some (String.ofList (s.toList.take (s.toList.length - suf.toList.length)))
  else none

def contains (s part : String) : Bool := decide (part.toList <:+: s.toList)

theorem contains_eq_false_of_notMem {part : String} (hc : c ∈ part.toList) (h : c ∉ s.toList) :
    contains s part = false := by
  simp only [contains, decide_eq_false_iff_not]
  exact fun hpart => h (hpart.subset hc)

theorem notMem_of_contains_singleton (h : contains s (String.singleton c) = false) :
    c ∉ s.toList := by
  simp only [contains, decide_eq_false_iff_not, String.toList_singleton] at h
  intro hc
  obtain ⟨l, r, hs⟩ := append_of_mem hc
  exact h ⟨l, r, by simp [hs]⟩

/-- `char::is_whitespace`: the Unicode property `White_Space`. -/
def isWhitespace (c : Char) : Bool :=
  (9 ≤ c.toNat && c.toNat ≤ 13) || c.toNat == 0x20 || c.toNat == 0x85 || c.toNat == 0xa0 ||
  c.toNat == 0x1680 || (0x2000 ≤ c.toNat && c.toNat ≤ 0x200a) || c.toNat == 0x2028 ||
  c.toNat == 0x2029 || c.toNat == 0x202f || c.toNat == 0x205f || c.toNat == 0x3000

def trim (s : String) : String :=
  String.ofList ((s.toList.dropWhile isWhitespace).reverse.dropWhile isWhitespace).reverse

def trimEnd (s : String) : String := String.ofList (s.toList.reverse.dropWhile isWhitespace).reverse

def trimMatches (p : Char → Bool) (s : String) : String :=
  String.ofList ((s.toList.dropWhile p).reverse.dropWhile p).reverse

def trimEndMatches (p : Char → Bool) (s : String) : String :=
  String.ofList (s.toList.reverse.dropWhile p).reverse

/-- `s.len() - s.trim_start().len()`: the bytes of white space a text begins with. -/
def indent (s : String) : Nat :=
  (s.toList.takeWhile isWhitespace).foldr (fun c n => c.utf8Size + n) 0

/-- `u8::to_ascii_lowercase` on a character. -/
def toAsciiLower (c : Char) : Char :=
  if 'A' ≤ c ∧ c ≤ 'Z' then Char.ofNat (c.toNat + 32) else c

def eqIgnoreAsciiCase (s t : String) : Bool :=
  decide (s.toList.map toAsciiLower = t.toList.map toAsciiLower)

/-- `str::split_once` at a character. -/
def splitOnce (sep : Char) (s : String) : Option (String × String) :=
  match s.toList.dropWhile (· ≠ sep) with
  | [] => none
  | _ :: rest => some (String.ofList (s.toList.takeWhile (· ≠ sep)), String.ofList rest)

theorem splitOnce_eq_none {sep : Char} (h : sep ∉ s.toList) : splitOnce sep s = none := by
  have hdrop : s.toList.dropWhile (· ≠ sep) = [] := by
    rw [dropWhile_eq_nil_iff]
    intro c hc
    simp [ne_of_mem_of_not_mem hc h]
  rw [splitOnce, hdrop]

def splitChars (sep : Char) : List Char → List (List Char)
  | [] => [[]]
  | c :: cs =>
    if c = sep then [] :: splitChars sep cs
    else
      match splitChars sep cs with
      | [] => [[c]]
      | part :: parts => (c :: part) :: parts

/-- `str::split` at a character. -/
def split (sep : Char) (s : String) : List String := (splitChars sep s.toList).map String.ofList

theorem splitChars_ne_nil (sep : Char) (cs : List Char) : splitChars sep cs ≠ [] := by
  cases cs with
  | nil => exact cons_ne_nil _ _
  | cons c cs =>
    unfold splitChars
    split
    · exact cons_ne_nil _ _
    · split <;> exact cons_ne_nil _ _

theorem splitChars_append_cons (sep : Char) (a b : List Char) :
    splitChars sep (a ++ sep :: b) = splitChars sep a ++ splitChars sep b := by
  induction a with
  | nil => simp [splitChars]
  | cons c a ih =>
    rw [cons_append, splitChars, splitChars, ih]
    by_cases hc : c = sep
    · rw [if_pos hc, if_pos hc, cons_append]
    · rw [if_neg hc, if_neg hc]
      cases hparts : splitChars sep a with
      | nil => exact absurd hparts (splitChars_ne_nil sep a)
      | cons part parts => rfl

theorem splitChars_of_notMem {sep : Char} {cs : List Char} (h : sep ∉ cs) :
    splitChars sep cs = [cs] := by
  induction cs with
  | nil => rfl
  | cons c cs ih =>
    have hc : c ≠ sep := fun hc => h (hc ▸ mem_cons_self)
    rw [splitChars, if_neg hc, ih fun hcs => h (mem_cons_of_mem _ hcs)]

theorem toList_line_append (l s : String) :
    (l ++ "\n" ++ s).toList = l.toList ++ '\n' :: s.toList := by
  simp

theorem split_line_append (h : '\n' ∉ l.toList) (s : String) :
    split '\n' (l ++ "\n" ++ s) = l :: split '\n' s := by
  rw [split, toList_line_append, splitChars_append_cons, splitChars_of_notMem h, map_append,
    map_singleton, String.ofList_toList]
  rfl

theorem mem_split_append (t s : String) (h : l ∈ split '\n' s) :
    l ∈ split '\n' (t ++ "\n" ++ s) := by
  rw [split, toList_line_append, splitChars_append_cons, map_append]
  exact mem_append_right _ h

def isContinuation (b : UInt8) : Bool := 0x80 ≤ b && b ≤ 0xbf

def isSecond (b0 b1 : UInt8) : Bool :=
  if b0 = 0xe0 then 0xa0 ≤ b1 && b1 ≤ 0xbf
  else if b0 = 0xed then 0x80 ≤ b1 && b1 ≤ 0x9f
  else if b0 = 0xf0 then 0x90 ≤ b1 && b1 ≤ 0xbf
  else if b0 = 0xf4 then 0x80 ≤ b1 && b1 ≤ 0x8f
  else isContinuation b1

def low6 (b : UInt8) : Nat := b.toNat % 64

/-- The first character of a text in UTF-8 and the number of its bytes.  Bytes that begin
no character are replaced, as many of them as could still begin one. -/
def decodeFirst : List UInt8 → Char × Nat
  | [] => (Char.ofNat 0xfffd, 1)
  | b0 :: bs =>
    if b0 < 0x80 then (Char.ofNat b0.toNat, 1)
    else if 0xc2 ≤ b0 && b0 ≤ 0xdf then
      match bs with
      | b1 :: _ =>
        if isContinuation b1 then (Char.ofNat (b0.toNat % 32 * 64 + low6 b1), 2)
        else (Char.ofNat 0xfffd, 1)
      | [] => (Char.ofNat 0xfffd, 1)
    else if 0xe0 ≤ b0 && b0 ≤ 0xef then
      match bs with
      | b1 :: bs =>
        if isSecond b0 b1 then
          match bs with
          | b2 :: _ =>
            if isContinuation b2 then
              (Char.ofNat (b0.toNat % 16 * 4096 + low6 b1 * 64 + low6 b2), 3)
            else (Char.ofNat 0xfffd, 2)
          | [] => (Char.ofNat 0xfffd, 2)
        else (Char.ofNat 0xfffd, 1)
      | [] => (Char.ofNat 0xfffd, 1)
    else if 0xf0 ≤ b0 && b0 ≤ 0xf4 then
      match bs with
      | b1 :: bs =>
        if isSecond b0 b1 then
          match bs with
          | b2 :: bs =>
            if isContinuation b2 then
              match bs with
              | b3 :: _ =>
                if isContinuation b3 then
                  (Char.ofNat (b0.toNat % 8 * 262144 + low6 b1 * 4096 + low6 b2 * 64 +
                    low6 b3), 4)
                else (Char.ofNat 0xfffd, 3)
              | [] => (Char.ofNat 0xfffd, 3)
            else (Char.ofNat 0xfffd, 2)
          | [] => (Char.ofNat 0xfffd, 2)
        else (Char.ofNat 0xfffd, 1)
      | [] => (Char.ofNat 0xfffd, 1)
    else (Char.ofNat 0xfffd, 1)

/-- The characters of a text in UTF-8, at most as many as the fuel. -/
def decodeChars : Nat → List UInt8 → List Char
  | 0, _ => []
  | _, [] => []
  | fuel + 1, bytes =>
    let first := decodeFirst bytes
    first.1 :: decodeChars fuel (bytes.drop first.2)

/-- `String::from_utf8_lossy`.  Every character takes at least one byte. -/
def fromUtf8Lossy (bytes : List UInt8) : String := String.ofList (decodeChars bytes.length bytes)

example : fromUtf8Lossy [0x61, 0xc3, 0xa9, 0xff, 0xe2, 0x82, 0x62] = "aé\ufffd\ufffdb" := by
  decide +kernel

/-- A carriage return at the end, of a line read backwards. -/
def stripCr : List Char → List Char
  | '\r' :: cs => cs
  | cs => cs

/-- The lines of a text, given the characters of the current line read so far,
last first. -/
def linesFrom : List Char → List Char → List (List Char)
  | [], [] => []
  | c :: cur, [] => [(c :: cur).reverse]
  | cur, '\n' :: cs => (stripCr cur).reverse :: linesFrom [] cs
  | cur, c :: cs => linesFrom (c :: cur) cs

/-- `str::lines`: split at line feeds, with a carriage return before a line feed
taken off.  A line feed at the end starts no further line. -/
def lines (s : String) : List String := (linesFrom [] s.toList).map String.ofList

theorem linesFrom_append_lf (cur l cs : List Char) (h : '\n' ∉ l) :
    linesFrom cur (l ++ '\n' :: cs) =
      (stripCr (l.reverse ++ cur)).reverse :: linesFrom [] cs := by
  induction l generalizing cur with
  | nil => cases cur <;> rfl
  | cons c l ih =>
    rw [mem_cons, not_or] at h
    have step : linesFrom cur (c :: (l ++ '\n' :: cs)) =
        linesFrom (c :: cur) (l ++ '\n' :: cs) := by
      cases cur with
      | nil | cons d cur => rw [linesFrom]; exact fun he => h.1 he.symm
    rw [cons_append, step, ih (c :: cur) h.2, reverse_cons, append_assoc,
      singleton_append]

def withoutCr (l : String) : String := String.ofList (stripCr l.toList.reverse).reverse

theorem withoutCr_eq_self (hcr : l.toList.getLast? ≠ some '\r') : withoutCr l = l := by
  have strip : stripCr l.toList.reverse = l.toList.reverse := by
    cases hl : l.toList.reverse with
    | nil => rfl
    | cons c cs =>
      have last : l.toList.getLast? = some c := by
        rw [← head?_reverse, hl, head?_cons]
      have hc : c ≠ '\r' := fun he => hcr (by rw [last, he])
      rw [stripCr]
      exact fun cs' he => hc (List.cons.inj he).1
  rw [withoutCr, strip, reverse_reverse, String.ofList_toList]

theorem lines_append_lf (l s : String) (h : '\n' ∉ l.toList) :
    lines (l ++ "\n" ++ s) = withoutCr l :: lines s := by
  rw [lines, toList_line_append, linesFrom_append_lf _ _ _ h, append_nil, map_cons]
  rfl

theorem mem_of_mem_stripCr {cs : List Char} (h : c ∈ stripCr cs) : c ∈ cs := by
  unfold stripCr at h
  split at h
  · exact mem_cons_of_mem _ h
  · exact h

theorem lf_not_mem_linesFrom {cur cs l : List Char} (hcur : '\n' ∉ cur)
    (h : l ∈ linesFrom cur cs) : '\n' ∉ l := by
  fun_induction linesFrom cur cs with
  | case1 => cases h
  | case2 c cur =>
    rw [mem_singleton.mp h, mem_reverse]
    exact hcur
  | case3 cur cs ih =>
    rcases mem_cons.mp h with rfl | h
    · rw [mem_reverse]
      exact fun hmem => hcur (mem_of_mem_stripCr hmem)
    · exact ih not_mem_nil h
  | case4 cur c cs hc ih =>
    refine ih ?_ h
    rw [mem_cons, not_or]
    exact ⟨fun he => hc he.symm, hcur⟩

theorem lf_not_mem_of_mem_lines (h : l ∈ lines s) : '\n' ∉ l.toList := by
  obtain ⟨cs, hcs, rfl⟩ := mem_map.mp h
  rw [String.toList_ofList]
  exact lf_not_mem_linesFrom not_mem_nil hcs

/-- The text of a file with these lines, each ended by a line feed. -/
def joinLines (ls : List String) : String := ls.foldr (fun l s => l ++ "\n" ++ s) ""

theorem joinLines_concat (ls : List String) (l : String) :
    joinLines (ls ++ [l]) = joinLines ls ++ (l ++ "\n") := by
  induction ls with
  | nil => simp [joinLines]
  | cons k ls ih =>
    change k ++ "\n" ++ joinLines (ls ++ [l]) = k ++ "\n" ++ joinLines ls ++ (l ++ "\n")
    simp only [ih, String.append_assoc]

/-- A line that is read back as it was written. -/
def IsLine (l : String) : Prop := '\n' ∉ l.toList ∧ l.toList.getLast? ≠ some '\r'

instance (l : String) : Decidable (IsLine l) := inferInstanceAs (Decidable (_ ∧ _))

theorem lines_joinLines_eq_map {ls : List String} (h : ∀ l ∈ ls, '\n' ∉ l.toList) :
    lines (joinLines ls) = ls.map withoutCr := by
  induction ls with
  | nil => rfl
  | cons l ls ih =>
    exact (lines_append_lf l _ (h l (mem_cons_self ..))).trans
      (congrArg _ (ih fun k hk => h k (mem_cons_of_mem _ hk)))

theorem lines_joinLines {ls : List String} (h : ∀ l ∈ ls, IsLine l) :
    lines (joinLines ls) = ls := by
  rw [lines_joinLines_eq_map fun l hl => (h l hl).1,
    map_congr_left fun l hl => withoutCr_eq_self (h l hl).2, map_id']

theorem withoutCr_ne_empty (h : trim l ≠ "") : withoutCr l ≠ "" := by
  intro hempty
  have hcs : stripCr l.toList.reverse = [] := by
    simpa [withoutCr] using congrArg String.toList hempty
  unfold stripCr at hcs
  split at hcs
  next cs hl =>
    subst hcs
    have hcr : l = "\r" := by
      rw [← String.ofList_toList (s := l), ← reverse_reverse l.toList, hl]
      rfl
    exact h (by rw [hcr]; decide)
  next =>
    have hnil : l = "" := by
      rw [← String.ofList_toList (s := l), reverse_eq_nil_iff.mp hcs]
    exact h (by rw [hnil]; rfl)

theorem trim_ne_empty (hmem : c ∈ s.toList) (hc : isWhitespace c = false) : trim s ≠ "" := by
  intro h
  have chars := congrArg String.toList h
  rw [trim, String.toList_ofList, String.toList_empty, reverse_eq_nil_iff,
    dropWhile_eq_nil_iff] at chars
  rw [← takeWhile_append_dropWhile (p := isWhitespace) (l := s.toList)] at hmem
  rcases mem_append.mp hmem with hmem | hmem
  · exact Bool.false_ne_true (hc.symm.trans (mem_takeWhile_imp hmem))
  · exact Bool.false_ne_true (hc.symm.trans (chars c (mem_reverse.mpr hmem)))

/-! ## Keys, suffixes and white space -/

theorem prefix_append_cons_iff {α : Type*} {p a r : List α} {c : α} (hc : c ∉ p) :
    p <+: a ++ c :: r ↔ p <+: a := by
  induction p generalizing a with
  | nil => simp
  | cons x xs ih =>
    rw [mem_cons, not_or] at hc
    cases a with
    | nil => simpa using fun h => absurd h.symm hc.1
    | cons y ys => simp [cons_prefix_cons, ih hc.2]

theorem concat_prefix_append_cons_iff {α : Type*} {k a r : List α} {c : α} (hk : c ∉ k)
    (ha : c ∉ a) : k ++ [c] <+: a ++ c :: r ↔ k = a := by
  induction k generalizing a with
  | nil =>
    cases a with
    | nil => simp
    | cons y ys => simpa using fun h : c = y => absurd (h ▸ mem_cons_self) ha
  | cons x xs ih =>
    rw [mem_cons, not_or] at hk
    cases a with
    | nil => simpa using fun h => absurd h.symm hk.1
    | cons y ys =>
      rw [mem_cons, not_or] at ha
      simp [cons_prefix_cons, ih hk.2 ha.2]

theorem startsWith_append_of_notMem {pre : String} (hc : c ∉ pre.toList) (rest : String) :
    startsWith (s ++ (String.singleton c ++ rest)) pre = startsWith s pre := by
  rw [Bool.eq_iff_iff, startsWith, startsWith, isPrefixOf_iff_prefix,
    isPrefixOf_iff_prefix, String.toList_append, String.toList_append,
    String.toList_singleton, singleton_append]
  exact prefix_append_cons_iff hc

/-- A key and its separator are a prefix of no text but one with this key. -/
theorem startsWith_key_iff {key rest : String} (hk : c ∉ key.toList) (hs : c ∉ s.toList) :
    startsWith (s ++ (String.singleton c ++ rest)) (key ++ String.singleton c) = true ↔
      key = s := by
  rw [startsWith, isPrefixOf_iff_prefix, String.toList_append, String.toList_append,
    String.toList_append, String.toList_singleton, singleton_append,
    concat_prefix_append_cons_iff hk hs, String.toList_inj]

/-- A key with a colon is at the front of a text exactly if it is the key of the text. -/
theorem startsWith_keyed {spec rest : String} (k : String) (hk : ':' ∉ k.toList)
    (hspec : ':' ∉ spec.toList) :
    startsWith (spec ++ (":" ++ rest)) (k ++ ":") = decide (k = spec) := by
  rw [Bool.eq_iff_iff, decide_eq_true_iff, show ":" = String.singleton ':' from rfl]
  exact startsWith_key_iff hk hspec

theorem stripPrefix_append (pre rest : String) : stripPrefix (pre ++ rest) pre = some rest := by
  simp [stripPrefix, startsWith_append]

theorem stripPrefix_eq_none {pre : String} (h : startsWith s pre = false) :
    stripPrefix s pre = none := by
  simp [stripPrefix, h]

theorem splitOnce_append {sep : Char} {rest : String} (h : sep ∉ s.toList) :
    splitOnce sep (s ++ (String.singleton sep ++ rest)) = some (s, rest) := by
  have hall : ∀ c ∈ s.toList, decide (c ≠ sep) = true := by
    intro c hc
    simp [ne_of_mem_of_not_mem hc h]
  have hlist : (s ++ (String.singleton sep ++ rest)).toList = s.toList ++ sep :: rest.toList := by
    simp
  rw [splitOnce, hlist, dropWhile_append_of_pos hall, takeWhile_append_of_pos hall]
  simp

theorem endsWith_append_of_le (h : suf.toList.length ≤ s.toList.length) (rest : String) :
    endsWith (rest ++ s) suf = endsWith s suf := by
  rw [Bool.eq_iff_iff, endsWith, endsWith, isSuffixOf_iff_suffix,
    isSuffixOf_iff_suffix, String.toList_append]
  constructor
  · exact fun hsuf => suffix_of_suffix_length_le hsuf (suffix_append _ _) h
  · exact fun hsuf => hsuf.trans (suffix_append _ _)

theorem endsWith_of_endsWith_append {rest : String} (h : s.toList.length ≤ suf.toList.length)
    (hends : endsWith (rest ++ s) suf = true) : endsWith suf s = true := by
  rw [endsWith, isSuffixOf_iff_suffix, String.toList_append] at hends
  rw [endsWith, isSuffixOf_iff_suffix]
  exact suffix_of_suffix_length_le (suffix_append _ _) hends h

theorem endsWith_eq_false_of_notMem (hc : c ∈ suf.toList) (h : c ∉ s.toList) :
    endsWith s suf = false := by
  rw [← Bool.not_eq_true, endsWith, isSuffixOf_iff_suffix]
  exact fun hsuf => h (hsuf.subset hc)

theorem stripSuffix_append (s suf : String) : stripSuffix (s ++ suf) suf = some s := by
  have hends : endsWith (s ++ suf) suf = true := by
    rw [endsWith, isSuffixOf_iff_suffix, String.toList_append]
    exact suffix_append _ _
  simp [stripSuffix, hends]

theorem stripSuffix_eq_none (h : endsWith s suf = false) : stripSuffix s suf = none := by
  simp [stripSuffix, h]

theorem dropWhile_eq_self_iff_head? {α : Type*} {p : α → Bool} {l : List α} :
    l.dropWhile p = l ↔ ∀ c ∈ l.head?, p c = false := by
  cases l with
  | nil => simp
  | cons x xs =>
    rw [dropWhile_cons]
    cases hx : p x with
    | false => simp [hx]
    | true =>
      simp only [if_true, head?_cons, Option.mem_def, Option.some.injEq, forall_eq', hx,
        Bool.true_eq_false, iff_false]
      intro h
      have hlen := (dropWhile_suffix (l := xs) p).length_le
      rw [h] at hlen
      simp only [length_cons] at hlen
      omega

theorem trim_eq_self_iff :
    trim s = s ↔ (∀ c ∈ s.toList.head?, isWhitespace c = false) ∧
      ∀ c ∈ s.toList.getLast?, isWhitespace c = false := by
  rw [← head?_reverse, ← dropWhile_eq_self_iff_head?, ← dropWhile_eq_self_iff_head?, trim,
    ← String.toList_inj, String.toList_ofList]
  constructor
  · intro h
    have hstart : s.toList.dropWhile isWhitespace = s.toList := by
      refine (dropWhile_suffix _).eq_of_length (le_antisymm ?_ ?_)
      · exact (dropWhile_suffix _).length_le
      · have hlen := (dropWhile_suffix (l := (s.toList.dropWhile isWhitespace).reverse)
          isWhitespace).length_le
        rw [← length_reverse, h, length_reverse] at hlen
        exact hlen
    rw [hstart] at h
    exact ⟨hstart, by rw [← reverse_inj, h, reverse_reverse]⟩
  · rintro ⟨hstart, hend⟩
    rw [hstart, hend, reverse_reverse]

theorem trim_append_of_blank {gap : String} (h : ∀ c ∈ gap.toList, isWhitespace c = true) :
    trim (gap ++ s) = trim s := by
  rw [trim, trim, String.toList_append, dropWhile_append_of_pos h]

theorem startsWith_eq_false_of_startsWith {p q : String} (hp : startsWith s p = true)
    (hpq : startsWith p q = false) (hqp : startsWith q p = false) : startsWith s q = false := by
  simp only [startsWith, isPrefixOf_iff_prefix, ← Bool.not_eq_true] at *
  intro hq
  rcases prefix_or_prefix_of_prefix hp hq with h | h
  · exact hqp h
  · exact hpq h

theorem startsWith_of_startsWith_trimEndMatches {p : Char → Bool} {word : String}
    (h : startsWith (trimEndMatches p s) word = true) : startsWith s word = true := by
  simp only [startsWith, isPrefixOf_iff_prefix, trimEndMatches, String.toList_ofList] at *
  refine h.trans ?_
  rw [← reverse_suffix, reverse_reverse]
  exact dropWhile_suffix p

theorem trimEndMatches_append_singleton (h : c ∉ s.toList) :
    trimEndMatches (· = c) (s ++ String.singleton c) = s := by
  have hkeep : s.toList.reverse.dropWhile (· = c) = s.toList.reverse := by
    rw [dropWhile_eq_self_iff_head?]
    intro d hd
    have hmem : d ∈ s.toList := mem_reverse.1 (mem_of_head? hd)
    exact decide_eq_false (by rintro rfl; exact h hmem)
  simp [trimEndMatches, hkeep]

end Text
