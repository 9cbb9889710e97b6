import Innerwarden.Lib.Text

/-!
# Globs of playbook triggers

`glob_match` of the playbook executor.  It cuts the pattern at its stars and looks
for the parts from left to right, each at the first place where it stands.
-/

namespace Innerwarden.Playbook

open List Text

/-- `text[pos..].find(part)`: what follows the first place where the part stands. -/
def skipPast (part : List Char) : List Char → Option (List Char)
  | [] => part.isPrefixOf? []
  | c :: text => (part.isPrefixOf? (c :: text)).or (skipPast part text)

/-- The turns of the loop after the first, on the text from `pos` on.  The last part is
looked for at the end only. -/
def matchParts : List (List Char) → List Char → Bool
  | [], _ => true
  | [last], text => last.isSuffixOf text
  | part :: parts, text =>
    match skipPast part text with
    | some rest => matchParts parts rest
    | none => false

/-- An empty part, which the loop passes over, stands everywhere. -/
def globMatch (pattern text : String) : Bool :=
  if '*' ∉ pattern.toList then decide (pattern = text)
  else
    match splitChars '*' pattern.toList with
    | [] => true
    | first :: parts =>
      match first.isPrefixOf? text.toList with
      | some rest => matchParts parts rest
      | none => false

/-- The text is the pattern with some string in the place of each star. -/
inductive Expands : List Char → List Char → Prop
  | nil : Expands [] []
  | char {c : Char} {p t : List Char} (hc : c ≠ '*') : Expands p t → Expands (c :: p) (c :: t)
  | star (fill : List Char) {p t : List Char} : Expands p t → Expands ('*' :: p) (fill ++ t)

theorem expands_append {a : List Char} (ha : '*' ∉ a) (p t : List Char) :
    Expands (a ++ p) t ↔ ∃ rest, t = a ++ rest ∧ Expands p rest := by
  induction a generalizing t with
  | nil => simp
  | cons c a ih =>
    obtain ⟨hc, ha⟩ := not_or.1 (mt mem_cons.2 ha)
    constructor
    · intro h
      cases h with
      | char _ h =>
        obtain ⟨rest, rfl, hrest⟩ := (ih ha _).1 h
        exact ⟨rest, rfl, hrest⟩
      | star _ _ => exact absurd rfl hc
    · rintro ⟨rest, rfl, hrest⟩
      exact .char (Ne.symm hc) ((ih ha _).2 ⟨rest, rfl, hrest⟩)

theorem expands_of_notMem {a : List Char} (ha : '*' ∉ a) (t : List Char) : Expands a t ↔ t = a := by
  have h := expands_append ha [] t
  rw [append_nil] at h
  rw [h]
  constructor
  · rintro ⟨rest, rfl, hrest⟩
    cases hrest
    exact append_nil a
  · rintro rfl
    exact ⟨[], (append_nil _).symm, .nil⟩

theorem expands_star {p t : List Char} :
    Expands ('*' :: p) t ↔ ∃ fill rest, t = fill ++ rest ∧ Expands p rest := by
  constructor
  · intro h
    cases h with
    | char hc _ => exact absurd rfl hc
    | star fill h => exact ⟨fill, _, rfl, h⟩
  · rintro ⟨fill, rest, rfl, h⟩
    exact .star fill h

theorem skipPast_sound {part text rest : List Char} (h : skipPast part text = some rest) :
    ∃ fill, text = fill ++ (part ++ rest) := by
  induction text with
  | nil => exact ⟨[], (isPrefixOf?_eq_some_iff_append_eq.1 h).symm⟩
  | cons c text ih =>
    rw [skipPast] at h
    cases hpre : part.isPrefixOf? (c :: text) with
    | some r =>
      rw [hpre] at h
      cases h
      exact ⟨[], (isPrefixOf?_eq_some_iff_append_eq.1 hpre).symm⟩
    | none =>
      rw [hpre] at h
      obtain ⟨fill, rfl⟩ := ih h
      exact ⟨c :: fill, rfl⟩

/-- Every other place where the part stands has less text behind it. -/
theorem skipPast_first {part rest : List Char} (fill : List Char) :
    ∃ r, skipPast part (fill ++ (part ++ rest)) = some r ∧ rest <:+ r := by
  have here : ∀ text r, part.isPrefixOf? text = some r → part ++ rest <:+ text → rest <:+ r := by
    intro text r hpre hsuf
    obtain rfl := isPrefixOf?_eq_some_iff_append_eq.1 hpre
    have hlen := hsuf.length_le
    rw [length_append, length_append] at hlen
    exact suffix_of_suffix_length_le ((suffix_append ..).trans hsuf) (suffix_append ..) (by omega)
  induction fill with
  | nil =>
    have hpre : part.isPrefixOf? (part ++ rest) = some rest :=
      isPrefixOf?_eq_some_iff_append_eq.2 rfl
    refine ⟨rest, ?_, suffix_refl _⟩
    cases htext : part ++ rest with
    | nil => rw [nil_append, skipPast, ← htext, hpre]
    | cons c text => rw [nil_append, skipPast, ← htext, hpre, Option.some_or]
  | cons c fill ih =>
    rw [cons_append, skipPast]
    cases hpre : part.isPrefixOf? (c :: (fill ++ (part ++ rest))) with
    | some r => exact ⟨r, rfl, here _ r hpre (suffix_append (c :: fill) _)⟩
    | none => exact ih

/-- Taking the first place is no loss, since the next star takes the text that is left over. -/
theorem matchParts_iff (p text : List Char) :
    matchParts (splitChars '*' p) text = true ↔ Expands ('*' :: p) text := by
  rw [expands_star]
  by_cases hstar : '*' ∈ p
  · obtain ⟨part, q, hp, hpart⟩ := eq_append_cons_of_mem hstar
    rw [hp, splitChars_append_cons, splitChars_of_notMem hpart, singleton_append, matchParts]
    · simp only [expands_append hpart]
      constructor
      · intro h
        cases hskip : skipPast part text with
        | none => rw [hskip] at h; cases h
        | some rest =>
          rw [hskip] at h
          obtain ⟨fill, rfl⟩ := skipPast_sound hskip
          exact ⟨fill, _, rfl, rest, rfl, (matchParts_iff q rest).1 h⟩
      · rintro ⟨fill, _, rfl, rest, rfl, h⟩
        obtain ⟨_, hskip, pre, rfl⟩ := @skipPast_first part rest fill
        obtain ⟨fill', rest', rfl, h'⟩ := expands_star.1 h
        rw [hskip]
        refine (matchParts_iff q _).2 ?_
        rw [← append_assoc]
        exact .star _ h'
    · exact fun h => splitChars_ne_nil _ _ h
  · rw [splitChars_of_notMem hstar, matchParts, isSuffixOf_iff_suffix]
    simp only [expands_of_notMem hstar]
    exact ⟨fun ⟨fill, h⟩ => ⟨fill, p, h.symm, rfl⟩, fun ⟨fill, _, h, hp⟩ => ⟨fill, hp ▸ h.symm⟩⟩
termination_by p.length
decreasing_by all_goals rw [hp, length_append, length_cons]; omega

theorem globMatch_iff_expands (pattern text : String) :
    globMatch pattern text = true ↔ Expands pattern.toList text.toList := by
  rw [globMatch]
  split
  case isTrue hstar =>
    rw [decide_eq_true_iff, expands_of_notMem hstar, String.toList_inj]
    exact eq_comm
  case isFalse hstar =>
    obtain ⟨first, p, hp, hfirst⟩ := eq_append_cons_of_mem (not_not.1 hstar)
    rw [hp, splitChars_append_cons, splitChars_of_notMem hfirst, singleton_append,
      expands_append hfirst]
    constructor
    · intro h
      cases hpre : first.isPrefixOf? text.toList with
      | none => simp only [hpre] at h; cases h
      | some rest =>
        simp only [hpre] at h
        exact ⟨rest, (isPrefixOf?_eq_some_iff_append_eq.1 hpre).symm, (matchParts_iff p rest).1 h⟩
    · rintro ⟨rest, htext, h⟩
      simp only [isPrefixOf?_eq_some_iff_append_eq.2 htext.symm]
      exact (matchParts_iff p rest).2 h

end Innerwarden.Playbook
