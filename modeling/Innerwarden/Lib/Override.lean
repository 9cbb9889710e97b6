import Mathlib.Data.List.Induction
import Mathlib.Data.List.Nodup

/-!
# Definitions that override each other

Definitions come in order, each with a key, and the last one of a key decides.  A table that is
filled by `mergeBy` holds the last entry of each key.  If definitions are sorted out before, it
holds the last one that was not.  `mem_mergeBy_iff_effective` says when that is the one that
decides.
-/

namespace Override

open List Option

variable {α δ κ : Type*}

/-! ## The last element with a property -/

def last? (p : δ → Bool) (ds : List δ) : Option δ := ds.reverse.find? p

variable {p q : δ → Bool} {ds : List δ} {d : δ}

theorem last?_concat : last? p (ds ++ [d]) = if p d then some d else last? p ds := by
  rw [last?, reverse_concat, find?_cons]
  cases p d <;> rfl

theorem last?_append_of_none {es : List δ} (h : ∀ d ∈ es, p d = false) :
    last? p (ds ++ es) = last? p ds := by
  have hes : es.reverse.find? p = none := by simpa using h
  rw [last?, reverse_append, find?_append, hes, none_or, last?]

theorem last?_mem (h : last? p ds = some d) : d ∈ ds :=
  mem_reverse.mp (mem_of_find?_eq_some h)

theorem last?_test (h : last? p ds = some d) : p d = true := find?_some h

theorem last?_eq_none_iff : last? p ds = none ↔ ∀ d ∈ ds, p d = false := by
  simp [last?]

theorem exists_last?_of_mem (hmem : d ∈ ds) (hd : p d = true) : ∃ e, last? p ds = some e := by
  cases h : last? p ds with
  | some e => exact ⟨e, rfl⟩
  | none =>
    rw [last?_eq_none_iff.mp h d hmem] at hd
    nomatch hd

theorem last?_of_imp (himp : ∀ d, p d = true → q d = true) (h : last? q ds = some d)
    (hd : p d = true) : last? p ds = some d := by
  induction ds using List.reverseRecOn with
  | nil => nomatch h
  | append_singleton ds e ih =>
    rw [last?_concat] at h ⊢
    cases hq : q e with
    | true =>
      rw [if_pos hq] at h
      cases h
      exact if_pos hd
    | false =>
      rw [if_neg (by simp [hq])] at h
      have hp : ¬p e = true := fun hp => by rw [himp e hp] at hq; nomatch hq
      rw [if_neg hp]
      exact ih h

/-! ## Merging by key -/

variable [DecidableEq κ]

def insertBy (key : α → κ) (as : List α) (a : α) : List α :=
  as.filter (fun b => key b ≠ key a) ++ [a]

def mergeBy (key : α → κ) (as : List α) : List α := as.foldl (insertBy key) []

variable {key : α → κ} {as : List α} {a : α}

theorem mergeBy_concat : mergeBy key (as ++ [a]) = insertBy key (mergeBy key as) a := by
  rw [mergeBy, foldl_append, mergeBy]
  rfl

theorem mem_mergeBy_iff : a ∈ mergeBy key as ↔ last? (fun b => key b = key a) as = some a := by
  induction as using List.reverseRecOn with
  | nil => simp [mergeBy, last?]
  | append_singleton as b ih =>
    rw [mergeBy_concat, last?_concat, insertBy, mem_append, mem_singleton]
    by_cases hkey : key b = key a
    · rw [if_pos (by simpa using hkey), Option.some.injEq]
      constructor
      · rintro (h | rfl)
        · exact absurd hkey.symm (by simpa using (mem_filter.mp h).2)
        · rfl
      · rintro rfl
        exact .inr rfl
    · rw [if_neg (by simpa using hkey), ← ih]
      constructor
      · rintro (h | rfl)
        · exact (mem_filter.mp h).1
        · exact absurd rfl hkey
      · intro h
        exact .inl (mem_filter.mpr ⟨h, by simpa using Ne.symm hkey⟩)

theorem mergeBy_keys_nodup (key : α → κ) (as : List α) : ((mergeBy key as).map key).Nodup := by
  induction as using List.reverseRecOn with
  | nil => exact nodup_nil
  | append_singleton as b ih =>
    rw [mergeBy_concat, insertBy, map_append, nodup_append]
    refine ⟨ih.sublist ((filter_sublist).map key), nodup_singleton _, ?_⟩
    intro k hk k' hk'
    obtain ⟨c, hc, rfl⟩ := mem_map.mp hk
    rw [map_singleton, mem_singleton] at hk'
    subst hk'
    simpa using (mem_filter.mp hc).2

/-! ## Definitions that stand for an entry or for none -/

section Effective

variable (keyOf : δ → κ) (wellFormed : δ → Bool) (live : δ → Option α) (ds : List δ)

/-- What a key stands for: the last well-formed definition decides. -/
def effective (k : κ) : Option α :=
  (last? (fun d => keyOf d = k && wellFormed d) ds).bind live

variable {keyOf wellFormed live ds}

theorem mem_mergeBy_filterMap_iff (hkey : ∀ d a, live d = some a → key a = keyOf d) :
    a ∈ mergeBy key (ds.filterMap live) ↔
      (last? (fun d => keyOf d = key a && (live d).isSome) ds).bind live = some a := by
  rw [mem_mergeBy_iff]
  induction ds using List.reverseRecOn with
  | nil => simp [last?]
  | append_singleton ds d ih =>
    rw [filterMap_append, last?_concat]
    cases hd : live d with
    | none => simpa [hd] using ih
    | some b =>
      have hb := hkey d b hd
      rw [filterMap_cons_some hd, filterMap_nil, last?_concat]
      by_cases hba : key b = key a
      · simp [hba, ← hb, hd]
      · rw [if_neg (by simpa using hba), if_neg (by simp [← hb, hba]), ih]

theorem mem_mergeBy_append_iff (hkey : ∀ d a, live d = some a → key a = keyOf d) {es : List δ}
    (hes : ∀ d ∈ es, keyOf d ≠ key a) :
    a ∈ mergeBy key ((ds ++ es).filterMap live) ↔ a ∈ mergeBy key (ds.filterMap live) := by
  rw [mem_mergeBy_filterMap_iff hkey, mem_mergeBy_filterMap_iff hkey, last?_append_of_none]
  intro d hd
  simp [hes d hd]

/-- The merged table is what the keys stand for just when no key has an entry although its
last well-formed definition stands for none. -/
theorem mem_mergeBy_iff_effective (hkey : ∀ d a, live d = some a → key a = keyOf d)
    (hwell : ∀ d a, live d = some a → wellFormed d = true) :
    (∀ a, a ∈ mergeBy key (ds.filterMap live) ↔
        effective keyOf wellFormed live ds (key a) = some a) ↔
      ∀ k d, last? (fun d => keyOf d = k && wellFormed d) ds = some d → live d = none →
        ∀ e ∈ ds, keyOf e = k → live e = none := by
  have himp : ∀ k d, (keyOf d = k && (live d).isSome) = true →
      (keyOf d = k && wellFormed d) = true := by
    intro k d h
    obtain ⟨hk, hlive⟩ := Bool.and_eq_true_iff.mp h
    obtain ⟨a, ha⟩ := isSome_iff_exists.mp hlive
    exact Bool.and_eq_true_iff.mpr ⟨hk, hwell d a ha⟩
  constructor
  · intro h k d hlast hnone e hmem hk
    cases he : live e with
    | none => rfl
    | some a =>
      -- the last entry of the key is in the table, though the key stands for none
      obtain ⟨e', he'⟩ := exists_last?_of_mem (p := fun d => keyOf d = k && (live d).isSome)
        hmem (by simp [hk, he])
      have htest : keyOf e' = k ∧ (live e').isSome = true := by simpa using last?_test he'
      obtain ⟨b, hb⟩ := isSome_iff_exists.mp htest.2
      have hbk : key b = k := (hkey e' b hb).trans htest.1
      have hb' : b ∈ mergeBy key (ds.filterMap live) :=
        (mem_mergeBy_filterMap_iff hkey).mpr (by rw [hbk, he']; exact hb)
      have heff := (h b).mp hb'
      rw [effective, hbk, hlast, bind_some, hnone] at heff
      nomatch heff
  · intro h a
    rw [mem_mergeBy_filterMap_iff hkey, effective]
    cases hlast : last? (fun d => keyOf d = key a && wellFormed d) ds with
    | none =>
      have hnone : last? (fun d => keyOf d = key a && (live d).isSome) ds = none := by
        refine last?_eq_none_iff.mpr fun d hmem => Bool.eq_false_iff.mpr fun hd => ?_
        exact Bool.eq_false_iff.mp (last?_eq_none_iff.mp hlast d hmem) (himp _ d hd)
      rw [hnone]
    | some d =>
      have htest : keyOf d = key a ∧ wellFormed d = true := by simpa using last?_test hlast
      cases hd : live d with
      | none =>
        have hnone : last? (fun d => keyOf d = key a && (live d).isSome) ds = none := by
          refine last?_eq_none_iff.mpr fun e hmem => Bool.eq_false_iff.mpr fun he => ?_
          obtain ⟨hk, hlive⟩ := Bool.and_eq_true_iff.mp he
          rw [h _ d hlast hd e hmem (by simpa using hk)] at hlive
          nomatch hlive
        simp [hnone, hd]
      | some b => rw [last?_of_imp (himp _) hlast (by simp [htest.1, hd])]

end Effective

end Override
