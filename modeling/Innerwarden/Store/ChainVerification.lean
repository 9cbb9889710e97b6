import Mathlib.Order.Bounds.Basic
import Innerwarden.Store.Decisions

/-!
# What the chain verifier accepts

`verifyRows` threads an anchor through the rows and returns at the first row that fails.  The
anchor is always the hash stored by the row before (`HashChain.anchor`), so the loop decides
whether every row outside the documented ranges is *sound*: it names the row before it and
carries its own hash.  `verifyRows_cases` says everything the loop can do.
-/

namespace Innerwarden

open HashChain List Decisions

variable (sha256 : ByteArray → Digest)

/-- A registered break covers the id. -/
def ChainBreakAudit.Covers (a : ChainBreakAudit) (id : Int) : Prop :=
  ∃ b ∈ a.records, b.rowidStart ≤ id ∧ id ≤ b.rowidEnd

instance (a : ChainBreakAudit) (id : Int) : Decidable (a.Covers id) :=
  decidable_of_iff _ (inBreak_breaks a id)

variable {r : StoredDecision} {breaks : List (Int × Int)} {t : Decisions}
  {pre post : List StoredDecision} (a : ChainBreakAudit)

theorem inBreak_eq_decide (id : Int) : inBreak a.breaks id = decide (a.Covers id) := by
  rw [Bool.eq_iff_iff, decide_eq_true_iff]
  exact inBreak_breaks a id

/-- A row that names `p` as its predecessor's hash and stores its own hash. -/
def SoundAfter (p : Option String) (r : StoredDecision) : Prop :=
  r.prevHash = p ∧ r.rowHash = computeHash sha256 r.prevHash r.data

abbrev rowAnchor (p : Option String) (rows : List StoredDecision) : Option String :=
  anchor StoredDecision.rowHash p rows

/-- The rows pass, starting from the anchor `p`: each one is sound or covered. -/
def Passes (breaks : List (Int × Int)) : Option String → List StoredDecision → Prop
  | _, [] => True
  | p, r :: rs => (inBreak breaks r.id = false → SoundAfter sha256 p r) ∧
      Passes breaks (some r.rowHash) rs

/-! ## The loop -/

/-- A row that is covered or sound is counted, and its stored hash is the new anchor. -/
theorem verifyRows_passed {p : Option String}
    (h : inBreak breaks r.id = false → SoundAfter sha256 p r) (v d : Nat)
    (rs : List StoredDecision) :
    verifyRows sha256 breaks p v d (r :: rs) =
      verifyRows sha256 breaks (some r.rowHash) (v + (!inBreak breaks r.id).toNat)
        (d + (inBreak breaks r.id).toNat) rs := by
  cases hb : inBreak breaks r.id with
  | true => simp [verifyRows, hb]
  | false =>
    obtain ⟨hp, hh⟩ := h hb
    rw [hp] at hh
    simp [verifyRows, hb, hp, ← hh]

theorem verifyRows_failed {p : Option String} (hb : inBreak breaks r.id = false)
    (hs : ¬ SoundAfter sha256 p r) (v d : Nat) (rs : List StoredDecision) :
    verifyRows sha256 breaks p v d (r :: rs) = ⟨v, some r.id, false, d⟩ := by
  by_cases hp : r.prevHash = p
  · have hh : r.rowHash ≠ computeHash sha256 p r.data := fun e => hs ⟨hp, hp ▸ e⟩
    simp [verifyRows, hb, hp, hh]
  · simp [verifyRows, hb, hp]

/-- The verifier passes all rows, or stops at the first row outside the ranges
that is not sound.  Its counters count the rows before that point. -/
theorem verifyRows_cases (breaks : List (Int × Int)) (rs : List StoredDecision)
    (p : Option String) (v d : Nat) :
    (Passes sha256 breaks p rs ∧ verifyRows sha256 breaks p v d rs =
      ⟨v + rs.countP (fun q => !inBreak breaks q.id), none, true,
        d + rs.countP (fun q => inBreak breaks q.id)⟩) ∨
    (∃ pre r post, rs = pre ++ r :: post ∧ Passes sha256 breaks p pre ∧
      inBreak breaks r.id = false ∧ ¬ SoundAfter sha256 (rowAnchor p pre) r ∧
      verifyRows sha256 breaks p v d rs =
        ⟨v + pre.countP (fun q => !inBreak breaks q.id), some r.id, false,
          d + pre.countP (fun q => inBreak breaks q.id)⟩) := by
  -- the induction moves the anchor and the two counters over the first row
  induction rs generalizing p v d with
  | nil => exact Or.inl ⟨trivial, by simp [verifyRows]⟩
  | cons r rs ih =>
    by_cases hr : inBreak breaks r.id = false → SoundAfter sha256 p r
    · rw [verifyRows_passed sha256 hr]
      rcases ih (some r.rowHash) _ _ with ⟨hp, he⟩ | ⟨pre, q, post, hrs, hp, hq, hs, he⟩
      · refine Or.inl ⟨⟨hr, hp⟩, ?_⟩
        rw [he]
        cases hb : inBreak breaks r.id <;> simp [hb] <;> omega
      · refine Or.inr ⟨r :: pre, q, post, by rw [hrs]; rfl, ⟨hr, hp⟩, hq, hs, ?_⟩
        rw [he]
        cases hb : inBreak breaks r.id <;> simp [hb] <;> omega
    · obtain ⟨hb, hs⟩ := Classical.not_imp.mp hr
      exact Or.inr ⟨[], r, rs, rfl, trivial, hb, hs, verifyRows_failed sha256 hb hs v d rs⟩

theorem passes_iff (breaks : List (Int × Int)) (rs : List StoredDecision) (p : Option String) :
    Passes sha256 breaks p rs ↔ ∀ pre r post, rs = pre ++ r :: post →
      inBreak breaks r.id = false → SoundAfter sha256 (rowAnchor p pre) r := by
  induction rs generalizing p with
  | nil => simp [Passes]
  | cons q rs ih =>
    rw [Passes, ih]
    constructor
    · rintro ⟨hq, hrs⟩ pre r post he hb
      cases pre with
      | nil =>
        obtain ⟨rfl, rfl⟩ := List.cons.inj he
        exact hq hb
      | cons x pre =>
        obtain ⟨rfl, htail⟩ := List.cons.inj he
        exact hrs pre r post htail hb
    · intro h
      exact ⟨h [] q rs rfl, fun pre r post he => h (q :: pre) r post (by rw [he]; rfl)⟩

/-- The verifier reports the chain intact exactly when all rows pass. -/
theorem verifyHashChain_intact_iff (t : Decisions) :
    (verifyHashChain sha256 a t).intact = true ↔ Passes sha256 a.breaks none t.rows := by
  unfold verifyHashChain
  rcases verifyRows_cases sha256 a.breaks t.rows none 0 0 with
    ⟨hp, he⟩ | ⟨pre, r, post, hrs, -, hb, hs, he⟩
  · simp [he, hp]
  · rw [he]
    simp only [Bool.false_eq_true, false_iff]
    intro hp
    exact hs ((passes_iff sha256 _ _ _).mp hp pre r post hrs hb)

theorem verifyHashChain_brokenAt_eq_none_iff (t : Decisions) :
    (verifyHashChain sha256 a t).brokenAt = none ↔ (verifyHashChain sha256 a t).intact = true := by
  unfold verifyHashChain
  rcases verifyRows_cases sha256 a.breaks t.rows none 0 0 with
    ⟨-, he⟩ | ⟨pre, r, post, -, -, -, -, he⟩
  · simp [he]
  · simp [he]

/-! ## The specification over the table -/

/-- The row immediately before `r` in id order. -/
def Decisions.rowBefore (t : Decisions) (r : StoredDecision) : Option StoredDecision :=
  (t.rows.filter fun q => q.id < r.id).getLast?

/-- The row names the row immediately before it, and stores its own hash. -/
def Decisions.Sound (t : Decisions) (r : StoredDecision) : Prop :=
  r.prevHash = (t.rowBefore r).map StoredDecision.rowHash ∧
    r.rowHash = computeHash sha256 r.prevHash r.data

theorem Decisions.filter_id_lt (h : t.rows = pre ++ r :: post) :
    (t.rows.filter fun q => q.id < r.id) = pre := by
  obtain ⟨before, after⟩ := ids_around h
  have from_r : ∀ q ∈ r :: post, ¬ q.id < r.id := by
    intro q hq
    rcases mem_cons.mp hq with rfl | hq
    · exact Int.lt_irrefl _
    · exact Int.not_lt.mpr (Int.le_of_lt (after q hq))
  rw [h, filter_append, filter_eq_self.mpr (by simpa using before),
    filter_eq_nil_iff.mpr (by simpa using from_r), append_nil]

theorem Decisions.sound_iff (h : t.rows = pre ++ r :: post) :
    t.Sound sha256 r ↔ SoundAfter sha256 (rowAnchor none pre) r := by
  rw [Sound, SoundAfter, rowBefore, filter_id_lt h, rowAnchor, anchor_none]

theorem Decisions.countP_id_lt (h : t.rows = pre ++ r :: post) (p : StoredDecision → Bool) :
    pre.countP p = t.rows.countP fun q => decide (q.id < r.id) && p q := by
  simp only [Bool.and_comm (decide _)]
  rw [← countP_filter, filter_id_lt h]

def Decisions.Broken (a : ChainBreakAudit) (t : Decisions) : Set StoredDecision :=
  {r | r ∈ t.rows ∧ ¬ a.Covers r.id ∧ ¬ t.Sound sha256 r}

/-- The verifier decides the whole-table statement.  On a failure it names the
least undocumented row that is not sound, and its counters are the numbers of
undocumented and of documented rows with a smaller id. -/
theorem verifyHashChain_spec (a : ChainBreakAudit) (t : Decisions) :
    ((verifyHashChain sha256 a t).intact = true ↔
      ∀ r ∈ t.rows, ¬ a.Covers r.id → t.Sound sha256 r) ∧
    ((verifyHashChain sha256 a t).intact = false →
      ∃ i, (verifyHashChain sha256 a t).brokenAt = some i ∧
        IsLeast (StoredDecision.id '' t.Broken sha256 a) i ∧
        (verifyHashChain sha256 a t).verified =
          t.rows.countP (fun q => decide (q.id < i) && !decide (a.Covers q.id)) ∧
        (verifyHashChain sha256 a t).documentedBreaks =
          t.rows.countP (fun q => decide (q.id < i) && decide (a.Covers q.id))) := by
  have undocumented : ∀ id, inBreak a.breaks id = false ↔ ¬ a.Covers id := by
    intro id
    rw [inBreak_eq_decide, decide_eq_false_iff_not]
  constructor
  · rw [verifyHashChain_intact_iff, passes_iff]
    constructor
    · intro h r hr hc
      obtain ⟨pre, post, hrs⟩ := append_of_mem hr
      exact (sound_iff sha256 hrs).mpr (h pre r post hrs ((undocumented r.id).mpr hc))
    · intro h pre r post hrs hb
      have hr : r ∈ t.rows := hrs ▸ mem_append_right _ (mem_cons_self ..)
      exact (sound_iff sha256 hrs).mp (h r hr ((undocumented r.id).mp hb))
  · intro hbroken
    unfold verifyHashChain at hbroken ⊢
    rcases verifyRows_cases sha256 a.breaks t.rows none 0 0 with
      ⟨-, he⟩ | ⟨pre, r, post, hrs, hpre, hb, hs, he⟩
    · rw [he] at hbroken
      cases hbroken
    · rw [he]
      have hr : r ∈ t.rows := hrs ▸ mem_append_right _ (mem_cons_self ..)
      refine ⟨r.id, rfl, ⟨⟨r, ⟨hr, (undocumented r.id).mp hb,
        fun h => hs ((sound_iff sha256 hrs).mp h)⟩, rfl⟩, ?_⟩, ?_, ?_⟩
      · -- a broken row with a smaller id would be one of the rows that passed
        rintro _ ⟨q, ⟨hq, hc, hsound⟩, rfl⟩
        by_contra hlt
        have hmem : q ∈ t.rows.filter fun q => q.id < r.id :=
          mem_filter.mpr ⟨hq, by simpa using hlt⟩
        rw [filter_id_lt hrs] at hmem
        obtain ⟨pre', post', hpre'⟩ := append_of_mem hmem
        have split : t.rows = pre' ++ q :: (post' ++ r :: post) := by
          rw [hrs, hpre', append_assoc, cons_append]
        have passed := (passes_iff sha256 _ _ _).mp hpre pre' q post' hpre'
          ((undocumented q.id).mpr hc)
        exact hsound ((sound_iff sha256 split).mpr passed)
      · simp only [Nat.zero_add, inBreak_eq_decide]
        exact countP_id_lt hrs _
      · simp only [Nat.zero_add, inBreak_eq_decide]
        exact countP_id_lt hrs _

/-! ## Without documented breaks -/

theorem passes_empty_iff (p : Option String) (rs : List StoredDecision) :
    Passes sha256 ChainBreakAudit.empty.breaks p rs ↔
      Linked StoredDecision.prevHash StoredDecision.rowHash p rs ∧
        ∀ r ∈ rs, r.rowHash = computeHash sha256 r.prevHash r.data := by
  induction rs generalizing p with
  | nil => simp [Passes, Linked]
  | cons r rs ih =>
    simp only [Passes, inBreak_empty, forall_const, SoundAfter, ih, Linked, mem_cons,
      forall_eq_or_imp]
    tauto

/-- The rows are linked and each one stores its own hash. -/
def Decisions.Chained (t : Decisions) : Prop :=
  Linked StoredDecision.prevHash StoredDecision.rowHash none t.rows ∧
    ∀ r ∈ t.rows, r.rowHash = computeHash sha256 r.prevHash r.data

/-- With no registered break the verifier accepts exactly the chained tables. -/
theorem verifyHashChain_empty_iff (t : Decisions) :
    (verifyHashChain sha256 .empty t).intact = true ↔ t.Chained sha256 := by
  rw [verifyHashChain_intact_iff, passes_empty_iff, Decisions.Chained]

theorem Decisions.Chained.passes (h : t.Chained sha256) (breaks : List (Int × Int)) :
    Passes sha256 breaks none t.rows := by
  have hp := (passes_empty_iff sha256 none t.rows).mpr h
  rw [passes_iff] at hp ⊢
  exact fun pre r post hrs _ => hp pre r post hrs rfl

theorem Decisions.chained_empty : Decisions.empty.Chained sha256 :=
  ⟨trivial, fun _ h => nomatch h⟩

theorem Decisions.Chained.insertDecision (h : t.Chained sha256) (row : DecisionRow) :
    (t.insertDecision sha256 row).1.Chained sha256 := by
  obtain ⟨hlinked, hsealed⟩ := h
  refine ⟨?_, ?_⟩
  · rw [insertDecision_rows, linked_append, anchor_none]
    exact ⟨hlinked, rfl, trivial⟩
  · intro r hr
    rcases mem_append.mp hr with hr | hr
    · exact hsealed r hr
    · rw [mem_singleton.mp hr]
      rfl

theorem Decisions.Chained.insertAll (h : t.Chained sha256) (rows : List DecisionRow) :
    (t.insertAll sha256 rows).Chained sha256 := by
  induction rows generalizing t with
  | nil => exact h
  | cons row rows ih => exact ih (h.insertDecision sha256 row)

/-! ## Later rows -/

/-- The verdict over `n` more rows: it is the same, and counts them unless there was a break. -/
def HashChainResult.Extends (before after : HashChainResult) (n : Nat) : Prop :=
  after.intact = before.intact ∧ after.brokenAt = before.brokenAt ∧
    after.verified + after.documentedBreaks =
      before.verified + before.documentedBreaks + if before.intact then n else 0

theorem verifyRows_concat (breaks : List (Int × Int)) (rs : List StoredDecision)
    (r : StoredDecision) (p : Option String) (v d : Nat) :
    let before := verifyRows sha256 breaks p v d rs
    verifyRows sha256 breaks p v d (rs ++ [r]) =
      if before.intact then
        verifyRows sha256 breaks (rowAnchor p rs) before.verified before.documentedBreaks [r]
      else before := by
  induction rs generalizing p v d with
  | nil => rfl
  | cons q rs ih =>
    rw [cons_append]
    by_cases hq : inBreak breaks q.id = false → SoundAfter sha256 p q
    · rw [verifyRows_passed sha256 hq, verifyRows_passed sha256 hq]
      exact ih ..
    · obtain ⟨hb, hs⟩ := Classical.not_imp.mp hq
      rw [verifyRows_failed sha256 hb hs, verifyRows_failed sha256 hb hs]
      rfl

theorem extends_insertDecision (t : Decisions) (row : DecisionRow) :
    (verifyHashChain sha256 a t).Extends
      (verifyHashChain sha256 a (t.insertDecision sha256 row).1) 1 := by
  let before := verifyHashChain sha256 a t
  have hafter : verifyHashChain sha256 a (t.insertDecision sha256 row).1 =
      if before.intact then verifyRows sha256 a.breaks (rowAnchor none t.rows)
        before.verified before.documentedBreaks [t.newRow sha256 row] else before :=
    verifyRows_concat sha256 a.breaks t.rows (t.newRow sha256 row) none 0 0
  have hsound : SoundAfter sha256 (rowAnchor none t.rows) (t.newRow sha256 row) :=
    ⟨(anchor_none _).symm, rfl⟩
  rw [hafter]
  cases hintact : before.intact with
  | false => exact ⟨rfl, rfl, by rw [hintact]; rfl⟩
  | true =>
    have hnone : before.brokenAt = none :=
      (verifyHashChain_brokenAt_eq_none_iff sha256 a t).mpr hintact
    rw [HashChainResult.Extends, hintact, hnone, verifyRows_passed sha256 fun _ => hsound]
    refine ⟨rfl, rfl, ?_⟩
    cases inBreak a.breaks (t.newRow sha256 row).id with
    | true => rfl
    | false => exact Nat.add_right_comm ..

/-- What the verifier says of a table it says of it after any insertions: they neither hide a
break nor cause one. -/
theorem verifyHashChain_insertAll (t : Decisions) (rows : List DecisionRow) :
    (verifyHashChain sha256 a t).Extends (verifyHashChain sha256 a (t.insertAll sha256 rows))
      rows.length := by
  induction rows generalizing t with
  | nil => exact ⟨rfl, rfl, by split <;> rfl⟩
  | cons row rows ih =>
    obtain ⟨hintact, hbroken, hcount⟩ := extends_insertDecision sha256 a t row
    obtain ⟨hintact', hbroken', hcount'⟩ := ih (t.insertDecision sha256 row).1
    refine ⟨hintact'.trans hintact, hbroken'.trans hbroken, ?_⟩
    rw [hcount, hintact] at hcount'
    refine hcount'.trans ?_
    rw [length_cons]
    split <;> omega

end Innerwarden
