import Innerwarden.Pipeline.Evaluate
import Mathlib.Data.Rat.Floor

/-!
# Decay of the scores

The score of a process decays when it is read.  `bump_pid_score` adds to the score the entry was
left with and starts its clock anew, so the decay up to a bump is lost.

The scores are exact rationals here; `agree_bump` says that the base and the clock of an entry
are those of the machine's numbers.  `reference` is the process the decay stands for.
`score_eq_reference_iff` says that the two are read alike exactly if no half lies between them.
-/

namespace Innerwarden.Pipeline

open List

/-! ## Scores over rationals -/

/-- A `PidScoreEntry` with an exact decay. -/
structure ExactEntry where
  score : UInt32
  lastBump : Nat
  decayPerMinute : ℚ

/-- A call of `bump_pid_score`. -/
structure Bump where
  pid : UInt32
  score : UInt32
  decayMinutes : UInt32
  instant : Nat

/-- The minutes from one instant to a later one, none to an earlier. -/
def minutesBetween (t t' : Nat) : ℚ := (t' - t : Nat) / 10 ^ 9 / 60

/-- `f64::round`: to the nearest integer, halves away from zero. -/
def roundHalfAway (x : ℚ) : Int := if 0 ≤ x then ⌊x + 1 / 2⌋ else ⌈x - 1 / 2⌉

def decayRate (score decayMinutes : UInt32) : ℚ :=
  if 0 < decayMinutes then score.toNat / decayMinutes.toNat else 0

def ExactEntry.decayed (entry : ExactEntry) (now : Nat) : ℚ :=
  entry.score.toNat - minutesBetween entry.lastBump now * entry.decayPerMinute

/-- `current_score` over rationals. -/
def exactScore (scores : UInt32 → Option ExactEntry) (now : Nat) (pid : UInt32) : Option UInt32 :=
  (scores pid).bind fun entry =>
    let score := UInt32.ofNat (roundHalfAway (entry.decayed now)).toNat
    if score = 0 then none else some score

/-- `bump_pid_score` over rationals, in a map that stays below its cap. -/
def exactBump (scores : UInt32 → Option ExactEntry) (b : Bump) : UInt32 → Option ExactEntry :=
  let before := ((scores b.pid).map ExactEntry.score).getD 0
  Function.update scores b.pid (some
    { score := UInt32.ofNat (min (before.toNat + b.score.toNat) 100)
      lastBump := b.instant
      decayPerMinute := decayRate b.score b.decayMinutes })

def exactScores (history : List Bump) : UInt32 → Option ExactEntry :=
  history.foldl exactBump fun _ => none

/-! ## The machine's numbers -/

/-- The scores and the exact ones have the same bases and clocks. -/
def Agree (scores : List (UInt32 × PidScoreEntry)) (exact : UInt32 → Option ExactEntry) : Prop :=
  ∀ pid, (scores.lookup pid).map (fun e => (e.score, e.lastBump)) =
    (exact pid).map fun e => (e.score, e.lastBump)

theorem lookup_eq_valueAt (scores : List (UInt32 × PidScoreEntry)) (pid : UInt32) :
    scores.lookup pid = KeyedTable.valueAt Prod.fst Prod.snd scores pid := by
  induction scores with
  | nil => rfl
  | cons e scores ih =>
    obtain ⟨p, entry⟩ := e
    rw [KeyedTable.valueAt] at ih ⊢
    by_cases hpid : p = pid
    · simp [hpid]
    · have hbeq : (pid == p) = false := by simpa using Ne.symm hpid
      simp [lookup_cons, hpid, hbeq, ih]

theorem lookup_upsert (scores : List (UInt32 × PidScoreEntry)) (pid pid' : UInt32)
    (entry : PidScoreEntry) :
    (KeyedTable.upsert Prod.fst (fun _ => (pid, entry)) (pid, entry) scores).lookup pid' =
      if pid' = pid then some entry else scores.lookup pid' := by
  have hvalue : KeyedTable.valueAt Prod.fst Prod.snd
      (KeyedTable.upsert Prod.fst (fun _ => (pid, entry)) (pid, entry) scores) =
        Function.update (KeyedTable.valueAt Prod.fst Prod.snd scores) pid (some entry) :=
    KeyedTable.valueAt_upsert (fun _ _ => rfl) (fun _ _ => rfl) scores
  rw [lookup_eq_valueAt, hvalue, lookup_eq_valueAt, Function.update_apply]

/-- A bump that does not evict keeps the agreement. -/
theorem agree_bump {scores : List (UInt32 × PidScoreEntry)} {exact : UInt32 → Option ExactEntry}
    (h : Agree scores exact) (call : PersistCall) (b : Bump) (hinstant : b.instant = call.now)
    (hcap : scores.length < pidScoreMapCap) :
    Agree (bumpPidScore call b.pid b.score b.decayMinutes scores) (exactBump exact b) := by
  have hbefore : ((scores.lookup b.pid).map PidScoreEntry.score).getD 0 =
      ((exact b.pid).map ExactEntry.score).getD 0 := by
    have := congrArg (Option.map Prod.fst) (h b.pid)
    simp only [Option.map_map, Function.comp_def] at this
    exact congrArg (Option.getD · 0) this
  have hlength : ¬ pidScoreMapCap <
      (KeyedTable.upsert Prod.fst
        (fun _ => (b.pid, bumpedEntry call.now b.pid b.score b.decayMinutes scores))
        (b.pid, bumpedEntry call.now b.pid b.score b.decayMinutes scores) scores).length := by
    rw [KeyedTable.length_upsert]
    split
    all_goals omega
  intro pid
  simp only [bumpPidScore, if_neg hlength, lookup_upsert, exactBump, Function.update_apply]
  split
  · simp [bumpedEntry, hbefore, hinstant]
  · exact h pid

/-! ## The reference process -/

/-- The value of the process at an instant, from a value and the instant it had it. -/
def referenceAt (rate : ℚ) (r : ℚ × Nat) (t : Nat) : ℚ := max 0 (r.1 - minutesBetween r.2 t * rate)

def referenceBump (rate : ℚ) (score : Nat) (r : ℚ × Nat) (t : Nat) : ℚ × Nat :=
  (min 100 (referenceAt rate r t + score), t)

/-- The value the last of the bumps took the process to, and its instant. -/
def referenceRun (rate : ℚ) (score : Nat) (bumps : List Nat) : ℚ × Nat :=
  bumps.foldl (referenceBump rate score) (0, 0)

/-- The value at an instant after the bumps: it starts at zero, loses `rate` a minute down to
zero, and at each bump gains `score` up to a hundred. -/
def reference (rate : ℚ) (score : Nat) (bumps : List Nat) (t : Nat) : ℚ :=
  referenceAt rate (referenceRun rate score bumps) t

def bumpsOf (pid : UInt32) (history : List Bump) : List Nat :=
  (history.filter fun b => b.pid = pid).map Bump.instant

/-! ## What an entry is left with -/

variable {pid s d : UInt32} {history : List Bump}

theorem bumpsOf_concat (b : Bump) :
    bumpsOf pid (history ++ [b]) =
      bumpsOf pid history ++ if b.pid = pid then [b.instant] else [] := by
  by_cases hb : b.pid = pid
  · simp [bumpsOf, hb]
  · simp [bumpsOf, hb]

/-- The base after `n` bumps by `s`. -/
def baseAfter (n : Nat) (s : UInt32) : Nat := min (n * s.toNat) 100

theorem toNat_baseAfter (n : Nat) (s : UInt32) :
    (UInt32.ofNat (baseAfter n s)).toNat = baseAfter n s :=
  UInt32.toNat_ofNat_of_lt (Nat.lt_of_le_of_lt (Nat.min_le_right _ _) (by decide))

theorem baseAfter_succ (n : Nat) (s : UInt32) :
    min (baseAfter n s + s.toNat) 100 = baseAfter (n + 1) s := by
  rw [baseAfter, baseAfter, Nat.add_mul]
  omega

/-- The entry of a process knows the number of its bumps and the last of them. -/
theorem exactScores_eq (hsame : ∀ b ∈ history, b.pid = pid → b.score = s ∧ b.decayMinutes = d) :
    exactScores history pid =
      (bumpsOf pid history).getLast?.map fun last =>
        { score := UInt32.ofNat (baseAfter (bumpsOf pid history).length s)
          lastBump := last
          decayPerMinute := decayRate s d } := by
  induction history using List.reverseRecOn with
  | nil => rfl
  | append_singleton history b ih =>
    have ih := ih fun b' hb' => hsame b' (mem_append_left _ hb')
    rw [exactScores, foldl_concat, ← exactScores, bumpsOf_concat]
    by_cases hb : b.pid = pid
    · obtain ⟨rfl, rfl⟩ := hsame b (by simp) hb
      have hbefore : (((exactScores history pid).map ExactEntry.score).getD 0).toNat =
          baseAfter (bumpsOf pid history).length b.score := by
        rw [ih]
        cases hlast : (bumpsOf pid history).getLast? with
        | none => simp [getLast?_eq_none_iff.mp hlast, baseAfter]
        | some last => exact toNat_baseAfter _ _
      rw [exactBump, hb, Function.update_self, hbefore, baseAfter_succ]
      simp
    · rw [exactBump, Function.update_of_ne (Ne.symm hb), ih]
      simp [hb]

/-! ## What is read -/

theorem toNat_roundHalfAway (x : ℚ) : (roundHalfAway x).toNat = ⌊x + 1 / 2⌋.toNat := by
  rw [roundHalfAway]
  split
  case isTrue => rfl
  case isFalse hx =>
    -- Both are at most zero.
    have hceil : ⌈x - 1 / 2⌉ ≤ 0 := Int.ceil_le.mpr (by push_cast; linarith)
    have hfloor : ⌊x + 1 / 2⌋ < 1 := Int.floor_lt.mpr (by push_cast; linarith)
    omega

theorem le_toNat_floor_iff {x : ℚ} {k : Nat} (hk : 1 ≤ k) :
    k ≤ ⌊x + 1 / 2⌋.toNat ↔ (k : ℚ) - 1 / 2 ≤ x := by
  have hcast : k ≤ ⌊x + 1 / 2⌋.toNat ↔ (k : Int) ≤ ⌊x + 1 / 2⌋ := by omega
  rw [hcast, Int.le_floor, sub_le_iff_le_add, Int.cast_natCast]

/-- Two values are rounded alike exactly if no half lies between them. -/
theorem toNat_floor_eq_iff {x y : ℚ} (hle : x ≤ y) :
    ⌊y + 1 / 2⌋.toNat = ⌊x + 1 / 2⌋.toNat ↔
      ∀ k : Nat, 1 ≤ k → (k : ℚ) - 1 / 2 ≤ y → (k : ℚ) - 1 / 2 ≤ x := by
  have hmono : ⌊x + 1 / 2⌋.toNat ≤ ⌊y + 1 / 2⌋.toNat :=
    Int.toNat_le_toNat (Int.floor_le_floor (by linarith))
  constructor
  · intro heq k hk hy
    rw [← le_toNat_floor_iff hk] at hy ⊢
    exact heq ▸ hy
  · intro h
    refine Nat.le_antisymm ?_ hmono
    rcases Nat.eq_zero_or_pos ⌊y + 1 / 2⌋.toNat with hzero | hpos
    · rw [hzero]
      exact Nat.zero_le _
    · exact (le_toNat_floor_iff hpos).mpr (h _ hpos ((le_toNat_floor_iff hpos).mp le_rfl))

theorem toNat_floor_max_zero (x : ℚ) : ⌊max 0 x + 1 / 2⌋.toNat = ⌊x + 1 / 2⌋.toNat := by
  refine (toNat_floor_eq_iff (le_max_right 0 x)).mpr fun k hk hmax => ?_
  have hk : (1 : ℚ) ≤ k := by exact_mod_cast hk
  rcases le_max_iff.mp hmax with h | h
  · linarith
  · exact h

theorem decayRate_nonneg (s d : UInt32) : 0 ≤ decayRate s d := by
  rw [decayRate]
  split
  · positivity
  · exact le_rfl

theorem lost_nonneg (t t' : Nat) (s d : UInt32) : 0 ≤ minutesBetween t t' * decayRate s d := by
  have hminutes : 0 ≤ minutesBetween t t' := by
    rw [minutesBetween]
    positivity
  exact mul_nonneg hminutes (decayRate_nonneg s d)

theorem referenceRun_le (s d : UInt32) (bumps : List Nat) :
    (referenceRun (decayRate s d) s.toNat bumps).1 ≤ baseAfter bumps.length s := by
  induction bumps using List.reverseRecOn with
  | nil => simp [referenceRun, baseAfter]
  | append_singleton bumps t ih =>
    rw [referenceRun, foldl_concat, ← referenceRun, length_append,
      length_singleton, ← baseAfter_succ]
    have hlost := lost_nonneg (referenceRun (decayRate s d) s.toNat bumps).2 t s d
    have hbefore : referenceAt (decayRate s d) (referenceRun (decayRate s d) s.toNat bumps) t ≤
        baseAfter bumps.length s := max_le (Nat.cast_nonneg _) (by linarith)
    push_cast
    rw [min_comm (_ + _) (100 : ℚ)]
    exact min_le_min_left 100 (by linarith)

theorem referenceRun_snd (rate : ℚ) (score : Nat) (bumps : List Nat) :
    (referenceRun rate score bumps).2 = bumps.getLast?.getD 0 := by
  induction bumps using List.reverseRecOn with
  | nil => rfl
  | append_singleton bumps t ih => simp [referenceRun, referenceBump]

/-- What is read for a process, in terms of its bumps. -/
theorem toNat_exactScore (hsame : ∀ b ∈ history, b.pid = pid → b.score = s ∧ b.decayMinutes = d)
    (t : Nat) :
    ((exactScore (exactScores history) t pid).getD 0).toNat =
      ⌊(baseAfter (bumpsOf pid history).length s : ℚ) -
        minutesBetween ((bumpsOf pid history).getLast?.getD 0) t * decayRate s d +
          1 / 2⌋.toNat := by
  have hlost := lost_nonneg ((bumpsOf pid history).getLast?.getD 0) t s d
  rw [exactScore, exactScores_eq hsame]
  cases hlast : (bumpsOf pid history).getLast? with
  | none =>
    have hnil := getLast?_eq_none_iff.mp hlast
    have hfloor : ⌊(0 : ℚ) - minutesBetween 0 t * decayRate s d + 1 / 2⌋ < 1 := by
      rw [hlast, Option.getD_none] at hlost
      exact Int.floor_lt.mpr (by push_cast; linarith)
    simp only [hnil, length_nil, baseAfter, Nat.zero_mul, Nat.zero_min, Nat.cast_zero,
      Option.map_none, Option.bind_none, Option.getD_none, UInt32.toNat_zero]
    omega
  | some last =>
    rw [hlast, Option.getD_some] at hlost
    have hbase : (baseAfter (bumpsOf pid history).length s : ℚ) ≤ 100 := by
      exact_mod_cast Nat.min_le_right _ _
    simp only [Option.map_some, Option.bind_some, ExactEntry.decayed, toNat_baseAfter,
      toNat_roundHalfAway, Option.getD_some]
    generalize (baseAfter (bumpsOf pid history).length s : ℚ) = base at hbase ⊢
    generalize minutesBetween last t * decayRate s d = lost at hlost ⊢
    have hsmall : ⌊base - lost + 1 / 2⌋ < 101 := Int.floor_lt.mpr (by push_cast; linarith)
    have hfits : (UInt32.ofNat ⌊base - lost + 1 / 2⌋.toNat).toNat =
        ⌊base - lost + 1 / 2⌋.toNat := by
      refine UInt32.toNat_ofNat_of_lt (Nat.lt_of_lt_of_le ?_ (by decide : 101 ≤ UInt32.size))
      omega
    split
    case isTrue hzero => rw [← hfits, hzero]; rfl
    case isFalse => exact hfits

theorem toNat_reference (s d : UInt32) (bumps : List Nat) (t : Nat) :
    (roundHalfAway (reference (decayRate s d) s.toNat bumps t)).toNat =
      ⌊(referenceRun (decayRate s d) s.toNat bumps).1 -
        minutesBetween (bumps.getLast?.getD 0) t * decayRate s d + 1 / 2⌋.toNat := by
  rw [reference, referenceAt, referenceRun_snd, toNat_roundHalfAway, toNat_floor_max_zero]

/-- The score of a process that is always bumped by `s` with a decay over `d` minutes is read
as the reference process exactly if no half lies between what the two count down from, each
less what was lost since the last bump. -/
theorem score_eq_reference_iff (s d pid : UInt32) (history : List Bump)
    (hsame : ∀ b ∈ history, b.pid = pid → b.score = s ∧ b.decayMinutes = d) (t : Nat) :
    let bumps := bumpsOf pid history
    let rate := decayRate s d
    let reached := (referenceRun rate s.toNat bumps).1
    let lost := minutesBetween (bumps.getLast?.getD 0) t * rate
    ((exactScore (exactScores history) t pid).getD 0).toNat =
        (roundHalfAway (reference rate s.toNat bumps t)).toNat ↔
      ∀ k : Nat, 1 ≤ k → (k : ℚ) - 1 / 2 ≤ min (bumps.length * s.toNat) 100 - lost →
        (k : ℚ) - 1 / 2 ≤ reached - lost := by
  intro bumps rate reached lost
  have hle : reached ≤ baseAfter bumps.length s := referenceRun_le s d bumps
  rw [toNat_exactScore hsame, toNat_reference,
    toNat_floor_eq_iff (by linarith : reached - lost ≤ baseAfter bumps.length s - lost), baseAfter]

/-- A minute, in nanoseconds. -/
def minute : Nat := 60000000000

/-- Two bumps by ninety over ten minutes, a minute apart, both end at a hundred. -/
theorem score_eq_reference_iff_capped :
    let history : List Bump := [⟨7, 90, 10, 0⟩, ⟨7, 90, 10, minute⟩]
    ((exactScore (exactScores history) (5 * minute) 7).getD 0).toNat =
      (roundHalfAway
        (reference (decayRate 90 10) (90 : UInt32).toNat (bumpsOf 7 history)
          (5 * minute))).toNat := by
  intro history
  have hreached : (referenceRun (decayRate 90 10) (90 : UInt32).toNat (bumpsOf 7 history)).1 =
      min ((bumpsOf 7 history).length * (90 : UInt32).toNat) 100 := by
    decide +kernel
  refine (score_eq_reference_iff 90 10 7 history (by decide) (5 * minute)).mpr fun k _ hk => ?_
  rw [hreached]
  exact hk

/-- Two bumps by fifty over ten minutes, ten minutes apart.  The process is at zero again
before the second and at fifty after it.  The score is a hundred. -/
theorem bump_forgets_decay :
    let history : List Bump := [⟨7, 50, 10, 0⟩, ⟨7, 50, 10, 10 * minute⟩]
    exactScore (exactScores history) (10 * minute) 7 = some 100 ∧
      reference (decayRate 50 10) 50 (bumpsOf 7 history) (10 * minute) = 50 := by
  decide +kernel

end Innerwarden.Pipeline
