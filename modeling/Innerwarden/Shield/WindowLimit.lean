import Innerwarden.Lib.EventWindow
import Innerwarden.Shield.RateLimiter

/-!
# What the sliding window counts

A call of `record` is counted in the sub-window its timestamp falls in.  Sub-windows that start
before the window are dropped, and the packets of the one that is under way count only for the
part of it that has elapsed.

`Kept` says what the window holds of its history, in terms of weights of sub-windows, since a
step changes the list of counts at both ends.  `record_false_iff` says when that suffices to
refuse a call over the limit.
-/

namespace Innerwarden

open List

namespace SlidingWindow

/-- The counts, each with the weight of its sub-window. -/
def weigh (weight : DateTime → ℚ) (counts : List (DateTime × Nat)) : ℚ :=
  (counts.map fun c => c.2 * weight c.1).sum

variable {w : SlidingWindow} {weight : DateTime → ℚ} {now : DateTime}

theorem weigh_append (counts counts' : List (DateTime × Nat)) :
    weigh weight (counts ++ counts') = weigh weight counts + weigh weight counts' := by
  simp [weigh]

theorem weigh_singleton (c : DateTime × Nat) : weigh weight [c] = c.2 * weight c.1 := by
  simp [weigh]

theorem weigh_congr {weight' : DateTime → ℚ} {counts : List (DateTime × Nat)}
    (h : ∀ c ∈ counts, weight c.1 = weight' c.1) : weigh weight counts = weigh weight' counts := by
  have hmap : (counts.map fun c => (c.2 : ℚ) * weight c.1) =
      counts.map fun c => (c.2 : ℚ) * weight' c.1 :=
    map_congr_left fun c hc => by rw [h c hc]
  rw [weigh, hmap, weigh]

/-! ## Sub-windows -/

/-- The length of a sub-window, in milliseconds. -/
def subMillis (subDur : Int) : Int := max (numMilliseconds subDur) 1

theorem subMillis_pos (subDur : Int) : 0 < subMillis subDur :=
  Int.lt_of_lt_of_le Int.zero_lt_one (le_max_right _ _)

theorem subWindowStart_eq (now : DateTime) (subDur : Int) :
    subWindowStart now subDur =
      (timestampMillis now).tdiv (subMillis subDur) * subMillis subDur * 1000000 := by
  have h := Int.tdiv_mul_add_tmod (timestampMillis now) (subMillis subDur)
  have hstart : subWindowStart now subDur =
      (timestampMillis now - (timestampMillis now).tmod (subMillis subDur)) * 1000000 := rfl
  rw [hstart, ← eq_sub_of_add_eq h]

theorem subWindowStart_mono (subDur : Int) {t t' : DateTime} (h : t ≤ t') :
    subWindowStart t subDur ≤ subWindowStart t' subDur := by
  have hms : timestampMillis t ≤ timestampMillis t' := by
    rw [timestampMillis, timestampMillis, Int.fdiv_eq_ediv_of_nonneg _ (by decide),
      Int.fdiv_eq_ediv_of_nonneg _ (by decide)]
    exact Int.ediv_le_ediv (by decide) h
  rw [subWindowStart_eq, subWindowStart_eq]
  exact Int.mul_le_mul_of_nonneg_right
    (Int.mul_le_mul_of_nonneg_right (Int.tdiv_le_tdiv (subMillis_pos subDur) hms)
      (subMillis_pos subDur).le) (by decide)

/-- A sub-window is no longer than the window. -/
theorem subMillis_le {windowSecs : Int} (hsecs : 0 < windowSecs) (n : Int) :
    subMillis ((seconds windowSecs).tdiv n) ≤ windowSecs * 1000 := by
  have hdur : (seconds windowSecs).tdiv n ≤ seconds windowSecs :=
    Int.tdiv_le_self n (Int.mul_nonneg hsecs.le (by decide))
  have hms : numMilliseconds ((seconds windowSecs).tdiv n) ≤ windowSecs * 1000 :=
    calc numMilliseconds ((seconds windowSecs).tdiv n)
      _ ≤ numMilliseconds (seconds windowSecs) := Int.tdiv_le_tdiv (by decide) hdur
      _ = (windowSecs * 1000 * 1000000).tdiv 1000000 := by
          rw [numMilliseconds, seconds, Int.mul_assoc]
          rfl
      _ = windowSecs * 1000 := Int.mul_tdiv_cancel _ (by decide)
  exact max_le hms (by omega)

theorem le_subWindowStart {windowSecs : Int} (hsecs : 0 < windowSecs) (n : Int) (now : Int) :
    now - seconds windowSecs ≤ subWindowStart now ((seconds windowSecs).tdiv n) := by
  have hmillis := subMillis_le hsecs n
  have hmod := Int.tmod_lt_of_pos (timestampMillis now)
    (subMillis_pos ((seconds windowSecs).tdiv n))
  have hnow : now < (timestampMillis now + 1) * 1000000 := by
    rw [timestampMillis, Int.fdiv_eq_ediv_of_nonneg _ (by decide)]
    omega
  have hseconds : seconds windowSecs = windowSecs * 1000 * 1000000 := by
    rw [seconds, Int.mul_assoc]
    rfl
  have hstart : subWindowStart now ((seconds windowSecs).tdiv n) =
      (timestampMillis now -
        (timestampMillis now).tmod (subMillis ((seconds windowSecs).tdiv n))) * 1000000 := rfl
  rw [hstart]
  generalize (timestampMillis now).tmod (subMillis ((seconds windowSecs).tdiv n)) = r at hmod
  generalize subMillis ((seconds windowSecs).tdiv n) = millis at hmillis hmod
  omega

/-! ## One call -/

theorem weigh_expire (h : ∀ u, u < now - w.windowSize → weight u = 0) :
    weigh weight (w.expire now).counts = weigh weight w.counts := by
  simp only [expire]
  induction w.counts with
  | nil => rfl
  | cons c counts ih =>
    by_cases hc : c.1 < now - w.windowSize
    · rw [dropWhile_cons_of_pos (by simpa using hc), ih]
      simp [weigh, h c.1 hc]
    · rw [dropWhile_cons_of_neg (by simpa using hc)]

/-- The last sub-window counts one more, or a new one is opened. -/
theorem counts_count (w : SlidingWindow) (u : DateTime) :
    (∃ older n, w.counts = older ++ [(u, n)] ∧ (w.count u).counts = older ++ [(u, n + 1)]) ∨
      (w.count u).counts = w.counts ++ [(u, 1)] := by
  rw [count]
  cases hlast : w.counts.getLast? with
  | none => simp [getLast?_eq_none_iff.mp hlast]
  | some last =>
    obtain ⟨older, hcounts⟩ := getLast?_eq_some_iff.mp hlast
    by_cases hu : last.1 = u
    · subst hu
      exact Or.inl ⟨older, last.2, hcounts, by simp [hcounts]⟩
    · exact Or.inr (by simp [hu])

theorem weigh_count (u : DateTime) :
    weigh weight (w.count u).counts = weigh weight w.counts + weight u := by
  rcases counts_count w u with ⟨older, n, hcounts, heq⟩ | heq
  · rw [heq, hcounts, weigh_append, weigh_append, weigh_singleton, weigh_singleton]
    push_cast
    ring
  · rw [heq, weigh_append, weigh_singleton, Nat.cast_one, one_mul]

theorem starts_count (u : DateTime) :
    (w.count u).counts.map Prod.fst = w.counts.map Prod.fst ∨
      (w.count u).counts.map Prod.fst = w.counts.map Prod.fst ++ [u] := by
  rcases counts_count w u with ⟨older, n, hcounts, heq⟩ | heq
  · exact Or.inl (by simp [heq, hcounts])
  · exact Or.inr (by simp [heq])

theorem mem_starts_count {u v : DateTime} (hv : v ∈ (w.count u).counts.map Prod.fst) :
    v ∈ w.counts.map Prod.fst ∨ v = u := by
  rcases starts_count (w := w) u with heq | heq
  · exact Or.inl (heq ▸ hv)
  · rw [heq, mem_append, mem_singleton] at hv
    exact hv

/-! ## Runs -/

/-- A window over a run of `record` calls, given by their timestamps.  A call that panics does
so before it changes anything. -/
def machine (windowSecs : Int) (subWindowCount : UInt64) (maxRate : Nat) :
    StateMachine SlidingWindow DateTime (Option Bool) where
  init := new windowSecs subWindowCount maxRate
  step w now :=
    match w.record now with
    | some (w', ok) => (w', some ok)
    | none => (w, none)

def startOf (windowSecs : Int) (subWindowCount : UInt64) (t : DateTime) : DateTime :=
  subWindowStart t ((seconds windowSecs).tdiv (asI32 subWindowCount).toInt)

/-- What the window holds of its calls. -/
structure Kept (windowSecs : Int) (subWindowCount : UInt64) (maxRate : Nat)
    (calls : List DateTime) (w : SlidingWindow) : Prop where
  size : w.windowSize = seconds windowSecs
  subWindows : w.subWindowCount = subWindowCount
  rate : w.maxRate = maxRate
  sorted : (w.counts.map Prod.fst).Pairwise (· ≤ ·)
  starts : ∀ u ∈ w.counts.map Prod.fst, ∃ t ∈ calls, u = startOf windowSecs subWindowCount t
  weighs : ∀ now, (∀ t ∈ calls, t ≤ now) → ∀ weight : DateTime → ℚ,
    (∀ u, u < now - seconds windowSecs → weight u = 0) →
      weigh weight w.counts = (calls.map fun t => weight (startOf windowSecs subWindowCount t)).sum

section Step

variable {windowSecs : Int} {k : UInt64} {maxRate : Nat} {calls : List DateTime}

theorem kept_new : Kept windowSecs k maxRate [] (new windowSecs k maxRate) where
  size := rfl
  subWindows := rfl
  rate := rfl
  sorted := List.Pairwise.nil
  starts := fun u hu => by cases hu
  weighs := fun _ _ _ _ => rfl

theorem Kept.record_eq (h : Kept windowSecs k maxRate calls w) (hk : asI32 k ≠ 0)
    (now : DateTime) :
    let w' := (w.expire now).count (startOf windowSecs k now)
    w.record now = some (w', decide (w'.weightedCount now
      ((seconds windowSecs).tdiv (asI32 k).toInt) ≤ maxRate)) := by
  simp [record, durationDiv, h.subWindows, h.size, hk, ← h.rate, startOf]
  rfl

theorem Kept.record (h : Kept windowSecs k maxRate calls w) (hlast : ∀ t ∈ calls, t ≤ now) :
    Kept windowSecs k maxRate (calls ++ [now])
      ((w.expire now).count (startOf windowSecs k now)) := by
  have hsub : ((w.expire now).counts.map Prod.fst).Sublist (w.counts.map Prod.fst) :=
    (dropWhile_sublist _).map Prod.fst
  have hsorted := h.sorted.sublist hsub
  have hstarts : ∀ u ∈ (w.expire now).counts.map Prod.fst, u ≤ startOf windowSecs k now := by
    intro u hu
    obtain ⟨t, ht, rfl⟩ := h.starts u (hsub.subset hu)
    exact subWindowStart_mono _ (hlast t ht)
  refine ⟨h.size, h.subWindows, h.rate, ?_, ?_, ?_⟩
  · rcases starts_count (w := w.expire now) (startOf windowSecs k now) with heq | heq
    · rwa [heq]
    · rw [heq, pairwise_append]
      exact ⟨hsorted, pairwise_singleton _ _, by simpa using hstarts⟩
  · intro u hu
    rcases mem_starts_count hu with hu | rfl
    · obtain ⟨t, ht, rfl⟩ := h.starts u (hsub.subset hu)
      exact ⟨t, mem_append_left _ ht, rfl⟩
    · exact ⟨now, mem_append_right _ (mem_singleton_self now), rfl⟩
  · intro later hlater weight hweight
    have hle : now ≤ later := hlater now (by simp)
    have hzero : ∀ u, u < now - w.windowSize → weight u = 0 := fun u hu =>
      hweight u (Int.lt_of_lt_of_le hu (h.size ▸ Int.sub_le_sub_right hle _))
    rw [weigh_count, weigh_expire hzero, map_append, sum_append,
      h.weighs later (fun t ht => hlater t (mem_append_left _ ht)) weight hweight]
    simp

theorem Kept.le_start (h : Kept windowSecs k maxRate calls w) (hsecs : 0 < windowSecs)
    {u : DateTime}
    (hu : u ∈ ((w.expire now).count (startOf windowSecs k now)).counts.map Prod.fst) :
    now - seconds windowSecs ≤ u := by
  rcases mem_starts_count hu with hu | rfl
  · obtain ⟨c, hc, rfl⟩ := mem_map.mp hu
    rw [expire, EventWindow.dropWhile_eq_filter h.sorted, h.size] at hc
    exact of_decide_eq_true (mem_filter.mp hc).2
  · exact le_subWindowStart hsecs (asI32 k).toInt now

end Step

/-! ## The limit -/

def inWindow (windowSecs : Int) (calls : List DateTime) (now : DateTime) : Nat :=
  calls.countP fun t => now - seconds windowSecs < t ∧ t ≤ now

/-- The calls in the sub-windows before that of `now` that begin in the window. -/
def olderCalls (windowSecs : Int) (k : UInt64) (calls : List DateTime) (now : DateTime) : Nat :=
  calls.countP fun t =>
    now - seconds windowSecs ≤ startOf windowSecs k t ∧
      startOf windowSecs k t ≠ startOf windowSecs k now

/-- The calls in the sub-window of `now`. -/
def currentCalls (windowSecs : Int) (k : UInt64) (calls : List DateTime) (now : DateTime) : Nat :=
  calls.countP fun t => startOf windowSecs k t = startOf windowSecs k now

/-- How much of the sub-window of `now` has elapsed.  Its very start counts in full. -/
def elapsedPart (windowSecs : Int) (k : UInt64) (now : DateTime) : ℚ :=
  let elapsed := max (numMilliseconds (now - startOf windowSecs k now)) 0
  if elapsed < 1 then 1
  else elapsed / subMillis ((seconds windowSecs).tdiv (asI32 k).toInt)

def seen (windowSecs : Int) (k : UInt64) (calls : List DateTime) (now : DateTime) : ℚ :=
  olderCalls windowSecs k calls now +
    currentCalls windowSecs k calls now * elapsedPart windowSecs k now

def after (windowSecs : Int) (k : UInt64) (maxRate : Nat) (calls : List DateTime) :
    SlidingWindow :=
  (machine windowSecs k maxRate).exec (machine windowSecs k maxRate).init calls

/-- What a call at `now` is answered after the calls, none when it panics. -/
def answer (windowSecs : Int) (k : UInt64) (maxRate : Nat) (calls : List DateTime)
    (now : DateTime) : Option Bool :=
  ((machine windowSecs k maxRate).step (after windowSecs k maxRate calls) now).2

section Run

variable {windowSecs : Int} {k : UInt64} {maxRate : Nat} {calls : List DateTime}

theorem kept_after (hk : asI32 k ≠ 0) (hsorted : calls.Pairwise (· ≤ ·)) :
    Kept windowSecs k maxRate calls (after windowSecs k maxRate calls) := by
  induction calls using List.reverseRecOn with
  | nil => exact kept_new
  | append_singleton calls now ih =>
    obtain ⟨hcalls, -, hlast⟩ := pairwise_append.mp hsorted
    have hkept := ih hcalls
    have hafter : after windowSecs k maxRate (calls ++ [now]) =
        ((machine windowSecs k maxRate).step (after windowSecs k maxRate calls) now).1 := by
      rw [after, StateMachine.exec_append]
      rfl
    have hstep : ((machine windowSecs k maxRate).step (after windowSecs k maxRate calls) now).1 =
        ((after windowSecs k maxRate calls).expire now).count (startOf windowSecs k now) := by
      simp only [machine, hkept.record_eq hk now]
    rw [hafter, hstep]
    exact hkept.record fun t ht => hlast t ht now (mem_singleton_self now)

theorem sum_weights (cutoff current : DateTime) (part : ℚ) (start : DateTime → DateTime)
    (hcurrent : cutoff ≤ current) (calls : List DateTime) :
    (calls.map fun t =>
        if cutoff ≤ start t then if start t = current then part else 1 else 0).sum =
      (calls.countP fun t => cutoff ≤ start t ∧ start t ≠ current : Nat) +
        (calls.countP fun t => start t = current : Nat) * part := by
  induction calls with
  | nil => simp
  | cons t calls ih =>
    rw [map_cons, sum_cons, ih, countP_cons, countP_cons]
    by_cases hcur : start t = current
    · simp [hcur, hcurrent]
      ring
    · by_cases hcut : cutoff ≤ start t
      · simp [hcur, hcut]
        ring
      · simp [hcur, hcut]

/-- The count that is compared with the limit is what the window sees. -/
theorem Kept.weightedCount_eq (h : Kept windowSecs k maxRate calls w) (hsecs : 0 < windowSecs)
    (hlast : ∀ t ∈ calls, t ≤ now) :
    ((w.expire now).count (startOf windowSecs k now)).weightedCount now
        ((seconds windowSecs).tdiv (asI32 k).toInt) =
      ceilAsU64 (seen windowSecs k (calls ++ [now]) now) := by
  have hkept := h.record hlast
  generalize hw' : (w.expire now).count (startOf windowSecs k now) = w' at hkept ⊢
  let part := elapsedPart windowSecs k now
  let weight : DateTime → ℚ := fun u => if u = startOf windowSecs k now then part else 1
  let cut : DateTime → ℚ := fun u => if now - seconds windowSecs ≤ u then weight u else 0
  have hcount : w'.weightedCount now ((seconds windowSecs).tdiv (asI32 k).toInt) =
      ceilAsU64 (weigh weight w'.counts) := by
    have hpart : part =
        let elapsed : ℚ := (max (numMilliseconds (now - startOf windowSecs k now)) 0 : Int)
        if elapsed < 1 then 1
        else elapsed / (subMillis ((seconds windowSecs).tdiv (asI32 k).toInt) : Int) := by
      simp only [part, elapsedPart]
      norm_cast
    rw [weightedCount, weigh]
    congr 2
    refine map_congr_left fun c _ => ?_
    simp only [weight, mul_ite, mul_one, hpart]
    rfl
  have hcut : weigh weight w'.counts = weigh cut w'.counts := by
    refine weigh_congr fun c hc => ?_
    have hle := h.le_start hsecs (hw' ▸ mem_map_of_mem hc)
    simp only [cut, hle, if_true]
  have hweighs := hkept.weighs now (by simpa [or_imp, forall_and] using hlast) cut
    fun u hu => if_neg (Int.not_le.mpr hu)
  rw [hcount, hcut, hweighs]
  congr 1
  exact sum_weights _ _ _ _ (le_subWindowStart hsecs (asI32 k).toInt now) _

theorem lt_ceilAsU64_iff {total : ℚ} {n : Nat} :
    n < ceilAsU64 total ↔ n < 2 ^ 64 - 1 ∧ (n : ℚ) < total := by
  rw [ceilAsU64, lt_min_iff, Int.lt_toNat, Int.lt_ceil, and_comm]
  simp

theorem step_of_zero (hk : asI32 w.subWindowCount = 0) (now : DateTime) :
    (machine windowSecs k maxRate).step w now = (w, none) := by
  simp [machine, SlidingWindow.record, durationDiv, hk]

theorem answer_eq (hsecs : 0 < windowSecs) {now : DateTime}
    (hsorted : (calls ++ [now]).Pairwise (· ≤ ·)) :
    answer windowSecs k maxRate calls now =
      if asI32 k = 0 then none
      else some (decide (ceilAsU64 (seen windowSecs k (calls ++ [now]) now) ≤ maxRate)) := by
  obtain ⟨hcalls, -, hlast⟩ := pairwise_append.mp hsorted
  by_cases hk : asI32 k = 0
  · have hafter : asI32 (after windowSecs k maxRate calls).subWindowCount = 0 := by
      refine StateMachine.exec_invariant (P := fun w : SlidingWindow => asI32 w.subWindowCount = 0)
        (fun w now hw => ?_) calls hk
      rwa [step_of_zero hw]
    rw [answer, step_of_zero hafter, if_pos hk]
  · have hkept : Kept windowSecs k maxRate calls _ := kept_after hk hcalls
    have hcount := hkept.weightedCount_eq hsecs fun t ht => hlast t ht now (by simp)
    simp only [answer, machine, hkept.record_eq hk now, hk, if_false, hcount]

end Run

/-- A call over the limit is refused exactly if the window sees enough of the calls. -/
theorem record_false_iff (windowSecs : Int) (hsecs : 0 < windowSecs) (k : UInt64) (maxRate : Nat)
    (calls : List DateTime) (now : DateTime) (hsorted : (calls ++ [now]).Pairwise (· ≤ ·)) :
    (maxRate < inWindow windowSecs (calls ++ [now]) now →
        answer windowSecs k maxRate calls now = some false) ↔
      inWindow windowSecs (calls ++ [now]) now ≤ maxRate ∨
        (asI32 k ≠ 0 ∧ maxRate < 2 ^ 64 - 1 ∧
          (maxRate : ℚ) < seen windowSecs k (calls ++ [now]) now) := by
  rw [answer_eq hsecs hsorted, imp_iff_not_or, Nat.not_lt]
  refine or_congr_right ?_
  by_cases hk : asI32 k = 0
  · simp [hk]
  · rw [← lt_ceilAsU64_iff]
    simp [hk]

/-- Two packets in a minute are allowed.  The third comes in the middle of its sub-window and is
refused. -/
theorem record_false_iff_minute :
    let calls : List DateTime := [seconds 5, seconds 15]
    2 < inWindow 60 (calls ++ [seconds 25]) (seconds 25) ∧
      answer 60 6 2 calls (seconds 25) = some false := by
  intro calls
  have hover : 2 < inWindow 60 (calls ++ [seconds 25]) (seconds 25) := by decide
  have hseen : ((2 : Nat) : ℚ) < seen 60 6 (calls ++ [seconds 25]) (seconds 25) := by
    decide +kernel
  exact ⟨hover, (record_false_iff 60 (by decide) 6 2 calls (seconds 25) (by decide)).mpr
    (Or.inr ⟨by decide, by decide, hseen⟩) hover⟩

/-- A limit of one in a second and two packets in the first millisecond of one: both pass, for
a thousandth of the two counts as one at most. -/
theorem burst_hides_in_sub_window :
    1 < inWindow 1 [1000000, 1000000] 1000000 ∧
      answer 1 1 1 [] 1000000 = some true ∧ answer 1 1 1 [1000000] 1000000 = some true := by
  decide +kernel

end SlidingWindow

end Innerwarden
