import Innerwarden.Lib.Admission
import Innerwarden.Shield.RateLimiter

/-!
# How much a token bucket lets through

A bucket is a store with a cap, as in `Admission` (`trace_eq_greedy`).  It gains what its clock
moves forward.  The clock is the timestamp of the last call, so it also moves back, and that
time is gained a second time.

`accepted_le_iff` says that the cap and the rate times the span bound what is let through
exactly if they bound every conforming choice of calls.
-/

namespace Innerwarden

namespace TokenBucket

open Admission

/-- A bucket over a run of `consume` calls, given by their timestamps. -/
def machine (maxTokens refillRate : ℚ) (start : DateTime) :
    StateMachine TokenBucket DateTime Bool where
  init := new maxTokens refillRate start
  step b now := b.consume now

/-- The number of calls that return `true`. -/
def accepted (maxTokens refillRate : ℚ) (start : DateTime) (calls : List DateTime) : Nat :=
  let M := machine maxTokens refillRate start
  (M.trace M.init calls).count true

/-- The tokens gained before each call: what the clock moves forward, in whole milliseconds. -/
def gains (refillRate : ℚ) : DateTime → List DateTime → List ℚ
  | _, [] => []
  | last, now :: calls =>
    refillRate * ((max (numMilliseconds (now - last)) 0 : Int) / 1000) ::
      gains refillRate now calls

variable {maxTokens refillRate : ℚ} {start : DateTime}

theorem consume_eq (b : TokenBucket) (now : DateTime) :
    b.consume now =
      let ok := decide (1 ≤ (b.refill now).tokens)
      ({ b.refill now with tokens := (b.refill now).tokens - cost ok }, ok) := by
  by_cases h1 : 1 ≤ (b.refill now).tokens
  · simp [consume, h1, cost]
  · simp [consume, h1, cost]

theorem trace_eq_greedy (calls : List DateTime) (b : TokenBucket) :
    (machine maxTokens refillRate start).trace b calls =
      greedy b.maxTokens b.tokens (gains b.refillRate b.lastRefill calls) := by
  induction calls generalizing b with
  | nil => rfl
  | cons now calls ih =>
    have hstep : (machine maxTokens refillRate start).step b now = b.consume now := rfl
    rw [StateMachine.trace_cons, ih, hstep, consume_eq]
    rfl

theorem accepted_eq (calls : List DateTime) :
    accepted maxTokens refillRate start calls =
      (greedy maxTokens maxTokens (gains refillRate start calls)).count true := by
  rw [accepted, trace_eq_greedy]
  rfl

theorem gains_nonneg (hrate : 0 ≤ refillRate) (calls : List DateTime) (last : DateTime) :
    ∀ g ∈ gains refillRate last calls, 0 ≤ g := by
  induction calls generalizing last with
  | nil => simp [gains]
  | cons now calls ih =>
    refine List.forall_mem_cons.mpr ⟨?_, ih now⟩
    have hms : (0 : ℚ) ≤ (max (numMilliseconds (now - last)) 0 : Int) := by
      exact_mod_cast le_max_right _ _
    positivity

/-- The cap and the rate times the span, which is in nanoseconds. -/
def limit (maxTokens refillRate : ℚ) (span : Int) : ℚ := maxTokens + refillRate * (span / 10 ^ 9)

/-- The calls let through stay below the limit exactly if no conforming choice of calls
exceeds it. -/
theorem accepted_le_iff (maxTokens refillRate : ℚ) (hmax : 1 ≤ maxTokens) (hrate : 0 ≤ refillRate)
    (start stop : DateTime) (calls : List DateTime) :
    (accepted maxTokens refillRate start calls : ℚ) ≤ limit maxTokens refillRate (stop - start) ↔
      ∀ choice, choice.map Prod.fst = gains refillRate start calls →
        Conforming maxTokens choice →
        (taken choice : ℚ) ≤ limit maxTokens refillRate (stop - start) := by
  rw [accepted_eq]
  exact count_greedy_le_iff (zero_le_one.trans hmax) (gains_nonneg hrate calls start) _

/-- Calls a second apart: the limit of three is not exceeded, by any choice. -/
theorem accepted_le_iff_seconds :
    (accepted 1 1 0 [0, seconds 1, seconds 2] : ℚ) ≤ limit 1 1 (seconds 2 - 0) ∧
      ∀ choice, choice.map Prod.fst = gains 1 0 [0, seconds 1, seconds 2] →
        Conforming 1 choice → (taken choice : ℚ) ≤ limit 1 1 (seconds 2 - 0) := by
  have haccepted : (accepted 1 1 0 [0, seconds 1, seconds 2] : ℚ) ≤ limit 1 1 (seconds 2 - 0) := by
    decide +kernel
  exact ⟨haccepted, (accepted_le_iff 1 1 le_rfl zero_le_one 0 (seconds 2) _).mp haccepted⟩

/-- One token, one token a second, and a clock that goes back a second between two calls a
second apart: three calls are let through, and the limit is two. -/
theorem accepted_exceeds_limit :
    limit 1 1 (seconds 1 - 0) < (accepted 1 1 0 [0, seconds 1, 0, seconds 1] : ℚ) := by
  decide +kernel

end TokenBucket

end Innerwarden
