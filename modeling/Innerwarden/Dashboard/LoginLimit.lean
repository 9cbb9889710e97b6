import Mathlib.Algebra.Order.Ring.Int
import Innerwarden.Lib.EventWindow
import Innerwarden.Lib.StateMachine

/-!
# Guessing the dashboard password

The login limiter of `crates/agent/src/dashboard/auth.rs`, for one address.  A request with
Basic credentials asks whether the address is limited, verifies the password, and records the
failure or clears the record.  These are three steps on shared state, and those of concurrent
requests interleave.

`Bounded` says that a quarter of an hour without the right password sees at most five wrong
ones.  A request that is alone is refused in time.  Of requests that overlap the limiter is
asked before the failures of the others are recorded.  `bounded_iff_guarded` says at which of
them the bound fails.

Instants are nanoseconds of the monotonic clock.  Whether a password is right is an input.
-/

namespace Innerwarden.Login

open EventWindow StateMachine List Function

/-- `LOGIN_RATE_LIMIT_MAX_ATTEMPTS`. -/
def maxAttempts : Nat := 5

/-- `LOGIN_RATE_LIMIT_WINDOW_SECS`. -/
def window : Int := 15 * 60 * 1000000000

/-! ## The limiter -/

/-- `is_rate_limited`, on the timestamps of the address. -/
def isRateLimited (now : Int) (attempts : List Int) : Bool :=
  maxAttempts ≤ recent (now - window) attempts

/-- `check_and_record_failed_login`, with the clock at the cutoff and at the push. -/
def checkAndRecordFailedLogin (cutoffAt pushAt : Int) (attempts : List Int) : List Int × Bool :=
  let attempts := attempts.filter fun t => cutoffAt - window < t
  if maxAttempts ≤ attempts.length then (attempts, true)
  else
    let attempts := attempts ++ [pushAt]
    (attempts, maxAttempts ≤ attempts.length)

/-! ## Requests -/

/-- A password was verified. -/
inductive Event where
  | wrong (time : Int)
  | right (time : Int)

/-- A request that was not refused: whether its password is right, and for the properties of
runs the instant of the check, the timestamps it saw and the log. -/
structure Admission where
  right : Bool
  checkedAt : Int
  attempts : List Int
  log : List Event

/-- Where a request stands. -/
inductive Phase where
  /-- It is to be verified. -/
  | admitted (admission : Admission)
  /-- Its failure is to be recorded, or the record to be cleared. -/
  | judged (right : Bool)

/-- The answer to a request. -/
inductive Response where
  | rateLimited
  | unauthorized
  | accepted
deriving DecidableEq

/-- The clock, the entry, the requests under way and what has happened. -/
structure State where
  now : Int
  /-- The entry of the address in `LOGIN_RATE_LIMITER`. -/
  attempts : List Int
  phase : Nat → Option Phase
  log : List Event

/-- A step of a request.  Some time passes before each reading of the clock. -/
inductive Op where
  /-- `is_rate_limited`.  The credentials are `none` if the header is missing or cannot be
  parsed, and otherwise say whether the password is right. -/
  | check (id : Nat) (credentials : Option Bool) (after : Nat)
  /-- `verify_with_cache`. -/
  | verify (id : Nat) (after : Nat)
  /-- `check_and_record_failed_login` or `clear_rate_limit`. -/
  | settle (id : Nat) (after beforePush : Nat)

namespace State

/-- The limit, before the password is looked at. -/
def check (s : State) (id : Nat) (credentials : Option Bool) (after : Nat) :
    State × Option Response :=
  match s.phase id with
  | some _ => (s, none)
  | none =>
    let s := { s with now := s.now + after }
    if isRateLimited s.now s.attempts then (s, some .rateLimited)
    else
      match credentials with
      | none => (s, some .unauthorized)
      | some right =>
        let admission := ⟨right, s.now, s.attempts, s.log⟩
        ({ s with phase := update s.phase id (some (.admitted admission)) }, none)

def verify (s : State) (id : Nat) (after : Nat) : State × Option Response :=
  match s.phase id with
  | some (.admitted admission) =>
    let now := s.now + after
    ({ s with
        now := now
        phase := update s.phase id (some (.judged admission.right))
        log := s.log ++ [if admission.right then .right now else .wrong now] }, none)
  | _ => (s, none)

/-- A failure is recorded, a success clears the entry. -/
def settle (s : State) (id : Nat) (after beforePush : Nat) : State × Option Response :=
  match s.phase id with
  | some (.judged true) =>
    ({ s with
        now := s.now + after
        attempts := []
        phase := update s.phase id none }, some .accepted)
  | some (.judged false) =>
    let cutoffAt := s.now + after
    let pushAt := cutoffAt + beforePush
    let recorded := checkAndRecordFailedLogin cutoffAt pushAt s.attempts
    ({ s with
        now := pushAt
        attempts := recorded.1
        phase := update s.phase id none },
      some (if recorded.2 then .rateLimited else .unauthorized))
  | _ => (s, none)

end State

/-- The requests of one address. -/
def machine (bootedAt : Int) : StateMachine State Op (Option Response) where
  init := ⟨bootedAt, [], fun _ => none, []⟩
  step s
    | .check id credentials after => s.check id credentials after
    | .verify id after => s.verify id after
    | .settle id after beforePush => s.settle id after beforePush

/-! ## The bound -/

def wrongTimes (log : List Event) : List Int :=
  log.filterMap fun
    | .wrong time => some time
    | .right _ => none

def rightTimes (log : List Event) : List Int :=
  log.filterMap fun
    | .right time => some time
    | .wrong _ => none

/-- Every quarter of an hour without the right password has at most five wrong ones. -/
def Bounded (log : List Event) : Prop :=
  ∀ t, ((∀ x ∈ rightTimes log, ¬ (t ≤ x ∧ x < t + window)) →
      (wrongTimes log).countP (fun u => t ≤ u ∧ u < t + window) ≤ maxAttempts) ∧
    ((∀ x ∈ rightTimes log, ¬ (t < x ∧ x ≤ t + window)) →
      (wrongTimes log).countP (fun u => t < u ∧ u ≤ t + window) ≤ maxAttempts)

def since (cutoff : Int) (log : List Event) : Nat :=
  (wrongTimes log).countP fun u => cutoff < u ∧ ∀ x ∈ rightTimes log, x < u

/-- The wrong passwords of the last quarter of an hour, since the last right one. -/
def guesses (now : Int) (log : List Event) : Nat := since (now - window) log

/-- The events are in order, and not after `now`. -/
structure Timely (now : Int) (log : List Event) : Prop where
  wrong : ∀ u ∈ wrongTimes log, u ≤ now
  right : ∀ x ∈ rightTimes log, x ≤ now
  sorted : (wrongTimes log).Pairwise (· ≤ ·)

section Log

variable {log : List Event} {now : Int}

@[simp] theorem wrongTimes_wrong (log : List Event) (v : Int) :
    wrongTimes (log ++ [.wrong v]) = wrongTimes log ++ [v] := filterMap_append

@[simp] theorem wrongTimes_right (log : List Event) (v : Int) :
    wrongTimes (log ++ [.right v]) = wrongTimes log :=
  filterMap_append.trans (append_nil _)

@[simp] theorem rightTimes_wrong (log : List Event) (v : Int) :
    rightTimes (log ++ [.wrong v]) = rightTimes log :=
  filterMap_append.trans (append_nil _)

@[simp] theorem rightTimes_right (log : List Event) (v : Int) :
    rightTimes (log ++ [.right v]) = rightTimes log ++ [v] := filterMap_append

theorem Timely.mono {later : Int} (h : Timely now log) (hle : now ≤ later) : Timely later log :=
  ⟨fun u hu => (h.wrong u hu).trans hle, fun x hx => (h.right x hx).trans hle, h.sorted⟩

theorem Timely.append_wrong (h : Timely now log) : Timely now (log ++ [.wrong now]) := by
  refine ⟨?_, ?_, ?_⟩
  · rw [wrongTimes_wrong]
    intro u hu
    rcases mem_append.mp hu with hu | hu
    · exact h.wrong u hu
    · exact (mem_singleton.mp hu).le
  · rw [rightTimes_wrong]
    exact h.right
  · rw [wrongTimes_wrong]
    refine pairwise_append.mpr ⟨h.sorted, pairwise_singleton _ _, fun u hu v hv => ?_⟩
    rw [mem_singleton.mp hv]
    exact h.wrong u hu

theorem Timely.append_right (h : Timely now log) : Timely now (log ++ [.right now]) := by
  refine ⟨?_, ?_, ?_⟩
  · rw [wrongTimes_right]
    exact h.wrong
  · rw [rightTimes_right]
    intro x hx
    rcases mem_append.mp hx with hx | hx
    · exact h.right x hx
    · exact (mem_singleton.mp hx).le
  · rw [wrongTimes_right]
    exact h.sorted

theorem Bounded.append_right (h : Bounded log) (v : Int) : Bounded (log ++ [.right v]) := by
  intro t
  rw [rightTimes_right, wrongTimes_right]
  refine ⟨fun hnone => (h t).1 fun x hx => ?_, fun hnone => (h t).2 fun x hx => ?_⟩
  · exact hnone x (mem_append_left _ hx)
  · exact hnone x (mem_append_left _ hx)

/-- Five guesses stand in a quarter of an hour of their own, together with the next. -/
theorem guesses_lt_of_bounded (htimely : Timely now log) (h : Bounded (log ++ [.wrong now])) :
    guesses now log < maxAttempts := by
  let p (u : Int) : Bool := decide (now - window < u ∧ ∀ x ∈ rightTimes log, x < u)
  have hguesses : guesses now log = ((wrongTimes log).filter p).length := countP_eq_length_filter
  have hsorted : ((wrongTimes log).filter p).Pairwise (· ≤ ·) := htimely.sorted.filter p
  cases hfirst : (wrongTimes log).filter p with
  | nil =>
    rw [hguesses, hfirst]
    decide
  | cons t rest =>
    -- The first of them opens the window.
    have hmem : t ∈ (wrongTimes log).filter p := by simp [hfirst]
    obtain ⟨ht, hpt⟩ := mem_filter.mp hmem
    obtain ⟨hlate, hright⟩ := of_decide_eq_true hpt
    have hle := htimely.wrong t ht
    have hcount := (h t).1 fun x hx => by
      rw [rightTimes_wrong] at hx
      have := hright x hx
      omega
    have hinside : guesses now log ≤
        (wrongTimes log).countP fun u => t ≤ u ∧ u < t + window := by
      refine countP_mono_left fun u hu hpu => decide_eq_true ?_
      have hu' : u ∈ t :: rest := hfirst ▸ mem_filter.mpr ⟨hu, hpu⟩
      have hnow := htimely.wrong u hu
      rw [hfirst] at hsorted
      rcases mem_cons.mp hu' with rfl | hlater
      · omega
      · have := (pairwise_cons.mp hsorted).1 u hlater
        omega
    have hlast : decide (t ≤ now ∧ now < t + window) = true := decide_eq_true (by omega)
    rw [wrongTimes_wrong, countP_append, countP_singleton, if_pos hlast] at hcount
    omega

/-- A window that holds the new guess holds only guesses that count. -/
theorem countP_append_wrong {q : Int → Bool} (hfew : guesses now log < maxAttempts)
    (hold : (wrongTimes log).countP q ≤ maxAttempts)
    (hq : q now = true → ∀ u ∈ wrongTimes log, q u = true →
      now - window < u ∧ ∀ x ∈ rightTimes log, x < u) :
    (wrongTimes (log ++ [.wrong now])).countP q ≤ maxAttempts := by
  rw [wrongTimes_wrong, countP_append, countP_singleton]
  cases hnow : q now with
  | false => simpa using hold
  | true =>
    have hsub : (wrongTimes log).countP q ≤ guesses now log :=
      countP_mono_left fun u hu hqu => decide_eq_true (hq hnow u hu hqu)
    simp only [if_true]
    omega

theorem bounded_append_wrong (htimely : Timely now log) (h : Bounded log) :
    Bounded (log ++ [.wrong now]) ↔ guesses now log < maxAttempts := by
  refine ⟨guesses_lt_of_bounded htimely, fun hfew t => ?_⟩
  rw [rightTimes_wrong]
  constructor
  · intro hnone
    refine countP_append_wrong hfew ((h t).1 hnone) fun hnow u hu hqu => ?_
    simp only [decide_eq_true_eq] at hnow hqu
    refine ⟨by omega, fun x hx => ?_⟩
    have := htimely.right x hx
    have := hnone x hx
    omega
  · intro hnone
    refine countP_append_wrong hfew ((h t).2 hnone) fun hnow u hu hqu => ?_
    simp only [decide_eq_true_eq] at hnow hqu
    refine ⟨by omega, fun x hx => ?_⟩
    have := htimely.right x hx
    have := hnone x hx
    omega

end Log

/-! ## Interleavings -/

/-- The request overlaps with others: when it was checked the limiter knew of fewer failures
than there had been guesses, or another guess came after that. -/
def Admission.Overlaps (a : Admission) (log : List Event) : Prop :=
  recent (a.checkedAt - window) a.attempts < guesses a.checkedAt a.log ∨
    (wrongTimes a.log).length < (wrongTimes log).length

/-- What holds in every state. -/
structure Sound (s : State) : Prop where
  timely : Timely s.now s.log
  /-- A request was admitted with room to spare, earlier in the run. -/
  admitted : ∀ id a, s.phase id = some (.admitted a) →
    a.checkedAt ≤ s.now ∧ recent (a.checkedAt - window) a.attempts < maxAttempts ∧ a.log <+: s.log

variable {s : State}

theorem Sound.update (h : Sound s) {s' : State} {id : Nat} {phase : Option Phase}
    (hlater : s.now ≤ s'.now) (htimely : Timely s'.now s'.log) (hlog : s.log <+: s'.log)
    (hphase : s'.phase = update s.phase id phase)
    (hnew : ∀ a, phase = some (.admitted a) → a.checkedAt ≤ s'.now ∧
      recent (a.checkedAt - window) a.attempts < maxAttempts ∧ a.log <+: s'.log) : Sound s' := by
  refine ⟨htimely, fun id' a ha => ?_⟩
  rw [hphase] at ha
  by_cases hid : id' = id
  · rw [hid, update_self] at ha
    exact hnew a ha
  · rw [update_of_ne hid] at ha
    obtain ⟨htime, hroom, hfront⟩ := h.admitted id' a ha
    exact ⟨htime.trans hlater, hroom, hfront.trans hlog⟩

theorem Sound.later (h : Sound s) {s' : State} (hlater : s.now ≤ s'.now) (hlog : s'.log = s.log)
    (hphase : s'.phase = s.phase) : Sound s' := by
  refine ⟨by rw [hlog]; exact h.timely.mono hlater, fun id a ha => ?_⟩
  rw [hphase] at ha
  obtain ⟨htime, hroom, hfront⟩ := h.admitted id a ha
  exact ⟨htime.trans hlater, hroom, hlog ▸ hfront⟩

theorem Sound.check (h : Sound s) (id : Nat) (credentials : Option Bool) (after : Nat) :
    Sound (s.check id credentials after).1 := by
  have hlater : s.now ≤ s.now + after := by omega
  simp only [State.check]
  split
  · exact h
  · split
    · exact h.later hlater rfl rfl
    · rename_i hroom
      split
      · exact h.later hlater rfl rfl
      · refine h.update hlater (h.timely.mono hlater) prefix_rfl rfl fun a ha => ?_
        cases ha
        refine ⟨le_rfl, ?_, prefix_rfl⟩
        simpa [isRateLimited] using hroom

theorem Sound.verify (h : Sound s) (id : Nat) (after : Nat) : Sound (s.verify id after).1 := by
  have hlater : s.now ≤ s.now + after := by omega
  have htimely := h.timely.mono hlater
  rw [State.verify]
  split
  · rename_i a ha
    refine h.update hlater ?_ (prefix_append _ _) rfl fun a ha => by cases ha
    cases a.right with
    | true => exact htimely.append_right
    | false => exact htimely.append_wrong
  · exact h

theorem Sound.settle (h : Sound s) (id : Nat) (after beforePush : Nat) :
    Sound (s.settle id after beforePush).1 := by
  have hlater : s.now ≤ s.now + after := by omega
  have hlater' : s.now ≤ s.now + after + beforePush := by omega
  rw [State.settle]
  split
  · exact h.update hlater (h.timely.mono hlater) prefix_rfl rfl fun a ha => by cases ha
  · exact h.update hlater' (h.timely.mono hlater') prefix_rfl rfl fun a ha => by cases ha
  · exact h

theorem sound_step (bootedAt : Int) (s : State) (op : Op) (h : Sound s) :
    Sound ((machine bootedAt).step s op).1 := by
  cases op with
  | check id credentials after => exact h.check id credentials after
  | verify id after => exact h.verify id after
  | settle id after beforePush => exact h.settle id after beforePush

/-- A request that is alone was admitted because there had been few guesses. -/
theorem Sound.guesses_lt (h : Sound s) {id : Nat} {a : Admission}
    (ha : s.phase id = some (.admitted a)) (halone : ¬ a.Overlaps s.log) {now : Int}
    (hnow : s.now ≤ now) : guesses now s.log < maxAttempts := by
  obtain ⟨htime, hroom, extra, hlog⟩ := h.admitted id a ha
  obtain ⟨hknown, hlast⟩ := not_or.mp halone
  have hwrong : wrongTimes s.log = wrongTimes a.log := by
    have hsplit : wrongTimes s.log = wrongTimes a.log ++ wrongTimes extra := by
      rw [← hlog]
      exact filterMap_append
    rw [hsplit, length_append] at hlast
    have hnone : wrongTimes extra = [] := length_eq_zero_iff.mp (by omega)
    rw [hsplit, hnone, append_nil]
  have hright : ∀ x ∈ rightTimes a.log, x ∈ rightTimes s.log := by
    intro x hx
    rw [← hlog, rightTimes, filterMap_append]
    exact mem_append_left _ hx
  have hfewer : guesses now s.log ≤ guesses a.checkedAt a.log := by
    rw [guesses, since, hwrong]
    refine countP_mono_left fun u _ hu => ?_
    simp only [decide_eq_true_eq] at hu ⊢
    exact ⟨by omega, fun x hx => hu.2 x (hright x hx)⟩
  omega

/-- A wrong password is verified for a request that overlaps with others only if there have been
fewer than five guesses. -/
def Guarded (s : State) : Op → Prop
  | .verify id after =>
    ∀ a, s.phase id = some (.admitted a) → a.right = false → a.Overlaps s.log →
      guesses (s.now + after) s.log < maxAttempts
  | _ => True

theorem check_log (s : State) (id : Nat) (credentials : Option Bool) (after : Nat) :
    (s.check id credentials after).1.log = s.log := by
  simp only [State.check]
  split
  · rfl
  · split
    · rfl
    · split <;> rfl

theorem settle_log (s : State) (id after beforePush : Nat) :
    (s.settle id after beforePush).1.log = s.log := by
  rw [State.settle]
  split <;> rfl

theorem bounded_verify (h : Sound s) (hbounded : Bounded s.log) (id after : Nat) :
    Bounded (s.verify id after).1.log ↔ Guarded s (.verify id after) := by
  have hlater : s.now ≤ s.now + after := by omega
  rw [State.verify]
  split
  · rename_i a ha
    cases hright : a.right with
    | true =>
      refine iff_of_true (hbounded.append_right _) fun a' ha' hwrong => ?_
      cases ha.symm.trans ha'
      rw [hright] at hwrong
      cases hwrong
    | false =>
      have hexact := bounded_append_wrong (h.timely.mono hlater) hbounded
      simp only [Bool.false_eq_true, if_false]
      rw [hexact]
      constructor
      · intro hfew a' _ _ _
        exact hfew
      · intro hguard
        by_cases hover : a.Overlaps s.log
        · exact hguard a ha hright hover
        · exact h.guesses_lt ha hover hlater
  · rename_i hother
    exact iff_of_true hbounded fun a ha => absurd ha (hother a)

theorem bounded_step (bootedAt : Int) (s : State) (op : Op) (h : Sound s)
    (hbounded : Bounded s.log) :
    Bounded ((machine bootedAt).step s op).1.log ↔ Guarded s op := by
  cases op with
  | check id credentials after =>
    simp only [machine, check_log]
    exact iff_of_true hbounded trivial
  | verify id after => exact bounded_verify h hbounded id after
  | settle id after beforePush =>
    simp only [machine, settle_log]
    exact iff_of_true hbounded trivial

theorem timely_nil (now : Int) : Timely now [] where
  wrong u hu := by cases hu
  right x hx := by cases hx
  sorted := .nil

theorem sound_init (bootedAt : Int) : Sound (machine bootedAt).init where
  timely := timely_nil bootedAt
  admitted id a ha := by cases ha

theorem bounded_nil : Bounded [] := fun _ => ⟨fun _ => Nat.zero_le _, fun _ => Nat.zero_le _⟩

/-- The bound holds at every moment of an interleaving exactly if its requests are guarded. -/
theorem bounded_iff_guarded (bootedAt : Int) (ops : List Op) :
    let M := machine bootedAt
    (∀ pre, pre <+: ops → Bounded (M.exec M.init pre).log) ↔ M.Meets Guarded M.init ops := by
  intro M
  exact forall_exec_iff_meets (P := fun s => Bounded s.log) (sound_step bootedAt)
    (bounded_step bootedAt) ops (sound_init bootedAt) bounded_nil

def sixAtOnce : List Op :=
  (List.range 6).map (fun id => .check id (some false) 0) ++
    (List.range 6).map fun id => .verify id 0

/-- All six passwords are verified. -/
theorem six_guesses_at_once :
    ¬ Bounded ((machine 0).exec (machine 0).init sixAtOnce).log := by
  intro h
  have hlog : ((machine 0).exec (machine 0).init sixAtOnce).log = List.replicate 6 (.wrong 0) := rfl
  rw [hlog] at h
  exact absurd ((h 0).1 (by decide)) (by decide)

end Innerwarden.Login
