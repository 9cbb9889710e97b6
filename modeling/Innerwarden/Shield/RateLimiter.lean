import Innerwarden.Lib.StateMachine
import Innerwarden.Time
import Mathlib.Data.Rat.Floor

/-!
# The packet rate limiter

`shield/src/rate_limiter.rs`.  Every IP has a tracker of three algorithms.

* `TokenBucket`: tokens refill with time, a packet takes one.
* `SlidingWindow`: the packets of the last seconds, counted in sub-windows.
* `EmaTracker`: a moving average of the packet rate and of its variance.

A packet is dropped when the bucket and the window both refuse it, and the IP is blocked.  It is
challenged when one of the three objects.  `IpRateLimiter.rateLimiter_independent` says that the
verdicts on an IP are those of the run without the packets of the others, and that the counters
count every packet once.

Floating point numbers are exact rationals here, the counters are natural numbers, and the
square root is an arbitrary function.  Dividing the window by a sub-window count that is zero as
an `i32` panics: no verdict is returned, and the tracker stays as far as it was updated.
-/

namespace Innerwarden

open List

/-! ## Durations -/

def numMilliseconds (d : Int) : Int := d.tdiv 1000000

def timestampMillis (t : DateTime) : Int := Int.fdiv t 1000000

def fromTimestampMillis (ms : Int) : DateTime := ms * 1000000

/-- `Duration` by an `i32`, a panic when it is zero. -/
def durationDiv (d : Int) (n : Int32) : Option Int := if n = 0 then none else some (d.tdiv n.toInt)

/-- `n as i32`, of a `usize`. -/
def asI32 (n : UInt64) : Int32 := n.toUInt32.toInt32

/-- `n as i64`, of a `u128`. -/
def asI64 (n : Nat) : Int64 := Int64.ofNat n

/-! ## The token bucket -/

/-- The answer to a packet. -/
inductive RateLimitDecision where
  | allow
  | drop
  | challenge

/-- A bucket, in exact numbers. -/
structure TokenBucket where
  tokens : ℚ
  maxTokens : ℚ
  refillRate : ℚ
  lastRefill : DateTime

namespace TokenBucket

def new (maxTokens refillRate : ℚ) (now : DateTime) : TokenBucket where
  tokens := maxTokens
  maxTokens := maxTokens
  refillRate := refillRate
  lastRefill := now

/-- The bucket refilled up to `now`. -/
def refill (b : TokenBucket) (now : DateTime) : TokenBucket :=
  let elapsedMs : ℚ := (max (numMilliseconds (now - b.lastRefill)) 0 : Int)
  { b with
    tokens := min (b.tokens + b.refillRate * (elapsedMs / 1000)) b.maxTokens
    lastRefill := now }

def consume (b : TokenBucket) (now : DateTime) : TokenBucket × Bool :=
  let b := b.refill now
  if 1 ≤ b.tokens then ({ b with tokens := b.tokens - 1 }, true) else (b, false)

end TokenBucket

/-! ## The sliding window -/

/-- The packets of the last window, by sub-window. -/
structure SlidingWindow where
  /-- The start of each sub-window and its packets, oldest first. -/
  counts : List (DateTime × Nat)
  windowSize : Int
  subWindowCount : UInt64
  maxRate : Nat

namespace SlidingWindow

def new (windowSecs : Int) (subWindowCount : UInt64) (maxRate : Nat) : SlidingWindow where
  counts := []
  windowSize := seconds windowSecs
  subWindowCount := subWindowCount
  maxRate := maxRate

def subWindowStart (now : DateTime) (subDur : Int) : DateTime :=
  let millis := max (numMilliseconds subDur) 1
  let nowMs := timestampMillis now
  fromTimestampMillis (nowMs - nowMs.tmod millis)

/-- Sub-windows are popped from the front, up to the first that is recent enough. -/
def expire (w : SlidingWindow) (now : DateTime) : SlidingWindow :=
  { w with counts := w.counts.dropWhile fun c => c.1 < now - w.windowSize }

/-- One more packet in the sub-window that starts at `subStart`, if it is the last one. -/
def count (w : SlidingWindow) (subStart : DateTime) : SlidingWindow :=
  { w with
    counts :=
      match w.counts.getLast? with
      | some last =>
        if last.1 = subStart then w.counts.dropLast ++ [(last.1, last.2 + 1)]
        else w.counts ++ [(subStart, 1)]
      | none => [(subStart, 1)] }

/-- `total.ceil() as u64`. -/
def ceilAsU64 (total : ℚ) : Nat := min ⌈total⌉.toNat (2 ^ 64 - 1)

/-- The current sub-window counts in part. -/
def weightedCount (w : SlidingWindow) (now : DateTime) (subDur : Int) : Nat :=
  let subMillis : ℚ := (max (numMilliseconds subDur) 1 : Int)
  let currentSub := subWindowStart now subDur
  let elapsedInSub : ℚ := (max (numMilliseconds (now - currentSub)) 0 : Int)
  -- At the very start of a sub-window its packets count in full.
  let weight : ℚ := if elapsedInSub < 1 then 1 else elapsedInSub / subMillis
  ceilAsU64 (w.counts.map fun c => if c.1 = currentSub then c.2 * weight else c.2).sum

def record (w : SlidingWindow) (now : DateTime) : Option (SlidingWindow × Bool) := do
  let subDur ← durationDiv w.windowSize (asI32 w.subWindowCount)
  let w := (w.expire now).count (subWindowStart now subDur)
  pure (w, w.weightedCount now subDur ≤ w.maxRate)

theorem record_eq_none {w : SlidingWindow} {now : DateTime} (h : w.record now = none) :
    asI32 w.subWindowCount = 0 := by
  by_contra hne
  simp [record, durationDiv, hne] at h

theorem subWindowCount_record {w w' : SlidingWindow} {now : DateTime} {ok : Bool}
    (h : w.record now = some (w', ok)) : w'.subWindowCount = w.subWindowCount := by
  cases hd : durationDiv w.windowSize (asI32 w.subWindowCount) with
  | none => simp [record, hd] at h
  | some subDur =>
    simp only [record, hd, Option.bind_eq_bind, Option.bind_some, Option.pure_def,
      Option.some.injEq, Prod.mk.injEq] at h
    rw [← h.1]
    rfl

end SlidingWindow

/-! ## The moving average -/

/-- Moving averages of the rate and of its variance. -/
structure EmaTracker where
  ema : ℚ
  alpha : ℚ
  varianceEma : ℚ
  alphaVar : ℚ
  thresholdMultiplier : ℚ
  samples : Nat

namespace EmaTracker

def clamp (x lo hi : ℚ) : ℚ := if x < lo then lo else if hi < x then hi else x

def new (alpha alphaVar thresholdMultiplier : ℚ) : EmaTracker where
  ema := 0
  alpha := clamp alpha (1 / 100) 1
  varianceEma := 0
  alphaVar := clamp alphaVar (1 / 100) 1
  thresholdMultiplier := thresholdMultiplier
  samples := 0

/-- The new average, and whether the sample exceeds the threshold computed before it. -/
def update (sqrt : ℚ → ℚ) (t : EmaTracker) (current : ℚ) : EmaTracker × Bool :=
  let t := { t with samples := t.samples + 1 }
  if t.samples = 1 then ({ t with ema := current, varianceEma := 0 }, false)
  else
    let threshold := t.ema + t.thresholdMultiplier * sqrt t.varianceEma
    let deviation := current - t.ema
    ({ t with
       ema := t.alpha * current + (1 - t.alpha) * t.ema
       varianceEma :=
         t.alphaVar * (deviation * deviation) + (1 - t.alphaVar) * t.varianceEma },
      threshold < current)

end EmaTracker

/-! ## Trackers -/

/-- The settings, with their defaults. -/
structure RateLimiterConfig where
  bucketMaxTokens : ℚ := 50
  bucketRefillRate : ℚ := 10
  windowSecs : Int := 10
  subWindowCount : UInt64 := 10
  windowMaxRate : Nat := 100
  emaAlpha : ℚ := 3 / 10
  emaAlphaVar : ℚ := 1 / 10
  emaThresholdMultiplier : ℚ := 3
  emaMinSamples : Nat := 5

/-- What is kept of a sender. -/
structure IpTracker where
  ip : String
  tokenBucket : TokenBucket
  slidingWindow : SlidingWindow
  ema : EmaTracker
  firstSeen : DateTime
  lastSeen : DateTime
  totalPackets : Nat
  totalBytes : Nat

/-- A block of a sender. -/
structure BlockInfo where
  ip : String
  reason : String
  blockedAt : DateTime
  packetsAtBlock : Nat

namespace IpTracker

/-- The tracker of an IP that is seen for the first time. -/
def new (config : RateLimiterConfig) (ip : String) (ts : DateTime) : IpTracker where
  ip := ip
  tokenBucket := .new config.bucketMaxTokens config.bucketRefillRate ts
  slidingWindow := .new config.windowSecs config.subWindowCount config.windowMaxRate
  ema := .new config.emaAlpha config.emaAlphaVar config.emaThresholdMultiplier
  firstSeen := ts
  lastSeen := ts
  totalPackets := 0
  totalBytes := 0

/-- The packet is counted and takes a token. -/
def arrive (t : IpTracker) (bytes : Nat) (ts : DateTime) : IpTracker × Bool :=
  let bucket := t.tokenBucket.consume ts
  ({ t with
     lastSeen := ts
     totalPackets := t.totalPackets + 1
     totalBytes := t.totalBytes + bytes
     tokenBucket := bucket.1 },
    bucket.2)

def rateSinceFirst (t : IpTracker) (ts : DateTime) : ℚ :=
  if 1 < t.totalPackets then
    let elapsedMs : ℚ := (max (numMilliseconds (ts - t.firstSeen)) 1 : Int)
    t.totalPackets / (elapsedMs / 1000)
  else 1

/-- The average takes the packet in.  It has a say once it has enough samples. -/
def updateEma (sqrt : ℚ → ℚ) (minSamples : Nat) (t : IpTracker) (ts : DateTime) :
    IpTracker × Bool :=
  let ema := t.ema.update sqrt (t.rateSinceFirst ts)
  ({ t with ema := ema.1 }, decide (minSamples ≤ t.ema.samples) && ema.2)

end IpTracker

/-! ## The limiter -/

/-- The senders, the blocks and the counters. -/
structure IpRateLimiter where
  trackers : String → Option IpTracker
  config : RateLimiterConfig
  blocked : String → Option BlockInfo
  totalAllowed : Nat
  totalDropped : Nat
  totalChallenged : Nat

namespace IpRateLimiter

def new (config : RateLimiterConfig) : IpRateLimiter where
  trackers := fun _ => none
  config := config
  blocked := fun _ => none
  totalAllowed := 0
  totalDropped := 0
  totalChallenged := 0

/-- `trackers.entry(ip).or_insert_with(..)`. -/
def entry (l : IpRateLimiter) (ip : String) (ts : DateTime) : IpTracker :=
  (l.trackers ip).getD (.new l.config ip ts)

def setTracker (l : IpRateLimiter) (ip : String) (t : IpTracker) : IpRateLimiter :=
  { l with trackers := Function.update l.trackers ip (some t) }

def decision (bucketOk windowOk emaAnomaly : Bool) : RateLimitDecision :=
  if !bucketOk && !windowOk then .drop
  else if !bucketOk || !windowOk || emaAnomaly then .challenge
  else .allow

/-- The counters and the block list after a decision. -/
def settle (l : IpRateLimiter) (info : BlockInfo) : RateLimitDecision → IpRateLimiter
  | .drop =>
    { l with
      totalDropped := l.totalDropped + 1
      blocked := Function.update l.blocked info.ip (some info) }
  | .challenge => { l with totalChallenged := l.totalChallenged + 1 }
  | .allow => { l with totalAllowed := l.totalAllowed + 1 }

def blockReason (bucketOk windowOk emaAnomaly : Bool) : String :=
  s!"bucket={bucketOk} window={windowOk} ema_anomaly={emaAnomaly}"

/-- A packet of an IP that is not blocked. -/
def judge (sqrt : ℚ → ℚ) (l : IpRateLimiter) (ip : String) (bytes : Nat) (ts : DateTime) :
    IpRateLimiter × Option RateLimitDecision :=
  let arrived := (l.entry ip ts).arrive bytes ts
  let bucketOk := arrived.2
  match arrived.1.slidingWindow.record ts with
  | none => (l.setTracker ip arrived.1, none)
  | some (window, windowOk) =>
    let averaged :=
      { arrived.1 with slidingWindow := window }.updateEma sqrt l.config.emaMinSamples ts
    let tracker := averaged.1
    let emaAnomaly := averaged.2
    let info : BlockInfo :=
      { ip := ip
        reason := blockReason bucketOk windowOk emaAnomaly
        blockedAt := ts
        packetsAtBlock := tracker.totalPackets }
    let d := decision bucketOk windowOk emaAnomaly
    ((l.setTracker ip tracker).settle info d, some d)

/-- The decision on a packet, none when it panics. -/
def processPacket (sqrt : ℚ → ℚ) (l : IpRateLimiter) (ip : String) (bytes : Nat)
    (ts : DateTime) : IpRateLimiter × Option RateLimitDecision :=
  if (l.blocked ip).isSome then ({ l with totalDropped := l.totalDropped + 1 }, some .drop)
  else l.judge sqrt ip bytes ts

/-- The IP was not seen for more than `maxAge`, a number of nanoseconds. -/
def stale (l : IpRateLimiter) (maxAge : Nat) (now : DateTime) (ip : String) : Bool :=
  (l.trackers ip).any fun t => (asI64 (maxAge / 1000000)).toInt < numMilliseconds (now - t.lastSeen)

def cleanupStale (l : IpRateLimiter) (maxAge : Nat) (now : DateTime) : IpRateLimiter :=
  { l with
    trackers := fun ip => if l.stale maxAge now ip then none else l.trackers ip
    blocked := fun ip => if l.stale maxAge now ip then none else l.blocked ip }

def unblock (l : IpRateLimiter) (ip : String) : IpRateLimiter :=
  { l with blocked := Function.update l.blocked ip none }

/-! ## Runs -/

/-- The calls. -/
inductive Op where
  | processPacket (ip : String) (bytes : Nat) (ts : DateTime)
  | unblock (ip : String)
  | cleanupStale (maxAge : Nat) (now : DateTime)

/-- What a packet is answered with, none when the call panicked. -/
structure Answer where
  ip : String
  decision : Option RateLimitDecision

/-- The limiter over a run. -/
def machine (sqrt : ℚ → ℚ) (config : RateLimiterConfig) :
    StateMachine IpRateLimiter Op (Option Answer) where
  init := new config
  step l
    | .processPacket ip bytes ts =>
      ((l.processPacket sqrt ip bytes ts).1, some ⟨ip, (l.processPacket sqrt ip bytes ts).2⟩)
    | .unblock ip => (l.unblock ip, none)
    | .cleanupStale maxAge now => (l.cleanupStale maxAge now, none)

def decisionsFor (x : String) : Option Answer → List RateLimitDecision
  | some answer => if answer.ip = x then answer.decision.toList else []
  | none => []

/-- Packets that were decided, in an output. -/
def decided : Option Answer → Nat
  | some answer => if answer.decision.isSome then 1 else 0
  | none => 0

/-- The operation is not a packet or an unblocking of another IP. -/
def concerns (x : String) : Op → Bool
  | .processPacket ip _ _ => ip = x
  | .unblock ip => ip = x
  | .cleanupStale _ _ => true

def isPacket : Op → Bool
  | .processPacket _ _ _ => true
  | _ => false

variable {sqrt : ℚ → ℚ} {l l' : IpRateLimiter} {ip x : String} {bytes : Nat} {ts : DateTime}

/-! ### One packet -/

theorem judge_cases (sqrt : ℚ → ℚ) (l : IpRateLimiter) (ip : String) (bytes : Nat)
    (ts : DateTime) :
    (∃ t, asI32 (l.entry ip ts).slidingWindow.subWindowCount = 0 ∧
        l.judge sqrt ip bytes ts = (l.setTracker ip t, none)) ∨
      ∃ t info d,
        t.slidingWindow.subWindowCount = (l.entry ip ts).slidingWindow.subWindowCount ∧
          info.ip = ip ∧ t.lastSeen = info.blockedAt ∧
          l.judge sqrt ip bytes ts = ((l.setTracker ip t).settle info d, some d) := by
  rw [judge]
  split
  case h_1 h => exact Or.inl ⟨_, SlidingWindow.record_eq_none h, rfl⟩
  case h_2 h =>
    refine Or.inr ⟨_, _, _, ?_, rfl, rfl, rfl⟩
    exact SlidingWindow.subWindowCount_record h

/-! ### Accounting -/

def total (l : IpRateLimiter) : Nat := l.totalAllowed + l.totalDropped + l.totalChallenged

theorem total_settle (info : BlockInfo) (d : RateLimitDecision) :
    (l.settle info d).total = l.total + 1 := by
  cases d with
  | allow | drop | challenge => simp only [settle, total]; omega

theorem total_judge :
    (l.judge sqrt ip bytes ts).1.total =
      l.total + decided (some ⟨ip, (l.judge sqrt ip bytes ts).2⟩) := by
  obtain ⟨t, -, h⟩ | ⟨t, info, d, -, -, -, h⟩ := judge_cases sqrt l ip bytes ts
  · rw [h]
    rfl
  · rw [h]
    exact total_settle info d

theorem total_processPacket :
    (l.processPacket sqrt ip bytes ts).1.total =
      l.total + decided (some ⟨ip, (l.processPacket sqrt ip bytes ts).2⟩) := by
  rw [processPacket]
  split
  · simp only [total, decided, Option.isSome_some, if_true]
    omega
  · exact total_judge

variable (config : RateLimiterConfig)

theorem total_step (op : Op) :
    ((machine sqrt config).step l op).1.total =
      l.total + decided ((machine sqrt config).step l op).2 := by
  cases op with
  | processPacket ip bytes ts => exact total_processPacket
  | unblock ip => rfl
  | cleanupStale maxAge now => rfl

theorem total_exec (sqrt : ℚ → ℚ) (config : RateLimiterConfig) (ops : List Op) :
    ((machine sqrt config).exec (machine sqrt config).init ops).total =
      (((machine sqrt config).trace (machine sqrt config).init ops).map decided).sum := by
  have hinit : (machine sqrt config).init.total = (([] : List (Option Answer)).map decided).sum :=
    rfl
  refine StateMachine.exec_trace_invariant (P := fun l tr => total l = (tr.map decided).sum)
    (fun l tr op h => ?_) ops hinit
  rw [total_step, h, map_append, sum_append, map_cons, map_nil,
    sum_singleton]

/-! ### Trackers of blocked IPs -/

/-- Every blocked IP was last seen when it was blocked. -/
def Stamped (l : IpRateLimiter) : Prop :=
  ∀ x info, l.blocked x = some info → ∃ t, l.trackers x = some t ∧ t.lastSeen = info.blockedAt

theorem Stamped.setTracker (h : l.Stamped) (hip : l.blocked ip = none) (t : IpTracker) :
    (l.setTracker ip t).Stamped := by
  intro x info hx
  have hne : x ≠ ip := by
    rintro rfl
    exact absurd (hip.symm.trans hx) (by simp)
  obtain ⟨t', ht', hseen⟩ := h x info hx
  exact ⟨t', (Function.update_of_ne hne _ _).trans ht', hseen⟩

theorem Stamped.settle {info : BlockInfo} {t : IpTracker} (h : l.Stamped)
    (ht : l.trackers info.ip = some t) (hseen : t.lastSeen = info.blockedAt)
    (d : RateLimitDecision) : (l.settle info d).Stamped := by
  cases d with
  | allow => exact h
  | challenge => exact h
  | drop =>
    intro x info' hx
    by_cases hxip : x = info.ip
    · obtain rfl : info = info' := by simpa [IpRateLimiter.settle, hxip] using hx
      exact ⟨t, hxip ▸ ht, hseen⟩
    · exact h x info' (by simpa [IpRateLimiter.settle, hxip] using hx)

theorem Stamped.processPacket (h : l.Stamped) : (l.processPacket sqrt ip bytes ts).1.Stamped := by
  rw [IpRateLimiter.processPacket]
  split
  case isTrue => exact h
  case isFalse hblocked =>
    have hnone : l.blocked ip = none := by simpa using hblocked
    obtain ⟨t, -, hj⟩ | ⟨t, info, d, -, rfl, hseen, hj⟩ := judge_cases sqrt l ip bytes ts
    · rw [hj]
      exact h.setTracker hnone t
    · rw [hj]
      exact (h.setTracker hnone t).settle (Function.update_self _ _ _) hseen d

theorem Stamped.unblock (h : l.Stamped) (ip : String) : (l.unblock ip).Stamped := by
  intro x info hx
  by_cases hip : x = ip
  · simp [IpRateLimiter.unblock, hip] at hx
  · exact h x info (by simpa [IpRateLimiter.unblock, hip] using hx)

theorem Stamped.cleanupStale (h : l.Stamped) (maxAge : Nat) (now : DateTime) :
    (l.cleanupStale maxAge now).Stamped := by
  intro x info hx
  cases hs : l.stale maxAge now x with
  | true => simp [IpRateLimiter.cleanupStale, hs] at hx
  | false =>
    simp only [IpRateLimiter.cleanupStale, hs, Bool.false_eq_true, if_false] at hx ⊢
    exact h x info hx

theorem stamped_exec (sqrt : ℚ → ℚ) (config : RateLimiterConfig) (ops : List Op) :
    ((machine sqrt config).exec (machine sqrt config).init ops).Stamped := by
  have hinit : (machine sqrt config).init.Stamped := fun x info hx => by cases hx
  refine StateMachine.exec_invariant (fun l op h => ?_) ops hinit
  cases op with
  | processPacket ip bytes ts => exact h.processPacket
  | unblock ip => exact h.unblock ip
  | cleanupStale maxAge now => exact h.cleanupStale maxAge now

/-! ### What an IP sees -/

/-- The limiters hold the same for an IP. -/
structure SameAt (x : String) (l l' : IpRateLimiter) : Prop where
  config : l.config = l'.config
  trackers : l.trackers x = l'.trackers x
  blocked : l.blocked x = l'.blocked x

theorem SameAt.refl (x : String) (l : IpRateLimiter) : SameAt x l l := ⟨rfl, rfl, rfl⟩

theorem SameAt.trans {l₁ l₂ l₃ : IpRateLimiter} (h : SameAt x l₁ l₂) (h' : SameAt x l₂ l₃) :
    SameAt x l₁ l₃ :=
  ⟨h.config.trans h'.config, h.trackers.trans h'.trackers, h.blocked.trans h'.blocked⟩

theorem SameAt.setTracker (h : SameAt x l l') (t : IpTracker) :
    SameAt x (l.setTracker x t) (l'.setTracker x t) where
  config := h.config
  trackers := by simp [IpRateLimiter.setTracker]
  blocked := h.blocked

theorem SameAt.settle {info : BlockInfo} (h : SameAt x l l') (hip : info.ip = x)
    (d : RateLimitDecision) : SameAt x (l.settle info d) (l'.settle info d) := by
  cases d with
  | allow | challenge => exact ⟨h.config, h.trackers, h.blocked⟩
  | drop => exact ⟨h.config, h.trackers, by simp [IpRateLimiter.settle, hip]⟩

theorem SameAt.judge (h : SameAt ip l l') :
    SameAt ip (l.judge sqrt ip bytes ts).1 (l'.judge sqrt ip bytes ts).1 ∧
      (l.judge sqrt ip bytes ts).2 = (l'.judge sqrt ip bytes ts).2 := by
  have hentry : l.entry ip ts = l'.entry ip ts := by rw [entry, entry, h.trackers, h.config]
  rw [IpRateLimiter.judge, IpRateLimiter.judge, hentry, h.config]
  split
  · exact ⟨h.setTracker _, rfl⟩
  · exact ⟨(h.setTracker _).settle rfl _, rfl⟩

theorem SameAt.processPacket (h : SameAt ip l l') :
    SameAt ip (l.processPacket sqrt ip bytes ts).1 (l'.processPacket sqrt ip bytes ts).1 ∧
      (l.processPacket sqrt ip bytes ts).2 = (l'.processPacket sqrt ip bytes ts).2 := by
  rw [IpRateLimiter.processPacket, IpRateLimiter.processPacket, h.blocked]
  split
  · exact ⟨⟨h.config, h.trackers, h.blocked⟩, rfl⟩
  · exact h.judge

theorem SameAt.unblock (h : SameAt x l l') (ip : String) :
    SameAt x (l.unblock ip) (l'.unblock ip) where
  config := h.config
  trackers := h.trackers
  blocked := by simp [IpRateLimiter.unblock, Function.update_apply, h.blocked]

theorem SameAt.cleanupStale (h : SameAt x l l') (maxAge : Nat) (now : DateTime) :
    SameAt x (l.cleanupStale maxAge now) (l'.cleanupStale maxAge now) := by
  have hstale : l.stale maxAge now x = l'.stale maxAge now x := by rw [stale, stale, h.trackers]
  refine ⟨h.config, ?_, ?_⟩
  · simp only [IpRateLimiter.cleanupStale, hstale, h.trackers]
  · simp only [IpRateLimiter.cleanupStale, hstale, h.blocked]

theorem sameAt_processPacket_of_ne (hne : x ≠ ip) :
    SameAt x (l.processPacket sqrt ip bytes ts).1 l := by
  rw [processPacket]
  split
  · exact ⟨rfl, rfl, rfl⟩
  · obtain ⟨t, -, h⟩ | ⟨t, info, d, -, rfl, -, h⟩ := judge_cases sqrt l ip bytes ts
    · rw [h]
      exact ⟨rfl, Function.update_of_ne hne _ _, rfl⟩
    · rw [h]
      cases d with
      | allow | challenge => exact ⟨rfl, Function.update_of_ne hne _ _, rfl⟩
      | drop => exact ⟨rfl, Function.update_of_ne hne _ _, Function.update_of_ne hne _ _⟩

theorem sameAt_unblock_of_ne (hne : x ≠ ip) : SameAt x (l.unblock ip) l :=
  ⟨rfl, rfl, Function.update_of_ne hne _ _⟩

/-- An operation on the IP, or a sweep, is answered alike by limiters that hold the same. -/
theorem SameAt.step (h : SameAt x l l') {op : Op} (hop : concerns x op = true) :
    SameAt x ((machine sqrt config).step l op).1 ((machine sqrt config).step l' op).1 ∧
      decisionsFor x ((machine sqrt config).step l op).2 =
        decisionsFor x ((machine sqrt config).step l' op).2 := by
  cases op with
  | processPacket ip bytes ts =>
    obtain rfl : ip = x := by simpa [concerns] using hop
    obtain ⟨hsame, hdecision⟩ : _ ∧ _ := h.processPacket
    refine ⟨hsame, ?_⟩
    simp only [machine, hdecision]
  | unblock ip => exact ⟨h.unblock ip, rfl⟩
  | cleanupStale maxAge now => exact ⟨h.cleanupStale maxAge now, rfl⟩

theorem SameAt.step_other (h : SameAt x l l') {op : Op} (hop : concerns x op = false) :
    SameAt x ((machine sqrt config).step l op).1 l' ∧
      decisionsFor x ((machine sqrt config).step l op).2 = [] := by
  cases op with
  | processPacket ip bytes ts =>
    have hne : ip ≠ x := by simpa [concerns] using hop
    exact ⟨(sameAt_processPacket_of_ne hne.symm).trans h, if_neg hne⟩
  | unblock ip =>
    have hne : ip ≠ x := by simpa [concerns] using hop
    exact ⟨(sameAt_unblock_of_ne hne.symm).trans h, rfl⟩
  | cleanupStale maxAge now => simp [concerns] at hop

/-! ### Calls that return -/

/-- No window is divided by zero, in the trackers there are and in those to come. -/
structure Divides (l : IpRateLimiter) : Prop where
  config : asI32 l.config.subWindowCount ≠ 0
  trackers : ∀ x t, l.trackers x = some t → asI32 t.slidingWindow.subWindowCount ≠ 0

theorem Divides.entry (h : l.Divides) :
    asI32 (l.entry ip ts).slidingWindow.subWindowCount ≠ 0 := by
  rw [IpRateLimiter.entry]
  cases ht : l.trackers ip with
  | none => exact h.config
  | some t => exact h.trackers ip t ht

theorem Divides.setTracker (h : l.Divides) {t : IpTracker}
    (ht : asI32 t.slidingWindow.subWindowCount ≠ 0) : (l.setTracker ip t).Divides := by
  refine ⟨h.config, fun x t' ht' => ?_⟩
  by_cases hx : x = ip
  · obtain rfl : t = t' := by simpa [IpRateLimiter.setTracker, hx] using ht'
    exact ht
  · exact h.trackers x t' (by simpa [IpRateLimiter.setTracker, hx] using ht')

theorem Divides.settle (h : l.Divides) (info : BlockInfo) (d : RateLimitDecision) :
    (l.settle info d).Divides := by
  cases d with
  | allow | drop | challenge => exact ⟨h.config, h.trackers⟩

theorem Divides.processPacket (h : l.Divides) :
    (l.processPacket sqrt ip bytes ts).1.Divides ∧
      (l.processPacket sqrt ip bytes ts).2.isSome := by
  rw [IpRateLimiter.processPacket]
  split
  · exact ⟨⟨h.config, h.trackers⟩, rfl⟩
  · obtain ⟨t, hzero, -⟩ | ⟨t, info, d, hcount, -, -, hj⟩ := judge_cases sqrt l ip bytes ts
    · exact absurd hzero h.entry
    · rw [hj]
      exact ⟨(h.setTracker (hcount ▸ h.entry)).settle info d, rfl⟩

theorem Divides.cleanupStale (h : l.Divides) (maxAge : Nat) (now : DateTime) :
    (l.cleanupStale maxAge now).Divides := by
  refine ⟨h.config, fun x t ht => ?_⟩
  cases hs : l.stale maxAge now x with
  | true => simp [IpRateLimiter.cleanupStale, hs] at ht
  | false => exact h.trackers x t (by simpa [IpRateLimiter.cleanupStale, hs] using ht)

theorem Divides.step (op : Op) (h : l.Divides) : ((machine sqrt config).step l op).1.Divides := by
  cases op with
  | processPacket ip bytes ts => exact h.processPacket.1
  | unblock ip => exact ⟨h.config, h.trackers⟩
  | cleanupStale maxAge now => exact h.cleanupStale maxAge now

/-- Every packet is decided. -/
theorem Divides.decided_step (op : Op) (h : l.Divides) :
    decided ((machine sqrt config).step l op).2 = if isPacket op then 1 else 0 := by
  cases op with
  | processPacket ip bytes ts => exact if_pos h.processPacket.2
  | unblock ip => rfl
  | cleanupStale maxAge now => rfl

theorem sum_decided (sqrt : ℚ → ℚ) {config : RateLimiterConfig}
    (hdiv : asI32 config.subWindowCount ≠ 0) (ops : List Op) :
    (((machine sqrt config).trace (machine sqrt config).init ops).map decided).sum =
      ops.countP isPacket := by
  have hinit : (machine sqrt config).init.Divides := ⟨hdiv, fun x t ht => by cases ht⟩
  rw [StateMachine.trace_map_eq (fun l op h => Divides.step config op h)
    (fun l op h => h.decided_step config op) ops hinit]
  induction ops with
  | nil => rfl
  | cons op ops ih =>
    rw [map_cons, sum_cons, ih, countP_cons]
    omega

/-! ### The main result -/

/-- The three counters together count the packets that were decided, which is every packet
unless the windows are divided by zero.  Every blocked IP has a tracker.  An IP gets the
decisions it would get if the packets and the unblockings of all others were deleted, and
is blocked in the end exactly if it is then. -/
theorem rateLimiter_independent (sqrt : ℚ → ℚ) (config : RateLimiterConfig) (ops : List Op) :
    let M := machine sqrt config
    let l := M.exec M.init ops
    l.totalAllowed + l.totalDropped + l.totalChallenged =
        ((M.trace M.init ops).map decided).sum ∧
      (asI32 config.subWindowCount ≠ 0 →
        l.totalAllowed + l.totalDropped + l.totalChallenged = ops.countP isPacket) ∧
      (∀ x, (l.blocked x).isSome → (l.trackers x).isSome) ∧
      ∀ x,
        (M.trace M.init ops).flatMap (decisionsFor x) =
            (M.trace M.init (ops.filter (concerns x))).flatMap (decisionsFor x) ∧
          (l.blocked x).isSome =
            ((M.exec M.init (ops.filter (concerns x))).blocked x).isSome := by
  intro M l
  have htotal : l.total = ((M.trace M.init ops).map decided).sum := total_exec sqrt config ops
  refine ⟨htotal, fun hdiv => ?_, ?_, fun x => ?_⟩
  · exact htotal.trans (sum_decided sqrt hdiv ops)
  · intro x hx
    obtain ⟨info, hinfo⟩ := Option.isSome_iff_exists.mp hx
    obtain ⟨t, ht, -⟩ := stamped_exec sqrt config ops x info hinfo
    exact ht ▸ rfl
  · obtain ⟨hsame, hdecisions⟩ := StateMachine.exec_trace_filter
      (fun _ _ _ h hop => h.step config hop) (fun _ _ _ h hop => h.step_other config hop) ops
      (SameAt.refl x M.init)
    exact ⟨hdecisions, congrArg Option.isSome hsame.blocked⟩

end IpRateLimiter

end Innerwarden
