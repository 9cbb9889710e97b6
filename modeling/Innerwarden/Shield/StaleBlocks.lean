import Innerwarden.Shield.RateLimiter

/-!
# Blocks and the cleanup of the rate limiter

`cleanup_stale` releases the IPs it has not seen for long.  The packets of a blocked IP are
dropped before they are judged, so a blocked IP is last seen when it was blocked
(`stamped_exec`).
`sparesSenders_iff` says that a cleanup spares the senders exactly if their blocks are recent.
-/

namespace Innerwarden

namespace IpRateLimiter

variable {l : IpRateLimiter}

/-- The milliseconds a cleanup allows are over since the block, as the cleanup counts. -/
def Outdated (maxAge : Nat) (now : DateTime) (info : BlockInfo) : Prop :=
  (asI64 (maxAge / 1000000)).toInt < numMilliseconds (now - info.blockedAt)

/-- A cleanup removes exactly the outdated blocks. -/
theorem Stamped.blocked_cleanupStale (h : l.Stamped) {x : String} {info : BlockInfo}
    (hx : l.blocked x = some info) (maxAge : Nat) (now : DateTime) :
    ((l.cleanupStale maxAge now).blocked x).isSome ↔ ¬ Outdated maxAge now info := by
  obtain ⟨t, ht, hseen⟩ := h x info hx
  have hstale : l.stale maxAge now x = true ↔ Outdated maxAge now info := by
    simp [stale, ht, hseen, Outdated]
  rw [← hstale]
  cases hs : l.stale maxAge now x with
  | true => simp [IpRateLimiter.cleanupStale, hs]
  | false => simp [IpRateLimiter.cleanupStale, hs, hx]

/-- The IP sent a packet in the last `maxAge` nanoseconds. -/
def Sent (ops : List Op) (ip : String) (maxAge : Nat) (now : DateTime) : Prop :=
  ∃ bytes ts, .processPacket ip bytes ts ∈ ops ∧ now - maxAge ≤ ts ∧ ts ≤ now

/-- No cleanup of the run removes the block of an IP that sent in the time it looks back on. -/
def SparesSenders (sqrt : ℚ → ℚ) (config : RateLimiterConfig) (ops : List Op) : Prop :=
  ∀ pre maxAge now post, ops = pre ++ .cleanupStale maxAge now :: post →
    let l := (machine sqrt config).exec (machine sqrt config).init pre
    ∀ ip, Sent pre ip maxAge now → (l.blocked ip).isSome →
      ((l.cleanupStale maxAge now).blocked ip).isSome

/-- At every cleanup of the run, the blocks of the IPs that sent are recent. -/
def BlocksRecent (sqrt : ℚ → ℚ) (config : RateLimiterConfig) (ops : List Op) : Prop :=
  ∀ pre maxAge now post, ops = pre ++ .cleanupStale maxAge now :: post →
    let l := (machine sqrt config).exec (machine sqrt config).init pre
    ∀ ip info, Sent pre ip maxAge now → l.blocked ip = some info → ¬ Outdated maxAge now info

/-- What an IP sends after it was blocked does not count: the cleanups of a run spare the
senders exactly if none of their blocks is outdated. -/
theorem sparesSenders_iff (sqrt : ℚ → ℚ) (config : RateLimiterConfig) (ops : List Op) :
    SparesSenders sqrt config ops ↔ BlocksRecent sqrt config ops := by
  constructor
  · intro h pre maxAge now post hops l ip info hsent hinfo
    have hspared := h pre maxAge now post hops ip hsent (by rw [hinfo]; rfl)
    exact ((stamped_exec sqrt config pre).blocked_cleanupStale hinfo maxAge now).mp hspared
  · intro h pre maxAge now post hops l ip hsent hblocked
    obtain ⟨info, hinfo⟩ := Option.isSome_iff_exists.mp hblocked
    have hrecent := h pre maxAge now post hops ip info hsent hinfo
    exact ((stamped_exec sqrt config pre).blocked_cleanupStale hinfo maxAge now).mpr hrecent

def oneAtATime : RateLimiterConfig :=
  { bucketMaxTokens := 1, bucketRefillRate := 1, windowSecs := 1, subWindowCount := 1
    windowMaxRate := 1 }

/-- Two packets at once and one a hundred seconds later.  The second blocks the IP, the third
is dropped.  A cleanup of what is older than a minute, at the instant of the third packet,
lets the IP go.  No square root is taken but that of zero. -/
theorem cleanup_releases_sender :
    let packet := fun ts => Op.processPacket "203.0.113.9" 60 ts
    ¬ SparesSenders (fun x => x) oneAtATime
      [packet 0, packet 0, packet (seconds 100), .cleanupStale 60000000000 (seconds 100)] := by
  intro packet h
  let sent := [packet 0, packet 0, packet (seconds 100)]
  let l := (machine (fun x => x) oneAtATime).exec (machine (fun x => x) oneAtATime).init sent
  have hrun : (l.blocked "203.0.113.9").isSome ∧
      ¬ ((l.cleanupStale 60000000000 (seconds 100)).blocked "203.0.113.9").isSome := by
    decide +kernel
  have hsent : Sent sent "203.0.113.9" 60000000000 (seconds 100) :=
    ⟨60, seconds 100, by simp [sent, packet], by decide, by decide⟩
  exact hrun.2 (h sent 60000000000 (seconds 100) [] rfl "203.0.113.9" hsent hrun.1)

end IpRateLimiter

end Innerwarden
