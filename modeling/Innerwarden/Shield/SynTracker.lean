import Mathlib.Algebra.Order.Field.Rat
import Innerwarden.Lib.EventWindow
import Innerwarden.Lib.FiniteMap
import Innerwarden.Lib.StateMachine
import Innerwarden.Time

/-!
# The detector of SYN floods

`shield/src/syn_tracker.rs`.  For each address the detector keeps the instants of its SYNs and
of its completed connections, and calls it a flood when there are many SYNs and few completions.

Each of the two queues is cut to the window when an event of its own kind comes in.  So right
after a SYN the queue of completions is that of the window that ended at the last completion.
`flood_iff` says when that makes the verdict wrong.

The ratio is rational.  Left out are `expire_all`, `get_flagged_ips` and the panic of
`Duration::seconds`.
-/

namespace Innerwarden

open List

/-! ## The detector -/

/-- The verdict on an address or on all. -/
inductive SynVerdict where
  | normal
  | synFloodFromIp (ip : String)
  | globalSynFlood
deriving DecidableEq

/-- The thresholds, with their defaults. -/
structure SynFloodConfig where
  windowSecs : Int := 30
  synThreshold : Nat := 100
  completionRatio : ℚ := 1 / 10
  halfOpenThreshold : Nat := 5000

/-- `Duration::seconds` of the window. -/
def SynFloodConfig.window (config : SynFloodConfig) : Int := seconds config.windowSecs

/-- The queues of instants, and the estimate. -/
structure SynFloodDetector where
  synCounts : FiniteMap String (List DateTime)
  ackCounts : FiniteMap String (List DateTime)
  halfOpenEstimate : Nat
  config : SynFloodConfig

def expireDeque (deque : List DateTime) (now : DateTime) (window : Int) : List DateTime :=
  deque.dropWhile fun front => front < now - window

/-- The instants kept for an address, none without an entry. -/
def instantsFor (counts : FiniteMap String (List DateTime)) (ip : String) : List DateTime :=
  (counts.lookup ip).getD []

/-- One more instant for an address, and the old ones of its queue dropped. -/
def pushInstant (counts : FiniteMap String (List DateTime)) (window : Int) (ip : String)
    (ts : DateTime) : FiniteMap String (List DateTime) :=
  counts.insert ip (expireDeque (instantsFor counts ip ++ [ts]) ts window)

namespace SynFloodDetector

def new (config : SynFloodConfig) : SynFloodDetector := ⟨∅, ∅, 0, config⟩

def recordSyn (d : SynFloodDetector) (ip : String) (ts : DateTime) : SynFloodDetector :=
  { d with
    synCounts := pushInstant d.synCounts d.config.window ip ts
    halfOpenEstimate := min (d.halfOpenEstimate + 1) (2 ^ 64 - 1) }

def recordAck (d : SynFloodDetector) (ip : String) (ts : DateTime) : SynFloodDetector :=
  { d with
    ackCounts := pushInstant d.ackCounts d.config.window ip ts
    halfOpenEstimate := d.halfOpenEstimate - 1 }

def synCountFor (d : SynFloodDetector) (ip : String) : Nat := (instantsFor d.synCounts ip).length

def ackCountFor (d : SynFloodDetector) (ip : String) : Nat := (instantsFor d.ackCounts ip).length

/-- The share of completions, one without a SYN. -/
def ratio (syns acks : Nat) : ℚ := if syns = 0 then 1 else acks / syns

def checkIp (d : SynFloodDetector) (ip : String) : SynVerdict :=
  if d.config.synThreshold ≤ d.synCountFor ip ∧
      ratio (d.synCountFor ip) (d.ackCountFor ip) < d.config.completionRatio then
    .synFloodFromIp ip
  else .normal

def checkGlobal (d : SynFloodDetector) : SynVerdict :=
  if d.config.halfOpenThreshold < d.halfOpenEstimate then .globalSynFlood else .normal

theorem checkIp_eq_flood {d : SynFloodDetector} {ip : String} :
    d.checkIp ip = .synFloodFromIp ip ↔
      d.config.synThreshold ≤ d.synCountFor ip ∧
        ratio (d.synCountFor ip) (d.ackCountFor ip) < d.config.completionRatio := by
  rw [checkIp]
  split
  case isTrue h => exact iff_of_true rfl h
  case isFalse h => exact iff_of_false (by simp) h

/-! ## Events -/

/-- A SYN or a completed connection of an address. -/
inductive Event where
  | syn (ip : String) (ts : DateTime)
  | ack (ip : String) (ts : DateTime)

def Event.ts : Event → DateTime
  | syn _ ts => ts
  | ack _ ts => ts

def Event.synOf (ip : String) : Event → Option DateTime
  | syn ip' ts => if ip' = ip then some ts else none
  | ack _ _ => none

def Event.ackOf (ip : String) : Event → Option DateTime
  | syn _ _ => none
  | ack ip' ts => if ip' = ip then some ts else none

def synsOf (ip : String) (events : List Event) : List DateTime := events.filterMap (Event.synOf ip)

def acksOf (ip : String) (events : List Event) : List DateTime := events.filterMap (Event.ackOf ip)

/-- How many of the instants are in the window that ends at `t`. -/
def countIn (window : Int) (t : DateTime) (ts : List DateTime) : Nat :=
  ts.countP fun u => t - window ≤ u ∧ u ≤ t

def countAtLast (window : Int) (ts : List DateTime) : Nat :=
  match ts.getLast? with
  | none => 0
  | some t => countIn window t ts

def machine (config : SynFloodConfig) : StateMachine SynFloodDetector Event Unit where
  init := new config
  step d
    | .syn ip ts => (d.recordSyn ip ts, ())
    | .ack ip ts => (d.recordAck ip ts, ())

def fed (config : SynFloodConfig) (events : List Event) : SynFloodDetector :=
  (machine config).exec (machine config).init events

/-! ## The queues -/

theorem instantsFor_pushInstant (counts : FiniteMap String (List DateTime)) (window : Int)
    (ip ip' : String) (ts : DateTime) :
    instantsFor (pushInstant counts window ip ts) ip' =
      if ip' = ip then expireDeque (instantsFor counts ip ++ [ts]) ts window
      else instantsFor counts ip' := by
  rw [instantsFor, pushInstant, FiniteMap.lookup_insert_eq]
  split <;> rfl

def lastWindow (window : Int) (ts : List DateTime) : List DateTime :=
  match ts.getLast? with
  | none => []
  | some t => ts.filter fun u => t - window ≤ u

theorem lastWindow_concat (window : Int) (ts : List DateTime) (t : DateTime) :
    lastWindow window (ts ++ [t]) = (ts ++ [t]).filter fun u => t - window ≤ u := by
  simp [lastWindow]

variable {window : Int} {ts : List DateTime}

theorem filter_lastWindow {t : DateTime} (ht : ∀ u ∈ ts, u ≤ t) :
    (lastWindow window ts).filter (fun u => t - window ≤ u) =
      ts.filter fun u => t - window ≤ u := by
  rw [lastWindow]
  cases hlast : ts.getLast? with
  | none => rw [getLast?_eq_none_iff.mp hlast]
  | some last =>
    have hle : last ≤ t := ht last (mem_of_getLast? hlast)
    rw [filter_filter]
    refine filter_congr fun u _ => ?_
    have hlater : t - window ≤ u → last - window ≤ u := fun h =>
      Int.le_trans (Int.sub_le_sub_right hle window) h
    simpa using hlater

theorem lastWindow_sublist (window : Int) (ts : List DateTime) :
    (lastWindow window ts).Sublist ts := by
  rw [lastWindow]
  split
  · exact nil_sublist ts
  · exact filter_sublist

theorem expireDeque_lastWindow {t : DateTime} (hsorted : (ts ++ [t]).Pairwise (· ≤ ·)) :
    expireDeque (lastWindow window ts ++ [t]) t window = lastWindow window (ts ++ [t]) := by
  have hqueue : ((lastWindow window ts ++ [t]).map id).Pairwise (· ≤ ·) := by
    rw [map_id]
    exact hsorted.sublist ((lastWindow_sublist window ts).append_right [t])
  have hle : ∀ u ∈ ts, u ≤ t := fun u hu =>
    (pairwise_append.mp hsorted).2.2 u hu t (mem_singleton_self t)
  have hcut := EventWindow.dropWhile_eq_filter hqueue (t - window)
  simp only [id_eq] at hcut
  rw [expireDeque, hcut, lastWindow_concat, filter_append, filter_append,
    filter_lastWindow hle]

theorem length_lastWindow (hsorted : ts.Pairwise (· ≤ ·)) :
    (lastWindow window ts).length = countAtLast window ts := by
  rw [lastWindow, countAtLast]
  cases hlast : ts.getLast? with
  | none => rfl
  | some t =>
    obtain ⟨init, rfl⟩ := getLast?_eq_some_iff.mp hlast
    obtain ⟨-, -, hle⟩ := pairwise_append.mp hsorted
    simp only [countIn, countP_eq_length_filter]
    congr 1
    refine filter_congr fun u hu => ?_
    have hut : u ≤ t := by
      rcases mem_append.mp hu with hu | hu
      · exact hle u hu t (mem_singleton_self t)
      · exact le_of_eq (mem_singleton.mp hu)
    simp [hut]

theorem countIn_le_countAtLast {t : DateTime} (hsorted : (ts ++ [t]).Pairwise (· ≤ ·)) :
    countIn window t ts ≤ countAtLast window ts := by
  obtain ⟨hts, -, hle⟩ := pairwise_append.mp hsorted
  have hle : ∀ u ∈ ts, u ≤ t := fun u hu => hle u hu t (mem_singleton_self t)
  rw [← length_lastWindow hts, countIn]
  calc ts.countP (fun u => t - window ≤ u ∧ u ≤ t)
      ≤ (ts.filter fun u => t - window ≤ u).length := by
        rw [← countP_eq_length_filter]
        exact countP_mono_left fun u _ hu => by
          simp only [decide_eq_true_eq] at hu ⊢
          exact hu.1
    _ = ((lastWindow window ts).filter fun u => t - window ≤ u).length := by
        rw [filter_lastWindow hle]
    _ ≤ (lastWindow window ts).length := length_filter_le _ _

/-! ## Runs -/

/-- Events in the order of their instants. -/
def InOrder (events : List Event) : Prop := events.Pairwise fun a b => a.ts ≤ b.ts

instance (events : List Event) : Decidable (InOrder events) :=
  inferInstanceAs (Decidable (List.Pairwise _ _))

/-- Each queue is that of the window which ended at its last event. -/
structure Queues (config : SynFloodConfig) (events : List Event) (d : SynFloodDetector) : Prop where
  configured : d.config = config
  syns : ∀ ip, instantsFor d.synCounts ip = lastWindow config.window (synsOf ip events)
  acks : ∀ ip, instantsFor d.ackCounts ip = lastWindow config.window (acksOf ip events)

variable {config : SynFloodConfig} {events : List Event} {ip : String} {t : DateTime}

theorem fed_concat (e : Event) :
    fed config (events ++ [e]) = ((machine config).step (fed config events) e).1 := by
  rw [fed, StateMachine.exec_append]
  rfl

theorem ts_of_synOf {e : Event} (h : e.synOf ip = some t) : e.ts = t := by
  cases e with
  | syn ip' ts =>
    simp only [Event.synOf, Option.ite_none_right_eq_some, Option.some.injEq] at h
    exact h.2
  | ack ip' ts => cases h

theorem ts_of_ackOf {e : Event} (h : e.ackOf ip = some t) : e.ts = t := by
  cases e with
  | syn ip' ts => cases h
  | ack ip' ts =>
    simp only [Event.ackOf, Option.ite_none_right_eq_some, Option.some.injEq] at h
    exact h.2

theorem InOrder.filterMap_concat {f : Event → Option DateTime} (hf : ∀ e u, f e = some u → e.ts = u)
    {e : Event} (h : InOrder (events ++ [e])) :
    (events.filterMap f ++ [e.ts]).Pairwise (· ≤ ·) := by
  obtain ⟨hinit, -, hle⟩ := pairwise_append.mp h
  refine pairwise_append.mpr ⟨?_, pairwise_singleton .., fun u hu v hv => ?_⟩
  · refine List.Pairwise.filterMap f ?_ hinit
    intro e e' hle u hu u' hu'
    rw [← hf e u hu, ← hf e' u' hu']
    exact hle
  · obtain ⟨e', he', hu⟩ := mem_filterMap.mp hu
    rw [mem_singleton.mp hv, ← hf e' u hu]
    exact hle e' he' e (mem_singleton_self e)

/-- An instant of an address comes in, for the queue whose events `f` selects. -/
theorem instantsFor_concat {counts : FiniteMap String (List DateTime)}
    {f : String → Event → Option DateTime} {e : Event}
    (he : ∀ ip', f ip' e = if ip = ip' then some t else none)
    (hcounts : ∀ ip', instantsFor counts ip' = lastWindow window (events.filterMap (f ip')))
    (hsorted : (events.filterMap (f ip) ++ [t]).Pairwise (· ≤ ·)) (ip' : String) :
    instantsFor (pushInstant counts window ip t) ip' =
      lastWindow window ((events ++ [e]).filterMap (f ip')) := by
  rw [instantsFor_pushInstant, filterMap_append]
  by_cases heq : ip' = ip
  · subst heq
    simpa [he, hcounts] using expireDeque_lastWindow hsorted
  · simp [he, hcounts, heq, Ne.symm heq]

theorem queues_fed (config : SynFloodConfig) (h : InOrder events) :
    Queues config events (fed config events) := by
  induction events using List.reverseRecOn with
  | nil => exact ⟨rfl, fun _ => rfl, fun _ => rfl⟩
  | append_singleton events e ih =>
    obtain ⟨hconfig, hsyns, hacks⟩ := ih (pairwise_append.mp h).1
    have hwindow : (fed config events).config.window = config.window := by rw [hconfig]
    rw [fed_concat]
    cases e with
    | syn ip ts =>
      refine ⟨hconfig, fun ip' => ?_, fun ip' => ?_⟩
      · rw [synsOf, ← instantsFor_concat (fun _ => rfl) hsyns
          (h.filterMap_concat fun _ _ => ts_of_synOf) ip', ← hwindow]
        rfl
      · rw [acksOf, filterMap_append, filterMap_cons_none rfl, filterMap_nil, append_nil]
        exact hacks ip'
    | ack ip ts =>
      refine ⟨hconfig, fun ip' => ?_, fun ip' => ?_⟩
      · rw [synsOf, filterMap_append, filterMap_cons_none rfl, filterMap_nil, append_nil]
        exact hsyns ip'
      · rw [acksOf, ← instantsFor_concat (fun _ => rfl) hacks
          (h.filterMap_concat fun _ _ => ts_of_ackOf) ip', ← hwindow]
        rfl

/-! ## The verdict -/

theorem countAtLast_concat (window : Int) (t : DateTime) :
    countAtLast window (ts ++ [t]) = countIn window t (ts ++ [t]) := by
  simp [countAtLast]

theorem div_le_ratio {syns acks acks' : Nat} (h : acks ≤ acks') :
    (acks : ℚ) / syns ≤ ratio syns acks' := by
  rw [ratio]
  split
  case isTrue hzero => simp [hzero]
  case isFalse hpos =>
    have hacks : (acks : ℚ) ≤ acks' := by exact_mod_cast h
    exact div_le_div_of_nonneg_right hacks (Nat.cast_nonneg syns)

/-- Right after a SYN at `t`, the verdict is that of the window which ends at `t` exactly if
the completions in the window of the last completion do not hide a flood. -/
theorem flood_iff (config : SynFloodConfig) (events : List Event) (ip : String) (t : DateTime)
    (hordered : InOrder (events ++ [.syn ip t])) :
    let history := events ++ [.syn ip t]
    let syns := countIn config.window t (synsOf ip history)
    let acks := countIn config.window t (acksOf ip history)
    let acksAtLast := countAtLast config.window (acksOf ip history)
    (((fed config history).checkIp ip = .synFloodFromIp ip) ↔
        config.synThreshold ≤ syns ∧ (acks : ℚ) / syns < config.completionRatio) ↔
      (config.synThreshold ≤ syns → (acks : ℚ) / syns < config.completionRatio →
        ratio syns acksAtLast < config.completionRatio) := by
  intro history syns acks acksAtLast
  have hqueues := queues_fed config hordered
  have hsyns : (fed config history).synCountFor ip = syns := by
    have hhistory : synsOf ip history = synsOf ip events ++ [t] := by
      simp [history, synsOf, Event.synOf]
    have hsorted : (synsOf ip events ++ [t]).Pairwise (· ≤ ·) :=
      hordered.filterMap_concat fun _ _ => ts_of_synOf
    rw [synCountFor, hqueues.syns, hhistory, length_lastWindow hsorted, countAtLast_concat,
      ← hhistory]
  have hhistory : acksOf ip history = acksOf ip events := by simp [history, acksOf, Event.ackOf]
  have hsorted : (acksOf ip history ++ [t]).Pairwise (· ≤ ·) := by
    rw [hhistory]
    exact hordered.filterMap_concat fun _ _ => ts_of_ackOf
  have hacks : (fed config history).ackCountFor ip = acksAtLast := by
    rw [ackCountFor, hqueues.acks, length_lastWindow (pairwise_append.mp hsorted).1]
  have hfewer : acks ≤ acksAtLast := countIn_le_countAtLast hsorted
  have hratio : (acks : ℚ) / syns ≤ ratio syns acksAtLast := div_le_ratio hfewer
  rw [checkIp_eq_flood, hsyns, hacks, hqueues.configured]
  constructor
  · intro hiff hmany hlow
    exact (hiff.mpr ⟨hmany, hlow⟩).2
  · intro hseen
    exact ⟨fun h => ⟨h.1, hratio.trans_lt h.2⟩, fun h => ⟨h.1, hseen h.1 h.2⟩⟩

/-- A SYN and a completion have left the window, a completion and two SYNs are in it. -/
theorem flood_iff_expired :
    let config : SynFloodConfig := { synThreshold := 2, completionRatio := 3 / 4 }
    let history : List Event := [.syn "203.0.113.9" 0, .ack "203.0.113.9" 0,
      .ack "203.0.113.9" (seconds 90), .syn "203.0.113.9" (seconds 95),
      .syn "203.0.113.9" (seconds 100)]
    countIn config.window (seconds 100) (synsOf "203.0.113.9" history) = 2 ∧
      countIn config.window (seconds 100) (acksOf "203.0.113.9" history) = 1 ∧
      (fed config history).checkIp "203.0.113.9" = .synFloodFromIp "203.0.113.9" := by
  refine ⟨by decide, by decide, ((flood_iff { synThreshold := 2, completionRatio := 3 / 4 }
    [.syn "203.0.113.9" 0, .ack "203.0.113.9" 0, .ack "203.0.113.9" (seconds 90),
      .syn "203.0.113.9" (seconds 95)] "203.0.113.9" (seconds 100) (by decide)).mpr ?_).mpr ?_⟩ <;>
    decide +kernel

/-- Two completed connections hide a flood that begins a hundred seconds later. -/
theorem old_acks_hide_flood :
    let config : SynFloodConfig := { synThreshold := 2 }
    let attacker := "203.0.113.9"
    let history : List Event := [.ack attacker 0, .ack attacker 0,
      .syn attacker (seconds 100), .syn attacker (seconds 100)]
    let syns := countIn config.window (seconds 100) (synsOf attacker history)
    let acks := countIn config.window (seconds 100) (acksOf attacker history)
    InOrder history ∧ config.synThreshold ≤ syns ∧
      (acks : ℚ) / syns < config.completionRatio ∧
      (fed config history).checkIp attacker = .normal := by
  decide +kernel

/-! ## The global verdict -/

/-- By how much the SYNs outnumber the completions. -/
def excess (events : List Event) : Int :=
  (events.map fun
    | .syn _ _ => 1
    | .ack _ _ => -1).sum

/-- The largest excess of a stretch of events up to the end. -/
def worstExcess (events : List Event) : Int := (events.tails.map excess).foldr max 0

theorem halfOpenEstimate_exec (config : SynFloodConfig) (d : SynFloodDetector) {events : List Event}
    (hlen : d.halfOpenEstimate + events.length < 2 ^ 64) :
    ((machine config).exec d events).halfOpenEstimate =
      max (d.halfOpenEstimate + excess events) (worstExcess events) := by
  induction events generalizing d with
  | nil => simp [excess, worstExcess]
  | cons e events ih =>
    rw [length_cons] at hlen
    have hworst : worstExcess (e :: events) = max (excess (e :: events)) (worstExcess events) := by
      simp [worstExcess]
    have hself : excess events ≤ worstExcess events := by
      cases events <;> simp [worstExcess]
    cases e with
    | syn ip t =>
      have hstep : (d.recordSyn ip t).halfOpenEstimate = d.halfOpenEstimate + 1 :=
        Nat.min_eq_left (by omega)
      have hexcess : excess (.syn ip t :: events) = 1 + excess events := rfl
      refine (ih (d.recordSyn ip t) (by omega)).trans ?_
      rw [hstep, hworst, hexcess]
      omega
    | ack ip t =>
      have hstep : (d.recordAck ip t).halfOpenEstimate = d.halfOpenEstimate - 1 := rfl
      have hexcess : excess (.ack ip t :: events) = -1 + excess events := rfl
      refine (ih (d.recordAck ip t) (by omega)).trans ?_
      rw [hstep, hworst, hexcess]
      omega

/-- The global verdict looks at all events since the last `expire_all`: it is a flood if the
SYNs of some stretch of them up to now outnumber its completions by more than the threshold. -/
theorem globalFlood_iff (d : SynFloodDetector) (events : List Event)
    (hlen : d.halfOpenEstimate + events.length < 2 ^ 64) :
    ((machine d.config).exec d events).checkGlobal = .globalSynFlood ↔
      d.config.halfOpenThreshold <
        max (d.halfOpenEstimate + excess events) (worstExcess events) := by
  have hconfig : ((machine d.config).exec d events).config = d.config :=
    StateMachine.exec_invariant (P := fun s : SynFloodDetector => s.config = d.config)
      (fun s op h => by cases op <;> exact h) events rfl
  rw [← halfOpenEstimate_exec d.config d hlen, checkGlobal, hconfig, Int.ofNat_lt]
  split
  case isTrue h => exact iff_of_true rfl h
  case isFalse h => exact iff_of_false (by simp) h

/-- A completion that finds nothing open does not count against the SYNs after it. -/
theorem globalFlood_iff_reopened :
    ((machine { halfOpenThreshold := 1 }).exec (new { halfOpenThreshold := 1 })
      [.ack "198.51.100.7" 0, .syn "198.51.100.7" 0, .syn "198.51.100.8" (seconds 100),
        .ack "198.51.100.7" (seconds 100), .syn "198.51.100.9" (seconds 200)]).checkGlobal =
      .globalSynFlood :=
  (globalFlood_iff (new { halfOpenThreshold := 1 }) _ (by decide)).mpr (by decide)

end SynFloodDetector

end Innerwarden
