import Innerwarden.Shield.Hysteresis
import Mathlib.Order.Bounds.Defs

/-!
# Peaks of incidents

`update` brings the open incident up to date at its end.  A sample that moves the level returns
before that and does not count.  `incidentRuns` lists the incidents a run closes, each with its
samples and the engine each was given to.  `realPeaks_iff` says for which of them the peaks are
right: the samples that move the level must be matched by some that do not.
-/

namespace Innerwarden

open List

namespace EscalationEngine

/-! ## The samples of an incident -/

/-- The sample moves the level: it is above it, or it is the last of the calm ones. -/
def moves (e : EscalationEngine) (m : DdosMetrics) : Bool :=
  let target := e.targetState m.dropsPerMin
  e.state.level < target.level ∨
    (target.level < e.state.level ∧ e.minStateDuration ≤ m.timestamp - e.stateEnteredAt ∧
      e.config.calmSamplesRequired ≤ e.calmCounter + 1)

/-- A sample, with the engine it was given to. -/
structure Given where
  engine : EscalationEngine
  metrics : DdosMetrics

def Given.moves (g : Given) : Bool := g.engine.moves g.metrics

/-- The incidents closed by the samples, each with its samples from the one that opened it
to the one that closed it.  The samples of the open incident so far are `seen`. -/
def runsFrom (e : EscalationEngine) (seen : List Given) :
    List DdosMetrics → List (DdosIncident × List Given)
  | [] => []
  | m :: samples =>
    let e' := (e.update m).1
    let seen' := seen ++ [⟨e, m⟩]
    (e'.incidents.drop e.incidents.length).map (·, seen') ++
      runsFrom e' (if e'.currentIncident.isSome then seen' else []) samples

def incidentRuns (config : EscalationConfig) (now : DateTime) (samples : List DdosMetrics) :
    List (DdosIncident × List Given) :=
  runsFrom (new config now) [] samples

/-- The peaks are the largest values of the samples, and the total is that of the last. -/
structure RealPeaks (inc : DdosIncident) (seen : List Given) : Prop where
  pps : IsGreatest {n | ∃ g ∈ seen, g.metrics.peakPps = n} inc.peakPps
  attackers : IsGreatest {n | ∃ g ∈ seen, g.metrics.uniqueAttackers = n} inc.peakAttackers
  total : seen.getLast?.map (·.metrics.totalDropped) = some inc.totalDropped

/-- The samples that do not move the level. -/
def still (seen : List Given) : List Given := seen.filter fun g => !g.moves

/-- Every value that is not zero is reached by a sample that does not move the level. -/
def Reached (f : DdosMetrics → UInt64) (seen : List Given) : Prop :=
  ∀ g ∈ seen, f g.metrics = 0 ∨ ∃ g' ∈ still seen, f g.metrics ≤ f g'.metrics

/-- The total dropped of the last sample that does not move the level, zero without one. -/
def lastTotal (seen : List Given) : UInt64 :=
  ((still seen).getLast?.map (·.metrics.totalDropped)).getD 0

/-- The samples that do not move the level tell as much as all of them. -/
structure StillTell (seen : List Given) : Prop where
  pps : Reached DdosMetrics.peakPps seen
  attackers : Reached DdosMetrics.uniqueAttackers seen
  total : seen.getLast?.map (·.metrics.totalDropped) = some (lastTotal seen)

/-! ## What a sample does to the incidents -/

/-- Two records with the same peaks. -/
structure SamePeaks (inc inc' : DdosIncident) : Prop where
  pps : inc'.peakPps = inc.peakPps
  attackers : inc'.peakAttackers = inc.peakAttackers
  total : inc'.totalDropped = inc.totalDropped

/-- The largest value of the samples, zero without one. -/
structure IsPeak (f : DdosMetrics → UInt64) (seen : List Given) (n : UInt64) : Prop where
  le : ∀ g ∈ seen, f g.metrics ≤ n
  mem : n = 0 ∨ ∃ g ∈ seen, f g.metrics = n

/-- The record of the samples that did not move the level. -/
structure Records (inc : DdosIncident) (seen : List Given) : Prop where
  pps : IsPeak DdosMetrics.peakPps (still seen) inc.peakPps
  attackers : IsPeak DdosMetrics.uniqueAttackers (still seen) inc.peakAttackers
  total : inc.totalDropped = lastTotal seen

/-- What a sample can do to the incidents. -/
inductive Booked (e e' : EscalationEngine) (m : DdosMetrics) : Prop where
  | still (h : e.moves m = false) (cur : e'.currentIncident = e.currentIncident.map (·.followed m))
      (incidents : e'.incidents = e.incidents)
  | opened (inc : DdosIncident) (h : e.moves m = true) (cur : e.currentIncident = none)
      (cur' : e'.currentIncident = some inc) (blank : Records inc [])
      (incidents : e'.incidents = e.incidents)
  | kept (inc inc' : DdosIncident) (h : e.moves m = true) (cur : e.currentIncident = some inc)
      (cur' : e'.currentIncident = some inc') (same : SamePeaks inc inc')
      (incidents : e'.incidents = e.incidents)
  | closed (inc inc' : DdosIncident) (h : e.moves m = true) (cur : e.currentIncident = some inc)
      (cur' : e'.currentIncident = none) (same : SamePeaks inc inc')
      (incidents : e'.incidents = e.incidents ++ [inc'])
  | none (cur : e.currentIncident = none) (cur' : e'.currentIncident = none)
      (incidents : e'.incidents = e.incidents)

variable {e : EscalationEngine} {m : DdosMetrics}

theorem booked_transitionTo (e₀ : EscalationEngine) (h : e.moves m = true)
    (hcur : e₀.currentIncident = e.currentIncident) (hinc : e₀.incidents = e.incidents)
    (s : EscalationState) (t : DateTime) (dpm : UInt64) :
    Booked e (e₀.transitionTo s t dpm) m := by
  cases hopen : e.currentIncident with
  | none =>
    rw [hopen] at hcur
    by_cases hs : s = .normal
    · exact .none hopen (by simp [transitionTo, trackIncident, hs, hcur])
        (by simp [transitionTo, trackIncident, hs, hcur, hinc])
    · refine .opened _ h hopen (by simp only [transitionTo, trackIncident, hs, hcur]; rfl)
        ⟨⟨by simp [still], .inl rfl⟩, ⟨by simp [still], .inl rfl⟩, rfl⟩
        (by simp [transitionTo, trackIncident, hs, hcur, hinc])
  | some inc =>
    rw [hopen] at hcur
    by_cases hs : s = .normal
    · exact .closed inc { inc with ended := some t } h hopen
        (by simp [transitionTo, trackIncident, hs, hcur]) ⟨rfl, rfl, rfl⟩
        (by simp [transitionTo, trackIncident, hs, hcur, hinc])
    · by_cases hlt : inc.peakState.level < s.level
      · exact .kept inc { inc with peakState := s } h hopen
          (by simp [transitionTo, trackIncident, hs, hcur, hlt]) ⟨rfl, rfl, rfl⟩
          (by simp [transitionTo, trackIncident, hs, hcur, hlt, hinc])
      · exact .kept inc inc h hopen (by simp [transitionTo, trackIncident, hs, hcur, hlt])
          ⟨rfl, rfl, rfl⟩ (by simp [transitionTo, trackIncident, hs, hcur, hlt, hinc])

theorem booked_update (e : EscalationEngine) (m : DdosMetrics) : Booked e (e.update m).1 m := by
  -- The sample is recorded first, which changes nothing `moves` reads.
  have hrecord : (e.recordMetrics m).moves m = e.moves m := rfl
  simp only [update, assess]
  split
  case isTrue hup =>
    have hmoves : e.moves m = true := by
      rw [← hrecord]
      simp [moves, hup]
    exact booked_transitionTo (e.recordMetrics m) hmoves rfl rfl _ _ _
  case isFalse hup =>
    split
    case isTrue hdown =>
      split
      case isTrue late =>
        simp only [calmDown]
        split
        case isTrue enough =>
          have hmoves : e.moves m = true := by
            rw [← hrecord]
            simp [moves, hdown, late, enough]
          exact booked_transitionTo { e.recordMetrics m with calmCounter := _ } hmoves rfl rfl _ _ _
        case isFalse few =>
          exact .still (by rw [← hrecord]; simp [moves, hup, few]) rfl rfl
      case isFalse early => exact .still (by rw [← hrecord]; simp [moves, hup, early]) rfl rfl
    case isFalse hdown => exact .still (by rw [← hrecord]; simp [moves, hup, hdown]) rfl rfl

/-! ## The open incident -/

variable {seen : List Given} {inc : DdosIncident}

theorem still_concat_of_moves {g : Given} (h : g.moves = true) :
    still (seen ++ [g]) = still seen := by
  simp [still, h]

theorem still_concat {g : Given} (h : g.moves = false) :
    still (seen ++ [g]) = still seen ++ [g] := by
  simp [still, h]

theorem IsPeak.concat {f : DdosMetrics → UInt64} {n : UInt64} (h : IsPeak f seen n) (g : Given) :
    IsPeak f (seen ++ [g]) (if n < f g.metrics then f g.metrics else n) := by
  split
  case isTrue hlt =>
    refine ⟨?_, Or.inr ⟨g, by simp, rfl⟩⟩
    intro g' hg'
    rcases mem_append.mp hg' with hg' | hg'
    · exact UInt64.le_trans (h.le g' hg') (UInt64.le_of_lt hlt)
    · rw [mem_singleton.mp hg']
      exact UInt64.le_refl _
  case isFalse hle =>
    refine ⟨?_, h.mem.imp id ?_⟩
    · intro g' hg'
      rcases mem_append.mp hg' with hg' | hg'
      · exact h.le g' hg'
      · rw [mem_singleton.mp hg']
        exact UInt64.not_lt.mp hle
    · rintro ⟨g', hg', heq⟩
      exact ⟨g', mem_append_left _ hg', heq⟩

theorem Records.followed (h : Records inc seen) (hstill : e.moves m = false) :
    Records (inc.followed m) (seen ++ [⟨e, m⟩]) := by
  have hconcat : still (seen ++ [⟨e, m⟩]) = still seen ++ [⟨e, m⟩] := still_concat hstill
  refine ⟨?_, ?_, ?_⟩
  · rw [hconcat]
    exact h.pps.concat ⟨e, m⟩
  · rw [hconcat]
    exact h.attackers.concat ⟨e, m⟩
  · rw [lastTotal, hconcat]
    simp [DdosIncident.followed]

theorem Records.moved {inc' : DdosIncident} (h : Records inc seen) (same : SamePeaks inc inc')
    (hmoves : e.moves m = true) : Records inc' (seen ++ [⟨e, m⟩]) := by
  have hconcat : still (seen ++ [⟨e, m⟩]) = still seen := still_concat_of_moves hmoves
  refine ⟨?_, ?_, ?_⟩
  · rw [hconcat, same.pps]
    exact h.pps
  · rw [hconcat, same.attackers]
    exact h.attackers
  · rw [lastTotal, hconcat, same.total]
    exact h.total

/-- The open incident records the samples seen since it was opened. -/
def Open (e : EscalationEngine) (seen : List Given) : Prop :=
  match e.currentIncident with
  | none => seen = []
  | some inc => Records inc seen

def seenAfter (e : EscalationEngine) (seen : List Given) (m : DdosMetrics) : List Given :=
  if (e.update m).1.currentIncident.isSome then seen ++ [⟨e, m⟩] else []

/-- A sample closes at most one incident, and its record is that of all its samples. -/
theorem Open.update (h : Open e seen) (m : DdosMetrics) :
    Open (e.update m).1 (seenAfter e seen m) ∧
      ∃ closed, (e.update m).1.incidents = e.incidents ++ closed ∧
        ∀ inc ∈ closed, Records inc (seen ++ [⟨e, m⟩]) := by
  cases booked_update e m with
  | still hstill cur incidents =>
    refine ⟨?_, [], by simpa using incidents, by simp⟩
    cases hcur : e.currentIncident with
    | none =>
      rw [hcur, Option.map_none] at cur
      simp [Open, seenAfter, cur]
    | some inc =>
      rw [hcur, Option.map_some] at cur
      simp only [Open, hcur] at h
      simp only [Open, seenAfter, cur, Option.isSome_some, if_true]
      exact h.followed hstill
  | opened inc hmoves cur cur' blank incidents =>
    refine ⟨?_, [], by simpa using incidents, by simp⟩
    simp only [Open, cur] at h
    subst h
    simp only [Open, seenAfter, cur', Option.isSome_some, if_true]
    exact blank.moved ⟨rfl, rfl, rfl⟩ hmoves
  | kept inc inc' hmoves cur cur' same incidents =>
    refine ⟨?_, [], by simpa using incidents, by simp⟩
    simp only [Open, cur] at h
    simp only [Open, seenAfter, cur', Option.isSome_some, if_true]
    exact h.moved same hmoves
  | closed inc inc' hmoves cur cur' same incidents =>
    simp only [Open, cur] at h
    refine ⟨by simp [Open, seenAfter, cur'], [inc'], incidents, ?_⟩
    intro inc'' hinc
    rw [mem_singleton.mp hinc]
    exact h.moved same hmoves
  | none cur cur' incidents =>
    exact ⟨by simp [Open, seenAfter, cur'], [], by simpa using incidents, by simp⟩

/-! ## Runs -/

theorem runsFrom_spec (config : EscalationConfig) (now : DateTime) (h : Open e seen)
    (samples : List DdosMetrics) :
    e.incidents ++ (runsFrom e seen samples).map Prod.fst =
        ((machine config now).exec e (samples.map .update)).incidents ∧
      ∀ r ∈ runsFrom e seen samples, Records r.1 r.2 ∧ r.2 ≠ [] := by
  induction samples generalizing e seen with
  | nil => simp [runsFrom]
  | cons m samples ih =>
    obtain ⟨hopen, closed, hincidents, hclosed⟩ := h.update m
    obtain ⟨hmap, hrecords⟩ := ih hopen
    have hdrop : (e.update m).1.incidents.drop e.incidents.length = closed := by
      rw [hincidents, drop_left]
    simp only [runsFrom, hdrop]
    refine ⟨?_, ?_⟩
    · rw [map_append, map_map, ← append_assoc]
      simp only [Function.comp_def, map_id']
      rw [← hincidents]
      exact hmap
    · intro r hr
      rcases mem_append.mp hr with hr | hr
      · obtain ⟨inc, hinc, rfl⟩ := mem_map.mp hr
        exact ⟨hclosed inc hinc, by simp⟩
      · exact hrecords r hr

/-- A peak of the samples that do not move the level is one of all of them exactly if these
reach every value. -/
theorem IsPeak.isGreatest_iff {f : DdosMetrics → UInt64} {n : UInt64}
    (h : IsPeak f (still seen) n) (hne : seen ≠ []) :
    IsGreatest {k | ∃ g ∈ seen, f g.metrics = k} n ↔ Reached f seen := by
  have hsub : ∀ g ∈ still seen, g ∈ seen := fun g hg => (mem_filter.mp hg).1
  constructor
  · rintro ⟨-, hub⟩ g hg
    have hle : f g.metrics ≤ n := hub ⟨g, hg, rfl⟩
    rcases h.mem with hzero | ⟨g', hg', heq⟩
    · left
      rw [hzero] at hle
      exact UInt64.le_antisymm hle UInt64.zero_le
    · exact Or.inr ⟨g', hg', by rwa [heq]⟩
  · intro hreached
    have hub : ∀ g ∈ seen, f g.metrics ≤ n := by
      intro g hg
      rcases hreached g hg with hzero | ⟨g', hg', hle⟩
      · rw [hzero]
        exact UInt64.zero_le
      · exact UInt64.le_trans hle (h.le g' hg')
    refine ⟨?_, ?_⟩
    · rcases h.mem with hzero | ⟨g', hg', heq⟩
      · obtain ⟨g, hg⟩ := exists_mem_of_ne_nil seen hne
        refine ⟨g, hg, ?_⟩
        have hle := hub g hg
        rw [hzero] at hle ⊢
        exact UInt64.le_antisymm hle UInt64.zero_le
      · exact ⟨g', hsub g' hg', heq⟩
    · rintro k ⟨g, hg, rfl⟩
      exact hub g hg

/-- The incidents a fresh engine closes are those of `incidentRuns`.  The peaks of one are
real exactly if its samples that do not move the level tell as much as all of them. -/
theorem realPeaks_iff (config : EscalationConfig) (now : DateTime) (samples : List DdosMetrics) :
    (incidentRuns config now samples).map Prod.fst = (fed config now samples).incidents ∧
      ∀ r ∈ incidentRuns config now samples, RealPeaks r.1 r.2 ↔ StillTell r.2 := by
  have hopen : Open (new config now) [] := rfl
  obtain ⟨hmap, hrecords⟩ := runsFrom_spec config now hopen samples
  refine ⟨hmap, ?_⟩
  intro r hr
  obtain ⟨h, hne⟩ := hrecords r hr
  have hpps := h.pps.isGreatest_iff hne
  have hattackers := h.attackers.isGreatest_iff hne
  constructor
  · intro hreal
    refine ⟨hpps.mp hreal.pps, hattackers.mp hreal.attackers, ?_⟩
    rw [hreal.total, h.total]
  · intro htell
    refine ⟨hpps.mpr htell.pps, hattackers.mpr htell.attackers, ?_⟩
    rw [htell.total, h.total]

/-- An attack of one sample and a calm sample: the peak of the incident is zero, and a
hundred packets per second were seen. -/
theorem opening_sample_lost :
    let config : EscalationConfig := { minStateDurationSecs := 0, calmSamplesRequired := 1 }
    let attack := { sampleMetrics 1 (seconds 10) with peakPps := 100 }
    let samples := [attack, sampleMetrics 0 (seconds 20)]
    ∃ r ∈ incidentRuns config 0 samples, r.1.peakPps = 0 ∧
      r.2.map Given.metrics = samples ∧ ¬ RealPeaks r.1 r.2 := by
  intro config attack samples
  let runs := incidentRuns config 0 samples
  have hfirst : (runs.get ⟨0, by decide⟩).1.peakPps = 0 ∧
      (runs.get ⟨0, by decide⟩).2.map Given.metrics = samples := by decide
  refine ⟨runs.get ⟨0, by decide⟩, get_mem _ _, hfirst.1, hfirst.2, ?_⟩
  intro h
  have hattack : attack ∈ (runs.get ⟨0, by decide⟩).2.map Given.metrics := by
    rw [hfirst.2]
    exact mem_cons_self ..
  obtain ⟨g, hg, hmetrics⟩ := mem_map.mp hattack
  have hle := h.pps.2 ⟨g, hg, rfl⟩
  rw [hfirst.1, hmetrics] at hle
  exact absurd hle (by decide)

end EscalationEngine

end Innerwarden
