import Mathlib.Tactic.FieldSimp
import Mathlib.Tactic.Linarith
import Innerwarden.Killchain.Tracker

/-!
# The tracker reports each pattern exactly once

`accumulated` are the flags a process has contributed.  `Summary` says what the tracker knows of
a process: those flags, and the patterns that have been reported.

* `fullMatch_iff`: the test of the code holds when all bits of the mask are set.
* `reports_checkPatterns`, `mem_emitted_checkPatterns`: one loop over the patterns.
* `summary_exec`: the invariant, for every sequence of events.
* `Summary.reports_processEvent`: an event is answered exactly when it is the first one that
  reaches the pattern.

With a threshold of zero a process meets the condition for a warning from the start, but an
event that sets no flag is answered with nothing (`clone_not_warned`).
-/

namespace Innerwarden.Killchain

open StateMachine List

/-! ## Counting bits -/

/-- All bits of the mask are set. -/
def Covers (flags mask : BitVec 32) : Prop := flags &&& mask = mask

instance (flags mask : BitVec 32) : Decidable (Covers flags mask) :=
  inferInstanceAs (Decidable (_ = _))

theorem covers_or_of_left {flags mask : BitVec 32} (flag : BitVec 32) (h : Covers flags mask) :
    Covers (flags ||| flag) mask := by
  unfold Covers at h ⊢
  apply BitVec.eq_of_getLsbD_eq
  intro i _
  have hi := congrArg (BitVec.getLsbD · i) h
  simp only [BitVec.getLsbD_and, BitVec.getLsbD_or] at hi ⊢
  cases hm : mask.getLsbD i with
  | false => rw [Bool.and_false]
  | true =>
    rw [hm, Bool.and_true] at hi
    rw [hi, Bool.true_or, Bool.and_true]

theorem ones_and_subset (flags mask : BitVec 32) :
    (Finset.univ.filter fun i : Fin 32 => (flags &&& mask).getLsb i) ⊆
      Finset.univ.filter fun i : Fin 32 => mask.getLsb i := by
  intro i hi
  simp only [Finset.mem_filter, Finset.mem_univ, true_and, BitVec.getLsb_eq_getElem,
    Fin.getElem_fin, BitVec.getElem_and, Bool.and_eq_true] at hi ⊢
  exact hi.2

theorem countOnes_and_le (flags mask : BitVec 32) :
    countOnes (flags &&& mask) ≤ countOnes mask :=
  Finset.card_le_card (ones_and_subset flags mask)

theorem countOnes_and_eq_iff (flags mask : BitVec 32) :
    countOnes (flags &&& mask) = countOnes mask ↔ Covers flags mask := by
  constructor
  · intro h
    have heq := Finset.eq_of_subset_of_card_le (ones_and_subset flags mask) h.ge
    refine BitVec.eq_of_getElem_eq fun i hi => ?_
    have hiff := Finset.ext_iff.mp heq ⟨i, hi⟩
    simp only [Finset.mem_filter, Finset.mem_univ, true_and, BitVec.getLsb_eq_getElem,
      Fin.getElem_fin] at hiff
    exact Bool.eq_iff_iff.mpr hiff
  · intro h
    rw [h]

theorem countOnes_le (x : BitVec 32) : countOnes x ≤ 32 :=
  (Finset.card_le_univ _).trans (le_of_eq (Fintype.card_fin 32))

/-- The test for a full match holds exactly when all bits are set. -/
theorem fullMatch_iff {flags mask : BitVec 32} (hmask : countOnes mask ≠ 0) :
    FullMatch flags mask ↔ Covers flags mask := by
  have hpos : (0 : ℚ) < countOnes mask := Nat.cast_pos.mpr (Nat.pos_of_ne_zero hmask)
  have hle : (countOnes mask : ℚ) ≤ 32 := by exact_mod_cast countOnes_le mask
  rw [← countOnes_and_eq_iff, FullMatch, proximity, if_neg hmask]
  constructor
  · intro h
    by_contra hne
    have hlt : countOnes (flags &&& mask) + 1 ≤ countOnes mask :=
      Nat.lt_of_le_of_ne (countOnes_and_le flags mask) hne
    have hlt' : (countOnes (flags &&& mask) : ℚ) + 1 ≤ countOnes mask := by exact_mod_cast hlt
    have hnear : 1 - epsilon < countOnes (flags &&& mask) / countOnes mask := by
      linarith [(abs_lt.mp h).1]
    rw [lt_div_iff₀ hpos, epsilon] at hnear
    linarith
  · intro h
    rw [h, div_self hpos.ne', sub_self, abs_zero]
    norm_num [epsilon]

theorem not_covers_zero {mask : BitVec 32} (hmask : countOnes mask ≠ 0) : ¬ Covers 0#32 mask := by
  intro h
  rw [Covers, BitVec.zero_and] at h
  exact hmask (h ▸ by decide)

theorem countOnes_pattern : ∀ P ∈ allPatterns, countOnes P.2 ≠ 0 := by decide

theorem nodup_names : (allPatterns.map Prod.fst).Nodup := by decide

theorem eq_of_name {P Q : String × BitVec 32} (hP : P ∈ allPatterns) (hQ : Q ∈ allPatterns)
    (h : P.1 = Q.1) : P = Q :=
  inj_on_of_nodup_map nodup_names hP hQ h

/-! ## One event -/

/-- What the loop over the patterns leaves alone. -/
def PidChainState.core (state : PidChainState) : PidChainState :=
  { state with emittedPreChain := [], emittedFullMatch := [] }

def reports (stage : ChainStage) (p : UInt32) (name : String) (incidents : List ChainIncident) :
    Nat :=
  incidents.countP fun i => i.stage = stage ∧ i.pid = p ∧ i.pattern = name

section Frame

variable (cfg : TrackerConfig) (context : ChainContext) (state : PidChainState)

theorem flags_of_core {state state' : PidChainState} (h : state.core = state'.core) :
    state.flags = state'.flags :=
  (congrArg PidChainState.flags h :)

theorem core_pushEmitted (name : String) (stage : ChainStage) :
    (state.pushEmitted name stage).core = state.core := by
  cases stage <;> rfl

theorem reportStage_frame (stage : ChainStage) (pattern : String × BitVec 32) :
    (reportStage cfg stage context state pattern).1.core = state.core ∧
      ∀ i ∈ (reportStage cfg stage context state pattern).2,
        i.context = context ∧ i.state.core = state.core ∧ i.pattern = pattern.1 := by
  unfold reportStage
  split
  · refine ⟨core_pushEmitted _ _ _, fun i hi => ?_⟩
    rw [mem_singleton.mp hi]
    exact ⟨rfl, core_pushEmitted _ _ _, rfl⟩
  · exact ⟨rfl, fun i hi => nomatch hi⟩

theorem checkPattern_frame (pattern : String × BitVec 32) :
    (checkPattern cfg context state pattern).1.core = state.core ∧
      ∀ i ∈ (checkPattern cfg context state pattern).2,
        i.context = context ∧ i.state.core = state.core ∧ i.pattern = pattern.1 := by
  obtain ⟨hwarned, hwarnings⟩ := reportStage_frame cfg context state .preChain pattern
  obtain ⟨hmatched, hmatches⟩ := reportStage_frame cfg context
    (reportStage cfg .preChain context state pattern).1 .detected pattern
  rw [hwarned] at hmatched hmatches
  exact ⟨hmatched, fun i hi => (mem_append.mp hi).elim (hwarnings i) (hmatches i)⟩

/-- The loop changes only what is noted as reported, and its incidents are for the event and
for one of the patterns. -/
theorem checkPatterns_frame (patterns : List (String × BitVec 32)) :
    (checkPatterns cfg context state patterns).1.core = state.core ∧
      ∀ i ∈ (checkPatterns cfg context state patterns).2,
        i.context = context ∧ i.state.core = state.core ∧ ∃ P ∈ patterns, i.pattern = P.1 := by
  induction patterns generalizing state with
  | nil => exact ⟨rfl, fun i hi => nomatch hi⟩
  | cons pattern patterns ih =>
    obtain ⟨hone, hincidents⟩ := checkPattern_frame cfg context state pattern
    obtain ⟨hrest, hothers⟩ := ih (checkPattern cfg context state pattern).1
    rw [hone] at hrest hothers
    refine ⟨hrest, fun i hi => ?_⟩
    rcases mem_append.mp hi with hi | hi
    · obtain ⟨hcontext, hcore, hname⟩ := hincidents i hi
      exact ⟨hcontext, hcore, pattern, mem_cons_self, hname⟩
    · obtain ⟨hcontext, hcore, P, hP, hname⟩ := hothers i hi
      exact ⟨hcontext, hcore, P, mem_cons_of_mem _ hP, hname⟩

@[simp] theorem flags_reportStage (stage : ChainStage) (pattern : String × BitVec 32) :
    (reportStage cfg stage context state pattern).1.flags = state.flags :=
  flags_of_core (reportStage_frame cfg context state stage pattern).1

@[simp] theorem flags_checkPattern (pattern : String × BitVec 32) :
    (checkPattern cfg context state pattern).1.flags = state.flags :=
  flags_of_core (checkPattern_frame cfg context state pattern).1

@[simp] theorem flags_checkPatterns (patterns : List (String × BitVec 32)) :
    (checkPatterns cfg context state patterns).1.flags = state.flags :=
  flags_of_core (checkPatterns_frame cfg context state patterns).1

end Frame

section Loop

variable {cfg : TrackerConfig} {context : ChainContext} {state : PidChainState} {name : String}
  {stage : ChainStage}

theorem reports_append {p : UInt32} (xs ys : List ChainIncident) :
    reports stage p name (xs ++ ys) = reports stage p name xs + reports stage p name ys :=
  countP_append

variable {patterns : List (String × BitVec 32)} (stage' : ChainStage) (pattern : String × BitVec 32)

theorem emitted_pushEmitted :
    (state.pushEmitted name stage).emitted stage' =
      if stage' = stage then state.emitted stage' ++ [name] else state.emitted stage' := by
  cases stage <;> cases stage' <;> rfl

theorem mem_emitted_reportStage :
    name ∈ (reportStage cfg stage context state pattern).1.emitted stage' ↔
      name ∈ state.emitted stage' ∨
        stage' = stage ∧ name = pattern.1 ∧ stage.Reached cfg state.flags pattern.2 := by
  unfold reportStage
  split
  case isTrue h =>
    rw [emitted_pushEmitted]
    by_cases hs : stage' = stage
    · simp [hs, h.1]
    · simp [hs]
  case isFalse h =>
    refine ⟨Or.inl, ?_⟩
    rintro (hmem | ⟨rfl, rfl, hr⟩)
    · exact hmem
    · exact not_not.mp fun hmem => h ⟨hr, hmem⟩

theorem reports_reportStage :
    reports stage' context.pid name (reportStage cfg stage context state pattern).2 =
      if stage' = stage ∧ name = pattern.1 ∧ stage.Reached cfg state.flags pattern.2 ∧
        name ∉ state.emitted stage then 1 else 0 := by
  unfold reportStage
  split
  case isTrue h =>
    by_cases hs : stage = stage' <;> by_cases hn : pattern.1 = name
    · subst hs hn
      rw [if_pos ⟨rfl, rfl, h⟩]
      simp [reports, ChainIncident.pid]
    all_goals
      rw [if_neg (by grind)]
      simp [reports, hs, hn]
  case isFalse h =>
    rw [if_neg]
    · rfl
    · rintro ⟨-, rfl, hr⟩
      exact h hr

theorem mem_emitted_checkPattern :
    name ∈ (checkPattern cfg context state pattern).1.emitted stage ↔
      name ∈ state.emitted stage ∨
        name = pattern.1 ∧ stage.Reached cfg state.flags pattern.2 := by
  rw [checkPattern, mem_emitted_reportStage, mem_emitted_reportStage, flags_reportStage]
  cases stage <;> simp

theorem reports_checkPattern :
    reports stage context.pid name (checkPattern cfg context state pattern).2 =
      if name = pattern.1 ∧ stage.Reached cfg state.flags pattern.2 ∧ name ∉ state.emitted stage
      then 1 else 0 := by
  rw [checkPattern, reports_append, reports_reportStage, reports_reportStage, flags_reportStage]
  cases stage <;> simp [mem_emitted_reportStage]

theorem mem_emitted_checkPatterns (patterns : List (String × BitVec 32)) :
    name ∈ (checkPatterns cfg context state patterns).1.emitted stage ↔
      name ∈ state.emitted stage ∨
        ∃ P ∈ patterns, name = P.1 ∧ stage.Reached cfg state.flags P.2 := by
  induction patterns generalizing state with
  | nil => simp [checkPatterns]
  | cons pattern patterns ih =>
    rw [checkPatterns, ih, mem_emitted_checkPattern, flags_checkPattern, exists_mem_cons_iff,
      or_assoc]

theorem reports_checkPatterns_of_not_mem (h : name ∉ patterns.map Prod.fst) :
    reports stage context.pid name (checkPatterns cfg context state patterns).2 = 0 := by
  induction patterns generalizing state with
  | nil => rfl
  | cons pattern patterns ih =>
    rw [map_cons, mem_cons, not_or] at h
    rw [checkPatterns, reports_append, reports_checkPattern, ih h.2, if_neg fun hn => h.1 hn.1]

theorem reports_checkPatterns (hnodup : (patterns.map Prod.fst).Nodup) {P : String × BitVec 32}
    (hP : P ∈ patterns) :
    reports stage context.pid P.1 (checkPatterns cfg context state patterns).2 =
      if stage.Reached cfg state.flags P.2 ∧ P.1 ∉ state.emitted stage then 1 else 0 := by
  induction patterns generalizing state with
  | nil => nomatch hP
  | cons pattern patterns ih =>
    rw [map_cons, nodup_cons] at hnodup
    rw [checkPatterns, reports_append, reports_checkPattern]
    rcases mem_cons.mp hP with rfl | hP
    · rw [reports_checkPatterns_of_not_mem hnodup.1]
      simp
    · have hne : P.1 ≠ pattern.1 := fun h => hnodup.1 (h ▸ mem_map_of_mem hP)
      simp [ih hnodup.2 hP, mem_emitted_checkPattern, hne]

@[simp] theorem flags_mergeEvent (previous : Option PidChainState) :
    (mergeEvent context previous).flags =
      (previous.map PidChainState.flags).getD 0#32 ||| context.flag := by
  cases previous <;> simp only [mergeEvent] <;> split <;> rfl

@[simp] theorem emitted_mergeEvent (previous : Option PidChainState) :
    (mergeEvent context previous).emitted stage =
      (previous.map (PidChainState.emitted · stage)).getD [] := by
  cases previous <;> cases stage <;> simp only [mergeEvent] <;> split <;> rfl

end Loop

/-! ## Histories -/

section History

variable (crates : ChainCrates) (cfg : TrackerConfig) (p : UInt32)

def contributed (event : Json × DateTime) : Option (BitVec 32) :=
  (readEvent crates cfg event.1 event.2).bind fun context =>
    if context.pid = p then some context.flag else none

def accumulated (events : List (Json × DateTime)) : BitVec 32 :=
  events.foldl (fun flags event => flags ||| (contributed crates cfg p event).getD 0#32) 0#32

/-- The event contributes a flag to the process, and the pattern is reached after it. -/
def Reaches (stage : ChainStage) (mask : BitVec 32) (pre : List (Json × DateTime))
    (event : Json × DateTime) : Prop :=
  (contributed crates cfg p event).isSome ∧
    stage.Reached cfg (accumulated crates cfg p (pre ++ [event])) mask

def answer (pre : List (Json × DateTime)) (event : Json × DateTime) : List ChainIncident :=
  (processEvent cfg crates ((trackerMachine cfg crates).exec (trackerMachine cfg crates).init pre)
    event).2

variable {crates cfg p}

theorem accumulated_concat (events : List (Json × DateTime)) (event : Json × DateTime) :
    accumulated crates cfg p (events ++ [event]) =
      accumulated crates cfg p events ||| (contributed crates cfg p event).getD 0#32 := by
  rw [accumulated, foldl_append]
  rfl

theorem covers_accumulated_append {mask : BitVec 32} {pre : List (Json × DateTime)}
    (h : Covers (accumulated crates cfg p pre) mask) (post : List (Json × DateTime)) :
    Covers (accumulated crates cfg p (pre ++ post)) mask := by
  induction post generalizing pre with
  | nil => rwa [append_nil]
  | cons event post ih =>
    rw [append_cons]
    refine ih ?_
    rw [accumulated_concat]
    exact covers_or_of_left _ h

theorem covers_accumulated_of_take {mask : BitVec 32} {events : List (Json × DateTime)} {k : Nat}
    (h : Covers (accumulated crates cfg p (events.take k)) mask) :
    Covers (accumulated crates cfg p events) mask := by
  have happend := covers_accumulated_append h (events.drop k)
  rwa [take_append_drop] at happend

/-- A full match has occurred exactly when all bits of the pattern have been contributed. -/
theorem occurred_detected_iff {mask : BitVec 32} (hmask : countOnes mask ≠ 0)
    (events : List (Json × DateTime)) :
    Occurred (Reaches crates cfg p .detected mask) events ↔
      Covers (accumulated crates cfg p events) mask := by
  induction events using List.reverseRecOn with
  | nil => exact iff_of_false not_occurred_nil (not_covers_zero hmask)
  | append_singleton events event ih =>
    rw [occurred_concat, ih]
    constructor
    · rintro (h | ⟨-, h⟩)
      · exact covers_accumulated_append h [event]
      · exact (fullMatch_iff hmask).mp h
    · intro h
      cases hc : contributed crates cfg p event with
      | none =>
        rw [accumulated_concat, hc, Option.getD_none, BitVec.or_zero] at h
        exact Or.inl h
      | some flag => exact Or.inr ⟨by rw [hc]; rfl, (fullMatch_iff hmask).mpr h⟩

/-! ## The invariant -/

/-- What the tracker knows of a process after some events. -/
structure Summary (crates : ChainCrates) (cfg : TrackerConfig) (p : UInt32)
    (events : List (Json × DateTime)) (known : Option PidChainState) : Prop where
  flags : (known.map PidChainState.flags).getD 0#32 = accumulated crates cfg p events
  emitted : ∀ stage, ∀ P ∈ allPatterns,
    P.1 ∈ (known.map (PidChainState.emitted · stage)).getD [] ↔
      Occurred (Reaches crates cfg p stage P.2) events

/-- The two cases of an event, for a given process. -/
theorem contributed_cases (crates : ChainCrates) (cfg : TrackerConfig) (p : UInt32)
    (event : Json × DateTime) :
    (contributed crates cfg p event = none ∧
      ∀ context, readEvent crates cfg event.1 event.2 = some context → context.pid ≠ p) ∨
    ∃ context, readEvent crates cfg event.1 event.2 = some context ∧ context.pid = p ∧
      contributed crates cfg p event = some context.flag := by
  unfold contributed
  cases hread : readEvent crates cfg event.1 event.2 with
  | none => exact Or.inl ⟨rfl, fun _ h => nomatch h⟩
  | some context =>
    by_cases hpid : context.pid = p
    · exact Or.inr ⟨context, rfl, hpid, if_pos hpid⟩
    · refine Or.inl ⟨if_neg hpid, fun c hc => ?_⟩
      cases hc
      exact hpid

theorem processEvent_of_other (tracker : PidTracker) {event : Json × DateTime}
    (h : ∀ context, readEvent crates cfg event.1 event.2 = some context → context.pid ≠ p) :
    (processEvent cfg crates tracker event).1 p = tracker p ∧
      ∀ i ∈ (processEvent cfg crates tracker event).2, i.pid ≠ p := by
  unfold processEvent
  cases hread : readEvent crates cfg event.1 event.2 with
  | none => exact ⟨rfl, fun _ hi => nomatch hi⟩
  | some context =>
    have hpid := h context hread
    refine ⟨Function.update_of_ne hpid.symm _ _, fun i hi => ?_⟩
    rw [ChainIncident.pid, ((checkPatterns_frame cfg context _ _).2 i hi).1]
    exact hpid

theorem processEvent_of_read (tracker : PidTracker) {event : Json × DateTime}
    {context : ChainContext} (hread : readEvent crates cfg event.1 event.2 = some context)
    (hpid : context.pid = p) :
    let r := checkPatterns cfg context (mergeEvent context (tracker p)) allPatterns
    (processEvent cfg crates tracker event).1 p = some r.1 ∧
      (processEvent cfg crates tracker event).2 = r.2 := by
  subst hpid
  unfold processEvent
  rw [hread]
  exact ⟨Function.update_self _ _ _, rfl⟩

variable {tracker : PidTracker} {P : String × BitVec 32}

/-- One event keeps the invariant. -/
theorem Summary.step {events : List (Json × DateTime)}
    (h : Summary crates cfg p events (tracker p)) (event : Json × DateTime) :
    Summary crates cfg p (events ++ [event]) ((processEvent cfg crates tracker event).1 p) := by
  rcases contributed_cases crates cfg p event with ⟨hnone, hother⟩ | ⟨context, hread, hpid, hsome⟩
  · rw [(processEvent_of_other tracker hother).1]
    refine ⟨?_, fun stage P hP => ?_⟩
    · rw [accumulated_concat, hnone, h.flags, Option.getD_none, BitVec.or_zero]
    · rw [occurred_concat, h.emitted stage P hP, or_iff_left]
      rintro ⟨hc, -⟩
      rw [hnone] at hc
      nomatch hc
  · have hflags : (mergeEvent context (tracker p)).flags =
        accumulated crates cfg p (events ++ [event]) := by
      rw [flags_mergeEvent, h.flags, accumulated_concat, hsome, Option.getD_some]
    rw [(processEvent_of_read tracker hread hpid).1]
    refine ⟨?_, fun stage P hP => ?_⟩
    · rw [Option.map_some, Option.getD_some, flags_checkPatterns, hflags]
    · rw [Option.map_some, Option.getD_some, mem_emitted_checkPatterns, emitted_mergeEvent,
        h.emitted stage P hP, occurred_concat, hflags]
      refine or_congr_right ⟨?_, fun hr => ⟨P, hP, rfl, hr.2⟩⟩
      rintro ⟨Q, hQ, hname, hr⟩
      rw [eq_of_name hP hQ hname]
      exact ⟨by rw [hsome]; rfl, hr⟩

/-- What the tracker knows of every process, after any events. -/
theorem summary_exec (p : UInt32) (events : List (Json × DateTime)) :
    Summary crates cfg p events
      ((trackerMachine cfg crates).exec (trackerMachine cfg crates).init events p) := by
  induction events using List.reverseRecOn with
  | nil => exact ⟨rfl, fun _ _ _ => iff_of_false not_mem_nil not_occurred_nil⟩
  | append_singleton events event ih =>
    rw [exec_append]
    exact ih.step event

/-! ## The answers -/

/-- An event is answered with an incident for a process and a pattern if it is the first to
reach the pattern, and with none otherwise. -/
theorem Summary.reports_processEvent {events : List (Json × DateTime)}
    (h : Summary crates cfg p events (tracker p)) (stage : ChainStage) (hP : P ∈ allPatterns)
    (event : Json × DateTime) :
    (¬ Occurred (Reaches crates cfg p stage P.2) events →
        Reaches crates cfg p stage P.2 events event →
        reports stage p P.1 (processEvent cfg crates tracker event).2 = 1) ∧
      (Occurred (Reaches crates cfg p stage P.2) events ∨
        ¬ Reaches crates cfg p stage P.2 events event →
        reports stage p P.1 (processEvent cfg crates tracker event).2 = 0) := by
  rcases contributed_cases crates cfg p event with ⟨hnone, hother⟩ | ⟨context, hread, rfl, hsome⟩
  · refine ⟨fun _ hr => ?_, fun _ => countP_eq_zero.mpr fun i hi hfor => ?_⟩
    · rw [Reaches, hnone] at hr
      nomatch hr.1
    · exact (processEvent_of_other tracker hother).2 i hi (of_decide_eq_true hfor).2.1
  · have hflags : (mergeEvent context (tracker context.pid)).flags =
        accumulated crates cfg context.pid (events ++ [event]) := by
      rw [flags_mergeEvent, h.flags, accumulated_concat, hsome, Option.getD_some]
    have hemitted : P.1 ∈ (mergeEvent context (tracker context.pid)).emitted stage ↔
        Occurred (Reaches crates cfg context.pid stage P.2) events := by
      rw [emitted_mergeEvent, h.emitted stage P hP]
    rw [(processEvent_of_read tracker hread rfl).2, reports_checkPatterns nodup_names hP]
    constructor
    · intro hocc hr
      exact if_pos ⟨hflags ▸ hr.2, fun hmem => hocc (hemitted.mp hmem)⟩
    · intro hor
      refine if_neg fun ⟨hr, hmem⟩ => ?_
      rcases hor with hocc | hnot
      · exact hmem (hemitted.mpr hocc)
      · exact hnot ⟨by rw [hsome]; rfl, hflags ▸ hr⟩

theorem reports_answer_eq_one_iff (stage : ChainStage) (hP : P ∈ allPatterns)
    (pre : List (Json × DateTime)) (event : Json × DateTime) :
    reports stage p P.1 (answer crates cfg pre event) = 1 ↔
      Reaches crates cfg p stage P.2 pre event ∧
        ¬ Occurred (Reaches crates cfg p stage P.2) pre := by
  obtain ⟨hone, hzero⟩ := (summary_exec p pre).reports_processEvent stage hP event
  constructor
  · intro h
    by_contra hnot
    have := hzero (by by_cases hocc : Occurred (Reaches crates cfg p stage P.2) pre
                      · exact Or.inl hocc
                      · exact Or.inr fun hr => hnot ⟨hr, hocc⟩)
    rw [answer, this] at h
    nomatch h
  · rintro ⟨hr, hocc⟩
    exact hone hocc hr

theorem sum_reports_trace (stage : ChainStage) (hP : P ∈ allPatterns)
    (events : List (Json × DateTime)) :
    let answers := (trackerMachine cfg crates).trace (trackerMachine cfg crates).init events
    (Occurred (Reaches crates cfg p stage P.2) events →
        (answers.map (reports stage p P.1)).sum = 1) ∧
      (¬ Occurred (Reaches crates cfg p stage P.2) events →
        (answers.map (reports stage p P.1)).sum = 0) :=
  sum_trace_first
    (fun pre event => ((summary_exec p pre).reports_processEvent stage hP event).1)
    (fun pre event => ((summary_exec p pre).reports_processEvent stage hP event).2) events

/-! ## Other processes -/

def incidentsOf (p : UInt32) (incidents : List ChainIncident) : List ChainIncident :=
  incidents.filter fun i => i.pid = p

/-- The event is not one of another process. -/
def notOfOther (p : UInt32) (event : Json × DateTime) : Bool := (eventPid event.1).all (· = p)

theorem eventPid_of_read {event : Json} {now : DateTime} {context : ChainContext}
    (h : readEvent crates cfg event now = some context) : eventPid event = some context.pid := by
  simp only [readEvent, Option.bind_eq_bind, Option.bind_eq_some_iff] at h
  obtain ⟨kind, -, details, hdetails, pid, hpid, h⟩ := h
  split at h
  · nomatch h
  · obtain ⟨flag, -, h⟩ := Option.bind_eq_some_iff.mp h
    cases h
    rw [eventPid, hdetails, Option.bind_some, Option.bind_eq_some_iff.mpr hpid, Option.map_some]

theorem incidentsOf_eq_nil {incidents : List ChainIncident} (h : ∀ i ∈ incidents, i.pid ≠ p) :
    incidentsOf p incidents = [] :=
  filter_eq_nil_iff.mpr fun i hi hp => h i hi (of_decide_eq_true hp)

theorem processEvent_congr {tracker' : PidTracker} (h : tracker p = tracker' p)
    (event : Json × DateTime) :
    (processEvent cfg crates tracker event).1 p = (processEvent cfg crates tracker' event).1 p ∧
      incidentsOf p (processEvent cfg crates tracker event).2 =
        incidentsOf p (processEvent cfg crates tracker' event).2 := by
  rcases contributed_cases crates cfg p event with ⟨-, hother⟩ | ⟨context, hread, hpid, -⟩
  · obtain ⟨hstate, hnone⟩ := processEvent_of_other tracker hother
    obtain ⟨hstate', hnone'⟩ := processEvent_of_other tracker' hother
    rw [hstate, hstate', incidentsOf_eq_nil hnone, incidentsOf_eq_nil hnone']
    exact ⟨h, rfl⟩
  · obtain ⟨hstate, hout⟩ := processEvent_of_read tracker hread hpid
    obtain ⟨hstate', hout'⟩ := processEvent_of_read tracker' hread hpid
    rw [hstate, hstate', hout, hout', h]
    exact ⟨rfl, rfl⟩

theorem processEvent_of_not_notOfOther {tracker' : PidTracker} (h : tracker p = tracker' p)
    {event : Json × DateTime} (hevent : notOfOther p event = false) :
    (processEvent cfg crates tracker event).1 p = tracker' p ∧
      incidentsOf p (processEvent cfg crates tracker event).2 = [] := by
  have hother : ∀ context, readEvent crates cfg event.1 event.2 = some context →
      context.pid ≠ p := by
    intro context hread hpid
    rw [notOfOther, eventPid_of_read hread, hpid] at hevent
    exact Bool.noConfusion (hevent.symm.trans (decide_eq_true rfl))
  obtain ⟨hstate, hnone⟩ := processEvent_of_other tracker hother
  exact ⟨hstate.trans h, incidentsOf_eq_nil hnone⟩

theorem incidentsOf_filter (events : List (Json × DateTime)) :
    ((trackerMachine cfg crates).trace (trackerMachine cfg crates).init events).flatMap
        (incidentsOf p) =
      ((trackerMachine cfg crates).trace (trackerMachine cfg crates).init
        (events.filter (notOfOther p))).flatMap (incidentsOf p) :=
  (exec_trace_filter (M := trackerMachine cfg crates) (R := fun s s' => s p = s' p)
    (fun _ _ event h _ => processEvent_congr h event)
    (fun _ _ _ h hevent => processEvent_of_not_notOfOther h hevent) events rfl).2

end History

/-! ## Exactness -/

/-- For a process and a pattern one incident is returned for the whole pattern if its bits
come together, by the event that completes it, and none otherwise.  At most one warning is
returned, by the first event that contributes a flag and leaves the pattern forming.  The
events of other processes play no part. -/
theorem kill_chain_exact (crates : ChainCrates) (cfg : TrackerConfig) (p : UInt32)
    {P : String × BitVec 32} (hP : P ∈ allPatterns) (events : List (Json × DateTime)) :
    let flags := accumulated crates cfg p
    let answers := (trackerMachine cfg crates).trace (trackerMachine cfg crates).init
    ((∃ k, Covers (flags (events.take k)) P.2) →
        ((answers events).map (reports .detected p P.1)).sum = 1) ∧
      ((¬ ∃ k, Covers (flags (events.take k)) P.2) →
        ((answers events).map (reports .detected p P.1)).sum = 0) ∧
      (∀ pre event post, events = pre ++ event :: post →
        (reports .detected p P.1 (answer crates cfg pre event) = 1 ↔
          Covers (flags (pre ++ [event])) P.2 ∧
            ∀ k ≤ pre.length, ¬ Covers (flags (pre.take k)) P.2)) ∧
      ((answers events).map (reports .preChain p P.1)).sum ≤ 1 ∧
      (∀ pre event post, events = pre ++ event :: post →
        (reports .preChain p P.1 (answer crates cfg pre event) = 1 ↔
          Reaches crates cfg p .preChain P.2 pre event ∧
            ∀ pre' event' post', pre = pre' ++ event' :: post' →
              ¬ Reaches crates cfg p .preChain P.2 pre' event')) ∧
      (answers events).flatMap (incidentsOf p) =
        (answers (events.filter (notOfOther p))).flatMap (incidentsOf p) := by
  intro flags answers
  have hmask := countOnes_pattern P hP
  have hex : (∃ k, Covers (flags (events.take k)) P.2) ↔
      Occurred (Reaches crates cfg p .detected P.2) events := by
    rw [occurred_detected_iff hmask]
    exact ⟨fun ⟨_, hk⟩ => covers_accumulated_of_take hk,
      fun h => ⟨events.length, by rwa [take_length]⟩⟩
  refine ⟨?_, ?_, ?_, ?_, ?_, incidentsOf_filter events⟩
  · rw [hex]
    exact (sum_reports_trace .detected hP events).1
  · rw [hex]
    exact (sum_reports_trace .detected hP events).2
  · rintro pre event - -
    rw [reports_answer_eq_one_iff .detected hP, occurred_detected_iff hmask]
    constructor
    · rintro ⟨hr, hnot⟩
      exact ⟨(fullMatch_iff hmask).mp hr.2, fun k _ hk => hnot (covers_accumulated_of_take hk)⟩
    · rintro ⟨hcov, hall⟩
      have hnot := hall pre.length le_rfl
      rw [take_length] at hnot
      have hocc := (occurred_detected_iff hmask (pre ++ [event])).mpr hcov
      rw [occurred_concat, occurred_detected_iff hmask] at hocc
      exact ⟨hocc.resolve_left hnot, hnot⟩
  · by_cases hocc : Occurred (Reaches crates cfg p .preChain P.2) events
    · exact le_of_eq ((sum_reports_trace .preChain hP events).1 hocc)
    · exact le_of_eq_of_le ((sum_reports_trace .preChain hP events).2 hocc) (Nat.zero_le 1)
  · rintro pre event - -
    rw [reports_answer_eq_one_iff .preChain hP, Occurred]
    simp only [not_exists, not_and]

/-- An event of process 7 at the epoch. -/
def sampleEvent (kind : String) (details : List (String × Json)) : Json × DateTime :=
  (.obj [("kind", .str kind), ("ts", .str "1970-01-01T00:00:00Z"), ("host", .str "production"),
    ("details", .obj (("pid", .int 7) :: ("comm", .str "python3") :: details))], 0)

/-- `chrono` on the epoch. -/
def sampleCrates : ChainCrates := ⟨sampleChrono, fun _ => "1970-01-01T00:00Z"⟩

/-- A process that reads the shadow file and connects is reported once. -/
theorem kill_chain_exact_data_exfil :
    let events := [sampleEvent "file.open" [("filename", .str "/etc/shadow")],
      sampleEvent "network.outbound_connect" [("dst_ip", .str "93.184.216.34")]]
    let machine := trackerMachine ⟨.finite (3 / 5), []⟩ sampleCrates
    ("data_exfil", chainSensitiveRead ||| chainSocket) ∈ allPatterns ∧
      ((machine.trace machine.init events).map (reports .detected 7 "data_exfil")).sum = 1 :=
  have hP : ("data_exfil", chainSensitiveRead ||| chainSocket) ∈ allPatterns := by decide
  ⟨hP, (kill_chain_exact sampleCrates ⟨.finite (3 / 5), []⟩ 7 hP _).1 ⟨2, by decide +kernel⟩⟩

/-- With a threshold of zero, the first event of a process can be one that sets no flag.  It
leaves every pattern forming, and is answered with nothing.  The warning comes with the
second event. -/
theorem clone_not_warned :
    let cfg : TrackerConfig := ⟨.finite 0, []⟩
    let clone := sampleEvent "process.clone" []
    let connect := sampleEvent "network.outbound_connect" []
    let mask := chainSocket ||| chainDupStdin ||| chainDupStdout
    ("reverse_shell", mask) ∈ allPatterns ∧ eventPid clone.1 = some 7 ∧
      Forming cfg (accumulated sampleCrates cfg 7 [clone]) mask ∧
      reports .preChain 7 "reverse_shell" (answer sampleCrates cfg [] clone) = 0 ∧
      reports .preChain 7 "reverse_shell" (answer sampleCrates cfg [clone] connect) = 1 := by
  decide +kernel

end Innerwarden.Killchain
