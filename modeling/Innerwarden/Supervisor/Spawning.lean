import Mathlib.Algebra.Order.Ring.Int
import Innerwarden.Lib.EventWindow
import Innerwarden.Supervisor.Loop

/-!
# The spawns of a run

`Disciplined` is the invariant of the log.

* Every spawn has the hook's consent and a passed symlink check since the one before.
* Fewer than the allowed number of restarts stand in the hour before each restart.
* After a fatal event the loop has halted, and nothing was spawned since.

`Disciplined.turn` is the step lemma and `spawn_discipline` the result about runs.
-/

namespace Innerwarden.Supervisor

open EventWindow StateMachine Text
open List hiding contains

/-- The event is a spawn. -/
def Event.IsSpawn : Event → Prop
  | .spawned _ => True
  | _ => False

/-- The loop halts at the event. -/
def Event.Fatal : Event → Prop
  | .hookRefused message => contains message "TAMPERED" = true
  | .launchFailed message => contains message "rate limit" = true
  | _ => False

def restartTimes (log : List Event) : List Int :=
  log.filterMap fun
    | .restarted _ time => some time
    | _ => none

/-- The hook consented and the symlink check passed after the last spawn of the log. -/
def Cleared (log : List Event) : Prop :=
  ∃ before since, log = before ++ since ∧ (∀ e ∈ since, ¬ e.IsSpawn) ∧
    Event.hookAllowed ∈ since ∧ Event.symlinkPassed ∈ since

/-- What holds of the log in every state of a run. -/
structure Disciplined (max : Nat) (s : State) : Prop where
  limit : s.monitor.maxRestartsPerHour = max
  cleared : ∀ pre pid post, s.log = pre ++ .spawned pid :: post → Cleared pre
  /-- The monitor remembers the restarts of the last hour. -/
  window : Remembers (fun t => t - Monitor.oneHour) max s.now s.monitor.restartTimes
    (restartTimes s.log)
  fatal : ∀ pre e post, s.log = pre ++ e :: post → e.Fatal →
    s.status = .halted ∧ ∀ e' ∈ post, ¬ e'.IsSpawn

variable {max : Nat} {s s' : State}

theorem hourAgo_mono ⦃t t' : Int⦄ (h : t ≤ t') : t - Monitor.oneHour ≤ t' - Monitor.oneHour :=
  Int.sub_le_sub_right h _

theorem restartTimes_append (log log' : List Event) :
    restartTimes (log ++ log') = restartTimes log ++ restartTimes log' := filterMap_append

/-- The event neither spawns nor restarts, and halts the loop if it has to. -/
structure Event.Plain (s : State) (e : Event) : Prop where
  noSpawn : ¬ e.IsSpawn
  noRestart : restartTimes [e] = []
  fatal : e.Fatal → s.status = .halted

/-- The state is a later one with the same restarts. -/
structure Later (s s' : State) : Prop where
  now : s.now ≤ s'.now
  limit : s'.monitor.maxRestartsPerHour = s.monitor.maxRestartsPerHour
  times : ∀ cutoff, s'.now - Monitor.oneHour ≤ cutoff →
    recent cutoff s'.monitor.restartTimes = recent cutoff s.monitor.restartTimes

theorem Later.of_monitor (hnow : s.now ≤ s'.now) (h : s'.monitor = s.monitor) : Later s s' :=
  ⟨hnow, by rw [h], fun _ _ => by rw [h]⟩

theorem restartTimes_of_plain {done : List Event} (h : ∀ e ∈ done, e.Plain s) :
    restartTimes done = [] := by
  induction done with
  | nil => rfl
  | cons e done ih =>
    rw [forall_mem_cons] at h
    rw [← singleton_append, restartTimes_append, h.1.noRestart, ih h.2]
    rfl

section Append

variable (h : Disciplined max s) (hrun : s.status ≠ .halted)

include h hrun

theorem Disciplined.not_fatal {e : Event} (he : e ∈ s.log) : ¬ e.Fatal := by
  intro hfatal
  obtain ⟨pre, post, hsplit⟩ := append_of_mem he
  exact hrun (h.fatal pre e post hsplit hfatal).1

theorem Disciplined.append_plain (done : List Event) (hlog : s'.log = s.log ++ done)
    (hdone : ∀ e ∈ done, e.Plain s') (hlater : Later s s') : Disciplined max s' := by
  have hsame : restartTimes s'.log = restartTimes s.log := by
    rw [hlog, restartTimes_append, restartTimes_of_plain hdone, append_nil]
  refine ⟨hlater.limit.trans h.limit, ?_, ?_, ?_⟩
  · intro pre pid post hsplit
    rw [hlog] at hsplit
    rcases append_split hsplit with ⟨rest, hold, -⟩ | ⟨grown, -, hnew⟩
    · exact h.cleared pre pid rest hold
    · exact absurd trivial (hdone (.spawned pid) (by simp [hnew])).noSpawn
  · rw [hsame]
    exact h.window.later hourAgo_mono hlater.now hlater.times
  · intro pre e post hsplit he
    rw [hlog] at hsplit
    rcases append_split hsplit with ⟨rest, hold, -⟩ | ⟨grown, -, hnew⟩
    · exact absurd he (h.not_fatal hrun (by simp [hold]))
    · refine ⟨(hdone e (by simp [hnew])).fatal he, fun e' he' => (hdone e' ?_).noSpawn⟩
      rw [hnew]
      exact mem_append_right _ (mem_cons_of_mem _ he')

theorem Disciplined.append_spawn (pid : Nat) (hcleared : Cleared s.log) :
    Disciplined max { s with log := s.log ++ [.spawned pid] } := by
  have hsame : restartTimes (s.log ++ [.spawned pid]) = restartTimes s.log := by
    rw [restartTimes_append]
    exact append_nil _
  refine ⟨h.limit, ?_, ?_, ?_⟩
  · intro pre pid' post hsplit
    rcases concat_split hsplit with ⟨rfl, -⟩ | ⟨rest, hold, -⟩
    · exact hcleared
    · exact h.cleared pre pid' rest hold
  · rw [hsame]
    exact h.window
  · intro pre e post hsplit he
    rcases concat_split hsplit with ⟨-, rfl⟩ | ⟨rest, hold, -⟩
    · cases he
    · exact absurd he (h.not_fatal hrun (by simp [hold]))

/-- A restart that the rate limit lets through. -/
theorem Disciplined.append_restarted (pid : Nat)
    (hlog : s'.log = s.log ++ [.restarted pid s'.now]) (hlater : s.now ≤ s'.now)
    (hmax : s'.monitor.maxRestartsPerHour = s.monitor.maxRestartsPerHour)
    (hroom : recent (s'.now - Monitor.oneHour) s.monitor.restartTimes < max)
    (htimes : ∀ cutoff, s'.now - Monitor.oneHour ≤ cutoff →
      recent cutoff s'.monitor.restartTimes = recent cutoff (s.monitor.restartTimes ++ [s'.now])) :
    Disciplined max s' := by
  have hmore : restartTimes s'.log = restartTimes s.log ++ [s'.now] := by
    rw [hlog, restartTimes_append]
    rfl
  refine ⟨hmax.trans h.limit, ?_, ?_, ?_⟩
  · intro pre pid' post hsplit
    rw [hlog] at hsplit
    rcases concat_split hsplit with ⟨-, heq⟩ | ⟨rest, hold, -⟩
    · cases heq
    · exact h.cleared pre pid' rest hold
  · rw [hmore]
    exact h.window.record hourAgo_mono hlater hroom htimes
  · intro pre e post hsplit he
    rw [hlog] at hsplit
    rcases concat_split hsplit with ⟨-, rfl⟩ | ⟨rest, hold, -⟩
    · cases he
    · exact absurd he (h.not_fatal hrun (by simp [hold]))

end Append

/-! ## The phases of a turn -/

variable {waits : List Event}

theorem reaped_plain (hwaits : ∀ e ∈ waits, ∃ child, e = .reaped child) :
    ∀ e ∈ waits, e.Plain s := by
  intro e he
  obtain ⟨child, rfl⟩ := hwaits e he
  exact ⟨id, rfl, False.elim⟩

theorem isAlive_frame (m : Monitor) (tryWait : TryWait) (pidAlive : Bool) :
    (∀ e ∈ (m.isAlive tryWait pidAlive).2.2, ∃ child, e = .reaped child) ∧
      (m.isAlive tryWait pidAlive).1.restartTimes = m.restartTimes ∧
      (m.isAlive tryWait pidAlive).1.maxRestartsPerHour = m.maxRestartsPerHour := by
  rw [Monitor.isAlive]
  cases m.agentChild with
  | none => exact ⟨fun e he => absurd he not_mem_nil, rfl, rfl⟩
  | some child =>
    cases tryWait with
    | exited => exact ⟨fun e he => ⟨child, mem_singleton.mp he⟩, rfl, rfl⟩
    | running | failed => exact ⟨fun e he => absurd he not_mem_nil, rfl, rfl⟩

theorem waitEvents_reaped (m : Monitor) (waited : Bool) :
    ∀ e ∈ m.waitEvents waited, ∃ child, e = .reaped child := by
  intro e he
  obtain ⟨child, heq, -⟩ := Monitor.mem_waitEvents.mp he
  exact ⟨child, heq⟩

theorem Disciplined.poll (h : Disciplined max s) (hrun : s.status ≠ .halted) (t : Turn) :
    Disciplined max (s.poll t) := by
  obtain ⟨hreaped, htimes, hmax⟩ := isAlive_frame s.monitor t.tryWait t.pidAlive
  exact h.append_plain hrun _ rfl (reaped_plain hreaped)
    ⟨le_rfl, hmax, fun cutoff _ => congrArg (recent cutoff) htimes⟩

theorem Disciplined.probe (h : Disciplined max s) (hrun : s.status ≠ .halted) (healthInterval : Int)
    (t : Turn) : Disciplined max (s.probe healthInterval t) := by
  rw [State.probe]
  split
  · refine h.append_plain hrun _ rfl (fun e he => ?_) (.of_monitor ?_ rfl)
    · split at he
      · cases mem_singleton.mp he
        exact ⟨id, rfl, False.elim⟩
      · cases he
    · show s.now ≤ s.now + t.beforeProbe + t.beforeReset
      omega
  · refine h.append_plain hrun [] (append_nil _).symm (by simp) (.of_monitor ?_ rfl)
    show s.now ≤ s.now + t.beforeProbe
    omega

theorem cleared_append {log : List Event} (hwaits : ∀ e ∈ waits, ¬ e.IsSpawn) :
    Cleared (log ++ (.hookAllowed :: (waits ++ [.symlinkPassed]))) := by
  refine ⟨log, _, rfl, ?_, by simp, by simp⟩
  intro e he
  simp only [mem_cons, mem_append, not_mem_nil, or_false] at he
  rcases he with rfl | he | rfl
  · exact id
  · exact hwaits e he
  · exact id

theorem plain_allowed {checks : List Event} (hwaits : ∀ e ∈ waits, ∃ child, e = .reaped child)
    (hchecks : ∀ e ∈ checks, e = .symlinkPassed) :
    ∀ e ∈ Event.hookAllowed :: (waits ++ checks), e.Plain s := by
  refine forall_mem_cons.mpr ⟨⟨id, rfl, False.elim⟩, ?_⟩
  refine forall_mem_append.mpr ⟨reaped_plain hwaits, fun e he => ?_⟩
  cases hchecks e he
  exact ⟨id, rfl, False.elim⟩

theorem symlinkPassed_only : ∀ e ∈ [Event.symlinkPassed], e = .symlinkPassed := fun _ he =>
  mem_singleton.mp he

theorem recent_readied (m : Monitor) {pruneAt cutoff : Int}
    (h : pruneAt - Monitor.oneHour ≤ cutoff) :
    recent cutoff (m.readied pruneAt).restartTimes = recent cutoff m.restartTimes :=
  recent_filter h _

/-- A restart that failed. -/
theorem Disciplined.append_failed (h : Disciplined max s) (hrun : s.status ≠ .halted)
    (waits checks : List Event) (hwaits : ∀ e ∈ waits, ∃ child, e = .reaped child)
    (hchecks : ∀ e ∈ checks, e = .symlinkPassed) {message : String}
    (hlog : s'.log = s.log ++ (.hookAllowed :: (waits ++ checks) ++ [.launchFailed message]))
    (hstatus : contains message "rate limit" = true → s'.status = .halted)
    (hlater : Later s s') : Disciplined max s' := by
  refine h.append_plain hrun _ hlog ?_ hlater
  refine forall_mem_append.mpr ⟨plain_allowed hwaits hchecks, fun e he => ?_⟩
  cases mem_singleton.mp he
  exact ⟨id, rfl, hstatus⟩

/-- The hook consented and the check passed, and then the agent is spawned. -/
theorem Disciplined.append_checked (h : Disciplined max s) (hrun : s.status ≠ .halted)
    (hwaits : ∀ e ∈ waits, ∃ child, e = .reaped child) (pid : Nat) :
    Disciplined max
      { s with
        log := s.log ++ (.hookAllowed :: (waits ++ [.symlinkPassed])) ++ [.spawned pid] } := by
  have hchecked : Disciplined max
      { s with log := s.log ++ (.hookAllowed :: (waits ++ [.symlinkPassed])) } :=
    h.append_plain hrun _ rfl (plain_allowed hwaits symlinkPassed_only) (.of_monitor le_rfl rfl)
  refine hchecked.append_spawn hrun pid (cleared_append fun e he => ?_)
  exact (reaped_plain (s := s) hwaits e he).noSpawn

theorem le_pushAt (s : State) (t : Turn) : s.now ≤ s.pushAt t ∧ s.pruneAt t ≤ s.pushAt t := by
  simp only [State.pushAt, State.pruneAt]
  omega

theorem Disciplined.revive (h : Disciplined max s) (hrun : s.status ≠ .halted) (t : Turn) :
    Disciplined max (s.revive t) := by
  have hwaits := waitEvents_reaped s.monitor t.waited
  obtain ⟨hlater, hpruned⟩ := le_pushAt s t
  have hresult := s.revive_result t
  generalize s.revive t = s' at *
  cases hresult with
  | refused message hook =>
    refine h.append_plain hrun [.hookRefused message] rfl (fun e he => ?_) (.of_monitor le_rfl rfl)
    cases mem_singleton.mp he
    exact ⟨id, rfl, fun hf => if_pos hf⟩
  | failed hook unable checks hchecks =>
    refine h.append_failed hrun _ checks hwaits hchecks rfl (fun hlimit => if_pos hlimit)
      ⟨hlater, rfl, fun cutoff hcutoff => recent_readied s.monitor ?_⟩
    simp only at hcutoff
    omega
  | spawned hook pid able room =>
    have hspawned := h.append_checked hrun hwaits pid
    refine hspawned.append_restarted hrun pid ?_ hlater rfl ?_ fun cutoff hcutoff => ?_
    · simp
    · have hfew : recent (s.pushAt t - Monitor.oneHour)
          (s.monitor.readied (s.pruneAt t)).restartTimes < s.monitor.maxRestartsPerHour :=
        countP_le_length.trans_lt room
      rw [recent_readied s.monitor (by omega), h.limit] at hfew
      exact hfew
    · simp only at hcutoff
      rw [recent_append, recent_append, recent_readied s.monitor (by omega)]

theorem Disciplined.turn (h : Disciplined max s) (hrun : s.status ≠ .halted) (healthInterval : Int)
    (t : Turn) : Disciplined max (s.turn healthInterval t) := by
  have hpolled : Disciplined max (if s.finds t then s.poll t else (s.poll t).revive t) := by
    split
    · exact h.poll hrun t
    · exact (h.poll hrun t).revive hrun t
  rw [State.turn]
  generalize (if s.finds t then s.poll t else (s.poll t).revive t) = s' at hpolled ⊢
  split
  · exact hpolled
  · rename_i hgoes
    exact hpolled.probe hgoes healthInterval t

theorem Disciplined.start (h : Disciplined max s) (hrun : s.status ≠ .halted) (hook : Option String)
    (launch : Launch) (took : Nat) : Disciplined max (s.start hook launch took) := by
  have hnone : ∀ e ∈ ([] : List Event), ∃ child, e = .reaped child := fun e he => by cases he
  cases hook with
  | some message =>
    refine h.append_plain hrun [.hookRefused message] rfl (fun e he => ?_) (.of_monitor le_rfl rfl)
    cases mem_singleton.mp he
    exact ⟨id, rfl, fun _ => rfl⟩
  | none =>
    simp only [State.start, Monitor.spawnAgent]
    cases launch.symlink with
    | some message =>
      exact h.append_failed hrun [] [] hnone (by simp) rfl (fun _ => rfl) (.of_monitor le_rfl rfl)
    | none =>
      cases launch.spawn with
      | error message =>
        exact h.append_failed hrun [] _ hnone symlinkPassed_only rfl (fun _ => rfl)
          (.of_monitor le_rfl rfl)
      | ok pid =>
        refine (h.append_checked hrun hnone pid).append_plain hrun [] ?_ (by simp)
          ⟨?_, rfl, fun _ _ => rfl⟩
        · simp
        · show s.now ≤ s.now + took
          omega

/-! ## Runs -/

theorem disciplined_init (agentBinary : String) (max : Nat) (bootedAt : Int) :
    Disciplined max ⟨.starting, .new agentBinary max, .new, bootedAt, bootedAt, []⟩ where
  limit := rfl
  cleared _ _ _ hsplit := absurd hsplit.symm (by simp)
  window := remembers_nil bootedAt
  fatal _ _ _ hsplit := absurd hsplit.symm (by simp)

theorem disciplined_step (agentBinary : String) (max : Nat) (healthInterval bootedAt : Int)
    (s : State) (op : Op) (h : Disciplined max s) :
    Disciplined max ((machine agentBinary max healthInterval bootedAt).step s op).1 := by
  simp only [machine]
  split
  · rename_i hstatus
    exact h.start (by rw [hstatus]; decide) _ _ _
  · rename_i hstatus
    exact h.turn (by rw [hstatus]; decide) _ _
  · rename_i hstatus
    exact h.append_plain (by rw [hstatus]; decide) [] (append_nil _).symm (by simp)
      (.of_monitor le_rfl rfl)
  · exact h

theorem contains_rateLimitMessage (count max : Nat) :
    contains (Monitor.rateLimitMessage count max) "rate limit" = true := by
  refine decide_eq_true ⟨"restart ".toList, ?_, ?_⟩
  · exact (": " ++ toString count ++ " in last hour (max " ++ toString max ++
      "). Manual intervention needed.").toList
  · simp only [Monitor.rateLimitMessage, String.toList_append, append_assoc]

/-- In every run each spawn has the hook's consent and a passed symlink check since the spawn
before it, every hour has at most the allowed number of restarts, and nothing is spawned
after a report of tampering or the error of the rate limit. -/
theorem spawn_discipline (agentBinary : String) (max : Nat) (healthInterval bootedAt : Int)
    (ops : List Op) :
    let M := machine agentBinary max healthInterval bootedAt
    let log := (M.exec M.init ops).log
    (∀ pre pid post, log = pre ++ .spawned pid :: post → Cleared pre) ∧
      (∀ t, (restartTimes log).countP (fun u => t ≤ u ∧ u < t + Monitor.oneHour) ≤ max ∧
        (restartTimes log).countP (fun u => t < u ∧ u ≤ t + Monitor.oneHour) ≤ max) ∧
      ∀ pre e post, log = pre ++ e :: post →
        ((∃ message, e = .hookRefused message ∧ contains message "TAMPERED" = true) ∨
          ∃ count limit, e = .launchFailed (Monitor.rateLimitMessage count limit)) →
        ∀ e' ∈ post, ¬ e'.IsSpawn := by
  intro M log
  have h : Disciplined max (M.exec M.init ops) :=
    exec_invariant (disciplined_step agentBinary max healthInterval bootedAt) ops
      (disciplined_init agentBinary max bootedAt)
  refine ⟨h.cleared, fun t => ⟨?_, ?_⟩, ?_⟩
  · refine h.window.spread.countP_le h.window.sorted fun u v hu hv _ => ?_
    simp only [decide_eq_true_eq] at hu hv
    omega
  · refine h.window.spread.countP_le h.window.sorted fun u v hu hv _ => ?_
    simp only [decide_eq_true_eq] at hu hv
    omega
  · rintro pre e post hsplit (⟨message, rfl, htampered⟩ | ⟨count, limit, rfl⟩)
    · exact (h.fatal pre _ post hsplit htampered).2
    · exact (h.fatal pre _ post hsplit (contains_rateLimitMessage count limit)).2

end Innerwarden.Supervisor
