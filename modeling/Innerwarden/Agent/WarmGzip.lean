import Innerwarden.Lib.StateMachine
import Innerwarden.Time
import Mathlib.Tactic.Linarith

/-!
# Compressing the admin audit

`append_admin_action` (`crates/core/src/audit.rs`) appends a line to the file of the current
UTC date.  `gzip_warm_jsonl` (`crates/agent/src/data_retention.rs`) replaces files that are some
days old by compressed ones, and `open_jsonl_or_gz` reads either.  A sweep copies a file,
renames the copy into place and removes the original, and may be cut off in between.

A call of `append_admin_action` reads the clock, opens the file and then writes.  The lock it
takes is for other writers: a sweep may come between any two of the three.  A call whose file was
removed writes to a file that has no name.

A file is old by the local date, which east of Greenwich may be a day ahead.  Then the file of
the current date is compressed, and what is appended later is in a new file that hides the
compressed one and is removed by the next sweep.  `lines_kept` says when nothing is lost.

A compressed file is the list of its lines.  Hashes and the other files are left out.
-/

namespace Innerwarden.WarmGzip

open StateMachine Function List

/-- The file that a sweep works on, by its date. -/
inductive Phase where
  | next
  | copied (date : Int) (lines : List String)
  | renamed (date : Int)
deriving DecidableEq

/-- A sweep: the local date at its start, the files it still has to look at, and how far it is
with the current one. -/
structure Sweep where
  today : Int
  entries : List Int
  phase : Phase := .next

/-- A call of `append_admin_action` that has not written yet. -/
structure Call where
  date : Int
  line : String
  /-- Once the file is open: whether it is still the one at its path. -/
  file : Option Bool := none

/-- The files `admin-actions-D.jsonl` and `admin-actions-D.jsonl.gz` by their date. -/
structure State where
  now : DateTime
  raw : Int → Option (List String) := fun _ => none
  gz : Int → Option (List String) := fun _ => none
  calls : List Call := []
  sweep : Option Sweep := none
  /-- All lines that were appended for a date. -/
  appended : Int → List String := fun _ => []

/-- The UTC date, as a number of days. -/
def utcDate (now : DateTime) : Int := now / days 1

/-- The local date, at an offset from UTC. -/
def localDate (offset : Int) (now : DateTime) : Int := (now + offset) / days 1

/-- `append_admin_action` reads the clock. -/
def beginAppend (s : State) (line : String) : State :=
  { s with calls := s.calls ++ [⟨utcDate s.now, line, none⟩] }

/-- A call opens its file, which is created if there is none. -/
def openFile (s : State) (i : Nat) : State :=
  match s.calls[i]? with
  | some ⟨date, line, none⟩ =>
    { s with
      raw := update s.raw date (some ((s.raw date).getD []))
      calls := s.calls.set i ⟨date, line, some true⟩ }
  | _ => s

/-- A call writes its line and returns. -/
def writeLine (s : State) (i : Nat) : State :=
  match s.calls[i]? with
  | some ⟨date, line, some linked⟩ =>
    { s with
      raw := if linked then update s.raw date (some ((s.raw date).getD [] ++ [line])) else s.raw
      calls := s.calls.eraseIdx i
      appended := update s.appended date (s.appended date ++ [line]) }
  | _ => s

/-- `fs::remove_file` of a day's raw file. -/
def removeRaw (s : State) (date : Int) : State :=
  { s with
    raw := update s.raw date none
    calls := s.calls.map fun c =>
      if c.date = date then { c with file := c.file.map fun _ => false } else c }

/-- One file operation of a sweep. -/
def sweepStep (warmGzipDays : Nat) (s : State) (sweep : Sweep) : State :=
  match sweep.phase, sweep.entries with
  | .next, [] => { s with sweep := none }
  | .next, date :: entries =>
    let s := { s with sweep := some { sweep with entries } }
    if sweep.today - date < warmGzipDays then s
    else if (s.gz date).isSome then removeRaw s date
    else
      match s.raw date with
      | some lines => { s with sweep := some ⟨sweep.today, entries, .copied date lines⟩ }
      | none => s
  | .copied date lines, entries =>
    { s with
      gz := update s.gz date (some lines)
      sweep := some ⟨sweep.today, entries, .renamed date⟩ }
  | .renamed date, entries =>
    removeRaw { s with sweep := some ⟨sweep.today, entries, .next⟩ } date

/-- What `open_jsonl_or_gz` reads for a date. -/
def openJsonlOrGz (s : State) (date : Int) : List String :=
  ((s.raw date).or (s.gz date)).getD []

/-- What happens next: time passes, a call of `append_admin_action` starts or goes on, by its
place among those that have not returned, or a sweep does. -/
inductive Op where
  | wait (time : Nat)
  | append (line : String)
  | openFile (i : Nat)
  | write (i : Nat)
  /-- A sweep starts, with these entries of the directory. -/
  | start (entries : List Int)
  | step
  /-- The sweep is cut off. -/
  | cut

/-- One operation. -/
def step (offset : Int) (warmGzipDays : Nat) (s : State) : Op → State
  | .wait time => { s with now := s.now + time }
  | .append line => beginAppend s line
  | .openFile i => openFile s i
  | .write i => writeLine s i
  | .start entries => { s with sweep := some ⟨localDate offset s.now, entries, .next⟩ }
  | .step => (s.sweep.map (sweepStep warmGzipDays s)).getD s
  | .cut => { s with sweep := none }

/-- The files of a host, from an empty directory. -/
def machine (offset : Int) (warmGzipDays : Nat) (start : DateTime) :
    StateMachine State Op Unit where
  init := { now := start }
  step s op := (step offset warmGzipDays s op, ())

/-- The dates for which a line may still be written: the current one, and those of the calls that
have not returned. -/
def State.dates (s : State) : List Int := utcDate s.now :: s.calls.map Call.date

/-- A sweep starts with the local date less than `warm_gzip_days` days after all of them. -/
def Behind (offset : Int) (warmGzipDays : Nat) (s : State) : Op → Prop
  | .start _ => ∀ date ∈ s.dates, localDate offset s.now - date < warmGzipDays
  | _ => True

instance (offset : Int) (warmGzipDays : Nat) (s : State) :
    (op : Op) → Decidable (Behind offset warmGzipDays s op)
  | .start _ => inferInstanceAs (Decidable (∀ date ∈ _, _ < _))
  | .wait _ | .append _ | .openFile _ | .write _ | .step | .cut => isTrue trivial

/-! ## Nothing is lost -/

/-- The lines are all those of the date, for which none can be written any more. -/
def State.Settled (s : State) (date : Int) (lines : List String) : Prop :=
  lines = s.appended date ∧ ∀ d ∈ s.dates, date < d

/-- No line can be written for a date before those for which one could be. -/
def State.Later (s s' : State) : Prop := ∀ d' ∈ s'.dates, ∃ d ∈ s.dates, d ≤ d'

/-- What holds as long as every sweep keeps behind. -/
structure Kept (warmGzipDays : Nat) (s : State) : Prop where
  read : ∀ date, openJsonlOrGz s date = s.appended date
  gz : ∀ date lines, s.gz date = some lines → s.Settled date lines
  /-- The sweep compresses only files of dates that are over. -/
  today : ∀ w, s.sweep = some w → ∀ date ∈ s.dates, w.today - date < warmGzipDays
  copied : ∀ w date lines, s.sweep = some w → w.phase = .copied date lines → s.Settled date lines
  renamed : ∀ w date, s.sweep = some w → w.phase = .renamed date → (s.gz date).isSome = true
  /-- The file of a call is at its path. -/
  opened : ∀ c ∈ s.calls, ∀ linked, c.file = some linked →
    linked = true ∧ (s.raw c.date).isSome = true

section Steps

variable {warmGzipDays : Nat} {s s' : State} {date : Int} {lines : List String}

theorem State.Settled.later (h : s.Settled date lines) (hlater : s.Later s')
    (happended : s'.appended date = s.appended date) : s'.Settled date lines := by
  refine ⟨h.1.trans happended.symm, fun d' hd' => ?_⟩
  obtain ⟨d, hd, hle⟩ := hlater d' hd'
  exact (h.2 d hd).trans_le hle

theorem State.later_of_subset (h : s'.dates ⊆ s.dates) : s.Later s' :=
  fun d hd => ⟨d, h hd, le_rfl⟩

variable (h : Kept warmGzipDays s)

include h

/-- A step that leaves the compressed files and the sweep alone. -/
theorem Kept.of_later (hlater : s.Later s') (hgz : s'.gz = s.gz) (hsweep : s'.sweep = s.sweep)
    (hread : ∀ date, openJsonlOrGz s' date = s'.appended date)
    (happended : ∀ date, (∀ d ∈ s.dates, date < d) → s'.appended date = s.appended date)
    (hopened : ∀ c ∈ s'.calls, ∀ linked, c.file = some linked →
      linked = true ∧ (s'.raw c.date).isSome = true) : Kept warmGzipDays s' where
  read := hread
  gz date lines hlines := by
    have hsettled := h.gz date lines (hgz ▸ hlines)
    exact hsettled.later hlater (happended date hsettled.2)
  today w hw d' hd' := by
    obtain ⟨d, hd, hle⟩ := hlater d' hd'
    exact (sub_le_sub_left hle _).trans_lt (h.today w (hsweep ▸ hw) d hd)
  copied w date lines hw hphase := by
    have hsettled := h.copied w date lines (hsweep ▸ hw) hphase
    exact hsettled.later hlater (happended date hsettled.2)
  renamed w date hw hphase := by
    rw [hgz]
    exact h.renamed w date (hsweep ▸ hw) hphase
  opened := hopened

theorem Kept.wait (time : Nat) : Kept warmGzipDays { s with now := s.now + time } := by
  have hlater : utcDate s.now ≤ utcDate (s.now + time) :=
    Int.ediv_le_ediv (by decide) (le_add_of_nonneg_right (Int.natCast_nonneg _))
  refine h.of_later (fun d hd => ?_) rfl rfl h.read (fun _ _ => rfl) h.opened
  rcases mem_cons.mp hd with rfl | hd
  · exact ⟨_, mem_cons_self .., hlater⟩
  · exact ⟨d, mem_cons_of_mem _ hd, le_rfl⟩

theorem Kept.beginAppend (line : String) : Kept warmGzipDays (beginAppend s line) := by
  refine h.of_later (State.later_of_subset fun d hd => ?_) rfl rfl h.read (fun _ _ => rfl)
    fun c hc linked hlinked => ?_
  · simp only [State.dates, WarmGzip.beginAppend, map_append, mem_cons, mem_append, map_cons,
      map_nil, not_mem_nil, or_false] at hd ⊢
    tauto
  · rcases mem_append.mp hc with hc | hc
    · exact h.opened c hc linked hlinked
    · rw [mem_singleton.mp hc] at hlinked
      cases hlinked

/-- The file of a call is not compressed, so it has all its lines. -/
theorem Kept.getD_raw {c : Call} (hc : c ∈ s.calls) :
    s.gz c.date = none ∧ (s.raw c.date).getD [] = s.appended c.date := by
  have hgz : s.gz c.date = none := by
    by_contra hsome
    obtain ⟨lines, hlines⟩ := Option.ne_none_iff_exists'.mp hsome
    exact absurd ((h.gz _ lines hlines).2 c.date (mem_cons_of_mem _ (mem_map_of_mem hc)))
      (lt_irrefl _)
  exact ⟨hgz, by rw [← h.read, openJsonlOrGz, hgz, Option.or_none]⟩

theorem Kept.openFile (i : Nat) : Kept warmGzipDays (openFile s i) := by
  unfold WarmGzip.openFile
  split
  next date line hcall =>
    have hmem := mem_of_getElem? hcall
    have hraw : (s.raw date).getD [] = s.appended date := (h.getD_raw hmem).2
    refine h.of_later (State.later_of_subset fun d hd => ?_) rfl rfl (fun date' => ?_)
      (fun _ _ => rfl) fun c hc linked hlinked => ?_
    · rcases mem_cons.mp hd with rfl | hd
      · exact mem_cons_self ..
      · obtain ⟨c, hc, rfl⟩ := mem_map.mp hd
        refine mem_cons_of_mem _ ?_
        rcases mem_or_eq_of_mem_set hc with hc | rfl
        · exact mem_map_of_mem hc
        · exact mem_map.mpr ⟨_, hmem, rfl⟩
    · by_cases hdate : date' = date
      · simp [openJsonlOrGz, hdate, hraw]
      · simpa [openJsonlOrGz, hdate] using h.read date'
    · rcases mem_or_eq_of_mem_set hc with hc | rfl
      · obtain ⟨htrue, hsome⟩ := h.opened c hc linked hlinked
        by_cases hdate : c.date = date
        · simp [htrue, hdate]
        · simpa [htrue, hdate] using hsome
      · cases hlinked
        simp
  next => exact h

theorem Kept.writeLine (i : Nat) : Kept warmGzipDays (writeLine s i) := by
  unfold WarmGzip.writeLine
  split
  next date line linked hcall =>
    have hmem := mem_of_getElem? hcall
    have hraw : (s.raw date).getD [] = s.appended date := (h.getD_raw hmem).2
    obtain ⟨rfl, -⟩ := h.opened _ hmem linked rfl
    refine h.of_later (State.later_of_subset fun d hd => ?_) rfl rfl (fun date' => ?_)
      (fun date' hover => ?_) fun c hc linked hlinked => ?_
    · rcases mem_cons.mp hd with rfl | hd
      · exact mem_cons_self ..
      · exact mem_cons_of_mem _ (map_subset _ (eraseIdx_subset ..) hd)
    · by_cases hdate : date' = date
      · simp [openJsonlOrGz, hdate, hraw]
      · simpa [openJsonlOrGz, hdate] using h.read date'
    · exact update_of_ne (hover date (mem_cons_of_mem _ (mem_map_of_mem hmem))).ne _ _
    · obtain ⟨htrue, hsome⟩ := h.opened c (mem_of_mem_eraseIdx hc) linked hlinked
      by_cases hdate : c.date = date
      · simp [htrue, hdate]
      · simpa [htrue, hdate] using hsome
  next => exact h

/-- A file that was compressed is removed: no call has it open. -/
theorem Kept.removeRaw (hgz : (s.gz date).isSome = true) :
    Kept warmGzipDays (removeRaw s date) := by
  obtain ⟨lines, hlines⟩ := Option.isSome_iff_exists.mp hgz
  obtain ⟨hall, hover⟩ := h.gz date lines hlines
  have hne : ∀ c ∈ s.calls, c.date ≠ date := fun c hc =>
    (hover c.date (mem_cons_of_mem _ (mem_map_of_mem hc))).ne'
  have hcalls : (WarmGzip.removeRaw s date).calls = s.calls := by
    rw [WarmGzip.removeRaw]
    exact (map_congr_left fun c hc => if_neg (hne c hc)).trans (map_id' _)
  refine h.of_later (State.later_of_subset ?_) rfl rfl (fun date' => ?_) (fun _ _ => rfl)
    fun c hc linked hlinked => ?_
  · rw [State.dates, hcalls]
    exact Subset.refl _
  · by_cases hdate : date' = date
    · simp [openJsonlOrGz, WarmGzip.removeRaw, hdate, hlines, hall]
    · simpa [openJsonlOrGz, WarmGzip.removeRaw, hdate] using h.read date'
  · rw [hcalls] at hc
    obtain ⟨htrue, hsome⟩ := h.opened c hc linked hlinked
    exact ⟨htrue, by simpa [WarmGzip.removeRaw, hne c hc] using hsome⟩

theorem Kept.next {w : Sweep} (htoday : ∀ d ∈ s.dates, w.today - d < warmGzipDays)
    (hphase : w.phase = .next) : Kept warmGzipDays { s with sweep := some w } := by
  refine ⟨h.read, h.gz, by rintro _ ⟨⟩; exact htoday, ?_, ?_, h.opened⟩
  · rintro _ date' lines ⟨⟩ hcopied
    cases hphase.symm.trans hcopied
  · rintro _ date' ⟨⟩ hrenamed
    cases hphase.symm.trans hrenamed

theorem Kept.sweepStep {w : Sweep} (hw : s.sweep = some w) :
    Kept warmGzipDays (sweepStep warmGzipDays s w) := by
  have htoday := h.today w hw
  have hnext : ∀ entries, Kept warmGzipDays { s with sweep := some ⟨w.today, entries, .next⟩ } :=
    fun entries => h.next htoday rfl
  obtain ⟨today, entries, phase⟩ := w
  cases phase with
  | next =>
    cases entries with
    | nil => exact ⟨h.read, h.gz, by rintro _ ⟨⟩, by rintro _ _ _ ⟨⟩, by rintro _ _ ⟨⟩, h.opened⟩
    | cons date entries =>
      simp only [WarmGzip.sweepStep]
      split
      · exact hnext entries
      next hold =>
        split
        next hgz => exact (hnext entries).removeRaw hgz
        next hgz =>
          cases hraw : s.raw date with
          | none => exact hnext entries
          | some lines =>
            have hlines : lines = s.appended date := by
              rw [← h.read, openJsonlOrGz, hraw]
              rfl
            refine ⟨h.read, h.gz, by rintro _ ⟨⟩; exact htoday, ?_, by rintro _ _ ⟨⟩ ⟨⟩, h.opened⟩
            rintro _ _ _ ⟨⟩ ⟨⟩
            refine ⟨hlines, fun d hd => ?_⟩
            have hclose : today - d < warmGzipDays := htoday d hd
            linarith
  | copied date lines =>
    have hsettled := h.copied _ date lines hw rfl
    refine ⟨fun date' => ?_, fun date' lines' hgz => ?_, by rintro _ ⟨⟩; exact htoday,
      by rintro _ _ _ ⟨⟩ ⟨⟩, ?_, h.opened⟩
    · have hread := h.read date'
      by_cases hdate : date' = date
      · subst hdate
        cases hraw : s.raw date' with
        | none => simp [WarmGzip.sweepStep, openJsonlOrGz, hraw, hsettled.1]
        | some lines' => simpa [WarmGzip.sweepStep, openJsonlOrGz, hraw] using hread
      · simpa [WarmGzip.sweepStep, openJsonlOrGz, hdate] using hread
    · by_cases hdate : date' = date
      · subst hdate
        simp only [WarmGzip.sweepStep, update_self, Option.some.injEq] at hgz
        exact hgz ▸ hsettled
      · exact h.gz date' lines' (by simpa [WarmGzip.sweepStep, hdate] using hgz)
    · rintro _ _ ⟨⟩ ⟨⟩
      simp [WarmGzip.sweepStep]
  | renamed date => exact (hnext entries).removeRaw (h.renamed _ date hw rfl)

end Steps

theorem kept_step (offset : Int) (warmGzipDays : Nat) (s : State) (op : Op)
    (h : Kept warmGzipDays s) (hbehind : Behind offset warmGzipDays s op) :
    Kept warmGzipDays (step offset warmGzipDays s op) := by
  cases op with
  | wait time => exact h.wait time
  | append line => exact h.beginAppend line
  | openFile i => exact h.openFile i
  | write i => exact h.writeLine i
  | start entries => exact h.next hbehind rfl
  | step =>
    cases hsweep : s.sweep with
    | none => simpa [step, hsweep] using h
    | some w => simpa [step, hsweep] using h.sweepStep hsweep
  | cut => exact ⟨h.read, h.gz, by rintro _ ⟨⟩, by rintro _ _ _ ⟨⟩, by rintro _ _ ⟨⟩, h.opened⟩

/-- In a run whose sweeps start with the local date close enough, every line that was appended
is read, in order. -/
theorem lines_kept (offset : Int) (warmGzipDays : Nat) (start : DateTime) (ops : List Op)
    (h : (machine offset warmGzipDays start).Meets (Behind offset warmGzipDays)
      (machine offset warmGzipDays start).init ops) (date : Int) :
    let s := (machine offset warmGzipDays start).exec (machine offset warmGzipDays start).init ops
    openJsonlOrGz s date = s.appended date := by
  have hinit : Kept warmGzipDays (machine offset warmGzipDays start).init :=
    ⟨fun _ => rfl, by rintro _ _ ⟨⟩, by rintro _ ⟨⟩, by rintro _ _ _ ⟨⟩, by rintro _ _ ⟨⟩, nofun⟩
  exact (exec_invariant_of_meets (kept_step offset warmGzipDays) ops hinit h).read date

/-- A line of the day before, compressed by a sweep that is cut off after the rename, while a call
for the current day has its file open. -/
def cutOps : List Op :=
  [.append "a", .openFile 0, .write 0, .wait 86400000000000, .append "b", .openFile 0,
   .start [0, 1], .step, .step, .cut, .start [0, 1], .step, .step, .write 0]

theorem lines_kept_cut :
    let M := machine 0 1 0
    M.Meets (Behind 0 1) M.init cutOps ∧ openJsonlOrGz (M.exec M.init cutOps) 0 = ["a"] ∧
      openJsonlOrGz (M.exec M.init cutOps) 1 = ["b"] := by
  have hmeets : (machine 0 1 0).Meets (Behind 0 1) (machine 0 1 0).init cutOps := by decide
  exact ⟨hmeets, lines_kept 0 1 0 _ hmeets 0, lines_kept 0 1 0 _ hmeets 1⟩

/-- An hour east of Greenwich, half an hour before midnight UTC: the file is compressed, and the
next line hides what is in it.  At midnight UTC: the file of a call is removed before it writes. -/
theorem line_hidden :
    (let s := (machine (hours 1) 1 (hours 23 + hours 1 / 2)).exec
      (machine (hours 1) 1 (hours 23 + hours 1 / 2)).init
      [.append "a", .openFile 0, .write 0, .start [0], .step, .step, .step, .append "b",
        .openFile 0, .write 0]
     s.appended 0 = ["a", "b"] ∧ openJsonlOrGz s 0 = ["b"]) ∧
    (let s := (machine 0 1 0).exec (machine 0 1 0).init
      [.append "a", .openFile 0, .wait 86400000000000, .start [0], .step, .step, .step, .write 0]
     s.appended 0 = ["a"] ∧ openJsonlOrGz s 0 = []) := by
  decide

end Innerwarden.WarmGzip
