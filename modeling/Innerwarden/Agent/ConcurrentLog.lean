import Innerwarden.Lib.StateMachine
import Innerwarden.Store.Decisions
import Innerwarden.Agent.Compliance

/-!
# Concurrent writers of the decision log

`append_chained_locked` of `crates/agent/src/decisions.rs` as a sequence of atomic effects,
taken by any number of writers in any order: open the file, take the lock, read the last hash,
write the line and its line feed, mirror the row into SQLite in up to three attempts, and drop
the file handle, and with it the lock.  A writer that finds the lock taken waits.  Other parts
of the agent insert rows into the same table at any time.

The invariant is `Serial`.  The file is the chain of the entries in the order they were
written, up to the line feed the holder of the lock still owes, and only the writer of the last
line has a row to mirror.  `file_eq_appendAll` says what a run leaves in the file.  I/O that
fails before the line is on disk is not modelled.
-/

namespace Innerwarden

open Digest HashChain Text List

/-! ## The mirrored row -/

/-- `f32 as f64` on bit patterns. -/
def f32AsF64 (x : UInt32) : F64 :=
  let sign := (x >>> 31).toUInt64 <<< 63
  let exponent := ((x >>> 23) &&& 0xff).toUInt64
  let fraction := (x &&& 0x7fffff).toUInt64
  if exponent = 0xff then
    -- infinities stay, a NaN becomes quiet
    let quiet : UInt64 := if fraction = 0 then 0 else 0x8000000000000
    let infinity : UInt64 := 0x7ff0000000000000
    ⟨sign ||| infinity ||| quiet ||| (fraction <<< 29)⟩
  else if exponent = 0 then
    if fraction = 0 then ⟨sign⟩
    else
      -- a subnormal `f32` is a normal `f64`
      let top := fraction.log2
      ⟨sign ||| ((top + 874) <<< 52) ||| ((fraction - (1 <<< top)) <<< (52 - top))⟩
  else ⟨sign ||| ((exponent + 896) <<< 52) ||| (fraction <<< 29)⟩

example : f32AsF64 0x3f000000 = ⟨0x3fe0000000000000⟩ := by decide

/-- The row `mirror_to_sqlite` inserts for an entry and its line. -/
def mirrorRow (crates : LogCrates) (entry : DecisionEntry) (line : String) : DecisionRow where
  ts := crates.chrono.toRfc3339 entry.ts
  incidentId := entry.incidentId
  actionType := entry.actionType
  targetIp := entry.targetIp
  targetUser := entry.targetUser
  confidence := f32AsF64 entry.confidence
  autoExecuted := entry.autoExecuted
  reason := some entry.reason
  data := line

def mirrorMaxAttempts : Nat := 3

/-! ## Calls and their effects -/

/-- A call of `append_chained_locked`. -/
structure AppendCall where
  entry : DecisionEntry
  /-- The caller has a store to mirror into. -/
  store : Bool

/-- How far a call has come. -/
inductive AppendPhase where
  | called
  | opened
  | locked
  | hashed (lastHash : Option String)
  | lineWritten (line : String)
  /-- The line is on disk.  The mirror was refused `failed` times. -/
  | flushed (line : String) (failed : Nat)
  | mirrored (line : String)
  | returned (result : Except String String)

namespace AppendPhase

/-- The line of the call, once it is in the file. -/
def line : AppendPhase → Option String
  | lineWritten l | flushed l _ | mirrored l | returned (.ok l) => some l
  | _ => none

def inside : AppendPhase → Bool
  | locked | hashed _ | lineWritten _ | flushed _ _ | mirrored _ => true
  | _ => false

def owes : AppendPhase → String
  | lineWritten _ => "\n"
  | _ => ""

def unmirrored : AppendPhase → Bool
  | lineWritten _ | flushed _ _ => true
  | _ => false

def ok : AppendPhase → Bool
  | returned (.ok _) => true
  | _ => false

theorem inside_of_ok : ∀ {p : AppendPhase}, p.ok = true → p.inside = false
  | returned (.ok _), _ => rfl

theorem line_of_ok : ∀ {p : AppendPhase}, p.ok = true → p.line.isSome = true
  | returned (.ok _), _ => rfl

theorem inside_of_unmirrored : ∀ {p : AppendPhase}, p.unmirrored = true → p.inside = true
  | lineWritten _, _ => rfl
  | flushed _ _, _ => rfl

end AppendPhase

/-- The file, its lock, the calls and the table. -/
structure LogState (W : Type*) where
  file : String
  lock : Option W
  phase : W → AppendPhase
  decisions : Decisions

/-- What can happen next. -/
inductive LogOp (W : Type*) where
  /-- A call takes its next step.  An attempt to mirror succeeds. -/
  | advance (w : W)
  /-- The store refuses the attempt of a call to mirror. -/
  | mirrorFails (w : W)
  /-- Other code inserts a row. -/
  | insertOther (row : DecisionRow)

/-- What a step did to the file or the table. -/
inductive LogEffect (W : Type*) where
  | wrote (w : W)
  | inserted (w : W) (id : Int)

section Machine

variable {W : Type*}

section Orders

variable (tr : List (Option (LogEffect W)))

def writeOrder : List W :=
  tr.filterMap fun
    | some (.wrote w) => some w
    | _ => none

/-- The mirrored calls and the ids of their rows, in the order of the insertions. -/
def mirrorOrder : List (W × Int) :=
  tr.filterMap fun
    | some (.inserted w id) => some (w, id)
    | _ => none

@[simp] theorem writeOrder_concat_none :
    writeOrder (tr ++ [none]) = writeOrder tr := by simp [writeOrder]

@[simp] theorem mirrorOrder_concat_none :
    mirrorOrder (tr ++ [none]) = mirrorOrder tr := by simp [mirrorOrder]

@[simp] theorem writeOrder_concat_wrote (w : W) :
    writeOrder (tr ++ [some (.wrote w)]) = writeOrder tr ++ [w] := by simp [writeOrder]

@[simp] theorem mirrorOrder_concat_wrote (w : W) :
    mirrorOrder (tr ++ [some (.wrote w)]) = mirrorOrder tr := by simp [mirrorOrder]

@[simp] theorem writeOrder_concat_inserted (w : W) (id : Int) :
    writeOrder (tr ++ [some (.inserted w id)]) = writeOrder tr := by simp [writeOrder]

@[simp] theorem mirrorOrder_concat_inserted (w : W) (id : Int) :
    mirrorOrder (tr ++ [some (.inserted w id)]) = mirrorOrder tr ++ [(w, id)] := by
  simp [mirrorOrder]

end Orders

variable (crates : LogCrates) (call : W → AppendCall)

def logAnchor (es : List ChainedEntry) : Option String :=
  anchor (fun e : ChainedEntry => sha256Hex crates (e.line crates)) none es

/-- The entries of the file: those of the start, and those of the writers in order. -/
def fileEntries (es : List ChainedEntry) (order : List W) : List ChainedEntry :=
  es ++ chainedEntries crates (logAnchor crates es) (order.map fun w => (call w).entry)

theorem chainedEntries_concat (prev : Option String) (entries : List DecisionEntry)
    (entry : DecisionEntry) :
    chainedEntries crates prev (entries ++ [entry]) =
      chainedEntries crates prev entries ++
        [⟨entry, anchor (fun e : ChainedEntry => sha256Hex crates (e.line crates)) prev
          (chainedEntries crates prev entries)⟩] := by
  induction entries generalizing prev with
  | nil => rfl
  | cons e entries ih =>
    rw [cons_append, chainedEntries, ih]
    rfl

theorem fileEntries_concat (es : List ChainedEntry) (order : List W) (w : W) :
    fileEntries crates call es (order ++ [w]) =
      fileEntries crates call es order ++
        [⟨(call w).entry, logAnchor crates (fileEntries crates call es order)⟩] := by
  rw [fileEntries, map_append, map_singleton, chainedEntries_concat, fileEntries,
    logAnchor, logAnchor, anchor_append, append_assoc]

theorem linked_fileEntries {es : List ChainedEntry}
    (hes : Linked ChainedEntry.prevHash (fun e => sha256Hex crates (e.line crates)) none es)
    (order : List W) :
    Linked ChainedEntry.prevHash (fun e => sha256Hex crates (e.line crates)) none
      (fileEntries crates call es order) :=
  (linked_append none es _).mpr ⟨hes, linked_chainedEntries crates _ _⟩

/-! ## Steps -/

section Steps

variable [DecidableEq W] (today : String)

def LogState.setPhase (s : LogState W) (w : W) (p : AppendPhase) : LogState W :=
  { s with phase := Function.update s.phase w p }

@[simp] theorem LogState.phase_setPhase_self (s : LogState W) (w : W) (p : AppendPhase) :
    (s.setPhase w p).phase w = p := Function.update_self ..

@[simp] theorem LogState.phase_setPhase_of_ne (s : LogState W) {v w : W} (p : AppendPhase)
    (h : v ≠ w) : (s.setPhase w p).phase v = s.phase v := Function.update_of_ne h ..

/-- The next effect of a call. -/
def LogState.advance (s : LogState W) (w : W) : LogState W × Option (LogEffect W) :=
  match s.phase w with
  | .called =>
    if isIsoDate today then (s.setPhase w .opened, none)
    else
      (s.setPhase w (.returned (.error
        ("decisions append_chained_locked: refusing to construct path with non-ISO-date segment "
          ++ today.quote))), none)
  | .opened =>
    match s.lock with
    | none => ({ s.setPhase w .locked with lock := some w }, none)
    | some _ => (s, none)
  | .locked => (s.setPhase w (.hashed (readLastHash crates s.file)), none)
  | .hashed lastHash =>
    let line := ChainedEntry.line crates ⟨(call w).entry, lastHash⟩
    ({ s.setPhase w (.lineWritten line) with file := s.file ++ line }, some (.wrote w))
  | .lineWritten line => ({ s.setPhase w (.flushed line 0) with file := s.file ++ "\n" }, none)
  | .flushed line _ =>
    if (call w).store then
      let inserted := s.decisions.insertDecision crates.sha256
        (mirrorRow crates (call w).entry line)
      ({ s.setPhase w (.mirrored line) with decisions := inserted.1 },
        some (.inserted w inserted.2))
    else (s.setPhase w (.mirrored line), none)
  | .mirrored line =>
    -- the file handle is dropped here, and the lock with it
    ({ s.setPhase w (.returned (.ok line)) with lock := none }, none)
  | .returned _ => (s, none)

/-- `retry_sqlite_write` after a refused attempt. -/
def LogState.mirrorFails (s : LogState W) (w : W) : LogState W :=
  match s.phase w with
  | .flushed line failed =>
    if (call w).store then
      if failed + 1 < mirrorMaxAttempts then s.setPhase w (.flushed line (failed + 1))
      else s.setPhase w (.mirrored line)
    else s
  | _ => s

def LogState.step (s : LogState W) : LogOp W → LogState W × Option (LogEffect W)
  | .advance w => s.advance crates call today w
  | .mirrorFails w => (s.mirrorFails call w, none)
  | .insertOther row =>
    ({ s with decisions := (s.decisions.insertDecision crates.sha256 row).1 }, none)

def appendMachine (content : String) (decisions : Decisions) :
    StateMachine (LogState W) (LogOp W) (Option (LogEffect W)) where
  init := ⟨content, none, fun _ => .called, decisions⟩
  step := LogState.step crates call today

end Steps

/-! ## The invariant -/

def LogState.owed (s : LogState W) : String := (s.lock.map fun w => (s.phase w).owes).getD ""

/-- The calls have acted one after the other: they have written in this order, and these rows
were inserted for them. -/
structure Serial (es : List ChainedEntry) (s : LogState W) (order : List W)
    (rows : List (W × Int)) : Prop where
  nodup : order.Nodup
  written : ∀ w, w ∈ order ↔ (s.phase w).line.isSome
  lines : (es.map fun e => some (e.line crates)) ++ order.map (fun w => (s.phase w).line) =
    (fileEntries crates call es order).map fun e => some (e.line crates)
  exclusive : ∀ w, (s.phase w).inside = true ↔ s.lock = some w
  file : s.file ++ s.owed =
    joinLines ((fileEntries crates call es order).map (ChainedEntry.line crates))
  hashed : ∀ w h, s.phase w = .hashed h → h = logAnchor crates (fileEntries crates call es order)
  current : ∀ w, (s.phase w).unmirrored = true →
    ∃ before, order = before ++ [w] ∧ (rows.map Prod.fst).Sublist before
  mirrored : (rows.map Prod.fst).Sublist order
  ids : (rows.map Prod.snd).Pairwise (· < ·)
  stored : ∀ m ∈ rows, ∃ r ∈ s.decisions.rows, r.id = m.2 ∧ (s.phase m.1).line = some r.data

variable {crates call} {es : List ChainedEntry} {s : LogState W} {order : List W}
  {rows : List (W × Int)}

theorem Serial.insertOther (h : Serial crates call es s order rows) (row : DecisionRow) :
    Serial crates call es
      { s with decisions := (s.decisions.insertDecision crates.sha256 row).1 } order rows :=
  { h with
    stored := fun m hm => by
      obtain ⟨r, hr, hid, hdata⟩ := h.stored m hm
      exact ⟨r, mem_append_left _ hr, hid, hdata⟩ }

variable (hdigits : ∀ x, '\n' ∉ (crates.json.formatF32 x).toList) {w : W} {p : AppendPhase}

include hdigits in
theorem Serial.readLastHash (h : Serial crates call es s order rows) (hw : s.phase w = .locked) :
    readLastHash crates s.file = logAnchor crates (fileEntries crates call es order) := by
  have hlock : s.lock = some w := (h.exclusive w).mp (by rw [hw]; rfl)
  have hfile := h.file
  simp only [LogState.owed, hlock, Option.map_some, hw, Option.getD_some, AppendPhase.owes,
    String.append_empty] at hfile
  rw [hfile]
  exact readLastHash_joinLines hdigits _

theorem serial_init (es : List ChainedEntry) (table : Decisions) :
    Serial crates call es ⟨joinLines (es.map (ChainedEntry.line crates)), none, fun _ => .called,
      table⟩ [] [] where
  nodup := .nil
  written _ := iff_of_false (fun hmem => nomatch hmem) nofun
  lines := by simp [fileEntries, chainedEntries]
  exclusive _ := iff_of_false nofun nofun
  file := by simp [LogState.owed, fileEntries, chainedEntries]
  hashed _ _ hx := nomatch hx
  current _ hu := nomatch hu
  mirrored := List.Sublist.refl _
  ids := .nil
  stored _ hm := nomatch hm

theorem Serial.alone (h : Serial crates call es s order rows) (hw : (s.phase w).inside = true)
    {v : W} (hv : (s.phase v).inside = true) : v = w :=
  Option.some.inj (((h.exclusive v).mp hv).symm.trans ((h.exclusive w).mp hw))

variable {tr : List (Option (LogEffect W))}

theorem Serial.stay (h : Serial crates call es s (writeOrder tr) (mirrorOrder tr)) :
    Serial crates call es s (writeOrder (tr ++ [none])) (mirrorOrder (tr ++ [none])) := by
  rwa [writeOrder_concat_none, mirrorOrder_concat_none]

variable [DecidableEq W]

theorem LogState.line_setPhase (hline : p.line = (s.phase w).line) (v : W) :
    ((s.setPhase w p).phase v).line = (s.phase v).line := by
  by_cases hv : v = w
  · rw [hv, phase_setPhase_self, hline]
  · rw [phase_setPhase_of_ne s p hv]

theorem LogState.inside_setPhase (hinside : p.inside = (s.phase w).inside) (v : W) :
    ((s.setPhase w p).phase v).inside = true ↔ (s.phase v).inside = true := by
  by_cases hv : v = w
  · rw [hv, phase_setPhase_self, hinside]
  · rw [phase_setPhase_of_ne s p hv]

section Steps

variable (h : Serial crates call es s order rows)

include h

/-- A step of a call that writes no line.  It may take or give back the lock and write
the line feed it owes. -/
theorem Serial.move (file : String) (lock : Option W)
    (hline : p.line = (s.phase w).line)
    (hexclusive : ∀ v, ((s.setPhase w p).phase v).inside = true ↔ lock = some v)
    (hfile : file ++ ({ s.setPhase w p with lock := lock } : LogState W).owed = s.file ++ s.owed)
    (hhashed : ∀ x, p = .hashed x → x = logAnchor crates (fileEntries crates call es order))
    (hcurrent : p.unmirrored = true → (s.phase w).unmirrored = true) :
    Serial crates call es { s.setPhase w p with file := file, lock := lock } order rows where
  nodup := h.nodup
  written v := by rw [h.written v, ← LogState.line_setPhase hline]
  lines := by
    have hlines := h.lines
    simp only [← LogState.line_setPhase hline] at hlines
    exact hlines
  exclusive := hexclusive
  file := hfile.trans h.file
  hashed v x hx := by
    by_cases hv : v = w
    · subst hv
      exact hhashed x ((s.phase_setPhase_self v p).symm.trans hx)
    · exact h.hashed v x ((s.phase_setPhase_of_ne p hv).symm.trans hx)
  current v hv := by
    by_cases hvw : v = w
    · subst hvw
      rw [s.phase_setPhase_self v p] at hv
      exact h.current v (hcurrent hv)
    · rw [s.phase_setPhase_of_ne p hvw] at hv
      exact h.current v hv
  mirrored := h.mirrored
  ids := h.ids
  stored m hm := by
    obtain ⟨r, hr, hid, hdata⟩ := h.stored m hm
    exact ⟨r, hr, hid, (LogState.line_setPhase hline m.1).trans hdata⟩

theorem Serial.setPhase {q : AppendPhase} (hw : s.phase w = q)
    (hline : p.line = q.line) (hinside : p.inside = q.inside) (howes : p.owes = q.owes)
    (hhashed : ∀ x, p = .hashed x → x = logAnchor crates (fileEntries crates call es order))
    (hcurrent : p.unmirrored = true → q.unmirrored = true) :
    Serial crates call es (s.setPhase w p) order rows := by
  subst hw
  refine h.move s.file s.lock hline
    (fun v => (LogState.inside_setPhase hinside v).trans (h.exclusive v)) ?_ hhashed hcurrent
  rw [LogState.owed, LogState.owed]
  congr 3
  funext v
  by_cases hv : v = w
  · rw [hv, s.phase_setPhase_self, howes]
  · rw [s.phase_setPhase_of_ne p hv]

theorem Serial.takeLock (hw : s.phase w = .opened) (hlock : s.lock = none) :
    Serial crates call es { s.setPhase w .locked with lock := some w } order rows := by
  refine h.move s.file _ (by rw [hw]; rfl) (fun v => ?_) ?_ nofun nofun
  · by_cases hv : v = w
    · rw [hv, s.phase_setPhase_self]
      exact iff_of_true rfl rfl
    · rw [s.phase_setPhase_of_ne _ hv, h.exclusive v, hlock]
      exact iff_of_false nofun fun he => hv (Option.some.inj he).symm
  · simp [LogState.owed, hlock, AppendPhase.owes]

theorem Serial.endLine {line : String} (hw : s.phase w = .lineWritten line) :
    Serial crates call es { s.setPhase w (.flushed line 0) with file := s.file ++ "\n" } order
      rows := by
  have hlock : s.lock = some w := (h.exclusive w).mp (by rw [hw]; rfl)
  refine h.move _ s.lock (by rw [hw]; rfl)
    (fun v => (LogState.inside_setPhase (by rw [hw]; rfl) v).trans (h.exclusive v)) ?_
    nofun (fun _ => by rw [hw]; rfl)
  simp [LogState.owed, hlock, hw, AppendPhase.owes]

theorem Serial.release {line : String} (hw : s.phase w = .mirrored line) :
    Serial crates call es { s.setPhase w (.returned (.ok line)) with lock := none } order
      rows := by
  have hlock : s.lock = some w := (h.exclusive w).mp (by rw [hw]; rfl)
  refine h.move s.file _ (by rw [hw]; rfl) (fun v => ?_) ?_ nofun nofun
  · by_cases hv : v = w
    · rw [hv, s.phase_setPhase_self]
      exact iff_of_false nofun nofun
    · rw [s.phase_setPhase_of_ne _ hv, h.exclusive v, hlock]
      exact iff_of_false (fun he => hv (Option.some.inj he).symm) nofun
  · simp [LogState.owed, hlock, hw, AppendPhase.owes]

/-- The line of a call whose hash was read goes to the end of the chain. -/
theorem Serial.write {lastHash : Option String} (hw : s.phase w = .hashed lastHash) :
    Serial crates call es
      { s.setPhase w (.lineWritten (ChainedEntry.line crates ⟨(call w).entry, lastHash⟩)) with
        file := s.file ++ ChainedEntry.line crates ⟨(call w).entry, lastHash⟩ }
      (order ++ [w]) rows := by
  have hinside : (s.phase w).inside = true := by rw [hw]; rfl
  have hlock : s.lock = some w := (h.exclusive w).mp hinside
  have hnew : w ∉ order := fun hmem => by
    have hsome := (h.written w).mp hmem
    rw [hw] at hsome
    cases hsome
  have hentries := fileEntries_concat crates call es order w
  rw [← h.hashed w lastHash hw] at hentries
  constructor
  case nodup =>
    rw [← concat_eq_append]
    exact h.nodup.concat hnew
  case written =>
    intro v
    rw [mem_append, mem_singleton]
    by_cases hv : v = w
    · subst hv
      rw [s.phase_setPhase_self]
      exact iff_of_true (Or.inr rfl) rfl
    · rw [s.phase_setPhase_of_ne _ hv, ← h.written v]
      exact or_iff_left hv
  case lines =>
    have hbefore : order.map (fun v => ((s.setPhase w (.lineWritten
        (ChainedEntry.line crates ⟨(call w).entry, lastHash⟩))).phase v).line) =
        order.map fun v => (s.phase v).line :=
      map_congr_left fun v hv => by
        rw [s.phase_setPhase_of_ne _ (ne_of_mem_of_not_mem hv hnew)]
    rw [hentries, map_append, map_append, ← h.lines, hbefore, ← append_assoc]
    simp [AppendPhase.line]
  case exclusive =>
    exact fun v => (LogState.inside_setPhase (by rw [hw]; rfl) v).trans (h.exclusive v)
  case file =>
    have hfile := h.file
    rw [LogState.owed, hlock, Option.map_some, hw, Option.getD_some] at hfile
    rw [hentries, map_append, map_singleton, joinLines_concat, ← hfile]
    simp [LogState.owed, hlock, AppendPhase.owes, LogState.setPhase, String.append_assoc]
  case hashed =>
    intro v x hx
    by_cases hv : v = w
    · rw [hv, s.phase_setPhase_self] at hx
      cases hx
    · rw [s.phase_setPhase_of_ne _ hv] at hx
      exact absurd (h.alone hinside (by rw [hx]; rfl)) hv
  case current =>
    intro v hu
    by_cases hv : v = w
    · subst hv
      exact ⟨order, rfl, h.mirrored⟩
    · rw [s.phase_setPhase_of_ne _ hv] at hu
      exact absurd (h.alone hinside (AppendPhase.inside_of_unmirrored hu)) hv
  case mirrored => exact h.mirrored.trans (sublist_append_left ..)
  case ids => exact h.ids
  case stored =>
    intro m hm
    obtain ⟨r, hr, hid, hdata⟩ := h.stored m hm
    have hmem : m.1 ∈ order := h.mirrored.subset (mem_map_of_mem hm)
    refine ⟨r, hr, hid, ?_⟩
    rw [s.phase_setPhase_of_ne _ (ne_of_mem_of_not_mem hmem hnew), hdata]

/-- The row of the last line goes to the end of the table. -/
theorem Serial.mirror {line : String} {failed : Nat} (hw : s.phase w = .flushed line failed) :
    Serial crates call es
      { s.setPhase w (.mirrored line) with
        decisions := (s.decisions.insertDecision crates.sha256
          (mirrorRow crates (call w).entry line)).1 }
      order (rows ++ [(w, s.decisions.nextRowid)]) := by
  obtain ⟨before, horder, hbefore⟩ := h.current w (by rw [hw]; rfl)
  have h' : Serial crates call es (s.setPhase w (.mirrored line)) order rows :=
    h.setPhase hw rfl rfl rfl nofun nofun
  refine { h' with current := ?_, mirrored := ?_, ids := ?_, stored := ?_ }
  · -- nobody else is inside, and this call has mirrored its row
    intro v hu
    by_cases hv : v = w
    · rw [hv, s.phase_setPhase_self] at hu
      cases hu
    · rw [s.phase_setPhase_of_ne _ hv] at hu
      exact absurd (h.alone (by rw [hw]; rfl) (AppendPhase.inside_of_unmirrored hu)) hv
  · rw [map_append, horder]
    exact hbefore.append (List.Sublist.refl _)
  · rw [map_append]
    refine pairwise_append.mpr ⟨h.ids, pairwise_singleton _ _, fun a ha b hb => ?_⟩
    obtain ⟨m, hm, rfl⟩ := mem_map.mp ha
    obtain ⟨r, hr, hid, -⟩ := h.stored m hm
    rw [mem_singleton.mp hb, ← hid]
    exact s.decisions.lt_nextRowid r hr
  · intro m hm
    rcases mem_append.mp hm with hm | hm
    · obtain ⟨r, hr, hid, hdata⟩ := h'.stored m hm
      exact ⟨r, mem_append_left _ hr, hid, hdata⟩
    · rw [mem_singleton.mp hm]
      exact ⟨_, mem_append_right _ (mem_singleton_self _), rfl, by
        rw [s.phase_setPhase_self]; rfl⟩

end Steps

section Step

variable (h : Serial crates call es s (writeOrder tr) (mirrorOrder tr))

include h

include hdigits in
theorem Serial.advance (today : String) (w : W) :
    Serial crates call es (s.advance crates call today w).1
      (writeOrder (tr ++ [(s.advance crates call today w).2]))
      (mirrorOrder (tr ++ [(s.advance crates call today w).2])) := by
  unfold LogState.advance
  cases hw : s.phase w with
  | called =>
    dsimp only
    split
    · exact Serial.stay (h.setPhase hw rfl rfl rfl nofun nofun)
    · exact Serial.stay (h.setPhase hw rfl rfl rfl nofun nofun)
  | opened =>
    dsimp only
    cases hlock : s.lock with
    | none => exact (h.takeLock hw hlock).stay
    | some v => exact h.stay
  | locked =>
    refine Serial.stay (h.setPhase hw rfl rfl rfl (fun x hx => ?_) nofun)
    rw [← AppendPhase.hashed.inj hx]
    exact h.readLastHash hdigits hw
  | hashed lastHash => simpa using h.write hw
  | lineWritten line => exact (h.endLine hw).stay
  | flushed line failed =>
    dsimp only
    split
    · rw [writeOrder_concat_inserted, mirrorOrder_concat_inserted]
      exact h.mirror hw
    · exact Serial.stay (h.setPhase hw rfl rfl rfl nofun nofun)
  | mirrored line => exact (h.release hw).stay
  | returned result => exact h.stay

theorem Serial.mirrorFails (w : W) : Serial crates call es (s.mirrorFails call w)
    (writeOrder (tr ++ [none])) (mirrorOrder (tr ++ [none])) := by
  unfold LogState.mirrorFails
  split
  next line failed hw =>
    split
    · split
      · exact Serial.stay (h.setPhase hw rfl rfl rfl nofun fun _ => rfl)
      · exact Serial.stay (h.setPhase hw rfl rfl rfl nofun nofun)
    · exact h.stay
  next => exact h.stay

include hdigits in
theorem Serial.step (today : String) (op : LogOp W) :
    Serial crates call es (s.step crates call today op).1
      (writeOrder (tr ++ [(s.step crates call today op).2]))
      (mirrorOrder (tr ++ [(s.step crates call today op).2])) := by
  cases op with
  | advance w => exact h.advance hdigits today w
  | mirrorFails w => exact h.mirrorFails w
  | insertOther row => exact (h.insertOther row).stay

end Step

/-! ## Runs -/

include hdigits in
theorem serial_exec (today : String) (es : List ChainedEntry) (table : Decisions)
    (ops : List (LogOp W)) :
    let M := appendMachine crates call today (joinLines (es.map (ChainedEntry.line crates))) table
    Serial crates call es (M.exec M.init ops) (writeOrder (M.trace M.init ops))
      (mirrorOrder (M.trace M.init ops)) := by
  intro M
  exact M.exec_trace_invariant
    (P := fun s tr => Serial crates call es s (writeOrder tr) (mirrorOrder tr))
    (fun _ _ op h => h.step hdigits today op) ops
    (show Serial crates call es M.init (writeOrder []) (mirrorOrder []) from serial_init es table)

include hdigits in
/-- At every point of every interleaving the file, with the line feed that the writer inside may
still owe it, is what the calls leave one after the other in the order of their lines, and the
writer inside is the one with the lock. -/
theorem file_eq_appendAll {today : String} (hdate : isIsoDate today = true)
    (es : List ChainedEntry) (table : Decisions) (ops : List (LogOp W)) :
    let content := joinLines (es.map (ChainedEntry.line crates))
    let M := appendMachine crates call today content table
    let s := M.exec M.init ops
    s.file ++ s.owed = appendAll crates today content
        ((writeOrder (M.trace M.init ops)).map fun w => (call w).entry) ∧
      ∀ w, (s.phase w).inside = true ↔ s.lock = some w := by
  intro content M s
  have hserial : Serial crates call es s _ _ := serial_exec hdigits today es table ops
  refine ⟨?_, hserial.exclusive⟩
  rw [hserial.file, appendAll_joinLines hdigits hdate]
  rfl

/-- When every call has returned, the file is one chain that holds every entry once, and
the mirrored rows are in the order of the lines. -/
theorem concurrent_appends_one_chain (hdigits : ∀ x, '\n' ∉ (crates.json.formatF32 x).toList)
    (today : String) {es : List ChainedEntry}
    (hes : Linked ChainedEntry.prevHash (fun e => sha256Hex crates (e.line crates)) none es)
    (table : Decisions) (call : W → AppendCall) (ops : List (LogOp W)) :
    let M := appendMachine crates call today (joinLines (es.map (ChainedEntry.line crates))) table
    let final := M.exec M.init ops
    let mirrored := mirrorOrder (M.trace M.init ops)
    (∀ w, (final.phase w).ok = true) →
    ∃ order : List W, order.Nodup ∧ (∀ w, w ∈ order) ∧
      final.file = joinLines ((fileEntries crates call es order).map (ChainedEntry.line crates)) ∧
      (lines final.file).map some =
        (es.map fun e => some (e.line crates)) ++ order.map (fun w => (final.phase w).line) ∧
      Linked ChainedEntry.prevHash (fun e => sha256Hex crates (e.line crates)) none
        (fileEntries crates call es order) ∧
      (mirrored.map Prod.fst).Sublist order ∧
      (mirrored.map Prod.snd).Pairwise (· < ·) ∧
      ∀ m ∈ mirrored, ∃ r ∈ final.decisions.rows,
        r.id = m.2 ∧ (final.phase m.1).line = some r.data := by
  intro M final mirrored hdone
  have h : Serial crates call es final _ mirrored := serial_exec hdigits today es table ops
  have hlock : final.lock = none := by
    cases hl : final.lock with
    | none => rfl
    | some w =>
      have hin := (h.exclusive w).mpr hl
      rw [AppendPhase.inside_of_ok (hdone w)] at hin
      cases hin
  have hfile := h.file
  rw [LogState.owed, hlock, Option.map_none, Option.getD_none, String.append_empty] at hfile
  refine ⟨writeOrder (M.trace M.init ops), h.nodup, fun w => ?_, hfile, ?_,
    linked_fileEntries crates call hes _, h.mirrored, h.ids, h.stored⟩
  · exact (h.written w).mpr (AppendPhase.line_of_ok (hdone w))
  · rw [hfile, lines_joinLines_entries hdigits, h.lines, map_map]
    rfl

end Machine

/-- Two writers that take turns, with one refused attempt to mirror. -/
def sampleOps : List (LogOp Bool) :=
  [.advance true, .advance false, .advance false, .advance true, .advance false, .advance false,
   .advance true, .advance false, .mirrorFails false, .advance false, .advance true,
   .advance false, .advance true, .advance true, .advance true, .advance true, .advance true,
   .advance true]

open Compliance in
theorem concurrent_appends_one_chain_two :
    let call : Bool → AppendCall := fun store => ⟨sampleEntry "block_ip", store⟩
    let M := appendMachine sampleCrates call "2026-05-02" (joinLines []) .empty
    ∃ order : List Bool, order.Nodup ∧ (∀ w, w ∈ order) ∧
      (M.exec M.init sampleOps).file = joinLines ((fileEntries sampleCrates call [] order).map
        (ChainedEntry.line sampleCrates)) ∧
      ((mirrorOrder (M.trace M.init sampleOps)).map Prod.fst).Sublist order := by
  intro call M
  obtain ⟨order, hnodup, hall, hfile, -, -, hmirrored, -⟩ :=
    concurrent_appends_one_chain sampleCrates_digits "2026-05-02"
      (show Linked ChainedEntry.prevHash _ none [] from trivial) .empty call sampleOps (by decide)
  exact ⟨order, hnodup, hall, hfile, hmirrored⟩

open Compliance in
theorem file_eq_appendAll_two :
    let call : Bool → AppendCall := fun store => ⟨sampleEntry "block_ip", store⟩
    let M := appendMachine sampleCrates call "2026-05-02" (joinLines []) .empty
    let s := M.exec M.init sampleOps
    s.file ++ s.owed = appendAll sampleCrates "2026-05-02" (joinLines [])
      ((writeOrder (M.trace M.init sampleOps)).map fun w => (call w).entry) :=
  (file_eq_appendAll sampleCrates_digits (by decide) [] .empty sampleOps).1

end Innerwarden
