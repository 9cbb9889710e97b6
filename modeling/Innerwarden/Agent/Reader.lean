import Innerwarden.Lib.LineFile
import Innerwarden.Lib.Text

/-!
# The incremental JSONL reader

`read_new_entries` of `crates/agent/src/reader.rs`: the entries of the lines from a byte
offset on, at most 5000 of them, and the offset after them.  A line that is read while it is
being written is cut in two.  `entries_once` says that every line is read once when no read
finds such a line.

UTF-8 and `serde_json` are parameters.  A file that does not exist is read as an empty one.
-/

namespace Innerwarden.Reader

open LineFile Text

def maxEntriesPerRead : Nat := 5000

variable {α : Type*} (fromUtf8 : List UInt8 → Option String) (parse : String → Option α)

/-- The loop over the lines.  `none` is an error: `read_line` fails on what is not UTF-8. -/
def readLoop (entries : List α) (currentOffset : Nat) : List (List UInt8) → Option (List α × Nat)
  | [] => some (entries, currentOffset)
  | raw :: raws =>
    match fromUtf8 raw with
    | none => none
    | some line =>
      let currentOffset := currentOffset + raw.length
      let trimmed := trim line
      if trimmed = "" then readLoop entries currentOffset raws
      else
        let entries := entries ++ (parse trimmed).toList
        if maxEntriesPerRead ≤ entries.length then some (entries, currentOffset)
        else readLoop entries currentOffset raws

def readNewEntries (file : Option (List UInt8)) (offset : Nat) : Option (List α × Nat) :=
  match file with
  | none => some ([], 0)
  | some bytes =>
    let start := if offset > bytes.length then 0 else offset
    readLoop fromUtf8 parse [] start (rawLines (bytes.drop start))

/-- A read of the file by its reader, who keeps the offset when there is an error. -/
def read (bytes : List UInt8) (offset : Nat) : List α × Nat :=
  (readNewEntries fromUtf8 parse (some bytes) offset).getD ([], offset)

/-- The entry of a line, if it has one. -/
def entryOf (raw : List UInt8) : List α :=
  match fromUtf8 raw with
  | none => []
  | some line => if trim line = "" then [] else (parse (trim line)).toList

/-- The loop takes some of the lines. -/
theorem readLoop_spec {entries entries' : List α} {offset offset' : Nat} {raws : List (List UInt8)}
    (h : readLoop fromUtf8 parse entries offset raws = some (entries', offset')) :
    ∃ taken left, raws = taken ++ left ∧
      entries' = entries ++ taken.flatMap (entryOf fromUtf8 parse) ∧
      offset' = offset + taken.flatten.length := by
  induction raws generalizing entries offset with
  | nil =>
    cases h
    exact ⟨[], [], rfl, by simp, rfl⟩
  | cons raw raws ih =>
    rw [readLoop] at h
    cases hline : fromUtf8 raw with
    | none => simp [hline] at h
    | some line =>
      simp only [hline] at h
      have hentry : entryOf fromUtf8 parse raw =
          if trim line = "" then [] else (parse (trim line)).toList := by
        simp only [entryOf, hline]
      split at h
      next hblank =>
        obtain ⟨taken, left, rfl, rfl, rfl⟩ := ih h
        exact ⟨raw :: taken, left, rfl, by simp [hentry, hblank], by simp [Nat.add_assoc]⟩
      next hblank =>
        split at h
        · cases h
          exact ⟨[raw], raws, rfl, by simp [hentry, hblank], by simp⟩
        · obtain ⟨taken, left, rfl, rfl, rfl⟩ := ih h
          exact ⟨raw :: taken, left, rfl, by simp [hentry, hblank], by simp [Nat.add_assoc]⟩

theorem takesLines_read :
    TakesLines (read fromUtf8 parse) (entryOf fromUtf8 parse) fun _ => True := by
  intro bytes offset hoffset _
  rw [read, readNewEntries, if_neg (Nat.not_lt.mpr hoffset)]
  cases hloop : readLoop fromUtf8 parse [] offset (rawLines (bytes.drop offset)) with
  | none => exact ⟨[], _, rfl, rfl⟩
  | some result =>
    obtain ⟨taken, left, hsplit, hentries, hoffset'⟩ := readLoop_spec fromUtf8 parse hloop
    exact ⟨taken, left, hsplit, Prod.ext hentries hoffset'⟩

/-- When every read finds a file that is empty or ends with a newline, and all has been read,
the entries returned are those of the lines of the file, in order. -/
theorem entries_once (ops : List Op) (h : (machine (read fromUtf8 parse)).Meets
      (ReadsWhole fun _ => True) (machine (read fromUtf8 parse)).init ops) :
    let M := machine (read fromUtf8 parse)
    (M.exec M.init ops).offset = (M.exec M.init ops).file.length →
      (M.trace M.init ops).flatten =
        (rawLines (M.exec M.init ops).file).flatMap (entryOf fromUtf8 parse) :=
  outputs_of_run (takesLines_read fromUtf8 parse) h

def sampleUtf8 (bytes : List UInt8) : Option String :=
  some (String.ofList (bytes.map fun b => Char.ofNat b.toNat))

def sampleParse (line : String) : Option (List Char) := some line.toList

/-- `1⏎`, then `2⏎`, each read. -/
theorem entries_once_two :
    let M := machine (read sampleUtf8 sampleParse)
    let ops := [.append [49, 10], .read, .append [50, 10], .read]
    M.Meets (ReadsWhole fun _ => True) M.init ops ∧ (M.trace M.init ops).flatten =
      (rawLines (M.exec M.init ops).file).flatMap (entryOf sampleUtf8 sampleParse) := by
  have hmeets : (machine (read sampleUtf8 sampleParse)).Meets (ReadsWhole fun _ => True)
      (machine (read sampleUtf8 sampleParse)).init
      [.append [49, 10], .read, .append [50, 10], .read] := by
    decide +kernel
  exact ⟨hmeets, entries_once sampleUtf8 sampleParse _ hmeets (by decide +kernel)⟩

/-- The line `12` is read after its first byte, and gives two entries. -/
theorem line_read_twice :
    let M := machine (read sampleUtf8 sampleParse)
    let ops := [.append [49], .read, .append [50, 10], .read]
    (M.exec M.init ops).offset = (M.exec M.init ops).file.length ∧
      (M.trace M.init ops).flatten = [['1'], ['2']] ∧
      (rawLines (M.exec M.init ops).file).flatMap (entryOf sampleUtf8 sampleParse) =
        [['1', '2']] := by
  decide +kernel

end Innerwarden.Reader
