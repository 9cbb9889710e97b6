import Innerwarden.Lib.LineFile

/-!
# The lines that DNA ingestion reads

`read_new_lines` of `crates/dna/src/ingest.rs`, and its copy in `attack_chain.rs`: the handler
is called for each line from a byte offset on that begins with a brace.

The new offset counts one byte for the end of each line.  This is a byte too few for CRLF, and
a byte too many for a line that is still being written.  An offset after the end of the file is
taken for a rotation, and the file read again.  `lines_handled_once` is about the files without
such lines.
-/

namespace Innerwarden.Dna

open LineFile List

/-- `BufRead::lines` takes the line feed off, and a carriage return before it. -/
def stripEnd (raw : List UInt8) : List UInt8 :=
  if raw.getLast? = some 10 then
    if raw.dropLast.getLast? = some 13 then raw.dropLast.dropLast else raw.dropLast
  else raw

/-- The line that the handler is called with, if it is called. -/
def handled (raw : List UInt8) : List (List UInt8) :=
  if stripEnd raw ≠ [] ∧ (stripEnd raw).head? = some 0x7b then [stripEnd raw] else []

variable (isUtf8 : List UInt8 → Bool)

/-- The loop over the lines, up to the first that is not UTF-8. -/
def readLoop (newOffset : Nat) : List (List UInt8) → List (List UInt8) × Nat
  | [] => ([], newOffset)
  | raw :: raws =>
    if isUtf8 raw then
      let (calls, newOffset) := readLoop (newOffset + (stripEnd raw).length + 1) raws
      (handled raw ++ calls, newOffset)
    else ([], newOffset)

/-- The calls of the handler and the new offset. -/
def readNewLines (file : List UInt8) (offset : Nat) : List (List UInt8) × Nat :=
  if file.length ≤ offset then
    if file.length < offset then ([], 0) else ([], offset)
  else readLoop isUtf8 offset (rawLines (file.drop offset))

/-- The line ends with a line feed and no carriage return before it. -/
def EndsInLf (raw : List UInt8) : Prop :=
  raw.getLast? = some 10 ∧ raw.dropLast.getLast? ≠ some 13

instance (raw : List UInt8) : Decidable (EndsInLf raw) := inferInstanceAs (Decidable (_ ∧ _))

theorem EndsInLf.length_stripEnd {raw : List UInt8} (h : EndsInLf raw) :
    (stripEnd raw).length + 1 = raw.length := by
  have hne : raw ≠ [] := by
    rintro rfl
    cases h.1
  have hpos := length_pos_of_ne_nil hne
  rw [stripEnd, if_pos h.1, if_neg h.2, length_dropLast]
  omega

theorem readLoop_spec (offset : Nat) {raws : List (List UInt8)} (h : ∀ raw ∈ raws, EndsInLf raw) :
    ∃ taken left, raws = taken ++ left ∧
      readLoop isUtf8 offset raws = (taken.flatMap handled, offset + taken.flatten.length) := by
  induction raws generalizing offset with
  | nil => exact ⟨[], [], rfl, rfl⟩
  | cons raw raws ih =>
    rw [forall_mem_cons] at h
    rw [readLoop]
    split
    · obtain ⟨taken, left, hsplit, heq⟩ := ih (offset + (stripEnd raw).length + 1) h.2
      refine ⟨raw :: taken, left, by rw [hsplit]; rfl, ?_⟩
      have hlength := h.1.length_stripEnd
      simp only [heq, flatMap_cons, flatten_cons, length_append, Prod.mk.injEq,
        true_and]
      omega
    · exact ⟨[], raw :: raws, rfl, rfl⟩

theorem takesLines_readNewLines : TakesLines (readNewLines isUtf8) handled EndsInLf := by
  intro file offset hoffset hlines
  rw [readNewLines]
  split
  · rw [if_neg (Nat.not_lt.mpr hoffset)]
    exact ⟨[], _, rfl, rfl⟩
  · exact readLoop_spec isUtf8 offset hlines

/-- When every read finds a file that is empty or ends with a newline and has no CRLF, and all
has been read, the handler has been called once for each line that begins with a brace, in
order and with the whole line. -/
theorem lines_handled_once (ops : List Op) (h : (machine (readNewLines isUtf8)).Meets
      (ReadsWhole EndsInLf) (machine (readNewLines isUtf8)).init ops) :
    let M := machine (readNewLines isUtf8)
    (M.exec M.init ops).offset = (M.exec M.init ops).file.length →
      (M.trace M.init ops).flatten = (rawLines (M.exec M.init ops).file).flatMap handled :=
  outputs_of_run (takesLines_readNewLines isUtf8) h

theorem lines_handled_once_two :
    let M := machine (readNewLines fun _ => true)
    let ops := [.append [0x7b, 10], .read, .append [0x7b, 0x7d, 10], .read]
    M.Meets (ReadsWhole EndsInLf) M.init ops ∧
      (M.trace M.init ops).flatten = (rawLines (M.exec M.init ops).file).flatMap handled := by
  have hmeets : (machine (readNewLines fun _ => true)).Meets (ReadsWhole EndsInLf)
      (machine (readNewLines fun _ => true)).init
      [.append [0x7b, 10], .read, .append [0x7b, 0x7d, 10], .read] := by
    decide
  exact ⟨hmeets, lines_handled_once (fun _ => true) _ hmeets (by decide)⟩

/-- Lines that end with CRLF: after three of them the offset is back at the last. -/
theorem crlf_handled_twice :
    let M := machine (readNewLines fun _ => true)
    let ops := [.append [0x7b, 13, 10, 0x7b, 13, 10, 0x7b, 13, 10], .read, .read, .read]
    (M.exec M.init ops).offset = (M.exec M.init ops).file.length ∧
      (M.trace M.init ops).flatten.length = 4 ∧
      ((rawLines (M.exec M.init ops).file).flatMap handled).length = 3 := by
  decide

end Innerwarden.Dna
