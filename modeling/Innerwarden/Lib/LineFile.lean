import Innerwarden.Lib.StateMachine

/-!
# Reading a growing file line by line

A reader that remembers a byte offset reads what is new in a file that grows.  `rawLines` cuts
the bytes after each line feed; a line that is not yet ended is the last of them.

`outputs_of_run` is the rule for readers that take the lines they are given from their offset
on and move the offset over them: the outputs of a run are those of the lines before the offset.
It is asked only of files without a line that is cut.
-/

namespace LineFile

open List

/-- The bytes, cut after each line feed. -/
def rawLines : List UInt8 → List (List UInt8)
  | [] => []
  | b :: bs =>
    if b = 10 then [b] :: rawLines bs
    else
      match rawLines bs with
      | [] => [[b]]
      | raw :: raws => (b :: raw) :: raws

/-- A line with its line feed. -/
def IsLine (raw : List UInt8) : Prop := ∃ body, raw = body ++ [10] ∧ 10 ∉ body

/-- The bytes end with a line feed, or there are none. -/
def Complete (bs : List UInt8) : Prop := ∀ b ∈ bs.getLast?, b = 10

instance (bs : List UInt8) : Decidable (Complete bs) :=
  decidable_of_iff (bs.getLast?.all (· = 10) = true) (by simp [Complete, Option.all_eq_true])

theorem rawLines_line {raw : List UInt8} (h : IsLine raw) (bs : List UInt8) :
    rawLines (raw ++ bs) = raw :: rawLines bs := by
  obtain ⟨body, rfl, hbody⟩ := h
  induction body with
  | nil => simp [rawLines]
  | cons b body ih =>
    obtain ⟨hb, hbody⟩ := not_or.mp (mt mem_cons.mpr hbody)
    rw [cons_append, cons_append, rawLines, if_neg (Ne.symm hb), ih hbody]

theorem rawLines_flatten {raws : List (List UInt8)} (h : ∀ raw ∈ raws, IsLine raw)
    (bs : List UInt8) : rawLines (raws.flatten ++ bs) = raws ++ rawLines bs := by
  induction raws with
  | nil => rfl
  | cons raw raws ih =>
    rw [forall_mem_cons] at h
    rw [flatten_cons, append_assoc, rawLines_line h.1, ih h.2, cons_append]

theorem flatten_rawLines (bs : List UInt8) : (rawLines bs).flatten = bs := by
  induction bs with
  | nil => rfl
  | cons b bs ih =>
    rw [rawLines]
    split
    · rw [flatten_cons, ih, singleton_append]
    · cases hraws : rawLines bs with
      | nil => simpa [hraws] using ih
      | cons raw raws => simpa [hraws] using ih

/-- No line of a complete file is cut. -/
theorem Complete.isLine {bs : List UInt8} (h : Complete bs) : ∀ raw ∈ rawLines bs, IsLine raw := by
  induction bs with
  | nil => simp [rawLines]
  | cons b bs ih =>
    have hrest : bs ≠ [] → Complete bs := by
      intro hne b' hb'
      refine h b' ?_
      rwa [getLast?_cons_of_ne_nil hne]
    rw [rawLines]
    split
    next hb =>
      intro raw hraw
      rcases mem_cons.mp hraw with rfl | hraw
      · exact ⟨[], by rw [hb]; rfl, not_mem_nil⟩
      · refine ih (hrest ?_) raw hraw
        rintro rfl
        cases hraw
    next hb =>
      have hne : bs ≠ [] := by
        rintro rfl
        exact hb (h b rfl)
      have hlines := ih (hrest hne)
      cases hraws : rawLines bs with
      | nil => exact absurd (flatten_rawLines bs).symm (by simpa [hraws] using hne)
      | cons raw raws =>
        rw [hraws, forall_mem_cons] at hlines
        obtain ⟨⟨body, rfl, hbody⟩, hlines⟩ := hlines
        refine forall_mem_cons.mpr ⟨⟨b :: body, rfl, ?_⟩, hlines⟩
        exact fun hmem => (mem_cons.mp hmem).elim (Ne.symm hb) hbody

/-! ## A file and its reader -/

/-- The file, and how far it has been read. -/
structure State where
  file : List UInt8 := []
  offset : Nat := 0

/-- The writer appends or the reader reads. -/
inductive Op where
  | append (bytes : List UInt8)
  | read
deriving DecidableEq

variable {β : Type*}

/-- The file is appended to, and read from the offset that the last read returned. -/
def machine (read : List UInt8 → Nat → List β × Nat) : StateMachine State Op (List β) where
  init := {}
  step s op :=
    match op with
    | .append bytes => ({ s with file := s.file ++ bytes }, [])
    | .read => ({ s with offset := (read s.file s.offset).2 }, (read s.file s.offset).1)

/-- Reads find only files that are complete and whose lines are good. -/
def ReadsWhole (Good : List UInt8 → Prop) (s : State) (op : Op) : Prop :=
  op = .read → Complete s.file ∧ ∀ raw ∈ rawLines s.file, Good raw

instance (Good : List UInt8 → Prop) [DecidablePred Good] (s : State) (op : Op) :
    Decidable (ReadsWhole Good s op) :=
  inferInstanceAs (Decidable (_ → _))

/-- The outputs are those of the lines before the offset. -/
def Delivered (g : List UInt8 → List β) (s : State) (outs : List (List β)) : Prop :=
  ∃ (raws : List (List UInt8)) (rest : List UInt8), s.file = raws.flatten ++ rest ∧
    (∀ raw ∈ raws, IsLine raw) ∧ s.offset = raws.flatten.length ∧ outs.flatten = raws.flatMap g

/-- A read takes some of the good lines that it finds after the offset. -/
def TakesLines (read : List UInt8 → Nat → List β × Nat) (g : List UInt8 → List β)
    (Good : List UInt8 → Prop) : Prop :=
  ∀ file offset, offset ≤ file.length → (∀ raw ∈ rawLines (file.drop offset), Good raw) →
    ∃ taken left, rawLines (file.drop offset) = taken ++ left ∧
      read file offset = (taken.flatMap g, offset + taken.flatten.length)

variable {read : List UInt8 → Nat → List β × Nat} {g : List UInt8 → List β}
  {Good : List UInt8 → Prop}

theorem delivered_of_run (hread : TakesLines read g Good)
    {ops : List Op} (h : (machine read).Meets (ReadsWhole Good) (machine read).init ops) :
    Delivered g ((machine read).exec (machine read).init ops)
      ((machine read).trace (machine read).init ops) := by
  refine StateMachine.exec_trace_invariant_of_meets (P := Delivered g) ?_ ops
    ⟨[], [], rfl, by simp, rfl, rfl⟩ h
  rintro ⟨file, offset⟩ outs op ⟨raws, rest, rfl, hraws, rfl, houts⟩ hguard
  cases op with
  | append bytes =>
    exact ⟨raws, rest ++ bytes, append_assoc .., hraws, rfl, by simpa [machine] using houts⟩
  | read =>
    obtain ⟨hcomplete, hgood⟩ := hguard rfl
    have hlines := hcomplete.isLine
    rw [rawLines_flatten hraws, forall_mem_append] at hgood hlines
    have hdrop : (raws.flatten ++ rest).drop raws.flatten.length = rest := drop_left
    obtain ⟨taken, left, hsplit, heq⟩ := hread (raws.flatten ++ rest) raws.flatten.length
      (by simp) (by rw [hdrop]; exact hgood.2)
    rw [hdrop] at hsplit
    rw [hsplit, forall_mem_append] at hlines
    refine ⟨raws ++ taken, left.flatten, ?_, ?_, ?_, ?_⟩
    · rw [flatten_append, append_assoc, ← flatten_append, ← hsplit, flatten_rawLines]
      rfl
    · exact forall_mem_append.mpr ⟨hraws, hlines.2.1⟩
    · rw [flatten_append, length_append]
      exact congrArg Prod.snd heq
    · rw [flatten_append, flatMap_append, houts, flatten_singleton]
      exact congrArg (raws.flatMap g ++ ·.1) heq

/-- When all has been read, the outputs are those of the lines of the file. -/
theorem outputs_of_run (hread : TakesLines read g Good)
    {ops : List Op} (h : (machine read).Meets (ReadsWhole Good) (machine read).init ops)
    (hend : ((machine read).exec (machine read).init ops).offset =
      ((machine read).exec (machine read).init ops).file.length) :
    ((machine read).trace (machine read).init ops).flatten =
      (rawLines ((machine read).exec (machine read).init ops).file).flatMap g := by
  obtain ⟨raws, rest, hfile, hraws, hoffset, houts⟩ := delivered_of_run hread h
  have hrest : rest = [] := by
    rw [hoffset, hfile, length_append] at hend
    exact eq_nil_of_length_eq_zero (by omega)
  have hall := rawLines_flatten hraws []
  rw [append_nil, rawLines, append_nil] at hall
  rw [houts, hfile, hrest, append_nil, hall]

end LineFile
