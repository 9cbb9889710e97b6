import Mathlib.Data.List.Basic

/-!
# Records that end with a separator

A stream of records is cut at a separator.  What follows the last separator is a
record too, unless it is empty.  `frames_append_sep` takes the first record off a
stream and `framesFrom_append` continues one that was begun.
-/

namespace Framing

open List

variable {α : Type*} [DecidableEq α] (sep : α)

/-- The records of a stream, given what was read of the current one. -/
def framesFrom : List α → List α → List (List α)
  | cur, [] => if cur = [] then [] else [cur]
  | cur, x :: xs => if x = sep then cur :: framesFrom [] xs else framesFrom (cur ++ [x]) xs

def frames (xs : List α) : List (List α) := framesFrom sep [] xs

variable {sep}

variable {xs : List α}

theorem framesFrom_append (h : sep ∉ xs) (cur ys : List α) :
    framesFrom sep cur (xs ++ ys) = framesFrom sep (cur ++ xs) ys := by
  induction xs generalizing cur with
  | nil => rw [nil_append, append_nil]
  | cons x xs ih =>
    obtain ⟨hx, hxs⟩ := not_or.mp (mt mem_cons.mpr h)
    rw [cons_append, framesFrom, if_neg (Ne.symm hx), ih hxs, append_assoc,
      singleton_append]

theorem frames_append_sep (h : sep ∉ xs) (ys : List α) :
    frames sep (xs ++ sep :: ys) = xs :: frames sep ys := by
  rw [frames, framesFrom_append h, framesFrom, if_pos rfl, nil_append]
  rfl

theorem frames_of_not_mem (h : sep ∉ xs) (hne : xs ≠ []) : frames sep xs = [xs] := by
  have hstep := framesFrom_append h [] []
  rw [append_nil, nil_append] at hstep
  rw [frames, hstep, framesFrom, if_neg hne]

/-- The current record only grows. -/
theorem framesFrom_of_cur {cur : List α} (hne : cur ≠ []) (ys : List α) :
    ∃ f fs, framesFrom sep cur ys = f :: fs ∧ cur.length ≤ f.length := by
  induction ys generalizing cur with
  | nil => exact ⟨cur, [], by rw [framesFrom, if_neg hne], Nat.le_refl _⟩
  | cons y ys ih =>
    rw [framesFrom]
    split
    · exact ⟨cur, _, rfl, Nat.le_refl _⟩
    · obtain ⟨f, fs, hf, hle⟩ := ih (show cur ++ [y] ≠ [] by simp)
      exact ⟨f, fs, hf, by rw [length_append] at hle; omega⟩

theorem frames_of_not_mem_append (h : sep ∉ xs) (hne : xs ≠ []) (ys : List α) :
    ∃ f fs, frames sep (xs ++ ys) = f :: fs ∧ xs.length ≤ f.length := by
  rw [frames, framesFrom_append h, nil_append]
  exact framesFrom_of_cur hne ys

end Framing
