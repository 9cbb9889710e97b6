import Mathlib.Data.List.Basic
import Mathlib.Order.Lattice

/-!
# Reading a growing table with a cursor

A reader takes the rows whose key is after its cursor, in key order and at most `limit` of
them, and moves the cursor to the last one.  `Feed` is such a table, growing at its end.  A row
is read at some point (`Feed.exists_mem_batch`), and what is read later comes after it
(`Feed.key_lt_of_mem_batch`).
-/

namespace CursorReader

open List

variable {ρ κ : Type*} [LinearOrder κ] (key : ρ → κ) (limit : Nat)

def batch (cursor : κ) (rows : List ρ) : List ρ := (rows.filter fun r => cursor < key r).take limit

def advance (cursor : κ) (rows : List ρ) : κ :=
  match (batch key limit cursor rows).getLast? with
  | none => cursor
  | some r => key r

variable {key limit}

variable {cursor : κ} {rows : List ρ}

theorem mem_of_mem_batch {r : ρ} (h : r ∈ batch key limit cursor rows) :
    r ∈ rows ∧ cursor < key r := by
  obtain ⟨hr, hkey⟩ := mem_filter.mp (mem_of_mem_take h)
  exact ⟨hr, of_decide_eq_true hkey⟩

theorem key_le_advance (hsorted : rows.Pairwise fun a b => key a < key b) {r : ρ}
    (h : r ∈ batch key limit cursor rows) : key r ≤ advance key limit cursor rows := by
  have hbatch : (batch key limit cursor rows).Pairwise fun a b => key a < key b :=
    (hsorted.filter _).sublist (take_sublist _ _)
  rw [advance]
  rcases eq_nil_or_concat (batch key limit cursor rows) with hnil | ⟨front, last, heq⟩
  · rw [hnil] at h
    cases h
  · rw [heq, concat_eq_append] at h hbatch ⊢
    rw [getLast?_concat]
    rcases mem_append.mp h with hfront | hlast
    · exact ((pairwise_append.mp hbatch).2.2 r hfront last (mem_singleton_self _)).le
    · rw [mem_singleton.mp hlast]

theorem cursor_le_advance : cursor ≤ advance key limit cursor rows := by
  rw [advance]
  cases hlast : (batch key limit cursor rows).getLast? with
  | none => exact le_rfl
  | some r => exact (mem_of_mem_batch (mem_of_getLast? hlast)).2.le

/-- A row that is after the cursor and not read is after all that were read, and as many
were read as can be. -/
theorem advance_lt (hsorted : rows.Pairwise fun a b => key a < key b) {r : ρ} (hr : r ∈ rows)
    (hkey : cursor < key r) (hunread : r ∉ batch key limit cursor rows) :
    (∀ b ∈ batch key limit cursor rows, key b < key r) ∧
      (batch key limit cursor rows).length = limit := by
  have hafter : (rows.filter fun r => cursor < key r).Pairwise fun a b => key a < key b :=
    hsorted.filter _
  have hmem : r ∈ rows.filter fun r => cursor < key r :=
    mem_filter.mpr ⟨hr, decide_eq_true hkey⟩
  have hsplit := take_append_drop limit (rows.filter fun r => cursor < key r)
  have hdrop : r ∈ (rows.filter fun r => cursor < key r).drop limit := by
    rw [← hsplit] at hmem
    exact (mem_append.mp hmem).resolve_left hunread
  refine ⟨fun b hb => ?_, ?_⟩
  · rw [← hsplit] at hafter
    exact (pairwise_append.mp hafter).2.2 b hb r hdrop
  · have hlong : 0 < ((rows.filter fun r => cursor < key r).drop limit).length :=
      length_pos_of_mem hdrop
    rw [length_drop] at hlong
    rw [batch, length_take]
    omega

variable (key limit)

/-- A table that grows at its end, at each read, and the cursor of its reader. -/
structure Feed where
  rows : Nat → List ρ
  cursor : Nat → κ
  sorted : ∀ n, (rows n).Pairwise fun a b => key a < key b
  grows : ∀ n, rows n <+: rows (n + 1)
  reads : ∀ n, cursor (n + 1) = advance key limit (cursor n) (rows n)

namespace Feed

variable {key limit} (feed : Feed key limit)

/-- The rows of the `n`-th read. -/
def batch (n : Nat) : List ρ := CursorReader.batch key limit (feed.cursor n) (feed.rows n)

variable {n : Nat} {r : ρ}

theorem cursor_mono {m : Nat} (h : m ≤ n) : feed.cursor m ≤ feed.cursor n := by
  induction h with
  | refl => exact le_rfl
  | step _ ih =>
    rw [feed.reads]
    exact ih.trans cursor_le_advance

theorem key_lt_of_mem_batch {m : Nat} (h : m < n) {r' : ρ} (hr : r ∈ feed.batch m)
    (hr' : r' ∈ feed.batch n) : key r < key r' := by
  have hread : key r ≤ feed.cursor (m + 1) := by
    rw [feed.reads]
    exact key_le_advance (feed.sorted m) hr
  exact (hread.trans (feed.cursor_mono h)).trans_lt (mem_of_mem_batch hr').2

theorem rows_mono {m : Nat} (h : m ≤ n) : feed.rows m <+: feed.rows n := by
  induction h with
  | refl => exact prefix_rfl
  | step _ ih => exact ih.trans (feed.grows _)

theorem mem_rows_of_le {m : Nat} (h : m ≤ n) {b : ρ} (hr : r ∈ feed.rows n) (hb : b ∈ feed.rows m)
    (hle : key r ≤ key b) : r ∈ feed.rows m := by
  obtain ⟨added, hsplit⟩ := feed.rows_mono h
  have hsorted := feed.sorted n
  rw [← hsplit] at hr hsorted
  rcases mem_append.mp hr with hold | hnew
  · exact hold
  · exact absurd hle ((pairwise_append.mp hsorted).2.2 b hb r hnew).not_ge

/-- The cursor has passed a row only by reading it. -/
theorem mem_batch_of_passed {m : Nat} (h : m ≤ n) (hr : r ∈ feed.rows n)
    (hbefore : feed.cursor m < key r) (hafter : key r ≤ feed.cursor (m + 1)) :
    r ∈ feed.batch m := by
  rw [feed.reads, advance] at hafter
  cases hlast : (CursorReader.batch key limit (feed.cursor m) (feed.rows m)).getLast? with
  | none =>
    rw [hlast] at hafter
    exact absurd hafter hbefore.not_ge
  | some b =>
    rw [hlast] at hafter
    have hb := mem_of_getLast? hlast
    have hmem := feed.mem_rows_of_le h hr (mem_of_mem_batch hb).1 hafter
    by_contra hunread
    exact absurd hafter ((advance_lt (feed.sorted m) hmem hbefore hunread).1 b hb).not_ge

/-- What is behind the cursor was read, unless it was so from the start. -/
theorem exists_mem_batch_of_le (hr : r ∈ feed.rows n) (hstart : feed.cursor 0 < key r)
    (hle : key r ≤ feed.cursor n) : ∃ m, r ∈ feed.batch m := by
  -- The step at which the cursor passes the row.
  have hpassed : ∀ k, k ≤ n → key r ≤ feed.cursor k → ∃ m, r ∈ feed.batch m := by
    intro k
    induction k with
    | zero => exact fun _ hzero => absurd hzero hstart.not_ge
    | succ k ih =>
      intro hk hafter
      rcases le_or_gt (key r) (feed.cursor k) with hsooner | hbefore
      · exact ih (by omega) hsooner
      · exact ⟨k, feed.mem_batch_of_passed (by omega) hr hbefore hafter⟩
  exact hpassed n (Nat.le_refl n) hle

def backlog (r : ρ) (n : Nat) : Nat :=
  (feed.rows n).countP fun x => feed.cursor n < key x ∧ key x < key r

/-- A read makes the backlog of the rows it leaves unread smaller. -/
theorem backlog_lt (hlimit : 0 < limit) (hr : r ∈ feed.rows n) (hlt : feed.cursor n < key r)
    (hunread : r ∉ feed.batch n) : feed.backlog r (n + 1) < feed.backlog r n := by
  obtain ⟨hbefore, hfull⟩ := advance_lt (feed.sorted n) hr hlt hunread
  obtain ⟨b, hb⟩ : ∃ b, b ∈ CursorReader.batch key limit (feed.cursor n) (feed.rows n) :=
    exists_mem_of_length_pos (by omega)
  have hpassed : key b ≤ feed.cursor (n + 1) := by
    rw [feed.reads]
    exact key_le_advance (feed.sorted n) hb
  obtain ⟨added, hsplit⟩ := feed.grows n
  have hsorted := feed.sorted (n + 1)
  rw [← hsplit] at hsorted
  -- The rows added since are after it.
  have hadded : added.countP (fun x => feed.cursor (n + 1) < key x ∧ key x < key r) = 0 := by
    refine countP_eq_zero.mpr fun x hx hcounted => ?_
    have hafter := (pairwise_append.mp hsorted).2.2 r hr x hx
    exact absurd hafter (of_decide_eq_true hcounted).2.not_gt
  rw [backlog, backlog, ← hsplit, countP_append, hadded, Nat.add_zero]
  obtain ⟨front, back, heq⟩ := append_of_mem (mem_of_mem_batch hb).1
  have hfewer : ∀ l : List ρ,
      l.countP (fun x => feed.cursor (n + 1) < key x ∧ key x < key r) ≤
        l.countP fun x => feed.cursor n < key x ∧ key x < key r := fun l =>
    countP_mono_left fun x _ hx => by
      simp only [decide_eq_true_eq] at hx ⊢
      exact ⟨(feed.cursor_mono (Nat.le_succ n)).trans_lt hx.1, hx.2⟩
  have hgone : ¬ (feed.cursor (n + 1) < key b ∧ key b < key r) := fun hb' => hpassed.not_gt hb'.1
  have hcounted : feed.cursor n < key b ∧ key b < key r := ⟨(mem_of_mem_batch hb).2, hbefore b hb⟩
  rw [heq, countP_append, countP_append, countP_cons_of_neg (by simpa using hgone),
    countP_cons_of_pos (by simpa using hcounted)]
  have := hfewer front
  have := hfewer back
  omega

theorem exists_mem_batch_of_lt (hlimit : 0 < limit) (hr : r ∈ feed.rows n)
    (hlt : feed.cursor n < key r) : ∃ m, r ∈ feed.batch m := by
  -- On the backlog, which every read that leaves the row out makes smaller.
  generalize hbacklog : feed.backlog r n = k
  induction k using Nat.strongRecOn generalizing n with
  | _ k ih =>
    by_cases hread : r ∈ feed.batch n
    · exact ⟨n, hread⟩
    · have hbefore := (advance_lt (feed.sorted n) hr hlt hread).1
      have hnext : feed.cursor (n + 1) < key r := by
        rw [feed.reads, advance]
        cases hlast : (CursorReader.batch key limit (feed.cursor n) (feed.rows n)).getLast? with
        | none => exact hlt
        | some b => exact hbefore b (mem_of_getLast? hlast)
      have hsmaller := feed.backlog_lt hlimit hr hlt hread
      exact ih _ (hbacklog ▸ hsmaller) ((feed.grows n).subset hr) hnext rfl

theorem exists_mem_batch (hlimit : 0 < limit) (hr : r ∈ feed.rows n)
    (hstart : feed.cursor 0 < key r) : ∃ m, r ∈ feed.batch m := by
  rcases le_or_gt (key r) (feed.cursor n) with hle | hlt
  · exact feed.exists_mem_batch_of_le hr hstart hle
  · exact feed.exists_mem_batch_of_lt hlimit hr hlt

end Feed

end CursorReader
