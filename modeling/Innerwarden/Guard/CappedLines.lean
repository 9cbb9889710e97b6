import Innerwarden.Guard.Transport

/-!
# Reading a stream

`readLines` calls `CappedLines::next_line` until the stream ends or a line is too long.
`readLines_exact` says that it gives the lines of the stream, however the bytes come in
chunks, and bounds the buffer.  `buffers` follows the loop of `pollLine`, which returns what the
last of them says (`pollLine_returns_last`).
-/

namespace Innerwarden.Guard

open Text Framing List

/-- The values of `buf` in one call of `next_line`. -/
def buffers (max : Nat) : List UInt8 → List (List UInt8) → List (List UInt8)
  | buf, [] => [buf]
  | buf, chunk :: chunks =>
    buf ::
      match chunk.dropWhile (· ≠ lf) with
      | _ :: _ => [buf ++ chunk.takeWhile (· ≠ lf)]
      | [] =>
        if max < (buf ++ chunk).length then [buf ++ chunk] else buffers max (buf ++ chunk) chunks

/-- What a reader has seen in the end. -/
structure Reading where
  lines : List String
  /-- The last call returned `InvalidData`. -/
  refused : Bool
  buffers : List (List UInt8)

/-- The calls of `next_line` on a stream that ends, with the chunks `fill_buf` gives. -/
def readLines (max : Nat) : Nat → List (List UInt8) → Option Reading
  | 0, _ => none
  | fuel + 1, chunks =>
    match pollLine max true [] chunks with
    | .line line rest =>
      (readLines max fuel rest).map fun r =>
        ⟨fromUtf8Lossy line :: r.lines, r.refused, buffers max [] chunks ++ r.buffers⟩
    | .tooLong _ => some ⟨[], true, buffers max [] chunks⟩
    | .eof | .pending _ => some ⟨[], false, buffers max [] chunks⟩

/-- A call that ends with the buffer can return this. -/
def LinePoll.Returns (max : Nat) (buf : List UInt8) : LinePoll → Prop
  | .pending buf' => buf' = buf
  | .line text _ => buf.length ≤ max ∧ text = popCr buf
  | .eof => buf = []
  | .tooLong _ => max < buf.length

theorem finishLine_returns (max : Nat) (buf : List UInt8) (rest : List (List UInt8)) :
    (finishLine max buf rest).Returns max buf := by
  rw [finishLine]
  split
  next hlong => exact hlong
  next hshort => exact ⟨Nat.le_of_not_lt hshort, rfl⟩

/-- What a poll returns is decided by the last value of its buffer. -/
theorem pollLine_returns_last (max : Nat) (closed : Bool) (buf : List UInt8)
    (chunks : List (List UInt8)) :
    ∃ last, (buffers max buf chunks).getLast? = some last ∧
      (pollLine max closed buf chunks).Returns max last := by
  induction chunks generalizing buf with
  | nil =>
    refine ⟨buf, rfl, ?_⟩
    rw [pollLine]
    split_ifs with hclosed hempty
    · exact hempty
    · exact finishLine_returns max buf []
    · rfl
  | cons chunk chunks ih =>
    rw [buffers, pollLine]
    cases chunk.dropWhile (· ≠ lf) with
    | cons b rest => exact ⟨_, rfl, finishLine_returns ..⟩
    | nil =>
      by_cases hlong : max < (buf ++ chunk).length
      · simp only [if_pos hlong]
        exact ⟨_, rfl, hlong⟩
      · obtain ⟨last, hlast, hreturns⟩ := ih (buf ++ chunk)
        simp only [if_neg hlong]
        exact ⟨last, by rw [getLast?_cons, hlast]; rfl, hreturns⟩

/-- The buffer is over the cap by less than the chunk that was added last. -/
theorem length_le_of_mem_buffers {max C : Nat} {chunks : List (List UInt8)}
    (hC : ∀ chunk ∈ chunks, chunk.length ≤ C) {buf : List UInt8} (hbuf : buf.length ≤ max) :
    ∀ b ∈ buffers max buf chunks, b.length ≤ max + C := by
  induction chunks generalizing buf with
  | nil =>
    intro b hb
    rw [mem_singleton.mp hb]
    omega
  | cons chunk chunks ih =>
    have hchunk := hC chunk (mem_cons_self ..)
    have htake := (List.takeWhile_prefix (l := chunk) (· ≠ lf)).length_le
    intro b hb
    rw [buffers] at hb
    rcases mem_cons.mp hb with rfl | hb
    · omega
    split at hb
    next =>
      rw [mem_singleton.mp hb, length_append]
      omega
    next =>
      split at hb
      next =>
        rw [mem_singleton.mp hb, length_append]
        omega
      next hshort =>
        exact ih (fun c hc => hC c (mem_cons_of_mem _ hc)) (Nat.le_of_not_lt hshort) b hb

/-- The chunks that are left are no longer than those that came. -/
theorem length_le_of_pollLine {max C : Nat} {chunks rest : List (List UInt8)}
    (hC : ∀ chunk ∈ chunks, chunk.length ≤ C) {buf line : List UInt8}
    (h : pollLine max true buf chunks = .line line rest) : ∀ chunk ∈ rest, chunk.length ≤ C := by
  induction chunks generalizing buf with
  | nil =>
    rw [pollLine, if_pos rfl] at h
    split at h
    · cases h
    · rw [finishLine] at h
      split at h
      · cases h
      · cases h
        intro c hc
        cases hc
  | cons chunk chunks ih =>
    have htail : ∀ c ∈ chunks, c.length ≤ C := fun c hc => hC c (mem_cons_of_mem _ hc)
    rw [pollLine] at h
    cases hdrop : chunk.dropWhile (· ≠ lf) with
    | nil =>
      simp only [hdrop] at h
      split at h
      · cases h
      · exact ih htail h
    | cons b bs =>
      simp only [hdrop, finishLine] at h
      split at h
      · cases h
      · cases h
        split
        · exact htail
        · have hlen := (dropWhile_suffix (l := chunk) (· ≠ lf)).length_le
          rw [hdrop] at hlen
          refine forall_mem_cons.mpr ⟨?_, htail⟩
          have hchunk := hC chunk (mem_cons_self ..)
          rw [length_cons] at hlen
          omega

/-- The lines are those of the stream up to the first that is too long, where the reader
stops, and the buffer exceeds the cap by one chunk at most. -/
theorem readLines_exact (max C : Nat) (chunks : List (List UInt8))
    (hC : ∀ chunk ∈ chunks, chunk ≠ [] ∧ chunk.length ≤ C) (fuel : Nat)
    (hfuel : chunks.flatten.length < fuel) :
    ∃ r, readLines max fuel chunks = some r ∧
      r.lines = ((frames lf chunks.flatten).takeWhile (·.length ≤ max)).map
        (fun raw => fromUtf8Lossy (popCr raw)) ∧
      (r.refused = true ↔ ∃ raw ∈ frames lf chunks.flatten, max < raw.length) ∧
      ∀ buf ∈ r.buffers, buf.length ≤ max + C := by
  replace hC : ∀ chunk ∈ chunks, chunk.length ≤ C := fun chunk h => (hC chunk h).2
  induction fuel generalizing chunks with
  | zero => cases hfuel
  | succ fuel ih =>
    have hbuffers := @length_le_of_mem_buffers _ _ _ hC [] (Nat.zero_le max)
    have hspec := @pollLine_spec max true [] not_mem_nil chunks
    rw [nil_append] at hspec
    rw [readLines]
    cases hpoll : pollLine max true [] chunks with
    | pending buf =>
      rw [hpoll] at hspec
      cases hspec.1
    | eof =>
      rw [hpoll] at hspec
      rw [hspec.2]
      exact ⟨_, rfl, rfl, iff_of_false nofun nofun, hbuffers⟩
    | tooLong rest =>
      rw [hpoll] at hspec
      obtain ⟨raw, raws, hframes, hlong⟩ := hspec
      rw [hframes]
      refine ⟨_, rfl, ?_, iff_of_true rfl ⟨raw, mem_cons_self .., hlong⟩, hbuffers⟩
      rw [takeWhile_cons_of_neg (by simpa using hlong), map_nil]
    | line line rest =>
      rw [hpoll] at hspec
      obtain ⟨raw, hshort, hframes, hline, hless⟩ : ∃ raw, raw.length ≤ max ∧
          frames lf chunks.flatten = raw :: frames lf rest.flatten ∧ line = popCr raw ∧
          rest.flatten.length < chunks.flatten.length := by
        rcases hspec with ⟨raw, hshort, hraw, hbytes, hline⟩ |
          ⟨-, hshort, hne, hlf, rfl, hline⟩
        · refine ⟨raw, hshort, by rw [hbytes, frames_append_sep hraw], hline, ?_⟩
          rw [hbytes, length_append, length_cons]
          omega
        · exact ⟨_, hshort, frames_of_not_mem hlf hne, hline, length_pos_of_ne_nil hne⟩
      obtain ⟨r, hr, hlines, hrefused, hbounded⟩ := ih rest (by omega)
        (length_le_of_pollLine hC hpoll)
      simp only [hr, Option.map_some]
      refine ⟨_, rfl, ?_, ?_, forall_mem_append.mpr ⟨hbuffers, hbounded⟩⟩
      · rw [hframes, takeWhile_cons_of_pos (by simpa using hshort), map_cons, hline,
          hlines]
      · rw [hrefused, hframes, exists_mem_cons_iff]
        exact (or_iff_right (Nat.not_lt.mpr hshort)).symm

/-- A line in two chunks, one with a carriage return, and one that is too long. -/
theorem readLines_exact_sample :
    ∃ r, readLines 3 10 [[97], [98, 13, 10, 99, 100], [101, 102]] = some r ∧ r.lines = ["ab"] ∧
      r.refused = true ∧ ∀ buf ∈ r.buffers, buf.length ≤ 3 + 5 := by
  obtain ⟨r, hr, hlines, hrefused, hbuffers⟩ := readLines_exact 3 5
    [[97], [98, 13, 10, 99, 100], [101, 102]] (by decide) 10 (by decide)
  exact ⟨r, hr, hlines.trans (by decide +kernel), hrefused.mpr (by decide), hbuffers⟩

end Innerwarden.Guard
