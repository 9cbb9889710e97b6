import Innerwarden.Lib.StateMachine

/-!
# Reassembly of one direction of a TCP stream

`StreamBuffer` of `sensor/src/collectors/tcp_stream.rs`.  A segment at the expected sequence
number is taken, one before it is taken for a retransmission and dropped, also if it ends after
that number, and one after it makes the buffer skip the gap.  `reassembled_iff` says that without
gaps the dropped bytes are the only way the buffer differs from the stream.

A *receiver* is a buffer together with the end of the data delivered so far.  The stream is
shorter than half the space of sequence numbers, so numbers compare as their offsets do.
-/

namespace Innerwarden.TcpStream

open List

/-! ## Sequence numbers -/

/-- `seq_before`: the difference is negative as an `i32`. -/
def seqBefore (a b : UInt32) : Bool := (a - b).toInt32 < 0

theorem seqBefore_iff {a b : UInt32} : seqBefore a b = true ↔ 2 ^ 31 ≤ (a - b).toNat := by
  have hneg : (a - b).toInt32 < 0 ↔ (a - b).toBitVec.toInt < 0 := Int32.lt_iff_toInt_lt
  have htoNat : (a - b).toBitVec.toNat = (a - b).toNat := rfl
  rw [seqBefore, decide_eq_true_eq, hneg, BitVec.toInt_neg_iff, htoNat]
  omega

section Offsets

variable (initial : UInt32) {i j : Nat}

theorem toNat_add_ofNat_sub (hi : i < 2 ^ 31) (hj : j < 2 ^ 31) :
    ((initial + UInt32.ofNat i) - (initial + UInt32.ofNat j)).toNat =
      (2 ^ 32 + i - j) % 2 ^ 32 := by
  rw [UInt32.toNat_sub, UInt32.toNat_add, UInt32.toNat_add, UInt32.toNat_ofNat',
    UInt32.toNat_ofNat']
  omega

theorem seqBefore_add (hi : i < 2 ^ 31) (hj : j < 2 ^ 31) :
    seqBefore (initial + UInt32.ofNat i) (initial + UInt32.ofNat j) = true ↔ i < j := by
  rw [seqBefore_iff, toNat_add_ofNat_sub initial hi hj]
  omega

theorem add_ofNat_inj (hi : i < 2 ^ 31) (hj : j < 2 ^ 31) :
    initial + UInt32.ofNat i = initial + UInt32.ofNat j ↔ i = j := by
  constructor
  · intro h
    have hsub := toNat_add_ofNat_sub initial hi hj
    rw [h, UInt32.sub_self, UInt32.toNat_zero] at hsub
    omega
  · rintro rfl
    rfl

end Offsets

/-! ## The buffer -/

/-- One direction of a connection. -/
structure StreamBuffer where
  nextSeq : UInt32
  data : List UInt8
  totalBytes : Nat
  maxBytes : Nat

namespace StreamBuffer

def new (initialSeq : UInt32) (maxBytes : Nat) : StreamBuffer := ⟨initialSeq, [], 0, maxBytes⟩

/-- `add_segment`: the buffer after it, and whether data was added. -/
def addSegment (buf : StreamBuffer) (seq : UInt32) (payload : List UInt8) : StreamBuffer × Bool :=
  if payload.isEmpty then (buf, false)
  else if seq = buf.nextSeq then
    let available := buf.maxBytes - buf.data.length
    ({ buf with
       data := buf.data ++ payload.take available
       totalBytes := buf.totalBytes + payload.length
       nextSeq := seq + UInt32.ofNat payload.length }, true)
  else if seqBefore seq buf.nextSeq then (buf, false)
  else
    ({ buf with
       nextSeq := seq + UInt32.ofNat payload.length
       totalBytes := buf.totalBytes + payload.length }, false)

theorem addSegment_maxBytes (buf : StreamBuffer) (seq : UInt32) (payload : List UInt8) :
    (buf.addSegment seq payload).1.maxBytes = buf.maxBytes := by
  simp only [addSegment]
  repeat' split
  all_goals rfl

/-- A segment only ever adds a beginning of its payload. -/
theorem addSegment_data (buf : StreamBuffer) (seq : UInt32) (payload : List UInt8) :
    ∃ n, (buf.addSegment seq payload).1.data = buf.data ++ payload.take n ∧
      n ≤ buf.maxBytes - buf.data.length := by
  simp only [addSegment]
  repeat' split
  case isFalse.isTrue => exact ⟨_, rfl, le_refl _⟩
  all_goals exact ⟨0, by simp, Nat.zero_le _⟩

theorem addSegment_data_of_full {buf : StreamBuffer} (h : buf.maxBytes ≤ buf.data.length)
    (seq : UInt32) (payload : List UInt8) : (buf.addSegment seq payload).1.data = buf.data := by
  obtain ⟨n, hdata, hn⟩ := addSegment_data buf seq payload
  have hzero : n = 0 := by omega
  rw [hdata, hzero, take_zero, append_nil]

end StreamBuffer

/-! ## Segments of a stream -/

/-- A segment of the stream `B`. -/
structure Segment (B : List UInt8) where
  offset : Nat
  length : Nat
  within : offset + length ≤ B.length

variable {B : List UInt8} {initial : UInt32} {maxBytes : Nat}

namespace Segment

def stop (s : Segment B) : Nat := s.offset + s.length

def seq (s : Segment B) (initial : UInt32) : UInt32 := initial + UInt32.ofNat s.offset

def payload (s : Segment B) : List UInt8 := (B.drop s.offset).take s.length

theorem length_payload (s : Segment B) : s.payload.length = s.length := by
  have := s.within
  rw [payload, length_take, length_drop]
  omega

theorem stop_le (s : Segment B) : s.stop ≤ B.length := s.within

end Segment

/-- A buffer, and the end of the data delivered to it. -/
structure Receiver where
  buf : StreamBuffer
  delivered : Nat

/-- A receiver that is given segments of the stream. -/
def receiver (B : List UInt8) (initial : UInt32) (maxBytes : Nat) :
    StateMachine Receiver (Segment B) Bool where
  init := ⟨.new initial maxBytes, 0⟩
  step r s :=
    let added := r.buf.addSegment (s.seq initial) s.payload
    (⟨added.1, max r.delivered s.stop⟩, added.2)

/-- The segment begins in the data delivered or right after it. -/
def NoGap (r : Receiver) (s : Segment B) : Prop := s.offset ≤ r.delivered

/-- A segment that begins in the data delivered has no data after it, as long as there is
room. -/
def NoOverlap (r : Receiver) (s : Segment B) : Prop :=
  r.delivered < r.buf.maxBytes → s.offset < r.delivered → s.stop ≤ r.delivered

instance (r : Receiver) (s : Segment B) : Decidable (NoGap r s) :=
  inferInstanceAs (Decidable (_ ≤ _))

instance (r : Receiver) (s : Segment B) : Decidable (NoOverlap r s) :=
  inferInstanceAs (Decidable (_ → _ → _))

/-- The buffer holds the beginning of the stream. -/
def Reassembled (B : List UInt8) (maxBytes : Nat) (r : Receiver) : Prop :=
  r.buf.data = B.take (min maxBytes r.delivered)

/-- What holds besides, as long as the buffer holds the beginning of the stream. -/
structure InStep (B : List UInt8) (initial : UInt32) (maxBytes : Nat) (r : Receiver) : Prop where
  max : r.buf.maxBytes = maxBytes
  within : r.delivered ≤ B.length
  expected : r.delivered < maxBytes → r.buf.nextSeq = initial + UInt32.ofNat r.delivered

/-! ## One segment -/

section Step

variable {r : Receiver} {s : Segment B}

theorem Segment.payload_isEmpty (hpos : 0 < s.length) : s.payload.isEmpty = false := by
  rw [isEmpty_eq_false_iff, ← length_pos_iff, s.length_payload]
  exact hpos

variable (h : InStep B initial maxBytes r)

include h

theorem InStep.step_max (s : Segment B) :
    ((receiver B initial maxBytes).step r s).1.buf.maxBytes = maxBytes :=
  (StreamBuffer.addSegment_maxBytes ..).trans h.max

theorem InStep.step_within (s : Segment B) :
    ((receiver B initial maxBytes).step r s).1.delivered ≤ B.length :=
  max_le h.within s.stop_le

theorem addSegment_of_before (hB : B.length < 2 ^ 31) (hroom : r.delivered < maxBytes)
    (hbefore : s.offset < r.delivered) :
    (r.buf.addSegment (s.seq initial) s.payload).1 = r.buf := by
  have hoffset : s.offset < 2 ^ 31 := by
    have := s.within
    omega
  have hdelivered : r.delivered < 2 ^ 31 := Nat.lt_of_le_of_lt h.within hB
  have hne : s.seq initial ≠ r.buf.nextSeq := by
    rw [h.expected hroom, Segment.seq, Ne, add_ofNat_inj initial hoffset hdelivered]
    exact Nat.ne_of_lt hbefore
  have hseq : seqBefore (s.seq initial) r.buf.nextSeq = true := by
    rw [h.expected hroom, Segment.seq, seqBefore_add initial hoffset hdelivered]
    exact hbefore
  simp only [StreamBuffer.addSegment, if_neg hne, if_pos hseq]
  split <;> rfl

variable (hr : Reassembled B maxBytes r)

include hr

theorem reassembled_step_of_full (hfull : maxBytes ≤ r.delivered) :
    Reassembled B maxBytes ((receiver B initial maxBytes).step r s).1 := by
  have hlength : r.buf.maxBytes ≤ r.buf.data.length := by
    have := h.within
    rw [h.max, hr, length_take]
    omega
  have hdata := StreamBuffer.addSegment_data_of_full hlength (s.seq initial) s.payload
  have hmin : min maxBytes r.delivered = maxBytes := min_eq_left hfull
  have hmin' : min maxBytes (max r.delivered s.stop) = maxBytes :=
    min_eq_left (Nat.le_trans hfull (le_max_left ..))
  simp only [Reassembled, receiver, hdata, hmin']
  rw [hr, hmin]

/-- A segment at the end of the data delivered is taken as far as there is room. -/
theorem addSegment_of_expected (hroom : r.delivered < maxBytes)
    (hexpected : s.offset = r.delivered) :
    let buf := (r.buf.addSegment (s.seq initial) s.payload).1
    buf.data = B.take (min maxBytes s.stop) ∧ buf.nextSeq = initial + UInt32.ofNat s.stop := by
  rcases Nat.eq_zero_or_pos s.length with hzero | hpos
  · -- An empty segment changes nothing.
    have hempty : s.payload.isEmpty = true := by
      rw [List.isEmpty_iff, ← length_eq_zero_iff, s.length_payload]
      exact hzero
    simp only [StreamBuffer.addSegment, hempty, if_true, Segment.stop, hzero, hexpected]
    exact ⟨hr, h.expected hroom⟩
  have hnext : s.seq initial = r.buf.nextSeq := by
    rw [h.expected hroom, Segment.seq, hexpected]
  have hdata : r.buf.data = B.take s.offset := by
    rw [hr, hexpected, min_eq_right (Nat.le_of_lt hroom)]
  have hlength : r.buf.data.length = s.offset := by
    have := s.within
    rw [hdata, length_take]
    omega
  have hstop : min maxBytes s.stop = s.offset + min (maxBytes - s.offset) s.length := by
    rw [Segment.stop]
    omega
  simp only [StreamBuffer.addSegment, Segment.payload_isEmpty hpos, Bool.false_eq_true, if_false,
    if_pos hnext]
  refine ⟨?_, ?_⟩
  · rw [hstop, take_add, hlength, h.max, hdata, Segment.payload, take_take]
  · rw [s.length_payload, Segment.seq, Segment.stop, UInt32.ofNat_add, UInt32.add_assoc]

/-- As long as there is room, a segment without a gap keeps the buffer in step exactly if it
does not overlap old and new data. -/
theorem step_of_room (hB : B.length < 2 ^ 31) (hgap : NoGap r s) (hroom : r.delivered < maxBytes) :
    let r' := ((receiver B initial maxBytes).step r s).1
    (Reassembled B maxBytes r' ↔ NoOverlap r s) ∧
      (Reassembled B maxBytes r' → InStep B initial maxBytes r') := by
  intro r'
  have hmin : min maxBytes r.delivered = r.delivered := min_eq_right (Nat.le_of_lt hroom)
  rcases Nat.lt_or_eq_of_le hgap with hbefore | hexpected
  · have hbuf : r'.buf = r.buf := addSegment_of_before h hB hroom hbefore
    have hiff : Reassembled B maxBytes r' ↔ s.stop ≤ r.delivered := by
      have hstop := s.stop_le
      have hwithin := h.within
      rw [Reassembled, hbuf, hr, hmin]
      constructor
      · intro hdata
        have hlength := congrArg List.length hdata
        simp only [length_take, r', receiver] at hlength
        omega
      · intro hle
        simp only [r', receiver, max_eq_left hle, hmin]
    refine ⟨?_, fun hr' => ?_⟩
    · rw [hiff]
      refine ⟨fun hle _ _ => hle, fun hno => hno ?_ hbefore⟩
      rwa [h.max]
    · have hdelivered : r'.delivered = r.delivered := max_eq_left (hiff.mp hr')
      refine ⟨h.step_max s, h.step_within s, fun hlt => ?_⟩
      rw [hbuf, hdelivered]
      exact h.expected hroom
  · have hno : NoOverlap r s := fun _ hlt => absurd hexpected (Nat.ne_of_lt hlt)
    have hdelivered : r'.delivered = s.stop := by
      refine max_eq_right ?_
      rw [← hexpected]
      exact Nat.le_add_right ..
    obtain ⟨hdata, hnext⟩ := addSegment_of_expected h hr hroom hexpected
    refine ⟨iff_of_true ?_ hno, fun _ => ⟨h.step_max s, h.step_within s, fun _ => ?_⟩⟩
    · rw [Reassembled, hdelivered]
      exact hdata
    · rw [hdelivered]
      exact hnext

theorem step_inStep (hB : B.length < 2 ^ 31) (hgap : NoGap r s) :
    let r' := ((receiver B initial maxBytes).step r s).1
    (Reassembled B maxBytes r' ↔ NoOverlap r s) ∧
      (Reassembled B maxBytes r' → InStep B initial maxBytes r') := by
  rcases Nat.lt_or_ge r.delivered maxBytes with hroom | hfull
  · exact step_of_room h hr hB hgap hroom
  · refine ⟨iff_of_true (reassembled_step_of_full h hr hfull) fun hroom => ?_, fun _ => ?_⟩
    · rw [h.max] at hroom
      exact absurd hroom (Nat.not_lt.mpr hfull)
    · refine ⟨h.step_max s, h.step_within s, fun hroom => absurd hroom (Nat.not_lt.mpr ?_)⟩
      exact Nat.le_trans hfull (le_max_left ..)

end Step

/-! ## Runs -/

/-- Without gaps, the buffer holds the beginning of the stream at every point exactly if no
segment overlaps old and new data while there is room. -/
theorem reassembled_iff (B : List UInt8) (initial : UInt32) (maxBytes : Nat)
    (segs : List (Segment B)) (hB : B.length < 2 ^ 31)
    (hgaps : (receiver B initial maxBytes).Meets NoGap (receiver B initial maxBytes).init segs) :
    let r := receiver B initial maxBytes
    (∀ pre, pre <+: segs →
        (r.exec r.init pre).buf.data = B.take (min maxBytes (r.exec r.init pre).delivered)) ↔
      r.Meets NoOverlap r.init segs := by
  intro r
  have hinit : Reassembled B maxBytes r.init := by
    simp [Reassembled, r, receiver, StreamBuffer.new]
  have hinStep : InStep B initial maxBytes r.init := ⟨rfl, Nat.zero_le _, fun _ => by
    simp [r, receiver, StreamBuffer.new]⟩
  refine StateMachine.forall_exec_iff_meets_of_meets
    (I := fun s => Reassembled B maxBytes s → InStep B initial maxBytes s)
    (P := Reassembled B maxBytes) (W := NoGap) ?_ ?_ segs (fun _ => hinStep) hinit hgaps
  · intro s seg hI hs hgap
    exact (step_inStep (hI hs) hs hB hgap).2
  · intro s seg hI hs hgap
    exact (step_inStep (hI hs) hs hB hgap).1

/-- Two segments across the wrap of the numbers, the second a retransmission of the first with
no more data, and a third after them. -/
theorem reassembled_iff_retransmission :
    let B : List UInt8 := [1, 2, 3, 4, 5]
    let r := receiver B 0xFFFFFFFE 4
    let segs : List (Segment B) := [⟨0, 3, by decide⟩, ⟨1, 2, by decide⟩, ⟨3, 2, by decide⟩]
    r.Meets NoGap r.init segs ∧ ∀ pre, pre <+: segs →
      (r.exec r.init pre).buf.data = B.take (min 4 (r.exec r.init pre).delivered) :=
  ⟨by decide, (reassembled_iff _ _ _ _ (by decide) (by decide)).mpr (by decide)⟩

/-- A retransmission with two more bytes is dropped with them. -/
theorem overlapping_segment_lost :
    let B : List UInt8 := [1, 2, 3, 4, 5]
    let r := receiver B 0 10
    let segs : List (Segment B) := [⟨0, 3, by decide⟩, ⟨1, 4, by decide⟩]
    r.Meets NoGap r.init segs ∧ (r.exec r.init segs).delivered = 5 ∧
      (r.exec r.init segs).buf.data = [1, 2, 3] ∧ B.take (min 10 5) = B := by
  decide

end Innerwarden.TcpStream
