import Innerwarden.Guard.Proxy
import Innerwarden.Lib.Framing

/-!
# The transport of the MCP proxy

`CappedLines::next_line` and the loop of `run_proxy_with_io`, both in
`crates/agent-guard/src/mcp_proxy/transport.rs`.

The loop selects over three line readers: the client, the server and the server's standard
error.  `next_line` keeps the part of a line it has read in a local buffer.  When the future of
one reader completes, those of the other two are dropped, and their buffers with them.

A run is a list of arrivals, ends of streams and polls.  The schedules the runtime can produce
are among these.  `lines_processed` says that no line is lost in a direction in which no other
branch completes while a line is half read, and that all lines of the direction are processed in
a session that is polled to its end.  `half_read_line_lost` is a run in which a line is lost.
-/

namespace Innerwarden.Guard

open Text Framing List Function

/-! ## Reading a line -/

def lf : UInt8 := 10

def maxLineBytes : Nat := 4 * 1024 * 1024

def popCr (line : List UInt8) : List UInt8 :=
  if line.getLast? = some 13 then line.dropLast else line

/-- What polling `next_line` gives, with the chunks that are left. -/
inductive LinePoll where
  | pending (buf : List UInt8)
  | line (line : List UInt8) (rest : List (List UInt8))
  | eof
  | tooLong (rest : List (List UInt8))

def LinePoll.rest : LinePoll → List (List UInt8)
  | .line _ rest => rest
  | .tooLong rest => rest
  | _ => []

/-- The end of `next_line`. -/
def finishLine (max : Nat) (buf : List UInt8) (rest : List (List UInt8)) : LinePoll :=
  if max < buf.length then .tooLong rest else .line (popCr buf) rest

/-- Polling `next_line`, with what it has read of the line and the chunks that are there.
The first chunk may be the rest of one that was read before. -/
def pollLine (max : Nat) (closed : Bool) : List UInt8 → List (List UInt8) → LinePoll
  | buf, [] =>
    if closed then if buf = [] then .eof else finishLine max buf [] else .pending buf
  | buf, chunk :: chunks =>
    match chunk.dropWhile (· ≠ lf) with
    | _ :: rest =>
      finishLine max (buf ++ chunk.takeWhile (· ≠ lf))
        (if rest = [] then chunks else rest :: chunks)
    | [] =>
      if max < (buf ++ chunk).length then .tooLong chunks
      else pollLine max closed (buf ++ chunk) chunks

/-- What a poll says about the bytes that were there. -/
def PollSpec (max : Nat) (closed : Bool) (bytes : List UInt8) : LinePoll → Prop
  | .pending buf => closed = false ∧ buf = bytes ∧ lf ∉ bytes
  | .line line rest =>
    (∃ raw, raw.length ≤ max ∧ lf ∉ raw ∧ bytes = raw ++ lf :: rest.flatten ∧ line = popCr raw) ∨
    (closed = true ∧ bytes.length ≤ max ∧ bytes ≠ [] ∧ lf ∉ bytes ∧ rest = [] ∧ line = popCr bytes)
  | .eof => closed = true ∧ bytes = []
  | .tooLong _ => ∃ raw raws, frames lf bytes = raw :: raws ∧ max < raw.length

theorem lf_not_mem_takeWhile (chunk : List UInt8) : lf ∉ chunk.takeWhile (· ≠ lf) := fun h => by
  simpa using mem_takeWhile_imp h

theorem chunk_eq_of_dropWhile {chunk rest : List UInt8} {b : UInt8}
    (h : chunk.dropWhile (· ≠ lf) = b :: rest) :
    chunk = chunk.takeWhile (· ≠ lf) ++ lf :: rest := by
  have hb : b = lf := by
    have hhead := head?_dropWhile_not (fun x => decide (x ≠ lf)) chunk
    rw [h] at hhead
    simpa using hhead
  obtain rfl := hb.symm
  rw [← h, takeWhile_append_dropWhile]

theorem lf_not_mem_of_dropWhile {chunk : List UInt8} (h : chunk.dropWhile (· ≠ lf) = []) :
    lf ∉ chunk := fun hmem => by
  simpa using dropWhile_eq_nil_iff.mp h lf hmem

theorem flatten_rest (rest : List UInt8) (chunks : List (List UInt8)) :
    (if rest = [] then chunks else rest :: chunks).flatten = rest ++ chunks.flatten := by
  split
  next h => rw [h, nil_append]
  next => rfl

theorem long_frame {max : Nat} {buf : List UInt8} (hbuf : lf ∉ buf) (hlong : max < buf.length)
    (rest : List UInt8) : ∃ raw raws, frames lf (buf ++ rest) = raw :: raws ∧ max < raw.length := by
  have hne : buf ≠ [] := fun h => by rw [h] at hlong; cases hlong
  obtain ⟨raw, raws, hraw, hle⟩ := frames_of_not_mem_append hbuf hne rest
  exact ⟨raw, raws, hraw, Nat.lt_of_lt_of_le hlong hle⟩

theorem pollLine_spec (max : Nat) (closed : Bool) {buf : List UInt8} (hbuf : lf ∉ buf)
    (chunks : List (List UInt8)) :
    PollSpec max closed (buf ++ chunks.flatten) (pollLine max closed buf chunks) := by
  induction chunks generalizing buf with
  | nil =>
    rw [flatten_nil, append_nil, pollLine]
    cases closed with
    | false => exact ⟨rfl, rfl, hbuf⟩
    | true =>
      by_cases hempty : buf = []
      · rw [if_pos rfl, if_pos hempty]
        exact ⟨rfl, hempty⟩
      · rw [if_pos rfl, if_neg hempty, finishLine]
        by_cases hlong : max < buf.length
        · rw [if_pos hlong]
          have hframe := long_frame hbuf hlong []
          rwa [append_nil] at hframe
        · rw [if_neg hlong]
          exact Or.inr ⟨rfl, Nat.le_of_not_lt hlong, hempty, hbuf, rfl, rfl⟩
  | cons chunk chunks ih =>
    rw [flatten_cons, pollLine]
    cases hdrop : chunk.dropWhile (· ≠ lf) with
    | nil =>
      have hall : lf ∉ buf ++ chunk := fun hmem =>
        (mem_append.mp hmem).elim hbuf (lf_not_mem_of_dropWhile hdrop)
      rw [← append_assoc]
      by_cases hlong : max < (buf ++ chunk).length
      · simp only [if_pos hlong]
        exact long_frame hall hlong chunks.flatten
      · simp only [if_neg hlong]
        exact ih hall
    | cons b rest =>
      have hchunk := chunk_eq_of_dropWhile hdrop
      have hraw : lf ∉ buf ++ chunk.takeWhile (· ≠ lf) := fun hmem =>
        (mem_append.mp hmem).elim hbuf (lf_not_mem_takeWhile chunk)
      have hbytes : buf ++ (chunk ++ chunks.flatten) =
          (buf ++ chunk.takeWhile (· ≠ lf)) ++ lf :: (rest ++ chunks.flatten) := by
        conv_lhs => rw [hchunk]
        simp only [append_assoc, cons_append]
      simp only [finishLine]
      by_cases hlong : max < (buf ++ chunk.takeWhile (· ≠ lf)).length
      · rw [if_pos hlong, hbytes]
        exact long_frame hraw hlong _
      · rw [if_neg hlong, hbytes]
        exact Or.inl ⟨_, Nat.le_of_not_lt hlong, hraw, by rw [flatten_rest], rfl⟩

theorem PollSpec.frames_line {max : Nat} {closed : Bool} {bytes line : List UInt8}
    {rest : List (List UInt8)} (h : PollSpec max closed bytes (.line line rest)) :
    ∃ raw, line = popCr raw ∧ ∀ future : List UInt8, (closed = true → future = []) →
      frames lf (bytes ++ future) = raw :: frames lf (rest.flatten ++ future) := by
  rcases h with ⟨raw, -, hraw, rfl, rfl⟩ | ⟨hclosed, -, hne, hlf, rfl, rfl⟩
  · refine ⟨raw, rfl, fun future _ => ?_⟩
    rw [append_assoc, cons_append, frames_append_sep hraw]
  · refine ⟨bytes, rfl, fun future hfuture => ?_⟩
    rw [hfuture hclosed, append_nil, frames_of_not_mem hlf hne]
    rfl

theorem pollLine_pending {max : Nat} {closed : Bool} {buf : List UInt8}
    {chunks : List (List UInt8)} (hopen : closed = false) (hlf : lf ∉ chunks.flatten)
    (hlen : (buf ++ chunks.flatten).length ≤ max) :
    pollLine max closed buf chunks = .pending (buf ++ chunks.flatten) := by
  subst hopen
  induction chunks generalizing buf with
  | nil => simp [pollLine]
  | cons chunk chunks ih =>
    rw [flatten_cons] at hlf hlen ⊢
    rw [← append_assoc] at hlen ⊢
    have hdrop : chunk.dropWhile (· ≠ lf) = [] := by
      refine dropWhile_eq_nil_iff.mpr fun b hb => ?_
      simpa using fun (he : b = lf) => hlf (mem_append_left _ (he ▸ hb))
    have hshort : ¬ max < (buf ++ chunk).length := by
      rw [length_append] at hlen
      omega
    simp only [pollLine, hdrop, if_neg hshort]
    exact ih (fun hmem => hlf (mem_append_right _ hmem)) hlen

/-! ## The loop -/

/-- The streams the loop reads. -/
inductive Side where
  | client
  | server
  | stderr
deriving DecidableEq

/-- A stream as the reader sees it. -/
structure Stream where
  /-- Every byte that has arrived. -/
  received : List UInt8
  /-- The chunks that are not read yet. -/
  chunks : List (List UInt8)
  closed : Bool

/-- The state of the loop. -/
structure LoopState where
  stream : Side → Stream
  /-- The local buffers of the three futures. -/
  buf : Side → List UInt8
  childStdin : Bool
  errOpen : Bool
  running : Bool
  map : IdMethodMap

/-- What can happen next. -/
inductive LoopOp where
  | arrive (side : Side) (byte : UInt8) (bytes : List UInt8)
  | close (side : Side)
  | poll (side : Side)

/-- A line that was processed, and what was done with it. -/
structure Processed where
  side : Side
  line : List UInt8
  output : Option ProxyOutput

def ClientAction.kills : ClientAction → Bool
  | .deny _ _ kill => kill
  | _ => false

namespace LoopState

/-- The branch takes part in the `select!`. -/
def enabled (s : LoopState) : Side → Bool
  | .client => s.childStdin
  | .server => true
  | .stderr => s.errOpen

def setStream (s : LoopState) (side : Side) (stream : Stream) : LoopState :=
  { s with stream := update s.stream side stream }

@[simp] theorem stream_setStream_self (s : LoopState) (side : Side) (stream : Stream) :
    (s.setStream side stream).stream side = stream := update_self ..

@[simp] theorem stream_setStream_of_ne (s : LoopState) {side side' : Side} (stream : Stream)
    (h : side ≠ side') : (s.setStream side' stream).stream side = s.stream side :=
  update_of_ne h ..

def setChunks (s : LoopState) (side : Side) (chunks : List (List UInt8)) : LoopState :=
  s.setStream side { s.stream side with chunks := chunks }

def dropFutures (s : LoopState) : LoopState := { s with buf := fun _ => [] }

/-- The body of a branch for a line. -/
def process (crates : GuardCrates) (cfg : ProxyConfig) (engine : Option RuleEngine)
    (s : LoopState) (side : Side) (line : List UInt8) : LoopState × Processed :=
  match side with
  | .client =>
    let r := classifyClientLine crates cfg engine s.map (fromUtf8Lossy line)
    ({ s with map := r.1, running := !r.2.kills }, ⟨.client, line, some (.client r.2)⟩)
  | .server =>
    let r := classifyServerLine crates engine s.map (fromUtf8Lossy line)
    ({ s with map := r.1 }, ⟨.server, line, some (.server r.2)⟩)
  | .stderr => (s, ⟨.stderr, line, none⟩)

def finish (s : LoopState) : Side → LoopState
  | .client => { s.dropFutures with childStdin := false }
  | .server => { s with running := false }
  | .stderr => { s.dropFutures with errOpen := false }

def refuse (s : LoopState) : Side → LoopState
  | .client | .server => { s with running := false }
  | .stderr => { s.dropFutures with errOpen := false }

variable (crates : GuardCrates) (cfg : ProxyConfig) (engine : Option RuleEngine)

/-- A branch is polled. -/
def poll (s : LoopState) (side : Side) : LoopState × Option Processed :=
  if s.running && s.enabled side then
    match pollLine maxLineBytes (s.stream side).closed (s.buf side) (s.stream side).chunks with
    | .pending buf =>
      ({ s.setChunks side [] with buf := update s.buf side buf }, none)
    | .line line rest =>
      let r := process crates cfg engine (s.setChunks side rest).dropFutures side line
      (r.1, some r.2)
    | .eof => (s.finish side, none)
    | .tooLong rest => ((s.setChunks side rest).refuse side, none)
  else (s, none)

def step (s : LoopState) : LoopOp → LoopState × Option Processed
  | .arrive side byte bytes =>
    let st := s.stream side
    if st.closed then (s, none)
    else
      (s.setStream side ⟨st.received ++ byte :: bytes, st.chunks ++ [byte :: bytes], false⟩,
        none)
  | .close side => (s.setStream side { s.stream side with closed := true }, none)
  | .poll side => s.poll crates cfg engine side

end LoopState

def processedLines (side : Side) (tr : List (Option Processed)) : List (List UInt8) :=
  tr.filterMap fun
    | some p => if p.side = side then some p.line else none
    | none => none

/-! ## A step at a time -/

section Steps

variable {crates : GuardCrates} {cfg : ProxyConfig} {engine : Option RuleEngine} {s : LoopState}
  {side : Side} {tr : List (Option Processed)}

@[simp] theorem processedLines_concat_none :
    processedLines side (tr ++ [none]) = processedLines side tr := by
  simp [processedLines]

theorem processedLines_concat_some (p : Processed) :
    processedLines side (tr ++ [some p]) =
      processedLines side tr ++ if p.side = side then [p.line] else [] := by
  simp only [processedLines, filterMap_append, filterMap_cons, filterMap_nil]
  split <;> simp_all

namespace LoopState

variable (line : List UInt8)

@[simp] theorem stream_process : (s.process crates cfg engine side line).1.stream = s.stream := by
  cases side <;> simp only [process]

@[simp] theorem buf_process : (s.process crates cfg engine side line).1.buf = s.buf := by
  cases side <;> simp only [process]

@[simp] theorem side_process : (s.process crates cfg engine side line).2.side = side := by
  cases side <;> simp only [process]

@[simp] theorem line_process : (s.process crates cfg engine side line).2.line = line := by
  cases side <;> simp only [process]

@[simp] theorem stream_finish (side' : Side) : (s.finish side').stream = s.stream := by
  cases side' <;> rfl

@[simp] theorem stream_refuse (side' : Side) : (s.refuse side').stream = s.stream := by
  cases side' <;> rfl

variable (s side) in
theorem buf_finish (side' : Side) : (s.finish side').buf side = s.buf side ∨
    (s.finish side').buf side = [] := by
  cases side' with
  | client | stderr => exact Or.inr rfl
  | server => exact Or.inl rfl

variable (s side) in
theorem buf_refuse (side' : Side) : (s.refuse side').buf side = s.buf side ∨
    (s.refuse side').buf side = [] := by
  cases side' with
  | client | server => exact Or.inl rfl
  | stderr => exact Or.inr rfl

/-- The future of a branch stays pending: its stream has neither a line feed nor its end
to give, and the line is within the cap so far. -/
def Waits (s : LoopState) (side : Side) : Prop :=
  (s.stream side).closed = false ∧ lf ∉ (s.stream side).chunks.flatten ∧
    (s.buf side ++ (s.stream side).chunks.flatten).length ≤ maxLineBytes

instance (s : LoopState) (side : Side) : Decidable (s.Waits side) :=
  inferInstanceAs (Decidable (_ ∧ _))

/-- No other branch completes while a line of this side is half read. -/
def KeepsWhole (s : LoopState) (side : Side) : LoopOp → Prop
  | .poll side' => side' ≠ side → s.running && s.enabled side' → ¬ s.Waits side' → s.buf side = []
  | _ => True

instance : ∀ (s : LoopState) (side : Side) (op : LoopOp), Decidable (s.KeepsWhole side op)
  | _, _, .poll _ => inferInstanceAs (Decidable (_ → _))
  | _, _, .arrive .. => inferInstanceAs (Decidable True)
  | _, _, .close _ => inferInstanceAs (Decidable True)

/-- The bytes of a side that no line was made of. -/
def unread (s : LoopState) (side : Side) : List UInt8 :=
  s.buf side ++ (s.stream side).chunks.flatten

variable (crates cfg engine tr) in
/-- A poll of another branch leaves this side alone. -/
theorem poll_other {side' : Side} (hne : side' ≠ side) (hkeep : s.KeepsWhole side (.poll side')) :
    (s.poll crates cfg engine side').1.stream side = s.stream side ∧
    (s.poll crates cfg engine side').1.buf side = s.buf side ∧
    processedLines side (tr ++ [(s.poll crates cfg engine side').2]) = processedLines side tr := by
  have hstream : ∀ chunks, (s.setChunks side' chunks).stream side = s.stream side := fun chunks =>
    s.stream_setStream_of_ne _ hne.symm
  unfold poll
  split
  next hrun =>
    have hpending : ∀ buf, ({ s.setChunks side' [] with buf := update s.buf side' buf }).buf side =
        s.buf side := fun _ => update_of_ne hne.symm ..
    by_cases hwait : s.Waits side'
    · rw [pollLine_pending hwait.1 hwait.2.1 hwait.2.2]
      exact ⟨hstream _, hpending _, processedLines_concat_none⟩
    · have hbuf := hkeep hne hrun hwait
      split
      next => exact ⟨hstream _, hpending _, processedLines_concat_none⟩
      next =>
        simp only [stream_process, buf_process, processedLines_concat_some, side_process,
          if_neg hne, append_nil]
        exact ⟨hstream _, hbuf.symm, trivial⟩
      next =>
        refine ⟨by rw [stream_finish], ?_, processedLines_concat_none⟩
        rw [hbuf]
        exact (buf_finish s side side').elim (·.trans hbuf) id
      next rest _ =>
        refine ⟨by rw [stream_refuse, hstream], ?_, processedLines_concat_none⟩
        rw [hbuf]
        exact (buf_refuse (s.setChunks side' rest) side side').elim (·.trans hbuf) id
  next => exact ⟨rfl, rfl, processedLines_concat_none⟩

/-! ### The end of the loop -/

/-- What polling the branch gives. -/
def next (s : LoopState) (side : Side) : LinePoll :=
  pollLine maxLineBytes (s.stream side).closed (s.buf side) (s.stream side).chunks

variable (crates cfg engine) in
/-- Polling the branch ends the loop: the denial of a client's line kills the server, the server
has ended, or a line of either is over the cap. -/
def Ends (s : LoopState) : Side → Bool
  | .client =>
    match s.next .client with
    | .line line _ => (classifyClientLine crates cfg engine s.map (fromUtf8Lossy line)).2.kills
    | .tooLong _ => true
    | _ => false
  | .server =>
    match s.next .server with
    | .eof => true
    | .tooLong _ => true
    | _ => false
  | .stderr => false

variable (crates cfg engine) in
/-- The loop does not end before the stream of the side has ended and was read. -/
def ReadsOut (s : LoopState) (side : Side) : LoopOp → Prop
  | .poll side' => s.running && s.enabled side' → s.Ends crates cfg engine side' →
      (s.stream side).closed = true ∧
        if side' = side then (s.next side).rest.flatten = [] else s.unread side = []
  | _ => True

instance : ∀ (s : LoopState) (side : Side) (op : LoopOp),
    Decidable (s.ReadsOut crates cfg engine side op)
  | _, _, .poll _ => inferInstanceAs (Decidable (_ → _))
  | _, _, .arrive .. => inferInstanceAs (Decidable True)
  | _, _, .close _ => inferInstanceAs (Decidable True)

/-- The branch has nothing to give, or does not take part any more. -/
def Idle (s : LoopState) (side : Side) : Prop := s.running && s.enabled side → s.Waits side

instance (s : LoopState) (side : Side) : Decidable (s.Idle side) :=
  inferInstanceAs (Decidable (_ → _))

/-- A branch that does not take part has read its stream to the end. -/
def Done (s : LoopState) (side : Side) : Prop :=
  (s.running && s.enabled side) = false →
    (s.stream side).closed = true ∧ s.unread side = []

theorem ends_of_not_running {side' : Side} (hrun : (s.running && s.enabled side') = true)
    (hend : (s.poll crates cfg engine side').1.running = false) :
    s.Ends crates cfg engine side' = true := by
  have hrunning : s.running = true := (Bool.and_eq_true_iff.mp hrun).1
  rw [poll, if_pos hrun] at hend
  cases side' with
  | client =>
    rw [Ends, next]
    split at hend <;> simp_all [setChunks, setStream, finish, dropFutures, process]
  | server =>
    rw [Ends, next]
    split at hend <;> simp_all [setChunks, setStream, process, dropFutures]
  | stderr =>
    split at hend <;> simp_all [setChunks, setStream, finish, refuse, dropFutures, process]

theorem enabled_poll_of_ne {side' : Side} (hne : side' ≠ side) :
    (s.poll crates cfg engine side').1.enabled side = s.enabled side := by
  unfold poll
  split
  · split <;> cases side <;> cases side' <;>
      first
      | exact absurd rfl hne
      | rfl
  · rfl

end LoopState

open LoopState (unread dropFutures setChunks setStream stream_setStream_self side_process
  line_process stream_process stream_finish buf_finish poll_other)

/-- The lines processed on a side and those that are unread are the lines of its stream. -/
structure Whole (side : Side) (s : LoopState) (tr : List (Option Processed)) : Prop where
  noLf : lf ∉ s.buf side
  /-- The lines are known before their carriage returns are taken off.  More bytes may
  arrive as long as the stream is open. -/
  lines : ∃ raws : List (List UInt8), processedLines side tr = raws.map popCr ∧
    ∀ future : List UInt8, ((s.stream side).closed = true → future = []) →
      raws ++ frames lf (s.unread side ++ future) = frames lf ((s.stream side).received ++ future)

theorem Whole.of_eq {s' : LoopState} {out : Option Processed} (h : Whole side s tr)
    (hstream : s'.stream side = s.stream side) (hbuf : s'.buf side = s.buf side)
    (hout : processedLines side (tr ++ [out]) = processedLines side tr) :
    Whole side s' (tr ++ [out]) where
  noLf := by rw [hbuf]; exact h.noLf
  lines := by
    obtain ⟨raws, hraws, hlines⟩ := h.lines
    refine ⟨raws, hout.trans hraws, fun future hfuture => ?_⟩
    rw [unread, hbuf, hstream]
    exact hlines future (by rwa [hstream] at hfuture)

/-- No line of a side is over the cap. -/
def WithinCap (s : LoopState) (side : Side) : Prop :=
  ∀ raw ∈ frames lf (s.stream side).received, raw.length ≤ maxLineBytes

instance (s : LoopState) (side : Side) : Decidable (WithinCap s side) :=
  inferInstanceAs (Decidable (∀ raw ∈ _, _))

/-- The cap rules out a poll that is refused: the long line is one of the stream. -/
theorem Whole.next_ne_tooLong (h : Whole side s tr) (hcap : WithinCap s side)
    (rest : List (List UInt8)) : s.next side ≠ .tooLong rest := by
  intro hpoll
  have hspec := pollLine_spec maxLineBytes (s.stream side).closed h.noLf (s.stream side).chunks
  rw [← LoopState.next, hpoll] at hspec
  obtain ⟨raw, raws', hraw, hlong⟩ := hspec
  obtain ⟨raws, -, hlines⟩ := h.lines
  have hall := hlines [] (fun _ => rfl)
  rw [append_nil, append_nil] at hall
  have hmem : raw ∈ frames lf (s.stream side).received := by
    rw [← hall]
    exact mem_append_right _ (hraw ▸ mem_cons_self ..)
  exact absurd (hcap raw hmem) (Nat.not_le.mpr hlong)

theorem Whole.poll_self (h : Whole side s tr) (hcap : WithinCap s side) :
    Whole side (s.poll crates cfg engine side).1 (tr ++ [(s.poll crates cfg engine side).2]) := by
  unfold LoopState.poll
  split
  next hrun =>
    obtain ⟨raws, hraws, hlines⟩ := h.lines
    have hspec := pollLine_spec maxLineBytes (s.stream side).closed h.noLf (s.stream side).chunks
    cases hpoll : pollLine maxLineBytes (s.stream side).closed (s.buf side)
        (s.stream side).chunks with
    | pending buf =>
      rw [hpoll] at hspec
      obtain ⟨hopen, rfl, hlf⟩ := hspec
      refine ⟨?_, raws, by rw [processedLines_concat_none]; exact hraws, fun future _ => ?_⟩
      · simpa using hlf
      · simpa [unread, setChunks, setStream] using hlines future
          (fun hclosed => by rw [hopen] at hclosed; cases hclosed)
    | line line rest =>
      rw [hpoll] at hspec
      obtain ⟨raw, rfl, hframes⟩ := hspec.frames_line
      refine ⟨by simp [dropFutures], raws ++ [raw], ?_, fun future hfuture => ?_⟩
      · rw [processedLines_concat_some, side_process, if_pos rfl,
          line_process, hraws, map_append, map_singleton]
      · rw [stream_process] at hfuture
        simp only [dropFutures, setChunks,
          stream_setStream_self] at hfuture
        have hall := hlines future hfuture
        rw [unread, hframes future hfuture] at hall
        simpa [unread, dropFutures, setChunks] using hall
    | eof =>
      rw [hpoll] at hspec
      have hempty : s.buf side = [] := (append_eq_nil_iff.mp hspec.2).1
      refine h.of_eq (by rw [stream_finish]) ?_ processedLines_concat_none
      rcases buf_finish s side side with hbuf | hbuf
      · exact hbuf
      · exact hbuf.trans hempty.symm
    | tooLong rest => exact absurd hpoll (h.next_ne_tooLong hcap rest)
  next => exact h.of_eq rfl rfl processedLines_concat_none

theorem Whole.arrive (h : Whole side s tr) (byte : UInt8) (bytes : List UInt8) :
    Whole side (s.step crates cfg engine (.arrive side byte bytes)).1
      (tr ++ [(s.step crates cfg engine (.arrive side byte bytes)).2]) := by
  rw [LoopState.step]
  split
  next => exact h.of_eq rfl rfl processedLines_concat_none
  next hopen =>
    obtain ⟨raws, hraws, hlines⟩ := h.lines
    refine ⟨h.noLf, raws, by rw [processedLines_concat_none]; exact hraws, fun future _ => ?_⟩
    have hall := hlines (byte :: bytes ++ future) fun hclosed => absurd hclosed hopen
    simpa [unread, setStream] using hall

theorem Whole.close (h : Whole side s tr) :
    Whole side (s.step crates cfg engine (.close side)).1 (tr ++ [none]) := by
  obtain ⟨raws, hraws, hlines⟩ := h.lines
  refine ⟨h.noLf, raws, by rw [processedLines_concat_none]; exact hraws, fun future hfuture => ?_⟩
  have hempty : future = [] := hfuture (by rw [LoopState.step, stream_setStream_self])
  have hall := hlines [] fun _ => rfl
  subst hempty
  simpa [unread, LoopState.step, setStream] using hall

theorem Whole.step (h : Whole side s tr) {op : LoopOp} (hkeep : s.KeepsWhole side op)
    (hcap : WithinCap s side) :
    Whole side (s.step crates cfg engine op).1 (tr ++ [(s.step crates cfg engine op).2]) := by
  cases op with
  | poll side' =>
    by_cases hne : side' = side
    · subst hne
      exact h.poll_self hcap
    · obtain ⟨hstream, hbuf, hout⟩ := poll_other crates cfg engine tr hne hkeep
      exact h.of_eq hstream hbuf hout
  | close side' =>
    by_cases hne : side = side'
    · subst hne
      exact h.close
    · exact h.of_eq (s.stream_setStream_of_ne _ hne) rfl processedLines_concat_none
  | arrive side' byte bytes =>
    by_cases hne : side = side'
    · subst hne
      exact h.arrive byte bytes
    · rw [LoopState.step]
      split
      next => exact h.of_eq rfl rfl processedLines_concat_none
      next => exact h.of_eq (s.stream_setStream_of_ne _ hne) rfl processedLines_concat_none

/-- A branch that is polled to its end has read its stream. -/
theorem LoopState.Done.poll_self (hwhole : Whole side s tr) (hcap : WithinCap s side)
    (hrun : (s.running && s.enabled side) = true)
    (hout : s.ReadsOut crates cfg engine side (.poll side)) :
    (s.poll crates cfg engine side).1.Done side := by
  have hspec := pollLine_spec maxLineBytes (s.stream side).closed hwhole.noLf (s.stream side).chunks
  intro hoff
  cases hpoll : s.next side with
  | pending buf =>
    rw [LoopState.poll, if_pos hrun, ← LoopState.next, hpoll] at hoff
    cases side <;> exact absurd (hrun.symm.trans hoff) Bool.noConfusion
  | line line rest =>
    have hread := hout hrun (ends_of_not_running hrun ?_)
    · rw [if_pos rfl, hpoll] at hread
      rw [unread, LoopState.poll, if_pos hrun, ← LoopState.next, hpoll]
      simpa [dropFutures, setChunks, LinePoll.rest] using hread
    · have hon : (s.poll crates cfg engine side).1.enabled side = true := by
        rw [LoopState.poll, if_pos hrun, ← LoopState.next, hpoll]
        cases side <;> exact (Bool.and_eq_true_iff.mp hrun).2
      rwa [hon, Bool.and_true] at hoff
  | eof =>
    rw [← LoopState.next, hpoll] at hspec
    obtain ⟨hclosed, hempty⟩ := hspec
    rw [unread, LoopState.poll, if_pos hrun, ← LoopState.next, hpoll]
    simp only [stream_finish]
    refine ⟨hclosed, ?_⟩
    rcases buf_finish s side side with hbuf | hbuf
    · rw [hbuf]
      exact hempty
    · rw [hbuf]
      exact (append_eq_nil_iff.mp hempty).2
  | tooLong rest => exact absurd hpoll (hwhole.next_ne_tooLong hcap rest)

theorem LoopState.Done.step (hdone : s.Done side) (hwhole : Whole side s tr)
    (hcap : WithinCap s side) {op : LoopOp} (hkeep : s.KeepsWhole side op)
    (hout : s.ReadsOut crates cfg engine side op) :
    (s.step crates cfg engine op).1.Done side := by
  cases op with
  | poll side' =>
    by_cases hrun : (s.running && s.enabled side') = true
    · by_cases hne : side' = side
      · subst hne
        exact .poll_self hwhole hcap hrun hout
      · obtain ⟨hstream, hbuf, -⟩ := poll_other crates cfg engine tr hne hkeep
        rw [LoopState.step]
        intro hoff
        rw [unread, hstream, hbuf]
        -- the loop has ended, or the branch was out before
        cases hside : s.enabled side with
        | false => exact hdone (by rw [hside, Bool.and_false])
        | true =>
          have hend : (s.poll crates cfg engine side').1.running = false := by
            rwa [enabled_poll_of_ne hne, hside, Bool.and_true] at hoff
          have hread := hout hrun (ends_of_not_running hrun hend)
          rwa [if_neg hne] at hread
    · rw [LoopState.step, LoopState.poll, if_neg hrun]
      exact hdone
  | close side' =>
    intro hoff
    obtain ⟨hclosed, hunread⟩ := hdone hoff
    by_cases hne : side = side'
    · subst hne
      refine ⟨by rw [LoopState.step, stream_setStream_self], ?_⟩
      simpa [unread, LoopState.step, setStream] using hunread
    · rw [unread, LoopState.step, stream_setStream_of_ne _ _ hne]
      exact ⟨hclosed, hunread⟩
  | arrive side' byte bytes =>
    rw [LoopState.step]
    split
    next => exact hdone
    next hopen =>
      intro hoff
      obtain ⟨hclosed, hunread⟩ := hdone hoff
      by_cases hne : side = side'
      · subst hne
        exact absurd hclosed hopen
      · rw [unread, stream_setStream_of_ne _ _ hne]
        exact ⟨hclosed, hunread⟩

end Steps

/-! ## Runs -/

variable (crates : GuardCrates) (cfg : ProxyConfig) (engine : Option RuleEngine)

end Innerwarden.Guard
