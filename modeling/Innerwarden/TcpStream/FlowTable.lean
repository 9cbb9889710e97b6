import Innerwarden.Lib.KeyedTable
import Innerwarden.TcpStream.Packet
import Innerwarden.TcpStream.Reassembly
import Innerwarden.Time

/-!
# The flow table

`FlowTable` of `sensor/src/collectors/tcp_stream.rs` holds a flow for each connection, under the
key of the side that is taken for the client, with one buffer for each direction.

A packet first makes room: when its key is not in the table and the table is full, the flow that
was seen longest ago is evicted.  Only then it is matched with a flow, under its own key or the
reversed one.  So a packet from the server may evict a flow although it needs no room.
`bounded_and_kept` bounds the table and says when a packet of a known flow evicts another.

The order of the hash map decides between flows last seen at one instant, so every packet comes
with one.
-/

namespace Innerwarden.TcpStream

open List Function KeyedTable

/-! ## Flows -/

/-- The state of a connection. -/
inductive FlowState where
  | synSent
  | established
  | closing
  | closed
deriving DecidableEq

/-- The protocol, as far as it is recognised. -/
inductive AppProtocol where
  | http
  | ssh
  | tls
  | smtp
  | smb
  | unknown
deriving DecidableEq

/-- A connection and what it has carried. -/
structure Flow where
  key : FlowKey
  state : FlowState
  client : StreamBuffer
  server : StreamBuffer
  started : DateTime
  lastSeen : DateTime
  appProto : Option AppProtocol

/-- What is reported of a connection. -/
structure FlowEvent where
  key : FlowKey
  appProto : AppProtocol
  clientData : List UInt8
  serverData : List UInt8
  started : DateTime
  durationMs : Int

def ascii (s : String) : List UInt8 := s.toList.map fun c => UInt8.ofNat c.toNat

def httpStarts : List (List UInt8) :=
  ["GET ", "POST ", "PUT ", "DELETE ", "HEAD ", "OPTIONS ", "PATCH ", "CONNECT ", "HTTP/1.",
    "HTTP/2"].map ascii

def smtpStarts : List (List UInt8) := ["220 ", "EHLO", "HELO"].map ascii

def probeProtocol (data : List UInt8) : AppProtocol :=
  if data.length < 4 then .unknown
  else if httpStarts.any (·.isPrefixOf data) then .http
  else if (ascii "SSH-").isPrefixOf data then .ssh
  else if byteAt data 0 = 0x16 ∧ byteAt data 1 = 0x03 ∧ byteAt data 2 ≤ 0x04 then .tls
  else if smtpStarts.any (·.isPrefixOf data) then .smtp
  else if 8 ≤ data.length ∧ (data.drop 4).take 4 = 0xFF :: ascii "SMB" then .smb
  else .unknown

/-! ## Packets -/

/-- An order in which a hash map yields its entries. -/
structure IterationOrder (α : Type) where
  order : List α → List α
  perm : ∀ l, (order l).Perm l

def IterationOrder.inserted (α : Type) : IterationOrder α := ⟨id, fun l => List.Perm.refl l⟩

/-- A call of `process_packet`. -/
structure Packet where
  key : FlowKey
  tcpFlags : UInt8
  seq : UInt32
  payload : List UInt8
  now : DateTime
  order : IterationOrder (FlowKey × Flow)

namespace Packet

def isSyn (p : Packet) : Bool := p.tcpFlags &&& 0x02 ≠ 0

def isFin (p : Packet) : Bool := p.tcpFlags &&& 0x01 ≠ 0

def isRst (p : Packet) : Bool := p.tcpFlags &&& 0x04 ≠ 0

def isAck (p : Packet) : Bool := p.tcpFlags &&& 0x10 ≠ 0

def opens (p : Packet) : Bool := p.isSyn && !p.isAck

def closes (p : Packet) : Bool := p.isFin || p.isRst

end Packet

/-! ## The table -/

/-- The connections that are followed. -/
structure FlowTable where
  flows : List (FlowKey × Flow)
  maxFlows : Nat
  maxBytesPerFlow : Nat

/-- The entry that was seen longest ago, the first of several (`min_by_key`). -/
def oldest : List (FlowKey × Flow) → Option (FlowKey × Flow)
  | [] => none
  | x :: xs =>
    match oldest xs with
    | none => some x
    | some y => if x.2.lastSeen ≤ y.2.lastSeen then some x else some y

/-- `num_milliseconds` of the time between two instants. -/
def millisecondsBetween (t u : DateTime) : Int := (u - t).tdiv 1000000

/-- What is reported of a flow. -/
def Flow.event (flow : Flow) (now : DateTime) : FlowEvent where
  key := flow.key
  appProto := flow.appProto.getD .unknown
  clientData := flow.client.data
  serverData := flow.server.data
  started := flow.started
  durationMs := millisecondsBetween flow.started now

/-- The payload of a packet in one direction of a flow. -/
def Flow.receive (flow : Flow) (isClient : Bool) (p : Packet) : Flow :=
  let flow := { flow with lastSeen := p.now }
  if p.payload.isEmpty then flow
  else
    let flow := { flow with appProto := some (flow.appProto.getD (probeProtocol p.payload)) }
    if isClient then { flow with client := (flow.client.addSegment p.seq p.payload).1 }
    else { flow with server := (flow.server.addSegment p.seq p.payload).1 }

namespace FlowTable

def new (maxFlows maxBytesPerFlow : Nat) : FlowTable := ⟨[], maxFlows, maxBytesPerFlow⟩

def get (t : FlowTable) : FlowKey → Option Flow := KeyedTable.valueAt Prod.fst Prod.snd t.flows

def containsKey (t : FlowTable) (k : FlowKey) : Bool := t.flows.any fun e => e.1 = k

def insert (t : FlowTable) (k : FlowKey) (flow : Flow) : FlowTable :=
  { t with flows := KeyedTable.upsert Prod.fst (fun e => (e.1, flow)) (k, flow) t.flows }

/-- The flow under a key changed, if there is one (`get_mut`). -/
def modify (t : FlowTable) (k : FlowKey) (f : Flow → Flow) : FlowTable :=
  { t with flows := KeyedTable.modify Prod.fst k (fun e => (e.1, f e.2)) t.flows }

def remove (t : FlowTable) (k : FlowKey) : FlowTable :=
  { t with flows := KeyedTable.remove Prod.fst k t.flows }

def evictOldest (t : FlowTable) (order : IterationOrder (FlowKey × Flow)) : FlowTable :=
  match oldest (order.order t.flows) with
  | some e => t.remove e.1
  | none => t

def openedFlow (t : FlowTable) (p : Packet) : Flow where
  key := p.key
  state := .synSent
  client := .new (p.seq + 1) t.maxBytesPerFlow
  server := .new 0 t.maxBytesPerFlow
  started := p.now
  lastSeen := p.now
  appProto := none

/-- The flow of a packet in the middle of a stream. -/
def midStreamFlow (t : FlowTable) (p : Packet) : Flow where
  key := p.key
  state := .established
  client := ((StreamBuffer.new p.seq t.maxBytesPerFlow).addSegment p.seq p.payload).1
  server := .new 0 t.maxBytesPerFlow
  started := p.now
  lastSeen := p.now
  appProto := some (probeProtocol p.payload)

def answerSyn (t : FlowTable) (p : Packet) : FlowTable :=
  t.modify p.key.reverse fun flow =>
    { flow with
      server := .new (p.seq + 1) t.maxBytesPerFlow
      state := .established
      lastSeen := p.now }

def emitAndRemove (t : FlowTable) (k : FlowKey) : FlowTable × Option FlowEvent :=
  match t.get k with
  | none => (t, none)
  | some flow =>
    (t.remove k,
      if flow.client.data.isEmpty && flow.server.data.isEmpty then none
      else some (flow.event flow.lastSeen))

/-- What is reported of a flow that goes on, once there is enough data. -/
def report (flow : Flow) (now : DateTime) : Option FlowEvent :=
  if 4096 ≤ flow.client.data.length ∨ 4096 ≤ flow.server.data.length then some (flow.event now)
  else none

/-- A packet of the flow under a key. -/
def advance (t : FlowTable) (k : FlowKey) (isClient : Bool) (p : Packet) :
    FlowTable × Option FlowEvent :=
  let t := t.modify k fun flow => flow.receive isClient p
  if p.closes then
    (t.modify k fun flow => { flow with state := .closed }).emitAndRemove k
  else (t, (t.get k).bind fun flow => report flow p.now)

def makeRoom (t : FlowTable) (p : Packet) : FlowTable :=
  if !t.containsKey p.key && t.maxFlows ≤ t.flows.length then t.evictOldest p.order else t

/-- `process_packet` once there is room. -/
def dispatch (t : FlowTable) (p : Packet) : FlowTable × Option FlowEvent :=
  if p.opens then (t.insert p.key (t.openedFlow p), none)
  else if p.isSyn && p.isAck then (t.answerSyn p, none)
  else if t.containsKey p.key then t.advance p.key true p
  else if t.containsKey p.key.reverse then t.advance p.key.reverse false p
  else if p.payload.isEmpty then (t, none)
  else (t.insert p.key (t.midStreamFlow p), none)

def processPacket (t : FlowTable) (p : Packet) : FlowTable × Option FlowEvent :=
  (t.makeRoom p).dispatch p

def machine (maxFlows maxBytesPerFlow : Nat) :
    StateMachine FlowTable Packet (Option FlowEvent) where
  init := new maxFlows maxBytesPerFlow
  step := processPacket

/-! ## Entries -/

section Entries

variable (t : FlowTable) (k k' : FlowKey) (p : Packet)

theorem containsKey_eq : t.containsKey k = (t.get k).isSome :=
  isSome_valueAt.symm

@[simp] theorem get_insert (flow : Flow) :
    (t.insert k flow).get = update t.get k (some flow) := by
  refine valueAt_upsert ?_ ?_ t.flows
  · exact fun _ h => h
  · exact fun _ _ => rfl

@[simp] theorem get_modify (f : Flow → Flow) :
    (t.modify k f).get = update t.get k ((t.get k).map f) := by
  refine valueAt_modify ?_ ?_ t.flows
  · exact fun _ h => h
  · exact fun _ _ => rfl

@[simp] theorem get_remove : (t.remove k).get = update t.get k none :=
  valueAt_remove k t.flows

theorem length_insert (flow : Flow) :
    (t.insert k flow).flows.length =
      if t.containsKey k then t.flows.length else t.flows.length + 1 :=
  length_upsert t.flows

@[simp] theorem length_modify (f : Flow → Flow) :
    (t.modify k f).flows.length = t.flows.length := length_map _

theorem length_remove_le : (t.remove k).flows.length ≤ t.flows.length := length_filter_le _ _

theorem emitAndRemove_fst : (t.emitAndRemove k).1.get = update t.get k none := by
  rw [emitAndRemove]
  split
  case h_1 h => rw [← h, update_eq_self]
  case h_2 => exact t.get_remove k

theorem length_emitAndRemove : (t.emitAndRemove k).1.flows.length ≤ t.flows.length := by
  rw [emitAndRemove]
  split
  · exact Nat.le_refl _
  · exact t.length_remove_le k

theorem advance_get_of_ne (isClient : Bool) (h : k' ≠ k) :
    (t.advance k isClient p).1.get k' = t.get k' := by
  rw [advance]
  split
  · rw [emitAndRemove_fst, get_modify, get_modify]
    simp [h]
  · rw [get_modify]
    simp [h]

theorem length_advance (isClient : Bool) :
    (t.advance k isClient p).1.flows.length ≤ t.flows.length := by
  rw [advance]
  split
  · refine (length_emitAndRemove _ k).trans ?_
    rw [length_modify, length_modify]
  · exact Nat.le_of_eq (t.length_modify k _)

end Entries

section Step

variable {t : FlowTable} {p : Packet} {k : FlowKey}

/-- A packet touches the two keys of its connection only. -/
theorem dispatch_get_of_ne (hk : k ≠ p.key) (hrev : k ≠ p.key.reverse) :
    (t.dispatch p).1.get k = t.get k := by
  simp only [dispatch]
  repeat' split
  · rw [get_insert, update_of_ne hk]
  · rw [answerSyn, get_modify, update_of_ne hrev]
  · exact t.advance_get_of_ne p.key k p true hk
  · exact t.advance_get_of_ne p.key.reverse k p false hrev
  · rfl
  · rw [get_insert, update_of_ne hk]

theorem dispatch_reverse (hopens : p.opens = false) (hkey : t.containsKey p.key = true)
    (hne : p.key.reverse ≠ p.key) (hrev : t.containsKey p.key.reverse = true) :
    (t.dispatch p).1.containsKey p.key.reverse = true := by
  rw [containsKey_eq] at hrev ⊢
  simp only [dispatch, hopens, Bool.false_eq_true, if_false, hkey, if_true]
  split
  · rw [answerSyn, get_modify, update_self, Option.isSome_map]
    exact hrev
  · rwa [t.advance_get_of_ne p.key p.key.reverse p true hne]

theorem length_dispatch :
    (t.dispatch p).1.flows.length ≤
      if t.containsKey p.key then t.flows.length else t.flows.length + 1 := by
  obtain ⟨n, hn⟩ : ∃ n, n = if t.containsKey p.key then t.flows.length else t.flows.length + 1 :=
    ⟨_, rfl⟩
  have hsame : t.flows.length ≤ n := by
    rw [hn]
    split <;> omega
  have hinsert : ∀ flow, (t.insert p.key flow).flows.length ≤ n := fun flow => by
    rw [hn, length_insert]
  rw [← hn, dispatch]
  repeat' split
  · exact hinsert _
  · exact (Nat.le_of_eq (t.length_modify _ _)).trans hsame
  · exact (t.length_advance _ p _).trans hsame
  · exact (t.length_advance _ p _).trans hsame
  · exact hsame
  · exact hinsert _

/-! ## Room -/

variable {e : FlowKey × Flow} {order : IterationOrder (FlowKey × Flow)}

theorem mem_of_oldest {l : List (FlowKey × Flow)} (h : oldest l = some e) : e ∈ l := by
  induction l generalizing e with
  | nil => cases h
  | cons x xs ih =>
    simp only [oldest] at h
    split at h
    case h_1 => exact Option.some.inj h ▸ mem_cons_self ..
    case h_2 y hy =>
      split at h
      · exact Option.some.inj h ▸ mem_cons_self ..
      · exact Option.some.inj h ▸ mem_cons_of_mem x (ih hy)

theorem exists_oldest {l : List (FlowKey × Flow)} (h : l ≠ []) : ∃ e, oldest l = some e := by
  cases l with
  | nil => exact absurd rfl h
  | cons x xs =>
    simp only [oldest]
    split
    · exact ⟨_, rfl⟩
    · split <;> exact ⟨_, rfl⟩

theorem containsKey_of_mem (h : e ∈ t.flows) : t.containsKey e.1 = true :=
  any_eq_true.mpr ⟨e, h, by simp⟩

theorem oldest_mem (h : oldest (order.order t.flows) = some e) : e ∈ t.flows :=
  (order.perm t.flows).mem_iff.mp (mem_of_oldest h)

theorem evictOldest_get (h : oldest (order.order t.flows) = some e) :
    (t.evictOldest order).get = update t.get e.1 none := by
  rw [evictOldest, h]
  exact t.get_remove e.1

theorem length_evictOldest (h : t.flows ≠ []) :
    (t.evictOldest order).flows.length < t.flows.length := by
  have hne : order.order t.flows ≠ [] := fun hnil =>
    h (nil_perm.mp (hnil ▸ order.perm t.flows))
  obtain ⟨e, he⟩ := exists_oldest hne
  rw [evictOldest, he]
  exact length_remove_lt (containsKey_of_mem (oldest_mem he))

theorem makeRoom_of_containsKey (h : t.containsKey p.key = true) : t.makeRoom p = t := by
  simp [makeRoom, h]

theorem makeRoom_of_room (h : t.flows.length < t.maxFlows) : t.makeRoom p = t := by
  simp [makeRoom, h]

theorem makeRoom_of_full (hkey : t.containsKey p.key = false) (h : t.maxFlows ≤ t.flows.length) :
    t.makeRoom p = t.evictOldest p.order := by
  simp [makeRoom, hkey, h]

theorem length_processPacket (hmax : 1 ≤ t.maxFlows) (h : t.flows.length ≤ t.maxFlows) :
    (t.processPacket p).1.flows.length ≤ t.maxFlows := by
  refine (length_dispatch).trans ?_
  cases hkey : t.containsKey p.key with
  | true =>
    rw [makeRoom_of_containsKey hkey, hkey]
    exact h
  | false =>
    have hroom : (t.makeRoom p).flows.length < t.maxFlows := by
      rcases Nat.lt_or_ge t.flows.length t.maxFlows with hlt | hfull
      · rwa [makeRoom_of_room hlt]
      · rw [makeRoom_of_full hkey hfull]
        have hne : t.flows ≠ [] := ne_nil_of_length_pos (hmax.trans hfull)
        exact (length_evictOldest hne).trans_le h
    split <;> omega

/-! ## Packets of known flows -/

/-- The key of the flow a packet belongs to, when there is one. -/
def own (t : FlowTable) (p : Packet) : FlowKey :=
  if t.containsKey p.key then p.key else p.key.reverse

/-- A packet of a known flow that does not open a connection removes no other flow. -/
def KeepsOthers (t : FlowTable) (p : Packet) : Prop :=
  p.opens = false → (t.containsKey p.key = true ∨ t.containsKey p.key.reverse = true) →
    ∀ k, t.containsKey k = true → k ≠ t.own p → (t.processPacket p).1.containsKey k = true

/-- When only the reversed key of the packet is in the table, there is room, or the flow
under that key is the oldest. -/
def RoomForReverse (t : FlowTable) (p : Packet) : Prop :=
  p.opens = false → t.containsKey p.key = false → t.containsKey p.key.reverse = true →
    t.flows.length < t.maxFlows ∨
      (oldest (p.order.order t.flows)).map Prod.fst = some p.key.reverse

instance (t : FlowTable) (p : Packet) : Decidable (t.RoomForReverse p) :=
  inferInstanceAs (Decidable (_ → _ → _ → _))

theorem keepsOthers_of_containsKey (hkey : t.containsKey p.key = true) : t.KeepsOthers p := by
  intro hopens _ k hk hne
  rw [own, if_pos hkey] at hne
  rw [processPacket, makeRoom_of_containsKey hkey]
  by_cases hrev : k = p.key.reverse
  · rw [hrev] at hk hne ⊢
    exact dispatch_reverse hopens hkey hne hk
  · rwa [containsKey_eq, dispatch_get_of_ne hne hrev, ← containsKey_eq]

theorem containsKey_processPacket {k : FlowKey} (hk : k ≠ p.key) (hrev : k ≠ p.key.reverse) :
    (t.processPacket p).1.containsKey k = (t.makeRoom p).containsKey k := by
  rw [containsKey_eq, containsKey_eq, processPacket, dispatch_get_of_ne hk hrev]

theorem keepsOthers_iff : t.KeepsOthers p ↔ t.RoomForReverse p := by
  cases hkey : t.containsKey p.key with
  | true =>
    refine iff_of_true (keepsOthers_of_containsKey hkey) ?_
    intro _ habsent
    rw [hkey] at habsent
    cases habsent
  | false =>
    have hown : t.own p = p.key.reverse := by rw [own, hkey]; rfl
    have hother : ∀ k, t.containsKey k = true → k ≠ p.key := by
      rintro k hk rfl
      rw [hkey] at hk
      cases hk
    constructor
    · -- A flow that is evicted and is not the packet's own would be lost.
      intro hkeeps hopens _ hrev
      rcases Nat.lt_or_ge t.flows.length t.maxFlows with hlt | hfull
      · exact Or.inl hlt
      · right
        have hne : p.order.order t.flows ≠ [] := fun hnil => by
          have hflows : t.flows = [] := nil_perm.mp (hnil ▸ p.order.perm t.flows)
          rw [containsKey, hflows] at hrev
          cases hrev
        obtain ⟨e, he⟩ := exists_oldest hne
        rw [he, Option.map_some, Option.some.injEq]
        by_contra hlost
        have hmem := containsKey_of_mem (oldest_mem he)
        have hkept := hkeeps hopens (Or.inr hrev) e.1 hmem (by rwa [hown])
        rw [containsKey_processPacket (hother e.1 hmem) hlost, makeRoom_of_full hkey hfull,
          containsKey_eq, evictOldest_get he, update_self] at hkept
        cases hkept
    · intro hroom hopens htracked k hk hne
      have hrev : t.containsKey p.key.reverse = true := by
        rcases htracked with h | h
        · rw [hkey] at h
          cases h
        · exact h
      rw [hown] at hne
      rw [containsKey_processPacket (hother k hk) hne]
      rcases hroom hopens hkey hrev with hlt | hown
      · rwa [makeRoom_of_room hlt]
      · rcases Nat.lt_or_ge t.flows.length t.maxFlows with hlt | hfull
        · rwa [makeRoom_of_room hlt]
        · obtain ⟨e, he, heq⟩ := Option.map_eq_some_iff.mp hown
          rw [makeRoom_of_full hkey hfull, containsKey_eq, evictOldest_get he, heq,
            update_of_ne hne, ← containsKey_eq]
          exact hk

end Step

/-! ## Runs -/

theorem maxFlows_processPacket (t : FlowTable) (p : Packet) :
    (t.processPacket p).1.maxFlows = t.maxFlows := by
  have hroom : (t.makeRoom p).maxFlows = t.maxFlows := by
    rw [makeRoom, evictOldest]
    repeat' split
    all_goals rfl
  rw [processPacket, ← hroom, dispatch, advance, advance, emitAndRemove, emitAndRemove]
  repeat' split
  all_goals rfl

/-- The table never holds more flows than it may.  In a run, no packet of a known flow removes
another flow exactly if each that is known under its reversed key only finds room, or its own
flow the oldest. -/
theorem bounded_and_kept (maxFlows maxBytesPerFlow : Nat) (packets : List Packet)
    (hmax : 1 ≤ maxFlows) :
    let m := machine maxFlows maxBytesPerFlow
    (∀ pre, pre <+: packets → (m.exec m.init pre).flows.length ≤ maxFlows) ∧
      (m.Meets KeepsOthers m.init packets ↔ m.Meets RoomForReverse m.init packets) := by
  intro m
  refine ⟨fun pre _ => ?_, m.meets_congr (fun _ _ => keepsOthers_iff) m.init packets⟩
  have hinv := StateMachine.exec_invariant (M := m)
    (P := fun t => t.maxFlows = maxFlows ∧ t.flows.length ≤ maxFlows) ?_ pre
    (s := m.init) ⟨rfl, Nat.zero_le _⟩
  · exact hinv.2
  · rintro t p ⟨hsize, hlength⟩
    refine ⟨(maxFlows_processPacket t p).trans hsize, ?_⟩
    have hle : t.flows.length ≤ t.maxFlows := by rwa [hsize]
    have := length_processPacket (p := p) (by rwa [hsize]) hle
    rwa [hsize] at this

def sampleKey (srcPort : UInt16) : FlowKey := ⟨0x0a000001, 0x0a000002, srcPort, 80, 6⟩

def samplePacket (key : FlowKey) (tcpFlags : UInt8) (seq : UInt32) (payload : List UInt8)
    (now : DateTime) : Packet :=
  ⟨key, tcpFlags, seq, payload, now, .inserted _⟩

/-- With room for one more flow, the answer to the second SYN removes nothing. -/
theorem bounded_and_kept_of_room :
    let m := machine 3 100
    let packets := [samplePacket (sampleKey 1) 0x02 0 [] 0, samplePacket (sampleKey 2) 0x02 0 [] 1,
      samplePacket (sampleKey 2).reverse 0x12 0 [] 2]
    1 ≤ 3 ∧ m.Meets KeepsOthers m.init packets :=
  ⟨by decide, (bounded_and_kept 3 100 _ (by decide)).2.mpr (by decide)⟩

/-- In a table of two flows, the answer to the second SYN evicts the first flow. -/
theorem answer_evicts_other :
    let m := machine 2 100
    let t := m.exec m.init
      [samplePacket (sampleKey 1) 0x02 0 [] 0, samplePacket (sampleKey 2) 0x02 0 [] 1]
    let answer := samplePacket (sampleKey 2).reverse 0x12 0 [] 2
    answer.opens = false ∧ t.containsKey answer.key.reverse = true ∧
      t.containsKey (sampleKey 1) = true ∧ sampleKey 1 ≠ t.own answer ∧
      (t.processPacket answer).1.containsKey (sampleKey 1) = false := by
  decide

end FlowTable

end Innerwarden.TcpStream
