import Innerwarden.TcpStream.FlowTable

/-!
# The two sides of a connection

The table keeps a flow under the key of the side that opens the connection, its client.  The
first FIN or RST of either side removes the flow, and a packet with data that comes later makes
a new one, under the key of the side that sent it.  When that is the server, the sides are
swapped.  `never_swapped` says that this is the only way.
-/

namespace Innerwarden.TcpStream

open List Function Option

/-! ## Connections -/

/-- The packet belongs to the connection that is opened with the key `K`. -/
def OfConnection (K : FlowKey) (p : Packet) : Prop := p.key = K ∨ p.key = K.reverse

instance (K : FlowKey) (p : Packet) : Decidable (OfConnection K p) :=
  inferInstanceAs (Decidable (_ ∨ _))

/-- A SYN without ACK under the key `K`, and no other among the packets after it. -/
def StartsWithSyn (K : FlowKey) : List Packet → Prop
  | [] => True
  | p :: rest => p.key = K ∧ p.opens = true ∧ ∀ q ∈ rest, q.opens = false

instance (K : FlowKey) : (packets : List Packet) → Decidable (StartsWithSyn K packets)
  | [] => inferInstanceAs (Decidable True)
  | _ :: _ => inferInstanceAs (Decidable (_ ∧ _))

/-- The packets of the connection start with the only SYN without ACK. -/
def OpenedBy (K : FlowKey) (packets : List Packet) : Prop :=
  StartsWithSyn K (packets.filter fun p => OfConnection K p)

instance (K : FlowKey) (packets : List Packet) : Decidable (OpenedBy K packets) :=
  inferInstanceAs (Decidable (StartsWithSyn _ _))

def sentOn (k : FlowKey) (packets : List Packet) : List UInt8 :=
  (packets.filter fun p => p.key = k).flatMap Packet.payload

/-- The event has the key of the connection and of each side what it sent. -/
structure Faithful (K : FlowKey) (packets : List Packet) (ev : FlowEvent) : Prop where
  key : ev.key = K
  client : ev.clientData.Sublist (sentOn K packets)
  server : ev.serverData.Sublist (sentOn K.reverse packets)

/-- The table has room for another flow. -/
def NotFull (t : FlowTable) (_ : Packet) : Prop := t.flows.length < t.maxFlows

instance (t : FlowTable) (p : Packet) : Decidable (NotFull t p) :=
  inferInstanceAs (Decidable (_ < _))

/-- Data from the other side finds the flow of the connection in the table. -/
def FindsFlow (K : FlowKey) (t : FlowTable) (p : Packet) : Prop :=
  p.key = K.reverse → p.key ≠ K → p.isSyn = false → p.payload.isEmpty = false →
    t.containsKey K = true ∨ t.containsKey K.reverse = true

instance (K : FlowKey) (t : FlowTable) (p : Packet) : Decidable (FindsFlow K t p) :=
  inferInstanceAs (Decidable (_ → _ → _ → _ → _))

variable {K : FlowKey} {packets sent : List Packet} {p : Packet} {t : FlowTable} {flow : Flow}

theorem StartsWithSyn.key_eq (h : StartsWithSyn K packets) (hp : p ∈ packets)
    (hopens : p.opens = true) : p.key = K := by
  cases packets with
  | nil => cases hp
  | cons q rest =>
    obtain ⟨hkey, -, hrest⟩ := h
    rcases mem_cons.mp hp with rfl | hp
    · exact hkey
    · rw [hrest p hp] at hopens
      cases hopens

theorem OpenedBy.key_eq (h : OpenedBy K packets) (hp : p ∈ packets) (hof : OfConnection K p)
    (hopens : p.opens = true) : p.key = K :=
  StartsWithSyn.key_eq h (mem_filter.mpr ⟨hp, decide_eq_true hof⟩) hopens

theorem sentOn_concat (k : FlowKey) :
    sentOn k (sent ++ [p]) = sentOn k sent ++ if p.key = k then p.payload else [] := by
  rw [sentOn, filter_append, flatMap_append, ← sentOn]
  by_cases h : p.key = k <;> simp [h]

theorem sentOn_sublist_concat (k : FlowKey) : (sentOn k sent).Sublist (sentOn k (sent ++ [p])) := by
  rw [sentOn_concat]
  exact sublist_append_left ..

/-! ## Flows of a connection -/

/-- The flow has the key of the connection and of each side what it sent. -/
structure FlowOf (K : FlowKey) (sent : List Packet) (flow : Flow) : Prop where
  key : flow.key = K
  client : flow.client.data.Sublist (sentOn K sent)
  server : flow.server.data.Sublist (sentOn K.reverse sent)

theorem FlowOf.later (h : FlowOf K sent flow) (p : Packet) : FlowOf K (sent ++ [p]) flow :=
  ⟨h.key, h.client.trans (sentOn_sublist_concat K), h.server.trans (sentOn_sublist_concat _)⟩

theorem addSegment_sublist {buf : StreamBuffer} {bytes : List UInt8} (h : buf.data.Sublist bytes)
    (seq : UInt32) (payload : List UInt8) :
    (buf.addSegment seq payload).1.data.Sublist (bytes ++ payload) := by
  obtain ⟨n, hdata, -⟩ := StreamBuffer.addSegment_data buf seq payload
  rw [hdata]
  exact h.append (take_sublist n payload)

theorem FlowOf.receive {isClient : Bool} (h : FlowOf K sent flow)
    (hkey : p.key = if isClient then K else K.reverse) :
    FlowOf K (sent ++ [p]) (flow.receive isClient p) := by
  have hlater := h.later p
  rw [Flow.receive]
  split
  · exact ⟨hlater.key, hlater.client, hlater.server⟩
  · cases isClient with
    | true =>
      refine ⟨hlater.key, ?_, hlater.server⟩
      rw [sentOn_concat, if_pos (show p.key = K from hkey)]
      exact addSegment_sublist h.client p.seq p.payload
    | false =>
      refine ⟨hlater.key, hlater.client, ?_⟩
      rw [sentOn_concat, if_pos (show p.key = K.reverse from hkey)]
      exact addSegment_sublist h.server p.seq p.payload

namespace FlowTable

theorem openedFlow_of (hkey : p.key = K) : FlowOf K (sent ++ [p]) (t.openedFlow p) :=
  ⟨hkey, nil_sublist _, nil_sublist _⟩

theorem midStreamFlow_of (hkey : p.key = K) : FlowOf K (sent ++ [p]) (t.midStreamFlow p) := by
  refine ⟨hkey, ?_, nil_sublist _⟩
  rw [sentOn_concat, if_pos hkey]
  exact addSegment_sublist (nil_sublist _) p.seq p.payload

/-- A packet of a flow leaves the flow as it is after the packet, or removes it, and what it
reports is that flow. -/
theorem advance_spec {k : FlowKey} (isClient : Bool) (p : Packet) (h : t.get k = some flow) :
    (∀ flow', (t.advance k isClient p).1.get k = some flow' → flow' = flow.receive isClient p) ∧
      ∀ ev, (t.advance k isClient p).2 = some ev →
        ∃ now state, ev = { flow.receive isClient p with state := state }.event now := by
  rw [advance]
  split
  · refine ⟨?_, ?_⟩
    · intro flow' hflow'
      rw [emitAndRemove_fst, update_self] at hflow'
      cases hflow'
    · intro ev hev
      simp only [emitAndRemove, get_modify, update_self, h, map_some] at hev
      split at hev
      · cases hev
      · exact ⟨_, .closed, (Option.some.inj hev).symm⟩
  · refine ⟨?_, ?_⟩
    · intro flow' hflow'
      rw [get_modify, update_self, h] at hflow'
      exact (Option.some.inj hflow').symm
    · intro ev hev
      simp only [get_modify, update_self, h, map_some, bind_some,
        report] at hev
      split at hev
      · exact ⟨_, (flow.receive isClient p).state, (Option.some.inj hev).symm⟩
      · cases hev

/-! ## One packet -/

/-- The flow of the connection is under the key of the client, and holds of each side what it
sent. -/
structure Sides (K : FlowKey) (sent : List Packet) (t : FlowTable) : Prop where
  reverse : K.reverse ≠ K → t.get K.reverse = none
  flow : ∀ flow, t.get K = some flow → FlowOf K sent flow

theorem sides_new (maxFlows maxBytesPerFlow : Nat) : Sides K [] (new maxFlows maxBytesPerFlow) where
  reverse _ := rfl
  flow _ h := by cases h

/-- What a packet of the connection does: the table it leaves, and the event it reports. -/
def Serves (K : FlowKey) (sent : List Packet) (r : FlowTable × Option FlowEvent) : Prop :=
  Sides K sent r.1 ∧ ∀ ev, r.2 = some ev → Faithful K sent ev

theorem Sides.serves_same (h : Sides K sent t) (p : Packet) : Serves K (sent ++ [p]) (t, none) :=
  ⟨⟨h.reverse, fun flow hflow => (h.flow flow hflow).later p⟩, fun _ hev => by cases hev⟩

theorem Sides.serves_insert (h : Sides K sent t) (hflow : FlowOf K (sent ++ [p]) flow) :
    Serves K (sent ++ [p]) (t.insert K flow, none) := by
  refine ⟨⟨fun hne => ?_, fun flow' hflow' => ?_⟩, fun _ hev => by cases hev⟩
  · rw [get_insert, update_of_ne hne]
    exact h.reverse hne
  · rw [get_insert, update_self] at hflow'
    rwa [← Option.some.inj hflow']

theorem Sides.serves_advance {isClient : Bool} (h : Sides K sent t)
    (hcontains : t.containsKey K = true) (hkey : p.key = if isClient then K else K.reverse) :
    Serves K (sent ++ [p]) (t.advance K isClient p) := by
  rw [containsKey_eq] at hcontains
  obtain ⟨flow, hget⟩ := isSome_iff_exists.mp hcontains
  have hflow := (h.flow flow hget).receive hkey
  obtain ⟨hafter, hreport⟩ := advance_spec isClient p hget
  refine ⟨⟨fun hne => ?_, fun flow' hflow' => ?_⟩, fun ev hev => ?_⟩
  · rw [t.advance_get_of_ne K K.reverse p isClient hne]
    exact h.reverse hne
  · rwa [hafter flow' hflow']
  · obtain ⟨now, state, rfl⟩ := hreport ev hev
    exact ⟨hflow.key, hflow.client, hflow.server⟩

theorem Sides.serves_answerSyn (h : Sides K sent t) (p : Packet) :
    Serves K (sent ++ [p]) (t.answerSyn p, none) := by
  refine ⟨⟨fun hne => ?_, fun flow' hflow' => ?_⟩, fun _ hev => by cases hev⟩
  · rw [answerSyn, get_modify]
    by_cases hk : K.reverse = p.key.reverse
    · rw [hk, update_self, ← hk, h.reverse hne, map_none]
    · rw [update_of_ne hk]
      exact h.reverse hne
  · rw [answerSyn, get_modify] at hflow'
    by_cases hk : K = p.key.reverse
    · rw [hk, update_self, ← hk] at hflow'
      obtain ⟨flow, hget, rfl⟩ := map_eq_some_iff.mp hflow'
      have hlater := (h.flow flow hget).later p
      exact ⟨hlater.key, hlater.client, nil_sublist _⟩
    · rw [update_of_ne hk] at hflow'
      exact (h.flow flow' hflow').later p

theorem Sides.serves_client (h : Sides K sent t) (hkey : p.key = K) :
    Serves K (sent ++ [p]) (t.dispatch p) := by
  rw [dispatch, hkey]
  split
  · exact h.serves_insert (openedFlow_of hkey)
  · split
    · exact h.serves_answerSyn p
    · split
      case isTrue hcontains => exact h.serves_advance hcontains hkey
      case isFalse hcontains =>
        have hreverse : t.containsKey K.reverse = false := by
          by_cases hne : K.reverse = K
          · rw [hne]
            exact Bool.eq_false_iff.mpr hcontains
          · rw [containsKey_eq, h.reverse hne]
            rfl
        rw [hreverse]
        split
        · cases ‹false = true›
        · split
          · exact h.serves_same p
          · exact h.serves_insert (midStreamFlow_of hkey)

theorem Sides.serves_server (h : Sides K sent t) (hkey : p.key = K.reverse) (hne : p.key ≠ K)
    (hopens : p.opens = false) (hfinds : FindsFlow K t p) :
    Serves K (sent ++ [p]) (t.dispatch p) := by
  have hreverse : t.get K.reverse = none := h.reverse (by rwa [← hkey])
  have habsent : t.containsKey K.reverse = false := by
    rw [containsKey_eq, hreverse]
    rfl
  rw [dispatch, hkey, FlowKey.reverse_reverse, hopens, habsent]
  simp only [Bool.false_eq_true, if_false]
  split
  · exact h.serves_answerSyn p
  case isFalse hsyn =>
    split
    case isTrue hcontains => exact h.serves_advance hcontains hkey
    case isFalse hcontains =>
      split
      · exact h.serves_same p
      case isFalse hdata =>
        -- Neither key is in the table, so the packet carries no data.
        have hnosyn : p.isSyn = false := by
          rw [Packet.opens] at hopens
          cases hs : p.isSyn <;> cases ha : p.isAck <;> simp_all
        rcases hfinds hkey hne hnosyn (Bool.eq_false_iff.mpr hdata) with hc | hc
        · exact absurd hc hcontains
        · rw [habsent] at hc
          cases hc

theorem Sides.serves_other (h : Sides K sent t) (hof : ¬ OfConnection K p) :
    Sides K (sent ++ [p]) (t.dispatch p).1 := by
  rw [OfConnection, not_or] at hof
  have hkey : K ≠ p.key := fun heq => hof.1 heq.symm
  have hrev : K ≠ p.key.reverse := by
    rintro rfl
    exact hof.2 rfl
  have hkey' : K.reverse ≠ p.key := fun heq => hof.2 heq.symm
  have hrev' : K.reverse ≠ p.key.reverse := fun heq => hkey (congrArg FlowKey.reverse heq)
  refine ⟨fun hne => ?_, fun flow hflow => ?_⟩
  · rw [dispatch_get_of_ne hkey' hrev']
    exact h.reverse hne
  · rw [dispatch_get_of_ne hkey hrev] at hflow
    exact (h.flow flow hflow).later p

theorem Sides.processPacket (h : Sides K sent t) (hroom : NotFull t p)
    (hopens : OfConnection K p → p.opens = true → p.key = K) (hfinds : FindsFlow K t p) :
    Sides K (sent ++ [p]) (t.processPacket p).1 ∧
      (OfConnection K p → ∀ ev, (t.processPacket p).2 = some ev → Faithful K (sent ++ [p]) ev) := by
  rw [FlowTable.processPacket, makeRoom_of_room hroom]
  by_cases hof : OfConnection K p
  · have hserves : Serves K (sent ++ [p]) (t.dispatch p) := by
      by_cases hkey : p.key = K
      · exact h.serves_client hkey
      · have hclosed : p.opens = false := Bool.eq_false_iff.mpr fun ho => hkey (hopens hof ho)
        exact h.serves_server (hof.resolve_left hkey) hkey hclosed hfinds
    exact ⟨hserves.1, fun _ => hserves.2⟩
  · exact ⟨h.serves_other hof, fun hof' => absurd hof' hof⟩

/-! ## Runs -/

theorem sides_exec {maxFlows maxBytesPerFlow : Nat} :
    let m := machine maxFlows maxBytesPerFlow
    (∀ p ∈ packets, OfConnection K p → p.opens = true → p.key = K) →
      m.Meets NotFull m.init packets → m.Meets (FindsFlow K) m.init packets →
        Sides K packets (m.exec m.init packets) := by
  intro m
  induction packets using List.reverseRecOn with
  | nil =>
    intro _ _ _
    exact sides_new maxFlows maxBytesPerFlow
  | append_singleton packets p ih =>
    intro hopens hroom hfinds
    rw [m.meets_append] at hroom hfinds
    have hsides := ih (fun q hq => hopens q (mem_append_left _ hq)) hroom.1 hfinds.1
    rw [m.exec_append]
    exact (hsides.processPacket hroom.2.1 (hopens p (by simp)) hfinds.2.1).1

/-- In a connection whose server data always finds the flow in the table, every event has the
key of the client and each side's own data. -/
theorem never_swapped (maxFlows maxBytesPerFlow : Nat) (K : FlowKey) (packets : List Packet) :
    let m := machine maxFlows maxBytesPerFlow
    OpenedBy K packets → m.Meets NotFull m.init packets → m.Meets (FindsFlow K) m.init packets →
      ∀ pre p post, packets = pre ++ p :: post → OfConnection K p →
        ∀ ev, (m.step (m.exec m.init pre) p).2 = some ev → Faithful K (pre ++ [p]) ev := by
  intro m hopened hroom hfinds pre p post hsplit hof
  have hopens : ∀ q ∈ packets, OfConnection K q → q.opens = true → q.key = K :=
    fun q hq => hopened.key_eq hq
  subst hsplit
  rw [m.meets_append] at hroom hfinds
  have hsides : Sides K pre (m.exec m.init pre) :=
    sides_exec (fun q hq => hopens q (mem_append_left _ hq)) hroom.1 hfinds.1
  exact (hsides.processPacket hroom.2.1 (hopens p (by simp)) hfinds.2.1).2 hof

/-- A request and its answer, closed by the server. -/
def answeredRequest : List Packet :=
  [samplePacket (sampleKey 1) 0x02 0 [] 0, samplePacket (sampleKey 1).reverse 0x12 0 [] 1,
    samplePacket (sampleKey 1) 0x18 1 (ascii "GET /") 2,
    samplePacket (sampleKey 1).reverse 0x18 1 (ascii "HTTP/1.1 200 OK") 3,
    samplePacket (sampleKey 1).reverse 0x11 16 [] 4]

/-- The answered request ends with an event, and the event is faithful. -/
theorem never_swapped_answeredRequest :
    let m := machine 10 100
    let K := sampleKey 1
    let last := (m.step (m.exec m.init (answeredRequest.take 4))
      (samplePacket K.reverse 0x11 16 [] 4)).2
    OpenedBy K answeredRequest ∧ m.Meets NotFull m.init answeredRequest ∧
      m.Meets (FindsFlow K) m.init answeredRequest ∧ last.isSome = true ∧
      ∀ ev, last = some ev → Faithful K answeredRequest ev := by
  intro m K last
  have hopened : OpenedBy K answeredRequest := by decide
  have hroom : m.Meets NotFull m.init answeredRequest := by decide
  have hfinds : m.Meets (FindsFlow K) m.init answeredRequest := by decide
  refine ⟨hopened, hroom, hfinds, by decide, ?_⟩
  exact never_swapped 10 100 K answeredRequest hopened hroom hfinds (answeredRequest.take 4)
    (samplePacket K.reverse 0x11 16 [] 4) [] rfl (by decide)

/-- The client sends its request and is done.  The answer of the server comes after that, and
is reported as data of a client, with the key of the server's side. -/
theorem answer_after_fin_swapped :
    let m := machine 10 100
    let K := sampleKey 1
    let pre := [samplePacket K 0x02 0 [] 0, samplePacket K.reverse 0x12 0 [] 1,
      samplePacket K 0x19 1 (ascii "GET /") 2, samplePacket K.reverse 0x18 1 (ascii "HTTP/1.1") 3]
    let fin := samplePacket K.reverse 0x11 9 [] 4
    OpenedBy K (pre ++ [fin]) ∧ m.Meets NotFull m.init (pre ++ [fin]) ∧ OfConnection K fin ∧
      ∃ ev, (m.step (m.exec m.init pre) fin).2 = some ev ∧ ev.key = K.reverse ∧ ev.key ≠ K ∧
        ev.clientData = ascii "HTTP/1.1" ∧ ¬ ev.clientData.Sublist (sentOn K (pre ++ [fin])) := by
  refine ⟨by decide, by decide, by decide, _, rfl, by decide, by decide, by decide, by decide⟩

end FlowTable

end Innerwarden.TcpStream
