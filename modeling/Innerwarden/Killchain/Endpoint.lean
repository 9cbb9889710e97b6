import Innerwarden.Killchain.Exactness

/-!
# The endpoint an incident names

An incident of `process_event` may name the other side of a connection, `c2_ip` and `c2_port`.
The tracker keeps the two in fields of their own, and a connect that carries one of them
overwrites only that one; a port is cut to 16 bits.  So the fields are the last address and the
last port of the process (`Ledger`), not always of one connect.

`c2_paired_iff` says for which events every endpoint is one that some connect carried.
-/

namespace Innerwarden.Killchain

open StateMachine List

/-! ## The endpoint in the JSON of an incident -/

theorem extractC2_core (state : PidChainState) : extractC2 state.core = extractC2 state := rfl

theorem extractC2_of_mem {cfg : TrackerConfig} {context : ChainContext} {state : PidChainState}
    {patterns : List (String × BitVec 32)} {i : ChainIncident}
    (hi : i ∈ (checkPatterns cfg context state patterns).2) :
    extractC2 i.state = extractC2 state := by
  rw [← extractC2_core, ((checkPatterns_frame cfg context state patterns).2 i hi).2.1,
    extractC2_core]

def evidenceOf (incident : Json) : List Json :=
  ((incident.get "evidence").bind Json.asArray).getD []

def entitiesOf (incident : Json) : List Json :=
  ((incident.get "entities").bind Json.asArray).getD []

/-- The incident gives an address and a port. -/
def NamesEndpoint (incident : Json) (ip : String) (port : Nat) : Prop :=
  ∃ e ∈ evidenceOf incident, (e.get "c2_ip").bind Json.asStr = some ip ∧
    (e.get "c2_port").bind Json.asU64 = some port

theorem lookup_seen (i : ChainIncident) :
    i.seen.lookup "c2_ip" = (extractC2 i.state).map (fun c2 => Json.str c2.1) ∧
      i.seen.lookup "c2_port" = (extractC2 i.state).map (fun c2 => Json.int c2.2.toNat) := by
  rw [ChainIncident.seen]
  cases extractC2 i.state with
  | none => cases i.state.lastSensitiveReadPath <;> exact ⟨rfl, rfl⟩
  | some c2 => exact ⟨rfl, rfl⟩

theorem evidenceOf_toJson (crates : ChainCrates) (i : ChainIncident) :
    ∃ e, evidenceOf (i.toJson crates) = [e] ∧
      e.get "c2_ip" = (extractC2 i.state).map (fun c2 => Json.str c2.1) ∧
      e.get "c2_port" = (extractC2 i.state).map (fun c2 => Json.int c2.2.toNat) := by
  have hget : ∀ {key : String} {members : List (String × Json)}, members.lookup key = none →
      (Json.obj (members ++ i.seen)).get key = i.seen.lookup key := by
    intro key members h
    rw [Json.get, lookup_append, h, Option.none_or]
  obtain ⟨hip, hport⟩ := lookup_seen i
  rw [← hip, ← hport, ChainIncident.toJson]
  cases i.stage with
  | preChain | detected => exact ⟨_, rfl, hget rfl, hget rfl⟩

theorem entitiesOf_toJson (crates : ChainCrates) (i : ChainIncident) :
    entitiesOf (i.toJson crates) = ((extractC2 i.state).map fun c2 =>
      Json.obj [("type", .str "ip"), ("value", .str c2.1)]).toList := by
  rw [ChainIncident.toJson]
  cases i.stage <;> rfl

theorem namesEndpoint_toJson {crates : ChainCrates} {i : ChainIncident} {ip : String} {port : Nat} :
    NamesEndpoint (i.toJson crates) ip port ↔
      ∃ q : UInt16, extractC2 i.state = some (ip, q) ∧ q.toNat = port := by
  obtain ⟨e, hevidence, hip, hport⟩ := evidenceOf_toJson crates i
  have hq : ∀ q : UInt16, (Json.int q.toNat).asU64 = some q.toNat := fun q =>
    Json.asU64_natCast (q.toNat_lt.trans (by decide))
  simp only [NamesEndpoint, hevidence, mem_singleton, exists_eq_left, hip, hport]
  cases extractC2 i.state with
  | none => simp
  | some c2 =>
    obtain ⟨ip', q'⟩ := c2
    simp only [Option.map_some, Option.bind_some, Json.asStr_str, hq, Option.some.injEq,
      Prod.mk.injEq]
    constructor
    · rintro ⟨rfl, rfl⟩
      exact ⟨q', ⟨rfl, rfl⟩, rfl⟩
    · rintro ⟨q, ⟨rfl, rfl⟩, rfl⟩
      exact ⟨rfl, rfl⟩

/-! ## The connects of a process -/

/-- `details.dst_ip`. -/
def dstIp (details : Json) : Option String := (details.get "dst_ip").bind Json.asStr

/-- `details.dst_port`. -/
def dstPort (details : Json) : Option Nat := (details.get "dst_port").bind Json.asU64

section History

variable (crates : ChainCrates) (cfg : TrackerConfig) (p : UInt32)

def connectOf (event : Json × DateTime) : Option Json :=
  (readEvent crates cfg event.1 event.2).bind fun context =>
    if context.pid = p ∧ context.kind = "network.outbound_connect" then some context.details
    else none

/-- The connects among the events, oldest first. -/
def connects (events : List (Json × DateTime)) : List Json :=
  events.filterMap (connectOf crates cfg p)

def lastAddress (events : List (Json × DateTime)) : Option String :=
  ((connects crates cfg p events).filterMap dstIp).getLast?

def lastPort (events : List (Json × DateTime)) : Option Nat :=
  ((connects crates cfg p events).filterMap dstPort).getLast?

/-- What the tracker knows of the connects of a process: the last address and the last port,
each by itself. -/
structure Ledger (events : List (Json × DateTime)) (known : Option PidChainState) : Prop where
  address : known.bind PidChainState.lastConnectIp = lastAddress crates cfg p events
  port : known.bind PidChainState.lastConnectPort =
    (lastPort crates cfg p events).map UInt16.ofNat
  socket : ∀ state, known = some state → state.lastConnectIp.isSome = true →
    state.flags &&& chainSocket ≠ 0

variable {crates cfg p}

variable {event : Json × DateTime} {context : ChainContext} {state : PidChainState}
  (events : List (Json × DateTime))

/-- The last thing of a kind that the connects carried. -/
theorem getLast?_connects_concat {β : Type*} (f : Json → Option β) (event : Json × DateTime) :
    ((connects crates cfg p (events ++ [event])).filterMap f).getLast? =
      ((connectOf crates cfg p event).bind f).or
        ((connects crates cfg p events).filterMap f).getLast? := by
  rw [connects, filterMap_append, filterMap_append, ← connects]
  cases h : connectOf crates cfg p event with
  | none => simp [h]
  | some connect => cases hf : f connect <;> simp [h, hf]

theorem connectOf_of_read (hread : readEvent crates cfg event.1 event.2 = some context)
    (hpid : context.pid = p) :
    connectOf crates cfg p event =
      if context.kind = "network.outbound_connect" then some context.details else none := by
  rw [connectOf, hread, Option.bind_some]
  simp only [hpid, true_and]

theorem connectOf_of_other
    (h : ∀ context, readEvent crates cfg event.1 event.2 = some context → context.pid ≠ p) :
    connectOf crates cfg p event = none := by
  rw [connectOf]
  cases hread : readEvent crates cfg event.1 event.2 with
  | none => rfl
  | some context => exact if_neg fun hc => h context hread hc.1

theorem flag_of_connect {event : Json} {now : DateTime}
    (hread : readEvent crates cfg event now = some context)
    (hkind : context.kind = "network.outbound_connect") : context.flag = chainSocket := by
  simp only [readEvent, Option.bind_eq_bind, Option.bind_eq_some_iff] at hread
  obtain ⟨kind, -, details, -, pid, -, hread⟩ := hread
  split at hread
  · cases hread
  · obtain ⟨flag, hflag, hcontext⟩ := Option.bind_eq_some_iff.mp hread
    obtain rfl := Option.some.inj hcontext
    obtain rfl : kind = "network.outbound_connect" := hkind
    exact (Option.some.inj hflag).symm

theorem connect_mergeEvent (context : ChainContext) (previous : Option PidChainState) :
    (mergeEvent context previous).lastConnectIp =
        ((if context.kind = "network.outbound_connect" then some context.details else none).bind
          dstIp).or (previous.bind PidChainState.lastConnectIp) ∧
      (mergeEvent context previous).lastConnectPort =
        (((if context.kind = "network.outbound_connect" then some context.details else none).bind
          dstPort).map UInt16.ofNat).or (previous.bind PidChainState.lastConnectPort) := by
  unfold mergeEvent
  split
  · cases previous <;> exact ⟨rfl, rfl⟩
  · cases previous <;> exact ⟨rfl, rfl⟩

theorem or_and_eq_zero {a b c : BitVec 32} (h : (a ||| b) &&& c = 0) :
    a &&& c = 0 ∧ b &&& c = 0 := by
  rw [BitVec.and_comm, BitVec.and_or_distrib_left] at h
  rw [BitVec.and_comm a, BitVec.and_comm b]
  exact BitVec.or_eq_zero_iff.mp h

/-- One event keeps the ledger. -/
theorem Ledger.merge {events : List (Json × DateTime)} {known : Option PidChainState}
    (h : Ledger crates cfg p events known)
    (hread : readEvent crates cfg event.1 event.2 = some context) (hpid : context.pid = p) :
    Ledger crates cfg p (events ++ [event]) (some (mergeEvent context known)) := by
  obtain ⟨hip, hport⟩ := connect_mergeEvent context known
  have hconnect := connectOf_of_read hread hpid
  refine ⟨?_, ?_, ?_⟩
  · rw [Option.bind_some, hip, h.address, lastAddress, lastAddress, getLast?_connects_concat,
      hconnect]
  · rw [Option.bind_some, hport, h.port, lastPort, lastPort, getLast?_connects_concat, hconnect,
      Option.map_or]
  · intro state hstate hsome
    obtain rfl := Option.some.inj hstate
    rw [flags_mergeEvent]
    by_cases hkind : context.kind = "network.outbound_connect"
    · rw [flag_of_connect hread hkind]
      exact fun hzero => absurd (or_and_eq_zero hzero).2 (by decide)
    · rw [hip, if_neg hkind] at hsome
      cases known with
      | none => cases hsome
      | some state => exact fun hzero => h.socket state rfl hsome (or_and_eq_zero hzero).1

theorem Ledger.of_core {events : List (Json × DateTime)} {state' : PidChainState}
    (h : Ledger crates cfg p events (some state)) (hcore : state'.core = state.core) :
    Ledger crates cfg p events (some state') := by
  obtain ⟨-, -, -, -, hflags, -, -, -, hip, hport, -⟩ := PidChainState.mk.inj hcore
  refine ⟨?_, ?_, ?_⟩
  · rw [← h.address, Option.bind_some, hip, Option.bind_some]
  · rw [← h.port, Option.bind_some, hport, Option.bind_some]
  · intro state'' hstate hsome
    obtain rfl := Option.some.inj hstate
    rw [hflags]
    exact h.socket state rfl (hip ▸ hsome)

theorem Ledger.step {events : List (Json × DateTime)} {tracker : PidTracker}
    (h : Ledger crates cfg p events (tracker p)) (event : Json × DateTime) :
    Ledger crates cfg p (events ++ [event]) ((processEvent cfg crates tracker event).1 p) := by
  rcases contributed_cases crates cfg p event with ⟨-, hother⟩ | ⟨context, hread, hpid, -⟩
  · have hnone := connectOf_of_other hother
    rw [(processEvent_of_other tracker hother).1]
    refine ⟨?_, ?_, h.socket⟩
    · rw [lastAddress, getLast?_connects_concat, hnone, h.address]
      rfl
    · rw [lastPort, getLast?_connects_concat, hnone, h.port]
      rfl
  · rw [(processEvent_of_read tracker hread hpid).1]
    exact (h.merge hread hpid).of_core (checkPatterns_frame cfg context _ allPatterns).1

/-- The ledger of every process, after any events. -/
theorem ledger_exec (p : UInt32) (events : List (Json × DateTime)) :
    Ledger crates cfg p events
      ((trackerMachine cfg crates).exec (trackerMachine cfg crates).init events p) := by
  induction events using List.reverseRecOn with
  | nil => exact ⟨rfl, rfl, fun _ h => by cases h⟩
  | append_singleton events event ih =>
    rw [exec_append]
    exact ih.step event

theorem extractC2_eq_some_iff {ip : String} {q : UInt16} :
    extractC2 state = some (ip, q) ↔
      state.flags &&& chainSocket ≠ 0 ∧ isPrivateIp ip = false ∧ state.lastConnectIp = some ip ∧
        state.lastConnectPort = some q := by
  have hsteps : extractC2 state = if state.flags &&& chainSocket = 0 then none
      else state.lastConnectIp.bind fun ip => state.lastConnectPort.bind fun port =>
        if isPrivateIp ip = true then none else some (ip, port) := by
    unfold extractC2
    split <;> rfl
  rw [hsteps]
  split
  case isTrue h => exact iff_of_false (Option.some_ne_none _).symm fun hc => hc.1 h
  case isFalse h =>
    simp only [Option.bind_eq_some_iff]
    constructor
    · rintro ⟨ip', hip, port, hport, hpublic⟩
      split at hpublic
      · cases hpublic
      next hprivate =>
        cases hpublic
        exact ⟨h, Bool.eq_false_iff.mpr hprivate, hip, hport⟩
    · rintro ⟨-, hpublic, hip, hport⟩
      exact ⟨ip, hip, q, hport, by rw [hpublic, if_neg Bool.false_ne_true]⟩

theorem Ledger.extractC2_eq_some_iff {events : List (Json × DateTime)}
    (h : Ledger crates cfg p events (some state)) {ip : String} {q : UInt16} :
    extractC2 state = some (ip, q) ↔
      isPrivateIp ip = false ∧ lastAddress crates cfg p events = some ip ∧
        (lastPort crates cfg p events).map UInt16.ofNat = some q := by
  have haddress : state.lastConnectIp = lastAddress crates cfg p events := h.address
  have hport : state.lastConnectPort = (lastPort crates cfg p events).map UInt16.ofNat := h.port
  rw [Killchain.extractC2_eq_some_iff, ← haddress, ← hport]
  refine and_iff_right_of_imp fun hc => h.socket state rfl ?_
  rw [hc.2.1]
  rfl

theorem pattern_of_mem_answer {pre : List (Json × DateTime)} {i : ChainIncident}
    (hi : i ∈ answer crates cfg pre event) : ∃ P ∈ allPatterns, i.pattern = P.1 := by
  rw [answer, processEvent] at hi
  cases hread : readEvent crates cfg event.1 event.2 with
  | none =>
    rw [hread] at hi
    cases hi
  | some context =>
    rw [hread] at hi
    exact ((checkPatterns_frame cfg context _ allPatterns).2 i hi).2.2

/-- An event is answered with an incident exactly when it is the first to reach a pattern. -/
theorem exists_incident_iff (pre : List (Json × DateTime)) (event : Json × DateTime) :
    (∃ i ∈ answer crates cfg pre event, i.pid = p) ↔
      ∃ stage, ∃ P ∈ allPatterns, Reaches crates cfg p stage P.2 pre event ∧
        ¬ Occurred (Reaches crates cfg p stage P.2) pre := by
  constructor
  · rintro ⟨i, hi, hpid⟩
    have hpos : 0 < reports i.stage p i.pattern (answer crates cfg pre event) :=
      countP_pos_iff.mpr ⟨i, hi, by simp [hpid]⟩
    obtain ⟨P, hP, hname⟩ := pattern_of_mem_answer hi
    refine ⟨i.stage, P, hP, ?_⟩
    by_contra hnot
    have hzero := ((summary_exec p pre).reports_processEvent i.stage hP event).2
      (by_contra fun hnor => hnot ⟨not_not.mp fun h => hnor (.inr h), fun h => hnor (.inl h)⟩)
    rw [hname, answer, hzero] at hpos
    exact lt_irrefl 0 hpos
  · rintro ⟨stage, P, hP, hreaches⟩
    have hone := (reports_answer_eq_one_iff stage hP pre event).mpr hreaches
    obtain ⟨i, hi, hmatch⟩ := countP_pos_iff.mp (hone.symm ▸ Nat.one_pos :
      0 < reports stage p P.1 (answer crates cfg pre event))
    exact ⟨i, hi, (of_decide_eq_true hmatch).2.1⟩

theorem namesEndpoint_answer {pre : List (Json × DateTime)} {i : ChainIncident}
    (hi : i ∈ answer crates cfg pre event) {ip : String} {port : Nat} :
    NamesEndpoint (i.toJson crates) ip port ↔
      isPrivateIp ip = false ∧ lastAddress crates cfg i.pid (pre ++ [event]) = some ip ∧
        (lastPort crates cfg i.pid (pre ++ [event])).map (· % 65536) = some port := by
  rcases contributed_cases crates cfg i.pid event with ⟨-, hother⟩ | ⟨context, hread, hpid, -⟩
  · exact absurd rfl ((processEvent_of_other _ hother).2 i hi)
  · rw [answer, (processEvent_of_read _ hread hpid).2] at hi
    have hledger := (ledger_exec i.pid pre).merge hread hpid
    simp only [namesEndpoint_toJson, extractC2_of_mem hi, hledger.extractC2_eq_some_iff]
    cases lastPort crates cfg i.pid (pre ++ [event]) with
    | none => simp
    | some n => simp [and_assoc]

variable (crates cfg)

/-- Every endpoint an incident names was carried by one connect of the process. -/
def C2Paired (events : List (Json × DateTime)) : Prop :=
  ∀ pre event post, events = pre ++ event :: post →
    ∀ i ∈ answer crates cfg pre event, ∀ ip port, NamesEndpoint (i.toJson crates) ip port →
      ∃ connect ∈ connects crates cfg i.pid (pre ++ [event]),
        dstIp connect = some ip ∧ dstPort connect = some port

/-- At every event that is the first to reach a pattern, the last address of the process, if
it is public, and the last 16 bits of its last port came with one connect. -/
def LastTogether (events : List (Json × DateTime)) : Prop :=
  ∀ pre event post, events = pre ++ event :: post →
    ∀ p stage, ∀ P ∈ allPatterns, Reaches crates cfg p stage P.2 pre event →
      ¬ Occurred (Reaches crates cfg p stage P.2) pre →
      ∀ ip port, lastAddress crates cfg p (pre ++ [event]) = some ip →
        lastPort crates cfg p (pre ++ [event]) = some port → isPrivateIp ip = false →
        ∃ connect ∈ connects crates cfg p (pre ++ [event]),
          dstIp connect = some ip ∧ dstPort connect = some (port % 65536)

end History

/-- The endpoints of the incidents are endpoints of connects exactly when the last address
and the last port belong together at each event that gives rise to an incident. -/
theorem c2_paired_iff (crates : ChainCrates) (cfg : TrackerConfig)
    (events : List (Json × DateTime)) :
    C2Paired crates cfg events ↔ LastTogether crates cfg events := by
  constructor
  · intro h pre event post hsplit p stage P hP hreaches hfirst ip port haddress hport hpublic
    obtain ⟨i, hi, rfl⟩ := (exists_incident_iff pre event).mpr ⟨stage, P, hP, hreaches, hfirst⟩
    refine h pre event post hsplit i hi ip (port % 65536) ((namesEndpoint_answer hi).mpr ?_)
    exact ⟨hpublic, haddress, by rw [hport, Option.map_some]⟩
  · intro h pre event post hsplit i hi ip port hnames
    obtain ⟨hpublic, haddress, hport⟩ := (namesEndpoint_answer hi).mp hnames
    obtain ⟨n, hn, rfl⟩ := Option.map_eq_some_iff.mp hport
    obtain ⟨stage, P, hP, hreaches, hfirst⟩ := (exists_incident_iff pre event).mp ⟨i, hi, rfl⟩
    exact h pre event post hsplit i.pid stage P hP hreaches hfirst ip n haddress hn hpublic

/-- A connect, and then one to another address that carries no port. -/
def twoConnects : List (Json × DateTime) :=
  [sampleEvent "network.outbound_connect"
    [("dst_ip", .str "93.184.216.34"), ("dst_port", .int 443)],
   sampleEvent "network.outbound_connect" [("dst_ip", .str "8.8.8.8")]]

def shadowRead : Json × DateTime := sampleEvent "file.open" [("filename", .str "/etc/shadow")]

/-- The incident for the read names the second address with the first port. -/
theorem c2_of_two_connects :
    ¬ C2Paired sampleCrates ⟨.finite (3 / 5), []⟩ (twoConnects ++ [shadowRead]) := by
  intro h
  have hnamed : (answer sampleCrates ⟨.finite (3 / 5), []⟩ twoConnects shadowRead).any
      (fun i => i.pid = 7 ∧ extractC2 i.state = some ("8.8.8.8", 443)) = true := by
    decide +kernel
  have hnone : (connects sampleCrates ⟨.finite (3 / 5), []⟩ 7 (twoConnects ++ [shadowRead])).all
      (fun c => ¬ (dstIp c = some "8.8.8.8" ∧ dstPort c = some 443)) = true := by
    decide +kernel
  obtain ⟨i, hi, hendpoint⟩ := any_eq_true.mp hnamed
  obtain ⟨hpid, hc2⟩ := of_decide_eq_true hendpoint
  obtain ⟨connect, hconnect, hip, hport⟩ := h twoConnects shadowRead [] rfl i hi "8.8.8.8" 443
    (namesEndpoint_toJson.mpr ⟨443, hc2, rfl⟩)
  rw [hpid] at hconnect
  exact of_decide_eq_true (all_eq_true.mp hnone connect hconnect) ⟨hip, hport⟩

end Innerwarden.Killchain
