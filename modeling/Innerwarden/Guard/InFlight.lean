import Innerwarden.Guard.Proxy

/-!
# The requests in flight

The proxy remembers the method of each request under its id, "so a server response routes to
the right inspector" (`transport.rs`).  An entry is made when `classify_client_line` reads a
request, before the mode is applied, and taken when `classify_server_line` reads its answer.
A request that is denied leaves an entry that the server will never answer.

`tracks_in_flight_iff` says in which runs the keys of the map are the ids in flight, said of
the lines alone.
-/

namespace Innerwarden.Guard

open Text List Option

/-! ## Requests and answers -/

section Lines

variable (crates : GuardCrates)

/-- The message in a line, for a reader who takes the last of repeated members. -/
def messageIn (line : String) : Option Json :=
  if trim line = "" then none
  else
    match crates.parseJson line with
    | some (.obj members) =>
      let v := (Json.obj members).settle
      if (v.get "jsonrpc").bind Json.asStr = some "2.0" then some v else none
    | _ => none

/-- The id of a message, as the proxy writes it. -/
def messageId (v : Json) : Option String := (nonNull (v.get "id")).map (idKey crates)

/-- The id of the request in a line.  A request has a method and an id. -/
def requestId : ProxyLine → Option String
  | .client line => (messageIn crates line).bind fun v =>
    ((v.get "method").bind Json.asStr).bind fun _ => messageId crates v
  | .server _ => none

/-- An answer has a result or an error, and no method. -/
def IsAnswer (v : Json) : Prop :=
  nonNull (v.get "method") = none ∧ ((v.get "result").isSome ∨ (v.get "error").isSome)

instance (v : Json) : Decidable (IsAnswer v) := inferInstanceAs (Decidable (_ ∧ _))

def answerId : ProxyLine → Option String
  | .client _ => none
  | .server line => (messageIn crates line).bind fun v =>
    if IsAnswer v then messageId crates v else none

/-- The line is an object, and no field of the envelope stands twice in it. -/
def FieldsOnce (line : String) : Prop := ∃ v, IsObjectText crates line v

end Lines

variable {crates : GuardCrates}

theorem asStr_eq_some {o : Option Json} {s : String} :
    o.bind Json.asStr = some s ↔ o = some (.str s) := by
  cases o with
  | none => exact iff_of_false nofun nofun
  | some v => cases v <;> simp [Json.asStr]

variable {line key : String} {env : JsonRpcEnvelope}

theorem messageIn_eq_some {v : Json} :
    messageIn crates line = some v ↔ trim line ≠ "" ∧
      (∃ members, crates.parseJson line = some (.obj members) ∧ v = (Json.obj members).settle) ∧
      v.get "jsonrpc" = some (.str "2.0") := by
  unfold messageIn
  by_cases hblank : trim line = ""
  · simp [hblank]
  · rw [if_neg hblank]
    split
    next members hparse =>
      simp only [asStr_eq_some, ite_none_right_eq_some, Option.some.injEq]
      constructor
      · rintro ⟨hversion, rfl⟩
        exact ⟨hblank, ⟨members, hparse, rfl⟩, hversion⟩
      · rintro ⟨-, ⟨members', hparse', rfl⟩, hversion⟩
        cases hparse.symm.trans hparse'
        exact ⟨hversion, rfl⟩
    next hnone =>
      refine iff_of_false nofun ?_
      rintro ⟨-, ⟨members, hparse, -⟩, -⟩
      exact hnone members hparse

theorem requestId_client :
    requestId crates (.client line) = some key ↔ ∃ v method, messageIn crates line = some v ∧
      v.get "method" = some (.str method) ∧ messageId crates v = some key := by
  rw [requestId, bind_eq_some_iff]
  refine exists_congr fun v => ?_
  rw [exists_and_left, exists_and_right, bind_eq_some_iff, exists_and_right]
  simp only [asStr_eq_some]

theorem answerId_server :
    answerId crates (.server line) = some key ↔ ∃ v, messageIn crates line = some v ∧
      IsAnswer v ∧ messageId crates v = some key := by
  simp [answerId, bind_eq_some_iff]

theorem parseLine_of_fieldsOnce {v : Json} (hv : messageIn crates line = some v)
    (honce : FieldsOnce crates line) {method : Option String}
    (hmethod : optionString (v.get "method") = some method) :
    parseLine crates line = .message ⟨"2.0", nonNull (v.get "id"), method,
      nonNull (v.get "params"), nonNull (v.get "result"), nonNull (v.get "error")⟩ := by
  obtain ⟨hblank, ⟨members, hparse, rfl⟩, hversion⟩ := messageIn_eq_some.mp hv
  obtain ⟨v, members', hparse', hfields, rfl⟩ := honce
  cases hparse.symm.trans hparse'
  exact parseLine_of_isObjectText ⟨members, hparse, hfields, rfl⟩ hblank hversion hmethod

theorem parseLine_of_not_fieldsOnce {v : Json}
    (hv : messageIn crates line = some v) (honce : ¬ FieldsOnce crates line) :
    parseLine crates line = .opaqueLine line := by
  obtain ⟨hblank, ⟨members, hparse, rfl⟩, -⟩ := messageIn_eq_some.mp hv
  obtain ⟨key, hkey, hlength⟩ : ∃ key ∈ envelopeFields,
      1 < (members.filter fun m => m.1 = key).length := by
    by_contra hall
    push Not at hall
    exact honce ⟨_, members, hparse, hall, rfl⟩
  have hrepeated : fieldOnce members key = none := by
    rw [fieldOnce]
    generalize (members.filter fun m => m.1 = key) = found at hlength
    rcases found with _ | ⟨_, _ | ⟨_, _⟩⟩
    · cases hlength
    · exact absurd hlength (Nat.lt_irrefl 1)
    · rfl
  exact parseLine_of_repeated hparse hblank hkey hrepeated

/-! ## Runs -/

/-- The line was written to the server. -/
def ProxyOutput.Forwarded : ProxyOutput → Prop
  | .client (.forward _ _) => True
  | .client .drop | .client (.deny _ _ _) | .server _ => False

section Run

variable (crates : GuardCrates) (cfg : ProxyConfig) (engine : Option RuleEngine)

/-- A request with this id was forwarded, and has not been answered since. -/
def InFlight (ops : List ProxyLine) (key : String) : Prop :=
  let M := proxyMachine crates cfg engine
  ∃ pre line post, ops = pre ++ line :: post ∧ requestId crates line = some key ∧
    (M.step (M.exec M.init pre) line).2.Forwarded ∧ ∀ l ∈ post, answerId crates l ≠ some key

/-- The keys of the map are the ids in flight. -/
def Tracks (ops : List ProxyLine) : Prop :=
  let M := proxyMachine crates cfg engine
  {key | (M.exec M.init ops key).isSome} = {key | InFlight crates cfg engine ops key}

/-- No two requests have the same id. -/
def DistinctIds (ops : List ProxyLine) : Prop := (ops.filterMap (requestId crates)).Nodup

/-- The mode denies the call in the line. -/
def Denied (line : String) : Prop := cfg.mode.blocks = true ∧ DisallowedCall crates engine line

/-- A request is read and not denied, and an answer to a tracked request is read.  What the
proxy takes for a request without it being one has a tracked id, and what it takes for an
answer without it being one has not. -/
def KeepsTrack (map : IdMethodMap) : ProxyLine → Prop
  | .client line =>
    match requestId crates (.client line) with
    | some _ => FieldsOnce crates line ∧ ¬ Denied crates cfg engine line
    | none => ∀ key, UsesId crates key (.client line) → (map key).isSome
  | .server line =>
    match answerId crates (.server line) with
    | some key => FieldsOnce crates line ∨ map key = none
    | none => ∀ key, UsesId crates key (.server line) → map key = none

end Run

variable {cfg : ProxyConfig} {engine : Option RuleEngine}

/-! ### The map -/

theorem isSome_step_client (map : IdMethodMap) (line key : String) :
    ((stepLine crates cfg engine map (.client line)).1 key).isSome ↔
      (map key).isSome ∨ UsesId crates key (.client line) := by
  by_cases huse : UsesId crates key (.client line)
  · refine iff_of_true ?_ (Or.inr huse)
    obtain ⟨env, hparse, hmethod, hkey⟩ := huse
    obtain ⟨method, hmethod⟩ := isSome_iff_exists.mp hmethod
    obtain ⟨id, hid, rfl⟩ := map_eq_some_iff.mp hkey
    simp [stepLine, classifyClientLine, hparse, trackRequest, hid, hmethod]
  · rw [stepLine_of_not_usesId huse, or_iff_left huse]

theorem isSome_step_server (map : IdMethodMap) (line key : String) :
    ((stepLine crates cfg engine map (.server line)).1 key).isSome ↔
      (map key).isSome ∧ ¬ UsesId crates key (.server line) := by
  by_cases huse : UsesId crates key (.server line)
  · refine iff_of_false ?_ fun h => h.2 huse
    obtain ⟨env, hparse, hmethod, hkey⟩ := huse
    obtain ⟨id, hid, rfl⟩ := map_eq_some_iff.mp hkey
    simp [stepLine, classifyServerLine, hparse, settleRequest, hid, hmethod]
  · rw [stepLine_of_not_usesId huse, and_iff_left huse]

/-! ### What is read -/

theorem usesId_of_message (hparse : parseLine crates line = .message env) :
    (UsesId crates key (.client line) ↔
        env.method.isSome ∧ env.id.map (idKey crates) = some key) ∧
      (UsesId crates key (.server line) ↔
        env.method = none ∧ env.id.map (idKey crates) = some key) := by
  simp [UsesId, hparse]

theorem not_usesId_of_unread {line raw : String}
    (hparse : parseLine crates line = .opaqueLine raw) :
    ¬ UsesId crates key (.client line) ∧ ¬ UsesId crates key (.server line) := by
  constructor
  all_goals
    rintro ⟨env, hmessage, -⟩
    cases hparse.symm.trans hmessage

/-- The action on a message forwards it, unless the mode blocks and the decision can be
answered with a denial. -/
theorem clientAction_forwarded {d : ProxyDecision} :
    (ProxyOutput.client (clientAction crates cfg line d)).Forwarded ↔
      ¬ (cfg.mode.blocks = true ∧ d.canBlock = true) := by
  unfold clientAction applyMode forwardAction
  cases cfg.mode <;> cases d.canBlock <;> cases d.verdict.alerts.isEmpty <;>
    simp [ProxyOutput.Forwarded, ProxyMode.blocks]

theorem canBlock_routeClientToServer {id : Json} (hid : env.id = some id) :
    (routeClientToServer crates engine env).canBlock = true ↔ env.method = some "tools/call" ∧
      (inspectToolCall crates engine (extractToolCall env.params).1
        (extractToolCall env.params).2).allowed = false := by
  unfold routeClientToServer
  split
  next hcall => simp [ProxyDecision.canBlock, hid, hcall]
  next hcall => simp [ProxyDecision.canBlock, passThrough, hcall]

variable (cfg engine) in
/-- A request that is read is tracked, and it is forwarded if it is not denied. -/
theorem request_read (hkey : requestId crates (.client line) = some key)
    (honce : FieldsOnce crates line) (map : IdMethodMap) :
    (∀ k, UsesId crates k (.client line) ↔ key = k) ∧
      ((stepLine crates cfg engine map (.client line)).2.Forwarded ↔
        ¬ Denied crates cfg engine line) := by
  obtain ⟨v, method, hv, hmethod, hid⟩ := requestId_client.mp hkey
  have hparse := parseLine_of_fieldsOnce hv honce (optionString_str hmethod)
  refine ⟨fun k => ?_, ?_⟩
  · refine (usesId_of_message hparse).1.trans ((and_iff_right rfl).trans ?_)
    change messageId crates v = some k ↔ key = k
    rw [hid, Option.some.injEq]
  · rw [stepLine, classifyClientLine, hparse]
    dsimp only
    rw [clientAction_forwarded, not_iff_not]
    refine and_congr_right fun _ => ?_
    obtain ⟨-, ⟨members, hmembers, rfl⟩, hversion⟩ := messageIn_eq_some.mp hv
    obtain ⟨id, hsome, -⟩ := map_eq_some_iff.mp hid
    rw [canBlock_routeClientToServer hsome, extractToolCall_nonNull]
    constructor
    · rintro ⟨hcall, hverdict⟩
      cases hcall
      exact ⟨members, hmembers, hversion, hmethod, hverdict⟩
    · rintro ⟨members', hmembers', -, hcall, hverdict⟩
      cases hmembers.symm.trans hmembers'
      cases hmethod.symm.trans hcall
      exact ⟨rfl, hverdict⟩

variable (cfg engine) in
theorem request_not_read (hkey : requestId crates (.client line) = some key)
    (honce : ¬ FieldsOnce crates line) (map : IdMethodMap) :
    (∀ k, ¬ UsesId crates k (.client line)) ∧
      (stepLine crates cfg engine map (.client line)).2.Forwarded := by
  obtain ⟨v, method, hv, -, -⟩ := requestId_client.mp hkey
  have hparse := parseLine_of_not_fieldsOnce hv honce
  refine ⟨fun k => (not_usesId_of_unread hparse).1, ?_⟩
  rw [stepLine, classifyClientLine_unread hparse]
  trivial

theorem answer_read (hkey : answerId crates (.server line) = some key)
    (k : String) : UsesId crates k (.server line) ↔ FieldsOnce crates line ∧ key = k := by
  obtain ⟨v, hv, ⟨hmethod, -⟩, hid⟩ := answerId_server.mp hkey
  by_cases honce : FieldsOnce crates line
  · have hparse := parseLine_of_fieldsOnce hv honce (optionString_of_nonNull hmethod)
    rw [(usesId_of_message hparse).2, and_iff_right rfl, and_iff_right honce]
    change messageId crates v = some k ↔ key = k
    rw [hid, Option.some.injEq]
  · exact iff_of_false (not_usesId_of_unread (parseLine_of_not_fieldsOnce hv honce)).2
      fun h => honce h.1

/-! ### What is in flight -/

theorem not_inFlight_nil (key : String) : ¬ InFlight crates cfg engine [] key := by
  rintro ⟨pre, line, post, h, -⟩
  simp at h

/-- A line adds the request it forwards and takes the request it answers. -/
theorem inFlight_concat {ops : List ProxyLine} {line : ProxyLine} :
    InFlight crates cfg engine (ops ++ [line]) key ↔
      (requestId crates line = some key ∧ (stepLine crates cfg engine
        ((proxyMachine crates cfg engine).exec (fun _ => none) ops) line).2.Forwarded) ∨
      InFlight crates cfg engine ops key ∧ answerId crates line ≠ some key := by
  constructor
  · rintro ⟨pre, line', post, h, hrequest, hforward, hanswer⟩
    rcases StateMachine.concat_split h with ⟨rfl, rfl⟩ | ⟨rest, rfl, rfl⟩
    · exact Or.inl ⟨hrequest, hforward⟩
    · rw [forall_mem_append] at hanswer
      exact Or.inr ⟨⟨pre, line', rest, rfl, hrequest, hforward, hanswer.1⟩,
        hanswer.2 line (mem_singleton_self line)⟩
  · rintro (⟨hrequest, hforward⟩ | ⟨⟨pre, line', post, rfl, hrequest, hforward, hanswer⟩, hlast⟩)
    · exact ⟨ops, line, [], rfl, hrequest, hforward, nofun⟩
    · refine ⟨pre, line', post ++ [line], by simp, hrequest, hforward, ?_⟩
      rw [forall_mem_append]
      exact ⟨hanswer, by simpa using hlast⟩

theorem InFlight.mem_requestIds {ops : List ProxyLine} (h : InFlight crates cfg engine ops key) :
    key ∈ ops.filterMap (requestId crates) := by
  obtain ⟨pre, line, post, rfl, hrequest, -⟩ := h
  exact mem_filterMap.mpr ⟨line, by simp, hrequest⟩

/-! ### Keeping track -/

theorem tracks_iff {ops : List ProxyLine} :
    Tracks crates cfg engine ops ↔ ∀ key,
      (((proxyMachine crates cfg engine).exec (fun _ => none) ops key).isSome ↔
        InFlight crates cfg engine ops key) :=
  Set.ext_iff

section Step

variable {ops : List ProxyLine} {map : IdMethodMap}
  (hmap : (proxyMachine crates cfg engine).exec (fun _ => none) ops = map)
  (htracks : Tracks crates cfg engine ops)

include hmap htracks

theorem tracks_concat_iff {op : ProxyLine} :
    Tracks crates cfg engine (ops ++ [op]) ↔ ∀ key,
      (((stepLine crates cfg engine map op).1 key).isSome ↔
        (requestId crates op = some key ∧ (stepLine crates cfg engine map op).2.Forwarded) ∨
          (map key).isSome ∧ answerId crates op ≠ some key) := by
  rw [tracks_iff] at htracks ⊢
  refine forall_congr' fun key => ?_
  rw [StateMachine.exec_append, inFlight_concat, ← htracks key, hmap]
  rfl

theorem not_tracked_of_distinctIds {key : String}
    (hids : DistinctIds crates (ops ++ [.client line]))
    (hkey : requestId crates (.client line) = some key) : ¬ (map key).isSome := by
  intro htracked
  rw [← hmap] at htracked
  have hmem := ((tracks_iff.mp htracks key).mp htracked).mem_requestIds
  rw [DistinctIds, filterMap_append, nodup_append] at hids
  exact hids.2.2 key hmem key (by simp [hkey]) rfl

/-- One line of the client. -/
theorem tracks_concat_client (hids : DistinctIds crates (ops ++ [.client line])) :
    Tracks crates cfg engine (ops ++ [.client line]) ↔
      KeepsTrack crates cfg engine map (.client line) := by
  rw [tracks_concat_iff hmap htracks]
  simp only [isSome_step_client, KeepsTrack, answerId, ne_eq, reduceCtorEq, not_false_eq_true,
    and_true]
  cases hkey : requestId crates (.client line) with
  | none => simp [or_iff_left_iff_imp]
  | some key =>
    have hnew := not_tracked_of_distinctIds hmap htracks hids hkey
    by_cases honce : FieldsOnce crates line
    · obtain ⟨huse, hforward⟩ := request_read cfg engine hkey honce map
      simp only [huse, hforward, Option.some.injEq, and_iff_right honce]
      constructor
      · intro h
        exact ((h key).mp (Or.inr rfl)).resolve_right hnew |>.2
      · intro hdenied k
        rw [and_iff_left hdenied, or_comm]
    · obtain ⟨huse, hforward⟩ := request_not_read cfg engine hkey honce map
      refine iff_of_false (fun h => ?_) fun h => honce h.1
      exact ((h key).mpr (Or.inl ⟨rfl, hforward⟩)).elim hnew (huse key)

theorem tracks_concat_server :
    Tracks crates cfg engine (ops ++ [.server line]) ↔
      KeepsTrack crates cfg engine map (.server line) := by
  rw [tracks_concat_iff hmap htracks]
  simp only [isSome_step_server, KeepsTrack, requestId, reduceCtorEq, false_and, false_or]
  cases hkey : answerId crates (.server line) with
  | none =>
    refine forall_congr' fun key => ?_
    cases map key <;> simp
  | some key =>
    simp only [answer_read hkey, ne_eq, Option.some.injEq]
    constructor
    · intro h
      by_contra hnot
      rw [not_or] at hnot
      have htracked : (map key).isSome := isSome_iff_ne_none.mpr hnot.2
      exact ((h key).mp ⟨htracked, fun hread => hnot.1 hread.1⟩).2 rfl
    · rintro (honce | hnone) k
      · rw [and_iff_right honce]
      · refine and_congr_right fun htracked => ?_
        have hne : key ≠ k := fun heq => by simp [← heq, hnone] at htracked
        exact iff_of_true (fun h => hne h.2) hne

end Step

/-- The keys of the map are the ids in flight all along exactly in the runs whose lines
all keep it so. -/
theorem tracks_in_flight_iff (ops : List ProxyLine) (hids : DistinctIds crates ops) :
    let M := proxyMachine crates cfg engine
    (∀ pre, pre <+: ops → Tracks crates cfg engine pre) ↔
      M.Meets (KeepsTrack crates cfg engine) M.init ops := by
  intro M
  have hnil : Tracks crates cfg engine [] :=
    tracks_iff.mpr fun key => iff_of_false nofun (not_inFlight_nil key)
  refine StateMachine.forall_prefix_iff_meets (N := DistinctIds crates) hnil ?_ ?_ ops hids
  · intro pre op h
    rw [DistinctIds, filterMap_append] at h
    exact (nodup_append.mp h).1
  · intro pre op htracks h
    cases op with
    | client line => exact tracks_concat_client rfl htracks h
    | server line => exact tracks_concat_server rfl htracks

theorem requestId_callLine : requestId sampleCrates (.client callLine) = some "1" := by
  refine requestId_client.mpr ⟨(Json.obj callMembers).settle, "tools/call", ?_, rfl, ?_⟩
  · exact messageIn_eq_some.mpr
      ⟨trim_sample_ne_empty (by simp), ⟨callMembers, rfl, rfl⟩, rfl⟩
  · exact congrArg some inspect_sample.2.2.2

theorem answerId_answerLine : answerId sampleCrates (.server answerLine) = some "1" := by
  refine answerId_server.mpr ⟨(Json.obj answerMembers).settle, ?_, ⟨rfl, Or.inl rfl⟩, ?_⟩
  · exact messageIn_eq_some.mpr
      ⟨trim_sample_ne_empty (by simp), ⟨answerMembers, rfl, rfl⟩, rfl⟩
  · exact congrArg some inspect_sample.2.2.2

theorem tracks_in_flight_answered_call :
    Tracks sampleCrates ⟨.guard, false⟩ none [.client callLine] ∧
      Tracks sampleCrates ⟨.guard, false⟩ none [.client callLine, .server answerLine] := by
  have hallowed := inspect_sample.2.1
  have hids : DistinctIds sampleCrates [.client callLine, .server answerLine] := by
    rw [DistinctIds, filterMap_cons_some requestId_callLine]
    exact pairwise_singleton _ "1"
  have hall := (@tracks_in_flight_iff _ ⟨.guard, false⟩ none _ hids).mpr ?_
  · exact ⟨hall _ ⟨_, rfl⟩, hall _ (prefix_refl _)⟩
  refine ⟨?_, ?_, trivial⟩
  · simp only [KeepsTrack, requestId_callLine]
    refine ⟨⟨_, isObjectText_call⟩, ?_⟩
    rintro ⟨-, members, hparse, -, -, hrefused⟩
    cases (show sampleCrates.parseJson callLine = some (.obj callMembers)
      from rfl).symm.trans hparse
    cases (congrArg Verdict.allowed hallowed).symm.trans hrefused
  · simp only [KeepsTrack, answerId_answerLine]
    exact Or.inl ⟨_, isObjectText_answer⟩

/-- A denied call is in the map, and nothing is in flight. -/
theorem denied_call_tracked :
    let M := proxyMachine sampleCrates ⟨.guard, false⟩ none
    DistinctIds sampleCrates [.client leakLine] ∧
    (M.exec M.init [.client leakLine] "1").isSome ∧
    (∀ key, ¬ InFlight sampleCrates ⟨.guard, false⟩ none [.client leakLine] key) ∧
    ¬ Tracks sampleCrates ⟨.guard, false⟩ none [.client leakLine] := by
  intro M
  have hblank : trim leakLine ≠ "" := trim_sample_ne_empty (by simp)
  have hrequest : requestId sampleCrates (.client leakLine) = some "1" :=
    requestId_client.mpr ⟨(Json.obj leakMembers).settle, "tools/call",
      messageIn_eq_some.mpr ⟨hblank, ⟨leakMembers, rfl, rfl⟩, rfl⟩, rfl,
      congrArg some inspect_sample.2.2.2⟩
  have honce : FieldsOnce sampleCrates leakLine := ⟨_, leakMembers, rfl, by decide, rfl⟩
  have hdenied : Denied sampleCrates ⟨.guard, false⟩ none leakLine :=
    ⟨rfl, leakMembers, rfl, rfl, rfl, inspect_sample.1⟩
  obtain ⟨huse, hforward⟩ := request_read ⟨.guard, false⟩ none hrequest honce M.init
  have htracked : (M.exec M.init [.client leakLine] "1").isSome :=
    (isSome_step_client M.init leakLine "1").mpr (Or.inr ((huse "1").mpr rfl))
  have hnone : ∀ key, ¬ InFlight sampleCrates ⟨.guard, false⟩ none [.client leakLine] key := by
    intro key hflight
    rcases (@inFlight_concat sampleCrates key ⟨.guard, false⟩ none [] _).mp hflight with h | h
    · exact hforward.mp h.2 hdenied
    · exact not_inFlight_nil key h.1
  refine ⟨?_, htracked, hnone, fun htracks => ?_⟩
  · rw [DistinctIds, filterMap_cons_some hrequest]
    exact pairwise_singleton _ "1"
  · exact hnone "1" ((tracks_iff.mp htracks "1").mp htracked)

end Innerwarden.Guard
