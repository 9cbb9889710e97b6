import Innerwarden.Lib.Json
import Innerwarden.Response.BlockTarget
import Innerwarden.Response.Lifecycle

/-!
# The lifecycle snapshot

The agent writes `to_snapshot` on every slow tick and reads it with `from_v2_content` when it
starts.  The decoder has match arms written by hand with a default for every text it does not
know.  `fromV2Content_toString` says what is read back: the lifecycle without the entries the
decoder skips.
-/

namespace Innerwarden

open List
open Json (index asStr asArray asU64 asI64)

/-! ## Encoding -/

/-- The serde tag of a backend. -/
def ResponseBackend.tag : ResponseBackend → String
  | .xdp => "xdp"
  | .ufw => "ufw"
  | .iptables => "iptables"
  | .nftables => "nftables"
  | .pf => "pf"
  | .cloudflare => "cloudflare"
  | .nginx => "nginx"
  | .container => "container"
  | .sudo => "sudo"

def ResponseType.tag : ResponseType → String
  | .blockIp => "block_ip"
  | .blockContainer => "block_container"
  | .suspendSudo => "suspend_sudo"
  | .rateLimitNginx => "rate_limit_nginx"
  | .killProcess => "kill_process"

def RevertTrigger.tag : RevertTrigger → String
  | .ttlExpired => "ttl_expired"
  | .manual => "manual"

/-- A state as serde writes it, with its name under `kind`. -/
def LifecycleState.toJson (chrono : Chrono) : LifecycleState → Json
  | .active => .obj [("kind", .str "active")]
  | .revertPending since trigger priorAttempts =>
    .obj [("kind", .str "revert_pending"),
      ("prior_attempts", .int priorAttempts),
      ("since", .str (chrono.serialize since)),
      ("trigger", .str trigger.tag)]
  | .revertFailed lastAttemptAt attempts lastError trigger =>
    .obj [("attempts", .int attempts),
      ("kind", .str "revert_failed"),
      ("last_attempt_at", .str (chrono.serialize lastAttemptAt)),
      ("last_error", .str lastError),
      ("trigger", .str trigger.tag)]

/-- An item of `active` in the snapshot. -/
def ActiveResponse.toSnapshot (chrono : Chrono) (r : ActiveResponse) : Json :=
  .obj [("backend", .str r.backend.tag),
    ("created_at", .str (chrono.toRfc3339 r.createdAt)),
    ("expires_at", .str (chrono.toRfc3339 r.expiresAt)),
    ("id", .str r.id),
    ("incident_id", .str r.incidentId),
    ("revert_handle", .ofOption r.revertHandle),
    ("state", r.state.toJson chrono),
    ("target", .str r.target),
    ("ttl_secs", .int r.ttlSecs),
    ("type", .str r.responseType.tag)]

/-- An item of `history` in the snapshot. -/
def CompletedResponse.toSnapshot (chrono : Chrono) (r : CompletedResponse) : Json :=
  .obj [("backend", .str r.backend.tag),
    ("created_at", .str (chrono.toRfc3339 r.createdAt)),
    ("id", .str r.id),
    ("incident_id", .str r.incidentId),
    ("reason", .str r.reason),
    ("reverted_at", .str (chrono.toRfc3339 r.revertedAt)),
    ("target", .str r.target),
    ("type", .str r.responseType.tag)]

/-- The counters of the snapshot. -/
def ResponseLifecycle.totals (lc : ResponseLifecycle) : Json :=
  .obj [("already_absent", .int lc.totalAlreadyAbsent),
    ("expired", .int lc.totalExpired),
    ("orphaned", .int lc.totalOrphaned),
    ("registered", .int lc.totalRegistered),
    ("revert_failures", .int lc.totalRevertFailures),
    ("reverted", .int lc.totalReverted)]

def ResponseLifecycle.toSnapshot (chrono : Chrono) (lc : ResponseLifecycle) : Json :=
  .obj [("active", .arr (lc.active.map (ActiveResponse.toSnapshot chrono))),
    ("history", .arr (lc.history.map (CompletedResponse.toSnapshot chrono))),
    ("next_id", .int lc.nextId),
    ("schema_version", .int 2),
    ("totals", lc.totals)]

/-! ## Decoding -/

def parseBackend (s : Option String) : ResponseBackend :=
  match s.getD "ufw" with
  | "xdp" => .xdp
  | "iptables" => .iptables
  | "nftables" => .nftables
  | "pf" => .pf
  | "cloudflare" => .cloudflare
  | "nginx" => .nginx
  | "container" => .container
  | "sudo" => .sudo
  | _ => .ufw

def parseResponseType (s : Option String) : ResponseType :=
  match s.getD "block_ip" with
  | "block_container" => .blockContainer
  | "suspend_sudo" => .suspendSudo
  | "rate_limit_nginx" => .rateLimitNginx
  | "kill_process" => .killProcess
  | _ => .blockIp

def parseTrigger (v : Option Json) : Option RevertTrigger :=
  match v.bind asStr with
  | some "ttl_expired" => some .ttlExpired
  | some "manual" => some .manual
  | _ => none

/-- An instant of the snapshot, or none if it is missing or not one. -/
def parseInstant (chrono : Chrono) (v : Option Json) : Option DateTime :=
  (v.bind asStr).bind chrono.fromStr

/-- `parse_state_from_json`.  The count is cut to 32 bits. -/
def parseStateFromJson (chrono : Chrono) (now : DateTime) (v : Json) : Option LifecycleState :=
  match (v.get "kind").bind asStr with
  | some "active" => some .active
  | some "revert_pending" =>
    some (.revertPending ((parseInstant chrono (v.get "since")).getD now)
      ((parseTrigger (v.get "trigger")).getD .ttlExpired)
      ((((v.get "prior_attempts").bind asU64).getD 0) % 2 ^ 32))
  | some "revert_failed" =>
    some (.revertFailed ((parseInstant chrono (v.get "last_attempt_at")).getD now)
      ((((v.get "attempts").bind asU64).getD 0) % 2 ^ 32)
      (((v.get "last_error").bind asStr).getD "")
      ((parseTrigger (v.get "trigger")).getD .ttlExpired))
  | _ => none

/-- One item of `active`.  An item without a target is skipped, and so is a block of
something that is not an address. -/
def activeFromJson (chrono : Chrono) (now : DateTime) (item : Json) : Option ActiveResponse :=
  let target := ((item.index "target").asStr).getD ""
  if target = "" then none
  else
    let responseType := parseResponseType (item.index "type").asStr
    if responseType = .blockIp ∧ isValidBlockTarget target = false then none
    else
      let createdAt := (parseInstant chrono (item.index "created_at")).getD now
      let ttlSecs := ((item.index "ttl_secs").asI64).getD 3600
      let expiresAt :=
        (parseInstant chrono (item.index "expires_at")).getD (createdAt + seconds ttlSecs)
      some ⟨((item.index "id").asStr).getD "", responseType,
        parseBackend (item.index "backend").asStr, target,
        ((item.index "incident_id").asStr).getD "", createdAt, ttlSecs, expiresAt,
        (item.index "revert_handle").asStr,
        (parseStateFromJson chrono now (item.index "state")).getD .active⟩

/-- One item of `history`. -/
def completedFromJson (chrono : Chrono) (now : DateTime) (item : Json) :
    Option CompletedResponse :=
  let target := ((item.index "target").asStr).getD ""
  if target = "" then none
  else
    some ⟨((item.index "id").asStr).getD "", parseResponseType (item.index "type").asStr,
      parseBackend (item.index "backend").asStr, target,
      ((item.index "incident_id").asStr).getD "",
      (parseInstant chrono (item.index "created_at")).getD now,
      (parseInstant chrono (item.index "reverted_at")).getD now,
      ((item.index "reason").asStr).getD "expired"⟩

/-- The counters, or those of the given lifecycle if the object has none. -/
def withTotals (lc : ResponseLifecycle) : Option Json → ResponseLifecycle
  | none => lc
  | some totals =>
    let total key := ((totals.index key).asU64).getD 0
    { lc with
      totalRegistered := total "registered"
      totalExpired := total "expired"
      totalReverted := total "reverted"
      totalRevertFailures := total "revert_failures"
      totalAlreadyAbsent := total "already_absent"
      totalOrphaned := total "orphaned" }

/-- `from_v2_content`.  The clock is read for the instants that are missing; one
reading stands for all. -/
def fromV2Content (codec : JsonCodec) (chrono : Chrono) (now : DateTime) (content : String) :
    Option ResponseLifecycle := do
  let json ← codec.fromStr content
  if (json.get "schema_version").bind asU64 ≠ some 2 then none
  else
    let active := ((json.index "active").asArray).getD []
    let history := ((json.index "history").asArray).getD []
    let lc := { ResponseLifecycle.new with
      active := active.filterMap (activeFromJson chrono now)
      history := history.filterMap (completedFromJson chrono now) }
    let lc := withTotals lc (json.get "totals")
    return { lc with nextId := ((json.index "next_id").asU64).getD 1 }

/-! ## What is read back -/

def LifecycleState.instants : LifecycleState → List DateTime
  | .active => []
  | .revertPending since _ _ => [since]
  | .revertFailed lastAttemptAt _ _ _ => [lastAttemptAt]

def ActiveResponse.instants (r : ActiveResponse) : List DateTime :=
  [r.createdAt, r.expiresAt] ++ r.state.instants

def ResponseLifecycle.instants (lc : ResponseLifecycle) : List DateTime :=
  lc.active.flatMap ActiveResponse.instants ++
    lc.history.flatMap fun r => [r.createdAt, r.revertedAt]

/-- The count of a state fits a `u32`. -/
def LifecycleState.Fits : LifecycleState → Prop
  | .active => True
  | .revertPending _ _ priorAttempts => priorAttempts < 2 ^ 32
  | .revertFailed _ attempts _ _ => attempts < 2 ^ 32

instance : (st : LifecycleState) → Decidable st.Fits
  | .active => inferInstanceAs (Decidable True)
  | .revertPending _ _ priorAttempts => inferInstanceAs (Decidable (priorAttempts < 2 ^ 32))
  | .revertFailed _ attempts _ _ => inferInstanceAs (Decidable (attempts < 2 ^ 32))

/-- The numbers of a lifecycle fit the machine types of the source. -/
structure ResponseLifecycle.Fits (lc : ResponseLifecycle) : Prop where
  ttlSecs : ∀ r ∈ lc.active, -2 ^ 63 ≤ r.ttlSecs ∧ r.ttlSecs < 2 ^ 63
  state : ∀ r ∈ lc.active, r.state.Fits
  nextId : lc.nextId < 2 ^ 64
  totalRegistered : lc.totalRegistered < 2 ^ 64
  totalExpired : lc.totalExpired < 2 ^ 64
  totalReverted : lc.totalReverted < 2 ^ 64
  totalRevertFailures : lc.totalRevertFailures < 2 ^ 64
  totalAlreadyAbsent : lc.totalAlreadyAbsent < 2 ^ 64
  totalOrphaned : lc.totalOrphaned < 2 ^ 64

@[simp] theorem parseBackend_tag (b : ResponseBackend) : parseBackend (some b.tag) = b := by
  cases b <;> rfl

@[simp] theorem parseResponseType_tag (t : ResponseType) :
    parseResponseType (some t.tag) = t := by
  cases t <;> rfl

@[simp] theorem parseTrigger_tag (t : RevertTrigger) :
    parseTrigger (some (.str t.tag)) = some t := by
  cases t <;> rfl

theorem parseInstant_toRfc3339 {chrono : Chrono} {t : DateTime} (h : chrono.Reads t) :
    parseInstant chrono (some (.str (chrono.toRfc3339 t))) = some t := h.1

theorem parseInstant_serialize {chrono : Chrono} {t : DateTime} (h : chrono.Reads t) :
    parseInstant chrono (some (.str (chrono.serialize t))) = some t := h.2

/-- A state is read back. -/
theorem parseStateFromJson_toJson {chrono : Chrono} (now : DateTime) {st : LifecycleState}
    (hfits : st.Fits) (hreads : ∀ t ∈ st.instants, chrono.Reads t) :
    parseStateFromJson chrono now (st.toJson chrono) = some st := by
  cases st with
  | active => rfl
  | revertPending since trigger priorAttempts =>
    have hlt : priorAttempts < 2 ^ 32 := hfits
    have hcount : (Json.int priorAttempts).asU64 = some priorAttempts :=
      Json.asU64_natCast (by omega)
    have hsince := parseInstant_serialize (hreads since (mem_singleton_self _))
    simpa [parseStateFromJson, LifecycleState.toJson, Json.get, List.lookup, hcount, hsince]
      using hlt
  | revertFailed lastAttemptAt attempts lastError trigger =>
    have hlt : attempts < 2 ^ 32 := hfits
    have hcount : (Json.int attempts).asU64 = some attempts :=
      Json.asU64_natCast (by omega)
    have hlast := parseInstant_serialize (hreads lastAttemptAt (mem_singleton_self _))
    simpa [parseStateFromJson, LifecycleState.toJson, Json.get, List.lookup, hcount, hlast]
      using hlt

/-- The decoder keeps the entry: it has a target, which can be blocked if it is to be. -/
def ActiveResponse.loads (r : ActiveResponse) : Bool :=
  r.target ≠ "" && (r.responseType ≠ .blockIp || isValidBlockTarget r.target)

def CompletedResponse.loads (r : CompletedResponse) : Bool := r.target ≠ ""

theorem activeFromJson_toSnapshot {chrono : Chrono} (now : DateTime) {r : ActiveResponse}
    (httl : -2 ^ 63 ≤ r.ttlSecs ∧ r.ttlSecs < 2 ^ 63) (hstate : r.state.Fits)
    (hreads : ∀ t ∈ r.instants, chrono.Reads t) :
    activeFromJson chrono now (r.toSnapshot chrono) = Option.guard ActiveResponse.loads r := by
  have hcreated := parseInstant_toRfc3339 (hreads r.createdAt (by simp [ActiveResponse.instants]))
  have hexpires := parseInstant_toRfc3339 (hreads r.expiresAt (by simp [ActiveResponse.instants]))
  have hst := parseStateFromJson_toJson now hstate fun t ht =>
    hreads t (mem_append_right _ ht)
  have hread : activeFromJson chrono now (r.toSnapshot chrono) =
      if r.target = "" then none
      else if r.responseType = .blockIp ∧ isValidBlockTarget r.target = false then none
      else some r := by
    simp [activeFromJson, ActiveResponse.toSnapshot, Json.index, Json.get, List.lookup, hcreated,
      hexpires, hst, Json.asI64_int httl]
  rw [hread, Option.guard, ActiveResponse.loads]
  by_cases htarget : r.target = ""
  · simp [htarget]
  · by_cases hinvalid : r.responseType = .blockIp ∧ isValidBlockTarget r.target = false
    · simp [htarget, hinvalid]
    · have hvalid : r.responseType = .blockIp → isValidBlockTarget r.target = true := by
        simpa using hinvalid
      by_cases hty : r.responseType = .blockIp
      · simp [htarget, hvalid hty]
      · simp [htarget, hty]

theorem completedFromJson_toSnapshot {chrono : Chrono} (now : DateTime) {r : CompletedResponse}
    (hcreated : chrono.Reads r.createdAt) (hreverted : chrono.Reads r.revertedAt) :
    completedFromJson chrono now (r.toSnapshot chrono) =
      Option.guard CompletedResponse.loads r := by
  have hc := parseInstant_toRfc3339 hcreated
  have hr := parseInstant_toRfc3339 hreverted
  by_cases htarget : r.target = "" <;>
    simp [completedFromJson, CompletedResponse.toSnapshot, Json.index, Json.get, List.lookup, hc,
      hr, Option.guard, CompletedResponse.loads, htarget]

/-- What survives a restart: the lifecycle without the entries and records the
decoder skips. -/
def ResponseLifecycle.loaded (lc : ResponseLifecycle) : ResponseLifecycle :=
  { lc with
    active := lc.active.filter ActiveResponse.loads
    history := lc.history.filter CompletedResponse.loads }

section RoundTrip

variable {codec : JsonCodec} {chrono : Chrono} {lc : ResponseLifecycle}

theorem filterMap_activeFromJson (now : DateTime) (hfits : lc.Fits)
    (hreads : ∀ t ∈ lc.instants, chrono.Reads t) :
    (lc.active.map (ActiveResponse.toSnapshot chrono)).filterMap (activeFromJson chrono now) =
      lc.active.filter ActiveResponse.loads := by
  rw [filterMap_map, ← filterMap_eq_filter]
  refine filterMap_congr fun r hr => ?_
  refine activeFromJson_toSnapshot now (hfits.ttlSecs r hr) (hfits.state r hr) fun t ht => ?_
  exact hreads t (mem_append_left _ (mem_flatMap.mpr ⟨r, hr, ht⟩))

theorem filterMap_completedFromJson (now : DateTime)
    (hreads : ∀ t ∈ lc.instants, chrono.Reads t) :
    (lc.history.map (CompletedResponse.toSnapshot chrono)).filterMap
        (completedFromJson chrono now) =
      lc.history.filter CompletedResponse.loads := by
  rw [filterMap_map, ← filterMap_eq_filter]
  refine filterMap_congr fun r hr => ?_
  have hmem : ∀ t ∈ [r.createdAt, r.revertedAt], t ∈ lc.instants := fun t ht =>
    mem_append_right _ (mem_flatMap.mpr ⟨r, hr, ht⟩)
  exact completedFromJson_toSnapshot now (hreads _ (hmem _ (by simp))) (hreads _ (hmem _ (by simp)))

theorem withTotals_totals (base : ResponseLifecycle) (hfits : lc.Fits) :
    withTotals base (some lc.totals) =
      { base with
        totalRegistered := lc.totalRegistered
        totalExpired := lc.totalExpired
        totalReverted := lc.totalReverted
        totalRevertFailures := lc.totalRevertFailures
        totalAlreadyAbsent := lc.totalAlreadyAbsent
        totalOrphaned := lc.totalOrphaned } := by
  simp [withTotals, ResponseLifecycle.totals, Json.index, Json.get, List.lookup,
    Json.asU64_natCast hfits.totalRegistered, Json.asU64_natCast hfits.totalExpired,
    Json.asU64_natCast hfits.totalReverted, Json.asU64_natCast hfits.totalRevertFailures,
    Json.asU64_natCast hfits.totalAlreadyAbsent, Json.asU64_natCast hfits.totalOrphaned]

theorem fromV2Content_toString (now : DateTime) (hfits : lc.Fits)
    (hreads : ∀ t ∈ lc.instants, chrono.Reads t) (hjson : codec.Reads (lc.toSnapshot chrono)) :
    fromV2Content codec chrono now (codec.toString (lc.toSnapshot chrono)) = some lc.loaded := by
  have hversion : (Json.int 2).asU64 = some 2 := rfl
  have hactive := filterMap_activeFromJson now hfits hreads
  have hhistory := filterMap_completedFromJson now hreads
  rw [fromV2Content, hjson]
  simp [ResponseLifecycle.toSnapshot, Json.index, Json.get, List.lookup, hversion,
    withTotals_totals _ hfits, Json.asU64_natCast hfits.nextId, hactive, hhistory,
    ResponseLifecycle.loaded]

end RoundTrip

/-- A snapshot that is written and read again is the lifecycle it was made of, when
every entry and record has a target and every blocked one is an address or a
network. -/
theorem snapshot_round_trip (codec : JsonCodec) (chrono : Chrono) (now : DateTime)
    (lc : ResponseLifecycle) (hfits : lc.Fits) (hactive : ∀ r ∈ lc.active, r.target ≠ "")
    (hhistory : ∀ r ∈ lc.history, r.target ≠ "")
    (hvalid : ∀ r ∈ lc.active, r.responseType = .blockIp → isValidBlockTarget r.target = true)
    (hreads : ∀ t ∈ lc.instants, chrono.Reads t) (hjson : codec.Reads (lc.toSnapshot chrono)) :
    fromV2Content codec chrono now (codec.toString (lc.toSnapshot chrono)) = some lc := by
  have hkeep : lc.active.filter ActiveResponse.loads = lc.active := by
    refine filter_eq_self.mpr fun r hr => ?_
    have hv := hvalid r hr
    simp only [ActiveResponse.loads, ne_eq, hactive r hr, not_false_eq_true, decide_true,
      Bool.true_and, Bool.or_eq_true, decide_eq_true_eq]
    exact or_iff_not_imp_left.mpr fun hty => hv (not_not.mp hty)
  have hkeep' : lc.history.filter CompletedResponse.loads = lc.history :=
    filter_eq_self.mpr fun r hr => decide_eq_true (hhistory r hr)
  rw [fromV2Content_toString now hfits hreads hjson, ResponseLifecycle.loaded, hkeep, hkeep']

/-- `serde_json` on the text of one value. -/
def sampleCodec (v : Json) : JsonCodec where
  formatF64 _ := ""
  formatF32 _ := ""
  fromStr s := if s = v.toText (fun _ => "") then some v else none

theorem sampleCodec_reads (v : Json) : (sampleCodec v).Reads v := if_pos rfl

/-- A lifecycle with a failed revert, a suspended user and an expired block. -/
def sampleLifecycle : ResponseLifecycle where
  active :=
    [⟨"resp-2", .blockIp, .xdp, "203.0.113.7/32", "inc-2", seconds 1777680000, 3600,
       seconds 1777683600, some "handle-7",
       .revertFailed (seconds 1777687200) 1 "exit 4" .ttlExpired⟩,
     ⟨"resp-3", .suspendSudo, .sudo, "mallory", "inc-3", seconds 1777683600, 3600,
       seconds 1777687200, none, .active⟩]
  history :=
    [⟨"resp-1", .blockIp, .ufw, "198.51.100.4", "inc-1", seconds 1777680000, seconds 1777683600,
       "expired"⟩]
  nextId := 4
  totalRegistered := 3
  totalReverted := 0
  totalExpired := 1
  totalRevertFailures := 1
  totalAlreadyAbsent := 0
  totalOrphaned := 0

theorem snapshot_round_trip_sampleLifecycle :
    let snapshot := sampleLifecycle.toSnapshot sampleChrono
    fromV2Content (sampleCodec snapshot) sampleChrono 0 ((sampleCodec snapshot).toString snapshot) =
      some sampleLifecycle :=
  snapshot_round_trip _ _ _ _
    ⟨by decide, by decide, by decide, by decide, by decide, by decide, by decide, by decide,
      by decide⟩
    (by decide) (by decide) (by decide) (by decide) (sampleCodec_reads _)

end Innerwarden
