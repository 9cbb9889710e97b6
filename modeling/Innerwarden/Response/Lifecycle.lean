import Mathlib
import Innerwarden.Lib.StateMachine
import Innerwarden.Lib.Text
import Innerwarden.Time

/-!
# The response lifecycle

`crates/agent/src/response_lifecycle.rs`.  A response (a blocked address, a paused container, a
suspended sudo right) is registered with a time to live.  When that is over, or on request, a
revert command is issued for it.  The caller runs the command and reports the outcome.

* `Active` becomes `RevertPending` when the revert is issued.
* A confirmed revert, or one that fails because the rule was gone, moves the entry from `active`
  to `history`.
* Any other failure makes the entry `RevertFailed`, to be issued again, and after
  `maxRevertAttempts` failures moves it to `history` as orphaned.

Every operation takes the clock value it reads as an argument.  The counters are natural
numbers.  `verified_live`, which only the dashboard reads, is left out.
-/

namespace Innerwarden

open Text

def maxRevertAttempts : Nat := 3

/-- The tool that applied a response. -/
inductive ResponseBackend where
  | xdp
  | ufw
  | iptables
  | nftables
  | pf
  | cloudflare
  | nginx
  | container
  | sudo
deriving DecidableEq

/-- The kind of a response. -/
inductive ResponseType where
  | blockIp
  | blockContainer
  | suspendSudo
  | rateLimitNginx
  | killProcess
deriving DecidableEq

/-- Why a revert was issued. -/
inductive RevertTrigger where
  | ttlExpired
  | manual
deriving DecidableEq

/-- Where a tracked response stands. -/
inductive LifecycleState where
  | active
  | revertPending (since : DateTime) (trigger : RevertTrigger) (priorAttempts : Nat)
  | revertFailed (lastAttemptAt : DateTime) (attempts : Nat) (lastError : String)
      (trigger : RevertTrigger)
deriving DecidableEq

/-- A tracked response. -/
structure ActiveResponse where
  id : String
  responseType : ResponseType
  backend : ResponseBackend
  target : String
  incidentId : String
  createdAt : DateTime
  ttlSecs : Int
  expiresAt : DateTime
  revertHandle : Option String
  state : LifecycleState

/-- A revert command to run. -/
structure RevertAction where
  id : String
  backend : ResponseBackend
  target : String
  revertHandle : Option String

/-- What a reported failure led to. -/
inductive FailureOutcome where
  | alreadyAbsent
  | retrying (attempt : Nat)
  | orphaned (backend : ResponseBackend) (target lastError : String) (trigger : RevertTrigger)
  | unknownId
deriving DecidableEq

/-- A response that is over. -/
structure CompletedResponse where
  id : String
  responseType : ResponseType
  backend : ResponseBackend
  target : String
  incidentId : String
  createdAt : DateTime
  revertedAt : DateTime
  reason : String

/-- The lifecycle manager. -/
structure ResponseLifecycle where
  active : List ActiveResponse
  history : List CompletedResponse
  nextId : Nat
  totalRegistered : Nat
  totalReverted : Nat
  totalExpired : Nat
  totalRevertFailures : Nat
  totalAlreadyAbsent : Nat
  totalOrphaned : Nat

def ResponseLifecycle.new : ResponseLifecycle := ⟨[], [], 1, 0, 0, 0, 0, 0, 0⟩

/-! ## Classifying a revert error -/

/-- The two kinds of revert errors. -/
inductive ErrorKind where
  | alreadyAbsent
  | transient
deriving DecidableEq

def absentMarkers : List String :=
  ["no such", "not found", "does not exist", "doesn't exist", "non-existent", "nonexistent",
   "no chain/target/match", "matching rule exist", "rule does not exist"]

/-- `str::to_lowercase` on the letters the markers are made of.  Letters outside
ASCII become text outside ASCII, `K` (Kelvin) and `İ` apart, which become `k` and
`i` with a combining dot.  No marker holds a `k` or ends in `i`, so leaving them
alone finds the same markers. -/
def toLowercase (s : String) : String := String.ofList (s.toList.map Char.toLower)

def classifyRevertError (err : String) : ErrorKind :=
  let lower := toLowercase err
  if absentMarkers.any fun m => contains lower m then .alreadyAbsent else .transient

/-! ## Entries -/

/-- The id of the `n`-th response. -/
def responseId (n : Nat) : String := "resp-" ++ toString n

theorem responseId_inj {m n : Nat} (h : responseId m = responseId n) : m = n := by
  have chars := congrArg String.toList h
  rw [responseId, responseId, String.toList_append, String.toList_append] at chars
  exact Nat.repr_inj.mp (String.toList_inj.mp (List.append_cancel_left chars))

def ActiveResponse.revertAction (e : ActiveResponse) : RevertAction :=
  ⟨e.id, e.backend, e.target, e.revertHandle⟩

def ActiveResponse.complete (e : ActiveResponse) (now : DateTime) (reason : String) :
    CompletedResponse :=
  ⟨e.id, e.responseType, e.backend, e.target, e.incidentId, e.createdAt, now, reason⟩

def setState (id : String) (state : LifecycleState) : List ActiveResponse → List ActiveResponse
  | [] => []
  | e :: es => if e.id = id then { e with state := state } :: es else e :: setState id state es

def removeEntry (id : String) : List ActiveResponse → List ActiveResponse
  | [] => []
  | e :: es => if e.id = id then es else e :: removeEntry id es

def findEntry (id : String) (es : List ActiveResponse) : Option ActiveResponse :=
  es.find? fun e => e.id = id

def capHistory (history : List CompletedResponse) : List CompletedResponse :=
  history.drop (history.length - 1000)

namespace ResponseLifecycle

/-! ## Operations -/

/-- `register`.  The assertion on duplicate targets is checked in debug builds only. -/
def register (lc : ResponseLifecycle) (now : DateTime) (responseType : ResponseType)
    (backend : ResponseBackend) (target incidentId : String) (ttlSecs : Int)
    (revertHandle : Option String) : ResponseLifecycle × String :=
  let id := responseId lc.nextId
  let response : ActiveResponse :=
    ⟨id, responseType, backend, target, incidentId, now, ttlSecs, now + seconds ttlSecs,
      revertHandle, .active⟩
  ({ lc with
      active := lc.active ++ [response]
      nextId := lc.nextId + 1
      totalRegistered := lc.totalRegistered + 1 }, id)

/-- The state `stage_pending_reverts` moves an entry to, if it issues its revert. -/
def nextState (now : DateTime) (e : ActiveResponse) : Option LifecycleState :=
  match e.state with
  | .active => if now > e.expiresAt then some (.revertPending now .ttlExpired 0) else none
  | .revertFailed _ attempts _ trigger =>
    if attempts < maxRevertAttempts then some (.revertPending now trigger attempts) else none
  | .revertPending .. => none

def stageEntry (now : DateTime) (e : ActiveResponse) : ActiveResponse :=
  match nextState now e with
  | some next => { e with state := next }
  | none => e

def stageAction (now : DateTime) (e : ActiveResponse) : Option RevertAction :=
  (nextState now e).map fun _ => e.revertAction

def stagePendingReverts (lc : ResponseLifecycle) (now : DateTime) :
    ResponseLifecycle × List RevertAction :=
  ({ lc with
      active := lc.active.map (stageEntry now)
      history := capHistory lc.history },
   lc.active.filterMap (stageAction now))

/-- `request_manual_revert`.  A revert that is in flight is not issued again. -/
def requestManualRevert (lc : ResponseLifecycle) (now : DateTime) (id : String) :
    ResponseLifecycle × Option RevertAction :=
  match findEntry id lc.active with
  | none => (lc, none)
  | some e =>
    match e.state with
    | .revertPending .. => (lc, none)
    | .revertFailed _ attempts _ _ =>
      ({ lc with active := setState id (.revertPending now .manual attempts) lc.active },
       some e.revertAction)
    | .active =>
      ({ lc with active := setState id (.revertPending now .manual 0) lc.active },
       some e.revertAction)

def revertTrigger : LifecycleState → RevertTrigger
  | .revertPending _ trigger _ => trigger
  | .revertFailed _ _ _ trigger => trigger
  | .active => .ttlExpired

def priorAttempts : LifecycleState → Nat
  | .revertPending _ _ priorAttempts => priorAttempts
  | .revertFailed _ attempts _ _ => attempts
  | .active => 0

/-- `mark_reverted`.  An unknown id is only logged. -/
def markReverted (lc : ResponseLifecycle) (now : DateTime) (id reason : String) :
    ResponseLifecycle :=
  match findEntry id lc.active with
  | none => lc
  | some e =>
    let lc := match revertTrigger e.state with
      | .ttlExpired => { lc with totalExpired := lc.totalExpired + 1 }
      | .manual => { lc with totalReverted := lc.totalReverted + 1 }
    { lc with
      active := removeEntry id lc.active
      history := capHistory (lc.history ++ [e.complete now reason])
      totalAlreadyAbsent :=
        if reason = "already_absent" then lc.totalAlreadyAbsent + 1 else lc.totalAlreadyAbsent }

/-- A failed attempt is counted, and tried again or given up. -/
def markRevertFailed (lc : ResponseLifecycle) (now : DateTime) (id error : String) :
    ResponseLifecycle × FailureOutcome :=
  let lc := { lc with totalRevertFailures := lc.totalRevertFailures + 1 }
  match findEntry id lc.active with
  | none => (lc, .unknownId)
  | some e =>
    match classifyRevertError error with
    | .alreadyAbsent => (lc.markReverted now id "already_absent", .alreadyAbsent)
    | .transient =>
      let trigger := revertTrigger e.state
      let newAttempts := priorAttempts e.state + 1
      if newAttempts ≥ maxRevertAttempts then
        ({ lc with
            active := removeEntry id lc.active
            history := capHistory (lc.history ++ [e.complete now ("orphaned: " ++ error)])
            totalOrphaned := lc.totalOrphaned + 1 },
         .orphaned e.backend e.target error trigger)
      else
        ({ lc with
            active := setState id (.revertFailed now newAttempts error trigger) lc.active },
         .retrying newAttempts)

/-- `gc_orphaned_responses`: prune the orphaned records older than the given age,
and say how many. -/
def gcOrphanedResponses (lc : ResponseLifecycle) (now : DateTime) (olderThanSecs : Int) :
    ResponseLifecycle × Nat :=
  let cutoff := now - seconds olderThanSecs
  let history := lc.history.filter fun r =>
    !startsWith r.reason "orphaned:" || decide (r.revertedAt > cutoff)
  ({ lc with history := history }, lc.history.length - history.length)

end ResponseLifecycle

/-! ## Runs -/

/-- An operation on the lifecycle. -/
inductive LifecycleOp where
  | register (responseType : ResponseType) (backend : ResponseBackend)
      (target incidentId : String) (ttlSecs : Int) (revertHandle : Option String)
  | stagePendingReverts
  | requestManualRevert (id : String)
  | markReverted (id reason : String)
  | markRevertFailed (id error : String)
  | gcOrphanedResponses (olderThanSecs : Int)

/-- What an operation returns. -/
inductive LifecycleAnswer where
  | registered (id : String)
  | staged (actions : List RevertAction)
  | requested (action : Option RevertAction)
  | reverted
  | failed (outcome : FailureOutcome)
  | pruned (count : Nat)

def LifecycleAnswer.actions : LifecycleAnswer → List RevertAction
  | .staged actions => actions
  | .requested action => action.toList
  | _ => []

/-- One operation at a clock value. -/
def ResponseLifecycle.step (lc : ResponseLifecycle) :
    DateTime × LifecycleOp → ResponseLifecycle × LifecycleAnswer
  | (now, .register ty backend target incidentId ttlSecs handle) =>
    let (lc, id) := lc.register now ty backend target incidentId ttlSecs handle
    (lc, .registered id)
  | (now, .stagePendingReverts) =>
    let (lc, actions) := lc.stagePendingReverts now
    (lc, .staged actions)
  | (now, .requestManualRevert id) =>
    let (lc, action) := lc.requestManualRevert now id
    (lc, .requested action)
  | (now, .markReverted id reason) => (lc.markReverted now id reason, .reverted)
  | (now, .markRevertFailed id error) =>
    let (lc, outcome) := lc.markRevertFailed now id error
    (lc, .failed outcome)
  | (now, .gcOrphanedResponses olderThanSecs) =>
    let (lc, count) := lc.gcOrphanedResponses now olderThanSecs
    (lc, .pruned count)

/-- The lifecycle under its operations, at any clock values. -/
def lifecycleMachine : StateMachine ResponseLifecycle (DateTime × LifecycleOp) LifecycleAnswer where
  init := .new
  step := ResponseLifecycle.step

end Innerwarden
