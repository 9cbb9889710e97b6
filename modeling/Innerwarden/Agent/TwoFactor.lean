import Mathlib.Algebra.Order.Ring.Int
import Innerwarden.Lib.EventWindow
import Innerwarden.Lib.IpAddr
import Innerwarden.Lib.StateMachine
import Innerwarden.Lib.Text
import Innerwarden.Time

/-!
# The second factor

`crates/agent/src/two_factor.rs` and the gate in `crates/agent/src/bot_helpers.rs`.
`check2faGate` stores a requested action and asks for a code.  `handleTotpResponse` takes the
stored action, verifies the code, and then executes the action, or records a failure and stores
the action again unless the operator is now locked out.

The limit is checked where an action is stored and not where a code is verified.  `Effect` says
what a call can do to one operator.  `Inv` carries the limit to the codes: an operator with a
stored action has fewer than three failures in the last hour.

* `second_factor_bounded`: the wrong codes of an hour, and what an executed action had.
* `code_replay_bounded`: for how long, and for what, the code of a time step is accepted again.

HMAC-SHA1 and base 32 are parameters.  A call reads the clock once.
-/

namespace Innerwarden.TwoFactor

open EventWindow StateMachine Text List

def minutes (n : Nat) : Int := seconds (60 * n)

/-! ## Codes -/

/-- The parts of `TotpProvider` that compute. -/
structure Totp where
  base32Decode : String → Option (List UInt8)
  /-- The code of a secret in a time step. -/
  generateCode : List UInt8 → UInt64 → UInt32

def isSixDigits (text : String) : Bool := text.utf8ByteSize = 6 && text.toList.all Char.isDigit

/-- `TotpProvider::new`: a decoded secret of at least ten bytes. -/
def Totp.new (totp : Totp) (secretBase32 : String) : Option (List UInt8) :=
  (totp.base32Decode secretBase32).filter fun secret => 10 ≤ secret.length

/-- `TotpProvider::verify` at the instant `now`. -/
def Totp.verify (totp : Totp) (secret : List UInt8) (now : DateTime) (code : String) : Bool :=
  let code := trim code
  if isSixDigits code then
    match parseU32 code with
    | some userCode =>
      let timeStep : Int := now.toNat / 1000000000 / 30
      [0, -1, 1].any fun offset =>
        (totp.generateCode secret (UInt64.ofInt (timeStep + offset))).toNat = userCode
    | none => false
  else false

/-! ## The configuration -/

/-- The settings of the second factor. -/
structure SecurityConfig where
  twoFactorMethod : String
  totpSecret : String

/-- What the two functions read of the configuration and the environment. -/
structure Config where
  security : Option SecurityConfig
  /-- `INNERWARDEN_TOTP_SECRET`. -/
  envSecret : Option String

def Config.is2faEnabled (cfg : Config) : Bool :=
  (cfg.security.map fun s => s.twoFactorMethod == "totp").getD false

def Config.totpSecret (cfg : Config) : Option String :=
  (cfg.envSecret.or (cfg.security.map SecurityConfig.totpSecret)).filter fun s => s ≠ ""

/-! ## Pending actions and failures -/

/-- The actions that ask for a code. -/
inductive PendingActionType where
  | allowlistProcess (name : String)
  | allowlistIp (ip : String)
  | undoAllowlist (sec key : String)
  | autoFpAllowlist (sec entity : String)
  | modeChange (mode : String)
  | unblock (ip : String)
deriving DecidableEq

/-- An action that waits for its code. -/
structure PendingAction where
  actionType : PendingActionType
  operator : String
  createdAt : DateTime
  expiresAt : DateTime

/-- `TwoFactorState`.  An operator without a record has no failures. -/
structure TwoFactorState where
  pending : String → Option PendingAction
  failedAttempts : String → List DateTime
  maxFailuresPerHour : Nat

namespace TwoFactorState

def new : TwoFactorState where
  pending _ := none
  failedAttempts _ := []
  maxFailuresPerHour := 3

def isLockedOut (s : TwoFactorState) (now : DateTime) (operator : String) : Bool :=
  s.maxFailuresPerHour ≤ ((s.failedAttempts operator).filter fun t => now - hours 1 < t).length

def recordFailure (s : TwoFactorState) (now : DateTime) (operator : String) : TwoFactorState :=
  let attempts := s.failedAttempts operator ++ [now]
  { s with
    failedAttempts := Function.update s.failedAttempts operator
      (attempts.filter fun t => now - hours 1 < t) }

def setPending (s : TwoFactorState) (operator : String) (action : PendingAction) :
    TwoFactorState :=
  { s with pending := Function.update s.pending operator (some action) }

def takePending (s : TwoFactorState) (operator : String) :
    TwoFactorState × Option PendingAction :=
  ({ s with pending := Function.update s.pending operator none }, s.pending operator)

def cleanupExpired (s : TwoFactorState) (now : DateTime) : TwoFactorState :=
  { s with
    pending := fun operator => (s.pending operator).filter fun a => now < a.expiresAt
    failedAttempts := fun operator =>
      (s.failedAttempts operator).filter fun t => now - hours 1 < t }

end TwoFactorState

/-! ## The gate and the answer to it -/

/-- What a call does that the limits are about. -/
inductive Event where
  | stored (operator : String) (action : PendingActionType) (time : DateTime)
  | wrong (operator : String) (time : DateTime)
  | executed (operator : String) (action : PendingActionType) (code : String) (time : DateTime)
deriving DecidableEq

/-- What a call returns, the message it sends, and its event. -/
structure Answer where
  handled : Bool
  reply : Option String := none
  event : Option Event := none

/-- An action is run at once or kept for a code. -/
def check2faGate (cfg : Config) (now : DateTime) (s : TwoFactorState) (operator : String)
    (action : PendingActionType) : TwoFactorState × Answer :=
  if !cfg.is2faEnabled then (s, { handled := false })
  else if s.isLockedOut now operator then
    (s, { handled := true
          reply := some "🚫 Too many failed 2FA attempts. Try again later." })
  else
    (s.setPending operator ⟨action, operator, now, now + minutes 5⟩,
      { handled := true
        reply := some "🔐 Enter your 6-digit TOTP code (expires in 5 min):"
        event := some (.stored operator action now) })

/-- A text of the operator, read as a code. -/
def handleTotpResponse (totp : Totp) (cfg : Config) (now : DateTime) (s : TwoFactorState)
    (operator message : String) : TwoFactorState × Answer :=
  let text := trim message
  if text = "/cancel" then
    match s.takePending operator with
    | (s, some _) => (s, { handled := true, reply := some "❌ 2FA verification cancelled." })
    | (s, none) => (s, { handled := false })
  else if !isSixDigits text then (s, { handled := false })
  else
    match s.takePending operator with
    | (s, none) => (s, { handled := false })
    | (s, some pending) =>
      if pending.expiresAt < now then
        (s, { handled := true, reply := some "⏰ 2FA code expired. Please retry the action." })
      else
        match cfg.totpSecret with
        | none =>
          (s, { handled := true
                reply := some ("⚠️ 2FA is enabled but no TOTP secret is configured. " ++
                  "Run: innerwarden configure 2fa") })
        | some secret =>
          match totp.new secret with
          | none =>
            (s, { handled := true
                  reply := some ("⚠️ Invalid TOTP secret. " ++
                    "Re-run: innerwarden configure 2fa") })
          | some provider =>
            if !totp.verify provider now text then
              let s := s.recordFailure now operator
              if s.isLockedOut now operator then
                (s, { handled := true
                      reply := some "❌ Wrong code. You are now locked out for 1 hour."
                      event := some (.wrong operator now) })
              else
                (s.setPending operator pending,
                  { handled := true
                    reply := some "❌ Wrong code. Try again or /cancel."
                    event := some (.wrong operator now) })
            else
              (s, { handled := true
                    event := some (.executed operator pending.actionType text now) })

/-! ## Runs -/

/-- A call, some time after the one before it. -/
inductive Op where
  | gate (after : Nat) (operator : String) (action : PendingActionType)
  | response (after : Nat) (operator message : String)
  | cleanup (after : Nat)

def Op.after : Op → Nat
  | .gate after _ _ => after
  | .response after _ _ => after
  | .cleanup after => after

/-- The state and the clock. -/
structure Clocked where
  state : TwoFactorState
  now : DateTime

/-- The agent, from its start. -/
def machine (totp : Totp) (cfg : Config) (start : DateTime) : StateMachine Clocked Op Answer where
  init := ⟨.new, start⟩
  step s op :=
    let now := s.now + op.after
    let result :=
      match op with
      | .gate _ operator action => check2faGate cfg now s.state operator action
      | .response _ operator message => handleTotpResponse totp cfg now s.state operator message
      | .cleanup _ => (s.state.cleanupExpired now, { handled := true })
    (⟨result.1, now⟩, result.2)

def events (answers : List Answer) : List Event := answers.filterMap Answer.event

def wrongTimes (operator : String) (es : List Event) : List DateTime :=
  es.filterMap fun
    | .wrong o time => if o = operator then some time else none
    | _ => none

def accepts (totp : Totp) (cfg : Config) (now : DateTime) (code : String) : Bool :=
  match cfg.totpSecret.bind totp.new with
  | some secret => totp.verify secret now code
  | none => false

/-- The event stores or executes an action of the operator. -/
def Event.Replaces (operator : String) : Event → Prop
  | .stored o _ _ => o = operator
  | .executed o _ _ _ => o = operator
  | .wrong _ _ => False

/-- The last of the operator's actions to be stored, none executed since. -/
def Requested (operator : String) (action : PendingActionType) (time : DateTime)
    (es : List Event) : Prop :=
  ∃ before after, es = before ++ .stored operator action time :: after ∧
    ∀ e ∈ after, ¬ e.Replaces operator

/-- What was executed for the operator was requested, in time, with an accepted code. -/
def Authorised (totp : Totp) (cfg : Config) (operator : String) (es : List Event) : Prop :=
  ∀ before action code time after, es = before ++ .executed operator action code time :: after →
    ∃ requested, Requested operator action requested before ∧ time ≤ requested + minutes 5 ∧
      accepts totp cfg time code = true

/-! ## What a call can do to one operator -/

def lastHour (now : DateTime) (failures : List DateTime) : List DateTime :=
  failures.filter fun t => now - hours 1 < t

/-- The effect of a call at the instant `now` on one operator's state. -/
inductive Effect (totp : Totp) (cfg : Config) (operator : String) (now : DateTime)
    (s s' : TwoFactorState) : Option Event → Prop where
  /-- The action may be dropped, and old failures forgotten. -/
  | quiet {event : Option Event}
      (pending : s'.pending operator = s.pending operator ∨ s'.pending operator = none)
      (failed : s'.failedAttempts operator = s.failedAttempts operator ∨
        s'.failedAttempts operator = lastHour now (s.failedAttempts operator))
      (limit : s'.maxFailuresPerHour = s.maxFailuresPerHour)
      (other : ∀ e ∈ event, ¬ e.Replaces operator ∧ wrongTimes operator [e] = []) :
      Effect totp cfg operator now s s' event
  /-- An action is stored. -/
  | stored (action : PendingActionType) (allowed : s.isLockedOut now operator = false)
      (pending : s'.pending operator = some ⟨action, operator, now, now + minutes 5⟩)
      (failed : s'.failedAttempts operator = s.failedAttempts operator)
      (limit : s'.maxFailuresPerHour = s.maxFailuresPerHour) :
      Effect totp cfg operator now s s' (some (.stored operator action now))
  /-- A wrong code was verified. -/
  | wrong (action : PendingAction) (before : s.pending operator = some action)
      (failed : s'.failedAttempts operator = lastHour now (s.failedAttempts operator ++ [now]))
      (pending : s'.pending operator = none ∨
        s'.pending operator = some action ∧ s'.isLockedOut now operator = false)
      (limit : s'.maxFailuresPerHour = s.maxFailuresPerHour) :
      Effect totp cfg operator now s s' (some (.wrong operator now))
  /-- The action is executed. -/
  | executed (action : PendingAction) (code : String)
      (before : s.pending operator = some action) (inTime : now ≤ action.expiresAt)
      (accepted : accepts totp cfg now code = true) (pending : s'.pending operator = none)
      (failed : s'.failedAttempts operator = s.failedAttempts operator)
      (limit : s'.maxFailuresPerHour = s.maxFailuresPerHour) :
      Effect totp cfg operator now s s' (some (.executed operator action.actionType code now))

section Effects

variable {totp : Totp} {cfg : Config} {operator caller : String} {now : DateTime}
  {s s' : TwoFactorState}

theorem effect_refl : Effect totp cfg operator now s s none :=
  .quiet (Or.inl rfl) (Or.inl rfl) rfl nofun

theorem effect_takePending :
    Effect totp cfg operator now s (s.takePending caller).1 none := by
  refine .quiet ?_ (Or.inl rfl) rfl nofun
  by_cases hcaller : operator = caller
  · exact Or.inr (by simp [TwoFactorState.takePending, hcaller])
  · exact Or.inl (Function.update_of_ne hcaller _ _)

theorem effect_check2faGate (action : PendingActionType) :
    Effect totp cfg operator now s (check2faGate cfg now s caller action).1
      (check2faGate cfg now s caller action).2.event := by
  rw [check2faGate]
  split
  · exact effect_refl
  · split
    · exact effect_refl
    · rename_i hlocked
      by_cases hcaller : operator = caller
      · subst hcaller
        exact .stored action (by simpa using hlocked) (by simp [TwoFactorState.setPending]) rfl rfl
      · refine .quiet (Or.inl (Function.update_of_ne hcaller _ _)) (Or.inl rfl) rfl ?_
        rintro e ⟨⟩
        exact ⟨Ne.symm hcaller, rfl⟩

theorem effect_wrong {action : PendingAction} (hpending : s.pending caller = some action)
    (hfailed : s'.failedAttempts = Function.update s.failedAttempts caller
      (lastHour now (s.failedAttempts caller ++ [now])))
    (hne : ∀ o, o ≠ caller → s'.pending o = s.pending o)
    (hself : s'.pending caller = none ∨
      s'.pending caller = some action ∧ s'.isLockedOut now caller = false)
    (hlimit : s'.maxFailuresPerHour = s.maxFailuresPerHour) :
    Effect totp cfg operator now s s' (some (.wrong caller now)) := by
  by_cases hcaller : operator = caller
  · subst hcaller
    exact .wrong action hpending (by rw [hfailed, Function.update_self]) hself hlimit
  · refine .quiet (Or.inl (hne operator hcaller))
      (Or.inl (by rw [hfailed, Function.update_of_ne hcaller])) hlimit ?_
    rintro e ⟨⟩
    exact ⟨id, by simp [wrongTimes, Ne.symm hcaller]⟩

theorem effect_executed {action : PendingAction} {code : String}
    (hpending : s.pending caller = some action) (hinTime : now ≤ action.expiresAt)
    (haccepted : accepts totp cfg now code = true) :
    Effect totp cfg operator now s (s.takePending caller).1
      (some (.executed caller action.actionType code now)) := by
  by_cases hcaller : operator = caller
  · subst hcaller
    exact .executed action code hpending hinTime haccepted
      (by simp [TwoFactorState.takePending]) rfl rfl
  · refine .quiet (Or.inl (Function.update_of_ne hcaller _ _)) (Or.inl rfl) rfl ?_
    rintro e ⟨⟩
    exact ⟨Ne.symm hcaller, rfl⟩

theorem effect_handleTotpResponse (message : String) :
    Effect totp cfg operator now s (handleTotpResponse totp cfg now s caller message).1
      (handleTotpResponse totp cfg now s caller message).2.event := by
  have htake : s.takePending caller = ((s.takePending caller).1, s.pending caller) := rfl
  simp only [handleTotpResponse]
  split
  · -- `/cancel`
    rw [htake]
    cases s.pending caller with
    | none | some action => exact effect_takePending
  · split
    · exact effect_refl
    · rw [htake]
      cases hpending : s.pending caller with
      | none => exact effect_takePending
      | some action =>
        simp only
        split
        · exact effect_takePending
        · rename_i hexpiry
          cases hsecret : cfg.totpSecret with
          | none => exact effect_takePending
          | some secret =>
            simp only
            cases hnew : totp.new secret with
            | none => exact effect_takePending
            | some provider =>
              simp only
              have haccepts : accepts totp cfg now (trim message) =
                  totp.verify provider now (trim message) := by
                simp [accepts, hsecret, hnew]
              cases hverify : totp.verify provider now (trim message) with
              | true =>
                exact effect_executed hpending (not_lt.mp hexpiry)
                  (haccepts.trans hverify)
              | false =>
                simp only [Bool.not_false, if_true]
                split
                · refine effect_wrong hpending rfl (fun o ho => ?_) (Or.inl ?_) rfl
                  · exact Function.update_of_ne ho _ _
                  · exact Function.update_self ..
                · rename_i hlocked
                  refine effect_wrong hpending rfl (fun o ho => ?_) (Or.inr ⟨?_, ?_⟩) rfl
                  · exact (Function.update_of_ne ho _ _).trans (Function.update_of_ne ho _ _)
                  · exact Function.update_self ..
                  · exact Bool.eq_false_iff.mpr hlocked

theorem effect_cleanupExpired :
    Effect totp cfg operator now s (s.cleanupExpired now) none := by
  refine .quiet ?_ (Or.inr rfl) rfl nofun
  cases hpending : s.pending operator with
  | none => simp [TwoFactorState.cleanupExpired, hpending]
  | some action =>
    by_cases hlive : now < action.expiresAt
    · exact Or.inl (by simp [TwoFactorState.cleanupExpired, hpending, hlive])
    · exact Or.inr (by simpa [TwoFactorState.cleanupExpired, hpending] using hlive)

/-- What a step can do to an operator. -/
theorem effect_step (totp : Totp) (cfg : Config) (start : DateTime) (operator : String)
    (c : Clocked) (op : Op) :
    Effect totp cfg operator (c.now + op.after) c.state
      ((machine totp cfg start).step c op).1.state
      ((machine totp cfg start).step c op).2.event := by
  cases op with
  | gate after caller action =>
    simp only [machine]
    exact effect_check2faGate action
  | response after caller message =>
    simp only [machine]
    exact effect_handleTotpResponse message
  | cleanup after => exact effect_cleanupExpired

end Effects

/-! ## The invariant -/

/-- An operator with a stored action has requested it, and has attempts left. -/
def AttemptsLeft (operator : String) (c : Clocked) (es : List Event) : Prop :=
  ∀ action, c.state.pending operator = some action →
    recent (c.now - hours 1) (c.state.failedAttempts operator) < 3 ∧
    ∃ time, Requested operator action.actionType time es ∧ action.expiresAt = time + minutes 5

/-- What holds of one operator's state after the events so far. -/
structure Inv (totp : Totp) (cfg : Config) (operator : String) (c : Clocked) (es : List Event) :
    Prop where
  /-- The failures of the last hour are all recorded, and each wrong code had at most two before
  it within its hour. -/
  window : Remembers (fun t => t - hours 1) 3 c.now (c.state.failedAttempts operator)
    (wrongTimes operator es)
  open_ : AttemptsLeft operator c es
  authorised : Authorised totp cfg operator es
  limit : c.state.maxFailuresPerHour = 3

section Step

variable {totp : Totp} {cfg : Config} {operator : String} {c : Clocked} {es es' : List Event}

theorem wrongTimes_append (operator : String) (es es' : List Event) :
    wrongTimes operator (es ++ es') = wrongTimes operator es ++ wrongTimes operator es' :=
  filterMap_append

theorem Requested.append {action : PendingActionType} {time : DateTime}
    (h : Requested operator action time es) {event : Option Event}
    (hevent : ∀ e ∈ event, ¬ e.Replaces operator) :
    Requested operator action time (es ++ event.toList) := by
  obtain ⟨before, after, rfl, hafter⟩ := h
  refine ⟨before, after ++ event.toList, by rw [append_assoc, cons_append], fun e he => ?_⟩
  rcases mem_append.mp he with he | he
  · exact hafter e he
  · exact hevent e (Option.mem_toList.mp he)

theorem recent_lt_of_not_isLockedOut {s : TwoFactorState} {now : DateTime}
    (hlimit : s.maxFailuresPerHour = 3) (h : s.isLockedOut now operator = false) :
    recent (now - hours 1) (s.failedAttempts operator) < 3 := by
  rw [recent, countP_eq_length_filter]
  simpa [TwoFactorState.isLockedOut, hlimit] using h

theorem Authorised.concat (h : Authorised totp cfg operator es) {e : Event}
    (he : ∀ action code time, e = .executed operator action code time →
      ∃ requested, Requested operator action requested es ∧ time ≤ requested + minutes 5 ∧
        accepts totp cfg time code = true) :
    Authorised totp cfg operator (es ++ [e]) := by
  intro before action code time after hsplit
  rcases concat_split hsplit with ⟨rfl, heq⟩ | ⟨rest, hes, -⟩
  · exact he action code time heq.symm
  · exact h before action code time rest hes

theorem Authorised.append (h : Authorised totp cfg operator es) {event : Option Event}
    (hevent : ∀ e ∈ event, ¬ e.Replaces operator) :
    Authorised totp cfg operator (es ++ event.toList) := by
  cases event with
  | none => rwa [Option.toList_none, append_nil]
  | some e =>
    refine h.concat fun action code time he => absurd ?_ (hevent e rfl)
    rw [he]
    rfl

theorem hourAgo_mono ⦃t t' : DateTime⦄ (h : t ≤ t') : t - hours 1 ≤ t' - hours 1 :=
  Int.sub_le_sub_right h _

section Call

variable {now : DateTime} {s' : TwoFactorState} {action : PendingAction}
  (h : Inv totp cfg operator c es) (hlater : c.now ≤ now)

include h hlater

theorem Inv.recent_lt (haction : c.state.pending operator = some action) :
    recent (now - hours 1) (c.state.failedAttempts operator) < 3 :=
  (recent_le_of_le (hourAgo_mono hlater) _).trans_lt (h.open_ action haction).1

/-- A call without a wrong code leaves the history of wrong codes. -/
theorem Inv.window_append (hwrong : wrongTimes operator es' = [])
    (hrecent : ∀ cutoff, now - hours 1 ≤ cutoff →
      recent cutoff (s'.failedAttempts operator) =
        recent cutoff (c.state.failedAttempts operator)) :
    Remembers (fun t => t - hours 1) 3 now (s'.failedAttempts operator)
      (wrongTimes operator (es ++ es')) := by
  rw [wrongTimes_append, hwrong, append_nil]
  exact h.window.later hourAgo_mono hlater hrecent

variable (limit : s'.maxFailuresPerHour = 3)

include limit

theorem Inv.quiet {event : Option Event}
    (pending : s'.pending operator = c.state.pending operator ∨ s'.pending operator = none)
    (failed : s'.failedAttempts operator = c.state.failedAttempts operator ∨
      s'.failedAttempts operator = lastHour now (c.state.failedAttempts operator))
    (other : ∀ e ∈ event, ¬ e.Replaces operator ∧ wrongTimes operator [e] = []) :
    Inv totp cfg operator ⟨s', now⟩ (es ++ event.toList) := by
  have hreplaces : ∀ e ∈ event, ¬ e.Replaces operator := fun e he => (other e he).1
  have hwrong : wrongTimes operator event.toList = [] := by
    cases event with
    | none => rfl
    | some e => exact (other e rfl).2
  have hrecent : ∀ cutoff, now - hours 1 ≤ cutoff →
      recent cutoff (s'.failedAttempts operator) =
        recent cutoff (c.state.failedAttempts operator) := by
    intro cutoff hcutoff
    rcases failed with failed | failed
    · rw [failed]
    · rw [failed, lastHour, recent_filter hcutoff]
  refine ⟨h.window_append hlater hwrong hrecent, ?_, h.authorised.append hreplaces, limit⟩
  intro action haction
  have hbefore : c.state.pending operator = some action := by
    rcases pending with pending | pending
    · rw [← pending]
      exact haction
    · rw [pending] at haction
      cases haction
  obtain ⟨-, time, hrequested, hexpires⟩ := h.open_ action hbefore
  refine ⟨?_, time, hrequested.append hreplaces, hexpires⟩
  rw [hrecent _ le_rfl]
  exact h.recent_lt hlater hbefore

theorem Inv.stored (action : PendingActionType)
    (allowed : c.state.isLockedOut now operator = false)
    (pending : s'.pending operator = some ⟨action, operator, now, now + minutes 5⟩)
    (failed : s'.failedAttempts operator = c.state.failedAttempts operator) :
    Inv totp cfg operator ⟨s', now⟩ (es ++ [.stored operator action now]) := by
  refine ⟨h.window_append hlater rfl fun _ _ => by rw [failed], ?_, h.authorised.concat nofun,
    limit⟩
  intro action' haction
  cases pending.symm.trans haction
  refine ⟨?_, now, ⟨es, [], rfl, nofun⟩, rfl⟩
  rw [failed]
  exact recent_lt_of_not_isLockedOut h.limit allowed

theorem Inv.wrong (before : c.state.pending operator = some action)
    (failed : s'.failedAttempts operator = lastHour now (c.state.failedAttempts operator ++ [now]))
    (pending : s'.pending operator = none ∨
      s'.pending operator = some action ∧ s'.isLockedOut now operator = false) :
    Inv totp cfg operator ⟨s', now⟩ (es ++ [.wrong operator now]) := by
  have hreplaces : ∀ e ∈ some (Event.wrong operator now), ¬ e.Replaces operator := by
    rintro e ⟨⟩
    exact id
  have hwrong : wrongTimes operator (es ++ [.wrong operator now]) =
      wrongTimes operator es ++ [now] := by
    rw [wrongTimes_append]
    simp [wrongTimes]
  refine ⟨?_, ?_, h.authorised.append hreplaces, limit⟩
  · rw [hwrong]
    refine h.window.record hourAgo_mono hlater (h.recent_lt hlater before) fun cutoff hcutoff => ?_
    rw [failed, lastHour, recent_filter hcutoff]
  · intro action' haction
    rcases pending with pending | ⟨pending, hlocked⟩
    · cases pending.symm.trans haction
    · cases pending.symm.trans haction
      obtain ⟨-, time, hrequested, hexpires⟩ := h.open_ action before
      exact ⟨recent_lt_of_not_isLockedOut limit hlocked, time, hrequested.append hreplaces,
        hexpires⟩

theorem Inv.executed {code : String} (before : c.state.pending operator = some action)
    (inTime : now ≤ action.expiresAt)
    (accepted : accepts totp cfg now code = true) (pending : s'.pending operator = none)
    (failed : s'.failedAttempts operator = c.state.failedAttempts operator) :
    Inv totp cfg operator ⟨s', now⟩ (es ++ [.executed operator action.actionType code now]) := by
  refine ⟨h.window_append hlater rfl fun _ _ => by rw [failed], fun action' haction => ?_,
    h.authorised.concat ?_, limit⟩
  · cases pending.symm.trans haction
  · rintro action' code' time ⟨⟩
    obtain ⟨-, requested, hrequested, hexpires⟩ := h.open_ action before
    exact ⟨requested, hrequested, inTime.trans_eq hexpires, accepted⟩

end Call

/-- Every call keeps the invariant. -/
theorem Inv.step (h : Inv totp cfg operator c es) (start : DateTime) (op : Op) :
    Inv totp cfg operator ((machine totp cfg start).step c op).1
      (es ++ ((machine totp cfg start).step c op).2.event.toList) := by
  have hlater : c.now ≤ c.now + op.after := le_add_of_nonneg_right (Int.natCast_nonneg _)
  have heffect := effect_step totp cfg start operator c op
  change Inv totp cfg operator ⟨((machine totp cfg start).step c op).1.state, c.now + op.after⟩ _
  generalize ((machine totp cfg start).step c op).2.event = event at *
  cases heffect with
  | quiet pending failed limit other =>
    exact h.quiet hlater (limit.trans h.limit) pending failed other
  | stored action allowed pending failed limit =>
    exact h.stored hlater (limit.trans h.limit) action allowed pending failed
  | wrong action before failed pending limit =>
    exact h.wrong hlater (limit.trans h.limit) before failed pending
  | executed action code before inTime accepted pending failed limit =>
    exact h.executed hlater (limit.trans h.limit) before inTime accepted pending failed

theorem inv_init (totp : Totp) (cfg : Config) (operator : String) (start : DateTime) :
    Inv totp cfg operator ⟨.new, start⟩ [] where
  window := remembers_nil start
  open_ _ := nofun
  authorised _ _ _ _ _ hsplit := absurd hsplit.symm (by simp)
  limit := rfl

theorem events_concat (answers : List Answer) (answer : Answer) :
    events (answers ++ [answer]) = events answers ++ answer.event.toList := by
  rw [events, filterMap_append, ← events]
  cases h : answer.event <;> simp [h]

/-- The invariant after a run. -/
theorem inv_run (totp : Totp) (cfg : Config) (start : DateTime) (operator : String)
    (ops : List Op) :
    let M := machine totp cfg start
    Inv totp cfg operator (M.exec M.init ops) (events (M.trace M.init ops)) := by
  intro M
  have hstep : ∀ c answers op, Inv totp cfg operator c (events answers) →
      Inv totp cfg operator (M.step c op).1 (events (answers ++ [(M.step c op).2])) := by
    intro c answers op hinv
    rw [events_concat]
    exact hinv.step start op
  exact exec_trace_invariant (P := fun c answers => Inv totp cfg operator c (events answers)) hstep
    ops (show Inv totp cfg operator M.init (events []) from inv_init totp cfg operator start)

end Step

/-! ## The limits -/

/-- In the hour up to any instant at most three wrong codes of an operator are verified, and
what is executed for an operator is the action they requested last, within five minutes of
the request, with an accepted code, and for the first time since. -/
theorem second_factor_bounded (totp : Totp) (cfg : Config) (start : DateTime) (operator : String)
    (ops : List Op) :
    let M := machine totp cfg start
    let es := events (M.trace M.init ops)
    (∀ t, (wrongTimes operator es).countP (fun u => t - hours 1 < u ∧ u ≤ t) ≤ 3) ∧
      ∀ before action code time after,
        es = before ++ .executed operator action code time :: after →
        ∃ requested, Requested operator action requested before ∧ time ≤ requested + minutes 5 ∧
          accepts totp cfg time code = true := by
  intro M es
  have hinv := inv_run totp cfg start operator ops
  refine ⟨fun t => ?_, hinv.authorised⟩
  refine hinv.window.spread.countP_le hinv.window.sorted fun u v hu hv _ => ?_
  simp only [decide_eq_true_eq] at hu hv
  exact (sub_le_sub_right hv.2 _).trans_lt hu.1

/-! ## One-time codes -/

/-- The time steps that `verify` tries and whose code this is. -/
def codeSteps (totp : Totp) (cfg : Config) (now : DateTime) (code : String) : List Int :=
  match cfg.totpSecret.bind totp.new with
  | some secret =>
    ([0, -1, 1].map fun offset => (now.toNat / 1000000000 / 30 : Int) + offset).filter
      fun step => parseU32 code = some (totp.generateCode secret (UInt64.ofInt step)).toNat
  | none => []

def Event.steps (totp : Totp) (cfg : Config) : Event → List Int
  | .executed _ _ code time => codeSteps totp cfg time code
  | _ => []

/-- No two actions were executed with codes of one time step. -/
def OneTime (totp : Totp) (cfg : Config) (es : List Event) : Prop :=
  es.Pairwise fun e e' => ∀ step ∈ e.steps totp cfg, step ∉ e'.steps totp cfg

instance (totp : Totp) (cfg : Config) (es : List Event) : Decidable (OneTime totp cfg es) :=
  inferInstanceAs (Decidable (List.Pairwise _ _))

def Event.time : Event → DateTime
  | .stored _ _ time => time
  | .wrong _ time => time
  | .executed _ _ _ time => time

/-- The events are dated by a clock that does not go back. -/
structure Dated (c : Clocked) (es : List Event) : Prop where
  clock : 0 ≤ c.now
  past : ∀ e ∈ es, 0 ≤ e.time ∧ e.time ≤ c.now
  sorted : es.Pairwise fun e e' => e.time ≤ e'.time

section Replay

variable {totp : Totp} {cfg : Config} {start : DateTime} {c : Clocked} {es : List Event}

theorem time_of_event {op : Op} {e : Event}
    (h : ((machine totp cfg start).step c op).2.event = some e) : e.time = c.now + op.after := by
  cases op with
  | gate after operator action =>
    simp only [machine, check2faGate] at h
    repeat' split at h
    all_goals cases h
    rfl
  | cleanup after => cases h
  | response after operator message =>
    simp only [machine, handleTotpResponse, TwoFactorState.takePending] at h
    repeat' split at h
    all_goals cases h
    all_goals rfl

theorem Dated.step (h : Dated c es) (op : Op) :
    Dated ((machine totp cfg start).step c op).1
      (es ++ ((machine totp cfg start).step c op).2.event.toList) := by
  have hlater : c.now ≤ c.now + op.after := le_add_of_nonneg_right (Int.natCast_nonneg _)
  have hnew : ∀ e ∈ ((machine totp cfg start).step c op).2.event.toList,
      e.time = c.now + op.after := fun e he => time_of_event (Option.mem_toList.mp he)
  refine ⟨h.clock.trans hlater, fun e he => ?_, pairwise_append.mpr ⟨h.sorted, ?_, ?_⟩⟩
  · rcases mem_append.mp he with he | he
    · exact ⟨(h.past e he).1, (h.past e he).2.trans hlater⟩
    · rw [hnew e he]
      exact ⟨h.clock.trans hlater, le_rfl⟩
  · cases ((machine totp cfg start).step c op).2.event <;> simp
  · intro e he e' he'
    rw [hnew e' he']
    exact (h.past e he).2.trans hlater

theorem dated_run (totp : Totp) (cfg : Config) (hstart : 0 ≤ start) (ops : List Op) :
    let M := machine totp cfg start
    Dated (M.exec M.init ops) (events (M.trace M.init ops)) := by
  intro M
  refine exec_trace_invariant (P := fun c answers => Dated c (events answers))
    (fun c answers op h => ?_) ops (show Dated M.init (events []) from ⟨hstart, nofun, .nil⟩)
  rw [events_concat]
  exact h.step op

/-- A time step has a code for three steps: from the one before it to the one after it. -/
theorem lt_of_mem_codeSteps {time time' : Int} {code code' : String} {step : Int}
    (htime : 0 ≤ time) (hle : time ≤ time') (hstep : step ∈ codeSteps totp cfg time code)
    (hstep' : step ∈ codeSteps totp cfg time' code') : time' < time + seconds 90 := by
  have htried : ∀ {now : DateTime} {code : String}, step ∈ codeSteps totp cfg now code →
      (now.toNat / 1000000000 / 30 : Int) - 1 ≤ step ∧
        step ≤ (now.toNat / 1000000000 / 30 : Int) + 1 := by
    intro now code h
    rw [codeSteps] at h
    split at h
    · obtain ⟨offset, hoffset, rfl⟩ := mem_map.mp (mem_filter.mp h).1
      simp only [mem_cons, not_mem_nil, or_false] at hoffset
      rcases hoffset with rfl | rfl | rfl <;> omega
    · cases h
  have hfirst := htried hstep
  have hsecond := htried hstep'
  simp only [Int.toNat_of_nonneg htime, Int.toNat_of_nonneg (htime.trans hle)] at hfirst hsecond
  rw [seconds]
  omega

/-- The last action requested before an execution was requested after any earlier one. -/
theorem Requested.mem_between {operator code : String} {action action' : PendingActionType}
    {time requested : DateTime} {before between : List Event}
    (h : Requested operator action' requested
      (before ++ .executed operator action code time :: between)) :
    .stored operator action' requested ∈ between := by
  obtain ⟨front, back, hsplit, hback⟩ := h
  have hexecuted : .executed operator action code time ∉ back := fun hmem => hback _ hmem rfl
  rcases append_split hsplit with ⟨rest, -, rfl⟩ | ⟨grown, -, hgrown⟩
  · exact absurd (mem_append_right _ (mem_cons_self ..)) hexecuted
  · cases grown with
    | nil => cases hgrown
    | cons e grown =>
      obtain ⟨-, rfl⟩ := cons_eq_cons.mp hgrown
      exact mem_append_right _ (mem_cons_self ..)

end Replay

/-- Two actions executed with codes of one time step are less than 90 seconds apart, and if they
are of one operator, the second was requested after the first was executed. -/
theorem code_replay_bounded (totp : Totp) (cfg : Config) (start : DateTime) (hstart : 0 ≤ start)
    (ops : List Op) (before between after : List Event)
    (operator operator' : String) (action action' : PendingActionType) (code code' : String)
    (time time' : DateTime) (step : Int)
    (hsplit : events ((machine totp cfg start).trace (machine totp cfg start).init ops) =
      before ++ .executed operator action code time ::
        (between ++ .executed operator' action' code' time' :: after))
    (hstep : step ∈ codeSteps totp cfg time code)
    (hstep' : step ∈ codeSteps totp cfg time' code') :
    time' < time + seconds 90 ∧
      (operator = operator' → ∃ requested, .stored operator action' requested ∈ between) := by
  constructor
  · have hdated : Dated _ (events _) := dated_run totp cfg hstart ops
    rw [hsplit] at hdated
    have htime := (hdated.past _ (mem_append_right _ (mem_cons_self ..))).1
    have hsorted := (pairwise_append.mp hdated.sorted).2.1
    exact lt_of_mem_codeSteps htime
      (rel_of_pairwise_cons hsorted (mem_append_right _ (mem_cons_self ..))) hstep hstep'
  · rintro rfl
    have hinv := inv_run totp cfg start operator ops
    obtain ⟨requested, hrequested, -⟩ := hinv.authorised
      (before ++ .executed operator action code time :: between) action' code' time' after
      (by rw [hsplit, append_assoc, cons_append])
    exact ⟨requested, hrequested.mem_between⟩

/-- The code of a time step is its number. -/
def countingTotp : Totp := ⟨fun _ => some (List.replicate 10 0), fun _ step => step.toUInt32⟩

def totpConfig : Config := ⟨some ⟨"totp", "s"⟩, none⟩

/-- The code of the next time step, and again at the end of the step after it. -/
theorem code_replay_bounded_two : let M := machine countingTotp totpConfig 0
    let last : DateTime := 89999999999
    let es := events (M.trace M.init [.gate 0 "o" (.unblock "a"), .response 0 "o" "000001",
      .gate 0 "o" (.unblock "b"), .response 89999999999 "o" "000001"])
    es = [.stored "o" (.unblock "a") 0, .executed "o" (.unblock "a") "000001" 0,
      .stored "o" (.unblock "b") 0, .executed "o" (.unblock "b") "000001" last] ∧
    1 ∈ codeSteps countingTotp totpConfig 0 "000001" ∧
    1 ∈ codeSteps countingTotp totpConfig last "000001" ∧ last < 0 + seconds 90 := by
  intro M last es
  have hes : es = [.stored "o" (.unblock "a") 0, .executed "o" (.unblock "a") "000001" 0,
      .stored "o" (.unblock "b") 0, .executed "o" (.unblock "b") "000001" last] := by
    decide +kernel
  have hfirst : 1 ∈ codeSteps countingTotp totpConfig 0 "000001" := by decide +kernel
  have hlast : 1 ∈ codeSteps countingTotp totpConfig last "000001" := by decide +kernel
  exact ⟨hes, hfirst, hlast, (code_replay_bounded countingTotp totpConfig 0 le_rfl _
    [.stored "o" (.unblock "a") 0] [.stored "o" (.unblock "b") 0] [] "o" "o" _ _ _ _ _ _ 1 hes
    hfirst hlast).1⟩

/-- A code is taken twice within a second. -/
theorem code_replayed : let M := machine countingTotp totpConfig 0
    let es := events (M.trace M.init [.gate 0 "o" (.unblock "a"), .response 0 "o" "000000",
      .gate 0 "o" (.unblock "b"), .response 1 "o" "000000"])
    es = [.stored "o" (.unblock "a") 0, .executed "o" (.unblock "a") "000000" 0,
      .stored "o" (.unblock "b") 0, .executed "o" (.unblock "b") "000000" 1] ∧
    ¬ OneTime countingTotp totpConfig es := by
  decide +kernel

end Innerwarden.TwoFactor
