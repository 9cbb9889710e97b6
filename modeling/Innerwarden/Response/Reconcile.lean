import Innerwarden.Response.BlockTarget
import Innerwarden.Response.Lifecycle

/-!
# Reconciling the blocks with the firewall

`reconcile_block_enforcement` of `crates/agent/src/decision_block_ip.rs` looks for a token that
is the target of an active block in what the firewall prints, and applies the block again where
there is none.  `iptables -S` prints the address of a rule with a mask, so every reconciliation
adds a rule.  `reconcile_again_iff` says when a second one adds nothing.

Of the stamps of verified records only the targets are kept, in `Reconciled.verified`.
-/

namespace Innerwarden.Reconcile

open Text List

/-! ## Commands -/

/-- A program and its arguments. -/
abbrev Cmd := String × List String

/-- The status command of a backend, and the one that applies a block. -/
def reconcileCmds (backend : ResponseBackend) (ip : String) : Option (Cmd × Option Cmd) :=
  match backend with
  | .ufw => some (("ufw", ["status"]), some ("ufw", ["deny", "from", ip, "to", "any"]))
  | .iptables =>
    some (("iptables", ["-S"]), some ("iptables", ["-I", "INPUT", "-s", ip, "-j", "DROP"]))
  | .nftables => some (("nft", ["list", "ruleset"]), none)
  | _ => none

/-- What is done about a block. -/
inductive ReconcileAction where
  | present
  | reapply
  | missingNoReapply
  | unsupported
  | noDump
deriving DecidableEq

def classifyForReconcile (backend : ResponseBackend) (ip : String) (dump : Option String) :
    ReconcileAction :=
  match reconcileCmds backend ip, dump with
  | none, _ => .unsupported
  | some _, none => .noDump
  | some (_, apply), some dump =>
    if rulePresentIn dump ip then .present
    else if apply.isSome then .reapply
    else .missingNoReapply

/-! ## The loop -/

/-- What commands print, and what they do to the firewall.  `none` is a failure. -/
structure System (σ : Type*) where
  stdout : σ → Cmd → Option String
  run : σ → Cmd → Option σ

/-- The blocks found or made again, and the firewall. -/
structure Reconciled (σ : Type*) where
  verified : List String := []
  reapplied : List String := []
  firewall : σ

section Loop

variable {σ : Type*} (sys : System σ)

def activeBlockIpTargets (active : List ActiveResponse) (now : DateTime) :
    List (String × ResponseBackend) :=
  (active.filter fun r => r.responseType = .blockIp ∧ r.state = .active ∧ now < r.expiresAt).map
    fun r => (r.target, r.backend)

/-- One turn of the loop.  The status was printed before the first. -/
def reconcileTarget (before : σ) (r : Reconciled σ) (target : String × ResponseBackend) :
    Reconciled σ :=
  let (ip, backend) := target
  let dump := (reconcileCmds backend ip).bind fun cmds => sys.stdout before cmds.1
  match classifyForReconcile backend ip dump with
  | .present => { r with verified := r.verified ++ [ip] }
  | .reapply =>
    match ((reconcileCmds backend ip).bind Prod.snd).bind (sys.run r.firewall) with
    | some firewall => { r with reapplied := r.reapplied ++ [ip], firewall }
    | none => r
  | _ => r

def reconcileBlockEnforcement (active : List ActiveResponse) (now : DateTime) (firewall : σ) :
    Reconciled σ :=
  (activeBlockIpTargets active now).foldl (reconcileTarget sys firewall) { firewall }

end Loop

/-! ## The rules of `iptables` -/

/-- A text of digits and dots, as IPv4 addresses are. -/
structure IsDotted (ip : String) : Prop where
  chars : ∀ c ∈ ip.toList, c.isDigit = true ∨ c = '.'
  dot : '.' ∈ ip.toList

instance (ip : String) : Decidable (IsDotted ip) :=
  decidable_of_iff ((ip.toList.all fun c => c.isDigit || c = '.') = true ∧ '.' ∈ ip.toList)
    ⟨fun h => ⟨by simpa using h.1, h.2⟩, fun h => ⟨by simpa using h.chars, h.dot⟩⟩

/-- A rule: a block of an address, or another one, as it is printed. -/
inductive Rule where
  | drop (ip : String) (isDotted : IsDotted ip)
  | other (line : List Char)

def inputFrom : List Char := "-A INPUT -s".toList

def jumpDrop : List Char := "-j DROP".toList

def mask : List Char := "/32".toList

/-- `-A INPUT -s ip/32 -j DROP`. -/
def Rule.print : Rule → List Char
  | drop ip _ => inputFrom ++ ' ' :: ((ip.toList ++ mask) ++ ' ' :: jumpDrop)
  | other line => line

def dump (rules : List Rule) : String := String.ofList (rules.flatMap fun r => r.print ++ ['\n'])

def iptables : System (List Rule) where
  stdout rules cmd := if cmd = ("iptables", ["-S"]) then some (dump rules) else none
  run rules cmd :=
    match cmd with
    | ("iptables", ["-I", "INPUT", "-s", ip, "-j", "DROP"]) =>
      if h : IsDotted ip then some (.drop ip h :: rules) else none
    | _ => none

section Tokens

variable {ip target : String}

theorem tokens_append_cons {c : Char} (hc : isTokenChar c = false) (a b : List Char) :
    tokens (a ++ c :: b) = tokens a ++ tokens b := by
  rw [tokens, map_append, map_cons, hc]
  exact splitChars_append_cons ' ' _ _

theorem tokens_of_forall {text : List Char} (h : ∀ c ∈ text, isTokenChar c = true) :
    tokens text = [text] := by
  have hmap : text.map (fun c => if isTokenChar c then c else ' ') = text :=
    (map_congr_left fun c hc => if_pos (h c hc)).trans (map_id' text)
  rw [tokens, hmap]
  refine splitChars_of_notMem fun hmem => ?_
  exact absurd (h ' ' hmem) (by decide)

theorem IsDotted.isTokenChar (h : IsDotted ip) : ∀ c ∈ ip.toList, isTokenChar c = true := by
  intro c hc
  rcases h.chars c hc with hdigit | rfl
  · simp [Innerwarden.isTokenChar, Char.isAlphanum, hdigit]
  · decide

/-- A rule that blocks an address has it with a mask, so no target is a token of it. -/
theorem notMem_tokens_drop (hip : IsDotted ip) (htarget : IsDotted target) :
    target.toList ∉ tokens (Rule.drop ip hip).print := by
  have hmasked : ∀ c ∈ ip.toList ++ mask, isTokenChar c = true := by
    refine forall_mem_append.mpr ⟨hip.isTokenChar, ?_⟩
    exact all_eq_true.mp (by decide)
  have hnodot : (tokens inputFrom ++ tokens jumpDrop).all (fun tok => '.' ∉ tok) = true := by decide
  simp only [all_eq_true, decide_eq_true_eq] at hnodot
  rw [Rule.print, tokens_append_cons (by decide), tokens_append_cons (by decide),
    tokens_of_forall hmasked, mem_append, mem_append, mem_singleton]
  rintro (hleft | heq | hright)
  · exact hnodot _ (mem_append_left _ hleft) htarget.dot
  · have hslash : '/' ∈ target.toList := heq ▸ mem_append_right _ (by decide)
    rcases htarget.chars '/' hslash with h | h <;> cases h
  · exact hnodot _ (mem_append_right _ hright) htarget.dot

theorem rulePresentIn_dump (htarget : IsDotted target) (rules : List Rule) :
    rulePresentIn (dump rules) target = true ↔
      ∃ line, .other line ∈ rules ∧ target.toList ∈ tokens line := by
  rw [rulePresentIn, decide_eq_true_eq, dump, String.toList_ofList]
  induction rules with
  | nil =>
    have hne : target.toList ≠ [] := ne_nil_of_mem htarget.dot
    simp [tokens, splitChars, hne]
  | cons r rules ih =>
    rw [flatMap_cons, append_assoc, singleton_append,
      tokens_append_cons (c := '\n') (by decide), mem_append, ih]
    cases r with
    | drop ip hip => simp [notMem_tokens_drop hip htarget]
    | other line => simp [Rule.print]

end Tokens

/-! ## A second reconciliation -/

/-- The blocks are those of `iptables`, of IPv4 addresses. -/
def OnIptables (active : List ActiveResponse) (now : DateTime) : Prop :=
  ∀ target ∈ activeBlockIpTargets active now, target.2 = .iptables ∧ IsDotted target.1

instance (active : List ActiveResponse) (now : DateTime) : Decidable (OnIptables active now) :=
  inferInstanceAs (Decidable (∀ _ ∈ _, _))

def drops (rules : List Rule) (ips : List String) : List Rule :=
  ips.foldl (fun rules ip => if h : IsDotted ip then .drop ip h :: rules else rules) rules

/-- The targets that are found are verified, and the others applied again. -/
theorem foldl_reconcileTarget (before : List Rule) {targets : List (String × ResponseBackend)}
    (h : ∀ target ∈ targets, target.2 = .iptables ∧ IsDotted target.1)
    (r : Reconciled (List Rule)) :
    let missing := (targets.map Prod.fst).filter fun ip => !rulePresentIn (dump before) ip
    (targets.foldl (reconcileTarget iptables before) r).reapplied = r.reapplied ++ missing ∧
      (targets.foldl (reconcileTarget iptables before) r).firewall = drops r.firewall missing := by
  induction targets generalizing r with
  | nil => simp [drops]
  | cons target targets ih =>
    obtain ⟨ip, backend⟩ := target
    rw [forall_mem_cons] at h
    obtain ⟨⟨rfl : backend = _, hdotted⟩, hrest⟩ := h
    cases hpresent : rulePresentIn (dump before) ip with
    | true =>
      have hstep : reconcileTarget iptables before r (ip, .iptables) =
          { r with verified := r.verified ++ [ip] } := by
        simp [reconcileTarget, classifyForReconcile, reconcileCmds, iptables, hpresent]
      simpa [hstep, hpresent] using ih hrest { r with verified := r.verified ++ [ip] }
    | false =>
      have hstep : reconcileTarget iptables before r (ip, .iptables) =
          { r with
            reapplied := r.reapplied ++ [ip]
            firewall := .drop ip hdotted :: r.firewall } := by
        simp [reconcileTarget, classifyForReconcile, reconcileCmds, iptables, hpresent, hdotted]
      simpa [hstep, hpresent, drops, hdotted] using ih hrest
        { r with reapplied := r.reapplied ++ [ip], firewall := .drop ip hdotted :: r.firewall }

theorem other_mem_drops {rules : List Rule} {line : List Char} (ips : List String) :
    .other line ∈ drops rules ips ↔ .other line ∈ rules := by
  induction ips generalizing rules with
  | nil => rfl
  | cons ip ips ih =>
    rw [drops, foldl_cons, ← drops, ih]
    split <;> simp

/-- A second reconciliation applies nothing again, and leaves the rules as they are, exactly
if every target is a token of another rule. -/
theorem reconcile_again_iff (active : List ActiveResponse) (now : DateTime) (rules : List Rule)
    (h : OnIptables active now) :
    let once := reconcileBlockEnforcement iptables active now rules
    let twice := reconcileBlockEnforcement iptables active now once.firewall
    (twice.reapplied = [] ∧ twice.firewall = once.firewall) ↔
      ∀ target ∈ activeBlockIpTargets active now,
        ∃ line, .other line ∈ rules ∧ target.1.toList ∈ tokens line := by
  intro once twice
  have hsame : ∀ target ∈ activeBlockIpTargets active now,
      (rulePresentIn (dump once.firewall) target.1 = true ↔
        ∃ line, .other line ∈ rules ∧ target.1.toList ∈ tokens line) := by
    intro target htarget
    rw [rulePresentIn_dump (h target htarget).2]
    simp only [once, reconcileBlockEnforcement, foldl_reconcileTarget rules h, other_mem_drops]
  obtain ⟨hreapplied, hfirewall⟩ :=
    foldl_reconcileTarget once.firewall h { firewall := once.firewall }
  have hnone : twice.reapplied = [] ↔ ∀ target ∈ activeBlockIpTargets active now,
      rulePresentIn (dump once.firewall) target.1 = true := by
    simp [twice, reconcileBlockEnforcement, hreapplied, filter_eq_nil_iff]
  rw [← forall₂_congr hsame, ← hnone]
  refine ⟨And.left, fun hempty => ⟨hempty, ?_⟩⟩
  exact hfirewall.trans (congrArg (drops once.firewall) (hreapplied.symm.trans hempty))

def sampleBlock : ActiveResponse :=
  ⟨"resp-1", .blockIp, .iptables, "1.2.3.4", "i", 0, 1, seconds 1, none, .active⟩

/-- A rule with the address in its comment. -/
theorem reconcile_again_comment :
    let rules := [Rule.other "-A INPUT -m comment --comment 1.2.3.4".toList]
    let once := reconcileBlockEnforcement iptables [sampleBlock] 0 rules
    (reconcileBlockEnforcement iptables [sampleBlock] 0 once.firewall).reapplied = [] := by
  refine ((reconcile_again_iff [sampleBlock] 0 _ (by decide)).mpr fun target htarget => ?_).1
  refine ⟨_, mem_singleton_self _, ?_⟩
  obtain rfl : target = ("1.2.3.4", .iptables) := by
    have heq : activeBlockIpTargets [sampleBlock] 0 = [("1.2.3.4", .iptables)] := by decide
    exact mem_singleton.mp (heq ▸ htarget)
  decide

/-- One block and no rule: each reconciliation adds a rule. -/
theorem block_applied_again :
    let once := reconcileBlockEnforcement iptables [sampleBlock] 0 []
    let twice := reconcileBlockEnforcement iptables [sampleBlock] 0 once.firewall
    once.reapplied = ["1.2.3.4"] ∧ twice.reapplied = ["1.2.3.4"] ∧ twice.firewall.length = 2 := by
  decide

end Innerwarden.Reconcile
