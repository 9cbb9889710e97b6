import Innerwarden.Lib.IpAddr
import Innerwarden.Lib.Text

/-!
# Block targets

Two checks of `crates/agent/src/decision_block_ip.rs`: that a text names something a firewall
can block, one address or a network in CIDR form, and that it is in what a firewall prints.
-/

namespace Innerwarden

open Text

/-- `is_valid_block_target`. -/
def isValidBlockTarget (s : String) : Bool :=
  if s = "" then false
  else
    match splitOnce '/' s with
    | some (ipPart, prefixPart) =>
      match IpAddr.fromStr ipPart, parseU8 prefixPart with
      | some ip, some p => p ≤ ip.width
      | _, _ => false
    | none => (IpAddr.fromStr s).isSome

example : isValidBlockTarget "2001:db8::/32" = true := by decide

example : isValidBlockTarget "129.950.5.0" = false := by decide

/-- The characters of addresses and networks. -/
def isTokenChar (c : Char) : Bool := c.isAlphanum || c = '.' || c = ':' || c = '/'

/-- The text, cut at every character that is not one of a token. -/
def tokens (text : List Char) : List (List Char) :=
  splitChars ' ' (text.map fun c => if isTokenChar c then c else ' ')

/-- `rule_present_in`: the address is a token of what the firewall prints. -/
def rulePresentIn (statusOutput ip : String) : Bool := ip.toList ∈ tokens statusOutput.toList

end Innerwarden
