import Mathlib.Data.Int.Notation

/-!
# Instants

`DateTime<Utc>` of the crate `chrono`.  An instant is a number of nanoseconds since
the Unix epoch.  The years `chrono` ends at are not modelled.  The crate is not
part of the repository, so the texts of instants are a parameter.
-/

namespace Innerwarden

/-- An instant, in nanoseconds since the Unix epoch. -/
abbrev DateTime := Int

def seconds (n : Int) : Int := n * 1000000000

def hours (n : Nat) : Int := seconds (3600 * n)

def days (n : Nat) : Int := seconds (86400 * n)

/-- The texts of instants. -/
structure Chrono where
  /-- `DateTime::to_rfc3339`. -/
  toRfc3339 : DateTime → String
  /-- `format("%Y-%m-%d")`. -/
  formatDate : DateTime → String
  /-- The text of an instant inside a value that derives `Serialize`. -/
  serialize : DateTime → String
  /-- `str::parse::<DateTime<Utc>>`. -/
  fromStr : String → Option DateTime

/-- Both RFC 3339 texts of the instant are read back. -/
def Chrono.Reads (chrono : Chrono) (t : DateTime) : Prop :=
  chrono.fromStr (chrono.toRfc3339 t) = some t ∧ chrono.fromStr (chrono.serialize t) = some t

instance (chrono : Chrono) (t : DateTime) : Decidable (chrono.Reads t) :=
  inferInstanceAs (Decidable (_ ∧ _))

/-- `chrono` on three hours of 2 May 2026 and on the epoch. -/
def sampleChrono : Chrono :=
  let hours : List (DateTime × String) :=
    [(0, "1970-01-01T00:00:00"), (seconds 1777680000, "2026-05-02T00:00:00"),
     (seconds 1777683600, "2026-05-02T01:00:00"), (seconds 1777687200, "2026-05-02T02:00:00")]
  { toRfc3339 := fun t => (hours.lookup t).getD "" ++ "+00:00"
    formatDate := fun _ => "2026-05-02"
    serialize := fun t => (hours.lookup t).getD "" ++ "Z"
    fromStr := fun s =>
      (hours.find? fun h => s = h.2 ++ "+00:00" ∨ s = h.2 ++ "Z").map Prod.fst }

end Innerwarden
