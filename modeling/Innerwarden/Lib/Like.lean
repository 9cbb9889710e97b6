import Innerwarden.Lib.Text

/-!
# The `LIKE` operator of SQLite

In a pattern `%` stands for any characters and `_` for one.  Every other character
matches itself, and a letter of ASCII also its other case.
-/

namespace Like

open Text

/-- A character of the pattern that is no wildcard matches this one. -/
def sameLetter (p c : Char) : Bool := toAsciiLower p = toAsciiLower c

def likeChars : List Char → List Char → Bool
  | [], s => s.isEmpty
  | p :: ps, s =>
    if p = '%' then s.tails.any (likeChars ps)
    else
      match s with
      | [] => false
      | c :: s => (p = '_' || sameLetter p c) && likeChars ps s

/-- `text LIKE pattern`. -/
def like (text pattern : String) : Bool := likeChars pattern.toList text.toList

end Like
