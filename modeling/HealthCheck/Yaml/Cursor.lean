import HealthCheck.Text.Basic

/-!
# Characters and positions in YAML

The character classes of YAML and a cursor that walks through a text and knows its line and its
column. Where a class is asked for what may be the end of the text, the end is an absent character.
-/

namespace HealthCheck.Yaml

/-! ## Characters -/

/-- The character may occur in a YAML text. -/
def isAllowed (c : Char) : Bool :=
  let n := c.toNat
  n == 0x09 || n == 0x0A || n == 0x0D || (0x20 ≤ n && n ≤ 0x7E) || n == 0x85 ||
    (0xA0 ≤ n && n ≤ 0xFFFD) || 0x10000 ≤ n

/-- The character ends a line. -/
def isBreak (c : Char) : Bool :=
  c == '\n' || c == '\r' || c == '\u0085' || c == '\u2028' || c == '\u2029'

/-- The character is a space or a tab. -/
def isWhite (c : Char) : Bool := c == ' ' || c == '\t'

/-- The character may occur in anchors, tag handles and directive names. -/
def isWord (c : Char) : Bool := c.isAlphanum || c == '_' || c == '-'

/-- A line or the text ends here. -/
def endsLine (c : Option Char) : Bool := c.all isBreak

/-- A word ends here: white space, a line end or the end of the text. -/
def endsWord (c : Option Char) : Bool := c.all fun c => isWhite c || isBreak c

/-! ## Positions -/

/-- The text that is left and the position where it starts. -/
structure Cursor where
  rest : Text
  index : Nat := 0
  line : Nat := 0
  column : Nat := 0

namespace Cursor

/-- The character at a distance. -/
def at? (c : Cursor) (n : Nat) : Option Char := c.rest[n]?

/-- The next character. -/
def peek? (c : Cursor) : Option Char := c.rest.head?

/-- The next character is the given one. -/
def isAt (c : Cursor) (x : Char) : Bool := c.peek? == some x

/-- Moves on by a number of characters of one line. -/
def skip (c : Cursor) (n : Nat) : Cursor :=
  { c with rest := c.rest.drop n, index := c.index + n, column := c.column + n }

/-- Takes characters off while a class holds of them, all of one line. -/
def takeWhile (c : Cursor) (p : Char → Bool) : Text × Cursor :=
  let taken := c.rest.takeWhile p
  (taken, c.skip taken.length)

/-- Moves on while a class holds. -/
def skipWhile (c : Cursor) (p : Char → Bool) : Cursor := (c.takeWhile p).2

/-- Takes a line end off, if there is one. All but the two separators of Unicode count as a line
feed. -/
def takeBreak (c : Cursor) : Text × Cursor :=
  let past (n : Nat) : Cursor :=
    { c with rest := c.rest.drop n, index := c.index + n, line := c.line + 1, column := 0 }
  match c.rest with
  | '\r' :: '\n' :: _ => (['\n'], past 2)
  | x :: _ =>
    if x == '\u2028' || x == '\u2029' then ([x], past 1)
    else if isBreak x then (['\n'], past 1)
    else ([], c)
  | [] => ([], c)

/-- Moves past a comment, up to the end of its line. -/
def skipComment (c : Cursor) : Cursor :=
  if c.isAt '#' then c.skipWhile fun x => !isBreak x else c

/-- A line starts here with three times the given character and nothing attached to it. -/
def isMarker (c : Cursor) (x : Char) : Bool :=
  c.column == 0 && c.rest.take 3 == [x, x, x] && endsWord (c.at? 3)

/-- A document marker stands here. -/
def isDocumentMarker (c : Cursor) : Bool := c.isMarker '-' || c.isMarker '.'

end Cursor

end HealthCheck.Yaml
