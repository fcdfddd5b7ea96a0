import HealthCheck.Text.Utf8
import HealthCheck.Yaml.Cursor
import HealthCheck.Yaml.Token

/-!
# Scalars of YAML

Readers for the five styles of scalars. Each starts at the scalar's first character and returns its
text and the cursor behind it. Line ends inside of plain and quoted scalars fold: a single one
becomes a space, and of several the first is dropped.

The readers move on with every step, so the length of the text that is left is fuel enough.
-/

namespace HealthCheck.Yaml

/-! ## Gaps between words -/

/-- White space and line ends between two words of a scalar. -/
structure Gap where
  /-- White space before the first line end. -/
  blanks : Text := []
  /-- The first line end. -/
  first : Text := []
  /-- The line ends after the first. -/
  more : Text := []
  /-- There is a line end. -/
  broken : Bool := false

/-- What a gap contributes to the scalar. -/
def Gap.text (g : Gap) : Text :=
  if g.broken then
    if g.first.head? = some '\n' then (if g.more = [] then [' '] else g.more)
    else g.first ++ g.more
  else g.blanks

/-- Reads a gap on. After a line end, tabs before the given column are refused. -/
def readGap (tabsFrom : Nat) : (fuel : Nat) → Gap → Cursor → Option (Gap × Cursor)
  | 0, g, c => some (g, c)
  | fuel + 1, g, c =>
    match c.peek? with
    | none => some (g, c)
    | some x =>
      if isWhite x then
        if g.broken then
          if x = '\t' ∧ c.column < tabsFrom then none else readGap tabsFrom fuel g (c.skip 1)
        else readGap tabsFrom fuel { g with blanks := g.blanks ++ [x] } (c.skip 1)
      else if isBreak x then
        let (read, next) := c.takeBreak
        if g.broken then readGap tabsFrom fuel { g with more := g.more ++ read } next
        else readGap tabsFrom fuel ⟨[], read, [], true⟩ next
      else some (g, c)

/-! ## Quoted scalars -/

/-- The character that a backslash and one more character stand for. -/
def unescape? : Char → Option Char
  | '0' => some '\x00'
  | 'a' => some '\x07'
  | 'b' => some '\x08'
  | 't' => some '\t'
  | '\t' => some '\t'
  | 'n' => some '\n'
  | 'v' => some '\x0b'
  | 'f' => some '\x0c'
  | 'r' => some '\r'
  | 'e' => some '\x1b'
  | ' ' => some ' '
  | '"' => some '"'
  | '/' => some '/'
  | '\\' => some '\\'
  | 'N' => some '\u0085'
  | '_' => some '\u00a0'
  | 'L' => some '\u2028'
  | 'P' => some '\u2029'
  | _ => none

/-- How many hexadecimal digits follow a backslash and the given character. -/
def codeLength? : Char → Option Nat
  | 'x' => some 2
  | 'u' => some 4
  | 'U' => some 8
  | _ => none

/-- Reads an escape: the character it stands for. -/
def readEscape (c : Cursor) : Option (Char × Cursor) := do
  let x ← c.at? 1
  match codeLength? x with
  | some n =>
    let digits := (c.rest.drop 2).take n
    if digits.length ≠ n then none
    else
      let code ← Text.toNat? 16 digits
      if (0xD800 ≤ code ∧ code < 0xE000) ∨ 0x10FFFF < code then none
      else some (Char.ofNat code, c.skip (2 + n))
  | none => (unescape? x).map (·, c.skip 2)

/-- Reads the inside of a quoted scalar, given what has been read in reverse. -/
def readQuotedFrom (single : Bool) : (fuel : Nat) → Text → Cursor → Option (Text × Cursor)
  | 0, _, _ => none
  | fuel + 1, read, c =>
    if c.isDocumentMarker then none
    else
      match c.rest with
      | [] => none
      | x :: rest =>
        if single ∧ x = '\'' ∧ rest.head? = some '\'' then
          readQuotedFrom single fuel ('\'' :: read) (c.skip 2)
        -- A quote that is not doubled ends the scalar.
        else if x = (if single then '\'' else '"') then some (read.reverse, c.skip 1)
        else if !single ∧ x = '\\' then
          if rest.head?.any isBreak then do
            let (_, next) := (c.skip 1).takeBreak
            let (g, next) ← readGap 0 fuel { broken := true } next
            readQuotedFrom single fuel (g.text.reverse ++ read) next
          else do
            let (y, next) ← readEscape c
            readQuotedFrom single fuel (y :: read) next
        else if isWhite x || isBreak x then do
          let (g, next) ← readGap 0 fuel {} c
          readQuotedFrom single fuel (g.text.reverse ++ read) next
        else readQuotedFrom single fuel (x :: read) (c.skip 1)

/-- Reads a quoted scalar. -/
def readQuoted (single : Bool) (c : Cursor) : Option (Text × Cursor) :=
  readQuotedFrom single (c.rest.length + 1) [] (c.skip 1)

/-! ## Plain scalars -/

/-- The character delimits flow collections. -/
def isFlowIndicator (x : Char) : Bool :=
  x == ',' || x == '[' || x == ']' || x == '\x7b' || x == '\x7d'

/-- The characters of a word of a plain scalar. In a flow collection, a colon right before an
indicator is refused. -/
def readWord (inFlow : Bool) : Text → Option Text
  | [] => some []
  | x :: rest =>
    if isWhite x || isBreak x then some []
    else if inFlow && x == ':' && rest.head?.any fun y => isFlowIndicator y || y == '?' then none
    else if (x == ':' && endsWord rest.head?) || (inFlow && isFlowIndicator x) then some []
    else (readWord inFlow rest).map (x :: ·)

/-- Reads a plain scalar on from a word, given what has been read in reverse and the gap before the
word. The flag tells that the scalar was followed by a line end. -/
def readPlainFrom (inFlow : Bool) (indent : Nat) :
    (fuel : Nat) → Text → Gap → Cursor → Option (Text × Bool × Cursor)
  | 0, _, _, _ => none
  | fuel + 1, read, gap, c =>
    if c.isDocumentMarker || c.isAt '#' then some (read.reverse, gap.broken, c)
    else do
      let word ← readWord inFlow c.rest
      let next := c.skip word.length
      let (read, gap) :=
        if word = [] then (read, gap) else (word.reverse ++ gap.text.reverse ++ read, {})
      if next.peek?.any fun x => isWhite x || isBreak x then
        let (gap, next) ← readGap indent next.rest.length gap next
        if !inFlow && next.column < indent then some (read.reverse, gap.broken, next)
        else readPlainFrom inFlow indent fuel read gap next
      else some (read.reverse, gap.broken, next)

/-- Reads a plain scalar, whose later lines start at the given column or behind it. -/
def readPlain (inFlow : Bool) (indent : Nat) (c : Cursor) : Option (Text × Bool × Cursor) :=
  readPlainFrom inFlow indent (c.rest.length + 1) [] {} c

/-! ## Block scalars -/

/-- What becomes of the line ends at the end of a block scalar. -/
inductive Chomping where
  | strip
  | clip
  | keep
deriving DecidableEq, Repr

/-- Reads a chomping indicator, if there is one. -/
def readChomping (c : Cursor) : Option Chomping × Cursor :=
  if c.isAt '+' then (some .keep, c.skip 1)
  else if c.isAt '-' then (some .strip, c.skip 1)
  else (none, c)

/-- Reads an indentation indicator, if there is one; zero is refused. -/
def readIncrement (c : Cursor) : Option (Option Nat × Cursor) :=
  match c.peek? with
  | some x =>
    if x = '0' then none
    else if x.isDigit then some (Text.digitValue x, c.skip 1)
    else some (none, c)
  | none => some (none, c)

/-- Reads the indicators behind `|` or `>` in either order. -/
def readHeader (c : Cursor) : Option (Chomping × Option Nat × Cursor) := do
  let (chomping, c) := readChomping c
  let (increment, c) ← readIncrement c
  match chomping with
  | some chomping => return (chomping, increment, c)
  | none =>
    let (chomping, c) := if increment.isSome then readChomping c else (none, c)
    return (chomping.getD .clip, increment, c)

/-- Reads empty lines and the indentation of the line behind them. Without a known indentation all
spaces count and the greatest column is found out. -/
def readEmptyLines (indent : Option Nat) :
    (fuel : Nat) → (greatest : Nat) → Text → Cursor → Option (Nat × Text × Cursor)
  | 0, greatest, read, c => some (greatest, read, c)
  | fuel + 1, greatest, read, c =>
    let spaces := (c.rest.takeWhile (· == ' ')).length
    let c := c.skip (match indent with
      | some n => min spaces (n - c.column)
      | none => spaces)
    let greatest := max greatest c.column
    if c.isAt '\t' && indent.all (c.column < ·) then none
    else if c.peek?.any isBreak then
      let (line, next) := c.takeBreak
      readEmptyLines indent fuel greatest (read ++ line) next
    else some (greatest, read, c)

/-- Reads the lines of a block scalar, given what has been read in reverse, the line end before the
line and the empty lines behind it, and whether the line before started with white space. -/
def readLines (folded : Bool) (indent : Nat) : (fuel : Nat) → (read lineEnd empty : Text) →
    (wasIndented : Bool) → Cursor → Option (Text × Text × Text × Cursor)
  | 0, _, _, _, _, _ => none
  | fuel + 1, read, lineEnd, empty, wasIndented, c =>
    if c.column = indent ∧ c.rest ≠ [] then
      let isIndented := c.peek?.any isWhite
      -- Lines fold only where neither of them starts with white space.
      let join :=
        if folded ∧ lineEnd.head? = some '\n' ∧ !wasIndented ∧ !isIndented then
          (if empty = [] then [' '] else [])
        else lineEnd
      let (line, c) := c.takeWhile fun x => !isBreak x
      let read := line.reverse ++ empty.reverse ++ join.reverse ++ read
      let (lineEnd, c) := c.takeBreak
      match readEmptyLines (some indent) (c.rest.length + 1) 0 [] c with
      | some (_, empty, c) => readLines folded indent fuel read lineEnd empty isIndented c
      | none => none
    else some (read, lineEnd, empty, c)

/-- Reads a block scalar inside of a collection with the given indentation. -/
def readBlock (folded : Bool) (parent : Int) (c : Cursor) : Option (Text × Cursor) := do
  let (chomping, increment, c) ← readHeader (c.skip 1)
  let c := (c.skipWhile isWhite).skipComment
  if !endsLine c.peek? then none
  else
    let (_, c) := c.takeBreak
    -- An indentation indicator counts from the collection, and outside of all from the margin.
    let known := increment.map fun n => if 0 ≤ parent then parent.toNat + n else n
    let (greatest, empty, c) ← readEmptyLines known (c.rest.length + 1) 0 [] c
    let indent := known.getD (max greatest (max (parent + 1).toNat 1))
    let (read, lineEnd, empty, c) ←
      readLines folded indent (c.rest.length + 1) [] [] empty false c
    let text := read.reverse
    return match chomping with
      | .strip => (text, c)
      | .clip => (text ++ lineEnd, c)
      | .keep => (text ++ lineEnd ++ empty, c)

end HealthCheck.Yaml
