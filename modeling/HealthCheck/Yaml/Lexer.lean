import HealthCheck.Yaml.Scalar
import HealthCheck.Yaml.Tag

/-!
# Reading tokens of YAML

Cuts a text into tokens. Two things are not visible where a token stands. Indentation opens and
closes block collections, so a stack of columns is kept. And only a colon tells that what precedes
it is a key, so the place of a token that may become one is remembered, and the tokens for the key
and for the mapping it opens are inserted there.
-/

namespace HealthCheck.Yaml

/-- A token that a colon behind it turns into a key. -/
structure KeyCandidate where
  /-- How many tokens precede it. -/
  position : Nat
  index : Nat
  line : Nat
  column : Nat
  /-- The text is malformed unless the token becomes a key. -/
  required : Bool

namespace KeyCandidate

/-- A key and its colon stand in one line and at most 1024 characters apart. -/
def isStale (k : KeyCandidate) (c : Cursor) : Bool := k.line < c.line || k.index + 1024 < c.index

/-- Gives a candidate up; one that is required is an error. -/
def discard : Option KeyCandidate → Option Unit
  | some k => if k.required then none else some ()
  | none => some ()

/-- The candidate as it is at a cursor: a stale one is given up. -/
def refresh (c : Cursor) (k : Option KeyCandidate) : Option (Option KeyCandidate) :=
  if k.any (·.isStale c) then (discard k).map fun _ => none else some k

end KeyCandidate

/-- How far the reading of tokens is. -/
structure Lexer where
  cursor : Cursor
  /-- The tokens so far, the last one first. -/
  tokens : List Token := []
  /-- The column of the innermost block collection; −1 outside of all. -/
  indent : Int := -1
  /-- The columns of the block collections around it. -/
  outerIndents : List Int := []
  /-- A key may start here. -/
  keyAllowed : Bool := true
  /-- The candidate of the innermost flow collection or, outside of all, of the block. -/
  candidate : Option KeyCandidate := none
  /-- The candidates around it, one for each open flow collection. -/
  outerCandidates : List (Option KeyCandidate) := []

namespace Lexer

/-! ## Tokens -/

/-- Some flow collection is open. -/
def inFlow (s : Lexer) : Bool := !s.outerCandidates.isEmpty

/-- Appends a token. -/
def emit (s : Lexer) (t : Token) : Lexer := { s with tokens := t :: s.tokens }

/-- Inserts a token behind the first `position` tokens. -/
def insertAt (s : Lexer) (position : Nat) (t : Token) : Lexer :=
  { s with tokens := s.tokens.insertIdx (s.tokens.length - position) t }

/-- Appends a token that is so many characters long. -/
def take (s : Lexer) (length : Nat) (t : Token) : Lexer :=
  { s.emit t with cursor := s.cursor.skip length }

/-! ## Indentation -/

/-- Opens a block collection at a column unless one is open there. Its token stands behind the first
`position` tokens. -/
def rollTo (s : Lexer) (column position : Nat) (start : Token) : Lexer :=
  if !s.inFlow && s.indent < column then
    { s.insertAt position start with indent := column, outerIndents := s.indent :: s.outerIndents }
  else s

/-- Opens a block collection here unless one is open. -/
def roll (s : Lexer) (start : Token) : Lexer := s.rollTo s.cursor.column s.tokens.length start

/-- Closes the block collections that are further in than a column. -/
def unrollFrom (column : Int) : Int → List Int → List Token → Int × List Int × List Token
  | indent, [], tokens => (indent, [], tokens)
  | indent, outer :: rest, tokens =>
    if column < indent then unrollFrom column outer rest (.blockEnd :: tokens)
    else (indent, outer :: rest, tokens)

/-- Closes the block collections that are further in than a column, outside of flow collections. -/
def unroll (s : Lexer) (column : Int) : Lexer :=
  if s.inFlow then s
  else
    let (indent, outerIndents, tokens) := unrollFrom column s.indent s.outerIndents s.tokens
    { s with indent, outerIndents, tokens }

/-! ## Keys -/

/-- Gives the current candidate up. -/
def dropKey (s : Lexer) : Option Lexer :=
  (KeyCandidate.discard s.candidate).map fun _ => { s with candidate := none }

/-- Makes the token that starts here a candidate, where a key may start. -/
def saveKey (s : Lexer) : Option Lexer :=
  if s.keyAllowed then do
    let s ← s.dropKey
    return { s with
      candidate := some {
        position := s.tokens.length
        index := s.cursor.index
        line := s.cursor.line
        column := s.cursor.column
        required := !s.inFlow && s.indent == s.cursor.column } }
  else some s

/-! ## From token to token -/

/-- Moves past white space, comments and line ends. Tabs do not count where a key may start in a
block. -/
def skipBlanks : (fuel : Nat) → Lexer → Lexer
  | 0, s => s
  | fuel + 1, s =>
    let c := s.cursor
    -- A byte order mark is passed over where a line starts; elsewhere it is an ordinary character.
    let c := if c.column == 0 && c.isAt '\ufeff' then c.skip 1 else c
    let c := c.skipWhile fun x => x == ' ' || (x == '\t' && (s.inFlow || !s.keyAllowed))
    let c := c.skipComment
    if c.peek?.any isBreak then
      skipBlanks fuel { s with cursor := c.takeBreak.2, keyAllowed := s.keyAllowed || !s.inFlow }
    else { s with cursor := c }

/-- Moves to the next token, gives stale candidates up and closes the block collections that have
ended. -/
def approach (fuel : Nat) (s : Lexer) : Option Lexer := do
  let s := skipBlanks fuel s
  let candidate ← KeyCandidate.refresh s.cursor s.candidate
  let outerCandidates ← s.outerCandidates.mapM (KeyCandidate.refresh s.cursor)
  return { s with candidate, outerCandidates }.unroll s.cursor.column

/-- Leaves all block collections and keys behind, as directives and markers do. -/
def close (s : Lexer) : Option Lexer := do
  let s ← (s.unroll (-1)).dropKey
  return { s with keyAllowed := false }

/-! ## The kinds of tokens -/

/-- A directive. -/
def directive (s : Lexer) : Option Lexer := do
  let s ← s.close
  let (token, cursor) ← readDirective s.cursor
  return { s.emit token with cursor }

/-- A document marker. -/
def documentMarker (s : Lexer) (t : Token) : Option Lexer := s.close.map (·.take 3 t)

/-- The start of a flow collection. -/
def flowStart (s : Lexer) (t : Token) : Option Lexer := do
  let s ← s.saveKey
  return { s.take 1 t with
    candidate := none
    outerCandidates := s.candidate :: s.outerCandidates
    keyAllowed := true }

/-- The end of a flow collection. -/
def flowEnd (s : Lexer) (t : Token) : Option Lexer := do
  let s ← s.dropKey
  return { s.take 1 t with
    candidate := s.outerCandidates.head?.join
    outerCandidates := s.outerCandidates.tail
    keyAllowed := false }

/-- The comma between items of a flow collection. -/
def flowEntry (s : Lexer) : Option Lexer := do
  let s ← s.dropKey
  return { s.take 1 .flowEntry with keyAllowed := true }

/-- The dash before an item of a block sequence. -/
def blockEntry (s : Lexer) : Option Lexer :=
  if !s.inFlow && !s.keyAllowed then none
  else do
    let s ← (s.roll .blockSequenceStart).dropKey
    return { s.take 1 .blockEntry with keyAllowed := true }

/-- The question mark before a key. -/
def explicitKey (s : Lexer) : Option Lexer :=
  if !s.inFlow && !s.keyAllowed then none
  else do
    let s ← (s.roll .blockMappingStart).dropKey
    return { s.take 1 .key with keyAllowed := !s.inFlow }

/-- The colon before a value. -/
def value (s : Lexer) : Option Lexer :=
  match s.candidate with
  | some k =>
    -- The start of the mapping is inserted second and so stands before the key.
    let s := (s.insertAt k.position .key).rollTo k.column k.position .blockMappingStart
    some { s.take 1 .value with candidate := none, keyAllowed := false }
  | none =>
    if !s.inFlow && !s.keyAllowed then none
    else some { (s.roll .blockMappingStart).take 1 .value with keyAllowed := !s.inFlow }

/-- An alias or an anchor. -/
def name (s : Lexer) (make : Text → Token) : Option Lexer := do
  let s ← s.saveKey
  let (name, cursor) ← readName s.cursor
  return { s.emit (make name) with cursor, keyAllowed := false }

/-- A tag. -/
def tag (s : Lexer) : Option Lexer := do
  let s ← s.saveKey
  let (token, cursor) ← readTag s.inFlow s.cursor
  return { s.emit token with cursor, keyAllowed := false }

/-- A literal or folded scalar. -/
def blockScalar (s : Lexer) (folded : Bool) : Option Lexer := do
  let s ← s.dropKey
  let (text, cursor) ← readBlock folded s.indent s.cursor
  let style := if folded then .folded else .literal
  return { s.emit (.scalar style text) with cursor, keyAllowed := true }

/-- A quoted scalar. -/
def quotedScalar (s : Lexer) (single : Bool) : Option Lexer := do
  let s ← s.saveKey
  let (text, cursor) ← readQuoted single s.cursor
  let style := if single then .singleQuoted else .doubleQuoted
  return { s.emit (.scalar style text) with cursor, keyAllowed := false }

/-- A plain scalar. A key may follow on a line of its own. -/
def plainScalar (s : Lexer) : Option Lexer := do
  let s ← s.saveKey
  let (text, followedByBreak, cursor) ← readPlain s.inFlow (s.indent + 1).toNat s.cursor
  return { s.emit (.scalar .plain text) with cursor, keyAllowed := followedByBreak }

/-- A plain scalar may start with the character. -/
def startsPlain (s : Lexer) (c : Char) : Bool :=
  if c = '-' then !(s.cursor.at? 1).any isWhite
  else if c = '?' ∨ c = ':' then !s.inFlow && !endsWord (s.cursor.at? 1)
  else !isWhite c && c ∉ ",[]\x7b\x7d#&*!|>'\"%@`".toList

/-- Reads the token that starts with the character at the cursor. -/
def token (s : Lexer) (c : Char) : Option Lexer :=
  let indicates := s.inFlow || endsWord (s.cursor.at? 1)
  -- Directives and markers are seen only where a line starts, and win over what they start with.
  if c = '%' ∧ s.cursor.column = 0 then s.directive
  else if s.cursor.isMarker '-' then s.documentMarker .documentStart
  else if s.cursor.isMarker '.' then s.documentMarker .documentEnd
  else if c = '[' then s.flowStart .flowSequenceStart
  else if c = '\x7b' then s.flowStart .flowMappingStart
  else if c = ']' then s.flowEnd .flowSequenceEnd
  else if c = '\x7d' then s.flowEnd .flowMappingEnd
  else if c = ',' then s.flowEntry
  else if c = '-' ∧ endsWord (s.cursor.at? 1) then s.blockEntry
  else if c = '?' ∧ indicates then s.explicitKey
  else if c = ':' ∧ indicates then s.value
  else if c = '*' then s.name .aliasOf
  else if c = '&' then s.name .anchor
  else if c = '!' then s.tag
  -- In flow collections a bar or an angle bracket starts nothing at all.
  else if c = '|' ∧ !s.inFlow then s.blockScalar false
  else if c = '>' ∧ !s.inFlow then s.blockScalar true
  else if c = '\'' then s.quotedScalar true
  else if c = '"' then s.quotedScalar false
  else if s.startsPlain c then s.plainScalar
  else none

/-- Reads the tokens that are left. Every token has a character of its own, so the length of the
text is fuel enough. -/
def run : (fuel : Nat) → Lexer → Option (List Token)
  | 0, _ => none
  | fuel + 1, s => do
    let s ← s.approach (fuel + 1)
    match s.cursor.peek? with
    | some c => run fuel (← s.token c)
    | none => s.close.map (·.tokens.reverse)

end Lexer

/-- The tokens of a text. -/
def Token.ofText? (t : Text) : Option (List Token) :=
  if t.all isAllowed then Lexer.run (t.length + 1) { cursor := { rest := t } } else none

end HealthCheck.Yaml
