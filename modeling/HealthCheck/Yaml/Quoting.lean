import HealthCheck.Text.Utf8
import HealthCheck.Yaml.Cursor
import HealthCheck.Yaml.Schema
import HealthCheck.Yaml.Token

/-!
# Writing texts in YAML

How a text is written as a scalar that reads back as the same text. It is plain where nothing in it
could be taken for something else, literal where it has line feeds, and quoted otherwise; characters
that are not printable force double quotes, which alone have escapes.
-/

namespace HealthCheck.Yaml

/-! ## What a text contains -/

/-- The character may be written without an escape. -/
def isPrintable (c : Char) : Bool :=
  let n := c.toNat
  n == 0x0A || (0x20 ≤ n && n ≤ 0x7E) || (0xA0 ≤ n && n != 0xFEFF && n != 0xFFFE && n != 0xFFFF)

/-- Two neighbours in a text with the given properties. -/
def hasNeighbours (p q : Char → Bool) (t : Text) : Bool :=
  (t.zip t.tail).any fun (a, b) => p a && q b

/-- The start of a text would be taken for something other than a plain scalar. -/
def startsWithIndicator : Text → Bool
  | [] => false
  | c :: t =>
    c ∈ "#,[]\x7b\x7d&*!|>'\"%@`".toList || (c ∈ "?:-".toList && endsWord t.head?) ||
      ['-', '-'].isPrefixOf t && c == '-' || ['.', '.'].isPrefixOf t && c == '.'

/-- A colon or a comment would be seen inside of a text. -/
def containsIndicator (t : Text) : Bool :=
  t.getLast? == some ':' || hasNeighbours (· == ':') (fun c => isWhite c || isBreak c) t ||
    hasNeighbours (fun c => isWhite c || isBreak c) (· == '#') t

/-- The text may be written plainly. -/
def allowsPlain (t : Text) : Bool :=
  t.all (fun c => isPrintable c && !isBreak c) && t.head? != some ' ' && t.getLast? != some ' ' &&
    !startsWithIndicator t && !containsIndicator t

/-- No space of a text precedes a line end, and all its characters are printable. -/
def allowsBreaks (t : Text) : Bool := t.all isPrintable && !hasNeighbours (· == ' ') isBreak t

/-- The text may be written in single quotes. -/
def allowsSingleQuotes (t : Text) : Bool := allowsBreaks t && !hasNeighbours isBreak (· == ' ') t

/-- The text may be written literally. -/
def allowsLiteral (t : Text) : Bool := allowsBreaks t && t.getLast? != some ' '

/-- The style in which a text is written. -/
def Style.of (t : Text) : Style :=
  -- Line feeds ask for the literal style whatever else the text holds.
  if '\n' ∈ t then if allowsLiteral t then .literal else .doubleQuoted
  else if Schema.denotesItself t && !Schema.isPaddedDigits t && allowsPlain t then .plain
  else if allowsSingleQuotes t then .singleQuoted
  else .doubleQuoted

/-! ## The text of a scalar -/

/-- The digits of a code, in upper case. -/
def hexDigits (length n : Nat) : Text :=
  let digits := (Nat.toDigits 16 n).map Char.toUpper
  List.replicate (length - digits.length) '0' ++ digits

/-- What stands behind the backslash for a character, where it has a short escape. -/
def shortEscape? : Char → Option Char
  | '\x00' => some '0'
  | '\x07' => some 'a'
  | '\x08' => some 'b'
  | '\t' => some 't'
  | '\n' => some 'n'
  | '\x0b' => some 'v'
  | '\x0c' => some 'f'
  | '\r' => some 'r'
  | '\x1b' => some 'e'
  | '"' => some '"'
  | '\\' => some '\\'
  | '\u0085' => some 'N'
  | '\u2028' => some 'L'
  | '\u2029' => some 'P'
  | _ => none

/-- A character as it stands between double quotes. -/
def escape (c : Char) : Text :=
  if isPrintable c && !isBreak c && c != '"' && c != '\\' then [c]
  else
    match shortEscape? c with
    | some e => ['\\', e]
    | none =>
      let n := c.toNat
      if n ≤ 0xFF then "\\x".toList ++ hexDigits 2 n
      else if n ≤ 0xFFFF then "\\u".toList ++ hexDigits 4 n
      else "\\U".toList ++ hexDigits 8 n

/-- A text between double quotes. -/
def doubleQuoted (t : Text) : Text := '"' :: t.flatMap escape ++ ['"']

/-- The lines of a text, all that are not empty indented; the flag tells that a line starts. -/
def indentLines (indent : Nat) : (atStart : Bool) → Text → Text
  | _, [] => []
  | atStart, c :: t =>
    if isBreak c then c :: indentLines indent true t
    else (if atStart then List.replicate indent ' ' else []) ++ c :: indentLines indent false t

/-- A text between single quotes, where a quote is written twice. -/
def singleQuoted (indent : Nat) (t : Text) : Text :=
  let lines := indentLines indent false (t.flatMap fun c => if c = '\'' then [c, c] else [c])
  let last := if t.getLast?.any isBreak then List.replicate indent ' ' else []
  '\'' :: lines ++ last ++ ['\'']

/-- The indicators of a literal text: its indentation, where the text itself starts with blanks, and
what becomes of the line ends behind it. -/
def literalHeader (t : Text) : Text :=
  let indentation := if t.head?.any fun c => c == ' ' || isBreak c then ['2'] else []
  let chomping :=
    match t.reverse with
    | [] => ['-']
    | [c] => if isBreak c then ['+'] else ['-']
    | c :: d :: _ => if !isBreak c then ['-'] else if isBreak d then ['+'] else []
  '|' :: indentation ++ chomping

/-- Ends the line unless the text has ended it. -/
def endLine (t : Text) : Text := if t.getLast?.any isBreak then t else t ++ ['\n']

/-- A text as a scalar whose further lines are indented, with the end of its line. -/
def writeText (indent : Nat) (t : Text) : Text :=
  match Style.of t with
  | .plain => t ++ ['\n']
  | .singleQuoted => singleQuoted indent t ++ ['\n']
  | .literal => literalHeader t ++ '\n' :: endLine (indentLines indent true t)
  | _ => doubleQuoted t ++ ['\n']

end HealthCheck.Yaml
