import HealthCheck.Json.Value
import HealthCheck.Text.Utf8

/-!
# Reading JSON

A strict reader: one document and nothing after it but blanks, and blanks are spaces, tabs, line
feeds and carriage returns only. Strings hold no raw control characters and no lone surrogates,
numerals have no leading zeros, and containers nest at most 127 deep. Of two fields with one key the
first keeps its position and the last its value.

Every reader takes a text and returns what it read with the text that is left, or nothing where the
text does not start with what it reads.
-/

namespace HealthCheck.Json

/-- The character may stand between tokens. -/
def isSpace (c : Char) : Bool := c == ' ' || c == '\t' || c == '\n' || c == '\r'

/-- The text from its next token on. -/
def skipSpace (t : Text) : Text := t.dropWhile isSpace

/-! ## Strings -/

/-- The value of four hexadecimal digits. -/
def hex4? (a b c d : Char) : Option Nat := Text.toNat? 16 [a, b, c, d]

/-- The character that a backslash and one more character stand for. -/
def unescape? : Char → Option Char
  | '"' => some '"'
  | '\\' => some '\\'
  | '/' => some '/'
  | 'b' => some '\x08'
  | 'f' => some '\x0c'
  | 'n' => some '\n'
  | 'r' => some '\r'
  | 't' => some '\t'
  | _ => none

/-- The code unit opens a surrogate pair. -/
def isHighSurrogate (n : Nat) : Bool := 0xD800 ≤ n && n < 0xDC00

/-- The code unit closes a surrogate pair. -/
def isLowSurrogate (n : Nat) : Bool := 0xDC00 ≤ n && n < 0xE000

/-- The character of a surrogate pair. -/
def ofSurrogates (high low : Nat) : Char :=
  Char.ofNat (0x10000 + (high - 0xD800) * 0x400 + (low - 0xDC00))

/-- Puts a character in front of what a reader of strings read. -/
def consString (c : Char) (r : Option (Text × Text)) : Option (Text × Text) :=
  r.map fun (t, rest) => (c :: t, rest)

/-- Reads the rest of a string, up to and with its closing quote, after a surrogate that may be
waiting for the other half of its pair. -/
def readStringFrom : Option Nat → Text → Option (Text × Text)
  | _, [] => none
  | high, '\\' :: 'u' :: a :: b :: c :: d :: rest =>
    match high, hex4? a b c d with
    | _, none => none
    | some h, some n =>
      if isLowSurrogate n then consString (ofSurrogates h n) (readStringFrom none rest) else none
    | none, some n =>
      if isHighSurrogate n then readStringFrom (some n) rest
      else if isLowSurrogate n then none
      else consString (Char.ofNat n) (readStringFrom none rest)
  | some _, _ => none
  | none, '"' :: rest => some ([], rest)
  | none, '\\' :: c :: rest =>
    match unescape? c with
    | some x => consString x (readStringFrom none rest)
    | none => none
  | none, c :: rest =>
    if c.toNat < 0x20 then none else consString c (readStringFrom none rest)

/-- Reads the rest of a string, up to and with its closing quote. -/
def readString (t : Text) : Option (Text × Text) := readStringFrom none t

/-! ## Numbers -/

/-- The parts of a numeral. No fraction and no exponent make it a whole number. -/
structure Numeral where
  negative : Bool
  whole : Text
  fraction : Option Text
  exponent : Option Int
deriving DecidableEq, Repr

/-- Reads a fraction: a point and at least one digit. -/
def readFraction : Text → Option (Option Text × Text)
  | '.' :: rest =>
    let digits := rest.takeWhile Char.isDigit
    if digits = [] then none else some (some digits, rest.dropWhile Char.isDigit)
  | rest => some (none, rest)

/-- Reads an exponent: its letter, an optional sign and at least one digit. -/
def readExponent : Text → Option (Option Int × Text)
  | [] => some (none, [])
  | c :: rest =>
    if c = 'e' ∨ c = 'E' then
      let (negative, rest) := Text.signed rest
      let digits := rest.takeWhile Char.isDigit
      if digits = [] then none
      else
        let e : Int := Text.value 10 digits
        some (some (if negative then -e else e), rest.dropWhile Char.isDigit)
    else some (none, c :: rest)

/-- Reads a numeral. -/
def readNumeral (t : Text) : Option (Numeral × Text) := do
  let (negative, t) := match t with
    | '-' :: r => (true, r)
    | r => (false, r)
  let whole := t.takeWhile Char.isDigit
  if whole = [] ∨ (whole.head? = some '0' ∧ whole.length ≠ 1) then none
  else
    let (fraction, rest) ← readFraction (t.dropWhile Char.isDigit)
    let (exponent, rest) ← readExponent rest
    return (⟨negative, whole, fraction, exponent⟩, rest)

/-- The greatest significand that is taken from a numeral's digits. -/
def significandLimit : Nat := UInt64.size - 1

/-- Appends digits to a significand while it stays within its limit; the digits that are left. -/
def absorb (significand : Nat) : Text → Nat × Text
  | [] => (significand, [])
  | d :: ds =>
    let next := significand * 10 + (Text.digitValue d).getD 0
    if next ≤ significandLimit then absorb next ds else (significand, d :: ds)

/-- A number times a power of ten. Powers up to 10³⁰⁸ are applied in one rounded step. A greater one
overflows any number but zero, and a smaller one is applied as divisions by 10³⁰⁸, two of which
leave zero of any significand. -/
def scale? (x : Binary64) : (divisions : Nat) → (exponent : Int) → Option Binary64
  | divisions, exponent =>
    if exponent.natAbs ≤ 308 then do
      let power ← Binary64.ofScientific? false 1 exponent.natAbs
      if 0 ≤ exponent then x.mul? power else x.div? power
    else if x.isZero then some x
    else if 0 ≤ exponent then none
    else
      match divisions with
      | 0 => some (.zero false)
      | divisions + 1 => do
        let power ← Binary64.ofScientific? false 1 308
        let y ← x.div? power
        scale? y divisions (exponent + 308)

/-- The binary64 number of a numeral: its leading digits as a significand of 64 bits, rounded, and
then scaled by the power of ten that remains. -/
def Numeral.binary? (n : Numeral) : Option Binary64 := do
  let fraction := n.fraction.getD []
  -- Digits that no longer fit count for their place before the point and for nothing behind it.
  let (high, dropped) := absorb 0 n.whole
  let (significand, ignored) := absorb high fraction
  let exponent : Int :=
    dropped.length - (fraction.length - ignored.length : Nat) + n.exponent.getD 0
  let x ← Binary64.ofNat? significand
  let y ← scale? x 3 exponent
  return ⟨n.negative, y.units⟩

/-- The number of a numeral. Whole numbers from −2⁶³ to 2⁶⁴ − 1 are exact, except for `-0`. -/
def Numeral.number? (n : Numeral) : Option JsonNumber :=
  let magnitude := Text.value 10 n.whole
  if n.fraction.isNone && n.exponent.isNone && !n.negative && magnitude < UInt64.size then
    some (.whole magnitude)
  else if n.fraction.isNone && n.exponent.isNone && n.negative && 0 < magnitude &&
      magnitude ≤ Nat.pow 2 63 then
    some (.whole (-magnitude))
  else n.binary?.map .binary

/-- Reads a number. -/
def readNumber (t : Text) : Option (JsonNumber × Text) := do
  let (n, rest) ← readNumeral t
  return (← n.number?, rest)

/-! ## Documents -/

/-- How deep containers may nest. -/
def maxDepth : Nat := 127

mutual

/-- Reads a value in which containers may nest `depth` deep. -/
def readValue : (fuel depth : Nat) → Text → Option (Json × Text)
  | 0, _, _ => none
  | fuel + 1, depth, t =>
    match skipSpace t with
    | 'n' :: 'u' :: 'l' :: 'l' :: rest => some (.null, rest)
    | 't' :: 'r' :: 'u' :: 'e' :: rest => some (.bool true, rest)
    | 'f' :: 'a' :: 'l' :: 's' :: 'e' :: rest => some (.bool false, rest)
    | '"' :: rest => (readString rest).map fun (s, rest) => (.string s, rest)
    | '[' :: rest =>
      match depth with
      | 0 => none
      | depth + 1 =>
        match skipSpace rest with
        | ']' :: rest => some (.array [], rest)
        | rest => (readItems fuel depth rest).map fun (vs, rest) => (.array vs, rest)
    | '\x7b' :: rest =>
      match depth with
      | 0 => none
      | depth + 1 =>
        match skipSpace rest with
        | '\x7d' :: rest => some (.object [], rest)
        | rest =>
          (readFields fuel depth rest).map fun (fs, rest) => (.object (Fields.ofList fs), rest)
    | rest => (readNumber rest).map fun (n, rest) => (.number n, rest)

/-- Reads the items of an array, up to and with its closing bracket. -/
def readItems : (fuel depth : Nat) → Text → Option (List Json × Text)
  | 0, _, _ => none
  | fuel + 1, depth, t =>
    match readValue fuel depth t with
    | none => none
    | some (v, rest) =>
      match skipSpace rest with
      | ']' :: rest => some ([v], rest)
      | ',' :: rest => (readItems fuel depth rest).map fun (vs, rest) => (v :: vs, rest)
      | _ => none

/-- Reads the fields of an object, up to and with its closing brace. -/
def readFields : (fuel depth : Nat) → Text → Option (List (Text × Json) × Text)
  | 0, _, _ => none
  | fuel + 1, depth, t =>
    match skipSpace t with
    | '"' :: rest =>
      match readString rest with
      | none => none
      | some (k, rest) =>
        match skipSpace rest with
        | ':' :: rest =>
          match readValue fuel depth rest with
          | none => none
          | some (v, rest) =>
            match skipSpace rest with
            | '\x7d' :: rest => some ([(k, v)], rest)
            | ',' :: rest =>
              (readFields fuel depth rest).map fun (fs, rest) => ((k, v) :: fs, rest)
            | _ => none
        | _ => none
    | _ => none

end

/-- The document that a text is. Every call of the readers above that does not consume a character
is followed by one that does, so twice the length of the text is fuel enough. -/
def parse? (t : Text) : Option Json :=
  match readValue (2 * t.length + 2) maxDepth t with
  | some (v, rest) => if skipSpace rest = [] then some v else none
  | none => none

/-- The document that bytes are; they have to be well-formed UTF-8. -/
def parseBytes? (bs : Bytes) : Option Json := (Utf8.decode? bs).bind parse?

end HealthCheck.Json
