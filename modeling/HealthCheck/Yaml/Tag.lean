import HealthCheck.Text.Utf8
import HealthCheck.Yaml.Token
import HealthCheck.Yaml.Cursor

/-!
# Tags and directives of YAML

A tag is written with a handle, which a directive may define, and a suffix. A suffix is made of the
characters of an address, where a percent sign and two hexadecimal digits stand for one byte.
-/

namespace HealthCheck.Yaml

/-! ## Addresses -/

/-- The character may occur in the suffix of a tag; some may only where the suffix is delimited. -/
def isAddress (delimited : Bool) (c : Char) : Bool :=
  isWord c || c ∈ ";/?:@&=+$.%!~*'()".toList || (delimited && c ∈ ",[]".toList)

/-- How many bytes a character has whose first byte is given. -/
def sequenceLength? (first : Nat) : Option Nat :=
  if first < 0x80 then some 1
  else if first < 0xC0 then none
  else if first < 0xE0 then some 2
  else if first < 0xF0 then some 3
  else if first < 0xF8 then some 4
  else none

/-- Reads one escaped byte. -/
def escapedByte? : Text → Option (UInt8 × Text)
  | '%' :: a :: b :: rest => (Text.toNat? 16 [a, b]).map (UInt8.ofNat ·, rest)
  | _ => none

/-- Reads the escaped bytes that continue a character. -/
def continuation? : Nat → Text → Option (Bytes × Text)
  | 0, t => some ([], t)
  | n + 1, t => do
    let (b, t) ← escapedByte? t
    if b.toNat < 0x80 ∨ 0xC0 ≤ b.toNat then none
    else
      let (bs, t) ← continuation? n t
      return (b :: bs, t)

/-- Reads an escaped character. -/
def escapedCharacter? (t : Text) : Option (Bytes × Text) := do
  let (first, t) ← escapedByte? t
  let n ← sequenceLength? first.toNat
  let (bs, t) ← continuation? (n - 1) t
  return (first :: bs, t)

/-- Decodes the escapes in a text of address characters. -/
def unescapeAddress? : (fuel : Nat) → Text → Option Bytes
  | _, [] => some []
  | 0, _ :: _ => none
  | fuel + 1, c :: t =>
    if c = '%' then do
      let (bs, t) ← escapedCharacter? (c :: t)
      return bs ++ (← unescapeAddress? fuel t)
    else (unescapeAddress? fuel t).map (Utf8.encodeChar c ++ ·)

/-- Reads address characters. -/
def readAddress (delimited : Bool) (c : Cursor) : Option (Text × Cursor) := do
  let (taken, c) := c.takeWhile (isAddress delimited)
  let bytes ← unescapeAddress? taken.length taken
  return (Utf8.decodeLossy bytes, c)

/-! ## Tags -/

/-- Reads an exclamation mark, word characters, and a closing mark if there is one; the flag tells
whether there is. -/
def readHandle (c : Cursor) : Option (Text × Bool × Cursor) :=
  if c.isAt '!' then
    let (word, c) := (c.skip 1).takeWhile isWord
    if c.isAt '!' then some ('!' :: word ++ ['!'], true, c.skip 1) else some ('!' :: word, false, c)
  else none

/-- Reads a tag between angle brackets, behind its exclamation mark. -/
def readVerbatimTag (c : Cursor) : Option (Token × Cursor) := do
  let (suffix, c) ← readAddress true (c.skip 1)
  if suffix = [] ∨ !c.isAt '>' then none else return (.tag [] suffix, c.skip 1)

/-- Reads a tag that starts with a handle or with the mark of a local tag. -/
def readShortTag (c : Cursor) : Option (Token × Cursor) := do
  let (handle, closed, c) ← readHandle c
  let (suffix, c) ← readAddress false c
  if closed then
    if suffix = [] then none else return (.tag handle suffix, c)
  else if handle.drop 1 ++ suffix = [] then return (.tag [] ['!'], c)
  else return (.tag ['!'] (handle.drop 1 ++ suffix), c)

/-- Reads a tag. In a flow collection a comma may follow it directly. -/
def readTag (inFlow : Bool) (c : Cursor) : Option (Token × Cursor) := do
  let (tag, c) ← if c.at? 1 = some '<' then readVerbatimTag (c.skip 1) else readShortTag c
  if endsWord c.peek? || (inFlow && c.isAt ',') then return (tag, c) else none

/-- Reads the name of an anchor or an alias, behind its mark. -/
def readName (c : Cursor) : Option (Text × Cursor) :=
  let (name, next) := (c.skip 1).takeWhile isWord
  if name ≠ [] ∧ next.peek?.all (fun x => isWhite x || isBreak x || x ∈ "?:,]\x7d%@`".toList) then
    some (name, next)
  else none

/-! ## Directives -/

/-- Reads a version number of at most nine digits. -/
def readVersionNumber (c : Cursor) : Option (Nat × Cursor) := do
  let (digits, c) := c.takeWhile Char.isDigit
  if 9 < digits.length then none else return (← Text.toNat? 10 digits, c)

/-- Reads the version that a directive states. -/
def readVersion (c : Cursor) : Option (Token × Cursor) := do
  let (major, c) ← readVersionNumber (c.skipWhile isWhite)
  if !c.isAt '.' then none
  else
    let (minor, c) ← readVersionNumber (c.skip 1)
    return (.version major minor, c)

/-- Reads the handle that a directive defines and what it stands for. -/
def readTagDefinition (c : Cursor) : Option (Token × Cursor) := do
  let (handle, closed, c) ← readHandle (c.skipWhile isWhite)
  if (!closed ∧ handle ≠ ['!']) ∨ !c.peek?.any isWhite then none
  else
    let (start, c) ← readAddress true (c.skipWhile isWhite)
    if start = [] ∨ !endsWord c.peek? then none else return (.tagDirective handle start, c)

/-- Reads a directive and the end of its line. -/
def readDirective (c : Cursor) : Option (Token × Cursor) := do
  let (name, c) := (c.skip 1).takeWhile isWord
  if !endsWord c.peek? then none
  else
    let (token, c) ←
      if name = "YAML".toList then readVersion c
      else if name = "TAG".toList then readTagDefinition c
      else none
    let c := (c.skipWhile isWhite).skipComment
    if endsLine c.peek? then return (token, c.takeBreak.2) else none

end HealthCheck.Yaml
