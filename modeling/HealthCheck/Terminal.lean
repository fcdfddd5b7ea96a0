import HealthCheck.Text.Utf8

/-!
# Terminals

Colours for a terminal and the removal of control sequences. Removal follows a terminal that reads
bytes: a control sequence swallows what belongs to it up to its end, other control characters than
line feeds are dropped, and the rest is kept. A character of several bytes can end a control string,
since one of its bytes may be the byte that does so.
-/

namespace HealthCheck.Terminal

/-- A colour. -/
inductive Colour where
  | red
  | green
  | yellow
deriving DecidableEq, Repr

/-- The number of a foreground colour. -/
def Colour.code : Colour → Text
  | red => "31".toList
  | green => "32".toList
  | yellow => "33".toList

/-- A text in a colour. -/
def paint (c : Colour) (t : Text) : Text :=
  "\x1b[".toList ++ c.code ++ 'm' :: t ++ "\x1b[0m".toList

/-! ## Control sequences -/

/-- Where a terminal is between two characters. -/
inductive Mode where
  /-- Outside of control sequences. -/
  | text
  /-- Behind an escape character. -/
  | escape
  /-- Behind an escape character and intermediates. -/
  | escapeIntermediate
  /-- In a sequence of parameters and a final character. -/
  | parameters
  /-- At the start of a device control string. -/
  | deviceStart
  /-- In the parameters of a device control string. -/
  | deviceParameters
  /-- Behind the intermediates of a device control string. -/
  | deviceIntermediate
  /-- In a string that the terminal ignores. -/
  | string
  /-- In a command to the operating system. -/
  | command
deriving DecidableEq, Repr

/-- The character, of a single byte, is in a range of codes. -/
def inRange (low high : Nat) (c : Char) : Bool := low ≤ c.toNat && c.toNat ≤ high

/-- The mode behind an escape character and one more character. -/
def Mode.afterEscape (c : Char) : Mode :=
  if inRange 0x20 0x2F c then .escapeIntermediate
  else if c = '[' then .parameters
  else if c = ']' then .command
  else if c = 'P' then .deviceStart
  else if c = 'X' ∨ c = '^' ∨ c = '_' then .string
  else if inRange 0x30 0x7E c then .text
  else .escape

/-- The mode behind a character at the start of a device control string. -/
def Mode.afterDevice (m : Mode) (c : Char) : Mode :=
  if inRange 0x40 0x7E c then .string
  else if inRange 0x20 0x2F c then .deviceIntermediate
  else if inRange 0x30 0x3F c then
    match m with
    | .deviceStart => .deviceParameters
    | .deviceParameters => if inRange 0x3C 0x3F c then .string else .deviceParameters
    | _ => .string
  else m

/-- The mode behind a character. -/
def Mode.after (m : Mode) (c : Char) : Mode :=
  if c = '\x18' ∨ c = '\x1a' then .text
  else if c = '\x1b' then .escape
  else
    match m with
    | .text => .text
    | .escape => afterEscape c
    | .escapeIntermediate => if inRange 0x30 0x7E c then .text else m
    | .parameters => if inRange 0x40 0x7E c then .text else m
    | .string => if (0x9C : UInt8) ∈ Utf8.encodeChar c then .text else m
    | .command => if c = '\x07' then .text else m
    | device => device.afterDevice c

/-- The character is seen in a mode. Line feeds count in all modes but in strings. -/
def Mode.shows (m : Mode) (c : Char) : Bool :=
  match m with
  | .text => c == '\n' || 0x20 ≤ c.toNat
  | .escape => c == '\n'
  | .escapeIntermediate => c == '\n'
  | .parameters => c == '\n'
  | _ => false

/-- The text without control sequences, read in a mode. -/
def stripFrom : Mode → Text → Text
  | _, [] => []
  | m, c :: t => (if m.shows c then [c] else []) ++ stripFrom (m.after c) t

/-- The text without control sequences and control characters. -/
def strip (t : Text) : Text := stripFrom .text t

example : strip (paint .green "PASS".toList ++ "\t x\n".toList) = "PASS x\n".toList := by decide

end HealthCheck.Terminal
