import HealthCheck.Text.Basic

/-!
# Wildcard patterns

Patterns that match whole texts: `?` stands for any one character, `*` for any run of characters,
`[abc]` and `[a-z]` for one character of a class and `[!abc]` for one outside it. Separators and
leading dots are ordinary characters.

`**` stands for any run of whole path components. It has to be a component of its own, takes the
separator that follows it, and lets the rest of the pattern match only at once or right after a
separator. Three asterisks in a row, a `**` that is not a component and an unclosed bracket make a
pattern that matches nothing.
-/

namespace HealthCheck.Wildcard

/-! ## Patterns -/

/-- A member of a character class. -/
inductive Member where
  | single (c : Char)
  | range (first last : Char)
deriving DecidableEq, Repr

/-- An element of a pattern. -/
inductive Element where
  | char (c : Char)
  | anyChar
  | anyRun
  | anyComponents
  | oneOf (members : List Member)
  | noneOf (members : List Member)
deriving DecidableEq, Repr

/-- The members that a class is written with. -/
def members : Text → List Member
  | a :: '-' :: b :: rest => .range a b :: members rest
  | c :: rest => .single c :: members rest
  | [] => []

/-- Cuts a class at its closing bracket, which is not the class's first character. -/
def cutClass? : Text → Option (Text × Text)
  | [] => none
  | first :: rest => (Text.breakOn? [']'] rest).map fun (more, rest) => (first :: more, rest)

/-- Reads what follows an opening bracket. -/
def readClass? : Text → Option (Element × Text)
  | '!' :: rest => (cutClass? rest).map fun (cs, rest) => (.noneOf (members cs), rest)
  | rest => (cutClass? rest).map fun (cs, rest) => (.oneOf (members cs), rest)

/-- Appends the element for `**` to elements in reverse; after other elements a second one in a row
adds nothing. -/
def pushComponents (read : List Element) : List Element :=
  if 1 < read.length ∧ read.head? = some .anyComponents then read else .anyComponents :: read

/-- Reads a pattern, given the character before it and, in reverse, the elements read so far. Every
step consumes a character, so the length of the text is fuel enough. -/
def readFrom : (fuel : Nat) → (previous : Option Char) → List Element → Text → Option (List Element)
  | _, _, read, [] => some read.reverse
  | 0, _, _, _ => none
  | fuel + 1, previous, read, c :: rest =>
    match c, rest with
    | '?', rest => readFrom fuel (some '?') (.anyChar :: read) rest
    | '*', '*' :: rest =>
      -- A component starts the pattern or follows a separator, and ends likewise.
      if previous = none ∨ previous = some '/' then
        match rest with
        | [] => some (pushComponents read).reverse
        | '/' :: rest => readFrom fuel (some '/') (pushComponents read) rest
        | _ => none
      else none
    | '*', rest => readFrom fuel (some '*') (.anyRun :: read) rest
    | '[', rest =>
      match readClass? rest with
      | some (e, rest) => readFrom fuel (some ']') (e :: read) rest
      | none => none
    | c, rest => readFrom fuel (some c) (.char c :: read) rest

/-- The elements of a pattern, or nothing where it is malformed. -/
def elements? (pattern : Text) : Option (List Element) :=
  readFrom (pattern.length + 1) none [] pattern

/-! ## Matching -/

/-- The character belongs to a class. -/
def Member.contains : Member → Char → Bool
  | single d, c => c == d
  | range first last, c => first ≤ c && c ≤ last

/-- An element for one character accepts it. -/
def Element.accepts : Element → Char → Bool
  | char d, c => c == d
  | anyChar, _ => true
  | oneOf ms, c => ms.any (·.contains c)
  | noneOf ms, c => !ms.any (·.contains c)
  | anyRun, _ => true
  | anyComponents, _ => true

/-- How an attempt to match ends. -/
inductive Outcome where
  | matched
  /-- This attempt fails, and a later one may succeed. -/
  | failed
  /-- The text ran out before the pattern, so that no later attempt can succeed. -/
  | exhausted
deriving DecidableEq, Repr

/-- Tries `rest`, the remainder of a pattern, behind a run of any length: first behind the empty run
and then behind longer ones, as long as attempts fail. `componentwise` runs only end right after a
separator or with the text. -/
def tryRuns (componentwise : Bool) (rest : Text → Outcome) : (attempt : Bool) → Text → Outcome
  | _, [] => rest []
  | attempt, c :: cs =>
    let next := !componentwise || c == '/'
    if attempt then
      match rest (c :: cs) with
      -- Once the text has run out, a longer run leaves even less of it.
      | .failed => tryRuns componentwise rest next cs
      | o => o
    else tryRuns componentwise rest next cs

/-- Matches elements against a whole text. -/
def run : List Element → Text → Outcome
  | [], [] => .matched
  | [], _ :: _ => .failed
  | .anyRun :: es, t => tryRuns false (run es) true t
  | .anyComponents :: es, t => tryRuns true (run es) true t
  | _ :: _, [] => .exhausted
  | e :: es, c :: cs => if e.accepts c then run es cs else .failed

/-- The pattern matches the whole text. -/
def accepts (pattern t : Text) : Bool :=
  pattern == ['*'] || (elements? pattern).any fun es => run es t == .matched

example : accepts "192.168.*.*".toList "192.168.1.7".toList = true := by decide +kernel
example : accepts "a**".toList "ab".toList = false := by decide +kernel
example : accepts "[!]a]x".toList "bx".toList = true := by decide +kernel

end HealthCheck.Wildcard
