import HealthCheck.Text.Blank

/-!
# Texts

A text is the list of its characters: every rule of this library counts, cuts or compares
characters, so lengths here are numbers of Unicode scalar values and never of bytes.

This module holds the operations on texts that the later modules share: trimming, cutting at a
separator, replacing, comparing without regard to ASCII case, and decimal numerals.
-/

namespace HealthCheck

/-- A text is the list of its characters. -/
abbrev Text := List Char

namespace Text

/-- Texts are found in a list by comparing their characters. -/
instance decidableMem (t : Text) (ts : List Text) : Decidable (t ∈ ts) :=
  List.instDecidableMemOfLawfulBEq t ts

/-! ## Trimming -/

/-- The text from its first character that is not blank. -/
def trimStart (t : Text) : Text := t.dropWhile isBlank

/-- The text up to its last character that is not blank. -/
def trimEnd (t : Text) : Text := (t.reverse.dropWhile isBlank).reverse

/-- The text without the blanks at its two ends. -/
def trim (t : Text) : Text := trimEnd (trimStart t)

/-! ## Cutting -/

/-- What follows `opening` in a text that starts with it. -/
def after? (opening t : Text) : Option Text := opening.isPrefixOf? t

/-- What precedes `closing` in a text that ends with it. -/
def before? (closing t : Text) : Option Text := closing.isSuffixOf? t

/-- The argument of a text that is a call: what stands between `opening` and `closing`. The two
may not overlap. -/
def between? (opening closing t : Text) : Option Text := (after? opening t).bind (before? closing)

/-- The text before and after the first occurrence of `sep`. -/
def breakOn? (sep : Text) : Text → Option (Text × Text)
  | [] => (after? sep []).map ([], ·)
  | c :: cs =>
    match after? sep (c :: cs) with
    | some rest => some ([], rest)
    | none => (breakOn? sep cs).map fun (before, rest) => (c :: before, rest)

/-- `sep` occurs in the text. -/
def contains (sep t : Text) : Bool := (breakOn? sep t).isSome

/-- The segments of a text between the occurrences of one character. There is always a first
segment, and each occurrence starts another. -/
def segments (sep : Char) : Text → List Text
  | [] => [[]]
  | c :: cs =>
    if c = sep then [] :: segments sep cs
    else
      match segments sep cs with
      | [] => [[c]]
      | s :: rest => (c :: s) :: rest

/-- The maximal runs of characters on which `p` has one value, in order. -/
def runs (p : Char → Bool) (t : Text) : List Text := t.splitBy fun a b => p a == p b

/-- Joins texts, with `sep` between neighbours. -/
def join (sep : Text) (ts : List Text) : Text := sep.intercalate ts

/-! ## Replacing -/

/-- Replaces `old`, a non-empty text, wherever it occurs, from the left and without overlap.
The number counts the characters of an occurrence that are still to be dropped. -/
def replaceFrom (old new : Text) : Nat → Text → Text
  | _, [] => []
  | n + 1, _ :: cs => replaceFrom old new n cs
  | 0, c :: cs =>
    if old.isPrefixOf (c :: cs) then new ++ replaceFrom old new (old.length - 1) cs
    else c :: replaceFrom old new 0 cs

/-- Replaces `old`, a non-empty text, wherever it occurs, from the left and without overlap. -/
def replace (old new t : Text) : Text := replaceFrom old new 0 t

/-! ## Comparing -/

/-- The text is one of the given. -/
def isOneOf (t : Text) (words : List String) : Bool := words.any (·.toList == t)

/-- The two texts differ at most in the case of ASCII letters. -/
def sameIgnoringCase (s t : Text) : Bool := s.map Char.toLower == t.map Char.toLower

/-! ## Numerals -/

/-- The decimal numeral of a natural number. -/
def ofNat (n : Nat) : Text := Nat.toDigits 10 n

/-- The decimal numeral of an integer, with a leading minus where it is negative. -/
def ofInt : Int → Text
  | .ofNat n => ofNat n
  | .negSucc n => '-' :: ofNat (n + 1)

/-- The text of a truth value. -/
def ofBool (b : Bool) : Text := if b then "true".toList else "false".toList

/-- The value of a digit in bases up to sixteen; letters count in either case. -/
def digitValue (c : Char) : Option Nat :=
  if '0' ≤ c ∧ c ≤ '9' then some (c.toNat - '0'.toNat)
  else if 'a' ≤ c ∧ c ≤ 'f' then some (c.toNat - 'a'.toNat + 10)
  else if 'A' ≤ c ∧ c ≤ 'F' then some (c.toNat - 'A'.toNat + 10)
  else none

/-- The character is a digit of the base. -/
def isDigitOf (base : Nat) (c : Char) : Bool := (digitValue c).any (· < base)

/-- The positional value of a list of digits. -/
def value (base : Nat) (digits : Text) : Nat :=
  digits.foldl (fun n c => n * base + (digitValue c).getD 0) 0

/-- The value of a non-empty text of digits of the base. -/
def toNat? (base : Nat) (t : Text) : Option Nat :=
  if t ≠ [] ∧ t.all (isDigitOf base) then some (value base t) else none

/-- Cuts a leading sign off; the flag tells whether it was a minus. -/
def signed : Text → Bool × Text
  | '-' :: t => (true, t)
  | '+' :: t => (false, t)
  | t => (false, t)

example : trim " \u00a0a b\t".toList = "a b".toList := by decide
example : segments '.' "a..b".toList = ["a".toList, [], "b".toList] := by decide
example : replace "aa".toList "b".toList "aaaxaa".toList = "baxb".toList := by decide
example : between? "len(".toList ")".toList "len(x)".toList = some "x".toList := by decide

end Text

end HealthCheck
