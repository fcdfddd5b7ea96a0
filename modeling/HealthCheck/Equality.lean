import HealthCheck.Number.Integer
import HealthCheck.Wildcard

/-!
# Equality of operands

Two resolved operands are equal when they are the same text or integer literals of one value.

A text of the form `pat(...)` or `any(...)` is a call, which decides by itself whether it equals the
other side: `pat` by a wildcard pattern, `any` by a list of options. A call applies when exactly one
side is a call of its kind, and `pat` is tried before `any`.
-/

namespace HealthCheck

/-- The kinds of calls. -/
inductive Call where
  | pattern
  | options
deriving DecidableEq, Repr

namespace Call

/-- How a call begins. -/
def opening : Call → Text
  | pattern => "pat(".toList
  | options => "any(".toList

/-- The argument of a text that is a call of this kind. -/
def argument? (call : Call) (t : Text) : Option Text :=
  Text.between? call.opening ")".toList t

/-- The call with the given argument holds of a text. -/
def holds : Call → (argument other : Text) → Bool
  | pattern, argument, other => Wildcard.accepts argument other
  | options, argument, other => (Text.segments ',' argument).any fun o => Text.trim o == other

/-- Decides an equation of which exactly one side is a call of this kind. -/
def decide? (call : Call) (first second : Text) : Option Bool :=
  match call.argument? first, call.argument? second with
  | some argument, none => some (call.holds argument second)
  | none, some argument => some (call.holds argument first)
  | _, _ => none

end Call

/-- Two texts are the same or integer literals of one value. -/
def sameValue (first second : Text) : Bool :=
  match Integer.read? first, Integer.read? second with
  | some m, some n => m == n
  | _, _ => first == second

/-- Two resolved operands are equal. -/
def isEqual (first second : Text) : Bool :=
  match Call.pattern.decide? first second with
  | some b => b
  | none =>
    match Call.options.decide? first second with
    | some b => b
    | none => sameValue first second

example : isEqual "0xC8".toList "200".toList = true := by decide +kernel
example : isEqual "any(1.1.1.1, 1.0.0.1)".toList "1.0.0.1".toList = true := by decide +kernel
example : isEqual "pat(a)".toList "pat(b)".toList = false := by decide +kernel

end HealthCheck
