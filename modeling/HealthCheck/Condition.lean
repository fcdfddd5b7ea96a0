import HealthCheck.Equality
import HealthCheck.Number.Ordering
import HealthCheck.Operand

/-!
# Conditions

A condition is two operands with an operator between them, as in `[STATUS] == 200`. It is kept as
written and cut at its operator when it is evaluated: of the operators that stand between single
spaces the one of highest priority counts, the first operand is what precedes its first occurrence,
and the second what follows up to its next occurrence.

`==` and `!=` compare the texts that the operands resolve to, the other operators the integers that
those texts stand for; reading these may stop the evaluation. A condition without an operator is
invalid: evaluating it records an error and nothing else.
-/

namespace HealthCheck

/-! ## Operators -/

/-- The operators. -/
inductive Operator where
  | equal
  | notEqual
  | atMost
  | atLeast
  | above
  | below
deriving DecidableEq, Repr

namespace Operator

/-- The operators, from the highest priority down. -/
def priority : List Operator := [equal, notEqual, atMost, atLeast, above, below]

/-- How an operator is written. -/
def symbol : Operator → Text
  | equal => "==".toList
  | notEqual => "!=".toList
  | atMost => "<=".toList
  | atLeast => ">=".toList
  | above => ">".toList
  | below => "<".toList

/-- The operator compares integers and not texts. -/
def isOrdering : Operator → Bool
  | equal => false
  | notEqual => false
  | _ => true

/-- The operator holds of two integers. -/
def holds : Operator → Int → Int → Bool
  | equal, m, n => m == n
  | notEqual, m, n => m != n
  | atMost, m, n => m ≤ n
  | atLeast, m, n => n ≤ m
  | above, m, n => n < m
  | below, m, n => m < n

/-- An operator between single spaces. -/
def separator (o : Operator) : Text := ' ' :: o.symbol ++ [' ']

end Operator

/-! ## Showing a condition with its values -/

/-- When the text of an outcome shows what the operands resolved to. -/
structure Display where
  /-- Failures show the condition as written. -/
  hideFailures : Bool := false
  /-- Successes show their values. -/
  showSuccesses : Bool := false
deriving DecidableEq, Repr

namespace Display

/-- An outcome shows the values of its operands. -/
def resolves (d : Display) (success : Bool) : Bool :=
  if success then d.showSuccesses else !d.hideFailures

/-- The longest text that is shown in full beside a pattern. -/
def widthBesidePattern : Nat := 25

/-- Cuts a text that is too long to be shown beside a pattern. -/
def abbreviate (t : Text) : Text :=
  if widthBesidePattern < t.length then t.take widthBesidePattern ++ "...(truncated)".toList else t

/-- The text is the operand followed by the mark of a failed lookup. -/
def isFailure (operand shown : Text) : Bool := shown == (Resolution.failed operand).text

/-- An operand, with what it resolved to in parentheses where that is something else. -/
def showOperand (operand shown : Text) : Text :=
  if isFailure operand shown then shown
  else if operand ≠ shown then operand ++ " (".toList ++ shown ++ ")".toList
  else operand

/-- What an operand resolved to, cut where the other operand is a pattern. -/
def besideOperand (other shown : Text) : Text :=
  if (Call.pattern.argument? other).isSome then abbreviate shown else shown

/-- A condition with what its operands resolved to. -/
def showCondition (o : Operator) (first second shownFirst shownSecond : Text) : Text :=
  showOperand first (besideOperand second shownFirst) ++ o.separator ++
    showOperand second (besideOperand first shownSecond)

/-- How the integer of an operand is shown: as a duration where the operand is an expiration or a
duration literal. -/
def showNumber (operand : Text) (n : Int) : Except Abort Text := do
  match Placeholder.ofToken? operand with
  | some .certificateExpiration => return Duration.write n
  | some .domainExpiration => return Duration.write n
  | _ =>
    return if (← Duration.millis? operand).isSome then Duration.write n else Text.ofInt n

end Display

/-! ## Conditions -/

/-- A condition as written. -/
structure Condition where
  text : Text
deriving DecidableEq, Repr

namespace Condition

/-- The operands of a text at one operator: what precedes its first occurrence and what follows up
to the next. -/
def splitAt? (o : Operator) (t : Text) : Option (Text × Text) :=
  (Text.breakOn? o.separator t).map fun (first, rest) =>
    let second := ((Text.breakOn? o.separator rest).map Prod.fst).getD rest
    (Text.trim first, Text.trim second)

/-- The operator of a condition and its operands. -/
def split (c : Condition) : Option (Operator × Text × Text) :=
  Operator.priority.findSome? fun o => (splitAt? o c.text).map (o, ·)

/-- Whether an ordering holds of two operands that resolved to the given texts, and how it is
shown. -/
def compareNumbers (c : Condition) (d : Display) (o : Operator) (first second : Text)
    (textFirst textSecond : Text) : Except Abort ConditionOutcome := do
  let m ← textFirst.toNumber
  let n ← textSecond.toNumber
  let success := o.holds m n
  if d.resolves success then
    let shownFirst ← Display.showNumber first m
    let shownSecond ← Display.showNumber second n
    return ⟨Display.showCondition o first second shownFirst shownSecond, success⟩
  else return ⟨c.text, success⟩

/-- Whether an equation holds of two operands that resolved to the given texts, and how it is
shown. -/
def compareTexts (c : Condition) (d : Display) (o : Operator) (first second : Text)
    (textFirst textSecond : Text) : ConditionOutcome :=
  let equal := isEqual textFirst textSecond
  let success := if o = .equal then equal else !equal
  let shown := Display.showCondition o first second textFirst textSecond
  ⟨if d.resolves success then shown else c.text, success⟩

/-- The outcome of a condition on a probe result, or nothing where it has no operator. -/
def outcome (c : Condition) (d : Display) (context : Option Context) (p : Probe) :
    Except Abort (Option ConditionOutcome) := do
  match c.split with
  | none => return none
  | some (o, first, second) =>
    let textFirst := (Operand.resolve first p context).text
    let textSecond := (Operand.resolve second p context).text
    if o.isOrdering then return some (← c.compareNumbers d o first second textFirst textSecond)
    else return some (c.compareTexts d o first second textFirst textSecond)

/-- Evaluates a condition: appends its outcome to the probe result, or records an error where it has
no operator, and tells whether it holds. -/
def evaluate (c : Condition) (d : Display) (context : Option Context) (p : Probe) :
    Except Abort (Probe × Bool) := do
  match ← c.outcome d context p with
  | some outcome => return (p.addOutcome outcome, outcome.success)
  | none => return (p.addError (Error.invalidCondition c.text).message, false)

/-- Checks a condition by evaluating it on an empty probe result, which records an error where there
is no operator. What the operands resolve to does not matter unless evaluation stops at it. -/
def validate (c : Condition) : Except Abort (Except Error Unit) := do
  let (p, _) ← c.evaluate {} none {}
  return if p.errors.isEmpty then .ok () else .error (.invalidCondition c.text)

/-! ## What a condition needs -/

/-- The condition's text has a placeholder in it, in capitals. -/
def mentions (c : Condition) (p : Placeholder) : Bool := Text.contains p.token c.text

/-- Evaluating the condition needs the body. -/
def needsBody (c : Condition) : Bool := c.mentions .body

/-- Evaluating the condition needs the expiration of the domain. -/
def needsDomainExpiration (c : Condition) : Bool := c.mentions .domainExpiration

/-- Evaluating the condition needs the address. -/
def needsIp (c : Condition) : Bool := c.mentions .ip

end Condition

end HealthCheck
