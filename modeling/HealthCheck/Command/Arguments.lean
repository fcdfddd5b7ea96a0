import HealthCheck.Command

/-!
# Arguments

The command that the arguments of the program ask for. A first word names the action; options and
nothing else follow it. An option that takes a value takes it from its own word, behind an equals
sign or directly, or from the next word unless that starts with a dash. Such an option is complete
only where the next option starts or the arguments end, which decides which of two faults is
reported.
-/

namespace HealthCheck.Command

/-- Why arguments are no command. -/
inductive UsageError where
  /-- Help is asked for. -/
  | help
  /-- There is nothing to do. -/
  | nothingToDo
  /-- The version is asked for. -/
  | version
  /-- A word is no action. -/
  | unknownAction
  /-- A word is no option, or no option may stand there. -/
  | unknownArgument
  /-- An option lacks its value. -/
  | missingValue
  /-- An option has a value and takes none. -/
  | unexpectedValue
  /-- Options exclude each other, or one that may stand once is repeated. -/
  | conflict
deriving DecidableEq, Repr

/-! ## Options -/

/-- An option. -/
inductive Switch where
  | config
  | verbose
  | printJson
  | printYaml
  | help
deriving DecidableEq, Repr

namespace Switch

/-- All options. -/
def all : List Switch := [config, verbose, printJson, printYaml, help]

/-- The name of an option behind two dashes. -/
def long : Switch → Text
  | config => "config".toList
  | verbose => "verbose".toList
  | printJson => "print-json".toList
  | printYaml => "print-yaml".toList
  | help => "help".toList

/-- The letter of an option behind one dash. -/
def short : Switch → Char
  | config => 'c'
  | verbose => 'v'
  | printJson => 'p'
  | printYaml => 'y'
  | help => 'h'

/-- The option is one of evaluation alone. -/
def prints : Switch → Bool
  | printJson => true
  | printYaml => true
  | _ => false

end Switch

/-- The action that a word names; the format of evaluation is settled by options. -/
def action? (word : Text) : Option Action :=
  if word = "validate".toList then some .validate
  else if word = "evaluate".toList then some (.evaluate .console)
  else none

/-- The options that an action has. -/
def switches : Action → List Switch
  | .validate => Switch.all.filter (!·.prints)
  | .evaluate _ => Switch.all

/-! ## Reading options -/

/-- The options so far. -/
structure Draft where
  config : Option Text := none
  /-- The option for the file has been named and is not complete; it may have its value. -/
  pending : Option (Option Text) := none
  verbosity : Nat := 0
  printJson : Bool := false
  printYaml : Bool := false

namespace Draft

/-- Sets the file. -/
def setConfig (d : Draft) (file : Text) : Except UsageError Draft :=
  if d.config.isSome then .error .conflict else .ok { d with config := some file, pending := none }

/-- Completes the option for the file. -/
def complete (d : Draft) : Except UsageError Draft :=
  match d.pending with
  | none => .ok d
  | some none => .error .missingValue
  | some (some file) => d.setConfig file

/-- The option for the file still lacks its value. -/
def awaitsValue (d : Draft) : Bool := d.pending == some none

/-- Takes an option without a value. -/
def take (d : Draft) (s : Switch) : Except UsageError Draft := do
  let d ← d.complete
  match s with
  | .config => return { d with pending := some none }
  | .verbose => return { d with verbosity := d.verbosity + 1 }
  | .printJson => if d.printJson then throw .conflict else return { d with printJson := true }
  | .printYaml => if d.printYaml then throw .conflict else return { d with printYaml := true }
  | .help => throw .help

/-- Takes the option for the file with a value in the same word. -/
def takeFile (d : Draft) (file : Text) : Except UsageError Draft := do (← d.complete).setConfig file

/-- The name and the value of a long option. -/
def splitValue (word : Text) : Text × Option Text :=
  match Text.breakOn? ['='] word with
  | some (name, value) => (name, some value)
  | none => (word, none)

/-- Takes a word behind two dashes. -/
def takeLong (known : List Switch) (d : Draft) (word : Text) : Except UsageError Draft :=
  let (name, value) := splitValue word
  match known.find? (·.long == name) with
  | none => .error .unknownArgument
  | some s =>
    match value with
    | none => d.take s
    | some value => if s = .config then d.takeFile value else .error .unexpectedValue

/-- Takes the letters behind one dash. -/
def takeShort (known : List Switch) : Draft → Text → Except UsageError Draft
  | d, [] => .ok d
  | d, c :: rest =>
    match known.find? (·.short == c) with
    | none => .error .unknownArgument
    | some s =>
      if s = .config ∧ rest ≠ [] then d.takeFile ((Text.after? ['='] rest).getD rest)
      else do takeShort known (← d.take s) rest

/-- Takes the words behind the action. Behind two dashes alone no option may follow, nor anything
else. -/
def takeWords (known : List Switch) : Draft → List Text → Except UsageError Draft
  | d, [] => d.complete
  | d, word :: rest =>
    match word with
    | ['-', '-'] => if rest = [] then d.complete else .error .unknownArgument
    | '-' :: '-' :: name => do takeWords known (← d.takeLong known name) rest
    | '-' :: c :: letters => do takeWords known (← d.takeShort known (c :: letters)) rest
    -- A dash alone is a word like any other.
    | word =>
      if d.awaitsValue then takeWords known { d with pending := some (some word) } rest
      else .error .unknownArgument

/-- The action with the format that options ask for. -/
def settle (d : Draft) : Action → Except UsageError Action
  | .validate => .ok .validate
  | .evaluate _ =>
    if d.printJson && d.printYaml then .error .conflict
    else .ok (.evaluate (if d.printJson then .json else if d.printYaml then .yaml else .console))

end Draft

/-- The command of an action and the words behind it. -/
def ofWords (action : Action) (words : List Text) : Except UsageError Command := do
  let d ← Draft.takeWords (switches action) {} words
  return { action := ← d.settle action, config := d.config, verbosity := d.verbosity }

/-! ## Reading arguments -/

/-- The word that asks for help on an action. -/
def helpWord : Text := "help".toList

/-- What the words behind the request for help come to. -/
def helpOn : List Text → UsageError
  | [] => .help
  | [word] => if (action? word).isSome ∨ word = helpWord then .help else .unknownAction
  | _ => .unknownAction

/-- What a word that starts with a dash comes to where an action is expected. -/
def leadingOption (word : Text) : UsageError :=
  match word with
  | '-' :: '-' :: name =>
    let (name, value) := Draft.splitValue name
    if !name.isOneOf ["help", "version"] then .unknownArgument
    else if value.isSome then .unexpectedValue
    else if name = "help".toList then .help
    else .version
  | _ :: 'h' :: _ => .help
  | _ :: 'V' :: _ => .version
  | _ => .unknownArgument

/-- What the words behind two dashes come to where an action is expected. -/
def behindDashes : List Text → UsageError
  | [] => .nothingToDo
  | word :: _ =>
    if (action? word).isSome ∨ word = helpWord then .unknownArgument else .unknownAction

/-- The command that arguments ask for. -/
def ofArguments (arguments : List Text) : Except UsageError Command :=
  match arguments with
  | [] => .error .nothingToDo
  | ['-', '-'] :: rest => .error (behindDashes rest)
  | word :: rest =>
    match action? word with
    | some action => ofWords action rest
    | none =>
      if word = helpWord then .error (helpOn rest)
      else if word.head? = some '-' ∧ word ≠ ['-'] then .error (leadingOption word)
      else .error .unknownAction

end HealthCheck.Command
