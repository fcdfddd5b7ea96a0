import HealthCheck.Text.Basic

/-!
# Errors

What can go wrong, by cause. `Error.message` is the one place that words a cause.
-/

namespace HealthCheck

/-- A cause of failure. -/
inductive Error where
  /-- A manifest is not readable as YAML or has a field of the wrong kind. -/
  | malformedManifest
  /-- A file or a stream cannot be read, for the reason given. -/
  | unreadable (reason : Text)
  /-- A condition has no operator. -/
  | invalidCondition (condition : Text)
  /-- A path leads nowhere in a context. -/
  | pathNotFound (path : Text)
  /-- A context is written at no path. -/
  | emptyPath
  /-- An object of a body lacks a key. -/
  | keyNotFound (key : Text)
  /-- A key of a body holds null. -/
  | nullAtKey (key : Text)
  /-- An index of a body holds null. -/
  | nullAtIndex (index : Int)
  /-- An array of a body lacks an index. -/
  | indexOutOfBounds (index : Int)
  /-- A key is looked up in something other than an object. -/
  | notAnObject (key : Text)
  /-- An index is looked up in something other than an array. -/
  | notAnArray
  /-- What stands between brackets is not an integer. -/
  | invalidIndex (index : Text)
  /-- A bracket of a path is not closed. -/
  | unclosedBracket
  /-- A body is not JSON. -/
  | malformedBody
  /-- A manifest has neither endpoints nor suites. -/
  | emptyManifest
  /-- Two endpoints of a manifest share a name. -/
  | duplicateEndpoint (name : Text)
  /-- Two suites of a manifest share a name. -/
  | duplicateSuite (name : Text)
  /-- An endpoint has a blank name. -/
  | namelessEndpoint
  /-- An endpoint has no conditions. -/
  | noConditions (name : Text)
  /-- A suite has a blank name. -/
  | namelessSuite
  /-- A suite has no steps. -/
  | noSteps (suite : Text)
  /-- Two steps of a suite share a name. -/
  | duplicateStep (suite step : Text)
  /-- A step of a suite is not a valid endpoint. -/
  | invalidStep (suite step : Text) (cause : Error)
  /-- A captured text is the mark of a failed lookup. -/
  | invalidStorePath (path : Text)
  /-- The value for a context key cannot be captured. -/
  | notCaptured (key : Text) (cause : Error)
  /-- Several causes at once. -/
  | several (causes : List Error)

namespace Error

/-- The wording of a configuration problem. -/
def configuration (problem : Text) : Text := "invalid configuration: ".toList ++ problem

/-- A name in single quotes. -/
def quote (name : Text) : Text := '\'' :: name ++ ['\'']

mutual

/-- The wording of an error. -/
def message : Error → Text
  | malformedManifest =>
    "Error parsing incoming YAML the document is not a well-formed manifest".toList
  | unreadable reason => "I/O error when reading ".toList ++ reason
  | invalidCondition condition => "invalid condition: ".toList ++ condition
  | pathNotFound path => "context path not found: ".toList ++ path
  | emptyPath => "empty path".toList
  | keyNotFound key => "key not found: ".toList ++ key
  | nullAtKey key => "nil value at key: ".toList ++ key
  | nullAtIndex index => "nil value at index: ".toList ++ Text.ofInt index
  | indexOutOfBounds index => "index out of bounds: ".toList ++ Text.ofInt index
  | notAnObject key => "cannot access key ".toList ++ quote key ++ " on non-object type".toList
  | notAnArray => "cannot access index on non-array type".toList
  | invalidIndex index => "invalid index: ".toList ++ index
  | unclosedBracket => "unclosed bracket in path".toList
  | malformedBody => "invalid JSON: the body is not one JSON document".toList
  | emptyManifest => configuration "manifest must define at least one endpoint or suite".toList
  | duplicateEndpoint name => configuration ("duplicate endpoint name ".toList ++ quote name)
  | duplicateSuite name => configuration ("duplicate suite name ".toList ++ quote name)
  | namelessEndpoint => configuration "endpoint must have a name".toList
  | noConditions name =>
    configuration ("endpoint ".toList ++ quote name ++ " must have at least one condition".toList)
  | namelessSuite => configuration "suite must have a name".toList
  | noSteps suite =>
    configuration ("suite ".toList ++ quote suite ++ " must have at least one endpoint".toList)
  | duplicateStep suite step =>
    configuration
      ("suite ".toList ++ quote suite ++ " has duplicate endpoint name ".toList ++ quote step)
  | invalidStep suite step cause =>
    configuration
      ("suite ".toList ++ quote suite ++ ", endpoint ".toList ++ quote step ++ ": ".toList ++
        message cause)
  | invalidStorePath path => "invalid path: ".toList ++ path
  | notCaptured key cause => key ++ ": ".toList ++ message cause
  | several causes => Text.join "; ".toList (messages causes)

/-- The wordings of several errors. -/
def messages : List Error → List Text
  | [] => []
  | e :: es => message e :: messages es

end

/-- The single causes of an error, one by one. -/
def causes : Error → List Error
  | several es => es
  | e => [e]

end Error

end HealthCheck
