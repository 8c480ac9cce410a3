/-!
# Invocations

What a command line asks for: a command, the query it is about, a limit on nesting and a choice of
colors.  `UsageError` lists the ways in which arguments may fail to ask for anything.
-/

namespace SearchQuery

/-- What is to be done with a query. -/
inductive Command where
  /-- Show its outline. -/
  | outline
  /-- Show it as JSON. -/
  | json (compact : Bool)
  /-- Only say what is wrong with it. -/
  | check
deriving DecidableEq

/-- When to use colors. -/
inductive ColorChoice where
  /-- On a terminal. -/
  | auto
  | always
  | never
deriving DecidableEq

namespace ColorChoice

/-- Whether colors are used, where the choice alone decides it. -/
def decided? : ColorChoice → Option Bool
  | auto => none
  | always => some true
  | never => some false

end ColorChoice

/-- What a command line asks for. -/
structure Invocation where
  command : Command
  queryPath : Option String := none
  queryText : Option String := none
  maxDepth : Option Nat := none
  color : ColorChoice := .auto
deriving DecidableEq

/-- Why arguments ask for nothing to be done. -/
inductive UsageError where
  /-- Help is asked for. -/
  | help
  /-- There is no command, so that help may be needed. -/
  | nothingAsked
  | unknownCommand
  | unknownArgument
  /-- An option without its value, or with one that it does not take. -/
  | invalidValue
  /-- A number that is none, or is out of range. -/
  | invalidNumber
  /-- The same option twice, or two that exclude each other. -/
  | conflict
  /-- A value for a flag that takes none. -/
  | needlessValue
deriving DecidableEq

namespace UsageError

/-- The report of arguments that ask for nothing. -/
def message : UsageError → String
  | help => "a command is one of ast, json and check, and takes a file or -q and a query"
  | nothingAsked => "a command is missing"
  | unknownCommand => "there is no such command"
  | unknownArgument => "there is an argument that the command does not take"
  | invalidValue => "a value is missing or not one of those that can be chosen"
  | invalidNumber => "a number is malformed or out of range"
  | conflict => "two arguments exclude each other"
  | needlessValue => "a flag takes no value"

end UsageError

end SearchQuery
