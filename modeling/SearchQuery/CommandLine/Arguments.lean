import SearchQuery.CommandLine.Invocation

/-!
# Arguments

Arguments are read from left to right.  An option waits for its value in the next argument; the
value is looked at when the next option or the end comes, so that an argument that nobody knows is
reported before a value that is wrong.  A value attached to its option is looked at there and then.

An argument that starts with a hyphen and goes on is an option, also where a value is awaited.  A
lone hyphen is a value like any other, and after a lone double hyphen every argument is one.
-/

namespace SearchQuery

/-! ## The form of an argument -/

/-- What an argument looks like. -/
inductive Argument where
  /-- Two hyphens and nothing else. -/
  | separator
  /-- Two hyphens and a name, perhaps with an equals sign and a value. -/
  | long (name : String) (value : Option String)
  /-- One hyphen, a letter, and what follows the letter. -/
  | short (letter : Char) (rest : List Char)
  | plain (text : String)
deriving DecidableEq

namespace Argument

/-- Splits a name from the value after its first equals sign. -/
def splitValue (text : List Char) : Argument :=
  let name := String.ofList (text.takeWhile (· ≠ '='))
  match text.dropWhile (· ≠ '=') with
  | [] => long name none
  | _ :: value => long name (some (String.ofList value))

/-- What the text of an argument looks like. -/
def ofString (text : String) : Argument :=
  match text.toList with
  | ['-', '-'] => separator
  | '-' :: '-' :: rest => splitValue rest
  | '-' :: letter :: rest => short letter rest
  | _ => plain text

/-- The value attached to a letter: what follows it, less an equals sign. -/
def attached? : List Char → Option String
  | [] => none
  | '=' :: value => some (String.ofList value)
  | value => some (String.ofList value)

end Argument

/-! ## What is gathered -/

/-- What takes a value. -/
inductive Slot where
  | queryPath
  | queryText
  | maxDepth
  | color
deriving DecidableEq

/-- What has been read so far. -/
structure Gathered where
  queryPath : Option String := none
  queryText : Option String := none
  maxDepth : Option Nat := none
  color : Option ColorChoice := none
  compact : Bool := false
  /-- What was met last, with its value if that came too. -/
  pending : Option (Slot × Option String) := none
deriving DecidableEq

/-- A number written in digits, as far as it is not too large. -/
def numberUpTo? (limit : Nat) (digits : List Char) : Option Nat :=
  if digits ≠ [] ∧ digits.all Char.isDigit then
    let n := digits.foldl (fun n c => 10 * n + (c.toNat - '0'.toNat)) 0
    if n ≤ limit then some n else none
  else none

/-- A nesting depth: a number, perhaps with a sign, from nothing to the largest in 32 bits. -/
def depth? (text : String) : Option Nat :=
  match text.toList with
  | '+' :: digits => numberUpTo? 4294967295 digits
  | '-' :: digits => numberUpTo? 0 digits
  | digits => numberUpTo? 4294967295 digits

/-- A choice of colors. -/
def ColorChoice.ofString? (text : String) : Option ColorChoice :=
  if text = "auto" then some .auto
  else if text = "always" then some .always
  else if text = "never" then some .never
  else none

namespace Gathered

/-- Whether a slot has its value. -/
def has (g : Gathered) : Slot → Bool
  | .queryPath => g.queryPath.isSome
  | .queryText => g.queryText.isSome
  | .maxDepth => g.maxDepth.isSome
  | .color => g.color.isSome

/-- Looks at a value and puts it into its slot. -/
def fill (g : Gathered) (slot : Slot) (value : String) : Except UsageError Gathered :=
  if g.has slot then .error .conflict
  else
    match slot with
    | .queryPath =>
      if value = "" then .error .invalidValue else .ok { g with queryPath := some value }
    | .queryText => .ok { g with queryText := some value }
    | .maxDepth =>
      match depth? value with
      | none => .error .invalidNumber
      | some depth => .ok { g with maxDepth := some depth }
    | .color =>
      match ColorChoice.ofString? value with
      | none => .error .invalidValue
      | some choice => .ok { g with color := some choice }

/-- Looks at what was met last, before something else is. -/
def settle (g : Gathered) : Except UsageError Gathered :=
  match g.pending with
  | none => .ok g
  | some (_, none) => .error .invalidValue
  | some (slot, some value) => { g with pending := none }.fill slot value

/-- Takes an option, with its value if that is attached. -/
def option (g : Gathered) (slot : Slot) (attached : Option String) :
    Except UsageError Gathered := do
  let g ← g.settle
  match attached with
  | some value => g.fill slot value
  | none => pure { g with pending := some (slot, none) }

/-- Takes the flag for compact output. -/
def compactFlag (g : Gathered) : Except UsageError Gathered := do
  let g ← g.settle
  if g.compact then .error .conflict else pure { g with compact := true }

/-- Takes the flag that asks for help. -/
def helpFlag {α : Type} (g : Gathered) : Except UsageError α := do
  let _ ← g.settle
  .error .help

/-- Takes an argument that belongs to no option.  There is room for one. -/
def positional (g : Gathered) (text : String) : Except UsageError Gathered := do
  let taken :=
    match g.pending with
    | some (.queryPath, _) => true
    | _ => g.queryPath.isSome
  if taken then .error .unknownArgument
  else
    let g ← g.settle
    pure { g with pending := some (.queryPath, some text) }

/-- Takes an argument that may be an awaited value. -/
def valueOrPositional (g : Gathered) (text : String) : Except UsageError Gathered :=
  match g.pending with
  | some (slot, none) => pure { g with pending := some (slot, some text) }
  | _ => g.positional text

/-- Takes an argument that starts with two hyphens. -/
def long (g : Gathered) (forJson : Bool) (name : String) (value : Option String) :
    Except UsageError Gathered :=
  if name = "query" then g.option .queryText value
  else if name = "max-depth" then g.option .maxDepth value
  else if name = "color" then g.option .color value
  else if name = "help" ∨ (forJson ∧ name = "compact") then
    match value with
    | some _ => .error .needlessValue
    | none => if name = "help" then g.helpFlag else g.compactFlag
  else .error .unknownArgument

/-- Takes an argument that starts with one hyphen. -/
def short (g : Gathered) (letter : Char) (rest : List Char) : Except UsageError Gathered :=
  if letter = 'q' then g.option .queryText (Argument.attached? rest)
  else if letter = 'h' then g.helpFlag
  else .error .unknownArgument

/-- Reads arguments that all stand for themselves. -/
def scanPlain : List String → Gathered → Except UsageError Gathered
  | [], g => g.settle
  | text :: more, g => do
    let g ← g.positional text
    scanPlain more g

/-- Reads the arguments of a command. -/
def scan (forJson : Bool) : List String → Gathered → Except UsageError Gathered
  | [], g => g.settle
  | text :: more, g =>
    match Argument.ofString text with
    | .separator => scanPlain more g
    | .long name value => do
      let g ← g.long forJson name value
      scan forJson more g
    | .short letter rest => do
      let g ← g.short letter rest
      scan forJson more g
    | .plain text => do
      let g ← g.valueOrPositional text
      scan forJson more g

/-- What the gathered arguments ask for.  A query is given by a path or in place, not both. -/
def invocation (g : Gathered) (command : Command) : Except UsageError Invocation :=
  if g.queryPath.isSome ∧ g.queryText.isSome then .error .conflict
  else .ok
    { command
      queryPath := g.queryPath
      queryText := g.queryText
      maxDepth := g.maxDepth
      color := g.color.getD .auto }

end Gathered

namespace Invocation

/-- The names of the commands, with the one that explains the others. -/
def commandNames : List String := ["ast", "json", "check", "help"]

/-- The command of a name, with the flags that were given for it. -/
def command? (name : String) (compact : Bool) : Option Command :=
  if name = "ast" then some .outline
  else if name = "json" then some (.json compact)
  else if name = "check" then some .check
  else none

/-- What follows the command that explains the others: at most one name of a command. -/
def helpAbout : List String → UsageError
  | [] => .help
  | [name] => if name ∈ commandNames then .help else .unknownCommand
  | _ => .unknownCommand

/-- An argument in place of a command. -/
def noCommand (text : String) : UsageError :=
  match Argument.ofString text with
  | .long name value =>
    if name = "help" then
      match value with
      | some _ => .needlessValue
      | none => .help
    else .unknownArgument
  | .short letter _ => if letter = 'h' then .help else .unknownArgument
  | .separator | .plain _ => .unknownCommand

/-- What arguments ask for; the name of the program is not among them. -/
def ofArguments : List String → Except UsageError Invocation
  | [] => .error .nothingAsked
  | "--" :: more =>
    match more with
    | [] => .error .nothingAsked
    | name :: _ => .error (if name ∈ commandNames then .unknownArgument else .unknownCommand)
  | name :: more =>
    if name = "help" then .error (helpAbout more)
    else
      match command? name false with
      | none => .error (noCommand name)
      | some _ => do
        let g ← Gathered.scan (name == "json") more {}
        match command? name g.compact with
        | none => .error (noCommand name)
        | some command => g.invocation command

end Invocation

end SearchQuery
