import SearchQuery.CommandLine.Arguments
import SearchQuery.CommandLine.QuerySource
import SearchQuery.Parse.Limits
import SearchQuery.Query.Json
import SearchQuery.Report.Snippet

/-!
# Running a command line

A run ends with an exit code and what is written to standard output and standard error.  Code 0 is
success, 1 a query that cannot be loaded or is rejected, 2 arguments that ask for nothing.
-/

namespace SearchQuery

/-- How a run ends. -/
structure Exit where
  code : Nat
  output : String := ""
  errors : String := ""
deriving DecidableEq

/-- A rejection shown over the query it is about, with a line break at the end. -/
def LoadedQuery.renderRejection? (loaded : LoadedQuery) (cause : Rejection) (palette : Palette) :
    Option String :=
  ((Diagnostic.ofRejection cause).render? loaded.text.toList loaded.origin palette).map fun text =>
    if text.endsWith "\n" then text else text ++ "\n"

namespace Command

/-- What a command prints of a query. -/
def output (command : Command) (query : Query) : String :=
  match command with
  | outline => query.outline
  | json true => query.json .compact ++ "\n"
  | json false => query.json .pretty ++ "\n"
  | check => ""

end Command

namespace Invocation

/-- The limits that a query is read within. -/
def limits (invocation : Invocation) : Limits :=
  match invocation.maxDepth with
  | none => {}
  | some depth => { nesting := some depth }

/-- Where the query is to be found. -/
def source (invocation : Invocation) : QuerySource :=
  .ofOptions invocation.queryPath invocation.queryText

/-- The end of a run that breaks off. -/
def brokenOff : Exit := { code := 101 }

/-- Runs an invocation, once its query is loaded or known to be lacking. -/
def run (invocation : Invocation) (loaded : Except LoadError LoadedQuery) (palette : Palette) :
    Exit :=
  match loaded with
  | .error cause => { code := 1, errors := "error: " ++ cause.message ++ "\n" }
  | .ok loaded =>
    match invocation.limits.parse loaded.text with
    | .accepted query => { code := 0, output := invocation.command.output query }
    | .rejected cause =>
      match loaded.renderRejection? cause palette with
      | some report => { code := 1, errors := report }
      | none => brokenOff
    | .fault _ => brokenOff

end Invocation

namespace Exit

/-- The end of a run whose arguments ask for nothing. -/
def ofUsageError : UsageError → Exit
  | .help => { code := 0, output := UsageError.help.message ++ "\n" }
  | cause => { code := 2, errors := "error: " ++ cause.message ++ "\n" }

/-- The end of a run with given arguments, files and standard input, away from a terminal. -/
def ofArguments (arguments : List String) (files : FileTree) (standardInput : ByteArray) : Exit :=
  match Invocation.ofArguments arguments with
  | .error cause => ofUsageError cause
  | .ok invocation =>
    let loaded := invocation.source.load (files.readSource standardInput invocation.source)
    invocation.run loaded (.ofChoice (invocation.color.decided?.getD false))

end Exit

end SearchQuery
