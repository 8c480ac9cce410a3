import SearchQuery.CommandLine.Run

/-!
# The program

Reads the arguments, the query they name, and whether errors go to a terminal; prints what the run
of the invocation says.
-/

namespace SearchQuery

/-- The reason why the system did not give a file. -/
def ReadFailure.ofError (e : IO.Error) : ReadFailure :=
  match e with
  | .noFileOrDirectory _ _ _ => .notFound
  | .inappropriateType _ code _ =>
    if code = 21 then .isADirectory else if code = 20 then .notADirectory else .other (toString e)
  | e => .other (toString e)

/-- Reads the bytes that a query source names. -/
def QuerySource.bytes (source : QuerySource) : IO (Except ReadFailure ByteArray) := do
  try
    match source with
    | .file path =>
      let handle ← IO.FS.Handle.mk path .read
      return .ok (← handle.readBinToEnd)
    | .standardInput =>
      let mut bytes := ByteArray.empty
      let input ← IO.getStdin
      repeat
        let more ← input.read 65536
        if more.isEmpty then break
        bytes := bytes ++ more
      return .ok bytes
    | .inPlace _ | .missing => return .error .notFound
  catch e => return .error (.ofError e)

/-- Runs a command line. -/
def runProgram (arguments : List String) : IO Exit := do
  match Invocation.ofArguments arguments with
  | .error cause => return .ofUsageError cause
  | .ok invocation =>
    let errors ← IO.getStderr
    let isColored ←
      match invocation.color.decided? with
      | some choice => pure choice
      | none => errors.isTty
    let read ← invocation.source.bytes
    return invocation.run (invocation.source.load read) (.ofChoice isColored)

end SearchQuery

/-- Runs the program on its arguments. -/
def main (arguments : List String) : IO UInt32 := do
  let exit ← SearchQuery.runProgram arguments
  IO.print exit.output
  IO.eprint exit.errors
  return exit.code.toUInt32
