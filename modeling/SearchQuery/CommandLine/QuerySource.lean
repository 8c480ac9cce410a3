import SearchQuery.Text.Split

/-!
# Where a query comes from

The text of a query is given in place, or it is read from a file or from standard input.  Reading
answers bytes or the reason why there are none, and the bytes must be UTF-8.  A text that was read
keeps the name under which it is reported.

`FileTree` is a tree of files by their paths, so that what a program answers can be said for given
files without touching any.
-/

namespace SearchQuery

/-- Where the text of a query is to be found. -/
inductive QuerySource where
  | inPlace (text : String)
  | standardInput
  | file (path : String)
  | missing
deriving DecidableEq

/-- The text of a query and the name it is reported under. -/
structure LoadedQuery where
  text : String
  origin : Option String := none
deriving DecidableEq

/-- Why nothing could be read. -/
inductive ReadFailure where
  | notFound
  | notADirectory
  | isADirectory
  | notUtf8
  /-- Any other reason, in the words of the system. -/
  | other (reason : String)
deriving DecidableEq

/-- Why there is no query text. -/
inductive LoadError where
  | missing
  | standardInput (cause : ReadFailure)
  | file (path : String) (cause : ReadFailure)
deriving DecidableEq

namespace ReadFailure

/-- The report of a failure to read. -/
def message : ReadFailure → String
  | notFound => "No such file or directory (os error 2)"
  | notADirectory => "Not a directory (os error 20)"
  | isADirectory => "Is a directory (os error 21)"
  | notUtf8 => "stream did not contain valid UTF-8"
  | other reason => reason

end ReadFailure

namespace LoadError

/-- The report of a missing text. -/
def message : LoadError → String
  | missing => "query is required: use positional argument, -q/--query, or - for stdin"
  | standardInput cause => "failed to read stdin: " ++ cause.message
  | file path cause => "failed to read '" ++ path ++ "': " ++ cause.message

end LoadError

/-- The text that bytes stand for. -/
def textOfBytes (bytes : ByteArray) : Except ReadFailure String :=
  match String.fromUTF8? bytes with
  | none => .error .notUtf8
  | some text => .ok text

namespace QuerySource

/-- Where a query is to be found, given its path and its text.  The text wins, and a hyphen is the
path of standard input. -/
def ofOptions (path text : Option String) : QuerySource :=
  match text, path with
  | some text, _ => inPlace text
  | none, some path => if path = "-" then standardInput else file path
  | none, none => missing

/-- The query text, once the bytes of its source, or the reason why there are none, are known. -/
def load (source : QuerySource) (read : Except ReadFailure ByteArray) :
    Except LoadError LoadedQuery :=
  match source with
  | inPlace text => .ok { text }
  | missing => .error .missing
  | standardInput =>
    match read.bind textOfBytes with
    | .ok text => .ok { text, origin := some "<stdin>" }
    | .error cause => .error (.standardInput cause)
  | file path =>
    match read.bind textOfBytes with
    | .ok text => .ok { text, origin := some path }
    | .error cause => .error (.file path cause)

end QuerySource

/-! ## Trees of files -/

/-- Files by their paths, each path a list of names. -/
structure FileTree where
  files : List (List String × ByteArray)

namespace FileTree

/-- The names that a path is made of. -/
def names (path : String) : List String := (Text.splitAt '/' path.toList).map String.ofList

/-- Whether a directory stands at these names. -/
def isDirectory (tree : FileTree) (names : List String) : Bool :=
  names.isEmpty ||
    tree.files.any fun (file, _) => names.length < file.length && names.isPrefixOf file

/-- The bytes of the file at these names. -/
def file? (tree : FileTree) (names : List String) : Option ByteArray :=
  (tree.files.find? fun (file, _) => file == names).map (·.2)

/-- The tree outside of every tree of files, in which no file is. -/
def outside : FileTree := ⟨[]⟩

/-- Follows names from a directory on, and reads what is there.  A dot stays in a directory, two
lead out of it, and an empty name, as between two slashes or after the last one, stays too.  Two
dots at the top lead out of the tree. -/
def follow (tree : FileTree) : (here : List String) → List String → Except ReadFailure ByteArray
  | here, [] =>
    if tree.isDirectory here then .error .isADirectory
    else
      match tree.file? here with
      | some bytes => .ok bytes
      | none => .error .notFound
  | here, name :: more =>
    if tree.isDirectory here then
      if name = "" ∨ name = "." then follow tree here more
      else if name = ".." then
        if here = [] then follow outside [] more else follow tree here.dropLast more
      else follow tree (here ++ [name]) more
    else if (tree.file? here).isSome then .error .notADirectory
    else .error .notFound

/-- Reads the file at a path.  The empty path leads nowhere, and a path that starts with a slash to
the root, outside of the tree. -/
def read (tree : FileTree) (path : String) : Except ReadFailure ByteArray :=
  match names path with
  | [""] => .error .notFound
  | "" :: more => follow outside [] more
  | path => follow tree [] path

/-- Reads what a query source names. -/
def readSource (tree : FileTree) (standardInput : ByteArray) :
    QuerySource → Except ReadFailure ByteArray
  | .inPlace _ | .missing => .error .notFound
  | .standardInput => .ok standardInput
  | .file path => tree.read path

end FileTree

end SearchQuery
