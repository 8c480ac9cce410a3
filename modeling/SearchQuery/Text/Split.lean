/-!
# Splitting texts

`splitAt` takes a text apart at every occurrence of a character: a message into its lines, a path
into its names.
-/

namespace SearchQuery.Text

/-- The pieces of a text between the occurrences of a character. -/
def splitAt (separator : Char) : List Char → List (List Char)
  | [] => [[]]
  | c :: rest =>
    if c = separator then [] :: splitAt separator rest
    else
      match splitAt separator rest with
      | [] => [[c]]
      | piece :: pieces => (c :: piece) :: pieces

end SearchQuery.Text
