/-!
# Splitting text

`splitAt` cuts a text at every occurrence of a character; the parts with that character between
them are the text again, so there is one part more than there are cuts.
-/

namespace Schemata.Text

/-- The parts of a text between occurrences of a character. -/
def splitAt (separator : Char) : List Char → List (List Char)
  | [] => [[]]
  | c :: rest =>
    if c = separator then [] :: splitAt separator rest
    else
      match splitAt separator rest with
      | [] => [[c]]
      | part :: parts => (c :: part) :: parts

end Schemata.Text
