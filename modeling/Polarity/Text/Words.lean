import Polarity.Text.Lowercase

/-!
# From text to words

A text is lowercased as a whole and then cut at its blanks; the pieces between
them, empty ones left out, are its words.
-/

namespace Polarity.Text

def pieces (text : List Char) : List (List Char) :=
  (text.splitOnP isBlank).filter fun piece => !piece.isEmpty

def tokenize (text : String) : List String :=
  (pieces (lowercase text.toList)).map String.ofList

end Polarity.Text
