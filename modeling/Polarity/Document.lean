import Polarity.Json.Printer
import Polarity.Text.Words

/-!
# Documents

A document is the list of words of one review, with a name for where it came
from.
-/

namespace Polarity

structure Document where
  source : String
  words : List String
  deriving DecidableEq, Repr

namespace Document

def ofText (source text : String) : Document := ⟨source, Text.tokenize text⟩

def ofWords (words : List String) : Document := ⟨"<memory>", words⟩

def fieldNames : List String := ["source", "tokens"]

def toJson (document : Document) : Json.Value :=
  .record [("source", .ofText document.source), ("tokens", .ofList .ofText document.words)]

def ofJson? (value : Json.Value) : Option Document := do
  match ← value.fields? fieldNames with
  | [some source, some words] => return ⟨← source.text?, ← words.list? Json.Value.text?⟩
  | _ => none

end Document

end Polarity
