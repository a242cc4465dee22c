import Polarity.Capacity
import Polarity.Document
import Polarity.Session

/-!
# The review corpus

A corpus has four pools of documents: positive and negative reviews, for
training and for testing.  On disk each pool is a directory with one review per
file.  Files are read in the order of their names as bytes, whatever order the
file system lists them in; directories among them are passed over, as are files
whose paths are too long, and bytes that are not UTF-8 are replaced.
-/

namespace Polarity

open Text (Utf8.Bytes)

/-- The bytes that a document takes up beside those of its words. -/
def documentBytes : Nat := 48

structure Corpus where
  trainPositive : List Document
  trainNegative : List Document
  testPositive : List Document
  testNegative : List Document
  inMemory : ∀ pool ∈ [trainPositive, trainNegative, testPositive, testNegative],
    documentBytes * pool.length ≤ addressLimit := by decide
  deriving DecidableEq, Repr

namespace Corpus

def new (trainPositive trainNegative testPositive testNegative : List Document) :
    Except Error Corpus :=
  if hfit : ∀ pool ∈ [trainPositive, trainNegative, testPositive, testNegative],
      documentBytes * pool.length ≤ addressLimit then
    .ok ⟨trainPositive, trainNegative, testPositive, testNegative, hfit⟩
  else
    .error (.violation .capacity)

def training (corpus : Corpus) : List Document := corpus.trainPositive ++ corpus.trainNegative

def withinReach (directory : Utf8.Bytes) (entries : List (Utf8.Bytes × Entry)) :
    List (Utf8.Bytes × Entry) :=
  entries.filter fun (name, _) => (Path.ofChild directory name).length ≤ Path.longest

/--
The files among the entries of a directory, by name in ascending order of bytes.  Of a
file that is locked there is no content.
-/
def sortedFiles (entries : List (Utf8.Bytes × Entry)) : List (Utf8.Bytes × Option Utf8.Bytes) :=
  let files := entries.filterMap fun (name, entry) =>
    match entry with
    | .file content locked => some (name, if locked then none else some (unpack content))
    | .directory _ => none
  files.mergeSort fun left right => !decide (right.1 < left.1)

/-- A name that is no text is replaced as a whole. -/
def sourceName (name : Utf8.Bytes) : String := (Text.Utf8.toString? name).getD "unknown"

def readDocument (name content : Utf8.Bytes) : Document :=
  .ofText (sourceName name) (Text.Utf8.toStringLossy content)

def loadFile (directory : Utf8.Bytes) : Utf8.Bytes × Option Utf8.Bytes → Session Document
  | (name, none) =>
      Session.fail (.readFile (Text.Utf8.toStringLossy (Path.ofChild directory name)))
  | (name, some content) => do
      let document := readDocument name content
      Session.debug s!"Loaded: {document.source} ({document.words.length} tokens)"
      return document

def loadDirectory (path : String) : Session (List Document) := do
  let directory := Text.Utf8.ofString path
  match (← Session.files).list? directory with
  | none => Session.fail (.readDirectory path)
  | some entries =>
      let documents ← (sortedFiles (withinReach directory entries)).mapM (loadFile directory)
      Session.info s!"Loaded {documents.length} documents from '{path}'"
      return documents

def load (root : String) : Session Corpus := do
  let trainPositive ← loadDirectory (Path.join (Path.join root "train") "pos")
  let trainNegative ← loadDirectory (Path.join (Path.join root "train") "neg")
  let testPositive ← loadDirectory (Path.join (Path.join root "test") "pos")
  let testNegative ← loadDirectory (Path.join (Path.join root "test") "neg")
  new trainPositive trainNegative testPositive testNegative

end Corpus

end Polarity
