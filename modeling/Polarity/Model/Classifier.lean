import Polarity.Model.Network

/-!
# Classifiers

The two kinds of model behind one interface.
-/

namespace Polarity

open Polarity.Random

inductive ModelKind where
  | logistic
  | network
  deriving DecidableEq, Repr

def ModelKind.name : ModelKind → String
  | .logistic => "logistic"
  | .network => "mlp"

def ModelKind.ofName? (name : String) : Option ModelKind :=
  if name = "logistic" then some .logistic
  else if name = "mlp" then some .network
  else none

inductive Classifier (α : Type) where
  | logistic (model : Logistic α)
  | network (model : Network α)

namespace Classifier

variable {α : Type}

def kind : Classifier α → ModelKind
  | .logistic _ => .logistic
  | .network _ => .network

def name (classifier : Classifier α) : String := classifier.kind.name

/-- A pass over rows makes one value for every row and unit; there must be room for them. -/
def requireRoomFor (rows : Nat) : Classifier α → Except Error Unit
  | .logistic _ => requireRoom [rows]
  | .network model => model.config.widths.tail.forM fun width => requireRoom [rows, width]

variable [Zero α] [One α] [Add α] [Sub α] [Mul α] [Div α] [Neg α] [NatCast α]
  [LT α] [DecidableLT α]

def predict (numerics : Numerics α) (classifier : Classifier α) (x : Matrix α) :
    Except Error (List α) :=
  match classifier with
  | .logistic model => model.predict numerics x
  | .network model => model.predict numerics x

def fit (numerics : Numerics α) (classifier : Classifier α) (x : Matrix α) (y : List α) :
    Except Error (Classifier α) :=
  match classifier with
  | .logistic model => .logistic <$> model.fit numerics x y
  | .network model => .network <$> model.fit numerics x y

/--
A step on any rows, not only those of a batch: a matrix without columns can have more
rows than a pass over them has room for.
-/
def learn (numerics : Numerics α) (classifier : Classifier α) (x : Matrix α) (y : List α) :
    Except Error (Classifier α) := do
  if x.height ≠ 0 then classifier.requireRoomFor x.height
  classifier.fit numerics x y

variable [LE α] [DecidableLE α] [BEq α]

def score (numerics : Numerics α) (classifier : Classifier α) (x : Matrix α) (y : List α) :
    Except Error α := do
  return accuracy y (← classifier.predict numerics x)

def evaluate (numerics : Numerics α) (classifier : Classifier α) (x : Matrix α) (y : List α) :
    Except Error (α × α) := do
  let probabilities ← classifier.predict numerics x
  let loss ← crossEntropy numerics y probabilities
  return (loss, accuracy y probabilities)

end Classifier

end Polarity
