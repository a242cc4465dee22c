import Polarity.Model.Logistic

/-!
# Layered networks

A layer sends a row `a` to the activation of `a W + b`.  The loss of a network
is the cross-entropy of every output unit against the label of the row; its
gradient is computed backwards, layer by layer, from the slope of the loss at
the output.  Only the first output unit is used for predictions.
-/

namespace Polarity

open Polarity.Random

structure NetworkConfig (α : Type) where
  inputSize : Nat
  hiddenSizes : List Nat
  outputs : Nat
  learningRate : α
  deriving DecidableEq, Repr

def NetworkConfig.widths {α : Type} (config : NetworkConfig α) : List Nat :=
  config.inputSize :: config.hiddenSizes ++ [config.outputs]

structure Layer (α : Type) where
  weights : Matrix α
  biases : List α

structure Network (α : Type) where
  config : NetworkConfig α
  layers : List (Layer α)

structure Stage (α : Type) where
  input : Matrix α
  preActivation : Matrix α
  activation : Matrix α

structure LayerGradient (α : Type) where
  weights : Matrix α
  biases : List α

namespace Layer

/-- Weights row by row and then biases are centred draws. -/
def new (fanIn fanOut : Nat) (generator : Generator) : Layer Float × Generator :=
  let weights := generator.drawMany Generator.nextCentred (fanIn * fanOut)
  let biases := weights.2.drawMany Generator.nextCentred fanOut
  (⟨⟨fanIn, fanOut, weights.1, Generator.length_drawMany⟩, biases.1⟩, biases.2)

variable {α : Type} [Zero α] [One α] [Add α] [Sub α] [Mul α] [LT α] [DecidableLT α]

def preActivation (layer : Layer α) (input : Matrix α) : Except Error (Matrix α) := do
  let sums ← input.mul layer.weights
  sums.addRow layer.biases

def forward (numerics : Numerics α) (layer : Layer α) (input : Matrix α) :
    Except Error (Matrix α) := do
  let z ← layer.preActivation input
  return z.map numerics.activate

end Layer

namespace Network

def drawLayers : List Nat → Generator → Except Error (List (Layer Float) × Generator)
  | fanIn :: fanOut :: rest, generator => do
      requireRoom [fanIn, fanOut]
      requireRoom [fanOut]
      let (layer, generator) := Layer.new fanIn fanOut generator
      let (layers, generator) ← drawLayers (fanOut :: rest) generator
      return (layer :: layers, generator)
  | _, generator => .ok ([], generator)

def new (config : NetworkConfig Float) (generator : Generator) :
    Except Error (Network Float × Generator) := do
  if config.outputs = 0 then .error (.violation .noOutputUnit)
  let (layers, generator) ← drawLayers config.widths generator
  return (⟨config, layers⟩, generator)

variable {α : Type} [Zero α] [One α] [Add α] [Sub α] [Mul α] [Div α] [Neg α] [NatCast α]
  [LT α] [DecidableLT α]

def forward (numerics : Numerics α) (network : Network α) (x : Matrix α) :
    Except Error (Matrix α) :=
  network.layers.foldlM (fun input layer => layer.forward numerics input) x

def traceOutput (x : Matrix α) (trace : List (Stage α)) : Matrix α :=
  (trace.getLast?.map (·.activation)).getD x

/-- Adds the stage of one more layer, whose input is the activation of the last stage. -/
def addStage (numerics : Numerics α) (x : Matrix α) (kept : List (Stage α)) (layer : Layer α) :
    Except Error (List (Stage α)) := do
  let input := traceOutput x kept
  let z ← layer.preActivation input
  return kept ++ [⟨input, z, z.map numerics.activate⟩]

def trace (numerics : Numerics α) (network : Network α) (x : Matrix α) :
    Except Error (List (Stage α)) :=
  network.layers.foldlM (addStage numerics x) []

def lossSlope (a t : α) : α := (a - t) / (a * (1 - a))

/-- Labels for `count` rows: one each, or a single label that serves every row. -/
def spreadLabels (count : Nat) (labels : List α) : Except Error (List α) :=
  if labels.length = count then .ok labels
  else match labels with
    | [label] => .ok (List.replicate count label)
    | _ => .error (.violation .shape)

/-- The slope of the loss at the output, before it is divided by the number of rows. -/
def outputSlope (output : Matrix α) (labels : List α) : Except Error (Matrix α) := do
  let labels ← spreadLabels output.height labels
  return .ofRows output.width
    (List.zipWith (fun row label => row.map fun a => lossSlope a label) output.rows labels) (by
      intro row hrow
      obtain ⟨i, hi, rfl⟩ := List.mem_iff_getElem.mp hrow
      simp only [List.getElem_zipWith, List.length_map]
      exact Matrix.length_of_mem_rows (List.getElem_mem _))

def layerGradient (input delta : Matrix α) : Except Error (LayerGradient α) := do
  let sums ← input.transpose.mul delta
  return {
    weights := sums.map fun sum => sum / (input.height : α)
    biases := if input.height = 0 then List.replicate delta.width 0 else delta.columns.map mean }

/--
The gradients of some consecutive layers, given the slope of the loss at the
output of the last; and the slope of the loss at the input of the first.
-/
def backward (numerics : Numerics α) (slope : Matrix α) :
    List (Layer α × Stage α) → Except Error (List (LayerGradient α) × Matrix α)
  | [] => .ok ([], slope)
  | (layer, stage) :: rest => do
      let (gradients, slope) ← backward numerics slope rest
      let delta ← slope.zipWith (· * ·) (stage.preActivation.map numerics.sigmoidSlope)
      let gradient ← layerGradient stage.input delta
      let slope ← delta.mul layer.weights.transpose
      return (gradient :: gradients, slope)

def gradients (numerics : Numerics α) (network : Network α) (x : Matrix α) (y : List α) :
    Except Error (List (LayerGradient α)) := do
  let trace ← network.trace numerics x
  let slope ← outputSlope (traceOutput x trace) y
  let (gradients, _) ← backward numerics slope (network.layers.zip trace)
  return gradients

def stepLayer (rate : α) (layer : Layer α) (gradient : LayerGradient α) :
    Except Error (Layer α) := do
  let weights ← layer.weights.zipWith (fun weight slope => weight + -rate * slope) gradient.weights
  return ⟨weights, List.zipWith (fun bias slope => bias + -rate * slope)
    layer.biases gradient.biases⟩

/-- A batch without rows changes nothing, whatever its width and labels. -/
def fit (numerics : Numerics α) (network : Network α) (x : Matrix α) (y : List α) :
    Except Error (Network α) := do
  if x.height = 0 then return network
  let gradients ← network.gradients numerics x y
  let layers ← (network.layers.zip gradients).mapM fun (layer, gradient) =>
    stepLayer network.config.learningRate layer gradient
  return { network with layers := layers }

def predict (numerics : Numerics α) (network : Network α) (x : Matrix α) :
    Except Error (List α) := do
  let output ← network.forward numerics x
  output.firstColumn

end Network

end Polarity
