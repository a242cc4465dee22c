import Polarity.Main
import Polarity.Proofs.Dataset
import Polarity.Proofs.Batches
import Polarity.Proofs.Session
import Polarity.Proofs.Splits
import Polarity.Proofs.Vocabulary
import Polarity.Proofs.Network.Shape
import Polarity.Proofs.Matrix.Entries
import Polarity.Proofs.Matrix.Columns
import Polarity.Proofs.Network.Backpropagation
import Polarity.Proofs.Classifier
import Polarity.Proofs.Training.Safety
import Polarity.Proofs.CommandLine.Flags
import Polarity.Proofs.Network.Logistic
import Polarity.Proofs.Classifier.Steps
import Polarity.Proofs.FileSystem.Growth
import Polarity.Proofs.Splits.Balance
import Polarity.Proofs.Training.Tables
import Polarity.Proofs.FileSystem.Names
import Polarity.Proofs.Training.Effects
import Polarity.Proofs.Features
import Polarity.Proofs.Matrix.Picks
import Polarity.Proofs.Network.Rows
import Polarity.Proofs.Network.Means
import Polarity.Proofs.Classifier.Means
import Polarity.Proofs.Json.Compact
import Polarity.Proofs.Vocabulary.Reading
import Polarity.Proofs.Training.Course
import Polarity.Proofs.Training.Observation
import Polarity.Proofs.Dataset.Operations
import Polarity.Proofs.Classifier.Rows
import Polarity.Proofs.Numerics
import Polarity.Proofs.Network.Margins
import Polarity.Proofs.Training.Unseen
import Polarity.Proofs.Text.Words
import Polarity.Proofs.Corpus
import Polarity.Proofs.Training.Best
