import Polarity.Proofs.FileSystem
import Polarity.Proofs.Json.Value
import Polarity.Proofs.Session
import Polarity.Proofs.Text.Utf8
import Polarity.Training.Settings

/-!
# Saved settings are loaded unchanged

Settings are read from JSON field by field, each from the value under its key.
What was saved last in a store is what is loaded from it, whatever was saved
before; of the learning rate it is asked that its text stands for the same number
again.
-/

namespace Polarity

open Text.Utf8 (Bytes)

namespace Settings

/-! ## Fields -/

inductive Field where
  | dataDir
  | runDir
  | model
  | batchSize
  | trainSize
  | vocabSize
  | learningRate
  | outputs
  | hiddenSizes
  | epochs
  | splitSeed
  | batchSeed
  deriving DecidableEq

namespace Field

abbrev Value : Field → Type
  | .dataDir | .runDir => String
  | .model => ModelKind
  | .learningRate => Float
  | .hiddenSizes => List UInt64
  | .batchSeed => Option UInt64
  | .batchSize | .trainSize | .vocabSize | .outputs | .epochs | .splitSeed => UInt64

def get : (field : Field) → Settings → field.Value
  | .dataDir => Settings.dataDir
  | .runDir => Settings.runDir
  | .model => Settings.model
  | .batchSize => Settings.batchSize
  | .trainSize => Settings.trainSize
  | .vocabSize => Settings.vocabSize
  | .learningRate => Settings.learningRate
  | .outputs => Settings.outputs
  | .hiddenSizes => Settings.hiddenSizes
  | .epochs => Settings.epochs
  | .splitSeed => Settings.splitSeed
  | .batchSeed => Settings.batchSeed

def key : Field → String
  | .dataDir => "data_dir"
  | .runDir => "run_dir"
  | .model => "model"
  | .batchSize => "batch_size"
  | .trainSize => "train_size"
  | .vocabSize => "vocab_size"
  | .learningRate => "learning_rate"
  | .outputs => "n_outputs"
  | .hiddenSizes => "hidden_sizes"
  | .epochs => "epochs"
  | .splitSeed => "split_seed"
  | .batchSeed => "batch_seed"

def read? : (field : Field) → Json.Value → Option field.Value
  | .dataDir | .runDir => Json.Value.text?
  | .model => modelOfJson?
  | .learningRate => Json.Value.float?
  | .hiddenSizes => Json.Value.list? Json.Value.uint64?
  | .batchSeed => Json.Value.option? Json.Value.uint64?
  | .batchSize | .trainSize | .vocabSize | .outputs | .epochs | .splitSeed => Json.Value.uint64?

def toJson : (field : Field) → field.Value → Json.Value
  | .dataDir | .runDir => .ofText
  | .model => fun kind => .ofText kind.name
  | .learningRate => .ofFloat
  | .hiddenSizes => .ofList .ofUInt64
  | .batchSeed => .ofOption .ofUInt64
  | .batchSize | .trainSize | .vocabSize | .outputs | .epochs | .splitSeed => .ofUInt64

def all : List Field :=
  [.dataDir, .runDir, .model, .batchSize, .trainSize, .vocabSize, .learningRate, .outputs,
    .hiddenSizes, .epochs, .splitSeed, .batchSeed]

end Field

theorem ofJson?_record {fields : List (String × Json.Value)} {settings : Settings}
    (hnames : (fields.map Prod.fst).Nodup)
    (hfields : ∀ field : Field,
      given field.read? (field.get default) (fields.lookup field.key) = some (field.get settings)) :
    ofJson? (.record fields) = some settings := by
  have hdataDir := hfields .dataDir
  have hrunDir := hfields .runDir
  have hmodel := hfields .model
  have hbatchSize := hfields .batchSize
  have htrainSize := hfields .trainSize
  have hvocabSize := hfields .vocabSize
  have hlearningRate := hfields .learningRate
  have houtputs := hfields .outputs
  have hhiddenSizes := hfields .hiddenSizes
  have hepochs := hfields .epochs
  have hsplitSeed := hfields .splitSeed
  have hbatchSeed := hfields .batchSeed
  simp only [Field.read?, Field.get, Field.key] at *
  simp [ofJson?, Json.Value.fields?_record hnames, fieldNames, *]

theorem lookup_map {α : Type} {key : α → String} (value : α → Json.Value) {items : List α}
    {item : α} (hkeys : (items.map key).Nodup) (hitem : item ∈ items) :
    (items.map fun item => (key item, value item)).lookup (key item) = some (value item) := by
  induction items with
  | nil => contradiction
  | cons first rest ih =>
      obtain ⟨hfirst, hrest⟩ := List.nodup_cons.mp hkeys
      rcases List.mem_cons.mp hitem with rfl | hitem
      · simp
      · have hother : (key item == key first) = false := by
          rw [beq_eq_false_iff_ne]
          intro hsame
          exact hfirst (hsame ▸ List.mem_map_of_mem hitem)
        rw [List.map_cons, List.lookup_cons, hother]
        exact ih hrest hitem

theorem toJson_eq (settings : Settings) :
    settings.toJson =
      .record (Field.all.map fun field => (field.key, field.toJson (field.get settings))) := rfl

private theorem modelOfJson?_name (kind : ModelKind) :
    modelOfJson? (.ofText kind.name) = some kind := by
  cases kind <;> rfl

/-- The text of the learning rate stands for the same number again. -/
def RateReadsBack (settings : Settings) : Prop :=
  (Json.Numeral.ofFloat? settings.learningRate).bind Json.Numeral.toFloat? =
    some settings.learningRate
  deriving Decidable

theorem Field.read?_toJson {field : Field} (hfield : field ≠ .learningRate) (value : field.Value) :
    field.read? (field.toJson value) = some value := by
  have hnumber := Json.Value.uint64?_ofUInt64
  have hnull : ∀ number : UInt64, Json.Value.ofUInt64 number ≠ .null := fun _ => nofun
  cases field with
  | learningRate => exact absurd rfl hfield
  | dataDir | runDir => exact Json.Value.text?_ofText value
  | model => exact modelOfJson?_name value
  | hiddenSizes => exact Json.Value.list?_ofList hnumber value
  | batchSeed => exact Json.Value.option?_ofOption hnumber hnull value
  | batchSize | trainSize | vocabSize | outputs | epochs | splitSeed => exact hnumber value

theorem Field.wellFormed_toJson (field : Field) (value : field.Value) :
    (field.toJson value).WellFormed := by
  cases field with
  | dataDir | runDir | model => exact Json.Value.wellFormed_ofText _
  | learningRate => exact Json.Value.wellFormed_ofFloat value
  | hiddenSizes => exact Json.Value.wellFormed_ofList Json.Value.wellFormed_ofUInt64 value
  | batchSeed => exact Json.Value.wellFormed_ofOption Json.Value.wellFormed_ofUInt64 value
  | batchSize | trainSize | vocabSize | outputs | epochs | splitSeed =>
      exact Json.Value.wellFormed_ofUInt64 value

theorem ofJson?_toJson {settings : Settings} (hrate : settings.RateReadsBack) :
    ofJson? settings.toJson = some settings := by
  have hkeys : (Field.all.map Field.key).Nodup := by decide
  rw [toJson_eq]
  refine ofJson?_record ?_ fun field => ?_
  · rwa [List.map_map]
  · have hfield : field ∈ Field.all := by cases field <;> decide
    rw [lookup_map (fun field => field.toJson (field.get settings)) hkeys hfield, given]
    by_cases hlearningRate : field = .learningRate
    · subst hlearningRate
      exact (Json.Value.float?_ofFloat settings.learningRate).trans hrate
    · exact Field.read?_toJson hlearningRate (field.get settings)

theorem wellFormed_toJson (settings : Settings) : settings.toJson.WellFormed := by
  rw [toJson_eq]
  apply Json.Value.wellFormed_record
  rw [List.forall_mem_map]
  exact fun field _ => field.wellFormed_toJson _

theorem load_eq_ok {path text : String} {value : Json.Value} {settings : Settings} {world : World}
    (hfile : world.files.read? (Text.Utf8.ofString path) = some (Text.Utf8.ofString text))
    (hparse : Json.Value.parse? text = some value) (hread : ofJson? value = some settings) :
    (load path).run world = (.ok settings, world) := by
  rw [load, Session.run_bind_ok (Session.run_files world), hfile]
  simp only [Option.bind_eq_bind, Option.bind_some, Text.Utf8.toString?_ofString, hparse, hread,
    Session.run_pure]

end Settings

/-! ## The store -/

theorem RunDirectory.run_make {path : String} {world : World} {made : FileSystem}
    (hmade : world.files.makeDirectories (Text.Utf8.ofString path) = (made, true)) :
    (RunDirectory.make path).run world = (.ok (), { world with files := made }) := by
  rw [RunDirectory.make, Session.run_bind_ok (Session.run_files world), hmade]
  exact Session.run_bind_ok (Session.run_setFiles made world)

namespace SettingsStore

/-- The directory of the store can be made, and the file in it can be written. -/
def Writable (store : SettingsStore) (files : FileSystem) : Prop :=
  (files.makeDirectories (Text.Utf8.ofString store.directory)).2 = true ∧
    ((files.makeDirectories (Text.Utf8.ofString store.directory)).1.write?
      (Text.Utf8.ofString store.path) []).isSome = true
  deriving Decidable

theorem Writable.of_write? {store : SettingsStore} {files made after : FileSystem} {content : Bytes}
    (hmade : files.makeDirectories (Text.Utf8.ofString store.directory) = (made, true))
    (hwrite : made.write? (Text.Utf8.ofString store.path) content = some after) :
    store.Writable after := by
  have hthere : Text.Utf8.ofString store.directory = [] ∨
      (after.list? (Text.Utf8.ofString store.directory)).isSome = true := by
    rw [FileSystem.isSome_list?_of_write? hwrite]
    by_cases hpath : Text.Utf8.ofString store.directory = []
    · exact .inl hpath
    · exact .inr (FileSystem.isSome_list?_of_makeDirectories hpath hmade)
  rw [Writable, FileSystem.makeDirectories_of_isSome_list? hthere]
  exact ⟨rfl, (FileSystem.isSome_write?_of_write? hwrite []).2⟩

theorem run_save {store : SettingsStore} {world : World} (hworld : store.Writable world.files)
    (settings : Settings) :
    ∃ after, (store.save settings).run world = (.ok (), after) ∧ store.Writable after.files ∧
      after.files.read? (Text.Utf8.ofString store.path) =
        some (Text.Utf8.ofString settings.toJson.pretty) := by
  obtain ⟨hthere, hsome⟩ := hworld
  have hmade : world.files.makeDirectories (Text.Utf8.ofString store.directory) = (_, true) :=
    Prod.ext rfl hthere
  obtain ⟨empty, hempty⟩ := Option.isSome_iff_exists.mp hsome
  obtain ⟨written, hwrite⟩ := Option.isSome_iff_exists.mp
    (FileSystem.isSome_write?_of_write? hempty (Text.Utf8.ofString settings.toJson.pretty)).1
  have hrun : ∃ notes, (store.save settings).run world =
      (.ok (), { world with files := written, notes := notes }) := by
    rw [save, Session.run_bind_ok (RunDirectory.run_make hmade),
      Session.run_bind_ok (Session.run_files _)]
    simp only [hwrite]
    exact ⟨_, rfl⟩
  obtain ⟨notes, hrun⟩ := hrun
  exact ⟨_, hrun, Writable.of_write? hmade hwrite, FileSystem.read?_of_write? hwrite⟩

theorem run_saves {store : SettingsStore} {world : World} (hworld : store.Writable world.files)
    (saved : List Settings) :
    ∃ after, (forM saved store.save).run world = (.ok (), after) ∧ store.Writable after.files := by
  induction saved generalizing world with
  | nil => exact ⟨world, rfl, hworld⟩
  | cons settings saved ih =>
      obtain ⟨next, hnext, hwritable, -⟩ := run_save hworld settings
      obtain ⟨after, hafter, hagain⟩ := ih hwritable
      rw [List.forM_cons]
      exact ⟨after, (Session.run_bind_ok hnext).trans hafter, hagain⟩

/--
In a store that can be written, settings can be saved any number of times, and
those saved last are loaded again, all fields of them.
-/
theorem load_returns_last_saved (store : SettingsStore) (world : World)
    (hworld : store.Writable world.files) (earlier : List Settings) (last : Settings)
    (hlast : last.RateReadsBack) :
    ∃ after, (forM (earlier ++ [last]) store.save).run world = (.ok (), after) ∧
      store.load.run after = (.ok last, after) := by
  obtain ⟨before, hbefore, hwritable⟩ := run_saves hworld earlier
  obtain ⟨after, hafter, -, hfile⟩ := run_save hwritable last
  refine ⟨after, ?_, ?_⟩
  · rw [List.forM_append, Session.run_bind_ok hbefore, List.forM_cons,
      Session.run_bind_ok hafter]
    rfl
  · exact Settings.load_eq_ok hfile (Json.parse?_pretty last.wellFormed_toJson)
      (Settings.ofJson?_toJson hlast)

def quotedStore : SettingsStore := ⟨"runs/\"été\""⟩

def longSettings : Settings :=
  { Settings.default with dataDir := "a/long/way/to/the/data", hiddenSizes := [300, 200, 100] }

def oddSettings : Settings :=
  { Settings.default with
    dataDir := "C:\\data\n\x01\"日本\""
    model := .network
    trainSize := 18446744073709551615
    hiddenSizes := []
    batchSeed := some 18446744073709551615 }

theorem load_returns_last_of_two_saved :
    quotedStore.Writable .empty ∧ oddSettings.RateReadsBack ∧
      ∃ after, (forM [longSettings, oddSettings] quotedStore.save).run (.ofFiles .empty) =
          (.ok (), after) ∧
        quotedStore.load.run after = (.ok oddSettings, after) := by
  have hworld : quotedStore.Writable .empty := by decide +kernel
  have hlast : oddSettings.RateReadsBack := by decide +kernel
  exact ⟨hworld, hlast,
    load_returns_last_saved quotedStore (.ofFiles .empty) hworld [longSettings] oddSettings hlast⟩

end SettingsStore

end Polarity
