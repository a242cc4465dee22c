import Polarity.CommandLine.Flags
import Polarity.Proofs.Training.Settings

/-!
# Flags and files give the same settings

Some of the settings are chosen.  Given as flags after `train`, in any order, or
as the fields of a JSON file, in any order, the choices lead to the same
settings: the defaults with the chosen ones in their stead.  The defaults of the flags
are texts of their own, and each of them is read as the default of its setting.
-/

namespace Polarity

namespace Settings

/-! ## Choices -/

/-- A rate by a text that flags and files read as the same number. -/
structure Rate where
  text : String
  numeral : Json.Numeral
  value : Float
  scanNumeral_text : Json.scanNumeral text.toList = some (numeral, [])
  toFloat?_numeral : numeral.toFloat? = some value
  read?_text : Decimal.read? text.toList = some value

namespace Field

abbrev Choice : Field → Type
  | .dataDir | .runDir => String
  | .model => ModelKind
  | .learningRate => Rate
  | .hiddenSizes => { widths : List UInt64 // widths ≠ [] }
  | .batchSize | .trainSize | .vocabSize | .outputs | .epochs | .splitSeed | .batchSeed => UInt64

def value : (field : Field) → field.Choice → field.Value
  | .learningRate => Rate.value
  | .hiddenSizes => Subtype.val
  | .batchSeed => some
  | .dataDir | .runDir | .model => id
  | .batchSize | .trainSize | .vocabSize | .outputs | .epochs | .splitSeed => id

def decimal (number : UInt64) : String := number.toNat.repr

def text : (field : Field) → field.Choice → String
  | .dataDir | .runDir => id
  | .model => ModelKind.name
  | .learningRate => Rate.text
  | .hiddenSizes => fun widths => ",".intercalate (widths.val.map decimal)
  | .batchSize | .trainSize | .vocabSize | .outputs | .epochs | .splitSeed | .batchSeed => decimal

def member : (field : Field) → field.Choice → Json.Value
  | .learningRate, rate => .number rate.numeral
  | field, choice => field.toJson (field.value choice)

def flag : Field → CommandLine.Flag
  | .dataDir => .dataDir
  | .runDir => .runDir
  | .model => .model
  | .batchSize => .batchSize
  | .trainSize => .trainSize
  | .vocabSize => .vocabSize
  | .learningRate => .learningRate
  | .outputs => .outputs
  | .hiddenSizes => .hiddenSizes
  | .epochs => .epochs
  | .splitSeed => .splitSeed
  | .batchSeed => .batchSeed

end Field

abbrev Assignment := (field : Field) → Option field.Choice

abbrev Chosen := (field : Field) × field.Choice

/-- The choices of an assignment, each once and in any order. -/
structure Assignment.Order (assigned : Assignment) where
  choices : List Chosen
  nodup : (choices.map Sigma.fst).Nodup
  mem_iff : ∀ field choice, ⟨field, choice⟩ ∈ choices ↔ assigned field = some choice

def ofFields (value : (field : Field) → field.Value) : Settings where
  dataDir := value .dataDir
  runDir := value .runDir
  model := value .model
  batchSize := value .batchSize
  trainSize := value .trainSize
  vocabSize := value .vocabSize
  learningRate := value .learningRate
  outputs := value .outputs
  hiddenSizes := value .hiddenSizes
  epochs := value .epochs
  splitSeed := value .splitSeed
  batchSeed := value .batchSeed

def Assignment.settings (assigned : Assignment) : Settings :=
  ofFields fun field => ((assigned field).map field.value).getD (field.get default)

private theorem get_ofFields (value : (field : Field) → field.Value) (field : Field) :
    field.get (ofFields value) = value field := by
  cases field <;> rfl

private theorem eq_ofFields {settings : Settings} {value : (field : Field) → field.Value}
    (hfields : ∀ field : Field, field.get settings = value field) : settings = ofFields value := by
  obtain rfl : (fun field => field.get settings) = value := funext hfields
  rfl

end Settings

open Settings

/-! ## Flags -/

namespace CommandLine

def argument (chosen : Chosen) : String :=
  "--" ++ chosen.1.flag.name ++ "=" ++ chosen.1.text chosen.2

private theorem ofString_long {name : String} (hname : '=' ∉ name.toList) (text : String) :
    Argument.ofString ("--" ++ name ++ "=" ++ text) = .long name (some text) := by
  have hchars : ("--" ++ name ++ "=" ++ text).toList =
      '-' :: '-' :: (name.toList ++ '=' :: text.toList) := by simp
  have hplain : ∀ char ∈ name.toList, (char != '=') = true := by
    intro char hchar
    rw [bne_iff_ne]
    rintro rfl
    exact hname hchar
  have htake : (name.toList ++ '=' :: text.toList).takeWhile (· != '=') = name.toList := by
    simp [List.takeWhile_append_of_pos hplain]
  have hdrop : (name.toList ++ '=' :: text.toList).dropWhile (· != '=') = '=' :: text.toList := by
    simp [List.dropWhile_append_of_pos hplain]
  obtain ⟨first, rest, hrest⟩ := List.exists_cons_of_ne_nil
    (show name.toList ++ '=' :: text.toList ≠ [] by simp)
  simp only [Argument.ofString, hchars, hrest]
  rw [← hrest, htake, hdrop]
  simp only [String.ofList_toList]

private theorem plain_name (flag : Flag) : '=' ∉ flag.name.toList ∧ flag.name ≠ "help" := by
  cases flag <;> decide

private theorem ofName?_name (flag : Flag) : Flag.ofName? flag.name = some flag := by
  cases flag <;> decide

private theorem readModel_name (kind : ModelKind) : readModel kind.name = .ok kind := by
  cases kind <;> rfl

private theorem readUInt64?_digits {digits : List Char} (hsome : digits ≠ [])
    (hdigits : ∀ char ∈ digits, Decimal.isDigit char = true) :
    Decimal.readUInt64? digits =
      if Decimal.digitsValue digits < UInt64.size then
        some (UInt64.ofNat (Decimal.digitsValue digits))
      else none := by
  cases digits with
  | nil => contradiction
  | cons digit digits =>
      have hunsigned : digit ≠ '+' := by
        rintro rfl
        exact absurd (hdigits '+' List.mem_cons_self) (by decide)
      have hall : (digit :: digits).all Decimal.isDigit = true := List.all_eq_true.mpr hdigits
      simp only [Decimal.readUInt64?]
      split
      · next hplus => simp_all
      · simp only [hall, ne_eq, hsome, not_false_eq_true, true_and]

private theorem readNumber_decimal (number : UInt64) :
    readNumber (Field.decimal number) = .ok number := by
  have hvalue : Decimal.digitsValue (Nat.toDigits 10 number.toNat) = number.toNat :=
    Nat.ofDigitChars_ten_toDigits
  rw [readNumber, Field.decimal, Nat.toList_repr,
    readUInt64?_digits Nat.toDigits_ne_nil fun _ => Json.isDigit_of_mem_toDigits, hvalue,
    if_pos number.toNat_lt, UInt64.ofNat_toNat]

private theorem readNumbers_decimal {widths : List UInt64} (hsome : widths ≠ []) :
    readNumbers (",".intercalate (widths.map Field.decimal)) = .ok widths := by
  have hsplit : (",".intercalate (widths.map Field.decimal)).toList.splitOnP (· == ',') =
      widths.map fun width => (Field.decimal width).toList := by
    have hplain : ∀ text ∈ widths.map fun width => (Field.decimal width).toList, ',' ∉ text := by
      rw [List.forall_mem_map]
      intro width _ hcomma
      rw [Field.decimal, Nat.toList_repr] at hcomma
      exact absurd (Json.isDigit_of_mem_toDigits hcomma) (by decide)
    rw [String.toList_intercalate, List.map_map]
    exact List.splitOn_intercalate ',' hplain (by simpa using hsome)
  rw [readNumbers, hsplit]
  clear hsome hsplit
  induction widths with
  | nil => rfl
  | cons width widths ih =>
      simp only [List.map_cons, List.mapM_cons, String.ofList_toList, readNumber_decimal, ih]
      rfl

namespace Flags

def given (flags : Flags) : (field : Field) → Option field.Value
  | .dataDir => flags.dataDir
  | .runDir => flags.runDir
  | .model => flags.model
  | .batchSize => flags.batchSize
  | .trainSize => flags.trainSize
  | .vocabSize => flags.vocabSize
  | .learningRate => flags.learningRate
  | .outputs => flags.outputs
  | .hiddenSizes => flags.hiddenSizes
  | .epochs => flags.epochs
  | .splitSeed => flags.splitSeed
  | .batchSeed => flags.batchSeed.map some

def completed (flags : Flags) : Invocation where
  config := flags.config
  dataDir := flags.dataDir.getD Settings.default.dataDir
  runDir := flags.runDir.getD Settings.default.runDir
  model := flags.model.getD Settings.default.model
  batchSize := flags.batchSize.getD Settings.default.batchSize
  trainSize := flags.trainSize.getD Settings.default.trainSize
  vocabSize := flags.vocabSize.getD Settings.default.vocabSize
  learningRate := flags.learningRate.getD Settings.default.learningRate
  outputs := flags.outputs.getD Settings.default.outputs
  hiddenSizes := flags.hiddenSizes.getD Settings.default.hiddenSizes
  epochs := flags.epochs.getD Settings.default.epochs
  splitSeed := flags.splitSeed.getD Settings.default.splitSeed
  batchSeed := flags.batchSeed

private theorem orDefault_eq_ok {α : Type} {read : String → Except UsageError α} {text : String}
    {missing : α} (hread : read text = .ok missing) (given : Option α) :
    orDefault given read text = .ok (given.getD missing) := by
  cases given with
  | none => exact hread
  | some value => rfl

/-- Every default text is read, and as the default of its setting. -/
theorem invocation_eq_ok (flags : Flags) : flags.invocation = .ok flags.completed := by
  have hdataDir : (pure "data/aclImdb" : Except UsageError String) = .ok Settings.default.dataDir :=
    rfl
  have hrunDir : (pure "runs" : Except UsageError String) = .ok Settings.default.runDir := rfl
  have hmodel : readModel "logistic" = .ok Settings.default.model := rfl
  have hbatchSize : readNumber "20" = .ok Settings.default.batchSize := rfl
  have htrainSize : readNumber "20000" = .ok Settings.default.trainSize := rfl
  have hvocabSize : readNumber "2000" = .ok Settings.default.vocabSize := rfl
  have hlearningRate : readFloat "0.1" = .ok Settings.default.learningRate := by
    have hvalue : Decimal.read? "0.1".toList = some Settings.default.learningRate := by
      decide +kernel
    rw [readFloat, hvalue]
  have houtputs : readNumber "1" = .ok Settings.default.outputs := rfl
  have hhiddenSizes : readNumbers "20" = .ok Settings.default.hiddenSizes := rfl
  have hepochs : readNumber "300" = .ok Settings.default.epochs := rfl
  have hsplitSeed : readNumber "42" = .ok Settings.default.splitSeed := rfl
  simp only [invocation, orDefault_eq_ok hdataDir, orDefault_eq_ok hrunDir, orDefault_eq_ok hmodel,
    orDefault_eq_ok hbatchSize, orDefault_eq_ok htrainSize, orDefault_eq_ok hvocabSize,
    orDefault_eq_ok hlearningRate, orDefault_eq_ok houtputs, orDefault_eq_ok hhiddenSizes,
    orDefault_eq_ok hepochs, orDefault_eq_ok hsplitSeed]
  rfl

private theorem get_completed (flags : Flags) (field : Field) :
    field.get flags.completed.settings =
      (flags.given field).getD (field.get Settings.default) := by
  cases field with
  | batchSeed =>
      simp only [Field.get, Invocation.settings, completed, given]
      cases flags.batchSeed <;> rfl
  | _ => rfl

def put (flags : Flags) : (field : Field) → field.Value → Flags
  | .dataDir, text => { flags with dataDir := some text }
  | .runDir, text => { flags with runDir := some text }
  | .model, kind => { flags with model := some kind }
  | .batchSize, number => { flags with batchSize := some number }
  | .trainSize, number => { flags with trainSize := some number }
  | .vocabSize, number => { flags with vocabSize := some number }
  | .learningRate, rate => { flags with learningRate := some rate }
  | .outputs, number => { flags with outputs := some number }
  | .hiddenSizes, widths => { flags with hiddenSizes := some widths }
  | .epochs, number => { flags with epochs := some number }
  | .splitSeed, number => { flags with splitSeed := some number }
  | .batchSeed, seed => { flags with batchSeed := seed }

private theorem config_put (flags : Flags) (field : Field) (value : field.Value) :
    (flags.put field value).config = flags.config := by
  cases field <;> rfl

private theorem given_put_self (flags : Flags) {field : Field} (choice : field.Choice) :
    (flags.put field (field.value choice)).given field = some (field.value choice) := by
  cases field <;> rfl

private theorem given_put_of_ne (flags : Flags) {field other : Field} (value : field.Value)
    (hother : other ≠ field) : (flags.put field value).given other = flags.given other := by
  cases field <;> cases other <;> first | rfl | contradiction

private theorem bind_once {α : Type} {old : Option α} {read : String → Except UsageError α}
    {text : String} {value : α} (next : Option α → Flags) (hold : old = none)
    (hread : read text = .ok value) :
    (do return next (← once old read text)) = .ok (next (some value)) := by
  rw [once, hold, hread]
  rfl

theorem assign_text {flags : Flags} {field : Field} (choice : field.Choice)
    (hfree : flags.given field = none) :
    flags.assign field.flag (field.text choice) = .ok (flags.put field (field.value choice)) := by
  cases field with
  | dataDir | runDir => exact bind_once _ hfree rfl
  | model => exact bind_once _ hfree (readModel_name choice)
  | learningRate =>
      refine bind_once _ hfree ?_
      rw [readFloat, Field.text, choice.read?_text]
      rfl
  | hiddenSizes =>
      have hempty : flags.hiddenSizes = none := hfree
      simp only [assign, Field.flag, Field.text, readNumbers_decimal choice.property, hempty]
      rfl
  | batchSeed =>
      exact bind_once _ (Option.map_eq_none_iff.mp hfree) (readNumber_decimal choice)
  | batchSize | trainSize | vocabSize | outputs | epochs | splitSeed =>
      exact bind_once _ hfree (readNumber_decimal choice)

def putAll (flags : Flags) (choices : List Chosen) : Flags :=
  choices.foldl (fun flags chosen => flags.put chosen.1 (chosen.1.value chosen.2)) flags

private theorem config_putAll (flags : Flags) (choices : List Chosen) :
    (flags.putAll choices).config = flags.config := by
  induction choices generalizing flags with
  | nil => rfl
  | cons chosen rest ih => exact (ih _).trans (config_put _ _ _)

private theorem given_putAll_of_not_mem (flags : Flags) {choices : List Chosen} {field : Field}
    (hfield : field ∉ choices.map Sigma.fst) :
    (flags.putAll choices).given field = flags.given field := by
  induction choices generalizing flags with
  | nil => rfl
  | cons chosen rest ih =>
      rw [List.map_cons, List.mem_cons, not_or] at hfield
      exact (ih _ hfield.2).trans (given_put_of_ne _ _ hfield.1)

private theorem given_putAll_of_mem (flags : Flags) {choices : List Chosen} {field : Field}
    {choice : field.Choice} (hnodup : (choices.map Sigma.fst).Nodup)
    (hchoice : ⟨field, choice⟩ ∈ choices) :
    (flags.putAll choices).given field = some (field.value choice) := by
  induction choices generalizing flags with
  | nil => contradiction
  | cons chosen rest ih =>
      obtain ⟨hfirst, hrest⟩ := List.nodup_cons.mp hnodup
      rcases List.mem_cons.mp hchoice with rfl | hchoice
      · exact (given_putAll_of_not_mem _ hfirst).trans (given_put_self _ _)
      · exact ih _ hrest hchoice

end Flags

private theorem readFlags_arguments {choices : List Chosen} (hnodup : (choices.map Sigma.fst).Nodup)
    {flags : Flags} (hfree : ∀ chosen ∈ choices, flags.given chosen.1 = none) :
    readFlags flags none (choices.map argument) = .ok (flags.putAll choices) := by
  induction choices generalizing flags with
  | nil => rfl
  | cons chosen rest ih =>
      obtain ⟨field, choice⟩ := chosen
      obtain ⟨hfirst, hrest⟩ := List.nodup_cons.mp hnodup
      obtain ⟨hplain, hhelp⟩ := plain_name field.flag
      have hnext : ∀ chosen ∈ rest,
          (flags.put field (field.value choice)).given chosen.1 = none := by
        intro chosen hchosen
        have hother : chosen.1 ≠ field :=
          fun hsame => hfirst (List.mem_map.mpr ⟨chosen, hchosen, hsame⟩)
        rw [Flags.given_put_of_ne _ _ hother]
        exact hfree chosen (List.mem_cons_of_mem _ hchosen)
      have hassign := Flags.assign_text choice (hfree ⟨field, choice⟩ List.mem_cons_self)
      rw [List.map_cons, readFlags, argument, ofString_long hplain]
      simp only [if_neg hhelp, ofName?_name, Flags.settle]
      change (do readFlags (← flags.assign field.flag (field.text choice)) none _) = _
      rw [hassign]
      exact ih hrest hnext

end CommandLine

/-! ## Files -/

namespace Settings

theorem key_injective {field other : Field} (hkey : field.key = other.key) : field = other := by
  cases field <;> cases other <;> first | rfl | (revert hkey; decide)

namespace Assignment

variable {assigned : Assignment}

def Order.members (order : assigned.Order) : List (String × Json.Value) :=
  order.choices.map fun chosen => (chosen.1.key, chosen.1.member chosen.2)

theorem Order.nodup_keys (order : assigned.Order) :
    (order.choices.map fun chosen => chosen.1.key).Nodup := by
  rw [List.Nodup, List.pairwise_map]
  exact (List.pairwise_map.mp order.nodup).imp fun hfields hkey => hfields (key_injective hkey)

theorem Order.lookup_members (order : assigned.Order) (field : Field) :
    order.members.lookup field.key = (assigned field).map field.member := by
  cases hassigned : assigned field with
  | none =>
      rw [Option.map_none, List.lookup_eq_none_iff, members, List.forall_mem_map]
      rintro ⟨other, choice⟩ hchoice
      rw [order.mem_iff] at hchoice
      rw [bne_iff_ne]
      intro hkey
      obtain rfl := key_injective hkey
      rw [hassigned] at hchoice
      contradiction
  | some choice =>
      have hchoice := (order.mem_iff field choice).mpr hassigned
      exact lookup_map (fun chosen : Chosen => chosen.1.member chosen.2) order.nodup_keys hchoice

private theorem member_of_ne {field : Field} (hfield : field ≠ .learningRate)
    (choice : field.Choice) :
    field.member choice = field.toJson (field.value choice) := by
  cases field <;> first | rfl | contradiction

private theorem read?_member {field : Field} (choice : field.Choice) :
    field.read? (field.member choice) = some (field.value choice) := by
  by_cases hfield : field = .learningRate
  · subst hfield
    exact choice.toFloat?_numeral
  · rw [member_of_ne hfield, Field.read?_toJson hfield]

private theorem wellFormed_member {field : Field} (choice : field.Choice) :
    (field.member choice).WellFormed := by
  by_cases hfield : field = .learningRate
  · subst hfield
    exact (Json.wellFormed_number _).mpr (Json.wellFormed_of_scanNumeral choice.scanNumeral_text)
  · rw [member_of_ne hfield]
    exact field.wellFormed_toJson _

theorem get_settings (assigned : Assignment) (field : Field) :
    field.get assigned.settings = ((assigned field).map field.value).getD (field.get default) :=
  get_ofFields _ field

theorem Order.ofJson?_members (order : assigned.Order) :
    ofJson? (.record order.members) = some assigned.settings := by
  refine ofJson?_record ?_ fun field => ?_
  · rw [members, List.map_map]
    exact order.nodup_keys
  · rw [order.lookup_members, get_settings]
    cases assigned field with
    | none => rfl
    | some choice => exact read?_member choice

theorem Order.wellFormed_members (order : assigned.Order) :
    (Json.Value.record order.members).WellFormed := by
  apply Json.Value.wellFormed_record
  rw [members, List.forall_mem_map]
  exact fun chosen _ => wellFormed_member chosen.2

theorem Order.given_putAll (order : assigned.Order) (field : Field) :
    (({} : CommandLine.Flags).putAll order.choices).given field =
      (assigned field).map field.value := by
  cases hassigned : assigned field with
  | none =>
      have hfield : field ∉ order.choices.map Sigma.fst := by
        rw [List.mem_map]
        rintro ⟨⟨other, choice⟩, hchoice, rfl⟩
        rw [order.mem_iff, hassigned] at hchoice
        contradiction
      rw [CommandLine.Flags.given_putAll_of_not_mem _ hfield]
      cases field <;> rfl
  | some choice =>
      exact CommandLine.Flags.given_putAll_of_mem _ order.nodup
        ((order.mem_iff field choice).mpr hassigned)

theorem Order.read_arguments (order : assigned.Order) (program : String) :
    CommandLine.read (program :: "train" :: order.choices.map CommandLine.argument) =
      .ok (({} : CommandLine.Flags).putAll order.choices).completed := by
  have hempty : ∀ field : Field, ({} : CommandLine.Flags).given field = none := by
    intro field
    cases field <;> rfl
  have hflags : CommandLine.readFlags {} none (order.choices.map CommandLine.argument) =
      .ok (({} : CommandLine.Flags).putAll order.choices) :=
    CommandLine.readFlags_arguments order.nodup fun chosen _ => hempty chosen.1
  change (CommandLine.readFlags {} none _ >>= CommandLine.Flags.invocation) = _
  rw [hflags]
  exact CommandLine.Flags.invocation_eq_ok _

theorem Order.settings_putAll (order : assigned.Order) :
    (({} : CommandLine.Flags).putAll order.choices).completed.settings = assigned.settings := by
  apply eq_ofFields
  intro field
  rw [CommandLine.Flags.get_completed, order.given_putAll]

/--
Whatever settings are chosen, their flags in any order after `train` and a file
with their fields in any order both give the defaults with the choices in their
stead; and there is such a file.
-/
theorem flags_and_file_agree (assigned : Assignment) (flagged keyed : assigned.Order) :
    (∀ program, ∃ call,
      CommandLine.read (program :: "train" :: flagged.choices.map CommandLine.argument) =
          .ok call ∧
        call.config = none ∧ call.settings = assigned.settings) ∧
    (∀ path text world, Json.Value.parse? text = some (.record keyed.members) →
      world.files.read? (Text.Utf8.ofString path) = some (Text.Utf8.ofString text) →
        (load path).run world = (.ok assigned.settings, world)) ∧
    Json.Value.parse? (Json.Value.record keyed.members).pretty = some (.record keyed.members) := by
  refine ⟨fun program => ?_, fun path text world hparse hfile => ?_, ?_⟩
  · exact ⟨_, flagged.read_arguments program, CommandLine.Flags.config_putAll _ _,
      flagged.settings_putAll⟩
  · exact load_eq_ok hfile hparse keyed.ofJson?_members
  · exact Json.parse?_pretty keyed.wellFormed_members

def smallRate : Rate where
  text := "1e-3"
  numeral := ⟨false, ['1'], [], some ⟨.minus, ['3']⟩⟩
  value := 0.001
  scanNumeral_text := by decide +kernel
  toFloat?_numeral := by decide +kernel
  read?_text := by decide +kernel

def fourChoices : Assignment
  | .dataDir => some "a=\"b\""
  | .learningRate => some smallRate
  | .hiddenSizes => some ⟨[5, 3], by decide⟩
  | .batchSeed => some 18446744073709551615
  | _ => none

def fourFlags : fourChoices.Order where
  choices := [⟨.hiddenSizes, ⟨[5, 3], by decide⟩⟩, ⟨.dataDir, "a=\"b\""⟩,
    ⟨.batchSeed, (18446744073709551615 : UInt64)⟩, ⟨.learningRate, smallRate⟩]
  nodup := by decide
  mem_iff := by
    intro field choice
    cases field <;> simp [fourChoices, eq_comm]

def fourKeys : fourChoices.Order where
  choices := [⟨.batchSeed, (18446744073709551615 : UInt64)⟩, ⟨.learningRate, smallRate⟩,
    ⟨.hiddenSizes, ⟨[5, 3], by decide⟩⟩, ⟨.dataDir, "a=\"b\""⟩]
  nodup := by decide
  mem_iff := by
    intro field choice
    cases field <;> simp [fourChoices, eq_comm]

def fourLines : String :=
  "\x7b\"batch_seed\":18446744073709551615,\"learning_rate\": 1E-3 ,\n" ++
    "\"hidden_sizes\":[5, 3], \"data_dir\":\"a=\\\"b\\\"\"\x7d"

def fourWorld : World :=
  .ofFiles ⟨[(Text.Utf8.ofString "run.json", .file (pack (Text.Utf8.ofString fourLines)))]⟩

theorem four_flags_and_file_agree :
    Json.Value.parse? fourLines = some (.record fourKeys.members) ∧
    fourWorld.files.read? (Text.Utf8.ofString "run.json") =
      some (Text.Utf8.ofString fourLines) ∧
    (∃ call,
      CommandLine.read ["sentiment", "train", "--hidden-sizes=5,3", "--data-dir=a=\"b\"",
          "--batch-seed=18446744073709551615", "--learning-rate=1e-3"] = .ok call ∧
        call.config = none ∧ call.settings = fourChoices.settings) ∧
    (load "run.json").run fourWorld = (.ok fourChoices.settings, fourWorld) := by
  obtain ⟨hflags, hload, -⟩ := flags_and_file_agree fourChoices fourFlags fourKeys
  have hscan : Json.scan fourLines = some (Json.Value.record fourKeys.members).tokens := by
    decide +kernel
  have hparse : Json.Value.parse? fourLines = some (.record fourKeys.members) := by
    rw [Json.Value.parse?, hscan]
    rfl
  have hfile : fourWorld.files.read? (Text.Utf8.ofString "run.json") =
      some (Text.Utf8.ofString fourLines) := by decide +kernel
  exact ⟨hparse, hfile, hflags "sentiment", hload "run.json" fourLines fourWorld hparse hfile⟩

end Assignment

end Settings

end Polarity
