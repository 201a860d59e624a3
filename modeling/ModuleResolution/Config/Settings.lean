import ModuleResolution.Config.Value
import ModuleResolution.Log
import ModuleResolution.Resolver
import ModuleResolution.Text.Blank

/-!
# Settings

What a resolver is set up with.  Settings come in layers, each of which counts more than the one
before: what is built in, a configuration file, the environment, and the command line.  A value
that makes no sense is passed over with a notice.
-/

namespace ModuleResolution

namespace Config

/-- What a resolver is set up with. -/
structure Settings where
  conditions : List Text
  /-- The runtime flags; without a list they are those of the environment. -/
  flags : Option (List Text)
  enableCache : Bool
  logLevel : Text
  deriving DecidableEq, Repr

/-- A part of the settings. -/
inductive Field where
  | conditions
  | experimentalFlags
  | enableCache
  | logLevel
  deriving DecidableEq, Repr

/-- The name of a part of the settings. -/
def Field.name : Field -> Text
  | .conditions => "conditions".toList
  | .experimentalFlags => "experimental_flags".toList
  | .enableCache => "enable_cache".toList
  | .logLevel => "log_level".toList

/-- Something that is wrong with the source of settings. -/
inductive Notice where
  | missing (path : Text)
  | unreadable
  | invalid (field : Field) (source : Text)
  deriving DecidableEq, Repr

def Notice.level : Notice -> Log.Level
  | .missing _ => .warning
  | .unreadable => .error
  | .invalid _ _ => .warning

/-- The words of a notice, with marks where its values stand. -/
def Notice.template : Notice -> Text
  | .missing _ => "Config file not found: %s".toList
  | .unreadable => "Failed to load config: %s".toList
  | .invalid field _ => "Ignoring invalid ".toList ++ field.name ++ " from %s: %r".toList

def Notice.source? : Notice -> Option Text
  | .missing path => some path
  | .unreadable => none
  | .invalid _ source => some source

/-- Why settings cannot be loaded. -/
inductive LoadError where
  /-- A value that is read by its text has an integer with more digits than are written. -/
  | oversizedInteger
  /-- The configuration file is nested deeper than can be read. -/
  | tooDeep
  deriving DecidableEq, Repr

def LoadError.message? : LoadError -> Option Text
  | .oversizedInteger =>
      some ("Exceeds the limit (".toList ++ Text.ofNat Json.maxIntegerDigits ++
        (" digits) for integer string conversion; use sys.set_int_max_str_digits() to increase " ++
          "the limit").toList)
  | .tooDeep => none

namespace Value

def isNull : Value -> Bool
  | .null => true
  | _ => false

mutual

def isOversized : Value -> Bool
  | .null => false
  | .bool _ => false
  | .integer n => decide (n.natAbs >= Nat.pow 10 Json.maxIntegerDigits)
  | .real _ => false
  | .string _ => false
  | .list items => anyOversized items
  | .map entries => anyEntryOversized entries

def anyOversized : List Value -> Bool
  | [] => false
  | item :: items => isOversized item || anyOversized items

def anyEntryOversized : List (Value × Value) -> Bool
  | [] => false
  | (key, value) :: entries => isOversized key || isOversized value || anyEntryOversized entries

end

/-- A list of texts: given as a list, or as one text with blanks or commas between the items. -/
def texts? : Value -> Option (List Text)
  | .string text => some (Text.items text)
  | .list items => items.mapM fun item =>
      match item with
      | .string text => some text
      | _ => none
  | _ => none

/-- The truth value that a word stands for. -/
def wordTruth? (word : Text) : Option Bool :=
  let word := Text.lower (Text.strip word)
  if ["1", "true", "yes", "on"].any (·.toList == word) then some true
  else if ["0", "false", "no", "off"].any (·.toList == word) then some false
  else none

def truth? : Value -> Option Bool
  | .bool b => some b
  | .integer 0 => some false
  | .integer 1 => some true
  | .string text => wordTruth? text
  | _ => none

def levelName? : Value -> Option Text
  | .string text =>
      let name := Text.upper text
      if (Log.Level.ofName? name).isSome then some name else none
  | _ => none

end Value

namespace Settings

def builtIn : Settings where
  conditions := defaultConditions
  flags := none
  enableCache := true
  logLevel := Log.Level.info.label

def set? (settings : Settings) (field : Field) (value : Value) : Option Settings :=
  match field with
  | .conditions => value.texts?.map fun conditions => { settings with conditions }
  | .experimentalFlags => value.texts?.map fun flags => { settings with flags := some flags }
  | .enableCache => value.truth?.map fun enableCache => { settings with enableCache }
  | .logLevel => value.levelName?.map fun logLevel => { settings with logLevel }

/-- Does reading the value of a part need its text? -/
def readsText : Field -> Bool
  | .conditions => false
  | .experimentalFlags => false
  | .enableCache => true
  | .logLevel => true

def applyField (source : Text) (layer : List (Value × Value)) (settings : Settings)
    (field : Field) : Except LoadError (Settings × List Notice) :=
  match Value.field? field.name layer with
  | none => .ok (settings, [])
  | some value =>
      if readsText field && value.isOversized then .error .oversizedInteger
      else
        match settings.set? field value with
        | some settings => .ok (settings, [])
        | none => .ok (settings, [.invalid field source])

def apply (source : Text) (layer : List (Value × Value)) (settings : Settings) :
    Except LoadError (Settings × List Notice) :=
  [Field.conditions, .experimentalFlags, .enableCache, .logLevel].foldlM
    (fun (settings, notices) field => do
      let (settings, here) <- applyField source layer settings field
      return (settings, notices ++ here))
    (settings, [])

def environmentLayer (environment : Environment) : List (Value × Value) :=
  let entry (field : Field) (value : Option Value) : List (Value × Value) :=
    value.toList.map fun value => (.string field.name, value)
  entry .conditions ((environment.value? .conditions).map .string) ++
    entry .experimentalFlags ((environment.value? .experimentalFlags).map .string) ++
    entry .enableCache
      ((environment.value? .disableCache).bind fun word =>
        (Value.wordTruth? word).map fun disabled => .bool !disabled) ++
    entry .logLevel ((environment.value? .logLevel).map .string)

/-- The value that a configuration file holds, by the ending of its name. -/
def readFile? (files : FileSystem) (path : Text) : Option Value :=
  match files.readText path with
  | .error _ => none
  | .ok text =>
      if ".json".toList.isSuffixOf (Text.lower path) then
        (Json.read text).toOption.map Value.ofJson
      else Value.ofYaml? text

/-- The entries of a configuration file that are about resolution: those under their own key if it
is there, else all. -/
def entriesOf : Value -> List (Value × Value)
  | .map entries =>
      match Value.field? "resolver".toList entries with
      | some (.map entries) => entries
      | some _ => []
      | none => entries
  | _ => []

/-- The layer of a configuration file.  There may be none. -/
def fileLayer (files : FileSystem) (path : Text) : List (Value × Value) × List Notice :=
  if path.isEmpty then ([], [])
  else if !files.isFile path then ([], [.missing path])
  else
    match readFile? files path with
    | some value => (entriesOf value, [])
    | none => ([], [.unreadable])

/-- Is there a configuration file that is nested deeper than can be read? -/
def isTooDeep (files : FileSystem) (path : Text) : Bool :=
  !path.isEmpty && files.isFile path &&
    match files.readText path with
    | .error .tooDeep => true
    | _ => false

/-- The entries of a layer that give a value.  Null stands for none. -/
def given (layer : List (Value × Value)) : List (Value × Value) :=
  layer.filter fun (_, value) => !value.isNull

/-- The path of the configuration file: the one that is asked for, else that of the environment. -/
def configPath (asked : Option Text) (environment : Environment) : Text :=
  let asked := asked.getD []
  if asked.isEmpty then environment.value .config else asked

def load (files : FileSystem) (environment : Environment) (asked : Option Text)
    (overrides : List (Value × Value)) : Except LoadError (Settings × List Notice) := do
  let path := configPath asked environment
  if isTooDeep files path then throw .tooDeep
  let (layer, missing) := fileLayer files path
  let (settings, fromFile) <- builtIn.apply path layer
  let (settings, fromEnvironment) <-
    settings.apply "environment".toList (environmentLayer environment)
  let (settings, fromCommand) <- settings.apply "command line".toList (given overrides)
  return (settings, missing ++ fromFile ++ fromEnvironment ++ fromCommand)

def runtimeFlags (settings : Settings) (environment : Environment) : Flags :=
  match settings.flags with
  | some flags => .listed flags
  | none => .written (environment.value .nodeOptions)

end Settings

end Config

end ModuleResolution
