import ModuleResolution.Config.Settings
import ModuleResolution.Text.Digit

/-!
# Options of the command line

Words into options and specifiers.  A long option may be cut short as long as it stays the only one
that starts so, and its value may follow after `=`; the value of a short option may follow at once.
All specifiers stand together, and after the word `--` every word is one.
-/

namespace ModuleResolution

namespace Command

/-- How the results are written. -/
inductive Layout where
  | json
  | text
  deriving DecidableEq, Repr

def Layout.name : Layout -> Text
  | .json => "json".toList
  | .text => "text".toList

/-- What the words of a command line ask for.  The word `--` counts as no text where it is given as
a value in one word with its option. -/
structure Options where
  specifiers : List Text
  parent : Option (Option Text)
  conditions : Option (List (Option Text))
  wasmModules : Bool
  noCache : Bool
  config : Option (Option Text)
  layout : Option Layout
  logLevel : Option (Option Text)
  logFile : Option (Option Text)
  deriving DecidableEq, Repr

/-- Why a command line does not lead to a resolution. -/
inductive Stop where
  | help
  | usage
  deriving DecidableEq, Repr

inductive Switch where
  | help
  | parent
  | condition
  | wasmModules
  | noCache
  | config
  | layout
  | logLevel
  | logFile
  deriving DecidableEq, Repr

namespace Switch

def takesValue : Switch -> Bool
  | .help => false
  | .parent => true
  | .condition => true
  | .wasmModules => false
  | .noCache => false
  | .config => true
  | .layout => true
  | .logLevel => true
  | .logFile => true

def letters : List (Char × Switch) :=
  [('h', .help), ('p', .parent), ('c', .condition), ('f', .layout)]

def names : List (Text × Switch) :=
  [("help".toList, .help), ("parent".toList, .parent), ("condition".toList, .condition),
    ("experimental-wasm-modules".toList, .wasmModules), ("no-cache".toList, .noCache),
    ("config".toList, .config), ("format".toList, .layout), ("loglevel".toList, .logLevel),
    ("logfile".toList, .logFile)]

def ofLetter? (letter : Char) : Option Switch :=
  Association.get? letter letters

/-- The option with a name that may be cut short.  If it could be several ones it is none. -/
def ofName? (name : Text) : Except Stop (Option Switch) :=
  match Association.get? name names with
  | some switch => .ok (some switch)
  | none =>
      match names.filter fun (whole, _) => name.isPrefixOf whole with
      | [] => .ok none
      | [(_, switch)] => .ok (some switch)
      | _ => .error .usage

end Switch

/-- What a word is. -/
inductive Word where
  | argument (text : Text)
  | marker
  | short (switch : Switch) (attached : Option Text)
  | long (switch : Switch) (attached : Option Text)
  | unknown
  deriving DecidableEq, Repr

namespace Word

def withoutLineFeed (text : Text) : Text :=
  if text.getLast? = some '\n' then text.dropLast else text

/-- Is the text a minus and a decimal number without exponent?  A line feed at the end does not
count. -/
def isNegativeNumber : Text -> Bool
  | '-' :: rest =>
      match Text.cut '.' (withoutLineFeed rest) with
      | (whole, none) => !whole.isEmpty && whole.all Text.isDecimalDigit
      | (whole, some fraction) =>
          whole.all Text.isDecimalDigit && !fraction.isEmpty &&
            fraction.all Text.isDecimalDigit
  | _ => false

def other (text : Text) : Word :=
  if isNegativeNumber text || text.contains ' ' then .argument text else .unknown

def ofLong (text : Text) : Except Stop Word := do
  let (name, attached) := Text.cut '=' text
  match <- Switch.ofName? name with
  | some switch => return .long switch attached
  | none => return other ('-' :: '-' :: text)

/-- What a word is after the letter of an option at its start: a `=` right after the letter does
not count. -/
def ofShort (switch : Switch) (text : Text) : Word :=
  match text with
  | [] => .short switch none
  | '=' :: rest => .short switch (some rest)
  | _ => .short switch (some text)

def ofText (text : Text) : Except Stop Word :=
  match text with
  | ['-', '-'] => .ok .marker
  | '-' :: '-' :: rest => ofLong rest
  | '-' :: letter :: rest =>
      match Switch.ofLetter? letter with
      | some switch => .ok (ofShort switch rest)
      | none => .ok (other text)
  | _ => .ok (.argument text)

def ofTexts : List Text -> Except Stop (List Word)
  | [] => .ok []
  | text :: texts => do
      match <- ofText text with
      | .marker => return .marker :: texts.map .argument
      | word => return word :: (<- ofTexts texts)

end Word

inductive Stretch where
  | before
  | inside
  | after
  deriving DecidableEq, Repr

/-- How far a command line has been read. -/
structure Progress where
  options : Options
  stretch : Stretch
  stray : Bool
  deriving DecidableEq, Repr

namespace Options

def unset : Options where
  specifiers := []
  parent := none
  conditions := none
  wasmModules := false
  noCache := false
  config := none
  layout := some .json
  logLevel := none
  logFile := none

def attachedValue (text : Text) : Option Text :=
  if text = "--".toList then none else some text

def layoutOf (value : Option Text) : Except Stop (Option Layout) :=
  match value with
  | none => .ok none
  | some text =>
      let name := Text.lower text
      if name = Layout.json.name then .ok (some .json)
      else if name = Layout.text.name then .ok (some .text)
      else .error .usage

def levelNames : List Text :=
  [Log.Level.debug, .info, .warning, .error, .critical].map Log.Level.label

def levelOf (value : Option Text) : Except Stop (Option Text) :=
  match value with
  | none => .ok none
  | some text =>
      let name := Text.upper text
      if levelNames.contains name then .ok (some name) else .error .usage

def take (options : Options) (switch : Switch) (value : Option Text) : Except Stop Options := do
  match switch with
  | .help => throw .help
  | .parent => return { options with parent := some value }
  | .condition =>
      return { options with conditions := some (options.conditions.getD [] ++ [value]) }
  | .wasmModules => return { options with wasmModules := true }
  | .noCache => return { options with noCache := true }
  | .config => return { options with config := some value }
  | .layout => return { options with layout := <- layoutOf value }
  | .logLevel => return { options with logLevel := some (<- levelOf value) }
  | .logFile => return { options with logFile := some value }

/-- Do the letters after that of an option without a value make sense as options?  One that takes a
value may have it as the rest of the word or as the next word. -/
def lettersFit (argumentFollows : Bool) : Text -> Bool
  | [] => true
  | letter :: rest =>
      match Switch.ofLetter? letter with
      | none => false
      | some switch =>
          if switch.takesValue then !rest.isEmpty || argumentFollows
          else lettersFit argumentFollows rest

end Options

namespace Progress

def start : Progress := ⟨.unset, .before, false⟩

def leave (progress : Progress) : Progress :=
  match progress.stretch with
  | .inside => { progress with stretch := .after }
  | _ => progress

def argument (progress : Progress) (text : Text) : Progress :=
  match progress.stretch with
  | .after => { progress with stray := true }
  | _ =>
      let options := progress.options
      { progress with
        options := { options with specifiers := options.specifiers ++ [text] }
        stretch := .inside }

def option (progress : Progress) (switch : Switch) (value : Option Text) :
    Except Stop Progress := do
  return { progress.leave with options := <- progress.options.take switch value }

end Progress

def startsWithArgument : List Word -> Bool
  | .argument _ :: _ => true
  | _ => false

/-- Read the words of a command line one after the other. -/
def readWords : Progress -> List Word -> Except Stop Progress
  | progress, [] => .ok progress
  | progress, .argument text :: words => readWords (progress.argument text) words
  | progress, .marker :: words =>
      let stray := progress.stray || progress.stretch = .after
      readWords { progress with stray } words
  | progress, .unknown :: words => readWords { progress.leave with stray := true } words
  | progress, .short switch (some attached) :: words =>
      if switch.takesValue then do
        readWords (<- progress.option switch (Options.attachedValue attached)) words
      else if !attached.isEmpty && Options.lettersFit (startsWithArgument words) attached then do
        readWords (<- progress.option switch none) words
      else .error .usage
  | progress, .long switch (some attached) :: words =>
      if switch.takesValue then do
        readWords (<- progress.option switch (Options.attachedValue attached)) words
      else .error .usage
  | progress, .short switch none :: .argument value :: words => do
      if switch.takesValue then readWords (<- progress.option switch (some value)) words
      else readWords ((<- progress.option switch none).argument value) words
  | progress, .long switch none :: .argument value :: words => do
      if switch.takesValue then readWords (<- progress.option switch (some value)) words
      else readWords ((<- progress.option switch none).argument value) words
  | progress, .short switch none :: words =>
      if switch.takesValue then .error .usage
      else do readWords (<- progress.option switch none) words
  | progress, .long switch none :: words =>
      if switch.takesValue then .error .usage
      else do readWords (<- progress.option switch none) words

/-- What the words of a command line ask for.  There must be a specifier. -/
def Options.ofWords (texts : List Text) : Except Stop Options := do
  let progress <- readWords .start (<- Word.ofTexts texts)
  if progress.stray || progress.options.specifiers.isEmpty then throw .usage
  return progress.options

end Command

end ModuleResolution
