import ModuleResolution.Command.Record

/-!
# Runs of the command

From the words of a command line to what is written, shown and kept in a log file.
-/

namespace ModuleResolution

namespace Command

/-- What a run depends on besides the words of its command line. -/
structure World where
  files : FileSystem
  settingsFiles : FileSystem
  logFault? : Text -> Option ReadFault
  environment : Environment
  workingDirectory : Text

/-- How a run ends. -/
inductive ExitCode where
  | success
  | unresolved
  | usage
  deriving DecidableEq, Repr

def ExitCode.number : ExitCode -> Nat
  | .success => 0
  | .unresolved => 1
  | .usage => 2

def Stop.exitCode : Stop -> ExitCode
  | .help => .success
  | .usage => .usage

/-- Why a run breaks off. -/
inductive Break where
  | stop (cause : Stop)
  | settings (cause : Config.LoadError)
  | flags (cause : WordsError)
  | threshold (cause : Log.Reserved)
  | logFile (cause : ReadFault)
  | parent (cause : Url.SyntaxError)
  | resolution (cause : Failure)
  deriving DecidableEq, Repr

/-- What a run gives. -/
structure Report where
  exitCode : ExitCode
  output : Text
  notices : List Config.Notice
  messages : List Log.Message
  logFile : Option Text
  deriving Repr

/-- A value from the command line as one of a layer of settings. -/
def valueOf : Option Text -> Config.Value
  | some text => .string text
  | none => .list []

def layer (options : Options) : List (Config.Value × Config.Value) :=
  let entry (field : Config.Field) (value : Option Config.Value) :
      List (Config.Value × Config.Value) :=
    value.toList.map fun value => (.string field.name, value)
  entry .conditions (options.conditions.map fun values => .list (values.map valueOf)) ++
    entry .enableCache (if options.noCache then some (.bool false) else none) ++
    entry .logLevel (options.logLevel.map valueOf)

/-- The runtime flags of a run.  The one for WebAssembly modules may be added to them. -/
def runtimeFlags (world : World) (options : Options) (settings : Config.Settings) :
    Except WordsError Flags := do
  let flags := settings.runtimeFlags world.environment
  if options.wasmModules then
    let known <- flags.toList
    if known.contains Flags.wasmModules then return .listed known
    else return .listed (known ++ [Flags.wasmModules])
  else return flags

/-- What all resolutions of a run have in common. -/
structure Setup where
  resolver : Resolver
  parent : Text
  useCache : Bool
  notices : List Config.Notice
  threshold : Log.Level
  logFile : Option Text

def setUp (world : World) (options : Options) : Except Break Setup := do
  let config := options.config.join
  let (settings, notices) <-
    (Config.Settings.load world.settingsFiles world.environment config (layer options)).mapError
      Break.settings
  let flags <- (runtimeFlags world options settings).mapError Break.flags
  let threshold <-
    (Log.threshold (some settings.logLevel) world.environment).mapError Break.threshold
  let logFile := options.logFile.join.filter fun path => !path.isEmpty
  if let some fault := logFile.bind world.logFault? then throw (.logFile fault)
  let parent <-
    match options.parent.join.filter fun path => !path.isEmpty with
    | some path => (parentUrl world.workingDirectory path).mapError Break.parent
    | none => pure (Url.File.ofDirectory world.workingDirectory world.workingDirectory)
  return {
    resolver := {
      files := world.files
      conditions := settings.conditions
      flags := flags
      workingDirectory := world.workingDirectory }
    parent := parent
    useCache := settings.enableCache
    notices := notices
    threshold := threshold
    logFile := logFile }

def openingMessage (path : Text) : Log.Message :=
  ⟨.info, .command, "Logging to file: ".toList ++ path⟩

def eventMessage? (event : Event) : Option Log.Message :=
  event.message?.map fun text => ⟨.debug, .resolver, text⟩

def closingMessage (failed all : Nat) : Log.Message :=
  ⟨.debug, .command, Text.ofNat failed ++ " of ".toList ++ Text.ofNat all ++
    " specifiers failed to resolve".toList⟩

/-- The report about the records of a run. -/
def report (setup : Setup) (layout : Layout) (events : List Event) (records : List Record) :
    Report :=
  let failed := (records.filter Record.failed).length
  let messages :=
    setup.logFile.toList.map openingMessage ++ events.filterMap eventMessage? ++
      (if failed = 0 then [] else [closingMessage failed records.length])
  { exitCode := if failed = 0 then .success else .unresolved
    output := Record.write layout records
    notices := setup.notices
    messages := messages.filter (Log.Message.reaches setup.threshold)
    logFile := setup.logFile }

/-- A run: what happens in it, and what it gives. -/
def run (world : World) (words : List Text) : List Event × Except Break Report :=
  match Options.ofWords words with
  | .error stop => ([], .error (.stop stop))
  | .ok options =>
      match setUp world options with
      | .error cause => ([], .error cause)
      | .ok setup =>
          let (traced, _) :=
            Record.ofSpecifiers setup.resolver setup.parent setup.useCache .empty
              options.specifiers
          match traced.outcome with
          | .error failure => (traced.events, .error (.resolution failure))
          | .ok records =>
              (traced.events,
                .ok (report setup (options.layout.getD .json) traced.events records))

end Command

end ModuleResolution
