import ModuleResolution.Command.Run
import ModuleResolution.FileSystem.Snapshot
import Std.Time

/-!
# The command

Runs the command on the disk: a run on what is known of the disk shows which paths it consults, and
is repeated until all of them are known.
-/

namespace ModuleResolution

namespace Main

def usage : String :=
  "usage: esmresolve [-h] [-p PARENT] [-c CONDITION] [--experimental-wasm-modules]\n" ++
  "                  [--no-cache] [--config CONFIG] [-f LAYOUT] [--loglevel LEVEL]\n" ++
  "                  [--logfile FILE] SPECIFIER [SPECIFIER ...]\n"

def look (path : Text) : IO FileSystem.Sight := do
  let name := String.ofList path
  try
    let found <- IO.FS.realPath name
    if <- found.isDir then return .directory
    else return .file (<- IO.FS.readBinFile name).toList
  catch _ => return .nothing

def learn (snapshot : FileSystem.Snapshot) (paths : List Text) : IO FileSystem.Snapshot :=
  paths.foldlM (fun snapshot path => return Association.put path (<- look path) snapshot) snapshot

def logFault? (path : Text) : IO (Option ReadFault) := do
  try
    let _ <- IO.FS.Handle.mk (String.ofList path) .append
    return none
  catch _ =>
    match <- look path with
    | .directory => return some (.isDirectory path)
    | _ => return some (.notFound path)

def environment : IO Environment := do
  let values <- Environment.Variable.all.mapM fun which => do
    let value <- IO.getEnv (String.ofList which.name)
    return value.map fun value => (which.name, value.toList)
  return values.filterMap id

partial def settle (world : Command.World) (words : List Text) (snapshot : FileSystem.Snapshot) :
    IO (Except Command.Break Command.Report) := do
  let files := snapshot.toFileSystem
  let (events, result) := Command.run { world with files, settingsFiles := files } words
  match snapshot.unknown events with
  | [] => return result
  | paths => settle world words (<- learn snapshot paths)

def describe : Command.Break -> String
  | .stop _ => usage
  | .settings .oversizedInteger => "a setting has an integer with too many digits"
  | .settings .tooDeep => "the configuration file is nested too deep"
  | .flags _ => "the runtime flags have an open quote or escape"
  | .threshold _ => "the log level is none"
  | .logFile _ => "the log file cannot be written"
  | .parent _ => "the parent has a malformed host"
  | .resolution (.resolution error) => String.ofList error.message
  | .resolution (.fault _) => "a specifier cannot be resolved"

def keep (path : Text) (messages : List Log.Message) : IO Unit := do
  let time <- Std.Time.PlainDateTime.now
  let stamp := time.format "uuuu-MM-dd HH:mm:ss,SSS"
  IO.FS.withFile (String.ofList path) .append fun file =>
    for message in messages do
      file.putStrLn (stamp ++ " " ++ String.ofList message.kept)

def noticeLine (notice : Config.Notice) : String :=
  let source := String.ofList (notice.source?.getD [])
  ((String.ofList notice.template).replace ": %r" "").replace "%s" source

def present (report : Command.Report) : IO UInt32 := do
  let errors <- IO.getStderr
  for notice in report.notices do
    errors.putStrLn (noticeLine notice)
  errors.putStr (String.ofList (report.messages.flatMap Log.Message.shown))
  if let some path := report.logFile then keep path report.messages
  IO.print (String.ofList report.output)
  return UInt32.ofNat report.exitCode.number

def start (words : List Text) : IO UInt32 := do
  let environment <- environment
  let workingDirectory := (<- IO.currentDir).toString.toList
  let options := (Command.Options.ofWords words).toOption
  let asked := options.bind fun options => options.config.join
  let log := options.bind fun options => options.logFile.join.filter fun path => !path.isEmpty
  let fault <- match log with
    | some path => logFault? path
    | none => pure none
  let known <- learn [] [Config.Settings.configPath asked environment]
  let files := FileSystem.Snapshot.toFileSystem []
  let world : Command.World :=
    { files, settingsFiles := files, logFault? := fun _ => fault, environment, workingDirectory }
  match <- settle world words known with
  | .ok report => present report
  | .error (.stop .help) =>
      IO.print usage
      return 0
  | .error cause =>
      IO.eprintln (describe cause)
      return if cause = .stop .usage then 2 else 1

end Main

end ModuleResolution

def main (words : List String) : IO UInt32 :=
  ModuleResolution.Main.start (words.map String.toList)
