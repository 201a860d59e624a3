import ModuleResolution.Cache
import ModuleResolution.Flags
import ModuleResolution.Package.Exports
import ModuleResolution.Package.Scope
import ModuleResolution.Package.Specifier
import ModuleResolution.Url.Data

/-!
# Resolution

From a specifier and the URL of the importing module to a path or URL and a format.  A bare
specifier is looked up in the package itself, then in the directories of installed packages above;
a specifier with `#` in front goes through the `imports` of the package.
-/

namespace ModuleResolution

/-- What resolutions depend on besides specifier and parent. -/
structure Resolver where
  files : FileSystem
  conditions : List Text
  flags : Flags
  workingDirectory : Text

/-- The conditions that are active when none are given. -/
def defaultConditions : List Text :=
  ["node".toList, "import".toList, "require".toList]

/-- Is the specifier a path: does it start with `/`, `./` or `../`? -/
def isPathSpecifier (specifier : Text) : Bool :=
  "/".toList.isPrefixOf specifier || "./".toList.isPrefixOf specifier ||
    "../".toList.isPrefixOf specifier

/-- The URL of an importing module given as a URL or a path.  A path with a slash at its end is
that of a directory. -/
def parentUrl (workingDirectory parent : Text) : Except Url.SyntaxError Text :=
  if !Path.isAbsolute parent && Url.isAbsolute parent then Url.File.normalize parent
  else if "/".toList.isSuffixOf parent then .ok (Url.File.ofDirectory workingDirectory parent)
  else .ok (Url.File.ofPath workingDirectory parent)

namespace Resolver

variable (resolver : Resolver)

/-- What targets in the manifest of a package are seen from. -/
def targetContext (package : Text) (external : Option (Text -> Traced Text)) :
    Package.TargetContext where
  workingDirectory := resolver.workingDirectory
  package := package
  conditions := resolver.conditions
  capture := none
  external := external

/-! ### Packages -/

/-- The URL of a subpath of a package according to `exports`. -/
def resolveExports (package subpath : Text) (exports : Json) : Traced Text :=
  Package.Exports.resolve (resolver.targetContext package none) subpath exports

/-- The URL of a subpath of the package that the parent belongs to, if the package has that name
and `exports`. -/
def resolveSelf (name subpath parent : Text) : Traced (Option Text) := do
  match <- Package.Scope.findOfUrl resolver.files parent with
  | none => return none
  | some scope =>
      match <- Package.Manifest.find resolver.files scope with
      | none => return none
      | some manifest =>
          if manifest.hasExports && manifest.name == some name then
            return some (<- resolver.resolveExports scope subpath manifest.exports)
          else return none

/-- The directory where a package would be installed, seen from a directory. -/
def installedAt (directory name : Text) : Text :=
  Path.normalize (Path.join (Path.join directory Package.installDirectory) name)

def resolveInstalled (package subpath : Text) (manifest : Package.Manifest) : Traced Text :=
  if manifest.hasExports then resolver.resolveExports package subpath manifest.exports
  else
    let url := Url.File.ofDirectory resolver.workingDirectory package
    match manifest.main with
    | some main =>
        if subpath = ".".toList then .ofUrl (Url.join url main)
        else .ofUrl (Url.join url subpath)
    | none => .ofUrl (Url.join url subpath)

/-- The error for a package that is not installed. -/
def notInstalled (name subpath : Text) : ResolutionError :=
  .moduleNotFound (Path.normalize (Path.join name subpath))

/-- Look for an installed package, seen from one directory after the other.  A directory without a
manifest is passed over. -/
def searchInstalled (name subpath : Text) : List Text -> Traced Text
  | [] => .reject (notInstalled name subpath)
  | directory :: rest => do
      let package := installedAt directory name
      Traced.emit [.consulted [package]]
      if resolver.files.isDirectory package then
        match <- Package.Manifest.find resolver.files package with
        | some manifest => do
            Traced.emit [.packageFound name package]
            resolver.resolveInstalled package subpath manifest
        | none => searchInstalled name subpath rest
      else searchInstalled name subpath rest

/-- The directories from which installed packages are looked for: the path and those above it, but
not the root. -/
def searchDirectories (path : Text) : List Text :=
  (path :: Path.ancestors path).filter fun directory => !Path.isRoot directory

/-- The URL of a subpath of an installed package. -/
def resolveFromInstalled (name subpath parent : Text) : Traced Text :=
  match Url.File.toPath parent with
  | .error _ => .reject (notInstalled name subpath)
  | .ok path => resolver.searchInstalled name subpath (searchDirectories (Path.normalize path))

/-- The URL of a bare specifier. -/
def resolvePackage (specifier parent : Text) : Traced Text :=
  if specifier.isEmpty then .reject (.invalidModuleSpecifier specifier)
  else if Core.isBuiltin specifier then pure (Core.scheme ++ specifier)
  else
    match Package.Specifier.parse specifier with
    | .error error => .reject error
    | .ok package => do
        match <- resolver.resolveSelf package.name package.subpath parent with
        | some url => return url
        | none => resolver.resolveFromInstalled package.name package.subpath parent

/-! ### Imports -/

/-- What targets in the `imports` of a package are seen from: a name of another package resolves
from the directory of this one. -/
def importsContext (package : Text) : Package.TargetContext :=
  resolver.targetContext package
    (some fun specifier =>
      resolver.resolvePackage specifier
        (Url.File.ofDirectory resolver.workingDirectory package))

def resolveOwnImport (specifier parent : Text) : Traced (Option Text) := do
  match <- Package.Scope.findOfUrl resolver.files parent with
  | none => return none
  | some scope =>
      match <- Package.Manifest.find resolver.files scope with
      | none => return none
      | some manifest =>
          match manifest.imports with
          | .object fields =>
              Package.SubpathMap.resolve (resolver.importsContext scope) fields specifier
          | _ => return none

/-- The URL of a specifier with `#` in front. -/
def resolveImport (specifier parent : Text) : Traced Text :=
  if !"#".toList.isPrefixOf specifier then .fail (.fault .notAnImport)
  else if specifier = "#".toList ∨ "#/".toList.isPrefixOf specifier then
    .reject (.invalidModuleSpecifier specifier)
  else do
    match <- resolver.resolveOwnImport specifier parent with
    | some url => return url
    | none => .reject (.packageImportNotDefined specifier)

/-! ### Formats -/

/-- The octets that a WebAssembly module starts with. -/
def wasmMagic : List UInt8 := [0x00, 0x61, 0x73, 0x6d]

def holdsFlag (flag : Text) : Except Failure Bool :=
  (resolver.flags.holds flag).mapError fun cause => .fault (.words cause)

/-- The format that the scope of a path gives to plain scripts. -/
def scopeFormat (path : Text) : Traced (Option Format) := do
  match <- Package.Scope.find resolver.files path with
  | none => return none
  | some scope =>
      match <- Package.Manifest.find resolver.files scope with
      | none => return none
      | some manifest => return manifest.format?

def startsLikeWasm (path : Text) : Except Failure Bool :=
  match resolver.files.readBytes path wasmMagic.length with
  | .ok octets => .ok (octets == wasmMagic)
  | .error fault => .error (.fault (.read fault))

/-- The format of a file whose name alone does not decide it. -/
def formatByScope (path : Text) : Traced (Option Format) := do
  let format <- resolver.scopeFormat path
  if ".js".toList.isSuffixOf path then return some (format.getD .commonjs)
  else if Path.extension path = [] then
    if <- .ofOutcome (resolver.holdsFlag Flags.wasmModules) then
      if <- .ofOutcome (resolver.startsLikeWasm path) then return some .wasm
      else return format
    else return format
  else return none

/-- The format of a file, by its extension or by the package that it belongs to. -/
def formatOf (path : Text) : Traced (Option Format) :=
  if !resolver.files.isFile path then .fail (.fault .notAFile)
  else if ".mjs".toList.isSuffixOf path then pure (some .module)
  else if ".cjs".toList.isSuffixOf path then pure (some .commonjs)
  else if ".json".toList.isSuffixOf path then pure (some .json)
  else if ".wasm".toList.isSuffixOf path then do
    if <- .ofOutcome (resolver.holdsFlag Flags.wasmModules) then return some .wasm
    else resolver.formatByScope path
  else resolver.formatByScope path

/-! ### Specifiers -/

/-- The absolute URL that a specifier stands for. -/
def resolvedUrl (specifier parent : Text) : Traced Text :=
  if Url.isAbsolute specifier then .ofUrl (Url.File.normalize specifier)
  else if isPathSpecifier specifier then .ofUrl (Url.join parent specifier)
  else if "#".toList.isPrefixOf specifier then do
    let value <- resolver.resolveImport specifier parent
    .ofUrl (Url.ofPathOrReference resolver.workingDirectory parent value)
  else do
    let value <- resolver.resolvePackage specifier parent
    .ofUrl (Url.ofPathOrReference resolver.workingDirectory parent value)

/-- Does a URL have a slash or a backslash as an escape? -/
def hasEncodedSeparator (url : Text) : Bool :=
  let url := Text.lowerAscii url
  Text.occursIn "%2f".toList url || Text.occursIn "%5c".toList url

def resolveFile (url : Text) : Traced Resolution :=
  match Url.File.toPath url with
  | .error cause => .fail (.fault (.path cause))
  | .ok path => do
      Traced.emit [.consulted [path]]
      if resolver.files.isDirectory path then .reject (.unsupportedDirectoryImport url)
      else if !resolver.files.isFile path then .reject (.moduleNotFound url)
      else return ⟨path, <- resolver.formatOf path⟩

/-- The resolution of an absolute URL. -/
def classify (url : Text) : Traced Resolution :=
  if hasEncodedSeparator url then .reject (.invalidModuleSpecifier url)
  else
    match Url.protocol? url with
    | none => .fail (.fault (.notAbsolute url))
    | some protocol =>
        if protocol = "file:".toList then resolver.resolveFile url
        else if protocol = "node:".toList then pure ⟨url, some .builtin⟩
        else if protocol = "data:".toList then
          match Url.Data.format? url with
          | some format => pure ⟨url, some format⟩
          | none => .reject (.invalidModuleSpecifier url)
        else pure ⟨url, none⟩

def resolveUncached (specifier parent : Text) : Traced Resolution := do
  resolver.classify (<- resolver.resolvedUrl specifier parent)

/-- The resolution of a specifier with an event that tells how it ended. -/
def resolveReported (specifier parent : Text) : Traced Resolution :=
  let run := resolver.resolveUncached specifier parent
  match run.outcome with
  | .ok resolution =>
      { run with events := run.events ++ [.resolved specifier parent resolution.path] }
  | .error (.resolution error) =>
      { run with events := run.events ++ [.failed specifier parent error] }
  | .error (.fault _) => run

/-- The resolution of a specifier through a cache.  A stored resolution is the answer as it is. -/
def resolveCached (cache : Cache) (specifier parent : Text) : Traced Resolution × Cache :=
  match cache.get specifier parent with
  | (some stored, cache) => (⟨[.cacheHit specifier parent], .ok stored⟩, cache)
  | (none, cache) =>
      let run := resolver.resolveReported specifier parent
      match run.outcome with
      | .error _ => (run, cache)
      | .ok resolution =>
          let (stored, cache) := cache.set specifier parent resolution
          (⟨run.events ++ [.stored specifier parent], .ok stored⟩, cache)

/-- The resolution of a specifier in a module given as a URL or a path, with or without the use of
a cache. -/
def resolve (cache : Cache) (specifier parent : Text) (useCache : Bool) :
    Traced Resolution × Cache :=
  match parentUrl resolver.workingDirectory parent with
  | .error cause => (.fail (.fault (.url cause)), cache)
  | .ok parent =>
      if useCache then resolver.resolveCached cache specifier parent
      else (resolver.resolveReported specifier parent, cache)

end Resolver

end ModuleResolution
