import ModuleResolution.FileSystem.Basic
import ModuleResolution.Package.Manifest
import ModuleResolution.Trace

/-!
# Package scopes

The package that a file belongs to is the nearest directory above it with a manifest.  The search
does not go past a directory of installed packages.
-/

namespace ModuleResolution

namespace Package

/-- The name of a directory of installed packages. -/
def installDirectory : Text := "node_modules".toList

/-- The path of the manifest in a directory. -/
def manifestPath (directory : Text) : Text :=
  Path.join directory Manifest.fileName

namespace Scope

def findIn (files : FileSystem) : List Text -> Option Text
  | [] => none
  | directory :: rest =>
      if Path.basename directory = installDirectory then none
      else if files.isFile (manifestPath directory) then some directory
      else findIn files rest

/-- The directories above a path that can be its scope, the nearest first. -/
def candidates (path : Text) : List Text :=
  Path.ancestors (Path.normalize path)

def ofPath? (files : FileSystem) (path : Text) : Option Text :=
  findIn files (candidates path)

/-- The path whose scope is the scope of a URL: a directory's URL is its own first candidate.
URLs that name no path have none. -/
def pathOfUrl? (url : Text) : Option Text :=
  match Url.File.toPath url with
  | .error _ => none
  | .ok path =>
      some (if "/".toList.isSuffixOf url then Path.join path Manifest.fileName else path)

def ofUrl? (files : FileSystem) (url : Text) : Option Text :=
  (pathOfUrl? url).bind (ofPath? files)

/-- The scope of a path, with its events. -/
def find (files : FileSystem) (path : Text) : Traced (Option Text) :=
  let scope := ofPath? files path
  let found :=
    match scope with
    | some directory => [Event.scopeFound path directory]
    | none => []
  ⟨.consulted ((candidates path).map manifestPath) :: found, .ok scope⟩

/-- The scope of a URL, with its events. -/
def findOfUrl (files : FileSystem) (url : Text) : Traced (Option Text) :=
  match pathOfUrl? url with
  | none => pure none
  | some path => find files path

end Scope

namespace Manifest

/-- The manifest in a text.  It has to be an object. -/
def ofText (directory text : Text) : Except Failure Manifest :=
  match Json.read text with
  | .ok (.object fields) => .ok (ofFields fields)
  | .error .oversizedInteger => .error (.fault .oversizedInteger)
  | _ => .error (.resolution (.invalidPackageConfiguration directory))

/-- The manifest in a directory, if there is one. -/
def load (files : FileSystem) (directory : Text) : Except Failure (Option Manifest) :=
  let path := manifestPath directory
  if directory.isEmpty || !files.isFile path then .ok none
  else
    match files.readText path with
    | .ok text => (ofText directory text).map some
    | .error .notUtf8 => .error (.resolution (.invalidPackageConfiguration directory))
    | .error fault => .error (.fault (.read fault))

/-- The manifest in a directory, with its events. -/
def find (files : FileSystem) (directory : Text) : Traced (Option Manifest) :=
  ⟨[.consulted [manifestPath directory]], load files directory⟩

end Manifest

end Package

end ModuleResolution
