import ModuleResolution.Path
import ModuleResolution.Percent
import ModuleResolution.Url.Join

/-!
# File URLs

Paths as `file:` URLs and back.  Every character that a URL would read in another way is escaped,
so the path that comes back is the one that went in.
-/

namespace ModuleResolution

namespace Url

namespace File

/-- Why a URL names no path. -/
inductive PathError where
  | malformed (cause : SyntaxError)
  | otherScheme (url : Text)
  | otherHost (url : Text)
  | relativePath (url : Text)
  deriving DecidableEq, Repr

def PathError.message? : PathError -> Option Text
  | .malformed _ => none
  | .otherScheme url => some ("The URL must be of scheme file: ".toList ++ url)
  | .otherHost url => some ("File URL host must be \"localhost\" or empty: ".toList ++ url)
  | .relativePath url => some ("File URL path must be absolute: ".toList ++ url)

/-- Does the character stand for itself in a file URL? -/
def isKept (c : Char) : Bool :=
  isLetter c || c.isDigit || "_.-~/!$&'()*+,;=:@[]^|".toList.contains c

/-- The URL of a path, seen from a directory. -/
def ofPath (directory path : Text) : Text :=
  let absolute := Path.absolute directory path
  let absolute := if Path.isAbsolute absolute then absolute else '/' :: absolute
  "file://".toList ++ Percent.encode isKept absolute

/-- The URL of a directory, which ends with a slash. -/
def ofDirectory (directory path : Text) : Text :=
  let url := ofPath directory path
  if "/".toList.isSuffixOf url then url else url ++ ['/']

/-- The path that a local file URL names. -/
def toPath (url : Text) : Except PathError Text := do
  let parts <- (split url).mapError PathError.malformed
  if parts.scheme ≠ "file".toList then throw (.otherScheme url)
  if !parts.authority.isEmpty && parts.authority ≠ "localhost".toList then throw (.otherHost url)
  if !Path.isAbsolute parts.path then throw (.relativePath url)
  return Percent.decode parts.path

/-- Give a file URL an authority and an absolute path.  Other URLs stay as they are. -/
def normalize (url : Text) : Except SyntaxError Text := do
  let parts <- split url
  if parts.scheme ≠ "file".toList then return url
  let rest := url.drop (parts.scheme.length + 1)
  if "//".toList.isPrefixOf rest && Path.isAbsolute parts.path then return url
  let path := if Path.isAbsolute parts.path then parts.path else '/' :: parts.path
  let normal := "file://".toList ++ parts.authority ++ path
  let normal := if parts.query.isEmpty then normal else normal ++ '?' :: parts.query
  return if parts.fragment.isEmpty then normal else normal ++ '#' :: parts.fragment

end File

/-- A path or a reference as a URL, seen from a base. -/
def ofPathOrReference (directory base value : Text) : Except SyntaxError Text :=
  if Path.isAbsolute value then .ok (File.ofPath directory value) else join base value

end Url

end ModuleResolution
