import ModuleResolution.Url.Basic

/-!
# References

A reference seen from a base URL: `.` and `..` segments are carried out on the path of the base,
and parameters, query and fragment come from the reference unless it is empty.
-/

namespace ModuleResolution

namespace Url

def relativeSchemes : List Text :=
  [[], "ftp".toList, "http".toList, "gopher".toList, "nntp".toList, "imap".toList,
    "wais".toList, "file".toList, "https".toList, "shttp".toList, "mms".toList,
    "prospero".toList, "rtsp".toList, "rtsps".toList, "rtspu".toList, "sftp".toList,
    "svn".toList, "svn+ssh".toList, "ws".toList, "wss".toList]

def parameterSchemes : List Text :=
  [[], "ftp".toList, "hdl".toList, "prospero".toList, "http".toList, "imap".toList,
    "https".toList, "shttp".toList, "rtsp".toList, "rtsps".toList, "rtspu".toList, "sip".toList,
    "sips".toList, "mms".toList, "sftp".toList, "tel".toList]

structure Reference where
  parts : Parts
  parameters : Text
  deriving DecidableEq, Repr

/-- A path without its parameters, and the parameters: what follows the first semicolon of the
last segment. -/
def cutParameters (path : Text) : Text × Text :=
  let directory := Text.dropEndWhile (· != '/') path
  match Text.cut ';' (Text.takeEndWhile (· != '/') path) with
  | (name, some parameters) => (directory ++ name, parameters)
  | (_, none) => (path, [])

def Reference.read (scheme text : Text) : Except SyntaxError Reference := do
  let parts <- splitFrom scheme text
  if parameterSchemes.contains parts.scheme then
    let (path, parameters) := cutParameters parts.path
    return ⟨{ parts with path }, parameters⟩
  else return ⟨parts, []⟩

def Reference.toText (reference : Reference) : Text :=
  let path := reference.parts.path
  let path :=
    if reference.parameters.isEmpty then path else path ++ ';' :: reference.parameters
  { reference.parts with path }.toText

def baseSegments (path : Text) : List Text :=
  let segments := Text.splitOn '/' path
  if segments.getLast? = some [] then segments else segments.dropLast

/-- The segments without the empty ones between the first and the last. -/
def withoutInnerEmpty : List Text -> List Text
  | [] => []
  | [segment] => [segment]
  | first :: second :: rest =>
      let others := second :: rest
      first :: (others.dropLast.filter (fun segment => !segment.isEmpty) ++
        [others.getLast (List.cons_ne_nil second rest)])

def walk (stack : List Text) (segment : Text) : List Text :=
  if segment = "..".toList then stack.tail
  else if segment = ".".toList then stack
  else segment :: stack

/-- The path that segments lead to.  One that ends in `.` or `..` leads to a directory. -/
def pathOfSegments (segments : List Text) : Text :=
  let stack := segments.foldl walk []
  let stack :=
    if segments.getLast? = some ".".toList ∨ segments.getLast? = some "..".toList then
      [] :: stack
    else stack
  let path := Text.joinWith '/' stack.reverse
  if path.isEmpty then ['/'] else path

def joinPath (base path : Text) : Text :=
  if "/".toList.isPrefixOf path then pathOfSegments (Text.splitOn '/' path)
  else pathOfSegments (withoutInnerEmpty (baseSegments base ++ Text.splitOn '/' path))

/-- A reference seen from a base, by the rules of hierarchical URLs. -/
def joinReference (base reference : Text) : Except SyntaxError Text := do
  if base.isEmpty then return reference
  if reference.isEmpty then return base
  let source <- Reference.read [] base
  let target <- Reference.read source.parts.scheme reference
  let scheme := target.parts.scheme
  if scheme ≠ source.parts.scheme ∨ !relativeSchemes.contains scheme then return reference
  if !target.parts.authority.isEmpty then return target.toText
  let authority := source.parts.authority
  let fragment := target.parts.fragment
  if target.parts.path.isEmpty && target.parameters.isEmpty then
    let query := if target.parts.query.isEmpty then source.parts.query else target.parts.query
    return Reference.toText
      ⟨⟨scheme, authority, source.parts.path, query, fragment⟩, source.parameters⟩
  let path := joinPath source.parts.path target.parts.path
  return Reference.toText
    ⟨⟨scheme, authority, path, target.parts.query, fragment⟩, target.parameters⟩

/-- A reference seen from a base.  An absolute URL stays as it is. -/
def join (base reference : Text) : Except SyntaxError Text :=
  if isAbsolute reference then .ok reference else joinReference base reference

end Url

end ModuleResolution
