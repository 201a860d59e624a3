import ModuleResolution.Url.Host

/-!
# URLs

The parts of a URL and their order, and the two tests that decide whether a text is one.  Reading
drops control characters and blanks in front and every tab and line break anywhere.
-/

namespace ModuleResolution

namespace Url

/-- The parts of a URL.  A part that is missing is empty. -/
structure Parts where
  scheme : Text
  authority : Text
  path : Text
  query : Text
  fragment : Text
  deriving DecidableEq, Repr

def isLetter (c : Char) : Bool :=
  (decide ('a' <= c) && decide (c <= 'z')) || (decide ('A' <= c) && decide (c <= 'Z'))

def isSchemeChar (c : Char) : Bool :=
  isLetter c || c.isDigit || c == '+' || c == '-' || c == '.'

def isScheme : Text -> Bool
  | [] => false
  | c :: rest => isLetter c && rest.all isSchemeChar

/-- The scheme in front of the first colon, and the rest. -/
def scheme? (text : Text) : Option (Text × Text) :=
  match Text.cut ':' text with
  | (scheme, some rest) => if isScheme scheme then some (scheme, rest) else none
  | (_, none) => none

/-- Schemes that need something other than slashes after the colon. -/
def specialSchemes : List Text :=
  ["http".toList, "https".toList, "ws".toList, "wss".toList, "ftp".toList]

def isAbsolute (text : Text) : Bool :=
  match scheme? text with
  | none => false
  | some (scheme, rest) =>
      if specialSchemes.contains (Text.lowerAscii scheme) then rest.any (· != '/') else true

/-- The protocol of an absolute URL: its scheme in lower case and the colon. -/
def protocol? (url : Text) : Option Text :=
  (scheme? url).map fun (scheme, _) => Text.lowerAscii scheme ++ [':']

def isLeadingNoise (c : Char) : Bool :=
  decide (c.toNat <= 0x20)

/-- Is the character dropped from a URL wherever it stands? -/
def isBreak (c : Char) : Bool :=
  c == '\t' || c == '\r' || c == '\n'

/-- The text without the characters that a URL does not keep. -/
def clean (text : Text) : Text :=
  (text.dropWhile isLeadingNoise).filter fun c => !isBreak c

def endsAuthority (c : Char) : Bool :=
  c == '/' || c == '?' || c == '#'

def cutAuthority : Text -> Text × Text
  | '/' :: '/' :: rest =>
      (rest.takeWhile fun c => !endsAuthority c, rest.dropWhile fun c => !endsAuthority c)
  | text => ([], text)

/-- Cut a text into the parts of a URL; one without a scheme gets the one given. -/
def splitFrom (scheme text : Text) : Except SyntaxError Parts :=
  let text := clean text
  let (scheme, rest) :=
    match scheme? text with
    | some (written, rest) => (Text.lowerAscii written, rest)
    | none => (scheme, text)
  let (authority, rest) := cutAuthority rest
  match Host.fault? authority with
  | some cause => .error cause
  | none =>
      let (rest, fragment) := Text.cut '#' rest
      let (path, query) := Text.cut '?' rest
      .ok ⟨scheme, authority, path, query.getD [], fragment.getD []⟩

/-- Cut a text into the parts of a URL. -/
def split (text : Text) : Except SyntaxError Parts :=
  splitFrom [] text

/-- Schemes whose URLs have an authority, even an empty one. -/
def authoritySchemes : List Text :=
  ["ftp".toList, "http".toList, "gopher".toList, "nntp".toList, "telnet".toList, "imap".toList,
    "wais".toList, "file".toList, "mms".toList, "https".toList, "shttp".toList, "snews".toList,
    "prospero".toList, "rtsp".toList, "rtsps".toList, "rtspu".toList, "rsync".toList,
    "svn".toList, "svn+ssh".toList, "sftp".toList, "nfs".toList, "git".toList, "git+ssh".toList,
    "ws".toList, "wss".toList]

/-- Write the parts of a URL in their order.  A path under an authority starts with a slash.  Under
an empty authority a path with two slashes in front is written as it is. -/
def Parts.toText (parts : Parts) : Text :=
  let hierarchical := !parts.authority.isEmpty ||
    (authoritySchemes.contains parts.scheme && !"//".toList.isPrefixOf parts.path)
  let path :=
    if hierarchical then
      let path :=
        if parts.path.isEmpty || "/".toList.isPrefixOf parts.path then parts.path
        else '/' :: parts.path
      "//".toList ++ parts.authority ++ path
    else parts.path
  let url := if parts.scheme.isEmpty then path else parts.scheme ++ ':' :: path
  let url := if parts.query.isEmpty then url else url ++ '?' :: parts.query
  if parts.fragment.isEmpty then url else url ++ '#' :: parts.fragment

end Url

end ModuleResolution
