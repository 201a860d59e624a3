import ModuleResolution.Text.Basic

/-!
# Paths

Slash-separated paths: joining, cutting at the last slash, and a normal form without empty, `.` and
avoidable `..` components.  Exactly two leading slashes are a root of their own.
-/

namespace ModuleResolution

namespace Path

/-- Does the path start at a root? -/
def isAbsolute (path : Text) : Bool :=
  "/".toList.isPrefixOf path

/-- `path` seen from `base`; an absolute path stays as it is. -/
def join (base path : Text) : Text :=
  if isAbsolute path then path
  else if base.isEmpty || "/".toList.isSuffixOf base then base ++ path
  else base ++ '/' :: path

/-- What stands after the last slash. -/
def basename (path : Text) : Text :=
  Text.takeEndWhile (· != '/') path

/-- What stands before the last slash, without the slashes at its end unless it is a root. -/
def dirname (path : Text) : Text :=
  let head := Text.dropEndWhile (· != '/') path
  if head.all (· == '/') then head else Text.dropEndWhile (· == '/') head

/-- The last component from its last dot on, unless only dots come before that one. -/
def extension (path : Text) : Text :=
  let name := basename path
  let stem := Text.dropEndWhile (· != '.') name
  if stem.dropLast.any (· != '.') then '.' :: Text.takeEndWhile (· != '.') name else []

/-- The slashes that a normal form keeps at the front: none, one or two. -/
def root : Text -> Text
  | '/' :: '/' :: '/' :: _ => ['/']
  | '/' :: '/' :: _ => ['/', '/']
  | '/' :: _ => ['/']
  | _ => []

/-- Put one component on a stack of components, the last one on top. -/
def push (rooted : Bool) (stack : List Text) (part : Text) : List Text :=
  if part = [] ∨ part = ".".toList then stack
  else if part = "..".toList then
    match stack with
    | [] => if rooted then [] else [part]
    | top :: below => if top = "..".toList then part :: stack else below
  else part :: stack

/-- The components of a path's normal form, the last one first. -/
def stackOf (path : Text) : List Text :=
  (Text.splitOn '/' path).foldl (push (isAbsolute path)) []

/-- The normal form of a path; the empty path is the current directory. -/
def normalize (path : Text) : Text :=
  let result := root path ++ Text.joinWith '/' (stackOf path).reverse
  if result.isEmpty then ".".toList else result

/-- The normal form of a path seen from a directory. -/
def absolute (directory path : Text) : Text :=
  normalize (join directory path)

/-- Is there no directory above? -/
def isRoot (path : Text) : Bool :=
  dirname path == path

theorem dropEndWhile_isPrefix (p : Char -> Bool) (text : Text) :
    Text.dropEndWhile p text <+: text :=
  ⟨_, Text.dropEndWhile_append_takeEndWhile p text⟩

theorem dirname_isPrefix (path : Text) : dirname path <+: path := by
  unfold dirname
  simp only
  split
  · exact dropEndWhile_isPrefix _ _
  · exact (dropEndWhile_isPrefix _ _).trans (dropEndWhile_isPrefix _ _)

theorem dirname_length_lt {path : Text} (h : dirname path ≠ path) :
    (dirname path).length < path.length := by
  have hp := dirname_isPrefix path
  rcases Nat.lt_or_ge (dirname path).length path.length with hlt | hge
  · exact hlt
  · exact absurd (hp.eq_of_length (Nat.le_antisymm hp.length_le hge)) h

/-- The directories above a path, the nearest first and a root last. -/
def ancestors (path : Text) : List Text :=
  if _ : dirname path = path then []
  else dirname path :: ancestors (dirname path)
termination_by path.length
decreasing_by exact dirname_length_lt ‹_›

end Path

end ModuleResolution
