import ModuleResolution.Error

/-!
# Runtime flags

The flags that change a resolution: given as a list, or taken from the text of an environment
variable, which is cut into words the way a shell does it.
-/

namespace ModuleResolution

namespace Flags

inductive Mode where
  | between
  | word
  | quoted (quote : Char)
  | escaped (quote : Option Char)
  deriving DecidableEq, Repr

def isSpace (c : Char) : Bool :=
  c == ' ' || c == '\t' || c == '\r' || c == '\n'

def isQuote (c : Char) : Bool :=
  c == '"' || c == Char.ofNat 39

def consChar (c : Char) : List Text -> List Text
  | [] => [[c]]
  | word :: words => (c :: word) :: words

/-- The words from here on.  Outside of the mode `between` the first one is the rest of the word
that has begun.  A backslash in double quotes takes effect only before one of its kind or before
the quote; in single quotes it never does. -/
def wordsFrom : Mode -> Text -> Except WordsError (List Text)
  | .between, [] => .ok []
  | .word, [] => .ok [[]]
  | .quoted _, [] => .error .openQuote
  | .escaped _, [] => .error .openEscape
  | .between, c :: rest =>
      if isSpace c then wordsFrom .between rest
      else if c = '\\' then wordsFrom (.escaped none) rest
      else if isQuote c then wordsFrom (.quoted c) rest
      else return consChar c (<- wordsFrom .word rest)
  | .word, c :: rest =>
      if isSpace c then return [] :: (<- wordsFrom .between rest)
      else if c = '\\' then wordsFrom (.escaped none) rest
      else if isQuote c then wordsFrom (.quoted c) rest
      else return consChar c (<- wordsFrom .word rest)
  | .quoted quote, c :: rest =>
      if c = quote then wordsFrom .word rest
      else if c = '\\' ∧ quote = '"' then wordsFrom (.escaped (some quote)) rest
      else return consChar c (<- wordsFrom (.quoted quote) rest)
  | .escaped none, c :: rest => return consChar c (<- wordsFrom .word rest)
  | .escaped (some quote), c :: rest => do
      let words <- wordsFrom (.quoted quote) rest
      let words := consChar c words
      return if c = '\\' ∨ c = quote then words else consChar '\\' words

def words (text : Text) : Except WordsError (List Text) :=
  wordsFrom .between text

/-- The flag that makes WebAssembly modules loadable. -/
def wasmModules : Text := "--experimental-wasm-modules".toList

end Flags

/-- Where the runtime flags come from. -/
inductive Flags where
  | listed (flags : List Text)
  /-- They are the words of this text, which is cut each time a flag is asked for. -/
  | written (options : Text)
  deriving DecidableEq, Repr

namespace Flags

def toList : Flags -> Except WordsError (List Text)
  | .listed flags => .ok flags
  | .written options => words options

def holds (flags : Flags) (flag : Text) : Except WordsError Bool := do
  return (<- flags.toList).contains flag

end Flags

end ModuleResolution
