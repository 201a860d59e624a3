import ModuleResolution.Yaml.Scalar

/-!
# Tokens of a YAML document

A document as a list of tokens.  Indentation turns into tokens that open and close block
collections.  What a `:` follows turns into a key: the place of a text that may be one is kept until
the `:` comes or the line ends.
-/

namespace ModuleResolution

namespace Yaml

inductive Token where
  | version (major : Nat)
  | directive
  | documentStart
  | documentEnd
  | blockSequenceStart
  | blockMappingStart
  | blockEnd
  | flowSequenceStart
  | flowSequenceEnd
  | flowMappingStart
  | flowMappingEnd
  | blockEntry
  | flowEntry
  | key
  | value
  | anchor (name : Text)
  | alias (name : Text)
  | scalar (text : Text) (plain : Bool)
  deriving DecidableEq, Repr

/-- A place where a key may start. -/
structure PossibleKey where
  position : Nat
  /-- Can nothing but a key stand here? -/
  required : Bool
  place : Cursor
  deriving Repr

structure Scan where
  cursor : Cursor
  tokens : List Token
  indents : List Nat
  keyAllowed : Bool
  pending : Option PossibleKey
  outer : List (Option PossibleKey)
  deriving Repr

namespace Scan

def start (text : Text) : Scan where
  cursor := Cursor.start text
  tokens := []
  indents := []
  keyAllowed := true
  pending := none
  outer := []

def inFlow (scan : Scan) : Bool :=
  !scan.outer.isEmpty

def indent (scan : Scan) : Int :=
  match scan.indents with
  | [] => -1
  | column :: _ => column

def push (scan : Scan) (token : Token) : Scan :=
  { scan with tokens := token :: scan.tokens }

/-- Put a token behind the first `position` ones. -/
def insert (scan : Scan) (position : Nat) (token : Token) : Scan :=
  let later := scan.tokens.length - position
  { scan with tokens := scan.tokens.take later ++ token :: scan.tokens.drop later }

/-- Close the block collections that are indented further than a column.  Inside flow collections
indentation does not count. -/
def closeTo (scan : Scan) (column : Int) : Scan :=
  if scan.inFlow then scan
  else
    let closed := scan.indents.takeWhile fun indent => decide (column < Int.ofNat indent)
    { scan with
      tokens := closed.map (fun _ => Token.blockEnd) ++ scan.tokens
      indents := scan.indents.drop closed.length }

def openAt (scan : Scan) (column position : Nat) (token : Token) : Scan :=
  if !scan.inFlow && decide (scan.indent < (column : Int)) then
    { scan with indents := column :: scan.indents }.insert position token
  else scan

def openHere (scan : Scan) (token : Token) : Scan :=
  scan.openAt scan.cursor.column scan.tokens.length token

def dropKey (scan : Scan) : Option Scan :=
  if scan.pending.any (·.required) then none
  else some { scan with pending := none }

/-- Is a possible key too far away for a `:` here to belong to it? -/
def isStale (cursor : Cursor) (key : PossibleKey) : Bool :=
  key.place.line != cursor.line || decide (cursor.index - key.place.index > 1024)

def dropStaleKeys (scan : Scan) : Option Scan :=
  let lost (key : Option PossibleKey) : Bool := key.any (isStale scan.cursor)
  let broken (key : Option PossibleKey) : Bool :=
    key.any fun key => isStale scan.cursor key && key.required
  if broken scan.pending || scan.outer.any broken then none
  else
    some { scan with
      pending := if lost scan.pending then none else scan.pending
      outer := scan.outer.map fun key => if lost key then none else key }

def noteKey (scan : Scan) : Option Scan :=
  if scan.keyAllowed then do
    let scan <- scan.dropKey
    let required := !scan.inFlow && decide (scan.indent = (scan.cursor.column : Int))
    return { scan with pending := some ⟨scan.tokens.length, required, scan.cursor⟩ }
  else some scan

def nextPlace : Nat -> Cursor -> Bool × Cursor
  | 0, cursor => (false, cursor)
  | fuel + 1, cursor =>
      let cursor := cursor.skipSpaces
      let cursor := if cursor.sees '#' then cursor.skipWhile fun c => !isBreak c else cursor
      if cursor.seesAny isBreak then
        let (_, cursor) := nextPlace fuel cursor.takeBreak.2
        (true, cursor)
      else (false, cursor)

def toNext (scan : Scan) : Scan :=
  let cursor := scan.cursor
  let cursor := if cursor.index = 0 ∧ cursor.sees byteOrderMark then cursor.next else cursor
  let (newLine, cursor) := nextPlace (cursor.rest.length + 1) cursor
  { scan with
    cursor := cursor
    keyAllowed := scan.keyAllowed || (newLine && !scan.inFlow) }

def take (scan : Scan) (token : Token) (length : Nat) (keyAllowed : Bool) : Scan :=
  { scan.push token with cursor := scan.cursor.skip length, keyAllowed := keyAllowed }

/-! ### Directives -/

def isNameChar (c : Char) : Bool :=
  c.isAlphanum || c == '-' || c == '_'

def endsWord (cursor : Cursor) : Bool :=
  cursor.peek.all fun c => c == ' ' || isBreak c

def number? (cursor : Cursor) : Option (Nat × Cursor) :=
  let (digits, cursor) := cursor.takeWhile Char.isDigit
  if digits.isEmpty then none
  else some (digits.foldl (fun n c => 10 * n + (c.toNat - 48)) 0, cursor)

def directive? (cursor : Cursor) : Option (Token × Cursor) := do
  let (name, cursor) := cursor.takeWhile isNameChar
  if name.isEmpty || !endsWord cursor || name == "TAG".toList then none
  else if name == "YAML".toList then
    let (major, cursor) <- number? cursor.skipSpaces
    if cursor.sees '.' then
      let (_, cursor) <- number? cursor.next
      if endsWord cursor then return (.version major, <- cursor.skipComment?) else none
    else none
  else
    let cursor := cursor.skipWhile fun c => !isBreak c
    return (.directive, <- cursor.skipComment?)

/-! ### One token -/

def scanDirective (scan : Scan) : Option Scan := do
  let scan <- (scan.closeTo (-1)).dropKey
  let (token, cursor) <- directive? scan.cursor.next
  return { scan.push token with cursor := cursor, keyAllowed := false }

def scanMarker (scan : Scan) (token : Token) : Option Scan := do
  let scan <- (scan.closeTo (-1)).dropKey
  return scan.take token 3 false

def scanFlowStart (scan : Scan) (token : Token) : Option Scan := do
  let scan <- scan.noteKey
  return { scan.take token 1 true with pending := none, outer := scan.pending :: scan.outer }

def scanFlowEnd (scan : Scan) (token : Token) : Option Scan :=
  match scan.outer with
  | [] => none
  | key :: outer => some { scan.take token 1 false with pending := key, outer := outer }

def scanFlowEntry (scan : Scan) : Option Scan := do
  return (<- scan.dropKey).take .flowEntry 1 true

def scanBlockEntry (scan : Scan) : Option Scan :=
  if !scan.inFlow && !scan.keyAllowed then none
  else do return (<- (scan.openHere .blockSequenceStart).dropKey).take .blockEntry 1 true

def scanKey (scan : Scan) : Option Scan :=
  if !scan.inFlow && !scan.keyAllowed then none
  else do
    return (<- (scan.openHere .blockMappingStart).dropKey).take .key 1 (!scan.inFlow)

def scanValue (scan : Scan) : Option Scan :=
  match scan.pending with
  | some key =>
      let scan := { scan with pending := none }.insert key.position .key
      some ((scan.openAt key.place.column key.position .blockMappingStart).take .value 1 false)
  | none =>
      if !scan.inFlow && !scan.keyAllowed then none
      else some ((scan.openHere .blockMappingStart).take .value 1 (!scan.inFlow))

def scanName (scan : Scan) (token : Text -> Token) : Option Scan := do
  let scan <- scan.noteKey
  let (name, cursor) := scan.cursor.next.takeWhile isNameChar
  if !name.isEmpty && (isGap cursor.peek || cursor.seesAny ("?:,]\x7d%@`".toList.contains ·)) then
    return { scan.push (token name) with cursor := cursor, keyAllowed := false }
  else none

def scanBlockScalar (scan : Scan) : Option Scan := do
  let scan <- scan.dropKey
  let (text, cursor) <- Scalar.block? scan.indent scan.cursor
  return { scan.push (.scalar text false) with cursor := cursor, keyAllowed := true }

def scanQuoted (scan : Scan) : Option Scan := do
  let scan <- scan.noteKey
  let (text, cursor) <- Scalar.quoted? scan.cursor
  return { scan.push (.scalar text false) with cursor := cursor, keyAllowed := false }

def scanPlain (scan : Scan) : Option Scan := do
  let scan <- scan.noteKey
  let (text, newLine, cursor) := Scalar.plain scan.inFlow (scan.indent + 1) scan.cursor
  return { scan.push (.scalar text true) with cursor := cursor, keyAllowed := newLine }

def startsPlain (inFlow : Bool) (c : Char) (next : Option Char) : Bool :=
  !(isGap (some c) || "-?:,[]\x7b\x7d#&*!|>'\"%@`".toList.contains c) ||
    (!isGap next && (c == '-' || (!inFlow && (c == '?' || c == ':'))))

def token (scan : Scan) (c : Char) : Option Scan :=
  let cursor := scan.cursor
  let gap := isGap (cursor.peekAt 1)
  let atStart := cursor.column == 0
  if c == '%' && atStart then scan.scanDirective
  else if c == '-' && atStart && cursor.seesMarker '-' then scan.scanMarker .documentStart
  else if c == '.' && atStart && cursor.seesMarker '.' then scan.scanMarker .documentEnd
  else if c == '[' then scan.scanFlowStart .flowSequenceStart
  else if c == '\x7b' then scan.scanFlowStart .flowMappingStart
  else if c == ']' then scan.scanFlowEnd .flowSequenceEnd
  else if c == '\x7d' then scan.scanFlowEnd .flowMappingEnd
  else if c == ',' then scan.scanFlowEntry
  else if c == '-' && gap then scan.scanBlockEntry
  else if c == '?' && (scan.inFlow || gap) then scan.scanKey
  else if c == ':' && (scan.inFlow || gap) then scan.scanValue
  else if c == '*' then scan.scanName .alias
  else if c == '&' then scan.scanName .anchor
  else if (c == '|' || c == '>') && !scan.inFlow then scan.scanBlockScalar
  else if c == '"' || c == Char.ofNat 39 then scan.scanQuoted
  else if startsPlain scan.inFlow c (cursor.peekAt 1) then scan.scanPlain
  else none

/-- All tokens from here on, with all that is open closed at the end.  The number bounds the
steps. -/
def toEnd : Nat -> Scan -> Option Scan
  | 0, _ => none
  | fuel + 1, scan => do
      let scan <- scan.toNext.dropStaleKeys
      let scan := scan.closeTo scan.cursor.column
      match scan.cursor.peek with
      | none => (scan.closeTo (-1)).dropKey
      | some c => toEnd fuel (<- scan.token c)

end Scan

/-- The tokens of a text.  There are none if the text is malformed or holds a character that no
document holds. -/
def Token.ofText? (text : Text) : Option (List Token) := do
  if text.all isAllowed then
    return (<- (Scan.start text).toEnd (text.length + 1)).tokens.reverse
  else none

end Yaml

end ModuleResolution
