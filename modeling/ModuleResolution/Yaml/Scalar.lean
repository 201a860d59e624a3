import ModuleResolution.Json.Reader
import ModuleResolution.Yaml.Cursor

/-!
# Scalars

The texts of plain, quoted and block scalars.  A single end of a line inside a plain or quoted
scalar counts as a blank, and of several the first one is dropped.
-/

namespace ModuleResolution

namespace Yaml

namespace Scalar

/-- How the end of a line inside a scalar counts, when other ends of lines follow it. -/
def foldBreak (first : Text) (breaks : Text) : Text :=
  if first ≠ ['\n'] then first ++ breaks
  else if breaks.isEmpty then [' ']
  else breaks

/-! ### Quoted scalars -/

def escaped? (c : Char) : Option Char :=
  match c with
  | '0' => some (Char.ofNat 0)
  | 'a' => some (Char.ofNat 0x07)
  | 'b' => some (Char.ofNat 0x08)
  | 't' => some '\t'
  | '\t' => some '\t'
  | 'n' => some '\n'
  | 'v' => some (Char.ofNat 0x0b)
  | 'f' => some (Char.ofNat 0x0c)
  | 'r' => some '\r'
  | 'e' => some (Char.ofNat 0x1b)
  | ' ' => some ' '
  | '"' => some '"'
  | '\\' => some '\\'
  | '/' => some '/'
  | 'N' => some (Char.ofNat 0x85)
  | '_' => some (Char.ofNat 0xa0)
  | 'L' => some (Char.ofNat 0x2028)
  | 'P' => some (Char.ofNat 0x2029)
  | _ => none

def codeWidth? (c : Char) : Option Nat :=
  match c with
  | 'x' => some 2
  | 'u' => some 4
  | 'U' => some 8
  | _ => none

def hexNumber? (digits : Text) : Option Nat :=
  digits.foldlM (fun n c => (Json.hexValue? c).map (16 * n + ·)) 0

/-- The ends of lines from here on, with the blanks before each text dropped.  A document marker is
not allowed.  The number bounds the steps. -/
def quotedBreaks : Nat -> Cursor -> Option (Text × Cursor)
  | 0, _ => none
  | fuel + 1, cursor =>
      if cursor.seesDocumentMarker then none
      else
        let cursor := cursor.skipWhile fun c => c == ' ' || c == '\t'
        if cursor.seesAny isBreak then do
          let (first, cursor) := cursor.takeBreak
          let (others, cursor) <- quotedBreaks fuel cursor
          return (first ++ others, cursor)
        else some ([], cursor)

def quotedSpaces (fuel : Nat) (cursor : Cursor) : Option (Text × Cursor) :=
  let (blanks, cursor) := cursor.takeWhile fun c => c == ' ' || c == '\t'
  match cursor.peek with
  | none => none
  | some c =>
      if isBreak c then do
        let (first, cursor) := cursor.takeBreak
        let (breaks, cursor) <- quotedBreaks fuel cursor
        return (foldBreak first breaks, cursor)
      else some (blanks, cursor)

def escape (fuel : Nat) (cursor : Cursor) : Option (Text × Cursor) := do
  let c <- cursor.peek
  if isBreak c then quotedBreaks fuel cursor.takeBreak.2
  else
    match escaped? c with
    | some c => return ([c], cursor.next)
    | none => do
        let width <- codeWidth? c
        let digits := cursor.next.rest.take width
        let code <- hexNumber? digits
        if digits.length < width ∨ code > 0x10ffff then none
        else return ([Char.ofNat code], cursor.next.skip width)

def quotedFrom (quote : Char) : Nat -> Cursor -> Option (Text × Cursor)
  | 0, _ => none
  | fuel + 1, cursor => do
      let c <- cursor.peek
      let (piece, cursor, closed) <-
        if c == quote then
          if quote != '"' && cursor.peekAt 1 == some quote then
            some ([quote], cursor.skip 2, false)
          else some ([], cursor.next, true)
        else if c == '\\' && quote == '"' then do
          let (piece, cursor) <- escape fuel cursor.next
          some (piece, cursor, false)
        else if c == ' ' || c == '\t' || isBreak c then do
          let (piece, cursor) <- quotedSpaces fuel cursor
          some (piece, cursor, false)
        else some ([c], cursor.next, false)
      if closed then return (piece, cursor)
      else
        let (rest, cursor) <- quotedFrom quote fuel cursor
        return (piece ++ rest, cursor)

def quoted? (cursor : Cursor) : Option (Text × Cursor) := do
  let quote <- cursor.peek
  quotedFrom quote (cursor.rest.length + 1) cursor.next

/-! ### Plain scalars -/

def isFlowIndicator (c : Char) : Bool :=
  c == ',' || c == '[' || c == ']' || c == '\x7b' || c == '\x7d'

def endsPlain (inFlow : Bool) : Text -> Bool
  | [] => true
  | c :: rest =>
      isGap (some c) ||
        (c == ':' && (isGap rest.head? || (inFlow && rest.head?.any isFlowIndicator))) ||
        (inFlow && (isFlowIndicator c || c == '?'))

def plainWord (inFlow : Bool) : Text -> Text
  | [] => []
  | c :: rest => if endsPlain inFlow (c :: rest) then [] else c :: plainWord inFlow rest

/-- The ends of lines and the blanks at the starts of lines from here on; nothing before a document
marker. -/
def plainBreaks : Nat -> Cursor -> Option Text × Cursor
  | 0, cursor => (some [], cursor)
  | fuel + 1, cursor =>
      if cursor.sees ' ' then plainBreaks fuel cursor.next
      else if cursor.seesAny isBreak then
        let (first, cursor) := cursor.takeBreak
        if cursor.seesDocumentMarker then (none, cursor)
        else
          let (others, cursor) := plainBreaks fuel cursor
          (others.map (first ++ ·), cursor)
      else (some [], cursor)

/-- What stands between two words of a plain scalar: the text it counts as, whether a line ended,
and the place after it.  Without a text the scalar ends. -/
def plainSpaces (cursor : Cursor) : Text × Bool × Cursor :=
  let (blanks, cursor) := cursor.takeWhile (· == ' ')
  if cursor.seesAny isBreak then
    let (first, cursor) := cursor.takeBreak
    if cursor.seesDocumentMarker then ([], true, cursor)
    else
      match plainBreaks (cursor.rest.length + 1) cursor with
      | (none, cursor) => ([], true, cursor)
      | (some breaks, cursor) => (foldBreak first breaks, true, cursor)
  else (blanks, false, cursor)

/-- A plain scalar whose lines are indented at least this far: its text, whether it ends after the
end of a line, and the place after it. -/
def plainFrom (inFlow : Bool) (indent : Int) : Nat -> Text -> Bool -> Cursor ->
    Text × Bool × Cursor
  | 0, _, newLine, cursor => ([], newLine, cursor)
  | fuel + 1, spaces, newLine, cursor =>
      let word := if cursor.sees '#' then [] else plainWord inFlow cursor.rest
      if word.isEmpty then ([], newLine, cursor)
      else
        let cursor := cursor.skip word.length
        let (gap, newLine, cursor) := plainSpaces cursor
        if gap.isEmpty || cursor.sees '#' || (!inFlow && decide ((cursor.column : Int) < indent))
        then (spaces ++ word, newLine, cursor)
        else
          let (rest, newLine, cursor) := plainFrom inFlow indent fuel gap newLine cursor
          (spaces ++ word ++ rest, newLine, cursor)

def plain (inFlow : Bool) (indent : Int) (cursor : Cursor) : Text × Bool × Cursor :=
  plainFrom inFlow indent (cursor.rest.length + 1) [] false cursor

/-! ### Block scalars -/

inductive Chomping where
  | strip
  | clip
  | keep
  deriving DecidableEq, Repr

def chomping? (cursor : Cursor) : Option Chomping :=
  match cursor.peek with
  | some '+' => some .keep
  | some '-' => some .strip
  | _ => none

def increment? (cursor : Cursor) : Option Nat :=
  match cursor.peek with
  | some c => if c.isDigit then some (c.toNat - 48) else none
  | none => none

/-- The sign and the digit in the header of a block scalar, in either order; the digit is not
zero. -/
def header (cursor : Cursor) : Option (Chomping × Option Nat × Cursor) := do
  let (sign, digit, cursor) :=
    match chomping? cursor with
    | some sign =>
        let cursor := cursor.next
        match increment? cursor with
        | some digit => (sign, some digit, cursor.next)
        | none => (sign, none, cursor)
    | none =>
        match increment? cursor with
        | some digit =>
            let cursor := cursor.next
            match chomping? cursor with
            | some sign => (sign, some digit, cursor.next)
            | none => (.clip, some digit, cursor)
        | none => (.clip, none, cursor)
  if digit = some 0 then none
  else if cursor.peek.all fun c => c == ' ' || isBreak c then
    return (sign, digit, <- cursor.skipComment?)
  else none

def skipIndent (indent : Nat) (cursor : Cursor) : Cursor :=
  let blanks := (cursor.rest.takeWhile (· == ' ')).length
  cursor.skip (min blanks (indent - cursor.column))

def blockBreaks (indent : Nat) : Nat -> Cursor -> Text × Cursor
  | 0, cursor => ([], cursor)
  | fuel + 1, cursor =>
      let cursor := skipIndent indent cursor
      if cursor.seesAny isBreak then
        let (first, cursor) := cursor.takeBreak
        let (others, cursor) := blockBreaks indent fuel cursor
        (first ++ others, cursor)
      else ([], cursor)

/-- The empty lines before the first line of a block scalar, and the column that its blanks reach
at most. -/
def firstBreaks : Nat -> Nat -> Cursor -> Text × Nat × Cursor
  | 0, deepest, cursor => ([], deepest, cursor)
  | fuel + 1, deepest, cursor =>
      if cursor.sees ' ' then
        let cursor := cursor.next
        firstBreaks fuel (max deepest cursor.column) cursor
      else if cursor.seesAny isBreak then
        let (first, cursor) := cursor.takeBreak
        let (others, deepest, cursor) := firstBreaks fuel deepest cursor
        (first ++ others, deepest, cursor)
      else ([], deepest, cursor)

/-- The lines of a block scalar: the text without its end, the end of the last line, and the empty
lines after it.  Of a folded scalar, two lines that start with a text are one line. -/
def blockLines (folded : Bool) (indent : Nat) : Nat -> Text -> Cursor ->
    Text × Text × Text × Cursor
  | 0, breaks, cursor => ([], [], breaks, cursor)
  | fuel + 1, breaks, cursor =>
      if cursor.column != indent || cursor.peek.isNone then ([], [], breaks, cursor)
      else
        let startsWithText := !cursor.seesAny fun c => c == ' ' || c == '\t'
        let (line, cursor) := cursor.takeWhile fun c => !isBreak c
        let (lineBreak, cursor) := cursor.takeBreak
        let (nextBreaks, cursor) := blockBreaks indent fuel cursor
        if cursor.column == indent && cursor.peek.isSome then
          let joint :=
            if folded && lineBreak == ['\n'] && startsWithText &&
                !cursor.seesAny (fun c => c == ' ' || c == '\t') then
              if nextBreaks.isEmpty then [' '] else []
            else lineBreak
          let (rest, lastBreak, lastBreaks, cursor) :=
            blockLines folded indent fuel nextBreaks cursor
          (breaks ++ line ++ joint ++ rest, lastBreak, lastBreaks, cursor)
        else (breaks ++ line, lineBreak, nextBreaks, cursor)

def block? (indent : Int) (cursor : Cursor) : Option (Text × Cursor) := do
  let folded := cursor.sees '>'
  let (chomping, increment, cursor) <- header cursor.next
  let least := max 1 (indent + 1).toNat
  let fuel := cursor.rest.length + 1
  let (breaks, indent, cursor) :=
    match increment with
    | some increment =>
        let indent := least + increment - 1
        let (breaks, cursor) := blockBreaks indent fuel cursor
        (breaks, indent, cursor)
    | none =>
        let (breaks, deepest, cursor) := firstBreaks fuel 0 cursor
        (breaks, max least deepest, cursor)
  let (text, lastBreak, lastBreaks, cursor) := blockLines folded indent fuel breaks cursor
  match chomping with
  | .strip => return (text, cursor)
  | .clip => return (text ++ lastBreak, cursor)
  | .keep => return (text ++ lastBreak ++ lastBreaks, cursor)

end Scalar

end Yaml

end ModuleResolution
