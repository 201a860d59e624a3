import ModuleResolution.Text.Basic

/-!
# Cursors

A place in a YAML document: what is still to be read, and the line and column it starts at.
-/

namespace ModuleResolution

namespace Yaml

structure Cursor where
  rest : Text
  index : Nat
  line : Nat
  column : Nat
  deriving DecidableEq, Repr

def isBreak (c : Char) : Bool :=
  c == '\n' || c == '\r' || c.toNat == 0x85 || c.toNat == 0x2028 || c.toNat == 0x2029

def byteOrderMark : Char := Char.ofNat 0xfeff

def isAllowed (c : Char) : Bool :=
  let n := c.toNat
  n == 0x09 || n == 0x0a || n == 0x0d || (decide (0x20 <= n) && decide (n <= 0x7e)) ||
    n == 0x85 || (decide (0xa0 <= n) && decide (n <= 0xd7ff)) ||
    (decide (0xe000 <= n) && decide (n <= 0xfffd)) || decide (0x10000 <= n)

def isGap : Option Char -> Bool
  | none => true
  | some c => c == ' ' || c == '\t' || isBreak c

namespace Cursor

def start (text : Text) : Cursor := ⟨text, 0, 0, 0⟩

def peek (cursor : Cursor) : Option Char :=
  cursor.rest.head?

def peekAt (cursor : Cursor) (offset : Nat) : Option Char :=
  cursor.rest[offset]?

def sees (cursor : Cursor) (c : Char) : Bool :=
  cursor.peek == some c

def seesAny (cursor : Cursor) (p : Char -> Bool) : Bool :=
  cursor.peek.any p

def next (cursor : Cursor) : Cursor :=
  match cursor.rest with
  | [] => cursor
  | c :: rest =>
      if isBreak c && !(c == '\r' && rest.head? == some '\n') then
        ⟨rest, cursor.index + 1, cursor.line + 1, 0⟩
      else if c == byteOrderMark then ⟨rest, cursor.index + 1, cursor.line, cursor.column⟩
      else ⟨rest, cursor.index + 1, cursor.line, cursor.column + 1⟩

def skip (cursor : Cursor) : Nat -> Cursor
  | 0 => cursor
  | count + 1 => cursor.next.skip count

def takeWhile (cursor : Cursor) (p : Char -> Bool) : Text × Cursor :=
  let run := cursor.rest.takeWhile p
  (run, cursor.skip run.length)

def skipWhile (cursor : Cursor) (p : Char -> Bool) : Cursor :=
  (cursor.takeWhile p).2

def skipSpaces (cursor : Cursor) : Cursor :=
  cursor.skipWhile (· == ' ')

def takeBreak (cursor : Cursor) : Text × Cursor :=
  match cursor.rest with
  | '\r' :: '\n' :: _ => (['\n'], cursor.skip 2)
  | c :: _ =>
      if c.toNat == 0x2028 || c.toNat == 0x2029 then ([c], cursor.next)
      else if isBreak c then (['\n'], cursor.next)
      else ([], cursor)
  | [] => ([], cursor)

def seesMarker (cursor : Cursor) (c : Char) : Bool :=
  cursor.rest.take 3 == [c, c, c] && isGap (cursor.peekAt 3)

def seesDocumentMarker (cursor : Cursor) : Bool :=
  cursor.seesMarker '-' || cursor.seesMarker '.'

def skipComment? (cursor : Cursor) : Option Cursor :=
  let cursor := cursor.skipSpaces
  let cursor := if cursor.sees '#' then cursor.skipWhile fun c => !isBreak c else cursor
  match cursor.peek with
  | none => some cursor
  | some c => if isBreak c then some cursor.takeBreak.2 else none

end Cursor

end Yaml

end ModuleResolution
