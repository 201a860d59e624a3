import ModuleResolution.Text.Basic

/-!
# Rows as JSON

A list of rows of named texts written as an array of objects, with one field a line, two blanks for
each level and escapes for every character outside the printable ones of ASCII.
-/

namespace ModuleResolution

namespace Json

namespace Rows

abbrev Row := List (Text × Option Text)

def hexDigit (n : Nat) : Char :=
  if n < 10 then Char.ofNat (0x30 + n) else Char.ofNat (0x61 + (n - 10))

def unitEscape (value : Nat) : Text :=
  ['\\', 'u', hexDigit (value / 0x1000 % 16), hexDigit (value / 0x100 % 16),
    hexDigit (value / 0x10 % 16), hexDigit (value % 16)]

def writeChar (c : Char) : Text :=
  let n := c.toNat
  if c = '"' then ['\\', '"']
  else if c = '\\' then ['\\', '\\']
  else if 0x20 <= n ∧ n <= 0x7e then [c]
  else if c = '\n' then ['\\', 'n']
  else if c = '\r' then ['\\', 'r']
  else if c = '\t' then ['\\', 't']
  else if n = 0x08 then ['\\', 'b']
  else if n = 0x0c then ['\\', 'f']
  else if n < 0x10000 then unitEscape n
  else
    unitEscape (0xd800 + (n - 0x10000) / 0x400) ++ unitEscape (0xdc00 + (n - 0x10000) % 0x400)

def writeString (text : Text) : Text :=
  '"' :: text.flatMap writeChar ++ ['"']

def writeField (field : Text × Option Text) : Text :=
  let value :=
    match field.2 with
    | some text => writeString text
    | none => "null".toList
  "    ".toList ++ writeString field.1 ++ ": ".toList ++ value

def writeLines : List Text -> Text
  | [] => []
  | [line] => line ++ ['\n']
  | line :: rest => line ++ [',', '\n'] ++ writeLines rest

def writeRow (row : Row) : Text :=
  if row.isEmpty then "  \x7b\x7d".toList
  else "  \x7b\n".toList ++ writeLines (row.map writeField) ++ "  \x7d".toList

def write (rows : List Row) : Text :=
  if rows.isEmpty then "[]".toList
  else "[\n".toList ++ writeLines (rows.map writeRow) ++ "]".toList

end Rows

end Json

end ModuleResolution
