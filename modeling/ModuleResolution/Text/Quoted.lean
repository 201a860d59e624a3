import ModuleResolution.Text.Basic
import ModuleResolution.Text.Printed

/-!
# Quoted texts

A text between quotes as an error message shows it: with a backslash before backslashes and the
quote, and escapes for characters without a printed form.
-/

namespace ModuleResolution

namespace Text

namespace Quoted

def single : Char := Char.ofNat 39

def double : Char := Char.ofNat 34

def hexDigit (n : Nat) : Char :=
  if n < 10 then Char.ofNat (0x30 + n) else Char.ofNat (0x61 + (n - 10))

def hex : Nat -> Nat -> Text
  | 0, _ => []
  | width + 1, n => hex width (n / 16) ++ [hexDigit (n % 16)]

def writeChar (quote c : Char) : Text :=
  let n := c.toNat
  if c = quote ∨ c = '\\' then ['\\', c]
  else if c = '\t' then ['\\', 't']
  else if c = '\n' then ['\\', 'n']
  else if c = '\r' then ['\\', 'r']
  else if isPrinted c then [c]
  else if n < 0x100 then '\\' :: 'x' :: hex 2 n
  else if n < 0x10000 then '\\' :: 'u' :: hex 4 n
  else '\\' :: 'U' :: hex 8 n

def write (text : Text) : Text :=
  let quote := if text.contains single && !text.contains double then double else single
  quote :: text.flatMap (writeChar quote) ++ [quote]

end Quoted

end Text

end ModuleResolution
