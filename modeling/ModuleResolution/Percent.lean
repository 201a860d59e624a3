import ModuleResolution.Text.Utf8

/-!
# Percent encoding

A percent sign and two hexadecimal digits stand for one octet of UTF-8.  Reading takes each longest
run of ASCII characters by itself, so a character outside ASCII always separates escapes.
-/

namespace ModuleResolution

namespace Percent

def hexDigit (n : Nat) : Char :=
  if n < 10 then Char.ofNat (0x30 + n) else Char.ofNat (0x41 + (n - 10))

def hexValue? (c : Char) : Option Nat :=
  let n := c.toNat
  if 0x30 <= n ∧ n <= 0x39 then some (n - 0x30)
  else if 0x41 <= n ∧ n <= 0x46 then some (n - 0x41 + 10)
  else if 0x61 <= n ∧ n <= 0x66 then some (n - 0x61 + 10)
  else none

def escape (octet : UInt8) : Text :=
  ['%', hexDigit (octet.toNat / 16), hexDigit (octet.toNat % 16)]

/-- Write a text with an escape for every octet of a character that is not kept. -/
def encode (keep : Char -> Bool) (text : Text) : Text :=
  text.flatMap fun c => if keep c then [c] else (Text.Utf8.encodeChar c).flatMap escape

def isAscii (c : Char) : Bool :=
  decide (c.toNat < 0x80)

/-- The octets of a run of ASCII characters.  A percent sign without two hexadecimal digits stands
for itself. -/
def octets : Text -> List UInt8
  | [] => []
  | [c] => [c.toNat.toUInt8]
  | [c, d] => [c.toNat.toUInt8, d.toNat.toUInt8]
  | c :: d :: e :: rest =>
      if c = '%' then
        match hexValue? d, hexValue? e with
        | some high, some low => (16 * high + low).toUInt8 :: octets rest
        | _, _ => c.toNat.toUInt8 :: octets (d :: e :: rest)
      else c.toNat.toUInt8 :: octets (d :: e :: rest)

def decodeRun (run : Text) : Text :=
  Text.Utf8.decodeLossy (octets run)

def decodeAfterRun : Text -> Text × Text
  | [] => ([], [])
  | c :: rest =>
      let (run, decoded) := decodeAfterRun rest
      if isAscii c then (c :: run, decoded) else ([], c :: (decodeRun run ++ decoded))

/-- Read a text, with a mark in place of octets that are not UTF-8. -/
def decode (text : Text) : Text :=
  let (run, decoded) := decodeAfterRun text
  decodeRun run ++ decoded

end Percent

end ModuleResolution
