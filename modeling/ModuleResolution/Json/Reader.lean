import ModuleResolution.Json.Basic

/-!
# Reading JSON

A reader that also takes `NaN`, `Infinity` and `-Infinity` as numbers.  Of two fields of one name
the value of the last one counts, in the place of the first one.  Integers are exact up to a number
of digits beyond which reading gives up.
-/

namespace ModuleResolution

namespace Json

/-- Why a text cannot be read. -/
inductive ReadError where
  | malformed
  | oversizedInteger
  deriving DecidableEq, Repr

def maxIntegerDigits : Nat := 4300

def isSpace (c : Char) : Bool :=
  c == ' ' || c == '\t' || c == '\n' || c == '\r'

/-- The text from its first token on. -/
def skipSpace (text : Text) : Text :=
  text.dropWhile isSpace

def natOfDigits (digits : Text) : Nat :=
  digits.foldl (fun n c => 10 * n + (c.toNat - 48)) 0

def hexValue? (c : Char) : Option Nat :=
  if c.isDigit then some (c.toNat - 48)
  else if 'a' <= c ∧ c <= 'f' then some (c.toNat - 87)
  else if 'A' <= c ∧ c <= 'F' then some (c.toNat - 55)
  else none

inductive Piece where
  | char (c : Char)
  | unit (value : Nat)
  deriving DecidableEq, Repr

def escaped? : Char -> Option Char
  | '"' => some '"'
  | '\\' => some '\\'
  | '/' => some '/'
  | 'b' => some (Char.ofNat 0x08)
  | 'f' => some (Char.ofNat 0x0c)
  | 'n' => some '\n'
  | 'r' => some '\r'
  | 't' => some '\t'
  | _ => none

def unitOf? (a b c d : Char) : Option Nat := do
  let digits <- [a, b, c, d].mapM hexValue?
  return digits.foldl (fun value digit => 16 * value + digit) 0

/-- The pieces of a string up to its closing quote, and what follows the quote. -/
def stringPieces : Text -> Option (List Piece × Text)
  | [] => none
  | '"' :: rest => some ([], rest)
  | '\\' :: 'u' :: a :: b :: c :: d :: rest => do
      let value <- unitOf? a b c d
      let (pieces, rest) <- stringPieces rest
      return (.unit value :: pieces, rest)
  | '\\' :: c :: rest => do
      let c <- escaped? c
      let (pieces, rest) <- stringPieces rest
      return (.char c :: pieces, rest)
  | c :: rest =>
      if c.toNat < 0x20 ∨ c = '\\' then none
      else do
        let (pieces, rest) <- stringPieces rest
        return (.char c :: pieces, rest)

def isHighHalf (value : Nat) : Bool :=
  decide (0xd800 <= value) && decide (value < 0xdc00)

def isLowHalf (value : Nat) : Bool :=
  decide (0xdc00 <= value) && decide (value < 0xe000)

def pairChar (high low : Nat) : Char :=
  Char.ofNat (0x10000 + (high - 0xd800) * 0x400 + (low - 0xdc00))

/-- The character of a single unit.  A half of a pair without its partner is no scalar value, and
U+FFFD stands in its place. -/
def unitChar (value : Nat) : Char :=
  if isHighHalf value || isLowHalf value then Char.ofNat 0xfffd else Char.ofNat value

def textOfPieces : List Piece -> Text
  | [] => []
  | .char c :: rest => c :: textOfPieces rest
  | [.unit value] => [unitChar value]
  | .unit value :: .char c :: rest => unitChar value :: c :: textOfPieces rest
  | .unit value :: .unit next :: rest =>
      if isHighHalf value && isLowHalf next then pairChar value next :: textOfPieces rest
      else unitChar value :: textOfPieces (.unit next :: rest)

def readString (text : Text) : Except ReadError (Text × Text) :=
  match stringPieces text with
  | some (pieces, rest) => .ok (textOfPieces pieces, rest)
  | none => .error .malformed

def cutFraction : Text -> Option Text × Text
  | '.' :: rest =>
      let digits := rest.takeWhile Char.isDigit
      if digits.isEmpty then (none, '.' :: rest) else (some digits, rest.dropWhile Char.isDigit)
  | text => (none, text)

def cutExponent (text : Text) : Option Int × Text :=
  match text with
  | mark :: rest =>
      if mark = 'e' ∨ mark = 'E' then
        let (negative, digits) :=
          match rest with
          | '-' :: digits => (true, digits)
          | '+' :: digits => (false, digits)
          | digits => (false, digits)
        let exponent := digits.takeWhile Char.isDigit
        if exponent.isEmpty then (none, text)
        else
          let value := Int.ofNat (natOfDigits exponent)
          (some (if negative then -value else value), digits.dropWhile Char.isDigit)
      else (none, text)
  | [] => (none, [])

/-- The digits of an integer, which has no zero in front of other digits, and the rest. -/
def cutInteger : Text -> Text × Text
  | '0' :: rest => (['0'], rest)
  | text => (text.takeWhile Char.isDigit, text.dropWhile Char.isDigit)

def readNumber (text : Text) : Except ReadError (Json × Text) :=
  let (negative, digits) :=
    match text with
    | '-' :: rest => (true, rest)
    | _ => (false, text)
  let (whole, rest) := cutInteger digits
  if whole.isEmpty then .error .malformed
  else
    let (fraction, rest) := cutFraction rest
    let (exponent, rest) := cutExponent rest
    if fraction.isNone && exponent.isNone then
      if whole.length > maxIntegerDigits then .error .oversizedInteger
      else
        let value := Int.ofNat (natOfDigits whole)
        .ok (.integer (if negative then -value else value), rest)
    else
      let fraction := fraction.getD []
      let mantissa := natOfDigits (whole ++ fraction)
      let scale := exponent.getD 0 - Int.ofNat fraction.length
      .ok (.real (Binary64.ofDecimal negative mantissa scale), rest)

def afterWord? (word text : Text) : Option Text :=
  if word.isPrefixOf text then some (text.drop word.length) else none

def words : List (Text × Json) :=
  [("null".toList, .null), ("true".toList, .bool true), ("false".toList, .bool false),
    ("NaN".toList, .real (UInt64.ofNat Binary64.nan)),
    ("Infinity".toList, .real (UInt64.ofNat Binary64.infinity)),
    ("-Infinity".toList, .real (UInt64.ofNat (Binary64.signBit + Binary64.infinity)))]

def readScalar (text : Text) : Except ReadError (Json × Text) :=
  match words.findSome? fun (word, value) => (afterWord? word text).map (value, ·) with
  | some result => .ok result
  | none => readNumber text

mutual

/-- Read a value.  The number bounds the steps; the length of the text is enough. -/
def readValue : Nat -> Text -> Except ReadError (Json × Text)
  | 0, _ => .error .malformed
  | fuel + 1, text =>
      match text with
      | '"' :: rest => do
          let (value, rest) <- readString rest
          return (.string value, rest)
      | '[' :: rest =>
          match skipSpace rest with
          | ']' :: rest => .ok (.array [], rest)
          | rest => do
              let (items, rest) <- readItems fuel rest
              return (.array items, rest)
      | '{' :: rest =>
          match skipSpace rest with
          | '}' :: rest => .ok (.object [], rest)
          | rest => do
              let (fields, rest) <- readFields fuel [] rest
              return (.object fields, rest)
      | _ => readScalar text

def readItems : Nat -> Text -> Except ReadError (List Json × Text)
  | 0, _ => .error .malformed
  | fuel + 1, text => do
      let (item, rest) <- readValue fuel text
      match skipSpace rest with
      | ']' :: rest => return ([item], rest)
      | ',' :: rest => do
          let (items, rest) <- readItems fuel (skipSpace rest)
          return (item :: items, rest)
      | _ => throw .malformed

def readFields : Nat -> Fields -> Text -> Except ReadError (Fields × Text)
  | 0, _, _ => .error .malformed
  | fuel + 1, fields, text =>
      match text with
      | '"' :: rest => do
          let (key, rest) <- readString rest
          match skipSpace rest with
          | ':' :: rest => do
              let (value, rest) <- readValue fuel (skipSpace rest)
              let fields := Association.put key value fields
              match skipSpace rest with
              | '}' :: rest => return (fields, rest)
              | ',' :: rest => readFields fuel fields (skipSpace rest)
              | _ => throw .malformed
          | _ => throw .malformed
      | _ => .error .malformed

end

/-- Read a text that holds one value and blanks around it. -/
def read (text : Text) : Except ReadError Json := do
  let (value, rest) <- readValue (text.length + 1) (skipSpace text)
  if (skipSpace rest).isEmpty then return value else throw .malformed

end Json

end ModuleResolution
