import ModuleResolution.Binary64
import ModuleResolution.Json.Reader

/-!
# What plain scalars stand for

A plain scalar stands for null, a truth value, a number, one of two special keys, or its own text.
Integers are written in four bases and in sixties, real numbers with a point, and `_` may stand
between the digits of both.
-/

namespace ModuleResolution

namespace Yaml

inductive Atom where
  | null
  | bool (value : Bool)
  | integer (value : Int)
  | real (bits : UInt64)
  | merge
  /-- A key that stands for its text; it has no other use. -/
  | default
  | itself (text : Text)
  deriving DecidableEq, Repr

namespace Atom

def nulls : List Text :=
  ["".toList, "~".toList, "null".toList, "Null".toList, "NULL".toList]

def trues : List Text :=
  ["yes", "Yes", "YES", "true", "True", "TRUE", "on", "On", "ON"].map String.toList

def falses : List Text :=
  ["no", "No", "NO", "false", "False", "FALSE", "off", "Off", "OFF"].map String.toList

def infinities : List Text :=
  [".inf", ".Inf", ".INF"].map String.toList

def nans : List Text :=
  [".nan", ".NaN", ".NAN"].map String.toList

def cutSign : Text -> Bool × Text
  | '-' :: rest => (true, rest)
  | '+' :: rest => (false, rest)
  | text => (false, text)

def signed (negative : Bool) (n : Nat) : Int :=
  if negative then -(n : Int) else n

def isGrouped (text : Text) : Bool :=
  text.head?.any Char.isDigit && text.all fun c => c.isDigit || c == '_'

def ungrouped (text : Text) : Text :=
  text.filter (· != '_')

def isSixtieth : Text -> Bool
  | [c] => c.isDigit
  | [c, d] => decide ('0' <= c) && decide (c <= '5') && d.isDigit
  | _ => false

def inBase (base : Nat) (digits : Text) : Nat :=
  digits.foldl (fun n c => base * n + (Json.hexValue? c).getD 0) 0

def decimal? (digits : Text) : Option Nat :=
  if digits.length > Json.maxIntegerDigits then none else some (Json.natOfDigits digits)

/-- The number that pieces stand for, each of which is worth sixty of the next one. -/
def sixties? (pieces : List Text) : Option Nat :=
  pieces.foldlM (fun n piece => return 60 * n + (<- decimal? piece)) 0

def areSixties : List Text -> Bool
  | first :: second :: others => isGrouped first && (second :: others).all isSixtieth
  | _ => false

/-- The integer that a text without a sign spells, or `none` within if it is none that can be
read. -/
def integer? (text : Text) : Option (Option Nat) :=
  let based (base : Nat) (isDigit : Char -> Bool) (digits : Text) : Option (Option Nat) :=
    if digits.all fun c => isDigit c || c == '_' then
      let digits := ungrouped digits
      some (if digits.isEmpty then none else some (inBase base digits))
    else none
  match text with
  | '0' :: 'b' :: c :: rest => based 2 (fun c => c == '0' || c == '1') (c :: rest)
  | '0' :: 'x' :: c :: rest => based 16 (fun c => (Json.hexValue? c).isSome) (c :: rest)
  | '0' :: rest =>
      if rest.all fun c => (c.isDigit && decide (c <= '7')) || c == '_' then
        some (some (inBase 8 (ungrouped rest)))
      else none
  | _ =>
      let pieces := Text.splitOn ':' text
      if isGrouped text then some (decimal? (ungrouped text))
      else if areSixties pieces then some (sixties? (pieces.map ungrouped))
      else none

def fraction? (text : Text) : Option (Text × Int) :=
  let digits := text.takeWhile fun c => c.isDigit || c == '_'
  match text.drop digits.length with
  | [] => some (ungrouped digits, 0)
  | e :: sign :: exponent =>
      if (e = 'e' ∨ e = 'E') ∧ (sign = '-' ∨ sign = '+') ∧ exponent ≠ [] ∧
          exponent.all Char.isDigit then
        some (ungrouped digits, signed (sign == '-') (Json.natOfDigits exponent))
      else none
  | _ => none

def realOf (whole fraction : Text) (exponent : Int) : UInt64 :=
  Binary64.ofDecimal false (Json.natOfDigits (whole ++ fraction)) (exponent - fraction.length)

/-- The real number that pieces stand for, the last one first, each of which is worth a number of
units; every sum and product is rounded. -/
def sixtiesReal : Nat -> List UInt64 -> UInt64 -> UInt64
  | _, [], sum => sum
  | units, piece :: pieces, sum =>
      let product := Binary64.mul piece (Binary64.ofDecimal false units 0)
      sixtiesReal (60 * units) pieces (Binary64.add sum product)

def real? (text : Text) : Option UInt64 := do
  match Text.cut '.' text with
  | (_, none) => none
  | (whole, some rest) =>
      let (fraction, exponent) <- fraction? rest
      let pieces := Text.splitOn ':' whole
      if isGrouped whole then return realOf (ungrouped whole) fraction exponent
      else if areSixties pieces && rest.all fun c => c.isDigit || c == '_' then
        match pieces.reverse with
        | [] => none
        | last :: others =>
            let others := others.map fun part => realOf (ungrouped part) [] 0
            return sixtiesReal 1 (realOf last fraction 0 :: others) 0
      else none

def signedReal? (text : Text) : Option UInt64 :=
  let (negative, unsigned) := cutSign text
  let withSign (bits : UInt64) : UInt64 :=
    if negative then UInt64.ofNat (Binary64.signBit + bits.toNat) else bits
  if infinities.contains unsigned then some (withSign (UInt64.ofNat Binary64.infinity))
  else if nans.contains text then some (UInt64.ofNat Binary64.nan)
  else
    match text with
    | '.' :: c :: rest =>
        if c.isDigit then
          (fraction? (c :: rest)).map fun (digits, exponent) => realOf [] digits exponent
        else none
    | _ => (real? unsigned).map withSign

/-- What a plain scalar stands for.  A number that cannot be read stands for nothing.  Dates and
times are not told from texts, so `2001-01-01` stands for itself here. -/
def ofPlain? (text : Text) : Option Atom :=
  if nulls.contains text then some .null
  else if trues.contains text then some (.bool true)
  else if falses.contains text then some (.bool false)
  else if text = "<<".toList then some .merge
  else if text = ['='] then some .default
  else
    let (negative, unsigned) := cutSign text
    match integer? unsigned with
    | some value => value.map fun n => .integer (signed negative n)
    | none =>
        match signedReal? text with
        | some bits => some (.real bits)
        | none => some (.itself text)

end Atom

end Yaml

end ModuleResolution
