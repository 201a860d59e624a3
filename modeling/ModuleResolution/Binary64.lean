import ModuleResolution.Text.Basic

/-!
# Binary64 numbers

The binary64 number nearest to a decimal one, as its bits.  All arithmetic is exact; a tie goes to
the number whose last bit is zero.
-/

namespace ModuleResolution

namespace Binary64

def signBit : Nat := 0x8000000000000000

def leadingBit : Nat := 0x10000000000000

def infinity : Nat := 0x7ff0000000000000

def nan : Nat := 0x7ff8000000000000

/-- The quotient of two numbers, rounded to the nearest one, a tie to the even one. -/
def roundDiv (num den : Nat) : Nat :=
  let quotient := num / den
  let rest := num % den
  if 2 * rest > den ∨ (2 * rest = den ∧ quotient % 2 = 1) then quotient + 1 else quotient

/-- The exponent of the last bit of a binary64 number near `num / den`, for one that is not too
small. -/
def lastBit (num den : Nat) : Int :=
  let guess : Int := Int.ofNat num.log2 - Int.ofNat den.log2 - 52
  let fits : Bool :=
    if guess >= 0 then decide (den * leadingBit * Nat.pow 2 guess.toNat <= num)
    else decide (den * leadingBit <= num * Nat.pow 2 (-guess).toNat)
  if fits then guess else guess - 1

def ofRatio (num den : Nat) : Nat :=
  let exponent := max (lastBit num den) (-1074)
  let rounded :=
    if exponent >= 0 then roundDiv num (den * Nat.pow 2 exponent.toNat)
    else roundDiv (num * Nat.pow 2 (-exponent).toNat) den
  let bits :=
    if rounded < leadingBit then rounded
    else (exponent + 1075).toNat * leadingBit + (rounded - leadingBit)
  min bits infinity

/-- The bits of the number nearest to `mantissa * 10 ^ exponent`, with a sign. -/
def ofDecimal (negative : Bool) (mantissa : Nat) (exponent : Int) : UInt64 :=
  let size : Int := (Nat.toDigits 10 mantissa).length + exponent
  let bits :=
    if mantissa = 0 ∨ size < -330 then 0
    else if size > 310 then infinity
    else if exponent >= 0 then ofRatio (mantissa * Nat.pow 10 exponent.toNat) 1
    else ofRatio mantissa (Nat.pow 10 (-exponent).toNat)
  UInt64.ofNat (if negative then signBit + bits else bits)

def isZeroOrNan (bits : UInt64) : Bool :=
  let magnitude := bits.toNat % signBit
  magnitude == 0 || decide (magnitude > infinity)

def integer? (bits : UInt64) : Option Int :=
  let magnitude := bits.toNat % signBit
  let exponent := magnitude / leadingBit
  let digits := magnitude % leadingBit
  let size : Option Nat :=
    if exponent = 2047 then none
    else if exponent = 0 then if digits = 0 then some 0 else none
    else
      let digits := leadingBit + digits
      if exponent >= 1075 then some (digits * Nat.pow 2 (exponent - 1075))
      else
        let unit := Nat.pow 2 (1075 - exponent)
        if digits % unit = 0 then some (digits / unit) else none
  size.map fun n => if bits.toNat >= signBit then -(n : Int) else n

def add (a b : UInt64) : UInt64 :=
  (Float.ofBits a + Float.ofBits b).toBits

def mul (a b : UInt64) : UInt64 :=
  (Float.ofBits a * Float.ofBits b).toBits

end Binary64

end ModuleResolution
