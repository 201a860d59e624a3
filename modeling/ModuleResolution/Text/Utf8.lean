import ModuleResolution.Text.Basic

/-!
# UTF-8

Texts as octets.  Reading splits the octets into characters and ill-formed parts; each ill-formed
part is as long as some character could still have begun with it, so both readers below see the
same parts and differ only in what they make of them.
-/

namespace ModuleResolution

namespace Text

namespace Utf8

def encodeChar (c : Char) : List UInt8 :=
  let n := c.toNat
  if n < 0x80 then [n.toUInt8]
  else if n < 0x800 then [(0xc0 + n / 0x40).toUInt8, (0x80 + n % 0x40).toUInt8]
  else if n < 0x10000 then
    [(0xe0 + n / 0x1000).toUInt8, (0x80 + n / 0x40 % 0x40).toUInt8, (0x80 + n % 0x40).toUInt8]
  else
    [(0xf0 + n / 0x40000).toUInt8, (0x80 + n / 0x1000 % 0x40).toUInt8,
      (0x80 + n / 0x40 % 0x40).toUInt8, (0x80 + n % 0x40).toUInt8]

def encode (text : Text) : List UInt8 :=
  text.flatMap encodeChar

/-- A character that has begun: its bits so far, how many octets are still to come, and the bounds
of the next one. -/
structure Begun where
  bits : Nat
  more : Nat
  low : Nat
  high : Nat
  deriving DecidableEq, Repr

inductive Lead where
  | whole (c : Char)
  | begun (state : Begun)
  | none
  deriving DecidableEq, Repr

/-- Read the first octet of a character.  The bounds of the second octet leave out overlong forms,
surrogates and code points past the last one. -/
def lead (octet : UInt8) : Lead :=
  let n := octet.toNat
  if n < 0x80 then .whole (Char.ofNat n)
  else if n < 0xc2 then .none
  else if n < 0xe0 then .begun ⟨n - 0xc0, 1, 0x80, 0xbf⟩
  else if n = 0xe0 then .begun ⟨0, 2, 0xa0, 0xbf⟩
  else if n = 0xed then .begun ⟨0xd, 2, 0x80, 0x9f⟩
  else if n < 0xf0 then .begun ⟨n - 0xe0, 2, 0x80, 0xbf⟩
  else if n = 0xf0 then .begun ⟨0, 3, 0x90, 0xbf⟩
  else if n < 0xf4 then .begun ⟨n - 0xf0, 3, 0x80, 0xbf⟩
  else if n = 0xf4 then .begun ⟨4, 3, 0x80, 0x8f⟩
  else .none

/-- The parts of a list of octets: characters, and `none` for each ill-formed part. -/
def parts : Option Begun -> List UInt8 -> List (Option Char)
  | none, [] => []
  | some _, [] => [none]
  | none, octet :: rest =>
      match lead octet with
      | .whole c => some c :: parts none rest
      | .begun state => parts (some state) rest
      | .none => none :: parts none rest
  | some state, octet :: rest =>
      if state.low <= octet.toNat ∧ octet.toNat <= state.high then
        let bits := state.bits * 0x40 + (octet.toNat - 0x80)
        if state.more = 1 then some (Char.ofNat bits) :: parts none rest
        else parts (some ⟨bits, state.more - 1, 0x80, 0xbf⟩) rest
      else
        none ::
          match lead octet with
          | .whole c => some c :: parts none rest
          | .begun next => parts (some next) rest
          | .none => none :: parts none rest

/-- The text that octets stand for, if they are well formed. -/
def decode? (octets : List UInt8) : Option Text :=
  (parts none octets).mapM id

def replacement : Char := Char.ofNat 0xfffd

def decodeLossy (octets : List UInt8) : Text :=
  (parts none octets).map fun part => part.getD replacement

end Utf8

end Text

end ModuleResolution
