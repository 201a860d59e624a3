import ModuleResolution.Text.Basic

/-!
# Blank characters

The white space of all scripts, as separators and data formats that are not bound to ASCII see it,
with the two cuts that rest on it.
-/

namespace ModuleResolution

namespace Text

/-- Is the character white space?  The separators 0x1c to 0x1f count as white space. -/
def isBlank (c : Char) : Bool :=
  let n := c.toNat
  (decide (0x09 <= n) && decide (n <= 0x0d)) || (decide (0x1c <= n) && decide (n <= 0x20)) ||
    n == 0x85 || n == 0xa0 || n == 0x1680 || (decide (0x2000 <= n) && decide (n <= 0x200a)) ||
    n == 0x2028 || n == 0x2029 || n == 0x202f || n == 0x205f || n == 0x3000

/-- A text without white space at either end. -/
def strip (text : Text) : Text :=
  trim isBlank text

def wordsBy (p : Char -> Bool) (text : Text) : List Text :=
  let (word, words) := text.foldr
    (fun c (word, words) =>
      if p c then ([], if word.isEmpty then words else word :: words) else (c :: word, words))
    ([], [])
  if word.isEmpty then words else word :: words

def items (text : Text) : List Text :=
  wordsBy (fun c => isBlank c || c == ',') text

end Text

end ModuleResolution
