import ModuleResolution.Text.Basic
import ModuleResolution.Text.CaseTable

/-!
# Lower and upper case

Full case mappings.  A mapping may give several characters, and a capital sigma turns into the
final small sigma at the end of a word.
-/

namespace ModuleResolution

namespace Text

def shifted (table : List CaseTable.Run) (c : Char) : Char :=
  match table.find? fun run => run.holds c.toNat with
  | some run => Char.ofNat (c.toNat + run.shift).toNat
  | none => c

def inRanges (table : List (Nat × Nat)) (c : Char) : Bool :=
  table.any fun (first, last) => decide (first <= c.toNat) && decide (c.toNat <= last)

/-- The lower case of one character, away from the final sigma. -/
def lowerChar (c : Char) : Text :=
  if c.toNat < 0x80 then [c.toLower]
  else if c = 'İ' then ['i', Char.ofNat 0x307]
  else [shifted CaseTable.lowering c]

def upperChar (c : Char) : Text :=
  if c.toNat < 0x80 then [c.toUpper]
  else
    match CaseTable.raisingToMany.find? fun (code, _) => code == c.toNat with
    | some (_, codes) => codes.map Char.ofNat
    | none => [shifted CaseTable.raising c]

def letterFollows (text : Text) : Bool :=
  match text.dropWhile (inRanges CaseTable.passedOver) with
  | [] => false
  | c :: _ => inRanges CaseTable.cased c

def lowerAfter (before : Text) : Text -> Text
  | [] => []
  | c :: rest =>
      let here :=
        if c = 'Σ' then
          if letterFollows before && !letterFollows rest then ['ς'] else ['σ']
        else lowerChar c
      here ++ lowerAfter (c :: before) rest

def lower (text : Text) : Text :=
  lowerAfter [] text

def upper (text : Text) : Text :=
  text.flatMap upperChar

end Text

end ModuleResolution
