/-!
# Texts

A text is a list of Unicode scalar values.  This module holds the cuts, joins and searches that
paths, URLs and package specifiers are made of.
-/

namespace ModuleResolution

/-- A text, as the list of its Unicode scalar values.  Surrogates are none, so one without its
partner is outside of what is modelled, and `Json.unitChar` puts another character in its place. -/
abbrev Text := List Char

namespace Text

/-- The pieces between the occurrences of a separator.  There is always at least one. -/
def splitOn (separator : Char) : Text -> List Text
  | [] => [[]]
  | c :: rest =>
      if c = separator then [] :: splitOn separator rest
      else
        match splitOn separator rest with
        | [] => [[c]]
        | piece :: pieces => (c :: piece) :: pieces

/-- Pieces put together again with a separator between them. -/
def joinWith (separator : Char) : List Text -> Text
  | [] => []
  | [piece] => piece
  | piece :: pieces => piece ++ separator :: joinWith separator pieces

theorem splitOn_ne_nil (separator : Char) (text : Text) : splitOn separator text ≠ [] := by
  cases text with
  | nil => simp [splitOn]
  | cons c rest =>
      unfold splitOn
      split
      · simp
      · split <;> simp

theorem joinWith_splitOn (separator : Char) (text : Text) :
    joinWith separator (splitOn separator text) = text := by
  induction text with
  | nil => rfl
  | cons c rest ih =>
      unfold splitOn
      split
      · next h =>
          subst h
          cases hs : splitOn c rest with
          | nil => exact absurd hs (splitOn_ne_nil c rest)
          | cons piece pieces => rw [hs] at ih; simp [joinWith, ih]
      · cases hs : splitOn separator rest with
        | nil => exact absurd hs (splitOn_ne_nil separator rest)
        | cons piece pieces =>
            rw [hs] at ih
            cases pieces with
            | nil => simpa [joinWith] using ih
            | cons next others => simpa [joinWith] using ih

/-- What stands before the first occurrence of a separator, and what stands after it, if any. -/
def cut (separator : Char) : Text -> Text × Option Text
  | [] => ([], none)
  | c :: rest =>
      if c = separator then ([], some rest)
      else
        let (before, after) := cut separator rest
        (c :: before, after)

/-- The text without the longest end whose characters all satisfy `p`. -/
def dropEndWhile (p : Char -> Bool) (text : Text) : Text :=
  (text.reverse.dropWhile p).reverse

def takeEndWhile (p : Char -> Bool) (text : Text) : Text :=
  (text.reverse.takeWhile p).reverse

theorem dropEndWhile_append_takeEndWhile (p : Char -> Bool) (text : Text) :
    dropEndWhile p text ++ takeEndWhile p text = text := by
  rw [dropEndWhile, takeEndWhile, ← List.reverse_append, List.takeWhile_append_dropWhile,
    List.reverse_reverse]

def trim (p : Char -> Bool) (text : Text) : Text :=
  dropEndWhile p (text.dropWhile p)

/-- Does `needle` occur somewhere in the text? -/
def occursIn (needle : Text) : Text -> Bool
  | [] => needle.isEmpty
  | c :: rest => needle.isPrefixOf (c :: rest) || occursIn needle rest

/-- How often a nonempty `needle` occurs, counting from the left without overlaps; the first
argument is the number of characters still covered by the last occurrence. -/
def occurrencesFrom (needle : Text) : Nat -> Text -> Nat
  | _, [] => 0
  | covered + 1, _ :: rest => occurrencesFrom needle covered rest
  | 0, c :: rest =>
      if needle.isPrefixOf (c :: rest) then 1 + occurrencesFrom needle (needle.length - 1) rest
      else occurrencesFrom needle 0 rest

/-- How often `needle` occurs without overlaps.  The empty text occurs before every character
and once at the end. -/
def occurrences (needle text : Text) : Nat :=
  if needle.isEmpty then text.length + 1 else occurrencesFrom needle 0 text

/-- Every occurrence of a character replaced by a text. -/
def substitute (hole : Char) (filling text : Text) : Text :=
  text.flatMap fun c => if c = hole then filling else [c]

/-- A text with its ASCII letters in lower case. -/
def lowerAscii (text : Text) : Text :=
  text.map Char.toLower

def ofNat (n : Nat) : Text :=
  Nat.toDigits 10 n

end Text

end ModuleResolution
