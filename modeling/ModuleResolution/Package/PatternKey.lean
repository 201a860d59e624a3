import ModuleResolution.Text.Basic

/-!
# Pattern keys

Keys with one star stand for all subpaths with something in place of the star.  Among several keys
the more specific one comes first.
-/

namespace ModuleResolution

namespace Package

/-- Why a key cannot be compared. -/
structure InvalidPatternKey where
  key : Text
  deriving DecidableEq, Repr

namespace PatternKey

/-- Does the key end with a slash or contain exactly one star? -/
def isValid (key : Text) : Bool :=
  "/".toList.isSuffixOf key || key.count '*' == 1

/-- Refuse a key that is not valid. -/
def check (key : Text) : Except InvalidPatternKey Unit :=
  if isValid key then .ok () else .error ⟨key⟩

def baseLength (key : Text) : Nat :=
  match Text.cut '*' key with
  | (base, some _) => base.length + 1
  | (base, none) => base.length

/-- The order of two keys: the longer base first, then keys with a star, then the longer key.  Of
two keys without a star and with equal bases the second comes first. -/
def order (a b : Text) : Ordering :=
  if baseLength a > baseLength b then .lt
  else if baseLength b > baseLength a then .gt
  else if !a.contains '*' then .gt
  else if !b.contains '*' then .lt
  else if a.length > b.length then .lt
  else if b.length > a.length then .gt
  else .eq

def compare (a b : Text) : Except InvalidPatternKey Ordering := do
  check a
  check b
  return order a b

/-- Put a key behind all keys of a sorted list that it does not precede. -/
def insert (key : Text) : List Text -> Except InvalidPatternKey (List Text)
  | [] => .ok [key]
  | first :: rest => do
      if (<- compare key first) = .lt then return key :: first :: rest
      else return first :: (<- insert key rest)

/-- Keys in their order; equal ones stay as they were.  A single key is not looked at. -/
def sort (keys : List Text) : Except InvalidPatternKey (List Text) :=
  keys.foldlM (fun sorted key => insert key sorted) []

def insertStar (key : Text) : List Text -> List Text
  | [] => [key]
  | first :: rest =>
      if order key first = .lt then key :: first :: rest else first :: insertStar key rest

/-- The keys with exactly one star in their order. -/
def expansionKeys (keys : List Text) : List Text :=
  (keys.filter fun key => key.count '*' == 1).foldl (fun sorted key => insertStar key sorted) []

/-- What stands in place of the star when a key matches.  The capture has at least one character;
a key that ends with the star takes all the rest. -/
def capture? (key subject : Text) : Option Text :=
  match Text.cut '*' key with
  | (_, none) => none
  | (base, some trailer) =>
      if !base.isPrefixOf subject || subject == base then none
      else if trailer.isEmpty ||
          (trailer.isSuffixOf subject && decide (key.length <= subject.length)) then
        some ((subject.take (subject.length - trailer.length)).drop base.length)
      else none

end PatternKey

end Package

end ModuleResolution
