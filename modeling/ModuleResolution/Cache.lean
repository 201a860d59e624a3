import ModuleResolution.Association
import ModuleResolution.Format

/-!
# Caches of resolutions

Resolutions by specifier and parent.  What is stored first under a key stays; the cache counts how
often a look-up found something.
-/

namespace ModuleResolution

/-- Stored resolutions by their keys, and the numbers of look-ups with and without a result. -/
structure Cache where
  entries : List (Text × Resolution)
  hits : Nat
  misses : Nat
  deriving DecidableEq, Repr

namespace Cache

def empty : Cache := ⟨[], 0, 0⟩

/-- The key of a specifier in a parent. -/
def key (specifier parent : Text) : Text :=
  specifier ++ '#' :: parent

def contains (cache : Cache) (key : Text) : Bool :=
  (Association.get? key cache.entries).isSome

def size (cache : Cache) : Nat :=
  cache.entries.length

def get (cache : Cache) (specifier parent : Text) : Option Resolution × Cache :=
  match Association.get? (key specifier parent) cache.entries with
  | some resolution => (some resolution, { cache with hits := cache.hits + 1 })
  | none => (none, { cache with misses := cache.misses + 1 })

def set (cache : Cache) (specifier parent : Text) (resolution : Resolution) :
    Resolution × Cache :=
  match Association.get? (key specifier parent) cache.entries with
  | some stored => (stored, cache)
  | none =>
      (resolution,
        { cache with
          entries := Association.put (key specifier parent) resolution cache.entries })

/-- Forget everything and start to count anew. -/
def clear (_ : Cache) : Cache :=
  { entries := [], hits := 0, misses := 0 }

variable {cache after : Cache} {specifier parent : Text} {resolution kept : Resolution}

theorem get_eq_some_iff :
    cache.get specifier parent = (some resolution, after) ↔
      Association.get? (key specifier parent) cache.entries = some resolution ∧
        after = { cache with hits := cache.hits + 1 } := by
  unfold get
  split
  · next found h => simp [h, eq_comm]
  · next h => simp [h]

theorem get_eq_none_iff :
    cache.get specifier parent = (none, after) ↔
      Association.get? (key specifier parent) cache.entries = none ∧
        after = { cache with misses := cache.misses + 1 } := by
  unfold get
  split
  · next found h => simp [h]
  · next h => simp [h, eq_comm]

theorem set_eq_iff :
    cache.set specifier parent resolution = (kept, after) ↔
      (Association.get? (key specifier parent) cache.entries = some kept ∧ after = cache) ∨
        (Association.get? (key specifier parent) cache.entries = none ∧ kept = resolution ∧
          after = { cache with
            entries := Association.put (key specifier parent) resolution cache.entries }) := by
  unfold set
  split
  · next found h => simp [h, eq_comm]
  · next h => simp [h, eq_comm]

end Cache

end ModuleResolution
