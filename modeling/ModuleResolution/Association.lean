import ModuleResolution.Text.Basic

/-!
# Associations

Lists of keys with values in which the order of the keys is the order in which they came.
-/

namespace ModuleResolution

namespace Association

variable {α β : Type} [DecidableEq α]

/-- The value of the first entry with a key. -/
def get? (key : α) : List (α × β) -> Option β
  | [] => none
  | (name, value) :: rest => if name = key then some value else get? key rest

/-- Give a key a value.  A key that is there keeps its place. -/
def put (key : α) (value : β) : List (α × β) -> List (α × β)
  | [] => [(key, value)]
  | (name, old) :: rest =>
      if name = key then (name, value) :: rest else (name, old) :: put key value rest

@[simp] theorem get?_put_self (key : α) (value : β) (entries : List (α × β)) :
    get? key (put key value entries) = some value := by
  induction entries with
  | nil => simp [put, get?]
  | cons entry rest ih =>
      unfold put
      split
      · next h => simp [get?, h]
      · next h => simp [get?, h, ih]

theorem get?_put_of_ne {key other : α} (h : other ≠ key) (value : β) (entries : List (α × β)) :
    get? other (put key value entries) = get? other entries := by
  induction entries with
  | nil => simp [put, get?, h.symm]
  | cons entry rest ih =>
      unfold put
      split
      · next hk => simp [get?, hk, h.symm]
      · simp [get?, ih]

def ofList (entries : List (α × β)) : List (α × β) :=
  entries.foldl (fun known (key, value) => put key value known) []

end Association

end ModuleResolution
