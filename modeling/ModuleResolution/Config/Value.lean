import ModuleResolution.Yaml.Atom
import ModuleResolution.Yaml.Node

/-!
# Configuration values

The values that configuration files hold, whatever the format.  A mapping keeps the order of its
keys; of two entries with the same key the value of the last one counts, in the place of the first
one, and numbers and truth values of the same size are the same key.
-/

namespace ModuleResolution

namespace Config

/-- A value. -/
inductive Value where
  | null
  | bool (value : Bool)
  | integer (value : Int)
  | real (bits : UInt64)
  | string (text : Text)
  | list (items : List Value)
  | map (entries : List (Value × Value))
  deriving Repr, Inhabited

namespace Value

mutual

/-- A JSON value as a configuration value. -/
def ofJson : Json -> Value
  | .null => .null
  | .bool value => .bool value
  | .integer value => .integer value
  | .real bits => .real bits
  | .string text => .string text
  | .array items => .list (ofJsonItems items)
  | .object fields => .map (ofJsonFields fields)

def ofJsonItems : List Json -> List Value
  | [] => []
  | item :: items => ofJson item :: ofJsonItems items

def ofJsonFields : List (Text × Json) -> List (Value × Value)
  | [] => []
  | (name, value) :: fields => (.string name, ofJson value) :: ofJsonFields fields

end

inductive Identity where
  | null
  | integer (value : Int)
  | real (bits : UInt64)
  | text (text : Text)
  deriving DecidableEq, Repr

/-- What makes a key the same as another one.  A list or a mapping cannot be a key. -/
def identity? : Value -> Option Identity
  | .null => some .null
  | .bool value => some (.integer (if value then 1 else 0))
  | .integer value => some (.integer value)
  | .real bits =>
      match Binary64.integer? bits with
      | some value => some (.integer value)
      | none => some (.real bits)
  | .string text => some (.text text)
  | .list _ => none
  | .map _ => none

def mapOf? (entries : List (Value × Value)) : Option Value := do
  let known <- entries.mapM fun (key, value) => return (<- identity? key, key, value)
  let kept := known.foldl
    (fun kept (identity, key, value) =>
      let first := (Association.get? identity kept).elim key Prod.fst
      Association.put identity (first, value) kept)
    []
  return .map (kept.map Prod.snd)

def ofPlain? (text : Text) : Option Value := do
  match <- Yaml.Atom.ofPlain? text with
  | .null => return .null
  | .bool value => return .bool value
  | .integer value => return .integer value
  | .real bits => return .real bits
  | .itself text => return .string text
  | .merge => none
  | .default => none

def isMerge : Yaml.Node -> Bool
  | .scalar text true => text == "<<".toList
  | _ => false

def isDefault : Yaml.Node -> Bool
  | .scalar text true => text == ['=']
  | _ => false

mutual

def ofNode? : Yaml.Node -> Option Value
  | .scalar text false => some (.string text)
  | .scalar text true => ofPlain? text
  | .sequence items => return .list (<- ofNodes? items)
  | .mapping entries => do
      let (lent, own) <- entriesOf? entries
      mapOf? (lent ++ own)

def ofNodes? : List Yaml.Node -> Option (List Value)
  | [] => some []
  | item :: items => do return (<- ofNode? item) :: (<- ofNodes? items)

def entriesOf? : List (Yaml.Node × Yaml.Node) ->
    Option (List (Value × Value) × List (Value × Value))
  | [] => some ([], [])
  | (key, value) :: entries =>
      if isMerge key then do
        let here <- lentBy? value
        let (lent, own) <- entriesOf? entries
        return (here ++ lent, own)
      else do
        let key <- if isDefault key then some (.string ['=']) else ofNode? key
        let value <- ofNode? value
        let (lent, own) <- entriesOf? entries
        return (lent, (key, value) :: own)

/-- The entries that a mapping, or a list of mappings, lends.  The last one of a list lends
first. -/
def lentBy? : Yaml.Node -> Option (List (Value × Value))
  | .mapping entries => do
      let (lent, own) <- entriesOf? entries
      return lent ++ own
  | .sequence items => lentByAll? items
  | .scalar _ _ => none

def lentByAll? : List Yaml.Node -> Option (List (Value × Value))
  | [] => some []
  | .mapping entries :: items => do
      let (lent, own) <- entriesOf? entries
      return (<- lentByAll? items) ++ lent ++ own
  | _ :: _ => none

end

/-- The value that a YAML text spells. -/
def ofYaml? (text : Text) : Option Value := do
  ofNode? (<- Yaml.Node.ofText? text)

/-- The value of a key that is a text. -/
def field? (name : Text) : List (Value × Value) -> Option Value
  | [] => none
  | (.string key, value) :: entries => if key = name then some value else field? name entries
  | _ :: entries => field? name entries

end Value

end Config

end ModuleResolution
