import ModuleResolution.Association
import ModuleResolution.Yaml.Token

/-!
# Nodes of a YAML document

The tree that the tokens of one document spell.  A node that is left out is an empty plain scalar,
and an alias stands for a copy of the node that it names.
-/

namespace ModuleResolution

namespace Yaml

inductive Node where
  | scalar (text : Text) (plain : Bool)
  | sequence (items : List Node)
  | mapping (entries : List (Node × Node))
  deriving Repr, Inhabited

namespace Node

def empty : Node := .scalar [] true

/-- Where a node stands, which decides the forms that it can have. -/
inductive Place where
  | flow
  | item
  | entry
  deriving DecidableEq, Repr

/-- The tokens still to be read, and the named nodes so far; a node that is not complete has a name
already. -/
structure Reading where
  tokens : List Token
  anchors : List (Text × Option Node)

abbrev Reader := StateT Reading Option

def peek : Reader (Option Token) := do
  return (<- get).tokens.head?

def advance : Reader Unit :=
  modify fun reading => { reading with tokens := reading.tokens.tail }

def sees (tokens : List Token) : Reader Bool := do
  return (<- peek).any (tokens.contains ·)

def accept (token : Token) : Reader Bool := do
  let found <- sees [token]
  if found then advance
  return found

def expect (token : Token) : Reader Unit := do
  if !(<- accept token) then failure

def announce (name : Text) : Reader Unit := do
  if (Association.get? name (<- get).anchors).isSome then failure
  else modify fun reading => { reading with anchors := Association.put name none reading.anchors }

def remember (name : Text) (node : Node) : Reader Unit :=
  modify fun reading =>
    { reading with anchors := Association.put name (some node) reading.anchors }

def meant (name : Text) : Reader Node := do
  match Association.get? name (<- get).anchors with
  | some (some node) => return node
  | _ => failure

mutual

def node (place : Place) : Nat -> Reader Node
  | 0 => failure
  | fuel + 1 => do
      match <- peek with
      | some (.alias name) =>
          advance
          meant name
      | some (.anchor name) =>
          advance
          announce name
          let found <- content place true fuel
          remember name found
          return found
      | _ => content place false fuel

def content (place : Place) (named : Bool) : Nat -> Reader Node
  | 0 => failure
  | fuel + 1 => do
      match <- peek, place with
      | some (.scalar text plain), _ =>
          advance
          return .scalar text plain
      | some .flowSequenceStart, _ =>
          advance
          return .sequence (<- flowItems true fuel)
      | some .flowMappingStart, _ =>
          advance
          return .mapping (<- flowEntries true fuel)
      | some .blockSequenceStart, .item | some .blockSequenceStart, .entry =>
          advance
          return .sequence (<- blockItems fuel)
      | some .blockMappingStart, .item | some .blockMappingStart, .entry =>
          advance
          return .mapping (<- blockEntries fuel)
      | some .blockEntry, .entry => return .sequence (<- looseItems fuel)
      | _, _ => if named then return empty else failure

def nodeUnless (ends : List Token) (place : Place) : Nat -> Reader Node
  | 0 => failure
  | fuel + 1 => do
      if <- sees ends then return empty else node place fuel

def blockItems : Nat -> Reader (List Node)
  | 0 => failure
  | fuel + 1 => do
      if <- accept .blockEntry then
        let item <- nodeUnless [.blockEntry, .blockEnd] .item fuel
        return item :: (<- blockItems fuel)
      else
        expect .blockEnd
        return []

def looseItems : Nat -> Reader (List Node)
  | 0 => failure
  | fuel + 1 => do
      if <- accept .blockEntry then
        let item <- nodeUnless [.blockEntry, .key, .value, .blockEnd] .item fuel
        return item :: (<- looseItems fuel)
      else return []

def blockEntries : Nat -> Reader (List (Node × Node))
  | 0 => failure
  | fuel + 1 => do
      if <- accept .key then
        let ends : List Token := [.key, .value, .blockEnd]
        let key <- nodeUnless ends .entry fuel
        let value <- if <- accept .value then nodeUnless ends .entry fuel else pure empty
        return (key, value) :: (<- blockEntries fuel)
      else
        expect .blockEnd
        return []

def flowEntry (closing : Token) : Nat -> Reader (Node × Node)
  | 0 => failure
  | fuel + 1 => do
      let key <- nodeUnless [.value, .flowEntry, closing] .flow fuel
      let value <-
        if <- accept .value then nodeUnless [.flowEntry, closing] .flow fuel else pure empty
      return (key, value)

/-- The rest of a flow sequence; all items but the first one follow a comma.  A single key with its
value is an item. -/
def flowItems (first : Bool) : Nat -> Reader (List Node)
  | 0 => failure
  | fuel + 1 => do
      if <- accept .flowSequenceEnd then return []
      else
        if !first then expect .flowEntry
        if <- accept .key then
          let entry <- flowEntry .flowSequenceEnd fuel
          return .mapping [entry] :: (<- flowItems false fuel)
        else if <- accept .flowSequenceEnd then return []
        else
          let item <- node .flow fuel
          return item :: (<- flowItems false fuel)

/-- The rest of a flow mapping; all entries but the first one follow a comma.  A node alone is a
key without a value. -/
def flowEntries (first : Bool) : Nat -> Reader (List (Node × Node))
  | 0 => failure
  | fuel + 1 => do
      if <- accept .flowMappingEnd then return []
      else
        if !first then expect .flowEntry
        if <- accept .key then
          let entry <- flowEntry .flowMappingEnd fuel
          return entry :: (<- flowEntries false fuel)
        else if <- accept .flowMappingEnd then return []
        else
          let key <- node .flow fuel
          return (key, empty) :: (<- flowEntries false fuel)

end

/-- What follows the directives in front of a document: of a version there is at most one, and it is
a version 1. -/
def afterDirectives (versioned : Bool) : List Token -> Option (List Token)
  | .version major :: rest => if versioned || major != 1 then none else afterDirectives true rest
  | .directive :: rest => afterDirectives versioned rest
  | tokens => some tokens

/-- The tokens of a document without its start, and whether it has one.  After directives it has
to. -/
def openDocument (tokens : List Token) : Option (Bool × List Token) := do
  match <- afterDirectives false tokens with
  | .documentStart :: rest => return (true, rest)
  | rest => if rest = tokens then return (false, tokens) else none

def onlyEnds (tokens : List Token) : Bool :=
  tokens.all (· == .documentEnd)

/-- The node of a document.  There must not be a second document, and in an empty text the node is
left out. -/
def ofTokens? (tokens : List Token) : Option Node := do
  if tokens.isEmpty then return empty
  else
    let (marked, tokens) <- openDocument tokens
    if marked && onlyEnds tokens then return empty
    else
      let (found, reading) <- (node .item (3 * tokens.length + 3)).run ⟨tokens, []⟩
      if onlyEnds reading.tokens then return found else none

def ofText? (text : Text) : Option Node := do
  ofTokens? (<- Token.ofText? text)

end Node

end Yaml

end ModuleResolution
