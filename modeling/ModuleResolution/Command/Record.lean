import ModuleResolution.Command.Options
import ModuleResolution.Json.Rows

/-!
# Records

What became of each specifier of a command line, and how it is written.
-/

namespace ModuleResolution

namespace Command

/-- What became of a specifier. -/
structure Record where
  specifier : Text
  result : Except ResolutionError Resolution

namespace Record

def failed (record : Record) : Bool :=
  match record.result with
  | .ok _ => false
  | .error _ => true

def line (record : Record) : Text :=
  let parts :=
    match record.result with
    | .ok resolution => [resolution.format.elim ['-'] Format.name, resolution.path]
    | .error error => ["ERROR".toList, error.message]
  Text.joinWith '\t' (record.specifier :: parts) ++ ['\n']

def row (record : Record) : Json.Rows.Row :=
  let parts :=
    match record.result with
    | .ok resolution =>
        [("path".toList, some resolution.path),
          ("format".toList, resolution.format.map Format.name)]
    | .error error =>
        [("error".toList, some error.name), ("message".toList, some error.message)]
  ("specifier".toList, some record.specifier) :: parts

def write (layout : Layout) (records : List Record) : Text :=
  match layout with
  | .text => records.flatMap line
  | .json => Json.Rows.write (records.map row) ++ ['\n']

/-- Resolve specifiers one after the other through one cache.  An error of one goes into its
record. -/
def ofSpecifiers (resolver : Resolver) (parent : Text) (useCache : Bool) :
    Cache -> List Text -> Traced (List Record) × Cache
  | cache, [] => (pure [], cache)
  | cache, specifier :: specifiers =>
      let (run, cache) := resolver.resolve cache specifier parent useCache
      match run.outcome with
      | .error (.fault fault) => (⟨run.events, .error (.fault fault)⟩, cache)
      | .error (.resolution error) =>
          let (rest, cache) := ofSpecifiers resolver parent useCache cache specifiers
          (.after run.events (do return ⟨specifier, .error error⟩ :: (<- rest)), cache)
      | .ok resolution =>
          let (rest, cache) := ofSpecifiers resolver parent useCache cache specifiers
          (.after run.events (do return ⟨specifier, .ok resolution⟩ :: (<- rest)), cache)

end Record

end Command

end ModuleResolution
