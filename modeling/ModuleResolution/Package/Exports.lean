import ModuleResolution.Package.PatternKey
import ModuleResolution.Package.Target

/-!
# Subpath maps

Maps from subpaths, or from `#` names, to targets, and the `exports` field: a map, or a target of
its own for the package as a whole.
-/

namespace ModuleResolution

namespace Package

/-- Is the value an object with subpaths for keys? -/
def isSubpathMap : Json -> Bool
  | .object fields => fields.all fun (key, _) => Keys.isSubpath key
  | _ => false

def subpathMap? (value : Json) : Option Json.Fields :=
  match value with
  | .object fields => if isSubpathMap value then some fields else none
  | _ => none

namespace SubpathMap

/-- The target of the first pattern key that matches, with what stands for its star. -/
def firstMatch? (fields : Json.Fields) (subject : Text) : List Text -> Option (Json × Text)
  | [] => none
  | key :: rest =>
      match PatternKey.capture? key subject with
      | some capture => (Association.get? key fields).map (·, capture)
      | none => firstMatch? fields subject rest

/-- The target for a name: that of the name itself, or that of the most specific pattern that
matches, with what stands for its star. -/
def select? (fields : Json.Fields) (subject : Text) : Option (Json × Option Text) :=
  match if subject.contains '*' then none else Association.get? subject fields with
  | some target => some (target, none)
  | none =>
      (firstMatch? fields subject (PatternKey.expansionKeys (fields.map Prod.fst))).map
        fun (target, capture) => (target, some capture)

/-- What a name gives.  A target that gives nothing is final. -/
def resolve (context : TargetContext) (fields : Json.Fields) (subject : Text) :
    Traced (Option Text) :=
  match select? fields subject with
  | none => pure none
  | some (target, capture) => Target.resolve { context with capture } target

end SubpathMap

namespace Exports

def mainTarget (exports : Json) : Json :=
  match subpathMap? exports with
  | some fields => (Association.get? ".".toList fields).getD .null
  | none => exports

/-- Refuse an object whose keys are not in order. -/
def checkKeys (package : Text) (exports : Json) : Except ResolutionError Unit :=
  match exports with
  | .object fields => Keys.check package (fields.map Prod.fst)
  | _ => .ok ()

/-- What a subpath gives, if anything. -/
def resolve? (context : TargetContext) (subpath : Text) (exports : Json) :
    Traced (Option Text) :=
  if subpath = ".".toList then
    let target := mainTarget exports
    if target.isTruthy then Target.resolve { context with capture := none } target else pure none
  else
    match subpathMap? exports with
    | none => pure none
    | some fields =>
        if "./".toList.isPrefixOf subpath then SubpathMap.resolve context fields subpath
        else .fail (.fault .notASubpath)

/-- The URL that a subpath of a package has according to its `exports`. -/
def resolve (context : TargetContext) (subpath : Text) (exports : Json) : Traced Text :=
  match checkKeys context.package exports with
  | .error error => .reject error
  | .ok _ => do
      match <- resolve? context subpath exports with
      | some url => return url
      | none => .reject (.packagePathNotExported subpath)

end Exports

end Package

end ModuleResolution
