import ModuleResolution.Core
import ModuleResolution.FileSystem.Basic
import ModuleResolution.Package.Segment
import ModuleResolution.Text.Blank
import ModuleResolution.Text.Digit
import ModuleResolution.Trace

/-!
# Targets

The values in `exports` and `imports`: a target is a path in the package, a choice by conditions, a
list of alternatives, or null.  A target may give nothing, and then the next choice counts.
-/

namespace ModuleResolution

namespace Package

/-- What targets are seen from. -/
structure TargetContext where
  workingDirectory : Text
  package : Text
  conditions : List Text
  capture : Option Text
  /-- How the name of another package resolves; there is no way for `exports`. -/
  external : Option (Text -> Traced Text)

def defaultCondition : Text := "default".toList

namespace Keys

/-- Does a key read as an array index: blanks, a sign and then a digit? -/
def isIndex (key : Text) : Bool :=
  let unsigned :=
    match key.dropWhile Text.isBlank with
    | '+' :: rest => rest
    | '-' :: rest => rest
    | rest => rest
  match unsigned with
  | c :: _ => Text.isDecimalDigit c
  | [] => false

/-- Does a key start with a dot? -/
def isSubpath (key : Text) : Bool :=
  ".".toList.isPrefixOf key

/-- Are keys in order, when keys with and without a dot in front have been seen before?  They may
not be mixed, and none may read as an array index. -/
def inOrder (withDot withoutDot : Bool) : List Text -> Bool
  | [] => true
  | key :: rest =>
      let withDot := withDot || isSubpath key
      let withoutDot := withoutDot || !isSubpath key
      if withDot && withoutDot then false
      else if isIndex key then false
      else inOrder withDot withoutDot rest

/-- Refuse the keys of an object that are not in order. -/
def check (package : Text) (keys : List Text) : Except ResolutionError Unit :=
  if inOrder false false keys then .ok ()
  else .error (.invalidPackageConfiguration package)

end Keys

namespace Target

/-- The capture put into a target. -/
def fill (context : TargetContext) (target : Text) : Text :=
  match context.capture with
  | some capture => Text.substitute '*' capture target
  | none => target

/-- A target that is a path in the package. -/
def resolvePath (context : TargetContext) (target : Text) : Traced Text :=
  if !Segment.isLegalPath (target.drop 2) then .reject (.invalidPackageTarget target)
  else do
    let package := Url.File.ofDirectory context.workingDirectory context.package
    let url <- .ofUrl (Url.join package target)
    if !package.isPrefixOf url then .fail (.fault (.outsidePackage url package))
    else
      match context.capture with
      | none => return url
      | some capture =>
          if !Segment.isLegalPath capture then .reject (.invalidModuleSpecifier capture)
          else .ofUrl (Url.join package (fill context target))

/-- A target that is a text: a path in the package or, for imports, the name of another one. -/
def resolveText (context : TargetContext) (target : Text) : Traced Text :=
  if "./".toList.isPrefixOf target then resolvePath context target
  else
    match context.external with
    | none => .reject (.invalidPackageTarget target)
    | some resolvePackage =>
        if "../".toList.isPrefixOf target || "/".toList.isPrefixOf target ||
            Url.isAbsolute target then
          .reject (.invalidPackageTarget target)
        else resolvePackage (fill context target)

def isActive (context : TargetContext) (condition : Text) : Bool :=
  condition == defaultCondition || context.conditions.contains condition

def isInvalidTarget : Failure -> Bool
  | .resolution (.invalidPackageTarget _) => true
  | _ => false

mutual

/-- What a target gives: a URL, or nothing. -/
def resolve (context : TargetContext) : Json -> Traced (Option Text)
  | .string target => do return some (<- resolveText context target)
  | .object fields =>
      match Keys.check context.package (fields.map Prod.fst) with
      | .error error => .reject error
      | .ok _ => resolveFirstActive context fields
  | .array items => resolveFirstItem context items
  | .null => pure none
  | .bool _ => .reject (.invalidPackageTarget context.package)
  | .integer _ => .reject (.invalidPackageTarget context.package)
  | .real _ => .reject (.invalidPackageTarget context.package)

/-- The first field with an active condition that gives something.  The order of the fields
counts, not that of the conditions. -/
def resolveFirstActive (context : TargetContext) : Json.Fields -> Traced (Option Text)
  | [] => pure none
  | (condition, target) :: rest =>
      if isActive context condition then do
        match <- resolve context target with
        | some url => return some url
        | none => resolveFirstActive context rest
      else resolveFirstActive context rest

/-- The first item that gives something.  An invalid target is passed over unless it is the last
item. -/
def resolveFirstItem (context : TargetContext) : List Json -> Traced (Option Text)
  | [] => pure none
  | target :: rest =>
      let first := resolve context target
      match first.outcome with
      | .ok (some _) => first
      | .ok none => Traced.after first.events (resolveFirstItem context rest)
      | .error failure =>
          if isInvalidTarget failure && !rest.isEmpty then
            Traced.after first.events (resolveFirstItem context rest)
          else first

end

end Target

end Package

end ModuleResolution
