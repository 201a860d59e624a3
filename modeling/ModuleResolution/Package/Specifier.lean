import ModuleResolution.Error

/-!
# Package specifiers

A bare specifier names a package and a subpath in it.  The name of a package in a scope has two
segments.
-/

namespace ModuleResolution

namespace Package

/-- A package and a subpath in it; the subpath is `.` or starts with `./`. -/
structure Specifier where
  name : Text
  subpath : Text
  deriving DecidableEq, Repr

namespace Specifier

/-- The package name in front of a bare specifier.  In a scope the second segment has to be there
and may not be empty. -/
def name? (specifier : Text) : Option Text :=
  if "@".toList.isPrefixOf specifier then
    match Text.splitOn '/' specifier with
    | scope :: name :: _ => if name.isEmpty then none else some (scope ++ '/' :: name)
    | _ => none
  else some (Text.cut '/' specifier).1

def isLegalName (name : Text) : Bool :=
  !(".".toList.isPrefixOf name || name.contains '\\' || name.contains '%')

/-- Cut a bare specifier into the package and the subpath. -/
def parse (specifier : Text) : Except ResolutionError Specifier :=
  let invalid := ResolutionError.invalidModuleSpecifier specifier
  if specifier.isEmpty then .error invalid
  else
    match name? specifier with
    | none => .error invalid
    | some name =>
        let subpath := '.' :: specifier.drop name.length
        if !isLegalName name then .error invalid
        else if "/".toList.isSuffixOf subpath then .error invalid
        else .ok ⟨name, subpath⟩

end Specifier

end Package

end ModuleResolution
