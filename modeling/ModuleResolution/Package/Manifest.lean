import ModuleResolution.Format
import ModuleResolution.Json.Basic

/-!
# Manifests

What a resolution needs to know from the `package.json` of a package.
-/

namespace ModuleResolution

namespace Package

/-- How the plain scripts of a package are loaded. -/
inductive ScriptKind where
  | module
  | commonjs
  deriving DecidableEq, Repr

/-- The format of a plain script. -/
def ScriptKind.format : ScriptKind -> Format
  | .module => .module
  | .commonjs => .commonjs

/-- The fields of a manifest that matter.  A missing `exports` or `imports` is null. -/
structure Manifest where
  name : Option Text
  kind : Option ScriptKind
  main : Option Text
  exports : Json
  imports : Json
  deriving Repr

namespace Manifest

/-- The name of the file that holds a manifest. -/
def fileName : Text := "package.json".toList

def kindOf? (field : Option Json) : Option ScriptKind :=
  match field.bind Json.string? with
  | some text =>
      if text = "module".toList then some .module
      else if text = "commonjs".toList then some .commonjs
      else none
  | none => none

/-- Read a manifest off the fields of an object.  Fields of another type count as missing, and so
does an empty `main`. -/
def ofFields (fields : Json.Fields) : Manifest where
  name := (Association.get? "name".toList fields).bind Json.string?
  kind := kindOf? (Association.get? "type".toList fields)
  main := ((Association.get? "main".toList fields).bind Json.string?).filter fun main =>
    !main.isEmpty
  exports := (Association.get? "exports".toList fields).getD .null
  imports := (Association.get? "imports".toList fields).getD .null

/-- Does the manifest restrict what can be imported? -/
def hasExports (manifest : Manifest) : Bool :=
  manifest.exports.isTruthy

/-- The format that the manifest gives to plain scripts. -/
def format? (manifest : Manifest) : Option Format :=
  manifest.kind.map ScriptKind.format

end Manifest

end Package

end ModuleResolution
