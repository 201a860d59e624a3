import ModuleResolution.Text.Basic

/-!
# Module formats

How a module is to be loaded, and what a resolution gives: a path or URL with its format.
-/

namespace ModuleResolution

/-- The formats of a module. -/
inductive Format where
  | module
  | commonjs
  | json
  | wasm
  | builtin
  deriving DecidableEq, Repr

namespace Format

def name : Format -> Text
  | .module => "module".toList
  | .commonjs => "commonjs".toList
  | .json => "json".toList
  | .wasm => "wasm".toList
  | .builtin => "builtin".toList

def all : List Format := [.module, .commonjs, .json, .wasm, .builtin]

theorem name_injective {a b : Format} (h : a.name = b.name) : a = b := by
  revert h
  cases a <;> cases b <;> decide

end Format

/-- What a specifier resolves to: an absolute path or a URL.  Without a format, the way to load it
is not known. -/
structure Resolution where
  path : Text
  format : Option Format
  deriving DecidableEq, Repr

end ModuleResolution
