import ModuleResolution.Json.Reader
import ModuleResolution.Package.PatternKey
import ModuleResolution.Url.File

/-!
# Errors

The seven ways in which a resolution fails, with their names and words, and the faults that stop a
resolution without being an answer to it.
-/

namespace ModuleResolution

/-- Why a specifier does not resolve, with the value that is at fault. -/
inductive ResolutionError where
  | invalidModuleSpecifier (specifier : Text)
  | unsupportedDirectoryImport (specifier : Text)
  | moduleNotFound (specifier : Text)
  | invalidPackageConfiguration (package : Text)
  | invalidPackageTarget (target : Text)
  | packagePathNotExported (subpath : Text)
  | packageImportNotDefined (specifier : Text)
  deriving DecidableEq, Repr

namespace ResolutionError

def name : ResolutionError -> Text
  | .invalidModuleSpecifier _ => "InvalidModuleSpecifierError".toList
  | .unsupportedDirectoryImport _ => "UnsupportedDirectoryImportError".toList
  | .moduleNotFound _ => "ModuleNotFoundError".toList
  | .invalidPackageConfiguration _ => "InvalidPackageConfigurationError".toList
  | .invalidPackageTarget _ => "InvalidPackageTargetError".toList
  | .packagePathNotExported _ => "PackagePathNotExportedError".toList
  | .packageImportNotDefined _ => "PackageImportNotDefinedError".toList

def value : ResolutionError -> Text
  | .invalidModuleSpecifier value => value
  | .unsupportedDirectoryImport value => value
  | .moduleNotFound value => value
  | .invalidPackageConfiguration value => value
  | .invalidPackageTarget value => value
  | .packagePathNotExported value => value
  | .packageImportNotDefined value => value

def complaint : ResolutionError -> Text
  | .invalidModuleSpecifier _ =>
      "Module specifier is an invalid URL, package name or package subpath specifier".toList
  | .unsupportedDirectoryImport _ =>
      ("The resolved path corresponds to a directory, which is not a supported target for " ++
        "module imports").toList
  | .moduleNotFound _ => "The package or module requested does not exist".toList
  | .invalidPackageConfiguration _ =>
      "`package.json` configuration is invalid or contains an invalid configuration".toList
  | .invalidPackageTarget _ =>
      ("Package exports or imports define a target module for the package that is an invalid " ++
        "type or string target").toList
  | .packagePathNotExported _ =>
      ("Package exports do not define or permit a target subpath in the package for the given " ++
        "module").toList
  | .packageImportNotDefined _ => "Package imports do not define the specifier".toList

def message (error : ResolutionError) : Text :=
  error.complaint ++ ": \"".toList ++ error.value ++ "\".".toList

end ResolutionError

/-- Why a file cannot be opened or read. -/
inductive ReadFault where
  | notFound (path : Text)
  | isDirectory (path : Text)
  | notADirectory
  | notUtf8
  /-- What the file holds is nested deeper than can be read. -/
  | tooDeep
  deriving DecidableEq, Repr

/-- Why a command line of flags cannot be cut into words. -/
inductive WordsError where
  | openQuote
  | openEscape
  deriving DecidableEq, Repr

/-- Why a resolution stops without an answer. -/
inductive Fault where
  | url (cause : Url.SyntaxError)
  | path (cause : Url.File.PathError)
  | notAbsolute (text : Text)
  | outsidePackage (target package : Text)
  | notASubpath
  | notAnImport
  | notAFile
  | patternKey (cause : Package.InvalidPatternKey)
  | oversizedInteger
  | words (cause : WordsError)
  | read (cause : ReadFault)
  deriving DecidableEq, Repr

/-- How a resolution ends without a result. -/
inductive Failure where
  | resolution (error : ResolutionError)
  | fault (fault : Fault)
  deriving DecidableEq, Repr

end ModuleResolution
