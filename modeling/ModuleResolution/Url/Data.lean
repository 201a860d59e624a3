import ModuleResolution.Format
import ModuleResolution.Text.Blank
import ModuleResolution.Text.Case

/-!
# Data URLs

The media type in a `data:` URL and the module format it stands for.
-/

namespace ModuleResolution

namespace Url

namespace Data

/-- What stands before the first occurrence of a separator. -/
def before (separator : Char) (text : Text) : Text :=
  (Text.cut separator text).1

/-- The media type without parameters in lower case: what stands between the first colon and the
next colon, comma or semicolon. -/
def mediaType? (url : Text) : Option Text :=
  match Text.cut ':' url with
  | (_, none) => none
  | (_, some rest) =>
      let type := Text.strip (before ';' (before ',' (before ':' rest)))
      if type.isEmpty then none else some (Text.lower type)

/-- The format that a media type stands for. -/
def formatOfType? (type : Text) : Option Format :=
  if type = "text/javascript".toList then some .module
  else if type = "application/json".toList then some .json
  else if type = "application/wasm".toList then some .wasm
  else none

def format? (url : Text) : Option Format :=
  (mediaType? url).bind formatOfType?

end Data

end Url

end ModuleResolution
