import ModuleResolution.Percent

/-!
# Path segments

The segments that a target path or a capture may not have: those that would leave the package,
enter a nested one or not name anything.
-/

namespace ModuleResolution

namespace Package

namespace Segment

/-- Segments that are never legal. -/
def reserved : List Text :=
  [[], ".".toList, "..".toList, "node_modules".toList]

def isLegal (segment : Text) : Bool :=
  !(reserved.contains segment || reserved.contains (Percent.decode segment))

def allLegal (segments : List Text) : Bool :=
  segments.all isLegal

/-- Is a path legal?  It is cut once at slashes and once at backslashes.  Reserved segments are in
lower case and ASCII only, so folding the case of ASCII letters is enough. -/
def isLegalPath (path : Text) : Bool :=
  let path := Text.lowerAscii path
  allLegal (Text.splitOn '/' path) && allLegal (Text.splitOn '\\' path)

end Segment

end Package

end ModuleResolution
