import ModuleResolution.Association
import ModuleResolution.FileSystem.Basic

/-!
# Files in memory

Files and directories given by their paths.  Paths name the same entry if their normal forms are
equal, and every directory above an entry exists.
-/

namespace ModuleResolution

namespace FileSystem

/-- What a path is given as. -/
inductive Entry where
  | file (octets : List UInt8)
  | directory
  deriving DecidableEq, Repr

def Entry.ofText (text : Text) : Entry :=
  .file (Text.Utf8.encode text)

/-- Files by the normal forms of their paths, and the normal forms of all directories. -/
structure Memory where
  files : List (Text × List UInt8)
  directories : List Text
  deriving DecidableEq, Repr

namespace Memory

def empty : Memory := ⟨[], []⟩

/-- Add a directory and those above it, up to one that is known. -/
def addDirectory (directories : List Text) (path : Text) : List Text :=
  if path.isEmpty || directories.contains path then directories
  else if _ : Path.dirname path = path then path :: directories
  else addDirectory (path :: directories) (Path.dirname path)
termination_by path.length
decreasing_by exact Path.dirname_length_lt ‹_›

def add (memory : Memory) (path : Text) (entry : Entry) : Memory :=
  let path := Path.normalize path
  match entry with
  | .directory => { memory with directories := addDirectory memory.directories path }
  | .file octets =>
      { files := Association.put path octets memory.files
        directories := addDirectory memory.directories (Path.dirname path) }

/-- The files and directories that entries give, one after the other. -/
def ofEntries (entries : List (Text × Entry)) : Memory :=
  entries.foldl (fun memory (path, entry) => memory.add path entry) empty

def octets? (memory : Memory) (path : Text) : Option (List UInt8) :=
  Association.get? (Path.normalize path) memory.files

def isFile (memory : Memory) (path : Text) : Bool :=
  (memory.octets? path).isSome

/-- Is the path a directory and not a file? -/
def isDirectory (memory : Memory) (path : Text) : Bool :=
  memory.directories.contains (Path.normalize path) && !memory.isFile path

def read (memory : Memory) (path : Text) : Except ReadFault (List UInt8) :=
  match memory.octets? path with
  | some octets => .ok octets
  | none =>
      if memory.isDirectory path then .error (.isDirectory path) else .error (.notFound path)

/-- The first octets of a list; a negative number leaves that many out at the end. -/
def leading (octets : List UInt8) (length : Int) : List UInt8 :=
  if length >= 0 then octets.take length.toNat else octets.take (octets.length - (-length).toNat)

/-- The file system of files in memory. -/
def toFileSystem (memory : Memory) : FileSystem where
  isFile := memory.isFile
  isDirectory := memory.isDirectory
  readText path := do
    match Text.Utf8.decode? (<- memory.read path) with
    | some text => return text
    | none => throw .notUtf8
  readBytes path length := do
    return leading (<- memory.read path) length

def message? : ReadFault -> Option Text
  | .notFound path => some ("File not found: ".toList ++ path)
  | .isDirectory path => some ("Cannot read directory: ".toList ++ path)
  | .notADirectory => none
  | .notUtf8 => none
  | .tooDeep => none

end Memory

end FileSystem

end ModuleResolution
