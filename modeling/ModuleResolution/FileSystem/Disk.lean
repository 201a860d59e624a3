import ModuleResolution.FileSystem.Memory
import ModuleResolution.Text.Quoted

/-!
# Files on a disk

A disk below a working directory, with paths followed one component at a time: a file has nothing
below it, and `..` leads out of a directory that has to exist.  Nothing is known of the
directories outside except that they are there.
-/

namespace ModuleResolution

namespace FileSystem

structure Disk where
  files : List (List Text × List UInt8)
  directories : List (List Text)
  deriving DecidableEq, Repr

namespace Disk

inductive Place where
  | inside (trail : List Text)
  | outside
  deriving DecidableEq, Repr

inductive Found where
  | file (octets : List UInt8)
  | directory (place : Place)
  deriving DecidableEq, Repr

/-- The components of a path, the last one first, with `.` and `..` carried out. -/
def trailOf (path : Text) : List Text :=
  (Text.splitOn '/' path).foldl
    (fun trail part =>
      if part.isEmpty || part = ".".toList then trail
      else if part = "..".toList then trail.tail
      else part :: trail)
    []

def ofEntries (entries : List (Text × Entry)) : Disk :=
  entries.foldl
    (fun disk (path, entry) =>
      match entry with
      | .directory => { disk with directories := trailOf path :: disk.directories }
      | .file octets => { disk with files := Association.put (trailOf path) octets disk.files })
    ⟨[], []⟩

def hasDirectory (disk : Disk) (trail : List Text) : Bool :=
  trail.isEmpty || disk.directories.any (fun known => trail.isSuffixOf known) ||
    disk.files.any fun (known, _) => trail.isSuffixOf known.tail

def step (disk : Disk) (path : Text) (found : Found) (part : Text) : Except ReadFault Found :=
  match found with
  | .file _ => .error .notADirectory
  | .directory place =>
      if part.isEmpty || part = ".".toList then .ok (.directory place)
      else if part = "..".toList then
        match place with
        | .inside (_ :: trail) => .ok (.directory (.inside trail))
        | .inside [] => .ok (.directory .outside)
        | .outside => .ok (.directory .outside)
      else
        match place with
        | .outside => .error (.notFound path)
        | .inside trail =>
            match Association.get? (part :: trail) disk.files with
            | some octets => .ok (.file octets)
            | none =>
                if disk.hasDirectory (part :: trail) then
                  .ok (.directory (.inside (part :: trail)))
                else .error (.notFound path)

def find (disk : Disk) (path : Text) : Except ReadFault Found :=
  if path.isEmpty then .error (.notFound path)
  else
    let start : Place := if Path.isAbsolute path then .outside else .inside []
    (Text.splitOn '/' path).foldlM (disk.step path) (.directory start)

def read (disk : Disk) (path : Text) : Except ReadFault (List UInt8) := do
  match <- disk.find path with
  | .file octets => return octets
  | .directory _ => throw (.isDirectory path)

def unifyLines : Text -> Text
  | [] => []
  | '\r' :: '\n' :: rest => '\n' :: unifyLines rest
  | '\r' :: rest => '\n' :: unifyLines rest
  | c :: rest => c :: unifyLines rest

def readText (disk : Disk) (path : Text) : Except ReadFault Text := do
  match Text.Utf8.decode? (<- disk.read path) with
  | some text => return unifyLines text
  | none => throw .notUtf8

def isFile (disk : Disk) (path : Text) : Bool :=
  match disk.find path with
  | .ok (.file _) => true
  | _ => false

def isDirectory (disk : Disk) (path : Text) : Bool :=
  match disk.find path with
  | .ok (.directory _) => true
  | _ => false

def tidy (path : Text) : Text :=
  Text.joinWith '/' (trailOf path).reverse

/-- Why a file cannot be written at a path, if it cannot.  The directory around it must exist. -/
def writeFault? (disk : Disk) (path : Text) : Option ReadFault :=
  match trailOf path with
  | [] => some (.isDirectory path)
  | _ :: around =>
      match disk.find (tidy path) with
      | .ok (.file _) => none
      | .ok (.directory _) => some (.isDirectory path)
      | .error (.notFound _) => if disk.hasDirectory around then none else some (.notFound path)
      | .error fault => some fault

def toFileSystem (disk : Disk) : FileSystem where
  isFile := disk.isFile
  isDirectory := disk.isDirectory
  readText := disk.readText
  readBytes path length := do
    let octets <- disk.read path
    return if length >= 0 then octets.take length.toNat else octets

def message? : ReadFault -> Option Text
  | .notFound path =>
      some ("[Errno 2] No such file or directory: ".toList ++ Text.Quoted.write path)
  | .isDirectory path => some ("[Errno 21] Is a directory: ".toList ++ Text.Quoted.write path)
  | .notADirectory => none
  | .notUtf8 => none
  | .tooDeep => none

end Disk

end FileSystem

end ModuleResolution
