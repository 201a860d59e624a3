import ModuleResolution.FileSystem.Disk
import ModuleResolution.Trace

/-!
# Snapshots

What is known of some paths of a disk.  Nothing is known of any other path, so a resolution that
consults one of those may have another answer once more is known.
-/

namespace ModuleResolution

namespace FileSystem

inductive Sight where
  | file (octets : List UInt8)
  | directory
  | nothing
  deriving DecidableEq, Repr

abbrev Snapshot := List (Text × Sight)

namespace Snapshot

def sight (snapshot : Snapshot) (path : Text) : Sight :=
  (Association.get? path snapshot).getD .nothing

def read (snapshot : Snapshot) (path : Text) : Except ReadFault (List UInt8) :=
  match snapshot.sight path with
  | .file octets => .ok octets
  | .directory => .error (.isDirectory path)
  | .nothing => .error (.notFound path)

def toFileSystem (snapshot : Snapshot) : FileSystem where
  isFile path := (snapshot.read path).isOk
  isDirectory path := decide (snapshot.sight path = .directory)
  readText path := do
    match Text.Utf8.decode? (<- snapshot.read path) with
    | some text => return Disk.unifyLines text
    | none => throw .notUtf8
  readBytes path length := do
    let octets <- snapshot.read path
    return if length >= 0 then octets.take length.toNat else octets

def consulted (events : List Event) : List Text :=
  events.flatMap fun event =>
    match event with
    | .consulted paths => paths
    | _ => []

def unknown (snapshot : Snapshot) (events : List Event) : List Text :=
  (consulted events).filter fun path => (Association.get? path snapshot).isNone

theorem unknown_eq_nil_iff (snapshot : Snapshot) (events : List Event) :
    snapshot.unknown events = [] ↔
      ∀ path ∈ consulted events, (Association.get? path snapshot).isSome := by
  simp [unknown, List.filter_eq_nil_iff, Option.isSome_iff_ne_none]

end Snapshot

end FileSystem

end ModuleResolution
