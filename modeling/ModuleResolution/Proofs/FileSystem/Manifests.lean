import ModuleResolution.FileSystem.Disk
import ModuleResolution.Proofs.Package.Scope
import ModuleResolution.Proofs.Text.Utf8

/-!
# Manifests in file systems

What holds an object is the manifest of its directory.  File systems that differ only in the
`imports` of manifests have the same files and directories, and where the content of a file is not
the same, both versions hold an object, and the manifests that are read off the two agree in
everything but `imports`.
-/

namespace ModuleResolution

open Package

namespace Package.Manifest

/-- The manifest with its `imports` taken out. -/
def withoutImports (manifest : Manifest) : Manifest :=
  { manifest with imports := .null }

section

variable {first second : Manifest} (h : second.withoutImports = first.withoutImports)

include h

theorem fields_eq_of_withoutImports_eq : second.name = first.name ∧ second.kind = first.kind ∧
    second.main = first.main ∧ second.exports = first.exports := by
  obtain ⟨hname, hkind, hmain, hexports, -⟩ := Manifest.mk.inj h
  exact ⟨hname, hkind, hmain, hexports⟩

theorem hasExports_eq_of_withoutImports_eq : second.hasExports = first.hasExports :=
  congrArg Json.isTruthy (fields_eq_of_withoutImports_eq h).2.2.2

theorem eq_of_withoutImports_eq (himports : second.imports = first.imports) : second = first := by
  obtain ⟨hname, hkind, hmain, hexports⟩ := fields_eq_of_withoutImports_eq h
  obtain ⟨name, kind, main, exports, imports⟩ := first
  obtain ⟨name', kind', main', exports', imports'⟩ := second
  exact Manifest.mk.injEq .. ▸ ⟨hname, hkind, hmain, hexports, himports⟩

end

/-- Objects with the same values for the other fields have manifests that agree but for the
`imports`. -/
theorem withoutImports_ofFields_eq {fields fields' : Json.Fields}
    (h : ∀ key ∈ ["name".toList, "type".toList, "main".toList, "exports".toList],
      Association.get? key fields' = Association.get? key fields) :
    (ofFields fields').withoutImports = (ofFields fields).withoutImports := by
  simp only [List.mem_cons, List.not_mem_nil, or_false, forall_eq_or_imp, forall_eq] at h
  obtain ⟨hname, htype, hmain, hexports⟩ := h
  simp only [ofFields, withoutImports, hname, htype, hmain, hexports]

end Package.Manifest

namespace FileSystem

/-- The file at a path holds an object: its octets are those of a text that is one.  Some file
systems unify the ends of lines before they show the text. -/
inductive HoldsObject (files : FileSystem) (path : Text) (fields : Json.Fields) : Prop where
  | intro {octets : List UInt8} {decoded text : Text} :
      (∀ length : Nat, files.readBytes path length = .ok (octets.take length)) ->
      Text.Utf8.decode? octets = some decoded ->
      (text = decoded ∨ text = Disk.unifyLines decoded) ->
      files.readText path = .ok text -> Json.read text = .ok (.object fields) ->
      HoldsObject files path fields

/-- The same files and directories, with contents that differ only in the `imports` of manifests. -/
structure SameButImports (files other : FileSystem) : Prop where
  isFile : other.isFile = files.isFile
  isDirectory : other.isDirectory = files.isDirectory
  contents : ∀ path,
    (other.readText path = files.readText path ∧ other.readBytes path = files.readBytes path) ∨
      ∃ fields fields', files.HoldsObject path fields ∧ other.HoldsObject path fields' ∧
        (Manifest.ofFields fields').withoutImports = (Manifest.ofFields fields).withoutImports

/-! ## First octets -/

section HoldsObject

variable {files other : FileSystem} {path text : Text} {fields : Json.Fields}

theorem read_null (rest : Text) : Json.read (Char.ofNat 0 :: rest) = .error .malformed := rfl

theorem decode?_zero {rest : List UInt8} {decoded : Text}
    (h : Text.Utf8.decode? (0 :: rest) = some decoded) :
    ∃ others, decoded = Char.ofNat 0 :: others := by
  have hparts : Text.Utf8.parts none (0 :: rest) =
      some (Char.ofNat 0) :: Text.Utf8.parts none rest := rfl
  rw [Text.Utf8.decode?, hparts, List.mapM_cons] at h
  obtain ⟨c, hc, h⟩ := Option.bind_eq_some_iff.1 h
  obtain ⟨others, -, h⟩ := Option.bind_eq_some_iff.1 h
  cases hc
  exact ⟨others, (Option.some.inj h).symm⟩

theorem HoldsObject.readBytes (h : files.HoldsObject path fields) (length : Nat) :
    ∃ octets, files.readBytes path length = .ok octets ∧ octets.head? ≠ some 0 := by
  obtain ⟨hbytes, hdecode, hends, -, hread⟩ := h
  refine ⟨_, hbytes length, fun hhead => ?_⟩
  rename_i octets decoded text
  obtain ⟨rest, rfl⟩ : ∃ rest, octets = 0 :: rest := by
    cases length with
    | zero => cases hhead
    | succ length =>
        cases octets with
        | nil => cases hhead
        | cons octet rest =>
            cases hhead
            exact ⟨rest, rfl⟩
  obtain ⟨others, rfl⟩ := decode?_zero hdecode
  rcases hends with rfl | rfl
  · rw [read_null] at hread
    cases hread
  · rw [show Disk.unifyLines (Char.ofNat 0 :: others) = Char.ofNat 0 :: Disk.unifyLines others from
      rfl, read_null] at hread
    cases hread

theorem HoldsObject.readText (h : files.HoldsObject path fields) :
    ∃ text, files.readText path = .ok text ∧ Json.read text = .ok (.object fields) := by
  obtain ⟨-, -, -, htext, hread⟩ := h
  exact ⟨_, htext, hread⟩

theorem HoldsObject.load_eq {directory : Text}
    (h : files.HoldsObject (manifestPath directory) fields) (hne : directory ≠ [])
    (hfile : files.isFile (manifestPath directory)) :
    Manifest.load files directory = .ok (some (Manifest.ofFields fields)) := by
  obtain ⟨text, htext, hread⟩ := h.readText
  exact Manifest.load_eq_some_iff.2 ⟨hne, hfile, text, fields, htext, hread, rfl⟩

end HoldsObject

/-! ## Files in memory -/

section InMemory

variable {path text : Text} {octets : List UInt8} {fields : Json.Fields}

theorem Memory.holdsObject {memory : Memory} (hread : memory.read path = .ok octets)
    (hdecode : Text.Utf8.decode? octets = some text)
    (hobject : Json.read text = .ok (.object fields)) :
    memory.toFileSystem.HoldsObject path fields := by
  have hbytes : ∀ length : Nat,
      memory.toFileSystem.readBytes path length = .ok (octets.take length) := by
    intro length
    simp [toFileSystem, leading, hread, bind, Except.bind, pure, Except.pure]
  have htext : memory.toFileSystem.readText path = .ok text := by
    simp [toFileSystem, hread, hdecode, bind, Except.bind, pure, Except.pure]
  exact .intro hbytes hdecode (.inl rfl) htext hobject

theorem Memory.load_eq {memory : Memory} {directory : Text} (hne : directory ≠ [])
    (hoctets : memory.octets? (manifestPath directory) = some (Text.Utf8.encode text))
    (hobject : Json.read text = .ok (.object fields)) :
    Manifest.load memory.toFileSystem directory = .ok (some (Manifest.ofFields fields)) := by
  have hread : memory.read (manifestPath directory) = .ok (Text.Utf8.encode text) := by
    rw [read, hoctets]
  have hfile : memory.isFile (manifestPath directory) := by
    rw [isFile, hoctets]
    rfl
  exact (Memory.holdsObject hread (Text.Utf8.decode?_encode text) hobject).load_eq hne hfile

/-- One file is written anew, and both versions hold objects with the same values for the fields
that count besides `imports`. -/
theorem Memory.sameButImports_of_cons {files : List (Text × List UInt8)} {directories : List Text}
    {octets' : List UInt8} {text' : Text} {fields' : Json.Fields}
    (hdecode : Text.Utf8.decode? octets = some text)
    (hobject : Json.read text = .ok (.object fields))
    (hdecode' : Text.Utf8.decode? octets' = some text')
    (hobject' : Json.read text' = .ok (.object fields'))
    (hsame : ∀ key ∈ ["name".toList, "type".toList, "main".toList, "exports".toList],
      Association.get? key fields' = Association.get? key fields) :
    (toFileSystem ⟨(path, octets) :: files, directories⟩).SameButImports
      (toFileSystem ⟨(path, octets') :: files, directories⟩) := by
  have hhere : ∀ content name, Path.normalize name = path ->
      (Memory.mk ((path, content) :: files) directories).octets? name = some content := by
    intro content name hname
    exact if_pos hname.symm
  have hthere : ∀ content name, Path.normalize name ≠ path ->
      (Memory.mk ((path, content) :: files) directories).octets? name =
        Association.get? (Path.normalize name) files := by
    intro content name hname
    exact if_neg (Ne.symm hname)
  have hisFile : ∀ name, (Memory.mk ((path, octets') :: files) directories).isFile name =
      (Memory.mk ((path, octets) :: files) directories).isFile name := by
    intro name
    unfold isFile
    by_cases hname : Path.normalize name = path
    · rw [hhere octets' name hname, hhere octets name hname]
      rfl
    · rw [hthere octets' name hname, hthere octets name hname]
  have hisDirectory : ∀ name, (Memory.mk ((path, octets') :: files) directories).isDirectory name =
      (Memory.mk ((path, octets) :: files) directories).isDirectory name := by
    intro name
    unfold isDirectory
    rw [hisFile]
  refine ⟨funext hisFile, funext hisDirectory, fun name => ?_⟩
  by_cases hname : Path.normalize name = path
  · have hread : ∀ content, (Memory.mk ((path, content) :: files) directories).read name =
        .ok content := by
      intro content
      rw [read, hhere content name hname]
    exact .inr ⟨fields, fields', Memory.holdsObject (hread octets) hdecode hobject,
      Memory.holdsObject (hread octets') hdecode' hobject',
      Manifest.withoutImports_ofFields_eq hsame⟩
  · have hread : (Memory.mk ((path, octets') :: files) directories).read name =
        (Memory.mk ((path, octets) :: files) directories).read name := by
      unfold read
      rw [hthere octets' name hname, hthere octets name hname, hisDirectory]
    left
    constructor
    · simp only [toFileSystem, hread]
    · simp only [toFileSystem, hread]

end InMemory

end FileSystem

end ModuleResolution
