import ModuleResolution.Error

/-!
# File systems

The four questions that a resolution asks about files.
-/

namespace ModuleResolution

/-- Answers about files and directories. -/
structure FileSystem where
  isFile : Text -> Bool
  isDirectory : Text -> Bool
  readText : Text -> Except ReadFault Text
  /-- The first octets of a file, at most as many as asked for. -/
  readBytes : Text -> Int -> Except ReadFault (List UInt8)

/-- The files as a reader sees them that gives up where a content is nested too deep.  The limit is
that of the machine, so it is known only by the contents that it admits. -/
def FileSystem.limited (admits : Text -> Bool) (files : FileSystem) : FileSystem :=
  { files with
    readText := fun path =>
      match files.readText path with
      | .ok text => if admits text then .ok text else .error .tooDeep
      | .error fault => .error fault }

namespace FileSystem

variable {admits : Text -> Bool} {files : FileSystem} {path : Text}

@[simp] theorem isFile_limited : (files.limited admits).isFile = files.isFile := rfl

theorem readText_limited (h : ∀ text, files.readText path = .ok text -> admits text) :
    (files.limited admits).readText path = files.readText path := by
  simp only [limited]
  cases hread : files.readText path with
  | error fault => rfl
  | ok text => simp [h text hread]

theorem readText_limited_eq_tooDeep_iff :
    (files.limited admits).readText path = .error .tooDeep ↔
      files.readText path = .error .tooDeep ∨
        ∃ text, files.readText path = .ok text ∧ admits text = false := by
  simp only [limited]
  cases files.readText path with
  | error fault => simp
  | ok found => cases hadmits : admits found <;> simp [hadmits]

end FileSystem

end ModuleResolution
