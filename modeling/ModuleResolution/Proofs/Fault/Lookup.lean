import ModuleResolution.FileSystem.Memory
import ModuleResolution.Proofs.Fault.Target
import ModuleResolution.Proofs.Package.Leaves
import ModuleResolution.Proofs.Package.Specifier
import ModuleResolution.Resolver

/-!
# Lookups that stop

Over files that can be read the lookup of a package stops in three ways: a manifest that it reads
has an integer with too many digits, a target that it comes to leads out of its package, or the
`main` of the package has a malformed authority.
-/

namespace ModuleResolution

/-! ## Readable files -/

namespace FileSystem

structure IsReadable (files : FileSystem) : Prop where
  readText {directory : Text} : files.isFile (Package.manifestPath directory) ->
    (∃ text, files.readText (Package.manifestPath directory) = .ok text) ∨
      files.readText (Package.manifestPath directory) = .error .notUtf8
  readBytes {path : Text} : files.isFile path -> ∀ length,
    ∃ octets, files.readBytes path length = .ok octets

theorem Memory.isReadable (memory : Memory) : memory.toFileSystem.IsReadable := by
  have hread : ∀ {path}, memory.isFile path -> ∃ octets, memory.read path = .ok octets := by
    intro path h
    obtain ⟨octets, hoctets⟩ := Option.isSome_iff_exists.1 h
    exact ⟨octets, by rw [read, hoctets]⟩
  constructor
  · intro directory h
    obtain ⟨octets, hoctets⟩ := hread h
    cases hdecode : Text.Utf8.decode? octets with
    | none =>
        right
        simp only [toFileSystem, hoctets, hdecode, bind, Except.bind]
        rfl
    | some text =>
        left
        refine ⟨text, ?_⟩
        simp only [toFileSystem, hoctets, hdecode, bind, Except.bind]
        rfl
  · intro path h length
    obtain ⟨octets, hoctets⟩ := hread h
    refine ⟨leading octets length, ?_⟩
    show (memory.read path >>= _) = _
    rw [hoctets]
    rfl

/-- The limit on nesting admits every manifest, wherever it is read and its values are gone
through. -/
def AdmitsManifests (admits : Text -> Bool) (files : FileSystem) : Prop :=
  ∀ directory text, files.readText (Package.manifestPath directory) = .ok text -> admits text

theorem IsReadable.limited {files : FileSystem} {admits : Text -> Bool} (h : files.IsReadable)
    (hadmits : AdmitsManifests admits files) : (files.limited admits).IsReadable := by
  refine ⟨fun {directory} hfile => ?_, h.readBytes⟩
  rw [readText_limited (hadmits directory)]
  exact h.readText hfile

end FileSystem

namespace Package

/-! ## Manifests -/

namespace Manifest

/-- The directory has a manifest with an integer that has too many digits. -/
structure IsOversized (files : FileSystem) (directory : Text) : Prop where
  ne_nil : directory ≠ []
  isFile : files.isFile (manifestPath directory)
  oversized : ∃ text, files.readText (manifestPath directory) = .ok text ∧
    Json.read text = .error .oversizedInteger

theorem ofText_eq_fault_iff {directory text : Text} :
    (∃ fault, (ofText directory text).map some = .error (.fault fault)) ↔
      Json.read text = .error .oversizedInteger := by
  unfold ofText
  constructor
  · intro h
    obtain ⟨fault, h⟩ := h
    split at h
    · cases h
    · next hread => exact hread
    · cases h
  · intro h
    rw [h]
    exact ⟨.oversizedInteger, rfl⟩

theorem find_stops_iff {files : FileSystem} (hfiles : files.IsReadable) (directory : Text) :
    (find files directory).Stops ↔ IsOversized files directory := by
  have hfind : (find files directory).outcome = load files directory := rfl
  unfold Traced.Stops
  rw [hfind]
  unfold load
  simp only
  by_cases hskip : directory.isEmpty || !files.isFile (manifestPath directory)
  · rw [if_pos hskip]
    refine iff_of_false (fun ⟨_, h⟩ => by cases h) fun h => ?_
    have hempty : directory.isEmpty = false := by
      cases directory with
      | nil => exact absurd rfl h.ne_nil
      | cons c rest => rfl
    rw [hempty, h.isFile] at hskip
    cases hskip
  · rw [if_neg hskip]
    simp only [Bool.or_eq_true, Bool.not_eq_true', not_or, Bool.not_eq_true,
      Bool.not_eq_false] at hskip
    obtain ⟨hempty, hfile⟩ := hskip
    have hne : directory ≠ [] := by
      rintro rfl
      cases hempty
    rcases hfiles.readText hfile with ⟨text, htext⟩ | herror
    · rw [htext]
      refine ofText_eq_fault_iff.trans ⟨fun h => ⟨hne, hfile, text, htext, h⟩, fun h => ?_⟩
      obtain ⟨other, hother, hread⟩ := h.oversized
      rw [htext] at hother
      cases hother
      exact hread
    · rw [herror]
      refine iff_of_false (fun ⟨_, h⟩ => by cases h) fun h => ?_
      obtain ⟨text, htext, -⟩ := h.oversized
      rw [herror] at htext
      cases htext

/-- The manifest in a directory stops the lookup, or what is done with it does. -/
def Stops (files : FileSystem) (directory : Text) (next : Manifest -> Prop) : Prop :=
  IsOversized files directory ∨
    ∃ manifest, load files directory = .ok (some manifest) ∧ next manifest

theorem find_bind_stops_iff {α : Type} {files : FileSystem} (hfiles : files.IsReadable)
    (directory : Text)
    (next : Option Manifest -> Traced α) (hnone : ¬(next none).Stops) :
    (find files directory >>= next).Stops ↔
      Stops files directory fun manifest => (next (some manifest)).Stops := by
  rw [Traced.stops_bind_option, find_stops_iff hfiles]
  simp only [hnone, and_false, false_or]
  rfl

end Manifest

end Package

namespace Resolver

open Package

/-! ## Conditions -/

section Conditions

variable (resolver : Resolver)

/-- The package around the parent stops the lookup of a name that may be its own. -/
def SelfStops (name subpath parent : Text) : Prop :=
  ∃ scope, Scope.ofUrl? resolver.files parent = some scope ∧
    Manifest.Stops resolver.files scope fun manifest =>
      manifest.hasExports ∧ manifest.name = some name ∧
        Exports.Stops (resolver.targetContext scope none) subpath manifest.exports

/-- The target of a subpath of an installed package stops: one of its `exports` leads out of it, or
its `main` has a malformed authority. -/
inductive InstalledStops (package subpath : Text) (manifest : Manifest) : Prop where
  | exports : manifest.hasExports = true ->
      Exports.Stops (resolver.targetContext package none) subpath manifest.exports ->
      InstalledStops package subpath manifest
  | main {main : Text} : manifest.hasExports = false -> manifest.main = some main ->
      subpath = ".".toList -> Url.isAbsolute main = false -> Url.IsMalformed main ->
      InstalledStops package subpath manifest

/-- The search for an installed package goes past a directory. -/
def GoesPast (name directory : Text) : Prop :=
  resolver.files.isDirectory (installedAt directory name) = false ∨
    Manifest.load resolver.files (installedAt directory name) = .ok none

/-- The first of the directories that has the package stops the search. -/
def SearchStops (name subpath : Text) (directories : List Text) : Prop :=
  Reaches (resolver.GoesPast name)
    (fun directory => resolver.files.isDirectory (installedAt directory name) ∧
      Manifest.Stops resolver.files (installedAt directory name)
        (resolver.InstalledStops (installedAt directory name) subpath)) directories

/-- The lookup of a bare specifier stops, in the package around the parent or in an installed
one. -/
def PackageStops (specifier parent : Text) : Prop :=
  specifier ≠ [] ∧ Core.isBuiltin specifier = false ∧
    ∃ package, Specifier.parse specifier = .ok package ∧
      (resolver.SelfStops package.name package.subpath parent ∨
        (resolver.resolveSelf package.name package.subpath parent).outcome = .ok none ∧
          ∃ path, Url.File.toPath parent = .ok path ∧
            resolver.SearchStops package.name package.subpath
              (searchDirectories (Path.normalize path)))

/-- The lookup of a name in the `imports` of the package around the parent stops. -/
def ImportStops (specifier parent : Text) : Prop :=
  specifier ≠ "#".toList ∧ "#/".toList.isPrefixOf specifier = false ∧
    ∃ scope, Scope.ofUrl? resolver.files parent = some scope ∧
      Manifest.Stops resolver.files scope fun manifest =>
        ∃ fields target capture, manifest.imports = .object fields ∧
          SubpathMap.select? fields specifier = some (target, capture) ∧
          Target.Stops { resolver.importsContext scope with capture }
            (Target.TextStops { resolver.importsContext scope with capture } fun name =>
              resolver.PackageStops name (Url.File.ofDirectory resolver.workingDirectory scope))
            target

end Conditions

/-! ## Lookups -/

section Lookups

variable {resolver : Resolver}

theorem findOfUrl_bind_stops_iff {α : Type} (files : FileSystem) (url : Text)
    (next : Option Text -> Traced α) (hnone : ¬(next none).Stops) :
    (Scope.findOfUrl files url >>= next).Stops ↔
      ∃ scope, Scope.ofUrl? files url = some scope ∧ (next (some scope)).Stops := by
  have hfind : (Scope.findOfUrl files url).outcome = .ok (Scope.ofUrl? files url) := by
    unfold Scope.findOfUrl Scope.ofUrl?
    cases Scope.pathOfUrl? url <;> rfl
  rw [Traced.stops_bind_of_ok hfind]
  cases Scope.ofUrl? files url with
  | none => simp [hnone]
  | some scope => simp

theorem resolveExports_stops_iff (resolver : Resolver) (package : Text) {subpath : Text}
    (hsubpath : subpath = ".".toList ∨ "./".toList.isPrefixOf subpath) (exports : Json) :
    (resolver.resolveExports package subpath exports).Stops ↔
      Exports.Stops (resolver.targetContext package none) subpath exports :=
  Exports.resolve_stops_iff rfl hsubpath exports

theorem resolveSelf_stops_iff (hfiles : resolver.files.IsReadable) (name : Text) {subpath : Text}
    (hsubpath : subpath = ".".toList ∨ "./".toList.isPrefixOf subpath) (parent : Text) :
    (resolver.resolveSelf name subpath parent).Stops ↔ resolver.SelfStops name subpath parent := by
  unfold resolveSelf
  refine (findOfUrl_bind_stops_iff _ _ _ ?_).trans ?_
  · exact Traced.not_stops_pure _
  refine exists_congr fun scope => and_congr_right fun _ => ?_
  refine (Manifest.find_bind_stops_iff hfiles scope _ ?_).trans ?_
  · exact Traced.not_stops_pure _
  refine or_congr_right (exists_congr fun manifest => and_congr_right fun _ => ?_)
  simp only
  by_cases hown : manifest.hasExports && manifest.name == some name
  · rw [if_pos hown, Traced.stops_bind, resolveExports_stops_iff _ _ hsubpath]
    simp only [Bool.and_eq_true, beq_iff_eq] at hown
    simp [hown]
  · rw [if_neg hown]
    simp only [Bool.and_eq_true, beq_iff_eq] at hown
    exact iff_of_false (Traced.not_stops_pure _) fun h => hown ⟨h.1, h.2.1⟩

theorem resolveInstalled_stops_iff (resolver : Resolver) (package : Text) {subpath : Text}
    (hsubpath : subpath = ".".toList ∨ "./".toList.isPrefixOf subpath)
    (manifest : Manifest) :
    (resolver.resolveInstalled package subpath manifest).Stops ↔
      resolver.InstalledStops package subpath manifest := by
  have hbase := Url.isFile_ofDirectory resolver.workingDirectory package
  have hjoin : ¬(Traced.ofUrl (Url.join
      (Url.File.ofDirectory resolver.workingDirectory package) subpath)).Stops := by
    rw [Traced.stops_ofUrl, Url.join_eq_error_iff hbase]
    intro hfails
    obtain ⟨-, hmalformed⟩ := hfails
    obtain ⟨rest, rfl⟩ : ∃ rest, subpath = '.' :: rest := by
      rcases hsubpath with rfl | hdot
      · exact ⟨[], rfl⟩
      · obtain ⟨rest, rfl⟩ := List.isPrefixOf_iff_prefix.1 hdot
        exact ⟨_, rfl⟩
    exact Url.not_isMalformed_dot rest hmalformed
  unfold resolveInstalled
  constructor
  · intro h
    split at h
    · next hexports =>
        exact .exports hexports ((resolveExports_stops_iff resolver package hsubpath _).1 h)
    · next hexports =>
        have hexports : manifest.hasExports = false := by simpa using hexports
        simp only at h
        split at h
        · next main hmain =>
            split at h
            · next hsub =>
                rw [Traced.stops_ofUrl, Url.join_eq_error_iff hbase] at h
                exact .main hexports hmain hsub h.1 h.2
            · exact absurd h hjoin
        · exact absurd h hjoin
  · intro h
    cases h with
    | exports hexports h =>
        rw [if_pos hexports]
        exact (resolveExports_stops_iff resolver package hsubpath _).2 h
    | main hexports hmain hsub habsolute hmalformed =>
        simp only [hexports, Bool.false_eq_true, if_false, hmain, hsub, if_true]
        rw [Traced.stops_ofUrl, Url.join_eq_error_iff hbase]
        exact ⟨habsolute, hmalformed⟩

theorem searchInstalled_stops_iff (hfiles : resolver.files.IsReadable) (name : Text)
    {subpath : Text} (hsubpath : subpath = ".".toList ∨ "./".toList.isPrefixOf subpath)
    (directories : List Text) :
    (resolver.searchInstalled name subpath directories).Stops ↔
      resolver.SearchStops name subpath directories := by
  induction directories with
  | nil => exact iff_of_false (Traced.not_stops_reject _) not_reaches_nil
  | cons directory rest ih =>
      unfold SearchStops at ih ⊢
      rw [reaches_cons_iff, ← ih, searchInstalled]
      rw [Traced.stops_bind_of_ok (Traced.outcome_emit _)]
      unfold GoesPast
      cases hdirectory : resolver.files.isDirectory (installedAt directory name) with
      | false => simp
      | true =>
          rw [if_pos rfl, Traced.stops_bind_option, Manifest.find_stops_iff hfiles]
          have hnext : ∀ manifest, (do
              Traced.emit [.packageFound name (installedAt directory name)]
              resolver.resolveInstalled (installedAt directory name) subpath manifest :
                Traced Text).Stops ↔
              resolver.InstalledStops (installedAt directory name) subpath manifest := by
            intro manifest
            rw [Traced.stops_bind_of_ok (Traced.outcome_emit _),
              resolveInstalled_stops_iff _ _ hsubpath]
          simp only [hnext]
          constructor
          · intro h
            rcases h with h | ⟨hnone, h⟩ | ⟨manifest, hsome, h⟩
            · exact .inl ⟨trivial, .inl h⟩
            · exact .inr ⟨.inr hnone, h⟩
            · exact .inl ⟨trivial, .inr ⟨manifest, hsome, h⟩⟩
          · intro h
            rcases h with ⟨-, h | ⟨manifest, hsome, h⟩⟩ | ⟨hnone, h⟩
            · exact .inl h
            · exact .inr (.inr ⟨manifest, hsome, h⟩)
            · exact .inr (.inl ⟨hnone.resolve_left Bool.noConfusion, h⟩)

theorem resolvePackage_stops_iff (hfiles : resolver.files.IsReadable) (specifier parent : Text) :
    (resolver.resolvePackage specifier parent).Stops ↔ resolver.PackageStops specifier parent := by
  unfold resolvePackage PackageStops
  by_cases hnil : specifier = []
  · subst hnil
    exact iff_of_false (Traced.not_stops_reject _) fun h => h.1 rfl
  have hempty : specifier.isEmpty = false := by
    cases specifier with
    | nil => exact absurd rfl hnil
    | cons c rest => rfl
  rw [if_neg (by rw [hempty]; exact Bool.false_ne_true)]
  cases hbuiltin : Core.isBuiltin specifier with
  | true => simp
  | false =>
      cases hparse : Specifier.parse specifier with
      | error error => simp
      | ok package =>
          have hsubpath := Specifier.subpath_of_parse hparse
          have hinstalled :
              (resolver.resolveFromInstalled package.name package.subpath parent).Stops ↔
              ∃ path, Url.File.toPath parent = .ok path ∧
                resolver.SearchStops package.name package.subpath
                  (searchDirectories (Path.normalize path)) := by
            unfold resolveFromInstalled
            cases Url.File.toPath parent with
            | error cause => simp
            | ok path => simp [searchInstalled_stops_iff hfiles package.name hsubpath]
          simp only [Bool.false_eq_true, if_false]
          rw [Traced.stops_bind_option, resolveSelf_stops_iff hfiles package.name hsubpath]
          simp only [Traced.not_stops_pure, and_false, exists_false, or_false, hinstalled]
          simp [hnil]

theorem resolveOwnImport_stops_iff (hfiles : resolver.files.IsReadable) (specifier parent : Text) :
    (resolver.resolveOwnImport specifier parent).Stops ↔
      ∃ scope, Scope.ofUrl? resolver.files parent = some scope ∧
        Manifest.Stops resolver.files scope fun manifest =>
          ∃ fields target capture, manifest.imports = .object fields ∧
            SubpathMap.select? fields specifier = some (target, capture) ∧
            (Target.resolve { resolver.importsContext scope with capture } target).Stops := by
  unfold resolveOwnImport
  refine (findOfUrl_bind_stops_iff _ _ _ ?_).trans ?_
  · exact Traced.not_stops_pure _
  refine exists_congr fun scope => and_congr_right fun _ => ?_
  refine (Manifest.find_bind_stops_iff hfiles scope _ ?_).trans ?_
  · exact Traced.not_stops_pure _
  refine or_congr_right (exists_congr fun manifest => and_congr_right fun _ => ?_)
  simp only
  split
  · next fields hfields =>
      rw [SubpathMap.resolve_stops_iff]
      constructor
      · intro h
        obtain ⟨target, capture, hselect, h⟩ := h
        exact ⟨fields, target, capture, hfields, hselect, h⟩
      · intro h
        obtain ⟨other, target, capture, hother, hselect, h⟩ := h
        rw [hfields] at hother
        cases hother
        exact ⟨target, capture, hselect, h⟩
  · next hobject =>
      refine iff_of_false (Traced.not_stops_pure _) ?_
      intro hselects
      obtain ⟨fields, target, capture, hfields, -⟩ := hselects
      exact hobject fields hfields

theorem importsTarget_stops_iff (hfiles : resolver.files.IsReadable) (scope : Text)
    (capture : Option Text) (target : Json) :
    (Target.resolve { resolver.importsContext scope with capture } target).Stops ↔
      Target.Stops { resolver.importsContext scope with capture }
        (Target.TextStops { resolver.importsContext scope with capture } fun name =>
          resolver.PackageStops name (Url.File.ofDirectory resolver.workingDirectory scope))
        target := by
  rw [Target.resolve_stops_iff]
  refine Target.stops_congr fun text => ?_
  rw [Target.resolveText_stops_iff]
  constructor
  · refine Target.TextStops.imp ?_
    intro name h
    obtain ⟨external, hsome, h⟩ := h
    cases hsome
    exact (resolvePackage_stops_iff hfiles name _).1 h
  · refine Target.TextStops.imp fun name h => ?_
    exact ⟨_, rfl, (resolvePackage_stops_iff hfiles name _).2 h⟩

theorem resolveImport_stops_iff (hfiles : resolver.files.IsReadable) {specifier : Text}
    (hmark : "#".toList.isPrefixOf specifier) (parent : Text) :
    (resolver.resolveImport specifier parent).Stops ↔ resolver.ImportStops specifier parent := by
  unfold resolveImport ImportStops
  rw [if_neg (by rw [hmark]; exact Bool.false_ne_true)]
  by_cases hreserved : specifier = "#".toList ∨ "#/".toList.isPrefixOf specifier
  · rw [if_pos hreserved]
    refine iff_of_false (Traced.not_stops_reject _) fun h => ?_
    rcases hreserved with heq | hslash
    · exact h.1 heq
    · rw [h.2.1] at hslash
      cases hslash
  · rw [if_neg hreserved, Traced.stops_bind_option, resolveOwnImport_stops_iff hfiles]
    simp only [not_or, Bool.not_eq_true] at hreserved
    simp only [Traced.not_stops_pure, Traced.not_stops_reject, and_false, exists_false, or_false,
      importsTarget_stops_iff hfiles]
    exact ⟨fun h => ⟨hreserved.1, hreserved.2, h⟩, fun h => h.2.2⟩

end Lookups

end Resolver

end ModuleResolution
