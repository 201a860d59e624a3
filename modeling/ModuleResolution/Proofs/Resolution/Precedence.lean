import ModuleResolution.FileSystem.Memory
import ModuleResolution.Proofs.Fault.Url
import ModuleResolution.Proofs.Package.Scope
import ModuleResolution.Proofs.Package.Specifier
import ModuleResolution.Proofs.Trace
import ModuleResolution.Resolver

/-!
# The order of package lookups

A bare specifier is a module of the runtime, or a subpath of the package around its parent, or of an
installed one, in this order.  Each step that answers does so for good, and the files that only a
later step would look at have no influence on the answer.
-/

namespace ModuleResolution

open Package

namespace Resolver

/-- The same resolver over other files. -/
def withFiles (resolver : Resolver) (files : FileSystem) : Resolver :=
  { resolver with files }

def overMemory (memory : FileSystem.Memory) : Resolver where
  files := memory.toFileSystem
  conditions := []
  flags := .listed []
  workingDirectory := "/".toList

variable {resolver : Resolver} {specifier parent : Text}

/-! ## Modules of the runtime -/

theorem resolvePackage_of_isBuiltin (hbuiltin : Core.isBuiltin specifier) :
    resolver.resolvePackage specifier parent = pure (Core.scheme ++ specifier) := by
  have hne : specifier.isEmpty = false := by
    cases specifier with
    | nil => exact absurd hbuiltin (by decide +kernel)
    | cons c rest => rfl
  unfold resolvePackage
  rw [hne, if_neg Bool.false_ne_true, if_pos hbuiltin]

/-! ## The package around the parent -/

/-- The name of a package is looked for in the package around the parent and then where packages are
installed. -/
theorem resolvePackage_of_parse {package : Specifier} (hbuiltin : Core.isBuiltin specifier = false)
    (hparse : Specifier.parse specifier = .ok package) :
    resolver.resolvePackage specifier parent = (do
      match <- resolver.resolveSelf package.name package.subpath parent with
      | some url => return url
      | none => resolver.resolveFromInstalled package.name package.subpath parent) := by
  have hne : specifier.isEmpty = false := by
    cases specifier with
    | nil => cases hparse
    | cons c rest => rfl
  rw [resolvePackage, hne, hbuiltin, hparse]
  rfl

/-- The package around the parent has this name and restricts what can be imported from it. -/
structure OwnsName (resolver : Resolver) (parent name scope : Text) (manifest : Manifest) :
    Prop where
  scope_eq : Scope.ofUrl? resolver.files parent = some scope
  manifest_eq : Manifest.load resolver.files scope = .ok (some manifest)
  hasExports : manifest.hasExports
  name_eq : manifest.name = some name

theorem OwnsName.withFiles {name scope : Text} {manifest : Manifest} {other : FileSystem}
    (h : resolver.OwnsName parent name scope manifest)
    (hagree : Scope.AgreeOnUrl resolver.files other parent) :
    (resolver.withFiles other).OwnsName parent name scope manifest where
  scope_eq := hagree.ofUrl?_eq.trans h.scope_eq
  manifest_eq := (hagree.load_eq h.scope_eq).trans h.manifest_eq
  hasExports := h.hasExports
  name_eq := h.name_eq

theorem OwnsName.outcome_resolveSelf {name subpath scope : Text} {manifest : Manifest}
    (h : resolver.OwnsName parent name scope manifest) :
    (resolver.resolveSelf name subpath parent).outcome =
      (resolver.resolveExports scope subpath manifest.exports).outcome.map some := by
  have hscope : (Scope.findOfUrl resolver.files parent).outcome = .ok (some scope) :=
    Scope.outcome_findOfUrl_eq h.scope_eq
  have hmanifest : (Manifest.find resolver.files scope).outcome = .ok (some manifest) :=
    h.manifest_eq
  have hown : (manifest.hasExports && manifest.name == some name) = true := by
    rw [h.hasExports, h.name_eq]
    simp
  unfold resolveSelf
  rw [Traced.outcome_bind_of_ok hscope]
  simp only
  rw [Traced.outcome_bind_of_ok hmanifest]
  simp only [hown, if_true, Traced.outcome_bind]
  cases (resolver.resolveExports scope subpath manifest.exports).outcome <;> rfl

theorem OwnsName.outcome_resolvePackage {package : Specifier} {scope : Text} {manifest : Manifest}
    (hbuiltin : Core.isBuiltin specifier = false)
    (hparse : Specifier.parse specifier = .ok package)
    (h : resolver.OwnsName parent package.name scope manifest) :
    (resolver.resolvePackage specifier parent).outcome =
      (resolver.resolveExports scope package.subpath manifest.exports).outcome := by
  rw [resolvePackage_of_parse hbuiltin hparse]
  simp only [Traced.outcome_bind, h.outcome_resolveSelf]
  cases (resolver.resolveExports scope package.subpath manifest.exports).outcome <;> rfl

/-! ## Parents without a package around them -/

theorem outcome_resolveSelf_of_ofUrl?_eq_none
    (hscope : Scope.ofUrl? resolver.files parent = none) (name subpath : Text) :
    (resolver.resolveSelf name subpath parent).outcome = .ok none := by
  unfold resolveSelf
  rw [Traced.outcome_bind_of_ok (Scope.outcome_findOfUrl_eq hscope)]
  rfl

theorem outcome_resolvePackage_of_ofUrl?_eq_none {package : Specifier}
    (hscope : Scope.ofUrl? resolver.files parent = none)
    (hbuiltin : Core.isBuiltin specifier = false)
    (hparse : Specifier.parse specifier = .ok package) :
    (resolver.resolvePackage specifier parent).outcome =
      (resolver.resolveFromInstalled package.name package.subpath parent).outcome := by
  rw [resolvePackage_of_parse hbuiltin hparse,
    Traced.outcome_bind_of_ok (outcome_resolveSelf_of_ofUrl?_eq_none hscope _ _)]

/-! ## Parents that name no path -/

theorem outcome_resolveSelf_of_not_isLocal (hparent : ¬Url.IsLocal parent) (name subpath : Text) :
    (resolver.resolveSelf name subpath parent).outcome = .ok none := by
  obtain ⟨cause, hpath⟩ := (Url.toPath_eq_error_iff parent).2 hparent
  refine outcome_resolveSelf_of_ofUrl?_eq_none ?_ name subpath
  rw [Scope.ofUrl?, Scope.pathOfUrl?, hpath]
  rfl

theorem outcome_resolvePackage_of_not_isLocal (hparent : ¬Url.IsLocal parent)
    (hbuiltin : Core.isBuiltin specifier = false) :
    (resolver.resolvePackage specifier parent).outcome =
      match Specifier.parse specifier with
      | .error error => .error (.resolution error)
      | .ok package => .error (.resolution (notInstalled package.name package.subpath)) := by
  unfold resolvePackage
  cases specifier with
  | nil => rfl
  | cons c rest =>
      rw [if_neg (by simp), hbuiltin, if_neg Bool.false_ne_true]
      cases Specifier.parse (c :: rest) with
      | error error => rfl
      | ok package =>
          obtain ⟨cause, hpath⟩ := (Url.toPath_eq_error_iff parent).2 hparent
          simp only
          rw [Traced.outcome_bind_of_ok (outcome_resolveSelf_of_not_isLocal hparent _ _)]
          simp only [resolveFromInstalled, hpath]
          rfl

/-! ## Precedence -/

/-- The name of a module of the runtime stands for it over all files.  Otherwise the `exports` of
the package around the parent decide if it has the name, and only the places of the manifests above
the parent and the nearest of them count.  From a parent that names no path a specifier is invalid
or its package is not found, over all files. -/
theorem resolvePackage_precedence (resolver : Resolver) (specifier parent : Text) :
    (Core.isBuiltin specifier -> ∀ other,
      ((resolver.withFiles other).resolvePackage specifier parent).outcome =
        .ok (Core.scheme ++ specifier)) ∧
    (Core.isBuiltin specifier = false -> ∀ package scope manifest,
      Specifier.parse specifier = .ok package ->
      resolver.OwnsName parent package.name scope manifest ->
      (resolver.resolvePackage specifier parent).outcome =
          (resolver.resolveExports scope package.subpath manifest.exports).outcome ∧
        ∀ other, Scope.AgreeOnUrl resolver.files other parent ->
          ((resolver.withFiles other).resolvePackage specifier parent).outcome =
            (resolver.resolvePackage specifier parent).outcome) ∧
    (¬Url.IsLocal parent ->
      (∀ other, ((resolver.withFiles other).resolvePackage specifier parent).outcome =
        (resolver.resolvePackage specifier parent).outcome) ∧
      (Core.isBuiltin specifier = false ->
        (resolver.resolvePackage specifier parent).outcome =
            .error (.resolution (.invalidModuleSpecifier specifier)) ∨
          ∃ package, Specifier.parse specifier = .ok package ∧
            (resolver.resolvePackage specifier parent).outcome = .error (.resolution
              (.moduleNotFound (Path.normalize (Path.join package.name package.subpath)))))) := by
  refine ⟨fun hbuiltin other => ?_, ?_, fun hparent => ⟨fun other => ?_, fun hbuiltin => ?_⟩⟩
  · rw [resolvePackage_of_isBuiltin hbuiltin]
    rfl
  · intro hbuiltin package scope manifest hparse hown
    have hdecides := hown.outcome_resolvePackage hbuiltin hparse
    refine ⟨hdecides, fun other hagree => ?_⟩
    rw [hdecides, (hown.withFiles hagree).outcome_resolvePackage hbuiltin hparse]
    rfl
  · cases hbuiltin : Core.isBuiltin specifier with
    | true => rw [resolvePackage_of_isBuiltin hbuiltin, resolvePackage_of_isBuiltin hbuiltin]
    | false =>
        rw [outcome_resolvePackage_of_not_isLocal hparent hbuiltin,
          outcome_resolvePackage_of_not_isLocal hparent hbuiltin]
  · rw [outcome_resolvePackage_of_not_isLocal hparent hbuiltin]
    cases hparse : Specifier.parse specifier with
    | error error =>
        left
        rw [Specifier.parse_eq_error hparse]
    | ok package => exact .inr ⟨package, rfl, rfl⟩

def ownManifest : Text :=
  "\x7b\"name\":\"a\",\"exports\":\"./m.js\"\x7d".toList

def besideOwn (installed : List (Text × List UInt8)) : Resolver where
  files := FileSystem.Memory.toFileSystem
    ⟨("/p/package.json".toList, Text.Utf8.encode ownManifest) :: installed,
      ["/p/node_modules/a".toList, "/p/node_modules".toList, "/p".toList, "/".toList]⟩
  conditions := []
  flags := .listed []
  workingDirectory := "/".toList

/-- The package finds itself by its name, whether another one of the name is installed or not. -/
theorem resolvePackage_precedence_own :
    ((besideOwn []).resolvePackage "fs".toList "file:///p/x.js".toList).outcome =
        .ok "node:fs".toList ∧
      ((besideOwn []).resolvePackage "a".toList "file:///p/x.js".toList).outcome =
        .ok "file:///p/m.js".toList ∧
      ((besideOwn [("/p/node_modules/a/package.json".toList, [])]).resolvePackage "a".toList
          "file:///p/x.js".toList).outcome = .ok "file:///p/m.js".toList ∧
      ((besideOwn []).resolvePackage "a".toList "data:,".toList).outcome =
        .error (.resolution (.moduleNotFound "a".toList)) := by
  have hread : Json.read ownManifest = .ok (.object [("name".toList, .string "a".toList),
      ("exports".toList, .string "./m.js".toList)]) := by cbv
  have hcandidates : Scope.candidates "/p/x.js".toList = ["/p".toList, "/".toList] := by
    show Path.ancestors "/p/x.js".toList = _
    cbv
  have hpath : Scope.pathOfUrl? "file:///p/x.js".toList = some "/p/x.js".toList := rfl
  have hscope : Scope.ofUrl? (besideOwn []).files "file:///p/x.js".toList = some "/p".toList := by
    rw [Scope.ofUrl?, hpath, Option.bind_some, Scope.ofPath?, hcandidates]
    rfl
  have hown : (besideOwn []).OwnsName "file:///p/x.js".toList "a".toList "/p".toList
      (Manifest.ofFields [("name".toList, .string "a".toList),
        ("exports".toList, .string "./m.js".toList)]) :=
    ⟨hscope, Manifest.load_eq_some_iff.2 ⟨by decide, rfl, ownManifest, _, rfl, hread, rfl⟩, rfl,
      rfl⟩
  have hagree : Scope.AgreeOnUrl (besideOwn []).files
      (besideOwn [("/p/node_modules/a/package.json".toList, [])]).files
      "file:///p/x.js".toList := by
    intro path h
    obtain rfl := Option.some.inj (hpath.symm.trans h)
    refine ⟨fun directory hd => ?_, fun scope hs => ?_⟩
    · rw [hcandidates] at hd
      rcases List.mem_cons.1 hd with rfl | hd
      · rfl
      · rw [List.mem_singleton.1 hd]
        rfl
    · obtain rfl := Option.some.inj (hscope.symm.trans (by rw [Scope.ofUrl?, hpath]; exact hs))
      rfl
  have hlocal : ¬Url.IsLocal "data:,".toList :=
    (Url.toPath_eq_error_iff _).1 ⟨.otherScheme "data:,".toList, rfl⟩
  obtain ⟨hdecides, hsame⟩ := (resolvePackage_precedence (besideOwn []) "a".toList
    "file:///p/x.js".toList).2.1 rfl ⟨"a".toList, ".".toList⟩ _ _ rfl hown
  have hruntime := (resolvePackage_precedence (besideOwn []) "fs".toList
    "file:///p/x.js".toList).1 rfl (besideOwn []).files
  refine ⟨hruntime, hdecides, (hsame _ hagree).trans hdecides, ?_⟩
  rcases ((resolvePackage_precedence (besideOwn []) "a".toList "data:,".toList).2.2 hlocal).2 rfl
    with hinvalid | ⟨package, hparse, hmissing⟩
  · cases hinvalid
  · cases hparse
    exact hmissing

end Resolver

end ModuleResolution
