import ModuleResolution.Proofs.Package.Containment
import ModuleResolution.Proofs.Resolution.Installed

/-!
# Captures

A capture is checked where it is put into a path of the package.  Where `imports` put it into the
name of another package, it is part of what is looked up and not checked.
-/

namespace ModuleResolution

namespace Package

namespace SubpathMap

variable {context : TargetContext} {fields : Json.Fields} {subject : Text} {target : Json}
  {capture : Option Text}

theorem resolve_of_select? (h : select? fields subject = some (target, capture)) :
    resolve context fields subject = Target.resolve { context with capture } target := by
  rw [resolve, h]

end SubpathMap

end Package

namespace Resolver

open Package
open Text (substitute)

/-- How a URL comes from a text of `imports` with a capture in it: the capture is checked in a path
of the package only. -/
inductive GivesFilled (resolver : Resolver) (package capture text url : Text) : Prop where
  | path : "./".toList.isPrefixOf text -> Segment.isLegalPath capture ->
      Url.join (Url.File.ofDirectory resolver.workingDirectory package)
        (substitute '*' capture text) = .ok url ->
      GivesFilled resolver package capture text url
  | name : Target.NamesPackage text ->
      (resolver.resolvePackage (substitute '*' capture text)
        (Url.File.ofDirectory resolver.workingDirectory package)).outcome = .ok url ->
      GivesFilled resolver package capture text url

variable (resolver : Resolver) {package subject capture : Text} {fields : Json.Fields}
  {target : Json}

/-- A URL that `exports` give through a pattern has a legal capture.  In `imports` the same holds
where the URL comes from a path of the package, and the name of another package is looked up
whatever the capture is. -/
theorem resolve_checks_capture
    (hselect : SubpathMap.select? fields subject = some (target, some capture)) :
    (∀ url, (SubpathMap.resolve (resolver.targetContext package none) fields subject).outcome =
        .ok (some url) -> Segment.isLegalPath capture) ∧
      (∀ url, (SubpathMap.resolve (resolver.importsContext package) fields subject).outcome =
        .ok (some url) ->
          ∃ text, IsLeaf text target ∧ GivesFilled resolver package capture text url) ∧
      (∀ text, target = .string text -> Target.NamesPackage text ->
        (SubpathMap.resolve (resolver.importsContext package) fields subject).outcome =
          (resolver.resolvePackage (substitute '*' capture text)
            (Url.File.ofDirectory resolver.workingDirectory package)).outcome.map some) := by
  refine ⟨fun url h => ?_, fun url h => ?_, fun text htarget hname => ?_⟩
  · rw [SubpathMap.resolve_of_select? hselect] at h
    obtain ⟨text, -, htext⟩ := Target.exists_leaf_of_resolve _ target h
    obtain ⟨-, hpath⟩ := Target.of_resolveText_eq_ok rfl htext
    exact (Target.of_resolvePath_eq_ok hpath).2.1 capture rfl
  · rw [SubpathMap.resolve_of_select? hselect] at h
    obtain ⟨text, hleaf, htext⟩ := Target.exists_leaf_of_resolve _ target h
    refine ⟨text, hleaf, ?_⟩
    rcases Target.resolveText_eq_ok_iff.1 htext with
      ⟨hinside, hpath⟩ | ⟨hname, lookup, hlookup, hurl⟩
    · obtain ⟨-, hlegal, hjoin⟩ := Target.of_resolvePath_eq_ok hpath
      exact .path hinside (hlegal capture rfl) hjoin
    · cases hlookup
      exact .name hname hurl
  · rw [SubpathMap.resolve_of_select? hselect, htarget, Target.resolve,
      Target.resolveText_of_namesPackage hname rfl]
    exact Traced.outcome_bind_some _

theorem resolve_checks_capture_path :
    SubpathMap.select? [("./*".toList, .string "./lib/*".toList)] "./a.js".toList =
        some (.string "./lib/*".toList, some "a.js".toList) ∧
      Segment.isLegalPath "a.js".toList := by
  have hselect : SubpathMap.select? [("./*".toList, .string "./lib/*".toList)] "./a.js".toList =
      some (.string "./lib/*".toList, some "a.js".toList) := rfl
  exact ⟨hselect, (withoutFiles.resolve_checks_capture hselect).1
    "file:///p/lib/a.js".toList (rfl : (SubpathMap.resolve
      (withoutFiles.targetContext "/p".toList none) _ _).outcome = _)⟩

/-! ## A capture that leads out of the package -/

def withDependency : Resolver where
  files := FileSystem.Memory.toFileSystem
    ⟨[("/p/node_modules/dep/package.json".toList, Text.Utf8.encode "\x7b\x7d".toList)],
      ["/p/node_modules/dep".toList, "/p/node_modules".toList, "/p".toList, "/".toList]⟩
  conditions := []
  flags := .listed []
  workingDirectory := "/".toList

theorem outcome_resolvePackage_withDependency :
    (withDependency.resolvePackage "dep/../../../secret.js".toList "file:///p/".toList).outcome =
      .ok "file:///secret.js".toList := by
  have hscope : Scope.ofUrl? withDependency.files "file:///p/".toList = none := by
    have hpath : Scope.pathOfUrl? "file:///p/".toList = some "/p/package.json".toList := rfl
    have hcandidates : Scope.candidates "/p/package.json".toList = ["/p".toList, "/".toList] := by
      show Path.ancestors "/p/package.json".toList = _
      cbv
    rw [Scope.ofUrl?, hpath, Option.bind_some, Scope.ofPath?, hcandidates]
    rfl
  have hself : (withDependency.resolveSelf "dep".toList "./../../../secret.js".toList
      "file:///p/".toList).outcome = .ok none := by
    rw [resolveSelf, Traced.outcome_bind_of_ok
      ((Scope.outcome_findOfUrl _ _).trans (congrArg Except.ok hscope))]
    rfl
  have hread : Json.read "\x7b\x7d".toList = .ok (.object []) := by cbv
  have hmanifest : Manifest.load withDependency.files "/p/node_modules/dep".toList =
      .ok (some (Manifest.ofFields [])) :=
    Manifest.load_eq_some_iff.2 ⟨by decide, rfl, "\x7b\x7d".toList, _, rfl, hread, rfl⟩
  have hnormal : Path.normalize "/p/".toList = "/p".toList := rfl
  have hancestors : Path.ancestors "/p".toList = ["/".toList] := by cbv
  have hdirectories : searchDirectories "/p".toList = ["/p".toList] := by
    rw [searchDirectories, hancestors]
    rfl
  have hparent : Url.File.toPath "file:///p/".toList = .ok "/p/".toList := rfl
  have hbuiltin : Core.isBuiltin "dep/../../../secret.js".toList = false := by decide +kernel
  have hparse : Specifier.parse "dep/../../../secret.js".toList =
      .ok ⟨"dep".toList, "./../../../secret.js".toList⟩ := rfl
  rw [resolvePackage_of_parse hbuiltin hparse, Traced.outcome_bind_of_ok hself]
  simp only [resolveFromInstalled, hparent]
  rw [hnormal, hdirectories]
  have hinstalled : IsInstalled withDependency.files (installedAt "/p".toList "dep".toList) :=
    ⟨rfl, rfl⟩
  exact (outcome_searchInstalled_cons hinstalled _).unique
    (.subpath hmanifest rfl fun hdot => absurd hdot (by decide))

/-- The capture climbs out of the installed package and of the one that imports it. -/
theorem resolve_not_isLegalPath_of_name :
    SubpathMap.select? [("#a/*".toList, .string "dep/*".toList)] "#a/../../../secret.js".toList =
        some (.string "dep/*".toList, some "../../../secret.js".toList) ∧
      (SubpathMap.resolve (withDependency.importsContext "/p".toList)
          [("#a/*".toList, .string "dep/*".toList)] "#a/../../../secret.js".toList).outcome =
        .ok (some "file:///secret.js".toList) ∧
      ¬Segment.isLegalPath "../../../secret.js".toList := by
  have hselect : SubpathMap.select? [("#a/*".toList, .string "dep/*".toList)]
      "#a/../../../secret.js".toList =
      some (.string "dep/*".toList, some "../../../secret.js".toList) := rfl
  have hname : Target.NamesPackage "dep/*".toList := ⟨rfl, rfl, rfl, rfl⟩
  refine ⟨hselect, ?_, by decide⟩
  rw [SubpathMap.resolve_of_select? hselect, Target.resolve,
    Target.resolveText_of_namesPackage hname rfl]
  refine (Traced.outcome_bind_some _).trans ?_
  exact congrArg (Except.map some) outcome_resolvePackage_withDependency

end Resolver

end ModuleResolution
