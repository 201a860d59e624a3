import ModuleResolution.Proofs.Package.Specifier
import ModuleResolution.Proofs.Trace
import ModuleResolution.Resolver

/-!
# Bare specifiers

A bare specifier is read as a package and a subpath that make it up again, and every other text is
refused.  The subpath is one that `exports` can be asked for, so no lookup of a bare specifier ends
because its subpath is none.
-/

namespace ModuleResolution

open Package

namespace Package

/-! ## Targets -/

namespace Target

section Resolve

variable {context : TargetContext} {fault : Fault}

mutual

theorem resolve_avoids (htext : ∀ text, (resolveText context text).Avoids fault) :
    ∀ target : Json, (resolve context target).Avoids fault
  | .string text => by
      rw [resolve]
      exact (htext text).bind fun _ => Traced.avoids_pure _
  | .object fields => by
      rw [resolve]
      cases Keys.check context.package (fields.map Prod.fst) with
      | error error => exact Traced.avoids_reject error
      | ok _ => exact resolveFirstActive_avoids htext fields
  | .array items => by
      rw [resolve]
      exact resolveFirstItem_avoids htext items
  | .null => by rw [resolve]; exact Traced.avoids_pure _
  | .bool _ => by rw [resolve]; exact Traced.avoids_reject _
  | .integer _ => by rw [resolve]; exact Traced.avoids_reject _
  | .real _ => by rw [resolve]; exact Traced.avoids_reject _

theorem resolveFirstActive_avoids (htext : ∀ text, (resolveText context text).Avoids fault) :
    ∀ fields : Json.Fields, (resolveFirstActive context fields).Avoids fault
  | [] => by rw [resolveFirstActive]; exact Traced.avoids_pure _
  | (condition, target) :: rest => by
      have hrest := resolveFirstActive_avoids htext rest
      rw [resolveFirstActive]
      split
      · refine (resolve_avoids htext target).bind fun given => ?_
        cases given with
        | none => exact hrest
        | some url => exact Traced.avoids_pure _
      · exact hrest

theorem resolveFirstItem_avoids (htext : ∀ text, (resolveText context text).Avoids fault) :
    ∀ items : List Json, (resolveFirstItem context items).Avoids fault
  | [] => by rw [resolveFirstItem]; exact Traced.avoids_pure _
  | target :: rest => by
      have hfirst := resolve_avoids htext target
      have hrest := resolveFirstItem_avoids htext rest
      rw [resolveFirstItem]
      split
      · exact hfirst
      · exact hrest
      · split
        · exact hrest
        · exact hfirst

end

end Resolve

variable (context : TargetContext)

theorem resolvePath_avoids (target : Text) : (resolvePath context target).Avoids .notASubpath := by
  unfold resolvePath
  split
  · exact Traced.avoids_reject _
  · refine (Traced.avoids_ofUrl fun _ => Fault.noConfusion).bind fun url => ?_
    split
    · exact Traced.avoids_fail Fault.noConfusion
    · split
      · exact Traced.avoids_pure _
      · split
        · exact Traced.avoids_reject _
        · exact Traced.avoids_ofUrl fun _ => Fault.noConfusion

theorem resolveText_avoids {context : TargetContext} (hexternal : context.external = none)
    (text : Text) : (resolveText context text).Avoids .notASubpath := by
  unfold resolveText
  rw [hexternal]
  split
  · exact resolvePath_avoids context text
  · exact Traced.avoids_reject _

end Target

theorem Exports.resolve_avoids {context : TargetContext} (hexternal : context.external = none)
    {subpath : Text} (hsubpath : subpath = ".".toList ∨ "./".toList.isPrefixOf subpath)
    (exports : Json) : (resolve context subpath exports).Avoids .notASubpath := by
  have htarget : ∀ capture target,
      (Target.resolve { context with capture } target).Avoids .notASubpath := fun capture target =>
    have hnone : ({ context with capture } : TargetContext).external = none := hexternal
    Target.resolve_avoids (Target.resolveText_avoids hnone) target
  have hresolve : (resolve? context subpath exports).Avoids .notASubpath := by
    unfold resolve?
    split
    · simp only
      split
      · exact htarget _ _
      · exact Traced.avoids_pure _
    · next hdot =>
        split
        · exact Traced.avoids_pure _
        · rw [if_pos (hsubpath.resolve_left hdot), SubpathMap.resolve]
          split
          · exact Traced.avoids_pure _
          · exact htarget _ _
  unfold resolve
  split
  · exact Traced.avoids_reject _
  · refine hresolve.bind fun given => ?_
    cases given with
    | none => exact Traced.avoids_reject _
    | some url => exact Traced.avoids_pure _

theorem Manifest.find_avoids (files : FileSystem) (directory : Text) :
    (find files directory).Avoids .notASubpath := by
  have htext : ∀ text, (ofText directory text).map some ≠ .error (.fault .notASubpath) := by
    intro text
    unfold ofText
    split <;> exact fun h => by cases h
  show load files directory ≠ _
  unfold load
  simp only
  split
  · exact fun h => by cases h
  · split
    · exact htext _
    · exact fun h => by cases h
    · exact fun h => by cases h

end Package

/-! ## Lookups -/

namespace Resolver

section Lookups

variable (resolver : Resolver) {subpath : Text}

theorem resolveSelf_avoids (hsubpath : subpath = ".".toList ∨ "./".toList.isPrefixOf subpath)
    (name parent : Text) : (resolver.resolveSelf name subpath parent).Avoids .notASubpath := by
  have hscope : (Scope.findOfUrl resolver.files parent).Avoids .notASubpath := by
    unfold Scope.findOfUrl
    split <;> exact fun h => by cases h
  unfold resolveSelf
  refine hscope.bind fun scope? => ?_
  cases scope? with
  | none => exact Traced.avoids_pure _
  | some scope =>
      refine (Manifest.find_avoids resolver.files scope).bind fun manifest? => ?_
      cases manifest? with
      | none => exact Traced.avoids_pure _
      | some manifest =>
          simp only
          split
          · exact (Exports.resolve_avoids rfl hsubpath _).bind fun _ => Traced.avoids_pure _
          · exact Traced.avoids_pure _

theorem resolveInstalled_avoids (hsubpath : subpath = ".".toList ∨ "./".toList.isPrefixOf subpath)
    (package : Text) (manifest : Manifest) :
    (resolver.resolveInstalled package subpath manifest).Avoids .notASubpath := by
  have hjoin : ∀ reference, (Traced.ofUrl (Url.join
      (Url.File.ofDirectory resolver.workingDirectory package) reference)).Avoids .notASubpath :=
    fun _ => Traced.avoids_ofUrl fun _ => Fault.noConfusion
  unfold resolveInstalled
  split
  · exact Exports.resolve_avoids rfl hsubpath _
  · simp only
    split
    · split
      · exact hjoin _
      · exact hjoin _
    · exact hjoin _

theorem searchInstalled_avoids (hsubpath : subpath = ".".toList ∨ "./".toList.isPrefixOf subpath)
    (name : Text) (directories : List Text) :
    (resolver.searchInstalled name subpath directories).Avoids .notASubpath := by
  have hemit : ∀ events, (Traced.emit events).Avoids .notASubpath := fun _ h => by cases h
  induction directories with
  | nil => exact Traced.avoids_reject _
  | cons directory rest ih =>
      rw [searchInstalled]
      refine (hemit _).bind fun _ => ?_
      split
      · refine (Manifest.find_avoids _ _).bind fun manifest? => ?_
        cases manifest? with
        | none => exact ih
        | some manifest =>
            exact (hemit _).bind fun _ => resolver.resolveInstalled_avoids hsubpath _ manifest
      · exact ih

theorem resolveFromInstalled_avoids
    (hsubpath : subpath = ".".toList ∨ "./".toList.isPrefixOf subpath) (name parent : Text) :
    (resolver.resolveFromInstalled name subpath parent).Avoids .notASubpath := by
  unfold resolveFromInstalled
  split
  · exact Traced.avoids_reject _
  · exact resolver.searchInstalled_avoids hsubpath _ _

theorem resolvePackage_avoids (specifier parent : Text) :
    (resolver.resolvePackage specifier parent).Avoids .notASubpath := by
  unfold resolvePackage
  split
  · exact Traced.avoids_reject _
  · split
    · exact Traced.avoids_pure _
    · split
      · exact Traced.avoids_reject _
      · next package hparse =>
          have hsubpath := Specifier.subpath_of_parse hparse
          refine (resolver.resolveSelf_avoids hsubpath _ parent).bind fun url? => ?_
          cases url? with
          | some url => exact Traced.avoids_pure _
          | none => exact resolver.resolveFromInstalled_avoids hsubpath _ parent

end Lookups

/-- Exactly the bare specifiers are read, and every other text is refused as it is.  Name and
subpath make up the specifier again, so they tell specifiers apart, and the subpath is one that
`exports` can be asked for, from whatever parent the package is looked up. -/
theorem parse_isBare (specifier : Text) :
    ((∃ package, Specifier.parse specifier = .ok package) ↔ Specifier.IsBare specifier) ∧
      (¬Specifier.IsBare specifier ->
        Specifier.parse specifier = .error (.invalidModuleSpecifier specifier)) ∧
      (∀ package, Specifier.parse specifier = .ok package ->
        package.name = Specifier.nameOf specifier ∧
          package.name ++ package.subpath.drop 1 = specifier ∧
          (package.subpath = ".".toList ∨ "./".toList.isPrefixOf package.subpath) ∧
          ¬['/'] <:+ package.subpath ∧
          ∀ other, Specifier.parse other = .ok package -> other = specifier) ∧
      ∀ (resolver : Resolver) parent,
        (resolver.resolvePackage specifier parent).outcome ≠ .error (.fault .notASubpath) := by
  refine ⟨⟨?_, fun hbare => ⟨_, Specifier.parse_eq_ok_iff.2 ⟨hbare, rfl⟩⟩⟩,
    Specifier.parse_of_not_isBare, fun package hparse => ?_,
    fun resolver parent => resolver.resolvePackage_avoids specifier parent⟩
  · rintro ⟨package, hparse⟩
    exact (Specifier.parse_eq_ok_iff.1 hparse).1
  · have hwhole := Specifier.name_append_subpath hparse
    obtain ⟨hbare, hpackage⟩ := Specifier.parse_eq_ok_iff.1 hparse
    refine ⟨by rw [hpackage], hwhole, Specifier.subpath_of_parse hparse, fun hslash => ?_,
      fun other hother => (Specifier.name_append_subpath hother).symm.trans hwhole⟩
    rw [hpackage, ← List.isSuffixOf_iff_suffix] at hslash
    exact hbare.slash_not_last ((Specifier.slash_suffix_subpath_iff hbare.second_segment).1 hslash)

/-- A subpath of a package in a scope is bare, and a scope alone is not. -/
theorem parse_isBare_scoped :
    Specifier.parse "@a/b/c".toList = .ok ⟨"@a/b".toList, "./c".toList⟩ ∧
      (∀ other, Specifier.parse other = .ok ⟨"@a/b".toList, "./c".toList⟩ ->
        other = "@a/b/c".toList) ∧
      ¬Specifier.IsBare "@a".toList := by
  have hparse : Specifier.parse "@a/b/c".toList = .ok ⟨"@a/b".toList, "./c".toList⟩ := rfl
  obtain ⟨-, -, -, -, hunique⟩ := (parse_isBare "@a/b/c".toList).2.2.1 _ hparse
  refine ⟨hparse, hunique, fun hbare => ?_⟩
  obtain ⟨package, hpackage⟩ := (parse_isBare "@a".toList).1.2 hbare
  cases hpackage

end Resolver

end ModuleResolution
