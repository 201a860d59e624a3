import ModuleResolution.Proofs.Cache.Transparency
import ModuleResolution.Proofs.Package.Breaks
import ModuleResolution.Proofs.Package.Specifier

/-!
# Breaks in answers

Tabs and line breaks come into a resolved path or the message of an error from the specifier, from
the URL of the parent, from the working directory or from a manifest, as they are or as escapes.
Where none of these has any, a resolution has none either.
-/

namespace ModuleResolution

open Package
open Url (IsUnbroken ReadsUnbroken IsSolid)

namespace Package

theorem isUnbroken_installedAt {directory name : Text} (h : Url.IsUnbroken directory)
    (hname : Url.IsUnbroken name) : Url.IsUnbroken (Resolver.installedAt directory name) :=
  Url.isUnbroken_normalize
    (Url.isUnbroken_join (Url.isUnbroken_join h (by decide)) hname)

theorem isSolid_of_parse {specifier : Text} {package : Specifier} (h : IsSolid specifier)
    (hparse : Specifier.parse specifier = .ok package) :
    IsSolid package.name ∧ IsSolid package.subpath := by
  have happend := Specifier.name_append_subpath hparse
  have hname : package.name ⊆ specifier := happend ▸ List.subset_append_left _ _
  have hrest : package.subpath.drop 1 ⊆ specifier := happend ▸ List.subset_append_right _ _
  have hsubpath : package.subpath = '.' :: package.subpath.drop 1 := by
    obtain ⟨-, rfl⟩ := Specifier.parse_eq_ok_iff.1 hparse
    rfl
  have hsolid := h.of_subset hrest
  refine ⟨h.of_subset hname, ?_⟩
  rw [hsubpath]
  exact ⟨hsolid.unbroken.cons (by decide), fun hmem =>
    (List.mem_cons.1 hmem).elim (by decide) hsolid.percent⟩

end Package

/-! ## Resolutions -/

structure Resolver.IsUnbroken (resolver : Resolver) : Prop where
  workingDirectory : Url.IsUnbroken resolver.workingDirectory
  manifests : HasUnbrokenManifests resolver.files

/-- A specifier brings no breaks, and one that may be captured has no escapes. -/
structure BringsNoBreak (specifier : Text) : Prop where
  reads : ReadsUnbroken specifier
  percent : Url.isAbsolute specifier = false -> isPathSpecifier specifier = false ->
    '%' ∉ specifier

namespace Resolver

variable {resolver : Resolver} (h : resolver.IsUnbroken)

include h

section Lookup

variable {package subpath name specifier parent : Text} {manifest : Manifest}

theorem givesUnbroken_resolveExports (hpackage : Url.IsUnbroken package)
    (hsubpath : IsSolid subpath) (hmanifest : manifest.IsUnbroken) :
    (resolver.resolveExports package subpath manifest.exports).GivesUnbroken ReadsUnbroken :=
  Exports.givesUnbroken_resolve
    ⟨h.workingDirectory, hpackage, (fun _ hmem => by cases hmem), (fun _ hmem => by cases hmem)⟩
    hsubpath hmanifest.exports

theorem givesUnbroken_resolveSelf (hsubpath : IsSolid subpath) (hparent : ReadsUnbroken parent) :
    (resolver.resolveSelf name subpath parent).GivesUnbroken fun found =>
      ∀ url ∈ found, ReadsUnbroken url := by
  unfold resolveSelf
  refine Traced.Gives.bind (givesUnbroken_findOfUrl hparent) fun found hscope => ?_
  cases found with
  | none => exact Traced.gives_none
  | some scope =>
      have hscope := hscope scope rfl
      refine Traced.Gives.bind (givesUnbroken_manifest h.manifests hscope) fun found hfound => ?_
      cases found with
      | none => exact Traced.gives_none
      | some manifest =>
          simp only
          split
          · refine Traced.Gives.bind (givesUnbroken_resolveExports h hscope hsubpath
              (hfound manifest rfl)) fun url hurl => ?_
            exact Traced.gives_some hurl
          · exact Traced.gives_none

theorem givesUnbroken_resolveInstalled (hpackage : Url.IsUnbroken package)
    (hsubpath : IsSolid subpath) (hmanifest : manifest.IsUnbroken) :
    (resolver.resolveInstalled package subpath manifest).GivesUnbroken ReadsUnbroken := by
  have hdirectory := Url.readsUnbroken_ofDirectory h.workingDirectory hpackage
  have hsub : (Traced.ofUrl (Url.join (Url.File.ofDirectory resolver.workingDirectory package)
      subpath)).GivesUnbroken ReadsUnbroken :=
    Traced.gives_ofUrl fun url hurl => hdirectory.join hsubpath.readsUnbroken hurl
  unfold resolveInstalled
  split
  · exact givesUnbroken_resolveExports h hpackage hsubpath hmanifest
  simp only
  split
  · next main hmain =>
      split
      · exact Traced.gives_ofUrl fun url hurl => hdirectory.join (hmanifest.main main hmain) hurl
      · exact hsub
  · exact hsub

theorem givesUnbroken_searchInstalled (hname : IsSolid name) (hsubpath : IsSolid subpath)
    {directories : List Text} (hdirectories : ∀ directory ∈ directories, Url.IsUnbroken directory) :
    (resolver.searchInstalled name subpath directories).GivesUnbroken ReadsUnbroken := by
  induction directories with
  | nil =>
      exact Traced.gives_reject
        (Url.isUnbroken_normalize (Url.isUnbroken_join hname.unbroken hsubpath.unbroken))
  | cons directory rest ih =>
      have hpackage := isUnbroken_installedAt (hdirectories directory List.mem_cons_self)
        hname.unbroken
      have hrest := ih fun other hother => hdirectories other (List.mem_cons_of_mem _ hother)
      rw [searchInstalled]
      refine Traced.Gives.bind (Traced.gives_emit _) fun _ _ => ?_
      split
      · refine Traced.Gives.bind (givesUnbroken_manifest h.manifests hpackage)
          fun found hfound => ?_
        cases found with
        | none => exact hrest
        | some manifest =>
            exact Traced.Gives.bind (Traced.gives_emit _) fun _ _ =>
              givesUnbroken_resolveInstalled h hpackage hsubpath (hfound manifest rfl)
      · exact hrest

theorem givesUnbroken_resolveFromInstalled (hname : IsSolid name) (hsubpath : IsSolid subpath)
    (hparent : ReadsUnbroken parent) :
    (resolver.resolveFromInstalled name subpath parent).GivesUnbroken ReadsUnbroken := by
  unfold resolveFromInstalled
  split
  · exact Traced.gives_reject
      (Url.isUnbroken_normalize (Url.isUnbroken_join hname.unbroken hsubpath.unbroken))
  · next path hpath =>
      have hstart := Url.isUnbroken_normalize (hparent.toPath hpath)
      refine givesUnbroken_searchInstalled h hname hsubpath fun directory hdirectory => ?_
      rcases List.mem_cons.1 (List.mem_filter.1 hdirectory).1 with rfl | hmem
      · exact hstart
      · exact isUnbroken_of_mem_ancestors hstart hmem

theorem givesUnbroken_resolvePackage (hspecifier : IsSolid specifier)
    (hparent : ReadsUnbroken parent) :
    (resolver.resolvePackage specifier parent).GivesUnbroken ReadsUnbroken := by
  unfold resolvePackage
  split
  · exact Traced.gives_reject hspecifier.unbroken
  split
  · have hnode : ReadsUnbroken "node".toList := IsSolid.readsUnbroken ⟨by decide, by decide⟩
    exact Traced.gives_pure
      (Url.readsUnbroken_append_cons (c := ':') (by decide) hnode hspecifier.readsUnbroken)
  split
  · next error herror =>
      rw [Specifier.parse_eq_error herror]
      exact Traced.gives_reject hspecifier.unbroken
  · next package hpackage =>
      obtain ⟨hname, hsubpath⟩ := isSolid_of_parse hspecifier hpackage
      refine Traced.Gives.bind (givesUnbroken_resolveSelf h hsubpath hparent) fun found hfound => ?_
      cases found with
      | none => exact givesUnbroken_resolveFromInstalled h hname hsubpath hparent
      | some url => exact Traced.gives_pure (hfound url rfl)

theorem givesUnbroken_resolveOwnImport (hspecifier : IsSolid specifier)
    (hparent : ReadsUnbroken parent) :
    (resolver.resolveOwnImport specifier parent).GivesUnbroken fun found =>
      ∀ url ∈ found, ReadsUnbroken url := by
  unfold resolveOwnImport
  refine Traced.Gives.bind (givesUnbroken_findOfUrl hparent) fun found hscope => ?_
  cases found with
  | none => exact Traced.gives_none
  | some scope =>
      have hscope := hscope scope rfl
      refine Traced.Gives.bind (givesUnbroken_manifest h.manifests hscope) fun found hfound => ?_
      cases found with
      | none => exact Traced.gives_none
      | some manifest =>
          have himports := (hfound manifest rfl).imports
          have hdirectory := Url.readsUnbroken_ofDirectory h.workingDirectory hscope
          simp only
          split
          · next fields hfields =>
              rw [hfields] at himports
              refine SubpathMap.givesUnbroken_resolve ⟨h.workingDirectory, hscope,
                (fun _ hmem => by cases hmem), fun lookup hlookup other hother => ?_⟩
                hspecifier himports
              cases hlookup
              exact givesUnbroken_resolvePackage h hother hdirectory
          · exact Traced.gives_none

theorem givesUnbroken_resolveImport (hspecifier : IsSolid specifier)
    (hparent : ReadsUnbroken parent) :
    (resolver.resolveImport specifier parent).GivesUnbroken ReadsUnbroken := by
  unfold resolveImport
  split
  · exact Traced.gives_fault _
  split
  · exact Traced.gives_reject hspecifier.unbroken
  refine Traced.Gives.bind (givesUnbroken_resolveOwnImport h hspecifier hparent)
    fun found hfound => ?_
  cases found with
  | none => exact Traced.gives_reject hspecifier.unbroken
  | some url => exact Traced.gives_pure (hfound url rfl)

theorem givesUnbroken_ofPathOrReference {value : Text} (hvalue : ReadsUnbroken value)
    (hparent : ReadsUnbroken parent) :
    (Traced.ofUrl (Url.ofPathOrReference resolver.workingDirectory parent value)).GivesUnbroken
      ReadsUnbroken := by
  refine Traced.gives_ofUrl fun url hurl => ?_
  unfold Url.ofPathOrReference at hurl
  split at hurl
  · cases hurl
    exact Url.readsUnbroken_ofPath h.workingDirectory hvalue.isUnbroken
  · exact hparent.join hvalue hurl

theorem givesUnbroken_resolvedUrl (hspecifier : BringsNoBreak specifier)
    (hparent : ReadsUnbroken parent) :
    (resolver.resolvedUrl specifier parent).GivesUnbroken ReadsUnbroken := by
  unfold resolvedUrl
  split
  · exact Traced.gives_ofUrl fun url hurl => hspecifier.reads.normalize hurl
  next habsolute =>
  split
  · exact Traced.gives_ofUrl fun url hurl => hparent.join hspecifier.reads hurl
  next hpath =>
  have hsolid : IsSolid specifier := ⟨hspecifier.reads.isUnbroken,
    hspecifier.percent (by simpa using habsolute) (by simpa using hpath)⟩
  split
  · exact Traced.Gives.bind (givesUnbroken_resolveImport h hsolid hparent)
      fun value hvalue => givesUnbroken_ofPathOrReference h hvalue hparent
  · exact Traced.Gives.bind (givesUnbroken_resolvePackage h hsolid hparent)
      fun value hvalue => givesUnbroken_ofPathOrReference h hvalue hparent

end Lookup

/-! ### Files -/

section Files

variable {path url specifier parent : Text}

theorem givesUnbroken_scopeFormat (hpath : Url.IsUnbroken path) :
    (resolver.scopeFormat path).GivesUnbroken fun _ => True := by
  unfold scopeFormat
  refine Traced.Gives.bind (givesUnbroken_find hpath) fun found hscope => ?_
  cases found with
  | none => exact Traced.gives_pure trivial
  | some scope =>
      refine Traced.Gives.bind (givesUnbroken_manifest h.manifests (hscope scope rfl))
        fun found _ => ?_
      cases found with
      | none => exact Traced.gives_pure trivial
      | some manifest => exact Traced.gives_pure trivial

omit h in
theorem givesUnbroken_holdsFlag (resolver : Resolver) (flag : Text) :
    (Traced.ofOutcome (resolver.holdsFlag flag)).GivesUnbroken fun _ => True := by
  refine ⟨fun _ _ => trivial, fun error herror => ?_⟩
  rw [Traced.outcome_ofOutcome, holdsFlag] at herror
  cases hflag : resolver.flags.holds flag with
  | ok value => rw [hflag] at herror; cases herror
  | error cause => rw [hflag] at herror; cases herror

omit h in
theorem givesUnbroken_startsLikeWasm (resolver : Resolver) (path : Text) :
    (Traced.ofOutcome (resolver.startsLikeWasm path)).GivesUnbroken fun _ => True := by
  refine ⟨fun _ _ => trivial, fun error herror => ?_⟩
  rw [Traced.outcome_ofOutcome, startsLikeWasm] at herror
  split at herror
  · cases herror
  · cases herror

theorem givesUnbroken_formatByScope (hpath : Url.IsUnbroken path) :
    (resolver.formatByScope path).GivesUnbroken fun _ => True := by
  unfold formatByScope
  refine Traced.Gives.bind (givesUnbroken_scopeFormat h hpath) fun format _ => ?_
  split
  · exact Traced.gives_pure trivial
  split
  · refine Traced.Gives.bind (givesUnbroken_holdsFlag resolver _) fun allowed _ => ?_
    split
    · refine Traced.Gives.bind (givesUnbroken_startsLikeWasm resolver path) fun magic _ => ?_
      split
      · exact Traced.gives_pure trivial
      · exact Traced.gives_pure trivial
    · exact Traced.gives_pure trivial
  · exact Traced.gives_pure trivial

theorem givesUnbroken_formatOf (hpath : Url.IsUnbroken path) :
    (resolver.formatOf path).GivesUnbroken fun _ => True := by
  have hscope := givesUnbroken_formatByScope h hpath
  unfold formatOf
  split
  · exact Traced.gives_fault _
  split
  · exact Traced.gives_pure trivial
  split
  · exact Traced.gives_pure trivial
  split
  · exact Traced.gives_pure trivial
  split
  · refine Traced.Gives.bind (givesUnbroken_holdsFlag resolver _) fun allowed _ => ?_
    split
    · exact Traced.gives_pure trivial
    · exact hscope
  · exact hscope

theorem givesUnbroken_classify (hurl : ReadsUnbroken url) :
    (resolver.classify url).GivesUnbroken fun resolution => Url.IsUnbroken resolution.path := by
  have hunbroken := hurl.isUnbroken
  unfold classify
  split
  · exact Traced.gives_reject hunbroken
  split
  · exact Traced.gives_fault _
  split
  · unfold resolveFile
    split
    · exact Traced.gives_fault _
    next path hpath =>
    have hpath := hurl.toPath hpath
    refine Traced.Gives.bind (Traced.gives_emit _) fun _ _ => ?_
    split
    · exact Traced.gives_reject hunbroken
    split
    · exact Traced.gives_reject hunbroken
    · exact Traced.Gives.bind (givesUnbroken_formatOf h hpath) fun _ _ => Traced.gives_pure hpath
  split
  · exact Traced.gives_pure hunbroken
  split
  · split
    · exact Traced.gives_pure hunbroken
    · exact Traced.gives_reject hunbroken
  · exact Traced.gives_pure hunbroken

theorem givesUnbroken_resolveUncached (hspecifier : BringsNoBreak specifier)
    (hparent : ReadsUnbroken parent) :
    (resolver.resolveUncached specifier parent).GivesUnbroken fun resolution =>
      Url.IsUnbroken resolution.path :=
  Traced.Gives.bind (givesUnbroken_resolvedUrl h hspecifier hparent)
    fun _ hurl => givesUnbroken_classify h hurl

omit h in
theorem readsUnbroken_parentUrl {workingDirectory : Text} (hworking : Url.IsUnbroken workingDirectory)
    (hparent : ReadsUnbroken parent) (hurl : parentUrl workingDirectory parent = .ok url) :
    ReadsUnbroken url := by
  unfold parentUrl at hurl
  split at hurl
  · exact hparent.normalize hurl
  split at hurl
  · cases hurl
    exact Url.readsUnbroken_ofDirectory hworking hparent.isUnbroken
  · cases hurl
    exact Url.readsUnbroken_ofPath hworking hparent.isUnbroken

theorem isUnbroken_of_direct {request : Request} (hspecifier : BringsNoBreak request.specifier)
    (hparent : ReadsUnbroken request.parent) :
    (∀ resolution, resolver.direct request = .ok resolution -> Url.IsUnbroken resolution.path) ∧
      ∀ error, resolver.direct request = .error (.resolution error) ->
        Url.IsUnbroken error.value := by
  cases hurl : parentUrl resolver.workingDirectory request.parent with
  | error cause =>
      rw [resolver.direct_of_parentUrl_eq_error hurl]
      exact ⟨fun _ hok => (nomatch hok), fun _ herror => (nomatch herror)⟩
  | ok url =>
      have hgives := givesUnbroken_resolveUncached h hspecifier
        (readsUnbroken_parentUrl h.workingDirectory hparent hurl)
      rw [resolver.direct_eq hurl]
      exact ⟨hgives.result, hgives.error⟩

end Files

end Resolver

end ModuleResolution
