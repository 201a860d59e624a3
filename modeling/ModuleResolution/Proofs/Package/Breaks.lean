import ModuleResolution.Proofs.FileSystem.Tree
import ModuleResolution.Proofs.Package.Leaves
import ModuleResolution.Proofs.Package.Scope
import ModuleResolution.Proofs.Url.Breaks

/-!
# Breaks in targets

What a target gives has a tab or a line break only if the target, the capture or the directory of
the package brings one, as it is or as an escape.  A capture may complete an escape that a target
begins, so texts that are filled have no percent sign at all.
-/

namespace ModuleResolution

open Package
open Url (IsUnbroken ReadsUnbroken IsSolid)

namespace Traced

abbrev GivesUnbroken {α : Type} (good : α -> Prop) (run : Traced α) : Prop :=
  run.Gives good fun error => IsUnbroken error.value

end Traced

/-! ## Manifests -/

namespace Package

/-- The texts of a manifest that end up in URLs have no breaks, and those that may take up a capture
have no escapes. -/
structure Manifest.IsUnbroken (manifest : Manifest) : Prop where
  main : ∀ main ∈ manifest.main, ReadsUnbroken main
  exports : ∀ text, IsLeaf text manifest.exports -> IsSolid text
  imports : ∀ text, IsLeaf text manifest.imports -> IsSolid text

section Find

variable {files : FileSystem} {path directory url : Text}

theorem isUnbroken_of_mem_ancestors (h : Url.IsUnbroken path) (hmem : directory ∈ Path.ancestors path) :
    Url.IsUnbroken directory := by
  fun_induction Path.ancestors path with
  | case1 => cases hmem
  | case2 path _ ih =>
      have hdirname : Url.IsUnbroken (Path.dirname path) :=
        h.of_subset (Path.dirname_isPrefix path).subset
      rcases List.mem_cons.1 hmem with rfl | hmem
      · exact hdirname
      · exact ih hdirname hmem

theorem isUnbroken_of_ofPath? (h : Url.IsUnbroken path)
    (hscope : directory ∈ Scope.ofPath? files path) : Url.IsUnbroken directory :=
  isUnbroken_of_mem_ancestors (Url.isUnbroken_normalize h)
    (Scope.ofPath?_eq_some_iff.1 hscope).mem_candidates

theorem givesUnbroken_find (h : Url.IsUnbroken path) :
    (Scope.find files path).GivesUnbroken fun scope => ∀ directory ∈ scope, Url.IsUnbroken directory :=
  ⟨fun _ hscope _ hmem => by cases hscope; exact isUnbroken_of_ofPath? h hmem,
    fun _ herror => by cases herror⟩

theorem givesUnbroken_findOfUrl (h : ReadsUnbroken url) :
    (Scope.findOfUrl files url).GivesUnbroken fun scope =>
      ∀ directory ∈ scope, Url.IsUnbroken directory := by
  unfold Scope.findOfUrl
  split
  · exact Traced.gives_none
  · next path hpath =>
      refine givesUnbroken_find ?_
      unfold Scope.pathOfUrl? at hpath
      split at hpath
      · cases hpath
      · next named hnamed =>
          cases hpath
          have hunbroken := h.toPath hnamed
          split
          · exact Url.isUnbroken_join hunbroken (by decide)
          · exact hunbroken

/-- The manifests that can be read bring no breaks. -/
def HasUnbrokenManifests (files : FileSystem) : Prop :=
  ∀ directory manifest, Manifest.load files directory = .ok (some manifest) -> manifest.IsUnbroken

theorem hasUnbrokenManifests_toFileSystem {memory : FileSystem.Memory}
    (h : ∀ octets ∈ memory.files.map Prod.snd, ∀ text fields,
      Text.Utf8.decode? octets = some text -> Json.read text = .ok (.object fields) ->
        (Manifest.ofFields fields).IsUnbroken) :
    HasUnbrokenManifests memory.toFileSystem := by
  intro directory manifest hload
  obtain ⟨-, -, text, fields, htext, hread, rfl⟩ := Manifest.load_eq_some_iff.1 hload
  have hoctets := Association.mem_of_get?_eq_some (FileSystem.Memory.readText_eq_ok_iff.1 htext)
  exact h _ (List.mem_map_of_mem hoctets) text fields (Text.Utf8.decode?_encode text) hread

theorem givesUnbroken_manifest (hfiles : HasUnbrokenManifests files)
    (h : Url.IsUnbroken directory) :
    (Manifest.find files directory).GivesUnbroken fun found =>
      ∀ manifest ∈ found, manifest.IsUnbroken := by
  constructor
  · rintro found hfound manifest rfl
    exact hfiles directory manifest hfound
  · intro error herror
    rw [Manifest.eq_of_load_eq_error herror]
    exact h

end Find

/-! ## Targets -/

structure TargetContext.IsUnbroken (context : TargetContext) : Prop where
  workingDirectory : Url.IsUnbroken context.workingDirectory
  package : Url.IsUnbroken context.package
  capture : ∀ capture ∈ context.capture, IsSolid capture
  external : ∀ lookup ∈ context.external, ∀ specifier, IsSolid specifier ->
    (lookup specifier).GivesUnbroken ReadsUnbroken

theorem TargetContext.IsUnbroken.withCapture {context : TargetContext} (h : context.IsUnbroken)
    {capture : Option Text} (hcapture : ∀ captured ∈ capture, IsSolid captured) :
    TargetContext.IsUnbroken { context with capture } :=
  ⟨h.workingDirectory, h.package, hcapture, h.external⟩

namespace Target

variable {context : TargetContext}

section Text

variable (hcontext : context.IsUnbroken)

include hcontext

theorem isSolid_fill {target : Text} (h : IsSolid target) : IsSolid (fill context target) := by
  unfold fill
  split
  · next capture hcapture => exact h.substitute (hcontext.capture capture hcapture) '*'
  · exact h

theorem givesUnbroken_resolvePath {target : Text} (h : IsSolid target) :
    (resolvePath context target).GivesUnbroken ReadsUnbroken := by
  have hpackage := Url.readsUnbroken_ofDirectory hcontext.workingDirectory hcontext.package
  unfold resolvePath
  split
  · exact Traced.gives_reject h.unbroken
  refine Traced.Gives.bind
    (Traced.gives_ofUrl fun url hurl => hpackage.join h.readsUnbroken hurl) fun url hurl => ?_
  split
  · exact Traced.gives_fault _
  split
  · exact Traced.gives_pure hurl
  next capture hcapture =>
    split
    · exact Traced.gives_reject (hcontext.capture capture hcapture).unbroken
    · exact Traced.gives_ofUrl fun filled hfilled =>
        hpackage.join (isSolid_fill hcontext h).readsUnbroken hfilled

theorem givesUnbroken_resolveText {target : Text} (h : IsSolid target) :
    (resolveText context target).GivesUnbroken ReadsUnbroken := by
  unfold resolveText
  split
  · exact givesUnbroken_resolvePath hcontext h
  split
  · exact Traced.gives_reject h.unbroken
  next lookup hlookup =>
    split
    · exact Traced.gives_reject h.unbroken
    · exact hcontext.external lookup hlookup _ (isSolid_fill hcontext h)

theorem isUnbroken_of_check_eq_error (keys : List Text) {error : ResolutionError}
    (h : Keys.check context.package keys = .error error) : Url.IsUnbroken error.value := by
  unfold Keys.check at h
  split at h
  · cases h
  · cases h
    exact hcontext.package

end Text

mutual

theorem givesUnbroken_resolve (hcontext : context.IsUnbroken) : ∀ target : Json,
    (∀ text, IsLeaf text target -> IsSolid text) ->
    (resolve context target).GivesUnbroken fun found => ∀ url ∈ found, ReadsUnbroken url
  | .string text, h => by
      rw [resolve]
      refine Traced.Gives.bind (givesUnbroken_resolveText hcontext (h text .text)) fun url hurl => ?_
      exact Traced.gives_some hurl
  | .object fields, h => by
      rw [resolve]
      split
      · next error hkeys => exact Traced.gives_reject (isUnbroken_of_check_eq_error hcontext _ hkeys)
      · exact givesUnbroken_resolveFirstActive hcontext fields
          fun key value text hmem hleaf => h text (.field hmem hleaf)
  | .array items, h => by
      rw [resolve]
      exact givesUnbroken_resolveFirstItem hcontext items
        fun value text hmem hleaf => h text (.item hmem hleaf)
  | .null, _ => by
      rw [resolve]
      exact Traced.gives_none
  | .bool _, _ => by
      rw [resolve]
      exact Traced.gives_reject hcontext.package
  | .integer _, _ => by
      rw [resolve]
      exact Traced.gives_reject hcontext.package
  | .real _, _ => by
      rw [resolve]
      exact Traced.gives_reject hcontext.package

theorem givesUnbroken_resolveFirstActive (hcontext : context.IsUnbroken) : ∀ fields : Json.Fields,
    (∀ key value text, (key, value) ∈ fields -> IsLeaf text value -> IsSolid text) ->
    (resolveFirstActive context fields).GivesUnbroken fun found => ∀ url ∈ found, ReadsUnbroken url
  | [], _ => by
      rw [resolveFirstActive]
      exact Traced.gives_none
  | (condition, target) :: rest, h => by
      have hrest := givesUnbroken_resolveFirstActive hcontext rest fun key value text hmem =>
        h key value text (List.mem_cons_of_mem _ hmem)
      rw [resolveFirstActive]
      split
      · refine Traced.Gives.bind (givesUnbroken_resolve hcontext target fun text =>
          h condition target text List.mem_cons_self) fun found hfound => ?_
        cases found with
        | none => exact hrest
        | some url => exact Traced.gives_pure hfound
      · exact hrest

theorem givesUnbroken_resolveFirstItem (hcontext : context.IsUnbroken) : ∀ items : List Json,
    (∀ value text, value ∈ items -> IsLeaf text value -> IsSolid text) ->
    (resolveFirstItem context items).GivesUnbroken fun found => ∀ url ∈ found, ReadsUnbroken url
  | [], _ => by
      rw [resolveFirstItem]
      exact Traced.gives_none
  | target :: rest, h => by
      have hfirst := givesUnbroken_resolve hcontext target fun text => h target text List.mem_cons_self
      have hrest := givesUnbroken_resolveFirstItem hcontext rest fun value text hmem =>
        h value text (List.mem_cons_of_mem _ hmem)
      rw [resolveFirstItem]
      split
      · exact hfirst
      · exact hrest.of_outcome_eq rfl
      · split
        · exact hrest.of_outcome_eq rfl
        · exact hfirst

end

end Target

/-! ## Exports and imports -/

theorem capture?_subset {key subject capture : Text}
    (h : PatternKey.capture? key subject = some capture) : capture ⊆ subject := by
  unfold PatternKey.capture? at h
  split at h
  · cases h
  split at h
  · cases h
  split at h
  · cases h
    exact List.Subset.trans (List.drop_subset _ _) (List.take_subset _ _)
  · cases h

section Context

variable {context : TargetContext} (hcontext : context.IsUnbroken)

include hcontext

theorem SubpathMap.givesUnbroken_resolve {fields : Json.Fields} {subject : Text}
    (hsubject : IsSolid subject) (h : ∀ text, IsLeaf text (.object fields) -> IsSolid text) :
    (SubpathMap.resolve context fields subject).GivesUnbroken fun found =>
      ∀ url ∈ found, ReadsUnbroken url := by
  unfold SubpathMap.resolve
  split
  · exact Traced.gives_none
  · next target capture hselect =>
      obtain ⟨key, hmem, hcapture⟩ := SubpathMap.exists_field_of_select? hselect
      have hcaptured : ∀ captured ∈ capture, IsSolid captured := fun captured hc =>
        hsubject.of_subset (capture?_subset (hcapture captured hc))
      exact Target.givesUnbroken_resolve (hcontext.withCapture hcaptured) target
        fun text hleaf => h text (.field hmem hleaf)

theorem Exports.givesUnbroken_resolve {subpath : Text} {exports : Json} (hsubpath : IsSolid subpath)
    (h : ∀ text, IsLeaf text exports -> IsSolid text) :
    (Exports.resolve context subpath exports).GivesUnbroken ReadsUnbroken := by
  have hfound : (Exports.resolve? context subpath exports).GivesUnbroken fun found =>
      ∀ url ∈ found, ReadsUnbroken url := by
    unfold Exports.resolve?
    split
    · simp only
      split
      · have hnone : ∀ captured ∈ (none : Option Text), IsSolid captured := fun _ hmem => by
          cases hmem
        exact Target.givesUnbroken_resolve (hcontext.withCapture hnone) _
          fun text hleaf => h text (Exports.isLeaf_of_mainTarget hleaf)
      · exact Traced.gives_none
    · split
      · exact Traced.gives_none
      · next fields hfields =>
          obtain rfl := Exports.eq_object_of_subpathMap? hfields
          split
          · exact SubpathMap.givesUnbroken_resolve hcontext hsubpath h
          · exact Traced.gives_fault _
  unfold Exports.resolve
  split
  · next error hkeys =>
      unfold Exports.checkKeys at hkeys
      split at hkeys
      · exact Traced.gives_reject (Target.isUnbroken_of_check_eq_error hcontext _ hkeys)
      · cases hkeys
  · refine Traced.Gives.bind hfound fun found hurl => ?_
    cases found with
    | none => exact Traced.gives_reject hsubpath.unbroken
    | some url => exact Traced.gives_pure (hurl url rfl)

end Context

end Package

end ModuleResolution
