import ModuleResolution.Proofs.Fault.Kind
import ModuleResolution.Proofs.Resolution.Soundness
import ModuleResolution.Proofs.Url.FileJoin

/-!
# Specifiers with a query or a fragment

A query or a fragment behind a specifier is carried along to the URL, where it is not looked at but
for escaped separators.  Without them the file and its format are those of the specifier alone.
-/

namespace ModuleResolution

open Url (IsUnmarked IsTail tidy)

namespace Resolver

variable {resolver : Resolver}

/-! ## URLs of one file -/

section Files

variable {first second : Text}

theorem sameOutcome_resolveFile
    (h : (Url.File.toPath first).toOption = (Url.File.toPath second).toOption) :
    SameOutcome (resolver.resolveFile first).outcome (resolver.resolveFile second).outcome := by
  unfold resolveFile
  cases hfirst : Url.File.toPath first with
  | error cause =>
      cases hsecond : Url.File.toPath second with
      | error cause' => exact .error rfl
      | ok path => rw [hfirst, hsecond] at h; cases h
  | ok path =>
      cases hsecond : Url.File.toPath second with
      | error cause => rw [hfirst, hsecond] at h; cases h
      | ok other =>
          rw [hfirst, hsecond] at h
          obtain rfl : path = other := Option.some.inj h
          simp only [Traced.outcome_bind_of_ok (Traced.outcome_emit _)]
          split
          · exact .error rfl
          · split
            · exact .error rfl
            · exact .refl _

/-- File URLs are resolved alike if they name one path and both or neither of them have an escaped
separator. -/
theorem sameOutcome_classify (hfirst : Url.protocol? first = some "file:".toList)
    (hsecond : Url.protocol? second = some "file:".toList)
    (hseparator : hasEncodedSeparator first = hasEncodedSeparator second)
    (h : (Url.File.toPath first).toOption = (Url.File.toPath second).toOption) :
    SameOutcome (resolver.classify first).outcome (resolver.classify second).outcome := by
  cases hescaped : hasEncodedSeparator second with
  | true =>
      rw [hescaped] at hseparator
      unfold classify
      rw [hescaped, hseparator]
      exact .error rfl
  | false =>
      rw [hescaped] at hseparator
      rw [outcome_classify_of_protocol hseparator hfirst,
        outcome_classify_of_protocol hescaped hsecond, if_pos rfl, if_pos rfl]
      exact sameOutcome_resolveFile h

end Files

/-! ## URLs with a tail -/

section Tail

variable {specifier parent tail url : Text}

theorem sameOutcome_classify_append (hurl : IsUnmarked url)
    (hfile : Url.protocol? url = some "file:".toList) {added : Text}
    (hadded : added = [] ∨ IsTail added) (hseparator : hasEncodedSeparator added = false) :
    SameOutcome (resolver.classify (url ++ added)).outcome (resolver.classify url).outcome := by
  rcases hadded with rfl | htail
  · rw [List.append_nil]
    exact .refl _
  · refine sameOutcome_classify ?_ hfile ?_ (Url.toPath_append_of_isTail hurl htail)
    · rw [Url.protocol?_append_of_isTail htail, hfile]
    · rw [hasEncodedSeparator_append_of_isTail htail, hseparator, Bool.or_false]

theorem outcome_resolvedUrl_append (resolver : Resolver) (hparent : IsUnmarked parent)
    (hparentFile : Url.protocol? parent = some "file:".toList) (hspecifier : IsUnmarked specifier)
    (hkind : isPathSpecifier specifier ∨ Url.protocol? specifier = some "file:".toList)
    (htail : IsTail tail) :
    ∃ added, (added = tail ∨ added = tidy tail) ∧
      (resolver.resolvedUrl (specifier ++ tail) parent).outcome =
        (resolver.resolvedUrl specifier parent).outcome.map (· ++ added) ∧
      ∀ url, (resolver.resolvedUrl specifier parent).outcome = .ok url ->
        IsUnmarked url ∧ Url.protocol? url = some "file:".toList := by
  have hmap : ∀ (outcome : Except Url.SyntaxError Text) (added : Text),
      (Traced.ofUrl (outcome.map (· ++ added))).outcome =
        (Traced.ofUrl outcome).outcome.map (· ++ added) := by
    intro outcome added
    cases outcome <;> rfl
  unfold resolvedUrl
  rcases hkind with hpath | hfile
  · refine ⟨tidy tail, .inr rfl, ?_, fun url hurl => ?_⟩
    · rw [Url.isAbsolute_of_isPathSpecifier hpath, Url.isAbsolute_of_isPathSpecifier
        (Url.isPathSpecifier_append hpath tail), if_neg Bool.false_ne_true,
        if_neg Bool.false_ne_true, if_pos hpath, if_pos (Url.isPathSpecifier_append hpath tail),
        Url.join_append_of_isTail hpath hspecifier htail hparent hparentFile, hmap]
    · rw [Url.isAbsolute_of_isPathSpecifier hpath, if_neg Bool.false_ne_true, if_pos hpath] at hurl
      obtain ⟨hprotocol, hunmarked⟩ :=
        Url.of_join_eq_ok hpath hparentFile (Traced.outcome_ofUrl_eq_ok.1 hurl)
      exact ⟨hunmarked hparent hspecifier, hprotocol⟩
  · have hboth : Url.protocol? (specifier ++ tail) = some "file:".toList := by
      rw [Url.protocol?_append_of_isTail htail, hfile]
    obtain ⟨added, hadded, hnormalize⟩ := Url.normalize_append_of_isTail hspecifier htail
    refine ⟨added, hadded, ?_, fun url hurl => ?_⟩
    · rw [(Url.isAbsolute_of_protocol? hfile).1, (Url.isAbsolute_of_protocol? hboth).1,
        if_pos rfl, if_pos rfl, hnormalize, hmap]
    · rw [(Url.isAbsolute_of_protocol? hfile).1, if_pos rfl] at hurl
      exact Url.of_normalize_eq_ok hspecifier hfile (Traced.outcome_ofUrl_eq_ok.1 hurl)

theorem parentUrl_of_protocol? (directory : Text)
    (h : Url.protocol? parent = some "file:".toList) :
    parentUrl directory parent = Url.File.normalize parent := by
  obtain ⟨habsolute, hpath⟩ := Url.isAbsolute_of_protocol? h
  rw [parentUrl, habsolute, hpath]
  rfl

/-- A specifier that is a path or a file URL resolves with a query and a fragment as it does without
them, if they have no escaped separator. -/
theorem sameOutcome_direct_append (resolver : Resolver)
    (hparent : Url.protocol? parent = some "file:".toList) (hparentUnmarked : IsUnmarked parent)
    (hspecifier : isPathSpecifier specifier ∨ Url.protocol? specifier = some "file:".toList)
    (hspecifierUnmarked : IsUnmarked specifier) (htail : IsTail tail)
    (hseparator : hasEncodedSeparator tail = false) :
    SameOutcome (resolver.direct ⟨specifier ++ tail, parent⟩)
      (resolver.direct ⟨specifier, parent⟩) := by
  have hurl := parentUrl_of_protocol? resolver.workingDirectory hparent
  cases hnormal : Url.File.normalize parent with
  | error cause =>
      rw [hnormal] at hurl
      unfold direct resolve
      rw [hurl]
      exact .refl _
  | ok url =>
      rw [hnormal] at hurl
      obtain ⟨hunmarked, hfile⟩ := Url.of_normalize_eq_ok hparentUnmarked hparent hnormal
      obtain ⟨added, hadded, houtcome, hresolved⟩ := outcome_resolvedUrl_append resolver
        hunmarked hfile hspecifierUnmarked hspecifier htail
      rw [resolver.direct_eq hurl, resolver.direct_eq hurl]
      unfold resolveUncached
      cases hrun : (resolver.resolvedUrl specifier url).outcome with
      | error failure =>
          rw [hrun] at houtcome
          rw [Traced.outcome_bind_of_error hrun, Traced.outcome_bind_of_error houtcome]
          exact .refl _
      | ok found =>
          rw [hrun] at houtcome
          obtain ⟨hfound, hfoundFile⟩ := hresolved found hrun
          rw [Traced.outcome_bind_of_ok hrun, Traced.outcome_bind_of_ok houtcome]
          rcases hadded with rfl | rfl
          · exact sameOutcome_classify_append hfound hfoundFile (.inr htail) hseparator
          · refine sameOutcome_classify_append hfound hfoundFile
              (Url.tidy_eq_nil_or_isTail tail) ?_
            rw [hasEncodedSeparator_tidy htail, hseparator]

/-- A tail with segments, a colon and further marks behind a path, and an empty query behind a file
URL that is written anew. -/
theorem sameOutcome_direct_append_script :
    (Url.protocol? "file:///p/b.js".toList = some "file:".toList ∧
      isPathSpecifier "./a.mjs".toList ∧ hasEncodedSeparator "?v=/../x:#?%2e".toList = false ∧
      (scripts [("/p/a.mjs".toList, [])]).direct
          ⟨"./a.mjs?v=/../x:#?%2e".toList, "file:///p/b.js".toList⟩ =
        .ok ⟨"/p/a.mjs".toList, some .module⟩) ∧
    (Url.protocol? "file:/p/a.mjs".toList = some "file:".toList ∧
      (scripts [("/p/a.mjs".toList, [])]).direct
          ⟨"file:/p/a.mjs?#x".toList, "file:///p/b.js".toList⟩ =
        .ok ⟨"/p/a.mjs".toList, some .module⟩) := by
  have hparent : Url.protocol? "file:///p/b.js".toList = some "file:".toList := rfl
  have hparentUnmarked : IsUnmarked "file:///p/b.js".toList := ⟨by decide, by decide⟩
  have hpath : isPathSpecifier "./a.mjs".toList := rfl
  have hfile : Url.protocol? "file:/p/a.mjs".toList = some "file:".toList := rfl
  have hseparator : hasEncodedSeparator "?v=/../x:#?%2e".toList = false := rfl
  have htail : IsTail "?v=/../x:#?%2e".toList := Url.isTail_of_all (.inl rfl) rfl
  have htail' : IsTail "?#x".toList := Url.isTail_of_all (.inl rfl) rfl
  have hfirst := sameOutcome_direct_append (scripts [("/p/a.mjs".toList, [])]) hparent
    hparentUnmarked (.inl hpath) ⟨by decide, by decide⟩ htail hseparator
  have hsecond := sameOutcome_direct_append (scripts [("/p/a.mjs".toList, [])]) hparent
    hparentUnmarked (.inr hfile) ⟨by decide, by decide⟩ htail' rfl
  exact ⟨⟨hparent, hpath, hseparator, hfirst.eq_ok⟩, hfile, hsecond.eq_ok⟩

end Tail

end Resolver

end ModuleResolution
