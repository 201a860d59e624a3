import ModuleResolution.Command.Record
import ModuleResolution.FileSystem.Memory
import ModuleResolution.Proofs.Cache.Transparency
import ModuleResolution.Proofs.Fault.Lookup

/-!
# Resolutions that stop

Over files in memory and with listed flags a resolution ends with a result or with one of the
resolution errors, unless its lookup stops, or the URL that it comes to names no path, or the
format of the file depends on a manifest with an integer that has too many digits.  A list of
specifiers gets a record for each of them exactly if none of them stops.
-/

namespace ModuleResolution

namespace Resolver

open Package

/-! ## Values of lookups -/

section Values

variable {resolver : Resolver}

theorem isSettled_of_resolvePath {context : TargetContext} {target url : Text}
    (h : (Target.resolvePath context target).outcome = .ok url) : Url.IsSettled url :=
  Url.isSettled_of_join (Url.isFile_ofDirectory _ _) (Target.of_resolvePath_eq_ok h).2.2

theorem isSettled_of_resolveExports {package subpath url : Text} {exports : Json}
    (h : (resolver.resolveExports package subpath exports).outcome = .ok url) :
    Url.IsSettled url := by
  obtain ⟨text, capture, -, htext⟩ := Exports.exists_offers_of_resolve h
  exact isSettled_of_resolvePath (Target.of_resolveText_eq_ok rfl htext).2

theorem isSettled_of_resolveSelf {name subpath parent url : Text}
    (h : (resolver.resolveSelf name subpath parent).outcome = .ok (some url)) :
    Url.IsSettled url := by
  unfold resolveSelf at h
  obtain ⟨scope, -, h⟩ := Traced.exists_some_of_bind rfl h
  obtain ⟨manifest, -, h⟩ := Traced.exists_some_of_bind rfl h
  simp only at h
  split at h
  · obtain ⟨value, hvalue, h⟩ := Traced.outcome_bind_eq_ok.1 h
    cases h
    exact isSettled_of_resolveExports hvalue
  · cases h

theorem isSettled_of_resolveInstalled {package subpath url : Text} {manifest : Manifest}
    (h : (resolver.resolveInstalled package subpath manifest).outcome = .ok url) :
    Url.IsSettled url := by
  have hjoin : ∀ reference, (Traced.ofUrl (Url.join
      (Url.File.ofDirectory resolver.workingDirectory package) reference)).outcome = .ok url ->
      Url.IsSettled url := fun reference hr =>
    Url.isSettled_of_join (Url.isFile_ofDirectory _ _) (Traced.outcome_ofUrl_eq_ok.1 hr)
  unfold resolveInstalled at h
  split at h
  · exact isSettled_of_resolveExports h
  · simp only at h
    split at h
    · split at h
      · exact hjoin _ h
      · exact hjoin _ h
    · exact hjoin _ h

theorem isSettled_of_searchInstalled {name subpath url : Text} {directories : List Text}
    (h : (resolver.searchInstalled name subpath directories).outcome = .ok url) :
    Url.IsSettled url := by
  induction directories with
  | nil => cases h
  | cons directory rest ih =>
      rw [searchInstalled, Traced.outcome_bind_of_ok (Traced.outcome_emit _)] at h
      split at h
      · obtain ⟨manifest, -, h⟩ := Traced.outcome_bind_eq_ok.1 h
        cases manifest with
        | none => exact ih h
        | some manifest =>
            simp only at h
            rw [Traced.outcome_bind_of_ok (Traced.outcome_emit _)] at h
            exact isSettled_of_resolveInstalled h
      · exact ih h

theorem isSettled_of_resolvePackage {specifier parent url : Text}
    (h : (resolver.resolvePackage specifier parent).outcome = .ok url) : Url.IsSettled url := by
  unfold resolvePackage at h
  split at h
  · cases h
  · split at h
    · cases h
      refine Url.isSettled_of_isAbsolute ?_
      have hscheme : Url.scheme? (Core.scheme ++ specifier) = some ("node".toList, specifier) :=
        Url.scheme?_append "node".toList (by decide) (by decide) specifier
      rw [Url.isAbsolute, hscheme]
      rfl
    · split at h
      · cases h
      · next package hpackage =>
          obtain ⟨self, hself, h⟩ := Traced.outcome_bind_eq_ok.1 h
          cases self with
          | some value =>
              cases h
              exact isSettled_of_resolveSelf hself
          | none =>
              simp only [resolveFromInstalled] at h
              split at h
              · cases h
              · exact isSettled_of_searchInstalled h

theorem isSettled_of_importsTarget {scope url : Text} {capture : Option Text} {target : Json}
    (h : (Target.resolve { resolver.importsContext scope with capture } target).outcome =
      .ok (some url)) : Url.IsSettled url := by
  obtain ⟨text, -, htext⟩ := Target.exists_leaf_of_resolve _ _ h
  unfold Target.resolveText at htext
  split at htext
  · exact isSettled_of_resolvePath htext
  · simp only [importsContext, targetContext] at htext
    split at htext
    · cases htext
    · exact isSettled_of_resolvePackage htext

theorem isSettled_of_resolveOwnImport {specifier parent url : Text}
    (h : (resolver.resolveOwnImport specifier parent).outcome = .ok (some url)) :
    Url.IsSettled url := by
  unfold resolveOwnImport at h
  obtain ⟨scope, -, h⟩ := Traced.exists_some_of_bind rfl h
  obtain ⟨manifest, -, h⟩ := Traced.exists_some_of_bind rfl h
  simp only at h
  split at h
  · unfold SubpathMap.resolve at h
    split at h
    · cases h
    · exact isSettled_of_importsTarget h
  · cases h

theorem isSettled_of_resolveImport {specifier parent url : Text}
    (h : (resolver.resolveImport specifier parent).outcome = .ok url) : Url.IsSettled url := by
  unfold resolveImport at h
  split at h
  · cases h
  · split at h
    · cases h
    · obtain ⟨own, hown, h⟩ := Traced.outcome_bind_eq_ok.1 h
      cases own with
      | none => cases h
      | some value =>
          cases h
          exact isSettled_of_resolveOwnImport hown

theorem not_stops_ofPathOrReference {parent value : Text} (hparent : Url.IsFile parent)
    (h : Url.IsSettled value) (directory : Text) :
    ¬(Traced.ofUrl (Url.ofPathOrReference directory parent value)).Stops := by
  rw [Traced.stops_ofUrl, Url.ofPathOrReference, h.1, if_neg Bool.false_ne_true, h.2 parent hparent]
  intro hfails
  obtain ⟨cause, hc⟩ := hfails
  cases hc

end Values

/-! ## Conditions -/

section Conditions

variable (resolver : Resolver)

/-- No URL comes out for a specifier: it is written with a malformed authority, or its lookup
stops. -/
inductive UrlStops (specifier parent : Text) : Prop where
  | written : Url.isAbsolute specifier ∨ isPathSpecifier specifier -> Url.IsMalformed specifier ->
      UrlStops specifier parent
  | imported : Url.isAbsolute specifier = false -> isPathSpecifier specifier = false ->
      "#".toList.isPrefixOf specifier = true -> resolver.ImportStops specifier parent ->
      UrlStops specifier parent
  | package : Url.isAbsolute specifier = false -> isPathSpecifier specifier = false ->
      "#".toList.isPrefixOf specifier = false -> resolver.PackageStops specifier parent ->
      UrlStops specifier parent

/-- The format of a file is not decided by its extension alone. -/
def AsksScope (flags : List Text) (path : Text) : Prop :=
  ".mjs".toList.isSuffixOf path = false ∧ ".cjs".toList.isSuffixOf path = false ∧
    ".json".toList.isSuffixOf path = false ∧
    (".wasm".toList.isSuffixOf path -> Flags.wasmModules ∉ flags)

/-- The manifest that decides the format of a file has an integer with too many digits. -/
def FormatStops (flags : List Text) (path : Text) : Prop :=
  AsksScope flags path ∧ ∃ scope, Scope.ofPath? resolver.files path = some scope ∧
    Manifest.IsOversized resolver.files scope

/-- A URL without an escaped separator is not classified: it has no scheme, it is a file URL that is
not local, or the format of its file cannot be told. -/
inductive ClassifyStops (flags : List Text) (url : Text) : Prop where
  | notAbsolute : hasEncodedSeparator url = false -> Url.protocol? url = none ->
      ClassifyStops flags url
  | path : hasEncodedSeparator url = false -> Url.protocol? url = some "file:".toList ->
      ¬Url.IsLocal url -> ClassifyStops flags url
  | format {path : Text} : hasEncodedSeparator url = false ->
      Url.protocol? url = some "file:".toList -> Url.File.toPath url = .ok path ->
      resolver.files.isDirectory path = false -> resolver.files.isFile path = true ->
      resolver.FormatStops flags path -> ClassifyStops flags url

/-- A request stops: no URL comes out, or the one that does is not classified. -/
inductive RequestStops (flags : List Text) (specifier parent : Text) : Prop where
  | url : resolver.UrlStops specifier parent -> RequestStops flags specifier parent
  | classify {url : Text} : (resolver.resolvedUrl specifier parent).outcome = .ok url ->
      resolver.ClassifyStops flags url -> RequestStops flags specifier parent

variable {resolver} {specifier parent : Text}

theorem urlStops_iff_of_written (h : Url.isAbsolute specifier ∨ isPathSpecifier specifier) :
    resolver.UrlStops specifier parent ↔ Url.IsMalformed specifier := by
  constructor
  · intro hstops
    cases hstops with
    | written _ hmalformed => exact hmalformed
    | imported habsolute hpath => rw [habsolute, hpath] at h; simp at h
    | package habsolute hpath => rw [habsolute, hpath] at h; simp at h
  · exact .written h

theorem urlStops_iff_of_mark (habsolute : Url.isAbsolute specifier = false)
    (hpath : isPathSpecifier specifier = false) (hmark : "#".toList.isPrefixOf specifier) :
    resolver.UrlStops specifier parent ↔ resolver.ImportStops specifier parent := by
  constructor
  · intro hstops
    cases hstops with
    | written hwritten => rw [habsolute, hpath] at hwritten; simp at hwritten
    | imported _ _ _ h => exact h
    | package _ _ hno => rw [hmark] at hno; cases hno
  · exact .imported habsolute hpath hmark

theorem urlStops_iff_of_bare (habsolute : Url.isAbsolute specifier = false)
    (hpath : isPathSpecifier specifier = false) (hmark : "#".toList.isPrefixOf specifier = false) :
    resolver.UrlStops specifier parent ↔ resolver.PackageStops specifier parent := by
  constructor
  · intro hstops
    cases hstops with
    | written hwritten => rw [habsolute, hpath] at hwritten; simp at hwritten
    | imported _ _ hno => rw [hmark] at hno; cases hno
    | package _ _ _ h => exact h
  · exact .package habsolute hpath hmark

end Conditions

section Requests

variable {resolver : Resolver} {flags : List Text}

/-! ## URLs of specifiers -/

theorem resolvedUrl_stops_iff (hfiles : resolver.files.IsReadable) (specifier : Text)
    {parent : Text} (hparent : Url.IsFile parent) :
    (resolver.resolvedUrl specifier parent).Stops ↔ resolver.UrlStops specifier parent := by
  have hvalue : ∀ run : Traced Text, (∀ value, run.outcome = .ok value -> Url.IsSettled value) ->
      ((run >>= fun value =>
        .ofUrl (Url.ofPathOrReference resolver.workingDirectory parent value)).Stops ↔
          run.Stops) := by
    intro run hsettled
    rw [Traced.stops_bind]
    refine or_iff_left ?_
    intro h
    obtain ⟨value, hok, h⟩ := h
    exact not_stops_ofPathOrReference hparent (hsettled value hok) _ h
  unfold resolvedUrl
  cases habsolute : Url.isAbsolute specifier with
  | true =>
      rw [if_pos rfl, Traced.stops_ofUrl, urlStops_iff_of_written (.inl habsolute)]
      constructor
      · rintro ⟨cause, h⟩
        exact ⟨cause, Url.normalize_eq_error_iff.1 h⟩
      · rintro ⟨cause, h⟩
        exact ⟨cause, Url.normalize_eq_error_iff.2 h⟩
  | false =>
      rw [if_neg Bool.false_ne_true]
      cases hpath : isPathSpecifier specifier with
      | true =>
          rw [if_pos rfl, Traced.stops_ofUrl, Url.join_eq_error_iff hparent,
            urlStops_iff_of_written (.inr hpath)]
          exact and_iff_right habsolute
      | false =>
          rw [if_neg Bool.false_ne_true]
          cases hmark : "#".toList.isPrefixOf specifier with
          | true =>
              rw [if_pos rfl, urlStops_iff_of_mark habsolute hpath hmark,
                ← resolveImport_stops_iff hfiles hmark]
              exact hvalue _ fun value h => isSettled_of_resolveImport h
          | false =>
              rw [if_neg Bool.false_ne_true, urlStops_iff_of_bare habsolute hpath hmark,
                ← resolvePackage_stops_iff hfiles]
              exact hvalue _ fun value h => isSettled_of_resolvePackage h

/-! ## Formats -/

theorem scopeFormat_stops_iff (hfiles : resolver.files.IsReadable) (path : Text) :
    (resolver.scopeFormat path).Stops ↔
      ∃ scope, Scope.ofPath? resolver.files path = some scope ∧
        Manifest.IsOversized resolver.files scope := by
  have hfind : (Scope.find resolver.files path).outcome =
      .ok (Scope.ofPath? resolver.files path) := rfl
  unfold scopeFormat
  refine (Traced.stops_bind_of_ok hfind).trans ?_
  cases Scope.ofPath? resolver.files path with
  | none => simp
  | some scope =>
      simp only
      refine (Manifest.find_bind_stops_iff hfiles scope _ ?_).trans ?_
      · exact Traced.not_stops_pure _
      · simp [Manifest.Stops]

theorem outcome_holdsFlag (hflags : resolver.flags = .listed flags) (flag : Text) :
    (Traced.ofOutcome (resolver.holdsFlag flag)).outcome = .ok (flags.contains flag) := by
  unfold holdsFlag
  rw [hflags]
  rfl

theorem formatByScope_stops_iff (hfiles : resolver.files.IsReadable)
    (hflags : resolver.flags = .listed flags) {path : Text} (hfile : resolver.files.isFile path) :
    (resolver.formatByScope path).Stops ↔
      ∃ scope, Scope.ofPath? resolver.files path = some scope ∧
        Manifest.IsOversized resolver.files scope := by
  unfold formatByScope
  rw [Traced.stops_bind, scopeFormat_stops_iff hfiles]
  refine or_iff_left ?_
  intro h
  obtain ⟨format, -, h⟩ := h
  split at h
  · exact Traced.not_stops_pure _ h
  · split at h
    · rw [Traced.stops_bind_of_ok (outcome_holdsFlag hflags _)] at h
      split at h
      · obtain ⟨octets, hoctets⟩ := hfiles.readBytes hfile wasmMagic.length
        have hwasm : (Traced.ofOutcome (resolver.startsLikeWasm path)).outcome =
            .ok (octets == wasmMagic) := by
          rw [Traced.outcome_ofOutcome, startsLikeWasm, hoctets]
        rw [Traced.stops_bind_of_ok hwasm] at h
        split at h
        · exact Traced.not_stops_pure _ h
        · exact Traced.not_stops_pure _ h
      · exact Traced.not_stops_pure _ h
    · exact Traced.not_stops_pure _ h

theorem formatOf_stops_iff (hfiles : resolver.files.IsReadable)
    (hflags : resolver.flags = .listed flags) {path : Text} (hfile : resolver.files.isFile path) :
    (resolver.formatOf path).Stops ↔ resolver.FormatStops flags path := by
  have hscope := formatByScope_stops_iff hfiles hflags hfile
  unfold formatOf FormatStops AsksScope
  rw [hfile, if_neg (by decide)]
  cases hmjs : ".mjs".toList.isSuffixOf path with
  | true => simp
  | false =>
      cases hcjs : ".cjs".toList.isSuffixOf path with
      | true => simp
      | false =>
          cases hjson : ".json".toList.isSuffixOf path with
          | true => simp
          | false =>
              rw [if_neg Bool.false_ne_true, if_neg Bool.false_ne_true, if_neg Bool.false_ne_true]
              cases hwasm : ".wasm".toList.isSuffixOf path with
              | false =>
                  rw [if_neg Bool.false_ne_true, hscope]
                  simp
              | true =>
                  rw [if_pos rfl, Traced.stops_bind_of_ok (outcome_holdsFlag hflags _)]
                  by_cases hflag : Flags.wasmModules ∈ flags
                  · simp [hflag]
                  · have hcontains : flags.contains Flags.wasmModules = false := by simpa using hflag
                    rw [hcontains, if_neg Bool.false_ne_true, hscope]
                    simp [hflag]

/-! ## URLs -/

theorem resolveFile_stops_iff (hfiles : resolver.files.IsReadable)
    (hflags : resolver.flags = .listed flags) (url : Text) :
    (resolver.resolveFile url).Stops ↔
      ¬Url.IsLocal url ∨
        ∃ path, Url.File.toPath url = .ok path ∧ resolver.files.isDirectory path = false ∧
          resolver.files.isFile path ∧ resolver.FormatStops flags path := by
  rw [← Url.toPath_eq_error_iff]
  unfold resolveFile
  cases Url.File.toPath url with
  | error cause => exact iff_of_true (Traced.stops_fail_fault _) (.inl ⟨cause, rfl⟩)
  | ok path =>
      simp only
      rw [Traced.stops_bind_of_ok (Traced.outcome_emit _)]
      cases hd : resolver.files.isDirectory path with
      | true => simp [hd]
      | false =>
          cases hf : resolver.files.isFile path with
          | false => simp [hf]
          | true =>
              simp only [Bool.false_eq_true, if_false, Bool.not_true]
              rw [Traced.stops_bind, formatOf_stops_iff hfiles hflags hf]
              simp [hd, hf]

theorem classify_stops_iff (hfiles : resolver.files.IsReadable)
    (hflags : resolver.flags = .listed flags) (url : Text) :
    (resolver.classify url).Stops ↔ resolver.ClassifyStops flags url := by
  unfold classify
  cases hencoded : hasEncodedSeparator url with
  | true =>
      rw [if_pos rfl]
      refine iff_of_false (Traced.not_stops_reject _) fun h => ?_
      cases h with
      | notAbsolute hno => rw [hencoded] at hno; cases hno
      | path hno => rw [hencoded] at hno; cases hno
      | format hno => rw [hencoded] at hno; cases hno
  | false =>
      rw [if_neg Bool.false_ne_true]
      cases hprotocol : Url.protocol? url with
      | none => exact iff_of_true (Traced.stops_fail_fault _) (.notAbsolute hencoded hprotocol)
      | some protocol =>
          simp only
          by_cases hfile : protocol = "file:".toList
          · subst hfile
            rw [if_pos rfl, resolveFile_stops_iff hfiles hflags]
            constructor
            · intro h
              rcases h with h | ⟨path, h, hdirectory, hisFile, hformat⟩
              · exact .path hencoded hprotocol h
              · exact .format hencoded hprotocol h hdirectory hisFile hformat
            · intro h
              cases h with
              | notAbsolute _ hno => rw [hprotocol] at hno; cases hno
              | path _ _ h => exact .inl h
              | format _ _ h hdirectory hisFile hformat =>
                  exact .inr ⟨_, h, hdirectory, hisFile, hformat⟩
          · rw [if_neg hfile]
            refine iff_of_false ?_ fun h => ?_
            · split
              · exact Traced.not_stops_pure _
              · split
                · split
                  · exact Traced.not_stops_pure _
                  · exact Traced.not_stops_reject _
                · exact Traced.not_stops_pure _
            · cases h with
              | notAbsolute _ hno => rw [hprotocol] at hno; cases hno
              | path _ hno => rw [hprotocol] at hno; exact hfile (Option.some.inj hno)
              | format _ hno => rw [hprotocol] at hno; exact hfile (Option.some.inj hno)

/-! ## Requests -/

theorem resolveUncached_stops_iff (hfiles : resolver.files.IsReadable)
    (hflags : resolver.flags = .listed flags) (specifier : Text) {parent : Text}
    (hparent : Url.IsFile parent) :
    (resolver.resolveUncached specifier parent).Stops ↔
      resolver.RequestStops flags specifier parent := by
  unfold resolveUncached
  rw [Traced.stops_bind, resolvedUrl_stops_iff hfiles specifier hparent]
  simp only [classify_stops_iff hfiles hflags]
  constructor
  · intro h
    rcases h with h | ⟨url, hurl, h⟩
    · exact .url h
    · exact .classify hurl h
  · intro h
    cases h with
    | url h => exact .inl h
    | classify hurl h => exact .inr ⟨_, hurl, h⟩

theorem parentUrl_of_isAbsolute (workingDirectory : Text) {parent : Text}
    (h : Path.isAbsolute parent) :
    ∃ url, parentUrl workingDirectory parent = .ok url ∧ Url.IsFile url := by
  unfold parentUrl
  rw [h]
  simp only [Bool.not_true, Bool.false_and, Bool.false_eq_true, if_false]
  split
  · exact ⟨_, rfl, Url.isFile_ofDirectory _ _⟩
  · exact ⟨_, rfl, Url.isFile_ofPath _ _⟩

end Requests

/-- A request is answered from the cache and leaves it as it is, or it ends as it does without a
cache and at most its own key gets an entry. -/
theorem resolve_cases (resolver : Resolver) {parent url : Text}
    (hurl : parentUrl resolver.workingDirectory parent = .ok url) (cache : Cache)
    (specifier : Text) (useCache : Bool) :
    (useCache = true ∧ Association.get? (Cache.key specifier url) cache.entries ≠ none ∧
        (∃ resolution,
          (resolver.resolve cache specifier parent useCache).1.outcome = .ok resolution) ∧
        (resolver.resolve cache specifier parent useCache).2.entries = cache.entries) ∨
      ((useCache = true -> Association.get? (Cache.key specifier url) cache.entries = none) ∧
        (resolver.resolve cache specifier parent useCache).1.outcome =
          (resolver.resolveUncached specifier url).outcome ∧
        ((resolver.resolve cache specifier parent useCache).2.entries = cache.entries ∨
          ∃ resolution, (resolver.resolve cache specifier parent useCache).2.entries =
            Association.put (Cache.key specifier url) resolution cache.entries)) := by
  have hkey : resolver.key? ⟨specifier, parent⟩ = some (Cache.key specifier url) := by
    simp [key?, hurl]
  have hdirect : resolver.direct ⟨specifier, parent⟩ =
      (resolver.resolveUncached specifier url).outcome := resolver.direct_eq hurl
  cases useCache with
  | false =>
      right
      have hrun : resolver.resolve cache specifier parent false =
          (resolver.resolveReported specifier url, cache) := by simp [resolve, hurl]
      rw [hrun]
      exact ⟨fun h => absurd h Bool.false_ne_true,
        resolver.resolveReported_outcome specifier url, .inl rfl⟩
  | true =>
      cases hentry : Association.get? (Cache.key specifier url) cache.entries with
      | some resolution =>
          left
          obtain ⟨hrun, hentries⟩ := resolver.resolve_of_hit hkey hentry
          exact ⟨rfl, Option.some_ne_none _, ⟨resolution, hrun⟩, hentries⟩
      | none =>
          right
          obtain ⟨hrun, hentries⟩ := resolver.resolve_of_miss hkey hentry
          refine ⟨fun _ => rfl, hrun.trans hdirect, ?_⟩
          cases hd : resolver.direct ⟨specifier, parent⟩ with
          | error failure => rw [hd] at hentries; exact .inl hentries
          | ok resolution => rw [hd] at hentries; exact .inr ⟨resolution, hentries⟩

/-- A specifier stops a request: there is no entry for it that is used, and it stops without one. -/
def SpecifierStops (resolver : Resolver) (flags : List Text) (useCache : Bool) (parent : Text)
    (cache : Cache) (specifier : Text) : Prop :=
  (useCache = true -> Association.get? (Cache.key specifier parent) cache.entries = none) ∧
    resolver.RequestStops flags specifier parent

section Batch

variable {resolver : Resolver} {flags : List Text} {parent url : Text}

theorem resolve_stops_iff_specifierStops (hfiles : resolver.files.IsReadable)
    (hflags : resolver.flags = .listed flags)
    (hurl : parentUrl resolver.workingDirectory parent = .ok url) (hfile : Url.IsFile url)
    (cache : Cache) (specifier : Text) (useCache : Bool) :
    (resolver.resolve cache specifier parent useCache).1.Stops ↔
      resolver.SpecifierStops flags useCache url cache specifier := by
  unfold SpecifierStops
  rw [← resolveUncached_stops_iff hfiles hflags specifier hfile]
  rcases resolve_cases resolver hurl cache specifier useCache with
    ⟨huse, hentry, ⟨resolution, hok⟩, -⟩ | ⟨hentry, hrun, -⟩
  · exact iff_of_false (Traced.not_stops_of_ok hok) fun h => hentry (h.1 huse)
  · unfold Traced.Stops
    rw [hrun]
    exact (and_iff_right hentry).symm

theorem specifierStops_resolve_iff (hurl : parentUrl resolver.workingDirectory parent = .ok url)
    {cache : Cache} {first : Text} {useCache : Bool}
    (hfirst : ¬resolver.SpecifierStops flags useCache url cache first) (specifier : Text) :
    resolver.SpecifierStops flags useCache url
        (resolver.resolve cache first parent useCache).2 specifier ↔
      resolver.SpecifierStops flags useCache url cache specifier := by
  unfold SpecifierStops at hfirst ⊢
  rcases resolve_cases resolver hurl cache first useCache with
    ⟨-, -, -, hentries⟩ | ⟨hentry, -, hentries | ⟨resolution, hentries⟩⟩
  · rw [hentries]
  · rw [hentries]
  · rw [hentries]
    by_cases heq : specifier = first
    · subst heq
      have hstops : ¬resolver.RequestStops flags specifier url := fun h => hfirst ⟨hentry, h⟩
      exact iff_of_false (fun h => hstops h.2) fun h => hstops h.2
    · have hkey : Cache.key specifier url ≠ Cache.key first url := by
        intro h
        exact heq (List.append_cancel_right h)
      rw [Association.get?_put_of_ne hkey]

theorem forall_not_specifierStops_cons (hurl : parentUrl resolver.workingDirectory parent = .ok url)
    {cache : Cache} {first : Text} {useCache : Bool}
    (hfirst : ¬resolver.SpecifierStops flags useCache url cache first) (rest : List Text) :
    (∀ specifier ∈ first :: rest, ¬resolver.SpecifierStops flags useCache url cache specifier) ↔
      ∀ specifier ∈ rest, ¬resolver.SpecifierStops flags useCache url
        (resolver.resolve cache first parent useCache).2 specifier := by
  simp only [specifierStops_resolve_iff hurl hfirst, List.forall_mem_cons]
  exact and_iff_right hfirst

theorem exists_records_cons_iff (events : List Event) (record : Command.Record)
    (rest : Traced (List Command.Record)) (specifiers : List Text) :
    (∃ records, (Traced.after events (do return record :: (<- rest))).outcome = .ok records ∧
        records.map Command.Record.specifier = record.specifier :: specifiers) ↔
      ∃ records, rest.outcome = .ok records ∧
        records.map Command.Record.specifier = specifiers := by
  constructor
  · intro h
    obtain ⟨records, hok, hmap⟩ := h
    obtain ⟨others, hothers, hcons⟩ := Traced.outcome_bind_eq_ok.1 hok
    cases hcons
    exact ⟨others, hothers, (List.cons.inj hmap).2⟩
  · intro h
    obtain ⟨records, hok, hmap⟩ := h
    exact ⟨record :: records, Traced.outcome_bind_eq_ok.2 ⟨records, hok, rfl⟩, by
      rw [List.map_cons, hmap]⟩

theorem ofSpecifiers_iff (hfiles : resolver.files.IsReadable)
    (hflags : resolver.flags = .listed flags)
    (hurl : parentUrl resolver.workingDirectory parent = .ok url) (hfile : Url.IsFile url)
    (useCache : Bool) (cache : Cache) (specifiers : List Text) :
    (∃ records, (Command.Record.ofSpecifiers resolver parent useCache cache
        specifiers).1.outcome = .ok records ∧
        records.map Command.Record.specifier = specifiers) ↔
      ∀ specifier ∈ specifiers, ¬resolver.SpecifierStops flags useCache url cache specifier := by
  induction specifiers generalizing cache with
  | nil => exact iff_of_true ⟨[], rfl, rfl⟩ fun _ h => by cases h
  | cons first rest ih =>
      have hstops :=
        resolve_stops_iff_specifierStops hfiles hflags hurl hfile cache first useCache
      have hrest : ¬(resolver.resolve cache first parent useCache).1.Stops ->
          ((∀ specifier ∈ first :: rest,
            ¬resolver.SpecifierStops flags useCache url cache specifier) ↔
          ∃ records, (Command.Record.ofSpecifiers resolver parent useCache
            (resolver.resolve cache first parent useCache).2 rest).1.outcome = .ok records ∧
            records.map Command.Record.specifier = rest) := by
        intro hrun
        rw [ih]
        exact forall_not_specifierStops_cons hurl (fun h => hrun (hstops.2 h)) rest
      unfold Command.Record.ofSpecifiers
      revert hstops hrest
      generalize resolver.resolve cache first parent useCache = answer
      intro hstops hrest
      obtain ⟨run, after⟩ := answer
      cases houtcome : run.outcome with
      | ok resolution =>
          rw [hrest (Traced.not_stops_of_ok houtcome)]
          simp only [houtcome]
          exact exists_records_cons_iff _ ⟨first, .ok resolution⟩ _ rest
      | error failure =>
          cases failure with
          | fault fault =>
              simp only [houtcome]
              refine iff_of_false ?_ fun h => ?_
              · intro hrecords
                obtain ⟨records, hok, -⟩ := hrecords
                cases hok
              · exact h first List.mem_cons_self (hstops.1 ⟨fault, houtcome⟩)
          | resolution error =>
              rw [hrest (Traced.not_stops_of_resolution houtcome)]
              simp only [houtcome]
              exact exists_records_cons_iff _ ⟨first, .error error⟩ _ rest

end Batch

/-- A resolver with listed flags over files in memory, of which a reader takes those that its limit
on nesting admits. -/
def inMemory (admits : Text -> Bool) (memory : FileSystem.Memory) (conditions flags : List Text)
    (workingDirectory : Text) : Resolver where
  files := memory.toFileSystem.limited admits
  conditions := conditions
  flags := .listed flags
  workingDirectory := workingDirectory

/-- Over files in memory with manifests whose nesting is admitted, with listed flags and a parent
that is an absolute path, a resolution ends with a result or a resolution error exactly if its
specifier does not stop it, and a list of specifiers gets one record for each of them exactly if
none of them stops. -/
theorem resolve_answers_iff {admits : Text -> Bool} {memory : FileSystem.Memory}
    (hadmits : FileSystem.AdmitsManifests admits memory.toFileSystem) (conditions flags : List Text)
    (workingDirectory : Text) {parent : Text} (hparent : Path.isAbsolute parent) (cache : Cache) (useCache : Bool) :
    ∃ url, parentUrl workingDirectory parent = .ok url ∧
      (∀ specifier,
        ((∃ resolution, ((inMemory admits memory conditions flags workingDirectory).resolve cache
            specifier parent useCache).1.outcome = .ok resolution) ∨
          ∃ error, ((inMemory admits memory conditions flags workingDirectory).resolve cache
            specifier parent useCache).1.outcome = .error (.resolution error)) ↔
          ¬(inMemory admits memory conditions flags workingDirectory).SpecifierStops flags useCache
            url cache specifier) ∧
      ∀ specifiers,
        (∃ records, (Command.Record.ofSpecifiers
            (inMemory admits memory conditions flags workingDirectory) parent useCache cache
            specifiers).1.outcome = .ok records ∧
            records.map Command.Record.specifier = specifiers) ↔
          ∀ specifier ∈ specifiers,
            ¬(inMemory admits memory conditions flags workingDirectory).SpecifierStops flags
              useCache url cache specifier := by
  obtain ⟨url, hurl, hfile⟩ := parentUrl_of_isAbsolute workingDirectory hparent
  have hfiles : (inMemory admits memory conditions flags workingDirectory).files.IsReadable :=
    memory.isReadable.limited hadmits
  refine ⟨url, hurl, fun specifier => ?_, ofSpecifiers_iff hfiles rfl hurl hfile useCache cache⟩
  rw [← resolve_stops_iff_specifierStops hfiles rfl hurl hfile]
  unfold Traced.Stops
  cases ((inMemory admits memory conditions flags workingDirectory).resolve cache specifier parent
    useCache).1.outcome with
  | ok resolution => simp
  | error failure => cases failure <;> simp

/-- A module of the runtime and a file that does not exist get a record each. -/
theorem resolve_answers_iff_two_specifiers :
    FileSystem.AdmitsManifests (fun _ => true) FileSystem.Memory.empty.toFileSystem ∧
      Path.isAbsolute "/a.mjs".toList ∧
      ∃ records, (Command.Record.ofSpecifiers (inMemory (fun _ => true) .empty [] [] "/".toList)
          "/a.mjs".toList false .empty ["node:fs".toList, "./b.mjs".toList]).1.outcome =
            .ok records ∧
        records.map Command.Record.specifier = ["node:fs".toList, "./b.mjs".toList] := by
  have hadmits : FileSystem.AdmitsManifests (fun _ => true) FileSystem.Memory.empty.toFileSystem :=
    fun _ _ _ => rfl
  have habsolute : Path.isAbsolute "/a.mjs".toList := rfl
  refine ⟨hadmits, habsolute, ?_⟩
  obtain ⟨url, -, hone, hall⟩ :=
    resolve_answers_iff hadmits [] [] "/".toList habsolute .empty false
  rw [hall]
  intro specifier h
  rw [← hone]
  rcases List.mem_cons.1 h with rfl | h
  · exact .inl ⟨⟨"node:fs".toList, some .builtin⟩, rfl⟩
  · rw [List.mem_singleton.1 h]
    exact .inr ⟨.moduleNotFound "file:///b.mjs".toList, rfl⟩

/-- A file on another host ends neither with a result nor with a resolution error, and the module
after it gets no record. -/
theorem resolve_fault_of_other_host :
    ((inMemory (fun _ => true) .empty [] [] "/".toList).resolve .empty "file://host/x".toList
        "/a.js".toList false).1.outcome =
          .error (.fault (.path (.otherHost "file://host/x".toList))) ∧
      (Command.Record.ofSpecifiers (inMemory (fun _ => true) .empty [] [] "/".toList)
          "/a.js".toList false .empty ["file://host/x".toList, "node:fs".toList]).1.outcome =
        .error (.fault (.path (.otherHost "file://host/x".toList))) :=
  ⟨rfl, rfl⟩

end Resolver

end ModuleResolution
