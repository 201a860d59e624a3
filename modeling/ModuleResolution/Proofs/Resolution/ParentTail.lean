import ModuleResolution.Proofs.FileSystem.Manifests
import ModuleResolution.Proofs.Resolution.Enclosing
import ModuleResolution.Proofs.Resolution.Files
import ModuleResolution.Proofs.Resolution.Installed
import ModuleResolution.Proofs.Resolution.SpecifierTail

/-!
# Parents with a query or a fragment

A query or a fragment behind the URL of a parent is dropped wherever the path of the parent counts.
It is seen in two places: whether the URL ends with a slash decides where the search for the scope
begins, and two slashes as a specifier stand for the parent with its query.
-/

namespace ModuleResolution

open Package
open Url (IsUnmarked IsTail IsLocalFile IsSameDocument tidy)

namespace Package

namespace Scope

variable {files : FileSystem}

/-- The scope of a path is the same whether or not the search begins with the path itself: it has no
manifest, or it ends the search and nothing is found above. -/
def PassesOver (files : FileSystem) (path : Text) : Prop :=
  if Path.basename (Path.normalize path) = installDirectory then ofPath? files path = none
  else files.isFile (manifestPath (Path.normalize path)) = false

theorem isName_fileName : Path.IsName Manifest.fileName :=
  ⟨by decide, by decide, by decide, by decide⟩

theorem candidates_join {path : Text} (h : Path.isAbsolute path) :
    candidates (Path.join path Manifest.fileName) = Path.normalize path :: candidates path :=
  Path.ancestors_join_of_isName h isName_fileName

theorem ofPath?_join_eq_iff {path : Text} (h : Path.isAbsolute path) :
    ofPath? files (Path.join path Manifest.fileName) = ofPath? files path ↔
      PassesOver files path := by
  have hjoin := Path.isNormal_normalize (Path.isAbsolute_join h Manifest.fileName)
  have hnodup : (Path.normalize path :: candidates path).Nodup := by
    rw [← candidates_join h]
    exact Path.nodup_ancestors hjoin
  have hfirst : ofPath? files (Path.join path Manifest.fileName) =
      findIn files (Path.normalize path :: candidates path) := by
    rw [ofPath?, candidates_join h]
  rw [hfirst, findIn, PassesOver]
  split
  · exact eq_comm
  · split
    · next hfile =>
        refine iff_of_false (fun heq => ?_) (by rw [hfile]; exact Bool.noConfusion)
        have hmem := (ofPath?_eq_some_iff.1 heq.symm).mem_candidates
        exact (List.nodup_cons.1 hnodup).1 hmem
    · next hfile => exact iff_of_true rfl (by simpa using hfile)

/-- Two URLs of one path have the same scope exactly if they end alike or if it does not matter
whether the search begins with the path itself. -/
theorem ofUrl?_eq_iff {first second path : Text} (hfirst : Url.File.toPath first = .ok path)
    (hsecond : Url.File.toPath second = .ok path) :
    ofUrl? files first = ofUrl? files second ↔
      "/".toList.isSuffixOf first = "/".toList.isSuffixOf second ∨ PassesOver files path := by
  have habsolute := Url.File.isAbsolute_of_toPath hfirst
  have hjoin : ofPath? files (Path.join path Manifest.fileName) = ofPath? files path ↔
      PassesOver files path := ofPath?_join_eq_iff habsolute
  rw [ofUrl?, ofUrl?, pathOfUrl?_of_toPath hfirst, pathOfUrl?_of_toPath hsecond, Option.bind_some,
    Option.bind_some]
  cases hone : "/".toList.isSuffixOf first with
  | true =>
      cases htwo : "/".toList.isSuffixOf second with
      | true => simp
      | false => simp [hjoin]
  | false =>
      cases htwo : "/".toList.isSuffixOf second with
      | true => simp [← hjoin, eq_comm]
      | false => simp

end Scope

end Package

namespace Resolver

variable {resolver : Resolver} {specifier url marked path : Text}

/-! ## Lookups -/

theorem outcome_resolveSelf_congr
    (hscope : Scope.ofUrl? resolver.files marked = Scope.ofUrl? resolver.files url)
    (name subpath : Text) :
    (resolver.resolveSelf name subpath marked).outcome =
      (resolver.resolveSelf name subpath url).outcome := by
  unfold resolveSelf
  rw [Traced.outcome_bind, Traced.outcome_bind, Scope.outcome_findOfUrl, Scope.outcome_findOfUrl,
    hscope]

theorem outcome_resolvePackage_congr
    (hscope : Scope.ofUrl? resolver.files marked = Scope.ofUrl? resolver.files url)
    (hmarked : Url.File.toPath marked = .ok path) (hurl : Url.File.toPath url = .ok path)
    (specifier : Text) :
    (resolver.resolvePackage specifier marked).outcome =
      (resolver.resolvePackage specifier url).outcome := by
  unfold resolvePackage
  split
  · rfl
  · split
    · rfl
    · split
      · rfl
      · rw [Traced.outcome_bind, Traced.outcome_bind, outcome_resolveSelf_congr hscope,
          resolveFromInstalled_of_toPath hmarked, resolveFromInstalled_of_toPath hurl]

theorem outcome_resolveImport_congr
    (hscope : Scope.ofUrl? resolver.files marked = Scope.ofUrl? resolver.files url)
    (specifier : Text) :
    (resolver.resolveImport specifier marked).outcome =
      (resolver.resolveImport specifier url).outcome := by
  have hown : (resolver.resolveOwnImport specifier marked).outcome =
      (resolver.resolveOwnImport specifier url).outcome := by
    unfold resolveOwnImport
    rw [Traced.outcome_bind, Traced.outcome_bind, Scope.outcome_findOfUrl,
      Scope.outcome_findOfUrl, hscope]
  unfold resolveImport
  split
  · rfl
  · split
    · rfl
    · rw [Traced.outcome_bind, Traced.outcome_bind, hown]

/-- From a local file, what a lookup gives is the URL of a specifier that is neither a URL nor a
path. -/
theorem outcome_resolvedUrl_of_lookup (habsolute : Url.isAbsolute specifier = false)
    (hpath : isPathSpecifier specifier = false) (hurl : Url.IsLocal url) :
    (resolver.resolvedUrl specifier url).outcome =
      if "#".toList.isPrefixOf specifier then (resolver.resolveImport specifier url).outcome
      else (resolver.resolvePackage specifier url).outcome := by
  obtain ⟨source, hsource, hscheme, -, -⟩ := hurl
  have hvalue : ∀ run : Traced Text, (∀ value, run.outcome = .ok value -> Url.IsSettled value) ->
      (run >>= fun value =>
        .ofUrl (Url.ofPathOrReference resolver.workingDirectory url value)).outcome =
        run.outcome := by
    intro run hsettled
    cases hrun : run.outcome with
    | error failure => rw [Traced.outcome_bind_of_error hrun]
    | ok value =>
        have hvalue := hsettled value hrun
        rw [Traced.outcome_bind_of_ok hrun, Url.ofPathOrReference, hvalue.1,
          if_neg Bool.false_ne_true, Url.join_of_isSettled hvalue hsource hscheme]
        rfl
  unfold resolvedUrl
  rw [habsolute, hpath, if_neg Bool.false_ne_true, if_neg Bool.false_ne_true]
  split
  · exact hvalue _ fun value h => isSettled_of_resolveImport h
  · exact hvalue _ fun value h => isSettled_of_resolvePackage h

/-! ## Two slashes -/

theorem sameOutcome_classify_ending {base query fragment : Text} (hbase : IsUnmarked base)
    (hfile : Url.protocol? base = some "file:".toList)
    (hquery : ∀ c ∈ query, Url.isBreak c = false)
    (hfragment : ∀ c ∈ fragment, Url.isBreak c = false)
    (hseparator : hasEncodedSeparator query = false) :
    SameOutcome (resolver.classify (base ++ Url.ending query fragment)).outcome
      (resolver.classify (base ++ Url.ending [] fragment)).outcome := by
  have hending : ∀ part, (∀ c ∈ part, Url.isBreak c = false) ->
      Url.protocol? (base ++ Url.ending part fragment) = some "file:".toList ∧
        (Url.File.toPath (base ++ Url.ending part fragment)).toOption =
          (Url.File.toPath base).toOption := by
    intro part hpart
    rcases Url.ending_eq_nil_or_isTail hpart hfragment with hnil | htail
    · rw [hnil, List.append_nil]
      exact ⟨hfile, rfl⟩
    · rw [Url.protocol?_append_of_isTail htail]
      exact ⟨hfile, Url.toPath_append_of_isTail hbase htail⟩
  have hnone : ∀ c ∈ ([] : Text), Url.isBreak c = false := fun _ hc => absurd hc List.not_mem_nil
  obtain ⟨hprotocol, hpath⟩ := hending query hquery
  obtain ⟨hprotocol', hpath'⟩ := hending [] hnone
  refine sameOutcome_classify hprotocol hprotocol' ?_ (hpath.trans hpath'.symm)
  rw [hasEncodedSeparator_append_ending, hasEncodedSeparator_append_ending, hseparator,
    hasEncodedSeparator_nil]

theorem sameOutcome_of_isSameDocument {added : Text} (hpath : isPathSpecifier specifier)
    (hspecifier : IsSameDocument specifier) (hurl : IsUnmarked url)
    (hfile : Url.protocol? url = some "file:".toList) (hadded : added = [] ∨ IsTail added)
    (hseparator : hasEncodedSeparator (Url.referenceQuery added) = false) :
    SameOutcome (resolver.resolveUncached specifier (url ++ added)).outcome
      (resolver.resolveUncached specifier url).outcome := by
  obtain ⟨fragment, hsplit⟩ := hspecifier
  have hresolved : ∀ base, resolver.resolvedUrl specifier base =
      .ofUrl (Url.join base specifier) := fun base => by
    rw [resolvedUrl, Url.isAbsolute_of_isPathSpecifier hpath, if_neg Bool.false_ne_true,
      if_pos hpath]
  unfold resolveUncached
  rw [hresolved, hresolved]
  have hsource := Url.splitFrom_append_tidied hurl hadded
  cases hparts : Url.splitFrom [] url with
  | error cause =>
      rw [hparts] at hsource
      rw [Url.join_of_splitFrom_eq_error hpath hparts, Url.join_of_splitFrom_eq_error hpath hsource]
      exact .refl _
  | ok source =>
      have hscheme := Url.scheme_eq_file hfile hparts
      obtain ⟨hplain, hmarked⟩ :=
        Url.join_append_base_of_split hpath hurl hfile hadded hsplit hparts
      rw [hplain, hmarked]
      have hbase := Url.isUnmarked_toText (Url.parts_isUnmarked hurl hparts)
        (by rw [hscheme]; exact ⟨by decide, by decide⟩)
      have hfragment : fragment ⊆ Url.clean specifier :=
        (Url.isCutFrom_of_splitFrom hsplit).fragment.subset
      exact sameOutcome_classify_ending hbase (Url.protocol?_toText hscheme)
        (fun _ hc => Url.not_isBreak_of_mem_referenceQuery hc)
        (fun _ hc => Url.not_isBreak_of_mem_clean (hfragment hc)) hseparator

/-! ## Requests -/

section Requests

variable {parent tail added : Text}

theorem sameOutcome_resolveUncached (hurl : IsUnmarked url)
    (hfile : Url.protocol? url = some "file:".toList) (hadded : added = [] ∨ IsTail added)
    (hpath : Url.File.toPath url = .ok path) (hmarked : Url.File.toPath (url ++ added) = .ok path)
    (hsame : isPathSpecifier specifier -> IsSameDocument specifier ->
      hasEncodedSeparator (Url.referenceQuery added) = false)
    (hscope : Url.isAbsolute specifier = false -> isPathSpecifier specifier = false ->
      Scope.ofUrl? resolver.files (url ++ added) = Scope.ofUrl? resolver.files url) :
    SameOutcome (resolver.resolveUncached specifier (url ++ added)).outcome
      (resolver.resolveUncached specifier url).outcome := by
  have hequal : (resolver.resolvedUrl specifier (url ++ added)).outcome =
      (resolver.resolvedUrl specifier url).outcome ->
      SameOutcome (resolver.resolveUncached specifier (url ++ added)).outcome
        (resolver.resolveUncached specifier url).outcome := by
    intro h
    refine .of_eq ?_
    rw [resolveUncached, resolveUncached, Traced.outcome_bind, Traced.outcome_bind, h]
  cases habsolute : Url.isAbsolute specifier with
  | true =>
      refine hequal ?_
      rw [resolvedUrl, resolvedUrl, if_pos habsolute, if_pos habsolute]
  | false =>
      cases hisPath : isPathSpecifier specifier with
      | true =>
          by_cases hdocument : IsSameDocument specifier
          · exact sameOutcome_of_isSameDocument hisPath hdocument hurl hfile hadded
              (hsame hisPath hdocument)
          · refine hequal ?_
            rw [resolvedUrl, resolvedUrl, habsolute, if_neg Bool.false_ne_true,
              if_neg Bool.false_ne_true, if_pos hisPath, if_pos hisPath,
              Url.join_append_base_of_not_isSameDocument hisPath hurl hfile hadded hdocument]
      | false =>
          have hscope := hscope habsolute hisPath
          refine hequal ?_
          rw [outcome_resolvedUrl_of_lookup habsolute hisPath (Url.isLocal_of_toPath hmarked),
            outcome_resolvedUrl_of_lookup habsolute hisPath (Url.isLocal_of_toPath hpath),
            outcome_resolveImport_congr hscope, outcome_resolvePackage_congr hscope hmarked hpath]

theorem exists_parentUrl_append (directory : Text) (hparent : IsLocalFile parent)
    (hunmarked : IsUnmarked parent) (htail : IsTail tail) :
    ∃ url added path, parentUrl directory parent = .ok url ∧
      parentUrl directory (parent ++ tail) = .ok (url ++ added) ∧
      (added = [] ∨ IsTail added) ∧ Url.referenceQuery added = Url.referenceQuery tail ∧
      IsUnmarked url ∧ Url.protocol? url = some "file:".toList ∧
      Url.File.toPath url = .ok path ∧ Url.File.toPath (url ++ added) = .ok path := by
  obtain ⟨url, hnormal, hlocal⟩ := hparent.exists_normalize
  obtain ⟨path, hpath⟩ := hlocal.exists_toPath
  obtain ⟨hurl, hfile⟩ := Url.of_normalize_eq_ok hunmarked hparent.protocol hnormal
  obtain ⟨added, hadded, hmarked⟩ := Url.normalize_append_of_isTail hunmarked htail
  have hprotocol : Url.protocol? (parent ++ tail) = some "file:".toList := by
    rw [Url.protocol?_append_of_isTail htail, hparent.protocol]
  have hquery : Url.referenceQuery added = Url.referenceQuery tail := by
    rcases hadded with rfl | rfl
    · rfl
    · exact Url.referenceQuery_tidy tail
  have htailOrNil : added = [] ∨ IsTail added := by
    rcases hadded with rfl | rfl
    · exact .inr htail
    · exact Url.tidy_eq_nil_or_isTail tail
  have hmarkedPath : (Url.File.toPath (url ++ added)).toOption = some path := by
    rcases htailOrNil with rfl | htailOrNil
    · rw [List.append_nil, hpath]
      rfl
    · rw [Url.toPath_append_of_isTail hurl htailOrNil, hpath]
      rfl
  refine ⟨url, added, path, ?_, ?_, htailOrNil, hquery, hurl, hfile, hpath, ?_⟩
  · rw [parentUrl_of_protocol? _ hparent.protocol, hnormal]
  · rw [parentUrl_of_protocol? _ hprotocol, hmarked, hnormal]
    rfl
  · cases hfound : Url.File.toPath (url ++ added) with
    | error cause => rw [hfound] at hmarkedPath; cases hmarkedPath
    | ok other =>
        rw [hfound] at hmarkedPath
        exact congrArg Except.ok (Option.some.inj hmarkedPath)

/-- A query and a fragment behind a local file URL as the parent leave its path as it is.  They
change an outcome only if the query has an escaped separator and the specifier is two slashes, or if
one of the two URLs ends with a slash and the other one does not, and it matters for the scope
whether the search begins with the path itself. -/
theorem sameOutcome_direct_marked (resolver : Resolver) (hparent : IsLocalFile parent)
    (hunmarked : IsUnmarked parent) (htail : IsTail tail) :
    ∃ url marked path,
      parentUrl resolver.workingDirectory parent = .ok url ∧
      parentUrl resolver.workingDirectory (parent ++ tail) = .ok marked ∧
      Url.File.toPath url = .ok path ∧ Url.File.toPath marked = .ok path ∧
      ∀ specifier,
        (isPathSpecifier specifier -> IsSameDocument specifier ->
          hasEncodedSeparator (Url.referenceQuery tail) = false) ->
        (Url.isAbsolute specifier = false -> isPathSpecifier specifier = false ->
          "/".toList.isSuffixOf marked = "/".toList.isSuffixOf url ∨
            Scope.PassesOver resolver.files path) ->
        SameOutcome (resolver.direct ⟨specifier, parent ++ tail⟩)
          (resolver.direct ⟨specifier, parent⟩) := by
  obtain ⟨url, added, path, hparentUrl, hmarkedUrl, hadded, hquery, hurl, hfile, hpath, hmarked⟩ :=
    exists_parentUrl_append resolver.workingDirectory hparent hunmarked htail
  refine ⟨url, url ++ added, path, hparentUrl, hmarkedUrl, hpath, hmarked,
    fun specifier hsame hscope => ?_⟩
  rw [resolver.direct_eq hmarkedUrl, resolver.direct_eq hparentUrl]
  refine sameOutcome_resolveUncached hurl hfile hadded hpath hmarked (hquery ▸ hsame)
    fun habsolute hisPath => ?_
  exact (Scope.ofUrl?_eq_iff hmarked hpath).2 (hscope habsolute hisPath)

end Requests

def namedManifest : Text :=
  "\x7b\"name\":\"a\",\"exports\":\"./m.mjs\"\x7d".toList

def named : Resolver :=
  scripts [("/p/package.json".toList, Text.Utf8.encode namedManifest), ("/p/m.mjs".toList, [])]

theorem candidates_module : Scope.candidates "/p/m.mjs".toList = ["/p".toList, "/".toList] := by
  show Path.ancestors "/p/m.mjs".toList = _
  cbv

theorem direct_named {parent url : Text}
    (hparent : parentUrl named.workingDirectory parent = .ok url) (hlocal : Url.IsLocal url)
    (hscope : Scope.ofUrl? named.files url = some "/p".toList) :
    named.direct ⟨"a".toList, parent⟩ = .ok ⟨"/p/m.mjs".toList, some .module⟩ := by
  have hread : Json.read namedManifest = .ok (.object [("name".toList, .string "a".toList),
      ("exports".toList, .string "./m.mjs".toList)]) := by cbv
  have hown : named.OwnsName url "a".toList "/p".toList
      (Manifest.ofFields [("name".toList, .string "a".toList),
        ("exports".toList, .string "./m.mjs".toList)]) :=
    ⟨hscope, FileSystem.Memory.load_eq (by decide) rfl hread, rfl, rfl⟩
  have hparse : Specifier.parse "a".toList = .ok ⟨"a".toList, ".".toList⟩ := rfl
  have hpackage : (named.resolvePackage "a".toList url).outcome = .ok "file:///p/m.mjs".toList :=
    OwnsName.outcome_resolvePackage rfl hparse hown
  have hresolved : (named.resolvedUrl "a".toList url).outcome = .ok "file:///p/m.mjs".toList :=
    (outcome_resolvedUrl_of_lookup rfl rfl hlocal).trans hpackage
  rw [direct_of_classify hparent hresolved]
  rfl

theorem sameOutcome_direct_marked_module :
    IsLocalFile "file:///p/m.mjs".toList ∧ IsTail "?v=1".toList ∧
      named.direct ⟨"a".toList, "file:///p/m.mjs?v=1".toList⟩ =
        .ok ⟨"/p/m.mjs".toList, some .module⟩ ∧
      named.direct ⟨"./m.mjs".toList, "file:///p/m.mjs?v=1".toList⟩ =
        .ok ⟨"/p/m.mjs".toList, some .module⟩ := by
  have hparent : IsLocalFile "file:///p/m.mjs".toList := ⟨rfl, _, rfl, .inl rfl⟩
  have htail : IsTail "?v=1".toList := Url.isTail_of_all (.inl rfl) rfl
  obtain ⟨url, marked, path, hurl, hmarked, hpath, -, hsame⟩ :=
    sameOutcome_direct_marked named hparent ⟨by decide, by decide⟩ htail
  have hends : "/".toList.isSuffixOf marked = "/".toList.isSuffixOf url := by
    obtain rfl : "file:///p/m.mjs".toList = url := Except.ok.inj hurl
    obtain rfl : "file:///p/m.mjs?v=1".toList = marked := Except.ok.inj hmarked
    rfl
  have hscope : Scope.ofUrl? named.files url = some "/p".toList := by
    obtain rfl : "file:///p/m.mjs".toList = url := Except.ok.inj hurl
    rw [Scope.ofUrl?_eq_findIn rfl candidates_module]
    rfl
  have hname := hsame "a".toList (fun h => absurd h (by decide)) fun _ _ => .inl hends
  have hmodule := hsame "./m.mjs".toList (fun _ _ => rfl) fun _ _ => .inl hends
  rw [direct_named hurl (Url.isLocal_of_toPath hpath) hscope] at hname
  exact ⟨hparent, htail, hname.eq_ok, hmodule.eq_ok⟩

/-- The URL of the directory with a query does not end with a slash, and the package is not in
scope. -/
theorem direct_named_query : named.direct ⟨"a".toList, "file:///p/?v=1".toList⟩ =
    .error (.resolution (.moduleNotFound "a".toList)) := by
  have hnormal : Path.normalize "/p/".toList = "/p".toList := rfl
  have hpath : Url.File.toPath "file:///p/?v=1".toList = .ok "/p/".toList := rfl
  have hscope : Scope.ofUrl? named.files "file:///p/?v=1".toList = none := by
    have hcandidates : Scope.candidates "/p/".toList = ["/".toList] := by
      rw [Scope.candidates, hnormal]
      cbv
    rw [Scope.ofUrl?_eq_findIn rfl hcandidates]
    rfl
  have hdirectories : searchDirectories (Path.normalize "/p/".toList) = ["/p".toList] := by
    rw [hnormal]
    cbv
  have hparse : Specifier.parse "a".toList = .ok ⟨"a".toList, ".".toList⟩ := rfl
  have hpackage : (named.resolvePackage "a".toList "file:///p/?v=1".toList).outcome =
      .error (.resolution (.moduleNotFound "a".toList)) := by
    rw [outcome_resolvePackage_of_ofUrl?_eq_none hscope rfl hparse,
      resolveFromInstalled_of_toPath hpath, hdirectories,
      outcome_searchInstalled_of_not_isInstalled fun h => absurd h.isDirectory (by decide)]
    rfl
  have hparent : parentUrl named.workingDirectory "file:///p/?v=1".toList =
      .ok "file:///p/?v=1".toList := rfl
  rw [named.direct_eq hparent, resolveUncached, Traced.outcome_bind,
    outcome_resolvedUrl_of_lookup rfl rfl (Url.isLocal_of_toPath hpath), hpackage]
  rfl

/-- A query behind the URL of a directory, and a query with an escaped slash behind the parent of
two slashes. -/
theorem not_sameOutcome_direct_marked :
    ¬SameOutcome (named.direct ⟨"a".toList, "file:///p/?v=1".toList⟩)
        (named.direct ⟨"a".toList, "file:///p/".toList⟩) ∧
      ¬SameOutcome (named.direct ⟨"//".toList, "file:///p/m.mjs?%2f".toList⟩)
        (named.direct ⟨"//".toList, "file:///p/m.mjs".toList⟩) := by
  have hcandidates : Scope.candidates "/p/package.json".toList = ["/p".toList, "/".toList] := by
    show Path.ancestors "/p/package.json".toList = _
    cbv
  have hscope : Scope.ofUrl? named.files "file:///p/".toList = some "/p".toList := by
    rw [Scope.ofUrl?_eq_findIn rfl hcandidates]
    rfl
  have hpath : Url.File.toPath "file:///p/".toList = .ok "/p/".toList := rfl
  have hdirectory : named.direct ⟨"a".toList, "file:///p/".toList⟩ =
      .ok ⟨"/p/m.mjs".toList, some .module⟩ :=
    direct_named rfl (Url.isLocal_of_toPath hpath) hscope
  have hslashes : named.direct ⟨"//".toList, "file:///p/m.mjs".toList⟩ =
      .ok ⟨"/p/m.mjs".toList, some .module⟩ := rfl
  have hescaped : named.direct ⟨"//".toList, "file:///p/m.mjs?%2f".toList⟩ =
      .error (.resolution (.invalidModuleSpecifier "file:///p/m.mjs?%2f".toList)) := rfl
  rw [hdirectory, direct_named_query, hslashes, hescaped]
  exact ⟨SameOutcome.not_error_ok _ _, SameOutcome.not_error_ok _ _⟩

end Resolver

end ModuleResolution
