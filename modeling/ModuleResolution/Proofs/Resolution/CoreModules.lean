import ModuleResolution.Proofs.Fault.Resolution
import ModuleResolution.Proofs.FileSystem.Manifests
import ModuleResolution.Proofs.Resolution.Installed
import ModuleResolution.Proofs.Resolution.Soundness
import ModuleResolution.Proofs.Url.FileJoin

/-!
# Modules of the runtime

An answer with the format of a module of the runtime is a `node:` URL.  No reference is joined to
one, so behind a specifier that is no URL it stands for the name of such a module, or it is the
`main` of an installed package as it is written there.
-/

namespace ModuleResolution

open Package

namespace Package

theorem Manifest.main_ne_nil {files : FileSystem} {directory main : Text} {manifest : Manifest}
    (hload : load files directory = .ok (some manifest)) (hmain : manifest.main = some main) :
    main ≠ [] := by
  obtain ⟨-, -, text, fields, -, -, rfl⟩ := load_eq_some_iff.1 hload
  have hkept := (Option.filter_eq_some_iff.1 hmain).2
  rintro rfl
  cases hkept

end Package

namespace Url

theorem eq_of_join_node {base reference protocol url : Text}
    (hbase : protocol? base = some protocol)
    (hne : reference ≠ []) (h : join base reference = .ok url)
    (hnode : protocol? url = some "node:".toList) : url = reference :=
  eq_of_join_eq_ok hbase hne h (show protocol? url = some ("node".toList ++ [':']) from hnode)
    (by decide)

theorem protocol?_ne_node_of_join {base protocol url rest : Text} {c : Char}
    (hbase : protocol? base = some protocol) (hc : isLetter c = false)
    (h : join base (c :: rest) = .ok url) : protocol? url ≠ some "node:".toList := by
  intro hnode
  rw [eq_of_join_node hbase (List.cons_ne_nil c rest) h hnode, protocol?,
    scheme?_eq_none hc] at hnode
  cases hnode

end Url

namespace Resolver

variable {resolver : Resolver} {specifier parent name seeker path url : Text}

/-! ## The nearest installed package -/

theorem exists_isNearestAbove {files : FileSystem} {start : Text} {steps : Nat}
    (h : IsFoundAbove files start name steps) :
    ∃ nearest, IsNearestAbove files start name nearest := by
  induction steps using Nat.strongRecOn with
  | ind steps ih =>
      by_cases hfewer : ∃ fewer < steps, IsFoundAbove files start name fewer
      · obtain ⟨fewer, hlt, hfound⟩ := hfewer
        exact ih fewer hlt hfound
      · exact ⟨steps, h, fun fewer hlt hfound => hfewer ⟨fewer, hlt, hfound⟩⟩

theorem exists_nearest_of_resolveFromInstalled {subpath value : Text}
    (h : (resolver.resolveFromInstalled name subpath seeker).outcome = .ok value) :
    ∃ path steps, Url.File.toPath seeker = .ok path ∧
      IsNearestAbove resolver.files (Path.normalize path) name steps ∧
      ByManifest resolver (installedAt (Path.up (Path.normalize path) steps) name) subpath
        (.ok value) := by
  cases hpath : Url.File.toPath seeker with
  | error cause =>
      rw [resolveFromInstalled, hpath] at h
      cases h
  | ok path =>
      rw [resolveFromInstalled_of_toPath hpath] at h
      by_cases hfound : ∃ steps, IsFoundAbove resolver.files (Path.normalize path) name steps
      · obtain ⟨steps, hsteps⟩ := hfound
        obtain ⟨nearest, hnearest⟩ := exists_isNearestAbove hsteps
        have hdecides := resolver.outcome_searchInstalled_of_nearest subpath hnearest
        rw [h] at hdecides
        exact ⟨path, nearest, rfl, hnearest, hdecides⟩
      · rw [outcome_searchInstalled_of_forall_not fun steps hsteps => hfound ⟨steps, hsteps⟩] at h
        cases h

/-! ## Where `node:` URLs come from -/

/-- The bare name, looked up from here, is that of an installed package without `exports`, and the
text is its `main`. -/
inductive LeadsToMain (resolver : Resolver) (bare seeker main : Text) : Prop where
  | intro {name path : Text} {steps : Nat} {manifest : Manifest} :
      Specifier.parse bare = .ok ⟨name, ".".toList⟩ ->
      Url.File.toPath seeker = .ok path ->
      IsNearestAbove resolver.files (Path.normalize path) name steps ->
      Manifest.load resolver.files (installedAt (Path.up (Path.normalize path) steps) name) =
        .ok (some manifest) ->
      manifest.hasExports = false -> manifest.main = some main ->
      LeadsToMain resolver bare seeker main

/-- The bare texts that are looked up for a specifier, and from where: the specifier itself, or the
text of a target that it selects in the `imports` around its parent, with the capture in it. -/
inductive LooksUp (resolver : Resolver) (specifier parent : Text) : Text -> Text -> Prop where
  | itself : "#".toList.isPrefixOf specifier = false -> LooksUp resolver specifier parent specifier
      parent
  | target {scope text : Text} {manifest : Manifest} {fields : Json.Fields} {target : Json}
      {capture : Option Text} :
      Scope.ofUrl? resolver.files parent = some scope ->
      Manifest.load resolver.files scope = .ok (some manifest) ->
      manifest.imports = .object fields ->
      SubpathMap.select? fields specifier = some (target, capture) ->
      IsLeaf text target -> Target.NamesPackage text ->
      LooksUp resolver specifier parent
        (Target.fill { resolver.importsContext scope with capture } text)
        (Url.File.ofDirectory resolver.workingDirectory scope)

section Values

theorem protocol?_ofDirectory (directory path : Text) :
    Url.protocol? (Url.File.ofDirectory directory path) = some "file:".toList := by
  obtain ⟨rest, hrest, -, -⟩ := Url.isFile_ofDirectory directory path
  rw [hrest]
  exact Url.protocol?_file_append ('/' :: '/' :: rest)

theorem protocol?_ne_node_of_resolvePath {context : TargetContext} {target : Text}
    (hpath : "./".toList.isPrefixOf target)
    (h : (Target.resolvePath context target).outcome = .ok url) :
    Url.protocol? url ≠ some "node:".toList := by
  obtain ⟨rest, rfl⟩ := List.isPrefixOf_iff_prefix.1 hpath
  have hjoin := (Target.of_resolvePath_eq_ok h).2.2
  have hfill : Target.fill context ("./".toList ++ rest) = '.' :: '/' :: Target.fill context rest :=
    Target.fill_dotSlash context rest
  rw [hfill] at hjoin
  exact Url.protocol?_ne_node_of_join (protocol?_ofDirectory _ _) (by decide) hjoin

theorem protocol?_ne_node_of_resolveExports {package subpath : Text} {exports : Json}
    (h : (resolver.resolveExports package subpath exports).outcome = .ok url) :
    Url.protocol? url ≠ some "node:".toList := by
  obtain ⟨text, capture, -, htext⟩ := Exports.exists_offers_of_resolve h
  obtain ⟨hpath, htarget⟩ := Target.of_resolveText_eq_ok rfl htext
  exact protocol?_ne_node_of_resolvePath hpath htarget

theorem protocol?_ne_node_of_resolveSelf {subpath : Text}
    (h : (resolver.resolveSelf name subpath parent).outcome = .ok (some url)) :
    Url.protocol? url ≠ some "node:".toList := by
  unfold resolveSelf at h
  obtain ⟨scope, -, h⟩ := Traced.exists_some_of_bind rfl h
  obtain ⟨manifest, -, h⟩ := Traced.exists_some_of_bind rfl h
  simp only at h
  split at h
  · obtain ⟨value, hvalue, h⟩ := Traced.outcome_bind_eq_ok.1 h
    cases h
    exact protocol?_ne_node_of_resolveExports hvalue
  · cases h

theorem of_byManifest_node {package subpath : Text}
    (hsubpath : subpath = ".".toList ∨ "./".toList.isPrefixOf subpath)
    (h : ByManifest resolver package subpath (.ok url))
    (hnode : Url.protocol? url = some "node:".toList) :
    subpath = ".".toList ∧ ∃ manifest, Manifest.load resolver.files package = .ok (some manifest) ∧
      manifest.hasExports = false ∧ manifest.main = some url := by
  have hdirectory := protocol?_ofDirectory resolver.workingDirectory package
  generalize hresult : (Except.ok url : Except Failure Text) = result at h
  cases h with
  | unreadable hload => cases hresult
  | exports hload hexports =>
      exact absurd hnode (protocol?_ne_node_of_resolveExports hresult.symm)
  | main hload hexports hdot hmain =>
      have hjoin := Traced.outcome_ofUrl_eq_ok.1 hresult.symm
      have hself := Url.eq_of_join_node hdirectory (Manifest.main_ne_nil hload hmain) hjoin hnode
      exact ⟨hdot, _, hload, hexports, hself ▸ hmain⟩
  | subpath hload hexports hmain =>
      have hjoin := Traced.outcome_ofUrl_eq_ok.1 hresult.symm
      obtain ⟨rest, rfl⟩ : ∃ rest, subpath = '.' :: rest := by
        rcases hsubpath with rfl | hprefix
        · exact ⟨[], rfl⟩
        · obtain ⟨rest, rfl⟩ := List.isPrefixOf_iff_prefix.1 hprefix
          exact ⟨'/' :: rest, rfl⟩
      exact absurd hnode (Url.protocol?_ne_node_of_join hdirectory (by decide) hjoin)

/-- A bare name gives a `node:` URL as the name of a module of the runtime or of a package whose
`main` is that URL. -/
theorem of_resolvePackage_node (h : (resolver.resolvePackage name seeker).outcome = .ok url)
    (hnode : Url.protocol? url = some "node:".toList) :
    (Core.isBuiltin name ∧ url = Core.scheme ++ name) ∨ resolver.LeadsToMain name seeker url := by
  cases hbuiltin : Core.isBuiltin name with
  | true =>
      rw [resolvePackage_of_isBuiltin hbuiltin] at h
      exact .inl ⟨rfl, (Except.ok.inj h).symm⟩
  | false =>
      right
      cases hparse : Specifier.parse name with
      | error error =>
          unfold resolvePackage at h
          rw [hbuiltin, hparse] at h
          split at h <;> cases h
      | ok package =>
          rw [resolvePackage_of_parse hbuiltin hparse] at h
          obtain ⟨self, hself, h⟩ := Traced.outcome_bind_eq_ok.1 h
          cases self with
          | some value =>
              cases h
              exact absurd hnode (protocol?_ne_node_of_resolveSelf hself)
          | none =>
              obtain ⟨path, steps, hpath, hnearest, hdecides⟩ :=
                exists_nearest_of_resolveFromInstalled h
              obtain ⟨hdot, manifest, hload, hexports, hmain⟩ :=
                of_byManifest_node (Specifier.subpath_of_parse hparse) hdecides hnode
              obtain ⟨packageName, subpath⟩ := package
              obtain rfl : subpath = ".".toList := hdot
              exact .intro hparse hpath hnearest hload hexports hmain

theorem of_resolveImport_node (h : (resolver.resolveImport specifier parent).outcome = .ok url)
    (hnode : Url.protocol? url = some "node:".toList) :
    ∃ bare seeker, resolver.LooksUp specifier parent bare seeker ∧
      ((Core.isBuiltin bare ∧ url = Core.scheme ++ bare) ∨
        resolver.LeadsToMain bare seeker url) := by
  have hown : (resolver.resolveOwnImport specifier parent).outcome = .ok (some url) := by
    unfold resolveImport at h
    split at h
    · cases h
    · split at h
      · cases h
      · obtain ⟨own, hown, h⟩ := Traced.outcome_bind_eq_ok.1 h
        cases own with
        | none => cases h
        | some value =>
            cases h
            exact hown
  unfold resolveOwnImport at hown
  obtain ⟨scope, hscope, hown⟩ := Traced.exists_some_of_bind rfl hown
  obtain ⟨manifest, hload, hown⟩ := Traced.exists_some_of_bind rfl hown
  have hscope : Scope.ofUrl? resolver.files parent = some scope :=
    Except.ok.inj ((Scope.outcome_findOfUrl _ _).symm.trans hscope)
  have hload : Manifest.load resolver.files scope = .ok (some manifest) := hload
  simp only at hown
  split at hown
  · next fields himports =>
      unfold SubpathMap.resolve at hown
      split at hown
      · cases hown
      · next target capture hselect =>
          obtain ⟨text, hleaf, htext⟩ := Target.exists_leaf_of_resolve _ _ hown
          rcases Target.resolveText_eq_ok_iff.1 htext with ⟨hpath, htext⟩ | ⟨hname, htext⟩
          · exact absurd hnode (protocol?_ne_node_of_resolvePath hpath htext)
          · obtain ⟨lookup, hlookup, htext⟩ := htext
            cases hlookup
            exact ⟨_, _, .target hscope hload himports hselect hleaf hname,
              of_resolvePackage_node htext hnode⟩
  · cases hown

end Values

/-! ## Requests -/

theorem exists_protocol_of_parentUrl {directory : Text} (h : parentUrl directory parent = .ok url) :
    ∃ protocol, Url.protocol? url = some protocol := by
  have hfile : ∀ base, Url.IsFile base -> ∃ protocol, Url.protocol? base = some protocol := by
    rintro base ⟨rest, rfl, -, -⟩
    exact ⟨_, Url.protocol?_file_append ('/' :: '/' :: rest)⟩
  unfold parentUrl at h
  split at h
  · next habsolute =>
      have hscheme : ∃ protocol, Url.protocol? parent = some protocol := by
        rw [Bool.and_eq_true, Url.isAbsolute] at habsolute
        cases hscheme : Url.scheme? parent with
        | none =>
            rw [hscheme] at habsolute
            cases habsolute.2
        | some found => exact ⟨_, congrArg (Option.map _) hscheme⟩
      cases hparts : Url.split parent with
      | error cause =>
          rw [Url.File.normalize, hparts] at h
          cases h
      | ok parts =>
          rw [Url.normalize_of_split hparts] at h
          split at h
          · exact Except.ok.inj h ▸ hscheme
          · split at h
            · exact Except.ok.inj h ▸ hscheme
            · rw [← Except.ok.inj h]
              unfold Url.Parts.anew
              rw [List.append_assoc, List.append_assoc]
              exact ⟨_, Url.protocol?_file_append ('/' :: '/' :: _)⟩
  · split at h
    · exact Except.ok.inj h ▸ hfile _ (Url.isFile_ofDirectory _ _)
    · exact Except.ok.inj h ▸ hfile _ (Url.isFile_ofPath _ _)

theorem of_classify_builtin (h : (resolver.classify url).outcome = .ok ⟨path, some .builtin⟩) :
    path = url ∧ Url.protocol? url = some "node:".toList := by
  obtain ⟨kind, hkind⟩ := exists_describes_of_classify h
  cases kind with
  | file => exact absurd rfl hkind.2.2.2.2.1
  | core => exact ⟨congrArg Resolution.path hkind.2, hkind.1⟩
  | data =>
      obtain ⟨-, -, type, format, -, hmem, hformat⟩ := hkind
      have hnone : ∀ entry ∈ AnswerKind.mediaFormats, entry.2 ≠ .builtin := by decide
      exact absurd (Option.some.inj hformat).symm (hnone _ hmem)
  | other => cases congrArg Resolution.format hkind.2

theorem eq_of_ofPathOrReference_node {directory value protocol : Text}
    (hparent : Url.protocol? parent = some protocol) (hvalue : Url.IsSettled value)
    (h : Url.ofPathOrReference directory parent value = .ok url)
    (hnode : Url.protocol? url = some "node:".toList) : url = value := by
  have hne : value ≠ [] := by
    rintro rfl
    cases hvalue.2 _ (Url.isFile_ofPath "/".toList "/".toList)
  rw [Url.ofPathOrReference, hvalue.1, if_neg Bool.false_ne_true] at h
  exact Url.eq_of_join_node hparent hne h hnode

theorem of_resolvedUrl_node {protocol : Text} (hparent : Url.protocol? parent = some protocol)
    (habsolute : Url.isAbsolute specifier = false)
    (h : (resolver.resolvedUrl specifier parent).outcome = .ok url)
    (hnode : Url.protocol? url = some "node:".toList) :
    ∃ bare seeker, resolver.LooksUp specifier parent bare seeker ∧
      ((Core.isBuiltin bare ∧ url = Core.scheme ++ bare) ∨
        resolver.LeadsToMain bare seeker url) := by
  unfold resolvedUrl at h
  rw [habsolute, if_neg Bool.false_ne_true] at h
  cases hpath : isPathSpecifier specifier with
  | true =>
      obtain ⟨c, rest, rfl, hc⟩ := Url.File.exists_of_isPathSpecifier hpath
      rw [hpath, if_pos rfl] at h
      have hletter : Url.isLetter c = false := by rcases hc with rfl | rfl <;> decide
      exact absurd hnode
        (Url.protocol?_ne_node_of_join hparent hletter (Traced.outcome_ofUrl_eq_ok.1 h))
  | false =>
      rw [hpath, if_neg Bool.false_ne_true] at h
      cases hmark : "#".toList.isPrefixOf specifier with
      | true =>
          rw [hmark, if_pos rfl] at h
          obtain ⟨value, hvalue, h⟩ := Traced.outcome_bind_eq_ok.1 h
          obtain rfl := eq_of_ofPathOrReference_node hparent (isSettled_of_resolveImport hvalue)
            (Traced.outcome_ofUrl_eq_ok.1 h) hnode
          exact of_resolveImport_node hvalue hnode
      | false =>
          rw [hmark, if_neg Bool.false_ne_true] at h
          obtain ⟨value, hvalue, h⟩ := Traced.outcome_bind_eq_ok.1 h
          obtain rfl := eq_of_ofPathOrReference_node hparent (isSettled_of_resolvePackage hvalue)
            (Traced.outcome_ofUrl_eq_ok.1 h) hnode
          exact ⟨specifier, parent, .itself hmark, of_resolvePackage_node hvalue hnode⟩

/-- Where a specifier that is no URL has an answer with the format of a module of the runtime, the
answer is a `node:` URL, and a bare text is looked up for it.  Unless this text is the name of such a
module with its scheme already, it is the name without the scheme, which the answer puts in front, or
that of an installed package whose `main` is the answer. -/
theorem direct_builtin (resolver : Resolver) (habsolute : Url.isAbsolute specifier = false)
    (h : resolver.direct ⟨specifier, parent⟩ = .ok ⟨path, some .builtin⟩) :
    Url.protocol? path = some "node:".toList ∧
    ∃ url bare seeker, parentUrl resolver.workingDirectory parent = .ok url ∧
      resolver.LooksUp specifier url bare seeker ∧
      ((bare ∈ Core.names ∧ path = Core.scheme ++ bare) ∨
        (Core.scheme.isPrefixOf bare ∧ Core.isBuiltin bare) ∨
        resolver.LeadsToMain bare seeker path) := by
  obtain ⟨success, hsuccess⟩ := exists_success_of_direct h
  have hclassify := success.classify_eq
  rw [hsuccess] at hclassify
  obtain ⟨rfl, hnode⟩ := of_classify_builtin hclassify
  obtain ⟨protocol, hprotocol⟩ := exists_protocol_of_parentUrl success.parentUrl_eq
  refine ⟨hnode, ?_⟩
  obtain ⟨bare, seeker, hlooks, hcore | hmain⟩ :=
    of_resolvedUrl_node hprotocol habsolute success.resolvedUrl_eq hnode
  · refine ⟨success.parent, bare, seeker, success.parentUrl_eq, hlooks, ?_⟩
    obtain ⟨hbuiltin, hurl⟩ := hcore
    cases hscheme : Core.scheme.isPrefixOf bare with
    | true => exact .inr (.inl ⟨rfl, hbuiltin⟩)
    | false =>
        rw [Core.isBuiltin, hscheme, if_neg Bool.false_ne_true] at hbuiltin
        exact .inl ⟨List.contains_iff_mem.1 hbuiltin, hurl⟩
  · exact ⟨success.parent, bare, seeker, success.parentUrl_eq, hlooks, .inr (.inr hmain)⟩

def mainManifest : Text :=
  "\x7b\"main\":\"node:bogus\"\x7d".toList

def withMain : Resolver :=
  overMemory
    ⟨[("/p/node_modules/dep/package.json".toList, Text.Utf8.encode mainManifest)],
      ["/p/node_modules/dep".toList, "/p/node_modules".toList, "/p".toList, "/".toList]⟩

theorem direct_builtin_fs :
    Url.isAbsolute "fs".toList = false ∧
      withMain.direct ⟨"fs".toList, "/p/x.js".toList⟩ =
        .ok ⟨"node:fs".toList, some .builtin⟩ ∧
      ∃ url bare seeker, parentUrl withMain.workingDirectory "/p/x.js".toList = .ok url ∧
        withMain.LooksUp "fs".toList url bare seeker ∧
        ((bare ∈ Core.names ∧ "node:fs".toList = Core.scheme ++ bare) ∨
          (Core.scheme.isPrefixOf bare ∧ Core.isBuiltin bare) ∨
          withMain.LeadsToMain bare seeker "node:fs".toList) := by
  have hdirect : withMain.direct ⟨"fs".toList, "/p/x.js".toList⟩ =
      .ok ⟨"node:fs".toList, some .builtin⟩ := rfl
  exact ⟨rfl, hdirect, (direct_builtin withMain rfl hdirect).2⟩

theorem outcome_resolvePackage_withMain :
    (withMain.resolvePackage "dep".toList "file:///p/x.js".toList).outcome =
      .ok "node:bogus".toList := by
  have hpath : Url.File.toPath "file:///p/x.js".toList = .ok "/p/x.js".toList := rfl
  have hscope : Scope.ofUrl? withMain.files "file:///p/x.js".toList = none := by
    have hcandidates : Scope.candidates "/p/x.js".toList = ["/p".toList, "/".toList] := by
      show Path.ancestors "/p/x.js".toList = _
      cbv
    rw [Scope.ofUrl?_eq_findIn rfl hcandidates]
    rfl
  have hdirectories : searchDirectories (Path.normalize "/p/x.js".toList) =
      ["/p/x.js".toList, "/p".toList] := by
    have hnormal : Path.normalize "/p/x.js".toList = "/p/x.js".toList := rfl
    rw [hnormal]
    cbv
  have hread : Json.read mainManifest =
      .ok (.object [("main".toList, .string "node:bogus".toList)]) := by cbv
  have hload : Manifest.load withMain.files (installedAt "/p".toList "dep".toList) =
      .ok (some (Manifest.ofFields [("main".toList, .string "node:bogus".toList)])) :=
    FileSystem.Memory.load_eq (by decide) rfl hread
  have hinstalled : IsInstalled withMain.files (installedAt "/p".toList "dep".toList) := ⟨rfl, rfl⟩
  have hdecides : ByManifest withMain (installedAt "/p".toList "dep".toList) ".".toList
      (withMain.searchInstalled "dep".toList ".".toList ["/p".toList]).outcome :=
    outcome_searchInstalled_cons hinstalled []
  have hparse : Specifier.parse "dep".toList = .ok ⟨"dep".toList, ".".toList⟩ := rfl
  rw [outcome_resolvePackage_of_ofUrl?_eq_none hscope rfl hparse,
    resolveFromInstalled_of_toPath hpath, hdirectories,
    outcome_searchInstalled_of_not_isInstalled fun h => absurd h.isDirectory (by decide)]
  exact hdecides.unique (.main hload rfl rfl rfl)

/-- The answer is a `node:` URL without the name of a module behind its scheme. -/
theorem direct_builtin_bogus :
    Url.isAbsolute "dep".toList = false ∧
      withMain.direct ⟨"dep".toList, "/p/x.js".toList⟩ =
        .ok ⟨"node:bogus".toList, some .builtin⟩ ∧
      ∀ name, name ∈ Core.names ∨ name ∈ Core.schemeOnlyNames ->
        "node:bogus".toList ≠ Core.scheme ++ name := by
  have hresolved : (withMain.resolvedUrl "dep".toList "file:///p/x.js".toList).outcome =
      .ok "node:bogus".toList := by
    rw [resolvedUrl, if_neg (by decide), if_neg (by decide), if_neg (by decide),
      Traced.outcome_bind_of_ok outcome_resolvePackage_withMain]
    rfl
  have hdirect : withMain.direct ⟨"dep".toList, "/p/x.js".toList⟩ =
      (withMain.classify "node:bogus".toList).outcome := direct_of_classify rfl hresolved
  have hother : "bogus".toList ∉ Core.names ∧ "bogus".toList ∉ Core.schemeOnlyNames := by
    decide +kernel
  refine ⟨rfl, hdirect.trans rfl, fun name hname heq => ?_⟩
  have happend : Core.scheme ++ "bogus".toList = Core.scheme ++ name := heq
  obtain rfl := List.append_cancel_left happend
  exact hname.elim hother.1 hother.2

end Resolver

end ModuleResolution
