import ModuleResolution.Proofs.Cache.Transparency
import ModuleResolution.Proofs.FileSystem.Manifests
import ModuleResolution.Proofs.Package.Editing
import ModuleResolution.Proofs.Resolution.Format
import ModuleResolution.Proofs.Resolution.Installed

/-!
# Where `imports` count

The `imports` of a package count for its own specifiers with `#` in front and for nothing else.  The
two runs compared here are over file systems that differ only in the `imports` of manifests: a
target in `imports` is looked up as a bare name, so it never comes back to a map of `imports`.
-/

namespace ModuleResolution

open Package

namespace Package

/-! ## Targets with other lookups -/

namespace Target

variable (context : TargetContext) {first second : Text -> Traced Text}

theorem outcome_resolveText_congr (h : ∀ name, (second name).outcome = (first name).outcome)
    (text : Text) :
    (resolveText { context with external := some second } text).outcome =
      (resolveText { context with external := some first } text).outcome := by
  unfold resolveText
  split
  · rfl
  · simp only
    split
    · rfl
    · exact h _

omit context in
theorem outcome_fallBack_congr {item item' next next' : Traced (Option Text)}
    (hitem : item'.outcome = item.outcome) (hnext : next'.outcome = next.outcome) (last : Bool) :
    (fallBack last item' next').outcome = (fallBack last item next).outcome := by
  unfold fallBack
  rw [hitem]
  split
  · exact hnext
  · exact hitem

mutual

theorem outcome_resolve_congr (h : ∀ name, (second name).outcome = (first name).outcome) :
    ∀ target : Json,
    (resolve { context with external := some second } target).outcome =
      (resolve { context with external := some first } target).outcome
  | .string text => by
      rw [resolve, resolve, Traced.outcome_bind, Traced.outcome_bind,
        outcome_resolveText_congr context h]
  | .object fields => by
      rw [resolve, resolve]
      simp only
      cases Keys.check context.package (fields.map Prod.fst) with
      | error error => rfl
      | ok _ => exact outcome_resolveFirstActive_congr h fields
  | .array items => by
      rw [resolve, resolve]
      exact outcome_resolveFirstItem_congr h items
  | .null => by rw [resolve, resolve]
  | .bool _ => by rw [resolve, resolve]
  | .integer _ => by rw [resolve, resolve]
  | .real _ => by rw [resolve, resolve]

theorem outcome_resolveFirstActive_congr
    (h : ∀ name, (second name).outcome = (first name).outcome) :
    ∀ fields : Json.Fields,
    (resolveFirstActive { context with external := some second } fields).outcome =
      (resolveFirstActive { context with external := some first } fields).outcome
  | [] => by rw [resolveFirstActive, resolveFirstActive]
  | (condition, target) :: rest => by
      have hrest := outcome_resolveFirstActive_congr h rest
      rw [resolveFirstActive, resolveFirstActive]
      have hactive : isActive { context with external := some second } condition =
          isActive { context with external := some first } condition := rfl
      rw [hactive]
      split
      · refine Traced.outcome_bind_congr (outcome_resolve_congr h target) fun given => ?_
        cases given with
        | none => exact hrest
        | some url => rfl
      · exact hrest

theorem outcome_resolveFirstItem_congr (h : ∀ name, (second name).outcome = (first name).outcome) :
    ∀ items : List Json,
    (resolveFirstItem { context with external := some second } items).outcome =
      (resolveFirstItem { context with external := some first } items).outcome
  | [] => by rw [resolveFirstItem, resolveFirstItem]
  | target :: rest => by
      have hfirst := outcome_resolve_congr h target
      have hrest := outcome_resolveFirstItem_congr h rest
      rw [resolveFirstItem_cons, resolveFirstItem_cons]
      exact outcome_fallBack_congr hfirst hrest rest.isEmpty

end

end Target

theorem SubpathMap.outcome_resolve_congr (context : TargetContext)
    {first second : Text -> Traced Text}
    (h : ∀ name, (second name).outcome = (first name).outcome) (fields : Json.Fields)
    (subject : Text) :
    (resolve { context with external := some second } fields subject).outcome =
      (resolve { context with external := some first } fields subject).outcome := by
  unfold resolve
  split
  · rfl
  · next target capture _ => exact Target.outcome_resolve_congr { context with capture } h target

end Package

/-! ## Manifests and scopes -/

namespace FileSystem

variable {files other : FileSystem}

namespace SameButImports

theorem ofPath?_eq (h : files.SameButImports other) (path : Text) :
    Scope.ofPath? other path = Scope.ofPath? files path :=
  Scope.findIn_congr fun _ _ => by rw [h.isFile]

theorem ofUrl?_eq (h : files.SameButImports other) (url : Text) :
    Scope.ofUrl? other url = Scope.ofUrl? files url := by
  unfold Scope.ofUrl?
  exact congrArg _ (funext h.ofPath?_eq)

theorem load_eq (h : files.SameButImports other) (directory : Text) :
    (Manifest.load other directory).map (Option.map Manifest.withoutImports) =
      (Manifest.load files directory).map (Option.map Manifest.withoutImports) := by
  rcases h.contents (manifestPath directory) with ⟨htext, -⟩ | ⟨fields, fields', hold, hold', hsame⟩
  · unfold Manifest.load
    simp only [h.isFile, htext]
  · by_cases hnone : directory = [] ∨ files.isFile (manifestPath directory) = false
    · have hfiles : Manifest.load files directory = .ok none := Manifest.load_eq_none_iff.2 hnone
      have hother : Manifest.load other directory = .ok none := by
        rw [Manifest.load_eq_none_iff, h.isFile]
        exact hnone
      rw [hfiles, hother]
    · obtain ⟨hne, hfile⟩ := not_or.1 hnone
      have hfile : files.isFile (manifestPath directory) = true := by simpa using hfile
      have hfile' : other.isFile (manifestPath directory) = true := by
        rw [h.isFile, hfile]
      rw [hold.load_eq hne hfile, hold'.load_eq hne hfile']
      exact congrArg (fun manifest => Except.ok (some manifest)) hsame

theorem load_eq_of_imports (h : files.SameButImports other) {directory : Text}
    (himports : ∀ manifest manifest', Manifest.load files directory = .ok (some manifest) ->
      Manifest.load other directory = .ok (some manifest') ->
      manifest'.imports = manifest.imports) :
    Manifest.load other directory = Manifest.load files directory := by
  have hload := h.load_eq directory
  cases hfiles : Manifest.load files directory with
  | error failure =>
      cases hother : Manifest.load other directory with
      | error failure' =>
          rw [hfiles, hother] at hload
          exact congrArg Except.error (Except.error.inj hload)
      | ok found =>
          rw [hfiles, hother] at hload
          cases hload
  | ok found =>
      cases hother : Manifest.load other directory with
      | error failure' =>
          rw [hfiles, hother] at hload
          cases hload
      | ok found' =>
          rw [hfiles, hother] at hload
          cases found with
          | none =>
              cases found' with
              | none => rfl
              | some manifest' => cases hload
          | some manifest =>
              cases found' with
              | none => cases hload
              | some manifest' =>
                  have hsame : manifest'.withoutImports = manifest.withoutImports :=
                    Option.some.inj (Except.ok.inj hload)
                  rw [Manifest.eq_of_withoutImports_eq hsame (himports _ _ hfiles hother)]

section Bind

variable {α : Type} {next next' : Option Manifest -> Traced α}

theorem outcome_find_bind (h : files.SameButImports other) (directory : Text)
    (hnone : (next' none).outcome = (next none).outcome)
    (hsome : ∀ manifest manifest' : Manifest, manifest'.withoutImports = manifest.withoutImports ->
      (next' (some manifest')).outcome = (next (some manifest)).outcome) :
    (Manifest.find other directory >>= next').outcome =
      (Manifest.find files directory >>= next).outcome := by
  refine Traced.outcome_bind_congr_view (Option.map Manifest.withoutImports) (h.load_eq directory)
    fun found found' hsame => ?_
  cases found with
  | none =>
      cases found' with
      | none => exact hnone
      | some manifest' => cases hsame
  | some manifest =>
      cases found' with
      | none => cases hsame
      | some manifest' => exact hsome manifest manifest' (Option.some.inj hsame)

end Bind

end SameButImports

end FileSystem

namespace Resolver

variable {resolver : Resolver} {other : FileSystem}

/-! ## Formats -/

theorem startsLikeWasm_of_holdsObject {path : Text} {fields : Json.Fields}
    (h : resolver.files.HoldsObject path fields) : resolver.startsLikeWasm path = .ok false := by
  obtain ⟨octets, hbytes, hhead⟩ := h.readBytes wasmMagic.length
  unfold startsLikeWasm
  rw [hbytes]
  refine congrArg Except.ok (Bool.eq_false_iff.2 fun hmagic => hhead ?_)
  rw [eq_of_beq hmagic]
  rfl

section SameButImports

variable (h : resolver.files.SameButImports other)

include h

theorem outcome_scopeFormat_sameButImports (path : Text) :
    ((resolver.withFiles other).scopeFormat path).outcome =
      (resolver.scopeFormat path).outcome := by
  unfold scopeFormat
  refine Traced.outcome_bind_congr (congrArg Except.ok (h.ofPath?_eq path)) fun scope? => ?_
  cases scope? with
  | none => rfl
  | some scope =>
      refine h.outcome_find_bind scope rfl fun manifest manifest' hsame => ?_
      have hkind := (Manifest.fields_eq_of_withoutImports_eq hsame).2.1
      exact congrArg (fun kind => Except.ok (Option.map ScriptKind.format kind)) hkind

theorem startsLikeWasm_sameButImports (path : Text) :
    (resolver.withFiles other).startsLikeWasm path = resolver.startsLikeWasm path := by
  rcases h.contents path with ⟨-, hbytes⟩ | ⟨fields, fields', hold, hold', -⟩
  · have hbytes : (resolver.withFiles other).files.readBytes path =
        resolver.files.readBytes path := hbytes
    unfold startsLikeWasm
    rw [hbytes]
  · rw [startsLikeWasm_of_holdsObject hold]
    exact startsLikeWasm_of_holdsObject hold'

theorem outcome_classify_sameButImports (url : Text) :
    ((resolver.withFiles other).classify url).outcome = (resolver.classify url).outcome := by
  have hfile : ((resolver.withFiles other).resolveFile url).outcome =
      (resolver.resolveFile url).outcome := by
    unfold resolveFile
    have hdirectory : (resolver.withFiles other).files.isDirectory = resolver.files.isDirectory :=
      h.isDirectory
    have hisFile : (resolver.withFiles other).files.isFile = resolver.files.isFile := h.isFile
    rw [hdirectory, hisFile]
    split
    · rfl
    · next path _ =>
        have hformat : ((resolver.withFiles other).formatOf path).outcome =
            (resolver.formatOf path).outcome :=
          outcome_formatOf_congr (congrFun h.isFile path)
            (outcome_scopeFormat_sameButImports h path) (startsLikeWasm_sameButImports h path)
        refine Traced.outcome_bind_congr rfl fun _ => ?_
        split
        · rfl
        · split
          · rfl
          · exact Traced.outcome_bind_congr hformat fun _ => rfl
  unfold classify
  split
  · rfl
  · split
    · rfl
    · split
      · exact hfile
      · rfl

/-! ## Packages -/

theorem outcome_resolveSelf_sameButImports (name subpath parent : Text) :
    ((resolver.withFiles other).resolveSelf name subpath parent).outcome =
      (resolver.resolveSelf name subpath parent).outcome := by
  have hscope : (Scope.findOfUrl other parent).outcome =
      (Scope.findOfUrl resolver.files parent).outcome := by
    rw [Scope.outcome_findOfUrl, Scope.outcome_findOfUrl, h.ofUrl?_eq]
  unfold resolveSelf
  refine Traced.outcome_bind_congr hscope fun scope? => ?_
  cases scope? with
  | none => rfl
  | some scope =>
      refine h.outcome_find_bind scope rfl fun manifest manifest' hsame => ?_
      obtain ⟨hname, -, -, hexports⟩ := Manifest.fields_eq_of_withoutImports_eq hsame
      simp only [Manifest.hasExports_eq_of_withoutImports_eq hsame, hname, hexports]
      rfl

omit h in
theorem outcome_resolveInstalled_of_withoutImports_eq {manifest manifest' : Manifest}
    (hsame : manifest'.withoutImports = manifest.withoutImports) (package subpath : Text) :
    ((resolver.withFiles other).resolveInstalled package subpath manifest').outcome =
      (resolver.resolveInstalled package subpath manifest).outcome := by
  obtain ⟨-, -, hmain, hexports⟩ := Manifest.fields_eq_of_withoutImports_eq hsame
  unfold resolveInstalled
  rw [Manifest.hasExports_eq_of_withoutImports_eq hsame, hexports, hmain]
  rfl

theorem outcome_searchInstalled_sameButImports (name subpath : Text) (directories : List Text) :
    ((resolver.withFiles other).searchInstalled name subpath directories).outcome =
      (resolver.searchInstalled name subpath directories).outcome := by
  induction directories with
  | nil => rfl
  | cons directory rest ih =>
      rw [searchInstalled, searchInstalled]
      have hdirectory : (resolver.withFiles other).files.isDirectory = resolver.files.isDirectory :=
        h.isDirectory
      refine Traced.outcome_bind_congr rfl fun _ => ?_
      rw [hdirectory]
      split
      · refine h.outcome_find_bind _ ih fun manifest manifest' hsame => ?_
        exact Traced.outcome_bind_congr rfl fun _ =>
          outcome_resolveInstalled_of_withoutImports_eq hsame _ _
      · exact ih

theorem outcome_resolvePackage_sameButImports (specifier parent : Text) :
    ((resolver.withFiles other).resolvePackage specifier parent).outcome =
      (resolver.resolvePackage specifier parent).outcome := by
  unfold resolvePackage
  split
  · rfl
  · split
    · rfl
    · split
      · rfl
      · next package _ =>
          have hself := outcome_resolveSelf_sameButImports h package.name package.subpath parent
          refine Traced.outcome_bind_congr hself fun url? => ?_
          cases url? with
          | some url => rfl
          | none =>
              unfold resolveFromInstalled
              cases Url.File.toPath parent with
              | error cause => rfl
              | ok path => exact outcome_searchInstalled_sameButImports h _ _ _

/-! ## Imports -/

theorem outcome_importsContext_sameButImports (package : Text) (fields : Json.Fields)
    (subject : Text) :
    (SubpathMap.resolve ((resolver.withFiles other).importsContext package) fields
      subject).outcome =
      (SubpathMap.resolve (resolver.importsContext package) fields subject).outcome :=
  SubpathMap.outcome_resolve_congr (resolver.targetContext package none)
    (fun name => outcome_resolvePackage_sameButImports h name _) fields subject

theorem outcome_resolveImport_sameButImports {parent : Text}
    (himports : ∀ scope manifest manifest', Scope.ofUrl? resolver.files parent = some scope ->
      Manifest.load resolver.files scope = .ok (some manifest) ->
      Manifest.load other scope = .ok (some manifest') -> manifest'.imports = manifest.imports)
    (specifier : Text) :
    ((resolver.withFiles other).resolveImport specifier parent).outcome =
      (resolver.resolveImport specifier parent).outcome := by
  have hown : ((resolver.withFiles other).resolveOwnImport specifier parent).outcome =
      (resolver.resolveOwnImport specifier parent).outcome := by
    unfold resolveOwnImport
    have hfiles : (resolver.withFiles other).files = other := rfl
    rw [hfiles]
    cases hscope : Scope.ofUrl? resolver.files parent with
    | none =>
        have hscope' : Scope.ofUrl? other parent = none := (h.ofUrl?_eq parent).trans hscope
        rw [Traced.outcome_bind_of_ok (Scope.outcome_findOfUrl_eq hscope),
          Traced.outcome_bind_of_ok (Scope.outcome_findOfUrl_eq hscope')]
    | some scope =>
        have hscope' : Scope.ofUrl? other parent = some scope := (h.ofUrl?_eq parent).trans hscope
        have hload : (Manifest.find other scope).outcome =
            (Manifest.find resolver.files scope).outcome :=
          h.load_eq_of_imports fun manifest manifest' => himports scope manifest manifest' hscope
        rw [Traced.outcome_bind_of_ok (Scope.outcome_findOfUrl_eq hscope),
          Traced.outcome_bind_of_ok (Scope.outcome_findOfUrl_eq hscope')]
        refine Traced.outcome_bind_congr hload fun manifest? => ?_
        cases manifest? with
        | none => rfl
        | some manifest =>
            simp only
            split
            · exact outcome_importsContext_sameButImports h _ _ _
            · rfl
  unfold resolveImport
  split
  · rfl
  · split
    · rfl
    · exact Traced.outcome_bind_congr hown fun _ => rfl

end SameButImports

/-! ## Requests -/

/-- Over file systems that differ only in the `imports` of manifests every request ends alike, as
long as the manifest of the parent's own package has the same `imports` if the specifier has a `#` in
front.  What a name gives in any map of `imports` does not depend on what the manifests have for
theirs: no target is looked up in such a map again. -/
theorem direct_sameButImports (resolver : Resolver) (h : resolver.files.SameButImports other) :
    (∀ specifier parent,
      ("#".toList.isPrefixOf specifier -> ∀ url scope manifest manifest',
        parentUrl resolver.workingDirectory parent = .ok url ->
        Scope.ofUrl? resolver.files url = some scope ->
        Manifest.load resolver.files scope = .ok (some manifest) ->
        Manifest.load other scope = .ok (some manifest') -> manifest'.imports = manifest.imports) ->
      (resolver.withFiles other).direct ⟨specifier, parent⟩ =
        resolver.direct ⟨specifier, parent⟩) ∧
    ∀ package fields subject,
      (SubpathMap.resolve ((resolver.withFiles other).importsContext package) fields
        subject).outcome =
        (SubpathMap.resolve (resolver.importsContext package) fields subject).outcome := by
  refine ⟨fun specifier parent himports => ?_, outcome_importsContext_sameButImports h⟩
  cases hparent : parentUrl resolver.workingDirectory parent with
  | error cause =>
      have hparent' : parentUrl (resolver.withFiles other).workingDirectory parent =
          .error cause := hparent
      unfold direct resolve
      rw [hparent, hparent']
  | ok url =>
      have hparent' : parentUrl (resolver.withFiles other).workingDirectory parent = .ok url :=
        hparent
      rw [resolver.direct_eq hparent, (resolver.withFiles other).direct_eq hparent']
      have hresolved : ((resolver.withFiles other).resolvedUrl specifier url).outcome =
          (resolver.resolvedUrl specifier url).outcome := by
        unfold resolvedUrl
        split
        · rfl
        · split
          · rfl
          · split
            · next hmark =>
                exact Traced.outcome_bind_congr (outcome_resolveImport_sameButImports h
                  (fun scope manifest manifest' => himports hmark url scope manifest manifest'
                    hparent) specifier) fun _ => rfl
            · exact Traced.outcome_bind_congr
                (outcome_resolvePackage_sameButImports h specifier url) fun _ => rfl
      unfold resolveUncached
      exact Traced.outcome_bind_congr hresolved fun found => outcome_classify_sameButImports h found

def importsManifest : Text :=
  "\x7b\"imports\":\x7b\"#a\":\"./a.mjs\"\x7d\x7d".toList

def withInstalled (manifest : Text) : Resolver :=
  overMemory
    ⟨[("/p/node_modules/dep/package.json".toList, Text.Utf8.encode manifest),
        ("/p/package.json".toList, Text.Utf8.encode importsManifest), ("/p/a.mjs".toList, [])],
      ["/p/node_modules/dep".toList, "/p/node_modules".toList, "/p".toList, "/".toList]⟩

theorem read_importsManifest : Json.read importsManifest =
    .ok (.object [("imports".toList, .object [("#a".toList, .string "./a.mjs".toList)])]) := by
  cbv

section Installed

variable (manifest : Text)

theorem ofUrl?_withInstalled :
    Scope.ofUrl? (withInstalled manifest).files "file:///p/x.js".toList = some "/p".toList := by
  have hcandidates : Scope.candidates "/p/x.js".toList = ["/p".toList, "/".toList] := by
    show Path.ancestors "/p/x.js".toList = _
    cbv
  rw [Scope.ofUrl?_eq_findIn rfl hcandidates]
  rfl

theorem load_withInstalled : Manifest.load (withInstalled manifest).files "/p".toList =
    .ok (some (Manifest.ofFields
      [("imports".toList, .object [("#a".toList, .string "./a.mjs".toList)])])) :=
  FileSystem.Memory.load_eq (by decide) rfl read_importsManifest

end Installed

theorem direct_withInstalled :
    (withInstalled "\x7b\x7d".toList).direct ⟨"#a".toList, "/p/x.js".toList⟩ =
      .ok ⟨"/p/a.mjs".toList, some .module⟩ := by
  have hscope : (Scope.findOfUrl (withInstalled "\x7b\x7d".toList).files
      "file:///p/x.js".toList).outcome = .ok (some "/p".toList) :=
    Scope.outcome_findOfUrl_eq (ofUrl?_withInstalled _)
  have hown : ((withInstalled "\x7b\x7d".toList).resolveOwnImport "#a".toList
      "file:///p/x.js".toList).outcome = .ok (some "file:///p/a.mjs".toList) := by
    unfold resolveOwnImport
    rw [Traced.outcome_bind_of_ok hscope]
    simp only
    rw [Traced.outcome_bind_of_ok ((Manifest.outcome_find _ _).trans (load_withInstalled _))]
    rfl
  have himport : ((withInstalled "\x7b\x7d".toList).resolveImport "#a".toList
      "file:///p/x.js".toList).outcome = .ok "file:///p/a.mjs".toList := by
    unfold resolveImport
    rw [if_neg (by decide), if_neg (by decide), Traced.outcome_bind_of_ok hown]
    rfl
  have hresolved : ((withInstalled "\x7b\x7d".toList).resolvedUrl "#a".toList
      "file:///p/x.js".toList).outcome = .ok "file:///p/a.mjs".toList := by
    unfold resolvedUrl
    rw [if_neg (by decide), if_neg (by decide), if_pos (by decide),
      Traced.outcome_bind_of_ok himport]
    rfl
  have hparent : parentUrl (withInstalled "\x7b\x7d".toList).workingDirectory "/p/x.js".toList =
      .ok "file:///p/x.js".toList := rfl
  rw [(withInstalled "\x7b\x7d".toList).direct_eq hparent, resolveUncached,
    Traced.outcome_bind_of_ok hresolved]
  rfl

/-- The installed package gets `imports` with the name that the specifier has. -/
theorem direct_sameButImports_installed :
    (withInstalled "\x7b\x7d".toList).files.SameButImports
        (withInstalled importsManifest).files ∧
      (withInstalled importsManifest).direct ⟨"#a".toList, "/p/x.js".toList⟩ =
        .ok ⟨"/p/a.mjs".toList, some .module⟩ := by
  have hempty : Json.read "\x7b\x7d".toList = .ok (.object []) := by cbv
  have hsame : (withInstalled "\x7b\x7d".toList).files.SameButImports
      (withInstalled importsManifest).files :=
    FileSystem.Memory.sameButImports_of_cons rfl hempty rfl read_importsManifest
      fun key hkey => if_neg fun heq => absurd (heq ▸ hkey) (by decide)
  have hequal := (direct_sameButImports (withInstalled "\x7b\x7d".toList) hsame).1 "#a".toList
    "/p/x.js".toList fun _ url scope manifest manifest' hurl hfound hold hnew => by
      obtain rfl : "file:///p/x.js".toList = url := Except.ok.inj hurl
      obtain rfl := Option.some.inj ((ofUrl?_withInstalled _).symm.trans hfound)
      obtain rfl := Option.some.inj (Except.ok.inj ((load_withInstalled _).symm.trans hold))
      obtain rfl := Option.some.inj (Except.ok.inj ((load_withInstalled _).symm.trans hnew))
      rfl
  exact ⟨hsame, hequal.trans direct_withInstalled⟩

end Resolver

end ModuleResolution
