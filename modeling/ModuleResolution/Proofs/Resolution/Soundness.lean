import ModuleResolution.Proofs.Cache.Transparency
import ModuleResolution.Proofs.Resolution.Format

/-!
# What a resolution says

A successful resolution describes the URL that its specifier stands for: a file with the format that
the table of rules gives it, a module of the runtime, a data URL with a known media type, or any
other URL as it is.
-/

namespace ModuleResolution

open Package

/-! ## Kinds of answers -/

/-- The kinds of URLs that a resolution ends at. -/
inductive AnswerKind where
  | file
  | core
  | data
  | other
  deriving DecidableEq, Repr

namespace AnswerKind

/-- The media types that modules have in data URLs, with their formats. -/
def mediaFormats : List (Text × Format) :=
  [("text/javascript".toList, .module), ("application/json".toList, .json),
    ("application/wasm".toList, .wasm)]

/-- What a resolution gives for a URL of this kind. -/
def Describes (resolver : Resolver) (url : Text) (resolution : Resolution) : AnswerKind -> Prop
  | .file =>
      Url.protocol? url = some "file:".toList ∧ Url.File.toPath url = .ok resolution.path ∧
        resolver.files.isFile resolution.path ∧
        resolver.files.isDirectory resolution.path = false ∧
        resolution.format ≠ some .builtin ∧
        DecidedBy (resolver.formatRules resolution.path) resolution.format
  | .core =>
      Url.protocol? url = some "node:".toList ∧ resolution = ⟨url, some .builtin⟩
  | .data =>
      Url.protocol? url = some "data:".toList ∧ resolution.path = url ∧
        ∃ type format, Url.Data.mediaType? url = some type ∧ (type, format) ∈ mediaFormats ∧
          resolution.format = some format
  | .other =>
      (∃ protocol, Url.protocol? url = some protocol ∧
        protocol ∉ ["file:".toList, "node:".toList, "data:".toList]) ∧ resolution = ⟨url, none⟩

def ofProtocol (protocol : Text) : AnswerKind :=
  if protocol = "file:".toList then .file
  else if protocol = "node:".toList then .core
  else if protocol = "data:".toList then .data
  else .other

variable {resolver : Resolver} {url : Text} {resolution : Resolution} {kind : AnswerKind}

theorem Describes.ofProtocol_eq (h : kind.Describes resolver url resolution) :
    ∃ protocol, Url.protocol? url = some protocol ∧ ofProtocol protocol = kind := by
  cases kind with
  | file => exact ⟨_, h.1, rfl⟩
  | core => exact ⟨_, h.1, rfl⟩
  | data => exact ⟨_, h.1, rfl⟩
  | other =>
      obtain ⟨⟨protocol, hprotocol, hother⟩, -⟩ := h
      simp only [List.mem_cons, List.not_mem_nil, or_false, not_or] at hother
      obtain ⟨hfile, hcore, hdata⟩ := hother
      refine ⟨protocol, hprotocol, ?_⟩
      rw [ofProtocol, if_neg hfile, if_neg hcore, if_neg hdata]

theorem Describes.unique {second : AnswerKind} (h : kind.Describes resolver url resolution)
    (h' : second.Describes resolver url resolution) : second = kind := by
  obtain ⟨protocol, hprotocol, rfl⟩ := h.ofProtocol_eq
  obtain ⟨other, hother, rfl⟩ := h'.ofProtocol_eq
  rw [hprotocol] at hother
  rw [Option.some.inj hother]

theorem mem_mediaFormats {type : Text} {format : Format}
    (h : Url.Data.formatOfType? type = some format) : (type, format) ∈ mediaFormats := by
  unfold Url.Data.formatOfType? at h
  split at h
  · next htype =>
      cases h
      rw [htype]
      exact List.mem_cons_self
  · split at h
    · next htype =>
        cases h
        rw [htype]
        exact List.mem_cons_of_mem _ List.mem_cons_self
    · split at h
      · next htype =>
          cases h
          rw [htype]
          exact List.mem_cons_of_mem _ (List.mem_cons_of_mem _ List.mem_cons_self)
      · cases h

end AnswerKind

namespace Resolver

/-! ## From answers back to URLs -/

variable {resolver : Resolver} {url : Text} {resolution : Resolution}

theorem outcome_resolveFile_eq_ok_iff :
    (resolver.resolveFile url).outcome = .ok resolution ↔
      Url.File.toPath url = .ok resolution.path ∧
        resolver.files.isDirectory resolution.path = false ∧
        resolver.files.isFile resolution.path ∧
        (resolver.formatOf resolution.path).outcome = .ok resolution.format := by
  unfold resolveFile
  cases Url.File.toPath url with
  | error cause => exact iff_of_false (fun h => by cases h) fun h => by cases h.1
  | ok path =>
      simp only
      rw [Traced.outcome_bind_of_ok (Traced.outcome_emit _)]
      constructor
      · intro h
        cases hdirectory : resolver.files.isDirectory path with
        | true =>
            rw [hdirectory] at h
            cases h
        | false =>
            cases hfile : resolver.files.isFile path with
            | false =>
                rw [hdirectory, hfile] at h
                cases h
            | true =>
                rw [hdirectory, hfile] at h
                obtain ⟨format, hformat, h⟩ := Traced.outcome_bind_eq_ok.1 h
                cases h
                exact ⟨rfl, hdirectory, hfile, hformat⟩
      · rintro ⟨hpath, hdirectory, hfile, hformat⟩
        cases hpath
        rw [hdirectory, hfile]
        exact Traced.outcome_bind_eq_ok.2 ⟨_, hformat, rfl⟩

theorem outcome_classify_of_protocol {protocol : Text}
    (hseparator : hasEncodedSeparator url = false)
    (hprotocol : Url.protocol? url = some protocol) :
    (resolver.classify url).outcome =
      if protocol = "file:".toList then (resolver.resolveFile url).outcome
      else if protocol = "node:".toList then .ok ⟨url, some .builtin⟩
      else if protocol = "data:".toList then
        match Url.Data.format? url with
        | some format => .ok ⟨url, some format⟩
        | none => .error (.resolution (.invalidModuleSpecifier url))
      else .ok ⟨url, none⟩ := by
  unfold classify
  rw [hseparator, if_neg Bool.false_ne_true, hprotocol]
  simp only [apply_ite Traced.outcome]
  cases Url.Data.format? url <;> rfl

theorem protocol_of_classify (h : (resolver.classify url).outcome = .ok resolution) :
    hasEncodedSeparator url = false ∧ ∃ protocol, Url.protocol? url = some protocol := by
  unfold classify at h
  cases hseparator : hasEncodedSeparator url with
  | true =>
      rw [hseparator] at h
      cases h
  | false =>
      rw [hseparator, if_neg Bool.false_ne_true] at h
      cases hprotocol : Url.protocol? url with
      | none =>
          rw [hprotocol] at h
          cases h
      | some protocol => exact ⟨rfl, protocol, rfl⟩

theorem exists_describes_of_classify (h : (resolver.classify url).outcome = .ok resolution) :
    ∃ kind : AnswerKind, kind.Describes resolver url resolution := by
  obtain ⟨hseparator, protocol, hprotocol⟩ := protocol_of_classify h
  rw [outcome_classify_of_protocol hseparator hprotocol] at h
  by_cases hfile : protocol = "file:".toList
  · rw [if_pos hfile] at h
    obtain ⟨hpath, hdirectory, hisFile, hformat⟩ := outcome_resolveFile_eq_ok_iff.1 h
    have hdecided := (decidedBy_of_formatOf hformat).2
    exact ⟨.file, hfile ▸ hprotocol, hpath, hisFile, hdirectory, ne_builtin_of_formatRules hdecided,
      hdecided⟩
  rw [if_neg hfile] at h
  by_cases hcore : protocol = "node:".toList
  · rw [if_pos hcore] at h
    exact ⟨.core, hcore ▸ hprotocol, (Except.ok.inj h).symm⟩
  rw [if_neg hcore] at h
  by_cases hdata : protocol = "data:".toList
  · rw [if_pos hdata] at h
    cases hformat : Url.Data.format? url with
    | none =>
        rw [hformat] at h
        cases h
    | some format =>
        rw [hformat] at h
        cases h
        obtain ⟨type, htype, hof⟩ := Option.bind_eq_some_iff.1 hformat
        exact ⟨.data, hdata ▸ hprotocol, rfl, type, format, htype,
          AnswerKind.mem_mediaFormats hof, rfl⟩
  · rw [if_neg hdata] at h
    have hother : protocol ∉ ["file:".toList, "node:".toList, "data:".toList] := by
      simp only [List.mem_cons, List.not_mem_nil, or_false, not_or]
      exact ⟨hfile, hcore, hdata⟩
    exact ⟨.other, ⟨protocol, hprotocol, hother⟩, (Except.ok.inj h).symm⟩

/-! ## Requests -/

/-- A request that ends with a resolution without a cache, and the URLs that it comes to. -/
structure Success (resolver : Resolver) (request : Request) where
  parent : Text
  url : Text
  resolution : Resolution
  parentUrl_eq : parentUrl resolver.workingDirectory request.parent = .ok parent
  resolvedUrl_eq : (resolver.resolvedUrl request.specifier parent).outcome = .ok url
  direct_eq : resolver.direct request = .ok resolution

variable {request : Request}

theorem direct_of_classify {parent : Text}
    (hparent : parentUrl resolver.workingDirectory request.parent = .ok parent)
    (hurl : (resolver.resolvedUrl request.specifier parent).outcome = .ok url) :
    resolver.direct request = (resolver.classify url).outcome := by
  rw [resolver.direct_eq hparent, resolveUncached, Traced.outcome_bind_of_ok hurl]

theorem Success.classify_eq (success : resolver.Success request) :
    (resolver.classify success.url).outcome = .ok success.resolution := by
  rw [← direct_of_classify success.parentUrl_eq success.resolvedUrl_eq, success.direct_eq]

theorem exists_success_of_direct (h : resolver.direct request = .ok resolution) :
    ∃ success : resolver.Success request, success.resolution = resolution := by
  cases hparent : parentUrl resolver.workingDirectory request.parent with
  | error cause =>
      rw [resolver.direct_of_parentUrl_eq_error hparent] at h
      cases h
  | ok parent =>
      have huncached := h
      rw [resolver.direct_eq hparent, resolveUncached] at huncached
      obtain ⟨url, hurl, -⟩ := Traced.outcome_bind_eq_ok.1 huncached
      exact ⟨⟨parent, url, resolution, hparent, hurl, h⟩, rfl⟩

theorem Success.resolveFile_eq (success : resolver.Success request)
    (hfile : Url.protocol? success.url = some "file:".toList) :
    (resolver.resolveFile success.url).outcome = .ok success.resolution := by
  have h := success.classify_eq
  rwa [outcome_classify_of_protocol (protocol_of_classify h).1 hfile, if_pos rfl] at h

/-- A successful request comes to a URL that its resolution describes in exactly one way.  The
format of a file is the same over all files that agree on its scope and on its first octets. -/
theorem direct_sound (h : resolver.direct request = .ok resolution) :
    ∃ success : resolver.Success request, success.resolution = resolution ∧
      (∃ kind : AnswerKind, kind.Describes resolver success.url resolution ∧
        ∀ second : AnswerKind, second.Describes resolver success.url resolution ->
          second = kind) ∧
      (Url.protocol? success.url = some "file:".toList -> ∀ other,
        FormatAgree resolver.files other resolution.path ->
          ((resolver.withFiles other).formatOf resolution.path).outcome =
            .ok resolution.format) := by
  obtain ⟨success, rfl⟩ := exists_success_of_direct h
  obtain ⟨kind, hkind⟩ := exists_describes_of_classify success.classify_eq
  refine ⟨success, rfl, ⟨kind, hkind, fun second hsecond => hkind.unique hsecond⟩, ?_⟩
  intro hfile other hagree
  rw [outcome_formatOf_withFiles hagree]
  exact (outcome_resolveFile_eq_ok_iff.1 (success.resolveFile_eq hfile)).2.2.2

def scripts (files : List (Text × List UInt8)) : Resolver where
  files := FileSystem.Memory.toFileSystem ⟨files, ["/p".toList, "/".toList]⟩
  conditions := []
  flags := .listed []
  workingDirectory := "/".toList

/-- A script is described as a file, and it keeps its format when another one stands beside it. -/
theorem direct_sound_script :
    (scripts [("/p/a.mjs".toList, [])]).direct ⟨"./a.mjs".toList, "/p/b.js".toList⟩ =
        .ok ⟨"/p/a.mjs".toList, some .module⟩ ∧
      AnswerKind.file.Describes (scripts [("/p/a.mjs".toList, [])]) "file:///p/a.mjs".toList
        ⟨"/p/a.mjs".toList, some .module⟩ ∧
      ((scripts [("/p/a.mjs".toList, []), ("/p/b.js".toList, [])]).formatOf
        "/p/a.mjs".toList).outcome = .ok (some .module) := by
  have hdirect : (scripts [("/p/a.mjs".toList, [])]).direct
      ⟨"./a.mjs".toList, "/p/b.js".toList⟩ = .ok ⟨"/p/a.mjs".toList, some .module⟩ := rfl
  obtain ⟨success, -, ⟨kind, hkind, -⟩, hover⟩ := direct_sound hdirect
  have hparent : success.parent = "file:///p/b.js".toList :=
    (Except.ok.inj success.parentUrl_eq).symm
  have hurl : success.url = "file:///p/a.mjs".toList := by
    have h := success.resolvedUrl_eq
    rw [hparent] at h
    exact (Except.ok.inj h).symm
  rw [hurl] at hkind hover
  have hfile : Url.protocol? "file:///p/a.mjs".toList = some "file:".toList := rfl
  have hcandidates : Scope.candidates "/p/a.mjs".toList = ["/p".toList, "/".toList] := by
    show Path.ancestors "/p/a.mjs".toList = _
    cbv
  obtain ⟨protocol, hprotocol, rfl⟩ := hkind.ofProtocol_eq
  obtain rfl := Option.some.inj (hprotocol.symm.trans hfile)
  refine ⟨hdirect, hkind, hover hfile _ ⟨rfl, ⟨fun directory hd => ?_, fun scope hs => ?_⟩, rfl⟩⟩
  · rw [hcandidates] at hd
    rcases List.mem_cons.1 hd with rfl | hd
    · rfl
    · rw [List.mem_singleton.1 hd]
      rfl
  · rw [Scope.ofPath?, hcandidates] at hs
    cases hs

end Resolver

end ModuleResolution
