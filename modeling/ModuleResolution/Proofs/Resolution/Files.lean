import ModuleResolution.Proofs.Fault.Resolution
import ModuleResolution.Proofs.Resolution.Soundness
import ModuleResolution.Proofs.Url.RoundTrip
import ModuleResolution.Proofs.Url.Separator

/-!
# Resolved files

The path of a resolved file and the requests that come to the same file.  The URL of a path in
normal form resolves to that path again, with its format.  Other spellings of the path name the same
file in memory, but one that does not end in a name has no extension, so its format may be another
one.
-/

namespace ModuleResolution

open Package

namespace Resolver

variable {resolver : Resolver} {request : Request}

theorem Success.isAbsolute_path (success : resolver.Success request)
    (hfile : Url.protocol? success.url = some "file:".toList) :
    Path.isAbsolute success.resolution.path :=
  Url.File.isAbsolute_of_toPath (outcome_resolveFile_eq_ok_iff.1 (success.resolveFile_eq hfile)).1

/-! ## Fixed points -/

theorem outcome_resolvedUrl_file {path : Text} (habsolute : Path.isAbsolute path)
    (hplain : ∀ c ∈ path, Url.isPlain c) (parent : Text) :
    (resolver.resolvedUrl ("file://".toList ++ path) parent).outcome =
      .ok ("file://".toList ++ path) := by
  have hurl : Url.isAbsolute ("file://".toList ++ path) = true := Url.isAbsolute_of_file _
  unfold resolvedUrl
  rw [if_pos hurl, Url.File.normalize_file habsolute hplain]
  rfl

theorem protocol?_file (path : Text) :
    Url.protocol? ("file://".toList ++ path) = some "file:".toList := by
  have hscheme : Url.scheme? ("file://".toList ++ path) =
      some ("file".toList, '/' :: '/' :: path) :=
    Url.scheme?_append "file".toList (by decide) (by decide) _
  rw [Url.protocol?, hscheme]
  rfl

/-- The URL of a resolved path in normal form without backslashes resolves to the same file with the
same format, from every absolute path. -/
theorem direct_ofPath_of_success (success : resolver.Success request)
    (hfile : Url.protocol? success.url = some "file:".toList)
    (hnormal : Path.normalize success.resolution.path = success.resolution.path)
    (hbackslash : '\\' ∉ success.resolution.path) {parent : Text}
    (hparent : Path.isAbsolute parent) :
    resolver.direct
        ⟨Url.File.ofPath resolver.workingDirectory success.resolution.path, parent⟩ =
      .ok success.resolution := by
  have habsolute := success.isAbsolute_path hfile
  obtain ⟨-, hdirectory, hisFile, hformat⟩ :=
    outcome_resolveFile_eq_ok_iff.1 (success.resolveFile_eq hfile)
  obtain ⟨parentUrl, hparentUrl, -⟩ := parentUrl_of_isAbsolute resolver.workingDirectory hparent
  rw [Url.File.ofPath_of_isAbsolute _ habsolute, hnormal]
  rw [direct_of_classify hparentUrl (outcome_resolvedUrl_file
    (Url.File.isAbsolute_encode habsolute) (fun _ hc => Url.File.isPlain_of_mem_encode hc) _)]
  have hseparator : hasEncodedSeparator
      ("file://".toList ++ Percent.encode Url.File.isKept success.resolution.path) = false :=
    Bool.eq_false_iff.2 fun h => hbackslash ((hasEncodedSeparator_file_iff _).1 h)
  rw [outcome_classify_of_protocol hseparator (protocol?_file _), if_pos rfl]
  exact outcome_resolveFile_eq_ok_iff.2
    ⟨Url.File.toPath_encode habsolute, hdirectory, hisFile, hformat⟩

def script (path : Text) : Resolver :=
  scripts [(path, [])]

def percentName : (script "/p/100%2f.mjs".toList).Success
    ⟨"./100%252f.mjs".toList, "/p/b.js".toList⟩ where
  parent := "file:///p/b.js".toList
  url := "file:///p/100%252f.mjs".toList
  resolution := ⟨"/p/100%2f.mjs".toList, some .module⟩
  parentUrl_eq := rfl
  resolvedUrl_eq := rfl
  direct_eq := rfl

theorem direct_ofPath_of_success_percent :
    Path.isAbsolute "/q/c.js".toList ∧
    (script "/p/100%2f.mjs".toList).direct
        ⟨Url.File.ofPath "/".toList "/p/100%2f.mjs".toList, "/q/c.js".toList⟩ =
      .ok ⟨"/p/100%2f.mjs".toList, some .module⟩ := by
  have hparent : Path.isAbsolute "/q/c.js".toList := rfl
  exact ⟨hparent, direct_ofPath_of_success percentName rfl rfl (by decide) hparent⟩

/-! ## Spellings -/

section Spellings

variable {memory : FileSystem.Memory} {first second : Request}

/-- Two requests that come to the same file in memory have the same format exactly if both paths
end in a name or none does, or if both formats are what the rules give that ignore the name. -/
theorem format_eq_iff_of_same_file (hfiles : resolver.files = memory.toFileSystem)
    (one : resolver.Success first) (two : resolver.Success second)
    (hone : Url.protocol? one.url = some "file:".toList)
    (htwo : Url.protocol? two.url = some "file:".toList)
    (hsame : Path.normalize one.resolution.path = Path.normalize two.resolution.path) :
    one.resolution.format = two.resolution.format ↔
      (Path.EndsInName one.resolution.path ↔ Path.EndsInName two.resolution.path) ∨
        (DecidedBy (resolver.plainRules one.resolution.path) one.resolution.format ∧
          DecidedBy (resolver.plainRules two.resolution.path) two.resolution.format) := by
  obtain ⟨-, -, hisFile, hformat⟩ := outcome_resolveFile_eq_ok_iff.1 (one.resolveFile_eq hone)
  obtain ⟨-, -, -, hformat'⟩ := outcome_resolveFile_eq_ok_iff.1 (two.resolveFile_eq htwo)
  have hdecided := (decidedBy_of_formatOf hformat).2
  have hdecided' := (decidedBy_of_formatOf hformat').2
  have hmemory : memory.isFile one.resolution.path := by
    rw [hfiles] at hisFile
    exact hisFile
  have hplain : ∀ format, DecidedBy (resolver.plainRules one.resolution.path) format ↔
      DecidedBy (resolver.plainRules two.resolution.path) format := fun _ =>
    decidedBy_plainRules_congr hfiles hsame hmemory
  constructor
  · intro heq
    by_cases hname : Path.EndsInName one.resolution.path
    · by_cases hname' : Path.EndsInName two.resolution.path
      · exact .inl (iff_of_true hname hname')
      · rw [decidedBy_formatRules_of_not_endsInName hname'] at hdecided'
        exact .inr ⟨(hplain _).2 (heq ▸ hdecided'), hdecided'⟩
    · rw [decidedBy_formatRules_of_not_endsInName hname] at hdecided
      exact .inr ⟨hdecided, (hplain _).1 (heq ▸ hdecided)⟩
  · rintro (hends | ⟨hfirst, hsecond⟩)
    · by_cases hname : Path.EndsInName one.resolution.path
      · have hbasename : Path.basename one.resolution.path =
            Path.basename two.resolution.path := by
          rw [← Path.basename_normalize (one.isAbsolute_path hone) hname, hsame,
            Path.basename_normalize (two.isAbsolute_path htwo) (hends.1 hname)]
        rw [decidedBy_formatRules_congr hfiles hsame hmemory hbasename] at hdecided
        exact hdecided.unique formatRules_unique hdecided'
      · rw [decidedBy_formatRules_of_not_endsInName hname, hplain] at hdecided
        rw [decidedBy_formatRules_of_not_endsInName fun h => hname (hends.2 h)] at hdecided'
        exact hdecided.unique plainRules_unique hdecided'
    · rw [hplain] at hfirst
      exact hfirst.unique plainRules_unique hsecond

end Spellings

def plainSpelling : (script "/p/a.mjs".toList).Success
    ⟨"file:///p/a.mjs".toList, "/b.js".toList⟩ where
  parent := "file:///b.js".toList
  url := "file:///p/a.mjs".toList
  resolution := ⟨"/p/a.mjs".toList, some .module⟩
  parentUrl_eq := rfl
  resolvedUrl_eq := rfl
  direct_eq := rfl

def doubledSpelling : (script "/p/a.mjs".toList).Success
    ⟨"file:///p//a.mjs".toList, "/b.js".toList⟩ where
  parent := "file:///b.js".toList
  url := "file:///p//a.mjs".toList
  resolution := ⟨"/p//a.mjs".toList, some .module⟩
  parentUrl_eq := rfl
  resolvedUrl_eq := rfl
  direct_eq := rfl

theorem format_eq_iff_of_same_file_doubled :
    plainSpelling.resolution.path ≠ doubledSpelling.resolution.path ∧
      Path.normalize plainSpelling.resolution.path =
        Path.normalize doubledSpelling.resolution.path ∧
      plainSpelling.resolution.format = doubledSpelling.resolution.format := by
  have hsame : Path.normalize plainSpelling.resolution.path =
      Path.normalize doubledSpelling.resolution.path := rfl
  have hname : Path.EndsInName plainSpelling.resolution.path :=
    ⟨by decide, by decide, by decide, by decide⟩
  have hname' : Path.EndsInName doubledSpelling.resolution.path :=
    ⟨by decide, by decide, by decide, by decide⟩
  exact ⟨by decide, hsame, (format_eq_iff_of_same_file rfl plainSpelling doubledSpelling rfl rfl
    hsame).2 (.inl (iff_of_true hname hname'))⟩

theorem direct_slash : (script "/p/a.mjs".toList).direct
    ⟨"file:///p/a.mjs/".toList, "/b.js".toList⟩ = .ok ⟨"/p/a.mjs/".toList, none⟩ := by
  have hcandidates : Scope.candidates "/p/a.mjs/".toList = ["/p".toList, "/".toList] := by
    have hnormal : Path.normalize "/p/a.mjs/".toList = "/p/a.mjs".toList := rfl
    rw [Scope.candidates, hnormal]
    cbv
  have hscope : ((script "/p/a.mjs".toList).scopeFormat "/p/a.mjs/".toList).outcome =
      .ok none := by
    refine outcome_scopeFormat_eq_ok_iff.2 (.inr ⟨Scope.ofPath?_eq_none_iff.1 ?_, rfl⟩)
    rw [Scope.ofPath?, hcandidates]
    rfl
  have hformat : ((script "/p/a.mjs".toList).formatOf "/p/a.mjs/".toList).outcome =
      .ok none := Traced.outcome_bind_eq_ok.2 ⟨none, hscope, rfl⟩
  have hparent : parentUrl (script "/p/a.mjs".toList).workingDirectory "/b.js".toList =
      .ok "file:///b.js".toList := rfl
  have hurl : ((script "/p/a.mjs".toList).resolvedUrl "file:///p/a.mjs/".toList
      "file:///b.js".toList).outcome = .ok "file:///p/a.mjs/".toList := rfl
  have hseparator : hasEncodedSeparator "file:///p/a.mjs/".toList = false := rfl
  have hprotocol : Url.protocol? "file:///p/a.mjs/".toList = some "file:".toList := rfl
  rw [direct_of_classify hparent hurl, outcome_classify_of_protocol hseparator hprotocol,
    if_pos rfl]
  exact outcome_resolveFile_eq_ok_iff.2 ⟨rfl, rfl, rfl, hformat⟩

def slashSpelling : (script "/p/a.mjs".toList).Success
    ⟨"file:///p/a.mjs/".toList, "/b.js".toList⟩ where
  parent := "file:///b.js".toList
  url := "file:///p/a.mjs/".toList
  resolution := ⟨"/p/a.mjs/".toList, none⟩
  parentUrl_eq := rfl
  resolvedUrl_eq := rfl
  direct_eq := direct_slash

theorem format_ne_of_slash :
    Url.protocol? plainSpelling.url = some "file:".toList ∧
      Url.protocol? slashSpelling.url = some "file:".toList ∧
      Path.normalize plainSpelling.resolution.path =
        Path.normalize slashSpelling.resolution.path ∧
      plainSpelling.resolution.format ≠ slashSpelling.resolution.format :=
  ⟨rfl, rfl, rfl, by decide⟩

end Resolver

end ModuleResolution
