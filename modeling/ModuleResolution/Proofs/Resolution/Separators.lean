import ModuleResolution.Proofs.Resolution.Files

/-!
# Separators of resolved paths

The search for escaped separators goes over a URL as it is written, and its path is read after tabs
and line breaks are dropped.  So an escape with a break in it is found by the reading only.
-/

namespace ModuleResolution

open Text (lowerAscii occurrences)

namespace Resolver

variable {resolver : Resolver} {request : Request}

/-- A resolved path has the separators of the URL's path and one for each escaped separator that is
there once breaks are dropped.  Reading adds none exactly if the search would find none there, and
so it is for every URL without breaks. -/
theorem Success.count_separators (success : resolver.Success request)
    (hfile : Url.protocol? success.url = some "file:".toList) :
    ∃ parts, Url.split success.url = .ok parts ∧
      success.resolution.path.count '/' =
        parts.path.count '/' + occurrences "%2f".toList (lowerAscii parts.path) ∧
      success.resolution.path.count '\\' =
        parts.path.count '\\' + occurrences "%5c".toList (lowerAscii parts.path) ∧
      (hasEncodedSeparator parts.path = false ↔
        success.resolution.path.count '/' = parts.path.count '/' ∧
          success.resolution.path.count '\\' = parts.path.count '\\') ∧
      ((∀ c ∈ success.url, Url.isBreak c = false) ->
        success.resolution.path.count '/' = parts.path.count '/' ∧
          success.resolution.path.count '\\' = parts.path.count '\\') := by
  obtain ⟨hresolved, -⟩ := outcome_resolveFile_eq_ok_iff.1 (success.resolveFile_eq hfile)
  obtain ⟨parts, hsplit, -, hpath⟩ := Url.File.exists_parts_of_toPath hresolved
  have hiff := hasEncodedSeparator_eq_false_iff parts.path
  rw [hpath]
  refine ⟨parts, hsplit, count_slash_decode _, count_backslash_decode _, hiff, fun hbreak => ?_⟩
  have hinfix := ((Url.isCutFrom_of_splitFrom hsplit).trans (Url.clean_isSuffix hbreak).isInfix).path
  have hsearch := (protocol_of_classify success.classify_eq).1
  exact hiff.1 (hasEncodedSeparator_of_isInfix hinfix hsearch)

theorem Success.count_separators_percent :
    Url.protocol? percentName.url = some "file:".toList ∧
      percentName.resolution.path.count '/' = 2 ∧
      percentName.resolution.path.count '\\' = 0 := by
  have hfile : Url.protocol? percentName.url = some "file:".toList := rfl
  obtain ⟨parts, hsplit, -, -, -, hplain⟩ := Success.count_separators percentName hfile
  have hbreak : percentName.url.all fun c => !Url.isBreak c := by decide
  obtain ⟨hslash, hback⟩ := hplain fun c hc => by simpa using List.all_eq_true.1 hbreak c hc
  cases hsplit
  exact ⟨hfile, hslash, hback⟩

def brokenEscape : (script "/p/a/b.mjs".toList).Success
    ⟨"file:///p/a%2\tfb.mjs".toList, "/b.js".toList⟩ where
  parent := "file:///b.js".toList
  url := "file:///p/a%2\tfb.mjs".toList
  resolution := ⟨"/p/a/b.mjs".toList, some .module⟩
  parentUrl_eq := rfl
  resolvedUrl_eq := rfl
  direct_eq := rfl

theorem count_slash_ne_of_broken_escape :
    Url.protocol? brokenEscape.url = some "file:".toList ∧
      ∃ parts, Url.split brokenEscape.url = .ok parts ∧
        parts.path = "/p/a%2fb.mjs".toList ∧
        brokenEscape.resolution.path.count '/' ≠ parts.path.count '/' :=
  ⟨rfl, _, rfl, rfl, by decide⟩

end Resolver

end ModuleResolution
