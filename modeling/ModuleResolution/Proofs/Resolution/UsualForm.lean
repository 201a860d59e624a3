import ModuleResolution.Proofs.Cache.Transparency
import ModuleResolution.Proofs.Url.RoundTrip
import ModuleResolution.Proofs.Url.Tail

/-!
# Parents in their usual form

A file URL in its usual form is read as the same parts as before, but for an absolute path, so it
has its usual form already.  The URL of a parent is in this form whether the parent is given as a
URL or as a path, and a resolution depends on the parent through that URL alone.
-/

namespace ModuleResolution

namespace Url

namespace File

/-! ## File URLs -/

/-- A URL that can be read has a usual form, which is its own usual form.  For a file URL it has the
same parts, but for an absolute path. -/
theorem exists_normalize_of_split {url : Text} {parts : Parts} (h : split url = .ok parts) :
    ∃ normal, normalize url = .ok normal ∧ normalize normal = .ok normal ∧
      (normal = url ∨ ∃ rest, normal = "file://".toList ++ rest) ∧
      (parts.scheme = "file".toList ->
        split normal = .ok { parts with path := parts.absolutePath }) := by
  have hnormal := normalize_of_split h
  by_cases hscheme : parts.scheme = "file".toList
  · rw [if_neg (not_not_intro hscheme)] at hnormal
    by_cases husual : "//".toList.isPrefixOf (url.drop (parts.scheme.length + 1)) &&
        Path.isAbsolute parts.path
    · rw [if_pos husual] at hnormal
      refine ⟨url, hnormal, hnormal, .inl rfl, fun _ => ?_⟩
      rw [Parts.absolutePath, if_pos (Bool.and_eq_true_iff.1 husual).2, h]
    · rw [if_neg husual] at hnormal
      have hanew := split_anew h
      have hagain := normalize_of_split hanew
      have habsolute := (isRead_of_splitFrom h).absolutePath.1
      have hwritten : parts.anew ++ ending parts.query parts.fragment = "file://".toList ++
          (parts.authority ++ (parts.absolutePath ++ ending parts.query parts.fragment)) :=
        (List.append_assoc _ _ _).trans (List.append_assoc _ _ _)
      have hslashes : ∀ rest : Text, "//".toList.isPrefixOf
          (("file://".toList ++ rest).drop ("file".toList.length + 1)) = true := fun _ => rfl
      rw [hwritten] at hnormal hanew hagain
      rw [if_neg (not_not_intro rfl), if_pos (by rw [hslashes, habsolute]; rfl)] at hagain
      exact ⟨_, hnormal, hagain, .inr ⟨_, rfl⟩, fun _ => by rw [hanew, hscheme]⟩
  · rw [if_pos hscheme] at hnormal
    exact ⟨url, hnormal, hnormal, .inl rfl, fun hfile => absurd hfile hscheme⟩

theorem exists_split_of_normalize {url normal : Text} (h : normalize url = .ok normal) :
    ∃ parts, split url = .ok parts := by
  cases hsplit : split url with
  | ok parts => exact ⟨parts, rfl⟩
  | error cause =>
      rw [normalize, hsplit] at h
      cases h

theorem toPath_of_absolutePath {url : Text} {parts : Parts} (hscheme : parts.scheme = "file".toList)
    (h : split url = .ok { parts with path := parts.absolutePath }) :
    toPath url =
      if parts.authority = [] ∨ parts.authority = "localhost".toList then
        .ok (Percent.decode parts.absolutePath)
      else .error (.otherHost url) := by
  obtain ⟨rest, hrest, -⟩ := parts.exists_absolutePath_eq
  have habsolute : Path.isAbsolute parts.absolutePath := by
    rw [hrest]
    exact Path.isAbsolute_cons_slash _
  have hhost : (!parts.authority.isEmpty && decide (parts.authority ≠ "localhost".toList)) = true ↔
      ¬(parts.authority = [] ∨ parts.authority = "localhost".toList) := by
    rw [Bool.and_eq_true, Bool.not_eq_true', decide_eq_true_iff, not_or, List.isEmpty_eq_false_iff]
  rw [toPath_of_split h, if_neg (not_not_intro hscheme)]
  by_cases hlocal : parts.authority = [] ∨ parts.authority = "localhost".toList
  · rw [if_neg fun hother => hhost.1 hother hlocal, if_pos hlocal, if_neg (by rw [habsolute]; decide)]
  · rw [if_pos (hhost.2 hlocal), if_neg hlocal]

end File

end Url

/-! ## Parents -/

theorem parentUrl_parentUrl {workingDirectory parent url : Text}
    (h : parentUrl workingDirectory parent = .ok url) : parentUrl workingDirectory url = .ok url := by
  suffices hfixed : Path.isAbsolute url = false ∧ Url.isAbsolute url = true ∧
      Url.File.normalize url = .ok url by
    obtain ⟨hpath, habsolute, hnormal⟩ := hfixed
    rw [parentUrl, hpath, habsolute]
    exact hnormal
  have hfile : ∀ other, Url.IsFile other -> Path.isAbsolute other = false ∧
      Url.isAbsolute other = true ∧ Url.File.normalize other = .ok other := by
    intro other hother
    have habsolute := hother.isAbsolute
    obtain ⟨path, rfl, hpath, hplain⟩ := hother
    exact ⟨rfl, habsolute, Url.File.normalize_file hpath hplain⟩
  unfold parentUrl at h
  by_cases hurl : (!Path.isAbsolute parent && Url.isAbsolute parent) = true
  · rw [if_pos hurl] at h
    rw [Bool.and_eq_true, Bool.not_eq_true'] at hurl
    obtain ⟨parts, hsplit⟩ := Url.File.exists_split_of_normalize h
    obtain ⟨normal, hnormal, hagain, hform, -⟩ := Url.File.exists_normalize_of_split hsplit
    obtain rfl : normal = url := Except.ok.inj (hnormal.symm.trans h)
    rcases hform with rfl | ⟨rest, rfl⟩
    · exact ⟨hurl.1, hurl.2, hagain⟩
    · exact ⟨rfl, Url.isAbsolute_of_file _, hagain⟩
  · rw [if_neg hurl] at h
    split at h
    · exact Except.ok.inj h ▸ hfile _ (Url.isFile_ofDirectory _ _)
    · exact Except.ok.inj h ▸ hfile _ (Url.isFile_ofPath _ _)

namespace Resolver

/-- A URL that can be read has a usual form that is its own usual form.  An absolute file URL in its
usual form names a path exactly if its host is empty or `localhost`, and names the path that the URL
names, if it names one.  A parent may be replaced by its URL: the URL of that is the same, and every
resolution has the same course, the same answer and the same key, and leaves the same cache. -/
theorem resolve_from_usual_form :
    (∀ url parts, Url.split url = .ok parts ->
      ∃ normal, Url.File.normalize url = .ok normal ∧ Url.File.normalize normal = .ok normal ∧
        (Url.isAbsolute url -> Url.protocol? url = some "file:".toList ->
          ((∃ path, Url.File.toPath normal = .ok path) ↔
            parts.authority = [] ∨ parts.authority = "localhost".toList) ∧
          ∀ path, Url.File.toPath url = .ok path -> Url.File.toPath normal = .ok path)) ∧
    ∀ (resolver : Resolver) (parent url : Text),
      parentUrl resolver.workingDirectory parent = .ok url ->
        parentUrl resolver.workingDirectory url = .ok url ∧
        ∀ specifier,
          resolver.key? ⟨specifier, parent⟩ = some (Cache.key specifier url) ∧
          resolver.key? ⟨specifier, url⟩ = some (Cache.key specifier url) ∧
          ∀ cache useCache, resolver.resolve cache specifier url useCache =
            resolver.resolve cache specifier parent useCache := by
  constructor
  · intro url parts hsplit
    obtain ⟨normal, hnormal, hagain, -, hparts⟩ := Url.File.exists_normalize_of_split hsplit
    refine ⟨normal, hnormal, hagain, fun _ hfile => ?_⟩
    have hscheme := Url.scheme_eq_file hfile hsplit
    have hpath := Url.File.toPath_of_absolutePath hscheme (hparts hscheme)
    rw [hpath]
    constructor
    · split
      · next hhost => exact iff_of_true ⟨_, rfl⟩ hhost
      · next hhost =>
          refine iff_of_false ?_ hhost
          rintro ⟨path, h⟩
          cases h
    · intro path h
      obtain ⟨own, hown, hscheme, hhost, habsolute⟩ := Url.isLocal_of_toPath h
      obtain rfl : own = parts := Except.ok.inj (hown.symm.trans hsplit)
      have hsame : own.absolutePath = own.path := if_pos habsolute
      rw [if_pos hhost, ← h, Url.File.toPath_of_absolutePath hscheme
        (by rw [hsame]; exact hsplit), if_pos hhost]
  · intro resolver parent url h
    have hagain := parentUrl_parentUrl h
    refine ⟨hagain, fun specifier => ⟨?_, ?_, fun cache useCache => ?_⟩⟩
    · rw [key?, h]
    · rw [key?, hagain]
    · rw [resolve, resolve, h, hagain]

/-- A scheme in capitals, a tab between the slashes and an empty query. -/
theorem resolve_from_usual_form_tab :
    Url.split "FILE:/\t/localhost/d/%41.js?".toList =
      .ok ⟨"file".toList, "localhost".toList, "/d/%41.js".toList, [], []⟩ ∧
    Url.File.normalize "FILE:/\t/localhost/d/%41.js?".toList =
      .ok "file://localhost/d/%41.js".toList ∧
    Url.File.toPath "FILE:/\t/localhost/d/%41.js?".toList = .ok "/d/A.js".toList ∧
    Url.File.toPath "file://localhost/d/%41.js".toList = .ok "/d/A.js".toList ∧
    parentUrl "/".toList "FILE:/\t/localhost/d/%41.js?".toList =
      .ok "file://localhost/d/%41.js".toList ∧
    twoDirectories.resolve .empty "./a.mjs".toList "file://localhost/d/%41.js".toList true =
      twoDirectories.resolve .empty "./a.mjs".toList "FILE:/\t/localhost/d/%41.js?".toList true := by
  have hsplit : Url.split "FILE:/\t/localhost/d/%41.js?".toList =
      .ok ⟨"file".toList, "localhost".toList, "/d/%41.js".toList, [], []⟩ := rfl
  have hnormal : Url.File.normalize "FILE:/\t/localhost/d/%41.js?".toList =
      .ok "file://localhost/d/%41.js".toList := rfl
  have hpath : Url.File.toPath "FILE:/\t/localhost/d/%41.js?".toList = .ok "/d/A.js".toList := rfl
  have hparent : parentUrl "/".toList "FILE:/\t/localhost/d/%41.js?".toList =
      .ok "file://localhost/d/%41.js".toList := rfl
  obtain ⟨normal, heq, -, hfile⟩ := resolve_from_usual_form.1 _ _ hsplit
  obtain rfl : normal = "file://localhost/d/%41.js".toList :=
    Except.ok.inj (heq.symm.trans hnormal)
  obtain ⟨-, hsame⟩ := resolve_from_usual_form.2 twoDirectories _ _ hparent
  exact ⟨hsplit, hnormal, hpath, (hfile rfl rfl).2 _ hpath, hparent, (hsame _).2.2 _ _⟩

end Resolver

end ModuleResolution
