import ModuleResolution.Proofs.Url.Tail

/-!
# References seen from file URLs

A reference without another scheme takes the authority of a file URL, and its path too if it has
none of its own.  What comes out is a file URL again, and a tail of the reference stands behind it.
From whatever URL, a scheme that no relative reference can have comes from the reference alone.
-/

namespace ModuleResolution

namespace Url

open Text (splitOn joinWith)

/-! ## Joining -/

theorem toText_eq_append (parts : Parts) :
    parts.toText =
      Parts.toText { parts with query := [], fragment := [] } ++
        ending parts.query parts.fragment := by
  obtain ⟨scheme, authority, path, query, fragment⟩ := parts
  unfold Parts.toText ending
  cases query with
  | nil =>
      cases fragment with
      | nil => simp
      | cons d others => simp
  | cons c rest =>
      cases fragment with
      | nil => simp
      | cons d others => simp

theorem exists_toText_eq {parts : Parts} (h : parts.scheme ≠ []) :
    ∃ rest, parts.toText = parts.scheme ++ ':' :: rest := by
  have hscheme : parts.scheme.isEmpty = false := List.isEmpty_eq_false_iff.2 h
  unfold Parts.toText
  simp only [hscheme, Bool.false_eq_true, if_false]
  split
  · split
    · exact ⟨_, rfl⟩
    · exact ⟨_, List.append_assoc _ _ _⟩
  · split
    · exact ⟨_, List.append_assoc _ _ _⟩
    · exact ⟨_, by rw [List.append_assoc, List.append_assoc]; rfl⟩

theorem protocol?_toText_of_mem {parts : Parts} (h : parts.scheme ∈ relativeSchemes)
    (hne : parts.scheme ≠ []) : protocol? parts.toText = some (parts.scheme ++ [':']) := by
  have hall : ∀ scheme ∈ relativeSchemes, scheme ≠ [] ->
      isScheme scheme = true ∧ ':' ∉ scheme ∧ Text.lowerAscii scheme = scheme := by decide
  obtain ⟨hscheme, hcolon, hlower⟩ := hall _ h hne
  obtain ⟨rest, hrest⟩ := exists_toText_eq hne
  rw [hrest, protocol?, scheme?_append _ hscheme hcolon]
  exact congrArg (fun scheme => some (scheme ++ [':'])) hlower

theorem protocol?_toText {parts : Parts} (h : parts.scheme = "file".toList) :
    protocol? parts.toText = some "file:".toList := by
  have hne : parts.scheme ≠ [] := by
    rw [h]
    decide
  rw [protocol?_toText_of_mem (h ▸ by decide) hne, h]
  rfl

def joinParts (source target : Parts) : Parts :=
  if target.authority ≠ [] then target
  else if target.path = [] then
    { source with
      query := if target.query = [] then source.query else target.query
      fragment := target.fragment }
  else { target with
    authority := source.authority
    path := joinPath source.path target.path }

theorem read_of_splitFrom {scheme text : Text} {parts : Parts}
    (h : splitFrom scheme text = .ok parts) (hscheme : parts.scheme = "file".toList) :
    Reference.read scheme text = .ok ⟨parts, []⟩ := by
  have hparameters : parameterSchemes.contains parts.scheme = false := by
    rw [hscheme]
    decide
  rw [Reference.read, h]
  show (if parameterSchemes.contains parts.scheme then _ else _) = _
  rw [hparameters]
  rfl

theorem ne_nil_of_splitFrom {text : Text} {parts : Parts} (h : splitFrom [] text = .ok parts)
    (hscheme : parts.scheme = "file".toList) : text ≠ [] := by
  rintro rfl
  cases h
  cases hscheme

theorem toText_seenFrom (target source : Parts) :
    (Reference.seenFrom ⟨target, []⟩ ⟨source, []⟩).toText = (joinParts source target).toText := by
  unfold Reference.seenFrom joinParts
  by_cases hauthority : target.authority = []
  · by_cases hpath : target.path = []
    · simp [hauthority, hpath, Reference.toText]
    · simp [hauthority, hpath, Reference.toText]
  · simp [hauthority, Reference.toText]

theorem joinReference_of_splitFrom {base reference : Text} {source target : Parts}
    (hsource : splitFrom [] base = .ok source) (hfile : source.scheme = "file".toList)
    (htarget : splitFrom "file".toList reference = .ok target)
    (hscheme : target.scheme = "file".toList) (hreference : reference ≠ []) :
    joinReference base reference = .ok (joinParts source target).toText := by
  have hrelative : (⟨target, []⟩ : Reference).IsRelativeTo ⟨source, []⟩ :=
    ⟨hscheme.trans hfile.symm, hscheme ▸ by decide⟩
  have hread : Reference.read source.scheme reference = .ok ⟨target, []⟩ :=
    hfile ▸ read_of_splitFrom htarget hscheme
  rw [joinReference_of_isRelativeTo (ne_nil_of_splitFrom hsource hfile) hreference
    (read_of_splitFrom hsource hfile) hread hrelative, toText_seenFrom]

theorem joinReference_of_other_scheme {base reference : Text} {source : Parts} {target : Reference}
    (hsource : splitFrom [] base = .ok source) (hfile : source.scheme = "file".toList)
    (htarget : Reference.read "file".toList reference = .ok target)
    (hscheme : target.parts.scheme ≠ "file".toList) :
    joinReference base reference = .ok reference := by
  have hreference : reference ≠ [] := by
    rintro rfl
    exact hscheme (scheme_of_read rfl htarget)
  exact joinReference_of_not_isRelativeTo (ne_nil_of_splitFrom hsource hfile) hreference
    (read_of_splitFrom hsource hfile) (hfile.symm ▸ htarget) fun h => hscheme (h.1.trans hfile)

theorem join_of_isSettled {base value : Text} {source : Parts} (h : IsSettled value)
    (hsource : splitFrom [] base = .ok source) (hfile : source.scheme = "file".toList) :
    join base value = .ok value := by
  cases habsolute : isAbsolute value with
  | true =>
      rw [join, habsolute]
      rfl
  | false =>
      have hroot : IsFile "file:///".toList :=
        ⟨['/'], rfl, rfl, fun c hc => by rw [List.mem_singleton.1 hc]; rfl⟩
      have hjoin := h.2 _ hroot
      cases htarget : Reference.read "file".toList value with
      | error cause =>
          obtain ⟨other, herror⟩ :=
            (join_eq_error_iff hroot).2 ⟨habsolute, cause, (read_eq_error_iff _ _).1 htarget⟩
          rw [herror] at hjoin
          cases hjoin
      | ok target =>
          rw [join, habsolute, if_neg Bool.false_ne_true] at hjoin ⊢
          by_cases hscheme : target.parts.scheme = "file".toList
          · obtain ⟨result, hresult, hresultAbsolute⟩ :=
              joinReference_of_scheme_eq hroot htarget hscheme
            rw [hresult] at hjoin
            rw [Except.ok.inj hjoin, habsolute] at hresultAbsolute
            cases hresultAbsolute
          · exact joinReference_of_other_scheme hsource hfile htarget hscheme

/-! ## Schemes -/

theorem scheme_ne_nil_of_read {given base protocol : Text} {source : Reference}
    (h : protocol? base = some protocol) (hsource : Reference.read given base = .ok source) :
    source.parts.scheme ≠ [] := by
  obtain ⟨⟨written, rest⟩, hwritten, -⟩ := Option.map_eq_some_iff.1 h
  have hclean := scheme?_clean hwritten
  have hscheme : source.parts.scheme = Text.lowerAscii written := by
    obtain ⟨parts, hsplit, hread⟩ := Reference.of_read_eq_ok hsource
    have hparts := scheme_of_splitFrom hclean hsplit
    rcases hread with rfl | rfl
    · exact hparts
    · exact hparts
  rw [hscheme]
  cases written with
  | nil => cases (eq_append_of_scheme? hwritten).2.2
  | cons c others => exact List.cons_ne_nil _ _

theorem joinReference_eq_or {base reference url protocol : Text}
    (hbase : protocol? base = some protocol) (hne : reference ≠ [])
    (h : joinReference base reference = .ok url) :
    url = reference ∨ ∃ scheme ∈ relativeSchemes, protocol? url = some (scheme ++ [':']) := by
  rcases of_joinReference_eq_ok h with
    rfl | ⟨rfl, -⟩ | ⟨source, target, hsource, -, hrelative, rfl⟩
  · exact .inl rfl
  · exact absurd rfl hne
  · have hscheme := Reference.scheme_seenFrom hrelative
    have hnil : target.parts.scheme ≠ [] := by
      rw [hrelative.1]
      exact scheme_ne_nil_of_read hbase hsource
    exact .inr ⟨_, hrelative.2,
      hscheme ▸ protocol?_toText_of_mem (hscheme ▸ hrelative.2) (hscheme ▸ hnil)⟩

theorem eq_of_join_eq_ok {base reference url protocol scheme : Text}
    (hbase : protocol? base = some protocol) (hne : reference ≠ [])
    (h : join base reference = .ok url) (hurl : protocol? url = some (scheme ++ [':']))
    (hscheme : scheme ∉ relativeSchemes) : url = reference := by
  unfold join at h
  split at h
  · exact (Except.ok.inj h).symm
  · rcases joinReference_eq_or hbase hne h with hurl' | ⟨other, hother, hprotocol⟩
    · exact hurl'
    · rw [hurl] at hprotocol
      exact absurd (List.append_cancel_right (Option.some.inj hprotocol) ▸ hother) hscheme

/-! ## Segments of joined paths -/

theorem mem_of_mem_withoutInnerEmpty {segments : List Text} {segment : Text}
    (h : segment ∈ withoutInnerEmpty segments) : segment ∈ segments := by
  match segments with
  | [] => exact h
  | [_] => exact h
  | first :: second :: rest =>
      rw [withoutInnerEmpty_cons first (List.cons_ne_nil second rest)] at h
      rcases List.mem_cons.1 h with rfl | h
      · exact List.mem_cons_self
      · refine List.mem_cons_of_mem _ ?_
        rcases List.mem_append.1 h with h | h
        · exact List.dropLast_subset _ (List.mem_filter.1 h).1
        · rw [List.mem_singleton.1 h]
          exact List.getLast_mem _

theorem exists_pathOfSegments_eq (segments : List Text) :
    ∃ taken, pathOfSegments segments = joinWith '/' taken ∧
      ∀ segment ∈ taken, segment = [] ∨ segment ∈ segments := by
  have hwalk : ∀ segment ∈ segments.foldl walk [], segment ∈ segments := fun segment hs =>
    (mem_foldl_walk hs).resolve_left List.not_mem_nil
  have hstack : ∀ segment ∈ segmentStack segments, segment = [] ∨ segment ∈ segments := by
    intro segment hs
    unfold segmentStack at hs
    simp only at hs
    split at hs
    · exact (List.mem_cons.1 hs).imp_right (hwalk segment)
    · exact .inr (hwalk segment hs)
  have hpath : pathOfSegments segments =
      if (joinWith '/' (segmentStack segments).reverse).isEmpty then ['/']
      else joinWith '/' (segmentStack segments).reverse := rfl
  rw [hpath]
  split
  · exact ⟨[[], []], rfl, fun segment hs => .inl (by simpa using hs)⟩
  · exact ⟨_, rfl, fun segment hs => hstack segment (List.mem_reverse.1 hs)⟩

theorem exists_joinPath_eq (base path : Text) :
    ∃ taken, joinPath base path = joinWith '/' taken ∧
      ∀ segment ∈ taken, segment = [] ∨ segment ∈ splitOn '/' base ∨ segment ∈ splitOn '/' path := by
  have hbase : ∀ segment ∈ baseSegments base, segment ∈ splitOn '/' base := by
    intro segment hs
    unfold baseSegments at hs
    simp only at hs
    split at hs
    · exact hs
    · exact List.dropLast_subset _ hs
  unfold joinPath
  split
  · obtain ⟨taken, hpath, htaken⟩ := exists_pathOfSegments_eq (splitOn '/' path)
    exact ⟨taken, hpath, fun segment hs => (htaken segment hs).imp_right .inr⟩
  · obtain ⟨taken, hpath, htaken⟩ :=
      exists_pathOfSegments_eq (withoutInnerEmpty (baseSegments base ++ splitOn '/' path))
    refine ⟨taken, hpath, fun segment hs => (htaken segment hs).imp_right fun hmem => ?_⟩
    exact (List.mem_append.1 (mem_of_mem_withoutInnerEmpty hmem)).imp_left (hbase segment)

theorem mem_of_mem_joinPath {base path : Text} {c : Char} (h : c ∈ joinPath base path) :
    c = '/' ∨ c ∈ base ∨ c ∈ path := by
  obtain ⟨taken, hpath, htaken⟩ := exists_joinPath_eq base path
  rw [hpath] at h
  rcases Text.mem_joinWith h with h | ⟨segment, hs, hc⟩
  · exact .inl h
  · rcases htaken segment hs with rfl | hs | hs
    · exact absurd hc List.not_mem_nil
    · exact .inr (.inl (Text.mem_of_mem_splitOn hs hc))
    · exact .inr (.inr (Text.mem_of_mem_splitOn hs hc))

theorem isUnmarked_joinPath {base path : Text} (h : IsUnmarked base) (h' : IsUnmarked path) :
    IsUnmarked (joinPath base path) := by
  constructor
  · intro hc
    rcases mem_of_mem_joinPath hc with hc | hc | hc
    · cases hc
    · exact h.question hc
    · exact h'.question hc
  · intro hc
    rcases mem_of_mem_joinPath hc with hc | hc | hc
    · cases hc
    · exact h.hash hc
    · exact h'.hash hc

theorem scheme_joinParts {source target : Parts} (h : source.scheme = target.scheme) :
    (joinParts source target).scheme = target.scheme := by
  unfold joinParts
  split
  · rfl
  · split
    · exact h
    · rfl

theorem joinParts_withTail (source target : Parts) (tail : Text) :
    joinParts (source.withTail tail) target =
      if target.authority = [] ∧ target.path = [] ∧ target.query = [] then
        { joinParts source target with query := referenceQuery tail }
      else joinParts source target := by
  unfold joinParts Parts.withTail
  by_cases hauthority : target.authority = []
  · by_cases hpath : target.path = []
    · by_cases htarget : target.query = []
      · simp [hauthority, hpath, htarget]
      · simp [hauthority, hpath, htarget]
    · simp [hauthority, hpath]
  · simp [hauthority]

theorem isUnmarked_joinParts {source target : Parts} (h : source.IsUnmarked)
    (h' : target.IsUnmarked) : (joinParts source target).IsUnmarked := by
  unfold joinParts
  split
  · exact h'
  · split
    · exact ⟨by simp [h.query, h'.query], h'.fragment, h.authority, h.path⟩
    · exact ⟨h'.query, h'.fragment, h.authority, isUnmarked_joinPath h.path h'.path⟩

theorem toText_withTail {parts : Parts} (h : parts.IsUnmarked) (tail : Text) :
    (parts.withTail tail).toText = parts.toText ++ tidy tail := by
  obtain ⟨scheme, authority, path, query, fragment⟩ := parts
  obtain rfl : query = [] := h.query
  obtain rfl : fragment = [] := h.fragment
  exact toText_eq_append _

theorem isUnmarked_toText {parts : Parts} (h : parts.IsUnmarked)
    (hscheme : IsUnmarked parts.scheme) : IsUnmarked parts.toText := by
  have hslash : IsUnmarked ['/'] := ⟨by decide, by decide⟩
  have hcolon : IsUnmarked [':'] := ⟨by decide, by decide⟩
  have hpath : IsUnmarked (if parts.path.isEmpty || "/".toList.isPrefixOf parts.path then parts.path
      else '/' :: parts.path) := by
    split
    · exact h.path
    · exact hslash.append h.path
  have hwritten : ∀ path, IsUnmarked path ->
      IsUnmarked (if parts.scheme.isEmpty then path else parts.scheme ++ ':' :: path) := by
    intro path hp
    split
    · exact hp
    · exact hscheme.append (hcolon.append hp)
  unfold Parts.toText
  simp only [h.query, h.fragment, List.isEmpty_nil, if_true]
  refine hwritten _ ?_
  split
  · exact ((hslash.append hslash).append h.authority).append hpath
  · exact h.path

/-! ## Specifiers that are paths -/

section Specifier

variable {base specifier : Text}

theorem isAbsolute_of_isPathSpecifier (h : isPathSpecifier specifier) :
    isAbsolute specifier = false := by
  obtain ⟨c, rest, rfl, hc⟩ := File.exists_of_isPathSpecifier h
  rw [isAbsolute, scheme?_eq_none (by rcases hc with rfl | rfl <;> decide)]

theorem scheme?_clean_of_isPathSpecifier (h : isPathSpecifier specifier) :
    scheme? (clean specifier) = none := by
  obtain ⟨c, rest, rfl, hc⟩ := File.exists_of_isPathSpecifier h
  have hvisible : isLeadingNoise c = false ∧ isBreak c = false ∧ isLetter c = false := by
    rcases hc with rfl | rfl <;> decide
  rw [clean_cons_of_visible hvisible.1 hvisible.2.1, scheme?_eq_none hvisible.2.2]

theorem ne_nil_of_isPathSpecifier (h : isPathSpecifier specifier) : specifier ≠ [] := by
  rintro rfl
  cases h

theorem isPathSpecifier_append (h : isPathSpecifier specifier) (rest : Text) :
    isPathSpecifier (specifier ++ rest) := by
  simp only [isPathSpecifier, Bool.or_eq_true, List.isPrefixOf_iff_prefix] at h ⊢
  have hprefix := List.prefix_append specifier rest
  exact h.imp (fun h => h.imp (·.trans hprefix) (·.trans hprefix)) (·.trans hprefix)

theorem join_of_isPathSpecifier {source : Parts} (h : isPathSpecifier specifier)
    (hsource : splitFrom [] base = .ok source) (hfile : source.scheme = "file".toList) :
    join base specifier =
      (splitFrom "file".toList specifier).map fun target => (joinParts source target).toText := by
  have hne := ne_nil_of_isPathSpecifier h
  have hjoin : join base specifier = joinReference base specifier := by
    rw [join, isAbsolute_of_isPathSpecifier h]
    rfl
  rw [hjoin]
  cases htarget : splitFrom "file".toList specifier with
  | ok target =>
      have hscheme :=
        scheme_of_splitFrom_of_none (scheme?_clean_of_isPathSpecifier h) htarget
      exact joinReference_of_splitFrom hsource hfile htarget hscheme hne
  | error cause =>
      have hread : Reference.read "file".toList specifier = .error cause := by
        rw [Reference.read, htarget]
        rfl
      rw [joinReference_of_read (ne_nil_of_splitFrom hsource hfile) hne
        (read_of_splitFrom hsource hfile), hfile, hread]
      rfl

theorem join_of_splitFrom_eq_error {cause : SyntaxError} (h : isPathSpecifier specifier)
    (hsource : splitFrom [] base = .error cause) : join base specifier = .error cause := by
  have hne := ne_nil_of_isPathSpecifier h
  have hbase : base ≠ [] := by
    rintro rfl
    cases hsource
  have hread : Reference.read [] base = .error cause := by
    rw [Reference.read, hsource]
    rfl
  rw [join, isAbsolute_of_isPathSpecifier h, if_neg Bool.false_ne_true]
  exact joinReference_of_read_eq_error hbase hne hread

theorem join_append_of_isTail {tail : Text} (h : isPathSpecifier specifier)
    (hspecifier : IsUnmarked specifier) (htail : IsTail tail) (hbase : IsUnmarked base)
    (hfile : protocol? base = some "file:".toList) :
    join base (specifier ++ tail) = (join base specifier).map (· ++ tidy tail) := by
  have happend := isPathSpecifier_append h tail
  cases hsource : splitFrom [] base with
  | error cause =>
      rw [join_of_splitFrom_eq_error h hsource, join_of_splitFrom_eq_error happend hsource]
      rfl
  | ok source =>
      have hscheme := scheme_eq_file hfile hsource
      rw [join_of_isPathSpecifier h hsource hscheme,
        join_of_isPathSpecifier happend hsource hscheme,
        splitFrom_append_of_isTail _ hspecifier htail]
      cases htarget : splitFrom "file".toList specifier with
      | error cause => rfl
      | ok target =>
          have hunmarked := parts_isUnmarked hbase hsource
          have hparts : joinParts source (target.withTail tail) =
              (joinParts source target).withTail tail := by
            unfold joinParts Parts.withTail
            simp only [hunmarked.query]
            by_cases hauthority : target.authority = []
            · by_cases hpath : target.path = []
              · by_cases hquery : referenceQuery tail = []
                · simp [hauthority, hpath, hquery]
                · simp [hauthority, hpath, hquery]
              · simp [hauthority, hpath]
            · simp [hauthority]
          have htext := toText_withTail
            (isUnmarked_joinParts hunmarked (parts_isUnmarked hspecifier htarget)) tail
          show Except.ok (joinParts source (target.withTail tail)).toText = _
          rw [hparts, htext]
          rfl

theorem of_join_eq_ok {url : Text} (h : isPathSpecifier specifier)
    (hfile : protocol? base = some "file:".toList) (hurl : join base specifier = .ok url) :
    protocol? url = some "file:".toList ∧
      (IsUnmarked base -> IsUnmarked specifier -> IsUnmarked url) := by
  cases hsource : splitFrom [] base with
  | error cause =>
      rw [join_of_splitFrom_eq_error h hsource] at hurl
      cases hurl
  | ok source =>
      have hscheme := scheme_eq_file hfile hsource
      rw [join_of_isPathSpecifier h hsource hscheme] at hurl
      cases htarget : splitFrom "file".toList specifier with
      | error cause =>
          rw [htarget] at hurl
          cases hurl
      | ok target =>
          rw [htarget] at hurl
          cases hurl
          have htargetScheme :=
            scheme_of_splitFrom_of_none (scheme?_clean_of_isPathSpecifier h) htarget
          have hjoined : (joinParts source target).scheme = "file".toList := by
            rw [scheme_joinParts (hscheme.trans htargetScheme.symm), htargetScheme]
          refine ⟨protocol?_toText hjoined, fun hbase hspecifier => ?_⟩
          refine isUnmarked_toText (isUnmarked_joinParts (parts_isUnmarked hbase hsource)
            (parts_isUnmarked hspecifier htarget)) ?_
          rw [hjoined]
          exact ⟨by decide, by decide⟩

/-! ## Bases with a tail -/

/-- The reference has nothing but a fragment.  Two slashes are a path of this kind. -/
def IsSameDocument (reference : Text) : Prop :=
  ∃ fragment, split reference = .ok ⟨[], [], [], [], fragment⟩

theorem splitFrom_eq_map_split {scheme text : Text} (h : scheme? (clean text) = none) :
    splitFrom scheme text = (split text).map fun parts => { parts with scheme } := by
  unfold split splitFrom
  simp only [h]
  split
  · rfl
  · rfl

theorem splitFrom_append_tidied {added : Text} (hbase : IsUnmarked base)
    (hadded : added = [] ∨ IsTail added) :
    splitFrom [] (base ++ added) = (splitFrom [] base).map (·.withTail added) := by
  rcases hadded with rfl | htail
  · rw [List.append_nil]
    cases hsource : splitFrom [] base with
    | error cause => rfl
    | ok source =>
        obtain ⟨scheme, authority, path, query, fragment⟩ := source
        have hunmarked := parts_isUnmarked hbase hsource
        obtain rfl : query = [] := hunmarked.query
        obtain rfl : fragment = [] := hunmarked.fragment
        rfl
  · exact splitFrom_append_of_isTail [] hbase htail

section Base

variable {added : Text} (h : isPathSpecifier specifier) (hbase : IsUnmarked base)
  (hfile : protocol? base = some "file:".toList) (hadded : added = [] ∨ IsTail added)

include h hbase hfile hadded

theorem join_append_base_of_not_isSameDocument (hspecifier : ¬IsSameDocument specifier) :
    join (base ++ added) specifier = join base specifier := by
  have hsplit := splitFrom_append_tidied hbase hadded
  cases hsource : splitFrom [] base with
  | error cause =>
      rw [hsource] at hsplit
      rw [join_of_splitFrom_eq_error h hsource, join_of_splitFrom_eq_error h hsplit]
  | ok source =>
      rw [hsource] at hsplit
      have hscheme := scheme_eq_file hfile hsource
      rw [join_of_isPathSpecifier h hsource hscheme, join_of_isPathSpecifier h hsplit hscheme,
        splitFrom_eq_map_split (scheme?_clean_of_isPathSpecifier h)]
      cases htarget : split specifier with
      | error cause => rfl
      | ok target =>
          have hparts : ¬(target.authority = [] ∧ target.path = [] ∧ target.query = []) := by
            have hnone : target.scheme = [] :=
              scheme_of_splitFrom_of_none (scheme?_clean_of_isPathSpecifier h) htarget
            obtain ⟨scheme, authority, path, query, fragment⟩ := target
            rintro ⟨rfl, rfl, rfl⟩
            obtain rfl : scheme = [] := hnone
            exact hspecifier ⟨fragment, htarget⟩
          have hjoin : joinParts (source.withTail added) { target with scheme := "file".toList } =
              joinParts source { target with scheme := "file".toList } := by
            rw [joinParts_withTail, if_neg hparts]
          exact congrArg (fun parts : Parts => Except.ok parts.toText) hjoin

theorem join_append_base_of_split {fragment : Text} {source : Parts}
    (hspecifier : split specifier = .ok ⟨[], [], [], [], fragment⟩)
    (hsource : splitFrom [] base = .ok source) :
    join base specifier = .ok (source.toText ++ ending [] fragment) ∧
      join (base ++ added) specifier =
        .ok (source.toText ++ ending (referenceQuery added) fragment) := by
  have hsplit := splitFrom_append_tidied hbase hadded
  rw [hsource] at hsplit
  have hscheme := scheme_eq_file hfile hsource
  have htarget : splitFrom "file".toList specifier =
      .ok ⟨"file".toList, [], [], [], fragment⟩ := by
    rw [splitFrom_eq_map_split (scheme?_clean_of_isPathSpecifier h), hspecifier]
    rfl
  have hunmarked := parts_isUnmarked hbase hsource
  obtain ⟨scheme, authority, path, query, fragment'⟩ := source
  obtain rfl : query = [] := hunmarked.query
  obtain rfl : fragment' = [] := hunmarked.fragment
  rw [join_of_isPathSpecifier h hsource hscheme, join_of_isPathSpecifier h hsplit hscheme, htarget]
  constructor
  · exact congrArg Except.ok (toText_eq_append ⟨scheme, authority, path, [], fragment⟩)
  · exact congrArg Except.ok
      (toText_eq_append ⟨scheme, authority, path, referenceQuery added, fragment⟩)

end Base

end Specifier

end Url

end ModuleResolution
