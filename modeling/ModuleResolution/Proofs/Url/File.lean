import ModuleResolution.Proofs.Path
import ModuleResolution.Proofs.Percent
import ModuleResolution.Url.File

/-!
# Reading file URLs

A local file URL that is written in its usual form is read as its path, query and fragment, and
the URL of a directory is the escaped components of its path.
-/

namespace ModuleResolution

namespace Url

open Text (cut joinWith)

/-! ## Characters -/

/-- Does the character stay in the path of a URL where it stands? -/
def isPlain (c : Char) : Bool :=
  !isBreak c && c != '?' && c != '#'

theorem not_isBreak_of_isPlain {c : Char} (h : isPlain c) : isBreak c = false := by
  simp only [isPlain, Bool.and_eq_true, Bool.not_eq_true'] at h
  exact h.1.1

theorem ne_question_of_isPlain {c : Char} (h : isPlain c) : c ≠ '?' := by
  rintro rfl
  exact absurd h (by decide)

theorem ne_hash_of_isPlain {c : Char} (h : isPlain c) : c ≠ '#' := by
  rintro rfl
  exact absurd h (by decide)

theorem question_not_mem {text : Text} (h : ∀ c ∈ text, isPlain c) : '?' ∉ text :=
  fun hc => ne_question_of_isPlain (h _ hc) rfl

theorem hash_not_mem {text : Text} (h : ∀ c ∈ text, isPlain c) : '#' ∉ text :=
  fun hc => ne_hash_of_isPlain (h _ hc) rfl

theorem clean_cons {c : Char} (hc : isLeadingNoise c = false) {text : Text}
    (h : ∀ d ∈ c :: text, isBreak d = false) : clean (c :: text) = c :: text := by
  have hdrop : (c :: text).dropWhile isLeadingNoise = c :: text := by simp [hc]
  rw [clean, hdrop]
  exact List.filter_eq_self.2 fun d hd => by rw [h d hd]; rfl

theorem not_isBreak_of_mem_clean {text : Text} {c : Char} (h : c ∈ clean text) :
    isBreak c = false := by
  have hc := (List.mem_filter.1 h).2
  simpa using hc

theorem clean_isSuffix {text : Text} (h : ∀ c ∈ text, isBreak c = false) : clean text <:+ text := by
  have hsuffix : text.dropWhile isLeadingNoise <:+ text := List.dropWhile_suffix _
  rw [clean, List.filter_eq_self.2 fun c hc => by rw [h c (hsuffix.subset hc)]; rfl]
  exact hsuffix

theorem scheme?_append (scheme : Text) (h : isScheme scheme) (hcolon : ':' ∉ scheme) (rest : Text) :
    scheme? (scheme ++ ':' :: rest) = some (scheme, rest) := by
  simp [scheme?, Text.cut_append_cons hcolon, h]

/-! ## Splitting -/

def ending (query fragment : Text) : Text :=
  (if query = [] then [] else '?' :: query) ++ (if fragment = [] then [] else '#' :: fragment)

theorem ending_nil : ending [] [] = [] := rfl

theorem cut_ending {path query : Text} (fragment : Text) (hq : '?' ∉ path) (hf : '#' ∉ path)
    (hqf : '#' ∉ query) :
    cut '?' (cut '#' (path ++ ending query fragment)).1 =
        (path, if query = [] then none else some query) ∧
      (cut '#' (path ++ ending query fragment)).2 =
        if fragment = [] then none else some fragment := by
  have hcut : cut '?' (path ++ if query = [] then [] else '?' :: query) =
      (path, if query = [] then none else some query) := by
    by_cases hquery : query = []
    · rw [if_pos hquery, if_pos hquery, List.append_nil, Text.cut_of_not_mem hq]
    · rw [if_neg hquery, if_neg hquery, Text.cut_append_cons hq]
  have hhash : '#' ∉ path ++ if query = [] then [] else '?' :: query := by
    split
    · simpa using hf
    · simp [hf, hqf]
  unfold ending
  rw [← List.append_assoc]
  by_cases hfragment : fragment = []
  · rw [if_pos hfragment, if_pos hfragment, List.append_nil, Text.cut_of_not_mem hhash]
    exact ⟨hcut, rfl⟩
  · rw [if_neg hfragment, if_neg hfragment, Text.cut_append_cons hhash]
    exact ⟨hcut, rfl⟩

theorem getD_ite_nil (text : Text) : (if text = [] then none else some text).getD [] = text := by
  split
  · next h => rw [h]; rfl
  · rfl

theorem file_toList : "file://".toList = ['f', 'i', 'l', 'e', ':', '/', '/'] := rfl

theorem not_isBreak_of_mem_ending {query fragment : Text}
    (hquery : ∀ c ∈ query, isBreak c = false) (hfragment : ∀ c ∈ fragment, isBreak c = false) :
    ∀ c ∈ ending query fragment, isBreak c = false := by
  intro c hc
  rcases List.mem_append.1 hc with hc | hc
  · split at hc
    · exact absurd hc List.not_mem_nil
    · rcases List.mem_cons.1 hc with rfl | hc
      · decide
      · exact hquery c hc
  · split at hc
    · exact absurd hc List.not_mem_nil
    · rcases List.mem_cons.1 hc with rfl | hc
      · decide
      · exact hfragment c hc

structure IsAuthority (authority : Text) : Prop where
  ends : ∀ c ∈ authority, endsAuthority c = false
  unbroken : ∀ c ∈ authority, isBreak c = false
  faultless : Host.fault? authority = none

theorem isAuthority_nil : IsAuthority [] :=
  ⟨fun _ hc => absurd hc List.not_mem_nil, fun _ hc => absurd hc List.not_mem_nil, rfl⟩

theorem cutAuthority_append {authority : Text} (h : ∀ c ∈ authority, endsAuthority c = false)
    (rest : Text) :
    cutAuthority ('/' :: '/' :: (authority ++ '/' :: rest)) = (authority, '/' :: rest) := by
  have hslash : endsAuthority '/' = true := rfl
  have hall : ∀ c ∈ authority, (!endsAuthority c) = true := fun c hc => by
    rw [h c hc]
    rfl
  rw [cutAuthority, List.takeWhile_append_of_pos hall, List.dropWhile_append_of_pos hall]
  simp [hslash]

theorem splitFrom_file_host (scheme : Text) {authority path query fragment : Text}
    (hauthority : IsAuthority authority) (habsolute : Path.isAbsolute path)
    (hpath : ∀ c ∈ path, isPlain c) (hquery : ∀ c ∈ query, isBreak c = false)
    (hqf : '#' ∉ query) (hfragment : ∀ c ∈ fragment, isBreak c = false) :
    splitFrom scheme ("file://".toList ++ authority ++ path ++ ending query fragment) =
      .ok ⟨"file".toList, authority, path, query, fragment⟩ := by
  obtain ⟨rest, rfl⟩ := Path.isAbsolute_iff.1 habsolute
  have hbreak : ∀ c ∈ authority ++ '/' :: (rest ++ ending query fragment), isBreak c = false := by
    intro c hc
    rcases List.mem_append.1 hc with hc | hc
    · exact hauthority.unbroken c hc
    · rw [← List.cons_append] at hc
      rcases List.mem_append.1 hc with hc | hc
      · exact not_isBreak_of_isPlain (hpath c hc)
      · exact not_isBreak_of_mem_ending hquery hfragment c hc
  have hclean : clean ("file://".toList ++ authority ++ '/' :: rest ++ ending query fragment) =
      "file".toList ++
        ':' :: '/' :: '/' :: (authority ++ '/' :: (rest ++ ending query fragment)) := by
    rw [List.append_assoc, List.append_assoc, List.cons_append, file_toList]
    refine clean_cons (by decide) fun c hc => ?_
    have hmem : c ∈ ['f', 'i', 'l', 'e', ':', '/', '/'] ++
        (authority ++ '/' :: (rest ++ ending query fragment)) := hc
    rcases List.mem_append.1 hmem with hc | hc
    · have hscheme : ['f', 'i', 'l', 'e', ':', '/', '/'].all fun d => !isBreak d := rfl
      simpa using List.all_eq_true.1 hscheme c hc
    · exact hbreak c hc
  have hcutAuthority := cutAuthority_append hauthority.ends (rest ++ ending query fragment)
  have hscheme := scheme?_append "file".toList (by decide) (by decide)
    ('/' :: '/' :: (authority ++ '/' :: (rest ++ ending query fragment)))
  obtain ⟨hcut, hafter⟩ :=
    cut_ending fragment (question_not_mem hpath) (hash_not_mem hpath) hqf
  rw [List.cons_append] at hcut hafter
  unfold splitFrom
  simp only [hclean, hscheme, hcutAuthority, hauthority.faultless, hcut, hafter, getD_ite_nil]
  rfl

theorem splitFrom_file (scheme : Text) {path query fragment : Text}
    (habsolute : Path.isAbsolute path) (hpath : ∀ c ∈ path, isPlain c)
    (hquery : ∀ c ∈ query, isBreak c = false) (hqf : '#' ∉ query)
    (hfragment : ∀ c ∈ fragment, isBreak c = false) :
    splitFrom scheme ("file://".toList ++ path ++ ending query fragment) =
      .ok ⟨"file".toList, [], path, query, fragment⟩ := by
  have hsplit :=
    splitFrom_file_host scheme isAuthority_nil habsolute hpath hquery hqf hfragment
  rwa [List.append_nil] at hsplit

theorem split_file {path : Text} (habsolute : Path.isAbsolute path)
    (hplain : ∀ c ∈ path, isPlain c) :
    split ("file://".toList ++ path) = .ok ⟨"file".toList, [], path, [], []⟩ := by
  have hnil : ∀ c ∈ ([] : Text), isBreak c = false := fun _ hc => by cases hc
  have hsplit := splitFrom_file [] habsolute hplain hnil List.not_mem_nil hnil
  have hending : ending [] [] = [] := rfl
  rwa [hending, List.append_nil] at hsplit

/-! ## Paths of URLs -/

namespace File

theorem isFaithful_isKept : Percent.IsFaithful isKept := by
  intro c hc
  simp only [isKept, Bool.or_eq_true] at hc
  rcases hc with (hc | hc) | hc
  · have hlt : c.toNat < 0x80 ∧ c ≠ '%' := by
      simp only [isLetter, Bool.or_eq_true, Bool.and_eq_true, decide_eq_true_eq] at hc
      have hz : c.toNat ≤ 0x7a ∧ 0x41 ≤ c.toNat := by
        rcases hc with ⟨h1, h2⟩ | ⟨h1, h2⟩
        · have h3 : 0x61 ≤ c.toNat := h1
          have h4 : c.toNat ≤ 0x7a := h2
          omega
        · have h3 : 0x41 ≤ c.toNat := h1
          have h4 : c.toNat ≤ 0x5a := h2
          omega
      refine ⟨by omega, ?_⟩
      rintro rfl
      exact absurd hz.2 (by decide)
    exact ⟨decide_eq_true hlt.1, hlt.2⟩
  · have hd : 0x30 ≤ c.toNat ∧ c.toNat ≤ 0x39 := by
      simp only [Char.isDigit, Bool.and_eq_true, decide_eq_true_eq] at hc
      exact ⟨hc.1, hc.2⟩
    refine ⟨decide_eq_true (by omega), ?_⟩
    rintro rfl
    exact absurd hd.1 (by decide)
  · have hall : "_.-~/!$&'()*+,;=:@[]^|".toList.all fun d => Percent.isAscii d && d != '%' := rfl
    have hboth := List.all_eq_true.1 hall c (List.contains_iff_mem.1 hc)
    rw [Bool.and_eq_true, bne_iff_ne] at hboth
    exact hboth

theorem isPlain_of_mem_escape {octet : UInt8} {c : Char} (h : c ∈ Percent.escape octet) :
    isPlain c ∧ c ≠ '/' := by
  have hlt : octet.toNat < 256 := octet.toNat_lt
  have hdigit : ∀ i : Fin 16, isPlain (Percent.hexDigit i) ∧ Percent.hexDigit i ≠ '/' := by decide
  simp only [Percent.escape, List.mem_cons, List.not_mem_nil, or_false] at h
  rcases h with rfl | rfl | rfl
  · decide
  · exact hdigit ⟨octet.toNat / 16, by omega⟩
  · exact hdigit ⟨octet.toNat % 16, by omega⟩

theorem isPlain_of_isKept {c : Char} (h : isKept c) : isPlain c := by
  refine Decidable.byContradiction fun hc => ?_
  have hcases : c = '\t' ∨ c = '\r' ∨ c = '\n' ∨ c = '?' ∨ c = '#' := by
    simp only [isPlain, isBreak, Bool.and_eq_true, Bool.not_eq_true', Bool.or_eq_false_iff,
      bne_iff_ne, ne_eq, beq_eq_false_iff_ne] at hc
    grind
  rcases hcases with rfl | rfl | rfl | rfl | rfl <;> exact absurd h (by decide)

theorem isPlain_of_mem_encode {text : Text} {c : Char} (h : c ∈ Percent.encode isKept text) :
    isPlain c := by
  rcases Percent.mem_encode h with ⟨hkeep, _⟩ | ⟨octet, hoctet⟩
  · exact isPlain_of_isKept hkeep
  · exact (isPlain_of_mem_escape hoctet).1

theorem slash_not_mem_encode {text : Text} (h : '/' ∉ text) :
    '/' ∉ Percent.encode isKept text := by
  intro hc
  rcases Percent.mem_encode hc with ⟨_, hmem⟩ | ⟨octet, hoctet⟩
  · exact h hmem
  · exact (isPlain_of_mem_escape hoctet).2 rfl

theorem isAbsolute_encode {path : Text} (h : Path.isAbsolute path) :
    Path.isAbsolute (Percent.encode isKept path) := by
  obtain ⟨rest, rfl⟩ := Path.isAbsolute_iff.1 h
  rw [Percent.encode_cons, if_pos (by decide)]
  exact Path.isAbsolute_cons_slash _

theorem decode_encode (text : Text) : Percent.decode (Percent.encode isKept text) = text :=
  Percent.decode_encode isFaithful_isKept text

theorem isName_encode {name : Text} (h : Path.IsName name) :
    Path.IsName (Percent.encode isKept name) where
  ne_nil := Percent.encode_ne_nil h.ne_nil
  ne_dot he := h.ne_dot (by rw [← decode_encode name, he]; decide)
  ne_up he := h.ne_up (by rw [← decode_encode name, he]; decide)
  not_mem := slash_not_mem_encode h.not_mem

theorem toPath_of_split {url : Text} {parts : Parts} (h : split url = .ok parts) :
    toPath url =
      if parts.scheme ≠ "file".toList then .error (.otherScheme url)
      else if !parts.authority.isEmpty && parts.authority ≠ "localhost".toList then
        .error (.otherHost url)
      else if !Path.isAbsolute parts.path then .error (.relativePath url)
      else .ok (Percent.decode parts.path) := by
  unfold toPath
  rw [h]
  by_cases hscheme : parts.scheme ≠ "file".toList
  · rw [if_pos hscheme]
    show (if parts.scheme ≠ "file".toList then _ else _) = _
    rw [if_pos hscheme]
    rfl
  · rw [if_neg hscheme]
    show (if parts.scheme ≠ "file".toList then _ else _) = _
    rw [if_neg hscheme]
    show (if !parts.authority.isEmpty && parts.authority ≠ "localhost".toList then _ else _) = _
    split
    · rfl
    · show (if !Path.isAbsolute parts.path then _ else _) = _
      split
      · rfl
      · rfl

theorem exists_parts_of_toPath {url path : Text} (h : toPath url = .ok path) :
    ∃ parts, split url = .ok parts ∧ Path.isAbsolute parts.path ∧
      path = Percent.decode parts.path := by
  cases hsplit : split url with
  | error cause =>
      rw [toPath, hsplit] at h
      cases h
  | ok parts =>
      rw [toPath_of_split hsplit] at h
      split at h
      · cases h
      · split at h
        · cases h
        · split at h
          · cases h
          · next habsolute => exact ⟨parts, rfl, by simpa using habsolute, (Except.ok.inj h).symm⟩

theorem isAbsolute_of_toPath {url path : Text} (h : toPath url = .ok path) :
    Path.isAbsolute path := by
  obtain ⟨parts, -, habsolute, rfl⟩ := exists_parts_of_toPath h
  obtain ⟨rest, hrest⟩ := Path.isAbsolute_iff.1 habsolute
  have hdecode := Percent.decode_append_cons Percent.isSeparator_slash [] rest
  rw [List.nil_append] at hdecode
  rw [hrest, hdecode]
  exact Path.isAbsolute_cons_slash _

theorem toPath_file {path query fragment : Text} (habsolute : Path.isAbsolute path)
    (hpath : ∀ c ∈ path, isPlain c) (hquery : ∀ c ∈ query, isBreak c = false) (hqf : '#' ∉ query)
    (hfragment : ∀ c ∈ fragment, isBreak c = false) :
    toPath ("file://".toList ++ path ++ ending query fragment) = .ok (Percent.decode path) := by
  have hsplit := splitFrom_file [] habsolute hpath hquery hqf hfragment
  rw [toPath_of_split hsplit]
  simp [habsolute]

theorem toPath_of_isPlain {path : Text} (habsolute : Path.isAbsolute path)
    (hplain : ∀ c ∈ path, isPlain c) :
    toPath ("file://".toList ++ path) = .ok (Percent.decode path) := by
  rw [toPath_of_split (split_file habsolute hplain)]
  simp [habsolute]

/-! ## URLs of paths -/

theorem ofPath_of_isAbsolute (directory : Text) {path : Text} (h : Path.isAbsolute path) :
    ofPath directory path =
      "file://".toList ++ Percent.encode isKept (Path.normalize path) := by
  have hjoin : Path.join directory path = path := by rw [Path.join, if_pos h]
  unfold ofPath Path.absolute
  rw [hjoin]
  simp only [Path.isAbsolute_normalize h, if_true]

/-- The segments of the URL of a directory. -/
def segments (directory : Text) : List Text :=
  (Path.components directory).map (Percent.encode isKept)

theorem isName_of_mem_segments {directory : Text} (h : Path.isAbsolute directory) {segment : Text}
    (hs : segment ∈ segments directory) : Path.IsName segment := by
  obtain ⟨name, hname, rfl⟩ := List.mem_map.1 hs
  exact isName_encode (Path.isName_of_mem_components h hname)

theorem isPlain_of_mem_segments {directory segment : Text} (hs : segment ∈ segments directory)
    {c : Char} (hc : c ∈ segment) : isPlain c := by
  obtain ⟨name, _, rfl⟩ := List.mem_map.1 hs
  exact isPlain_of_mem_encode hc

theorem map_decode_segments (directory : Text) :
    (segments directory).map Percent.decode = Path.components directory := by
  rw [segments, List.map_map]
  exact List.map_id'' decode_encode _

theorem ofPath_eq_segments (directory : Text) {path : Text} (habsolute : Path.isAbsolute path)
    (hsingle : "//".toList.isPrefixOf path = false) :
    ofPath directory path = "file:///".toList ++ joinWith '/' (segments path) := by
  rw [ofPath_of_isAbsolute directory habsolute, Path.normalize_of_single habsolute hsingle,
    Percent.encode_cons, if_pos (by decide), Percent.encode_joinWith (by decide)]
  rfl

theorem ofDirectory_eq (directory : Text) {path : Text} (h : Path.IsCanonical path) :
    ofDirectory directory path = "file:///".toList ++ joinWith '/' (segments path ++ [[]]) := by
  have hurl := ofPath_eq_segments directory h.isAbsolute h.single
  unfold ofDirectory
  simp only [hurl]
  cases hsegments : (segments path).getLast? with
  | none =>
      have hnil : segments path = [] := List.getLast?_eq_none_iff.1 hsegments
      rw [hnil]
      rfl
  | some last =>
      obtain ⟨before, hbefore⟩ := List.getLast?_eq_some_iff.1 hsegments
      have hname : Path.IsName last :=
        isName_of_mem_segments h.isAbsolute (by rw [hbefore]; simp)
      have hlast : ¬"/".toList.isSuffixOf ("file:///".toList ++ joinWith '/' (segments path)) := by
        rw [List.isSuffixOf_iff_suffix]
        intro hslash
        have hend : last <:+ "file:///".toList ++ joinWith '/' (segments path) := by
          rw [hbefore]
          exact (Text.isSuffix_joinWith '/' before last).trans (List.suffix_append _ _)
        have hmem := List.suffix_of_suffix_length_le hslash hend
          (List.length_pos_iff.2 hname.ne_nil)
        exact hname.not_mem (hmem.subset (List.mem_singleton.2 rfl))
      rw [if_neg hlast, Text.joinWith_append (by rw [hbefore]; simp) (by simp)]
      simp [joinWith]

end File

end Url

end ModuleResolution
