import ModuleResolution.Proofs.Fault.Url
import ModuleResolution.Proofs.Url.Relative
import ModuleResolution.Proofs.Url.Separator

/-!
# Queries and fragments behind a URL

What stands behind the path of a URL does not change how the text before it is read: the scheme, the
authority and the path are the same with it and without it, and a reference takes it along.
-/

namespace ModuleResolution

namespace Url

open Text (cut splitOn joinWith)

/-- A text of nothing but the parts of a URL up to its path. -/
structure IsUnmarked (text : Text) : Prop where
  question : '?' ∉ text
  hash : '#' ∉ text

/-- A query or a fragment or both, as they stand behind a URL.  No character of them is dropped. -/
structure IsTail (tail : Text) : Prop where
  starts : ∃ c rest, tail = c :: rest ∧ (c = '?' ∨ c = '#')
  unbroken : ∀ c ∈ tail, isBreak c = false

theorem isTail_of_all {c : Char} {rest : Text} (hmark : c = '?' ∨ c = '#')
    (h : (c :: rest).all fun d => !isBreak d) : IsTail (c :: rest) :=
  ⟨⟨c, rest, rfl, hmark⟩, fun d hd => by simpa using List.all_eq_true.1 h d hd⟩

theorem IsUnmarked.of_subset {part text : Text} (h : IsUnmarked text) (hpart : part ⊆ text) :
    IsUnmarked part :=
  ⟨fun hc => h.question (hpart hc), fun hc => h.hash (hpart hc)⟩

theorem IsUnmarked.append {first second : Text} (h : IsUnmarked first) (h' : IsUnmarked second) :
    IsUnmarked (first ++ second) :=
  ⟨by simp [h.question, h'.question], by simp [h.hash, h'.hash]⟩

theorem clean_sublist (text : Text) : (clean text).Sublist text :=
  List.filter_sublist.trans (List.dropWhile_suffix _).sublist

theorem clean_subset (text : Text) : clean text ⊆ text :=
  (clean_sublist text).subset

/-! ## Reading with a tail -/

section Tail

variable {tail : Text} (htail : IsTail tail)

include htail

theorem clean_of_isTail : clean tail = tail := by
  obtain ⟨c, rest, rfl, hc⟩ := htail.starts
  refine clean_cons ?_ htail.unbroken
  rcases hc with rfl | rfl <;> decide

theorem clean_append_of_isTail (text : Text) : clean (text ++ tail) = clean text ++ tail := by
  have htext := clean_of_isTail htail
  unfold clean at htext ⊢
  rw [List.dropWhile_append]
  split
  · next hempty =>
      rw [List.isEmpty_iff.1 hempty, htext]
      rfl
  · have hkept : tail.filter (fun c => !isBreak c) = tail :=
      List.filter_eq_self.2 fun c hc => by rw [htail.unbroken c hc]; rfl
    rw [List.filter_append, hkept]

theorem isScheme_append_of_isTail (before : Text) {start after : Text}
    (h : tail = start ++ ':' :: after) : isScheme (before ++ start) = false := by
  obtain ⟨c, rest, rfl, hc⟩ := htail.starts
  have hcolon : c ≠ ':' := by rcases hc with rfl | rfl <;> decide
  have hchar : isLetter c = false ∧ isSchemeChar c = false := by rcases hc with rfl | rfl <;> decide
  cases start with
  | nil => exact absurd (List.cons.inj h).1 hcolon
  | cons d others =>
      obtain rfl : c = d := (List.cons.inj h).1
      cases before with
      | nil => rw [List.nil_append, isScheme, hchar.1, Bool.false_and]
      | cons e more => simp [isScheme, hchar.2]

theorem scheme?_append_of_isTail (text : Text) :
    scheme? (text ++ tail) = (scheme? text).map fun (scheme, rest) => (scheme, rest ++ tail) := by
  rcases Text.not_mem_or_eq_append_cons ':' text with hcolon | ⟨before, after, hcolon, rfl⟩
  · have hnone : scheme? text = none := by rw [scheme?, Text.cut_of_not_mem hcolon]
    rw [hnone, Option.map_none]
    rcases Text.not_mem_or_eq_append_cons ':' tail with hrest | ⟨start, after, hstart, heq⟩
    · have hboth : ':' ∉ text ++ tail := by simp [hcolon, hrest]
      rw [scheme?, Text.cut_of_not_mem hboth]
    · have hboth : ':' ∉ text ++ start := by simp [hcolon, hstart]
      rw [scheme?, heq, ← List.append_assoc, Text.cut_append_cons hboth]
      simp only [isScheme_append_of_isTail htail text heq, Bool.false_eq_true, if_false]
  · rw [List.append_assoc, List.cons_append, scheme?, scheme?, Text.cut_append_cons hcolon,
      Text.cut_append_cons hcolon]
    simp only
    split
    · rfl
    · rfl

theorem protocol?_append_of_isTail (text : Text) : protocol? (text ++ tail) = protocol? text := by
  rw [protocol?, protocol?, scheme?_append_of_isTail htail, Option.map_map]
  rfl

theorem cutAuthority_append_of_isTail (text : Text) :
    cutAuthority (text ++ tail) = ((cutAuthority text).1, (cutAuthority text).2 ++ tail) := by
  obtain ⟨c, rest, rfl, hc⟩ := htail.starts
  have hend : endsAuthority c = true := by rcases hc with rfl | rfl <;> decide
  have hneedle : c ∉ "//".toList := by rcases hc with rfl | rfl <;> decide
  cases hdouble : "//".toList.isPrefixOf text with
  | false =>
      have hboth : "//".toList.isPrefixOf (text ++ c :: rest) = false := by
        rw [Bool.eq_false_iff, ne_eq, List.isPrefixOf_iff_prefix,
          Text.isPrefix_append_cons_iff hneedle, ← List.isPrefixOf_iff_prefix, hdouble]
        exact Bool.false_ne_true
      rw [File.cutAuthority_of_single hdouble, File.cutAuthority_of_single hboth]
  | true =>
      obtain ⟨more, rfl⟩ := List.isPrefixOf_iff_prefix.1 hdouble
      have htake : (more ++ c :: rest).takeWhile (fun d => !endsAuthority d) =
          more.takeWhile fun d => !endsAuthority d := by
        rw [List.takeWhile_append]
        split
        · next hall =>
            rw [List.takeWhile_cons_of_neg (by simp [hend]), List.append_nil]
            exact (List.IsPrefix.eq_of_length (List.takeWhile_prefix _) hall).symm
        · rfl
      have hdrop : (more ++ c :: rest).dropWhile (fun d => !endsAuthority d) =
          more.dropWhile (fun d => !endsAuthority d) ++ c :: rest := by
        rw [List.dropWhile_append]
        split
        · next hempty =>
            rw [List.isEmpty_iff.1 hempty, List.dropWhile_cons_of_neg (by simp [hend])]
            rfl
        · rfl
      have hcut : ∀ others : Text, cutAuthority ("//".toList ++ others) =
          (others.takeWhile (!endsAuthority ·), others.dropWhile (!endsAuthority ·)) :=
        fun _ => rfl
      rw [List.append_assoc, hcut, hcut, htake, hdrop]

/-! ## Parts with a tail -/

theorem referencePath_of_isTail : referencePath tail = [] := by
  rw [referencePath, clean_of_isTail htail]
  obtain ⟨c, rest, rfl, hc⟩ := htail.starts
  rcases hc with rfl | rfl
  · rfl
  · rfl

end Tail

def Parts.withTail (parts : Parts) (tail : Text) : Parts :=
  { parts with query := referenceQuery tail, fragment := referenceFragment tail }

def tidy (tail : Text) : Text :=
  ending (referenceQuery tail) (referenceFragment tail)

/-- An unmarked text is cut into parts without query and fragment, and with a tail into the same
parts with those of the tail. -/
theorem splitFrom_append_of_isTail (scheme : Text) {text tail : Text} (h : IsUnmarked text)
    (htail : IsTail tail) :
    splitFrom scheme (text ++ tail) = (splitFrom scheme text).map (·.withTail tail) := by
  have hparts : ∀ rest, IsUnmarked rest ->
      cut '#' (rest ++ tail) = (rest ++ (cut '#' tail).1, (cut '#' tail).2) ∧
      cut '?' (rest ++ (cut '#' tail).1) = (rest, (cut '?' (cut '#' tail).1).2) := by
    intro rest hrest
    have hpath : (cut '?' (cut '#' tail).1).1 = [] := by
      have hnil := referencePath_of_isTail htail
      rwa [referencePath, clean_of_isTail htail] at hnil
    refine ⟨Text.cut_append_of_not_mem hrest.hash tail, ?_⟩
    rw [Text.cut_append_of_not_mem hrest.question, hpath, List.append_nil]
  have hclean : IsUnmarked (clean text) := h.of_subset (clean_subset text)
  have hauthority : ∀ rest, IsUnmarked rest -> IsUnmarked (cutAuthority rest).2 := fun rest hrest =>
    hrest.of_subset (cutAuthority_isSuffix rest).subset
  unfold splitFrom Parts.withTail referenceQuery referenceFragment
  simp only [clean_append_of_isTail htail, scheme?_append_of_isTail htail, clean_of_isTail htail]
  cases hscheme : scheme? (clean text) with
  | none =>
      obtain ⟨hhash, hquestion⟩ := hparts _ (hauthority _ hclean)
      simp only [Option.map_none, cutAuthority_append_of_isTail htail]
      split
      · rfl
      · simp only [hhash, hquestion, Except.map, Text.cut_of_not_mem (hauthority _ hclean).hash,
          Text.cut_of_not_mem (hauthority _ hclean).question]
  | some found =>
      have hrest : IsUnmarked found.2 := hclean.of_subset (isSuffix_of_scheme? hscheme).subset
      obtain ⟨hhash, hquestion⟩ := hparts _ (hauthority _ hrest)
      simp only [Option.map_some, cutAuthority_append_of_isTail htail]
      split
      · rfl
      · simp only [hhash, hquestion, Except.map, Text.cut_of_not_mem (hauthority _ hrest).hash,
          Text.cut_of_not_mem (hauthority _ hrest).question]

theorem split_append_of_isTail {text tail : Text} (h : IsUnmarked text) (htail : IsTail tail) :
    split (text ++ tail) = (split text).map (·.withTail tail) :=
  splitFrom_append_of_isTail [] h htail

structure Parts.IsUnmarked (parts : Parts) : Prop where
  query : parts.query = []
  fragment : parts.fragment = []
  authority : Url.IsUnmarked parts.authority
  path : Url.IsUnmarked parts.path

theorem not_endsAuthority_of_mem_cutAuthority {text : Text} {c : Char}
    (h : c ∈ (cutAuthority text).1) : endsAuthority c = false := by
  unfold cutAuthority at h
  split at h
  · have hall := List.all_eq_true.1 List.all_takeWhile c h
    simpa using hall
  · exact absurd h List.not_mem_nil

structure Parts.IsRead (parts : Parts) : Prop where
  authority : IsAuthority parts.authority
  path : ∀ c ∈ parts.path, isPlain c
  query : ∀ c ∈ parts.query, isBreak c = false
  hash : '#' ∉ parts.query
  fragment : ∀ c ∈ parts.fragment, isBreak c = false

theorem isRead_of_splitFrom {scheme text : Text} {parts : Parts}
    (hparts : splitFrom scheme text = .ok parts) : parts.IsRead := by
  obtain ⟨rest, -, hfault, hauthority, hpath, hquery, -⟩ := exists_rest_of_splitFrom hparts
  have hcut := isCutFrom_of_splitFrom hparts
  have hclean : ∀ {part : Text}, part <:+: clean text -> ∀ c ∈ part, isBreak c = false :=
    fun hpart c hc => not_isBreak_of_mem_clean (hpart.subset hc)
  refine ⟨⟨fun c hc => ?_, hclean hcut.authority, hauthority ▸ hfault⟩, fun c hc => ?_,
    hclean hcut.query, fun hc => ?_, hclean hcut.fragment⟩
  · exact not_endsAuthority_of_mem_cutAuthority (hauthority ▸ hc)
  · have hplain := hclean hcut.path c hc
    rw [hpath] at hc
    have hquestion : c ≠ '?' := by
      rintro rfl
      exact Text.not_mem_cut_fst '?' _ hc
    have hhash : c ≠ '#' := by
      rintro rfl
      exact Text.not_mem_cut_fst '#' _ ((Text.cut_fst_isPrefix '?' _).subset hc)
    simp [isPlain, hplain, hquestion, hhash]
  · rw [hquery] at hc
    exact Text.not_mem_cut_fst '#' _ ((Text.cut_snd_isSuffix '?' _).subset hc)

theorem parts_isUnmarked {scheme text : Text} {parts : Parts} (h : IsUnmarked text)
    (hparts : splitFrom scheme text = .ok parts) : parts.IsUnmarked := by
  obtain ⟨rest, hrest, -, -, -, hquery, hfragment⟩ := exists_rest_of_splitFrom hparts
  have hcut := isCutFrom_of_splitFrom hparts
  have hclean : IsUnmarked (clean text) := h.of_subset (clean_subset text)
  have hafter := (hclean.of_subset hrest.subset).of_subset (cutAuthority_isSuffix rest).subset
  rw [Text.cut_of_not_mem hafter.hash] at hquery hfragment
  rw [Text.cut_of_not_mem hafter.question] at hquery
  exact ⟨hquery, hfragment, hclean.of_subset hcut.authority.subset,
    hclean.of_subset hcut.path.subset⟩

/-! ## File URLs -/

theorem eq_append_of_scheme? {text scheme rest : Text} (h : scheme? text = some (scheme, rest)) :
    text = scheme ++ ':' :: rest ∧ ':' ∉ scheme ∧ isScheme scheme = true := by
  unfold scheme? at h
  rcases Text.not_mem_or_eq_append_cons ':' text with hcolon | ⟨before, after, hcolon, rfl⟩
  · rw [Text.cut_of_not_mem hcolon] at h
    cases h
  · rw [Text.cut_append_cons hcolon] at h
    simp only at h
    split at h
    · next hscheme =>
        cases h
        exact ⟨rfl, hcolon, hscheme⟩
    · cases h

theorem scheme?_clean {text scheme rest : Text} (h : scheme? text = some (scheme, rest)) :
    scheme? (clean text) = some (scheme, rest.filter fun c => !isBreak c) := by
  obtain ⟨rfl, hcolon, hscheme⟩ := eq_append_of_scheme? h
  have hletter : ∀ c, isLetter c = true -> isLeadingNoise c = false ∧ isSchemeChar c = true := by
    intro c hc
    refine ⟨?_, by simp [isSchemeChar, hc]⟩
    simp only [isLetter, Bool.or_eq_true, Bool.and_eq_true, decide_eq_true_eq] at hc
    refine decide_eq_false ?_
    rcases hc with ⟨hlow, -⟩ | ⟨hlow, -⟩
    · have hcode : 0x61 ≤ c.toNat := hlow
      omega
    · have hcode : 0x41 ≤ c.toNat := hlow
      omega
  have hchar : ∀ c, isSchemeChar c = true -> isBreak c = false := by
    intro c hc
    refine Bool.eq_false_iff.2 fun hbreak => ?_
    simp only [isBreak, Bool.or_eq_true, beq_iff_eq] at hbreak
    rcases hbreak with (rfl | rfl) | rfl <;> exact absurd hc (by decide)
  cases scheme with
  | nil => cases hscheme
  | cons c others =>
      rw [isScheme, Bool.and_eq_true, List.all_eq_true] at hscheme
      have hkept : (c :: others).filter (fun d => !isBreak d) = c :: others := by
        refine List.filter_eq_self.2 fun d hd => ?_
        rcases List.mem_cons.1 hd with rfl | hd
        · rw [hchar d (hletter d hscheme.1).2]
          rfl
        · rw [hchar d (hscheme.2 d hd)]
          rfl
      have hclean : clean (c :: others ++ ':' :: rest) =
          c :: others ++ ':' :: rest.filter fun d => !isBreak d := by
        have hnoise := (hletter c hscheme.1).1
        rw [clean, List.cons_append, List.dropWhile_cons_of_neg (by rw [hnoise]; decide),
          ← List.cons_append, List.filter_append, hkept, List.filter_cons_of_pos (by decide)]
      rw [hclean]
      exact scheme?_append _ (by rw [isScheme, Bool.and_eq_true, List.all_eq_true]; exact hscheme)
        hcolon _

theorem scheme_of_splitFrom {given text scheme rest : Text} {parts : Parts}
    (h : scheme? (clean text) = some (scheme, rest)) (hparts : splitFrom given text = .ok parts) :
    parts.scheme = Text.lowerAscii scheme := by
  unfold splitFrom at hparts
  simp only [h] at hparts
  split at hparts
  · cases hparts
  · cases hparts
    rfl

theorem scheme_of_splitFrom_of_none {given text : Text} {parts : Parts}
    (h : scheme? (clean text) = none) (hparts : splitFrom given text = .ok parts) :
    parts.scheme = given := by
  unfold splitFrom at hparts
  simp only [h] at hparts
  split at hparts
  · cases hparts
  · cases hparts
    rfl

theorem scheme_of_protocol? {given text protocol : Text} {parts : Parts}
    (h : protocol? text = some protocol) (hparts : splitFrom given text = .ok parts) :
    parts.scheme ++ [':'] = protocol := by
  obtain ⟨⟨written, rest⟩, hscheme, heq⟩ := Option.map_eq_some_iff.1 h
  rw [scheme_of_splitFrom (scheme?_clean hscheme) hparts]
  exact heq

theorem scheme_eq_file {given text : Text} {parts : Parts}
    (h : protocol? text = some "file:".toList) (hparts : splitFrom given text = .ok parts) :
    parts.scheme = "file".toList := by
  have hprotocol : parts.scheme ++ [':'] = "file".toList ++ [':'] := scheme_of_protocol? h hparts
  exact List.append_cancel_right hprotocol

theorem isAbsolute_of_scheme {url scheme : Text} (h : protocol? url = some (scheme ++ [':']))
    (hscheme : specialSchemes.contains scheme = false) :
    isAbsolute url = true ∧ Path.isAbsolute url = false := by
  obtain ⟨⟨written, rest⟩, hwritten, heq⟩ := Option.map_eq_some_iff.1 h
  have hlower : Text.lowerAscii written = scheme := List.append_cancel_right heq
  constructor
  · rw [isAbsolute, hwritten]
    simp only [hlower, hscheme, Bool.false_eq_true, if_false]
  · cases hpath : Path.isAbsolute url with
    | false => rfl
    | true =>
        obtain ⟨others, rfl⟩ := Path.isAbsolute_iff.1 hpath
        rw [scheme?_cons_slash] at hwritten
        cases hwritten

theorem isAbsolute_of_protocol? {url : Text} (h : protocol? url = some "file:".toList) :
    isAbsolute url = true ∧ Path.isAbsolute url = false :=
  isAbsolute_of_scheme (show protocol? url = some ("file".toList ++ [':']) from h) rfl

theorem length_of_scheme_ne_nil {text : Text} {parts : Parts} (hparts : split text = .ok parts)
    (h : parts.scheme ≠ []) : parts.scheme.length + 1 ≤ text.length := by
  cases hscheme : scheme? (clean text) with
  | none => exact absurd (scheme_of_splitFrom_of_none hscheme hparts) h
  | some found =>
      obtain ⟨written, rest⟩ := found
      have hlength := (clean_sublist text).length_le
      rw [(eq_append_of_scheme? hscheme).1, List.length_append, List.length_cons] at hlength
      rw [scheme_of_splitFrom hscheme hparts, Text.lowerAscii, List.length_map]
      omega

def Parts.absolutePath (parts : Parts) : Text :=
  if Path.isAbsolute parts.path then parts.path else '/' :: parts.path

theorem Parts.exists_absolutePath_eq (parts : Parts) :
    ∃ rest, parts.absolutePath = '/' :: rest ∧ rest <:+ parts.path := by
  unfold Parts.absolutePath
  split
  · next h =>
      obtain ⟨rest, hrest⟩ := Path.isAbsolute_iff.1 h
      exact ⟨rest, hrest, hrest ▸ List.suffix_cons '/' rest⟩
  · exact ⟨parts.path, rfl, List.suffix_refl _⟩

def Parts.anew (parts : Parts) : Text :=
  "file://".toList ++ parts.authority ++ parts.absolutePath

theorem normalize_of_split {url : Text} {parts : Parts} (h : split url = .ok parts) :
    File.normalize url =
      if parts.scheme ≠ "file".toList then .ok url
      else if "//".toList.isPrefixOf (url.drop (parts.scheme.length + 1)) &&
          Path.isAbsolute parts.path then .ok url
      else .ok (parts.anew ++ ending parts.query parts.fragment) := by
  have hending : ∀ start : Text,
      (if parts.fragment.isEmpty then
          if parts.query.isEmpty then start else start ++ '?' :: parts.query
        else (if parts.query.isEmpty then start else start ++ '?' :: parts.query) ++
          '#' :: parts.fragment) = start ++ ending parts.query parts.fragment := by
    intro start
    unfold ending
    simp only [List.isEmpty_iff]
    split
    · split
      · simp
      · simp
    · split
      · simp
      · simp
  unfold File.normalize
  rw [h, ← hending]
  show (if parts.scheme ≠ "file".toList then _ else _) = _
  split
  · rfl
  · show (if "//".toList.isPrefixOf (url.drop (parts.scheme.length + 1)) &&
        Path.isAbsolute parts.path then _ else _) = _
    split
    · rfl
    · rfl

theorem normalize_append_of_isTail {text tail : Text} (h : IsUnmarked text) (htail : IsTail tail) :
    ∃ added, (added = tail ∨ added = tidy tail) ∧
      File.normalize (text ++ tail) = (File.normalize text).map (· ++ added) := by
  have hsplit := split_append_of_isTail h htail
  cases hparts : split text with
  | error cause =>
      rw [hparts] at hsplit
      refine ⟨tail, .inl rfl, ?_⟩
      rw [File.normalize, File.normalize, hparts, hsplit]
      rfl
  | ok parts =>
      rw [hparts] at hsplit
      have hok : split (text ++ tail) = .ok (parts.withTail tail) := hsplit
      rw [normalize_of_split hparts, normalize_of_split hok]
      by_cases hscheme : parts.scheme ≠ "file".toList
      · exact ⟨tail, .inl rfl, by rw [if_pos hscheme]; exact if_pos hscheme⟩
      · have hfile : parts.scheme = "file".toList := Decidable.not_not.1 hscheme
        have hlength := length_of_scheme_ne_nil hparts (by rw [hfile]; decide)
        have hdrop : (text ++ tail).drop (parts.scheme.length + 1) =
            text.drop (parts.scheme.length + 1) ++ tail := List.drop_append_of_le_length hlength
        have hdouble : "//".toList.isPrefixOf (text.drop (parts.scheme.length + 1) ++ tail) =
            "//".toList.isPrefixOf (text.drop (parts.scheme.length + 1)) := by
          obtain ⟨c, rest, rfl, hc⟩ := htail.starts
          have hneedle : c ∉ "//".toList := by rcases hc with rfl | rfl <;> decide
          rw [Bool.eq_iff_iff, List.isPrefixOf_iff_prefix, List.isPrefixOf_iff_prefix,
            Text.isPrefix_append_cons_iff hneedle]
        have hunchanged : (parts.withTail tail).scheme = parts.scheme ∧
            (parts.withTail tail).path = parts.path ∧
            (parts.withTail tail).anew = parts.anew := ⟨rfl, rfl, rfl⟩
        rw [hunchanged.1, hunchanged.2.1, hunchanged.2.2, hdrop, hdouble, if_neg hscheme,
          if_neg hscheme]
        split
        · exact ⟨tail, .inl rfl, rfl⟩
        · refine ⟨tidy tail, .inr rfl, ?_⟩
          have hunmarked := parts_isUnmarked h hparts
          rw [hunmarked.query, hunmarked.fragment, ending_nil, List.append_nil]
          rfl

theorem protocol?_file_append (rest : Text) :
    protocol? ("file".toList ++ ':' :: rest) = some "file:".toList := by
  rw [protocol?, scheme?_append _ (by decide) (by decide)]
  rfl

theorem of_normalize_eq_ok {text url : Text} (h : IsUnmarked text)
    (hfile : protocol? text = some "file:".toList) (hurl : File.normalize text = .ok url) :
    IsUnmarked url ∧ protocol? url = some "file:".toList := by
  cases hparts : split text with
  | error cause =>
      rw [File.normalize, hparts] at hurl
      cases hurl
  | ok parts =>
      have hunmarked := parts_isUnmarked h hparts
      have hanew : IsUnmarked parts.anew := by
        obtain ⟨rest, hrest, hsuffix⟩ := parts.exists_absolutePath_eq
        have hstart : IsUnmarked "file://".toList := ⟨by decide, by decide⟩
        have hslash : IsUnmarked ['/'] := ⟨by decide, by decide⟩
        unfold Parts.anew
        rw [hrest]
        exact (hstart.append hunmarked.authority).append
          (hslash.append (hunmarked.path.of_subset hsuffix.subset))
      have hscheme : protocol? parts.anew = some "file:".toList := by
        unfold Parts.anew
        rw [List.append_assoc]
        exact protocol?_file_append ('/' :: '/' :: (parts.authority ++ parts.absolutePath))
      rw [normalize_of_split hparts, hunmarked.query, hunmarked.fragment, ending_nil,
        List.append_nil, if_neg (not_not_intro (scheme_eq_file hfile hparts))] at hurl
      split at hurl
      · rw [← Except.ok.inj hurl]
        exact ⟨h, hfile⟩
      · rw [← Except.ok.inj hurl]
        exact ⟨hanew, hscheme⟩

theorem Parts.IsRead.absolutePath {parts : Parts} (h : parts.IsRead) :
    Path.isAbsolute parts.absolutePath ∧ ∀ c ∈ parts.absolutePath, isPlain c := by
  obtain ⟨rest, hrest, hsuffix⟩ := parts.exists_absolutePath_eq
  rw [hrest]
  refine ⟨Path.isAbsolute_cons_slash _, fun c hc => ?_⟩
  rcases List.mem_cons.1 hc with rfl | hc
  · decide
  · exact h.path c (hsuffix.subset hc)

theorem split_anew {text : Text} {parts : Parts} (hparts : split text = .ok parts) :
    split (parts.anew ++ ending parts.query parts.fragment) =
      .ok ⟨"file".toList, parts.authority, parts.absolutePath, parts.query, parts.fragment⟩ := by
  have hread := isRead_of_splitFrom hparts
  exact splitFrom_file_host [] hread.authority hread.absolutePath.1 hread.absolutePath.2
    hread.query hread.hash hread.fragment

/-- A file URL without a host, or on this one. -/
structure IsLocalFile (url : Text) : Prop where
  protocol : protocol? url = some "file:".toList
  host : ∃ parts, split url = .ok parts ∧
    (parts.authority = [] ∨ parts.authority = "localhost".toList)

theorem IsLocal.exists_toPath {url : Text} (h : IsLocal url) :
    ∃ path, File.toPath url = .ok path := by
  cases hpath : File.toPath url with
  | ok path => exact ⟨path, rfl⟩
  | error cause => exact absurd h ((toPath_eq_error_iff url).1 ⟨cause, hpath⟩)

theorem isLocal_of_toPath {url path : Text} (h : File.toPath url = .ok path) : IsLocal url := by
  refine Classical.byContradiction fun hnot => ?_
  obtain ⟨cause, hcause⟩ := (toPath_eq_error_iff url).2 hnot
  rw [h] at hcause
  cases hcause

theorem IsLocalFile.exists_normalize {url : Text} (h : IsLocalFile url) :
    ∃ normal, File.normalize url = .ok normal ∧ IsLocal normal := by
  obtain ⟨parts, hparts, hhost⟩ := h.host
  have hscheme := scheme_eq_file h.protocol hparts
  rw [normalize_of_split hparts, if_neg (not_not_intro hscheme)]
  split
  · next husual =>
      rw [Bool.and_eq_true] at husual
      exact ⟨url, rfl, parts, hparts, hscheme, hhost, husual.2⟩
  · exact ⟨_, rfl, _, split_anew hparts, rfl, hhost, (isRead_of_splitFrom hparts).absolutePath.1⟩

theorem toPath_append_of_isTail {text tail : Text} (h : IsUnmarked text) (htail : IsTail tail) :
    (File.toPath (text ++ tail)).toOption = (File.toPath text).toOption := by
  have hsplit := split_append_of_isTail h htail
  cases hparts : split text with
  | error cause =>
      rw [hparts] at hsplit
      rw [File.toPath, File.toPath, hparts, hsplit]
      rfl
  | ok parts =>
      rw [hparts] at hsplit
      have hok : split (text ++ tail) = .ok (parts.withTail tail) := hsplit
      have hunchanged : (parts.withTail tail).scheme = parts.scheme ∧
          (parts.withTail tail).authority = parts.authority ∧
          (parts.withTail tail).path = parts.path := ⟨rfl, rfl, rfl⟩
      rw [File.toPath_of_split hparts, File.toPath_of_split hok, hunchanged.1, hunchanged.2.1,
        hunchanged.2.2]
      split
      · rfl
      · split
        · rfl
        · split
          · rfl
          · rfl

/-! ## Tidied tails -/

theorem ending_eq_nil_or_isTail {query fragment : Text} (hquery : ∀ c ∈ query, isBreak c = false)
    (hfragment : ∀ c ∈ fragment, isBreak c = false) :
    ending query fragment = [] ∨ IsTail (ending query fragment) := by
  have hbreak := not_isBreak_of_mem_ending hquery hfragment
  by_cases hnone : query = []
  · by_cases hempty : fragment = []
    · left
      rw [hnone, hempty]
      rfl
    · refine .inr ⟨⟨'#', fragment, ?_, .inr rfl⟩, hbreak⟩
      rw [ending, if_pos hnone, if_neg hempty, List.nil_append]
  · refine .inr ⟨⟨'?', query ++ if fragment = [] then [] else '#' :: fragment, ?_, .inl rfl⟩,
      hbreak⟩
    rw [ending, if_neg hnone, List.cons_append]

theorem tidy_eq_nil_or_isTail (tail : Text) : tidy tail = [] ∨ IsTail (tidy tail) :=
  ending_eq_nil_or_isTail (fun _ hc => not_isBreak_of_mem_referenceQuery hc)
    fun _ hc => not_isBreak_of_mem_referenceFragment hc

theorem referenceQuery_tidy (tail : Text) : referenceQuery (tidy tail) = referenceQuery tail := by
  have hclean : clean (tidy tail) = tidy tail := by
    rcases tidy_eq_nil_or_isTail tail with hnil | htail
    · rw [hnil]
      rfl
    · exact clean_of_isTail htail
  have hcut := (@cut_ending [] (referenceQuery tail) (referenceFragment tail) List.not_mem_nil
    List.not_mem_nil (hash_not_mem_referenceQuery tail)).1
  have hquery : referenceQuery (tidy tail) = (cut '?' (cut '#' (tidy tail)).1).2.getD [] := by
    rw [referenceQuery, hclean]
  rw [List.nil_append] at hcut
  rw [hquery, tidy, hcut]
  exact getD_ite_nil _

end Url

/-! ## Escaped separators in tails -/

namespace Resolver

open Url
open Text (cut)

theorem hasEncodedSeparator_nil : hasEncodedSeparator [] = false := rfl

theorem hasEncodedSeparator_append_cons {mark : Char} (h : mark = '?' ∨ mark = '#')
    (before after : Text) :
    hasEncodedSeparator (before ++ mark :: after) =
      (hasEncodedSeparator before || hasEncodedSeparator after) := by
  have hlower : mark.toLower = mark ∧ mark ∉ "%2f".toList ∧ mark ∉ "%5c".toList := by
    rcases h with rfl | rfl <;> decide
  unfold hasEncodedSeparator
  simp only [Text.lowerAscii_append, Text.lowerAscii_cons, hlower.1]
  rw [Text.occursIn_append_cons (by decide) hlower.2.1,
    Text.occursIn_append_cons (by decide) hlower.2.2]
  ac_rfl

theorem hasEncodedSeparator_append_ending (text query fragment : Text) :
    hasEncodedSeparator (text ++ ending query fragment) =
      (hasEncodedSeparator text || hasEncodedSeparator query || hasEncodedSeparator fragment) := by
  have hpart : ∀ {mark : Char}, mark = '?' ∨ mark = '#' -> ∀ before part : Text,
      hasEncodedSeparator (before ++ if part = [] then [] else mark :: part) =
        (hasEncodedSeparator before || hasEncodedSeparator part) := by
    intro mark hmark before part
    split
    · next h => rw [h, hasEncodedSeparator_nil, List.append_nil, Bool.or_false]
    · exact hasEncodedSeparator_append_cons hmark before part
  unfold ending
  rw [← List.append_assoc, hpart (.inr rfl), hpart (.inl rfl)]

theorem hasEncodedSeparator_of_isTail {tail : Text} (h : IsTail tail) :
    hasEncodedSeparator tail =
      (hasEncodedSeparator (referenceQuery tail) ||
        hasEncodedSeparator (referenceFragment tail)) := by
  have hclean := clean_of_isTail h
  obtain ⟨c, rest, rfl, hc⟩ := h.starts
  unfold referenceQuery referenceFragment
  rw [hclean]
  rcases hc with rfl | rfl
  · have hmark := fun text => hasEncodedSeparator_append_cons (.inl rfl) [] text
    simp only [List.nil_append, hasEncodedSeparator_nil, Bool.false_or] at hmark
    rcases Text.not_mem_or_eq_append_cons '#' rest with hhash | ⟨query, fragment, hhash, rfl⟩
    · have hboth : '#' ∉ '?' :: rest := by simp [hhash]
      rw [Text.cut_of_not_mem hboth, hmark]
      simp [cut, hasEncodedSeparator_nil]
    · have hboth : '#' ∉ '?' :: query := by simp [hhash]
      rw [← List.cons_append, Text.cut_append_cons hboth,
        hasEncodedSeparator_append_cons (.inr rfl), hmark]
      simp [cut]
  · have hmark := hasEncodedSeparator_append_cons (.inr rfl) [] rest
    rw [List.nil_append, hasEncodedSeparator_nil, Bool.false_or] at hmark
    rw [hmark]
    simp [cut, hasEncodedSeparator_nil]

theorem hasEncodedSeparator_append_of_isTail {tail : Text} (h : IsTail tail) (text : Text) :
    hasEncodedSeparator (text ++ tail) =
      (hasEncodedSeparator text || hasEncodedSeparator tail) := by
  obtain ⟨mark, rest, rfl, hmark⟩ := h.starts
  have htail := hasEncodedSeparator_append_cons hmark [] rest
  rw [List.nil_append, hasEncodedSeparator_nil, Bool.false_or] at htail
  rw [hasEncodedSeparator_append_cons hmark, htail]

theorem hasEncodedSeparator_tidy {tail : Text} (h : IsTail tail) :
    hasEncodedSeparator (tidy tail) = hasEncodedSeparator tail := by
  have hending :=
    hasEncodedSeparator_append_ending [] (referenceQuery tail) (referenceFragment tail)
  rw [List.nil_append] at hending
  rw [tidy, hending, hasEncodedSeparator_of_isTail h]
  rfl

end Resolver

end ModuleResolution
