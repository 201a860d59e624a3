import ModuleResolution.Proofs.Url.FileJoin

/-!
# Breaks in URLs

A tab or a line break comes into the path that a URL names from the URL itself or from an escape.  A
URL without both that is joined, given its usual form or made from a path stays free of both, since
its parts are only ever put together at characters that no escape reaches over.
-/

namespace ModuleResolution

namespace Url

open Text (splitOn joinWith lowerAscii occurrences)

/-! ## Texts without breaks -/

/-- The text has no tab and no line break. -/
def IsUnbroken (text : Text) : Prop :=
  ∀ c ∈ text, isBreak c = false

instance (text : Text) : Decidable (IsUnbroken text) :=
  List.decidableBAll (fun c => isBreak c = false) text

/-- The text has no tab and no line break, and no escape of one. -/
def ReadsUnbroken (text : Text) : Prop :=
  IsUnbroken (Percent.decode text)

structure IsSolid (text : Text) : Prop where
  unbroken : IsUnbroken text
  percent : '%' ∉ text

section Unbroken

variable {first second : Text}

theorem IsUnbroken.of_subset (h : IsUnbroken second) (hsubset : first ⊆ second) :
    IsUnbroken first :=
  fun c hc => h c (hsubset hc)

theorem IsUnbroken.append (h : IsUnbroken first) (h' : IsUnbroken second) :
    IsUnbroken (first ++ second) := by
  intro c hc
  rcases List.mem_append.1 hc with hc | hc
  · exact h c hc
  · exact h' c hc

theorem IsUnbroken.cons (h : IsUnbroken first) {c : Char} (hc : isBreak c = false) :
    IsUnbroken (c :: first) :=
  List.forall_mem_cons.2 ⟨hc, h⟩

theorem isUnbroken_joinWith {pieces : List Text} (h : ∀ piece ∈ pieces, IsUnbroken piece) :
    IsUnbroken (joinWith '/' pieces) := by
  intro c hc
  rcases Text.mem_joinWith hc with rfl | ⟨piece, hpiece, hc⟩
  · decide
  · exact h piece hpiece c hc

theorem IsSolid.of_subset (h : IsSolid second) (hsubset : first ⊆ second) : IsSolid first :=
  ⟨h.unbroken.of_subset hsubset, fun hc => h.percent (hsubset hc)⟩

theorem IsSolid.substitute (h : IsSolid first) (h' : IsSolid second) (hole : Char) :
    IsSolid (Text.substitute hole second first) := by
  have hmem : ∀ c ∈ Text.substitute hole second first, c ∈ first ∨ c ∈ second := by
    intro c hc
    obtain ⟨d, hd, hc⟩ := List.mem_flatMap.1 hc
    split at hc
    · exact .inr hc
    · exact .inl (List.mem_singleton.1 hc ▸ hd)
  constructor
  · exact fun c hc => (hmem c hc).elim (h.unbroken c) (h'.unbroken c)
  · exact fun hc => (hmem _ hc).elim h.percent h'.percent

end Unbroken

/-! ## Texts that read without breaks -/

theorem isSeparator_of_isBreak {c : Char} (h : isBreak c) :
    Percent.IsSeparator c ∧ 0 < c.toNat := by
  simp only [isBreak, Bool.or_eq_true, beq_iff_eq] at h
  rcases h with (rfl | rfl) | rfl
  · exact ⟨⟨by decide, by decide, by decide⟩, by decide⟩
  · exact ⟨⟨by decide, by decide, by decide⟩, by decide⟩
  · exact ⟨⟨by decide, by decide, by decide⟩, by decide⟩

theorem readsUnbroken_iff {text : Text} :
    ReadsUnbroken text ↔ ∀ c, isBreak c -> c ∉ text ∧
      Text.occursIn (lowerAscii (Percent.escape c.toNat.toUInt8)) (lowerAscii text) = false := by
  have hcount : ∀ c, isBreak c -> (c ∉ Percent.decode text ↔ c ∉ text ∧
      Text.occursIn (lowerAscii (Percent.escape c.toNat.toUInt8)) (lowerAscii text) = false) := by
    intro c hc
    obtain ⟨hseparator, hpos⟩ := isSeparator_of_isBreak hc
    rw [← List.count_eq_zero, Percent.count_decode hseparator hpos, Nat.add_eq_zero_iff,
      List.count_eq_zero,
      Text.occurrences_eq_zero_iff (Percent.lowerAscii_escape_ne_nil c.toNat.toUInt8)]
  constructor
  · intro h c hc
    refine (hcount c hc).1 fun hmem => ?_
    rw [h c hmem] at hc
    cases hc
  · intro h c hmem
    exact Bool.eq_false_iff.2 fun hc => (hcount c hc).2 (h c hc) hmem

theorem ReadsUnbroken.isUnbroken {text : Text} (h : ReadsUnbroken text) : IsUnbroken text :=
  fun c hmem => Bool.eq_false_iff.2 fun hc => (readsUnbroken_iff.1 h c hc).1 hmem

theorem ReadsUnbroken.of_isInfix {part text : Text} (h : ReadsUnbroken text)
    (hpart : part <:+: text) : ReadsUnbroken part := by
  refine readsUnbroken_iff.2 fun c hc => ?_
  obtain ⟨hmem, hescape⟩ := readsUnbroken_iff.1 h c hc
  refine ⟨fun hc => hmem (hpart.subset hc), Bool.eq_false_iff.2 fun hoccurs => ?_⟩
  have hwhole := Text.occursIn_iff.2 ((Text.occursIn_iff.1 hoccurs).trans (hpart.map Char.toLower))
  rw [← lowerAscii, hescape] at hwhole
  cases hwhole

theorem IsSolid.readsUnbroken {text : Text} (h : IsSolid text) : ReadsUnbroken text := by
  rw [ReadsUnbroken, Percent.decode_of_not_mem h.percent]
  exact h.unbroken

theorem readsUnbroken_nil : ReadsUnbroken [] :=
  fun _ hc => absurd hc List.not_mem_nil

theorem readsUnbroken_encode {text : Text} (h : IsUnbroken text) :
    ReadsUnbroken (Percent.encode File.isKept text) := by
  rw [ReadsUnbroken, File.decode_encode]
  exact h

theorem toLower_eq_of_isBreak {c d : Char} (h : isBreak c) (hd : d.toLower = c.toLower) : d = c := by
  have hletter : c.isAlpha = false := by
    simp only [isBreak, Bool.or_eq_true, beq_iff_eq] at h
    rcases h with (rfl | rfl) | rfl <;> decide
  rw [(Text.toLower_eq_iff hletter).2 rfl] at hd
  exact (Text.toLower_eq_iff hletter).1 hd

theorem ReadsUnbroken.lowerAscii {text : Text} (h : ReadsUnbroken text) :
    ReadsUnbroken (lowerAscii text) := by
  intro c hc
  have hlower : c.toLower ∈ Text.lowerAscii (Percent.decode text) := by
    rw [← Percent.lowerAscii_decode]
    exact List.mem_map_of_mem hc
  obtain ⟨d, hd, hsame⟩ := List.mem_map.1 hlower
  refine Bool.eq_false_iff.2 fun hbreak => ?_
  rw [← toLower_eq_of_isBreak hbreak hsame, h d hd] at hbreak
  cases hbreak

/-! ## Texts put together -/

def marks : List Char := ['/', ':', '?', '#', ';', '.']

theorem of_mem_marks {c : Char} (h : c ∈ marks) : Percent.IsSeparator c ∧ isBreak c = false := by
  have hall : marks.all fun d => Percent.isAscii d && d != '%' && (Percent.hexValue? d).isNone &&
      !isBreak d := by decide
  have hc := List.all_eq_true.1 hall c h
  simp only [Bool.and_eq_true, bne_iff_ne, Option.isNone_iff_eq_none, Bool.not_eq_true'] at hc
  obtain ⟨⟨⟨hascii, hpercent⟩, hhex⟩, hbreak⟩ := hc
  exact ⟨⟨hascii, hpercent, hhex⟩, hbreak⟩

section Marks

variable {before after : Text} {c : Char}

theorem readsUnbroken_append_cons (hc : c ∈ marks) (hbefore : ReadsUnbroken before)
    (hafter : ReadsUnbroken after) : ReadsUnbroken (before ++ c :: after) := by
  obtain ⟨hseparator, hbreak⟩ := of_mem_marks hc
  rw [ReadsUnbroken, Percent.decode_append_cons hseparator]
  exact hbefore.append (hafter.cons hbreak)

theorem readsUnbroken_cons (hc : c ∈ marks) (hafter : ReadsUnbroken after) :
    ReadsUnbroken (c :: after) :=
  readsUnbroken_append_cons hc readsUnbroken_nil hafter

theorem readsUnbroken_joinWith {segments : List Text}
    (h : ∀ segment ∈ segments, ReadsUnbroken segment) : ReadsUnbroken (joinWith '/' segments) := by
  rw [ReadsUnbroken, Percent.decode_joinWith Percent.isSeparator_slash]
  exact isUnbroken_joinWith fun piece hpiece => by
    obtain ⟨segment, hs, rfl⟩ := List.mem_map.1 hpiece
    exact h segment hs

theorem ReadsUnbroken.of_mem_splitOn {path segment : Text} (h : ReadsUnbroken path)
    (hs : segment ∈ splitOn '/' path) : ReadsUnbroken segment :=
  h.of_isInfix (Text.isInfix_of_mem_splitOn hs)

end Marks

/-! ## Parts -/

structure Parts.ReadsUnbroken (parts : Parts) : Prop where
  scheme : Url.ReadsUnbroken parts.scheme
  authority : Url.ReadsUnbroken parts.authority
  path : Url.ReadsUnbroken parts.path
  query : Url.ReadsUnbroken parts.query
  fragment : Url.ReadsUnbroken parts.fragment

theorem ReadsUnbroken.clean {text : Text} (h : ReadsUnbroken text) : ReadsUnbroken (clean text) :=
  h.of_isInfix (clean_isSuffix h.isUnbroken).isInfix

theorem ReadsUnbroken.splitFrom {scheme text : Text} {parts : Parts} (h : ReadsUnbroken text)
    (hscheme : ReadsUnbroken scheme) (hparts : splitFrom scheme text = .ok parts) :
    parts.ReadsUnbroken := by
  have hcut := isCutFrom_of_splitFrom hparts
  refine ⟨?_, h.clean.of_isInfix hcut.authority, h.clean.of_isInfix hcut.path,
    h.clean.of_isInfix hcut.query, h.clean.of_isInfix hcut.fragment⟩
  cases hwritten : scheme? (Url.clean text) with
  | none => rwa [scheme_of_splitFrom_of_none hwritten hparts]
  | some found =>
      have hprefix : found.1 <+: Url.clean text :=
        ⟨_, (eq_append_of_scheme? hwritten).1.symm⟩
      rw [scheme_of_splitFrom hwritten hparts]
      exact (h.clean.of_isInfix hprefix.isInfix).lowerAscii

section Ending

variable {text query fragment : Text}

theorem ReadsUnbroken.append_part {part : Text} {c : Char} (h : ReadsUnbroken text) (hc : c ∈ marks)
    (hpart : ReadsUnbroken part) : ReadsUnbroken (text ++ if part = [] then [] else c :: part) := by
  split
  · rwa [List.append_nil]
  · exact readsUnbroken_append_cons hc h hpart

theorem ReadsUnbroken.append_ending (h : ReadsUnbroken text) (hquery : ReadsUnbroken query)
    (hfragment : ReadsUnbroken fragment) : ReadsUnbroken (text ++ ending query fragment) := by
  rw [ending, ← List.append_assoc]
  exact (h.append_part (by decide) hquery).append_part (by decide) hfragment

theorem ReadsUnbroken.append_rooted {path : Text} (h : ReadsUnbroken text)
    (hpath : ReadsUnbroken path) : ReadsUnbroken (text ++ rooted path) := by
  unfold rooted
  cases path with
  | nil => rwa [List.isEmpty_nil, Bool.true_or, if_pos rfl, List.append_nil]
  | cons c rest =>
      by_cases hslash : c = '/'
      · subst hslash
        exact readsUnbroken_append_cons (by decide) h (hpath.of_isInfix (List.suffix_cons _ _).isInfix)
      · have hnot : ((c :: rest).isEmpty || "/".toList.isPrefixOf (c :: rest)) = false := by
          rw [List.isEmpty_cons, Bool.false_or, Path.isPrefixOf_slash_cons]
          exact beq_eq_false_iff_ne.2 fun hc => hslash hc.symm
        rw [hnot, if_neg Bool.false_ne_true]
        exact readsUnbroken_append_cons (by decide) h hpath

end Ending

theorem Parts.ReadsUnbroken.toText {parts : Parts} (h : parts.ReadsUnbroken) :
    Url.ReadsUnbroken parts.toText := by
  have hslash : '/' ∈ marks := by decide
  have hhost : Url.ReadsUnbroken ("//".toList ++ parts.authority ++ rooted parts.path) :=
    (readsUnbroken_cons hslash (readsUnbroken_cons hslash h.authority)).append_rooted h.path
  have hwritten : ∀ path, Url.ReadsUnbroken path ->
      Url.ReadsUnbroken (if parts.scheme.isEmpty then path else parts.scheme ++ ':' :: path) := by
    intro path hpath
    split
    · exact hpath
    · exact readsUnbroken_append_cons (by decide) h.scheme hpath
  rw [toText_eq_append]
  refine ReadsUnbroken.append_ending (hwritten _ ?_) h.query h.fragment
  show Url.ReadsUnbroken (if _ then "//".toList ++ parts.authority ++ rooted parts.path
    else parts.path)
  split
  · exact hhost
  · exact h.path

/-! ## References -/

theorem ReadsUnbroken.cutParameters {path : Text} (h : ReadsUnbroken path) :
    ReadsUnbroken (cutParameters path).1 ∧ ReadsUnbroken (cutParameters path).2 := by
  have hpath := Text.dropEndWhile_append_takeEndWhile (· != '/') path
  unfold Url.cutParameters
  rcases Text.not_mem_or_eq_append_cons ';' (Text.takeEndWhile (· != '/') path) with
    hnone | ⟨name, parameters, hname, hlast⟩
  · rw [Text.cut_of_not_mem hnone]
    exact ⟨h, readsUnbroken_nil⟩
  · rw [hlast] at hpath
    rw [hlast, Text.cut_append_cons hname]
    rw [← List.append_assoc] at hpath
    exact ⟨h.of_isInfix (hpath ▸ List.prefix_append _ _).isInfix,
      h.of_isInfix (hpath ▸ (List.suffix_cons _ _).trans (List.suffix_append _ _)).isInfix⟩

structure Reference.ReadsUnbroken (reference : Reference) : Prop where
  parts : reference.parts.ReadsUnbroken
  parameters : Url.ReadsUnbroken reference.parameters

theorem ReadsUnbroken.read {scheme text : Text} {reference : Reference} (h : ReadsUnbroken text)
    (hscheme : ReadsUnbroken scheme) (hread : Reference.read scheme text = .ok reference) :
    reference.ReadsUnbroken := by
  obtain ⟨parts, hsplit, rfl | rfl⟩ := Reference.of_read_eq_ok hread
  · exact ⟨h.splitFrom hscheme hsplit, readsUnbroken_nil⟩
  · have hparts := h.splitFrom hscheme hsplit
    exact ⟨{ hparts with path := hparts.path.cutParameters.1 }, hparts.path.cutParameters.2⟩

theorem Reference.ReadsUnbroken.toText {reference : Reference} (h : reference.ReadsUnbroken) :
    Url.ReadsUnbroken reference.toText := by
  refine Parts.ReadsUnbroken.toText { h.parts with path := ?_ }
  show Url.ReadsUnbroken (if _ then reference.parts.path
    else reference.parts.path ++ ';' :: reference.parameters)
  split
  · exact h.parts.path
  · exact readsUnbroken_append_cons (by decide) h.parts.path h.parameters

theorem ReadsUnbroken.joinPath {base path : Text} (h : ReadsUnbroken base)
    (hpath : ReadsUnbroken path) : ReadsUnbroken (joinPath base path) := by
  obtain ⟨taken, hjoin, htaken⟩ := exists_joinPath_eq base path
  rw [hjoin]
  refine readsUnbroken_joinWith fun segment hs => ?_
  rcases htaken segment hs with rfl | hs | hs
  · exact readsUnbroken_nil
  · exact h.of_mem_splitOn hs
  · exact hpath.of_mem_splitOn hs

theorem readsUnbroken_file {rest : Text} (h : ReadsUnbroken rest) :
    ReadsUnbroken ("file://".toList ++ rest) := by
  have hslash : '/' ∈ marks := by decide
  have hscheme : ReadsUnbroken "file".toList := IsSolid.readsUnbroken ⟨by decide, by decide⟩
  exact readsUnbroken_append_cons (by decide) hscheme
    (readsUnbroken_cons hslash (readsUnbroken_cons hslash h))

section Join

variable {base reference url : Text}

theorem Reference.ReadsUnbroken.seenFrom {source target : Reference} (h : target.ReadsUnbroken)
    (h' : source.ReadsUnbroken) : (target.seenFrom source).ReadsUnbroken := by
  unfold Reference.seenFrom
  split
  · exact h
  split
  · refine ⟨{ h'.parts with query := ?_, fragment := h.parts.fragment }, h'.parameters⟩
    show Url.ReadsUnbroken (if _ then source.parts.query else target.parts.query)
    split
    · exact h'.parts.query
    · exact h.parts.query
  · exact ⟨{ h.parts with
      authority := h'.parts.authority
      path := h'.parts.path.joinPath h.parts.path }, h.parameters⟩

theorem ReadsUnbroken.join (h : ReadsUnbroken base) (hreference : ReadsUnbroken reference)
    (hjoin : join base reference = .ok url) : ReadsUnbroken url := by
  unfold Url.join at hjoin
  split at hjoin
  · exact Except.ok.inj hjoin ▸ hreference
  rcases of_joinReference_eq_ok hjoin with
    rfl | ⟨-, rfl⟩ | ⟨source, target, hsource, htarget, -, rfl⟩
  · exact hreference
  · exact h
  · have hreads := h.read readsUnbroken_nil hsource
    exact ((hreference.read hreads.parts.scheme htarget).seenFrom hreads).toText

theorem ReadsUnbroken.normalize (h : ReadsUnbroken reference)
    (hnormal : File.normalize reference = .ok url) : ReadsUnbroken url := by
  cases hsplit : Url.split reference with
  | error cause =>
      rw [File.normalize, hsplit] at hnormal
      cases hnormal
  | ok parts =>
      have hparts := h.splitFrom readsUnbroken_nil hsplit
      have hnormal := (normalize_of_split hsplit).symm.trans hnormal
      by_cases hscheme : parts.scheme ≠ "file".toList
      · rw [if_pos hscheme] at hnormal
        exact Except.ok.inj hnormal ▸ h
      rw [if_neg hscheme] at hnormal
      by_cases husual : ("//".toList.isPrefixOf (reference.drop (parts.scheme.length + 1)) &&
          Path.isAbsolute parts.path) = true
      · rw [if_pos husual] at hnormal
        exact Except.ok.inj hnormal ▸ h
      rw [if_neg husual] at hnormal
      rw [← Except.ok.inj hnormal]
      refine ReadsUnbroken.append_ending ?_ hparts.query hparts.fragment
      obtain ⟨rest, hrest, hsuffix⟩ := parts.exists_absolutePath_eq
      have hstart : ReadsUnbroken ("file://".toList ++ parts.authority) :=
        readsUnbroken_file hparts.authority
      unfold Parts.anew
      rw [hrest]
      exact readsUnbroken_append_cons (by decide) hstart
        (hparts.path.of_isInfix hsuffix.isInfix)

end Join

/-! ## Paths -/

section Paths

variable {directory path url : Text}

theorem isUnbroken_join (h : IsUnbroken directory) (hpath : IsUnbroken path) :
    IsUnbroken (Path.join directory path) := by
  unfold Path.join
  split
  · exact hpath
  split
  · exact h.append hpath
  · exact h.append (hpath.cons (by decide))

theorem mem_of_mem_foldl_push {rooted : Bool} {parts stack : List Text} {part : Text}
    (h : part ∈ parts.foldl (Path.push rooted) stack) : part ∈ stack ∨ part ∈ parts := by
  induction parts generalizing stack with
  | nil => exact .inl h
  | cons first rest ih =>
      have hpush : ∀ other ∈ Path.push rooted stack first, other ∈ stack ∨ other = first := by
        intro other hother
        unfold Path.push at hother
        split at hother
        · exact .inl hother
        split at hother
        · next hup =>
            cases stack with
            | nil =>
                simp only at hother
                split at hother
                · exact .inl hother
                · exact .inr (List.mem_singleton.1 hother)
            | cons top below =>
                simp only at hother
                split at hother
                · exact (List.mem_cons.1 hother).symm
                · exact .inl (List.mem_cons_of_mem _ hother)
        · exact (List.mem_cons.1 hother).symm
      rcases ih h with hs | hs
      · rcases hpush part hs with hs | rfl
        · exact .inl hs
        · exact .inr List.mem_cons_self
      · exact .inr (List.mem_cons_of_mem _ hs)

theorem isUnbroken_normalize (h : IsUnbroken path) : IsUnbroken (Path.normalize path) := by
  have hroot : IsUnbroken (Path.root path) := by
    unfold Path.root
    split <;> decide
  have hparts : IsUnbroken (joinWith '/' (Path.stackOf path).reverse) := by
    refine isUnbroken_joinWith fun part hpart => ?_
    have hmem := (mem_of_mem_foldl_push (List.mem_reverse.1 hpart)).resolve_left List.not_mem_nil
    exact h.of_subset fun c hc => Text.mem_of_mem_splitOn hmem hc
  unfold Path.normalize
  simp only
  split
  · decide
  · exact hroot.append hparts

theorem isUnbroken_absolute (h : IsUnbroken directory) (hpath : IsUnbroken path) :
    IsUnbroken (Path.absolute directory path) :=
  isUnbroken_normalize (isUnbroken_join h hpath)

theorem readsUnbroken_ofPath (h : IsUnbroken directory) (hpath : IsUnbroken path) :
    ReadsUnbroken (File.ofPath directory path) := by
  have habsolute := isUnbroken_absolute h hpath
  refine readsUnbroken_file (readsUnbroken_encode ?_)
  split
  · exact habsolute
  · exact habsolute.cons (by decide)

theorem readsUnbroken_ofDirectory (h : IsUnbroken directory) (hpath : IsUnbroken path) :
    ReadsUnbroken (File.ofDirectory directory path) := by
  have hurl := readsUnbroken_ofPath h hpath
  unfold File.ofDirectory
  simp only
  split
  · exact hurl
  · exact readsUnbroken_append_cons (by decide) hurl readsUnbroken_nil

theorem ReadsUnbroken.toPath (h : ReadsUnbroken url) (hpath : File.toPath url = .ok path) :
    IsUnbroken path := by
  obtain ⟨parts, hsplit, -, rfl⟩ := File.exists_parts_of_toPath hpath
  exact (h.splitFrom readsUnbroken_nil hsplit).path

end Paths

end Url

end ModuleResolution
