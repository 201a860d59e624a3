import ModuleResolution.Package.Specifier
import ModuleResolution.Proofs.Text.Pieces

/-!
# The grammar of bare specifiers

A bare specifier is the name of a package and a subpath behind it: the name is the first segment, or
in a scope the first two.  What is cut off is put together again without loss, so a specifier can be
told from its name and subpath.
-/

namespace ModuleResolution

open Text (cut splitOn joinWith)

namespace Text

variable {separator : Char}

theorem eq_joinWith_take_append (text : Text) {count : Nat} (h : 0 < count) :
    ∃ rest, text = joinWith separator ((splitOn separator text).take count) ++ rest ∧
      (rest = [] ∨ ∃ after, rest = separator :: after) := by
  have hwhole := joinWith_splitOn separator text
  have hpieces := List.take_append_drop count (splitOn separator text)
  by_cases hdrop : (splitOn separator text).drop count = []
  · refine ⟨[], ?_, .inl rfl⟩
    rw [hdrop, List.append_nil] at hpieces
    rw [hpieces, hwhole, List.append_nil]
  · have htake : (splitOn separator text).take count ≠ [] := by
      rw [ne_eq, List.take_eq_nil_iff, not_or]
      exact ⟨Nat.ne_of_gt h, splitOn_ne_nil separator text⟩
    refine ⟨separator :: joinWith separator ((splitOn separator text).drop count), ?_,
      .inr ⟨_, rfl⟩⟩
    rw [← joinWith_append htake hdrop, hpieces, hwhole]

theorem splitOn_eq_cons (separator : Char) (text : Text) :
    ∃ others, splitOn separator text = (cut separator text).1 :: others := by
  rcases not_mem_or_eq_append_cons separator text with h | ⟨before, after, h, rfl⟩
  · exact ⟨[], by rw [splitOn_of_not_mem h, cut_of_not_mem h]⟩
  · exact ⟨splitOn separator after, by
      rw [splitOn_append_cons, splitOn_of_not_mem h, cut_append_cons h]
      rfl⟩

end Text

namespace Package

namespace Specifier

variable {specifier : Text} {package : Specifier}

/-! ## Names -/

def isScoped (specifier : Text) : Bool :=
  "@".toList.isPrefixOf specifier

/-- The name of the package: the first segment of a specifier, or the first two in a scope. -/
def nameOf (specifier : Text) : Text :=
  joinWith '/' ((splitOn '/' specifier).take (if isScoped specifier then 2 else 1))

/-- The specifier has a slash, and the segment after it is not empty. -/
def HasSecondSegment (specifier : Text) : Prop :=
  ∃ scope c rest, '/' ∉ scope ∧ c ≠ '/' ∧ specifier = scope ++ '/' :: c :: rest

theorem nameOf_append_drop (specifier : Text) :
    nameOf specifier ++ specifier.drop (nameOf specifier).length = specifier ∧
      (specifier.drop (nameOf specifier).length = [] ∨
        ∃ after, specifier.drop (nameOf specifier).length = '/' :: after) := by
  have hcount : 0 < if isScoped specifier then 2 else 1 := by split <;> decide
  obtain ⟨rest, hspecifier, hrest⟩ := Text.eq_joinWith_take_append specifier hcount
  have hdrop : specifier.drop (nameOf specifier).length = rest := by
    rw [nameOf]
    generalize joinWith '/' _ = name at hspecifier
    rw [hspecifier, List.drop_left]
  rw [hdrop]
  exact ⟨hspecifier.symm, hrest⟩

theorem nameOf_of_not_isScoped (h : isScoped specifier = false) :
    nameOf specifier = (cut '/' specifier).1 := by
  obtain ⟨others, hothers⟩ := Text.splitOn_eq_cons '/' specifier
  rw [nameOf, h, hothers]
  rfl

theorem slash_not_mem_nameOf (h : isScoped specifier = false) : '/' ∉ nameOf specifier := by
  rw [nameOf_of_not_isScoped h]
  exact Text.not_mem_cut_fst '/' specifier

theorem hasSecondSegment_iff :
    HasSecondSegment specifier ↔
      ∃ scope segment others, splitOn '/' specifier = scope :: segment :: others ∧
        segment ≠ [] := by
  constructor
  · rintro ⟨scope, c, rest, hscope, hc, rfl⟩
    obtain ⟨others, hothers⟩ := Text.splitOn_eq_cons '/' (c :: rest)
    refine ⟨scope, (cut '/' (c :: rest)).1, others, ?_, ?_⟩
    · rw [Text.splitOn_append_cons, Text.splitOn_of_not_mem hscope, hothers]
      rfl
    · rw [cut, if_neg hc]
      exact List.cons_ne_nil _ _
  · rintro ⟨scope, segment, others, hsplit, hne⟩
    have hscope : '/' ∉ scope := Text.not_mem_of_mem_splitOn (by rw [hsplit]; simp)
    have hsegment : '/' ∉ segment := Text.not_mem_of_mem_splitOn (by rw [hsplit]; simp)
    obtain ⟨c, more, rfl⟩ := List.exists_cons_of_ne_nil hne
    have hwhole : specifier = scope ++ '/' :: joinWith '/' ((c :: more) :: others) := by
      rw [← Text.joinWith_cons_cons, ← hsplit, Text.joinWith_splitOn]
    have hc : c ≠ '/' := fun he => hsegment (he ▸ List.mem_cons_self)
    obtain ⟨rest, hrest⟩ : ∃ rest, joinWith '/' ((c :: more) :: others) = c :: rest := by
      cases others with
      | nil => exact ⟨more, rfl⟩
      | cons next others => exact ⟨_, rfl⟩
    exact ⟨scope, c, rest, hscope, hc, by rw [hwhole, hrest]⟩

theorem nameOf_of_isScoped (hscoped : isScoped specifier) (h : HasSecondSegment specifier) :
    ∃ scope segment, nameOf specifier = ('@' :: scope) ++ '/' :: segment ∧ '/' ∉ '@' :: scope ∧
      '/' ∉ segment ∧ segment ≠ [] := by
  obtain ⟨first, segment, others, hsplit, hne⟩ := hasSecondSegment_iff.1 h
  have hfirst : '/' ∉ first := Text.not_mem_of_mem_splitOn (by rw [hsplit]; simp)
  have hsegment : '/' ∉ segment := Text.not_mem_of_mem_splitOn (by rw [hsplit]; simp)
  have hname : nameOf specifier = first ++ '/' :: segment := by
    rw [nameOf, if_pos hscoped, hsplit]
    rfl
  have hspecifier := (nameOf_append_drop specifier).1
  rw [hname] at hspecifier
  rw [isScoped, ← hspecifier, List.isPrefixOf_iff_prefix] at hscoped
  cases first with
  | nil => exact absurd (List.cons_prefix_cons.1 hscoped).1 (by decide)
  | cons c scope =>
      obtain rfl : '@' = c := (List.cons_prefix_cons.1 hscoped).1
      exact ⟨scope, segment, hname, hfirst, hsegment, hne⟩

theorem name?_eq_some_iff {name : Text} :
    name? specifier = some name ↔
      (isScoped specifier -> HasSecondSegment specifier) ∧ name = nameOf specifier := by
  cases hscoped : isScoped specifier with
  | false =>
      have hplain : name? specifier = some (cut '/' specifier).1 :=
        if_neg (by rw [← isScoped, hscoped]; exact Bool.false_ne_true)
      rw [hplain, nameOf_of_not_isScoped hscoped]
      simp [eq_comm]
  | true =>
      have hat : "@".toList.isPrefixOf specifier := hscoped
      rw [name?, if_pos hat, nameOf, hscoped, hasSecondSegment_iff]
      cases splitOn '/' specifier with
      | nil => simp
      | cons scope rest =>
          cases rest with
          | nil => simp
          | cons segment others =>
              cases segment with
              | nil => simp
              | cons c more =>
                  have hsecond : ∃ first second rest, scope :: (c :: more) :: others =
                      first :: second :: rest ∧ second ≠ [] :=
                    ⟨_, _, _, rfl, List.cons_ne_nil _ _⟩
                  rw [and_iff_right fun _ => hsecond]
                  simp [joinWith, eq_comm]

/-! ## Bare specifiers -/

/-- The specifiers that name a package and a subpath in it. -/
structure IsBare (specifier : Text) : Prop where
  ne_nil : specifier ≠ []
  slash_not_last : ¬['/'] <:+ specifier
  dot_not_first : ¬['.'] <+: nameOf specifier
  backslash_not_mem : '\\' ∉ nameOf specifier
  percent_not_mem : '%' ∉ nameOf specifier
  second_segment : isScoped specifier -> HasSecondSegment specifier

theorem isLegalName_iff {name : Text} :
    isLegalName name ↔ ¬['.'] <+: name ∧ '\\' ∉ name ∧ '%' ∉ name := by
  rw [← List.isPrefixOf_iff_prefix]
  simp only [isLegalName, Bool.not_eq_true', Bool.or_eq_false_iff, List.contains_eq_mem,
    decide_eq_false_iff_not, Bool.not_eq_true, and_assoc]
  rfl

theorem slash_not_suffix_nameOf (h : isScoped specifier -> HasSecondSegment specifier) :
    ¬['/'] <:+ nameOf specifier := by
  intro hslash
  cases hscoped : isScoped specifier with
  | false => exact slash_not_mem_nameOf hscoped (hslash.subset (List.mem_singleton.2 rfl))
  | true =>
      obtain ⟨scope, segment, hname, -, hsegment, hne⟩ := nameOf_of_isScoped hscoped (h hscoped)
      have hend : segment <:+ nameOf specifier := by
        rw [hname]
        exact (List.suffix_cons _ _).trans (List.suffix_append _ _)
      have hlast := List.suffix_of_suffix_length_le hslash hend (List.length_pos_iff.2 hne)
      exact hsegment (hlast.subset (List.mem_singleton.2 rfl))

theorem slash_suffix_subpath_iff (h : isScoped specifier -> HasSecondSegment specifier) :
    "/".toList.isSuffixOf ('.' :: specifier.drop (nameOf specifier).length) ↔
      ['/'] <:+ specifier := by
  rw [List.isSuffixOf_iff_suffix]
  obtain ⟨hspecifier, hrest⟩ := nameOf_append_drop specifier
  have hname := slash_not_suffix_nameOf h
  generalize specifier.drop (nameOf specifier).length = rest at hspecifier hrest
  generalize nameOf specifier = name at hspecifier hname
  subst hspecifier
  rcases hrest with rfl | ⟨after, rfl⟩
  · rw [List.append_nil]
    exact iff_of_false (by decide) hname
  · have hend : ∀ {text : Text}, '/' :: after <:+ text ->
        (['/'] <:+ text ↔ ['/'] <:+ '/' :: after) := fun hend =>
      ⟨fun hs => List.suffix_of_suffix_length_le hs hend (by simp), fun hs => hs.trans hend⟩
    exact (hend (List.suffix_cons _ _)).trans (hend (List.suffix_append _ _)).symm

theorem parse_eq_ok_iff :
    parse specifier = .ok package ↔
      IsBare specifier ∧
        package = ⟨nameOf specifier, '.' :: specifier.drop (nameOf specifier).length⟩ := by
  unfold parse
  simp only
  constructor
  · intro h
    split at h
    · cases h
    · next hempty =>
        split at h
        · cases h
        · next name hname =>
            obtain ⟨hsecond, rfl⟩ := name?_eq_some_iff.1 hname
            split at h
            · cases h
            · next hlegal =>
                split at h
                · cases h
                · next hslash =>
                    cases h
                    have hne : specifier ≠ [] := fun he => hempty (List.isEmpty_iff.2 he)
                    rw [slash_suffix_subpath_iff hsecond] at hslash
                    obtain ⟨hdot, hback, hpercent⟩ :=
                      isLegalName_iff.1 (by simpa using hlegal)
                    exact ⟨⟨hne, hslash, hdot, hback, hpercent, hsecond⟩, rfl⟩
  · rintro ⟨hbare, rfl⟩
    have hname := name?_eq_some_iff.2 ⟨hbare.second_segment, rfl⟩
    have hlegal : isLegalName (nameOf specifier) :=
      isLegalName_iff.2 ⟨hbare.dot_not_first, hbare.backslash_not_mem, hbare.percent_not_mem⟩
    have hslash := mt (slash_suffix_subpath_iff hbare.second_segment).1
      hbare.slash_not_last
    rw [if_neg (mt List.isEmpty_iff.1 hbare.ne_nil), hname]
    simp only [hlegal, Bool.not_true, Bool.false_eq_true, if_false, if_neg hslash]

theorem parse_eq_error {error : ResolutionError} (h : parse specifier = .error error) :
    error = .invalidModuleSpecifier specifier := by
  unfold parse at h
  simp only at h
  split at h
  · cases h; rfl
  · split at h
    · cases h; rfl
    · split at h
      · cases h; rfl
      · split at h
        · cases h; rfl
        · cases h

theorem parse_of_not_isBare (h : ¬IsBare specifier) :
    parse specifier = .error (.invalidModuleSpecifier specifier) := by
  cases hparse : parse specifier with
  | error error => rw [parse_eq_error hparse]
  | ok package => exact absurd (parse_eq_ok_iff.1 hparse).1 h

theorem name_append_subpath (h : parse specifier = .ok package) :
    package.name ++ package.subpath.drop 1 = specifier := by
  obtain ⟨-, rfl⟩ := parse_eq_ok_iff.1 h
  exact (nameOf_append_drop specifier).1

theorem subpath_of_parse (h : parse specifier = .ok package) :
    package.subpath = ".".toList ∨ "./".toList.isPrefixOf package.subpath := by
  obtain ⟨-, rfl⟩ := parse_eq_ok_iff.1 h
  rcases (nameOf_append_drop specifier).2 with hdrop | ⟨after, hdrop⟩
  · exact .inl (congrArg ('.' :: ·) hdrop)
  · right
    show "./".toList.isPrefixOf ('.' :: specifier.drop (nameOf specifier).length) = true
    rw [hdrop]
    rfl

end Specifier

end Package

end ModuleResolution
