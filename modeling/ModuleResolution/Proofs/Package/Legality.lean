import ModuleResolution.Proofs.Package.Segment
import ModuleResolution.Proofs.Percent.Runs

/-!
# Which paths are legal

A path is cut at slashes and at backslashes, but never at both at once, and its letters are lowered
before its escapes are read.  So the check passes over a reserved segment that stands between two
kinds of separators, and over one in which an escape stands for a capital letter.
-/

namespace ModuleResolution

namespace Text

/-! ## Two separators -/

theorem splitOnP_or (first second : Char) (text : Text) :
    text.splitOnP (fun c => c == first || c == second) =
      (splitOn first text).flatMap (splitOn second) := by
  induction text with
  | nil => rfl
  | cons c rest ih =>
      rw [List.splitOnP_cons_eq_if_modifyHead, ih, splitOn]
      by_cases hfirst : c = first
      · simp [hfirst, splitOn]
      · cases hs : splitOn first rest with
        | nil => exact absurd hs (splitOn_ne_nil first rest)
        | cons piece pieces =>
            by_cases hsecond : c = second
            · subst hsecond
              have hpiece : splitOn c (c :: piece) = [] :: splitOn c piece := if_pos rfl
              simp [hfirst, hpiece]
            · cases hp : splitOn second piece with
              | nil => exact absurd hp (splitOn_ne_nil second piece)
              | cons head others => simp [hfirst, hsecond, splitOn, hp]

end Text

namespace Package

namespace Segment

open Text (splitOn lowerAscii)

/-! ## Reserved segments -/

/-- What stands between separators of either kind. -/
def pieces (path : Text) : List Text :=
  path.splitOnP fun c => c == '/' || c == '\\'

/-- Does a segment stand for a reserved one, in letters of either case? -/
def IsReserved (segment : Text) : Prop :=
  lowerAscii (Percent.decode segment) ∈ reserved

/-- Is there a capital letter once the letters are lowered and the escapes read?  Only an escape can
stand for it. -/
def HasEscapedCapital (segment : Text) : Prop :=
  (Percent.decode (lowerAscii segment)).any Char.isUpper

instance (segment : Text) : Decidable (IsReserved segment) :=
  inferInstanceAs (Decidable (_ ∈ reserved))

instance (segment : Text) : Decidable (HasEscapedCapital segment) :=
  inferInstanceAs (Decidable (_ = true))

theorem decode_of_mem_reserved {segment : Text} (h : segment ∈ reserved) :
    Percent.decode segment = segment := by
  have hall : ∀ word ∈ reserved, '%' ∉ word := by decide
  exact Percent.decode_of_not_mem (hall segment h)

theorem lowerAscii_of_mem_reserved {segment : Text} (h : segment ∈ reserved) :
    lowerAscii segment = segment := by
  have hall : ∀ word ∈ reserved, lowerAscii word = word := by decide
  exact hall segment h

theorem isLegal_iff (segment : Text) : isLegal segment ↔ Percent.decode segment ∉ reserved := by
  rw [isLegal, Bool.not_eq_true', Bool.or_eq_false_iff, ← Bool.not_eq_true, ← Bool.not_eq_true,
    List.contains_iff_mem, List.contains_iff_mem]
  exact and_iff_right_of_imp fun h hs => h ((decode_of_mem_reserved hs).symm ▸ hs)

theorem lowerAscii_of_not_isUpper {text : Text} (h : ¬text.any Char.isUpper) :
    lowerAscii text = text := by
  refine (List.map_congr_left fun c hc => ?_).trans (List.map_id text)
  exact Text.toLower_of_not_isUpper fun hupper => h (List.any_eq_true.2 ⟨c, hc, hupper⟩)

theorem not_mem_of_isReserved {separator : Char} (h : separator = '/' ∨ separator = '\\')
    {segment : Text} (hs : IsReserved segment) : separator ∉ segment := by
  intro hm
  obtain ⟨before, after, rfl⟩ := List.append_of_mem hm
  have hseparator : Percent.IsSeparator separator ∧ separator.toLower = separator ∧
      ∀ word ∈ reserved, separator ∉ word := by
    rcases h with rfl | rfl
    · exact ⟨Percent.isSeparator_slash, by decide, by decide⟩
    · exact ⟨Percent.isSeparator_backslash, by decide, by decide⟩
  obtain ⟨hends, hlower, hnot⟩ := hseparator
  rw [IsReserved, Percent.decode_append_cons hends, Text.lowerAscii_append, Text.lowerAscii_cons,
    hlower] at hs
  exact hnot _ hs (List.mem_append_right _ List.mem_cons_self)

theorem decode_lowerAscii_mem_reserved_iff (segment : Text) :
    Percent.decode (lowerAscii segment) ∈ reserved ↔
      IsReserved segment ∧ ¬HasEscapedCapital segment := by
  rw [IsReserved, ← Percent.lowerAscii_decode]
  constructor
  · intro h
    have hall : ∀ word ∈ reserved, ¬word.any Char.isUpper := by decide
    exact ⟨(lowerAscii_of_mem_reserved h).symm ▸ h, hall _ h⟩
  · rintro ⟨h, hcapital⟩
    rwa [lowerAscii_of_not_isUpper hcapital] at h

/-! ## Both passes -/

theorem allLegal_splitOn_lowerAscii {separator : Char} (h : separator.isAlpha = false)
    (path : Text) :
    allLegal (splitOn separator (lowerAscii path)) ↔
      ∀ segment ∈ splitOn separator path, IsReserved segment -> HasEscapedCapital segment := by
  rw [allLegal, Text.splitOn_lowerAscii h, List.all_map, List.all_eq_true]
  refine forall₂_congr fun segment _ => ?_
  rw [Function.comp, isLegal_iff, decode_lowerAscii_mem_reserved_iff, not_and, Classical.not_not]

theorem mem_pieces_of_mem_splitOn {path segment : Text}
    (h : segment ∈ splitOn '/' path ∨ segment ∈ splitOn '\\' path) (hs : IsReserved segment) :
    segment ∈ pieces path := by
  have hslash : '/' ∉ segment := not_mem_of_isReserved (.inl rfl) hs
  have hbackslash : '\\' ∉ segment := not_mem_of_isReserved (.inr rfl) hs
  rcases h with h | h
  · rw [pieces, Text.splitOnP_or]
    exact List.mem_flatMap.2 ⟨segment, h, by simp [Text.splitOn_of_not_mem hbackslash]⟩
  · rw [pieces, funext fun c => Bool.or_comm (c == '/') (c == '\\'), Text.splitOnP_or]
    exact List.mem_flatMap.2 ⟨segment, h, by simp [Text.splitOn_of_not_mem hslash]⟩

theorem mem_splitOn_of_mem_pieces {path : Text} (h : '/' ∉ path ∨ '\\' ∉ path) {segment : Text}
    (hs : segment ∈ pieces path) : segment ∈ splitOn '/' path ∨ segment ∈ splitOn '\\' path := by
  rcases h with h | h
  · right
    have hone : pieces path = splitOn '\\' path := by
      rw [pieces, Text.splitOnP_or, Text.splitOn_of_not_mem h, List.flatMap_singleton]
    rwa [← hone]
  · left
    have hnot : ∀ piece ∈ splitOn '/' path, '\\' ∉ piece := fun piece hp hm =>
      h (Text.mem_of_mem_splitOn hp hm)
    have hone : pieces path = splitOn '/' path := by
      rw [pieces, Text.splitOnP_or, Text.flatMap_splitOn_of_not_mem hnot]
    rwa [← hone]

/-- The check passes over a reserved segment exactly if it stands between separators of different
kinds or has an escape for a capital letter.  It refuses no other segments, and without both kinds
of separators and such escapes it refuses all reserved ones. -/
theorem isLegalPath_iff_forall_pieces (path : Text) :
    (isLegalPath path ↔
        ∀ segment ∈ pieces path, (segment ∈ splitOn '/' path ∨ segment ∈ splitOn '\\' path) ->
          IsReserved segment -> HasEscapedCapital segment) ∧
      ((∀ segment ∈ pieces path, ¬IsReserved segment) -> isLegalPath path) ∧
      (('/' ∉ path ∨ '\\' ∉ path) -> (∀ segment ∈ pieces path, ¬HasEscapedCapital segment) ->
        (isLegalPath path ↔ ∀ segment ∈ pieces path, ¬IsReserved segment)) := by
  have hiff : isLegalPath path ↔
      ∀ segment ∈ pieces path, (segment ∈ splitOn '/' path ∨ segment ∈ splitOn '\\' path) ->
        IsReserved segment -> HasEscapedCapital segment := by
    rw [isLegalPath, Bool.and_eq_true, allLegal_splitOn_lowerAscii (by decide),
      allLegal_splitOn_lowerAscii (by decide)]
    constructor
    · rintro ⟨hslash, hbackslash⟩ segment - (h | h)
      · exact hslash segment h
      · exact hbackslash segment h
    · intro h
      exact ⟨fun segment hm hs => h segment (mem_pieces_of_mem_splitOn (.inl hm) hs) (.inl hm) hs,
        fun segment hm hs => h segment (mem_pieces_of_mem_splitOn (.inr hm) hs) (.inr hm) hs⟩
  have hlegal : (∀ segment ∈ pieces path, ¬IsReserved segment) -> isLegalPath path := fun h =>
    hiff.2 fun segment hm _ hs => absurd hs (h segment hm)
  refine ⟨hiff, hlegal, fun hone hcapital => ⟨fun h segment hm hs => ?_, hlegal⟩⟩
  exact hcapital segment hm (hiff.1 h segment hm (mem_splitOn_of_mem_pieces hone hm) hs)

theorem isLegalPath_iff_forall_pieces_escaped :
    IsReserved "node%5Fmodules".toList ∧ ¬isLegalPath "a/node%5Fmodules".toList := by
  obtain ⟨-, -, hone⟩ := isLegalPath_iff_forall_pieces "a/node%5Fmodules".toList
  have hreserved : IsReserved "node%5Fmodules".toList := by decide
  refine ⟨hreserved, fun h => ?_⟩
  exact (hone (by decide) (by decide)).1 h "node%5Fmodules".toList (by decide) hreserved

/-- Two paths with a reserved segment that the check passes over. -/
theorem isLegalPath_of_isReserved :
    (isLegalPath "a/..\\b".toList ∧ "..".toList ∈ pieces "a/..\\b".toList ∧
        IsReserved "..".toList) ∧
      isLegalPath "%4Eode_modules".toList ∧
      "%4Eode_modules".toList ∈ pieces "%4Eode_modules".toList ∧
      IsReserved "%4Eode_modules".toList := by
  decide

end Segment

end Package

end ModuleResolution
