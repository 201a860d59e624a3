import ModuleResolution.Package.Segment
import ModuleResolution.Proofs.Path
import ModuleResolution.Proofs.Percent

/-!
# Legal paths

The segments of a legal path are names, and they stay names when a legal text is put in place of
a character: what a segment of that text is part of is never one of the dot segments.
-/

namespace ModuleResolution

namespace Package

namespace Segment

open Text (splitOn lowerAscii substitute)

/-! ## Solid texts -/

def IsSolid (segment : Text) : Prop :=
  ¬segment <:+: "..".toList

theorem IsSolid.of_isInfix {part segment : Text} (h : IsSolid part) (hpart : part <:+: segment) :
    IsSolid segment :=
  fun hs => h (hpart.trans hs)

theorem isSolid_iff {segment : Text} :
    IsSolid segment ↔ segment ≠ [] ∧ segment ≠ ".".toList ∧ segment ≠ "..".toList := by
  constructor
  · intro h
    refine ⟨?_, ?_, ?_⟩
    · rintro rfl; exact h (List.nil_infix)
    · rintro rfl; exact h (by decide)
    · rintro rfl; exact h (List.infix_refl _)
  · rintro ⟨hnil, hdot, hup⟩ h
    have hsub : segment.Sublist (List.replicate 2 '.') := h.sublist
    obtain ⟨n, hn, rfl⟩ := List.sublist_replicate_iff.1 hsub
    match n, hn with
    | 0, _ => exact hnil rfl
    | 1, _ => exact hdot rfl
    | 2, _ => exact hup rfl

def AllSolid (path : Text) : Prop :=
  ∀ segment ∈ splitOn '/' path, IsSolid segment

theorem allSolid_of_isLegalPath {path : Text} (h : isLegalPath path) : AllSolid path := by
  intro segment hs
  have hall : allLegal (splitOn '/' (lowerAscii path)) = true := by
    unfold isLegalPath at h
    simp only [Bool.and_eq_true] at h
    exact h.1
  rw [Text.splitOn_lowerAscii (by decide)] at hall
  have hlegal := List.all_eq_true.1 hall (lowerAscii segment) (List.mem_map_of_mem hs)
  have hnot : lowerAscii segment ∉ reserved := by
    simp only [isLegal, Bool.not_or, Bool.and_eq_true, Bool.not_eq_true',
      List.contains_eq_mem, decide_eq_false_iff_not] at hlegal
    exact hlegal.1
  refine isSolid_iff.2 ⟨?_, ?_, ?_⟩
  · rintro rfl; exact hnot (by decide)
  · rintro rfl; exact hnot (by decide)
  · rintro rfl; exact hnot (by decide)

theorem splitOn_append (first second : Text) :
    ∃ before last next after, splitOn '/' first = before ++ [last] ∧
      splitOn '/' second = next :: after ∧
      splitOn '/' (first ++ second) = before ++ (last ++ next) :: after := by
  obtain ⟨next, after, hsecond⟩ : ∃ next after, splitOn '/' second = next :: after := by
    cases h : splitOn '/' second with
    | nil => exact absurd h (Text.splitOn_ne_nil '/' second)
    | cons next after => exact ⟨next, after, rfl⟩
  induction first with
  | nil => exact ⟨[], [], next, after, rfl, hsecond, hsecond⟩
  | cons c rest ih =>
      obtain ⟨before, last, next, after, hfirst, hsecond, happend⟩ := ih
      by_cases hc : c = '/'
      · refine ⟨[] :: before, last, next, after, ?_, hsecond, ?_⟩
        · rw [splitOn, if_pos hc, hfirst]; rfl
        · rw [List.cons_append, splitOn, if_pos hc, happend]; rfl
      · cases before with
        | nil =>
            refine ⟨[], c :: last, next, after, ?_, hsecond, ?_⟩
            · rw [splitOn, if_neg hc, hfirst]; rfl
            · rw [List.cons_append, splitOn, if_neg hc, happend]; rfl
        | cons head others =>
            refine ⟨(c :: head) :: others, last, next, after, ?_, hsecond, ?_⟩
            · rw [splitOn, if_neg hc, hfirst]; rfl
            · rw [List.cons_append, splitOn, if_neg hc, happend]; rfl

theorem AllSolid.append {first second : Text} (h : AllSolid first) (h' : AllSolid second) :
    AllSolid (first ++ second) := by
  obtain ⟨before, last, next, after, hfirst, hsecond, happend⟩ := splitOn_append first second
  intro segment hs
  rw [happend] at hs
  have hlast : IsSolid last := h last (by rw [hfirst]; simp)
  rcases List.mem_append.1 hs with hs | hs
  · exact h segment (by rw [hfirst]; exact List.mem_append_left _ hs)
  · rcases List.mem_cons.1 hs with rfl | hs
    · exact hlast.of_isInfix (List.prefix_append _ _).isInfix
    · exact h' segment (by rw [hsecond]; exact List.mem_cons_of_mem _ hs)

theorem AllSolid.append_left {first second : Text} (h : AllSolid second) (hslash : '/' ∉ first) :
    AllSolid (first ++ second) := by
  obtain ⟨before, last, next, after, hfirst, hsecond, happend⟩ := splitOn_append first second
  rw [Text.splitOn_of_not_mem hslash] at hfirst
  have hbefore : before = [] := by
    cases before with
    | nil => rfl
    | cons head others => cases others <;> simp at hfirst
  subst hbefore
  intro segment hs
  rw [happend] at hs
  rcases List.mem_cons.1 hs with rfl | hs
  · have hnext : IsSolid next := h next (by rw [hsecond]; exact List.mem_cons_self)
    exact hnext.of_isInfix (List.suffix_append _ _).isInfix
  · exact h segment (by rw [hsecond]; exact List.mem_cons_of_mem _ hs)

theorem AllSolid.append_right {first second : Text} (h : AllSolid first) (hslash : '/' ∉ second) :
    AllSolid (first ++ second) := by
  obtain ⟨before, last, next, after, hfirst, hsecond, happend⟩ := splitOn_append first second
  rw [Text.splitOn_of_not_mem hslash] at hsecond
  obtain ⟨rfl, rfl⟩ := List.cons.inj hsecond
  intro segment hs
  rw [happend] at hs
  rcases List.mem_append.1 hs with hs | hs
  · exact h segment (by rw [hfirst]; exact List.mem_append_left _ hs)
  · rw [List.mem_singleton.1 hs]
    have hlast : IsSolid last := h last (by rw [hfirst]; simp)
    exact hlast.of_isInfix (List.prefix_append _ _).isInfix

/-! ## Substitution -/

theorem substitute_cons (hole c : Char) (filling : Text) (rest : Text) :
    substitute hole filling (c :: rest) =
      (if c = hole then filling else [c]) ++ substitute hole filling rest := rfl

theorem allSolid_substitute_segment (hole : Char) {filling : Text} (h : AllSolid filling)
    {segment : Text} (hslash : '/' ∉ segment) :
    (hole ∉ segment ∧ substitute hole filling segment = segment) ∨
      AllSolid (substitute hole filling segment) := by
  induction segment with
  | nil => exact .inl ⟨List.not_mem_nil, rfl⟩
  | cons c rest ih =>
      have hrest : '/' ∉ rest := fun hm => hslash (List.mem_cons_of_mem _ hm)
      rw [substitute_cons]
      by_cases hc : c = hole
      · rw [if_pos hc]
        right
        rcases ih hrest with ⟨_, he⟩ | hsolid
        · rw [he]
          exact h.append_right hrest
        · exact h.append hsolid
      · rw [if_neg hc]
        rcases ih hrest with ⟨hhole, he⟩ | hsolid
        · left
          rw [he]
          exact ⟨fun hm => (List.mem_cons.1 hm).elim (fun hh => hc hh.symm) hhole, rfl⟩
        · right
          exact hsolid.append_left fun hm =>
            hslash (List.mem_singleton.1 hm ▸ List.mem_cons_self)

theorem substitute_joinWith {hole separator : Char} (h : separator ≠ hole) (filling : Text)
    (pieces : List Text) :
    substitute hole filling (Text.joinWith separator pieces) =
      Text.joinWith separator (pieces.map (substitute hole filling)) := by
  induction pieces with
  | nil => rfl
  | cons first others ih =>
      cases others with
      | nil => rfl
      | cons second rest =>
          have happend : substitute hole filling
              (first ++ separator :: Text.joinWith separator (second :: rest)) =
              substitute hole filling first ++
                substitute hole filling (separator :: Text.joinWith separator (second :: rest)) :=
            List.flatMap_append
          rw [Text.joinWith_cons_cons, happend, substitute_cons, if_neg h, ih]
          rfl

theorem splitOn_substitute {hole : Char} (hhole : '/' ≠ hole) (filling path : Text) :
    splitOn '/' (substitute hole filling path) =
      (splitOn '/' path).flatMap fun segment => splitOn '/' (substitute hole filling segment) := by
  have hne : (splitOn '/' path).map (substitute hole filling) ≠ [] := by
    simpa using Text.splitOn_ne_nil '/' path
  have hpath := substitute_joinWith hhole filling (splitOn '/' path)
  rw [Text.joinWith_splitOn] at hpath
  rw [hpath, Text.splitOn_joinWith_eq_flatMap hne, List.flatMap_map]

theorem AllSolid.substitute {hole : Char} (hhole : '/' ≠ hole) {filling path : Text}
    (h : AllSolid path) (hfilling : AllSolid filling) :
    AllSolid (Text.substitute hole filling path) := by
  intro segment hs
  rw [splitOn_substitute hhole] at hs
  obtain ⟨part, hpart, hmem⟩ := List.mem_flatMap.1 hs
  have hslash : '/' ∉ part := Text.not_mem_of_mem_splitOn hpart
  rcases allSolid_substitute_segment hole hfilling hslash with ⟨_, he⟩ | hsolid
  · rw [he, Text.splitOn_of_not_mem hslash, List.mem_singleton] at hmem
    rw [hmem]
    exact h part hpart
  · exact hsolid segment hmem

end Segment

end Package

end ModuleResolution
