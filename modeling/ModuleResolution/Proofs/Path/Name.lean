import ModuleResolution.Proofs.Path

/-!
# Names at the end of paths

What stands after the last slash of a path decides its suffixes and its extension.  If it is a name,
the normal form of the path ends in it too; otherwise the path has no extension at all, whatever its
normal form ends in.
-/

namespace ModuleResolution

namespace Path

open Text (splitOn joinWith)

/-! ## The last component -/

theorem slash_not_mem_basename (path : Text) : '/' ∉ basename path := by
  intro h
  have hc := List.all_takeWhile (p := (· != '/')) (l := path.reverse)
  rw [List.all_eq_true] at hc
  have hslash := hc '/' (List.mem_reverse.1 h)
  cases hslash

theorem takeWhile_reverse_append {name : Text} (h : '/' ∉ name) (rest : Text) :
    (name.reverse ++ rest).takeWhile (· != '/') = name.reverse ++ rest.takeWhile (· != '/') :=
  List.takeWhile_append_of_pos fun _ hc => bne_iff_ne.2 fun he => h (he ▸ List.mem_reverse.1 hc)

theorem basename_of_not_mem {path : Text} (h : '/' ∉ path) : basename path = path := by
  have hwhole := takeWhile_reverse_append h []
  rw [List.append_nil, List.takeWhile_nil, List.append_nil] at hwhole
  rw [basename, Text.takeEndWhile, hwhole, List.reverse_reverse]

theorem basename_append_cons {name : Text} (h : '/' ∉ name) (before : Text) :
    basename (before ++ '/' :: name) = name := by
  have hreverse : (before ++ '/' :: name).reverse = name.reverse ++ '/' :: before.reverse := by
    simp
  rw [basename, Text.takeEndWhile, hreverse, takeWhile_reverse_append h,
    List.takeWhile_cons_of_neg (by decide), List.append_nil, List.reverse_reverse]

theorem not_mem_or_eq_append_basename (path : Text) :
    '/' ∉ path ∨ ∃ before, path = before ++ '/' :: basename path := by
  have hparts := Text.dropEndWhile_append_takeEndWhile (· != '/') path
  cases hdrop : path.reverse.dropWhile (· != '/') with
  | nil =>
      left
      rw [Text.dropEndWhile, hdrop, List.reverse_nil, List.nil_append] at hparts
      rw [← hparts]
      exact slash_not_mem_basename path
  | cons c rest =>
      right
      have hhead := List.head?_dropWhile_not (· != '/') path.reverse
      rw [hdrop] at hhead
      have hc : c = '/' := by simpa using hhead
      refine ⟨rest.reverse, ?_⟩
      rw [Text.dropEndWhile, hdrop, List.reverse_cons, hc, List.append_assoc] at hparts
      exact hparts.symm

theorem eq_append_basename {path : Text} (h : isAbsolute path) :
    ∃ before, path = before ++ '/' :: basename path := by
  obtain ⟨rest, rfl⟩ := isAbsolute_iff.1 h
  exact (not_mem_or_eq_append_basename _).resolve_left fun hn => hn List.mem_cons_self

theorem isSuffixOf_basename_iff {suffix path : Text} (h : '/' ∉ suffix) :
    suffix.isSuffixOf path ↔ suffix.isSuffixOf (basename path) := by
  rw [List.isSuffixOf_iff_suffix, List.isSuffixOf_iff_suffix]
  rcases not_mem_or_eq_append_basename path with hpath | ⟨before, hpath⟩
  · rw [basename_of_not_mem hpath]
  · have hend : '/' :: basename path <:+ path := ⟨before, hpath.symm⟩
    constructor
    · intro hsuffix
      by_cases hlength : suffix.length ≤ (basename path).length
      · exact List.suffix_of_suffix_length_le hsuffix
          ((List.suffix_cons _ _).trans hend) hlength
      · have hslash := List.suffix_of_suffix_length_le hend hsuffix (by simp; omega)
        exact absurd (hslash.subset List.mem_cons_self) h
    · intro hsuffix
      exact hsuffix.trans ((List.suffix_cons _ _).trans hend)

theorem isSuffixOf_congr {suffix first second : Text} (h : '/' ∉ suffix)
    (hname : basename first = basename second) :
    suffix.isSuffixOf first ↔ suffix.isSuffixOf second := by
  rw [isSuffixOf_basename_iff h, hname, ← isSuffixOf_basename_iff h]

/-! ## Extensions -/

def HasNoExtension (path : Text) : Prop :=
  ∃ dots rest, basename path = dots ++ rest ∧ (∀ c ∈ dots, c = '.') ∧ '.' ∉ rest

theorem hasNoExtension_congr {first second : Text} (h : basename first = basename second) :
    HasNoExtension first ↔ HasNoExtension second := by
  unfold HasNoExtension
  rw [h]

theorem extension_eq_nil_iff {path : Text} : extension path = [] ↔ HasNoExtension path := by
  unfold extension HasNoExtension
  simp only
  generalize basename path = name
  have hparts := Text.dropEndWhile_append_takeEndWhile (· != '.') name
  constructor
  · intro h
    split at h
    · cases h
    · next hstem =>
        refine ⟨_, _, hparts.symm, ?_, ?_⟩
        · cases hdrop : name.reverse.dropWhile (· != '.') with
          | nil => simp [Text.dropEndWhile, hdrop]
          | cons c rest =>
              have hhead := List.head?_dropWhile_not (· != '.') name.reverse
              rw [hdrop] at hhead
              have hc : c = '.' := by simpa using hhead
              rw [Text.dropEndWhile, hdrop, List.reverse_cons, List.dropLast_concat] at hstem
              rw [Text.dropEndWhile, hdrop, List.reverse_cons]
              intro d hd
              rcases List.mem_append.1 hd with hd | hd
              · refine Decidable.byContradiction fun hne => hstem ?_
                exact List.any_eq_true.2 ⟨d, hd, bne_iff_ne.2 hne⟩
              · rw [List.mem_singleton.1 hd, hc]
        · intro hdot
          have hall := List.all_takeWhile (p := (· != '.')) (l := name.reverse)
          have hfalse := List.all_eq_true.1 hall '.' (List.mem_reverse.1 hdot)
          cases hfalse
  · intro h
    obtain ⟨dots, rest, rfl, hdots, hrest⟩ := h
    have hall : ∀ c ∈ rest, (c != '.') = true := fun c hc =>
      bne_iff_ne.2 fun he => hrest (he ▸ hc)
    have hstem : (Text.dropEndWhile (· != '.') (dots ++ rest)).dropLast.any (· != '.') = false := by
      rw [Text.dropEndWhile_append hall, List.any_eq_false]
      intro c hc
      have hmem : c ∈ dots :=
        (dropEndWhile_isPrefix _ dots).subset (List.dropLast_subset _ hc)
      simp [hdots c hmem]
    rw [hstem]
    rfl

/-! ## Paths that end in a name -/

/-- The last component is one that a normal form keeps. -/
def EndsInName (path : Text) : Prop :=
  IsName (basename path)

theorem basename_of_not_endsInName {path : Text} (h : ¬EndsInName path) :
    basename path ∈ [[], ".".toList, "..".toList] := by
  refine Decidable.byContradiction fun hn => h ?_
  simp only [List.mem_cons, List.not_mem_nil, or_false, not_or] at hn
  exact ⟨hn.1, hn.2.1, hn.2.2, slash_not_mem_basename path⟩

theorem hasNoExtension_of_not_endsInName {path : Text} (h : ¬EndsInName path) :
    HasNoExtension path := by
  refine ⟨basename path, [], (List.append_nil _).symm, ?_, List.not_mem_nil⟩
  have hall : ∀ name ∈ [[], ".".toList, "..".toList], ∀ c ∈ name, c = '.' := by simp
  exact hall _ (basename_of_not_endsInName h)

theorem isSuffixOf_of_not_endsInName {path suffix : Text} (h : ¬EndsInName path)
    (hslash : '/' ∉ suffix) (hlength : 2 < suffix.length) : suffix.isSuffixOf path = false := by
  rw [Bool.eq_false_iff, ne_eq, isSuffixOf_basename_iff hslash, List.isSuffixOf_iff_suffix]
  intro hsuffix
  have hall : ∀ name ∈ [[], ".".toList, "..".toList], name.length ≤ 2 := by decide
  have hle := hsuffix.length_le
  have hname := hall _ (basename_of_not_endsInName h)
  omega

theorem basename_joinWith {names : List Text} {name : Text} (h : '/' ∉ name) :
    basename ('/' :: joinWith '/' (names ++ [name])) = name := by
  cases names with
  | nil => exact basename_append_cons h []
  | cons first others =>
      rw [Text.joinWith_append (by simp) (by simp)]
      exact basename_append_cons h ('/' :: joinWith '/' (first :: others))

/-- The name at the end of a path is put on top of all components before it, so it stays at the end
of the normal form. -/
theorem basename_normalize {path : Text} (habsolute : isAbsolute path) (h : EndsInName path) :
    basename (normalize path) = basename path := by
  obtain ⟨before, hpath⟩ := eq_append_basename habsolute
  obtain ⟨names, hcomponents⟩ : ∃ names, components path = names ++ [basename path] := by
    refine ⟨((splitOn '/' before).foldl (push (isAbsolute path)) []).reverse, ?_⟩
    have hsplit : splitOn '/' path = splitOn '/' before ++ [basename path] := by
      rw [hpath, Text.splitOn_append_cons, ← hpath, Text.splitOn_of_not_mem h.not_mem]
    rw [components, stackOf, hsplit, List.foldl_append, List.foldl_cons, List.foldl_nil,
      push_of_isName h, List.reverse_cons]
  rcases normalize_of_isAbsolute habsolute with hnormal | hnormal
  · rw [hnormal, hcomponents, basename_joinWith h.not_mem]
  · obtain ⟨before, hone⟩ :=
      eq_append_basename (isAbsolute_cons_slash (joinWith '/' (names ++ [basename path])))
    rw [basename_joinWith h.not_mem] at hone
    rw [hnormal, hcomponents, hone]
    exact basename_append_cons h.not_mem ('/' :: before)

end Path

end ModuleResolution
