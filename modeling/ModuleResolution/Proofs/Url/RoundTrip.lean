import ModuleResolution.Proofs.Url.File

/-!
# Paths as URLs and back

The escaped characters of a path are all that a file URL would read in another way, and among the
kept ones is the slash.  So reading undoes writing, and the URL ends with a slash exactly if the
path does.
-/

namespace ModuleResolution

namespace Url

namespace File

/-! ## Writing -/

theorem slash_isSuffix_iff (before : Text) (last : Char) :
    "/".toList.isSuffixOf ("file://".toList ++ Percent.encode isKept (before ++ [last])) ↔
      last = '/' := by
  rw [Percent.encode_append, ← List.append_assoc, List.isSuffixOf_iff_suffix]
  constructor
  · intro h
    have hend : Percent.encode isKept [last] <:+
        "file://".toList ++ Percent.encode isKept before ++ Percent.encode isKept [last] :=
      List.suffix_append _ _
    have hlength : "/".toList.length <= (Percent.encode isKept [last]).length :=
      List.length_pos_iff.2 (Percent.encode_ne_nil (by simp))
    have hmem : '/' ∈ Percent.encode isKept [last] :=
      (List.suffix_of_suffix_length_le h hend hlength).subset (by simp)
    have hlast : '/' ∈ [last] := Decidable.byContradiction fun hn => slash_not_mem_encode hn hmem
    exact (List.mem_singleton.1 hlast).symm
  · rintro rfl
    exact List.suffix_append _ _

theorem ofPath_eq {directory : Text} (h : Path.isAbsolute directory) (path : Text) :
    ofPath directory path =
      "file://".toList ++ Percent.encode isKept (Path.absolute directory path) := by
  unfold ofPath
  simp only [Path.isAbsolute_absolute h, if_true]

theorem ofDirectory_eq_withSlash {directory : Text} (h : Path.isAbsolute directory)
    (path : Text) :
    ofDirectory directory path = "file://".toList ++
      Percent.encode isKept (Path.withSlash (Path.absolute directory path)) := by
  unfold ofDirectory
  simp only [ofPath_eq h]
  obtain ⟨rest, hrest⟩ := Path.isAbsolute_iff.1 (Path.isAbsolute_absolute h path)
  obtain ⟨before, last, hlast⟩ : ∃ before last, Path.absolute directory path = before ++ [last] :=
    ⟨_, _, (List.dropLast_concat_getLast (by rw [hrest]; simp)).symm⟩
  have hpath : "/".toList.isSuffixOf (before ++ [last]) ↔ last = '/' := by
    have hend : "/".toList.isSuffixOf (before ++ [last]) = ('/' == last) := by
      simp [List.isSuffixOf, List.isPrefixOf]
    rw [hend, beq_iff_eq]
    exact eq_comm
  rw [hlast, Path.withSlash]
  by_cases hslash : last = '/'
  · rw [if_pos ((slash_isSuffix_iff before last).2 hslash), if_pos (hpath.2 hslash)]
  · rw [if_neg (mt (slash_isSuffix_iff before last).1 hslash), if_neg (mt hpath.1 hslash),
      Percent.encode_append (before ++ [last]), List.append_assoc]
    rfl

/-! ## Reading -/

theorem toPath_encode {path : Text} (h : Path.isAbsolute path) :
    toPath ("file://".toList ++ Percent.encode isKept path) = .ok path := by
  rw [toPath_of_isPlain (isAbsolute_encode h) fun _ hc => isPlain_of_mem_encode hc, decode_encode]

theorem normalize_file {path : Text} (habsolute : Path.isAbsolute path)
    (hplain : ∀ c ∈ path, isPlain c) :
    normalize ("file://".toList ++ path) = .ok ("file://".toList ++ path) := by
  have hrest : ("file://".toList ++ path).drop ("file".toList.length + 1) = '/' :: '/' :: path :=
    rfl
  unfold normalize
  rw [split_file habsolute hplain]
  simp only [bind, Except.bind, hrest, habsolute]
  rfl

/-- From an absolute directory, a URL gives back the path that it was made of, and so does the URL
of a directory but for the slash at its end.  Different normal paths have different URLs, and a URL
of a path is in its usual form. -/
theorem paths_round_trip {directory : Text} (h : Path.isAbsolute directory) :
    (∀ path, toPath (ofPath directory path) = .ok (Path.absolute directory path)) ∧
    (∀ path, toPath (ofDirectory directory path) =
      .ok (Path.withSlash (Path.absolute directory path))) ∧
    (∀ first second, Path.IsNormal first -> Path.IsNormal second ->
      ofPath directory first = ofPath directory second -> first = second) ∧
    ∀ path, normalize (ofPath directory path) = .ok (ofPath directory path) := by
  have habsolute := Path.isAbsolute_absolute h
  have hpath : ∀ path, toPath (ofPath directory path) = .ok (Path.absolute directory path) := by
    intro path
    rw [ofPath_eq h, toPath_encode (habsolute path)]
  refine ⟨hpath, ?_, ?_, ?_⟩
  · intro path
    rw [ofDirectory_eq_withSlash h, toPath_encode (Path.isAbsolute_withSlash (habsolute path))]
  · intro first second hfirst hsecond hurl
    have hread := hpath first
    rw [hurl, hpath second, hfirst.absolute_eq, hsecond.absolute_eq] at hread
    exact (Except.ok.inj hread).symm
  · intro path
    rw [ofPath_eq h]
    exact normalize_file (isAbsolute_encode (habsolute path)) fun _ hc => isPlain_of_mem_encode hc

/-- A root of two slashes, a percent sign, a line break and a character outside ASCII. -/
theorem paths_round_trip_special :
    Path.isAbsolute "/work".toList ∧
    toPath (ofPath "/work".toList "//a%2F\n?é#/b".toList) = .ok "//a%2F\n?é#/b".toList ∧
    toPath (ofDirectory "/work".toList "//a%2F\n?é#/b".toList) = .ok "//a%2F\n?é#/b/".toList := by
  have h : Path.isAbsolute "/work".toList := by decide
  obtain ⟨hpath, hdirectory, -, -⟩ := paths_round_trip h
  exact ⟨h, hpath _, hdirectory _⟩

end File

end Url

end ModuleResolution
