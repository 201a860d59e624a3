import ModuleResolution.Proofs.Url.Join

/-!
# URLs inside a directory

A URL is inside a directory if it starts with the URL of the directory and the file that it names
is below it.  For a reference that is carried out from the directory, both can be told from the
segments of the reference.
-/

namespace ModuleResolution

namespace Url

open Text (splitOn joinWith)

/-! ## Prefixes -/

def IsEnding (text : Text) : Prop :=
  ∀ c rest, text = c :: rest -> isPlain c = false ∧ c ≠ '/'

theorem isEnding_ending (query fragment : Text) : IsEnding (ending query fragment) := by
  intro c rest h
  unfold ending at h
  split at h
  · split at h
    · cases h
    · cases h
      decide
  · cases h
    decide

theorem not_isPrefix_append_ending {segment other rest tail : Text}
    (hplain : ∀ c ∈ segment, isPlain c) (hother : '/' ∉ other) (htail : IsEnding tail) :
    ¬segment ++ '/' :: rest <+: other ++ tail := by
  induction segment generalizing other with
  | nil =>
      cases other with
      | nil =>
          intro h
          obtain ⟨_, h⟩ := h
          exact (htail '/' _ h.symm).2 rfl
      | cons d others =>
          rw [List.nil_append, List.cons_append, List.cons_prefix_cons]
          intro hstart
          obtain ⟨rfl, _⟩ := hstart
          exact hother List.mem_cons_self
  | cons c others ih =>
      cases other with
      | nil =>
          intro h
          obtain ⟨_, h⟩ := h
          have hc := (htail c _ h.symm).1
          rw [hplain c List.mem_cons_self] at hc
          cases hc
      | cons d ds =>
          rw [List.cons_append, List.cons_append, List.cons_prefix_cons]
          intro h
          obtain ⟨_, h⟩ := h
          exact ih (fun e he => hplain e (List.mem_cons_of_mem _ he))
            (fun he => hother (List.mem_cons_of_mem _ he)) h

/-- A directory's segments with a slash behind them are a prefix exactly of what has these segments
first and at least one more. -/
theorem joinWith_isPrefix_iff {segments path : List Text} {tail : Text}
    (hsegments : ∀ segment ∈ segments, '/' ∉ segment ∧ ∀ c ∈ segment, isPlain c)
    (hne : path ≠ []) (hpath : ∀ segment ∈ path, '/' ∉ segment) (htail : IsEnding tail) :
    joinWith '/' (segments ++ [[]]) <+: joinWith '/' path ++ tail ↔
      ∃ rest, rest ≠ [] ∧ path = segments ++ rest := by
  induction segments generalizing path with
  | nil => exact ⟨fun _ => ⟨path, hne, rfl⟩, fun _ => List.nil_prefix⟩
  | cons segment others ih =>
      obtain ⟨hslash, hplain⟩ := hsegments segment List.mem_cons_self
      have hjoin : joinWith '/' (segment :: others ++ [[]]) =
          segment ++ '/' :: joinWith '/' (others ++ [[]]) := by
        cases others with
        | nil => rfl
        | cons next more => rfl
      rw [hjoin]
      cases path with
      | nil => exact absurd rfl hne
      | cons first below =>
          cases below with
          | nil =>
              constructor
              · intro h
                exact absurd h
                  (not_isPrefix_append_ending hplain (hpath first List.mem_cons_self) htail)
              · intro h
                obtain ⟨rest, hrest, h⟩ := h
                have hnil : others ++ rest = [] := (List.cons.inj h).2.symm
                exact absurd (List.append_eq_nil_iff.1 hnil).2 hrest
          | cons second more =>
              have hrest := fun s hs => hpath s (List.mem_cons_of_mem first hs)
              have hrec := ih (fun s hs => hsegments s (List.mem_cons_of_mem _ hs))
                (List.cons_ne_nil second more) hrest
              rw [Text.joinWith_cons_cons, List.append_assoc, List.cons_append,
                Text.append_cons_isPrefix_iff hslash (hpath first List.mem_cons_self), hrec]
              constructor
              · intro h
                obtain ⟨rfl, rest, hrest, h⟩ := h
                exact ⟨rest, hrest, by rw [h]; rfl⟩
              · intro h
                obtain ⟨rest, hrest, h⟩ := h
                rw [List.cons_append] at h
                exact ⟨(List.cons.inj h).1.symm, rest, hrest, (List.cons.inj h).2⟩

theorem isPlain_of_mem_path {path : List Text} (h : ∀ segment ∈ path, ∀ c ∈ segment, isPlain c)
    {c : Char} (hc : c ∈ '/' :: joinWith '/' path) : isPlain c := by
  have hslash : isPlain '/' := by decide
  rcases List.mem_cons.1 hc with rfl | hc
  · exact hslash
  · rcases Text.mem_joinWith hc with rfl | ⟨segment, hs, hc⟩
    · exact hslash
    · exact h segment hs c hc

namespace File

/-! ## What URLs stand for -/

/-- The components that segments stand for under a root, the last one first: an escaped slash
separates components like a plain one. -/
def decodedStack (stack segments : List Text) : List Text :=
  (segments.flatMap fun segment => splitOn '/' (Percent.decode segment)).foldl (Path.push true)
    stack

theorem decode_cons_slash (segments : List Text) :
    Percent.decode ('/' :: joinWith '/' segments) =
      '/' :: joinWith '/' (segments.map Percent.decode) := by
  have h := Percent.decode_append_cons Percent.isSeparator_slash [] (joinWith '/' segments)
  rw [Percent.decode_joinWith Percent.isSeparator_slash] at h
  exact h

theorem components_decode {segments : List Text} (hne : segments ≠ []) :
    Path.components (Percent.decode ('/' :: joinWith '/' segments)) =
      (decodedStack [] segments).reverse := by
  rw [decode_cons_slash, Path.components, Path.stackOf_cons_slash,
    Text.splitOn_joinWith_eq_flatMap (by simpa using hne), List.flatMap_map]
  rfl

theorem decodedStack_of_isName_decode {segments : List Text}
    (h : ∀ segment ∈ segments, Path.IsName (Percent.decode segment)) (stack : List Text) :
    decodedStack stack segments = (segments.map Percent.decode).reverse ++ stack := by
  have hnames : ∀ name ∈ segments.map Percent.decode, Path.IsName name := by
    intro name hname
    obtain ⟨segment, hs, rfl⟩ := List.mem_map.1 hname
    exact h segment hs
  have hdecode : segments.flatMap (fun segment => splitOn '/' (Percent.decode segment)) =
      segments.map Percent.decode := by
    rw [← List.flatMap_map]
    exact Text.flatMap_splitOn_of_not_mem fun name hn => (hnames name hn).not_mem
  rw [decodedStack, hdecode, Path.foldl_push_of_isName true hnames]

theorem decodedStack_append (stack segments rest : List Text) :
    decodedStack stack (segments ++ rest) = decodedStack (decodedStack stack segments) rest := by
  rw [decodedStack, List.flatMap_append, List.foldl_append]
  rfl

theorem decodedStack_segments_append {directory : Text} (h : Path.isAbsolute directory)
    (rest : List Text) :
    decodedStack [] (segments directory ++ rest) =
      decodedStack (Path.components directory).reverse rest := by
  have hnames : ∀ segment ∈ segments directory, Path.IsName (Percent.decode segment) := by
    intro segment hs
    have hmem := List.mem_map_of_mem (f := Percent.decode) hs
    rw [map_decode_segments] at hmem
    exact Path.isName_of_mem_components h hmem
  rw [decodedStack_append, decodedStack_of_isName_decode hnames, map_decode_segments,
    List.append_nil]

/-! ## Staying inside -/

/-- The URL starts with that of the directory and names a file below it. -/
structure IsInside (workingDirectory directory url : Text) : Prop where
  starts : ofDirectory workingDirectory directory <+: url
  below : ∃ path, toPath url = .ok path ∧ Path.IsBelow directory (Path.normalize path)

/-- The segments that a reference leads to from a directory. -/
def target (directory reference : Text) : List Text :=
  landing (segments directory) (splitOn '/' (referencePath reference))

/-- A reference stays in a directory if the walk of its segments keeps all segments of the directory
and adds some, and if these keep all components of the directory and add some to them. -/
def StaysIn (directory reference : Text) : Prop :=
  ∃ rest names, rest ≠ [] ∧ names ≠ [] ∧
    target directory reference = segments directory ++ rest ∧
    (decodedStack (Path.components directory).reverse rest).reverse =
      Path.components directory ++ names

variable {workingDirectory directory reference : Text}

theorem join_ofDirectory (hdirectory : Path.IsCanonical directory)
    (h : "./".toList.isPrefixOf reference) :
    join (ofDirectory workingDirectory directory) reference =
      .ok ("file:///".toList ++ joinWith '/' (target directory reference) ++
        ending (referenceQuery reference) (referenceFragment reference)) := by
  have hnames : ∀ segment ∈ segments directory, Path.IsName segment :=
    fun _ hs => isName_of_mem_segments hdirectory.isAbsolute hs
  have hbase := directorySegments_concat hnames List.not_mem_nil
  have hplain : ∀ segment ∈ segments directory ++ [[]], ∀ c ∈ segment, isPlain c := by
    intro segment hs c hc
    rcases List.mem_append.1 hs with hs | hs
    · exact isPlain_of_mem_segments hs hc
    · rw [List.mem_singleton.1 hs] at hc
      exact absurd hc List.not_mem_nil
  have hjoin := join_file_of_dotSlash (Path.isAbsolute_cons_slash _)
    (fun _ hc => isPlain_of_mem_path hplain hc)
    (by rw [hbase]; exact hnames) h
  rw [hbase] at hjoin
  rw [ofDirectory_eq workingDirectory hdirectory]
  exact hjoin

theorem toPath_target (directory reference : Text) :
    toPath ("file:///".toList ++ joinWith '/' (target directory reference) ++
        ending (referenceQuery reference) (referenceFragment reference)) =
      .ok (Percent.decode ('/' :: joinWith '/' (target directory reference))) := by
  have hplain : ∀ segment ∈ target directory reference, ∀ c ∈ segment, isPlain c := by
    intro segment hs c hc
    rcases mem_landingStack (List.mem_reverse.1 hs) with rfl | hs | ⟨_, hs⟩
    · exact absurd hc List.not_mem_nil
    · exact isPlain_of_mem_segments hs hc
    · exact isPlain_of_mem_referencePath (Text.mem_of_mem_splitOn hs hc)
  exact toPath_file (Path.isAbsolute_cons_slash _) (fun _ hc => isPlain_of_mem_path hplain hc)
    (fun _ hc => not_isBreak_of_mem_referenceQuery hc) (hash_not_mem_referenceQuery reference)
    fun _ hc => not_isBreak_of_mem_referenceFragment hc

theorem target_ne_nil (hdirectory : Path.IsCanonical directory) (reference : Text) :
    target directory reference ≠ [] := by
  have hnames : ∀ segment ∈ segments directory, segment ≠ [] := fun _ hs =>
    (isName_of_mem_segments hdirectory.isAbsolute hs).ne_nil
  exact landing_ne_nil hnames (Text.splitOn_ne_nil '/' (referencePath reference))

theorem ofDirectory_isPrefix_iff (workingDirectory : Text) (hdirectory : Path.IsCanonical directory)
    (reference : Text) :
    ofDirectory workingDirectory directory <+:
        "file:///".toList ++ joinWith '/' (target directory reference) ++
          ending (referenceQuery reference) (referenceFragment reference) ↔
      ∃ rest, rest ≠ [] ∧ target directory reference = segments directory ++ rest := by
  have hnames : ∀ segment ∈ segments directory, Path.IsName segment :=
    fun _ hs => isName_of_mem_segments hdirectory.isAbsolute hs
  have hslash : ∀ segment ∈ target directory reference, '/' ∉ segment :=
    fun _ hs => slash_not_mem_landing hnames hs
  rw [ofDirectory_eq workingDirectory hdirectory, List.append_assoc, List.prefix_append_right_inj]
  exact joinWith_isPrefix_iff
    (fun segment hs => ⟨(hnames segment hs).not_mem, fun _ hc => isPlain_of_mem_segments hs hc⟩)
    (target_ne_nil hdirectory reference) hslash (isEnding_ending _ _)

theorem components_target (hdirectory : Path.IsCanonical directory) {rest : List Text}
    (h : target directory reference = segments directory ++ rest) :
    Path.components (Path.normalize (Percent.decode
        ('/' :: joinWith '/' (target directory reference)))) =
      (decodedStack (Path.components directory).reverse rest).reverse := by
  have habsolute : Path.isAbsolute (Percent.decode ('/' :: joinWith '/'
      (target directory reference))) := by
    rw [decode_cons_slash]
    exact Path.isAbsolute_cons_slash _
  rw [Path.components_normalize habsolute, components_decode (target_ne_nil hdirectory reference),
    h, decodedStack_segments_append hdirectory.isAbsolute]

theorem isInside_iff_staysIn (hdirectory : Path.IsCanonical directory)
    (h : "./".toList.isPrefixOf reference) {url : Text}
    (hurl : join (ofDirectory workingDirectory directory) reference = .ok url) :
    IsInside workingDirectory directory url ↔ StaysIn directory reference := by
  rw [join_ofDirectory hdirectory h] at hurl
  cases hurl
  have hstarts := ofDirectory_isPrefix_iff workingDirectory hdirectory reference
  have hpath := toPath_target directory reference
  constructor
  · intro hinside
    obtain ⟨hstart, path, hok, names, hnames, hbelow⟩ := hinside
    obtain ⟨rest, hrest, htarget⟩ := hstarts.1 hstart
    rw [hpath] at hok
    cases hok
    exact ⟨rest, names, hrest, hnames, htarget, components_target hdirectory htarget ▸ hbelow⟩
  · intro hstays
    obtain ⟨rest, names, hrest, hnames, htarget, hstack⟩ := hstays
    refine ⟨hstarts.2 ⟨rest, hrest, htarget⟩, _, hpath, names, hnames, ?_⟩
    exact (components_target hdirectory htarget).trans hstack

end File

end Url

end ModuleResolution
