import ModuleResolution.Proofs.Url.Join

/-!
# References that cannot be read

Joining fails only on a reference that is no absolute URL and has a malformed authority.  What it
gives is taken as it is when it is joined again.
-/

namespace ModuleResolution

namespace Url

open Text (cut)

/-- The text has an authority with a malformed host or a hidden delimiter. -/
def IsMalformed (text : Text) : Prop :=
  ∃ cause, split text = .error cause

def IsFile (url : Text) : Prop :=
  ∃ path, url = "file://".toList ++ path ∧ Path.isAbsolute path ∧ ∀ c ∈ path, isPlain c

/-! ## Reading -/

def authorityOf (text : Text) : Text :=
  (cutAuthority (((scheme? (clean text)).map Prod.snd).getD (clean text))).1

theorem splitFrom_eq_error_iff (scheme : Text) (cause : SyntaxError) {text : Text} :
    splitFrom scheme text = .error cause ↔ Host.fault? (authorityOf text) = some cause := by
  unfold splitFrom authorityOf
  simp only
  cases scheme? (clean text) with
  | none =>
      simp only [Option.map_none, Option.getD_none]
      split <;> simp [*]
  | some pair =>
      simp only [Option.map_some, Option.getD_some]
      split <;> simp [*]

/-- An authority with a character that hides a delimiter is malformed, like a host in brackets that
is no address. -/
theorem isMalformed_iff {text : Text} :
    IsMalformed text ↔ Host.bracketsOk (authorityOf text) = false ∨
      ∃ c ∈ authorityOf text, c ∈ Host.disguises := by
  unfold IsMalformed split
  simp only [splitFrom_eq_error_iff, Host.fault?, Host.hidesDelimiter]
  cases Host.bracketsOk (authorityOf text) <;> simp

example : split "http://℀/".toList = .error .hiddenDelimiter := rfl

theorem bind_eq_error_iff {ε α β : Type} {first : Except ε α} {next : α -> Except ε β}
    (h : ∀ middle, ∃ result, next middle = .ok result) {cause : ε} :
    (first >>= next) = .error cause ↔ first = .error cause := by
  cases first with
  | error other =>
      constructor
      · intro he
        cases he
        rfl
      · intro he
        cases he
        rfl
  | ok middle =>
      obtain ⟨result, hresult⟩ := h middle
      constructor
      · intro he
        have hnext : next middle = .error cause := he
        rw [hresult] at hnext
        cases hnext
      · intro he
        cases he

theorem read_eq_error_iff (scheme : Text) (cause : SyntaxError) {text : Text} :
    Reference.read scheme text = .error cause ↔ split text = .error cause := by
  rw [split, splitFrom_eq_error_iff, ← splitFrom_eq_error_iff scheme]
  refine bind_eq_error_iff fun parts => ?_
  split
  · exact ⟨_, rfl⟩
  · exact ⟨_, rfl⟩

theorem not_isMalformed_nil : ¬IsMalformed [] := by
  rintro ⟨cause, h⟩
  cases h

theorem not_isMalformed_of_cutAuthority {text : Text} (hscheme : scheme? (clean text) = none)
    (hauthority : cutAuthority (clean text) = ([], clean text)) : ¬IsMalformed text := by
  rintro ⟨cause, h⟩
  rw [split, splitFrom_reference [] hscheme hauthority] at h
  cases h

theorem not_isMalformed_dot (rest : Text) : ¬IsMalformed ('.' :: rest) := by
  have hclean : clean ('.' :: rest) = '.' :: rest.filter fun c => !isBreak c :=
    clean_cons_of_visible (by decide) (by decide) rest
  refine not_isMalformed_of_cutAuthority ?_ ?_
  · rw [hclean]
    exact scheme?_eq_none (by decide) _
  · rw [hclean]
    rfl

theorem normalize_eq_error_iff {url : Text} {cause : SyntaxError} :
    File.normalize url = .error cause ↔ split url = .error cause := by
  refine bind_eq_error_iff fun parts => ?_
  split
  · exact ⟨_, rfl⟩
  · simp only
    split
    · exact ⟨_, rfl⟩
    · exact ⟨_, rfl⟩

/-! ## Local paths -/

/-- A file URL without another host, and with an absolute path. -/
def IsLocal (url : Text) : Prop :=
  ∃ parts, split url = .ok parts ∧ parts.scheme = "file".toList ∧
    (parts.authority = [] ∨ parts.authority = "localhost".toList) ∧ Path.isAbsolute parts.path

theorem toPath_eq_error_iff (url : Text) :
    (∃ cause, File.toPath url = .error cause) ↔ ¬IsLocal url := by
  cases hsplit : split url with
  | error cause =>
      refine iff_of_true ⟨.malformed cause, by rw [File.toPath, hsplit]; rfl⟩ ?_
      intro h
      obtain ⟨parts, h, -⟩ := h
      rw [hsplit] at h
      cases h
  | ok parts =>
      have hlocal : IsLocal url ↔ parts.scheme = "file".toList ∧
          (parts.authority = [] ∨ parts.authority = "localhost".toList) ∧
          Path.isAbsolute parts.path := by
        constructor
        · intro h
          obtain ⟨other, h, hrest⟩ := h
          rw [hsplit] at h
          cases h
          exact hrest
        · exact fun h => ⟨parts, hsplit, h⟩
      rw [hlocal, File.toPath_of_split hsplit]
      split
      · next hscheme => exact iff_of_true ⟨_, rfl⟩ fun h => hscheme h.1
      · next hscheme =>
          have hhost : (!parts.authority.isEmpty &&
              decide (parts.authority ≠ "localhost".toList)) = true ↔
              ¬(parts.authority = [] ∨ parts.authority = "localhost".toList) := by
            rw [Bool.and_eq_true, Bool.not_eq_true', decide_eq_true_iff, not_or,
              List.isEmpty_eq_false_iff]
          split
          · next hother => exact iff_of_true ⟨_, rfl⟩ fun h => hhost.1 hother h.2.1
          · next hauthority =>
              split
              · next hpath =>
                  refine iff_of_true ⟨_, rfl⟩ fun h => ?_
                  rw [h.2.2] at hpath
                  cases hpath
              · next hpath =>
                  refine iff_of_false ?_ fun h => h ⟨?_, ?_, ?_⟩
                  · intro h
                    obtain ⟨cause, h⟩ := h
                    cases h
                  · exact Decidable.not_not.1 hscheme
                  · exact Decidable.not_not.1 fun h => hauthority (hhost.2 h)
                  · simpa using hpath

/-! ## Joining -/

theorem IsFile.read {base : Text} (h : IsFile base) :
    ∃ path, Reference.read [] base = .ok ⟨⟨"file".toList, [], path, [], []⟩, []⟩ := by
  obtain ⟨path, rfl, habsolute, hplain⟩ := h
  exact ⟨path, read_file habsolute hplain⟩

theorem IsFile.ne_nil {base : Text} (h : IsFile base) : base ≠ [] := by
  obtain ⟨path, rfl, -, -⟩ := h
  exact List.cons_ne_nil _ _

theorem isAbsolute_of_file (rest : Text) : isAbsolute ("file".toList ++ ':' :: rest) = true := by
  rw [isAbsolute, scheme?_append _ (by decide) (by decide)]
  rfl

theorem IsFile.isAbsolute {base : Text} (h : IsFile base) : Url.isAbsolute base = true := by
  obtain ⟨path, rfl, -, -⟩ := h
  exact isAbsolute_of_file _

theorem isAbsolute_toText {reference : Reference} (h : reference.parts.scheme = "file".toList) :
    isAbsolute reference.toText := by
  obtain ⟨rest, hrest⟩ : ∃ rest, reference.toText = "file".toList ++ ':' :: rest := by
    unfold Reference.toText Parts.toText
    simp only [h]
    generalize (if reference.parameters.isEmpty = true then reference.parts.path
      else reference.parts.path ++ ';' :: reference.parameters) = path
    rw [if_neg (show ¬("file".toList).isEmpty = true from Bool.false_ne_true)]
    split
    · split
      · exact ⟨_, rfl⟩
      · exact ⟨_, rfl⟩
    · split
      · exact ⟨_, rfl⟩
      · exact ⟨_, rfl⟩
  rw [hrest]
  exact isAbsolute_of_file rest

/-! ## URLs of paths -/

theorem isFile_ofPath (directory path : Text) : IsFile (File.ofPath directory path) := by
  unfold File.ofPath
  simp only
  obtain ⟨rest, hrest⟩ : ∃ rest, (if Path.isAbsolute (Path.absolute directory path) = true
      then Path.absolute directory path else '/' :: Path.absolute directory path) =
      '/' :: rest := by
    split
    · next h => exact Path.isAbsolute_iff.1 h
    · exact ⟨_, rfl⟩
  rw [hrest]
  exact ⟨_, rfl, File.isAbsolute_encode (Path.isAbsolute_cons_slash _),
    fun c hc => File.isPlain_of_mem_encode hc⟩

theorem isFile_ofDirectory (directory path : Text) : IsFile (File.ofDirectory directory path) := by
  obtain ⟨base, hbase, habsolute, hplain⟩ := isFile_ofPath directory path
  unfold File.ofDirectory
  simp only
  split
  · exact ⟨base, hbase, habsolute, hplain⟩
  · obtain ⟨rest, rfl⟩ := Path.isAbsolute_iff.1 habsolute
    refine ⟨'/' :: rest ++ ['/'], ?_, Path.isAbsolute_cons_slash _, ?_⟩
    · rw [hbase, List.append_assoc]
    · intro c hc
      rcases List.mem_append.1 hc with hc | hc
      · exact hplain c hc
      · rw [List.mem_singleton.1 hc]
        decide

section Join

variable {base reference : Text}

theorem scheme_of_read {scheme : Text} {target : Reference}
    (hscheme : scheme? (clean reference) = none)
    (h : Reference.read scheme reference = .ok target) : target.parts.scheme = scheme := by
  obtain ⟨parts, hsplit, hread⟩ := Reference.of_read_eq_ok h
  have hparts : parts.scheme = scheme := by
    unfold splitFrom at hsplit
    simp only [hscheme] at hsplit
    split at hsplit
    · cases hsplit
    · cases hsplit
      rfl
  rcases hread with rfl | rfl
  · exact hparts
  · exact hparts

theorem joinReference_of_scheme_ne (hbase : IsFile base) {target : Reference}
    (htarget : Reference.read "file".toList reference = .ok target)
    (hscheme : target.parts.scheme ≠ "file".toList) :
    joinReference base reference = .ok reference := by
  obtain ⟨path, hsource⟩ := hbase.read
  have hreference : reference ≠ [] := by
    rintro rfl
    exact hscheme (scheme_of_read rfl htarget)
  exact joinReference_of_not_isRelativeTo hbase.ne_nil hreference hsource htarget
    fun h => hscheme h.1

theorem joinReference_of_scheme_eq (hbase : IsFile base) {target : Reference}
    (htarget : Reference.read "file".toList reference = .ok target)
    (hscheme : target.parts.scheme = "file".toList) :
    ∃ value, joinReference base reference = .ok value ∧ isAbsolute value := by
  obtain ⟨path, hsource⟩ := hbase.read
  by_cases hreference : reference = []
  · subst hreference
    exact ⟨base, joinReference_nil base, hbase.isAbsolute⟩
  · have hrelative : target.IsRelativeTo ⟨⟨"file".toList, [], path, [], []⟩, []⟩ :=
      ⟨hscheme, hscheme ▸ by decide⟩
    exact ⟨_, joinReference_of_isRelativeTo hbase.ne_nil hreference hsource htarget hrelative,
      isAbsolute_toText ((Reference.scheme_seenFrom hrelative).trans hscheme)⟩

theorem join_eq_error_iff (hbase : IsFile base) :
    (∃ cause, join base reference = .error cause) ↔
      isAbsolute reference = false ∧ IsMalformed reference := by
  unfold join
  cases habsolute : isAbsolute reference with
  | true =>
      constructor
      · intro h
        obtain ⟨cause, h⟩ := h
        cases h
      · intro h
        obtain ⟨h, -⟩ := h
        cases h
  | false =>
      cases htarget : Reference.read "file".toList reference with
      | ok target =>
          have hread : ¬IsMalformed reference := fun ⟨cause, h⟩ => by
            have herror := (read_eq_error_iff "file".toList cause).2 h
            rw [htarget] at herror
            cases herror
          constructor
          · intro h
            obtain ⟨cause, h⟩ := h
            have h : joinReference base reference = .error cause := h
            by_cases hscheme : target.parts.scheme = "file".toList
            · obtain ⟨value, hok, -⟩ := joinReference_of_scheme_eq hbase htarget hscheme
              rw [hok] at h
              cases h
            · rw [joinReference_of_scheme_ne hbase htarget hscheme] at h
              cases h
          · intro h
            obtain ⟨-, h⟩ := h
            exact absurd h hread
      | error cause =>
          have hmalformed : IsMalformed reference := ⟨cause, (read_eq_error_iff _ _).1 htarget⟩
          refine ⟨fun _ => ⟨rfl, hmalformed⟩, fun _ => ⟨cause, ?_⟩⟩
          obtain ⟨path, hsource⟩ := hbase.read
          have hreference : reference ≠ [] := by
            rintro rfl
            exact not_isMalformed_nil hmalformed
          show joinReference base reference = .error cause
          rw [joinReference_of_read hbase.ne_nil hreference hsource, htarget, Except.map]

/-! ## Settled values -/

def IsSettled (value : Text) : Prop :=
  Path.isAbsolute value = false ∧ ∀ base, IsFile base -> join base value = .ok value

theorem scheme?_cons_slash (rest : Text) : scheme? ('/' :: rest) = none :=
  scheme?_eq_none (by decide) rest

theorem isSettled_of_isAbsolute {value : Text} (h : isAbsolute value) : IsSettled value := by
  refine ⟨?_, fun base _ => by rw [join, h]; rfl⟩
  cases hpath : Path.isAbsolute value with
  | false => rfl
  | true =>
      obtain ⟨rest, rfl⟩ := Path.isAbsolute_iff.1 hpath
      rw [isAbsolute, scheme?_cons_slash] at h
      cases h

theorem isSettled_of_join (hbase : IsFile base) {value : Text}
    (h : join base reference = .ok value) : IsSettled value := by
  unfold join at h
  cases habsolute : isAbsolute reference with
  | true =>
      rw [habsolute] at h
      cases h
      exact isSettled_of_isAbsolute habsolute
  | false =>
      rw [habsolute] at h
      have h : joinReference base reference = .ok value := h
      cases htarget : Reference.read "file".toList reference with
      | error cause =>
          have hmalformed :=
            (join_eq_error_iff hbase).2 ⟨habsolute, cause, (read_eq_error_iff _ _).1 htarget⟩
          obtain ⟨cause, herror⟩ := hmalformed
          rw [join, habsolute] at herror
          have herror : joinReference base reference = .error cause := herror
          rw [herror] at h
          cases h
      | ok target =>
          by_cases hscheme : target.parts.scheme = "file".toList
          · obtain ⟨other, hok, hother⟩ := joinReference_of_scheme_eq hbase htarget hscheme
            rw [hok] at h
            cases h
            exact isSettled_of_isAbsolute hother
          · rw [joinReference_of_scheme_ne hbase htarget hscheme] at h
            cases h
            refine ⟨?_, fun other hother => ?_⟩
            · cases hpath : Path.isAbsolute reference with
              | false => rfl
              | true =>
                  obtain ⟨rest, rfl⟩ := Path.isAbsolute_iff.1 hpath
                  have hclean : clean ('/' :: rest) = '/' :: rest.filter fun c => !isBreak c :=
                    clean_cons_of_visible (by decide) (by decide) rest
                  have hnone : scheme? (clean ('/' :: rest)) = none := by
                    rw [hclean, scheme?_cons_slash]
                  exact absurd (scheme_of_read hnone htarget) hscheme
            · rw [join, habsolute]
              exact joinReference_of_scheme_ne hother htarget hscheme

end Join

end Url

end ModuleResolution
