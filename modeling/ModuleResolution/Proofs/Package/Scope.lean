import ModuleResolution.Package.Scope

/-!
# Nearest scopes

The scope of a path is the nearest directory above it with a manifest, unless a directory of
installed packages is as near.  It rests on the manifests of the directories above the path alone,
so file systems that agree on these find the same scope with the same manifest.
-/

namespace ModuleResolution

namespace Package

variable {files other : FileSystem}

namespace Manifest

theorem ofText_eq_ok_iff {directory text : Text} {manifest : Manifest} :
    ofText directory text = .ok manifest ↔
      ∃ fields, Json.read text = .ok (.object fields) ∧ manifest = ofFields fields := by
  unfold ofText
  constructor
  · intro h
    split at h
    · next fields hread =>
        cases h
        exact ⟨fields, hread, rfl⟩
    · cases h
    · cases h
  · intro h
    obtain ⟨fields, hread, rfl⟩ := h
    rw [hread]

theorem outcome_find (files : FileSystem) (directory : Text) :
    (find files directory).outcome = load files directory := rfl

theorem load_eq_some_iff {directory : Text} {manifest : Manifest} :
    load files directory = .ok (some manifest) ↔
      directory ≠ [] ∧ files.isFile (manifestPath directory) ∧
        ∃ text fields, files.readText (manifestPath directory) = .ok text ∧
          Json.read text = .ok (.object fields) ∧ manifest = ofFields fields := by
  unfold load
  simp only
  by_cases hskip : directory.isEmpty || !files.isFile (manifestPath directory)
  · rw [if_pos hskip]
    refine iff_of_false (fun h => by cases h) fun h => ?_
    obtain ⟨hne, hfile, -⟩ := h
    rw [List.isEmpty_eq_false_iff.2 hne, hfile] at hskip
    cases hskip
  · rw [if_neg hskip]
    have hdirectory : directory ≠ [] := by
      rintro rfl
      exact hskip rfl
    have hfile : files.isFile (manifestPath directory) := by
      rw [Bool.or_eq_true, not_or] at hskip
      simpa using hskip.2
    simp only [hdirectory, hfile, ne_eq, not_false_eq_true, true_and]
    cases files.readText (manifestPath directory) with
    | error fault => cases fault <;> simp
    | ok text =>
        have hmap : (ofText directory text).map some = .ok (some manifest) ↔
            ofText directory text = .ok manifest := by
          cases ofText directory text <;> simp [Except.map]
        simp only [hmap, ofText_eq_ok_iff]
        simp

theorem eq_of_load_eq_error {directory : Text} {error : ResolutionError}
    (h : load files directory = .error (.resolution error)) :
    error = .invalidPackageConfiguration directory := by
  unfold load at h
  simp only at h
  split at h
  · cases h
  split at h
  · next text _ =>
      unfold ofText at h
      split at h
      · cases h
      · cases h
      · cases h
        rfl
  · cases h
    rfl
  · cases h

end Manifest

namespace Scope

/-! ## The nearest manifest -/

def IsFirst (files : FileSystem) (directories : List Text) (directory : Text) : Prop :=
  ∃ nearer farther, directories = nearer ++ directory :: farther ∧
    (∀ passed ∈ nearer, Path.basename passed ≠ installDirectory ∧
      files.isFile (manifestPath passed) = false) ∧
    Path.basename directory ≠ installDirectory ∧ files.isFile (manifestPath directory)

def IsNearest (files : FileSystem) (path directory : Text) : Prop :=
  IsFirst files (candidates path) directory

theorem not_isFirst_nil {directory : Text} : ¬IsFirst files [] directory := by
  intro h
  obtain ⟨nearer, farther, h, -⟩ := h
  cases nearer <;> cases h

theorem isFirst_cons_iff {first directory : Text} {rest : List Text} :
    IsFirst files (first :: rest) directory ↔
      Path.basename first ≠ installDirectory ∧
        if files.isFile (manifestPath first) then first = directory
        else IsFirst files rest directory := by
  constructor
  · intro h
    obtain ⟨nearer, farther, heq, hnearer, hname, hfile⟩ := h
    cases nearer with
    | nil =>
        cases heq
        rw [if_pos hfile]
        exact ⟨hname, rfl⟩
    | cons head others =>
        cases heq
        obtain ⟨hfirst, hnone⟩ := hnearer first List.mem_cons_self
        rw [hnone, if_neg Bool.false_ne_true]
        exact ⟨hfirst, others, farther, rfl,
          fun passed hp => hnearer passed (List.mem_cons_of_mem _ hp), hname, hfile⟩
  · intro h
    obtain ⟨hfirst, h⟩ := h
    split at h
    · next hfile =>
        subst h
        exact ⟨[], rest, rfl, by simp, hfirst, hfile⟩
    · next hnone =>
        obtain ⟨nearer, farther, rfl, hnearer, hname, hfile⟩ := h
        refine ⟨first :: nearer, farther, rfl, fun passed hp => ?_, hname, hfile⟩
        rcases List.mem_cons.1 hp with rfl | hp
        · exact ⟨hfirst, by simpa using hnone⟩
        · exact hnearer passed hp

theorem findIn_eq_some_iff {directories : List Text} {directory : Text} :
    findIn files directories = some directory ↔ IsFirst files directories directory := by
  induction directories with
  | nil => exact iff_of_false (by simp [findIn]) not_isFirst_nil
  | cons first rest ih =>
      rw [isFirst_cons_iff, ← ih, findIn]
      by_cases hname : Path.basename first = installDirectory
      · simp [hname]
      · by_cases hfile : files.isFile (manifestPath first)
        · simp [hname, hfile]
        · simp [hname, hfile]

theorem ofPath?_eq_some_iff {path directory : Text} :
    ofPath? files path = some directory ↔ IsNearest files path directory :=
  findIn_eq_some_iff

theorem ofPath?_eq_none_iff {path : Text} :
    ofPath? files path = none ↔ ∀ directory, ¬IsNearest files path directory := by
  simp only [← ofPath?_eq_some_iff]
  cases ofPath? files path <;> simp

theorem IsNearest.mem_candidates {path directory : Text} (h : IsNearest files path directory) :
    directory ∈ candidates path := by
  obtain ⟨nearer, farther, heq, -⟩ := h
  rw [heq]
  simp

theorem outcome_findOfUrl (files : FileSystem) (url : Text) :
    (findOfUrl files url).outcome = .ok (ofUrl? files url) := by
  unfold findOfUrl ofUrl?
  cases pathOfUrl? url <;> rfl

theorem outcome_findOfUrl_eq {url : Text} {scope? : Option Text}
    (h : ofUrl? files url = scope?) : (findOfUrl files url).outcome = .ok scope? := by
  rw [outcome_findOfUrl, h]

theorem ofUrl?_eq_findIn {url path : Text} {directories : List Text}
    (hpath : pathOfUrl? url = some path) (h : candidates path = directories) :
    ofUrl? files url = findIn files directories := by
  rw [ofUrl?, hpath, Option.bind_some, ofPath?, h]

/-! ## Agreement -/

/-- Both file systems have a manifest in the same directories above the path, and the scope of the
path has the same one in both. -/
structure Agree (files other : FileSystem) (path : Text) : Prop where
  isFile : ∀ directory ∈ candidates path,
    other.isFile (manifestPath directory) = files.isFile (manifestPath directory)
  readText : ∀ scope, ofPath? files path = some scope ->
    other.readText (manifestPath scope) = files.readText (manifestPath scope)

theorem findIn_congr {directories : List Text}
    (h : ∀ directory ∈ directories,
      other.isFile (manifestPath directory) = files.isFile (manifestPath directory)) :
    findIn other directories = findIn files directories := by
  induction directories with
  | nil => rfl
  | cons first rest ih =>
      have hrest := ih fun directory hd => h directory (List.mem_cons_of_mem _ hd)
      rw [findIn, findIn, h first List.mem_cons_self, hrest]

theorem Agree.ofPath?_eq {path : Text} (h : Agree files other path) :
    ofPath? other path = ofPath? files path :=
  findIn_congr h.isFile

theorem Agree.load_eq {path scope : Text} (h : Agree files other path)
    (hscope : ofPath? files path = some scope) :
    Manifest.load other scope = Manifest.load files scope := by
  have hmem := (ofPath?_eq_some_iff.1 hscope).mem_candidates
  unfold Manifest.load
  simp only [h.isFile scope hmem, h.readText scope hscope]

/-- The two agree on the path that a URL names. -/
def AgreeOnUrl (files other : FileSystem) (url : Text) : Prop :=
  ∀ path, pathOfUrl? url = some path -> Agree files other path

theorem AgreeOnUrl.ofUrl?_eq {url : Text} (h : AgreeOnUrl files other url) :
    ofUrl? other url = ofUrl? files url := by
  unfold ofUrl?
  cases hpath : pathOfUrl? url with
  | none => rfl
  | some path => exact (h path hpath).ofPath?_eq

theorem AgreeOnUrl.load_eq {url scope : Text} (h : AgreeOnUrl files other url)
    (hscope : ofUrl? files url = some scope) :
    Manifest.load other scope = Manifest.load files scope := by
  unfold ofUrl? at hscope
  obtain ⟨path, hpath, hscope⟩ := Option.bind_eq_some_iff.1 hscope
  exact (h path hpath).load_eq hscope

end Scope

end Package

end ModuleResolution
