import ModuleResolution.Proofs.Path.Ancestors
import ModuleResolution.Proofs.Resolution.Precedence

/-!
# Installed packages

A package is looked for on the way up from the importing module, below every directory but the root.
The first place that has it with a manifest decides, also for an error.  What is installed farther
up has no influence, and neither have other files than the manifests on the way.
-/

namespace ModuleResolution

open Package

namespace Path

theorem normalize_ne_nil (path : Text) : normalize path ≠ [] := by
  unfold normalize
  simp only
  split
  · decide
  · next hresult => exact fun hnil => hresult (by rw [hnil]; rfl)

end Path

namespace Package

/-- A directory with a manifest. -/
structure IsInstalled (files : FileSystem) (package : Text) : Prop where
  isDirectory : files.isDirectory package
  isFile : files.isFile (manifestPath package)

/-- Both file systems have the same package there, or none. -/
structure SamePackage (files other : FileSystem) (package : Text) : Prop where
  isDirectory : other.isDirectory package = files.isDirectory package
  isFile : other.isFile (manifestPath package) = files.isFile (manifestPath package)
  readText : other.readText (manifestPath package) = files.readText (manifestPath package)

section

variable {files other : FileSystem} {package : Text}

theorem SamePackage.isInstalled_iff (h : SamePackage files other package) :
    IsInstalled other package ↔ IsInstalled files package := by
  constructor
  · intro hother
    exact ⟨by rw [← h.isDirectory]; exact hother.isDirectory,
      by rw [← h.isFile]; exact hother.isFile⟩
  · intro hfiles
    exact ⟨by rw [h.isDirectory]; exact hfiles.isDirectory,
      by rw [h.isFile]; exact hfiles.isFile⟩

theorem SamePackage.load_eq (h : SamePackage files other package) :
    Manifest.load other package = Manifest.load files package := by
  unfold Manifest.load
  simp only [h.isFile, h.readText]

theorem Manifest.load_eq_none_iff :
    load files package = .ok none ↔
      package = [] ∨ files.isFile (manifestPath package) = false := by
  unfold load
  simp only
  by_cases hskip : package.isEmpty || !files.isFile (manifestPath package)
  · rw [if_pos hskip]
    refine iff_of_true rfl ?_
    simpa using hskip
  · rw [if_neg hskip]
    refine iff_of_false ?_ (by simpa using hskip)
    cases files.readText (manifestPath package) with
    | error fault => cases fault <;> exact fun h => by cases h
    | ok text =>
        show (ofText package text).map some ≠ .ok none
        cases ofText package text <;> exact fun h => by cases h

end

end Package

namespace Resolver

/-- How the manifest of an installed package decides on a subpath: by its `exports` if it has any,
else by its `main` for the package as a whole, and else the subpath stands for itself.  Where the
manifest cannot be read, that is the answer. -/
inductive ByManifest (resolver : Resolver) (package subpath : Text) : Except Failure Text -> Prop
    where
  | unreadable {failure : Failure} : Manifest.load resolver.files package = .error failure ->
      ByManifest resolver package subpath (.error failure)
  | exports {manifest : Manifest} : Manifest.load resolver.files package = .ok (some manifest) ->
      manifest.hasExports ->
      ByManifest resolver package subpath
        (resolver.resolveExports package subpath manifest.exports).outcome
  | main {manifest : Manifest} {main : Text} :
      Manifest.load resolver.files package = .ok (some manifest) ->
      manifest.hasExports = false -> subpath = ".".toList -> manifest.main = some main ->
      ByManifest resolver package subpath
        (Traced.ofUrl
          (Url.join (Url.File.ofDirectory resolver.workingDirectory package) main)).outcome
  | subpath {manifest : Manifest} : Manifest.load resolver.files package = .ok (some manifest) ->
      manifest.hasExports = false -> (subpath = ".".toList -> manifest.main = none) ->
      ByManifest resolver package subpath
        (Traced.ofUrl
          (Url.join (Url.File.ofDirectory resolver.workingDirectory package) subpath)).outcome

/-- The package is installed so many steps up from a path, below a directory that is no root. -/
structure IsFoundAbove (files : FileSystem) (start name : Text) (steps : Nat) : Prop where
  not_isRoot : Path.isRoot (Path.up start steps) = false
  isInstalled : IsInstalled files (installedAt (Path.up start steps) name)

/-- The package is installed there, and not after fewer steps. -/
structure IsNearestAbove (files : FileSystem) (start name : Text) (steps : Nat) : Prop where
  isFound : IsFoundAbove files start name steps
  nearer : ∀ fewer < steps, ¬IsFoundAbove files start name fewer

variable {resolver : Resolver} {other : FileSystem} {start name subpath package : Text}
  {result : Except Failure Text}

/-! ## What a manifest decides -/

theorem byManifest_resolveInstalled {manifest : Manifest}
    (hload : Manifest.load resolver.files package = .ok (some manifest)) :
    ByManifest resolver package subpath
      (resolver.resolveInstalled package subpath manifest).outcome := by
  unfold resolveInstalled
  by_cases hexports : manifest.hasExports
  · rw [if_pos hexports]
    exact .exports hload hexports
  · rw [if_neg hexports]
    have hexports : manifest.hasExports = false := Bool.eq_false_iff.2 hexports
    cases hmain : manifest.main with
    | none => exact .subpath hload hexports fun _ => hmain
    | some main =>
        by_cases hsubpath : subpath = ".".toList
        · simp only [if_pos hsubpath]
          exact .main hload hexports hsubpath hmain
        · simp only [if_neg hsubpath]
          exact .subpath hload hexports fun hdot => absurd hdot hsubpath

theorem byManifest_iff :
    ByManifest resolver package subpath result ↔
      (∃ failure, Manifest.load resolver.files package = .error failure ∧
        result = .error failure) ∨
      ∃ manifest, Manifest.load resolver.files package = .ok (some manifest) ∧
        result = (resolver.resolveInstalled package subpath manifest).outcome := by
  constructor
  · intro h
    cases h with
    | unreadable hload => exact .inl ⟨_, hload, rfl⟩
    | exports hload hexports => exact .inr ⟨_, hload, by rw [resolveInstalled, if_pos hexports]⟩
    | main hload hexports hsubpath hmain =>
        exact .inr ⟨_, hload, by simp [resolveInstalled, hexports, hsubpath, hmain]⟩
    | @subpath manifest hload hexports hmain =>
        refine .inr ⟨manifest, hload, ?_⟩
        by_cases hsubpath : subpath = ".".toList
        · simp [resolveInstalled, hexports, hmain hsubpath]
        · cases hdeclared : manifest.main with
          | none => simp [resolveInstalled, hexports, hdeclared]
          | some main =>
              simp only [resolveInstalled, hexports, hdeclared, if_neg hsubpath]
              rfl
  · rintro (⟨failure, hload, rfl⟩ | ⟨manifest, hload, rfl⟩)
    · exact .unreadable hload
    · exact byManifest_resolveInstalled hload

theorem ByManifest.unique {second : Except Failure Text}
    (h : ByManifest resolver package subpath result)
    (hsecond : ByManifest resolver package subpath second) : result = second := by
  rcases byManifest_iff.1 h with ⟨failure, hload, rfl⟩ | ⟨manifest, hload, rfl⟩
  · rcases byManifest_iff.1 hsecond with ⟨failure, hload', rfl⟩ | ⟨manifest, hload', rfl⟩
    · cases hload.symm.trans hload'
      rfl
    · cases hload.symm.trans hload'
  · rcases byManifest_iff.1 hsecond with ⟨failure, hload', rfl⟩ | ⟨manifest, hload', rfl⟩
    · cases hload.symm.trans hload'
    · cases hload.symm.trans hload'
      rfl

theorem ByManifest.withFiles (hsame : SamePackage resolver.files other package)
    (h : ByManifest resolver package subpath result) :
    ByManifest (resolver.withFiles other) package subpath result := by
  have hload := hsame.load_eq
  cases h with
  | unreadable hfailure => exact .unreadable (hload.trans hfailure)
  | exports hmanifest hexports => exact .exports (hload.trans hmanifest) hexports
  | main hmanifest hexports hsubpath hmain =>
      exact .main (hload.trans hmanifest) hexports hsubpath hmain
  | subpath hmanifest hexports hmain => exact .subpath (hload.trans hmanifest) hexports hmain

/-! ## One step of the search -/

section Step

variable {directory : Text}

theorem outcome_searchInstalled_cons (hinstalled : IsInstalled resolver.files
    (installedAt directory name)) (rest : List Text) :
    ByManifest resolver (installedAt directory name) subpath
      (resolver.searchInstalled name subpath (directory :: rest)).outcome := by
  have hfind : (Manifest.find resolver.files (installedAt directory name)).outcome =
      Manifest.load resolver.files (installedAt directory name) := rfl
  rw [searchInstalled]
  simp only [if_pos hinstalled.isDirectory]
  rw [Traced.outcome_bind_of_ok (Traced.outcome_emit _)]
  cases hload : Manifest.load resolver.files (installedAt directory name) with
  | error failure =>
      rw [Traced.outcome_bind_of_error (hfind.trans hload)]
      exact .unreadable hload
  | ok found =>
      rw [Traced.outcome_bind_of_ok (hfind.trans hload)]
      cases found with
      | none =>
          rcases Manifest.load_eq_none_iff.1 hload with hnil | hfile
          · exact absurd hnil (Path.normalize_ne_nil _)
          · exact absurd hinstalled.isFile (Bool.eq_false_iff.1 hfile)
      | some manifest =>
          simp only
          rw [Traced.outcome_bind_of_ok (Traced.outcome_emit _)]
          exact byManifest_resolveInstalled hload

theorem outcome_searchInstalled_of_not_isInstalled (hnone : ¬IsInstalled resolver.files
    (installedAt directory name)) (rest : List Text) :
    (resolver.searchInstalled name subpath (directory :: rest)).outcome =
      (resolver.searchInstalled name subpath rest).outcome := by
  rw [searchInstalled, Traced.outcome_bind_of_ok (Traced.outcome_emit _)]
  split
  · next hdirectory =>
      have hfile : resolver.files.isFile (manifestPath (installedAt directory name)) = false :=
        Bool.eq_false_iff.2 fun hfile => hnone ⟨hdirectory, hfile⟩
      have hfind : (Manifest.find resolver.files (installedAt directory name)).outcome = .ok none :=
        Manifest.load_eq_none_iff.2 (.inr hfile)
      rw [Traced.outcome_bind_of_ok hfind]
  · rfl

end Step

/-! ## The way up -/

theorem searchDirectories_of_isRoot (h : Path.isRoot start) : searchDirectories start = [] := by
  rw [searchDirectories, Path.ancestors_of_isRoot h]
  simp [h]

theorem searchDirectories_eq_cons (h : Path.isRoot start = false) :
    searchDirectories start = start :: searchDirectories (Path.dirname start) := by
  rw [searchDirectories, Path.ancestors_of_not_isRoot h, List.filter_cons_of_pos (by rw [h]; rfl)]
  rfl

/-- A path is looked at with every directory above it but the root, and each of them once: there are
as many as the path has names. -/
theorem searchDirectories_eq_map (h : Path.IsNormal start) :
    searchDirectories start =
      (List.range (Path.components start).length).map (Path.up start) := by
  induction start using Path.ancestors.induct with
  | case1 start hroot =>
      have hroot : Path.isRoot start := Path.isRoot_iff.2 hroot
      rw [searchDirectories_of_isRoot hroot, h.isRoot_iff.1 hroot]
      rfl
  | case2 start hroot ih =>
      have hroot : Path.isRoot start = false :=
        Bool.eq_false_iff.2 fun he => hroot (Path.isRoot_iff.1 he)
      have hlength := (Path.isAncestor_dirname h hroot).isBelow.length_lt
      have hdrop := congrArg List.length h.components_dirname
      rw [List.length_dropLast] at hdrop
      have hsucc : (Path.components start).length =
          (Path.components (Path.dirname start)).length + 1 := by omega
      rw [searchDirectories_eq_cons hroot, ih h.dirname, hsucc, List.range_succ_eq_map,
        List.map_cons, List.map_map]
      congr 1
      exact List.map_congr_left fun steps _ => Path.up_dirname start steps

theorem isFoundAbove_dirname_iff {files : FileSystem} {steps : Nat} :
    IsFoundAbove files (Path.dirname start) name steps ↔
      IsFoundAbove files start name (steps + 1) := by
  constructor
  · rintro ⟨hroot, hinstalled⟩
    rw [Path.up_dirname] at hroot hinstalled
    exact ⟨hroot, hinstalled⟩
  · rintro ⟨hroot, hinstalled⟩
    rw [← Path.up_dirname] at hroot hinstalled
    exact ⟨hroot, hinstalled⟩

/-- The nearest installed package decides.  The induction goes one step up at a time, and every
step is one of the search. -/
theorem outcome_searchInstalled_of_nearest (resolver : Resolver) (subpath : Text) {steps : Nat}
    (h : IsNearestAbove resolver.files start name steps) :
    ByManifest resolver (installedAt (Path.up start steps) name) subpath
      (resolver.searchInstalled name subpath (searchDirectories start)).outcome := by
  induction steps generalizing start with
  | zero =>
      have hroot : Path.isRoot start = false := h.isFound.not_isRoot
      rw [searchDirectories_eq_cons hroot]
      exact outcome_searchInstalled_cons h.isFound.isInstalled _
  | succ steps ih =>
      have hroot := Path.not_isRoot_of_up h.isFound.not_isRoot
      have hnone : ¬IsInstalled resolver.files (installedAt start name) := fun hinstalled =>
        h.nearer 0 (Nat.succ_pos steps) ⟨hroot, hinstalled⟩
      rw [searchDirectories_eq_cons hroot, outcome_searchInstalled_of_not_isInstalled hnone,
        ← Path.up_dirname]
      exact ih ⟨isFoundAbove_dirname_iff.2 h.isFound, fun fewer hfewer hfound =>
        h.nearer (fewer + 1) (Nat.succ_lt_succ hfewer) (isFoundAbove_dirname_iff.1 hfound)⟩

theorem outcome_searchInstalled_of_forall_not
    (h : ∀ steps, ¬IsFoundAbove resolver.files start name steps) :
    (resolver.searchInstalled name subpath (searchDirectories start)).outcome =
      .error (.resolution (notInstalled name subpath)) := by
  induction start using Path.ancestors.induct with
  | case1 start hroot =>
      rw [searchDirectories_of_isRoot (Path.isRoot_iff.2 hroot)]
      rfl
  | case2 start hroot ih =>
      have hroot : Path.isRoot start = false :=
        Bool.eq_false_iff.2 fun he => hroot (Path.isRoot_iff.1 he)
      have hnone : ¬IsInstalled resolver.files (installedAt start name) := fun hinstalled =>
        h 0 ⟨hroot, hinstalled⟩
      rw [searchDirectories_eq_cons hroot, outcome_searchInstalled_of_not_isInstalled hnone]
      exact ih fun steps hfound => h (steps + 1) (isFoundAbove_dirname_iff.1 hfound)

/-! ## Other files -/

theorem isFoundAbove_congr {files : FileSystem} {steps : Nat}
    (h : SamePackage files other (installedAt (Path.up start steps) name)) :
    IsFoundAbove other start name steps ↔ IsFoundAbove files start name steps :=
  ⟨fun ⟨hroot, hinstalled⟩ => ⟨hroot, h.isInstalled_iff.1 hinstalled⟩,
    fun ⟨hroot, hinstalled⟩ => ⟨hroot, h.isInstalled_iff.2 hinstalled⟩⟩

theorem IsNearestAbove.congr {files : FileSystem} {steps : Nat}
    (h : IsNearestAbove files start name steps) (hsame : ∀ fewer ≤ steps,
      SamePackage files other (installedAt (Path.up start fewer) name)) :
    IsNearestAbove other start name steps :=
  ⟨(isFoundAbove_congr (hsame steps (Nat.le_refl steps))).2 h.isFound,
    fun fewer hfewer hfound => h.nearer fewer hfewer
      ((isFoundAbove_congr (hsame fewer (Nat.le_of_lt hfewer))).1 hfound)⟩

theorem outcome_searchInstalled_withFiles {directories : List Text}
    (hsame : ∀ directory ∈ directories,
      SamePackage resolver.files other (installedAt directory name)) :
    ((resolver.withFiles other).searchInstalled name subpath directories).outcome =
      (resolver.searchInstalled name subpath directories).outcome := by
  induction directories with
  | nil => rfl
  | cons directory rest ih =>
      have hfirst := hsame directory List.mem_cons_self
      by_cases hinstalled : IsInstalled resolver.files (installedAt directory name)
      · have hother : IsInstalled (resolver.withFiles other).files (installedAt directory name) :=
          hfirst.isInstalled_iff.2 hinstalled
        exact (outcome_searchInstalled_cons hother rest).unique
          ((outcome_searchInstalled_cons hinstalled rest).withFiles hfirst)
      · have hother : ¬IsInstalled (resolver.withFiles other).files (installedAt directory name) :=
          mt hfirst.isInstalled_iff.1 hinstalled
        rw [outcome_searchInstalled_of_not_isInstalled hother,
          outcome_searchInstalled_of_not_isInstalled hinstalled]
        exact ih fun farther hfarther => hsame farther (List.mem_cons_of_mem _ hfarther)

theorem resolveFromInstalled_of_toPath {parent path : Text}
    (hpath : Url.File.toPath parent = .ok path) :
    resolver.resolveFromInstalled name subpath parent =
      resolver.searchInstalled name subpath (searchDirectories (Path.normalize path)) := by
  rw [resolveFromInstalled, hpath]

/-- The nearest installed package decides by its manifest alone, and file systems with the same
packages up to there give the same answer.  If none is installed, the package is not found.  The
search goes up from the path of the parent through as many directories as it has names. -/
theorem resolveFromInstalled_nearest (resolver : Resolver) {parent path : Text}
    (hpath : Url.File.toPath parent = .ok path) (name subpath : Text) :
    let start := Path.normalize path
    let height := (Path.components start).length
    (∀ steps, IsNearestAbove resolver.files start name steps ->
        (∀ result, (resolver.resolveFromInstalled name subpath parent).outcome = result ↔
          ByManifest resolver (installedAt (Path.up start steps) name) subpath result) ∧
        ∀ other, (∀ fewer ≤ steps,
            SamePackage resolver.files other (installedAt (Path.up start fewer) name)) ->
          ((resolver.withFiles other).resolveFromInstalled name subpath parent).outcome =
            (resolver.resolveFromInstalled name subpath parent).outcome) ∧
      ((∀ steps, ¬IsFoundAbove resolver.files start name steps) ->
        (resolver.resolveFromInstalled name subpath parent).outcome =
            .error (.resolution (.moduleNotFound (Path.normalize (Path.join name subpath)))) ∧
        ∀ other, (∀ steps < height,
            SamePackage resolver.files other (installedAt (Path.up start steps) name)) ->
          ((resolver.withFiles other).resolveFromInstalled name subpath parent).outcome =
            (resolver.resolveFromInstalled name subpath parent).outcome) ∧
      searchDirectories start = (List.range height).map (Path.up start) ∧
      ∀ steps, Path.isRoot (Path.up start steps) ↔ height ≤ steps := by
  intro start height
  have hnormal : Path.IsNormal start :=
    Path.isNormal_normalize (Url.File.isAbsolute_of_toPath hpath)
  have hsearch : ∀ {resolver : Resolver}, resolver.resolveFromInstalled name subpath parent =
      resolver.searchInstalled name subpath (searchDirectories start) :=
    resolveFromInstalled_of_toPath hpath
  refine ⟨fun steps hnearest => ?_, fun hnone => ?_, searchDirectories_eq_map hnormal,
    fun steps => hnormal.isRoot_up_iff⟩
  · have hresult := resolver.outcome_searchInstalled_of_nearest subpath hnearest
    rw [hsearch]
    refine ⟨fun result => ?_, fun other hsame => ?_⟩
    · constructor
      · rintro rfl
        exact hresult
      · exact hresult.unique
    · have hother := (resolver.withFiles other).outcome_searchInstalled_of_nearest subpath
        (hnearest.congr hsame)
      rw [hsearch]
      exact hother.unique (hresult.withFiles (hsame steps (Nat.le_refl steps)))
  · refine ⟨?_, fun other hsame => ?_⟩
    · rw [hsearch]
      exact outcome_searchInstalled_of_forall_not hnone
    rw [hsearch, hsearch]
    refine outcome_searchInstalled_withFiles fun directory hdirectory => ?_
    rw [searchDirectories_eq_map hnormal] at hdirectory
    obtain ⟨steps, hsteps, rfl⟩ := List.mem_map.1 hdirectory
    exact hsame steps (List.mem_range.1 hsteps)

def withUnfinished : Resolver :=
  overMemory
    ⟨[("/p/node_modules/q/package.json".toList, Text.Utf8.encode "\x7b\x7d".toList)],
      ["/p/lib/node_modules/q".toList, "/p/node_modules/q".toList]⟩

/-- The nearer directory is passed over. -/
theorem resolveFromInstalled_nearest_unfinished :
    Url.File.toPath "file:///p/lib/a.js".toList = .ok "/p/lib/a.js".toList ∧
      withUnfinished.files.isDirectory "/p/lib/node_modules/q".toList ∧
      IsNearestAbove withUnfinished.files "/p/lib/a.js".toList "q".toList 2 ∧
      (withUnfinished.resolveFromInstalled "q".toList "./b.js".toList
        "file:///p/lib/a.js".toList).outcome = .ok "file:///p/node_modules/q/b.js".toList := by
  have hpath : Url.File.toPath "file:///p/lib/a.js".toList = .ok "/p/lib/a.js".toList := rfl
  have hnearest : IsNearestAbove withUnfinished.files "/p/lib/a.js".toList "q".toList 2 := by
    refine ⟨⟨rfl, rfl, rfl⟩, fun fewer hfewer hfound => ?_⟩
    have hnone : ∀ steps < 2, withUnfinished.files.isFile (manifestPath
        (installedAt (Path.up "/p/lib/a.js".toList steps) "q".toList)) = false := by
      decide
    exact Bool.eq_false_iff.1 (hnone fewer hfewer) hfound.isInstalled.isFile
  have hread : Json.read "\x7b\x7d".toList = .ok (.object []) := by cbv
  have hload : Manifest.load withUnfinished.files "/p/node_modules/q".toList =
      .ok (some (Manifest.ofFields [])) :=
    Manifest.load_eq_some_iff.2 ⟨by decide, rfl, "\x7b\x7d".toList, _, rfl, hread, rfl⟩
  refine ⟨hpath, rfl, hnearest, ?_⟩
  refine (((withUnfinished.resolveFromInstalled_nearest hpath "q".toList
    "./b.js".toList).1 2 hnearest).1 _).2 ?_
  exact ByManifest.subpath hload rfl fun hdot => absurd hdot (by decide)

end Resolver

end ModuleResolution
