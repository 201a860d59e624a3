import ModuleResolution.Proofs.Package.Scope
import ModuleResolution.Proofs.Path.Ancestors
import ModuleResolution.Proofs.Resolution.Format
import ModuleResolution.Proofs.Url.File

/-!
# Enclosing packages

The scope of a file is its closest ancestor with a manifest, unless a directory of installed
packages is as close.  The search goes through the ancestors of the path once each, from below, so
it finds the scope if there is one, and it never leaves an installed package.
-/

namespace ModuleResolution

namespace Package

namespace Scope

variable {files : FileSystem} {path directory : Text}

/-- The directory is the closest ancestor of the path with a manifest, and neither it nor a closer
one is for installed packages. -/
structure IsEnclosing (files : FileSystem) (path directory : Text) : Prop where
  isAncestor : Path.IsAncestor directory path
  isFile : files.isFile (manifestPath directory)
  basename_ne : Path.basename directory ≠ installDirectory
  closer : ∀ other, Path.IsAncestor other path -> Path.IsBelow directory other ->
    Path.basename other ≠ installDirectory ∧ files.isFile (manifestPath other) = false

theorem isFirst_ancestors_iff (h : Path.IsNormal path) :
    IsFirst files (Path.ancestors path) directory ↔ IsEnclosing files path directory := by
  have hpairs := Path.pairwise_ancestors h
  constructor
  · rintro ⟨nearer, farther, heq, hnearer, hname, hfile⟩
    have hmem : directory ∈ Path.ancestors path := by rw [heq]; simp
    refine ⟨(Path.mem_ancestors_iff h).1 hmem, hfile, hname, fun other hother hbelow => ?_⟩
    have hmem := (Path.mem_ancestors_iff h).2 hother
    rw [heq, List.mem_append, List.mem_cons] at hmem
    rcases hmem with hmem | rfl | hmem
    · exact hnearer other hmem
    · exact absurd hbelow.length_lt (Nat.lt_irrefl _)
    · rw [heq] at hpairs
      have habove := (List.pairwise_cons.1 (List.pairwise_append.1 hpairs).2.1).1 other hmem
      exact absurd hbelow.length_lt (Nat.lt_asymm habove.length_lt)
  · intro henclosing
    obtain ⟨nearer, farther, heq⟩ :=
      List.append_of_mem ((Path.mem_ancestors_iff h).2 henclosing.isAncestor)
    rw [heq] at hpairs
    refine ⟨nearer, farther, heq, fun passed hpassed => ?_, henclosing.basename_ne,
      henclosing.isFile⟩
    have hbelow := (List.pairwise_append.1 hpairs).2.2 passed hpassed directory List.mem_cons_self
    have hmem : passed ∈ Path.ancestors path := by
      rw [heq]
      exact List.mem_append_left _ hpassed
    exact henclosing.closer passed ((Path.mem_ancestors_iff h).1 hmem) hbelow

theorem isNearest_iff_isEnclosing (h : Path.isAbsolute path) :
    IsNearest files path directory ↔ IsEnclosing files (Path.normalize path) directory :=
  isFirst_ancestors_iff (Path.isNormal_normalize h)

theorem IsEnclosing.not_mem_between (henclosing : IsEnclosing files path directory)
    (h : Path.IsNormal path) :
    ∃ between last, Path.components path = Path.components directory ++ (between ++ [last]) ∧
      installDirectory ∉ between := by
  obtain ⟨-, -, names, hne, hnames⟩ := henclosing.isAncestor
  obtain ⟨between, last, rfl⟩ := (List.eq_nil_or_concat names).resolve_left hne
  rw [List.concat_eq_append] at hnames
  refine ⟨between, last, hnames, fun hmem => ?_⟩
  obtain ⟨before, after, rfl⟩ := List.append_of_mem hmem
  have hsplit : Path.components path =
      (Path.components directory ++ before ++ [installDirectory]) ++ (after ++ [last]) := by
    rw [hnames]
    simp
  obtain ⟨other, hother, hcomponents⟩ := Path.exists_isAncestor h hsplit (by simp)
  have hbelow : Path.IsBelow directory other :=
    ⟨before ++ [installDirectory], by simp, by rw [hcomponents, List.append_assoc]⟩
  refine (henclosing.closer other hother hbelow).1 ?_
  rw [hother.isNormal.basename_eq, hcomponents]
  simp

theorem pathOfUrl?_of_toPath {url : Text} (h : Url.File.toPath url = .ok path) :
    pathOfUrl? url =
      some (if "/".toList.isSuffixOf url then Path.join path Manifest.fileName else path) := by
  rw [pathOfUrl?, h]

theorem outcome_findOfUrl_of_toPath {url : Text} (h : Url.File.toPath url = .ok path) :
    (findOfUrl files url).outcome = .ok (ofPath? files
      (if "/".toList.isSuffixOf url then Path.join path Manifest.fileName else path)) := by
  rw [outcome_findOfUrl, ofUrl?, pathOfUrl?_of_toPath h, Option.bind_some]

end Scope

end Package

namespace Resolver

open Package

/-- The search from a local file URL gives a directory exactly if it encloses the path of the URL,
where the URL of a directory stands for the manifest in it.  No directory of installed packages lies
in between, and the format of a file rests on the same scope.  The search tries every ancestor at
most once and no other directory. -/
theorem findOfUrl_isEnclosing (resolver : Resolver) {url path : Text}
    (hpath : Url.File.toPath url = .ok path) :
    let target := if "/".toList.isSuffixOf url then Path.join path Manifest.fileName else path
    (∀ directory, (Scope.findOfUrl resolver.files url).outcome = .ok (some directory) ↔
        Scope.IsEnclosing resolver.files (Path.normalize target) directory) ∧
      ((Scope.findOfUrl resolver.files url).outcome = .ok none ↔
        ∀ directory, ¬Scope.IsEnclosing resolver.files (Path.normalize target) directory) ∧
      (∀ directory, Scope.IsEnclosing resolver.files (Path.normalize target) directory ->
        ∃ between last, Path.components (Path.normalize target) =
            Path.components directory ++ (between ++ [last]) ∧ installDirectory ∉ between) ∧
      ("/".toList.isSuffixOf url = false -> ∀ format,
        (resolver.scopeFormat path).outcome = .ok format ↔
          (∃ scope found, (Scope.findOfUrl resolver.files url).outcome = .ok (some scope) ∧
            Manifest.load resolver.files scope = .ok found ∧
            format = found.bind Manifest.format?) ∨
          ((Scope.findOfUrl resolver.files url).outcome = .ok none ∧ format = none)) ∧
      (∀ directory, directory ∈ Scope.candidates target ↔
        Path.IsAncestor directory (Path.normalize target)) ∧
      (Scope.candidates target).Nodup := by
  intro target
  have houtcome : (Scope.findOfUrl resolver.files url).outcome =
      .ok (Scope.ofPath? resolver.files target) := Scope.outcome_findOfUrl_of_toPath hpath
  have habsolute : Path.isAbsolute target := by
    have h := Url.File.isAbsolute_of_toPath hpath
    show Path.isAbsolute (if _ then _ else _)
    split
    · exact Path.isAbsolute_join h _
    · exact h
  have hnormal := Path.isNormal_normalize habsolute
  have hsome : ∀ directory, (Scope.findOfUrl resolver.files url).outcome = .ok (some directory) ↔
      Scope.IsNearest resolver.files target directory := fun directory => by
    rw [houtcome, Except.ok.injEq, Scope.ofPath?_eq_some_iff]
  have hnone : (Scope.findOfUrl resolver.files url).outcome = .ok none ↔
      ∀ directory, ¬Scope.IsNearest resolver.files target directory := by
    rw [houtcome, Except.ok.injEq, Scope.ofPath?_eq_none_iff]
  refine ⟨fun directory => ?_, ?_, fun directory henclosing => henclosing.not_mem_between hnormal,
    fun hfile format => ?_, fun directory => Path.mem_ancestors_iff hnormal,
    Path.nodup_ancestors hnormal⟩
  · rw [hsome, Scope.isNearest_iff_isEnclosing habsolute]
  · simp only [hnone, Scope.isNearest_iff_isEnclosing habsolute]
  · have htarget : target = path := if_neg (by rw [hfile]; exact Bool.false_ne_true)
    simp only [hsome, hnone, htarget]
    exact outcome_scopeFormat_eq_ok_iff

def aroundInstalled : Resolver :=
  overMemory
    ⟨[("/p/package.json".toList, []), ("/p/node_modules/q/x.js".toList, [])], []⟩

/-- A directory of the package is enclosed by it, and a file of the installed package is not. -/
theorem findOfUrl_isEnclosing_installed :
    Url.File.toPath "file:///p/lib/".toList = .ok "/p/lib/".toList ∧
      Scope.IsEnclosing aroundInstalled.files "/p/lib/package.json".toList "/p".toList ∧
      Url.File.toPath "file:///p/node_modules/q/x.js".toList =
        .ok "/p/node_modules/q/x.js".toList ∧
      ∀ directory, ¬Scope.IsEnclosing aroundInstalled.files "/p/node_modules/q/x.js".toList
        directory := by
  have hdirectory : Url.File.toPath "file:///p/lib/".toList = .ok "/p/lib/".toList := rfl
  have hfile : Url.File.toPath "file:///p/node_modules/q/x.js".toList =
      .ok "/p/node_modules/q/x.js".toList := rfl
  have habove : Path.ancestors "/p/lib/package.json".toList =
      ["/p/lib".toList, "/p".toList, "/".toList] := by cbv
  have hinstalled : Path.ancestors "/p/node_modules/q/x.js".toList =
      ["/p/node_modules/q".toList, "/p/node_modules".toList, "/p".toList, "/".toList] := by cbv
  refine ⟨hdirectory, ?_, hfile, ?_⟩
  · refine ((findOfUrl_isEnclosing aroundInstalled hdirectory).1 "/p".toList).1 ?_
    rw [Scope.outcome_findOfUrl_of_toPath hdirectory]
    show Except.ok (Scope.findIn _ (Path.ancestors "/p/lib/package.json".toList)) = _
    rw [habove]
    rfl
  · refine (findOfUrl_isEnclosing aroundInstalled hfile).2.1.1 ?_
    rw [Scope.outcome_findOfUrl_of_toPath hfile]
    show Except.ok (Scope.findIn _ (Path.ancestors "/p/node_modules/q/x.js".toList)) = _
    rw [hinstalled]
    rfl

end Resolver

end ModuleResolution
