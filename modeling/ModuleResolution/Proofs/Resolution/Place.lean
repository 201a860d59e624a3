import ModuleResolution.Proofs.Resolution.Installed

/-!
# Where packages are looked for

A package is looked for in a directory of its own, strictly below a directory of installed packages,
if no segment of its name is dropped or goes up.  The names that are cut out of bare specifiers have
at most two segments, and the first one is never at fault: what leads elsewhere is the empty name,
and a scope with dots behind it.
-/

namespace ModuleResolution

open Package
open Text (splitOn joinWith)

namespace Package

namespace Specifier

variable {specifier : Text}

/-- The name is not empty, and its last segment neither stands for the scope nor goes up. -/
structure LeadsInside (name : Text) : Prop where
  ne_nil : name ≠ []
  not_dot : ¬"/.".toList <:+ name
  not_up : ¬"/..".toList <:+ name

theorem isAbsolute_nameOf (specifier : Text) : Path.isAbsolute (nameOf specifier) = false := by
  cases hscoped : isScoped specifier with
  | false => exact Path.isAbsolute_of_not_mem (slash_not_mem_nameOf hscoped)
  | true =>
      refine Bool.eq_false_iff.2 fun habsolute => ?_
      obtain ⟨rest, hrest⟩ := Path.isAbsolute_iff.1 habsolute
      have hspecifier := (nameOf_append_drop specifier).1
      rw [hrest] at hspecifier
      rw [isScoped, ← hspecifier] at hscoped
      cases hscoped

theorem leadsInside_of_forall_isName {name : Text}
    (h : ∀ segment ∈ splitOn '/' name, Path.IsName segment) : LeadsInside name := by
  have hlast : ∀ last : Text, '/' ∉ last -> '/' :: last <:+ name -> Path.IsName last := by
    intro last hslash hsuffix
    obtain ⟨before, rfl⟩ := hsuffix
    refine h last ?_
    rw [Text.splitOn_append_cons, Text.splitOn_of_not_mem hslash]
    simp
  refine ⟨fun hnil => ?_, fun hdot => ?_, fun hup => ?_⟩
  · exact (h [] (by rw [hnil]; simp [splitOn])).ne_nil rfl
  · exact (hlast ".".toList (by decide) hdot).ne_dot rfl
  · exact (hlast "..".toList (by decide) hup).ne_up rfl

theorem IsBare.isName_of_leadsInside (h : IsBare specifier)
    (hinside : LeadsInside (nameOf specifier)) :
    ∀ segment ∈ splitOn '/' (nameOf specifier), Path.IsName segment := by
  intro segment hsegment
  cases hscoped : isScoped specifier with
  | false =>
      have hslash := slash_not_mem_nameOf hscoped
      rw [Text.splitOn_of_not_mem hslash] at hsegment
      obtain rfl := List.mem_singleton.1 hsegment
      refine ⟨hinside.ne_nil, fun hdot => h.dot_not_first ?_, fun hup => h.dot_not_first ?_, hslash⟩
      · rw [hdot]
        exact ⟨[], rfl⟩
      · rw [hup]
        exact ⟨".".toList, rfl⟩
  | true =>
      obtain ⟨scope, second, hname, hscope, hsecond, hne⟩ :=
        nameOf_of_isScoped hscoped (h.second_segment hscoped)
      rw [hname, Text.splitOn_append_cons, Text.splitOn_of_not_mem hscope,
        Text.splitOn_of_not_mem hsecond] at hsegment
      rcases List.mem_append.1 hsegment with hmem | hmem
      · obtain rfl := List.mem_singleton.1 hmem
        exact ⟨by simp, by simp, by simp, hscope⟩
      · obtain rfl := List.mem_singleton.1 hmem
        refine ⟨hne, fun hdot => hinside.not_dot ?_, fun hup => hinside.not_up ?_, hsecond⟩
        · rw [hname, hdot]
          exact List.suffix_append _ _
        · rw [hname, hup]
          exact List.suffix_append _ _

end Specifier

end Package

namespace Resolver

variable {directory name : Text}

theorem isName_installDirectory : Path.IsName installDirectory :=
  ⟨by decide, by decide, by decide, by decide⟩

theorem isRoot_join_installDirectory (h : Path.IsNormal directory) :
    Path.isRoot (Path.join directory installDirectory) = false := by
  refine Bool.eq_false_iff.2 fun hroot => ?_
  have hnil := (Path.isNormal_join h isName_installDirectory).isRoot_iff.1 hroot
  rw [Path.components_join_name h isName_installDirectory] at hnil
  exact List.append_ne_nil_of_right_ne_nil _ (List.cons_ne_nil _ _) hnil

theorem installedAt_eq_join_iff (h : Path.IsNormal directory)
    (hrelative : Path.isAbsolute name = false) :
    installedAt directory name = Path.join (Path.join directory installDirectory) name ↔
      ∀ segment ∈ splitOn '/' name, Path.IsName segment :=
  Path.normalize_join_eq_iff (Path.isNormal_join h isName_installDirectory)
    (isRoot_join_installDirectory h) hrelative

theorem isBelow_installedAt (h : Path.IsNormal directory)
    (hrelative : Path.isAbsolute name = false)
    (hnames : ∀ segment ∈ splitOn '/' name, Path.IsName segment) :
    Path.IsBelow (Path.join directory installDirectory) (installedAt directory name) := by
  have hbase := Path.isNormal_join h isName_installDirectory
  refine ⟨splitOn '/' name, Text.splitOn_ne_nil '/' name, ?_⟩
  rw [installedAt, Path.components_normalize (Path.isAbsolute_join hbase.isAbsolute name),
    Path.components_join hbase hrelative, Path.componentsFrom_of_isName hrelative hnames]

theorem isNormal_of_mem_searchDirectories {start : Text} (h : Path.IsNormal start)
    (hdirectory : directory ∈ searchDirectories start) : Path.IsNormal directory := by
  rw [searchDirectories_eq_map h] at hdirectory
  obtain ⟨steps, -, rfl⟩ := List.mem_map.1 hdirectory
  exact (h.up steps).1

/-- Seen from any directory, the package of a bare specifier has its own place strictly below the
directory of installed packages exactly if its name leads inside.  Then the lookup rests on the
manifests in such places alone. -/
theorem installedAt_isBelow_iff {specifier : Text} {package : Specifier}
    (hparse : Specifier.parse specifier = .ok package) :
    (∀ directory, Path.IsNormal directory ->
        (installedAt directory package.name =
              Path.join (Path.join directory installDirectory) package.name ∧
            Path.IsBelow (Path.join directory installDirectory)
              (installedAt directory package.name) ↔
          Specifier.LeadsInside package.name)) ∧
      (Specifier.LeadsInside package.name -> ∀ (resolver : Resolver) (other : FileSystem) parent,
        (∀ directory, Path.IsNormal directory -> SamePackage resolver.files other
          (Path.join (Path.join directory installDirectory) package.name)) ->
        ((resolver.withFiles other).resolveFromInstalled package.name package.subpath
            parent).outcome =
          (resolver.resolveFromInstalled package.name package.subpath parent).outcome) := by
  obtain ⟨hbare, rfl⟩ := Specifier.parse_eq_ok_iff.1 hparse
  have hrelative := Specifier.isAbsolute_nameOf specifier
  have hnames := hbare.isName_of_leadsInside
  refine ⟨fun directory hdirectory => ⟨fun hplace => ?_, fun hinside => ?_⟩, ?_⟩
  · exact Specifier.leadsInside_of_forall_isName
      ((installedAt_eq_join_iff hdirectory hrelative).1 hplace.1)
  · exact ⟨(installedAt_eq_join_iff hdirectory hrelative).2 (hnames hinside),
      isBelow_installedAt hdirectory hrelative (hnames hinside)⟩
  · intro hinside resolver other parent hsame
    cases hpath : Url.File.toPath parent with
    | error cause => simp only [resolveFromInstalled, hpath]
    | ok path =>
        rw [resolveFromInstalled_of_toPath hpath, resolveFromInstalled_of_toPath hpath]
        refine outcome_searchInstalled_withFiles fun directory hmem => ?_
        have hdirectory := isNormal_of_mem_searchDirectories
          (Path.isNormal_normalize (Url.File.isAbsolute_of_toPath hpath)) hmem
        rw [(installedAt_eq_join_iff hdirectory hrelative).2 (hnames hinside)]
        exact hsame directory hdirectory

theorem installedAt_isBelow_iff_scoped :
    Specifier.parse "@a/b/c".toList = .ok ⟨"@a/b".toList, "./c".toList⟩ ∧
      Path.IsNormal "/p".toList ∧
      installedAt "/p".toList "@a/b".toList = "/p/node_modules/@a/b".toList ∧
      Path.IsBelow "/p/node_modules".toList "/p/node_modules/@a/b".toList := by
  have hparse : Specifier.parse "@a/b/c".toList = .ok ⟨"@a/b".toList, "./c".toList⟩ := rfl
  have hnormal : Path.IsNormal "/p".toList := ⟨rfl, rfl⟩
  exact ⟨hparse, hnormal, ((installedAt_isBelow_iff hparse).1 _ hnormal).2
    ⟨by decide, by decide, by decide⟩⟩

/-! ## A name that leads out -/

def withStray : Resolver :=
  overMemory
    ⟨[("/p/node_modules/package.json".toList,
        Text.Utf8.encode "\x7b\"main\":\"s.mjs\"\x7d".toList)],
      ["/p/node_modules".toList]⟩

theorem outcome_resolvePackage_withStray :
    (withStray.resolvePackage "@a/..".toList "file:///p/x.js".toList).outcome =
      .ok "file:///p/node_modules/s.mjs".toList := by
  have hbuiltin : Core.isBuiltin "@a/..".toList = false := by decide +kernel
  have hparse : Specifier.parse "@a/..".toList = .ok ⟨"@a/..".toList, ".".toList⟩ := rfl
  have hpath : Url.File.toPath "file:///p/x.js".toList = .ok "/p/x.js".toList := rfl
  have hself : (withStray.resolveSelf "@a/..".toList ".".toList
      "file:///p/x.js".toList).outcome = .ok none := by
    have hcandidates : Path.ancestors "/p/x.js".toList = ["/p".toList, "/".toList] := by cbv
    have hscope : Scope.ofUrl? withStray.files "file:///p/x.js".toList = none := by
      show Scope.findIn _ (Path.ancestors "/p/x.js".toList) = none
      rw [hcandidates]
      rfl
    rw [resolveSelf, Traced.outcome_bind_of_ok
      ((Scope.outcome_findOfUrl _ _).trans (congrArg Except.ok hscope))]
    rfl
  have hnearest : IsNearestAbove withStray.files "/p/x.js".toList "@a/..".toList 1 := by
    refine ⟨⟨rfl, rfl, rfl⟩, fun fewer hfewer hfound => ?_⟩
    obtain rfl : fewer = 0 := by omega
    exact Bool.noConfusion hfound.isInstalled.isFile
  have hread : Json.read "\x7b\"main\":\"s.mjs\"\x7d".toList =
      .ok (.object [("main".toList, .string "s.mjs".toList)]) := by cbv
  have hload : Manifest.load withStray.files "/p/node_modules".toList =
      .ok (some (Manifest.ofFields [("main".toList, .string "s.mjs".toList)])) :=
    Manifest.load_eq_some_iff.2
      ⟨by decide, rfl, "\x7b\"main\":\"s.mjs\"\x7d".toList, _, rfl, hread, rfl⟩
  rw [resolvePackage_of_parse hbuiltin hparse, Traced.outcome_bind_of_ok hself]
  simp only [resolveFromInstalled_of_toPath hpath]
  exact (withStray.outcome_searchInstalled_of_nearest _ hnearest).unique (.main hload rfl rfl rfl)

/-- The dots take the scope back, and the directory of installed packages passes for a package of
its own.  A name that is cut out in front of a slash is empty and leads there too. -/
theorem installedAt_not_isBelow :
    Specifier.parse "@a/..".toList = .ok ⟨"@a/..".toList, ".".toList⟩ ∧
      Specifier.parse "/x.mjs".toList = .ok ⟨[], "./x.mjs".toList⟩ ∧
      Path.IsNormal "/p".toList ∧
      installedAt "/p".toList "@a/..".toList = "/p/node_modules".toList ∧
      installedAt "/p".toList [] = "/p/node_modules".toList ∧
      ¬Path.IsBelow (Path.join "/p".toList installDirectory) "/p/node_modules".toList ∧
      (withStray.resolvePackage "@a/..".toList "file:///p/x.js".toList).outcome =
        .ok "file:///p/node_modules/s.mjs".toList := by
  have hbelow : ¬Path.IsBelow (Path.join "/p".toList installDirectory)
      "/p/node_modules".toList := fun h => Nat.lt_irrefl _ h.length_lt
  exact ⟨rfl, rfl, ⟨rfl, rfl⟩, rfl, rfl, hbelow, outcome_resolvePackage_withStray⟩

end Resolver

end ModuleResolution
