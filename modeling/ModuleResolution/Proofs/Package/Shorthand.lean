import ModuleResolution.Proofs.Package.Keys
import ModuleResolution.Proofs.Package.PatternSelection
import ModuleResolution.Proofs.Trace

/-!
# Exports of a single target

Exports that are no subpath map are the target of the package as a whole.  They say the same as a
map with that target under the one key for the package.
-/

namespace ModuleResolution

namespace Package

namespace Exports

/-- The exports are an object with keys, all of which are subpaths. -/
def MapsSubpaths (exports : Json) : Prop :=
  ∃ fields, exports = .object fields ∧ fields ≠ [] ∧ ∀ field ∈ fields, Keys.isSubpath field.1

/-- The exports are an object whose keys clash. -/
def HasClash (exports : Json) : Prop :=
  ∃ fields : Json.Fields, exports = .object fields ∧ Keys.Clash (fields.map Prod.fst)

/-- The map that has a target under the key for the package as a whole. -/
def ofMain (target : Json) : Json :=
  .object [(".".toList, target)]

variable {context : TargetContext} {exports : Json} {subpath : Text}

def orNotExported (subpath : Text) (given : Traced (Option Text)) : Traced Text := do
  match <- given with
  | some url => return url
  | none => .reject (.packagePathNotExported subpath)

theorem outcome_orNotExported_of_none {given : Traced (Option Text)}
    (h : given.outcome = .ok none) :
    (orNotExported subpath given).outcome =
      .error (.resolution (.packagePathNotExported subpath)) := by
  unfold orNotExported
  rw [Traced.outcome_bind_of_ok h]
  rfl

theorem resolve_of_check (h : checkKeys context.package exports = .ok ()) :
    resolve context subpath exports =
      orNotExported subpath (resolve? context subpath exports) := by
  rw [resolve, h]
  rfl

theorem resolve_of_clash (h : HasClash exports) :
    resolve context subpath exports =
      .reject (.invalidPackageConfiguration context.package) := by
  obtain ⟨fields, rfl, hclash⟩ := h
  rw [resolve, checkKeys, hclash.check_eq]

theorem checkKeys_of_not_hasClash (h : ¬HasClash exports) :
    checkKeys context.package exports = .ok () := by
  cases exports with
  | object fields => exact Keys.check_eq_ok_iff.2 fun hclash => h ⟨fields, rfl, hclash⟩
  | null => rfl
  | bool value => rfl
  | integer value => rfl
  | real bits => rfl
  | string value => rfl
  | array items => rfl

theorem resolve_ofMain (target : Json) :
    resolve context ".".toList (ofMain target) =
      orNotExported ".".toList
        (if target.isTruthy then Target.resolve { context with capture := none } target
          else pure none) :=
  rfl

theorem ne_dot_of_dotSlash (h : "./".toList.isPrefixOf subpath) : subpath ≠ ".".toList := by
  rintro rfl
  revert h
  decide

theorem select?_ofMain (h : "./".toList.isPrefixOf subpath) (target : Json) :
    SubpathMap.select? [(".".toList, target)] subpath = none := by
  apply SubpathMap.select?_eq_none
  · rintro ⟨-, hmem⟩
    exact ne_dot_of_dotSlash h (by simpa using hmem)
  · intro key hkey capture hmatches
    have hdot : key = ".".toList := by simpa using hkey
    subst hdot
    exact absurd hmatches.count_eq_one (by decide)

theorem resolve?_ofMain (h : "./".toList.isPrefixOf subpath) (target : Json) :
    resolve? context subpath (ofMain target) = pure none := by
  have hmap : subpathMap? (ofMain target) = some [(".".toList, target)] := rfl
  rw [resolve?, if_neg (ne_dot_of_dotSlash h), hmap]
  simp only [h, if_true, SubpathMap.resolve, select?_ofMain h]

theorem subpathMap?_of_not_mapsSubpaths (h : ¬MapsSubpaths exports) :
    exports = .object [] ∨ subpathMap? exports = none := by
  cases exports with
  | object fields =>
      cases fields with
      | nil => exact .inl rfl
      | cons field rest =>
          right
          have hnot : isSubpathMap (.object (field :: rest)) = false := by
            rw [Bool.eq_false_iff]
            intro hall
            exact h ⟨field :: rest, rfl, List.cons_ne_nil _ _, fun other hother =>
              List.all_eq_true.1 hall other hother⟩
          rw [subpathMap?, hnot]
          rfl
  | null => exact .inr rfl
  | bool value => exact .inr rfl
  | integer value => exact .inr rfl
  | real bits => exact .inr rfl
  | string value => exact .inr rfl
  | array items => exact .inr rfl

theorem resolve?_of_not_mapsSubpaths (h : ¬MapsSubpaths exports)
    (hsubpath : "./".toList.isPrefixOf subpath) :
    resolve? context subpath exports = pure none := by
  rw [resolve?, if_neg (ne_dot_of_dotSlash hsubpath)]
  rcases subpathMap?_of_not_mapsSubpaths h with rfl | hnone
  · have hmap : subpathMap? (.object []) = some [] := rfl
    have hselect : SubpathMap.select? [] subpath = none := by
      apply SubpathMap.select?_eq_none
      · rintro ⟨-, hmem⟩
        cases hmem
      · intro key hkey
        cases hkey
    simp only [hmap, hsubpath, if_true, SubpathMap.resolve, hselect]
  · rw [hnone]

/-- Exports that are no map of subpaths say the same as a map with them under the key for the
package.  For a subpath both say that it is not exported, unless the keys of the exports clash.
Under a key such a clash is not seen. -/
theorem resolve_shorthand (context : TargetContext) (exports : Json) (h : ¬MapsSubpaths exports) :
    resolve context ".".toList exports = resolve context ".".toList (ofMain exports) ∧
      ∀ subpath, "./".toList.isPrefixOf subpath ->
        (resolve context subpath (ofMain exports)).outcome =
            .error (.resolution (.packagePathNotExported subpath)) ∧
          (HasClash exports -> (resolve context subpath exports).outcome =
            .error (.resolution (.invalidPackageConfiguration context.package))) ∧
          (¬HasClash exports -> (resolve context subpath exports).outcome =
            .error (.resolution (.packagePathNotExported subpath))) := by
  refine ⟨?_, fun subpath hsubpath => ⟨?_, fun hclash => ?_, fun hclash => ?_⟩⟩
  · rw [resolve_ofMain]
    by_cases hclash : HasClash exports
    · rw [resolve_of_clash hclash]
      obtain ⟨fields, rfl, hkeys⟩ := hclash
      have htruthy : (Json.object fields).isTruthy = true := rfl
      rw [if_pos htruthy, Target.resolve, hkeys.check_eq]
      rfl
    · rw [resolve_of_check (checkKeys_of_not_hasClash hclash), resolve?, if_pos rfl]
      rcases subpathMap?_of_not_mapsSubpaths h with rfl | hnone
      · rfl
      · rw [mainTarget, hnone]
  · have hkeys : checkKeys context.package (ofMain exports) = .ok () := rfl
    rw [resolve_of_check hkeys]
    exact outcome_orNotExported_of_none (congrArg _ (resolve?_ofMain hsubpath exports))
  · rw [resolve_of_clash hclash]
    rfl
  · rw [resolve_of_check (checkKeys_of_not_hasClash hclash)]
    exact outcome_orNotExported_of_none (congrArg _ (resolve?_of_not_mapsSubpaths h hsubpath))

def nodeContext : TargetContext := ⟨"/".toList, "/p".toList, ["node".toList], none, none⟩

def conditionExports : Json :=
  .object [("node".toList, .string "./a.js".toList)]

def indexExports : Json :=
  .object [("node".toList, .null), ("0".toList, .null)]

theorem resolve_shorthand_conditions :
    ¬MapsSubpaths conditionExports ∧ ¬HasClash conditionExports ∧
      ¬MapsSubpaths indexExports ∧ HasClash indexExports ∧
      resolve nodeContext ".".toList conditionExports =
        resolve nodeContext ".".toList (ofMain conditionExports) ∧
      (resolve nodeContext ".".toList conditionExports).outcome =
        .ok "file:///p/a.js".toList ∧
      (resolve nodeContext "./b.js".toList conditionExports).outcome =
        .error (.resolution (.packagePathNotExported "./b.js".toList)) ∧
      (resolve nodeContext "./b.js".toList indexExports).outcome =
        .error (.resolution (.invalidPackageConfiguration "/p".toList)) := by
  have hmaps : ∀ value rest, ¬MapsSubpaths (.object (("node".toList, value) :: rest)) := by
    rintro value rest ⟨fields, hfields, -, hall⟩
    cases hfields
    cases hall _ List.mem_cons_self
  have hconditions : ¬HasClash conditionExports := by
    rintro ⟨fields, hfields, hclash⟩
    cases hfields
    exact Keys.check_eq_ok_iff.1 (rfl : Keys.check [] ["node".toList] = .ok ()) hclash
  have hindex : HasClash indexExports :=
    ⟨_, rfl, .inl ⟨"0".toList, List.mem_cons_of_mem _ List.mem_cons_self, rfl⟩⟩
  obtain ⟨hmain, hsubpath⟩ := resolve_shorthand nodeContext conditionExports (hmaps _ _)
  obtain ⟨-, hother⟩ := resolve_shorthand nodeContext indexExports (hmaps _ _)
  exact ⟨hmaps _ _, hconditions, hmaps _ _, hindex, hmain, rfl, (hsubpath _ rfl).2.2 hconditions,
    (hother _ rfl).2.1 hindex⟩

end Exports

end Package

end ModuleResolution
