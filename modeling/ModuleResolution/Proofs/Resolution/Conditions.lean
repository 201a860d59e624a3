import ModuleResolution.FileSystem.Memory
import ModuleResolution.Proofs.Package.Choice
import ModuleResolution.Proofs.Package.Keys
import ModuleResolution.Resolver

/-!
# Conditions in force

A field of a condition map whose condition is not in force has no influence on a resolution, except
by its key, which is checked with the others.  Nor has the order in which conditions are listed.
-/

namespace ModuleResolution

open Package

namespace Package

def InForceAlike (conditions conditions' : List Text) : Prop :=
  ∀ condition, IsInForce conditions condition ↔ IsInForce conditions' condition

namespace Target

variable (context : TargetContext)

/-! ## Edits of fields that do not apply -/

/-- The value of a field whose condition is not in force is replaced. -/
inductive Overwrites (conditions : List Text) : Json -> Json -> Prop where
  | mk {before after : Json.Fields} {condition : Text} (old new : Json) :
      ¬IsInForce conditions condition ->
      Overwrites conditions (.object (before ++ (condition, old) :: after))
        (.object (before ++ (condition, new) :: after))

/-- A field whose condition is not in force is taken out. -/
inductive Drops (conditions : List Text) : Json -> Json -> Prop where
  | mk {before after : Json.Fields} {condition : Text} (old : Json) :
      ¬IsInForce conditions condition ->
      Drops conditions (.object (before ++ (condition, old) :: after)) (.object (before ++ after))

variable {context}

theorem resolveFirstActive_drop {condition : Text}
    (h : ¬IsInForce context.conditions condition) (before after : Json.Fields) (value : Json) :
    resolveFirstActive context (before ++ (condition, value) :: after) =
      resolveFirstActive context (before ++ after) := by
  induction before with
  | nil =>
      have hactive : ¬isActive context condition := mt (isActive_iff context).1 h
      rw [List.nil_append, resolveFirstActive, if_neg hactive, List.nil_append]
  | cons field others ih =>
      rw [List.cons_append, resolveFirstActive, ih, List.cons_append, resolveFirstActive]

theorem resolve_eq_of_overwrites {old new : Json} (h : Overwrites context.conditions old new) :
    resolve context new = resolve context old := by
  obtain ⟨old, new, hcondition⟩ := h
  rw [resolve, resolve, resolveFirstActive_drop hcondition, resolveFirstActive_drop hcondition]
  simp

theorem sameUnless_of_drops {old new : Json} (h : Drops context.conditions old new) :
    (resolve context old).SameUnless
      (· = .resolution (.invalidPackageConfiguration context.package)) (resolve context new) := by
  cases h with
  | @mk before after condition old hcondition =>
      by_cases hclash : Keys.Clash ((before ++ (condition, old) :: after).map Prod.fst)
      · refine .inr ⟨_, rfl, ?_⟩
        rw [resolve, hclash.check_eq]
        rfl
      · have hkeys : ¬Keys.Clash ((before ++ after).map Prod.fst) := by
          intro hrest
          apply hclash
          apply hrest.mono
          apply List.map_subset
          exact List.append_subset.2 ⟨List.subset_append_left _ _,
            List.subset_append_of_subset_right _ (List.subset_cons_self _ _)⟩
        left
        rw [resolve, resolve, Keys.check_eq_ok_iff.2 hclash, Keys.check_eq_ok_iff.2 hkeys]
        exact (resolveFirstActive_drop hcondition _ _ _).symm

/-! ## Conditions listed differently -/

variable {conditions : List Text}

theorem isActive_of_inForceAlike (h : InForceAlike conditions context.conditions) :
    isActive { context with conditions } = isActive context := by
  funext condition
  rw [Bool.eq_iff_iff, isActive_iff, isActive_iff]
  exact h condition

variable (context)

mutual

theorem resolve_of_inForceAlike (h : InForceAlike conditions context.conditions) : ∀ target : Json,
    resolve { context with conditions } target = resolve context target
  | .string text => by
      rw [resolve, resolve]
      rfl
  | .object fields => by
      rw [resolve, resolve, resolveFirstActive_of_inForceAlike h fields]
  | .array items => by
      rw [resolve, resolve, resolveFirstItem_of_inForceAlike h items]
  | .null => by rw [resolve, resolve]
  | .bool _ => by rw [resolve, resolve]
  | .integer _ => by rw [resolve, resolve]
  | .real _ => by rw [resolve, resolve]

theorem resolveFirstActive_of_inForceAlike (h : InForceAlike conditions context.conditions) :
    ∀ fields : Json.Fields,
    resolveFirstActive { context with conditions } fields = resolveFirstActive context fields
  | [] => by rw [resolveFirstActive, resolveFirstActive]
  | (condition, target) :: rest => by
      rw [resolveFirstActive, resolveFirstActive, isActive_of_inForceAlike h,
        resolve_of_inForceAlike h target, resolveFirstActive_of_inForceAlike h rest]

theorem resolveFirstItem_of_inForceAlike (h : InForceAlike conditions context.conditions) :
    ∀ items : List Json,
    resolveFirstItem { context with conditions } items = resolveFirstItem context items
  | [] => by rw [resolveFirstItem, resolveFirstItem]
  | target :: rest => by
      rw [resolveFirstItem_cons, resolveFirstItem_cons, resolve_of_inForceAlike h target,
        resolveFirstItem_of_inForceAlike h rest]

end

end Target

section Maps

variable (context : TargetContext) {conditions : List Text}

theorem SubpathMap.resolve_of_inForceAlike (h : InForceAlike conditions context.conditions)
    (fields : Json.Fields) (subject : Text) :
    SubpathMap.resolve { context with conditions } fields subject =
      SubpathMap.resolve context fields subject := by
  unfold SubpathMap.resolve
  split
  · rfl
  · next target capture _ =>
      exact Target.resolve_of_inForceAlike { context with capture } h target

theorem Exports.resolve_of_inForceAlike (h : InForceAlike conditions context.conditions)
    (subpath : Text) (exports : Json) :
    Exports.resolve { context with conditions } subpath exports =
      Exports.resolve context subpath exports := by
  have hmain : ∀ target : Json,
      Target.resolve { { context with conditions } with capture := none } target =
        Target.resolve { context with capture := none } target :=
    Target.resolve_of_inForceAlike { context with capture := none } h
  have hgives : Exports.resolve? { context with conditions } subpath exports =
      Exports.resolve? context subpath exports := by
    unfold Exports.resolve?
    simp only [hmain, SubpathMap.resolve_of_inForceAlike context h]
  unfold Exports.resolve
  rw [hgives]

end Maps

end Package

namespace Resolver

def withConditions (resolver : Resolver) (conditions : List Text) : Resolver :=
  { resolver with conditions }

section Listed

variable {resolver : Resolver} {conditions : List Text}
  (h : InForceAlike conditions resolver.conditions)

include h

theorem resolveExports_withConditions (package subpath : Text) (exports : Json) :
    (resolver.withConditions conditions).resolveExports package subpath exports =
      resolver.resolveExports package subpath exports :=
  Exports.resolve_of_inForceAlike (resolver.targetContext package none) h subpath exports

theorem resolveSelf_withConditions (name subpath parent : Text) :
    (resolver.withConditions conditions).resolveSelf name subpath parent =
      resolver.resolveSelf name subpath parent := by
  unfold resolveSelf
  simp only [resolveExports_withConditions h]
  rfl

theorem searchInstalled_withConditions (name subpath : Text) (directories : List Text) :
    (resolver.withConditions conditions).searchInstalled name subpath directories =
      resolver.searchInstalled name subpath directories := by
  have hinstalled : ∀ package manifest,
      (resolver.withConditions conditions).resolveInstalled package subpath manifest =
        resolver.resolveInstalled package subpath manifest := by
    intro package manifest
    unfold resolveInstalled
    rw [resolveExports_withConditions h]
    rfl
  induction directories with
  | nil => rfl
  | cons directory rest ih =>
      unfold searchInstalled
      simp only [ih, hinstalled]
      rfl

theorem resolvePackage_withConditions (specifier parent : Text) :
    (resolver.withConditions conditions).resolvePackage specifier parent =
      resolver.resolvePackage specifier parent := by
  unfold resolvePackage resolveFromInstalled
  simp only [resolveSelf_withConditions h, searchInstalled_withConditions h]

theorem resolveImport_withConditions (specifier parent : Text) :
    (resolver.withConditions conditions).resolveImport specifier parent =
      resolver.resolveImport specifier parent := by
  have hcontext : ∀ package, (resolver.withConditions conditions).importsContext package =
      { resolver.importsContext package with conditions } := by
    intro package
    unfold importsContext
    simp only [resolvePackage_withConditions h]
    rfl
  have hmap : ∀ package fields subject,
      SubpathMap.resolve ((resolver.withConditions conditions).importsContext package) fields
          subject =
        SubpathMap.resolve (resolver.importsContext package) fields subject := by
    intro package fields subject
    rw [hcontext]
    exact SubpathMap.resolve_of_inForceAlike (resolver.importsContext package) h fields subject
  unfold resolveImport resolveOwnImport
  simp only [hmap]
  rfl

theorem resolveReported_withConditions (specifier parent : Text) :
    (resolver.withConditions conditions).resolveReported specifier parent =
      resolver.resolveReported specifier parent := by
  have hurl : (resolver.withConditions conditions).resolvedUrl specifier parent =
      resolver.resolvedUrl specifier parent := by
    unfold resolvedUrl
    simp only [resolveImport_withConditions h, resolvePackage_withConditions h]
    rfl
  unfold resolveReported resolveUncached
  rw [hurl]
  rfl

end Listed

/-- The value under a condition that is not in force is never looked at, and nor is such a field,
unless its key makes the object invalid.  Of the list of conditions only matters which of them it
has. -/
theorem conditions_not_in_force :
    (∀ (context : TargetContext) target target',
      Json.Somewhere (Target.Overwrites context.conditions) target target' ->
        Target.resolve context target' = Target.resolve context target) ∧
    (∀ (context : TargetContext) target target',
      Json.Somewhere (Target.Drops context.conditions) target target' ->
        Target.resolve context target' = Target.resolve context target ∨
          (Target.resolve context target).outcome =
            .error (.resolution (.invalidPackageConfiguration context.package))) ∧
    ∀ (resolver : Resolver) conditions, InForceAlike conditions resolver.conditions ->
      ∀ cache specifier parent,
        (resolver.withConditions conditions).resolve cache specifier parent false =
          resolver.resolve cache specifier parent false := by
  refine ⟨fun context target target' h => ?_, fun context target target' h => ?_,
    fun resolver conditions h cache specifier parent => ?_⟩
  · exact Target.resolve_eq_of_somewhere context (fun _ _ => Target.resolve_eq_of_overwrites) h
  · have hescapes : ∀ failure : Failure,
        failure = .resolution (.invalidPackageConfiguration context.package) ->
          Target.isInvalidTarget failure = false := by
      rintro failure rfl
      rfl
    rcases Target.sameUnless_of_somewhere context hescapes
      (fun _ _ => Target.sameUnless_of_drops) h with hsame | ⟨failure, rfl, hfails⟩
    · exact .inl hsame
    · exact .inr hfails
  · have hparent : parentUrl (resolver.withConditions conditions).workingDirectory parent =
        parentUrl resolver.workingDirectory parent := rfl
    rw [Resolver.resolve, Resolver.resolve, hparent]
    split
    · rfl
    · rw [if_neg Bool.false_ne_true, if_neg Bool.false_ne_true, resolveReported_withConditions h]

def browserFields : Json.Fields :=
  [("browser".toList, .bool true), ("node".toList, .string "./a.js".toList)]

def nodeResolver : Resolver where
  files := FileSystem.Memory.empty.toFileSystem
  conditions := ["node".toList]
  flags := .listed []
  workingDirectory := "/".toList

theorem conditions_not_in_force_browser :
    ¬IsInForce ["node".toList] "browser".toList ∧
      InForceAlike ["node".toList, "default".toList, "node".toList] ["node".toList] ∧
      Target.resolve (nodeResolver.importsContext "/p".toList)
          (.array [.object [("browser".toList, .null), ("node".toList, .string "./a.js".toList)]]) =
        Target.resolve (nodeResolver.importsContext "/p".toList)
          (.array [.object browserFields]) ∧
      Target.resolve (nodeResolver.importsContext "/p".toList)
          (.array [.object [("node".toList, .string "./a.js".toList)]]) =
        Target.resolve (nodeResolver.importsContext "/p".toList)
          (.array [.object browserFields]) ∧
      (nodeResolver.withConditions ["node".toList, "default".toList, "node".toList]).resolve
          Cache.empty "#a".toList "/p/b.js".toList false =
        nodeResolver.resolve Cache.empty "#a".toList "/p/b.js".toList false := by
  obtain ⟨hoverwrites, hdrops, hlisted⟩ := conditions_not_in_force
  have hbrowser : ¬IsInForce ["node".toList] "browser".toList := by decide
  have halike : InForceAlike ["node".toList, "default".toList, "node".toList] ["node".toList] := by
    intro condition
    constructor
    · rintro (hdefault | hlisted)
      · exact .inl hdefault
      · rcases List.mem_cons.1 hlisted with rfl | hlisted
        · exact .inr List.mem_cons_self
        · rcases List.mem_cons.1 hlisted with rfl | hlisted
          · exact .inl rfl
          · exact .inr hlisted
    · rintro (hdefault | hlisted)
      · exact .inl hdefault
      · exact .inr (List.mem_cons_of_mem _ (List.mem_cons_of_mem _ hlisted))
  have hoverwrite : Json.Somewhere (Target.Overwrites ["node".toList])
      (.array [.object browserFields])
      (.array [.object [("browser".toList, .null), ("node".toList, .string "./a.js".toList)]]) :=
    @Json.Somewhere.item _ [] [] _ _ (.here (@Target.Overwrites.mk _ [] _ _ _ _ hbrowser))
  have hdrop : Json.Somewhere (Target.Drops ["node".toList]) (.array [.object browserFields])
      (.array [.object [("node".toList, .string "./a.js".toList)]]) :=
    @Json.Somewhere.item _ [] [] _ _ (.here (@Target.Drops.mk _ [] _ _ _ hbrowser))
  refine ⟨hbrowser, halike, hoverwrites _ _ _ hoverwrite, ?_, hlisted nodeResolver _ halike _ _ _⟩
  have hgives : (Target.resolve (nodeResolver.importsContext "/p".toList)
      (.array [.object browserFields])).outcome = .ok (some "file:///p/a.js".toList) := rfl
  rcases hdrops (nodeResolver.importsContext "/p".toList) _ _ hdrop with hsame | hinvalid
  · exact hsame
  · rw [hgives] at hinvalid
    cases hinvalid

end Resolver

end ModuleResolution
