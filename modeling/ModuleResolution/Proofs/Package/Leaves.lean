import ModuleResolution.Package.Exports
import ModuleResolution.Proofs.Association
import ModuleResolution.Proofs.Trace

/-!
# Texts in targets

What a target gives is what one of the texts in it gives, however deep it stands in choices and
lists, and what `exports` give is what a text in them gives.
-/

namespace ModuleResolution

namespace Package

/-- The text stands in the value, at any depth. -/
inductive IsLeaf (text : Text) : Json -> Prop where
  | text : IsLeaf text (.string text)
  | field {fields : Json.Fields} {key : Text} {value : Json} :
      (key, value) ∈ fields -> IsLeaf text value -> IsLeaf text (.object fields)
  | item {items : List Json} {value : Json} :
      value ∈ items -> IsLeaf text value -> IsLeaf text (.array items)

namespace Target

theorem fill_dotSlash (context : TargetContext) (rest : Text) :
    fill context ('.' :: '/' :: rest) = '.' :: '/' :: fill context rest := by
  unfold fill
  cases context.capture <;> rfl

section Text

variable {context : TargetContext} {target text url : Text}

/-- The checks that a target path has passed when it gives a URL, which is where the filled target
leads. -/
theorem of_resolvePath_eq_ok (h : (resolvePath context target).outcome = .ok url) :
    Segment.isLegalPath (target.drop 2) ∧
      (∀ capture, context.capture = some capture -> Segment.isLegalPath capture) ∧
      Url.join (Url.File.ofDirectory context.workingDirectory context.package)
        (fill context target) = .ok url := by
  unfold resolvePath at h
  split at h
  · cases h
  · next hlegal =>
      have hlegal : Segment.isLegalPath (target.drop 2) = true := by simpa using hlegal
      simp only at h
      rw [Traced.outcome_bind_eq_ok] at h
      obtain ⟨raw, hraw, h⟩ := h
      have hraw := Traced.outcome_ofUrl_eq_ok.1 hraw
      split at h
      · cases h
      · cases hcapture : context.capture with
        | none =>
            rw [hcapture] at h
            cases h
            refine ⟨hlegal, (fun _ hc => by cases hc), ?_⟩
            rw [fill, hcapture]
            exact hraw
        | some capture =>
            rw [hcapture] at h
            simp only at h
            split at h
            · cases h
            · next hlegal' =>
                refine ⟨hlegal, fun c hc => ?_, Traced.outcome_ofUrl_eq_ok.1 h⟩
                cases hc
                simpa using hlegal'

/-- The text can only be meant as the name of another package. -/
structure NamesPackage (text : Text) : Prop where
  not_inside : "./".toList.isPrefixOf text = false
  not_above : "../".toList.isPrefixOf text = false
  not_absolute : "/".toList.isPrefixOf text = false
  not_url : Url.isAbsolute text = false

theorem resolveText_of_namesPackage {lookup : Text -> Traced Text} (h : NamesPackage text)
    (hexternal : context.external = some lookup) :
    resolveText context text = lookup (fill context text) := by
  rw [resolveText, h.not_inside, if_neg Bool.false_ne_true, hexternal]
  simp only [h.not_above, h.not_absolute, h.not_url, Bool.or_self, Bool.false_eq_true, if_false]

theorem resolveText_eq_ok_iff :
    (resolveText context text).outcome = .ok url ↔
      ("./".toList.isPrefixOf text ∧ (resolvePath context text).outcome = .ok url) ∨
        (NamesPackage text ∧ ∃ lookup, context.external = some lookup ∧
          (lookup (fill context text)).outcome = .ok url) := by
  constructor
  · intro h
    cases hinside : "./".toList.isPrefixOf text with
    | true =>
        rw [resolveText, if_pos hinside] at h
        exact .inl ⟨rfl, h⟩
    | false =>
        right
        cases hexternal : context.external with
        | none =>
            rw [resolveText, hinside, if_neg Bool.false_ne_true, hexternal] at h
            cases h
        | some lookup =>
            have hname : NamesPackage text := by
              rw [resolveText, hinside, if_neg Bool.false_ne_true, hexternal] at h
              simp only at h
              split at h
              · cases h
              · next hnot =>
                  simp only [Bool.or_eq_true, not_or, Bool.not_eq_true] at hnot
                  exact ⟨hinside, hnot.1.1, hnot.1.2, hnot.2⟩
            rw [resolveText_of_namesPackage hname hexternal] at h
            exact ⟨hname, lookup, rfl, h⟩
  · rintro (⟨hinside, h⟩ | ⟨hname, lookup, hexternal, h⟩)
    · rwa [resolveText, if_pos hinside]
    · rwa [resolveText_of_namesPackage hname hexternal]

theorem of_resolveText_eq_ok (hexternal : context.external = none)
    (h : (resolveText context target).outcome = .ok url) :
    "./".toList.isPrefixOf target ∧ (resolvePath context target).outcome = .ok url := by
  rcases resolveText_eq_ok_iff.1 h with h | ⟨-, lookup, hlookup, -⟩
  · exact h
  · rw [hexternal] at hlookup
    cases hlookup

end Text

variable (context : TargetContext)

mutual

theorem exists_leaf_of_resolve {url : Text} : ∀ target : Json,
    (resolve context target).outcome = .ok (some url) ->
      ∃ text, IsLeaf text target ∧ (resolveText context text).outcome = .ok url
  | .string text, h => by
      rw [resolve, Traced.outcome_bind_eq_ok] at h
      obtain ⟨value, hvalue, hsome⟩ := h
      cases hsome
      exact ⟨text, .text, hvalue⟩
  | .object fields, h => by
      rw [resolve] at h
      cases hkeys : Keys.check context.package (fields.map Prod.fst) with
      | error error => rw [hkeys] at h; cases h
      | ok _ =>
          rw [hkeys] at h
          obtain ⟨key, value, text, hmem, hleaf, hurl⟩ :=
            exists_leaf_of_resolveFirstActive fields h
          exact ⟨text, .field hmem hleaf, hurl⟩
  | .array items, h => by
      rw [resolve] at h
      obtain ⟨value, text, hmem, hleaf, hurl⟩ := exists_leaf_of_resolveFirstItem items h
      exact ⟨text, .item hmem hleaf, hurl⟩
  | .null, h => by rw [resolve] at h; cases h
  | .bool _, h => by rw [resolve] at h; cases h
  | .integer _, h => by rw [resolve] at h; cases h
  | .real _, h => by rw [resolve] at h; cases h

theorem exists_leaf_of_resolveFirstActive {url : Text} : ∀ fields : Json.Fields,
    (resolveFirstActive context fields).outcome = .ok (some url) ->
      ∃ key value text, (key, value) ∈ fields ∧ IsLeaf text value ∧
        (resolveText context text).outcome = .ok url
  | [], h => by rw [resolveFirstActive] at h; cases h
  | (condition, target) :: rest, h => by
      have hrest : (resolveFirstActive context rest).outcome = .ok (some url) ->
          ∃ key value text, (key, value) ∈ (condition, target) :: rest ∧ IsLeaf text value ∧
            (resolveText context text).outcome = .ok url := by
        intro hr
        obtain ⟨key, value, text, hmem, hleaf, hurl⟩ := exists_leaf_of_resolveFirstActive rest hr
        exact ⟨key, value, text, List.mem_cons_of_mem _ hmem, hleaf, hurl⟩
      rw [resolveFirstActive] at h
      split at h
      · rw [Traced.outcome_bind_eq_ok] at h
        obtain ⟨given, hgiven, hnext⟩ := h
        cases given with
        | none => exact hrest hnext
        | some value =>
            cases hnext
            obtain ⟨text, hleaf, hurl⟩ := exists_leaf_of_resolve target hgiven
            exact ⟨condition, target, text, List.mem_cons_self, hleaf, hurl⟩
      · exact hrest h

theorem exists_leaf_of_resolveFirstItem {url : Text} : ∀ items : List Json,
    (resolveFirstItem context items).outcome = .ok (some url) ->
      ∃ value text, value ∈ items ∧ IsLeaf text value ∧
        (resolveText context text).outcome = .ok url
  | [], h => by rw [resolveFirstItem] at h; cases h
  | target :: rest, h => by
      have hfirst : (resolve context target).outcome = .ok (some url) ->
          ∃ value text, value ∈ target :: rest ∧ IsLeaf text value ∧
            (resolveText context text).outcome = .ok url := by
        intro hf
        obtain ⟨text, hleaf, hurl⟩ := exists_leaf_of_resolve target hf
        exact ⟨target, text, List.mem_cons_self, hleaf, hurl⟩
      have hrest : (resolveFirstItem context rest).outcome = .ok (some url) ->
          ∃ value text, value ∈ target :: rest ∧ IsLeaf text value ∧
            (resolveText context text).outcome = .ok url := by
        intro hr
        obtain ⟨value, text, hmem, hleaf, hurl⟩ := exists_leaf_of_resolveFirstItem rest hr
        exact ⟨value, text, List.mem_cons_of_mem _ hmem, hleaf, hurl⟩
      rw [resolveFirstItem] at h
      split at h
      · exact hfirst h
      · exact hrest h
      · split at h
        · exact hrest h
        · exact hfirst h

end

end Target

/-! ## Selected targets -/

namespace SubpathMap

/-- A selected target is the value of a field, and a capture is what stands for the star of its
key. -/
theorem exists_field_of_select? {fields : Json.Fields} {subject : Text} {target : Json}
    {capture : Option Text} (h : select? fields subject = some (target, capture)) :
    ∃ key, (key, target) ∈ fields ∧
      ∀ captured, capture = some captured -> PatternKey.capture? key subject = some captured := by
  unfold select? at h
  split at h
  · next found hfound =>
      cases h
      split at hfound
      · cases hfound
      · exact ⟨subject, Association.mem_of_get?_eq_some hfound, fun _ hc => by cases hc⟩
  · obtain ⟨⟨found, captured⟩, hfirst, hpair⟩ := Option.map_eq_some_iff.1 h
    cases hpair
    obtain ⟨key, hkey, hcapture⟩ : ∃ key, (key, target) ∈ fields ∧
        PatternKey.capture? key subject = some captured := by
      revert hfirst
      generalize PatternKey.expansionKeys (fields.map Prod.fst) = keys
      intro hfirst
      induction keys with
      | nil => cases hfirst
      | cons key rest ih =>
          rw [firstMatch?] at hfirst
          split at hfirst
          · next hcapture =>
              obtain ⟨value, hvalue, hpair⟩ := Option.map_eq_some_iff.1 hfirst
              cases hpair
              exact ⟨key, Association.mem_of_get?_eq_some hvalue, hcapture⟩
          · exact ih hfirst
    exact ⟨key, hkey, fun _ hc => by cases hc; exact hcapture⟩

end SubpathMap

namespace Exports

theorem eq_object_of_subpathMap? {exports : Json} {fields : Json.Fields}
    (h : subpathMap? exports = some fields) : exports = .object fields := by
  unfold subpathMap? at h
  split at h
  · split at h
    · cases h
      rfl
    · cases h
  · cases h

theorem isLeaf_of_mainTarget {exports : Json} {text : Text} (h : IsLeaf text (mainTarget exports)) :
    IsLeaf text exports := by
  unfold mainTarget subpathMap? at h
  cases exports with
  | object fields =>
      simp only at h
      split at h
      · next found hfound =>
          split at hfound
          · cases hfound
            cases hget : Association.get? ".".toList fields with
            | none => rw [hget] at h; cases h
            | some value =>
                rw [hget] at h
                exact .field (Association.mem_of_get?_eq_some hget) h
          · cases hfound
      · exact h
  | null => exact h
  | bool value => exact h
  | integer value => exact h
  | real bits => exact h
  | string value => exact h
  | array items => exact h

/-- The text stands in `exports` with this capture: in the value of a pattern whose star takes the
capture of the subpath, or anywhere if there is no capture. -/
def Offers (exports : Json) (subpath text : Text) : Option Text -> Prop
  | none => IsLeaf text exports
  | some captured => ∃ fields key target, exports = .object fields ∧ (key, target) ∈ fields ∧
      PatternKey.capture? key subpath = some captured ∧ IsLeaf text target

theorem exists_offers_of_resolve {context : TargetContext} {subpath url : Text} {exports : Json}
    (h : (resolve context subpath exports).outcome = .ok url) :
    ∃ text capture, Offers exports subpath text capture ∧
      (Target.resolveText { context with capture } text).outcome = .ok url := by
  have hresolve : (resolve? context subpath exports).outcome = .ok (some url) := by
    unfold resolve at h
    split at h
    · cases h
    · rw [Traced.outcome_bind_eq_ok] at h
      obtain ⟨given, hgiven, hnext⟩ := h
      cases given with
      | none => cases hnext
      | some value => cases hnext; exact hgiven
  unfold resolve? at hresolve
  split at hresolve
  · simp only at hresolve
    split at hresolve
    · obtain ⟨text, hleaf, hurl⟩ := Target.exists_leaf_of_resolve _ _ hresolve
      exact ⟨text, none, isLeaf_of_mainTarget hleaf, hurl⟩
    · cases hresolve
  · split at hresolve
    · cases hresolve
    · next fields hfields =>
        obtain rfl := eq_object_of_subpathMap? hfields
        split at hresolve
        · unfold SubpathMap.resolve at hresolve
          split at hresolve
          · cases hresolve
          · next target capture hselect =>
              obtain ⟨text, hleaf, hurl⟩ := Target.exists_leaf_of_resolve _ _ hresolve
              obtain ⟨key, hmem, hcapture⟩ := SubpathMap.exists_field_of_select? hselect
              refine ⟨text, capture, ?_, hurl⟩
              cases capture with
              | none => exact .field hmem hleaf
              | some captured => exact ⟨fields, key, target, rfl, hmem, hcapture _ rfl, hleaf⟩
        · cases hresolve

end Exports

end Package

end ModuleResolution
