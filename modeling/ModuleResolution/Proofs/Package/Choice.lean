import ModuleResolution.Proofs.Fault.Target
import ModuleResolution.Proofs.Package.Editing

/-!
# What targets choose

A list gives what its first item gives that a list does not pass over, and a condition map what the
first of its active fields gives that gives something.  So a list in a list stands for its items.
-/

namespace ModuleResolution

namespace Package

/-- The condition is in force: it always is, or it is listed. -/
def IsInForce (conditions : List Text) (condition : Text) : Prop :=
  condition = defaultCondition ∨ condition ∈ conditions

instance (conditions : List Text) (condition : Text) : Decidable (IsInForce conditions condition) :=
  inferInstanceAs (Decidable (_ ∨ _))

namespace Target

/-- The list gives what its first deciding element gives, or nothing if no element decides.  Whether
an element decides may depend on those after it. -/
def FirstGives {α : Type} (decides : α -> List α -> Prop)
    (gives : α -> Except Failure (Option Text)) (list : List α)
    (outcome : Except Failure (Option Text)) : Prop :=
  (∃ before element after, list = before ++ element :: after ∧
      (∀ before' other after', before = before' ++ other :: after' ->
        ¬decides other (after' ++ element :: after)) ∧
      decides element after ∧ outcome = gives element) ∨
    ((∀ before element after, list = before ++ element :: after -> ¬decides element after) ∧
      outcome = .ok none)

section FirstGives

variable {α : Type} {decides : α -> List α -> Prop} {gives : α -> Except Failure (Option Text)}
  {outcome : Except Failure (Option Text)}

theorem firstGives_nil_iff : FirstGives decides gives [] outcome ↔ outcome = .ok none := by
  constructor
  · rintro (⟨before, element, after, h, -⟩ | ⟨-, h⟩)
    · cases before <;> cases h
    · exact h
  · exact fun h => .inr ⟨fun before element after h => (by cases before <;> cases h), h⟩

theorem firstGives_cons_iff {first : α} {rest : List α} :
    FirstGives decides gives (first :: rest) outcome ↔
      (decides first rest ∧ outcome = gives first) ∨
        (¬decides first rest ∧ FirstGives decides gives rest outcome) := by
  constructor
  · rintro (⟨before, element, after, h, hbefore, helement, hgives⟩ | ⟨hnone, hgives⟩)
    · cases before with
      | nil =>
          cases h
          exact .inl ⟨helement, hgives⟩
      | cons head others =>
          cases h
          refine .inr ⟨hbefore [] first others rfl, .inl ⟨others, element, after, rfl, ?_,
            helement, hgives⟩⟩
          intro before' other after' h
          exact hbefore (first :: before') other after' (by rw [h, List.cons_append])
    · refine .inr ⟨hnone [] first rest rfl, .inr ⟨?_, hgives⟩⟩
      intro before element after h
      exact hnone (first :: before) element after (by rw [h, List.cons_append])
  · rintro (⟨hfirst, hgives⟩ | ⟨hfirst, ⟨before, element, after, rfl, hbefore, helement, hgives⟩ |
      ⟨hnone, hgives⟩⟩)
    · refine .inl ⟨[], first, rest, rfl, ?_, hfirst, hgives⟩
      intro before' other after' h
      cases before' <;> cases h
    · refine .inl ⟨first :: before, element, after, rfl, ?_, helement, hgives⟩
      intro before' other after' h
      cases before' with
      | nil =>
          cases h
          exact hfirst
      | cons head others =>
          cases h
          exact hbefore others other after' rfl
    · refine .inr ⟨?_, hgives⟩
      intro before element after h
      cases before with
      | nil =>
          cases h
          exact hfirst
      | cons head others =>
          cases h
          exact hnone others element after rfl

end FirstGives

variable (context : TargetContext)

/-! ## Lists -/

/-- The item gives a URL or an error other than that of an invalid target, or also that error if no
item follows. -/
def Decides (item : Json) (after : List Json) : Prop :=
  (∃ url, (resolve context item).outcome = .ok (some url)) ∨
    ∃ failure, (resolve context item).outcome = .error failure ∧
      ((∃ text, failure = .resolution (.invalidPackageTarget text)) -> after = [])

theorem decides_iff {item : Json} {after : List Json} :
    Decides context item after ↔
      isSkipped after.isEmpty (resolve context item).outcome = false := by
  unfold Decides
  cases (resolve context item).outcome with
  | error failure => cases after <;> simp [isSkipped, ← isInvalidTarget_iff]
  | ok given => cases given <;> simp [isSkipped]

theorem resolveFirstItem_eq_iff (items : List Json) (outcome : Except Failure (Option Text)) :
    (resolveFirstItem context items).outcome = outcome ↔
      FirstGives (Decides context) (fun item => (resolve context item).outcome) items outcome := by
  induction items with
  | nil =>
      rw [firstGives_nil_iff, resolveFirstItem]
      exact eq_comm
  | cons item rest ih =>
      rw [firstGives_cons_iff, resolveFirstItem_cons, decides_iff, ← ih]
      cases hskipped : isSkipped rest.isEmpty (resolve context item).outcome with
      | false =>
          rw [fallBack_of_not_isSkipped hskipped]
          simp [eq_comm]
      | true =>
          rw [fallBack_of_isSkipped hskipped]
          simp

/-! ## Condition maps -/

/-- The condition of the field is in force, and its value gives something or fails. -/
def Counts (field : Text × Json) : Prop :=
  IsInForce context.conditions field.1 ∧ (resolve context field.2).outcome ≠ .ok none

theorem isActive_iff {condition : Text} :
    isActive context condition ↔ IsInForce context.conditions condition := by
  simp [isActive, IsInForce]

theorem resolveFirstActive_eq_iff (fields : Json.Fields)
    (outcome : Except Failure (Option Text)) :
    (resolveFirstActive context fields).outcome = outcome ↔
      FirstGives (fun field _ => Counts context field)
        (fun field => (resolve context field.2).outcome) fields outcome := by
  induction fields with
  | nil =>
      rw [firstGives_nil_iff, resolveFirstActive]
      exact eq_comm
  | cons field rest ih =>
      obtain ⟨condition, target⟩ := field
      rw [firstGives_cons_iff, resolveFirstActive, ← ih]
      unfold Counts
      by_cases hactive : isActive context condition
      · have hholds := (isActive_iff context).1 hactive
        rw [if_pos hactive]
        cases htarget : (resolve context target).outcome with
        | error failure =>
            rw [Traced.outcome_bind_of_error htarget]
            simp [hholds, eq_comm]
        | ok given =>
            rw [Traced.outcome_bind_of_ok htarget]
            cases given with
            | none => simp
            | some url => simp [hholds, eq_comm]
      · have hholds := mt (isActive_iff context).2 hactive
        rw [if_neg hactive]
        simp [hholds]

/-! ## Lists in lists -/

/-- A list that is an item of a list and has items itself is replaced by them. -/
inductive Splices : Json -> Json -> Prop where
  | mk (before : List Json) (first : Json) (rest after : List Json) :
      Splices (.array (before ++ .array (first :: rest) :: after))
        (.array (before ++ first :: rest ++ after))

theorem resolve_eq_of_splices {old new : Json} (h : Splices old new) :
    resolve context new = resolve context old := by
  obtain ⟨before, first, rest, after⟩ := h
  have hitems : resolveFirstItem context (first :: rest ++ after) =
      resolveFirstItem context (.array (first :: rest) :: after) := by
    rw [resolveFirstItem_append context (List.cons_ne_nil first rest),
      resolveFirstItem_cons context (.array (first :: rest)), resolve]
  have hlast : (first :: rest ++ after).isEmpty = false := rfl
  rw [resolve, resolve, List.append_assoc]
  cases before with
  | nil => exact hitems
  | cons head others =>
      rw [resolveFirstItem_append context (List.cons_ne_nil head others),
        resolveFirstItem_append context (List.cons_ne_nil head others), hitems, hlast]
      rfl

/-- What a target gives, by the outcomes of its parts.  A list with items that stands in a list, at
any depth, can be replaced by its items. -/
theorem resolve_gives_first :
    (∀ items outcome, (resolve context (.array items)).outcome = outcome ↔
      FirstGives (Decides context) (fun item => (resolve context item).outcome) items outcome) ∧
    (∀ fields, Keys.check context.package (fields.map Prod.fst) = .ok () ->
      ∀ outcome, (resolve context (.object fields)).outcome = outcome ↔
        FirstGives (fun field _ => Counts context field)
          (fun field => (resolve context field.2).outcome) fields outcome) ∧
    ∀ target target', Json.Somewhere Splices target target' ->
      resolve context target' = resolve context target := by
  refine ⟨fun items outcome => ?_, fun fields hkeys outcome => ?_, fun target target' h => ?_⟩
  · rw [resolve]
    exact resolveFirstItem_eq_iff context items outcome
  · rw [resolve, hkeys]
    exact resolveFirstActive_eq_iff context fields outcome
  · exact resolve_eq_of_somewhere context (fun _ _ => resolve_eq_of_splices context) h

def plainContext : TargetContext := ⟨"/".toList, "/p".toList, [], none, none⟩

def innerList : List Json :=
  [.array [.null, .string "../b.js".toList], .string "./a.js".toList]

theorem resolve_gives_first_nested :
    Keys.check "/p".toList ["node".toList, "default".toList] = .ok () ∧
      FirstGives (Decides plainContext) (fun item => (resolve plainContext item).outcome) innerList
        (.ok (some "file:///p/a.js".toList)) ∧
      FirstGives (fun field _ => Counts plainContext field)
        (fun field => (resolve plainContext field.2).outcome)
        [("node".toList, .null), ("default".toList, .array innerList)]
        (.ok (some "file:///p/a.js".toList)) ∧
      resolve plainContext
          (.object [("default".toList, .array [.null, .string "../b.js".toList,
            .string "./a.js".toList])]) =
        resolve plainContext (.object [("default".toList, .array innerList)]) := by
  obtain ⟨hitems, hfields, hsplice⟩ := resolve_gives_first plainContext
  have hkeys : Keys.check "/p".toList ["node".toList, "default".toList] = .ok () := rfl
  have hlist : (resolve plainContext (.array innerList)).outcome =
      .ok (some "file:///p/a.js".toList) := rfl
  have hmap : (resolve plainContext
      (.object [("node".toList, .null), ("default".toList, .array innerList)])).outcome =
      .ok (some "file:///p/a.js".toList) := rfl
  refine ⟨hkeys, (hitems _ _).1 hlist, ?_, hsplice _ _ ?_⟩
  · exact (hfields [("node".toList, .null), ("default".toList, .array innerList)] hkeys _).1 hmap
  · exact @Json.Somewhere.field Splices [] [] "default".toList _ _
      (.here (.mk [] .null [.string "../b.js".toList] [.string "./a.js".toList]))

end Target

end Package

end ModuleResolution
