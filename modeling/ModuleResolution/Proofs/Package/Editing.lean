import ModuleResolution.Package.Target
import ModuleResolution.Proofs.Trace

/-!
# Edits of targets

A list falls back from each item to those after it, and falling back is associative.  An edit deep
in a target that keeps what the edited value gives keeps what the whole gives.  An error that lists
do not pass over comes up from any depth, if the resolution gets to the place where it arises.
-/

namespace ModuleResolution

/-- The second value is the first one with an edit at one place, at any depth. -/
inductive Json.Somewhere (edit : Json -> Json -> Prop) : Json -> Json -> Prop where
  | here {old new : Json} : edit old new -> Somewhere edit old new
  | field {before after : Json.Fields} {key : Text} {old new : Json} :
      Somewhere edit old new ->
      Somewhere edit (.object (before ++ (key, old) :: after))
        (.object (before ++ (key, new) :: after))
  | item {before after : List Json} {old new : Json} :
      Somewhere edit old new ->
      Somewhere edit (.array (before ++ old :: after)) (.array (before ++ new :: after))

namespace Traced

variable {α β : Type} {escapes : Failure -> Prop} {run run' : Traced α}

theorem after_after (events events' : List Event) (run : Traced α) :
    after events (after events' run) = after (events ++ events') run := by
  simp only [after, List.append_assoc]

def SameUnless (escapes : Failure -> Prop) (run run' : Traced α) : Prop :=
  run' = run ∨ ∃ failure, escapes failure ∧ run.outcome = .error failure

theorem sameUnless_false_iff : SameUnless (fun _ => False) run run' ↔ run' = run := by
  simp [SameUnless]

theorem SameUnless.bind (h : SameUnless escapes run run') (next : α -> Traced β) :
    SameUnless escapes (run >>= next) (run' >>= next) := by
  rcases h with rfl | ⟨failure, hescapes, hrun⟩
  · exact .inl rfl
  · exact .inr ⟨failure, hescapes, outcome_bind_of_error hrun⟩

theorem SameUnless.bind_next {next next' : α -> Traced β}
    (h : ∀ result, SameUnless escapes (next result) (next' result)) (run : Traced α) :
    SameUnless escapes (run >>= next) (run >>= next') := by
  cases hrun : run.outcome with
  | error failure =>
      left
      show andThen run next' = andThen run next
      simp only [andThen, hrun]
  | ok result =>
      rcases h result with hsame | ⟨failure, hescapes, hnext⟩
      · left
        show andThen run next' = andThen run next
        simp only [andThen, hrun, hsame]
      · right
        exact ⟨failure, hescapes, (outcome_bind_of_ok hrun).trans hnext⟩

end Traced

namespace Package

namespace Target

open Traced (SameUnless)

/-! ## Falling back -/

/-- Does a list pass over an item with this outcome?  It depends on whether the item is the last
one. -/
def isSkipped (last : Bool) : Except Failure (Option Text) -> Bool
  | .ok (some _) => false
  | .ok none => true
  | .error failure => isInvalidTarget failure && !last

def fallBack (last : Bool) (first next : Traced (Option Text)) : Traced (Option Text) :=
  if isSkipped last first.outcome then Traced.after first.events next else first

theorem isSkipped_of_last {last : Bool} {outcome : Except Failure (Option Text)}
    (h : isSkipped last outcome) : isSkipped false outcome := by
  cases outcome with
  | error failure => simp_all [isSkipped]
  | ok given => cases given <;> simp_all [isSkipped]

theorem fallBack_of_isSkipped {last : Bool} {first next : Traced (Option Text)}
    (h : isSkipped last first.outcome) :
    fallBack last first next = Traced.after first.events next := by
  rw [fallBack, if_pos h]

theorem fallBack_of_not_isSkipped {last : Bool} {first next : Traced (Option Text)}
    (h : isSkipped last first.outcome = false) : fallBack last first next = first := by
  rw [fallBack, h, if_neg Bool.false_ne_true]

theorem fallBack_assoc (last : Bool) (first second third : Traced (Option Text)) :
    fallBack last (fallBack false first second) third =
      fallBack false first (fallBack last second third) := by
  cases hfirst : isSkipped false first.outcome with
  | false =>
      have hlast : isSkipped last first.outcome = false := by
        refine Bool.eq_false_iff.2 fun h => ?_
        rw [isSkipped_of_last h] at hfirst
        cases hfirst
      rw [fallBack_of_not_isSkipped hfirst, fallBack_of_not_isSkipped hfirst,
        fallBack_of_not_isSkipped hlast]
  | true =>
      rw [fallBack_of_isSkipped hfirst, fallBack_of_isSkipped hfirst]
      cases hsecond : isSkipped last second.outcome with
      | false =>
          rw [fallBack_of_not_isSkipped hsecond]
          exact fallBack_of_not_isSkipped hsecond
      | true =>
          rw [fallBack_of_isSkipped hsecond, Traced.after_after]
          exact fallBack_of_isSkipped hsecond

theorem fallBack_last (first : Traced (Option Text)) : fallBack true first (pure none) = first := by
  obtain ⟨events, outcome⟩ := first
  cases outcome with
  | error failure => exact fallBack_of_not_isSkipped (by simp [isSkipped])
  | ok given =>
      cases given with
      | some url => exact fallBack_of_not_isSkipped rfl
      | none =>
          rw [fallBack_of_isSkipped rfl]
          exact congrArg (Traced.mk · (.ok none)) (List.append_nil events)

theorem sameUnless_fallBack_first {escapes : Failure -> Prop}
    (hescapes : ∀ failure, escapes failure -> isInvalidTarget failure = false)
    {first first' : Traced (Option Text)} (h : SameUnless escapes first first') (last : Bool)
    (next : Traced (Option Text)) :
    SameUnless escapes (fallBack last first next) (fallBack last first' next) := by
  rcases h with rfl | ⟨failure, hfailure, hfirst⟩
  · exact .inl rfl
  · refine .inr ⟨failure, hfailure, ?_⟩
    rw [fallBack_of_not_isSkipped (by simp [hfirst, isSkipped, hescapes failure hfailure])]
    exact hfirst

theorem sameUnless_fallBack_next {escapes : Failure -> Prop} {next next' : Traced (Option Text)}
    (h : SameUnless escapes next next') (last : Bool) (first : Traced (Option Text)) :
    SameUnless escapes (fallBack last first next) (fallBack last first next') := by
  unfold fallBack
  split
  · rcases h with rfl | ⟨failure, hfailure, hnext⟩
    · exact .inl rfl
    · exact .inr ⟨failure, hfailure, hnext⟩
  · exact .inl rfl

/-! ## Lists and condition maps -/

variable (context : TargetContext)

theorem resolveFirstItem_cons (target : Json) (rest : List Json) :
    resolveFirstItem context (target :: rest) =
      fallBack rest.isEmpty (resolve context target) (resolveFirstItem context rest) := by
  rw [resolveFirstItem]
  unfold fallBack
  cases houtcome : (resolve context target).outcome with
  | error failure => rfl
  | ok given => cases given <;> rfl

theorem resolveFirstItem_append {items : List Json} (hne : items ≠ []) (after : List Json) :
    resolveFirstItem context (items ++ after) =
      fallBack after.isEmpty (resolveFirstItem context items) (resolveFirstItem context after) := by
  induction items with
  | nil => exact absurd rfl hne
  | cons target rest ih =>
      cases rest with
      | nil =>
          have hsingle : resolveFirstItem context [target] = resolve context target := by
            rw [resolveFirstItem_cons, resolveFirstItem]
            exact fallBack_last _
          rw [List.singleton_append, resolveFirstItem_cons, hsingle]
      | cons second others =>
          rw [List.cons_append, resolveFirstItem_cons, ih (List.cons_ne_nil second others),
            resolveFirstItem_cons context target]
          exact (fallBack_assoc _ _ _ _).symm

/-- What an edited value gives decides whether the edit has an influence.  Here `escapes` are
failures that no list passes over. -/
theorem sameUnless_of_somewhere {escapes : Failure -> Prop}
    (hescapes : ∀ failure, escapes failure -> isInvalidTarget failure = false)
    {edit : Json -> Json -> Prop}
    (hedit : ∀ old new, edit old new ->
      SameUnless escapes (resolve context old) (resolve context new))
    {old new : Json} (h : Json.Somewhere edit old new) :
    SameUnless escapes (resolve context old) (resolve context new) := by
  induction h with
  | here h => exact hedit _ _ h
  | @field before after key old new _ ih =>
      have hfields : SameUnless escapes
          (resolveFirstActive context (before ++ (key, old) :: after))
          (resolveFirstActive context (before ++ (key, new) :: after)) := by
        induction before with
        | nil =>
            simp only [List.nil_append, resolveFirstActive]
            split
            · exact ih.bind _
            · exact .inl rfl
        | cons field others ihbefore =>
            simp only [List.cons_append, resolveFirstActive]
            split
            · refine SameUnless.bind_next (fun given => ?_) _
              cases given with
              | none => exact ihbefore
              | some url => exact .inl rfl
            · exact ihbefore
      have hkeys : (before ++ (key, new) :: after).map Prod.fst =
          (before ++ (key, old) :: after).map Prod.fst := by simp
      rw [resolve, resolve, hkeys]
      split
      · exact .inl rfl
      · exact hfields
  | @item before after old new _ ih =>
      rw [resolve, resolve]
      induction before with
      | nil =>
          simp only [List.nil_append, resolveFirstItem_cons]
          exact sameUnless_fallBack_first hescapes ih _ _
      | cons item others ihbefore =>
          have hlast : (others ++ new :: after).isEmpty = (others ++ old :: after).isEmpty := by
            cases others <;> rfl
          simp only [List.cons_append, resolveFirstItem_cons, hlast]
          exact sameUnless_fallBack_next ihbefore _ _

theorem resolve_eq_of_somewhere {edit : Json -> Json -> Prop}
    (hedit : ∀ old new, edit old new -> resolve context new = resolve context old)
    {old new : Json} (h : Json.Somewhere edit old new) :
    resolve context new = resolve context old :=
  Traced.sameUnless_false_iff.1 (sameUnless_of_somewhere context (fun _ => False.elim)
    (fun old new he => .inl (hedit old new he)) h)

end Target

end Package

end ModuleResolution
