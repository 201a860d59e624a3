import ModuleResolution.Error

/-!
# Kinds of failures

Failures of one kind are told apart only by their words.  Each resolution error is a kind of its
own; of the faults, those that refuse a value are one kind and those that break an assumption
another.
-/

namespace ModuleResolution

inductive FailureKind where
  | resolution (name : Text)
  | value
  | assumption
  | notFound
  | isDirectory
  | notADirectory
  | notUtf8
  | tooDeep
  deriving DecidableEq, Repr

def ReadFault.kind : ReadFault -> FailureKind
  | .notFound _ => .notFound
  | .isDirectory _ => .isDirectory
  | .notADirectory => .notADirectory
  | .notUtf8 => .notUtf8
  | .tooDeep => .tooDeep

def Fault.kind : Fault -> FailureKind
  | .url _ | .path _ | .notAbsolute _ | .oversizedInteger | .words _ => .value
  | .outsidePackage _ _ | .notASubpath | .notAnImport | .notAFile | .patternKey _ => .assumption
  | .read fault => fault.kind

def Failure.kind : Failure -> FailureKind
  | .resolution error => .resolution error.name
  | .fault cause => cause.kind

/-- Two outcomes are equal results or failures of one kind. -/
def SameOutcome {α : Type} (first second : Except Failure α) : Prop :=
  first.mapError Failure.kind = second.mapError Failure.kind

namespace SameOutcome

variable {α : Type} {first second : Except Failure α}

theorem refl (outcome : Except Failure α) : SameOutcome outcome outcome := rfl

theorem of_eq (h : first = second) : SameOutcome first second := by rw [h]; exact refl second

theorem error {failure failure' : Failure} (h : failure.kind = failure'.kind) :
    SameOutcome (.error failure : Except Failure α) (.error failure') :=
  congrArg Except.error h

theorem eq_ok {result : α} (h : SameOutcome first (.ok result)) : first = .ok result := by
  cases first with
  | error failure => cases h
  | ok value =>
      cases h
      rfl

theorem not_error_ok (failure : Failure) (result : α) :
    ¬SameOutcome (.error failure) (.ok result) := by
  intro h
  cases h.eq_ok

end SameOutcome

end ModuleResolution
