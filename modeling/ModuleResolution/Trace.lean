import ModuleResolution.Error
import ModuleResolution.Format

/-!
# Traces

What happens during a resolution: which files the answer rests on and which steps are worth a
message.  A traced computation has an outcome and the events up to it, also when it fails.
-/

namespace ModuleResolution

/-- One thing that happens during a resolution. -/
inductive Event where
  /-- The answer may depend on these paths. -/
  | consulted (paths : List Text)
  | scopeFound (path scope : Text)
  | packageFound (name path : Text)
  | cacheHit (specifier parent : Text)
  | failed (specifier parent : Text) (error : ResolutionError)
  | resolved (specifier parent target : Text)
  | stored (specifier parent : Text)
  deriving DecidableEq, Repr

namespace Event

def message? : Event -> Option Text
  | .consulted _ => none
  | .scopeFound path scope =>
      some ("Package scope for ".toList ++ path ++ " is ".toList ++ scope)
  | .packageFound name _ => some ("Found package ".toList ++ name)
  | .cacheHit _ _ => some "Resolution cache hit".toList
  | .failed _ _ error => some ("Resolution failed: ".toList ++ error.message)
  | .resolved specifier _ target =>
      some ("Resolved ".toList ++ specifier ++ " to ".toList ++ target)
  | .stored specifier _ =>
      some ("Stored resolution of ".toList ++ specifier ++ " in cache".toList)

def kind : Event -> Text
  | .consulted _ => "consulted".toList
  | .scopeFound _ _ => "package_scope".toList
  | .packageFound _ _ => "package_found".toList
  | .cacheHit _ _ => "cache_hit".toList
  | .failed _ _ _ => "resolve".toList
  | .resolved _ _ _ => "resolve".toList
  | .stored _ _ => "cache_store".toList

def details : Event -> List (Text × Text)
  | .consulted _ => []
  | .scopeFound _ scope => [("path".toList, scope)]
  | .packageFound name path => [("package".toList, name), ("path".toList, path)]
  | .cacheHit specifier parent =>
      [("specifier".toList, specifier), ("parent".toList, parent)]
  | .failed specifier parent error =>
      [("outcome".toList, "error".toList), ("error".toList, error.name),
        ("specifier".toList, specifier), ("parent".toList, parent)]
  | .resolved specifier parent target =>
      [("outcome".toList, "success".toList), ("specifier".toList, specifier),
        ("parent".toList, parent), ("target".toList, target)]
  | .stored specifier parent => [("specifier".toList, specifier), ("parent".toList, parent)]

end Event

/-- An outcome with the events that led to it. -/
structure Traced (α : Type) where
  events : List Event
  outcome : Except Failure α
  deriving Repr

namespace Traced

/-- An outcome without events. -/
def ofOutcome {α : Type} (outcome : Except Failure α) : Traced α :=
  ⟨[], outcome⟩

def emit (events : List Event) : Traced Unit :=
  ⟨events, .ok ()⟩

/-- A failure without events. -/
def fail {α : Type} (failure : Failure) : Traced α :=
  ⟨[], .error failure⟩

/-- A resolution error without events. -/
def reject {α : Type} (error : ResolutionError) : Traced α :=
  fail (.resolution error)

def after {α : Type} (events : List Event) (run : Traced α) : Traced α :=
  ⟨events ++ run.events, run.outcome⟩

/-- Go on with the result of a computation. -/
def andThen {α β : Type} (run : Traced α) (next : α -> Traced β) : Traced β :=
  match run.outcome with
  | .ok result => after run.events (next result)
  | .error failure => ⟨run.events, .error failure⟩

instance : Monad Traced where
  pure result := ⟨[], .ok result⟩
  bind := andThen

@[simp] theorem outcome_pure {α : Type} (result : α) :
    (pure result : Traced α).outcome = .ok result := rfl

@[simp] theorem outcome_bind {α β : Type} (run : Traced α) (next : α -> Traced β) :
    (run >>= next).outcome = run.outcome >>= fun result => (next result).outcome := by
  show (andThen run next).outcome = _
  unfold andThen
  cases run.outcome <;> rfl

@[simp] theorem outcome_emit (events : List Event) : (emit events).outcome = .ok () := rfl

@[simp] theorem outcome_ofOutcome {α : Type} (outcome : Except Failure α) :
    (ofOutcome outcome).outcome = outcome := rfl

@[simp] theorem outcome_fail {α : Type} (failure : Failure) :
    (fail failure : Traced α).outcome = .error failure := rfl

@[simp] theorem outcome_after {α : Type} (events : List Event) (run : Traced α) :
    (after events run).outcome = run.outcome := rfl

/-- A URL function's outcome as that of a resolution. -/
def ofUrl {α : Type} (outcome : Except Url.SyntaxError α) : Traced α :=
  ofOutcome (outcome.mapError fun cause => .fault (.url cause))

end Traced

end ModuleResolution
