import ModuleResolution.Association

/-!
# The environment

The variables of a process that settings are taken from.
-/

namespace ModuleResolution

/-- The variables of a process with their values. -/
abbrev Environment := List (Text × Text)

namespace Environment

inductive Variable where
  | config
  | conditions
  | experimentalFlags
  | disableCache
  | logLevel
  | nodeOptions
  deriving DecidableEq, Repr

def Variable.name : Variable -> Text
  | .config => "ESMRESOLVE_CONFIG".toList
  | .conditions => "ESMRESOLVE_CONDITIONS".toList
  | .experimentalFlags => "ESMRESOLVE_EXPERIMENTAL_FLAGS".toList
  | .disableCache => "ESMRESOLVE_DISABLE_CACHE".toList
  | .logLevel => "ESMRESOLVE_LOG_LEVEL".toList
  | .nodeOptions => "NODE_OPTIONS".toList

def Variable.all : List Variable :=
  [.config, .conditions, .experimentalFlags, .disableCache, .logLevel, .nodeOptions]

/-- The value of a variable.  One that is not set is empty. -/
def value (environment : Environment) (which : Variable) : Text :=
  (Association.get? which.name environment).getD []

/-- The value of a variable that is not empty. -/
def value? (environment : Environment) (which : Variable) : Option Text :=
  let value := environment.value which
  if value.isEmpty then none else some value

end Environment

end ModuleResolution
