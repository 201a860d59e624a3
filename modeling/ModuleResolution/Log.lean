import ModuleResolution.Environment
import ModuleResolution.Text.Case

/-!
# Log messages

Levels of importance with their names and numbers, and messages as they are shown and kept.
-/

namespace ModuleResolution

namespace Log

/-- How important a message is, or has to be to be shown. -/
inductive Level where
  | notSet
  | debug
  | info
  | warning
  | error
  | critical
  deriving DecidableEq, Repr

namespace Level

def number : Level -> Nat
  | .notSet => 0
  | .debug => 10
  | .info => 20
  | .warning => 30
  | .error => 40
  | .critical => 50

/-- The name that a message of a level is marked with. -/
def label : Level -> Text
  | .notSet => "NOTSET".toList
  | .debug => "DEBUG".toList
  | .info => "INFO".toList
  | .warning => "WARNING".toList
  | .error => "ERROR".toList
  | .critical => "CRITICAL".toList

def names : List (Text × Level) :=
  [("CRITICAL".toList, .critical), ("FATAL".toList, .critical), ("ERROR".toList, .error),
    ("WARN".toList, .warning), ("WARNING".toList, .warning), ("INFO".toList, .info),
    ("DEBUG".toList, .debug), ("NOTSET".toList, .notSet)]

def ofName? (name : Text) : Option Level :=
  Association.get? name names

theorem ofName?_label (level : Level) : ofName? level.label = some level := by
  cases level <;> decide

end Level

/-- A name of the log that is no name of a level and cannot stand for one. -/
inductive Reserved where
  | layout
  | layouts
  deriving DecidableEq, Repr

/-- The names that cannot stand for a level. -/
def Reserved.names : List (Text × Reserved) :=
  [("BASIC_FORMAT".toList, .layout), ("_STYLES".toList, .layouts)]

/-- The level from which on messages are shown: the one that is asked for, else that of the
environment, else the one for information.  An unknown name also stands for that one. -/
def threshold (asked : Option Text) (environment : Environment) : Except Reserved Level :=
  let asked := asked.filter fun name => !name.isEmpty
  let name := Text.upper ((asked <|> environment.value? .logLevel).getD Level.info.label)
  match Association.get? name Reserved.names with
  | some reserved => .error reserved
  | none => .ok ((Level.ofName? name).getD .info)

inductive Speaker where
  | command
  | resolver
  deriving DecidableEq, Repr

def Speaker.name : Speaker -> Text
  | .command => "esmresolve.cli".toList
  | .resolver => "esmresolve.resolver".toList

/-- A message. -/
structure Message where
  level : Level
  speaker : Speaker
  text : Text
  deriving DecidableEq, Repr

namespace Message

def reaches (threshold : Level) (message : Message) : Bool :=
  decide (threshold.number <= message.level.number)

def shown (message : Message) : Text :=
  '[' :: message.level.label ++ "] ".toList ++ message.text ++ ['\n']

def kept (message : Message) : Text :=
  message.level.label ++ ' ' :: message.speaker.name ++ ' ' :: message.text

end Message

end Log

end ModuleResolution
