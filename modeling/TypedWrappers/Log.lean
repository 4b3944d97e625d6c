/-!
# Log events

What a run tells its user on the way, with how much it matters.
-/

namespace TypedWrappers

/-- How much an event matters. -/
inductive Level
  | debug
  | info
  | warn
  | error
  deriving Repr, DecidableEq

/-- The word for a level. -/
def Level.name : Level → String
  | debug => "debug"
  | info => "info"
  | warn => "warn"
  | error => "error"

/-- Something told on the way. -/
structure Event where
  /-- How much it matters. -/
  level : Level
  /-- What is told. -/
  message : String
  deriving Repr, DecidableEq

namespace Event

/-- An event for those who look closely. -/
def debug (message : String) : Event := ⟨.debug, message⟩

/-- An event for everyone. -/
def info (message : String) : Event := ⟨.info, message⟩

/-- Something that is likely wrong. -/
def warn (message : String) : Event := ⟨.warn, message⟩

/-- Something that is wrong. -/
def error (message : String) : Event := ⟨.error, message⟩

end Event

end TypedWrappers
